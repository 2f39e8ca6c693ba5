import ScriptLang.Proofs.Classes.Methods
import ScriptLang.Proofs.Frames.Searching

/-!
# Links that come to an end

A frame keeps the frame around it, and a class keeps the class that it extends.  A name or a method is searched, steps
out are counted, and the classes that a class descends from are collected by following such links, as they are kept.
Where this comes to an end, it does so after finitely many links, and there is a derivation for it.

* `Row`, `Search`, `Outward` — following links to the last one, until something is found, and so many of them;
* `Frames.Founded` — frames with an older frame around each of them, but for the global one;
* `Frames.SearchesEnd`, `Class.SearchesEnd` — following the links of frames and of classes ends, and with what the
  operations on frames and classes give.
-/

namespace ScriptLang

open Frames

variable {α β γ : Type} {next : α → Option α} {a : α} {l : List α} {fs fs' : Frames} {p : FrameId}

/-! ### Following links -/

/-- Following the links from `a` on to the last one gives the row `l`. -/
inductive Row (next : α → Option α) : α → List α → Prop
  | last {a : α} : next a = none → Row next a [a]
  | step {a b : α} {l : List α} : next a = some b → Row next b l → Row next a (a :: l)

/-- Following the links from `a` on until something is found ends with `r`; if nothing is found, this is `missing`. -/
inductive Search (next : α → Option α) (look : α → Option β) (missing : β) : α → β → Prop
  | found {a : α} {r : β} : look a = some r → Search next look missing a r
  | missing {a : α} : look a = none → next a = none → Search next look missing a missing
  | onward {a b : α} {r : β} : look a = none → next a = some b → Search next look missing b r →
    Search next look missing a r

/-- Following so many links from a place on leads to another one; if there are fewer, it ends at the last. -/
inductive Outward (next : α → Option α) : Nat → α → α → Prop
  | here {a : α} : Outward next 0 a a
  | root {n : Nat} {a : α} : next a = none → Outward next (n + 1) a a
  | step {n : Nat} {a b c : α} : next a = some b → Outward next n b c → Outward next (n + 1) a c

/-- Where the links end, a search ends, and with the first that is found along the row. -/
lemma Row.search (h : Row next a l) (look : α → Option γ) (give : γ → β) (missing : β) :
    Search next (fun a => (look a).map give) missing a (((l.findSome? look).map give).getD missing) := by
  induction h with
  | @last a hnext =>
    rw [List.findSome?_singleton]
    rcases hlook : look a with _ | r
    · exact .missing (congrArg (Option.map give) hlook) hnext
    · exact .found (congrArg (Option.map give) hlook)
  | @step a b l hnext _ ih =>
    rw [List.findSome?_cons]
    rcases hlook : look a with _ | r
    · exact .onward (congrArg (Option.map give) hlook) hnext ih
    · exact .found (congrArg (Option.map give) hlook)

/-! ### Frames -/

/-- The frame around a frame, as it is kept. -/
def Frames.link (fs : Frames) (i : FrameId) : Option FrameId := (fs.frame i).parent

/-- The frame around each frame was made before it; only the global frame has none. -/
structure Frames.Founded (fs : Frames) : Prop where
  global : globalFrame < fs.size
  older : ∀ i p, fs.link i = some p → p < i
  root : ∀ i < fs.size, fs.link i = none ↔ i = globalFrame

/-- What is done by following the links of frames ends, and with what the operations on frames give: with the row of
frames, with the frame a number of steps out, and with the value or the change of the nearest frame that has a name. -/
structure Frames.SearchesEnd (fs : Frames) : Prop where
  chain : ∀ i, Row fs.link i (fs.chain i)
  ancestor : ∀ hops i, Outward fs.link hops i (fs.ancestor hops i)
  get : ∀ i name, Search fs.link (fun j => ((fs.frame j).get? name).map .ok) (.error (.undefined name)) i
    (fs.get i name)
  assign : ∀ i name v, Search fs.link
    (fun j => if (fs.frame j).binds name then some (update j (fun f => f.assign name v) fs) else none)
    (.error (.undefined name) fs) i (Frames.assign i name v fs)

namespace Frames.Founded

lemma initial (limit : Option Nat) : (Machine.initial limit).frames.Founded := by
  have hlink : ∀ i, (Machine.initial limit).frames.link i = none := fun i => by
    rw [link, frame_initial]
    rfl
  refine ⟨Nat.one_pos, fun i p hp => ?_, fun i hi => ?_⟩
  · rw [hlink] at hp
    cases hp
  · rw [hlink]
    exact iff_of_true rfl (Nat.lt_one_iff.1 hi)

/-- A frame is added inside of one that is there. -/
lemma add (h : fs.Founded) {frame : Frame} (hparent : frame.parent = some p) (hp : p < fs.size) :
    (fs.add frame).Founded := by
  have hlink : ∀ i, (fs.add frame).link i = if i = fs.size then some p else fs.link i := fun i => by
    rw [link, frame_add]
    split
    · exact hparent
    · rfl
  refine ⟨Nat.lt_of_lt_of_le h.global (grows_add frame).size, fun i q hq => ?_, fun i hi => ?_⟩
  · rw [hlink] at hq
    split at hq
    · next heq =>
      cases hq
      exact heq ▸ hp
    · exact h.older i q hq
  · rw [hlink]
    split
    · next heq => exact iff_of_false (Option.some_ne_none p) (heq ▸ Nat.ne_of_gt h.global)
    · next hne =>
      rw [size_add] at hi
      exact h.root i (Nat.lt_of_le_of_ne (Nat.le_of_lt_succ hi) hne)

/-- Other frames in the same places. -/
lemma of_links (h : fs.Founded) (hsize : fs'.size = fs.size) (hlink : ∀ i, fs'.link i = fs.link i) : fs'.Founded := by
  refine ⟨hsize ▸ h.global, fun i p hp => h.older i p ((hlink i).symm.trans hp), fun i hi => ?_⟩
  rw [hlink]
  exact h.root i (hsize ▸ hi)

/-- No link leads to a younger frame, where it would not be followed. -/
lemma parent?_eq (h : fs.Founded) (i : FrameId) : fs.parent? i = fs.link i := by
  unfold Frames.parent?
  rcases hp : (fs.frame i).parent with _ | p
  · rw [link, hp]
    rfl
  · rw [link, hp, Option.filter_some, if_pos (decide_eq_true (h.older i p hp))]

lemma row (h : fs.Founded) (i : FrameId) : Row fs.link i (fs.chain i) := by
  induction i using Nat.strongRecOn with
  | ind i ih =>
    rcases hp : fs.link i with _ | p
    · rw [chain_of_parent?_none ((h.parent?_eq i).trans hp)]
      exact .last hp
    · rw [chain_of_parent? ((h.parent?_eq i).trans hp)]
      exact .step hp (ih p (h.older i p hp))

lemma outward (h : fs.Founded) (hops : Nat) (i : FrameId) : Outward fs.link hops i (fs.ancestor hops i) := by
  induction hops generalizing i with
  | zero => exact .here
  | succ hops ih =>
    rw [Frames.ancestor, h.parent?_eq i]
    rcases hp : fs.link i with _ | p
    · exact .root hp
    · exact .step hp (ih p)

/-- **Every row of frames ends with the global frame.** -/
lemma getLast?_chain (h : fs.Founded) {i : FrameId} (hi : i < fs.size) : (fs.chain i).getLast? = some globalFrame := by
  induction i using Nat.strongRecOn with
  | ind i ih =>
    rcases hp : fs.link i with _ | p
    · rw [chain_of_parent?_none ((h.parent?_eq i).trans hp), (h.root i hi).1 hp]
      rfl
    · have hlt := h.older i p hp
      rw [chain_of_parent? ((h.parent?_eq i).trans hp), List.getLast?_cons, ih p hlt (Nat.lt_trans hlt hi)]
      rfl

/-- **In frames with older ones around them searches end.** -/
theorem searchesEnd (h : fs.Founded) : fs.SearchesEnd := by
  refine ⟨h.row, h.outward, fun i name => ?_, fun i name v => ?_⟩
  · have hget : fs.get i name =
        (((fs.chain i).findSome? fun j => (fs.frame j).get? name).map .ok).getD (.error (.undefined name)) := by
      rw [Frames.get]
      cases (fs.chain i).findSome? fun j => (fs.frame j).get? name <;> rfl
    rw [hget]
    exact (h.row i).search _ _ _
  · have hassign : Frames.assign i name v fs =
        (((fs.chain i).findSome? (Option.guard fun j => (fs.frame j).binds name)).map fun j =>
          update j (fun f => f.assign name v) fs).getD (.error (.undefined name) fs) := by
      rw [List.findSome?_guard, Frames.assign, Frames.holder?]
      cases (fs.chain i).find? fun j => (fs.frame j).binds name <;> rfl
    have hlook : (fun j => if (fs.frame j).binds name then some (update j (fun f => f.assign name v) fs) else none) =
        fun j => (Option.guard (fun j => (fs.frame j).binds name) j).map fun j =>
          update j (fun f => f.assign name v) fs := by
      funext j
      unfold Option.guard
      split <;> rfl
    rw [hassign, hlook]
    exact (h.row i).search _ _ _

end Frames.Founded

/-! ### Classes -/

/-- What is done by following the links of a class to the classes that it descends from ends, and with what the
operations on classes give: with the row of these classes, and with the nearest method and static method of a name. -/
structure Class.SearchesEnd (c : Class) : Prop where
  lineage : Row superclass? c c.lineage
  method : ∀ name, Search superclass? (fun d => (d.own.methods.get? name).map fun f => some (d, f)) none c
    (c.findMethod? name)
  static : ∀ name, Search superclass? (fun d => (d.own.statics.get? name).map some) none c (c.findStatic? name)

lemma Class.row (c : Class) : Row superclass? c c.lineage := by
  induction c using Class.descend with
  | root c hc =>
    rw [Class.lineage_of_superclass?_none hc]
    exact .last hc
  | sub c p hp ih =>
    rw [lineage_superclass hp]
    exact .step hp ih

/-- **Searches along the classes end.** -/
theorem Class.searchesEnd (c : Class) : c.SearchesEnd := by
  refine ⟨c.row, fun name => ?_, fun name => ?_⟩
  · have hlook : (fun d => (d.own.methods.get? name).map fun f => some (d, f)) = fun d : Class =>
        ((d.own.methods.get? name).map fun f => (d, f)).map some := by
      funext d
      exact (Option.map_map ..).symm
    have hmethod : c.findMethod? name = ((c.findMethod? name).map some).getD none := by
      cases c.findMethod? name <;> rfl
    rw [hlook, hmethod]
    exact c.row.search _ _ _
  · have hstatic : c.findStatic? name = ((c.findStatic? name).map some).getD none := by
      cases c.findStatic? name <;> rfl
    rw [hstatic]
    exact c.row.search _ _ _

end ScriptLang
