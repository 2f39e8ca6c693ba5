import ScriptLang.Proofs.Frames.GlobalNames
import ScriptLang.Proofs.Redeclaring.TracedDefinitions

/-!
# The names of the current frame

Where a scope has certain declarations in front of a place, the frame that is current there has their names and no
others.  What declares nothing where it stands leaves the names of the current frame as they are.

* `Stands` — a frame has the names in front;
* `Undisturbed` — the current frame has kept its names;
* `execute_stands` — behind a statement the current frame has the names that the statement declares in addition.
-/

namespace ScriptLang

open Frames Eval Traced

variable {α : Type} {front : Front} {fs fs' : Frames} {m m' : Machine} {i : FrameId} {name : Ident} {v : Value}
  {fuel : Nat}

/-! ### Names in front -/

/-- The frame of the place behind the declarations in front: at the global level the global frame, in a scope
another one that has the names in front and no others. -/
def Stands (front : Front) (fs : Frames) (i : FrameId) : Prop :=
  i < fs.size ∧
    match front with
    | none => i = globalFrame
    | some names => i ≠ globalFrame ∧ ∀ n, (fs.frame i).binds n = true ↔ n ∈ names

lemma mem_names_iff {β : Type} {t : Table β} {text : String} : t.has text = true ↔ text ∈ t.names := by
  rw [← not_iff_not, ← Table.get?_eq_none_iff, Table.has, Bool.not_eq_true, Option.isSome_eq_false_iff,
    Option.isNone_iff_eq_none]

lemma SameNames.binds (h : SameNames i fs fs') (text : String) :
    (fs'.frame i).binds text = true ↔ (fs.frame i).binds text = true := by
  simp only [Frame.binds, Bool.or_eq_true, mem_names_iff, h.1, h.2]

lemma Stands.same (h : Stands front fs i) (hsize : fs.size ≤ fs'.size) (hnames : SameNames i fs fs') :
    Stands front fs' i := by
  refine ⟨Nat.lt_of_lt_of_le h.1 hsize, ?_⟩
  cases front with
  | none => exact h.2
  | some names => exact ⟨h.2.1, fun n => (hnames.binds n).trans (h.2.2 n)⟩

lemma binds_iff_entry {f : Frame} {text : String} :
    f.binds text = true ↔ ∃ constant, (f.entry constant text).isSome := by
  rw [Bool.exists_bool, Frame.binds, Bool.or_eq_true]
  rfl

/-- A name that is bound is one more name of its frame. -/
lemma Stands.define {text : String} {constant : Bool} (h : Stands front fs i)
    (hdefine : Frames.define i text v constant fs = .ok () fs') : Stands (front.after [text]) fs' i := by
  obtain ⟨f', hf, rfl⟩ := update_ok hdefine
  obtain ⟨-, hput⟩ := frame_define hf
  refine ⟨Array.size_setIfInBounds.symm ▸ h.1, ?_⟩
  cases front with
  | none => exact h.2
  | some names =>
    refine ⟨h.2.1, fun n => ?_⟩
    rw [frame_set, if_pos ⟨rfl, h.1⟩, List.mem_append, List.mem_singleton, ← h.2.2 n, binds_iff_entry,
      binds_iff_entry]
    simp only [hput.entry]
    by_cases hn : text = n
    · subst hn
      simp only [and_true, or_true, iff_true]
      exact ⟨constant, by rw [if_pos rfl]; rfl⟩
    · simp only [hn, and_false, if_false, Ne.symm hn, or_false]

/-- A new frame has nothing in front. -/
lemma stands_add (h : 0 < fs.size) (parent : Option FrameId) : Stands (some []) (fs.add (.empty parent)) fs.size := by
  refine ⟨by rw [size_add]; exact Nat.lt_succ_self _, Nat.ne_of_gt h, fun n => ?_⟩
  rw [frame_add, if_pos rfl]
  simp [Frame.binds, Frame.empty, Table.has, Table.get?]

/-! ### What leaves the names as they are -/

/-- The current frame is as before, with the names that it had. -/
structure Undisturbed (m m' : Machine) : Prop where
  current : m'.current = m.current
  size : m.frames.size ≤ m'.frames.size
  names : SameNames m.current m.frames m'.frames

lemma Undisturbed.stands (h : Undisturbed m m') (hm : Stands front m.frames m.current) :
    Stands front m'.frames m'.current := by
  rw [h.current]
  exact hm.same h.size h.names

/-- Names are bound in new frames only. -/
lemma Evolving.undisturbed {t : Marked α} (h : Evolving (m.frames.size ≤ ·) false t m)
    (hm : m.current < m.frames.size) : Undisturbed m (endState (t.run m)) := by
  obtain ⟨hframes, hcur⟩ := h ⟨hm, fun _ hi => hi, nofun⟩
  have hend := (List.pairwise_cons.1 hframes).1 _ (List.mem_append_right _ (List.mem_singleton.2 rfl))
  exact ⟨hcur, hend.size_le, hend.sameNames hm (Nat.not_le_of_lt hm)⟩

lemma evaluate_undisturbed (hm : m.current < m.frames.size) (fuel : Nat) (e : Expr OccurrenceId) :
    Undisturbed m (endState (evaluate fuel e m)) := by
  rw [← (Observer.expressions.erased fuel).1 e]
  exact ((runs_evolve _ fuel).evaluate false e m).undisturbed hm

lemma execute_undisturbed (hm : m.current < m.frames.size) (fuel : Nat) {s : Stmt OccurrenceId}
    (hs : s.declaresHere = false) : Undisturbed m (endState (execute fuel s m)) := by
  rw [← Observer.expressions.execute_run fuel () s]
  exact ((runs_evolve _ fuel).execute false s m fun h => hs.symm.trans h).undisturbed hm

lemma superclass_undisturbed (hm : m.current < m.frames.size) (parent : Option (Occurrence OccurrenceId)) :
    Undisturbed m (endState (superclass name parent m)) := by
  rw [← Observer.expressions.superclass_run]
  exact Evolving.undisturbed (superclass_evolving parent) hm

lemma newClosure_undisturbed (decl : FunctionDecl (Stmt OccurrenceId)) (m : Machine) :
    Undisturbed m (endState (newClosure decl m)) := ⟨rfl, Nat.le_refl _, .refl⟩

lemma finishClass_undisturbed (hm : m.current < m.frames.size) {parent : Option Class}
    {methods statics : List (FunctionDecl (Stmt OccurrenceId))} :
    Undisturbed m (endState (finishClass name parent methods statics m)) :=
  Evolving.undisturbed finishClass_evolving hm

/-! ### Statements -/

/-- A statement that may be a branch or a body of a loop declares nothing where it stands. -/
lemma Stmt.Regular.declares_nothing {ι : Type} : ∀ {s : Stmt ι}, s.Regular → s.isDeclaration = false →
    s.declaresHere = false ∧ s.scopeNames = []
  | .expr _, _, _ | .print _, _, _ | .block _, _, _ | .return _ _, _, _ => ⟨rfl, rfl⟩
  | .ifThen _ s, h, _ | .while _ s, h, _ => Stmt.Regular.declares_nothing (s := s) h.2.2 h.2.1
  | .ifElse _ _ _, h, _ => by
    obtain ⟨hyes, hyes'⟩ := Stmt.Regular.declares_nothing h.2.1.2 h.2.1.1
    obtain ⟨hno, hno'⟩ := Stmt.Regular.declares_nothing h.2.2.2 h.2.2.1
    exact ⟨by rw [Stmt.declaresHere, hyes, hno]; rfl, by rw [Stmt.scopeNames, hyes', hno']; rfl⟩

/-- If a computation succeeds, the current frame has the names in front. -/
abbrev LeadsTo (front : Front) (r : EStateM.Result Stop Machine α) : Prop :=
  Ends (fun _ m' => Stands front m'.frames m'.current) (fun _ => True) r

lemma Undisturbed.leadsTo {r : EStateM.Result Stop Machine α} (h : Undisturbed m (endState r))
    (hm : Stands front m.frames m.current) : LeadsTo front r := by
  cases r with
  | ok a m' => exact h.stands hm
  | error e m' => trivial

lemma change_ok {line : Nat} {op : Change α} {a : α} (h : change line op m = .ok a m') :
    ∃ fs, op m.frames = .ok a fs ∧ m' = { m with frames := fs } := by
  unfold change at h
  simp only at h
  rcases hop : op m.frames with ⟨b, fs⟩ | ⟨e, fs⟩
  · rw [hop] at h
    cases h
    exact ⟨fs, rfl, rfl⟩
  · rw [hop] at h
    cases h

lemma define_leadsTo (constant : Bool) (hm : Stands front m.frames m.current) :
    LeadsTo (front.after [name.text]) (Eval.define name v constant m) := by
  rcases h : Eval.define name v constant m with ⟨⟨⟩, m'⟩ | ⟨e, m'⟩
  · have hchange : change name.line (Frames.define m.current name.text v constant) m = .ok () m' := h
    obtain ⟨fs, hop, rfl⟩ := change_ok hchange
    exact hm.define hop
  · trivial

/-- **What a statement adds to the names of the current frame**: the names that it declares where it stands. -/
theorem execute_stands (fuel : Nat) {s : Stmt OccurrenceId} (hs : s.Regular) (hm : Stands front m.frames m.current) :
    LeadsTo (front.after s.scopeNames) (execute fuel s m) := by
  have hevaluate : ∀ e fuel, LeadsTo front (evaluate fuel e m) := fun e fuel =>
    (evaluate_undisturbed hm.1 fuel e).leadsTo hm
  -- a declaration is completed once its name is bound
  have hpure : ∀ {front : Front} {x : Eval Unit} {m' : Machine}, LeadsTo front (x m') →
      LeadsTo front ((x >>= fun _ => return Flow.normal : Eval Flow) m') := fun h => Ends.bind h fun _ _ h => h
  cases fuel with
  | zero =>
    rw [execute]
    trivial
  | succ fuel =>
    cases s with
    | letVar name value =>
      rw [execute.eq_def]
      cases value with
      | none => exact hpure (define_leadsTo false hm)
      | some value => exact Ends.bind (hevaluate value fuel) fun v m' h => hpure (define_leadsTo false h)
    | constVar name value =>
      rw [execute.eq_def]
      exact Ends.bind (hevaluate value fuel) fun v m' h => hpure (define_leadsTo true h)
    | function decl =>
      rw [execute.eq_def]
      exact Ends.bind ((newClosure_undisturbed decl m).leadsTo hm) fun f m' h => hpure (define_leadsTo false h)
    | classDecl name parent methods statics =>
      rw [execute.eq_def]
      refine hpure (Ends.bind ((superclass_undisturbed hm.1 parent).leadsTo hm) fun c m' h => ?_)
      exact Ends.bind (define_leadsTo false h) fun _ m' h => (finishClass_undisturbed h.1).leadsTo h
    | _ =>
      obtain ⟨hhere, hnames⟩ := hs.declares_nothing rfl
      rw [hnames, Front.after_nil]
      exact (execute_undisturbed hm.1 _ hhere).leadsTo hm

end ScriptLang
