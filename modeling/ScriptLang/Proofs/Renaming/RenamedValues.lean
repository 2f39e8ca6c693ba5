import Mathlib.Data.List.GetD
import ScriptLang.Proofs.Renaming.Aligned
import ScriptLang.Proofs.Store.Related

/-!
# Values of a renamed program

A program and the renamed one make the same frames in the same order.  The layout says of each how far inside of
the scope it stands; it only grows while programs run.  Two values are aligned if they are the same but for the
names in their code, which is aligned at the distance of the frame in which it was declared.

* `Layout`, `Layout.place` — the distances of all frames;
* `Closure.Aligned`, `Class.Aligned`, `Value.Aligned` — values that are the same up to the renaming;
* `Value.Aligned.mono`, `Value.Aligned.away` — in larger layouts, and where nothing is renamed.
-/

namespace ScriptLang

/-! ### Layouts -/

/-- How far inside of the scope the frames stand, in the order in which they were made. -/
abbrev Layout := List Distance

namespace Layout

variable {w w' : Layout} {d : Distance} {i : FrameId}

/-- How far inside of the scope a frame stands. -/
def place (w : Layout) (i : FrameId) : Distance := w.getD i none

lemma place_of_prefix (h : w <+: w') (hi : i < w.length) : w'.place i = w.place i := by
  obtain ⟨l, rfl⟩ := h
  exact List.getD_append w l none i hi

lemma place_of_length_le (h : w.length ≤ i) : w.place i = none := List.getD_eq_default _ _ h

lemma place_push : place (w ++ [d]) i = if i = w.length then d else w.place i := by
  rcases Nat.lt_trichotomy i w.length with h | rfl | h
  · rw [if_neg (Nat.ne_of_lt h), place_of_prefix (List.prefix_append w [d]) h]
  · rw [if_pos rfl, place, List.getD_append_right _ _ _ _ (Nat.le_refl _), Nat.sub_self]
    rfl
  · rw [if_neg (Nat.ne_of_gt h), place_of_length_le (Nat.le_of_lt h), place_of_length_le]
    rw [List.length_append]
    exact h

/-- The layout of as many frames away from the scope. -/
def away (n : Nat) : Layout := List.replicate n none

lemma length_away (n : Nat) : (away n).length = n := List.length_replicate

lemma place_away (n : Nat) (i : FrameId) : (away n).place i = none := by
  by_cases h : i < (away n).length
  · rw [place, List.getD_eq_getElem _ _ h]
    exact List.getElem_replicate _
  · exact place_of_length_le (Nat.le_of_not_lt h)

end Layout

/-! ### Values -/

section Values

variable (ρ : Renaming) (w : Layout)

/-- The same function value but for names, with code that stands in its frame or further in. -/
structure Closure.AlignedAt (enter : Distance → Distance) (f f' : Closure) : Prop where
  stamp : f'.stamp = f.stamp
  frame : f'.frame = f.frame
  placed : f.frame < w.length
  decl : FunctionDecl.Aligned ρ (enter (w.place f.frame)) f.decl f'.decl

/-- The same function but for names. -/
abbrev Closure.Aligned := Closure.AlignedAt ρ w id

/-- The same method of a class but for names.  Between it and the frame of the class stands the frame of an
instance. -/
abbrev Closure.AlignedMethod := Closure.AlignedAt ρ w Distance.inner

/-- The same class declaration but for names. -/
abbrev ClassBody.Aligned := ClassBody.Related (Closure.Aligned ρ w) (Closure.AlignedMethod ρ w)

/-- The same class but for names. -/
abbrev Class.Aligned := Class.Related (Closure.Aligned ρ w) (Closure.AlignedMethod ρ w)

/-- The same instance but for names. -/
abbrev Object.Aligned := Object.Related (Closure.Aligned ρ w) (Closure.AlignedMethod ρ w)

/-- **The same value but for names.** -/
abbrev Value.Aligned := Value.Related (Closure.Aligned ρ w) (Closure.AlignedMethod ρ w)

instance (enter : Distance → Distance) : Faithful (Closure.AlignedAt ρ w enter) where
  stamp h := h.stamp
  name h := congrArg Ident.text h.decl.name
  arity h := h.decl.arity

end Values

variable {ρ ρ' : Renaming} {w w' : Layout} {enter : Distance → Distance} {f f' : Closure} {c c' : Class}
  {o o' : Object} {v v' : Value}

/-! ### Larger layouts -/

lemma Closure.AlignedAt.mono (h : f.AlignedAt ρ w enter f') (hw : w <+: w') : f.AlignedAt ρ w' enter f' :=
  ⟨h.stamp, h.frame, Nat.lt_of_lt_of_le h.placed hw.length_le, Layout.place_of_prefix hw h.placed ▸ h.decl⟩

lemma Class.Aligned.mono (h : c.Aligned ρ w c') (hw : w <+: w') : c.Aligned ρ w' c' :=
  h.imp (fun _ _ hf => hf.mono hw) fun _ _ hf => hf.mono hw

lemma Object.Aligned.mono (h : o.Aligned ρ w o') (hw : w <+: w') : o.Aligned ρ w' o' :=
  h.imp (fun _ _ hf => hf.mono hw) fun _ _ hf => hf.mono hw

lemma Value.Aligned.mono (h : v.Aligned ρ w v') (hw : w <+: w') : v.Aligned ρ w' v' :=
  h.imp (fun _ _ hf => hf.mono hw) fun _ _ hf => hf.mono hw

/-! ### Where nothing is renamed -/

lemma Closure.AlignedAt.away (h : f.AlignedAt ρ w enter f') (henter : enter none = none) :
    f.AlignedAt ρ' (.away w.length) enter f := by
  refine ⟨rfl, rfl, ?_, ?_⟩
  · rw [Layout.length_away]
    exact h.placed
  · rw [Layout.place_away, henter]
    exact FunctionDecl.aligned_self ρ' f.decl

/-- Away from the scope, a value is aligned with itself. -/
lemma Value.Aligned.away (h : v.Aligned ρ w v') : v.Aligned ρ' (.away w.length) v :=
  h.self (fun _ _ hf => hf.away rfl) fun _ _ hf => hf.away rfl

end ScriptLang
