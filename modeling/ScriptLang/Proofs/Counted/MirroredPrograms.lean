import ScriptLang.Counted.Program
import ScriptLang.Proofs.Counted.MirroredStatements

/-!
# Programs with a counter and without

* `Program.read_mirrors` — reading with a counter gives the tree that `Program.parse` gives, or its diagnostics, and
  the numbers in the tree are new and all different.
-/

namespace ScriptLang

open Grammar

instance : HasUses Counted.Reading Reading where
  forget r := ⟨forget r.program, r.failures, r.reported⟩
  uses r := uses r.program

/-- What was read from the counter `n` on, with the next free number: it is the same as without numbers, and its
numbers are new. -/
structure ReadAs {α β : Type} [HasUses α β] (n : OccurrenceId) (r : α × OccurrenceId) (b : β) : Prop where
  le : n ≤ r.2
  forget : forget r.1 = b
  fresh : Fresh n r.2 (uses r.1)

namespace Grammar

variable {path : Path} {t : Token} {ts rest : List Token} {n m : OccurrenceId}

/-- A round of the loop of a program. -/
lemma Counted.programItems_round (hend : t.kind ≠ .eof) :
    Counted.programItems path (t :: rest) = fun n =>
      let first := Counted.declaration path (t :: rest) n
      let rest := match first.1.result with
        | .ok s => s.rest
        | .error d => resume d rest
      let r := Counted.programItems path rest first.2
      (r.1.after first.1, r.2) := by
  rw [Counted.programItems]
  split
  · next hk => exact absurd hk hend
  · funext n
    show (match (Counted.declaration path (t :: rest) n).1.result with
      | .ok s => _
      | .error d => _ : Numbered Counted.Reading) (Counted.declaration path (t :: rest) n).2 = _
    simp only
    cases (Counted.declaration path (t :: rest) n).1.result <;> rfl

/-- A declaration, read from the counter `n` on, and a reading of the rest, from the counter `m` on. -/
lemma after_mirrors {o : Outcome (Parsed (Stmt OccurrenceId) ts)} {o' : Outcome (Parsed (Stmt Unit) ts)}
    {r : Counted.Reading × OccurrenceId} {r' : Reading} (hm : n ≤ m) (hreported : o.reported = o'.reported)
    (hresult : EndsLike (Bears n m) o.result o'.result) (hr : ReadAs m r r') :
    ReadAs n (r.1.after o, r.2) (r'.after o') := by
  obtain ⟨hk, rfl, hfresh⟩ := hr
  have hboth : forget (r.1.after o) = (forget r.1).after o' ∧ Fresh n r.2 (uses (r.1.after o)) := by
    unfold Counted.Reading.after Reading.after
    rw [hreported]
    generalize o.result = x at hresult
    generalize o'.result = y at hresult
    cases hresult with
    | ok h =>
      obtain ⟨rfl, hs⟩ := h
      exact ⟨rfl, hs.append hm hk hfresh⟩
    | error d => exact ⟨rfl, hfresh.mono hm (Nat.le_refl _)⟩
  exact ⟨Nat.le_trans hm hk, hboth.1, hboth.2⟩

theorem programItems_mirrors (path : Path) : ∀ (ts : List Token) (n : OccurrenceId),
    ReadAs n (Counted.programItems path ts n) (programItems path ts)
  | [], n => by
    rw [Counted.programItems, programItems]
    exact ⟨Nat.le_refl n, rfl, .nil⟩
  | t :: rest, n => by
    by_cases hend : t.kind = .eof
    · have hcounted : Counted.programItems path (t :: rest) n = (⟨[], [], []⟩, n) := by
        rw [Counted.programItems, hend]
        rfl
      rw [hcounted, programItems, hend]
      exact ⟨Nat.le_refl n, rfl, .nil⟩
    · rw [Counted.programItems_round hend, programItems_round hend]
      obtain ⟨hm, hreported, hresult⟩ := declaration_mirrors n path (t :: rest)
      have hends := hresult
      generalize hx : (Counted.declaration path (t :: rest) n).1.result = x at hresult
      generalize hy : (declaration path (t :: rest)).result = y at hresult
      cases hresult with
      | @ok s _ h =>
        obtain ⟨rfl, -⟩ := h
        simp only [hx]
        exact after_mirrors hm hreported hends (programItems_mirrors path s.rest _)
      | error d =>
        simp only [hx]
        exact after_mirrors hm hreported hends (programItems_mirrors path (resume d rest) _)
termination_by ts => ts.length
decreasing_by
  · exact s.proper.length_lt
  · exact (resume_proper d t rest).length_lt

end Grammar

/-- **To read a program with a counter** is to read the same program, or to find the same diagnostics; and the
numbers in the tree are new and all different. -/
theorem Program.read_mirrors (ts : List Token) (n : OccurrenceId) :
    n ≤ (Program.read ts n).2 ∧
      EndsLike (fun P Q => forget P = Q ∧ Fresh n (Program.read ts n).2 (uses P)) (Program.read ts n).1
        (Program.parse ts) := by
  obtain ⟨hle, hforget, hfresh⟩ := programItems_mirrors [.program] ts n
  refine ⟨hle, ?_⟩
  show EndsLike _ (Counted.programItems [.program] ts n).1.result _
  unfold Program.parse Counted.Reading.result
  rw [← hforget]
  simp only [forget]
  cases (Counted.programItems [.program] ts n).1.failures ++ (Counted.programItems [.program] ts n).1.reported with
  | nil => exact .ok ⟨rfl, hfresh⟩
  | cons d ds => exact .error _

end ScriptLang
