import ScriptLang.Grammar.Statement

/-!
# The grammar of programs

A program is a list of declarations up to the first end mark.  A declaration that fails is skipped like one
inside a block, so one reading finds every independent error.
-/

namespace ScriptLang

namespace Grammar

/-- What a reading of a whole program has found: its declarations, the diagnostics of those that failed, and
the diagnostics reported on the way. -/
structure Reading where
  program : Program Unit
  failures : List Diagnostic
  reported : List Diagnostic

/-- A reading in front of which a declaration was read, or failed, with some reports. -/
def Reading.after {ts : List Token} (r : Reading) (o : Outcome (Parsed (Stmt Unit) ts)) : Reading :=
  match o.result with
  | .ok s => ⟨s.value :: r.program, r.failures, o.reported ++ r.reported⟩
  | .error d => ⟨r.program, d :: r.failures, o.reported ++ r.reported⟩

/-- Reads declarations up to the end mark or the end of the list. -/
def programItems (path : Path) (ts : List Token) : Reading :=
  match ts with
  | [] => ⟨[], [], []⟩
  | t :: rest =>
    match t.kind with
    | .eof => ⟨[], [], []⟩
    | _ =>
      let first := declaration path (t :: rest)
      match first.result with
      | .ok s => (programItems path s.rest).after first
      | .error d => (programItems path (resume d rest)).after first
termination_by ts.length
decreasing_by
  · exact s.proper.length_lt
  · exact (resume_proper d t rest).length_lt

/-- A round of the loop of a program. -/
theorem programItems_round {path : Path} {t : Token} {rest : List Token} (hend : t.kind ≠ .eof) :
    programItems path (t :: rest) =
      match (declaration path (t :: rest)).result with
      | .ok s => (programItems path s.rest).after (declaration path (t :: rest))
      | .error d => (programItems path (resume d rest)).after (declaration path (t :: rest)) := by
  rw [programItems]
  split
  · next hk => exact absurd hk hend
  · cases hr : (declaration path (t :: rest)).result <;> simp only [hr]

end Grammar

namespace Program

/-- Reads a program.  All diagnostics are given, ordered by the position of the token at fault. -/
def parse (ts : List Token) : Except (List Diagnostic) (Program Unit) :=
  let reading := Grammar.programItems [.program] ts
  match reading.failures ++ reading.reported with
  | [] => .ok reading.program
  | ds => .error (ds.mergeSort fun a b => b.remaining ≤ a.remaining)

end Program

end ScriptLang
