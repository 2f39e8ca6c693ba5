import ScriptLang.Counted.Statement
import ScriptLang.Grammar.Program

/-!
# Programs with a counter

A program read once more, with numbers for its uses of names that are taken while it is read.  If it is not a
program, the numbers that were taken are lost.
-/

namespace ScriptLang

namespace Grammar.Counted

/-- What a reading of a whole program has found: its declarations, the diagnostics of those that failed, and
the diagnostics reported on the way. -/
structure Reading where
  program : Program OccurrenceId
  failures : List Diagnostic
  reported : List Diagnostic

/-- A reading in front of which a declaration was read, or failed, with some reports. -/
def Reading.after {ts : List Token} (r : Reading) (o : Outcome (Parsed (Stmt OccurrenceId) ts)) : Reading :=
  match o.result with
  | .ok s => ⟨s.value :: r.program, r.failures, o.reported ++ r.reported⟩
  | .error d => ⟨r.program, d :: r.failures, o.reported ++ r.reported⟩

/-- The program if there are no diagnostics.  Else all of them are given, ordered by the position of the token at
fault. -/
def Reading.result (r : Reading) : Except (List Diagnostic) (Program OccurrenceId) :=
  match r.failures ++ r.reported with
  | [] => .ok r.program
  | ds => .error (ds.mergeSort fun a b => b.remaining ≤ a.remaining)

/-- Reads declarations up to the end mark or the end of the list. -/
def programItems (path : Path) (ts : List Token) : Numbered Reading :=
  match ts with
  | [] => return ⟨[], [], []⟩
  | t :: rest =>
    match t.kind with
    | .eof => return ⟨[], [], []⟩
    | _ => do
      let first ← (declaration path (t :: rest)).run
      match first.result with
      | .ok s => return (← programItems path s.rest).after first
      | .error d => return (← programItems path (resume d rest)).after first
termination_by ts.length
decreasing_by
  · exact s.proper.length_lt
  · exact (resume_proper d t rest).length_lt

end Grammar.Counted

/-- Reads a program, with numbers from the counter for its uses of names. -/
def Program.read (ts : List Token) : Numbered (Except (List Diagnostic) (Program OccurrenceId)) := do
  return (← Grammar.Counted.programItems [.program] ts).result

end ScriptLang
