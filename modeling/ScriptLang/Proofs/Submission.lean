import ScriptLang.Proofs.Addressing.TopLevel
import ScriptLang.Session

/-!
# Submissions

A submission ends in one of three ways: the program is not read, it is rejected, or it is run.

* `submit_unreadable`, `submit_rejected`, `submit_ran` — the three ends;
* `submit_completed` — what is behind a submission that runs to its end;
* `Session.Reachable` — the sessions that can be reached, and `Reachable.resolver` — the resolver in them.
-/

namespace ScriptLang.Session

variable {s : Session} {fuel : Nat} {install : Bool} {tokens : List Token} {tree : Program Unit}

/-- The table of a machine after a program: its own table, and that of the program if it is installed. -/
def tableWith (install : Bool) (L L' : Locals) : Locals :=
  if install then L ∪ L' else L

lemma getElem?_tableWith {L L' : Locals} {k : OccurrenceId} :
    (tableWith install L L')[k]? = if install then L'[k]?.or L[k]? else L[k]? := by
  cases install
  · rfl
  · exact Std.TreeMap.getElem?_union

/-- The program whose tree is submitted, with its numbers. -/
def numbered (s : Session) (tree : Program Unit) : Program OccurrenceId :=
  (tree.number s.nextId).1

/-- The run of a submitted program with the given table. -/
def runWith (fuel : Nat) (install : Bool) (s : Session) (tree : Program Unit) (L : Locals) :
    RunResult × Machine :=
  runProgram fuel (s.numbered tree) { s.machine with locals := tableWith install s.machine.locals L }

/-! ### The three ends -/

lemma submit_unreadable {ds : List Diagnostic} (hparse : Program.parse tokens = .error ds) :
    s.submit fuel install tokens = (.unreadable ds, s) := by
  unfold submit
  rw [hparse]

lemma submit_rejected {rejection : Rejection} (hparse : Program.parse tokens = .ok tree)
    (hres : (s.resolver.resolve (s.numbered tree)).1 = .error rejection) :
    s.submit fuel install tokens = (.rejected rejection,
      { s with nextId := (tree.number s.nextId).2, resolver := (s.resolver.resolve (s.numbered tree)).2 }) := by
  unfold numbered at *
  rcases hnum : tree.number s.nextId with ⟨program, n'⟩
  rw [hnum] at hres
  unfold submit
  simp only [hparse, hnum, hres]

lemma submit_ran {res : Resolution} (hparse : Program.parse tokens = .ok tree)
    (hres : (s.resolver.resolve (s.numbered tree)).1 = .ok res) :
    s.submit fuel install tokens = (.ran res.warnings (s.runWith fuel install tree res.locals).1,
      ⟨(tree.number s.nextId).2, (s.resolver.resolve (s.numbered tree)).2,
        (s.runWith fuel install tree res.locals).2⟩) := by
  unfold runWith tableWith numbered at *
  rcases hnum : tree.number s.nextId with ⟨program, n'⟩
  rw [hnum] at hres
  unfold submit
  simp only [hparse, hnum, hres]
  cases install <;> rfl

/-- Whether the program has been run to its end. -/
def Answer.isCompleted : Answer → Bool
  | .ran _ .completed => true
  | _ => false

lemma submit_completed (h : (s.submit fuel install tokens).1.isCompleted) :
    ∃ tree res, Program.parse tokens = .ok tree ∧
      (s.resolver.resolve (s.numbered tree)).1 = .ok res ∧
      (s.runWith fuel install tree res.locals).1 = .completed := by
  rcases hparse : Program.parse tokens with ds | tree
  · rw [submit_unreadable hparse] at h
    cases h
  rcases hres : (s.resolver.resolve (s.numbered tree)).1 with rejection | res
  · rw [submit_rejected hparse hres] at h
    cases h
  refine ⟨tree, res, rfl, hres, ?_⟩
  rw [submit_ran hparse hres] at h
  rcases hrun : (s.runWith fuel install tree res.locals).1 with _ | _ | _
  · rfl
  · rw [hrun] at h
    cases h
  · rw [hrun] at h
    cases h

/-! ### Sessions that can be reached -/

/-- The sessions that start without code and take one program after another. -/
inductive Reachable : Session → Prop
  | initial (limit : Option Nat) : Reachable (initial limit)
  | submit {s : Session} (fuel : Nat) (install : Bool) (tokens : List Token) :
    Reachable s → Reachable (s.submit fuel install tokens).2

/-- A resolver that has seen nothing is left like that by every submission. -/
lemma submit_resolver (h : s.resolver = .empty) : (s.submit fuel install tokens).2.resolver = .empty := by
  have hsnd : ∀ program, (s.resolver.resolve program).2 = .empty := fun _ =>
    resolve_snd (congrArg Resolver.scopes h)
  rcases hparse : Program.parse tokens with ds | tree
  · rw [submit_unreadable hparse]
    exact h
  rcases hres : (s.resolver.resolve (s.numbered tree)).1 with rejection | res
  · rw [submit_rejected hparse hres]
    exact hsnd _
  · rw [submit_ran hparse hres]
    exact hsnd _

lemma Reachable.resolver (h : Reachable s) : s.resolver = .empty := by
  induction h with
  | initial limit => rfl
  | submit fuel install tokens _ ih => exact submit_resolver ih

end ScriptLang.Session
