import ScriptLang.Counted.Session
import ScriptLang.Proofs.Splitting.Submissions
import ScriptLang.Proofs.Renumbering.RenumberedRuns
import ScriptLang.Proofs.Renumbering.RenumberedScopes

/-!
# Sessions with other numbers

What a session replies does not depend on the numbers of the uses of names, if only they are all different.

* `Session.Request`, `Session.Reply`, `Session.replies` — what a session is asked, and all that it tells;
* `Machine.RenumberedBy`, `RenumberedBy.run` — the same machine with other numbers, and how it stays so;
* `Session.Alongside`, `Alongside.launch` — two sessions that differ in their numbers.
-/

namespace ScriptLang

open Resolving

/-! ### Requests and replies -/

namespace Session

/-- A program that a session is asked to take.  Before it, some numbers are lost that no program gets. -/
structure Request where
  fuel : Nat
  install : Bool
  tokens : List Token
  skipped : Nat

/-- The same request, with no number lost before it. -/
def Request.unskipped (q : Request) : Request := { q with skipped := 0 }

/-- What is told of the end of a program. -/
inductive Verdict where
  | unreadable (diagnostics : List Diagnostic)
  | rejected (rejection : Rejection)
  | completed (warnings : List ScopeWarning)
  | failed (warnings : List ScopeWarning) (error : RuntimeError) (message : String)
  | outOfFuel (warnings : List ScopeWarning)

/-- Whether a program was refused before it ran. -/
def Verdict.isRefusal : Verdict → Bool
  | .unreadable _ | .rejected _ => true
  | _ => false

/-- What is told of an answer. -/
def Answer.verdict : Answer → Verdict
  | .unreadable ds => .unreadable ds
  | .rejected rejection => .rejected rejection
  | .ran warnings .completed => .completed warnings
  | .ran warnings (.failed f) => .failed warnings f.error f.message
  | .ran warnings .outOfFuel => .outOfFuel warnings

/-- All that can be seen of a session behind a program: what is told of its end, what it has written, the global
names, and how many entries the table has. -/
structure Reply where
  verdict : Verdict
  output : String
  globals : List String
  constants : List String
  entries : Nat

/-- The session with its next free number further on. -/
def skip (k : Nat) (s : Session) : Session := { s with nextId := s.nextId + k }

/-- The session behind a request. -/
def next (q : Request) (s : Session) : Session := ((s.skip q.skipped).submit q.fuel q.install q.tokens).2

/-- What a session replies to a request. -/
def reply (q : Request) (s : Session) : Reply where
  verdict := ((s.skip q.skipped).submit q.fuel q.install q.tokens).1.verdict
  output := output s (s.next q)
  globals := (s.next q).machine.globals
  constants := (s.next q).machine.constants
  entries := (s.next q).machine.locals.size

/-- What a session tells behind a program that was taken. -/
def told (s : Session) (out : Answer × Session) : Reply where
  verdict := out.1.verdict
  output := output s out.2
  globals := out.2.machine.globals
  constants := out.2.machine.constants
  entries := out.2.machine.locals.size

lemma reply_eq (q : Request) (s : Session) :
    s.reply q = s.told ((s.skip q.skipped).submit q.fuel q.install q.tokens) := rfl

/-- What a session replies to one request after another. -/
def replies (s : Session) : List Request → List Reply
  | [] => []
  | q :: qs => s.reply q :: (s.next q).replies qs

end Session

/-! ### Machines with other numbers -/

/-- The second machine is the first one with other numbers, and so is its table. -/
structure Machine.RenumberedBy (g : OccurrenceId → OccurrenceId) (m m' : Machine) : Prop where
  locals : Renumbers g m.locals m'.locals
  same : ∃ ρ : Renumbering, ρ.number = g ∧ m' = m.renumber ρ

namespace Machine.RenumberedBy

variable {g : OccurrenceId → OccurrenceId} {m m' : Machine} {L L' : Locals}

lemma install (h : RenumberedBy g m m') (hL : Renumbers g L L') : RenumberedBy g (m.install L) (m'.install L') := by
  have hlocals := h.locals.union hL
  obtain ⟨-, ρ, rfl, rfl⟩ := h
  exact ⟨hlocals, ⟨ρ.number, _, _, hlocals.entry⟩, rfl, rfl⟩

lemma run (h : RenumberedBy g m m') (fuel : Nat) (program : Program OccurrenceId) :
    (runProgram fuel (Stmt.relabelList id g program) m').1 = (runProgram fuel program m).1.renumber g ∧
      RenumberedBy g (runProgram fuel program m).2 (runProgram fuel (Stmt.relabelList id g program) m').2 := by
  obtain ⟨hlocals, ⟨number, old, new, agrees⟩, rfl, rfl⟩ := h
  -- The table changes with every program, so the renumbering of the machines is a new one; only `number` stays.
  let ρ : Renumbering := ⟨number, m.locals, new, hlocals.entry⟩
  obtain ⟨hl, hrun⟩ := runProgram_renumber ρ fuel program (m := m) rfl
  have hboth : runProgram fuel (Stmt.relabelList id number program) (m.renumber ⟨number, old, new, agrees⟩) =
      ((runProgram fuel program m).1.renumber number, (runProgram fuel program m).2.renumber ρ) := hrun
  rw [hboth]
  exact ⟨rfl, hl ▸ hlocals, ρ, rfl, rfl⟩

/-- Nothing that can be seen of the machine tells its numbers. -/
lemma looks (h : RenumberedBy g m m') (hg : g.Injective) : m'.sink = m.sink ∧ m'.globals = m.globals ∧
    m'.constants = m.constants ∧ m'.locals.size = m.locals.size := by
  have hsize := h.locals.size hg
  obtain ⟨-, ρ, -, rfl⟩ := h
  refine ⟨rfl, ?_, ?_, hsize⟩
  · unfold Machine.globals Table.sortedNames
    rw [show (m.renumber ρ).frames.frame globalFrame = _ from Frames.frame_renumber]
    exact congrArg (List.mergeSort · _) Table.names_mapEntries
  · unfold Machine.constants Table.sortedNames
    rw [show (m.renumber ρ).frames.frame globalFrame = _ from Frames.frame_renumber]
    exact congrArg (List.mergeSort · _) Table.names_mapEntries

end Machine.RenumberedBy

/-! ### Sessions with other numbers -/

namespace Session

variable {g : OccurrenceId → OccurrenceId} {s s' : Session} {fuel : Nat} {install : Bool}
variable {program : Program OccurrenceId}

/-- A program that is read is numbered and launched. -/
lemma submit_readable {tokens : List Token} {tree : Program Unit} (hparse : Program.parse tokens = .ok tree) :
    s.submit fuel install tokens =
      ({ s with nextId := (tree.number s.nextId).2 } : Session).launch fuel install (s.numbered tree) := by
  rw [submit_eq_submitBy]
  unfold submitBy Program.readThenNumber
  rw [hparse]
  rfl

lemma launch_rejected {rejection : Rejection} (hres : (s.resolver.resolve program).1 = .error rejection) :
    s.launch fuel install program = (.rejected rejection, { s with resolver := (s.resolver.resolve program).2 }) := by
  unfold launch
  simp only [hres]

lemma launch_ran {r : Resolution} (hres : (s.resolver.resolve program).1 = .ok r) :
    let ran := runProgram fuel program (if install then s.machine.install r.locals else s.machine)
    s.launch fuel install program =
      (.ran r.warnings ran.1, ⟨s.nextId, (s.resolver.resolve program).2, ran.2⟩) := by
  unfold launch
  simp only [hres]

/-- A program that is launched has its numbers already. -/
lemma launch_nextId : (s.launch fuel install program).2.nextId = s.nextId := by
  rcases hres : (s.resolver.resolve program).1 with rejection | r
  · rw [launch_rejected hres]
  · rw [launch_ran hres]

lemma launch_resolver (hs : s.resolver = .empty) : (s.launch fuel install program).2.resolver = .empty := by
  have hsnd : (s.resolver.resolve program).2 = .empty := resolve_snd (congrArg Resolver.scopes hs)
  rcases hres : (s.resolver.resolve program).1 with rejection | r
  · rw [launch_rejected hres]
    exact hsnd
  · rw [launch_ran hres]
    exact hsnd

/-- A message quotes the statement, and its text tells no numbers. -/
lemma message_renumber (f : Failure) :
    Failure.message { f with statement := f.statement.relabel id g } = f.message := by
  unfold Failure.message
  rw [Stmt.text_relabel]

lemma verdict_renumber (warnings : List ScopeWarning) (result : RunResult) :
    (Answer.ran warnings (result.renumber g)).verdict = (Answer.ran warnings result).verdict := by
  cases result with
  | failed f => exact congrArg (Verdict.failed warnings f.error) (message_renumber f)
  | _ => rfl

/-- **The second session is the first one with other numbers.**  The counters do not matter. -/
structure Alongside (g : OccurrenceId → OccurrenceId) (s s' : Session) : Prop where
  resolver : s.resolver = .empty
  resolver' : s'.resolver = .empty
  machine : s.machine.RenumberedBy g s'.machine

namespace Alongside

/-- The same program with other numbers is taken in the same way. -/
lemma launch (h : Alongside g s s') (hg : g.Injective) (fuel : Nat) (install : Bool) (program : Program OccurrenceId) :
    (s'.launch fuel install (Stmt.relabelList id g program)).1.verdict = (s.launch fuel install program).1.verdict ∧
      Alongside g (s.launch fuel install program).2 (s'.launch fuel install (Stmt.relabelList id g program)).2 := by
  have hleft : (s.launch fuel install program).2.resolver = .empty := launch_resolver h.resolver
  have hright : (s'.launch fuel install (Stmt.relabelList id g program)).2.resolver = .empty :=
    launch_resolver h.resolver'
  have hanswers := resolve_along hg program
  generalize hres : (Resolver.empty.resolve program).1 = answer at hanswers
  generalize hres' : (Resolver.empty.resolve (Stmt.relabelList id g program)).1 = answer' at hanswers
  rw [← h.resolver] at hres
  rw [← h.resolver'] at hres'
  cases hanswers with
  | rejected =>
    rw [launch_rejected hres] at hleft ⊢
    rw [launch_rejected hres'] at hright ⊢
    exact ⟨rfl, hleft, hright, h.machine⟩
  | @accepted L L' warnings hL =>
    rw [launch_ran hres] at hleft ⊢
    rw [launch_ran hres'] at hright ⊢
    have hstart : (if install then s.machine.install L else s.machine).RenumberedBy g
        (if install then s'.machine.install L' else s'.machine) := by
      cases install
      · exact h.machine
      · exact h.machine.install hL
    obtain ⟨hresult, hmachine⟩ := hstart.run fuel program
    refine ⟨?_, hleft, hright, hmachine⟩
    rw [hresult]
    exact verdict_renumber warnings _

lemma told (h : Alongside g s s') (hg : g.Injective) {out out' : Answer × Session}
    (hverdict : out'.1.verdict = out.1.verdict) (hnext : Alongside g out.2 out'.2) : s'.told out' = s.told out := by
  obtain ⟨hsink, -, -, -⟩ := h.machine.looks hg
  obtain ⟨hsink', hglobals, hconstants, hsize⟩ := hnext.machine.looks hg
  unfold Session.told output
  rw [hverdict, hsink, hsink', hglobals, hconstants, hsize]

end Alongside

end Session

end ScriptLang
