import ScriptLang.Proofs.Loops.SourceRuns
import ScriptLang.Proofs.Renumbering.RenumberedSessions

/-!
# Scopes of loops as they are written

Resolving and sessions for programs that are run as they are written: body and increment of a loop stand in the
scope of the loop.

* `Source.stmt`, `Source.resolve` — resolving without a scope for the block around a body and an increment;
* `Source.submit`, `Source.replies` — sessions that resolve and run programs as they are written.
-/

namespace ScriptLang.Source

open Resolving

/-! ### Resolving -/

mutual

/-- Resolves a statement. -/
def stmt (region : Region) : Stmt OccurrenceId → Resolving Unit
  | .expr e => expr region e
  | .print e => expr region e
  | .letVar name value => do
    declare name
    exprOption region value
    define name.text
  | .constVar name value => do
    declare name
    expr region value
    define name.text
  | .block body => if Stmt.isRound body then stmts region body else inScope (stmts region body)
  | .ifThen condition thenBranch => do
    expr region condition
    stmt region thenBranch
  | .ifElse condition thenBranch elseBranch => do
    expr region condition
    stmt region thenBranch
    stmt region elseBranch
  | .while condition body => do
    expr region condition
    stmt region body
  | .function decl => do
    declare decl.name
    define decl.name.text
    function region.nested decl
  | .return line value =>
    if region = .topLevel then throw (.returnOutsideFunction line) else exprOption region value
  | .classDecl name parent methodDecls staticDecls => do
    superclass region name parent
    declare name
    define name.text
    inScope do
      reservedNames parent.isSome
      methods parent.isSome methodDecls
    statics staticDecls

/-- Resolves several statements. -/
def stmts (region : Region) : List (Stmt OccurrenceId) → Resolving Unit
  | [] => pure ()
  | s :: ss => do
    stmt region s
    stmts region ss

/-- Resolves the parameters and the body of a function, which share one scope. -/
def function (region : Region) : FunctionDecl (Stmt OccurrenceId) → Resolving Unit
  | ⟨_, ps, body⟩ => inScope do
    params ps
    stmts region body

/-- Resolves the methods of a class. -/
def methods (inSubclass : Bool) : List (FunctionDecl (Stmt OccurrenceId)) → Resolving Unit
  | [] => pure ()
  | d :: ds => do
    function (.ofMethod inSubclass d.name.text) d
    methods inSubclass ds

/-- Resolves the static methods of a class. -/
def statics : List (FunctionDecl (Stmt OccurrenceId)) → Resolving Unit
  | [] => pure ()
  | d :: ds => do
    function .function d
    statics ds

end

/-- Resolves top-level statements one after another, each from no scope. -/
def topLevel (r : Resolver) : Program OccurrenceId → List ScopeError × Resolver
  | [] => ([], r)
  | s :: ss =>
    match stmt .topLevel s r with
    | .ok _ r => topLevel r ss
    | .error e r =>
      let (errors, r) := topLevel { r with scopes := [] } ss
      (e :: errors, r)

/-- Resolves a program. -/
def resolve (r : Resolver) (program : Program OccurrenceId) : Except Rejection Resolution × Resolver :=
  let (errors, r) := topLevel r program
  let answer :=
    if errors.isEmpty then .ok ⟨r.locals, r.warnings⟩ else .error ⟨errors, r.warnings⟩
  (answer, { r with locals := ∅, warnings := [] })

/-! ### Sessions -/

/-- Takes a program and runs it as it is written. -/
def submit (fuel : Nat) (install : Bool) (tokens : List Token) (s : Session) : Session.Answer × Session :=
  match Program.parse tokens with
  | .error ds => (.unreadable ds, s)
  | .ok tree =>
    let (program, nextId) := tree.number s.nextId
    let (resolution, resolver) := resolve s.resolver program
    let s := { s with nextId, resolver }
    match resolution with
    | .error rejection => (.rejected rejection, s)
    | .ok r =>
      let machine := if install then s.machine.install r.locals else s.machine
      let (result, machine) := runProgram fuel program machine
      (.ran r.warnings result, { s with machine })

/-- The answer to a request, and the session behind it. -/
def answer (q : Session.Request) (s : Session) : Session.Answer × Session :=
  submit q.fuel q.install q.tokens (s.skip q.skipped)

/-- What a session that runs programs as they are written replies to one request after another. -/
def replies (s : Session) : List Session.Request → List Session.Reply
  | [] => []
  | q :: qs => s.told (answer q s) :: replies (answer q s).2 qs

end ScriptLang.Source
