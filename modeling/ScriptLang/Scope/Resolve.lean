import ScriptLang.Scope.Basic

/-!
# Resolving programs

The walk over a program that finds the distance of every local use of a name.  A block opens a scope; a
function opens one for its parameters and its body together; the methods of a class stand in one more, which
holds `this` and, in a class that extends another, `super`.  Static methods stand outside of that one.
-/

namespace ScriptLang

namespace Resolving

/-- Resolves a read of a variable, `this` or `super`.  The two reserved names are looked up as such,
whatever the token that stands for them says. -/
def read (region : Region) (kind : NameKind) (use : Occurrence OccurrenceId) : Resolving Unit :=
  match kind with
  | .identifier => do
    checkReadable use.toIdent
    locate use.id use.text
  | .this => do
    warnIf (!region.allowsThis) (.thisOutsideMethod use.line)
    locate use.id "this"
  | .super => do
    warnIf (!region.allowsSuper) (.superOutsideSubclass use.line)
    locate use.id "super"

mutual

/-- Resolves an expression. -/
def expr (region : Region) : Expr OccurrenceId → Resolving Unit
  | .literal _ => pure ()
  | .name kind use => read region kind use
  | .assign target value => do
    expr region value
    locate target.id target.text
  | .unary _ _ operand => expr region operand
  | .binary _ _ left right => do
    expr region left
    expr region right
  | .logical _ _ left right => do
    expr region left
    expr region right
  | .group inner => expr region inner
  | .call _ callee args => do
    expr region callee
    exprs region args
  | .get object _ => expr region object
  | .superGet keyword _ => read region .super keyword
  | .set object _ value => do
    expr region object
    expr region value

/-- Resolves several expressions. -/
def exprs (region : Region) : List (Expr OccurrenceId) → Resolving Unit
  | [] => pure ()
  | e :: es => do
    expr region e
    exprs region es

end

/-- Resolves an expression that may be missing. -/
def exprOption (region : Region) : Option (Expr OccurrenceId) → Resolving Unit
  | none => pure ()
  | some e => expr region e

/-- Declares and defines the parameters of a function. -/
def params : List Ident → Resolving Unit
  | [] => pure ()
  | p :: ps => do
    declare p
    define p.text
    params ps

/-- Resolves the class that the class `name` extends. -/
def superclass (region : Region) (name : Ident) : Option (Occurrence OccurrenceId) → Resolving Unit
  | none => pure ()
  | some use => do
    warnIf (use.text = name.text) (.inheritsFromItself use.text use.line)
    read region .identifier use

/-- Defines the reserved names of the scope around the methods of a class. -/
def reservedNames (inSubclass : Bool) : Resolving Unit := do
  define "this"
  if inSubclass then define "super"

mutual

/-- Resolves a statement. -/
def stmt (region : Region) : Stmt OccurrenceId → Resolving Unit
  | .expr e => expr region e
  | .print e => expr region e
  | .letVar name value => do
    declare name
    exprOption region value
    define name.text
  | .constVar name value => do
    declare name
    expr region value
    define name.text
  | .block body => inScope (stmts region body)
  | .ifThen condition thenBranch => do
    expr region condition
    stmt region thenBranch
  | .ifElse condition thenBranch elseBranch => do
    expr region condition
    stmt region thenBranch
    stmt region elseBranch
  | .while condition body => do
    expr region condition
    stmt region body
  | .function decl => do
    declare decl.name
    define decl.name.text
    function region.nested decl
  | .return line value =>
    if region = .topLevel then throw (.returnOutsideFunction line) else exprOption region value
  | .classDecl name parent methodDecls staticDecls => do
    superclass region name parent
    declare name
    define name.text
    inScope do
      reservedNames parent.isSome
      methods parent.isSome methodDecls
    statics staticDecls

/-- Resolves several statements. -/
def stmts (region : Region) : List (Stmt OccurrenceId) → Resolving Unit
  | [] => pure ()
  | s :: ss => do
    stmt region s
    stmts region ss

/-- Resolves the parameters and the body of a function, which share one scope. -/
def function (region : Region) : FunctionDecl (Stmt OccurrenceId) → Resolving Unit
  | ⟨_, ps, body⟩ => inScope do
    params ps
    stmts region body

/-- Resolves the methods of a class. -/
def methods (inSubclass : Bool) : List (FunctionDecl (Stmt OccurrenceId)) → Resolving Unit
  | [] => pure ()
  | d :: ds => do
    function (.ofMethod inSubclass d.name.text) d
    methods inSubclass ds

/-- Resolves the static methods of a class, which are functions without an instance. -/
def statics : List (FunctionDecl (Stmt OccurrenceId)) → Resolving Unit
  | [] => pure ()
  | d :: ds => do
    function .function d
    statics ds

end

end Resolving

/-- What is known about a program that is fit to run. -/
structure Resolution where
  locals : Locals
  warnings : List ScopeWarning

/-- Why a program is unfit to run, and what else is doubtful about it. -/
structure Rejection where
  errors : List ScopeError
  warnings : List ScopeWarning

namespace Resolver

/-- Resolves top-level statements one after another.  An error ends the statement in which it occurs and
all scopes with it; the statements behind it are resolved nevertheless. -/
def topLevel (r : Resolver) : Program OccurrenceId → List ScopeError × Resolver
  | [] => ([], r)
  | s :: ss =>
    match Resolving.stmt .topLevel s r with
    | .ok _ r => topLevel r ss
    | .error e r =>
      let (errors, r) := topLevel { r with scopes := [] } ss
      (e :: errors, r)

/-- Resolves a program.  What has been found goes into the answer and does not stay with the resolver. -/
def resolve (r : Resolver) (program : Program OccurrenceId) :
    Except Rejection Resolution × Resolver :=
  let (errors, r) := r.topLevel program
  let answer :=
    if errors.isEmpty then .ok ⟨r.locals, r.warnings⟩ else .error ⟨errors, r.warnings⟩
  (answer, { r with locals := ∅, warnings := [] })

end Resolver

end ScriptLang
