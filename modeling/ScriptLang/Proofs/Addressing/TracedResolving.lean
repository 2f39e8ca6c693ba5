import ScriptLang.Proofs.Observing.Traced
import ScriptLang.Scope.Resolve

/-!
# The moments of resolving

Resolving with a mark at every expression, set when its turn comes: the moment of an expression holds the
scopes around it.  The class that another class extends is read like a variable and is marked like one.

* `exprT_run`, `stmtT_run`, … — without the marks this is resolving;
* `Resolver.moments` — all moments of a program.
-/

namespace ScriptLang

namespace Resolving

/-- Resolving with a mark at every expression. -/
abbrev Marked := Traced ScopeError Resolver (Expr OccurrenceId)

mutual

/-- Resolves an expression, marked. -/
def exprT (region : Region) (e : Expr OccurrenceId) : Marked Unit :=
  .visit e <| match e with
  | .literal _ => pure ()
  | .name kind use => .lift (read region kind use)
  | .assign target value => do
    exprT region value
    .lift (locate target.id target.text)
  | .unary _ _ operand => exprT region operand
  | .binary _ _ left right => do
    exprT region left
    exprT region right
  | .logical _ _ left right => do
    exprT region left
    exprT region right
  | .group inner => exprT region inner
  | .call _ callee args => do
    exprT region callee
    exprsT region args
  | .get object _ => exprT region object
  | .superGet keyword _ => .lift (read region .super keyword)
  | .set object _ value => do
    exprT region object
    exprT region value

/-- Resolves several expressions, marked. -/
def exprsT (region : Region) : List (Expr OccurrenceId) → Marked Unit
  | [] => pure ()
  | e :: es => do
    exprT region e
    exprsT region es

end

/-- Resolves an expression that may be missing, marked. -/
def exprOptionT (region : Region) : Option (Expr OccurrenceId) → Marked Unit
  | none => pure ()
  | some e => exprT region e

/-- Resolves the class that the class `name` extends, marked. -/
def superclassT (region : Region) (name : Ident) : Option (Occurrence OccurrenceId) → Marked Unit
  | none => pure ()
  | some use => do
    .lift (warnIf (use.text = name.text) (.inheritsFromItself use.text use.line))
    .visit (.name .identifier use) (.lift (read region .identifier use))

/-- Resolves something inside one more scope, marked. -/
def inScopeT (body : Marked Unit) : Marked Unit := do
  .lift (modify fun r => { r with scopes := [] :: r.scopes })
  body
  .lift (modify fun r => { r with scopes := r.scopes.tail })

mutual

/-- Resolves a statement, marked. -/
def stmtT (region : Region) : Stmt OccurrenceId → Marked Unit
  | .expr e => exprT region e
  | .print e => exprT region e
  | .letVar name value => do
    .lift (declare name)
    exprOptionT region value
    .lift (define name.text)
  | .constVar name value => do
    .lift (declare name)
    exprT region value
    .lift (define name.text)
  | .block body => inScopeT (stmtsT region body)
  | .ifThen condition thenBranch => do
    exprT region condition
    stmtT region thenBranch
  | .ifElse condition thenBranch elseBranch => do
    exprT region condition
    stmtT region thenBranch
    stmtT region elseBranch
  | .while condition body => do
    exprT region condition
    stmtT region body
  | .function decl => do
    .lift (declare decl.name)
    .lift (define decl.name.text)
    functionT region.nested decl
  | .return line value =>
    if region = .topLevel then .lift (throw (.returnOutsideFunction line)) else exprOptionT region value
  | .classDecl name parent methodDecls staticDecls => do
    superclassT region name parent
    .lift (declare name)
    .lift (define name.text)
    inScopeT do
      .lift (reservedNames parent.isSome)
      methodsT parent.isSome methodDecls
    staticsT staticDecls

/-- Resolves several statements, marked. -/
def stmtsT (region : Region) : List (Stmt OccurrenceId) → Marked Unit
  | [] => pure ()
  | s :: ss => do
    stmtT region s
    stmtsT region ss

/-- Resolves the parameters and the body of a function, marked. -/
def functionT (region : Region) : FunctionDecl (Stmt OccurrenceId) → Marked Unit
  | ⟨_, ps, body⟩ => inScopeT do
    .lift (params ps)
    stmtsT region body

/-- Resolves the methods of a class, marked. -/
def methodsT (inSubclass : Bool) : List (FunctionDecl (Stmt OccurrenceId)) → Marked Unit
  | [] => pure ()
  | d :: ds => do
    functionT (.ofMethod inSubclass d.name.text) d
    methodsT inSubclass ds

/-- Resolves the static methods of a class, marked. -/
def staticsT : List (FunctionDecl (Stmt OccurrenceId)) → Marked Unit
  | [] => pure ()
  | d :: ds => do
    functionT .function d
    staticsT ds

end

/-! ### Erasing the marks -/

mutual

theorem exprT_run (region : Region) : ∀ e, (exprT region e).run = expr region e
  | .literal _ => by simp [exprT, expr]
  | .name _ _ => by simp [exprT, expr]
  | .assign _ value => by simp [exprT, expr, exprT_run region value]
  | .unary _ _ operand => by simp [exprT, expr, exprT_run region operand]
  | .binary _ _ left right => by simp [exprT, expr, exprT_run region left, exprT_run region right]
  | .logical _ _ left right => by simp [exprT, expr, exprT_run region left, exprT_run region right]
  | .group inner => by simp [exprT, expr, exprT_run region inner]
  | .call _ callee args => by simp [exprT, expr, exprT_run region callee, exprsT_run region args]
  | .get object _ => by simp [exprT, expr, exprT_run region object]
  | .superGet _ _ => by simp [exprT, expr]
  | .set object _ value => by simp [exprT, expr, exprT_run region object, exprT_run region value]

theorem exprsT_run (region : Region) : ∀ es, (exprsT region es).run = exprs region es
  | [] => by simp [exprsT, exprs]
  | e :: es => by simp [exprsT, exprs, exprT_run region e, exprsT_run region es]

end

lemma exprOptionT_run (region : Region) (e : Option (Expr OccurrenceId)) :
    (exprOptionT region e).run = exprOption region e := by
  cases e with
  | none => rfl
  | some e => exact exprT_run region e

lemma superclassT_run (region : Region) (name : Ident) (parent : Option (Occurrence OccurrenceId)) :
    (superclassT region name parent).run = superclass region name parent := by
  cases parent <;> rfl

lemma inScopeT_run {body : Marked Unit} : (inScopeT body).run = inScope body.run := rfl

mutual

theorem stmtT_run (region : Region) : ∀ s, (stmtT region s).run = stmt region s
  | .expr e | .print e => by simp [stmtT, stmt, exprT_run]
  | .letVar _ _ | .constVar _ _ => by simp [stmtT, stmt, exprOptionT_run, exprT_run]
  | .block body => by simp [stmtT, stmt, inScopeT_run, stmtsT_run region body]
  | .ifThen _ yes => by simp [stmtT, stmt, exprT_run, stmtT_run region yes]
  | .ifElse _ yes no => by simp [stmtT, stmt, exprT_run, stmtT_run region yes, stmtT_run region no]
  | .while _ body => by simp [stmtT, stmt, exprT_run, stmtT_run region body]
  | .function decl => by simp [stmtT, stmt, functionT_run region.nested decl]
  | .return _ _ => by simp [stmtT, stmt, exprOptionT_run]
  | .classDecl _ parent methodDecls staticDecls => by
    simp [stmtT, stmt, superclassT_run, inScopeT_run, methodsT_run parent.isSome methodDecls,
      staticsT_run staticDecls]

theorem stmtsT_run (region : Region) : ∀ ss, (stmtsT region ss).run = stmts region ss
  | [] => by simp [stmtsT, stmts]
  | s :: ss => by simp [stmtsT, stmts, stmtT_run region s, stmtsT_run region ss]

theorem functionT_run (region : Region) : ∀ d, (functionT region d).run = function region d
  | ⟨_, _, body⟩ => by simp [functionT, function, inScopeT_run, stmtsT_run region body]

theorem methodsT_run (inSubclass : Bool) : ∀ ds, (methodsT inSubclass ds).run = methods inSubclass ds
  | [] => by simp [methodsT, methods]
  | d :: ds => by
    simp [methodsT, methods, functionT_run (.ofMethod inSubclass d.name.text) d, methodsT_run inSubclass ds]

theorem staticsT_run : ∀ ds, (staticsT ds).run = statics ds
  | [] => by simp [staticsT, statics]
  | d :: ds => by simp [staticsT, statics, functionT_run .function d, staticsT_run ds]

end

end Resolving

namespace Resolver

/-- The moments of the statements of a program.  Like resolving they go on behind a statement that fails. -/
def moments (r : Resolver) : Program OccurrenceId → List (Expr OccurrenceId × Resolver)
  | [] => []
  | s :: ss =>
    (Resolving.stmtT .topLevel s).trace r ++
      match (Resolving.stmtT .topLevel s).run r with
      | .ok _ r => moments r ss
      | .error _ r => moments { r with scopes := [] } ss

end Resolver

end ScriptLang
