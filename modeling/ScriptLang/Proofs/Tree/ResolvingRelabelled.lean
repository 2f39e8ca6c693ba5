import ScriptLang.Proofs.Tree.Relabelling
import ScriptLang.Scope.Resolve

/-!
# Resolving relabelled trees

Resolving goes through a tree in the same way whatever its lines and the numbers of its uses of names are.  So a
relation between computations that holds of the single steps, and of computations put together, holds of
resolving a tree and of resolving the same tree on other lines, with other numbers.

* `Tracks` — such a relation;
* `Tracks.stmt` — the theorem for statements.
-/

namespace ScriptLang.Resolving

/-- **The relation holds of the single steps of resolving**, with other lines and other numbers on the second side,
and of computations put together. -/
structure Tracks (f : Nat → Nat) (g : OccurrenceId → OccurrenceId)
    (P : Resolving Unit → Resolving Unit → Prop) : Prop where
  pure : P (pure ()) (pure ())
  bind : ∀ {x x' y y' : Resolving Unit}, P x x' → P y y' → P (do x; y) (do x'; y')
  inScope : ∀ {x x' : Resolving Unit}, P x x' → P (inScope x) (inScope x')
  declare : ∀ name : Ident, P (declare name) (declare (name.relabel f))
  define : ∀ text : String, P (define text) (define text)
  locate : ∀ (id : OccurrenceId) (text : String), P (locate id text) (locate (g id) text)
  checkReadable : ∀ name : Ident, P (checkReadable name) (checkReadable (name.relabel f))
  warnIf : ∀ (condition : Bool) (warning : Nat → ScopeWarning) (line : Nat),
    P (warnIf condition (warning line)) (warnIf condition (warning (f line)))
  throw : ∀ line : Nat, P (throw (.returnOutsideFunction line)) (throw (.returnOutsideFunction (f line)))

namespace Tracks

variable {f : Nat → Nat} {g : OccurrenceId → OccurrenceId} {P : Resolving Unit → Resolving Unit → Prop}
  {region : Region} (h : Tracks f g P)

include h

/-! ### Parts of trees -/

lemma read (kind : NameKind) (use : Occurrence OccurrenceId) :
    P (read region kind use) (read region kind (use.relabel f g)) := by
  cases kind with
  | identifier => exact h.bind (h.checkReadable use.toIdent) (h.locate use.id use.text)
  | this => exact h.bind (h.warnIf _ .thisOutsideMethod use.line) (h.locate use.id "this")
  | super => exact h.bind (h.warnIf _ .superOutsideSubclass use.line) (h.locate use.id "super")

lemma params : ∀ ps : List Ident, P (params ps) (params (ps.map (Ident.relabel f)))
  | [] => h.pure
  | p :: ps => h.bind (h.declare p) (h.bind (h.define p.text) (params ps))

lemma reservedNames (inSubclass : Bool) : P (reservedNames inSubclass) (reservedNames inSubclass) := by
  cases inSubclass
  · exact h.bind (h.define "this") h.pure
  · exact h.bind (h.define "this") (h.define "super")

lemma superclass (name : Ident) (parent : Option (Occurrence OccurrenceId)) :
    P (superclass region name parent)
      (superclass region (name.relabel f) (parent.map fun use => use.relabel f g)) := by
  cases parent with
  | none => exact h.pure
  | some use => exact h.bind (h.warnIf _ (.inheritsFromItself use.text) use.line) (h.read .identifier use)

/-! ### Trees -/

mutual

theorem expr : ∀ e, P (expr region e) (expr region (e.relabel f g))
  | .literal _ => by
    rw [Expr.relabel, Resolving.expr]
    exact h.pure
  | .name kind use => by
    rw [Expr.relabel, Resolving.expr, Resolving.expr]
    exact h.read kind use
  | .superGet keyword _ => by
    rw [Expr.relabel, Resolving.expr, Resolving.expr]
    exact h.read .super keyword
  | .assign target e => by
    rw [Expr.relabel, Resolving.expr, Resolving.expr]
    exact h.bind (expr e) (h.locate target.id target.text)
  | .unary _ _ e | .group e | .get e _ => by
    rw [Expr.relabel, Resolving.expr, Resolving.expr]
    exact expr e
  | .binary _ _ e e' | .logical _ _ e e' | .set e _ e' => by
    rw [Expr.relabel, Resolving.expr, Resolving.expr]
    exact h.bind (expr e) (expr e')
  | .call _ e es => by
    rw [Expr.relabel, Resolving.expr, Resolving.expr]
    exact h.bind (expr e) (exprs es)

theorem exprs : ∀ es, P (exprs region es) (exprs region (Expr.relabelList f g es))
  | [] => by
    rw [Expr.relabelList, Resolving.exprs]
    exact h.pure
  | e :: es => by
    rw [Expr.relabelList, Resolving.exprs, Resolving.exprs]
    exact h.bind (expr e) (exprs es)

end

lemma exprOption (e : Option (Expr OccurrenceId)) :
    P (exprOption region e) (exprOption region (e.map fun e => e.relabel f g)) := by
  cases e with
  | none => exact h.pure
  | some e => exact h.expr e

mutual

theorem stmt : ∀ (region : Region) s, P (stmt region s) (stmt region (s.relabel f g))
  | region, .expr e | region, .print e => by
    rw [Stmt.relabel, Resolving.stmt, Resolving.stmt]
    exact h.expr e
  | region, .letVar name v => by
    rw [Stmt.relabel, Resolving.stmt, Resolving.stmt]
    exact h.bind (h.declare name) (h.bind (h.exprOption v) (h.define name.text))
  | region, .constVar name v => by
    rw [Stmt.relabel, Resolving.stmt, Resolving.stmt]
    exact h.bind (h.declare name) (h.bind (h.expr v) (h.define name.text))
  | region, .block body => by
    rw [Stmt.relabel, Resolving.stmt, Resolving.stmt]
    exact h.inScope (stmts region body)
  | region, .ifThen c s | region, .while c s => by
    rw [Stmt.relabel, Resolving.stmt, Resolving.stmt]
    exact h.bind (h.expr c) (stmt region s)
  | region, .ifElse c s s' => by
    rw [Stmt.relabel, Resolving.stmt, Resolving.stmt]
    exact h.bind (h.expr c) (h.bind (stmt region s) (stmt region s'))
  | region, .function d => by
    rw [Stmt.relabel, Resolving.stmt, Resolving.stmt, FunctionDecl.relabel_name]
    exact h.bind (h.declare d.name) (h.bind (h.define d.name.text) (function region.nested d))
  | region, .return line v => by
    rw [Stmt.relabel, Resolving.stmt, Resolving.stmt]
    split
    · exact h.throw line
    · exact h.exprOption v
  | region, .classDecl name p ms ss => by
    rw [Stmt.relabel, Resolving.stmt, Resolving.stmt, Option.isSome_map]
    exact h.bind (h.superclass name p) (h.bind (h.declare name) (h.bind (h.define name.text)
      (h.bind (h.inScope (h.bind (h.reservedNames p.isSome) (methods p.isSome ms))) (statics ss))))

theorem stmts : ∀ (region : Region) ss, P (stmts region ss) (stmts region (Stmt.relabelList f g ss))
  | region, [] => by
    rw [Stmt.relabelList, Resolving.stmts]
    exact h.pure
  | region, s :: ss => by
    rw [Stmt.relabelList, Resolving.stmts, Resolving.stmts]
    exact h.bind (stmt region s) (stmts region ss)

theorem function : ∀ (region : Region) d, P (function region d) (function region (FunctionDecl.relabel f g d))
  | region, ⟨name, ps, body⟩ => by
    rw [FunctionDecl.relabel, Resolving.function, Resolving.function]
    exact h.inScope (h.bind (h.params ps) (stmts region body))

theorem methods : ∀ (inSubclass : Bool) ds,
    P (methods inSubclass ds) (methods inSubclass (FunctionDecl.relabelList f g ds))
  | inSubclass, [] => by
    rw [FunctionDecl.relabelList, Resolving.methods]
    exact h.pure
  | inSubclass, d :: ds => by
    rw [FunctionDecl.relabelList, Resolving.methods, Resolving.methods, FunctionDecl.relabel_name]
    exact h.bind (function _ d) (methods inSubclass ds)

theorem statics : ∀ ds, P (statics ds) (statics (FunctionDecl.relabelList f g ds))
  | [] => by
    rw [FunctionDecl.relabelList, Resolving.statics]
    exact h.pure
  | d :: ds => by
    rw [FunctionDecl.relabelList, Resolving.statics, Resolving.statics]
    exact h.bind (function .function d) (statics ds)

end

end Tracks

end ScriptLang.Resolving
