import Mathlib.Tactic.Lemma
import ScriptLang.Scope.Basic
import ScriptLang.Tree.Occurrences

/-!
# Renaming a local name

A name that is declared in a block or a function gives way to another one: in its declaration, and in exactly
those uses of it that the table says mean the scope of that declaration.  Nothing else of the program changes.

* `Renaming` — the two names and the table;
* `Expr.renamed`, `Stmt.renamed`, … — code inside the scope, with the one name in place of the other;
* `Stmt.Renames`, `Program.Renames` — a statement, a program in which this is done in one scope;
* `Program.names` — all names that occur in a program.
-/

namespace ScriptLang

variable {ι : Type}

/-- A new name for an old one, and the table that tells which scopes are meant by uses of names. -/
structure Renaming where
  locals : Locals
  old : String
  new : String

/-- How many scopes out from a place the scope stands in which a name is renamed; none if the place is not
inside of it. -/
abbrev Distance := Option Nat

/-- The distance from one scope further in. -/
def Distance.inner (d : Distance) : Distance := d.map (· + 1)

namespace Renaming

variable (ρ : Renaming) (d : Distance)

/-- What is written for a name that means the scope some steps out. -/
def text (hops : Nat) (name : String) : String :=
  if d = some hops ∧ name = ρ.old then ρ.new else name

/-- What is written for a name that has been found some steps out, or in no scope. -/
def written (found : Option Nat) (name : String) : String :=
  match found with
  | none => name
  | some hops => ρ.text d hops name

/-- What is written where a variable is declared. -/
def declared (name : Ident) : Ident := { name with text := ρ.text d 0 name.text }

/-- What is written where a variable is used. -/
def used (use : Occurrence OccurrenceId) : Occurrence OccurrenceId :=
  { use with text := ρ.written d ρ.locals[use.id]? use.text }

end Renaming

/-! ### Code inside the scope -/

section Renamed

variable (ρ : Renaming)

mutual

/-- An expression in which a name is renamed. -/
def Expr.renamed (d : Distance) : Expr OccurrenceId → Expr OccurrenceId
  | .literal value => .literal value
  | .name .identifier use => .name .identifier (ρ.used d use)
  | .name kind use => .name kind use
  | .assign target value => .assign (ρ.used d target) (value.renamed d)
  | .unary op line operand => .unary op line (operand.renamed d)
  | .binary op line left right => .binary op line (left.renamed d) (right.renamed d)
  | .logical op line left right => .logical op line (left.renamed d) (right.renamed d)
  | .group inner => .group (inner.renamed d)
  | .call line callee args => .call line (callee.renamed d) (Expr.renamedList d args)
  | .get object property => .get (object.renamed d) property
  | .superGet keyword property => .superGet keyword property
  | .set object property value => .set (object.renamed d) property (value.renamed d)

/-- Several expressions in which a name is renamed. -/
def Expr.renamedList (d : Distance) : List (Expr OccurrenceId) → List (Expr OccurrenceId)
  | [] => []
  | e :: es => e.renamed d :: Expr.renamedList d es

end

mutual

/-- A statement in which a name is renamed.  Functions and classes keep theirs. -/
def Stmt.renamed : Distance → Stmt OccurrenceId → Stmt OccurrenceId
  | d, .expr e => .expr (e.renamed ρ d)
  | d, .print e => .print (e.renamed ρ d)
  | d, .letVar name value => .letVar (ρ.declared d name) (value.map fun e => e.renamed ρ d)
  | d, .constVar name value => .constVar (ρ.declared d name) (value.renamed ρ d)
  | d, .block body => .block (Stmt.renamedList d.inner body)
  | d, .ifThen condition yes => .ifThen (condition.renamed ρ d) (yes.renamed d)
  | d, .ifElse condition yes no => .ifElse (condition.renamed ρ d) (yes.renamed d) (no.renamed d)
  | d, .while condition body => .while (condition.renamed ρ d) (body.renamed d)
  | d, .function decl => .function (FunctionDecl.renamed d.inner decl)
  | d, .return line value => .return line (value.map fun e => e.renamed ρ d)
  | d, .classDecl name parent methods statics =>
    .classDecl name (parent.map (ρ.used d)) (FunctionDecl.renamedList d.inner.inner methods)
      (FunctionDecl.renamedList d.inner statics)

/-- Several statements in which a name is renamed. -/
def Stmt.renamedList : Distance → List (Stmt OccurrenceId) → List (Stmt OccurrenceId)
  | _, [] => []
  | d, s :: ss => s.renamed d :: Stmt.renamedList d ss

/-- A function in which a name is renamed; the distance is the one from its own scope. -/
def FunctionDecl.renamed :
    Distance → FunctionDecl (Stmt OccurrenceId) → FunctionDecl (Stmt OccurrenceId)
  | d, ⟨name, params, body⟩ => ⟨name, params.map (ρ.declared d), Stmt.renamedList d body⟩

/-- Several functions in which a name is renamed. -/
def FunctionDecl.renamedList :
    Distance → List (FunctionDecl (Stmt OccurrenceId)) → List (FunctionDecl (Stmt OccurrenceId))
  | _, [] => []
  | d, decl :: decls => FunctionDecl.renamed d decl :: FunctionDecl.renamedList d decls

end

end Renamed

/-! ### Programs -/

/-- The statement declares a name by `let` or `const`. -/
def Stmt.Lets (name : String) : Stmt ι → Prop
  | .letVar declared _ | .constVar declared _ => declared.text = name
  | _ => False

/-- One of the statements declares a name by `let` or `const`. -/
def Stmt.LetsIn (name : String) (body : List (Stmt ι)) : Prop := ∃ s ∈ body, s.Lets name

mutual

/-- **The second statement is the first one with a name renamed in one scope**, a block or a function in it
that declares the name by `let` or `const`, or as a parameter. -/
inductive Stmt.Renames (ρ : Renaming) : Stmt OccurrenceId → Stmt OccurrenceId → Prop
  | scope {body} : Stmt.LetsIn ρ.old body →
    Stmt.Renames ρ (.block body) (.block (Stmt.renamedList ρ (some 0) body))
  | block {before s s' behind} : Stmt.Renames ρ s s' →
    Stmt.Renames ρ (.block (before ++ s :: behind)) (.block (before ++ s' :: behind))
  | ifThen {c s s'} : Stmt.Renames ρ s s' → Stmt.Renames ρ (.ifThen c s) (.ifThen c s')
  | yes {c s s' no} : Stmt.Renames ρ s s' → Stmt.Renames ρ (.ifElse c s no) (.ifElse c s' no)
  | no {c yes s s'} : Stmt.Renames ρ s s' → Stmt.Renames ρ (.ifElse c yes s) (.ifElse c yes s')
  | while {c s s'} : Stmt.Renames ρ s s' → Stmt.Renames ρ (.while c s) (.while c s')
  | function {decl decl'} : FunctionDecl.Renames ρ decl decl' → Stmt.Renames ρ (.function decl) (.function decl')
  | method {name parent before decl decl' behind statics} : FunctionDecl.Renames ρ decl decl' →
    Stmt.Renames ρ (.classDecl name parent (before ++ decl :: behind) statics)
      (.classDecl name parent (before ++ decl' :: behind) statics)
  | static {name parent methods before decl decl' behind} : FunctionDecl.Renames ρ decl decl' →
    Stmt.Renames ρ (.classDecl name parent methods (before ++ decl :: behind))
      (.classDecl name parent methods (before ++ decl' :: behind))

/-- The second function is the first one with a name renamed in one scope, its own or one in its body. -/
inductive FunctionDecl.Renames (ρ : Renaming) :
    FunctionDecl (Stmt OccurrenceId) → FunctionDecl (Stmt OccurrenceId) → Prop
  | scope {decl} : (ρ.old ∈ decl.params.map (·.text) ∨ Stmt.LetsIn ρ.old decl.body) →
    FunctionDecl.Renames ρ decl (FunctionDecl.renamed ρ (some 0) decl)
  | body {name params before s s' behind} : Stmt.Renames ρ s s' →
    FunctionDecl.Renames ρ ⟨name, params, before ++ s :: behind⟩ ⟨name, params, before ++ s' :: behind⟩

end

/-- The second program is the first one with a name renamed in one scope. -/
inductive Program.Renames (ρ : Renaming) : Program OccurrenceId → Program OccurrenceId → Prop
  | mk {before s s' behind} : s.Renames ρ s' → Renames ρ (before ++ s :: behind) (before ++ s' :: behind)

/-! ### The names of a program -/

mutual

/-- All names that are declared in a statement. -/
def Stmt.declaredNames : Stmt ι → List String
  | .letVar name _ | .constVar name _ => [name.text]
  | .block body => Stmt.declaredNamesList body
  | .ifThen _ yes => yes.declaredNames
  | .ifElse _ yes no => yes.declaredNames ++ no.declaredNames
  | .while _ body => body.declaredNames
  | .function decl => FunctionDecl.declaredNames decl
  | .classDecl name _ methods statics =>
    name.text :: (FunctionDecl.declaredNamesList methods ++ FunctionDecl.declaredNamesList statics)
  | .expr _ | .print _ | .return _ _ => []

/-- All names that are declared in several statements. -/
def Stmt.declaredNamesList : List (Stmt ι) → List String
  | [] => []
  | s :: ss => s.declaredNames ++ Stmt.declaredNamesList ss

/-- The names of a function, of its parameters, and of what is declared in its body. -/
def FunctionDecl.declaredNames : FunctionDecl (Stmt ι) → List String
  | ⟨name, params, body⟩ => name.text :: (params.map (·.text) ++ Stmt.declaredNamesList body)

/-- All names that are declared in several functions. -/
def FunctionDecl.declaredNamesList : List (FunctionDecl (Stmt ι)) → List String
  | [] => []
  | decl :: decls => FunctionDecl.declaredNames decl ++ FunctionDecl.declaredNamesList decls

end

/-- All names that are declared or used in a program.  The names of properties are not among them. -/
def Program.names (program : Program ι) : List String :=
  Stmt.declaredNamesList program ++ (Stmt.occurrencesList program).map (·.text)

end ScriptLang
