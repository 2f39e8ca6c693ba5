import ScriptLang.Tree.Basic

/-!
# The uses of names in a program

All places where a variable is read or assigned, in the order in which the tree is walked: a value before
the assignment of it, a callee before its arguments, an object before the value that is put into it, a
superclass before the methods, the methods before the static methods.
-/

namespace ScriptLang

variable {ι : Type}

mutual

/-- The uses of names in an expression. -/
def Expr.occurrences : Expr ι → List (Occurrence ι)
  | .literal _ => []
  | .name _ use => [use]
  | .assign target value => value.occurrences ++ [target]
  | .unary _ _ operand => operand.occurrences
  | .binary _ _ left right => left.occurrences ++ right.occurrences
  | .logical _ _ left right => left.occurrences ++ right.occurrences
  | .group inner => inner.occurrences
  | .call _ callee args => callee.occurrences ++ Expr.occurrencesList args
  | .get object _ => object.occurrences
  | .superGet keyword _ => [keyword]
  | .set object _ value => object.occurrences ++ value.occurrences

/-- The uses of names in several expressions. -/
def Expr.occurrencesList : List (Expr ι) → List (Occurrence ι)
  | [] => []
  | e :: es => e.occurrences ++ Expr.occurrencesList es

end

/-- The uses of names in an expression that may be missing. -/
def Expr.occurrencesOption : Option (Expr ι) → List (Occurrence ι)
  | none => []
  | some e => e.occurrences

mutual

/-- The uses of names in a statement. -/
def Stmt.occurrences : Stmt ι → List (Occurrence ι)
  | .expr e => e.occurrences
  | .print e => e.occurrences
  | .letVar _ value => Expr.occurrencesOption value
  | .constVar _ value => value.occurrences
  | .block body => Stmt.occurrencesList body
  | .ifThen condition thenBranch => condition.occurrences ++ thenBranch.occurrences
  | .ifElse condition thenBranch elseBranch =>
    condition.occurrences ++ thenBranch.occurrences ++ elseBranch.occurrences
  | .while condition body => condition.occurrences ++ body.occurrences
  | .function decl => FunctionDecl.occurrences decl
  | .return _ value => Expr.occurrencesOption value
  | .classDecl _ superclass methods statics =>
    superclass.toList ++ FunctionDecl.occurrencesList methods ++ FunctionDecl.occurrencesList statics

/-- The uses of names in several statements. -/
def Stmt.occurrencesList : List (Stmt ι) → List (Occurrence ι)
  | [] => []
  | s :: ss => s.occurrences ++ Stmt.occurrencesList ss

/-- The uses of names in a function. -/
def FunctionDecl.occurrences : FunctionDecl (Stmt ι) → List (Occurrence ι)
  | ⟨_, _, body⟩ => Stmt.occurrencesList body

/-- The uses of names in several functions. -/
def FunctionDecl.occurrencesList : List (FunctionDecl (Stmt ι)) → List (Occurrence ι)
  | [] => []
  | d :: ds => FunctionDecl.occurrences d ++ FunctionDecl.occurrencesList ds

end

end ScriptLang
