import ScriptLang.Tree.Basic

/-!
# Numbering the uses of names

A tree just read says nothing about the identity of its uses of names.  Numbering gives them consecutive
numbers in the order in which the tree is walked, starting from the first number that is still free, so no
two uses of a session share one.
-/

namespace ScriptLang

/-- The identity of a use of a name in a session. -/
abbrev OccurrenceId := Nat

/-- Computations that take numbers from a counter. -/
abbrev Numbered := StateM OccurrenceId

/-- The next free number. -/
def Numbered.fresh : Numbered OccurrenceId := fun n => (n, n + 1)

/-- Numbers a use of a name. -/
def Occurrence.number (use : Occurrence Unit) : Numbered (Occurrence OccurrenceId) := do
  return { toIdent := use.toIdent, id := ← Numbered.fresh }

mutual

/-- Numbers the uses of names in an expression. -/
def Expr.number : Expr Unit → Numbered (Expr OccurrenceId)
  | .literal value => return .literal value
  | .name kind use => return .name kind (← use.number)
  | .assign target value => do
    let value ← value.number
    return .assign (← target.number) value
  | .unary op line operand => return .unary op line (← operand.number)
  | .binary op line left right => return .binary op line (← left.number) (← right.number)
  | .logical op line left right => return .logical op line (← left.number) (← right.number)
  | .group inner => return .group (← inner.number)
  | .call line callee args => return .call line (← callee.number) (← Expr.numberList args)
  | .get object property => return .get (← object.number) property
  | .superGet keyword property => return .superGet (← keyword.number) property
  | .set object property value => return .set (← object.number) property (← value.number)

/-- Numbers the uses of names in several expressions. -/
def Expr.numberList : List (Expr Unit) → Numbered (List (Expr OccurrenceId))
  | [] => return []
  | e :: es => return (← e.number) :: (← Expr.numberList es)

end

/-- Numbers the uses of names in an expression that may be missing. -/
def Expr.numberOption : Option (Expr Unit) → Numbered (Option (Expr OccurrenceId))
  | none => return none
  | some e => return some (← e.number)

/-- Numbers a use of a name that may be missing. -/
def Occurrence.numberOption : Option (Occurrence Unit) → Numbered (Option (Occurrence OccurrenceId))
  | none => return none
  | some use => return some (← use.number)

mutual

/-- Numbers the uses of names in a statement. -/
def Stmt.number : Stmt Unit → Numbered (Stmt OccurrenceId)
  | .expr e => return .expr (← e.number)
  | .print e => return .print (← e.number)
  | .letVar name value => return .letVar name (← Expr.numberOption value)
  | .constVar name value => return .constVar name (← value.number)
  | .block body => return .block (← Stmt.numberList body)
  | .ifThen condition thenBranch => return .ifThen (← condition.number) (← thenBranch.number)
  | .ifElse condition thenBranch elseBranch =>
    return .ifElse (← condition.number) (← thenBranch.number) (← elseBranch.number)
  | .while condition body => return .while (← condition.number) (← body.number)
  | .function decl => return .function (← FunctionDecl.number decl)
  | .return line value => return .return line (← Expr.numberOption value)
  | .classDecl name superclass methods statics =>
    return .classDecl name (← Occurrence.numberOption superclass) (← FunctionDecl.numberList methods)
      (← FunctionDecl.numberList statics)

/-- Numbers the uses of names in several statements. -/
def Stmt.numberList : List (Stmt Unit) → Numbered (List (Stmt OccurrenceId))
  | [] => return []
  | s :: ss => return (← s.number) :: (← Stmt.numberList ss)

/-- Numbers the uses of names in a function. -/
def FunctionDecl.number :
    FunctionDecl (Stmt Unit) → Numbered (FunctionDecl (Stmt OccurrenceId))
  | ⟨name, params, body⟩ => return ⟨name, params, ← Stmt.numberList body⟩

/-- Numbers the uses of names in several functions. -/
def FunctionDecl.numberList :
    List (FunctionDecl (Stmt Unit)) → Numbered (List (FunctionDecl (Stmt OccurrenceId)))
  | [] => return []
  | d :: ds => return (← FunctionDecl.number d) :: (← FunctionDecl.numberList ds)

end

/-- Numbers the uses of names in a program. -/
def Program.number (program : Program Unit) : Numbered (Program OccurrenceId) :=
  Stmt.numberList program

end ScriptLang
