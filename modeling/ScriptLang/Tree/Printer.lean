import ScriptLang.Tree.Basic
import ScriptLang.Number.Text

/-!
# The text of a program

Operators are written in prefix form and in parentheses, everything else as in a script.  Lines and
identities leave no trace.
-/

namespace ScriptLang

/-- How an operator with one operand is written. -/
def UnaryOp.text : UnaryOp → String
  | negate => "-"
  | not => "!"
  | truthy => "!!"

/-- How an operator that evaluates both operands is written. -/
def BinaryOp.text : BinaryOp → String
  | equal => "=="
  | notEqual => "!="
  | less => "<"
  | lessEqual => "<="
  | greater => ">"
  | greaterEqual => ">="
  | plus => "+"
  | minus => "-"
  | times => "*"
  | divide => "/"
  | mod => "mod"

/-- How an operator that may skip its right operand is written. -/
def LogicalOp.text : LogicalOp → String
  | and => "and"
  | or => "or"
  | coalesce => "??"

/-- The text of a literal.  A string is put between quotes as it is, without escapes. -/
def Literal.text : Literal → String
  | null => "null"
  | bool b => if b then "true" else "false"
  | number x => Number.text x
  | string s => "\"" ++ s ++ "\""

variable {ι : Type}

mutual

/-- The text of an expression. -/
def Expr.text : Expr ι → String
  | .literal value => value.text
  | .name _ use => use.text
  | .assign target value => target.text ++ " = " ++ value.text
  | .unary op _ operand => "(" ++ op.text ++ " " ++ operand.text ++ ")"
  | .binary op _ left right => "(" ++ op.text ++ " " ++ left.text ++ " " ++ right.text ++ ")"
  | .logical op _ left right => "(" ++ op.text ++ " " ++ left.text ++ " " ++ right.text ++ ")"
  | .group inner => "(" ++ inner.text ++ ")"
  | .call _ callee args => callee.text ++ "(" ++ ", ".intercalate (Expr.texts args) ++ ")"
  | .get object property => object.text ++ "." ++ property.text
  | .superGet keyword property => keyword.text ++ "." ++ property.text
  | .set object property value => object.text ++ "." ++ property.text ++ " = " ++ value.text

/-- The texts of several expressions. -/
def Expr.texts : List (Expr ι) → List String
  | [] => []
  | e :: es => e.text :: Expr.texts es

end

/-- The braces around a body whose lines are given. -/
def braced (lines : String) : String :=
  "\x7b\n" ++ lines ++ "\x7d"

mutual

/-- The text of a statement. -/
def Stmt.text : Stmt ι → String
  | .expr e => e.text ++ ";"
  | .print e => "print " ++ e.text ++ ";"
  | .letVar name (some value) => "let " ++ name.text ++ " = " ++ value.text ++ ";"
  | .letVar name none => "let " ++ name.text ++ ";"
  | .constVar name value => "const " ++ name.text ++ " = " ++ value.text ++ ";"
  | .block body => braced (Stmt.lines body)
  | .ifThen condition thenBranch => "if (" ++ condition.text ++ ") " ++ thenBranch.text
  | .ifElse condition thenBranch elseBranch =>
    "if (" ++ condition.text ++ ") " ++ thenBranch.text ++ " else " ++ elseBranch.text
  | .while condition body => "while (" ++ condition.text ++ ") " ++ body.text
  | .function decl => "function " ++ FunctionDecl.text decl
  | .return _ (some value) => "return " ++ value.text ++ ";"
  | .return _ none => "return;"
  | .classDecl name superclass methods statics =>
    let extending := match superclass with
      | some use => " extends " ++ use.text
      | none => ""
    "class " ++ name.text ++ extending ++ " "
      ++ braced (FunctionDecl.lines "" methods ++ FunctionDecl.lines "static " statics)

/-- The texts of statements, each with a line break behind it. -/
def Stmt.lines : List (Stmt ι) → String
  | [] => ""
  | s :: ss => s.text ++ "\n" ++ Stmt.lines ss

/-- The text of a function without the word that introduces it. -/
def FunctionDecl.text : FunctionDecl (Stmt ι) → String
  | ⟨name, params, body⟩ =>
    name.text ++ "(" ++ ", ".intercalate (params.map (·.text)) ++ ") " ++ braced (Stmt.lines body)

/-- The texts of methods, each with a word in front and a line break behind it. -/
def FunctionDecl.lines (word : String) : List (FunctionDecl (Stmt ι)) → String
  | [] => ""
  | d :: ds => word ++ FunctionDecl.text d ++ "\n" ++ FunctionDecl.lines word ds

end

/-- The text of a program: its statements, each with a line break behind it. -/
def Program.text (program : Program ι) : String :=
  Stmt.lines program

end ScriptLang
