/-!
# Programs as trees

Expressions, statements and declarations.  The uses of names (reading or assigning a variable, `this`,
`super`, the class that another extends) carry an identity of type `ι`: none at all for a tree just read,
a number once the tree belongs to a session.
-/

namespace ScriptLang

/-- A name as it is written somewhere: its text and its line. -/
structure Ident where
  text : String
  line : Nat
deriving DecidableEq, Repr, Inhabited

/-- A use of a name, with its identity. -/
structure Occurrence (ι : Type) extends Ident where
  id : ι
deriving DecidableEq, Repr

/-- The words that read a variable: an identifier, or one of the two reserved names that methods know. -/
inductive NameKind where
  | identifier | this | super
deriving DecidableEq, Repr

/-- A value written in a script. -/
inductive Literal where
  | null
  | bool (b : Bool)
  | number (x : Float)
  | string (s : String)
deriving Repr

/-- The operators with one operand: the opposite of a number, of a truth value, and the truth value of
anything. -/
inductive UnaryOp where
  | negate | not | truthy
deriving DecidableEq, Repr

/-- The operators that evaluate both operands. -/
inductive BinaryOp where
  | equal | notEqual | less | lessEqual | greater | greaterEqual | plus | minus | times | divide | mod
deriving DecidableEq, Repr

/-- The operators that evaluate their right operand only if the left one does not decide. -/
inductive LogicalOp where
  | and | or | coalesce
deriving DecidableEq, Repr

/-- An expression.  A bare `super` followed by a property name is a form of its own, `superGet`: it does not
read a property of a value but looks a method up from the superclass. -/
inductive Expr (ι : Type) where
  | literal (value : Literal)
  | name (kind : NameKind) (use : Occurrence ι)
  | assign (target : Occurrence ι) (value : Expr ι)
  | unary (op : UnaryOp) (line : Nat) (operand : Expr ι)
  | binary (op : BinaryOp) (line : Nat) (left right : Expr ι)
  | logical (op : LogicalOp) (line : Nat) (left right : Expr ι)
  | group (inner : Expr ι)
  | call (line : Nat) (callee : Expr ι) (args : List (Expr ι))
  | get (object : Expr ι) (property : Ident)
  | superGet (keyword : Occurrence ι) (property : Ident)
  | set (object : Expr ι) (property : Ident) (value : Expr ι)
deriving Repr

/-- A function or method with a body of statements `σ`. -/
structure FunctionDecl (σ : Type) where
  name : Ident
  params : List Ident
  body : List σ
deriving Repr

/-- The number of arguments that a function takes. -/
def FunctionDecl.arity {σ : Type} (decl : FunctionDecl σ) : Nat :=
  decl.params.length

/-- A statement. -/
inductive Stmt (ι : Type) where
  | expr (e : Expr ι)
  | print (e : Expr ι)
  | letVar (name : Ident) (value : Option (Expr ι))
  | constVar (name : Ident) (value : Expr ι)
  | block (body : List (Stmt ι))
  | ifThen (condition : Expr ι) (thenBranch : Stmt ι)
  | ifElse (condition : Expr ι) (thenBranch elseBranch : Stmt ι)
  | while (condition : Expr ι) (body : Stmt ι)
  | function (decl : FunctionDecl (Stmt ι))
  | return (line : Nat) (value : Option (Expr ι))
  | classDecl (name : Ident) (superclass : Option (Occurrence ι))
      (methods statics : List (FunctionDecl (Stmt ι)))
deriving Repr

/-- A program is a list of statements. -/
abbrev Program (ι : Type) := List (Stmt ι)

namespace Stmt

variable {ι : Type}

/-- The loop that a `for` statement stands for.  The increment runs behind the body, in a block with it; a
missing condition is true; a block around the loop is needed only for an initializer. -/
def forLoop (initializer : Option (Stmt ι)) (condition increment : Option (Expr ι)) (body : Stmt ι) :
    Stmt ι :=
  let body := match increment with
    | some e => .block [body, .expr e]
    | none => body
  let loop := .while (condition.getD (.literal (.bool true))) body
  match initializer with
  | some s => .block [s, loop]
  | none => loop

end Stmt

end ScriptLang
