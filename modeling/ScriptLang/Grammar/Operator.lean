import ScriptLang.Grammar.Diagnostic
import ScriptLang.Tree.Basic

/-!
# Operators and their levels

The operators between two operands stand on eight levels.  An operator on a later level binds tighter; on
one level operators associate to the left.
-/

namespace ScriptLang

/-- The levels of operators between two operands. -/
inductive Level where
  | or | and | equality | comparison | addition | mod | multiplication | coalescing
deriving DecidableEq, Repr

/-- All levels, the one that binds loosest first. -/
def Level.all : List Level :=
  [or, and, equality, comparison, addition, mod, multiplication, coalescing]

/-- The grammar rule of a level. -/
def Level.rule : Level → Rule
  | or => .logicalOr
  | and => .logicalAnd
  | equality => .equality
  | comparison => .comparison
  | addition => .addition
  | mod => .mod
  | multiplication => .multiplication
  | coalescing => .nullCoalescing

/-- An operator between two operands. -/
inductive Operator where
  | binary (op : BinaryOp)
  | logical (op : LogicalOp)
deriving DecidableEq, Repr

namespace Operator

/-- The level of an operator. -/
def level : Operator → Level
  | logical .or => .or
  | logical .and => .and
  | binary .equal | binary .notEqual => .equality
  | binary .less | binary .lessEqual | binary .greater | binary .greaterEqual => .comparison
  | binary .plus | binary .minus => .addition
  | binary .mod => .mod
  | binary .times | binary .divide => .multiplication
  | logical .coalesce => .coalescing

/-- The operator that a kind of token stands for. -/
def ofKind? : Kind → Option Operator
  | .keyword .orKw => some (logical .or)
  | .keyword .andKw => some (logical .and)
  | .symbol .equalEqual => some (binary .equal)
  | .symbol .bangEqual => some (binary .notEqual)
  | .symbol .less => some (binary .less)
  | .symbol .lessEqual => some (binary .lessEqual)
  | .symbol .greater => some (binary .greater)
  | .symbol .greaterEqual => some (binary .greaterEqual)
  | .symbol .plus => some (binary .plus)
  | .symbol .minus => some (binary .minus)
  | .keyword .modKw => some (binary .mod)
  | .symbol .star => some (binary .times)
  | .symbol .slash => some (binary .divide)
  | .symbol .questionQuestion => some (logical .coalesce)
  | _ => none

/-- The operator on the given level that a kind of token stands for. -/
def onLevel? (l : Level) (k : Kind) : Option Operator :=
  (ofKind? k).filter (·.level = l)

/-- The expression that an operator on the given line makes of two operands. -/
def apply {ι : Type} (line : Nat) (left right : Expr ι) : Operator → Expr ι
  | binary op => .binary op line left right
  | logical op => .logical op line left right

end Operator

/-- The operator in front of an operand that a kind of token stands for. -/
def UnaryOp.ofKind? : Kind → Option UnaryOp
  | .symbol .minus => some .negate
  | .symbol .bang => some .not
  | .symbol .bangBang => some .truthy
  | _ => none

end ScriptLang
