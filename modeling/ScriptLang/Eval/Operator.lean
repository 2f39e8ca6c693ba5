import ScriptLang.Eval.Error
import ScriptLang.Number.Remainder

/-!
# Operators on values
-/

namespace ScriptLang

/-- Applies an operator to its one operand. -/
def UnaryOp.apply (op : UnaryOp) (v : Value) : Except Mismatch Value :=
  match op, v with
  | .negate, .number x => .ok (.number (-x))
  | .not, .bool b => .ok (.bool !b)
  | .truthy, v => .ok (.bool v.isTruthy)
  | op, v => .error (.operand op v.type)

/-- Applies an operator to two numbers. -/
def BinaryOp.onNumbers (op : BinaryOp) (x y : Float) : Value :=
  match op with
  | .equal => .bool (x == y)
  | .notEqual => .bool (x != y)
  | .less => .bool (x < y)
  | .lessEqual => .bool (x ≤ y)
  | .greater => .bool (y < x)
  | .greaterEqual => .bool (y ≤ x)
  | .plus => .number (x + y)
  | .minus => .number (x - y)
  | .times => .number (x * y)
  | .divide => .number (x / y)
  | .mod => .number (Number.remainder x y)

/-- Applies an operator to its two operands.  All operators take numbers; besides, any two values can be
compared for equality, and a string can be joined with the text of anything. -/
def BinaryOp.apply (op : BinaryOp) (v w : Value) : Except Mismatch Value :=
  match op, v, w with
  | op, .number x, .number y => .ok (op.onNumbers x y)
  | .equal, v, w => .ok (.bool (v.equals w))
  | .notEqual, v, w => .ok (.bool !(v.equals w))
  | .plus, .string s, w => .ok (.string (s ++ w.text))
  | .plus, v, .string t => .ok (.string (v.text ++ t))
  | op, v, w => .error (.operands op v.type w.type)

/-- Whether the left operand alone decides, so that the right one is not evaluated. -/
def LogicalOp.decidedBy (op : LogicalOp) (v : Value) : Bool :=
  match op, v with
  | .or, v => v.isTruthy
  | .and, v => !v.isTruthy
  | .coalesce, .null => false
  | .coalesce, _ => true

end ScriptLang
