import ScriptLang.Counted.Basic
import ScriptLang.Grammar.Expression

/-!
# Expressions with a counter

The rules for expressions once more.  A number is taken for each variable, `this` and `super` when its token
is read, and for each assignment to a variable behind its value.
-/

namespace ScriptLang.Grammar.Counted

/-- The assignment of a value to what the expression on its left denotes, if that can be assigned to.  A
variable was read as a use already; its assignment is another use, and the number of the first one is lost. -/
def assign? (target value : Expr OccurrenceId) : Option (Numbered (Expr OccurrenceId)) :=
  match target with
  | .name .identifier use => some do return .assign (← Occurrence.number ⟨use.toIdent, ()⟩) value
  | .get object property => some (return .set object property value)
  | .superGet keyword property => some (return .set (.name .super keyword) property value)
  | _ => none

mutual

/-- Reads an expression. -/
def expression (path : Path) (ts : List Token) : Counted (Parsed (Expr OccurrenceId) ts) :=
  assignment (path.enter .expression) ts
termination_by (ts.length, 13)

/-- Reads an assignment or an expression that is none. -/
def assignment (path : Path) (ts : List Token) : Counted (Parsed (Expr OccurrenceId) ts) := do
  let path := path.enter .assignment
  let target ← operators path Level.all ts
  match h : target.rest with
  | [] => return target
  | t :: rest =>
    match t.kind with
    | .symbol .equal =>
      have proper : ProperSuffix rest ts := (h ▸ target.proper).of_cons
      let value ← assignment path rest
      match assign? target.value value.value with
      | some e =>
        let e ← e
        return (value.map fun _ => e).within proper
      | none =>
        path.report .invalidAssignmentTarget (t :: rest)
        return (value.map fun _ => target.value).within proper
    | _ => return target
termination_by (ts.length, 12)
decreasing_by
  · simp [Level.all, Prod.lex_def]
  · exact Prod.Lex.left _ _ proper.length_lt

/-- Reads operands joined by operators of the first of the given levels; the operands are of the levels
behind it. -/
def operators (path : Path) (levels : List Level) (ts : List Token) :
    Counted (Parsed (Expr OccurrenceId) ts) :=
  match levels with
  | [] => unary path ts
  | level :: tighter => do
    let path := path.enter level.rule
    let left ← operators path tighter ts
    chain path level tighter left
termination_by (ts.length, levels.length + 3)
decreasing_by
  · exact Prod.Lex.right _ (by simp)
  · exact Prod.Lex.right _ (by simp)
  · exact Prod.Lex.left _ _ left.proper.length_lt

/-- Goes on behind the expression `left` as long as operators of the level follow. -/
def chain (path : Path) (level : Level) (tighter : List Level) {ts : List Token}
    (left : Parsed (Expr OccurrenceId) ts) : Counted (Parsed (Expr OccurrenceId) ts) :=
  match h : left.rest with
  | [] => pure left
  | t :: rest =>
    match Operator.onLevel? level t.kind with
    | none => pure left
    | some op => do
      have proper : ProperSuffix rest ts := (h ▸ left.proper).of_cons
      let right ← operators path tighter rest
      chain path level tighter
        ((right.map fun e => op.apply t.line left.value e).within proper)
termination_by (left.rest.length, 0)
decreasing_by
  · exact Prod.Lex.left _ _ (by simp [h])
  · exact Prod.Lex.left _ _ (by have := right.proper.length_lt; simp [h, Parsed.within, Parsed.map]; omega)

/-- Reads an operand with the operators in front of it. -/
def unary (path : Path) (ts : List Token) : Counted (Parsed (Expr OccurrenceId) ts) :=
  let path := path.enter .unary
  match ts with
  | [] => call path []
  | t :: rest =>
    match UnaryOp.ofKind? t.kind with
    | none => call path (t :: rest)
    | some op => do
      let operand ← unary path rest
      return (operand.map fun e => .unary op t.line e).behind
termination_by (ts.length, 2)

/-- Reads an operand with the calls and property reads behind it. -/
def call (path : Path) (ts : List Token) : Counted (Parsed (Expr OccurrenceId) ts) := do
  let path := path.enter .call
  let callee ← primary path ts
  calls path callee
termination_by (ts.length, 1)
decreasing_by
  · exact Prod.Lex.right _ (by simp)
  · exact Prod.Lex.left _ _ callee.proper.length_lt

/-- Goes on behind the expression `callee` as long as calls and property reads follow. -/
def calls (path : Path) {ts : List Token} (callee : Parsed (Expr OccurrenceId) ts) :
    Counted (Parsed (Expr OccurrenceId) ts) :=
  match h : callee.rest with
  | [] => pure callee
  | t :: rest =>
    have proper : ProperSuffix rest ts := (h ▸ callee.proper).of_cons
    match t.kind with
    | .symbol .leftParen => do
      let args ← arguments path 0 rest
      calls path ((args.map fun (es, line) => Expr.call line callee.value es).within proper)
    | .symbol .dot => do
      let name ← identifier path rest
      calls path ((name.map (property callee.value)).within proper)
    | _ => pure callee
termination_by (callee.rest.length, 0)
decreasing_by
  · exact Prod.Lex.left _ _ (by simp [h])
  · exact Prod.Lex.left _ _ (by have := args.proper.length_lt; simp [h, Parsed.within, Parsed.map]; omega)
  · exact Prod.Lex.left _ _ (by have := name.proper.length_lt; simp [h, Parsed.within, Parsed.map]; omega)

/-- Reads arguments up to the closing parenthesis when `count` have been read before; the value also tells
the line of that parenthesis. -/
def arguments (path : Path) (count : Nat) (ts : List Token) :
    Counted (Parsed (List (Expr OccurrenceId) × Nat) ts) := do
  if startsWith .rightParen ts then
    return (← symbol path .rightParen ts).map fun line => ([], line)
  else
    path.reportIf (count = maxArguments) .tooManyArguments ts
    let arg ← expression path ts
    match h : arg.rest with
    | [] => path.fail (.expectedOneOf [.comma, .rightParen]) []
    | t :: rest =>
      have proper : ProperSuffix rest ts := (h ▸ arg.proper).of_cons
      match t.kind with
      | .symbol .comma =>
        let more ← arguments path (count + 1) rest
        return (more.map fun (es, line) => (arg.value :: es, line)).within proper
      | .symbol .rightParen => return ⟨([arg.value], t.line), rest, proper⟩
      | _ => path.fail (.expectedOneOf [.comma, .rightParen]) (t :: rest)
termination_by (ts.length, 14)
decreasing_by
  · exact Prod.Lex.right _ (by simp)
  · exact Prod.Lex.left _ _ proper.length_lt

/-- Reads an operand without any operators. -/
def primary (path : Path) (ts : List Token) : Counted (Parsed (Expr OccurrenceId) ts) :=
  let path := path.enter .primary
  match ts with
  | [] => path.fail .expectedExpression []
  | t :: rest =>
    match t.kind with
    | .symbol .leftParen => do
      let inner ← expression path rest
      let close ← symbol path .rightParen inner.rest
      return (inner.andThen (close.map fun _ => .group inner.value)).behind
    | _ =>
      match atom? t with
      | some e => return ⟨← e.number, rest, .tail⟩
      | none => path.fail .expectedExpression (t :: rest)
termination_by (ts.length, 0)

end

end ScriptLang.Grammar.Counted
