import ScriptLang.Counted.Expression
import ScriptLang.Grammar.Statement

/-!
# Statements with a counter

The rules for statements and declarations once more.  Besides those of its expressions, a class takes a
number for the name of the class that it extends.  A declaration that fails keeps the numbers that it has
taken.
-/

namespace ScriptLang.Grammar.Counted

/-! ### Declarations and statements without statements inside -/

/-- Reads an expression and the semicolon behind it. -/
def terminated (path : Path) (ts : List Token) : Counted (Parsed (Expr OccurrenceId) ts) := do
  let e ← expression path ts
  let close ← symbol path .semicolon e.rest
  return e.andThen (close.map fun _ => e.value)

/-- Reads a variable declaration behind its `let`. -/
def letDeclaration (path : Path) (ts : List Token) : Counted (Parsed (Stmt OccurrenceId) ts) := do
  let path := path.enter .letDeclaration
  let name ← identifier path ts
  if startsWith .equal name.rest then
    let equal ← symbol path .equal name.rest
    let value ← terminated path equal.rest
    return name.andThen (equal.andThen (value.map fun e => .letVar name.value (some e)))
  else
    let close ← symbol path .semicolon name.rest
    return name.andThen (close.map fun _ => .letVar name.value none)

/-- Reads a constant declaration behind its `const`. -/
def constDeclaration (path : Path) (ts : List Token) : Counted (Parsed (Stmt OccurrenceId) ts) := do
  let path := path.enter .constDeclaration
  let name ← identifier path ts
  let equal ← symbol path .equal name.rest
  let value ← terminated path equal.rest
  return name.andThen (equal.andThen (value.map fun e => .constVar name.value e))

/-- Reads a print statement behind its `print`. -/
def printStatement (path : Path) (ts : List Token) : Counted (Parsed (Stmt OccurrenceId) ts) := do
  return (← terminated (path.enter .printStatement) ts).map .print

/-- Reads a return statement behind its `return`, which stands on the given line. -/
def returnStatement (path : Path) (line : Nat) (ts : List Token) :
    Counted (Parsed (Stmt OccurrenceId) ts) := do
  let path := path.enter .returnStatement
  if startsWith .semicolon ts then
    return (← symbol path .semicolon ts).map fun _ => .return line none
  else
    return (← terminated path ts).map fun e => .return line (some e)

/-- Reads an expression statement. -/
def expressionStatement (path : Path) (ts : List Token) : Counted (Parsed (Stmt OccurrenceId) ts) := do
  return (← terminated (path.enter .expressionStatement) ts).map .expr

/-- Reads a condition in parentheses. -/
def condition (path : Path) (ts : List Token) : Counted (Parsed (Expr OccurrenceId) ts) := do
  let opening ← symbol path .leftParen ts
  let e ← expression path opening.rest
  let closing ← symbol path .rightParen e.rest
  return opening.andThen (e.andThen (closing.map fun _ => e.value))

/-- Reads the initializer of a `for` and the semicolon behind it. -/
def forInitializer (path : Path) (ts : List Token) : Counted (Parsed (Option (Stmt OccurrenceId)) ts) :=
  match ts with
  | [] => return (← expressionStatement path []).map some
  | t :: rest =>
    match t.kind with
    | .symbol .semicolon => return ⟨none, rest, .tail⟩
    | .keyword .letKw => return ((← letDeclaration path rest).map some).behind
    | _ => return (← expressionStatement path (t :: rest)).map some

/-- Reads an expression that may be missing, and the symbol that ends it. -/
def optionalUntil (path : Path) (s : Symbol) (ts : List Token) :
    Counted (Parsed (Option (Expr OccurrenceId)) ts) := do
  if startsWith s ts then
    return (← symbol path s ts).map fun _ => none
  else
    let e ← expression path ts
    let close ← symbol path s e.rest
    return e.andThen (close.map fun _ => some e.value)

/-- The parts of a `for` statement in front of its body. -/
structure ForClauses where
  initializer : Option (Stmt OccurrenceId)
  condition : Option (Expr OccurrenceId)
  increment : Option (Expr OccurrenceId)

/-- Reads the parts of a `for` statement in front of its body. -/
def forClauses (path : Path) (ts : List Token) : Counted (Parsed ForClauses ts) := do
  let opening ← symbol path .leftParen ts
  let initializer ← forInitializer path opening.rest
  let condition ← optionalUntil path .semicolon initializer.rest
  let increment ← optionalUntil path .rightParen condition.rest
  return opening.andThen (initializer.andThen (condition.andThen
    (increment.map fun e => ⟨initializer.value, condition.value, e⟩)))

/-- Reads what stands between `class` and the members of a class: its name, the class it extends and the
opening brace. -/
def classHead (path : Path) (ts : List Token) :
    Counted (Parsed (Ident × Option (Occurrence OccurrenceId)) ts) := do
  let name ← identifier path ts
  match h : name.rest with
  | [] => path.fail (.expected .leftBrace) []
  | t :: rest =>
    match t.kind with
    | .keyword .extendsKw =>
      let parent ← identifier path rest
      let use ← Occurrence.number ⟨parent.value, ()⟩
      let opening ← symbol path .leftBrace parent.rest
      return (parent.andThen (opening.map fun _ => (name.value, some use))).within (name.proper_tail h)
    | _ =>
      let opening ← symbol path .leftBrace (t :: rest)
      return (opening.map fun _ => (name.value, none)).within (name.proper_cons h)

/-! ### Statements inside statements -/

/-- A function, with the statements of its body. -/
abbrev Method := FunctionDecl (Stmt OccurrenceId)

mutual

/-- Reads a declaration or a statement. -/
def declaration (path : Path) (ts : List Token) : Counted (Parsed (Stmt OccurrenceId) ts) :=
  let path := path.enter .declaration
  match ts with
  | [] => statement path []
  | t :: rest =>
    match t.kind with
    | .keyword .classKw => return (← classDeclaration path rest).behind
    | .keyword .functionKw => return ((← function path .function rest).map .function).behind
    | .keyword .letKw => return (← letDeclaration path rest).behind
    | .keyword .constKw => return (← constDeclaration path rest).behind
    | _ => statement path (t :: rest)
termination_by (ts.length, 1)

/-- Reads a class declaration behind its `class`. -/
def classDeclaration (path : Path) (ts : List Token) : Counted (Parsed (Stmt OccurrenceId) ts) := do
  let path := path.enter .classDeclaration
  let head ← classHead path ts
  let body ← members path head.rest
  return head.andThen (body.map fun (methods, statics) =>
    .classDecl head.value.1 head.value.2 methods statics)
termination_by (ts.length, 0)
decreasing_by exact Prod.Lex.left _ _ head.proper.length_lt

/-- Reads the methods and the static methods of a class up to its closing brace. -/
def members (path : Path) (ts : List Token) : Counted (Parsed (List Method × List Method) ts) :=
  match ts with
  | [] => path.fail (.expected .rightBrace) []
  | t :: rest =>
    match t.kind with
    | .symbol .rightBrace => pure ⟨([], []), rest, .tail⟩
    | .keyword .staticKw => do
      let method ← function path .staticMethod rest
      let more ← members path method.rest
      return (method.andThen (more.map fun (methods, statics) =>
        (methods, method.value :: statics))).behind
    | .eof => path.fail (.expected .rightBrace) (t :: rest)
    | _ => do
      let method ← function path .method (t :: rest)
      let more ← members path method.rest
      return method.andThen (more.map fun (methods, statics) => (method.value :: methods, statics))
termination_by (ts.length, 1)
decreasing_by
  · exact Prod.Lex.left _ _ (by simp)
  · exact Prod.Lex.left _ _ (by have := method.proper.length_lt; simp; omega)
  · exact Prod.Lex.right _ (by simp)
  · exact Prod.Lex.left _ _ method.proper.length_lt

/-- Reads a function or a method from its name on. -/
def function (path : Path) (rule : Rule) (ts : List Token) : Counted (Parsed Method ts) := do
  let path := path.enter rule
  let head ← signature path ts
  let opening ← symbol path .leftBrace head.rest
  let body ← block path opening.rest
  return head.andThen (opening.andThen (body.map fun ss => ⟨head.value.1, head.value.2, ss⟩))
termination_by (ts.length, 0)
decreasing_by exact Prod.Lex.left _ _ (opening.proper.trans head.proper).length_lt

/-- Reads a statement. -/
def statement (path : Path) (ts : List Token) : Counted (Parsed (Stmt OccurrenceId) ts) :=
  let path := path.enter .statement
  match ts with
  | [] => expressionStatement path []
  | t :: rest =>
    match t.kind with
    | .keyword .printKw => return (← printStatement path rest).behind
    | .keyword .returnKw => return (← returnStatement path t.line rest).behind
    | .symbol .leftBrace => return ((← block path rest).map .block).behind
    | .keyword .ifKw => return (← ifStatement path rest).behind
    | .keyword .whileKw => return (← whileStatement path rest).behind
    | .keyword .forKw => return (← forStatement path rest).behind
    | _ => expressionStatement path (t :: rest)
termination_by (ts.length, 0)

/-- Reads an `if` statement behind its `if`. -/
def ifStatement (path : Path) (ts : List Token) : Counted (Parsed (Stmt OccurrenceId) ts) := do
  let path := path.enter .ifStatement
  let test ← condition path ts
  let yes ← statement path test.rest
  match h : yes.rest with
  | [] => return test.andThen (yes.map (.ifThen test.value))
  | t :: rest =>
    match t.kind with
    | .keyword .elseKw =>
      have proper : ProperSuffix rest ts := (h ▸ yes.proper).of_cons.trans test.proper
      let no ← statement path rest
      return (no.map (.ifElse test.value yes.value)).within proper
    | _ => return test.andThen (yes.map (.ifThen test.value))
termination_by (ts.length, 0)
decreasing_by
  · exact Prod.Lex.left _ _ test.proper.length_lt
  · exact Prod.Lex.left _ _ proper.length_lt

/-- Reads a `while` statement behind its `while`. -/
def whileStatement (path : Path) (ts : List Token) : Counted (Parsed (Stmt OccurrenceId) ts) := do
  let path := path.enter .whileStatement
  let test ← condition path ts
  let body ← statement path test.rest
  return test.andThen (body.map (.while test.value))
termination_by (ts.length, 0)
decreasing_by exact Prod.Lex.left _ _ test.proper.length_lt

/-- Reads a `for` statement behind its `for`. -/
def forStatement (path : Path) (ts : List Token) : Counted (Parsed (Stmt OccurrenceId) ts) := do
  let path := path.enter .forStatement
  let head ← forClauses path ts
  let body ← statement path head.rest
  return head.andThen (body.map
    (.forLoop head.value.initializer head.value.condition head.value.increment))
termination_by (ts.length, 0)
decreasing_by exact Prod.Lex.left _ _ head.proper.length_lt

/-- Reads a block behind its opening brace. -/
def block (path : Path) (ts : List Token) : Counted (Parsed (List (Stmt OccurrenceId)) ts) :=
  blockItems (path.enter .block) ts
termination_by (ts.length, 3)

/-- Reads declarations up to a closing brace.  One that fails is reported and left out. -/
def blockItems (path : Path) (ts : List Token) : Counted (Parsed (List (Stmt OccurrenceId)) ts) :=
  match ts with
  | [] => path.fail (.expected .rightBrace) []
  | t :: rest =>
    match t.kind with
    | .eof => path.fail (.expected .rightBrace) (t :: rest)
    | .symbol .rightBrace => pure ⟨[], rest, .tail⟩
    | _ => do
      match ← (declaration path (t :: rest)).attempt with
      | .ok s =>
        let more ← blockItems path s.rest
        return s.andThen (more.map fun ss => s.value :: ss)
      | .error d =>
        Outcome.tell d
        return (← blockItems path (resume d rest)).within (resume_proper d t rest)
termination_by (ts.length, 2)
decreasing_by
  · exact Prod.Lex.right _ (by simp)
  · exact Prod.Lex.left _ _ s.proper.length_lt
  · exact Prod.Lex.left _ _ (resume_proper d t rest).length_lt

end

end ScriptLang.Grammar.Counted
