import ScriptLang.Grammar.Expression

/-!
# The grammar of statements

    declaration = class | function | let | const | statement
    class       = "class" identifier [ "extends" identifier ] "{" ( function | "static" function )* "}"
    let         = "let" identifier [ "=" expression ] ";"
    const       = "const" identifier "=" expression ";"
    statement   = print | return | block | if | while | for | expression ";"
    block       = "{" declaration* "}"

Branches and loop bodies are statements; an `else` belongs to the nearest `if` that can take it.  A
declaration that fails inside a block is reported and skipped: reading resumes at the next token that
starts a statement.  Only a missing closing brace fails the block itself.
-/

namespace ScriptLang.Grammar

/-! ### Where reading resumes after a failure -/

/-- Whether reading may resume at a token: it starts a declaration or a statement, or ends the program. -/
def resumesAt (t : Token) : Bool :=
  match t.kind with
  | .keyword .classKw | .keyword .functionKw | .keyword .letKw | .keyword .forKw | .keyword .ifKw
  | .keyword .whileKw | .keyword .printKw | .keyword .returnKw | .eof => true
  | _ => false

/-- What is read next after a declaration has failed with the diagnostic `d`, when `rest` are the tokens
behind its first one: nothing up to the token at fault, nor from there to the next token at which reading may
resume. -/
def resume (d : Diagnostic) (rest : List Token) : List Token :=
  (rest.drop (rest.length - d.remaining)).dropWhile fun t => !resumesAt t

theorem resume_suffix (d : Diagnostic) (rest : List Token) : resume d rest <:+ rest :=
  (List.dropWhile_suffix _).trans (List.drop_suffix _ _)

/-- After a failure reading always resumes behind the first token of the failed declaration. -/
theorem resume_proper (d : Diagnostic) (t : Token) (rest : List Token) :
    ProperSuffix (resume d rest) (t :: rest) :=
  .of_suffix (resume_suffix d rest)

/-! ### Declarations and statements without statements inside -/

/-- Reads an expression and the semicolon behind it. -/
def terminated (path : Path) (ts : List Token) : Outcome (Parsed (Expr Unit) ts) := do
  let e ← expression path ts
  let close ← symbol path .semicolon e.rest
  return e.andThen (close.map fun _ => e.value)

/-- Reads a variable declaration behind its `let`. -/
def letDeclaration (path : Path) (ts : List Token) : Outcome (Parsed (Stmt Unit) ts) := do
  let path := path.enter .letDeclaration
  let name ← identifier path ts
  if startsWith .equal name.rest then
    let equal ← symbol path .equal name.rest
    let value ← terminated path equal.rest
    return name.andThen (equal.andThen (value.map fun e => .letVar name.value (some e)))
  else
    let close ← symbol path .semicolon name.rest
    return name.andThen (close.map fun _ => .letVar name.value none)

/-- Reads a constant declaration behind its `const`. -/
def constDeclaration (path : Path) (ts : List Token) : Outcome (Parsed (Stmt Unit) ts) := do
  let path := path.enter .constDeclaration
  let name ← identifier path ts
  let equal ← symbol path .equal name.rest
  let value ← terminated path equal.rest
  return name.andThen (equal.andThen (value.map fun e => .constVar name.value e))

/-- Reads a print statement behind its `print`. -/
def printStatement (path : Path) (ts : List Token) : Outcome (Parsed (Stmt Unit) ts) := do
  return (← terminated (path.enter .printStatement) ts).map .print

/-- Reads a return statement behind its `return`, which stands on the given line. -/
def returnStatement (path : Path) (line : Nat) (ts : List Token) : Outcome (Parsed (Stmt Unit) ts) := do
  let path := path.enter .returnStatement
  if startsWith .semicolon ts then
    return (← symbol path .semicolon ts).map fun _ => .return line none
  else
    return (← terminated path ts).map fun e => .return line (some e)

/-- Reads an expression statement. -/
def expressionStatement (path : Path) (ts : List Token) : Outcome (Parsed (Stmt Unit) ts) := do
  return (← terminated (path.enter .expressionStatement) ts).map .expr

/-- Reads the parameters of a function up to the closing parenthesis when `count` have been read before. -/
def parameters (path : Path) (count : Nat) (ts : List Token) : Outcome (Parsed (List Ident) ts) := do
  if startsWith .rightParen ts then
    return (← symbol path .rightParen ts).map fun _ => []
  else
    path.reportIf (count = maxArguments) .tooManyParameters ts
    let name ← identifier path ts
    match h : name.rest with
    | [] => path.fail (.expectedOneOf [.comma, .rightParen]) []
    | t :: rest =>
      have proper : ProperSuffix rest ts := (h ▸ name.proper).of_cons
      match t.kind with
      | .symbol .comma =>
        let more ← parameters path (count + 1) rest
        return (more.map fun names => name.value :: names).within proper
      | .symbol .rightParen => return ⟨[name.value], rest, proper⟩
      | _ => path.fail (.expectedOneOf [.comma, .rightParen]) (t :: rest)
termination_by ts.length
decreasing_by exact proper.length_lt

/-- Reads a condition in parentheses. -/
def condition (path : Path) (ts : List Token) : Outcome (Parsed (Expr Unit) ts) := do
  let opening ← symbol path .leftParen ts
  let e ← expression path opening.rest
  let closing ← symbol path .rightParen e.rest
  return opening.andThen (e.andThen (closing.map fun _ => e.value))

/-- Reads the initializer of a `for` and the semicolon behind it. -/
def forInitializer (path : Path) (ts : List Token) : Outcome (Parsed (Option (Stmt Unit)) ts) :=
  match ts with
  | [] => return (← expressionStatement path []).map some
  | t :: rest =>
    match t.kind with
    | .symbol .semicolon => return ⟨none, rest, .tail⟩
    | .keyword .letKw => return ((← letDeclaration path rest).map some).behind
    | _ => return (← expressionStatement path (t :: rest)).map some

/-- Reads an expression that may be missing, and the symbol that ends it. -/
def optionalUntil (path : Path) (s : Symbol) (ts : List Token) :
    Outcome (Parsed (Option (Expr Unit)) ts) := do
  if startsWith s ts then
    return (← symbol path s ts).map fun _ => none
  else
    let e ← expression path ts
    let close ← symbol path s e.rest
    return e.andThen (close.map fun _ => some e.value)

/-- The parts of a `for` statement in front of its body. -/
structure ForClauses where
  initializer : Option (Stmt Unit)
  condition : Option (Expr Unit)
  increment : Option (Expr Unit)

/-- Reads the parts of a `for` statement in front of its body. -/
def forClauses (path : Path) (ts : List Token) : Outcome (Parsed ForClauses ts) := do
  let opening ← symbol path .leftParen ts
  let initializer ← forInitializer path opening.rest
  let condition ← optionalUntil path .semicolon initializer.rest
  let increment ← optionalUntil path .rightParen condition.rest
  return opening.andThen (initializer.andThen (condition.andThen
    (increment.map fun e => ⟨initializer.value, condition.value, e⟩)))

/-- Reads the name and the parameters of a function. -/
def signature (path : Path) (ts : List Token) : Outcome (Parsed (Ident × List Ident) ts) := do
  let name ← identifier path ts
  let opening ← symbol path .leftParen name.rest
  let params ← parameters path 0 opening.rest
  return name.andThen (opening.andThen (params.map fun ps => (name.value, ps)))

/-- Reads what stands between `class` and the members of a class: its name, the class it extends and the
opening brace. -/
def classHead (path : Path) (ts : List Token) :
    Outcome (Parsed (Ident × Option (Occurrence Unit)) ts) := do
  let name ← identifier path ts
  match h : name.rest with
  | [] => path.fail (.expected .leftBrace) []
  | t :: rest =>
    match t.kind with
    | .keyword .extendsKw =>
      have proper : ProperSuffix rest ts := (h ▸ name.proper).of_cons
      let parent ← identifier path rest
      let opening ← symbol path .leftBrace parent.rest
      return (parent.andThen (opening.map fun _ => (name.value, some ⟨parent.value, ()⟩))).within proper
    | _ =>
      let opening ← symbol path .leftBrace (t :: rest)
      return (opening.map fun _ => (name.value, none)).within (h ▸ name.proper)

/-! ### Statements inside statements -/

/-- A function, with the statements of its body. -/
abbrev Method := FunctionDecl (Stmt Unit)

mutual

/-- Reads a declaration or a statement. -/
def declaration (path : Path) (ts : List Token) : Outcome (Parsed (Stmt Unit) ts) :=
  let path := path.enter .declaration
  match ts with
  | [] => statement path []
  | t :: rest =>
    match t.kind with
    | .keyword .classKw => return (← classDeclaration path rest).behind
    | .keyword .functionKw => return ((← function path .function rest).map .function).behind
    | .keyword .letKw => return (← letDeclaration path rest).behind
    | .keyword .constKw => return (← constDeclaration path rest).behind
    | _ => statement path (t :: rest)
termination_by (ts.length, 1)

/-- Reads a class declaration behind its `class`. -/
def classDeclaration (path : Path) (ts : List Token) : Outcome (Parsed (Stmt Unit) ts) := do
  let path := path.enter .classDeclaration
  let head ← classHead path ts
  let body ← members path head.rest
  return head.andThen (body.map fun (methods, statics) =>
    .classDecl head.value.1 head.value.2 methods statics)
termination_by (ts.length, 0)
decreasing_by exact Prod.Lex.left _ _ head.proper.length_lt

/-- Reads the methods and the static methods of a class up to its closing brace. -/
def members (path : Path) (ts : List Token) : Outcome (Parsed (List Method × List Method) ts) :=
  match ts with
  | [] => path.fail (.expected .rightBrace) []
  | t :: rest =>
    match t.kind with
    | .symbol .rightBrace => pure ⟨([], []), rest, .tail⟩
    | .keyword .staticKw => do
      let method ← function path .staticMethod rest
      let more ← members path method.rest
      return (method.andThen (more.map fun (methods, statics) =>
        (methods, method.value :: statics))).behind
    | .eof => path.fail (.expected .rightBrace) (t :: rest)
    | _ => do
      let method ← function path .method (t :: rest)
      let more ← members path method.rest
      return method.andThen (more.map fun (methods, statics) => (method.value :: methods, statics))
termination_by (ts.length, 1)
decreasing_by
  · exact Prod.Lex.left _ _ (by simp)
  · exact Prod.Lex.left _ _ (by have := method.proper.length_lt; simp; omega)
  · exact Prod.Lex.right _ (by simp)
  · exact Prod.Lex.left _ _ method.proper.length_lt

/-- Reads a function or a method from its name on. -/
def function (path : Path) (rule : Rule) (ts : List Token) : Outcome (Parsed Method ts) := do
  let path := path.enter rule
  let head ← signature path ts
  let opening ← symbol path .leftBrace head.rest
  let body ← block path opening.rest
  return head.andThen (opening.andThen (body.map fun ss => ⟨head.value.1, head.value.2, ss⟩))
termination_by (ts.length, 0)
decreasing_by exact Prod.Lex.left _ _ (opening.proper.trans head.proper).length_lt

/-- Reads a statement. -/
def statement (path : Path) (ts : List Token) : Outcome (Parsed (Stmt Unit) ts) :=
  let path := path.enter .statement
  match ts with
  | [] => expressionStatement path []
  | t :: rest =>
    match t.kind with
    | .keyword .printKw => return (← printStatement path rest).behind
    | .keyword .returnKw => return (← returnStatement path t.line rest).behind
    | .symbol .leftBrace => return ((← block path rest).map .block).behind
    | .keyword .ifKw => return (← ifStatement path rest).behind
    | .keyword .whileKw => return (← whileStatement path rest).behind
    | .keyword .forKw => return (← forStatement path rest).behind
    | _ => expressionStatement path (t :: rest)
termination_by (ts.length, 0)

/-- Reads an `if` statement behind its `if`. -/
def ifStatement (path : Path) (ts : List Token) : Outcome (Parsed (Stmt Unit) ts) := do
  let path := path.enter .ifStatement
  let test ← condition path ts
  let yes ← statement path test.rest
  match h : yes.rest with
  | [] => return test.andThen (yes.map (.ifThen test.value))
  | t :: rest =>
    match t.kind with
    | .keyword .elseKw =>
      have proper : ProperSuffix rest ts := (h ▸ yes.proper).of_cons.trans test.proper
      let no ← statement path rest
      return (no.map (.ifElse test.value yes.value)).within proper
    | _ => return test.andThen (yes.map (.ifThen test.value))
termination_by (ts.length, 0)
decreasing_by
  · exact Prod.Lex.left _ _ test.proper.length_lt
  · exact Prod.Lex.left _ _ proper.length_lt

/-- Reads a `while` statement behind its `while`. -/
def whileStatement (path : Path) (ts : List Token) : Outcome (Parsed (Stmt Unit) ts) := do
  let path := path.enter .whileStatement
  let test ← condition path ts
  let body ← statement path test.rest
  return test.andThen (body.map (.while test.value))
termination_by (ts.length, 0)
decreasing_by exact Prod.Lex.left _ _ test.proper.length_lt

/-- Reads a `for` statement behind its `for`. -/
def forStatement (path : Path) (ts : List Token) : Outcome (Parsed (Stmt Unit) ts) := do
  let path := path.enter .forStatement
  let head ← forClauses path ts
  let body ← statement path head.rest
  return head.andThen (body.map
    (.forLoop head.value.initializer head.value.condition head.value.increment))
termination_by (ts.length, 0)
decreasing_by exact Prod.Lex.left _ _ head.proper.length_lt

/-- Reads a block behind its opening brace. -/
def block (path : Path) (ts : List Token) : Outcome (Parsed (List (Stmt Unit)) ts) :=
  blockItems (path.enter .block) ts
termination_by (ts.length, 3)

/-- Reads declarations up to a closing brace.  One that fails is reported and left out. -/
def blockItems (path : Path) (ts : List Token) : Outcome (Parsed (List (Stmt Unit)) ts) :=
  match ts with
  | [] => path.fail (.expected .rightBrace) []
  | t :: rest =>
    match t.kind with
    | .eof => path.fail (.expected .rightBrace) (t :: rest)
    | .symbol .rightBrace => pure ⟨[], rest, .tail⟩
    | _ => do
      match ← (declaration path (t :: rest)).attempt with
      | .ok s =>
        let more ← blockItems path s.rest
        return s.andThen (more.map fun ss => s.value :: ss)
      | .error d =>
        .tell d
        return (← blockItems path (resume d rest)).within (resume_proper d t rest)
termination_by (ts.length, 2)
decreasing_by
  · exact Prod.Lex.right _ (by simp)
  · exact Prod.Lex.left _ _ s.proper.length_lt
  · exact Prod.Lex.left _ _ (resume_proper d t rest).length_lt

end

end ScriptLang.Grammar
