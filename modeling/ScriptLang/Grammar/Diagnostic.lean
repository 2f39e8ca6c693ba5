import ScriptLang.Token.Basic

/-!
# Diagnostics of the grammar

What is wrong with a list of tokens, where, and inside which rules of the grammar.
-/

namespace ScriptLang

/-- The rules of the grammar. -/
inductive Rule where
  | program | declaration | classDeclaration | letDeclaration | constDeclaration | function | method
  | staticMethod | statement | printStatement | returnStatement | ifStatement | whileStatement
  | forStatement | block | expressionStatement | expression | assignment | logicalOr | logicalAnd
  | equality | comparison | addition | mod | multiplication | nullCoalescing | unary | call | primary
deriving DecidableEq, Repr

/-- What a rule is called in messages. -/
def Rule.name : Rule → String
  | program => "program"
  | declaration => "declaration"
  | classDeclaration => "class_declaration"
  | letDeclaration => "let_declaration"
  | constDeclaration => "const_declaration"
  | function => "function"
  | method => "method"
  | staticMethod => "static method"
  | statement => "statement"
  | printStatement => "print_statement"
  | returnStatement => "return_statement"
  | ifStatement => "if_statement"
  | whileStatement => "while_statement"
  | forStatement => "for_statement"
  | block => "block"
  | expressionStatement => "expression_statement"
  | expression => "expression"
  | assignment => "assignment"
  | logicalOr => "logical_or"
  | logicalAnd => "logical_and"
  | equality => "equality"
  | comparison => "comparison"
  | addition => "addition"
  | mod => "mod"
  | multiplication => "multiplication"
  | nullCoalescing => "null_coalescing"
  | unary => "unary"
  | call => "call"
  | primary => "primary"

/-- What can be wrong with a list of tokens. -/
inductive GrammarError where
  | expected (symbol : Symbol)
  | expectedOneOf (symbols : List Symbol)
  | expectedIdentifier
  | expectedExpression
  | invalidAssignmentTarget
  | tooManyArguments
  | tooManyParameters
deriving DecidableEq, Repr

/-- The wording of a grammar error. -/
def GrammarError.message : GrammarError → String
  | expected symbol => "Expected \"" ++ symbol.spelling ++ "\""
  | expectedOneOf symbols => "Expected one of [" ++ ", ".intercalate (symbols.map Symbol.name) ++ "]"
  | expectedIdentifier => "Expected identifier"
  | expectedExpression => "Expected expression"
  | invalidAssignmentTarget => "Invalid assignment target"
  | tooManyArguments => "Can't have more than 254 arguments"
  | tooManyParameters => "Can't have more than 254 parameters"

/-- A grammar error in its place: the rules around it from the outside in, the token at fault (none at the
end of the list) and the number of tokens from that one on. -/
structure Diagnostic where
  error : GrammarError
  rules : List Rule
  token : Option Token
  remaining : Nat
deriving Repr

namespace Diagnostic

/-- Where the token at fault stands and what it is. -/
def place : Option Token → String
  | none => ""
  | some ⟨.eof, _, line⟩ => s!" at end of file (line {line})"
  | some ⟨_, lexeme, line⟩ => s!" at line {line} but found " ++ "\"" ++ lexeme ++ "\""

/-- The wording of a diagnostic. -/
def text (d : Diagnostic) : String :=
  "While parsing " ++ " > ".intercalate (d.rules.map Rule.name) ++ "\n" ++ d.error.message
    ++ place d.token

/-- The wording of all diagnostics of a program. -/
def report (ds : List Diagnostic) : String :=
  s!"Found {ds.length} errors during parsing\n" ++ String.join (ds.map fun d => d.text ++ "\n")

end Diagnostic

end ScriptLang
