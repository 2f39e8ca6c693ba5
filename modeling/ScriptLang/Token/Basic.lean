import ScriptLang.Number.Text

/-!
# Tokens

A token is a piece of source text with a kind and a line.  Symbols and keywords have one spelling each;
identifiers, strings and numbers carry what was written.
-/

namespace ScriptLang

/-- The tokens written with punctuation. -/
inductive Symbol where
  | leftParen | rightParen | leftBrace | rightBrace | comma | dot | minus | plus | semicolon | slash
  | star | bang | bangBang | bangEqual | equal | equalEqual | greater | greaterEqual | less
  | lessEqual | question | questionQuestion
deriving DecidableEq, Repr

namespace Symbol

/-- All symbols. -/
def all : List Symbol :=
  [leftParen, rightParen, leftBrace, rightBrace, comma, dot, minus, plus, semicolon, slash, star, bang,
   bangBang, bangEqual, equal, equalEqual, greater, greaterEqual, less, lessEqual, question,
   questionQuestion]

/-- How a symbol is written. -/
def spelling : Symbol → String
  | leftParen => "("
  | rightParen => ")"
  | leftBrace => "\x7b"
  | rightBrace => "\x7d"
  | comma => ","
  | dot => "."
  | minus => "-"
  | plus => "+"
  | semicolon => ";"
  | slash => "/"
  | star => "*"
  | bang => "!"
  | bangBang => "!!"
  | bangEqual => "!="
  | equal => "="
  | equalEqual => "=="
  | greater => ">"
  | greaterEqual => ">="
  | less => "<"
  | lessEqual => "<="
  | question => "?"
  | questionQuestion => "??"

/-- What a symbol is called in listings and messages. -/
def name : Symbol → String
  | leftParen => "LeftParen"
  | rightParen => "RightParen"
  | leftBrace => "LeftBrace"
  | rightBrace => "RightBrace"
  | comma => "Comma"
  | dot => "Dot"
  | minus => "Minus"
  | plus => "Plus"
  | semicolon => "Semicolon"
  | slash => "Slash"
  | star => "Star"
  | bang => "Bang"
  | bangBang => "BangBang"
  | bangEqual => "BangEqual"
  | equal => "Equal"
  | equalEqual => "EqualEqual"
  | greater => "Greater"
  | greaterEqual => "GreaterEqual"
  | less => "Less"
  | lessEqual => "LessEqual"
  | question => "Question"
  | questionQuestion => "QuestionQuestion"

theorem mem_all (s : Symbol) : s ∈ all := by cases s <;> decide

end Symbol

/-- The reserved words. -/
inductive Keyword where
  | andKw | orKw | modKw | classKw | elseKw | falseKw | forKw | functionKw | ifKw | nullKw | printKw
  | returnKw | superKw | thisKw | trueKw | letKw | constKw | whileKw | extendsKw | staticKw
deriving DecidableEq, Repr

namespace Keyword

/-- All reserved words. -/
def all : List Keyword :=
  [andKw, orKw, modKw, classKw, elseKw, falseKw, forKw, functionKw, ifKw, nullKw, printKw, returnKw,
   superKw, thisKw, trueKw, letKw, constKw, whileKw, extendsKw, staticKw]

/-- How a reserved word is written. -/
def spelling : Keyword → String
  | andKw => "and"
  | orKw => "or"
  | modKw => "mod"
  | classKw => "class"
  | elseKw => "else"
  | falseKw => "false"
  | forKw => "for"
  | functionKw => "function"
  | ifKw => "if"
  | nullKw => "null"
  | printKw => "print"
  | returnKw => "return"
  | superKw => "super"
  | thisKw => "this"
  | trueKw => "true"
  | letKw => "let"
  | constKw => "const"
  | whileKw => "while"
  | extendsKw => "extends"
  | staticKw => "static"

/-- What a reserved word is called in listings. -/
def name : Keyword → String
  | andKw => "And"
  | orKw => "Or"
  | modKw => "Mod"
  | classKw => "Class"
  | elseKw => "Else"
  | falseKw => "False"
  | forKw => "For"
  | functionKw => "Function"
  | ifKw => "If"
  | nullKw => "Null"
  | printKw => "Print"
  | returnKw => "Return"
  | superKw => "Super"
  | thisKw => "This"
  | trueKw => "True"
  | letKw => "Let"
  | constKw => "Const"
  | whileKw => "While"
  | extendsKw => "Extends"
  | staticKw => "Static"

/-- The reserved word with the given letters, if they form one. -/
def ofSpelling? (word : List Char) : Option Keyword :=
  all.find? (·.spelling.toList == word)

theorem mem_all (k : Keyword) : k ∈ all := by cases k <;> decide

theorem ofSpelling?_spelling (k : Keyword) : ofSpelling? k.spelling.toList = some k := by
  cases k <;> decide

end Keyword

/-- What a token is, apart from where it stands and how it was written. -/
inductive Kind where
  | symbol (s : Symbol)
  | keyword (k : Keyword)
  | identifier
  | string (value : String)
  | number (value : Float)
  | eof
deriving Repr

namespace Kind

/-- What a kind is called in listings. -/
def name : Kind → String
  | symbol s => s.name
  | keyword k => k.name
  | identifier => "Identifier"
  | string _ => "String"
  | number _ => "Number"
  | eof => "Eof"

/-- A kind as messages quote it: its spelling if it has one, its value if it carries one. -/
def text : Kind → String
  | symbol s => s.spelling
  | keyword k => k.spelling
  | identifier => "identifier"
  | string value => "\"" ++ value ++ "\""
  | number value => Number.text value
  | eof => "end of file"

end Kind

/-- A token: its kind, the source text it was read from, and the line on which that text starts. -/
structure Token where
  kind : Kind
  lexeme : String
  line : Nat
deriving Repr

end ScriptLang
