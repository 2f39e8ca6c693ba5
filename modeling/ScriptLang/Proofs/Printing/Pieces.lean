import ScriptLang.Proofs.Token.Respelling
import ScriptLang.Tree.Printer

/-!
# The pieces of a program's text

The text of a program is put together from tokens and single blanks.

* `Expr.pieces`, `Stmt.pieces` — the pieces of a text;
* `Expr.charsOf_pieces`, `Stmt.charsOf_linePieces` — their characters are the text;
* `contents` — the tokens among some pieces, apart from their lines.
-/

namespace ScriptLang

/-! ### Single pieces -/

namespace Piece

/-- A space. -/
def space : Piece := .blank [' ']

/-- A line break. -/
def lineBreak : Piece := .blank ['\n']

/-- The token of a symbol. -/
def symbol (s : Symbol) : Piece := .token (.symbol s) s.spelling.toList

/-- The token of a reserved word. -/
def keyword (w : Keyword) : Piece := .token (.keyword w) w.spelling.toList

/-- The token of a name. -/
def name (text : String) : Piece := .token .identifier text.toList

/-- What a token is and how it is written. -/
def content? : Piece → Option (Kind × String)
  | .token kind text => some (kind, String.ofList text)
  | _ => none

end Piece

/-- The tokens among some pieces, apart from their lines. -/
def contents (ps : List Piece) : List (Kind × String) := ps.filterMap Piece.content?

/-- What a use of a name is as a token. -/
def NameKind.kind : NameKind → Kind
  | identifier => .identifier
  | this => .keyword .thisKw
  | super => .keyword .superKw

/-- What a literal is as a token. -/
def Literal.kind : Literal → Kind
  | null => .keyword .nullKw
  | bool true => .keyword .trueKw
  | bool false => .keyword .falseKw
  | number x => .number x
  | string s => .string s

/-- What an operator with one operand is as a token. -/
def UnaryOp.kind : UnaryOp → Kind
  | negate => .symbol .minus
  | not => .symbol .bang
  | truthy => .symbol .bangBang

/-- What an operator that evaluates both operands is as a token. -/
def BinaryOp.kind : BinaryOp → Kind
  | equal => .symbol .equalEqual
  | notEqual => .symbol .bangEqual
  | less => .symbol .less
  | lessEqual => .symbol .lessEqual
  | greater => .symbol .greater
  | greaterEqual => .symbol .greaterEqual
  | plus => .symbol .plus
  | minus => .symbol .minus
  | times => .symbol .star
  | divide => .symbol .slash
  | mod => .keyword .modKw

/-- What an operator that may skip its right operand is as a token. -/
def LogicalOp.kind : LogicalOp → Kind
  | and => .keyword .andKw
  | or => .keyword .orKw
  | coalesce => .symbol .questionQuestion

/-! ### Trees -/

open Piece

variable {ι : Type}

/-- Some pieces in parentheses. -/
def inParens (ps : List Piece) : List Piece := symbol .leftParen :: (ps ++ [symbol .rightParen])

/-- Several pieces with commas between them. -/
def withCommas (pss : List (List Piece)) : List Piece := [symbol .comma, space].intercalate pss

/-- The braces around a body whose lines are given. -/
def inBraces (lines : List Piece) : List Piece :=
  symbol .leftBrace :: lineBreak :: (lines ++ [symbol .rightBrace])

/-- An assignment to what is written in front. -/
def assigned (ps : List Piece) : List Piece := space :: symbol .equal :: space :: ps

mutual

/-- The pieces of an expression. -/
def Expr.pieces : Expr ι → List Piece
  | .literal value => [.token value.kind value.text.toList]
  | .name kind use => [.token kind.kind use.text.toList]
  | .assign target value => .name target.text :: assigned value.pieces
  | .unary op _ operand => inParens (.token op.kind op.text.toList :: space :: operand.pieces)
  | .binary op _ left right =>
    inParens (.token op.kind op.text.toList :: space :: (left.pieces ++ space :: right.pieces))
  | .logical op _ left right =>
    inParens (.token op.kind op.text.toList :: space :: (left.pieces ++ space :: right.pieces))
  | .group inner => inParens inner.pieces
  | .call _ callee args => callee.pieces ++ inParens (withCommas (Expr.piecesList args))
  | .get object property => object.pieces ++ [symbol .dot, .name property.text]
  | .superGet keyword property => [.token (.keyword .superKw) keyword.text.toList, symbol .dot, .name property.text]
  | .set object property value => object.pieces ++ symbol .dot :: .name property.text :: assigned value.pieces

/-- The pieces of several expressions. -/
def Expr.piecesList : List (Expr ι) → List (List Piece)
  | [] => []
  | e :: es => e.pieces :: Expr.piecesList es

end

/-- The pieces of an expression that may be missing, with other pieces in front of it. -/
def Expr.piecesOption (front : List Piece → List Piece) : Option (Expr ι) → List Piece
  | none => []
  | some e => front e.pieces

/-- The name of the class that a class extends. -/
def extendsPieces : Option (Occurrence ι) → List Piece
  | some use => [space, keyword .extendsKw, space, .name use.text]
  | none => []

mutual

/-- The pieces of a statement. -/
def Stmt.pieces : Stmt ι → List Piece
  | .expr e => e.pieces ++ [symbol .semicolon]
  | .print e => keyword .printKw :: space :: (e.pieces ++ [symbol .semicolon])
  | .letVar name value =>
    keyword .letKw :: space :: .name name.text :: (Expr.piecesOption assigned value ++ [symbol .semicolon])
  | .constVar name value =>
    keyword .constKw :: space :: .name name.text :: (assigned value.pieces ++ [symbol .semicolon])
  | .block body => inBraces (Stmt.linePieces body)
  | .ifThen condition yes => keyword .ifKw :: space :: (inParens condition.pieces ++ space :: yes.pieces)
  | .ifElse condition yes no =>
    keyword .ifKw :: space :: (inParens condition.pieces ++ space :: (yes.pieces ++
      space :: keyword .elseKw :: space :: no.pieces))
  | .while condition body => keyword .whileKw :: space :: (inParens condition.pieces ++ space :: body.pieces)
  | .function decl => keyword .functionKw :: space :: FunctionDecl.pieces decl
  | .return _ value => keyword .returnKw :: (Expr.piecesOption (space :: ·) value ++ [symbol .semicolon])
  | .classDecl name superclass methods statics =>
    keyword .classKw :: space :: .name name.text :: (extendsPieces superclass ++
      space :: inBraces (FunctionDecl.linePieces [] methods ++
        FunctionDecl.linePieces [keyword .staticKw, space] statics))

/-- The pieces of statements, each with a line break behind it. -/
def Stmt.linePieces : List (Stmt ι) → List Piece
  | [] => []
  | s :: ss => s.pieces ++ lineBreak :: Stmt.linePieces ss

/-- The pieces of a function without the word that introduces it. -/
def FunctionDecl.pieces : FunctionDecl (Stmt ι) → List Piece
  | ⟨name, params, body⟩ => .name name.text :: (inParens (withCommas (params.map fun p => [.name p.text])) ++
      space :: inBraces (Stmt.linePieces body))

/-- The pieces of methods, each with some pieces in front and a line break behind it. -/
def FunctionDecl.linePieces (front : List Piece) : List (FunctionDecl (Stmt ι)) → List Piece
  | [] => []
  | d :: ds => front ++ (FunctionDecl.pieces d ++ lineBreak :: FunctionDecl.linePieces front ds)

end

/-! ### Their characters -/

/-- The characters of some pieces. -/
def charsOf (ps : List Piece) : List Char := ps.flatMap Piece.chars

section Chars

variable {p : Piece} {ps qs : List Piece}

@[simp] lemma charsOf_nil : charsOf [] = [] := rfl

@[simp] lemma charsOf_cons : charsOf (p :: ps) = p.chars ++ charsOf ps := List.flatMap_cons

@[simp] lemma charsOf_append : charsOf (ps ++ qs) = charsOf ps ++ charsOf qs := List.flatMap_append

@[simp] lemma chars_token {kind : Kind} {text : List Char} : (Piece.token kind text).chars = text := rfl

@[simp] lemma chars_space : space.chars = " ".toList := rfl

@[simp] lemma chars_lineBreak : lineBreak.chars = "\n".toList := rfl

@[simp] lemma chars_symbol {s : Symbol} : (symbol s).chars = s.spelling.toList := rfl

@[simp] lemma chars_keyword {w : Keyword} : (keyword w).chars = w.spelling.toList := rfl

@[simp] lemma chars_name {text : String} : (Piece.name text).chars = text.toList := rfl

@[simp] lemma charsOf_inParens : charsOf (inParens ps) = "(".toList ++ charsOf ps ++ ")".toList := by
  simp [inParens, Symbol.spelling]

@[simp] lemma charsOf_inBraces : charsOf (inBraces ps) = "\x7b\n".toList ++ charsOf ps ++ "\x7d".toList := by
  simp [inBraces, Symbol.spelling]

@[simp] lemma charsOf_assigned : charsOf (assigned ps) = " = ".toList ++ charsOf ps := by
  simp [assigned, Symbol.spelling]

lemma charsOf_withCommas (pss : List (List Piece)) :
    charsOf (withCommas pss) = ", ".toList.intercalate (pss.map charsOf) := by
  unfold withCommas
  induction pss with
  | nil => rfl
  | cons ps pss ih =>
    cases pss with
    | nil => simp
    | cons qs pss =>
      rw [List.intercalate_cons_cons, charsOf_append, charsOf_append, ih]
      exact (List.intercalate_cons_cons ..).symm

end Chars

mutual

/-- The text of an expression. -/
theorem Expr.charsOf_pieces : ∀ e : Expr ι, charsOf e.pieces = e.text.toList
  | .literal _ | .name _ _ | .superGet _ _ => by simp [Expr.pieces, Expr.text, Symbol.spelling]
  | .assign _ e | .unary _ _ e | .group e | .get e _ => by
    simp [Expr.pieces, Expr.text, e.charsOf_pieces, Symbol.spelling]
  | .binary _ _ e e' | .logical _ _ e e' | .set e _ e' => by
    simp [Expr.pieces, Expr.text, e.charsOf_pieces, e'.charsOf_pieces, Symbol.spelling]
  | .call _ e es => by
    simp [Expr.pieces, Expr.text, e.charsOf_pieces, charsOf_withCommas, Expr.charsOf_piecesList es,
      String.toList_intercalate]

/-- The texts of several expressions. -/
theorem Expr.charsOf_piecesList : ∀ es : List (Expr ι),
    (Expr.piecesList es).map charsOf = (Expr.texts es).map String.toList
  | [] => rfl
  | e :: es => by
    rw [Expr.piecesList, Expr.texts, List.map_cons, List.map_cons, e.charsOf_pieces, Expr.charsOf_piecesList es]

end

mutual

/-- The text of a statement. -/
theorem Stmt.charsOf_pieces : ∀ s : Stmt ι, charsOf s.pieces = s.text.toList
  | .expr e | .print e | .constVar _ e => by
    simp [Stmt.pieces, Stmt.text, e.charsOf_pieces, Symbol.spelling, Keyword.spelling]
  | .letVar _ value | .return _ value => by
    cases value with
    | none => simp [Stmt.pieces, Stmt.text, Expr.piecesOption, Symbol.spelling, Keyword.spelling]
    | some e => simp [Stmt.pieces, Stmt.text, Expr.piecesOption, e.charsOf_pieces, Symbol.spelling, Keyword.spelling]
  | .block body => by simp [Stmt.pieces, Stmt.text, Stmt.charsOf_linePieces body, braced]
  | .ifThen c s | .while c s => by
    simp [Stmt.pieces, Stmt.text, c.charsOf_pieces, s.charsOf_pieces, Keyword.spelling]
  | .ifElse c yes no => by
    simp [Stmt.pieces, Stmt.text, c.charsOf_pieces, yes.charsOf_pieces, no.charsOf_pieces, Keyword.spelling]
  | .function decl => by simp [Stmt.pieces, Stmt.text, FunctionDecl.charsOf_pieces decl, Keyword.spelling]
  | .classDecl _ parent methods statics => by
    cases parent <;>
      simp [Stmt.pieces, Stmt.text, extendsPieces, braced, FunctionDecl.charsOf_linePieces, Keyword.spelling]

/-- The lines of statements. -/
theorem Stmt.charsOf_linePieces : ∀ ss : List (Stmt ι), charsOf (Stmt.linePieces ss) = (Stmt.lines ss).toList
  | [] => rfl
  | s :: ss => by simp [Stmt.linePieces, Stmt.lines, s.charsOf_pieces, Stmt.charsOf_linePieces ss]

/-- The text of a function. -/
theorem FunctionDecl.charsOf_pieces : ∀ d : FunctionDecl (Stmt ι),
    charsOf (FunctionDecl.pieces d) = (FunctionDecl.text d).toList
  | ⟨_, params, body⟩ => by
    have hparams : (params.map fun p => [Piece.name p.text]).map charsOf =
        (params.map fun p => p.text).map String.toList := by
      simp [Function.comp_def]
    simp [FunctionDecl.pieces, FunctionDecl.text, braced, charsOf_withCommas, hparams, String.toList_intercalate,
      Stmt.charsOf_linePieces body]

/-- The lines of methods. -/
theorem FunctionDecl.charsOf_linePieces (front : List Piece) : ∀ ds : List (FunctionDecl (Stmt ι)),
    charsOf (FunctionDecl.linePieces front ds) =
      (FunctionDecl.lines (String.ofList (charsOf front)) ds).toList
  | [] => rfl
  | d :: ds => by
    simp [FunctionDecl.linePieces, FunctionDecl.lines, FunctionDecl.charsOf_pieces d,
      FunctionDecl.charsOf_linePieces front ds]

end

end ScriptLang
