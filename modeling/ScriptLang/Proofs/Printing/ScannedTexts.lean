import ScriptLang.Proofs.Printing.PieceRows

/-!
# Scanning the text of a program

In the text of a program every piece stands in front of something that ends it, so the text is cut into just these
pieces, if only its names and literals are written as tokens can be.

* `InRow`, `IsRow` — pieces that are right where they stand, and no blank is the first of them;
* `Expr.isRow`, `Stmt.isRow` — the pieces of an expression, of a statement;
* `scan_text` — the tokens of the text of a program.
-/

namespace ScriptLang

open Piece

variable {ι : Type} {text rest : List Char} {kind : Kind} {ps qs : List Piece}

/-! ### Pieces in a row -/

/-- Every piece of a row is the right one where it stands, with some text behind the row. -/
def InRow : List Piece → List Char → Prop
  | [], _ => True
  | p :: ps, rest => p.Rightful (charsOf ps ++ rest) ∧ InRow ps rest

@[simp] lemma inRow_nil : InRow [] rest := trivial

@[simp] lemma inRow_cons {p : Piece} : InRow (p :: ps) rest ↔ p.Rightful (charsOf ps ++ rest) ∧ InRow ps rest := Iff.rfl

@[simp] lemma inRow_append : InRow (ps ++ qs) rest ↔ InRow ps (charsOf qs ++ rest) ∧ InRow qs rest := by
  induction ps with
  | nil => simp
  | cons p ps ih =>
    rw [List.cons_append, inRow_cons, inRow_cons, ih, charsOf_append, List.append_assoc, and_assoc]

/-- A row with nothing behind it is what its characters are cut into. -/
lemma InRow.split_eq (h : InRow ps []) : Piece.split (charsOf ps) = ps := by
  refine split_unique fun before p after hsplit => ?_
  rw [hsplit, inRow_append, inRow_cons] at h
  simpa [charsOf] using h.2.1

/-- No blank lies ahead. -/
def Ahead (rest : List Char) : Prop := ∀ c ∈ rest.head?, Text.isBlank c = false

lemma ahead_nil : Ahead [] := fun _ h => absurd h (Option.not_mem_none _)

/-- A row that no blank begins. -/
def IsRow (ps : List Piece) (rest : List Char) : Prop := InRow ps rest ∧ Ahead (charsOf ps ++ rest)

lemma isRow_append (hps : IsRow ps (charsOf qs ++ rest)) (hqs : InRow qs rest) : IsRow (ps ++ qs) rest := by
  obtain ⟨hps, hahead⟩ := hps
  refine ⟨inRow_append.2 ⟨hps, hqs⟩, ?_⟩
  rwa [charsOf_append, List.append_assoc]

lemma inRow_space (h : IsRow ps rest) : InRow (space :: ps) rest :=
  ⟨.blank ⟨List.cons_ne_nil _ _, List.forall_mem_singleton.2 (by decide)⟩ h.2, h.1⟩

lemma inRow_lineBreak (h : IsRow ps rest) : InRow (lineBreak :: ps) rest :=
  ⟨.blank ⟨List.cons_ne_nil _ _, List.forall_mem_singleton.2 (by decide)⟩ h.2, h.1⟩

/-! ### Tokens in a row -/

lemma ahead_written (h : IsWritten kind text) : Ahead (text ++ rest) := by
  intro c hc
  cases h with
  | string =>
    obtain rfl := Option.some.inj hc
    decide
  | lexeme hl =>
    obtain ⟨d, ds, rfl, -⟩ := hl.opens
    obtain rfl := Option.some.inj hc
    exact (hl.visible _ List.mem_cons_self).not_blank

lemma ahead_closing : Ahead ('\x7d' :: rest) := ahead_written (.lexeme (.symbol .rightBrace))

lemma isRow_rightful (h : IsWritten kind text) (hright : (Piece.token kind text).Rightful (charsOf ps ++ rest))
    (hps : InRow ps rest) : IsRow (.token kind text :: ps) rest := by
  refine ⟨⟨hright, hps⟩, ?_⟩
  rw [charsOf_cons, chars_token, List.append_assoc]
  exact ahead_written h

/-- A word, a number or a string in front of what ends it. -/
lemma isRow_token (h : IsWritten kind text) (hkind : ∀ s, kind ≠ .symbol s) (hrest : EndsLexeme (charsOf ps ++ rest))
    (hps : InRow ps rest) : IsRow (.token kind text :: ps) rest := isRow_rightful h (rightful_token h hkind hrest) hps

lemma isRow_keyword {w : Keyword} (hrest : EndsLexeme (charsOf ps ++ rest)) (hps : InRow ps rest) :
    IsRow (keyword w :: ps) rest := isRow_token (.lexeme (.keyword w)) nofun hrest hps

lemma isRow_symbol {s : Symbol} (hs : StandsAlone s) (hps : InRow ps rest) : IsRow (symbol s :: ps) rest :=
  isRow_rightful (.lexeme (.symbol s)) (rightful_symbol hs) hps

/-- Any token in front of a space. -/
lemma isRow_in_front_of_space (h : IsWritten kind text) (hps : IsRow ps rest) :
    IsRow (.token kind text :: space :: ps) rest :=
  isRow_rightful h (rightful_in_front_of_space h) (inRow_space hps)

lemma endsLexeme_space : EndsLexeme (' ' :: rest) := endsLexeme_cons (by decide) (by decide) (by decide)

lemma endsLexeme_symbol (s : Symbol) (h : s ≠ .dot) : EndsLexeme (s.spelling.toList ++ rest) := by
  cases s with
  | dot => exact absurd rfl h
  | _ => exact endsLexeme_cons (by decide) (by decide) (by decide)

lemma endsLexeme_property {n : String} (h : IsWritten .identifier n.toList) :
    EndsLexeme (charsOf (symbol .dot :: .name n :: ps) ++ rest) := by
  rw [charsOf_cons, charsOf_cons, chars_name, List.append_assoc, List.append_assoc]
  exact @endsLexeme_dot n.toList (charsOf ps ++ rest) h

lemma inRow_property {n : String} (h : IsWritten .identifier n.toList) (hrest : EndsLexeme (charsOf ps ++ rest))
    (hps : InRow ps rest) : InRow (symbol .dot :: .name n :: ps) rest :=
  ⟨rightful_symbol (by decide), (isRow_token h nofun hrest hps).1⟩

/-! ### Frames around pieces -/

lemma isRow_inParens (h : InRow ps (')' :: rest)) : IsRow (inParens ps) rest :=
  isRow_symbol (by decide) (inRow_append.2 ⟨h, rightful_symbol (by decide), trivial⟩)

lemma isRow_inBraces (h : IsRow ps ('\x7d' :: rest)) : IsRow (inBraces ps) rest :=
  isRow_symbol (by decide) (inRow_lineBreak (isRow_append h ⟨rightful_symbol (by decide), trivial⟩))

lemma inRow_assigned (h : IsRow ps rest) : InRow (assigned ps) rest :=
  inRow_space (isRow_in_front_of_space (.lexeme (.symbol .equal)) h)

/-- Rows with commas between them, in front of a closing parenthesis. -/
lemma inRow_withCommas {pss : List (List Piece)} (h : ∀ ps ∈ pss, ∀ rest, EndsLexeme rest → IsRow ps rest) :
    InRow (withCommas pss) (')' :: rest) := by
  have hrows : ∀ ps pss, (∀ qs ∈ ps :: pss, ∀ rest, EndsLexeme rest → IsRow qs rest) →
      IsRow (withCommas (ps :: pss)) (')' :: rest) := by
    intro ps pss
    induction pss generalizing ps with
    | nil =>
      intro h
      have hrow := h ps List.mem_cons_self (')' :: rest) (endsLexeme_symbol .rightParen (by decide))
      unfold withCommas
      rwa [List.intercalate_singleton]
    | cons qs pss ih =>
      intro h
      obtain ⟨hps, hpss⟩ := List.forall_mem_cons.1 h
      unfold withCommas
      rw [List.intercalate_cons_cons]
      refine isRow_append (isRow_append (hps _ (endsLexeme_symbol .comma (by decide))) ?_) (ih qs hpss).1
      exact ⟨rightful_symbol (by decide), inRow_space ⟨inRow_nil, (ih qs hpss).2⟩⟩
  cases pss with
  | nil => trivial
  | cons ps pss => exact (hrows ps pss h).1

/-! ### Trees -/

lemma Literal.kind_ne_symbol (v : Literal) : ∀ s, v.kind ≠ .symbol s := by
  cases v with
  | bool b => cases b <;> exact nofun
  | _ => exact nofun

lemma NameKind.kind_ne_symbol (kind : NameKind) : ∀ s, kind.kind ≠ .symbol s := by
  cases kind <;> exact nofun

mutual

theorem Expr.isRow : ∀ (e : Expr ι) {rest : List Char}, AllWritten e.pieces → EndsLexeme rest → IsRow e.pieces rest
  | .literal v, _, h, hrest => isRow_token (allWritten_token.1 h).1 v.kind_ne_symbol hrest trivial
  | .name kind _, _, h, hrest => isRow_token (allWritten_token.1 h).1 kind.kind_ne_symbol hrest trivial
  | .assign _ e, _, h, hrest => by
    simp only [Expr.pieces, allWritten_name, allWritten_assigned] at h
    exact isRow_token h.1 nofun endsLexeme_space (inRow_assigned (e.isRow h.2 hrest))
  | .unary _ _ e, _, h, _ => by
    simp only [Expr.pieces, allWritten_inParens, allWritten_token, allWritten_space] at h
    refine isRow_inParens (isRow_in_front_of_space h.1 ?_).1
    exact e.isRow h.2 (endsLexeme_symbol .rightParen (by decide))
  | .binary _ _ e e', _, h, _ | .logical _ _ e e', _, h, _ => by
    simp only [Expr.pieces, allWritten_inParens, allWritten_token, allWritten_space, allWritten_append] at h
    refine isRow_inParens (isRow_in_front_of_space h.1 (isRow_append (e.isRow h.2.1 endsLexeme_space) ?_)).1
    exact inRow_space (e'.isRow h.2.2 (endsLexeme_symbol .rightParen (by decide)))
  | .group e, _, h, _ =>
    isRow_inParens (e.isRow (allWritten_inParens.1 h) (endsLexeme_symbol .rightParen (by decide))).1
  | .call _ e es, _, h, _ => by
    simp only [Expr.pieces, allWritten_append, allWritten_inParens, allWritten_withCommas] at h
    refine isRow_append (e.isRow h.1 (endsLexeme_symbol .leftParen (by decide))) ?_
    exact (isRow_inParens (inRow_withCommas fun ps hps _ => Expr.isRow_list es h.2 ps hps)).1
  | .get e _, _, h, hrest => by
    simp only [Expr.pieces, allWritten_append, allWritten_symbol, allWritten_name] at h
    exact isRow_append (e.isRow h.1 (endsLexeme_property h.2.1)) (inRow_property h.2.1 hrest inRow_nil)
  | .superGet _ _, _, h, hrest => by
    simp only [Expr.pieces, allWritten_token, allWritten_symbol, allWritten_name] at h
    exact isRow_token h.1 nofun (endsLexeme_property h.2.1) (inRow_property h.2.1 hrest inRow_nil)
  | .set e _ e', _, h, hrest => by
    simp only [Expr.pieces, allWritten_append, allWritten_symbol, allWritten_name, allWritten_assigned] at h
    refine isRow_append (e.isRow h.1 (endsLexeme_property h.2.1)) ?_
    exact inRow_property h.2.1 endsLexeme_space (inRow_assigned (e'.isRow h.2.2 hrest))

theorem Expr.isRow_list : ∀ es : List (Expr ι), (∀ ps ∈ Expr.piecesList es, AllWritten ps) →
    ∀ ps ∈ Expr.piecesList es, ∀ {rest : List Char}, EndsLexeme rest → IsRow ps rest
  | [], _ => nofun
  | e :: es, h => by
    obtain ⟨he, hes⟩ := List.forall_mem_cons.1 h
    exact List.forall_mem_cons.2 ⟨e.isRow he, Expr.isRow_list es hes⟩

end

/-! #### Parts of statements -/

lemma rightful_semicolon : InRow [symbol .semicolon] rest := ⟨rightful_symbol (by decide), inRow_nil⟩

/-- An expression with a semicolon behind it. -/
lemma isRow_terminated (e : Expr ι) (h : AllWritten e.pieces) : IsRow (e.pieces ++ [symbol .semicolon]) rest :=
  isRow_append (e.isRow h (endsLexeme_symbol .semicolon (by decide))) rightful_semicolon

/-- A condition in parentheses behind a word. -/
lemma isRow_condition {w : Keyword} (c : Expr ι) (hc : AllWritten c.pieces) (hps : IsRow ps rest) :
    IsRow (keyword w :: space :: (inParens c.pieces ++ space :: ps)) rest := by
  refine isRow_in_front_of_space (.lexeme (.keyword w)) (isRow_append (isRow_inParens ?_) (inRow_space hps))
  exact (c.isRow hc (endsLexeme_symbol .rightParen (by decide))).1

/-- A name in front of the value that it gets, if it gets one. -/
lemma isRow_initialized {n : String} (hn : IsWritten .identifier n.toList) (value : Option (Expr ι))
    (h : AllWritten (Expr.piecesOption assigned value)) :
    IsRow (.name n :: (Expr.piecesOption assigned value ++ [symbol .semicolon])) rest := by
  cases value with
  | none => exact isRow_token hn nofun (endsLexeme_symbol .semicolon (by decide)) rightful_semicolon
  | some e =>
    refine isRow_token hn nofun endsLexeme_space (inRow_assigned ?_)
    exact isRow_terminated e (allWritten_assigned.1 h)

lemma isRow_heading {n : String} (hn : IsWritten .identifier n.toList) (parent : Option (Occurrence ι))
    (h : AllWritten (extendsPieces parent)) (hps : IsRow ps rest) :
    IsRow (.name n :: (extendsPieces parent ++ space :: ps)) rest := by
  cases parent with
  | none => exact isRow_in_front_of_space hn hps
  | some use =>
    simp only [extendsPieces, allWritten_space, allWritten_keyword, allWritten_name] at h
    refine isRow_in_front_of_space hn (isRow_in_front_of_space (.lexeme (.keyword .extendsKw)) ?_)
    exact isRow_in_front_of_space h.1 hps

lemma inRow_params {names : List Ident} (h : ∀ ps ∈ names.map fun p => [Piece.name p.text], AllWritten ps) :
    InRow (withCommas (names.map fun p => [.name p.text])) (')' :: rest) := by
  refine inRow_withCommas fun ps hps rest hrest => ?_
  have hwritten := h ps hps
  obtain ⟨p, -, rfl⟩ := List.mem_map.1 hps
  exact isRow_token (allWritten_name.1 hwritten).1 nofun hrest inRow_nil

/-! #### Statements -/

mutual

theorem Stmt.isRow : ∀ (s : Stmt ι) {rest : List Char}, AllWritten s.pieces → IsRow s.pieces rest
  | .expr e, _, h => isRow_terminated e (allWritten_append.1 h).1
  | .print e, _, h => by
    simp only [Stmt.pieces, allWritten_keyword, allWritten_space, allWritten_append] at h
    exact isRow_in_front_of_space (.lexeme (.keyword .printKw)) (isRow_terminated e h.1)
  | .letVar _ value, _, h => by
    simp only [Stmt.pieces, allWritten_keyword, allWritten_space, allWritten_name, allWritten_append] at h
    exact isRow_in_front_of_space (.lexeme (.keyword .letKw)) (isRow_initialized h.1 value h.2.1)
  | .constVar _ e, _, h => by
    simp only [Stmt.pieces, allWritten_keyword, allWritten_space, allWritten_name, allWritten_append] at h
    exact isRow_in_front_of_space (.lexeme (.keyword .constKw)) (isRow_initialized h.1 (some e) h.2.1)
  | .block body, _, h => isRow_inBraces (Stmt.isRow_lines body (allWritten_inBraces.1 h) ahead_closing)
  | .ifThen c s, _, h | .while c s, _, h => by
    simp only [Stmt.pieces, allWritten_keyword, allWritten_space, allWritten_append, allWritten_inParens] at h
    exact isRow_condition c h.1 (s.isRow h.2)
  | .ifElse c yes no, _, h => by
    simp only [Stmt.pieces, allWritten_keyword, allWritten_space, allWritten_append, allWritten_inParens] at h
    refine isRow_condition c h.1 (isRow_append (yes.isRow h.2.1) (inRow_space ?_))
    exact isRow_in_front_of_space (.lexeme (.keyword .elseKw)) (no.isRow h.2.2)
  | .function decl, _, h => by
    simp only [Stmt.pieces, allWritten_keyword, allWritten_space] at h
    exact isRow_in_front_of_space (.lexeme (.keyword .functionKw)) (FunctionDecl.isRow decl h)
  | .return _ none, _, _ => isRow_keyword (endsLexeme_symbol .semicolon (by decide)) rightful_semicolon
  | .return _ (some e), _, h => by
    simp only [Stmt.pieces, Expr.piecesOption, allWritten_keyword, allWritten_append, allWritten_space] at h
    exact isRow_in_front_of_space (.lexeme (.keyword .returnKw)) (isRow_terminated e h.1)
  | .classDecl _ parent methods statics, rest, h => by
    simp only [Stmt.pieces, allWritten_keyword, allWritten_space, allWritten_name, allWritten_append,
      allWritten_inBraces] at h
    obtain ⟨hname, hparent, hmethods, hstatics⟩ := h
    refine isRow_in_front_of_space (.lexeme (.keyword .classKw)) (isRow_heading hname parent hparent ?_)
    refine isRow_inBraces ?_
    have hlines := FunctionDecl.isRow_lines (isRow_in_front_of_space (.lexeme (.keyword .staticKw))) statics hstatics
      (@ahead_closing rest)
    exact isRow_append (FunctionDecl.isRow_lines id methods hmethods hlines.2) hlines.1

theorem Stmt.isRow_lines : ∀ (ss : List (Stmt ι)) {rest : List Char}, AllWritten (Stmt.linePieces ss) →
    Ahead rest → IsRow (Stmt.linePieces ss) rest
  | [], _, _, hrest => ⟨inRow_nil, hrest⟩
  | s :: ss, _, h, hrest => by
    obtain ⟨hs, hss⟩ := allWritten_append.1 h
    exact isRow_append (s.isRow hs) (inRow_lineBreak (Stmt.isRow_lines ss (allWritten_lineBreak.1 hss) hrest))

theorem FunctionDecl.isRow : ∀ (d : FunctionDecl (Stmt ι)) {rest : List Char}, AllWritten (FunctionDecl.pieces d) →
    IsRow (FunctionDecl.pieces d) rest
  | ⟨_, params, body⟩, _, h => by
    simp only [FunctionDecl.pieces, allWritten_name, allWritten_append, allWritten_inParens, allWritten_withCommas,
      allWritten_space, allWritten_inBraces] at h
    obtain ⟨hname, hparams, hbody⟩ := h
    refine isRow_token hname nofun (endsLexeme_symbol .leftParen (by decide)) ?_
    refine (isRow_append (isRow_inParens (inRow_params hparams)) (inRow_space (isRow_inBraces ?_))).1
    exact Stmt.isRow_lines body hbody ahead_closing

theorem FunctionDecl.isRow_lines {front : List Piece} (hfront : ∀ {ps rest}, IsRow ps rest → IsRow (front ++ ps) rest) :
    ∀ (ds : List (FunctionDecl (Stmt ι))) {rest : List Char}, AllWritten (FunctionDecl.linePieces front ds) →
      Ahead rest → IsRow (FunctionDecl.linePieces front ds) rest
  | [], _, _, hrest => ⟨inRow_nil, hrest⟩
  | d :: ds, _, h, hrest => by
    obtain ⟨hd, hds⟩ := allWritten_append.1 (allWritten_append.1 h).2
    have hlines := FunctionDecl.isRow_lines hfront ds (allWritten_lineBreak.1 hds) hrest
    exact hfront (isRow_append (FunctionDecl.isRow d hd) (inRow_lineBreak hlines))

end

/-! ### The tokens of a text -/

/-- Pieces that are written as they can be have no errors, and their tokens are those among them. -/
lemma ofPieces_written : ∀ (line : Nat) (ps : List Piece), AllWritten ps →
    (Scan.ofPieces line ps).errors = [] ∧
      (Scan.ofPieces line ps).tokens.map Token.content = contents ps ++ [(.eof, "")]
  | _, [], _ => ⟨rfl, rfl⟩
  | line, p :: ps, h => by
    obtain ⟨hp, hps⟩ := List.forall_mem_cons.1 h
    obtain ⟨herrors, htokens⟩ := ofPieces_written (line + p.chars.count '\n') ps hps
    cases p with
    | blank text => exact ⟨herrors, htokens⟩
    | token kind text => exact ⟨herrors, congrArg ((kind, String.ofList text) :: ·) htokens⟩
    | comment | stray | openString | openComment => exact hp.elim

/-- **The tokens of the text of a program** are those that it is put together from, if its names and literals are
written as tokens can be. -/
theorem scan_text (P : Program ι) (h : AllWritten (Stmt.linePieces P)) :
    (Scan.ofString (Program.text P)).errors = [] ∧
      (Scan.ofString (Program.text P)).tokens.map Token.content = contents (Stmt.linePieces P) ++ [(.eof, "")] := by
  have hrow := (Stmt.isRow_lines P h ahead_nil).1
  have hsplit : Piece.split (Program.text P).toList = Stmt.linePieces P := by
    rw [Program.text, ← Stmt.charsOf_linePieces]
    exact hrow.split_eq
  have hscan : Scan.ofString (Program.text P) = Scan.ofPieces 1 (Stmt.linePieces P) := congrArg (Scan.ofPieces 1) hsplit
  rw [hscan]
  exact ofPieces_written 1 _ h

end ScriptLang
