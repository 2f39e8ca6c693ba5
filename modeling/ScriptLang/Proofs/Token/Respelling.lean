import ScriptLang.Proofs.Token.Segmentation

/-!
# Writing tokens out again

The lexemes of a text, written one behind the other with a blank between them, are scanned as the same tokens
again, and nothing is at fault any more.  A blank ends every lexeme where it stands, since no lexeme holds one; and
a string ends with its own quote.

* `Lexeme.isLongest_space` — in front of a blank a lexeme is the longest;
* `Piece.Rightful.space` — in front of a blank a token is the right piece, wherever it comes from;
* `spaced_rightful` — the pieces of tokens with blanks behind them;
* `scan_respelled` — the theorem.
-/

namespace ScriptLang

variable {text other rest rest' : List Char} {kind kind' : Kind} {c : Char} {t : Token} {ts : List Token} {line : Nat}

/-! ### A token in front of a blank -/

/-- A lexeme does not reach over a blank. -/
lemma Lexeme.length_le_of_space (h : Lexeme other kind') (ht : other <+: text ++ ' ' :: rest) :
    other.length ≤ text.length := by
  refine Nat.le_of_not_lt fun hlonger => ?_
  have hover : text ++ [' '] <+: other := by
    refine List.prefix_of_prefix_length_le ⟨rest, by simp⟩ ht ?_
    rw [List.length_append, List.length_singleton]
    exact hlonger
  have hblank : ' ' ∈ other := hover.subset (List.mem_append_right _ (List.mem_singleton_self _))
  exact absurd (h.visible ' ' hblank).1 (by decide)

lemma Lexeme.isLongest_space (h : Lexeme text kind) : IsLongest text kind (text ++ ' ' :: rest) :=
  ⟨h, List.prefix_append _ _, fun _ _ ho ht => ho.length_le_of_space ht⟩

/-- Two characters that do not begin a lexeme with what follows do not begin it in front of a blank. -/
lemma not_prefix_space (htext : text ≠ []) (hc : c ≠ ' ') (h : ¬ ['/', c] <+: text ++ rest) :
    ¬ ['/', c] <+: text ++ ' ' :: rest' := by
  rintro ⟨ds, hds⟩
  match text, htext with
  | [_], _ => exact hc (List.cons.inj (List.cons.inj hds).2).1
  | d :: e :: text, _ =>
    obtain ⟨hd, hds⟩ := List.cons.inj hds
    obtain ⟨he, -⟩ := List.cons.inj hds
    exact h ⟨text ++ rest, by rw [hd, he]; rfl⟩

/-- What is the right token in front of some text is the right one in front of a blank. -/
lemma Piece.Rightful.space (h : (Piece.token kind text).Rightful rest) (rest' : List Char) :
    (Piece.token kind text).Rightful (' ' :: rest') := by
  have hne : text ≠ [] := h.chars_ne_nil
  cases h with
  | string hbody => exact .string hbody
  | lexeme hlongest hline hblock =>
    exact .lexeme hlongest.lexeme.isLongest_space (not_prefix_space hne (by decide) hline)
      (not_prefix_space hne (by decide) hblock)

lemma Piece.Rightful.not_blank (h : (Piece.token kind text).Rightful rest) :
    ∀ c ∈ (text ++ rest').head?, Text.isBlank c = false := by
  intro c hc
  cases h with
  | string =>
    obtain rfl := Option.some.inj hc
    decide
  | lexeme hlongest =>
    obtain ⟨d, ds, rfl, -⟩ := hlongest.lexeme.opens
    obtain rfl := Option.some.inj hc
    exact (hlongest.lexeme.visible _ List.mem_cons_self).not_blank

/-! ### All tokens of a text -/

/-- The token is the right piece in front of some text. -/
def Token.IsPiece (t : Token) : Prop := ∃ rest, (Piece.token t.kind t.lexeme.toList).Rightful rest

/-- The tokens as pieces, with a blank behind each. -/
def spacedPieces (ts : List Token) : List Piece :=
  ts.flatMap fun t => [.token t.kind t.lexeme.toList, .blank [' ']]

/-- No blank is at the start of tokens with blanks behind them. -/
lemma spaced_head (h : ∀ t ∈ ts, t.IsPiece) :
    ∀ c ∈ ((spacedPieces ts).flatMap Piece.chars).head?, Text.isBlank c = false := by
  cases ts with
  | nil => exact fun c hc => absurd hc (Option.not_mem_none c)
  | cons t ts =>
    obtain ⟨rest, hright⟩ := h t List.mem_cons_self
    exact hright.not_blank

/-- Tokens with blanks behind them are the right pieces. -/
lemma spaced_rightful (h : ∀ t ∈ ts, t.IsPiece) : ∀ before piece after, spacedPieces ts = before ++ piece :: after →
    piece.Rightful (after.flatMap Piece.chars) := by
  induction ts with
  | nil => exact fun before _ _ heq => absurd heq (by simp [spacedPieces])
  | cons t ts ih =>
    obtain ⟨⟨rest, hright⟩, hlater⟩ := List.forall_mem_cons.1 h
    have hblank : IsRun Text.isBlank [' '] := ⟨List.cons_ne_nil _ _, List.forall_mem_singleton.2 (by decide)⟩
    show ∀ before piece after, .token t.kind t.lexeme.toList :: .blank [' '] :: spacedPieces ts =
      before ++ piece :: after → _
    rw [rightful_cons, rightful_cons]
    exact ⟨hright.space _, .blank hblank (spaced_head hlater), ih hlater⟩

/-! ### The text that is written out -/

/-- The tokens written out, with one blank between any two. -/
def Scan.respelled (scan : Scan) : String := " ".intercalate (scan.tokens.map Token.lexeme)

/-- What a token is and how it is written, wherever it stands. -/
def Token.content (t : Token) : Kind × String := (t.kind, t.lexeme)

/-- The mark of the end is written with no characters, so there is a blank behind the last of the others. -/
lemma respelled_chars (ts : List Token) (last : Nat) (errors : List ScanError) :
    (Scan.respelled ⟨ts ++ [⟨.eof, "", last⟩], errors⟩).toList = (spacedPieces ts).flatMap Piece.chars := by
  unfold Scan.respelled
  rw [String.toList_intercalate]
  induction ts with
  | nil => rfl
  | cons t ts ih =>
    obtain ⟨u, us, hus⟩ : ∃ u us, ts ++ [⟨.eof, "", last⟩] = u :: us :=
      List.exists_cons_of_ne_nil (List.append_ne_nil_of_right_ne_nil _ (List.cons_ne_nil _ _))
    simp only [hus, List.map_cons] at ih
    simp only [List.cons_append, hus, List.map_cons, List.intercalate_cons_cons, ih]
    simp [spacedPieces, Piece.chars]

lemma ofPieces_spaced (line : Nat) (ts : List Token) : (Scan.ofPieces line (spacedPieces ts)).errors = [] ∧
    (Scan.ofPieces line (spacedPieces ts)).tokens.map Token.content = ts.map Token.content ++ [(.eof, "")] := by
  induction ts generalizing line with
  | nil => exact ⟨rfl, rfl⟩
  | cons t ts ih =>
    obtain ⟨herrors, htokens⟩ := ih (line + t.lexeme.toList.count '\n' + [' '].count '\n')
    have hcontent : Token.content ⟨t.kind, String.ofList t.lexeme.toList, line⟩ = t.content := by
      rw [String.ofList_toList]
      rfl
    refine ⟨herrors, ?_⟩
    show Token.content _ :: (Scan.ofPieces _ (spacedPieces ts)).tokens.map Token.content = _
    rw [hcontent]
    exact congrArg (t.content :: ·) htokens

/-- **Scanning tokens that are written out changes nothing.**  Whatever a text holds, errors included, its tokens are
written out, with one blank between any two, as a text without errors that has the same tokens: of the same kinds,
with the same values, and written alike. -/
theorem scan_respelled (source : String) :
    (Scan.ofString (Scan.ofString source).respelled).errors = [] ∧
      (Scan.ofString (Scan.ofString source).respelled).tokens.map Token.content =
        (Scan.ofString source).tokens.map Token.content := by
  have hseg := segmentation_ofString source
  have hend := hseg.tokens_end
  have hpieces : ∀ t ∈ (Scan.ofString source).tokens.dropLast, t.IsPiece := fun _ ht => hseg.rightful_token ht
  generalize (Scan.ofString source).tokens.dropLast = ts at hend hpieces
  have hsplit : Piece.split (Scan.ofString source).respelled.toList = spacedPieces ts := by
    have htext := respelled_chars ts (1 + source.toList.count '\n') (Scan.ofString source).errors
    rw [← hend] at htext
    rw [htext]
    exact split_unique (spaced_rightful hpieces)
  obtain ⟨herrors, hagain⟩ := ofPieces_spaced 1 ts
  have hscan : Scan.ofString (Scan.ofString source).respelled = Scan.ofPieces 1 (spacedPieces ts) :=
    congrArg (Scan.ofPieces 1) hsplit
  rw [hscan]
  refine ⟨herrors, hagain.trans ?_⟩
  rw [hend, List.map_append]
  rfl

end ScriptLang
