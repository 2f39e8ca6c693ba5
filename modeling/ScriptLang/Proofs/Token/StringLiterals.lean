import Mathlib
import ScriptLang.Proofs.Token.Segmentation

/-!
# String literals

Whether a quote closes a string depends on the backslashes directly in front of it: two and two of them belong
together, and one that is left over takes the quote.  So the scanner, which reads a string from left to right, ends it
at the first quote behind an even number of backslashes.

* `backslashes`, `ClosedBy`, `FirstClosedBy` — the quotes that close a string, and the first of them;
* `StringBody.closedBy`, `closingQuote_ne_none` — reading from left to right ends at the first of them;
* `StandsFor` — what a body stands for, pair by pair;
* `StringBody.fromLine`, `fromLine_openString` — scanning from the quote of a string on;
* `strings_decoded` — the theorem.
-/

namespace ScriptLang

variable {c : Char} {cs body value rest : List Char}

/-! ### Quotes behind backslashes -/

/-- How many backslashes there are at the end of a text without a gap. -/
def backslashes (cs : List Char) : Nat := (cs.rtakeWhile (· == '\\')).length

/-- In the text behind the quote that opens a string, a quote stands behind `body`, with an even number of backslashes
directly in front of it. -/
structure ClosedBy (cs body rest : List Char) : Prop where
  text : cs = body ++ '"' :: rest
  even : Even (backslashes body)

/-- It is the first such quote. -/
structure FirstClosedBy (cs body rest : List Char) : Prop extends ClosedBy cs body rest where
  first : ∀ body' rest', ClosedBy cs body' rest' → body.length ≤ body'.length

lemma backslashes_concat (cs : List Char) (c : Char) :
    backslashes (cs ++ [c]) = if c = '\\' then backslashes cs + 1 else 0 := by
  unfold backslashes
  rw [List.rtakeWhile_concat]
  by_cases hc : c = '\\' <;> simp [hc]

/-- Another character in front does not count. -/
lemma backslashes_cons (hc : c ≠ '\\') (cs : List Char) : backslashes (c :: cs) = backslashes cs := by
  induction cs using List.reverseRecOn with
  | nil => exact (backslashes_concat [] c).trans (if_neg hc)
  | append_singleton cs d ih => rw [← List.cons_append, backslashes_concat, backslashes_concat, ih]

/-- With a backslash and any character in front there are as many as before, or two more. -/
lemma backslashes_pair (c : Char) (cs : List Char) :
    Even (backslashes ('\\' :: c :: cs)) ↔ Even (backslashes cs) := by
  induction cs using List.reverseRecOn with
  | nil =>
    have hpair := backslashes_concat ['\\'] c
    have hone := backslashes_concat [] '\\'
    simp only [List.singleton_append, List.nil_append, if_true] at hpair hone
    rw [hpair, hone]
    by_cases hc : c = '\\' <;> simp [hc, backslashes]
  | append_singleton cs d ih =>
    rw [← List.cons_append, ← List.cons_append, backslashes_concat, backslashes_concat]
    by_cases hd : d = '\\'
    · simp only [hd, if_true, Nat.even_add_one, ih]
    · simp only [hd, if_false]

lemma ClosedBy.cons (hc : c ≠ '\\') (h : ClosedBy cs body rest) : ClosedBy (c :: cs) (c :: body) rest :=
  ⟨by rw [h.text]; rfl, by rw [backslashes_cons hc]; exact h.even⟩

lemma ClosedBy.pair (c : Char) (h : ClosedBy cs body rest) : ClosedBy ('\\' :: c :: cs) ('\\' :: c :: body) rest :=
  ⟨by rw [h.text]; rfl, (backslashes_pair c body).2 h.even⟩

/-- A quote that closes a string behind another character stands behind that character or is it. -/
lemma ClosedBy.of_cons (hc : c ≠ '\\') (hquote : c ≠ '"') (h : ClosedBy (c :: cs) body rest) :
    ∃ body', body = c :: body' ∧ ClosedBy cs body' rest := by
  obtain ⟨htext, heven⟩ := h
  cases body with
  | nil => exact absurd (List.cons.inj htext).1 hquote
  | cons d body' =>
    obtain ⟨rfl, rfl⟩ := List.cons.inj htext
    exact ⟨body', rfl, rfl, by rwa [backslashes_cons hc] at heven⟩

/-- A quote that closes a string behind a backslash stands behind the character that belongs to that. -/
lemma ClosedBy.of_pair (h : ClosedBy ('\\' :: c :: cs) body rest) :
    ∃ body', body = '\\' :: c :: body' ∧ ClosedBy cs body' rest := by
  obtain ⟨htext, heven⟩ := h
  match body with
  | [] => exact absurd (List.cons.inj htext).1 (by decide)
  | [d] =>
    obtain ⟨rfl, -⟩ := List.cons.inj htext
    exact absurd heven (by decide)
  | d :: e :: body' =>
    obtain ⟨rfl, hbehind⟩ := List.cons.inj htext
    obtain ⟨rfl, rfl⟩ := List.cons.inj hbehind
    exact ⟨body', rfl, rfl, (backslashes_pair _ body').1 heven⟩

/-! ### Reading from left to right -/

/-- The quote behind a body closes the string, and none in the body does. -/
lemma StringBody.closedBy (h : StringBody body value) (rest : List Char) :
    FirstClosedBy (body ++ '"' :: rest) body rest := by
  induction h with
  | nil => exact ⟨⟨rfl, by decide⟩, fun _ _ _ => Nat.zero_le _⟩
  | plain hquote hback _ ih =>
    refine ⟨ih.toClosedBy.cons hback, fun body' rest' h' => ?_⟩
    obtain ⟨body'', rfl, hlater⟩ := h'.of_cons hback hquote
    exact Nat.succ_le_succ (ih.first body'' rest' hlater)
  | escaped c _ ih =>
    refine ⟨ih.toClosedBy.pair c, fun body' rest' h' => ?_⟩
    obtain ⟨body'', rfl, hlater⟩ := h'.of_pair
    exact Nat.succ_le_succ (Nat.succ_le_succ (ih.first body'' rest' hlater))

/-- A string with a quote that closes it is closed. -/
lemma closingQuote_ne_none (h : ClosedBy cs body rest) : StringLiteral.closingQuote cs ≠ none := by
  fun_induction StringLiteral.closingQuote cs generalizing body with
  | case1 => exact absurd h.text.symm (by simp)
  | case2 cs => exact Option.some_ne_none 0
  | case3 c cs ih =>
    obtain ⟨body', -, h'⟩ := h.of_pair
    exact mt Option.map_eq_none_iff.1 (ih h')
  | case4 c cs hquote hback ih =>
    have hback : c ≠ '\\' := by
      rintro rfl
      cases cs with
      | nil => cases body with
        | nil => exact absurd (List.cons.inj h.text).1 (by decide)
        | cons d body => exact absurd (List.cons.inj h.text).2.symm (by simp)
      | cons d ds => exact hback d ds rfl rfl
    obtain ⟨body', -, h'⟩ := h.of_cons hback hquote
    exact mt Option.map_eq_none_iff.1 (ih h')

/-! ### What a body stands for -/

/-- What a text stands for, read from left to right: a backslash with an `n`, a `t`, a quote or a backslash behind it is
a line break, a tab, a quote or a backslash, and each other pair stands for itself. -/
inductive StandsFor : List Char → List Char → Prop
  | nil : StandsFor [] []
  | plain {c : Char} {cs ds : List Char} : c ≠ '\\' → StandsFor cs ds → StandsFor (c :: cs) (c :: ds)
  | lineBreak {cs ds : List Char} : StandsFor cs ds → StandsFor ('\\' :: 'n' :: cs) ('\n' :: ds)
  | tab {cs ds : List Char} : StandsFor cs ds → StandsFor ('\\' :: 't' :: cs) ('\t' :: ds)
  | quote {cs ds : List Char} : StandsFor cs ds → StandsFor ('\\' :: '"' :: cs) ('"' :: ds)
  | backslash {cs ds : List Char} : StandsFor cs ds → StandsFor ('\\' :: '\\' :: cs) ('\\' :: ds)
  | other {c : Char} {cs ds : List Char} : c ∉ ['n', 't', '"', '\\'] → StandsFor cs ds →
    StandsFor ('\\' :: c :: cs) ('\\' :: c :: ds)

lemma StringBody.standsFor (h : StringBody body value) : StandsFor body value := by
  induction h with
  | nil => exact .nil
  | plain _ hback _ ih => exact .plain hback ih
  | escaped c _ ih =>
    unfold StringLiteral.escape
    split
    · exact .lineBreak ih
    · exact .tab ih
    · exact .quote ih
    · exact .backslash ih
    · next hn ht hquote hback => exact .other (by simpa using ⟨hn, ht, hquote, hback⟩) ih

lemma encode_stringBody (s : List Char) : StringBody (StringLiteral.encode s) s := by
  induction s with
  | nil => exact .nil
  | cons c s ih =>
    rw [StringLiteral.encode]
    by_cases hc : c = '"' ∨ c = '\\'
    · rw [if_pos hc]
      rcases hc with rfl | rfl <;> exact .escaped _ ih
    · rw [if_neg hc]
      obtain ⟨hquote, hback⟩ := not_or.1 hc
      exact .plain hquote hback ih

lemma count_encode (s : List Char) : (StringLiteral.encode s).count '\n' = s.count '\n' := by
  induction s with
  | nil => rfl
  | cons c s ih =>
    rw [StringLiteral.encode]
    split
    · rw [List.count_cons_of_ne (by decide), List.count_cons, List.count_cons, ih]
    · rw [List.count_cons, List.count_cons, ih]

/-- A text as it is written in a string: each quote and each backslash has a backslash in front of it. -/
def quoted (s : String) : String := String.ofList (StringLiteral.encode s.toList)

/-! ### Scanning from a quote on -/

/-- A scan in front of which a token was found. -/
def Scan.behind (scan : Scan) (t : Token) : Scan := { scan with tokens := t :: scan.tokens }

/-- The token of a string, and what stands behind it. -/
lemma StringBody.fromLine (h : StringBody body value) (line : Nat) (rest : List Char) :
    Scan.fromLine line ('"' :: (body ++ '"' :: rest)) = (Scan.fromLine (line + body.count '\n') rest).behind
      ⟨.string (String.ofList value), String.ofList ('"' :: (body ++ ['"'])), line⟩ := by
  have hpiece : (Piece.token (.string (String.ofList value)) ('"' :: (body ++ ['"']))).Rightful rest := .string h
  have hcount : ('"' :: (body ++ ['"'])).count '\n' = body.count '\n' := by simp
  have htext : (Piece.token (.string (String.ofList value)) ('"' :: (body ++ ['"']))).chars ++ rest =
      '"' :: (body ++ '"' :: rest) := by simp [Piece.chars]
  unfold Scan.fromLine
  rw [hpiece.split_eq htext, Scan.ofPieces.eq_def]
  simp only [Piece.chars, hcount]
  rfl

/-- A string that no quote closes reaches the end of the text. -/
lemma fromLine_openString (h : ∀ body rest, ¬ ClosedBy cs body rest) (line : Nat) :
    Scan.fromLine line ('"' :: cs) = ⟨[⟨.eof, "", line + cs.count '\n'⟩], [.unterminatedString line]⟩ := by
  have hpiece : (Piece.openString ('"' :: cs)).Rightful [] := by
    refine .openString fun body value hbody ⟨rest, htext⟩ => h body rest ?_
    rw [← htext, List.append_assoc]
    exact (hbody.closedBy rest).toClosedBy
  have htext : (Piece.openString ('"' :: cs)).chars ++ [] = '"' :: cs := List.append_nil _
  unfold Scan.fromLine
  rw [hpiece.split_eq htext, Scan.ofPieces.eq_def]
  simp [Piece.chars, Piece.split, Scan.ofPieces]

/-- **A string ends at the first quote behind an even number of backslashes, and stands for its body, pair by pair.**
Behind a quote there is a token exactly if some quote has an even number of backslashes directly in front of it.  The
token ends with the first of these quotes, it is a string with what its body stands for as its value, and scanning goes
on behind it, as many lines further down as the body has line breaks; without such a quote, all that is left is told as
an open string.  So every text is read back, whatever stands behind it, if it is written between quotes with a backslash
in front of each quote and each backslash. -/
theorem strings_decoded :
    (∀ cs, (∃ kind text, Piece.first '"' cs = .token kind text) ↔ ∃ body rest, ClosedBy cs body rest) ∧
    (∀ line cs, (∃ body value rest, FirstClosedBy cs body rest ∧ StandsFor body value ∧
        Scan.fromLine line ('"' :: cs) = (Scan.fromLine (line + body.count '\n') rest).behind
          ⟨.string (String.ofList value), String.ofList ('"' :: (body ++ ['"'])), line⟩) ∨
      (∀ body rest, ¬ ClosedBy cs body rest) ∧
        Scan.fromLine line ('"' :: cs) = ⟨[⟨.eof, "", line + cs.count '\n'⟩], [.unterminatedString line]⟩) ∧
    ∀ s rest : String, Scan.ofString ("\"" ++ quoted s ++ "\"" ++ rest) =
      (Scan.fromLine (1 + s.toList.count '\n') rest.toList).behind ⟨.string s, "\"" ++ quoted s ++ "\"", 1⟩ := by
  refine ⟨fun cs => ?_, fun line cs => ?_, fun s rest => ?_⟩
  · have hfirst : Piece.first '"' cs = Piece.ofQuote cs := rfl
    rw [hfirst]
    constructor
    · rintro ⟨kind, text, h⟩
      rcases closingQuote_cases cs with hnone | ⟨body, value, rest, rfl, hbody⟩
      · rw [Piece.ofQuote, hnone] at h
        cases h
      · exact ⟨body, rest, (hbody.closedBy rest).toClosedBy⟩
    · rintro ⟨body, rest, h⟩
      obtain ⟨n, hn⟩ := Option.ne_none_iff_exists'.1 (closingQuote_ne_none h)
      rw [Piece.ofQuote, hn]
      exact ⟨_, _, rfl⟩
  · rcases closingQuote_cases cs with hnone | ⟨body, value, rest, rfl, hbody⟩
    · have hopen : ∀ body rest, ¬ ClosedBy cs body rest := fun _ _ h => closingQuote_ne_none h hnone
      exact .inr ⟨hopen, fromLine_openString hopen line⟩
    · exact .inl ⟨body, value, rest, hbody.closedBy rest, hbody.standsFor, hbody.fromLine line rest⟩
  · have hscan := (encode_stringBody s.toList).fromLine 1 rest.toList
    have htext : ("\"" ++ quoted s ++ "\"" ++ rest).toList =
        '"' :: (StringLiteral.encode s.toList ++ '"' :: rest.toList) := by simp [quoted]
    have hlexeme : String.ofList ('"' :: (StringLiteral.encode s.toList ++ ['"'])) = "\"" ++ quoted s ++ "\"" := by
      rw [← String.toList_inj]
      simp [quoted]
    rw [count_encode, String.ofList_toList, hlexeme, ← htext] at hscan
    exact hscan

end ScriptLang
