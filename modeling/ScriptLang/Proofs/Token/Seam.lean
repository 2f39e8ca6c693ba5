import ScriptLang.Proofs.Token.Spelling

/-!
# Scanning across a line break

A text whose strings and comments are closed, a line break and another text: scanning them together gives what
scanning one after the other gives.  No token, no comment and no string of the first text reaches over the
line break; only a run of blanks does.

* `Recognizer.append_newline` — no recognizer looks over a line break;
* `first_append` — nor does the first piece of a text, if it is not open and not blank;
* `ofPieces_lower` — a text that begins on a later line;
* `scan_append`, `ofString_append_newline` — the theorem for whole texts.
-/

namespace ScriptLang

variable {c d : Char} {cs ds xs ys : List Char} {line : Nat}

/-! ### Recognizers -/

lemma takeWhile_append_newline {p : Char → Bool} (hp : p '\n' = false) :
    (xs ++ '\n' :: ys).takeWhile p = xs.takeWhile p := by
  induction xs with
  | nil => simp [hp]
  | cons x xs ih =>
    rw [List.cons_append, List.takeWhile_cons, List.takeWhile_cons, ih]

lemma isPrefixOf_append_newline {w : List Char} (hw : '\n' ∉ w) :
    w.isPrefixOf (xs ++ '\n' :: ys) = w.isPrefixOf xs := by
  induction w generalizing xs with
  | nil => simp
  | cons a w ih =>
    obtain ⟨ha, hw⟩ := not_or.1 (mt List.mem_cons.2 hw)
    cases xs with
    | nil => simp [List.isPrefixOf, Ne.symm ha]
    | cons x xs => simp [List.isPrefixOf, ih hw]

lemma newline_not_mem_spelling (s : Symbol) : '\n' ∉ s.spelling.toList := by
  cases s <;> decide

lemma fractionDigits_length (h : Recognizer.fractionDigits cs ≠ []) :
    (Recognizer.fractionDigits cs).length + 1 ≤ cs.length := by
  unfold Recognizer.fractionDigits at h ⊢
  split at h
  · exact Nat.succ_le_succ (List.takeWhile_prefix _).length_le
  · exact absurd rfl h

lemma fractionDigits_append_newline :
    Recognizer.fractionDigits (xs ++ '\n' :: ys) = Recognizer.fractionDigits xs := by
  cases xs with
  | nil => simp [Recognizer.fractionDigits]
  | cons x xs =>
    by_cases hx : x = '.'
    · subst hx
      exact takeWhile_append_newline (by decide)
    · simp [Recognizer.fractionDigits, hx]

/-- A recognizer's match lies within the text. -/
lemma Recognizer.length_le {r : Recognizer} {m : Match} (hr : r ∈ Recognizer.all) (h : r cs = some m) :
    m.length ≤ cs.length := by
  rcases Recognizer.mem_all_iff.1 hr with ⟨s, rfl⟩ | rfl | rfl
  · obtain ⟨hahead, rfl⟩ := Recognizer.symbol_eq_some_iff.1 h
    exact String.length_toList ▸ hahead.length_le
  · obtain ⟨-, rfl⟩ := Recognizer.word_eq_some_iff.1 h
    exact (List.takeWhile_prefix _).length_le
  · unfold Recognizer.number at h
    split at h
    · cases h
    · next whole hne =>
      have hwhole := (List.takeWhile_prefix (l := cs) Char.isDigit).length_le
      split at h
      · cases h
        exact hwhole
      · next hf =>
        cases h
        have hfraction := fractionDigits_length hf
        rw [List.length_drop] at hfraction
        show (cs.takeWhile Char.isDigit).length + 1 + _ ≤ cs.length
        omega

/-- No recognizer looks over a line break. -/
lemma Recognizer.append_newline (xs ys : List Char) {r : Recognizer} (hr : r ∈ Recognizer.all) :
    r (xs ++ '\n' :: ys) = r xs := by
  rcases Recognizer.mem_all_iff.1 hr with ⟨s, rfl⟩ | rfl | rfl
  · unfold Recognizer.symbol
    rw [isPrefixOf_append_newline (newline_not_mem_spelling s)]
  · unfold Recognizer.word
    rw [takeWhile_append_newline (by decide)]
  · have hdrop : (xs ++ '\n' :: ys).drop (xs.takeWhile Char.isDigit).length =
        xs.drop (xs.takeWhile Char.isDigit).length ++ '\n' :: ys :=
      List.drop_append_of_le_length (List.takeWhile_prefix _).length_le
    unfold Recognizer.number
    rw [takeWhile_append_newline (by decide)]
    cases hw : xs.takeWhile Char.isDigit with
    | nil => rfl
    | cons d ds =>
      rw [hw] at hdrop
      simp only [hdrop, fractionDigits_append_newline]

lemma longest_congr {rs : List Recognizer} (h : ∀ r ∈ rs, r xs = r ys) :
    Recognizer.longest rs xs = Recognizer.longest rs ys := by
  induction rs with
  | nil => rfl
  | cons r rs ih =>
    obtain ⟨hr, hrs⟩ := List.forall_mem_cons.1 h
    rw [Recognizer.longest, Recognizer.longest, hr, ih hrs]

/-! ### First pieces -/

/-- Whether the piece reaches the end of the text because nothing ends it. -/
def Piece.IsOpen : Piece → Prop
  | .openString _ | .openComment _ => True
  | _ => False

/-- Whether the error is for a piece that nothing ends. -/
def ScanError.IsOpen : ScanError → Prop
  | .unterminatedString _ | .unterminatedComment _ => True
  | .unexpectedCharacter .. => False

lemma commentEnd_append (ys : List Char) {n : Nat} (h : Piece.commentEnd xs = some n) :
    Piece.commentEnd (xs ++ ys) = some n ∧ n ≤ xs.length := by
  fun_induction Piece.commentEnd xs generalizing n with
  | case1 => cases h
  | case2 cs =>
    cases h
    exact ⟨rfl, by simp⟩
  | case3 c cs hnot ih =>
    obtain ⟨k, hk, rfl⟩ := Option.map_eq_some_iff.1 h
    obtain ⟨heq, hle⟩ := ih hk
    refine ⟨?_, Nat.succ_le_succ hle⟩
    rw [List.cons_append, Piece.commentEnd, heq]
    · rfl
    · rintro ds rfl hds
      cases cs with
      | nil => cases hk
      | cons e es =>
        obtain ⟨rfl, -⟩ := List.cons.inj hds
        exact hnot es rfl rfl

lemma closingQuote_append (ys : List Char) {n : Nat} (h : StringLiteral.closingQuote xs = some n) :
    StringLiteral.closingQuote (xs ++ ys) = some n ∧ n + 1 ≤ xs.length := by
  fun_induction StringLiteral.closingQuote xs generalizing n with
  | case1 => cases h
  | case2 cs =>
    cases h
    exact ⟨rfl, by simp⟩
  | case3 c cs ih =>
    obtain ⟨k, hk, rfl⟩ := Option.map_eq_some_iff.1 h
    obtain ⟨heq, hle⟩ := ih hk
    refine ⟨?_, Nat.succ_le_succ (Nat.succ_le_succ hle)⟩
    rw [List.cons_append, List.cons_append, StringLiteral.closingQuote, heq]
    rfl
  | case4 c cs hquote hback ih =>
    obtain ⟨k, hk, rfl⟩ := Option.map_eq_some_iff.1 h
    obtain ⟨heq, hle⟩ := ih hk
    refine ⟨?_, Nat.succ_le_succ hle⟩
    rw [List.cons_append, StringLiteral.closingQuote, heq]
    · rfl
    · exact hquote
    · rintro e es rfl hes
      cases cs with
      | nil => cases hk
      | cons a as =>
        obtain ⟨rfl, -⟩ := List.cons.inj hes
        exact hback a as rfl rfl

lemma ofBlockComment_append (h : ¬ (Piece.ofBlockComment xs).IsOpen) :
    Piece.ofBlockComment (xs ++ ys) = Piece.ofBlockComment xs ∧
      (Piece.ofBlockComment xs).chars.length ≤ xs.length + 2 := by
  rcases he : Piece.commentEnd xs with _ | n
  · rw [Piece.ofBlockComment, he] at h
    exact absurd trivial h
  · obtain ⟨heq, hle⟩ := commentEnd_append ys he
    simp only [Piece.ofBlockComment, he, heq, List.take_append_of_le_length hle, Piece.chars,
      List.length_cons, List.length_take, true_and]
    omega

lemma ofQuote_append (h : ¬ (Piece.ofQuote xs).IsOpen) :
    Piece.ofQuote (xs ++ ys) = Piece.ofQuote xs ∧ (Piece.ofQuote xs).chars.length ≤ xs.length + 1 := by
  rcases he : StringLiteral.closingQuote xs with _ | n
  · rw [Piece.ofQuote, he] at h
    exact absurd trivial h
  · obtain ⟨heq, hle⟩ := closingQuote_append ys he
    simp only [Piece.ofQuote, he, heq, List.take_append_of_le_length hle,
      List.take_append_of_le_length (Nat.le_of_succ_le hle), Piece.chars, List.length_cons,
      List.length_take, true_and]
    omega

lemma ofRecognizers_append (c : Char) (xs ys : List Char) :
    Piece.ofRecognizers c (xs ++ '\n' :: ys) = Piece.ofRecognizers c xs ∧
      (Piece.ofRecognizers c xs).chars.length ≤ xs.length + 1 := by
  have hcongr : Recognizer.longest Recognizer.all (c :: (xs ++ '\n' :: ys)) =
      Recognizer.longest Recognizer.all (c :: xs) :=
    longest_congr fun r hr => Recognizer.append_newline (c :: xs) ys hr
  rcases he : Recognizer.longest Recognizer.all (c :: xs) with _ | m
  · -- a stray character is stray in front of a line break too
    simp only [Piece.ofRecognizers, hcongr, he, Piece.chars, List.length_singleton, true_and]
    exact Nat.succ_le_succ (Nat.zero_le _)
  · obtain ⟨r, hr, hm⟩ := longest_mem he
    have hle : m.length ≤ (c :: xs).length := Recognizer.length_le hr hm
    have htake : (c :: (xs ++ '\n' :: ys)).take m.length = (c :: xs).take m.length :=
      List.take_append_of_le_length hle
    simp only [Piece.ofRecognizers, hcongr, he, htake, Piece.chars, List.length_take, true_and]
    exact Nat.min_le_right _ _

lemma eq_cons_of_append_newline (h : xs ++ '\n' :: ys = d :: ds) (hd : d ≠ '\n') : ∃ cs, xs = d :: cs := by
  cases xs with
  | nil => exact absurd (List.cons.inj h).1.symm hd
  | cons x xs => exact ⟨xs, by rw [(List.cons.inj h).1]⟩

/-- A first piece that is neither blank nor open does not reach over a line break. -/
lemma first_append (ys : List Char) (hc : Text.isBlank c = false) (h : ¬ (Piece.first c xs).IsOpen) :
    Piece.first c (xs ++ '\n' :: ys) = Piece.first c xs ∧
      (Piece.first c xs).chars.length ≤ xs.length + 1 := by
  unfold Piece.first at h ⊢
  simp only [hc, Bool.false_eq_true, if_false] at h ⊢
  split at h
  · next cs =>
    refine ⟨?_, ?_⟩
    · exact congrArg (fun zs => Piece.comment ('/' :: '/' :: zs)) (takeWhile_append_newline (by decide))
    · have hle := (List.takeWhile_prefix (l := cs) (· != '\n')).length_le
      simpa [Piece.chars] using hle
  · exact ofBlockComment_append h
  · exact ofQuote_append h
  · next hquote hline hblock =>
    obtain ⟨happend, hle⟩ := ofRecognizers_append c xs ys
    refine ⟨?_, hle⟩
    split
    · next heq =>
      obtain ⟨ds, hds⟩ := eq_cons_of_append_newline heq (by decide)
      exact absurd hds (hline ds rfl)
    · next heq =>
      obtain ⟨ds, hds⟩ := eq_cons_of_append_newline heq (by decide)
      exact absurd hds (hblock ds rfl)
    · exact absurd rfl hquote
    · exact happend

/-! ### Texts -/

lemma split_cons : Piece.split (c :: cs) =
    Piece.first c cs :: Piece.split (cs.drop ((Piece.first c cs).chars.length - 1)) := by
  rw [Piece.split]

/-- A blank in front of a text changes nothing but the lines. -/
lemma ofPieces_blank (hc : Text.isBlank c = true) :
    Scan.ofPieces line (Piece.split (c :: cs)) = Scan.ofPieces (line + [c].count '\n') (Piece.split cs) := by
  have hfirst : ∀ {d ds}, Text.isBlank d = true →
      Piece.first d ds = .blank (d :: ds.takeWhile Text.isBlank) := by
    intro d ds hd
    unfold Piece.first
    rw [if_pos hd]
  rw [split_cons, hfirst hc]
  cases cs with
  | nil => rfl
  | cons d ds =>
    by_cases hd : Text.isBlank d = true
    · rw [split_cons (c := d), hfirst hd, List.takeWhile_cons_of_pos hd]
      simp only [Scan.ofPieces, Piece.chars, List.length_cons, Nat.add_sub_cancel, List.drop_succ_cons]
      rw [Nat.add_assoc, List.count_cons (b := c), List.count_cons (b := c)]
      congr 1
      simp
      omega
    · rw [List.takeWhile_cons_of_neg hd]
      rfl

lemma errors_cons {piece : Piece} {pieces : List Piece}
    (h : ∀ e ∈ (Scan.ofPieces line (piece :: pieces)).errors, ¬ e.IsOpen) :
    ¬ piece.IsOpen ∧ ∀ e ∈ (Scan.ofPieces (line + piece.chars.count '\n') pieces).errors, ¬ e.IsOpen := by
  cases piece with
  | blank | comment | token => exact ⟨id, h⟩
  | stray => exact ⟨id, (List.forall_mem_cons.1 h).2⟩
  | openString | openComment => exact absurd trivial (List.forall_mem_cons.1 h).1

/-- **Scanning goes across a line break** behind a text without open strings and comments: the tokens of the
text, but for the end mark, and its errors, and then what the other text gives on the lines behind. -/
theorem scan_append {xs : List Char} (ys : List Char) {line : Nat}
    (h : ∀ e ∈ (Scan.ofPieces line (Piece.split xs)).errors, ¬ e.IsOpen) :
    ∃ ts last, (∀ t ∈ ts, t.kind ≠ .eof) ∧
      (Scan.ofPieces line (Piece.split xs)).tokens = ts ++ [⟨.eof, "", last⟩] ∧
      Scan.ofPieces line (Piece.split (xs ++ '\n' :: ys)) =
        ⟨ts ++ (Scan.ofPieces (last + 1) (Piece.split ys)).tokens,
          (Scan.ofPieces line (Piece.split xs)).errors ++ (Scan.ofPieces (last + 1) (Piece.split ys)).errors⟩ := by
  induction hn : xs.length using Nat.strongRecOn generalizing xs line with
  | ind n ih =>
    subst hn
    cases xs with
    | nil =>
      have hnone : Scan.ofPieces line (Piece.split []) = ⟨[⟨.eof, "", line⟩], []⟩ := by rw [Piece.split]; rfl
      rw [hnone]
      exact ⟨[], line, List.forall_mem_nil _, rfl, ofPieces_blank (by decide)⟩
    | cons c cs =>
      by_cases hc : Text.isBlank c = true
      · rw [ofPieces_blank hc] at h ⊢
        rw [List.cons_append, ofPieces_blank hc]
        exact ih cs.length (Nat.lt_succ_self _) h rfl
      · rw [split_cons] at h ⊢
        obtain ⟨hclosed, hrest⟩ := errors_cons h
        obtain ⟨hfirst, hle⟩ := first_append ys (Bool.eq_false_iff.2 hc) hclosed
        obtain ⟨ts, last, hts, htokens, happend⟩ := ih _ (Nat.lt_succ_of_le (by
          rw [List.length_drop]
          exact Nat.sub_le _ _)) hrest rfl
        rw [List.cons_append, split_cons, hfirst, List.drop_append_of_le_length (by omega)]
        generalize hp : Piece.first c cs = piece at *
        cases piece with
        | openString | openComment => exact absurd trivial hclosed
        | blank | comment =>
          exact ⟨ts, last, hts, htokens, happend⟩
        | stray char =>
          refine ⟨ts, last, hts, htokens, ?_⟩
          rw [Scan.ofPieces, happend]
          rfl
        | token kind text =>
          refine ⟨⟨kind, String.ofList text, line⟩ :: ts, last, List.forall_mem_cons.2 ⟨?_, hts⟩, ?_, ?_⟩
          · rintro rfl
            exact first_spells hp
          · rw [Scan.ofPieces, htokens]
            rfl
          · rw [Scan.ofPieces, happend]
            rfl

/-- The same error on a later line. -/
def ScanError.lower (k : Nat) : ScanError → ScanError
  | unexpectedCharacter char line => .unexpectedCharacter char (line + k)
  | unterminatedString line => .unterminatedString (line + k)
  | unterminatedComment line => .unterminatedComment (line + k)

/-- The same tokens and errors on later lines. -/
def Scan.lower (k : Nat) (scan : Scan) : Scan where
  tokens := scan.tokens.map fun t => { t with line := t.line + k }
  errors := scan.errors.map (·.lower k)

/-- A text that begins on a later line. -/
lemma ofPieces_lower (pieces : List Piece) (k : Nat) :
    Scan.ofPieces (line + k) pieces = (Scan.ofPieces line pieces).lower k := by
  induction pieces generalizing line with
  | nil => rfl
  | cons piece pieces ih =>
    rw [Scan.ofPieces.eq_def, Scan.ofPieces.eq_def line]
    simp only [Nat.add_right_comm line k, ih]
    cases piece <;> rfl

/-- **Two texts with a line break between them** have the tokens and the errors of both, if the strings and comments
of the first are closed; the end mark between them is gone, and the lines of the second go on behind those of the
first. -/
theorem ofString_append_newline {a : String} (b : String) (h : ∀ e ∈ (Scan.ofString a).errors, ¬ e.IsOpen) :
    ∃ ts last, (∀ t ∈ ts, t.kind ≠ .eof) ∧ (Scan.ofString a).tokens = ts ++ [⟨.eof, "", last⟩] ∧
      Scan.ofString (a ++ "\n" ++ b) = ⟨ts ++ ((Scan.ofString b).lower last).tokens,
        (Scan.ofString a).errors ++ ((Scan.ofString b).lower last).errors⟩ := by
  obtain ⟨ts, last, hts, htokens, happend⟩ := scan_append b.toList h
  refine ⟨ts, last, hts, htokens, ?_⟩
  have htext : (a ++ "\n" ++ b).toList = a.toList ++ '\n' :: b.toList := by simp
  unfold Scan.ofString Scan.ofChars
  rw [htext, happend, Nat.add_comm last 1, ofPieces_lower]

end ScriptLang
