import ScriptLang.Proofs.Token.Lexeme

/-!
# Cutting a text into its pieces

Scanning loses nothing, takes nothing twice and puts every piece on its line.  What the right piece at a place
is can be said without looking at how it is found: blanks and line comments go on as far as they can, a block
comment and a string end where they first can, and a token is the longest lexeme.

* `Piece.Rightful` — the right piece in front of a text;
* `first_rightful`, `Piece.Rightful.first_eq` — the first piece of a text is the right one, and no other is;
* `Segmentation` — a text, its pieces, and the tokens and errors on their lines;
* `scan_segmentation` — every text has exactly one segmentation, and scanning gives it.
-/

namespace ScriptLang

/-! ### The right pieces -/

/-- What may stand between the quotes of a string, and the text that it stands for: a backslash and the
character behind it belong together, and no quote stands alone. -/
inductive StringBody : List Char → List Char → Prop
  | nil : StringBody [] []
  | plain {c body value} : c ≠ '"' → c ≠ '\\' → StringBody body value → StringBody (c :: body) (c :: value)
  | escaped (c : Char) {body value} : StringBody body value →
    StringBody ('\\' :: c :: body) (StringLiteral.escape c ++ value)

/-- The right piece in front of the rest of a text. -/
inductive Piece.Rightful : Piece → List Char → Prop
  /-- A run of blanks goes on as far as it can. -/
  | blank {text rest} : IsRun Text.isBlank text → (∀ c ∈ rest.head?, Text.isBlank c = false) →
    Rightful (.blank text) rest
  /-- A line comment ends in front of the line break. -/
  | lineComment {text rest} : '\n' ∉ text → (∀ c ∈ rest.head?, c = '\n') →
    Rightful (.comment ('/' :: '/' :: text)) rest
  /-- A block comment ends with the first mark that can end it. -/
  | blockComment {text rest} : ¬ ['*', '/'] <:+: text ++ ['*'] →
    Rightful (.comment ('/' :: '*' :: (text ++ ['*', '/']))) rest
  /-- A string ends with the first quote that is not escaped. -/
  | string {body value rest} : StringBody body value →
    Rightful (.token (.string (String.ofList value)) ('"' :: (body ++ ['"']))) rest
  /-- Any other token is the longest lexeme, where no comment begins. -/
  | lexeme {text kind rest} : IsLongest text kind (text ++ rest) → ¬ ['/', '/'] <+: text ++ rest →
    ¬ ['/', '*'] <+: text ++ rest → Rightful (.token kind text) rest
  /-- A character is stray if nothing else begins there. -/
  | stray {c rest} : Text.isBlank c = false → c ≠ '"' →
    (∀ text kind, Lexeme text kind → ¬ text <+: c :: rest) → Rightful (.stray c) rest
  /-- A string is open if no quote ends it; then it reaches the end of the text. -/
  | openString {text} : (∀ body value, StringBody body value → ¬ body ++ ['"'] <+: text) →
    Rightful (.openString ('"' :: text)) []
  /-- A block comment is open if no mark ends it; then it reaches the end of the text. -/
  | openComment {text} : ¬ ['*', '/'] <:+: text → Rightful (.openComment ('/' :: '*' :: text)) []

/-! ### Where comments and strings end -/

variable {text cs rest body value : List Char} {kind : Kind} {c : Char} {piece : Piece} {pieces : List Piece}
  {line : Nat}

lemma commentEnd_eq_some (h : ¬ ['*', '/'] <:+: text ++ ['*']) (rest : List Char) :
    Piece.commentEnd (text ++ '*' :: '/' :: rest) = some (text.length + 2) := by
  induction text with
  | nil => rfl
  | cons c text ih =>
    obtain ⟨hstart, hlater⟩ := not_or.1 (mt List.infix_cons_iff.2 h)
    rw [List.cons_append, Piece.commentEnd, ih hlater]
    · rfl
    · rintro ds rfl hds
      refine hstart ?_
      cases text with
      | nil =>
        rw [List.nil_append, List.cons.injEq] at hds
        exact absurd hds.1 (by decide)
      | cons d text =>
        obtain ⟨rfl, -⟩ := List.cons.inj hds
        exact ⟨text ++ ['*'], rfl⟩

lemma commentEnd_cases (cs : List Char) :
    (Piece.commentEnd cs = none ∧ ¬ ['*', '/'] <:+: cs) ∨
      ∃ text rest, cs = text ++ '*' :: '/' :: rest ∧ ¬ ['*', '/'] <:+: text ++ ['*'] := by
  fun_induction Piece.commentEnd cs with
  | case1 => exact .inl ⟨rfl, by simp⟩
  | case2 cs => exact .inr ⟨[], cs, rfl, by decide⟩
  | case3 c cs hnot ih =>
    have hstart : ∀ {ds}, ['*', '/'] <+: c :: ds → ∃ es, c = '*' ∧ ds = '/' :: es := by
      rintro ds ⟨es, hes⟩
      obtain ⟨rfl, rfl⟩ := List.cons.inj hes
      exact ⟨es, rfl, rfl⟩
    rcases ih with ⟨hnone, hlater⟩ | ⟨text, rest, rfl, hlater⟩
    · refine .inl ⟨by rw [hnone]; rfl, fun h => ?_⟩
      rcases List.infix_cons_iff.1 h with h | h
      · obtain ⟨es, rfl, rfl⟩ := hstart h
        exact hnot es rfl rfl
      · exact hlater h
    · refine .inr ⟨c :: text, rest, rfl, fun h => ?_⟩
      rcases List.infix_cons_iff.1 h with h | h
      · obtain ⟨es, rfl, hes⟩ := hstart h
        cases text with
        | nil => exact absurd (List.cons.inj hes).1 (by decide)
        | cons d text =>
          obtain ⟨rfl, -⟩ := List.cons.inj hes
          exact hnot (text ++ '*' :: '/' :: rest) rfl rfl
      · exact hlater h

lemma StringBody.decode (h : StringBody body value) : StringLiteral.decode body = value := by
  induction h with
  | nil => rfl
  | plain _ hback _ ih =>
    rw [StringLiteral.decode, ih]
    rintro c cs rfl
    exact absurd rfl hback
  | escaped c _ ih => rw [StringLiteral.decode, ih]

lemma StringBody.closingQuote (h : StringBody body value) (rest : List Char) :
    StringLiteral.closingQuote (body ++ '"' :: rest) = some body.length := by
  induction h with
  | nil => rfl
  | plain hquote hback _ ih =>
    rw [List.cons_append, StringLiteral.closingQuote, ih]
    · rfl
    · exact hquote
    · rintro c cs rfl
      exact absurd rfl hback
  | escaped c _ ih =>
    rw [List.cons_append, List.cons_append, StringLiteral.closingQuote, ih]
    rfl

lemma closingQuote_cases (cs : List Char) : StringLiteral.closingQuote cs = none ∨
    ∃ body value rest, cs = body ++ '"' :: rest ∧ StringBody body value := by
  fun_induction StringLiteral.closingQuote cs with
  | case1 => exact .inl rfl
  | case2 cs => exact .inr ⟨[], [], cs, rfl, .nil⟩
  | case3 c cs ih =>
    rcases ih with hnone | ⟨body, value, rest, rfl, hbody⟩
    · exact .inl (by rw [hnone]; rfl)
    · exact .inr ⟨'\\' :: c :: body, _, rest, rfl, .escaped c hbody⟩
  | case4 c cs hquote hback ih =>
    rcases ih with hnone | ⟨body, value, rest, rfl, hbody⟩
    · exact .inl (by rw [hnone]; rfl)
    · refine .inr ⟨c :: body, _, rest, rfl, .plain hquote ?_ hbody⟩
      rintro rfl
      cases body with
      | nil => exact hback '"' rest rfl rfl
      | cons d body => exact hback d (body ++ '"' :: rest) rfl rfl

/-! ### First pieces -/

lemma first_blank (hc : Text.isBlank c = true) :
    Piece.first c cs = .blank (c :: cs.takeWhile Text.isBlank) := by
  unfold Piece.first
  rw [if_pos hc]

lemma first_other (hc : Text.isBlank c = false) (hquote : c ≠ '"') (hline : ¬ ['/', '/'] <+: c :: cs)
    (hblock : ¬ ['/', '*'] <+: c :: cs) : Piece.first c cs = Piece.ofRecognizers c cs := by
  unfold Piece.first
  simp only [hc, Bool.false_eq_true, if_false]
  split
  · next ds => exact absurd ⟨ds, rfl⟩ hline
  · next ds => exact absurd ⟨ds, rfl⟩ hblock
  · exact absurd rfl hquote
  · rfl

lemma dropWhile_head (p : Char → Bool) (cs : List Char) : ∀ c ∈ (cs.dropWhile p).head?, p c = false := by
  intro c hc
  have hstop := List.head?_dropWhile_not p cs
  rw [Option.mem_def.1 hc] at hstop
  exact hstop

/-- A block comment reaches up to the first mark that can end it. -/
lemma ofBlockComment_closed (hfirst : ¬ ['*', '/'] <:+: text ++ ['*']) (rest : List Char) :
    Piece.ofBlockComment (text ++ '*' :: '/' :: rest) = .comment ('/' :: '*' :: (text ++ ['*', '/'])) := by
  have htake : (text ++ '*' :: '/' :: rest).take (text.length + 2) = text ++ ['*', '/'] := by
    rw [List.take_length_add_append]
    rfl
  rw [Piece.ofBlockComment, commentEnd_eq_some hfirst]
  simp only [htake]

/-- A string reaches up to the quote behind its body. -/
lemma ofQuote_closed (hbody : StringBody body value) (rest : List Char) :
    Piece.ofQuote (body ++ '"' :: rest) = .token (.string (String.ofList value)) ('"' :: (body ++ ['"'])) := by
  have hlexeme : (body ++ '"' :: rest).take (body.length + 1) = body ++ ['"'] := by
    rw [List.take_length_add_append]
    rfl
  rw [Piece.ofQuote, hbody.closingQuote]
  simp only [hlexeme, List.take_left, hbody.decode]

lemma ofBlockComment_rightful (cs : List Char) : ∃ rest,
    (Piece.ofBlockComment cs).chars ++ rest = '/' :: '*' :: cs ∧ (Piece.ofBlockComment cs).Rightful rest := by
  rcases commentEnd_cases cs with ⟨hnone, hopen⟩ | ⟨text, rest, rfl, hfirst⟩
  · refine ⟨[], ?_⟩
    rw [Piece.ofBlockComment, hnone]
    exact ⟨List.append_nil _, .openComment hopen⟩
  · refine ⟨rest, ?_⟩
    rw [ofBlockComment_closed hfirst]
    exact ⟨by simp [Piece.chars], .blockComment hfirst⟩

lemma ofQuote_rightful (cs : List Char) : ∃ rest,
    (Piece.ofQuote cs).chars ++ rest = '"' :: cs ∧ (Piece.ofQuote cs).Rightful rest := by
  rcases closingQuote_cases cs with hnone | ⟨body, value, rest, rfl, hbody⟩
  · refine ⟨[], ?_⟩
    rw [Piece.ofQuote, hnone]
    refine ⟨List.append_nil _, .openString ?_⟩
    rintro body value hbody ⟨rest, rfl⟩
    rw [List.append_assoc, List.singleton_append, hbody.closingQuote] at hnone
    cases hnone
  · refine ⟨rest, ?_⟩
    rw [ofQuote_closed hbody]
    exact ⟨by simp [Piece.chars], .string hbody⟩

lemma ofRecognizers_rightful (hc : Text.isBlank c = false) (hquote : c ≠ '"')
    (hline : ¬ ['/', '/'] <+: c :: cs) (hblock : ¬ ['/', '*'] <+: c :: cs) : ∃ rest,
    (Piece.ofRecognizers c cs).chars ++ rest = c :: cs ∧ (Piece.ofRecognizers c cs).Rightful rest := by
  rcases hm : Recognizer.longest Recognizer.all (c :: cs) with _ | m
  · refine ⟨cs, ?_⟩
    rw [Piece.ofRecognizers, hm]
    exact ⟨rfl, .stray hc hquote fun _ _ hl => longest_none hm hl⟩
  · have hlongest := longest_lexeme hm
    refine ⟨(c :: cs).drop m.length, ?_⟩
    rw [Piece.ofRecognizers, hm]
    refine ⟨List.take_append_drop _ _, .lexeme ?_ ?_ ?_⟩ <;> rw [List.take_append_drop]
    · exact hlongest
    · exact hline
    · exact hblock

/-- **The first piece of a text is the right one** in front of the rest. -/
theorem first_rightful (c : Char) (cs : List Char) : ∃ rest,
    (Piece.first c cs).chars ++ rest = c :: cs ∧ (Piece.first c cs).Rightful rest := by
  by_cases hc : Text.isBlank c = true
  · rw [first_blank hc]
    have hrun : IsRun Text.isBlank (c :: cs.takeWhile Text.isBlank) :=
      ⟨List.cons_ne_nil _ _, List.forall_mem_cons.2 ⟨hc, List.all_eq_true.1 List.all_takeWhile⟩⟩
    refine ⟨cs.dropWhile Text.isBlank, ?_, .blank hrun (dropWhile_head _ _)⟩
    exact congrArg (c :: ·) List.takeWhile_append_dropWhile
  rw [Bool.not_eq_true] at hc
  by_cases hline : ['/', '/'] <+: c :: cs
  · obtain ⟨ds, hds⟩ := hline
    obtain ⟨rfl, rfl⟩ := List.cons.inj hds
    have hinside : '\n' ∉ ds.takeWhile (· != '\n') := fun hmem => by
      simpa using List.all_eq_true.1 List.all_takeWhile _ hmem
    refine ⟨ds.dropWhile (· != '\n'), ?_, .lineComment hinside fun d hd => ?_⟩
    · exact congrArg (fun es => '/' :: '/' :: es) List.takeWhile_append_dropWhile
    · simpa using dropWhile_head _ _ d hd
  by_cases hblock : ['/', '*'] <+: c :: cs
  · obtain ⟨ds, hds⟩ := hblock
    obtain ⟨rfl, rfl⟩ := List.cons.inj hds
    exact ofBlockComment_rightful ds
  by_cases hquote : c = '"'
  · subst hquote
    exact ofQuote_rightful cs
  · rw [first_other hc hquote hline hblock]
    exact ofRecognizers_rightful hc hquote hline hblock

lemma IsRun.takeWhile_eq {p : Char → Bool} (h : IsRun p text) (hrest : ∀ c ∈ rest.head?, p c = false) :
    (text ++ rest).takeWhile p = text := by
  cases rest with
  | nil => rw [h.takeWhile_append, List.takeWhile_nil, List.append_nil]
  | cons d ds => exact h.takeWhile_stop (hrest d rfl) ds

/-- **No other piece is the right one.** -/
theorem Piece.Rightful.first_eq (h : piece.Rightful rest) (htext : piece.chars ++ rest = c :: cs) :
    Piece.first c cs = piece := by
  cases h with
  | @blank text rest hrun hrest =>
    have htake := hrun.takeWhile_eq hrest
    obtain ⟨d, ds, rfl, hd⟩ := hrun.head
    obtain ⟨rfl, rfl⟩ := List.cons.inj htext
    rw [List.cons_append, List.takeWhile_cons_of_pos hd, List.cons.injEq] at htake
    rw [first_blank hd]
    exact congrArg (fun es => Piece.blank (d :: es)) htake.2
  | @lineComment text rest hinside hrest =>
    obtain ⟨rfl, rfl⟩ := List.cons.inj htext
    have hinside : ∀ d ∈ text, (d != '\n') = true := by
      intro d hd
      rw [bne_iff_ne]
      rintro rfl
      exact hinside hd
    have htake : (text ++ rest).takeWhile (· != '\n') = text := by
      rw [List.takeWhile_append_of_pos hinside]
      cases rest with
      | nil => rw [List.takeWhile_nil, List.append_nil]
      | cons d ds => rw [List.takeWhile_cons_of_neg (by simp [hrest d rfl]), List.append_nil]
    exact congrArg (fun es => Piece.comment ('/' :: '/' :: es)) htake
  | @blockComment text rest hfirst =>
    obtain ⟨rfl, rfl⟩ := List.cons.inj htext
    have hsplit : text ++ ['*', '/'] ++ rest = text ++ '*' :: '/' :: rest := by simp
    show Piece.ofBlockComment (text ++ ['*', '/'] ++ rest) = _
    rw [hsplit, ofBlockComment_closed hfirst]
  | @string body value rest hbody =>
    obtain ⟨rfl, rfl⟩ := List.cons.inj htext
    have hsplit : body ++ ['"'] ++ rest = body ++ '"' :: rest := by simp
    show Piece.ofQuote (body ++ ['"'] ++ rest) = _
    rw [hsplit, ofQuote_closed hbody]
  | @lexeme text kind rest hlongest hline hblock =>
    rw [show text ++ rest = c :: cs from htext] at hlongest hline hblock
    have hvisible : IsVisible c := hlongest.visible
    rw [first_other hvisible.not_blank hvisible.2.2 hline hblock]
    rcases hm : Recognizer.longest Recognizer.all (c :: cs) with _ | m
    · exact absurd hlongest.ahead (longest_none hm hlongest.lexeme)
    · obtain ⟨htake, hkind⟩ := (longest_lexeme hm).unique hlongest
      rw [Piece.ofRecognizers, hm]
      simp only [htake, hkind]
  | @stray d rest hblank hquote hnone =>
    obtain ⟨rfl, rfl⟩ := List.cons.inj htext
    have hslash : ∀ e, ¬ ['/', e] <+: d :: rest := by
      rintro e ⟨ds, hds⟩
      obtain ⟨rfl, -⟩ := List.cons.inj hds
      exact hnone _ _ (.symbol .slash) ⟨rest, rfl⟩
    show Piece.first d rest = _
    rw [first_other hblank hquote (hslash '/') (hslash '*')]
    rcases hm : Recognizer.longest Recognizer.all (d :: rest) with _ | m
    · rw [Piece.ofRecognizers, hm]
    · have hlongest := longest_lexeme hm
      exact absurd hlongest.ahead (hnone _ _ hlongest.lexeme)
  | @openString text hopen =>
    obtain ⟨rfl, rfl⟩ := List.cons.inj htext
    show Piece.ofQuote (text ++ []) = _
    rw [List.append_nil]
    rcases closingQuote_cases text with hnone | ⟨body, value, ds, rfl, hbody⟩
    · rw [Piece.ofQuote, hnone]
    · exact absurd ⟨ds, by simp⟩ (hopen body value hbody)
  | @openComment text hopen =>
    obtain ⟨rfl, rfl⟩ := List.cons.inj htext
    show Piece.ofBlockComment (text ++ []) = _
    rw [List.append_nil]
    rcases commentEnd_cases text with ⟨hnone, -⟩ | ⟨body, ds, rfl, -⟩
    · rw [Piece.ofBlockComment, hnone]
    · exact absurd ⟨body, ds, by simp⟩ hopen

/-! ### Segmentations -/

/-- The token that a piece is, if it is one. -/
def Piece.token? (line : Nat) : Piece → Option Token
  | .token kind text => some ⟨kind, String.ofList text, line⟩
  | _ => none

/-- The error that a piece is, if it is one. -/
def Piece.error? (line : Nat) : Piece → Option ScanError
  | .stray c => some (.unexpectedCharacter c line)
  | .openString _ => some (.unterminatedString line)
  | .openComment _ => some (.unterminatedComment line)
  | _ => none

/-- The pieces with the lines on which they begin: the first line, and one more for every line break in
front of the piece. -/
def Piece.onLines (line : Nat) (pieces : List Piece) : List (Nat × Piece) :=
  pieces.mapIdx fun i piece => (line + ((pieces.take i).flatMap Piece.chars).count '\n', piece)

/-- The pieces are the right ones for the text and follow one another without gaps; the tokens and the errors
of the scan are those pieces that are one, in the same order and on their lines, and the mark of the end stands
on the last line. -/
structure Segmentation (source : List Char) (pieces : List Piece) (scan : Scan) : Prop where
  text : pieces.flatMap Piece.chars = source
  rightful : ∀ before piece after, pieces = before ++ piece :: after →
    piece.Rightful (after.flatMap Piece.chars)
  tokens : scan.tokens = (Piece.onLines 1 pieces).filterMap (fun p => p.2.token? p.1) ++
    [⟨.eof, "", 1 + source.count '\n'⟩]
  errors : scan.errors = (Piece.onLines 1 pieces).filterMap fun p => p.2.error? p.1

lemma onLines_cons : Piece.onLines line (piece :: pieces) =
    (line, piece) :: Piece.onLines (line + piece.chars.count '\n') pieces := by
  unfold Piece.onLines
  rw [List.mapIdx_cons]
  simp [List.count_append, Nat.add_assoc]

lemma ofPieces_tokens (line : Nat) (pieces : List Piece) : (Scan.ofPieces line pieces).tokens =
    (Piece.onLines line pieces).filterMap (fun p => p.2.token? p.1) ++
      [⟨.eof, "", line + (pieces.flatMap Piece.chars).count '\n'⟩] := by
  induction pieces generalizing line with
  | nil => rfl
  | cons piece pieces ih =>
    rw [onLines_cons, Scan.ofPieces.eq_def, List.flatMap_cons, List.count_append, ← Nat.add_assoc]
    cases piece <;> simp [Piece.token?, ih]

lemma ofPieces_errors (line : Nat) (pieces : List Piece) : (Scan.ofPieces line pieces).errors =
    (Piece.onLines line pieces).filterMap fun p => p.2.error? p.1 := by
  induction pieces generalizing line with
  | nil => rfl
  | cons piece pieces ih =>
    rw [onLines_cons, Scan.ofPieces.eq_def]
    cases piece <;> simp [Piece.error?, ih]

lemma Piece.Rightful.chars_ne_nil (h : piece.Rightful rest) : piece.chars ≠ [] := by
  cases h with
  | blank hrun _ => exact hrun.ne_nil
  | lexeme hlongest _ _ =>
    obtain ⟨c, cs, rfl, -⟩ := hlongest.lexeme.opens
    exact List.cons_ne_nil c cs
  | _ => exact List.cons_ne_nil _ _

lemma Piece.Rightful.kind_ne_eof {text : List Char} (h : (Piece.token kind text).Rightful rest) :
    kind ≠ .eof := by
  rintro rfl
  cases h with
  | lexeme hlongest _ _ =>
    obtain ⟨c, cs, -, hopens⟩ := hlongest.lexeme.opens
    exact hopens

/-- Pieces are right if the first one is, and all the others. -/
lemma rightful_cons : (∀ before p after, piece :: pieces = before ++ p :: after →
      p.Rightful (after.flatMap Piece.chars)) ↔
    piece.Rightful (pieces.flatMap Piece.chars) ∧ ∀ before p after, pieces = before ++ p :: after →
      p.Rightful (after.flatMap Piece.chars) := by
  constructor
  · intro h
    exact ⟨h [] piece pieces rfl, fun before p after heq => h (piece :: before) p after (by rw [heq]; rfl)⟩
  · rintro ⟨hfirst, hlater⟩ before p after heq
    cases before with
    | nil =>
      obtain ⟨rfl, rfl⟩ := List.cons.inj heq
      exact hfirst
    | cons b before => exact hlater before p after (List.cons.inj heq).2

/-- The rest of a text behind its first piece. -/
lemma drop_chars (hne : piece.chars ≠ []) (htext : piece.chars ++ rest = c :: cs) :
    cs.drop (piece.chars.length - 1) = rest := by
  obtain ⟨d, ds, hds⟩ := List.exists_cons_of_ne_nil hne
  rw [hds] at htext ⊢
  obtain ⟨-, rfl⟩ := List.cons.inj htext
  exact List.drop_left

/-- A text is split into the right piece at its start and the pieces of the rest. -/
lemma Piece.Rightful.split_eq (h : piece.Rightful rest) (htext : piece.chars ++ rest = cs) :
    Piece.split cs = piece :: Piece.split rest := by
  obtain ⟨c, ds, hds⟩ := List.exists_cons_of_ne_nil (List.append_ne_nil_of_left_ne_nil h.chars_ne_nil rest)
  rw [← htext, hds, split_cons, h.first_eq hds, drop_chars h.chars_ne_nil hds]

/-- The tokens and errors of a text that begins on the given line. -/
def Scan.fromLine (line : Nat) (cs : List Char) : Scan := .ofPieces line (Piece.split cs)

lemma split_rightful (source : List Char) : (Piece.split source).flatMap Piece.chars = source ∧
    ∀ before piece after, Piece.split source = before ++ piece :: after →
      piece.Rightful (after.flatMap Piece.chars) := by
  fun_induction Piece.split source with
  | case1 => exact ⟨rfl, fun before _ _ h => absurd h (by simp)⟩
  | case2 c cs piece ih =>
    obtain ⟨rest, htext, hright⟩ := first_rightful c cs
    rw [drop_chars hright.chars_ne_nil htext] at ih
    rw [drop_chars hright.chars_ne_nil htext, List.flatMap_cons, ih.1, rightful_cons, ih.1]
    exact ⟨htext, hright, ih.2⟩

lemma split_unique (hright : ∀ before piece after, pieces = before ++ piece :: after →
    piece.Rightful (after.flatMap Piece.chars)) : Piece.split (pieces.flatMap Piece.chars) = pieces := by
  induction pieces with
  | nil => rw [List.flatMap_nil, Piece.split]
  | cons piece pieces ih =>
    obtain ⟨hfirst, hlater⟩ := rightful_cons.1 hright
    obtain ⟨c, cs, htext⟩ := List.exists_cons_of_ne_nil
      (List.append_ne_nil_of_left_ne_nil hfirst.chars_ne_nil (pieces.flatMap Piece.chars))
    rw [List.flatMap_cons, htext, split_cons, hfirst.first_eq htext, drop_chars hfirst.chars_ne_nil htext,
      ih hlater]

lemma scan_eq_iff {source : List Char} {scan : Scan} :
    Segmentation source pieces scan ↔ pieces = Piece.split source ∧ scan = Scan.ofChars source := by
  constructor
  · rintro ⟨rfl, hright, htokens, herrors⟩
    have hsplit := split_unique hright
    refine ⟨hsplit.symm, ?_⟩
    obtain ⟨tokens, errors⟩ := scan
    obtain rfl : tokens = (Scan.ofPieces 1 pieces).tokens := htokens.trans (ofPieces_tokens 1 pieces).symm
    obtain rfl : errors = (Scan.ofPieces 1 pieces).errors := herrors.trans (ofPieces_errors 1 pieces).symm
    unfold Scan.ofChars
    rw [hsplit]
  · rintro ⟨rfl, rfl⟩
    obtain ⟨htext, hright⟩ := split_rightful source
    refine ⟨htext, hright, ?_, ofPieces_errors 1 _⟩
    unfold Scan.ofChars
    rw [ofPieces_tokens, htext]

/-! ### Open strings and comments -/

lemma Piece.Rightful.open_rest (h : piece.Rightful rest) (hopen : piece.IsOpen) : rest = [] := by
  cases h with
  | openString _ | openComment _ => rfl
  | _ => exact hopen.elim

lemma error?_isOpen {e : ScanError} (h : piece.error? line = some e) : e.IsOpen ↔ piece.IsOpen := by
  cases piece <;> cases h <;> exact Iff.rfl

/-- No piece follows one that is open. -/
lemma Segmentation.open_last {source : List Char} {scan : Scan} {before after : List Piece}
    (h : Segmentation source (before ++ piece :: after) scan) (hopen : piece.IsOpen) : after = [] := by
  have hrest := (h.rightful before piece after rfl).open_rest hopen
  cases after with
  | nil => rfl
  | cons p after =>
    have hnext := h.rightful (before ++ [piece]) p after (by simp)
    exact absurd (List.append_eq_nil_iff.1 hrest).1 hnext.chars_ne_nil

lemma onLines_snd (line : Nat) (pieces : List Piece) : (Piece.onLines line pieces).map Prod.snd = pieces := by
  induction pieces generalizing line with
  | nil => rfl
  | cons piece pieces ih => rw [onLines_cons, List.map_cons, ih]

/-- No error follows one for a piece that is open. -/
lemma Segmentation.open_error_last {source : List Char} {scan : Scan} {e : ScanError} {es es' : List ScanError}
    (h : Segmentation source pieces scan) (herrors : scan.errors = es ++ e :: es') (hopen : e.IsOpen) :
    es' = [] := by
  obtain ⟨before, rest, hsplit, -, hrest⟩ := List.filterMap_eq_append_iff.1 (h.errors.symm.trans herrors)
  obtain ⟨skipped, ⟨line, piece⟩, after, rfl, -, hpiece, hafter⟩ := List.filterMap_eq_cons_iff.1 hrest
  have hpieces : pieces = (before ++ skipped).map Prod.snd ++ piece :: after.map Prod.snd := by
    rw [← onLines_snd 1 pieces, hsplit]
    simp
  have hlast := (hpieces ▸ h).open_last ((error?_isOpen hpiece).1 hopen)
  rw [← hafter, List.map_eq_nil_iff.1 hlast, List.filterMap_nil]

/-- Every text has a segmentation. -/
lemma segmentation_ofString (source : String) :
    Segmentation source.toList (Piece.split source.toList) (Scan.ofString source) := scan_eq_iff.2 ⟨rfl, rfl⟩

/-- The mark of the end stands on the last line, behind all other tokens. -/
lemma Segmentation.tokens_end {source : List Char} {scan : Scan} (h : Segmentation source pieces scan) :
    scan.tokens = scan.tokens.dropLast ++ [⟨.eof, "", 1 + source.count '\n'⟩] := by
  rw [h.tokens, List.dropLast_concat]

/-- The tokens in front of the mark of the end are right pieces, each where it stands. -/
lemma Segmentation.rightful_token {source : List Char} {scan : Scan} {t : Token}
    (h : Segmentation source pieces scan) (ht : t ∈ scan.tokens.dropLast) :
    ∃ rest, (Piece.token t.kind t.lexeme.toList).Rightful rest := by
  rw [h.tokens, List.dropLast_concat] at ht
  obtain ⟨⟨line, piece⟩, hmem, htoken⟩ := List.mem_filterMap.1 ht
  have hpiece : piece ∈ pieces := onLines_snd 1 pieces ▸ List.mem_map_of_mem hmem
  obtain ⟨before, after, hsplit⟩ := List.append_of_mem hpiece
  cases piece with
  | token kind text =>
    cases htoken
    refine ⟨after.flatMap Piece.chars, ?_⟩
    rw [String.toList_ofList]
    exact h.rightful before _ after hsplit
  | _ => cases htoken

/-- The tokens in front of the mark of the end are not such marks. -/
lemma Segmentation.kind_ne_eof {source : List Char} {scan : Scan} {t : Token}
    (h : Segmentation source pieces scan) (ht : t ∈ scan.tokens.dropLast) : t.kind ≠ .eof := by
  obtain ⟨rest, hright⟩ := h.rightful_token ht
  exact hright.kind_ne_eof

/-- **Every text has exactly one segmentation, and scanning gives it**: the pieces are the right ones and follow
one another without gaps, and the tokens and errors are those of the pieces, on their lines.  The mark of the end
is the only one of its kind, and a piece that nothing ends is the last piece, as its error is the last error. -/
theorem scan_segmentation (source : String) : ∃ pieces,
    Segmentation source.toList pieces (Scan.ofString source) ∧
    (∀ pieces' scan, Segmentation source.toList pieces' scan → pieces' = pieces ∧ scan = Scan.ofString source) ∧
    (∀ t ∈ (Scan.ofString source).tokens.dropLast, t.kind ≠ .eof) ∧
    (∀ before piece after, pieces = before ++ piece :: after → piece.IsOpen → after = []) ∧
    ∀ es e es', (Scan.ofString source).errors = es ++ e :: es' → e.IsOpen → es' = [] := by
  have hseg := segmentation_ofString source
  refine ⟨Piece.split source.toList, hseg, fun _ _ h => scan_eq_iff.1 h, fun t ht => hseg.kind_ne_eof ht, ?_, ?_⟩
  · intro before piece after hsplit hopen
    rw [hsplit] at hseg
    exact hseg.open_last hopen
  · intro es e es' herrors hopen
    exact hseg.open_error_last herrors hopen

end ScriptLang
