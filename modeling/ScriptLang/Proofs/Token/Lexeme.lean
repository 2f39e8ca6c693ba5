import ScriptLang.Proofs.Token.Seam

/-!
# Lexemes

What may be written for a token that is no string: a symbol, a reserved word, another word, or a number.  The
recognizers find such texts and miss none, so the longest match is the longest lexeme that lies ahead.

* `Lexeme` — the texts, each with its kind;
* `Lexeme.kind_unique` — a text is a lexeme of one kind only;
* `Recognizer.sound`, `Recognizer.complete` — what the recognizers find;
* `longest_lexeme`, `longest_none` — what the longest match is.
-/

namespace ScriptLang

variable {text cs : List Char} {kind : Kind} {c : Char} {p : Char → Bool}

/-- A run of characters of one sort, which is not empty. -/
structure IsRun (p : Char → Bool) (w : List Char) : Prop where
  ne_nil : w ≠ []
  all : ∀ c ∈ w, p c = true

/-- The texts of the tokens that are no strings: symbols, reserved words, other words, and digits with or
without a point and more digits behind them. -/
inductive Lexeme : List Char → Kind → Prop
  | symbol (s : Symbol) : Lexeme s.spelling.toList (.symbol s)
  | keyword (w : Keyword) : Lexeme w.spelling.toList (.keyword w)
  | identifier {w} : IsRun Recognizer.isWordChar w → (∀ k : Keyword, w ≠ k.spelling.toList) →
    Lexeme w .identifier
  | whole {ds} : IsRun Char.isDigit ds → Lexeme ds (.number (Number.read ds []))
  | decimal {ds es} : IsRun Char.isDigit ds → IsRun Char.isDigit es →
    Lexeme (ds ++ '.' :: es) (.number (Number.read ds es))

/-- The text is a lexeme of the kind, and none that lies ahead is longer. -/
structure IsLongest (text : List Char) (kind : Kind) (cs : List Char) : Prop where
  lexeme : Lexeme text kind
  ahead : text <+: cs
  longest : ∀ other kind', Lexeme other kind' → other <+: cs → other.length ≤ text.length

/-! ### Runs -/

lemma takeWhile_run (h : cs.takeWhile p ≠ []) : IsRun p (cs.takeWhile p) :=
  ⟨h, List.all_eq_true.1 List.all_takeWhile⟩

lemma take_takeWhile (p : Char → Bool) (cs : List Char) :
    cs.take (cs.takeWhile p).length = cs.takeWhile p :=
  (List.prefix_iff_eq_take.1 (List.takeWhile_prefix p)).symm

lemma IsRun.takeWhile_append (h : IsRun p text) (cs : List Char) :
    (text ++ cs).takeWhile p = text ++ cs.takeWhile p := List.takeWhile_append_of_pos h.all

/-- A run that ends in front of another character is all that can be taken. -/
lemma IsRun.takeWhile_stop (h : IsRun p text) (hc : p c = false) (cs : List Char) :
    (text ++ c :: cs).takeWhile p = text := by
  rw [h.takeWhile_append, List.takeWhile_cons_of_neg (by simp [hc]), List.append_nil]

lemma IsRun.length_le (h : IsRun p text) (ht : text <+: cs) : text.length ≤ (cs.takeWhile p).length := by
  obtain ⟨ds, rfl⟩ := ht
  rw [h.takeWhile_append, List.length_append]
  exact Nat.le_add_right _ _

/-! ### Words -/

lemma keyword_run (w : Keyword) : IsRun Recognizer.isWordChar w.spelling.toList :=
  ⟨by cases w <;> decide, List.all_eq_true.1 (by cases w <;> rfl)⟩

lemma wordKind_lexeme (h : IsRun Recognizer.isWordChar text) : Lexeme text (Recognizer.wordKind text) := by
  have hspells := wordKind_spells text
  unfold Recognizer.wordKind at hspells ⊢
  split
  · next w hw =>
    rw [hw] at hspells
    have htext : text = w.spelling.toList := by
      rw [← (hspells : String.ofList text = w.spelling), String.toList_ofList]
    rw [htext]
    exact .keyword w
  · next hw =>
    rw [hw] at hspells
    refine .identifier h fun k hk => hspells k ?_
    rw [hk, String.ofList_toList]

/-! ### Numbers -/

/-- Where digits stop, a point with digits behind it goes on with the number. -/
lemma fractionDigits_eq_cons (h : Recognizer.fractionDigits cs ≠ []) :
    ∃ ds, cs = '.' :: ds ∧ Recognizer.fractionDigits cs = ds.takeWhile Char.isDigit := by
  unfold Recognizer.fractionDigits at h ⊢
  split at h
  · next ds => exact ⟨ds, rfl, rfl⟩
  · exact absurd rfl h

lemma number_sound {m : Match} (h : Recognizer.number cs = some m) :
    Lexeme (cs.take m.length) m.kind := by
  unfold Recognizer.number at h
  split at h
  · cases h
  · next hne =>
    have hwhole : IsRun Char.isDigit (cs.takeWhile Char.isDigit) := takeWhile_run hne
    split at h
    · cases h
      rw [take_takeWhile]
      exact .whole hwhole
    · next hfraction =>
      cases h
      obtain ⟨ds, hds, heq⟩ := fractionDigits_eq_cons hfraction
      have hcs : cs = cs.takeWhile Char.isDigit ++ '.' :: ds := by
        have hsplit := List.take_append_drop (cs.takeWhile Char.isDigit).length cs
        rw [take_takeWhile, hds] at hsplit
        exact hsplit.symm
      have htake : cs.take ((cs.takeWhile Char.isDigit).length + 1 + (ds.takeWhile Char.isDigit).length) =
          cs.takeWhile Char.isDigit ++ '.' :: ds.takeWhile Char.isDigit := by
        refine (congrArg (List.take _) hcs).trans ?_
        rw [Nat.add_assoc, List.take_length_add_append, Nat.add_comm 1, List.take_succ_cons, take_takeWhile]
      simp only [heq] at hfraction ⊢
      rw [htake]
      exact .decimal hwhole (takeWhile_run hfraction)

lemma number_complete {ds es : List Char} (hd : IsRun Char.isDigit ds) (he : IsRun Char.isDigit es)
    (cs : List Char) :
    ∃ m, Recognizer.number (ds ++ '.' :: es ++ cs) = some m ∧ (ds ++ '.' :: es).length ≤ m.length := by
  have hwhole : (ds ++ '.' :: es ++ cs).takeWhile Char.isDigit = ds := by
    rw [List.append_assoc]
    exact hd.takeWhile_stop (by decide) _
  have hdrop : (ds ++ '.' :: es ++ cs).drop ds.length = '.' :: (es ++ cs) := by simp
  have hfraction : Recognizer.fractionDigits ('.' :: (es ++ cs)) = es ++ cs.takeWhile Char.isDigit :=
    he.takeWhile_append cs
  obtain ⟨d, ds, rfl⟩ := List.exists_cons_of_ne_nil hd.ne_nil
  obtain ⟨e, es, rfl⟩ := List.exists_cons_of_ne_nil he.ne_nil
  unfold Recognizer.number
  rw [hwhole]
  simp only [hdrop, hfraction]
  refine ⟨_, rfl, ?_⟩
  simp only [List.length_append, List.length_cons]
  omega

/-! ### One kind for each text

The first character tells symbols, words and numbers apart.
-/

/-- Whether a token of the kind may begin with the character. -/
def Kind.Opens : Kind → Char → Prop
  | .symbol _, c => Recognizer.isWordChar c = false ∧ c.isDigit = false
  | .keyword _, c | .identifier, c => Recognizer.isWordChar c = true
  | .number _, c => c.isDigit = true
  | _, _ => False

lemma isAlpha_bounds (h : c.isAlpha = true) :
    65 ≤ c.toNat ∧ c.toNat ≤ 90 ∨ 97 ≤ c.toNat ∧ c.toNat ≤ 122 := by
  rcases Bool.or_eq_true_iff.1 h with hupper | hlower
  · exact .inl (of_decide_eq_true hupper)
  · obtain ⟨hlo, hhi⟩ := Bool.and_eq_true_iff.1 hlower
    exact .inr ⟨of_decide_eq_true hlo, of_decide_eq_true hhi⟩

lemma isDigit_bounds (h : c.isDigit = true) : 48 ≤ c.toNat ∧ c.toNat ≤ 57 := by
  obtain ⟨hlo, hhi⟩ := Bool.and_eq_true_iff.1 h
  exact ⟨of_decide_eq_true hlo, of_decide_eq_true hhi⟩

lemma isDigit_of_isWordChar (h : Recognizer.isWordChar c = true) : c.isDigit = false := by
  rcases Bool.or_eq_true_iff.1 h with h | h
  · refine Bool.eq_false_iff.2 fun hdigit => ?_
    have hletter := isAlpha_bounds h
    have hdigit := isDigit_bounds hdigit
    omega
  · rw [eq_of_beq h]
    decide

lemma IsRun.head (h : IsRun p text) : ∃ c cs, text = c :: cs ∧ p c = true := by
  obtain ⟨c, cs, rfl⟩ := List.exists_cons_of_ne_nil h.ne_nil
  exact ⟨c, cs, rfl, h.all c List.mem_cons_self⟩

lemma Lexeme.opens (h : Lexeme text kind) : ∃ c cs, text = c :: cs ∧ kind.Opens c := by
  cases h with
  | symbol s => cases s <;> exact ⟨_, _, rfl, by decide, by decide⟩
  | keyword w => exact (keyword_run w).head
  | identifier hw => exact hw.head
  | whole hd => exact hd.head
  | decimal hd _ =>
    obtain ⟨c, cs, rfl, hc⟩ := hd.head
    exact ⟨c, _, rfl, hc⟩

lemma Symbol.spelling_injective {s s' : Symbol} (h : s.spelling.toList = s'.spelling.toList) : s = s' := by
  have hall : ∀ s ∈ Symbol.all, ∀ s' ∈ Symbol.all, s.spelling.toList = s'.spelling.toList → s = s' := by
    decide +kernel
  exact hall s s.mem_all s' s'.mem_all h

lemma Keyword.spelling_injective {w w' : Keyword} (h : w.spelling.toList = w'.spelling.toList) : w = w' := by
  have hword := Keyword.ofSpelling?_spelling w
  rw [h, Keyword.ofSpelling?_spelling] at hword
  exact (Option.some.inj hword).symm

lemma symbol_text {s : Symbol} (h : Lexeme text (.symbol s)) : text = s.spelling.toList := by
  cases h
  rfl

lemma keyword_text {w : Keyword} (h : Lexeme text (.keyword w)) : text = w.spelling.toList := by
  cases h
  rfl

lemma identifier_text (h : Lexeme text .identifier) (w : Keyword) : text ≠ w.spelling.toList := by
  cases h with
  | identifier _ hnot => exact hnot w

/-- What is read for a number is read off its text. -/
lemma number_text {x : Float} (h : Lexeme text (.number x)) : x =
    Number.read (text.takeWhile Char.isDigit) (text.dropWhile Char.isDigit).tail := by
  cases h with
  | whole hd =>
    have htake : text.takeWhile Char.isDigit = text := by simpa using hd.takeWhile_append []
    have hdrop : text.dropWhile Char.isDigit = [] := by
      rw [← List.append_nil text, List.dropWhile_append_of_pos hd.all]
      rfl
    rw [htake, hdrop]
    rfl
  | decimal hd he =>
    rw [hd.takeWhile_stop (by decide), List.dropWhile_append_of_pos hd.all]
    rfl

/-- A text is a lexeme of one kind only. -/
lemma Lexeme.kind_unique {kind' : Kind} (h : Lexeme text kind) (h' : Lexeme text kind') : kind = kind' := by
  obtain ⟨c, cs, htext, hc⟩ := h.opens
  obtain ⟨c', cs', htext', hc'⟩ := h'.opens
  obtain ⟨rfl, -⟩ := List.cons.inj (htext.symm.trans htext')
  have hdigit : Recognizer.isWordChar c = true → c.isDigit = false := isDigit_of_isWordChar
  cases kind with
  | symbol s =>
    cases kind' with
    | symbol s' => rw [Symbol.spelling_injective ((symbol_text h).symm.trans (symbol_text h'))]
    | _ => simp_all [Kind.Opens]
  | keyword w =>
    cases kind' with
    | keyword w' => rw [Keyword.spelling_injective ((keyword_text h).symm.trans (keyword_text h'))]
    | identifier => exact absurd (keyword_text h) (identifier_text h' w)
    | _ => simp_all [Kind.Opens]
  | identifier =>
    cases kind' with
    | identifier => rfl
    | keyword w => exact absurd (keyword_text h') (identifier_text h w)
    | _ => simp_all [Kind.Opens]
  | number x =>
    cases kind' with
    | number y => rw [number_text h, number_text h']
    | _ => simp_all [Kind.Opens]
  | string | eof => exact absurd hc (by simp [Kind.Opens])

/-! ### No lexeme begins like a blank or a string -/

/-- The characters between the blank and the end of ASCII, but for the quote. -/
def IsVisible (c : Char) : Prop := 32 < c.toNat ∧ c.toNat < 127 ∧ c ≠ '"'

lemma IsVisible.not_blank (h : IsVisible c) : Text.isBlank c = false := by
  obtain ⟨hlo, hhi, -⟩ := h
  simp only [Text.isBlank, Text.blankRanges, List.any_cons, List.any_nil, Bool.or_false, Bool.or_eq_false_iff,
    Bool.and_eq_false_iff, decide_eq_false_iff_not]
  omega

lemma visible_of_isDigit (h : c.isDigit = true) : IsVisible c := by
  have hquote : c ≠ '"' := by
    rintro rfl
    exact absurd h (by decide)
  have hbounds := isDigit_bounds h
  exact ⟨by omega, by omega, hquote⟩

lemma visible_of_isWordChar (h : Recognizer.isWordChar c = true) : IsVisible c := by
  have hquote : c ≠ '"' := by
    rintro rfl
    exact absurd h (by decide)
  rcases Bool.or_eq_true_iff.1 h with h | h
  · have hletter := isAlpha_bounds h
    exact ⟨by omega, by omega, hquote⟩
  · rw [eq_of_beq h]
    exact ⟨by decide, by decide, by decide⟩

/-- A lexeme is visible all through, so it holds no blank and no quote. -/
lemma Lexeme.visible (h : Lexeme text kind) : ∀ d ∈ text, IsVisible d := by
  have symbols : ∀ s : Symbol, ∀ d ∈ s.spelling.toList, IsVisible d := by
    intro s d hd
    have hall : s.spelling.toList.all (fun d => 32 < d.toNat && d.toNat < 127 && d != '"') = true := by
      cases s <;> rfl
    simpa [IsVisible, and_assoc] using List.all_eq_true.1 hall d hd
  have digits : ∀ {ds}, IsRun Char.isDigit ds → ∀ d ∈ ds, IsVisible d := fun hd d hmem =>
    visible_of_isDigit (hd.all d hmem)
  cases h with
  | symbol s => exact symbols s
  | keyword w => exact fun d hd => visible_of_isWordChar ((keyword_run w).all d hd)
  | identifier hw => exact fun d hd => visible_of_isWordChar (hw.all d hd)
  | whole hd => exact digits hd
  | decimal hd he =>
    intro d hmem
    rcases List.mem_append.1 hmem with hmem | hmem
    · exact digits hd d hmem
    · rcases List.mem_cons.1 hmem with rfl | hmem
      · exact symbols .dot _ (List.mem_singleton_self _)
      · exact digits he d hmem

/-! ### The recognizers -/

/-- What a recognizer finds is a lexeme. -/
lemma Recognizer.sound {r : Recognizer} {m : Match} (hr : r ∈ Recognizer.all) (h : r cs = some m) :
    Lexeme (cs.take m.length) m.kind := by
  rcases Recognizer.mem_all_iff.1 hr with ⟨s, rfl⟩ | rfl | rfl
  · obtain ⟨hahead, rfl⟩ := Recognizer.symbol_eq_some_iff.1 h
    have htake : cs.take s.spelling.length = s.spelling.toList := by
      rw [← String.length_toList]
      exact (List.prefix_iff_eq_take.1 hahead).symm
    rw [htake]
    exact .symbol s
  · obtain ⟨hne, rfl⟩ := Recognizer.word_eq_some_iff.1 h
    rw [take_takeWhile]
    exact wordKind_lexeme (takeWhile_run hne)
  · exact number_sound h

lemma symbol_mem_all (s : Symbol) : Recognizer.symbol s ∈ Recognizer.all :=
  Recognizer.mem_all_iff.2 (.inl ⟨s, rfl⟩)

lemma word_mem_all : Recognizer.word ∈ Recognizer.all :=
  Recognizer.mem_all_iff.2 (.inr (.inl rfl))

lemma number_mem_all : Recognizer.number ∈ Recognizer.all :=
  Recognizer.mem_all_iff.2 (.inr (.inr rfl))

lemma word_complete (h : IsRun Recognizer.isWordChar text) (ht : text <+: cs) :
    ∃ m, Recognizer.word cs = some m ∧ text.length ≤ m.length := by
  have hle := h.length_le ht
  have hne : cs.takeWhile Recognizer.isWordChar ≠ [] := by
    intro hnil
    rw [hnil] at hle
    exact h.ne_nil (List.eq_nil_of_length_eq_zero (Nat.le_zero.1 hle))
  exact ⟨_, Recognizer.word_eq_some_iff.2 ⟨hne, rfl⟩, hle⟩

lemma whole_complete (h : IsRun Char.isDigit text) (ht : text <+: cs) :
    ∃ m, Recognizer.number cs = some m ∧ text.length ≤ m.length := by
  have hle := h.length_le ht
  have hne : cs.takeWhile Char.isDigit ≠ [] := by
    intro hnil
    rw [hnil] at hle
    exact h.ne_nil (List.eq_nil_of_length_eq_zero (Nat.le_zero.1 hle))
  unfold Recognizer.number
  split
  · next hnil => exact absurd hnil hne
  · split
    · exact ⟨_, rfl, hle⟩
    · exact ⟨_, rfl, Nat.le_trans hle (by dsimp only; omega)⟩

/-- For every lexeme that lies ahead some recognizer finds at least as much. -/
lemma Recognizer.complete (h : Lexeme text kind) (ht : text <+: cs) :
    ∃ r ∈ Recognizer.all, ∃ m, r cs = some m ∧ text.length ≤ m.length := by
  cases h with
  | symbol s =>
    exact ⟨_, symbol_mem_all s, _, Recognizer.symbol_eq_some_iff.2 ⟨ht, rfl⟩, Nat.le_of_eq String.length_toList⟩
  | keyword w => exact ⟨_, word_mem_all, word_complete (keyword_run w) ht⟩
  | identifier hw => exact ⟨_, word_mem_all, word_complete hw ht⟩
  | whole hd => exact ⟨_, number_mem_all, whole_complete hd ht⟩
  | decimal hd he =>
    obtain ⟨ds, rfl⟩ := ht
    exact ⟨_, number_mem_all, number_complete hd he ds⟩

/-! ### The longest match -/

lemma longest_eq_none {rs : List Recognizer} :
    Recognizer.longest rs cs = none ↔ ∀ r ∈ rs, r cs = none := by
  induction rs with
  | nil => simp [Recognizer.longest]
  | cons r rs ih =>
    rw [Recognizer.longest, List.forall_mem_cons, ← ih]
    cases r cs with
    | none => simp
    | some m =>
      cases Recognizer.longest rs cs with
      | none => simp
      | some later =>
        simp only [reduceCtorEq, false_and, iff_false]
        split <;> simp

lemma longest_max {rs : List Recognizer} {m : Match} (h : Recognizer.longest rs cs = some m) :
    ∀ r ∈ rs, ∀ m', r cs = some m' → m'.length ≤ m.length := by
  induction rs generalizing m with
  | nil => cases h
  | cons r rs ih =>
    rw [Recognizer.longest] at h
    intro r' hr' m' hm'
    rcases List.mem_cons.1 hr' with rfl | hr'
    · rw [hm'] at h
      cases hl : Recognizer.longest rs cs with
      | none =>
        rw [hl] at h
        cases h
        exact Nat.le_refl _
      | some later =>
        rw [hl] at h
        simp only at h
        split at h <;> cases h <;> omega
    · cases hl : Recognizer.longest rs cs with
      | none =>
        rw [longest_eq_none.1 hl r' hr'] at hm'
        cases hm'
      | some later =>
        have hle := ih hl r' hr' m' hm'
        rw [hl] at h
        cases hr : r cs with
        | none =>
          rw [hr] at h
          cases h
          exact hle
        | some first =>
          rw [hr] at h
          simp only at h
          split at h <;> cases h <;> omega

/-- **The longest match is the longest lexeme** that lies ahead. -/
theorem longest_lexeme {m : Match} (h : Recognizer.longest Recognizer.all cs = some m) :
    IsLongest (cs.take m.length) m.kind cs := by
  obtain ⟨r, hr, hm⟩ := longest_mem h
  refine ⟨Recognizer.sound hr hm, List.take_prefix _ _, fun other kind' ho ht => ?_⟩
  obtain ⟨r', hr', m', hm', hle⟩ := Recognizer.complete ho ht
  rw [List.length_take_of_le (Recognizer.length_le hr hm)]
  exact Nat.le_trans hle (longest_max h r' hr' m' hm')

/-- **Where nothing matches, no lexeme lies ahead.** -/
theorem longest_none (h : Recognizer.longest Recognizer.all cs = none) (hl : Lexeme text kind) :
    ¬ text <+: cs := by
  intro ht
  obtain ⟨r, hr, m, hm, -⟩ := Recognizer.complete hl ht
  rw [longest_eq_none.1 h r hr] at hm
  cases hm

lemma IsLongest.visible (h : IsLongest text kind (c :: cs)) : IsVisible c := by
  obtain ⟨d, ds, rfl, -⟩ := h.lexeme.opens
  obtain ⟨rfl, -⟩ := List.cons_prefix_cons.1 h.ahead
  exact h.lexeme.visible _ List.mem_cons_self

/-- Only one text is the longest lexeme, and it is one of only one kind. -/
lemma IsLongest.unique {other : List Char} {kind' : Kind} (h : IsLongest text kind cs)
    (h' : IsLongest other kind' cs) : text = other ∧ kind = kind' := by
  have hle : text.length ≤ other.length := h'.longest text kind h.lexeme h.ahead
  have hge : other.length ≤ text.length := h.longest other kind' h'.lexeme h'.ahead
  obtain rfl : text = other :=
    (List.prefix_of_prefix_length_le h.ahead h'.ahead hle).eq_of_length (Nat.le_antisymm hle hge)
  exact ⟨rfl, h.lexeme.kind_unique h'.lexeme⟩

end ScriptLang
