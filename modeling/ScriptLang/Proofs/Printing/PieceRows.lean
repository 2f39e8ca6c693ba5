import ScriptLang.Proofs.Printing.Pieces

/-!
# Tokens in front of a text

A token is scanned back from the text that it begins if what follows ends it: anything ends a string and the symbols
that begin no longer one, a blank ends every token, and words and numbers end in front of a symbol.

* `IsWritten`, `AllWritten` — what may be written for a token;
* `EndsLexeme` — what ends a word or a number in front of it;
* `Lexeme.isLongest_ends` — a word or a number in front of that;
* `rightful_token`, `rightful_symbol`, `rightful_in_front_of_space` — the token is the right piece.
-/

namespace ScriptLang

open Piece

variable {text other rest : List Char} {kind : Kind} {c : Char} {ps qs : List Piece}

/-! ### What may be written for a token -/

/-- The text is one that may be written for a token of the kind. -/
inductive IsWritten : Kind → List Char → Prop
  | string {body value : List Char} : StringBody body value →
    IsWritten (.string (String.ofList value)) ('"' :: (body ++ ['"']))
  | lexeme {text : List Char} {kind : Kind} : Lexeme text kind → IsWritten kind text

/-- The piece is a blank or a token that is written as one can be. -/
def Piece.Written : Piece → Prop
  | .blank _ => True
  | .token kind text => IsWritten kind text
  | _ => False

/-- The pieces are blanks and tokens that are written as tokens can be. -/
def AllWritten (ps : List Piece) : Prop := ∀ p ∈ ps, p.Written

@[simp] lemma allWritten_nil : AllWritten [] := List.forall_mem_nil _

@[simp] lemma allWritten_append : AllWritten (ps ++ qs) ↔ AllWritten ps ∧ AllWritten qs := List.forall_mem_append

@[simp] lemma allWritten_token : AllWritten (.token kind text :: ps) ↔ IsWritten kind text ∧ AllWritten ps :=
  List.forall_mem_cons

@[simp] lemma allWritten_symbol {s : Symbol} : AllWritten (symbol s :: ps) ↔ AllWritten ps :=
  allWritten_token.trans (and_iff_right (.lexeme (.symbol s)))

@[simp] lemma allWritten_keyword {w : Keyword} : AllWritten (keyword w :: ps) ↔ AllWritten ps :=
  allWritten_token.trans (and_iff_right (.lexeme (.keyword w)))

@[simp] lemma allWritten_name {n : String} :
    AllWritten (.name n :: ps) ↔ IsWritten .identifier n.toList ∧ AllWritten ps := allWritten_token

@[simp] lemma allWritten_space : AllWritten (space :: ps) ↔ AllWritten ps :=
  List.forall_mem_cons.trans (and_iff_right trivial)

@[simp] lemma allWritten_lineBreak : AllWritten (lineBreak :: ps) ↔ AllWritten ps :=
  List.forall_mem_cons.trans (and_iff_right trivial)

@[simp] lemma allWritten_inParens : AllWritten (inParens ps) ↔ AllWritten ps := by simp [inParens]

@[simp] lemma allWritten_inBraces : AllWritten (inBraces ps) ↔ AllWritten ps := by simp [inBraces]

@[simp] lemma allWritten_assigned : AllWritten (assigned ps) ↔ AllWritten ps := by simp [assigned]

lemma allWritten_withCommas {pss : List (List Piece)} : AllWritten (withCommas pss) ↔ ∀ ps ∈ pss, AllWritten ps := by
  unfold withCommas
  induction pss with
  | nil => simp
  | cons ps pss ih =>
    cases pss with
    | nil => simp
    | cons qs pss =>
      rw [List.intercalate_cons_cons, List.forall_mem_cons, ← ih]
      simp

/-! ### What ends a token -/

/-- A word or a number ends in front of the text. -/
structure EndsLexeme (rest : List Char) : Prop where
  word : ∀ c ∈ rest.head?, Recognizer.isWordChar c = false
  digit : ∀ c ∈ rest.head?, c.isDigit = false
  fraction : ∀ c, ['.', c] <+: rest → c.isDigit = false

lemma endsLexeme_cons (hw : Recognizer.isWordChar c = false) (hd : c.isDigit = false) (hc : c ≠ '.') :
    EndsLexeme (c :: rest) := by
  refine ⟨fun d h => ?_, fun d h => ?_, fun d h => ?_⟩
  · obtain rfl := Option.some.inj h
    exact hw
  · obtain rfl := Option.some.inj h
    exact hd
  · obtain ⟨ds, hds⟩ := h
    exact absurd (List.cons.inj hds).1.symm hc

/-- A point ends a number if a word stands behind it. -/
lemma endsLexeme_dot (h : IsWritten .identifier text) : EndsLexeme ('.' :: (text ++ rest)) := by
  refine ⟨fun d hd => ?_, fun d hd => ?_, fun d hd => ?_⟩
  · obtain rfl := Option.some.inj hd
    decide
  · obtain rfl := Option.some.inj hd
    decide
  · obtain ⟨ds, hds⟩ := hd
    cases h with
    | lexeme hl =>
      obtain ⟨e, es, rfl, he⟩ := hl.opens
      obtain ⟨rfl, -⟩ := List.cons.inj (List.cons.inj hds).2
      exact isDigit_of_isWordChar he

/-- A word is a run of word characters. -/
lemma Lexeme.word_run (h : Lexeme text kind) (hopens : ∀ c, kind.Opens c → Recognizer.isWordChar c = true) :
    IsRun Recognizer.isWordChar text := by
  obtain ⟨c, cs, htext, hc⟩ := h.opens
  have hword := hopens c hc
  cases h with
  | symbol s =>
    rw [hc.1] at hword
    cases hword
  | keyword w => exact keyword_run w
  | identifier hw => exact hw
  | whole | decimal =>
    have hdigit : c.isDigit = true := hc
    rw [isDigit_of_isWordChar hword] at hdigit
    cases hdigit

/-- Digits in front of a point are all digits that lie ahead. -/
lemma digits_unique {ds ds' us vs : List Char} (hd : IsRun Char.isDigit ds) (hd' : IsRun Char.isDigit ds')
    (h : ds' ++ '.' :: us = ds ++ vs) (hvs : ∀ c ∈ vs.head?, c.isDigit = false) : ds' = ds ∧ '.' :: us = vs := by
  have hpoint : Char.isDigit '.' = false := by decide
  obtain rfl : ds' = ds := by rw [← hd'.takeWhile_stop hpoint us, h, hd.takeWhile_eq hvs]
  exact ⟨rfl, List.append_cancel_left h⟩

/-- A number that lies ahead is no longer than the one that ends there. -/
lemma number_length_le {x y : Float} (h : Lexeme text (.number x)) (hrest : EndsLexeme rest)
    (ho : Lexeme other (.number y)) (ht : other <+: text ++ rest) : other.length ≤ text.length := by
  obtain ⟨us, hus⟩ := id ht
  cases h with
  | whole hd =>
    cases ho with
    | whole ho =>
      have hle := ho.length_le ht
      rwa [hd.takeWhile_eq hrest.digit] at hle
    | decimal hd' he' =>
      rw [List.append_assoc] at hus
      obtain ⟨-, hrest'⟩ := digits_unique hd hd' hus hrest.digit
      obtain ⟨e, es, rfl, he⟩ := he'.head
      exact absurd ((hrest.fraction e ⟨es ++ us, hrest'⟩).symm.trans he) (by decide)
  | @decimal ds es hd he =>
    have hpoint : ∀ d ∈ ('.' :: (es ++ rest)).head?, d.isDigit = false := by
      intro d hd
      obtain rfl := Option.some.inj hd
      decide
    rw [List.append_assoc, List.cons_append] at hus ht
    cases ho with
    | whole ho =>
      have hle := ho.length_le ht
      rw [hd.takeWhile_eq hpoint] at hle
      exact Nat.le_trans hle (by rw [List.length_append]; exact Nat.le_add_right _ _)
    | @decimal ds' es' hd' he' =>
      rw [List.append_assoc, List.cons_append] at hus
      obtain ⟨rfl, hbehind⟩ := digits_unique hd hd' hus hpoint
      have hle := he'.length_le ⟨us, (List.cons.inj hbehind).2⟩
      rw [he.takeWhile_eq hrest.digit] at hle
      simp only [List.length_append, List.length_cons]
      omega

/-- A lexeme and one that lies ahead in its place begin with the same character. -/
lemma Lexeme.opens_alike {kind' : Kind} (h : Lexeme text kind) (ho : Lexeme other kind')
    (ht : other <+: text ++ rest) : ∃ c cs cs', text = c :: cs ∧ other = c :: cs' ∧ kind.Opens c ∧ kind'.Opens c := by
  obtain ⟨c, cs, rfl, hc⟩ := h.opens
  obtain ⟨c', cs', rfl, hc'⟩ := ho.opens
  obtain ⟨ds, hds⟩ := ht
  obtain rfl : c' = c := (List.cons.inj hds).1
  exact ⟨c', cs, cs', rfl, rfl, hc, hc'⟩

/-- **A word or a number is the longest lexeme** in front of what ends it. -/
lemma Lexeme.isLongest_ends (h : Lexeme text kind) (hkind : ∀ s, kind ≠ .symbol s) (hrest : EndsLexeme rest) :
    IsLongest text kind (text ++ rest) := by
  refine ⟨h, List.prefix_append _ _, fun other kind' ho ht => ?_⟩
  -- both begin with the same character, so both are words or both are numbers
  obtain ⟨c, -, -, -, -, hc, hc'⟩ := h.opens_alike ho ht
  have hword : ∀ {k : Kind}, k.Opens c → Recognizer.isWordChar c = true → ∀ d, k.Opens d →
      Recognizer.isWordChar d = true := by
    intro k hk hw d hd
    cases k with
    | symbol s => exact absurd (hk.1.symm.trans hw) (by decide)
    | number x => exact absurd ((isDigit_of_isWordChar hw).symm.trans hk) (by decide)
    | keyword | identifier => exact hd
    | string | eof => exact hd.elim
  by_cases hw : Recognizer.isWordChar c = true
  · have hrun := h.word_run (hword hc hw)
    have hle := (ho.word_run (hword hc' hw)).length_le ht
    rwa [hrun.takeWhile_eq hrest.word] at hle
  · cases kind with
    | symbol s => exact absurd rfl (hkind s)
    | keyword | identifier => exact absurd hc hw
    | string | eof => exact hc.elim
    | number x =>
      cases kind' with
      | symbol s => exact absurd (hc'.2.symm.trans hc) (by decide)
      | keyword | identifier => exact absurd hc' hw
      | string | eof => exact hc'.elim
      | number y => exact number_length_le h hrest ho ht

/-! ### The right piece -/

/-- A lexeme that begins with a slash is the slash. -/
lemma Lexeme.slash {cs : List Char} (h : Lexeme ('/' :: cs) kind) : kind = .symbol .slash := by
  obtain ⟨c, ds, htext, hc⟩ := h.opens
  obtain ⟨rfl, rfl⟩ := List.cons.inj htext
  cases kind with
  | symbol s =>
    have hall : ∀ s ∈ Symbol.all, s.spelling.toList.head? = some '/' → s = .slash := by decide
    rw [hall s s.mem_all (by rw [← symbol_text h]; rfl)]
  | keyword | identifier =>
    have hword : Recognizer.isWordChar '/' = true := hc
    exact absurd hword (by decide)
  | number =>
    have hdigit : '/'.isDigit = true := hc
    exact absurd hdigit (by decide)
  | string | eof => exact hc.elim

/-- A longest lexeme other than a slash is the right piece. -/
lemma rightful_lexeme (h : IsLongest text kind (text ++ rest)) (hkind : kind ≠ .symbol .slash) :
    (Piece.token kind text).Rightful rest := by
  have hslash : ∀ c, ¬ ['/', c] <+: text ++ rest := by
    rintro c ⟨ds, hds⟩
    obtain ⟨d, es, rfl, -⟩ := h.lexeme.opens
    obtain ⟨rfl, -⟩ := List.cons.inj hds
    exact hkind h.lexeme.slash
  exact .lexeme h (hslash _) (hslash _)

/-- A literal, a name or a reserved word in front of what ends a word. -/
lemma rightful_token (h : IsWritten kind text) (hkind : ∀ s, kind ≠ .symbol s) (hrest : EndsLexeme rest) :
    (Piece.token kind text).Rightful rest := by
  cases h with
  | string hbody => exact .string hbody
  | lexeme hl => exact rightful_lexeme (hl.isLongest_ends hkind hrest) (hkind _)

/-- Any token in front of a space. -/
lemma rightful_in_front_of_space (h : IsWritten kind text) : (Piece.token kind text).Rightful (' ' :: rest) := by
  cases h with
  | string hbody => exact .string hbody
  | lexeme hl =>
    have hslash : ∀ c, c ≠ ' ' → ¬ ['/', c] <+: text ++ ' ' :: rest := by
      rintro c hc ⟨ds, hds⟩
      obtain ⟨d, es, rfl, -⟩ := hl.opens
      obtain ⟨rfl, hbehind⟩ := List.cons.inj hds
      have hsymbol := hl.slash
      subst hsymbol
      obtain rfl := (List.cons.inj (symbol_text hl)).2
      exact hc (List.cons.inj hbehind).1
    exact .lexeme hl.isLongest_space (hslash _ (by decide)) (hslash _ (by decide))

/-- No other symbol begins like this one. -/
def StandsAlone (s : Symbol) : Prop :=
  s ≠ .slash ∧ ∀ s' ∈ Symbol.all, s'.spelling.toList.head? = s.spelling.toList.head? → s' = s

instance (s : Symbol) : Decidable (StandsAlone s) := inferInstanceAs (Decidable (_ ∧ _))

/-- A symbol that no other begins like, in front of anything. -/
lemma rightful_symbol {s : Symbol} (hs : StandsAlone s) : (symbol s).Rightful rest := by
  refine rightful_lexeme ⟨.symbol s, List.prefix_append _ _, fun other kind' ho ht => ?_⟩
    (fun h => hs.1 (Kind.symbol.inj h))
  obtain ⟨c, cs, cs', htext, hother, hc, hc'⟩ := (Lexeme.symbol s).opens_alike ho ht
  cases kind' with
  | symbol s' =>
    have hsame : s' = s := hs.2 s' s'.mem_all (by rw [← symbol_text ho, hother, htext]; rfl)
    have hspelling : other = s.spelling.toList := (symbol_text ho).trans (congrArg (·.spelling.toList) hsame)
    exact Nat.le_of_eq (congrArg List.length hspelling)
  | keyword | identifier => exact absurd (hc.1.symm.trans hc') (by decide)
  | number => exact absurd (hc.2.symm.trans hc') (by decide)
  | string | eof => exact hc'.elim

end ScriptLang
