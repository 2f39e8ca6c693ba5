import Mathlib.Tactic.Lemma
import ScriptLang.Token.Scan

/-!
# How tokens are spelled

A scanned keyword is spelled like the keyword, and a scanned identifier is spelled like no keyword.

* `longest_mem` — the longest match is one that some recognizer finds;
* `scan_spelled` — the theorem for all tokens of a source text.
-/

namespace ScriptLang

/-- The kind of a text is right: a keyword is spelled like that, and an identifier like no keyword.  No text
marks the end. -/
def Kind.Spells (kind : Kind) (text : String) : Prop :=
  match kind with
  | .keyword w => text = w.spelling
  | .identifier => ∀ w : Keyword, text ≠ w.spelling
  | .eof => False
  | _ => True

/-- The text of a token fits its kind, unless it marks the end. -/
def Token.Spelled (t : Token) : Prop := t.kind ≠ .eof → t.kind.Spells t.lexeme

lemma longest_mem {rs : List Recognizer} {cs : List Char} {m : Match}
    (h : Recognizer.longest rs cs = some m) : ∃ r ∈ rs, r cs = some m := by
  induction rs generalizing m with
  | nil => cases h
  | cons r rs ih =>
    rw [Recognizer.longest] at h
    have later : ∀ {m}, Recognizer.longest rs cs = some m → ∃ r' ∈ r :: rs, r' cs = some m := by
      intro m hm
      obtain ⟨r', hr', h⟩ := ih hm
      exact ⟨r', List.mem_cons_of_mem r hr', h⟩
    split at h
    · exact later h
    · next hr _ => exact ⟨r, List.mem_cons_self, hr.trans h⟩
    · next m' later' hr hl =>
      split at h
      · exact later (hl.trans h)
      · exact ⟨r, List.mem_cons_self, hr.trans h⟩

/-! ### What the recognizers find -/

namespace Recognizer

variable {r : Recognizer} {cs : List Char} {m : Match} {s : Symbol}

/-- There is a recognizer for each symbol, one for words and one for numbers. -/
lemma mem_all_iff : r ∈ all ↔ (∃ s, r = symbol s) ∨ r = word ∨ r = number := by
  unfold all
  rw [List.mem_append, List.mem_map, List.mem_cons, List.mem_singleton]
  exact or_congr_left ⟨fun ⟨s, _, h⟩ => ⟨s, h.symm⟩, fun ⟨s, h⟩ => ⟨s, s.mem_all, h.symm⟩⟩

lemma symbol_eq_some_iff :
    symbol s cs = some m ↔ s.spelling.toList <+: cs ∧ m = ⟨.symbol s, s.spelling.length⟩ := by
  unfold symbol
  rw [Option.ite_none_right_eq_some, List.isPrefixOf_iff_prefix, Option.some.injEq, eq_comm]

lemma word_eq_some_iff : word cs = some m ↔ cs.takeWhile isWordChar ≠ [] ∧
    m = ⟨wordKind (cs.takeWhile isWordChar), (cs.takeWhile isWordChar).length⟩ := by
  unfold word
  split
  · next hnil => simp [hnil]
  · next hne =>
    rw [Option.some.injEq, eq_comm]
    exact (and_iff_right hne).symm

end Recognizer

/-! ### How what they find is spelled -/

lemma wordKind_spells (word : List Char) : (Recognizer.wordKind word).Spells (String.ofList word) := by
  unfold Recognizer.wordKind
  split
  · next w hw =>
    have hspelling := List.find?_some hw
    rw [beq_iff_eq] at hspelling
    show String.ofList word = w.spelling
    rw [← hspelling, String.ofList_toList]
  · next hw =>
    intro w hword
    have hnot := List.find?_eq_none.1 hw w w.mem_all
    rw [beq_iff_eq] at hnot
    exact hnot (by rw [← hword, String.toList_ofList])

lemma takeWhile_spells {cs : List Char} {m : Match} (h : Recognizer.word cs = some m) :
    m.kind.Spells (String.ofList (cs.take m.length)) := by
  obtain ⟨-, rfl⟩ := Recognizer.word_eq_some_iff.1 h
  have htake : cs.take (cs.takeWhile Recognizer.isWordChar).length =
      cs.takeWhile Recognizer.isWordChar :=
    (List.prefix_iff_eq_take.1 (List.takeWhile_prefix _)).symm
  show (Recognizer.wordKind _).Spells (String.ofList (cs.take _))
  rw [htake]
  exact wordKind_spells _

lemma recognizer_spells {r : Recognizer} {cs : List Char} {m : Match} (hr : r ∈ Recognizer.all)
    (h : r cs = some m) : m.kind.Spells (String.ofList (cs.take m.length)) := by
  rcases Recognizer.mem_all_iff.1 hr with ⟨s, rfl⟩ | rfl | rfl
  · obtain ⟨-, rfl⟩ := Recognizer.symbol_eq_some_iff.1 h
    trivial
  · exact takeWhile_spells h
  · unfold Recognizer.number at h
    split at h
    · cases h
    · split at h <;> cases h <;> trivial

lemma first_spells {c : Char} {cs text : List Char} {kind : Kind}
    (h : Piece.first c cs = .token kind text) : kind.Spells (String.ofList text) := by
  have quote : ∀ {cs}, Piece.ofQuote cs = .token kind text → kind.Spells (String.ofList text) := by
    intro cs h
    unfold Piece.ofQuote at h
    split at h
    · cases h
      trivial
    · cases h
  have block : ∀ {cs}, Piece.ofBlockComment cs ≠ .token kind text := by
    intro cs h
    unfold Piece.ofBlockComment at h
    split at h <;> cases h
  have recognized : ∀ {c cs}, Piece.ofRecognizers c cs = .token kind text →
      kind.Spells (String.ofList text) := by
    intro c cs h
    unfold Piece.ofRecognizers at h
    split at h
    · next m hm =>
      cases h
      obtain ⟨r, hr, h⟩ := longest_mem hm
      exact recognizer_spells hr h
    · cases h
  unfold Piece.first at h
  split at h
  · cases h
  · split at h
    · cases h
    · exact absurd h block
    · exact quote h
    · exact recognized h

lemma split_spells {source text : List Char} {kind : Kind}
    (h : Piece.token kind text ∈ Piece.split source) : kind.Spells (String.ofList text) := by
  fun_induction Piece.split source with
  | case1 => cases h
  | case2 c cs piece ih =>
    rcases List.mem_cons.1 h with h | h
    · exact first_spells h.symm
    · exact ih h

lemma ofPieces_spelled (pieces : List Piece)
    (h : ∀ kind text, Piece.token kind text ∈ pieces → kind.Spells (String.ofList text)) (line : Nat) :
    ∀ t ∈ (Scan.ofPieces line pieces).tokens, t.Spelled := by
  induction pieces generalizing line with
  | nil =>
    intro t ht
    obtain rfl := List.mem_singleton.1 ht
    exact fun h => absurd rfl h
  | cons piece pieces ih =>
    have ih := ih (fun kind text ht => h kind text (List.mem_cons_of_mem piece ht))
      (line + piece.chars.count '\n')
    intro t ht
    rw [Scan.ofPieces.eq_def] at ht
    cases piece with
    | token kind text =>
      rcases List.mem_cons.1 ht with rfl | ht
      · exact fun _ => h kind text List.mem_cons_self
      · exact ih t ht
    | _ => exact ih t ht

/-- **Scanned tokens are spelled rightly**: no identifier is a keyword, and keywords are spelled as such. -/
theorem scan_spelled (source : String) : ∀ t ∈ (Scan.ofString source).tokens, t.Spelled :=
  ofPieces_spelled _ (fun _ _ h => split_spells h) 1

end ScriptLang
