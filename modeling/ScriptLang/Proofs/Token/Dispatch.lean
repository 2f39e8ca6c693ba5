import ScriptLang.Proofs.Token.RecognizerOrder
import ScriptLang.Proofs.Token.Segmentation

/-!
# The first character of a token

Symbols, words and numbers begin with different characters, so the first character of a text says which recognizers can
find something there.  The others need not be tried: a scanner that goes by the first character finds the same pieces.

* `Recognizer.admitted` — the recognizers that a first character admits;
* `longest_admitted` — the longest match is theirs;
* `Scan.dispatch` — a scanner that goes by the first character;
* `Scan.ofString_eq_dispatch` — the theorem.
-/

namespace ScriptLang

open Recognizer

variable {c : Char} {cs text : List Char} {r : Recognizer} {m : Match} {s : Symbol}

/-- The symbols whose spelling begins with the character. -/
def Symbol.opening : Char → List Symbol
  | '(' => [leftParen]
  | ')' => [rightParen]
  | '\x7b' => [leftBrace]
  | '\x7d' => [rightBrace]
  | ',' => [comma]
  | '.' => [dot]
  | '-' => [minus]
  | '+' => [plus]
  | ';' => [semicolon]
  | '/' => [slash]
  | '*' => [star]
  | '!' => [bang, bangBang, bangEqual]
  | '=' => [equal, equalEqual]
  | '>' => [greater, greaterEqual]
  | '<' => [less, lessEqual]
  | '?' => [question, questionQuestion]
  | _ => []

/-- The recognizers that may find something where a text begins with the character. -/
def Recognizer.admitted (c : Char) : List Recognizer :=
  if isWordChar c then [word] else if c.isDigit then [number] else (Symbol.opening c).map symbol

/-- The first piece of a text, by the recognizers that its first character admits.  A slash may begin a comment as
well as a symbol. -/
def Piece.dispatch (c : Char) (cs : List Char) : Piece :=
  if c = '/' then first c cs
  else
    match longest (admitted c) (c :: cs) with
    | some m => .token m.kind ((c :: cs).take m.length)
    | none => first c cs

/-- The pieces of a text, each by its first character. -/
def Piece.dispatchAll : List Char → List Piece
  | [] => []
  | c :: cs =>
    let piece := dispatch c cs
    piece :: dispatchAll (cs.drop (piece.chars.length - 1))
termination_by cs => cs.length
decreasing_by simp only [List.length_drop, List.length_cons]; omega

/-- The tokens and errors of a source text, each piece by its first character. -/
def Scan.dispatch (source : String) : Scan :=
  ofPieces 1 (Piece.dispatchAll source.toList)

/-! ### What a first character admits -/

lemma mem_opening (h : s.spelling.toList = c :: text) : s ∈ Symbol.opening c := by
  cases s <;> obtain ⟨rfl, -⟩ := List.cons.inj h <;> decide

lemma opening_of_symbol (h : symbol s (c :: cs) = some m) : s ∈ Symbol.opening c := by
  obtain ⟨d, text, htext, -⟩ := (Lexeme.symbol s).opens
  obtain ⟨hahead, -⟩ := symbol_eq_some_iff.1 h
  rw [htext] at hahead
  exact mem_opening ((List.cons_prefix_cons.1 hahead).1 ▸ htext)

/-- What a recognizer finds may begin with the character that lies ahead. -/
lemma kind_opens (hr : r ∈ all) (h : r (c :: cs) = some m) : m.kind.Opens c := by
  obtain ⟨d, ds, htake, hopens⟩ := (Recognizer.sound hr h).opens
  obtain ⟨rfl, -⟩ := List.cons_prefix_cons.1 (htake ▸ List.take_prefix m.length (c :: cs))
  exact hopens

/-- A recognizer that finds something is one that the first character admits. -/
lemma mem_admitted (hr : r ∈ all) (h : r (c :: cs) = some m) : r ∈ admitted c := by
  have hopens := kind_opens hr h
  unfold admitted
  rcases mem_all_iff.1 hr with ⟨s, rfl⟩ | rfl | rfl
  · rw [symbol_kind h] at hopens
    rw [if_neg (by simp [hopens.1]), if_neg (by simp [hopens.2])]
    exact List.mem_map_of_mem (opening_of_symbol h)
  · have hword : isWordChar c = true := by
      rcases word_kind h with ⟨w, hw⟩ | hw <;> rwa [hw] at hopens
    rw [if_pos hword]
    exact List.mem_singleton_self _
  · have hdigit : c.isDigit = true := by
      obtain ⟨x, hx⟩ := number_kind h
      rwa [hx] at hopens
    have hword : ¬ isWordChar c = true := fun hword => by simp [isDigit_of_isWordChar hword] at hdigit
    rw [if_neg hword, if_pos hdigit]
    exact List.mem_singleton_self _

lemma admitted_subset (hr : r ∈ admitted c) : r ∈ all := by
  unfold admitted at hr
  split at hr
  · obtain rfl := List.mem_singleton.1 hr
    exact word_mem_all
  split at hr
  · obtain rfl := List.mem_singleton.1 hr
    exact number_mem_all
  · obtain ⟨s, -, rfl⟩ := List.mem_map.1 hr
    exact symbol_mem_all s

/-- **The longest match is one that the first character admits.** -/
lemma longest_admitted (c : Char) (cs : List Char) : longest (admitted c) (c :: cs) = longest all (c :: cs) :=
  longest_of_finders (fun _ => admitted_subset) fun _ hr _ => mem_admitted hr

/-! ### Going by the first character -/

lemma dispatch_eq_first (c : Char) (cs : List Char) : Piece.dispatch c cs = Piece.first c cs := by
  unfold Piece.dispatch
  split
  · rfl
  · next hslash =>
    rw [longest_admitted]
    rcases hm : longest all (c :: cs) with _ | m
    · rfl
    · have hvisible : IsVisible c := (longest_lexeme hm).visible
      have hcomment : ∀ d, ¬ ['/', d] <+: c :: cs := by
        intro d hahead
        exact hslash (List.cons_prefix_cons.1 hahead).1.symm
      rw [first_other hvisible.not_blank hvisible.2.2 (hcomment _) (hcomment _), Piece.ofRecognizers, hm]

lemma dispatchAll_eq_split (cs : List Char) : Piece.dispatchAll cs = Piece.split cs := by
  fun_induction Piece.split cs with
  | case1 => rw [Piece.dispatchAll]
  | case2 c cs piece ih => rw [Piece.dispatchAll, dispatch_eq_first, ih]

/-- **A scanner that goes by the first character finds the same tokens and errors.** -/
theorem Scan.ofString_eq_dispatch (source : String) : ofString source = dispatch source := by
  rw [dispatch, dispatchAll_eq_split]
  rfl

end ScriptLang
