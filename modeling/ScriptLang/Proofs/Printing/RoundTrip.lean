import ScriptLang.Proofs.Grammar.Brackets
import ScriptLang.Proofs.Printing.ScannedTexts
import ScriptLang.Proofs.Printing.WrittenSentences

/-!
# Reading the text of a program

A program that was read from a source text, with no operators in it, is read again from its own text.  The text writes
a `for` as the loop that it stands for and the methods of a class in front of the static ones, and it sets no
parentheses but those of the tree: that this is enough rests on what the grammar lets a tree be.

* `Program.parse_text` — the theorem.
-/

namespace ScriptLang

open Grammar

variable {ι : Type} {source : String} {P : Program Unit}

/-- The tokens in front of the first mark of the end are pieces of the source text. -/
lemma arePieces_beforeEnd (source : String) : ArePieces (beforeEnd (Scan.ofString source).tokens) := by
  rw [beforeEnd_ofString]
  exact fun t ht => (segmentation_ofString source).rightful_token ht

/-- The text of a program does not tell how the uses of names in it are numbered. -/
lemma Program.text_number (P : Program Unit) (first : OccurrenceId) :
    Program.text (Program.number P first).1 = Program.text P := by
  obtain ⟨hforget, -⟩ := Stmt.numberList_spec first P
  have hlines := Stmt.lines_relabelList id (fun _ => ()) (Stmt.numberList P first).1
  rw [hforget] at hlines
  exact hlines.symm

/-- **A program without operators is read again from its text.**  Take a program that was read from the tokens of a
source text, with no operators in it, whose strings hold no quotes and no backslashes and whose numbers are finite;
and let the text of each number in it be read as this number.  Then the text of the program, whatever numbers its
uses of names have, is scanned without errors, and its tokens are read as the same program, up to lines. -/
theorem Program.parse_text (first : OccurrenceId) (hparse : Program.parse (Scan.ofString source).tokens = .ok P)
    (hfree : ∀ e ∈ Stmt.partsList P, ¬ e.IsOperation)
    (hplain : ∀ v, Expr.literal v ∈ Stmt.partsList P → v.IsPlain)
    (hnumbers : ∀ x, Expr.literal (.number x) ∈ Stmt.partsList P → Number.ReadsBack x) :
    (Scan.ofString (Program.text (Program.number P first).1)).errors = [] ∧
      ∃ P', Program.parse (Scan.ofString (Program.text (Program.number P first).1)).tokens = .ok P' ∧
        Stmt.unlinedList P' = Stmt.unlinedList P := by
  rw [Program.text_number]
  have hdeclarations := parse_ok_iff.1 hparse
  have hlegible : ∀ e ∈ Stmt.partsList P, e.Legible := by
    rintro e he v rfl
    refine ⟨hplain v he, ?_⟩
    rintro x rfl
    exact hnumbers x he
  obtain ⟨herrors, htokens⟩ := scan_text P (hdeclarations.written (arePieces_beforeEnd source) hlegible)
  obtain ⟨us, ends, hus, hus', hends⟩ := List.map_eq_append_iff.1 htokens
  obtain ⟨t, ts, rfl, ht, hts⟩ := List.map_eq_cons_iff.1 hends
  obtain rfl := List.map_eq_nil_iff.1 hts
  obtain ⟨P', hP', heq⟩ := hdeclarations.reread hfree us hus'
  refine ⟨herrors, P', parse_ok_iff.2 ?_, heq⟩
  have hend : AtEnd [t] := by
    intro t' ht'
    obtain rfl := Option.some.inj ht'
    exact isEnd_eq_true_iff.2 (Prod.mk.inj ht).1
  rwa [hus, beforeEnd_append hP'.noEnd hend]

/-! ### A loop without a condition -/

namespace Endless

/-- A loop without a condition around an assignment, with a comma too many. -/
def script : String := "for (;;) f(1,).b = \"a\";"

/-- Its pieces, with the number in it. -/
def pieces (x : Float) : List Piece :=
  .keyword .forKw :: .space :: .symbol .leftParen :: .symbol .semicolon :: .symbol .semicolon :: .symbol .rightParen ::
    .space :: .name "f" :: .symbol .leftParen :: .token (.number x) ['1'] :: .symbol .comma :: .symbol .rightParen ::
    .symbol .dot :: .name "b" :: assigned [.token (.string "a") "\"a\"".toList, .symbol .semicolon]

/-- What it is read as. -/
def tree (x : Float) : Program Unit :=
  [.while (.literal (.bool true)) (.expr (.set (.call 1 (.name .identifier ⟨⟨"f", 1⟩, ()⟩) [.literal (.number x)])
    ⟨"b", 1⟩ (.literal (.string "a"))))]

lemma one_written : Lexeme ['1'] (.number (Number.read ['1'] [])) :=
  .whole ⟨nofun, List.forall_mem_singleton.2 rfl⟩

lemma name_written {c : Char} (hc : Recognizer.isWordChar c = true)
    (hw : ∀ w ∈ Keyword.all, [c] ≠ w.spelling.toList) : IsWritten .identifier [c] :=
  .lexeme (.identifier ⟨nofun, List.forall_mem_singleton.2 hc⟩ fun w => hw w w.mem_all)

lemma inRow_pieces : InRow (pieces (Number.read ['1'] [])) [] := by
  have hf : IsWritten .identifier "f".toList := name_written (by decide) (by decide)
  have hb : IsWritten .identifier "b".toList := name_written (by decide) (by decide)
  have ha : IsWritten (.string "a") "\"a\"".toList := string_written (s := "a") ⟨by decide, by decide⟩
  have hvalue : IsRow [.token (.string "a") "\"a\"".toList, .symbol .semicolon] [] :=
    isRow_token ha (Literal.string "a").kind_ne_symbol (endsLexeme_symbol .semicolon (by decide)) rightful_semicolon
  have hargs : InRow (.token (.number (Number.read ['1'] [])) ['1'] :: .symbol .comma :: .symbol .rightParen ::
      .symbol .dot :: .name "b" :: assigned [.token (.string "a") "\"a\"".toList, .symbol .semicolon]) [] := by
    refine (isRow_token (.lexeme one_written) (Literal.number _).kind_ne_symbol (endsLexeme_symbol .comma (by decide)) ?_).1
    refine ⟨rightful_symbol (by decide), rightful_symbol (by decide), ?_⟩
    exact inRow_property hb endsLexeme_space (inRow_assigned hvalue)
  have hbody := isRow_token hf NameKind.identifier.kind_ne_symbol (endsLexeme_symbol .leftParen (by decide))
    (isRow_symbol (s := .leftParen) (by decide) hargs).1
  refine (isRow_in_front_of_space (.lexeme (.keyword .forKw)) (isRow_symbol (by decide) ?_)).1
  exact ⟨rightful_symbol (by decide), rightful_symbol (by decide), rightful_symbol (by decide), inRow_space hbody⟩

lemma tokens_script : (Scan.ofString script).tokens = (Scan.ofPieces 1 (pieces (Number.read ['1'] []))).tokens := by
  have hchars : charsOf (pieces (Number.read ['1'] [])) = script.toList := rfl
  have hsplit := inRow_pieces.split_eq
  rw [hchars] at hsplit
  exact congrArg (fun ps => (Scan.ofPieces 1 ps).tokens) hsplit

lemma parse_pieces (x : Float) : Program.parse (Scan.ofPieces 1 (pieces x)).tokens = .ok (tree x) := by cbv

lemma parse_script : Program.parse (Scan.ofString script).tokens = .ok (tree (Number.read ['1'] [])) := by
  rw [tokens_script, parse_pieces]

lemma readsBack_one : Number.ReadsBack (Number.read ['1'] []) := by
  have htext : Number.text (Number.read ['1'] []) = "1" := by decide +kernel
  intro y hy
  rw [htext] at hy
  exact Kind.number.inj (hy.kind_unique one_written)

lemma isFinite_one : Number.IsFinite (Number.read ['1'] []) := ⟨false, 2 ^ 52, -52, by decide +kernel⟩

lemma free_tree (x : Float) : ∀ e ∈ Stmt.partsList (tree x), ¬ e.IsOperation := by
  intro e he
  simp only [tree, Stmt.partsList, Stmt.parts, Expr.parts, Expr.partsList, List.mem_append, List.mem_cons,
    List.not_mem_nil, or_false] at he
  rcases he with rfl | rfl | (rfl | rfl | rfl) | rfl <;> exact nofun

lemma literal_tree {x : Float} {v : Literal} (h : Expr.literal v ∈ Stmt.partsList (tree x)) :
    v = .bool true ∨ v = .number x ∨ v = .string "a" := by
  simpa [tree, Stmt.partsList, Stmt.parts, Expr.parts, Expr.partsList] using h

end Endless

/-- The loop is written as the one that it stands for, and that is read as the same tree. -/
theorem Program.parse_text_endless : ∃ P, Program.parse (Scan.ofString Endless.script).tokens = .ok P ∧
    (∀ e ∈ Stmt.partsList P, ¬ e.IsOperation) ∧ (∀ v, Expr.literal v ∈ Stmt.partsList P → v.IsPlain) ∧
    (∀ x, Expr.literal (.number x) ∈ Stmt.partsList P → Number.ReadsBack x) ∧
    (Scan.ofString (Program.text (Program.number P 0).1)).errors = [] ∧
    ∃ P', Program.parse (Scan.ofString (Program.text (Program.number P 0).1)).tokens = .ok P' ∧
      Stmt.unlinedList P' = Stmt.unlinedList P := by
  have hplain : ∀ v, Expr.literal v ∈ Stmt.partsList (Endless.tree (Number.read ['1'] [])) → v.IsPlain := by
    intro v hv
    rcases Endless.literal_tree hv with rfl | rfl | rfl
    · trivial
    · exact Endless.isFinite_one
    · exact ⟨by decide, by decide⟩
  have hnumbers : ∀ x, Expr.literal (.number x) ∈ Stmt.partsList (Endless.tree (Number.read ['1'] [])) →
      Number.ReadsBack x := by
    intro x hx
    rcases Endless.literal_tree hx with h | h | h
    · cases h
    · obtain rfl := Literal.number.inj h
      exact Endless.readsBack_one
    · cases h
  refine ⟨Endless.tree (Number.read ['1'] []), Endless.parse_script, Endless.free_tree _, hplain, hnumbers, ?_⟩
  exact Program.parse_text 0 Endless.parse_script (Endless.free_tree _) hplain hnumbers

end ScriptLang
