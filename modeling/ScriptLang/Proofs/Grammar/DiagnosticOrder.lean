import Mathlib
import ScriptLang.Proofs.Grammar.Arising
import ScriptLang.Proofs.Grammar.Barrier
import ScriptLang.Proofs.Token.Segmentation
import ScriptLang.Proofs.Token.Dispatch

/-!
# Diagnostics in order

The diagnostics of a program come from its declarations, nested ones included, and from two lists: what made
declarations fail and what did not.  They are put in the order of their places.

* `Rule.Applies` — one rule applies another; the rules of a diagnostic are a chain of such applications;
* `Diagnostic.Locates.line_le` — of two places in tokens on lines that do not decrease;
* `Scan.ofPieces_lines` — the tokens of a text are on such lines;
* `Program.parse_error`, `Program.token_ne_none` — the diagnostics of a program are sorted and come from its
  declarations, and with an end mark a token is always there;
* `Program.diagnostics_in_order` — the theorem.
-/

namespace ScriptLang

open Grammar Outcome

variable {ts us : List Token} {ds : List Diagnostic} {d e : Diagnostic} {rule : Rule} {path : Path}

/-! ### The rules around an error -/

/-- The first rule applies the second one. -/
def Rule.Applies (outer inner : Rule) : Prop := inner ∈ outer.callees

/-- The rules that a diagnostic tells are those of the path, the rule in which it arises, and further on always one
that the rule before applies. -/
lemma Arises.rules (h : Arises rule path ts d) :
    ∃ inner, d.rules = path.reverse ++ rule :: inner ∧ (rule :: inner).IsChain Rule.Applies := by
  induction h with
  | @here rule path error ts => exact ⟨[], List.reverse_cons, .singleton rule⟩
  | later _ _ ih => exact ih
  | @inside rule inner path ts d hcallee _ ih =>
    obtain ⟨inners, hrules, hchain⟩ := ih
    refine ⟨inner :: inners, ?_, .cons_cons hcallee hchain⟩
    rw [hrules, Path.enter, List.reverse_cons, List.append_assoc, List.singleton_append]

/-! ### Places -/

/-- The token is missing only at the end. -/
lemma Diagnostic.Locates.token_eq_none_iff (h : d.Locates ts) : d.token = none ↔ d.remaining = 0 := by
  obtain ⟨hle, htoken⟩ := h
  rw [htoken, List.head?_eq_none_iff, List.drop_eq_nil_iff]
  omega

/-- A place that is not behind another one is not on a later line. -/
lemma Diagnostic.Locates.line_le (hd : d.Locates ts) (he : e.Locates ts) (hle : e.remaining ≤ d.remaining)
    (hlines : ts.Pairwise fun a b => a.line ≤ b.line) : ∀ a ∈ d.token, ∀ b ∈ e.token, a.line ≤ b.line := by
  intro a ha b hb
  rw [hd.2, Option.mem_def, List.head?_eq_some_iff] at ha
  obtain ⟨behind, hdrop⟩ := ha
  have hsuffix : ts.drop (ts.length - e.remaining) <:+ a :: behind := by
    have hplaces : ts.length - e.remaining = (ts.length - d.remaining) + (d.remaining - e.remaining) := by
      have := hd.1
      omega
    rw [hplaces, ← List.drop_drop, hdrop]
    exact List.drop_suffix _ _
  have hmem : b ∈ a :: behind := hsuffix.mem (List.mem_of_mem_head? (he.2 ▸ hb))
  have hsorted : (a :: behind).Pairwise fun a b => a.line ≤ b.line :=
    hdrop ▸ hlines.sublist (List.drop_sublist _ _)
  rcases List.mem_cons.1 hmem with rfl | hbehind
  · exact Nat.le_refl _
  · exact (List.pairwise_cons.1 hsorted).1 b hbehind

/-! ### The tokens of a text -/

/-- The tokens of a text are on the line where it starts or later, each on the line of the one before or later. -/
lemma Scan.ofPieces_lines (line : Nat) (pieces : List Piece) :
    (∀ t ∈ (Scan.ofPieces line pieces).tokens, line ≤ t.line) ∧
      (Scan.ofPieces line pieces).tokens.Pairwise fun a b => a.line ≤ b.line := by
  induction pieces generalizing line with
  | nil => exact ⟨by simp [ofPieces], List.pairwise_singleton _ _⟩
  | cons piece pieces ih =>
    obtain ⟨hfrom, hsorted⟩ := ih (line + piece.chars.count '\n')
    have hrest : ∀ t ∈ (Scan.ofPieces (line + piece.chars.count '\n') pieces).tokens, line ≤ t.line :=
      fun t ht => Nat.le_trans (Nat.le_add_right _ _) (hfrom t ht)
    cases piece with
    | token kind text =>
      exact ⟨List.forall_mem_cons.2 ⟨Nat.le_refl line, hrest⟩, List.pairwise_cons.2 ⟨hrest, hsorted⟩⟩
    | _ => exact ⟨hrest, hsorted⟩

lemma Scan.ofString_endMarked (source : String) : EndMarked (Scan.ofString source).tokens := by
  rw [(segmentation_ofString source).tokens_end]
  exact endMarked_concat _ rfl

/-! ### Programs -/

namespace Program

/-- Diagnostics that were sorted are sorted. -/
lemma pairwise_sorted (ds : List Diagnostic) :
    (ds.mergeSort fun d e => e.remaining ≤ d.remaining).Pairwise fun d e => e.remaining ≤ d.remaining := by
  have htrans : ∀ d e f : Diagnostic, decide (e.remaining ≤ d.remaining) → decide (f.remaining ≤ e.remaining) →
      decide (f.remaining ≤ d.remaining) := by
    simp only [decide_eq_true_eq]
    omega
  have htotal : ∀ d e : Diagnostic, decide (e.remaining ≤ d.remaining) || decide (d.remaining ≤ e.remaining) := by
    simp only [Bool.or_eq_true, decide_eq_true_eq]
    omega
  exact (List.pairwise_mergeSort htrans htotal ds).imp of_decide_eq_true

/-- What a program is refused for is there, is sorted, and comes from its declarations. -/
lemma parse_error (h : parse ts = .error ds) :
    ds ≠ [] ∧ ds.Pairwise (fun d e => e.remaining ≤ d.remaining) ∧
      ∀ d ∈ ds, ∃ us, us <:+ ts ∧ Arises .declaration [.program] us d := by
  unfold parse at h
  simp only at h
  split at h
  · cases h
  · next hsome =>
    cases h
    refine ⟨fun hnil => hsome ?_, ?_, fun d hd => ?_⟩
    · have hperm := List.mergeSort_perm ((programItems [.program] ts).failures ++ (programItems [.program] ts).reported)
        fun a b : Diagnostic => b.remaining ≤ a.remaining
      rw [hnil] at hperm
      exact hperm.nil_eq.symm
    · exact pairwise_sorted _
    · obtain ⟨us, hus, hd⟩ := mem_programItems _ ts (List.mem_mergeSort.1 hd)
      exact ⟨us, hus, declaration_raises _ us d hd⟩

/-- No diagnostic of tokens with an end mark is about the end of the list. -/
lemma token_ne_none (h : parse ts = .error ds) (hts : EndMarked ts) (hd : d ∈ ds) : d.token ≠ none := by
  intro hnone
  have hplace : d.remaining = 0 := (parse_arises h d hd).located.token_eq_none_iff.1 hnone
  -- With one more token behind the mark, the place is where that token stands.
  have hmore : parse (ts ++ [⟨.eof, "", 0⟩]) = .error (ds.map (·.before [⟨.eof, "", 0⟩])) := by
    rw [parse_append hts, h]
    rfl
  have hthere := (parse_arises hmore _ (List.mem_map_of_mem hd)).located.token_eq_none_iff.1 hnone
  exact absurd hthere (Nat.succ_ne_zero d.remaining)

/-- **The diagnostics of a program point into its tokens, in order.**  There is at least one.  Each tells the token at
its place, none only if that is the end of the list, and the rules it tells start with a program and a declaration,
each applied by the one before.  The places never go back.  If the tokens end with an end mark, like those of any text,
no token is missing; and for the tokens of a text the lines never go back. -/
theorem diagnostics_in_order (h : parse ts = .error ds) :
    ds ≠ [] ∧
      (∀ d ∈ ds, d.Locates ts ∧ (d.token = none ↔ d.remaining = 0) ∧
        ∃ inner, d.rules = .program :: .declaration :: inner ∧ d.rules.IsChain Rule.Applies) ∧
      ds.Pairwise (fun d e => e.remaining ≤ d.remaining) ∧
      (EndMarked ts → ∀ d ∈ ds, d.token ≠ none) ∧
      ∀ source, ts = (Scan.ofString source).tokens →
        (∀ d ∈ ds, d.token ≠ none) ∧ (ds.filterMap (·.token)).Pairwise fun a b => a.line ≤ b.line := by
  obtain ⟨hne, hsorted, harises⟩ := parse_error h
  have hlocates : ∀ d ∈ ds, d.Locates ts := fun d hd => (parse_arises h d hd).located
  refine ⟨hne, fun d hd => ⟨hlocates d hd, (hlocates d hd).token_eq_none_iff, ?_⟩, hsorted,
    fun hts d hd => token_ne_none h hts hd, ?_⟩
  · obtain ⟨us, -, hd⟩ := harises d hd
    obtain ⟨inner, hrules, hchain⟩ := hd.rules
    have hfirst : Rule.Applies .program .declaration := List.mem_singleton_self _
    exact ⟨inner, hrules, hrules ▸ .cons_cons hfirst hchain⟩
  · rintro source rfl
    refine ⟨fun d hd => token_ne_none h (Scan.ofString_endMarked source) hd, List.pairwise_filterMap.2 ?_⟩
    exact hsorted.imp_of_mem fun hd he hle => (hlocates _ hd).line_le (hlocates _ he) hle (Scan.ofPieces_lines 1 _).2

/-- What was reported in front of a failure is told in front of it. -/
theorem diagnostics_in_order_two_lines :
    let target : Diagnostic := ⟨.invalidAssignmentTarget,
      [.program, .declaration, .statement, .expressionStatement, .expression, .assignment],
      some ⟨.symbol .equal, "=", 1⟩, 6⟩
    let name : Diagnostic := ⟨.expectedIdentifier, [.program, .declaration, .letDeclaration],
      some ⟨.symbol .semicolon, ";", 2⟩, 2⟩
    parse (Scan.ofString "null = null;\nlet;").tokens = .error [target, name] ∧
      ([target, name].filterMap (·.token)).Pairwise fun a b => a.line ≤ b.line := by
  intro target name
  have herror : parse (Scan.ofString "null = null;\nlet;").tokens = .error [target, name] := by
    rw [Scan.ofString_eq_dispatch]
    cbv
  exact ⟨herror, ((diagnostics_in_order herror).2.2.2.2 _ rfl).2⟩

end Program

end ScriptLang
