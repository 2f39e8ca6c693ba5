import Mathlib
import ScriptLang.Proofs.Token.Segmentation
import ScriptLang.Proofs.Token.Dispatch

/-!
# Texts behind one another

A line break separates two texts for scanning: whatever the first one ends with, the second is scanned as if it
stood alone, on later lines.  So the braces that are left open add up.

* `netDepth_append`, `braceDepth_lower` — what counting braces sees of a list of tokens;
* `scan_newline` — the theorem.
-/

namespace ScriptLang

variable {ts us : List Token} {a b : String} {k : Nat}

/-! ### Open braces -/

lemma netDepth_append : Scan.netDepth (ts ++ us) = Scan.netDepth ts + Scan.netDepth us := by
  induction ts with
  | nil => exact (Int.zero_add _).symm
  | cons t ts ih => rw [List.cons_append, Scan.netDepth, Scan.netDepth, ih, Int.add_assoc]

/-- Braces count the same on all lines. -/
lemma braceDepth_lower (scan : Scan) : (scan.lower k).braceDepth = scan.braceDepth := by
  obtain ⟨tokens, errors⟩ := scan
  show Scan.netDepth (tokens.map fun t => { t with line := t.line + k }) = Scan.netDepth tokens
  induction tokens with
  | nil => rfl
  | cons t ts ih =>
    rw [List.map_cons, Scan.netDepth, Scan.netDepth, ih]
    rfl

/-- The mark of the end is no brace. -/
lemma netDepth_end (line : Nat) : Scan.netDepth [⟨.eof, "", line⟩] = 0 := rfl

/-! ### Both texts -/

/-- **Scanning is compositional at line breaks.**  If the strings and the comments of a text are closed, however it
ends, a line break and a second text behind it give the tokens of the first without the mark of its end, and then
those of the second; and the errors of the first, and then those of the second.  What is of the second text stands
as many lines further down as the first has lines.  And the braces left open add up. -/
theorem scan_newline (a b : String) (h : ∀ e ∈ (Scan.ofString a).errors, ¬ e.IsOpen) :
    ∃ ts, (Scan.ofString a).tokens = ts ++ [⟨.eof, "", 1 + a.toList.count '\n'⟩] ∧
      (Scan.ofString (a ++ "\n" ++ b)).tokens =
        ts ++ (Scan.ofString b).tokens.map (fun t => { t with line := t.line + (1 + a.toList.count '\n') }) ∧
      (Scan.ofString (a ++ "\n" ++ b)).errors =
        (Scan.ofString a).errors ++ (Scan.ofString b).errors.map (·.lower (1 + a.toList.count '\n')) ∧
      (Scan.ofString (a ++ "\n" ++ b)).braceDepth = (Scan.ofString a).braceDepth + (Scan.ofString b).braceDepth := by
  obtain ⟨ts, last, -, htokens, happend⟩ := ofString_append_newline b h
  -- The mark of the end of the first text tells its last line.
  obtain rfl : last = 1 + a.toList.count '\n' := by
    have hend := (segmentation_ofString a).tokens_end
    rw [htokens, List.dropLast_concat] at hend
    simpa using hend
  refine ⟨ts, htokens, congrArg Scan.tokens happend, congrArg Scan.errors happend, ?_⟩
  have hdepth := braceDepth_lower (k := 1 + a.toList.count '\n') (Scan.ofString b)
  unfold Scan.braceDepth at hdepth ⊢
  rw [happend, htokens, netDepth_append, netDepth_append, netDepth_end, Int.add_zero, hdepth]

/-- The first text ends in a line comment with a brace in it, behind a character that starts no token. -/
theorem scan_newline_comment :
    (Scan.ofString "\x7b @ // \x7b").errors = [.unexpectedCharacter '@' 1] ∧
      (Scan.ofString ("\x7b @ // \x7b" ++ "\n" ++ "\x7d \"")).errors =
        [.unexpectedCharacter '@' 1, .unterminatedString 2] ∧
      (Scan.ofString ("\x7b @ // \x7b" ++ "\n" ++ "\x7d \"")).braceDepth = 0 := by
  have herrors : (Scan.ofString "\x7b @ // \x7b").errors = [.unexpectedCharacter '@' 1] := by
    rw [Scan.ofString_eq_dispatch]
    cbv
  have hclosed : ∀ e ∈ (Scan.ofString "\x7b @ // \x7b").errors, ¬ e.IsOpen := by
    rw [herrors]
    exact List.forall_mem_singleton.2 id
  obtain ⟨ts, -, -, hboth, hdepth⟩ := scan_newline _ "\x7d \"" hclosed
  refine ⟨herrors, ?_, ?_⟩
  · rw [hboth, herrors, Scan.ofString_eq_dispatch]
    cbv
  · rw [hdepth]
    simp only [Scan.ofString_eq_dispatch]
    cbv

end ScriptLang
