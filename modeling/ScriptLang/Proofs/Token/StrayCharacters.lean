import Mathlib
import ScriptLang.Proofs.Token.Segmentation

/-!
# Stray characters

A character that starts no token does no more harm than a blank.  It ends the token in front of it as a blank would,
since neither stands in a lexeme, and what is behind it is scanned as if it stood alone.

* `Piece.blanked` — a piece, with a blank for a stray character;
* `prefix_of_orBlank` — what lies ahead with blanks for some characters lay ahead before;
* `Piece.Rightful.in_front` — a piece stays the right one when blanks take the place of stray characters behind it;
* `strays_as_blanks` — the theorem.
-/

namespace ScriptLang

variable {piece : Piece} {pieces : List Piece} {cs ds rest w : List Char} {line : Nat}

/-- The text of a piece, with a blank for a stray character. -/
def Piece.blanked : Piece → List Char
  | .stray _ => [' ']
  | piece => piece.chars

/-- Whether the error is about a stray character. -/
def ScanError.isStray : ScanError → Bool
  | .unexpectedCharacter _ _ => true
  | .unterminatedString _ | .unterminatedComment _ => false

/-- The tokens of a scan, and its errors but for those about stray characters. -/
def Scan.withoutStrays (scan : Scan) : Scan := { scan with errors := scan.errors.filter (!·.isStray) }

/-- All pieces are the right ones where they stand. -/
def AllRightful (pieces : List Piece) : Prop :=
  ∀ before piece after, pieces = before ++ piece :: after → piece.Rightful (after.flatMap Piece.chars)

/-! ### Blanks in place of characters -/

/-- The character itself, or a blank in its place. -/
def OrBlank (c d : Char) : Prop := d = c ∨ d = ' '

lemma orBlank_refl (cs : List Char) : List.Forall₂ OrBlank cs cs := List.forall₂_same.2 fun _ _ => .inl rfl

lemma flatMap_blanked (pieces : List Piece) :
    List.Forall₂ OrBlank (pieces.flatMap Piece.chars) (pieces.flatMap Piece.blanked) := by
  induction pieces with
  | nil => exact .nil
  | cons piece pieces ih =>
    rw [List.flatMap_cons, List.flatMap_cons]
    refine List.rel_append ?_ ih
    cases piece with
    | stray => exact .cons (.inr rfl) .nil
    | _ => exact orBlank_refl _

/-- A word without a blank that lies ahead in a text with blanks for some characters lies ahead in the text itself. -/
lemma prefix_of_orBlank (h : List.Forall₂ OrBlank cs ds) (hw : ' ' ∉ w) (hp : w <+: ds) : w <+: cs := by
  induction h generalizing w with
  | nil => exact hp
  | cons hcd _ ih =>
    cases w with
    | nil => exact List.nil_prefix
    | cons a w =>
      obtain ⟨rfl, hlater⟩ := List.cons_prefix_cons.1 hp
      obtain ⟨ha, hnone⟩ := not_or.1 (mt List.mem_cons.2 hw)
      rcases hcd with rfl | rfl
      · exact List.cons_prefix_cons.2 ⟨rfl, ih hnone hlater⟩
      · exact absurd rfl ha

/-! ### Pieces in front of stray characters -/

lemma blanked_eq_chars (h : ∀ c, piece ≠ .stray c) : piece.blanked = piece.chars := by
  cases piece with
  | stray c => exact absurd rfl (h c)
  | _ => rfl

/-- No line break is a stray character, so what begins with one still does. -/
lemma blanked_head (h : AllRightful pieces) (hhead : ∀ c ∈ (pieces.flatMap Piece.chars).head?, c = '\n') :
    ∀ c ∈ (pieces.flatMap Piece.blanked).head?, c = '\n' := by
  cases pieces with
  | nil => exact fun c hc => absurd hc (Option.not_mem_none c)
  | cons piece pieces =>
    have hpiece : piece.Rightful (pieces.flatMap Piece.chars) := (rightful_cons.1 h).1
    have hstray : ∀ c, piece ≠ .stray c := by
      rintro c rfl
      obtain rfl : c = '\n' := hhead c rfl
      cases hpiece with
      | stray hblank => exact absurd hblank (by decide)
    obtain ⟨c, cs, hcs⟩ := List.exists_cons_of_ne_nil hpiece.chars_ne_nil
    rw [List.flatMap_cons, hcs] at hhead
    rw [List.flatMap_cons, blanked_eq_chars hstray, hcs]
    exact hhead

/-- **A piece stays the right one when blanks take the place of stray characters behind it**, if it is neither a run of
blanks, which would go on, nor a stray character itself. -/
lemma Piece.Rightful.in_front (h : piece.Rightful (pieces.flatMap Piece.chars)) (hlater : AllRightful pieces)
    (hblank : ∀ text, piece ≠ .blank text) (hstray : ∀ c, piece ≠ .stray c) :
    piece.Rightful (pieces.flatMap Piece.blanked) := by
  have hblanked := flatMap_blanked pieces
  generalize hrest : pieces.flatMap Piece.chars = rest at h hblanked
  cases h with
  | blank => exact absurd rfl (hblank _)
  | lineComment hinside hhead => exact .lineComment hinside (blanked_head hlater (hrest ▸ hhead))
  | blockComment hfirst => exact .blockComment hfirst
  | string hbody => exact .string hbody
  | @lexeme text kind rest hlongest hline hblock =>
    have htext : List.Forall₂ OrBlank (text ++ rest) (text ++ pieces.flatMap Piece.blanked) :=
      List.rel_append (orBlank_refl text) hblanked
    refine .lexeme ⟨hlongest.lexeme, List.prefix_append _ _, fun other kind' hother hahead => ?_⟩
      (mt (prefix_of_orBlank htext (by decide)) hline) (mt (prefix_of_orBlank htext (by decide)) hblock)
    have hnone : ' ' ∉ other := fun hmem => absurd (hother.visible ' ' hmem).1 (by decide)
    exact hlongest.longest other kind' hother (prefix_of_orBlank htext hnone hahead)
  | stray => exact absurd rfl (hstray _)
  | openString hopen =>
    rw [List.forall₂_nil_left_iff.1 hblanked]
    exact .openString hopen
  | openComment hopen =>
    rw [List.forall₂_nil_left_iff.1 hblanked]
    exact .openComment hopen

/-! ### Whole texts -/

lemma fromLine_blanks (hblank : ∀ c ∈ w, Text.isBlank c = true) (line : Nat) (cs : List Char) :
    Scan.fromLine line (w ++ cs) = Scan.fromLine (line + w.count '\n') cs := by
  induction w generalizing line with
  | nil => rfl
  | cons c w ih =>
    obtain ⟨hc, hw⟩ := List.forall_mem_cons.1 hblank
    have hcount : (c :: w).count '\n' = [c].count '\n' + w.count '\n' := by
      rw [← List.singleton_append, List.count_append]
    rw [hcount, ← Nat.add_assoc, ← ih hw]
    exact ofPieces_blank hc

lemma ofPieces_congr {pieces' : List Piece} (hstray : ∀ c, piece ≠ .stray c)
    (h : Scan.ofPieces (line + piece.chars.count '\n') pieces' =
      (Scan.ofPieces (line + piece.chars.count '\n') pieces).withoutStrays) :
    Scan.ofPieces line (piece :: pieces') = (Scan.ofPieces line (piece :: pieces)).withoutStrays := by
  rw [Scan.ofPieces.eq_def, Scan.ofPieces.eq_def line]
  simp only [h]
  cases piece with
  | stray c => exact absurd rfl (hstray c)
  | _ => rfl

/-- The pieces of a text, scanned again with blanks for the stray characters. -/
lemma fromLine_blanked (h : AllRightful pieces) (line : Nat) :
    Scan.fromLine line (pieces.flatMap Piece.blanked) = (Scan.ofPieces line pieces).withoutStrays := by
  induction pieces generalizing line with
  | nil =>
    unfold Scan.fromLine
    rw [List.flatMap_nil, Piece.split]
    rfl
  | cons piece pieces ih =>
    obtain ⟨hfirst, hlater⟩ := rightful_cons.1 h
    have hrest := ih hlater (line + piece.chars.count '\n')
    rw [List.flatMap_cons]
    cases piece with
    | blank text =>
      have hblank : ∀ c ∈ text, Text.isBlank c = true := by
        cases hfirst with
        | blank hrun => exact hrun.all
      exact (fromLine_blanks hblank line _).trans hrest
    | stray c =>
      -- The character is no line break, and neither is the blank in its place.
      have hcount : [c].count '\n' = 0 := by
        cases hfirst with
        | stray hblank =>
          refine List.count_eq_zero.2 fun hmem => ?_
          obtain rfl := List.mem_singleton.1 hmem
          exact absurd hblank (by decide)
      have hblank : ∀ d ∈ [' '], Text.isBlank d = true := List.forall_mem_singleton.2 (by decide)
      refine (fromLine_blanks hblank line _).trans ?_
      rw [Piece.chars, hcount] at hrest
      simp only [Scan.ofPieces, Piece.chars, hcount]
      exact hrest
    | comment | token | openString | openComment =>
      have hpiece := (hfirst.in_front hlater (by simp) (by simp)).split_eq rfl
      rw [blanked_eq_chars (by simp)]
      unfold Scan.fromLine at hrest ⊢
      rw [hpiece]
      exact ofPieces_congr (by simp) hrest

/-- **A stray character is exactly as harmful as a blank.**  A text is cut into its pieces, and of these the stray
characters are what the errors about characters are told for, each where it stands.  With a blank in the place of each
of them the text has the same tokens, on the same lines, and the same errors but for those. -/
theorem strays_as_blanks (source : String) : ∃ pieces,
    Segmentation source.toList pieces (Scan.ofString source) ∧
    Scan.ofChars (pieces.flatMap Piece.blanked) = (Scan.ofString source).withoutStrays := by
  have hseg := segmentation_ofString source
  exact ⟨Piece.split source.toList, hseg, fromLine_blanked hseg.rightful 1⟩

end ScriptLang
