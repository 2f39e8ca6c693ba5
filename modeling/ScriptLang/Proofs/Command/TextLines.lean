import Mathlib
import ScriptLang.Command.Repl

/-!
# The lines of a text

The loop is given bytes.  If they are those of a text, cutting them behind each line break cuts the text into
its lines: no byte of another character is a line break.

* `AreLines` — which strings are the lines of a text;
* `areLines_textLines` — every text has lines;
* `AreLines.unique` — and no others;
* `decode_splitLines` — what the loop is given for the bytes of a text.
-/

namespace ScriptLang.Command.Repl

variable {c : Char} {cs line : List Char} {bytes first : List UInt8} {text : String} {lines lines' : List String}

/-! ### Lines -/

/-- The lines of a text in their order: none is empty, a line break stands nowhere but at the end of one, and only
the last can be without it. -/
structure AreLines (text : String) (lines : List String) : Prop where
  join : String.join lines = text
  nonempty : ∀ line ∈ lines, line ≠ ""
  inside : ∀ line ∈ lines, '\n' ∉ line.toList.dropLast
  ended : ∀ line ∈ lines.dropLast, line.toList.getLast? = some '\n'

/-- The lines of some characters. -/
def textLines : List Char → List (List Char)
  | [] => []
  | c :: cs =>
    match textLines cs with
    | line :: rest => if c = '\n' then [c] :: line :: rest else (c :: line) :: rest
    | [] => [[c]]

lemma textLines_flatten (cs : List Char) : (textLines cs).flatten = cs := by
  induction cs with
  | nil => rfl
  | cons c cs ih =>
    rw [textLines]
    rcases h : textLines cs with _ | ⟨line, rest⟩ <;> rw [h] at ih
    · rw [← ih]
      rfl
    · rw [← ih]
      dsimp only
      split <;> rfl

/-- What holds of lines as lists of characters. -/
lemma textLines_shape (cs : List Char) :
    (∀ line ∈ textLines cs, line ≠ [] ∧ '\n' ∉ line.dropLast) ∧
      ∀ line ∈ (textLines cs).dropLast, line.getLast? = some '\n' := by
  induction cs with
  | nil => exact ⟨nofun, nofun⟩
  | cons c cs ih =>
    rw [textLines]
    rcases h : textLines cs with _ | ⟨line, rest⟩ <;> rw [h] at ih
    · exact ⟨by simp, nofun⟩
    obtain ⟨hlines, hended⟩ := ih
    obtain ⟨hline, hrest⟩ := List.forall_mem_cons.1 hlines
    dsimp only
    split
    next hc =>
      -- A line break is a line of its own in front of the others.
      refine ⟨List.forall_mem_cons.2 ⟨by simp, hlines⟩, ?_⟩
      rw [List.dropLast_cons_of_ne_nil (List.cons_ne_nil _ _)]
      exact List.forall_mem_cons.2 ⟨congrArg some hc, hended⟩
    next hc =>
      refine ⟨List.forall_mem_cons.2 ⟨⟨List.cons_ne_nil _ _, ?_⟩, hrest⟩, ?_⟩
      · rw [List.dropLast_cons_of_ne_nil hline.1]
        exact List.not_mem_cons_of_ne_of_not_mem (Ne.symm hc) hline.2
      · cases rest with
        | nil => exact nofun
        | cons next rest =>
          rw [List.dropLast_cons_of_ne_nil (List.cons_ne_nil _ _)] at hended ⊢
          obtain ⟨hfirst, hothers⟩ := List.forall_mem_cons.1 hended
          refine List.forall_mem_cons.2 ⟨?_, hothers⟩
          rw [List.getLast?_cons, hfirst]
          rfl

lemma join_map_ofList (ls : List (List Char)) : String.join (ls.map String.ofList) = String.ofList ls.flatten := by
  induction ls with
  | nil => rfl
  | cons l ls ih => rw [List.map_cons, String.join_cons, ih, List.flatten_cons, String.ofList_append]

lemma areLines_textLines (text : String) : AreLines text ((textLines text.toList).map String.ofList) := by
  obtain ⟨hlines, hended⟩ := textLines_shape text.toList
  refine ⟨?_, List.forall_mem_map.2 fun line hline => ?_, List.forall_mem_map.2 fun line hline => ?_, ?_⟩
  · rw [join_map_ofList, textLines_flatten, String.ofList_toList]
  · exact fun h => (hlines line hline).1 (by simpa using congrArg String.toList h)
  · rw [String.toList_ofList]
    exact (hlines line hline).2
  · rw [← List.map_dropLast]
    refine List.forall_mem_map.2 fun line hline => ?_
    rw [String.toList_ofList]
    exact hended line hline

/-- The first line of a text is no longer than the characters up to its first line break. -/
lemma length_le_of_append {l l' r r' : List Char} (h : l ++ r = l' ++ r')
    (hended : r ≠ [] → l.getLast? = some '\n') (hinside : '\n' ∉ l'.dropLast) : l'.length ≤ l.length := by
  by_contra hlt
  have hle : l.length ≤ l'.length := Nat.le_of_not_le hlt
  obtain ⟨more, rfl⟩ : l <+: l' :=
    List.prefix_of_prefix_length_le (h ▸ List.prefix_append l r) (List.prefix_append l' r') hle
  have hmore : more ≠ [] := fun hnil => by
    rw [hnil, List.append_nil] at hlt
    exact hlt (Nat.le_refl _)
  have hr : r ≠ [] := fun hnil => hmore (by
    rw [hnil, List.append_assoc] at h
    exact (List.append_eq_nil_iff.1 (List.append_cancel_left h).symm).1)
  -- So the line break at the end of the shorter one is inside the longer one.
  rw [List.dropLast_append_of_ne_nil hmore] at hinside
  exact hinside (List.mem_append_left _ (List.mem_of_getLast? (hended hr)))

lemma AreLines.first_ended {rest : List String} {first : String} (h : AreLines text (first :: rest))
    (hrest : (String.join rest).toList ≠ []) : first.toList.getLast? = some '\n' := by
  have hne : rest ≠ [] := by
    rintro rfl
    exact hrest rfl
  refine h.ended first ?_
  rw [List.dropLast_cons_of_ne_nil hne]
  exact List.mem_cons_self

lemma AreLines.tail {rest : List String} {first : String} (h : AreLines text (first :: rest)) :
    AreLines (String.join rest) rest := by
  refine ⟨rfl, fun l hl => h.nonempty l (List.mem_cons_of_mem _ hl),
    fun l hl => h.inside l (List.mem_cons_of_mem _ hl), fun l hl => h.ended l ?_⟩
  cases rest with
  | nil => cases hl
  | cons second rest =>
    rw [List.dropLast_cons_of_ne_nil (List.cons_ne_nil _ _)]
    exact List.mem_cons_of_mem _ hl

/-- No text has other lines. -/
lemma AreLines.unique (h : AreLines text lines) (h' : AreLines text lines') : lines = lines' := by
  induction lines generalizing text lines' with
  | nil =>
    cases lines' with
    | nil => rfl
    | cons first rest =>
      refine absurd ?_ (h'.nonempty first List.mem_cons_self)
      have hempty := h'.join.trans h.join.symm
      rw [String.join_cons] at hempty
      exact (String.append_eq_empty_iff.1 hempty).1
  | cons first rest ih =>
    cases lines' with
    | nil =>
      refine absurd ?_ (h.nonempty first List.mem_cons_self)
      have hempty := h.join.trans h'.join.symm
      rw [String.join_cons] at hempty
      exact (String.append_eq_empty_iff.1 hempty).1
    | cons first' rest' =>
      have hjoin := congrArg String.toList (h.join.trans h'.join.symm)
      rw [String.join_cons, String.join_cons, String.toList_append, String.toList_append] at hjoin
      have hle := length_le_of_append hjoin h.first_ended (h'.inside _ List.mem_cons_self)
      have hge := length_le_of_append hjoin.symm h'.first_ended (h.inside _ List.mem_cons_self)
      obtain ⟨hfirst, hrest⟩ := List.append_inj hjoin (Nat.le_antisymm hge hle)
      rw [String.toList_inj.1 hfirst, ih h.tail (String.toList_inj.1 hrest ▸ h'.tail)]

/-! ### Bytes -/

lemma splitLines_cons (b : UInt8) (bytes : List UInt8) :
    splitLines (b :: bytes) =
      match splitLines bytes with
      | line :: rest => if b = 10 then [b] :: line :: rest else (b :: line) :: rest
      | [] => [[b]] := rfl

/-- Bytes among which no line break is stand at the beginning of the first line. -/
lemma splitLines_append (hne : first ≠ []) (h : (10 : UInt8) ∉ first) (bytes : List UInt8) :
    splitLines (first ++ bytes) =
      match splitLines bytes with
      | line :: rest => (first ++ line) :: rest
      | [] => [first] := by
  induction first with
  | nil => exact absurd rfl hne
  | cons b first ih =>
    have hb : b ≠ 10 := fun hb => h (hb ▸ List.mem_cons_self)
    have hfirst : (10 : UInt8) ∉ first := fun hmem => h (List.mem_cons_of_mem b hmem)
    rw [List.cons_append, splitLines_cons]
    cases first with
    | nil =>
      rcases hs : splitLines bytes with _ | ⟨line, rest⟩
      · rw [List.nil_append, hs]
      · rw [List.nil_append, hs]
        exact if_neg hb
    | cons b' first =>
      rw [ih (List.cons_ne_nil _ _) hfirst]
      rcases hs : splitLines bytes with _ | ⟨line, rest⟩ <;> exact if_neg hb

/-- A byte beyond 127 is no line break. -/
lemma ofNat_ne_ten {k base : Nat} (n : Nat) (hk : 0 < k) (hbase : 128 ≤ base) (h : k + base ≤ 256) :
    UInt8.ofNat (n % k + base) ≠ 10 := fun h10 => by
  have hmod : n % k < k := Nat.mod_lt n hk
  have hn : n % k + base = 10 := by
    rw [← UInt8.toNat_ofNat_of_lt' (show n % k + base < 256 by omega), h10]
    rfl
  omega

/-- No other character has a line break among its bytes. -/
lemma ten_not_mem_encode (hc : c ≠ '\n') : (10 : UInt8) ∉ String.utf8EncodeChar c := by
  have hall : ∀ b ∈ String.utf8EncodeChar c, b ≠ 10 := by
    unfold String.utf8EncodeChar
    dsimp only
    split_ifs with hone
    · refine List.forall_mem_singleton.2 fun h10 => hc (Char.ext (UInt32.toNat.inj ?_))
      have hbyte := congrArg UInt8.toNat h10
      rwa [UInt8.toNat_ofNat_of_lt' (Nat.lt_of_le_of_lt hone (by decide))] at hbyte
    all_goals simp only [List.forall_mem_cons]
    · exact ⟨ofNat_ne_ten _ (by decide) (by decide) (by decide), ofNat_ne_ten _ (by decide) (by decide) (by decide),
        nofun⟩
    · exact ⟨ofNat_ne_ten _ (by decide) (by decide) (by decide), ofNat_ne_ten _ (by decide) (by decide) (by decide),
        ofNat_ne_ten _ (by decide) (by decide) (by decide), nofun⟩
    · exact ⟨ofNat_ne_ten _ (by decide) (by decide) (by decide), ofNat_ne_ten _ (by decide) (by decide) (by decide),
        ofNat_ne_ten _ (by decide) (by decide) (by decide), ofNat_ne_ten _ (by decide) (by decide) (by decide),
        nofun⟩
  exact fun h10 => hall 10 h10 rfl

/-- The bytes of a text are cut where the text is. -/
lemma splitLines_encode (cs : List Char) :
    splitLines (cs.flatMap String.utf8EncodeChar) = (textLines cs).map (·.flatMap String.utf8EncodeChar) := by
  induction cs with
  | nil => rfl
  | cons c cs ih =>
    rw [List.flatMap_cons, textLines]
    by_cases hc : c = '\n'
    · subst hc
      rw [show String.utf8EncodeChar '\n' = [10] from rfl, List.singleton_append, splitLines_cons, ih]
      rcases textLines cs with _ | ⟨line, rest⟩ <;> rfl
    · rw [splitLines_append String.utf8EncodeChar_ne_nil (ten_not_mem_encode hc), ih]
      rcases textLines cs with _ | ⟨line, rest⟩
      · exact (congrArg (fun l => [l]) (List.append_nil _)).symm
      · dsimp only [List.map_cons]
        rw [if_neg hc]
        rfl

lemma toList_loop (b : ByteArray) (i : Nat) (l : List UInt8) :
    ByteArray.toList.loop b i l = l.reverse ++ b.data.toList.drop i := by
  fun_induction ByteArray.toList.loop b i l with
  | case1 i l h ih =>
    have hi : i < b.data.toList.length := h
    have hget : b.get! i = b.data.toList[i] := by
      rw [Array.getElem_toList]
      exact getElem!_pos b.data i h
    rw [ih, List.drop_eq_getElem_cons hi, hget, List.reverse_cons, List.append_assoc]
    rfl
  | case2 i l h =>
    rw [List.drop_eq_nil_of_le (Nat.le_of_not_lt h), List.append_nil]

lemma toList_toUTF8 (text : String) : text.toUTF8.toList = text.toList.flatMap String.utf8EncodeChar := by
  have hbytes : text.toUTF8 = text.toList.utf8Encode := by
    conv_lhs => rw [← String.ofList_toList (s := text)]
    rfl
  rw [ByteArray.toList, toList_loop, hbytes]
  exact List.toList_data_toByteArray

lemma decodeSource_encode (line : List Char) :
    decodeSource ⟨(line.flatMap String.utf8EncodeChar).toArray⟩ = .ok (String.ofList line) := by
  have hbytes : (⟨(line.flatMap String.utf8EncodeChar).toArray⟩ : ByteArray) = line.utf8Encode :=
    ByteArray.ext (Array.toList_inj.1 (List.toList_data_toByteArray).symm)
  unfold decodeSource String.fromUTF8?
  rw [hbytes, dif_pos ⟨line, rfl⟩]
  rfl

/-- **What the loop is given for a text** is its lines. -/
lemma decode_splitLines (text : String) :
    (splitLines text.toUTF8.toList).map (fun line => decodeSource ⟨line.toArray⟩) =
      ((textLines text.toList).map String.ofList).map .ok := by
  rw [toList_toUTF8, splitLines_encode, List.map_map, List.map_map]
  exact List.map_congr_left fun line _ => decodeSource_encode line

end ScriptLang.Command.Repl
