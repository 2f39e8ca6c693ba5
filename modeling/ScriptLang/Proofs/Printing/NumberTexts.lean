import Mathlib
import ScriptLang.Proofs.Token.Lexeme

/-!
# The texts of numbers that were read

A number that is read from digits has no sign.  If it is finite, its text is a run of digits, with a point and another
run behind it or not, and so it is a number again when it is scanned.

* `Number.Unsigned`, `Number.read_msb` — floats without a sign, and that those which are read have none;
* `Number.Decimal.positional_lexeme` — decimals in positional notation;
* `Number.text_lexeme` — the text of a finite number that was read.
-/

namespace ScriptLang.Number

/-! ### Signs -/

section Signs

open Float.Model
open Float.Model.UnpackedFloat (Sign packComponents roundWithAccuracy)

/-- There is no sign in front of the float. -/
def Unsigned : UnpackedFloat → Prop
  | .notANumber => True
  | .infinity sign | .zero sign | .finite sign .. => sign = .positive

variable {spec : Format} {u v : UnpackedFloat}

lemma roundWithAccuracy_unsigned (m : Nat) (e : Int) (accuracy : UnpackedFloat.Accuracy) :
    Unsigned (roundWithAccuracy spec .positive m e accuracy) := by
  unfold roundWithAccuracy
  dsimp only
  split <;> rfl

lemma div_unsigned (hu : Unsigned u) (hv : Unsigned v) : Unsigned (UnpackedFloat.div spec u v) := by
  cases u <;> cases v <;> cases hu <;> cases hv <;> first | trivial | exact roundWithAccuracy_unsigned _ _ _

lemma ofNat_unsigned (n : Nat) : Unsigned (UnpackedFloat.ofNat spec n) := by
  show Unsigned (UnpackedFloat.normalize spec n 0 .positive)
  unfold UnpackedFloat.normalize
  split
  · next h => exact absurd (Int.natCast_nonneg n) (Int.not_le.2 (Int.compare_eq_lt.1 h))
  · rfl
  · exact roundWithAccuracy_unsigned _ _ _

lemma ofScientific_unsigned (m : Nat) (e : Int) : Unsigned (UnpackedFloat.ofScientific spec m e) := by
  unfold UnpackedFloat.ofScientific
  split
  · rfl
  · split
    · rfl
    · split
      · rfl
      · split <;> exact roundWithAccuracy_unsigned _ _ _

/-- Without a sign the first of the bits is not set. -/
lemma pack_msb (hu : Unsigned u) : (UnpackedFloat.pack .binary64 u).msb = false := by
  have hcomponents : ∀ (e : BitVec 11) (m : BitVec 52), (packComponents .binary64 .positive e m).msb = false := by
    intro e m
    unfold packComponents
    rw [BitVec.msb_append, BitVec.msb_append]
    rfl
  cases u with
  | notANumber => exact hcomponents _ _
  | infinity s =>
    cases hu
    exact hcomponents _ _
  | zero s =>
    cases hu
    exact hcomponents _ _
  | finite s m e hm =>
    cases hu
    unfold UnpackedFloat.pack
    dsimp only
    split
    · exact hcomponents _ _
    · split <;> exact hcomponents _ _

lemma unpack_unsigned {b : BitVec 64} (hb : b.msb = false) : Unsigned (UnpackedFloat.unpack .binary64 b) := by
  have hsign : Sign.ofBitVec (@UnpackedFloat.unpackSign .binary64 b) = .positive := by
    have hbit : @UnpackedFloat.unpackSign .binary64 b = 0#1 := by
      unfold UnpackedFloat.unpackSign
      ext i hi
      obtain rfl : i = 0 := by omega
      rw [BitVec.msb_eq_getLsbD_last] at hb
      rw [BitVec.getElem_cast, BitVec.extractLsb, BitVec.getElem_extractLsb', BitVec.getElem_zero]
      exact hb
    rw [hbit]
    rfl
  unfold UnpackedFloat.unpack
  dsimp only
  rw [hsign]
  split
  · split <;> trivial
  · split
    · split <;> rfl
    · rfl

end Signs

/-- **A number that is read from digits has no sign.** -/
lemma read_msb (whole fraction : List Char) : (read whole fraction).toBits.toBitVec.msb = false := by
  have hdiv : ∀ a b : Float, a.toBits.toBitVec.msb = false → b.toBits.toBitVec.msb = false →
      (a / b).toBits.toBitVec.msb = false := fun a b ha hb =>
    pack_msb (div_unsigned (unpack_unsigned ha) (unpack_unsigned hb))
  have hpowers : ∀ x ∈ Float.exactlyRepresentablePowersOfTen, x.toBits.toBitVec.msb = false := by
    decide +kernel
  unfold read Float.ofScientific
  split
  · rw [if_pos rfl]
    exact hdiv _ _ (pack_msb (ofNat_unsigned _)) (hpowers _ (Array.getElem_mem _))
  · exact pack_msb (ofScientific_unsigned _ _)

/-! ### Positional notation -/

/-- The number is neither infinite nor undefined. -/
def IsFinite (x : Float) : Prop := ∃ negative m q, Binary.ofFloat x = .finite negative m q

lemma ofFloat_read {whole fraction : List Char} (h : IsFinite (read whole fraction)) :
    ∃ m q, Binary.ofFloat (read whole fraction) = .finite false m q := by
  obtain ⟨negative, m, q, hx⟩ := h
  have hbits : (read whole fraction).toBits.toNat / pow2 63 = 0 := by
    have hmsb := BitVec.msb_eq_false_iff_two_mul_lt.1 (read_msb whole fraction)
    exact Nat.div_eq_of_lt (Nat.lt_of_mul_lt_mul_left (a := 2) hmsb)
  unfold Binary.ofFloat Binary.ofBits at hx ⊢
  rw [hbits] at hx ⊢
  simp only at hx ⊢
  split at hx
  · split at hx <;> cases hx
  · next hfield =>
    rw [if_neg hfield]
    split
    · exact ⟨_, _, rfl⟩
    · exact ⟨_, _, rfl⟩

lemma digits_run (n : Nat) : IsRun Char.isDigit (Nat.toDigits 10 n) :=
  ⟨Nat.toDigits_ne_nil, fun _ hc => Nat.isDigit_of_mem_toDigits (by decide) (by decide) hc⟩

lemma dropTrailingZeros_subset (ds : List Char) : dropTrailingZeros ds ⊆ ds := by
  intro c hc
  have hmem := (List.dropWhile_sublist _).subset (List.mem_reverse.1 hc)
  exact List.mem_reverse.1 hmem

/-- A decimal in positional notation is a number when it is scanned. -/
lemma Decimal.positional_lexeme (d : Decimal) : ∃ x, Lexeme d.positional (.number x) := by
  have hzeros : ∀ n, ∀ c ∈ List.replicate n '0', c.isDigit = true := fun n c hc =>
    (List.eq_of_mem_replicate hc).symm ▸ rfl
  have hdigits := digits_run d.digits
  unfold Decimal.positional
  simp only
  split
  · refine ⟨_, .whole ⟨List.append_ne_nil_of_left_ne_nil hdigits.ne_nil _, fun c hc => ?_⟩⟩
    rcases List.mem_append.1 hc with hc | hc
    · exact hdigits.all c hc
    · exact hzeros _ c hc
  · next hplaces =>
    generalize hpadded : List.replicate _ '0' ++ Nat.toDigits 10 d.digits = padded
    have hall : ∀ c ∈ padded, c.isDigit = true := by
      intro c hc
      rw [← hpadded] at hc
      rcases List.mem_append.1 hc with hc | hc
      · exact hzeros _ c hc
      · exact hdigits.all c hc
    have hlength : (-d.exponent).toNat < padded.length := by
      rw [← hpadded, List.length_append, List.length_replicate]
      omega
    have hwhole : IsRun Char.isDigit (padded.take (padded.length - (-d.exponent).toNat)) := by
      refine ⟨fun hnil => ?_, fun c hc => hall c (List.take_subset _ _ hc)⟩
      have hzero := congrArg List.length hnil
      rw [List.length_take, List.length_nil] at hzero
      omega
    split
    · exact ⟨_, .whole hwhole⟩
    · next hfraction =>
      refine ⟨_, .decimal hwhole ⟨hfraction, fun c hc => ?_⟩⟩
      exact hall c (List.drop_subset _ _ (dropTrailingZeros_subset _ hc))

/-- **The text of a finite number that was read is a number when it is scanned.** -/
theorem text_lexeme {whole fraction : List Char} (h : IsFinite (read whole fraction)) :
    ∃ x, Lexeme (text (read whole fraction)).toList (.number x) := by
  obtain ⟨m, q, hx⟩ := ofFloat_read h
  have htext : (text (read whole fraction)).toList = if m = 0 then ['0'] else (shortest m q).positional := by
    unfold text
    rw [hx, Binary.text, String.toList_ofList]
    rfl
  rw [htext]
  split
  · exact ⟨_, .whole ⟨List.cons_ne_nil _ _, List.forall_mem_singleton.2 rfl⟩⟩
  · exact (shortest m q).positional_lexeme

end ScriptLang.Number
