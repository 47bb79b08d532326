import Mathlib
import ControlDeck.Proofs.Numerals

namespace ControlDeck.Decimal

open Float.Model Float.Model.UnpackedFloat

/-- The exponent field of 64 bits; all ones in the infinities and in no number. -/
def exponentField (w : UInt64) : Nat :=
  w.toNat / 2 ^ 52 % 2 ^ 11

theorem toNat_unpackExponent (w : UInt64) :
    (@unpackExponent Format.binary64 w.toBitVec).toNat = exponentField w := by
  rw [unpackExponent_def, BitVec.extractLsb'_toNat, Nat.shiftRight_eq_div_pow]
  rfl

theorem unpackExponent_eq_ones_iff {w : UInt64} :
    @unpackExponent Format.binary64 w.toBitVec = -1#_ ↔ exponentField w = 2047 := by
  rw [← toNat_unpackExponent, ← BitVec.toNat_inj]
  rfl

/-- Only the bits of no number may be others in the double than those that it was made of. -/
theorem toBits_ofBits {w : UInt64} (h : exponentField w ≠ 2047) : (Float.ofBits w).toBits = w := by
  have number : @isNaNBits Format.binary64 w.toBitVec = false :=
    decide_eq_false fun nan => h (unpackExponent_eq_ones_iff.1 nan.1)
  have packed := @pack_unpack Format.binary64 w.toBitVec (by decide)
  rw [number, if_neg Bool.false_ne_true] at packed
  exact congrArg UInt64.ofBitVec packed

theorem isFinite_unpack_iff {spec : Format} {b : BitVec spec.numBits} :
    (unpack spec b).isFinite ↔ unpackExponent b ≠ -1#_ := by
  have zero : 0#_ ≠ -1#(spec.exponentBits) :=
    fun same => absurd (BitVec.zero_eq_neg_one_iff.1 same) (Nat.ne_of_gt spec.he)
  fun_cases unpack spec b with
  | case1 _ _ _ _ ones => exact iff_of_false Bool.false_ne_true (absurd ones)
  | case2 _ _ ones => exact iff_of_false Bool.false_ne_true (absurd ones)
  | case3 _ _ _ _ _ zeros => exact iff_of_true rfl (zeros.trans_ne zero)
  | case4 _ _ _ _ _ _ zeros => exact iff_of_true rfl (zeros.trans_ne zero)
  | case5 _ _ _ _ _ other => exact iff_of_true rfl other

theorem isFinite_iff_exponentField {x : Float} : x.isFinite ↔ exponentField x.toBits ≠ 2047 :=
  isFinite_unpack_iff.trans (not_congr unpackExponent_eq_ones_iff)

theorem isFinite_iff {x : Float} :
    x.isFinite ↔ ∃ negative m e, Binary.ofFloat x = .finite negative m e := by
  rw [isFinite_iff_exponentField]
  fun_cases Binary.ofFloat x with
  | case1 _ _ _ _ ones => exact iff_of_false (absurd ones) nofun
  | case2 _ _ _ ones => exact iff_of_false (absurd ones) nofun
  | case3 _ _ _ _ other => exact iff_of_true other ⟨_, _, _, rfl⟩
  | case4 _ _ _ _ other => exact iff_of_true other ⟨_, _, _, rfl⟩

theorem roundToEven_le (num den : Nat) : roundToEven num den ≤ num / den + 1 := by
  rw [roundToEven]
  have parity := Nat.mod_lt (num / den) (show 0 < 2 by decide)
  split
  · omega
  · split <;> omega

/-- A number below `2 ^ (e + k)` has less than `2 ^ k` units of `2 ^ e`. -/
theorem descale_div_lt {num k : Nat} {e : Int} (h : (num.log2 : Int) < e + k) :
    (descale num 1 e).1 / (descale num 1 e).2 < 2 ^ k := by
  have below : num < 2 ^ (num.log2 + 1) := Nat.lt_log2_self
  rw [descale]
  split
  · rename_i up
    rw [Nat.div_lt_iff_lt_mul (by simp [pow2]), Nat.one_mul, pow2]
    calc num < 2 ^ (num.log2 + 1) := below
      _ ≤ 2 ^ (k + e.toNat) := Nat.pow_le_pow_right (by decide) (by omega)
      _ = 2 ^ k * 2 ^ e.toNat := Nat.pow_add ..
  · rename_i down
    rw [Nat.div_one, pow2]
    calc num * 2 ^ (-e).toNat < 2 ^ (num.log2 + 1) * 2 ^ (-e).toNat :=
          Nat.mul_lt_mul_of_pos_right below (Nat.two_pow_pos _)
      _ = 2 ^ (num.log2 + 1 + (-e).toNat) := (Nat.pow_add ..).symm
      _ ≤ 2 ^ k := Nat.pow_le_pow_right (by decide) (by omega)

/-- The bits of a number below `2 ^ 64` stay far below those of an infinity. -/
theorem magnitudeBits_lt {num : Nat} (h : num < 2 ^ 64) : magnitudeBits num 1 < 2047 * 2 ^ 52 := by
  rw [magnitudeBits]
  split
  · decide
  · have size : num.log2 < 64 := (Nat.log2_lt ‹_›).2 h
    have one : Nat.log2 1 = 0 := rfl
    extract_lets e₀
    rcases descale num 1 e₀ with ⟨n₀, d₀⟩
    dsimp only
    generalize choice : max (if n₀ / d₀ < pow2 52 then e₀ - 1 else e₀) (-1074) = e
    have near : e₀ - 1 ≤ e ∧ e ≤ e₀ := by
      rw [← choice]
      split <;> omega
    have units : (descale num 1 e).1 / (descale num 1 e).2 < 2 ^ 54 := descale_div_lt (by omega)
    have rounded := roundToEven_le (descale num 1 e).1 (descale num 1 e).2
    rw [show pow2 52 = 2 ^ 52 from rfl]
    split <;> omega

theorem isFinite_ofRatio {negative : Bool} {num den : Nat}
    (h : magnitudeBits num den < 2047 * 2 ^ 52) : (ofRatio negative num den).isFinite := by
  have field : exponentField (UInt64.ofNat
      ((if negative then pow2 63 else 0) + magnitudeBits num den)) < 2047 := by
    have sign : pow2 63 = 2 ^ 63 := rfl
    rw [exponentField, UInt64.toNat_ofNat']
    split <;> omega
  rw [ofRatio, isFinite_iff_exponentField, toBits_ofBits field.ne]
  exact field.ne

theorem natAbs_lt_of_fitsWord {n : Int} (h : fitsWord 64 n) : n.natAbs < 2 ^ 64 := by
  have power : pow2 63 = 2 ^ 63 := rfl
  rw [fitsWord_iff, Nat.add_one_sub_one, power] at h
  omega

/-- Every integer of a signed word becomes a number. -/
theorem isFinite_ofInt {n : Int} (h : fitsWord 64 n) : (ofInt n).isFinite :=
  isFinite_ofRatio (magnitudeBits_lt (natAbs_lt_of_fitsWord h))

end ControlDeck.Decimal
