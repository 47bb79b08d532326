import ControlDeck.Property.Value
import ControlDeck.Proofs.Doubles

namespace ControlDeck

open Float.Model Float.Model.UnpackedFloat

namespace Decimal

/-- What an unpacked double stands for. -/
def Binary.ofUnpacked : UnpackedFloat → Binary
  | .notANumber => .nan
  | .infinity sign => .infinite (sign == .negative)
  | .zero sign => .finite (sign == .negative) 0 (-1074)
  | .finite sign m e _ => .finite (sign == .negative) m e

variable {x y : Float}

theorem toNat_unpackMantissa (w : UInt64) :
    (@unpackMantissa Format.binary64 w.toBitVec).toNat = w.toNat % 2 ^ 52 := by
  rw [unpackMantissa_def, BitVec.extractLsb'_toNat, Nat.shiftRight_zero]
  rfl

theorem unpackMantissa_eq_zero_iff {w : UInt64} :
    @unpackMantissa Format.binary64 w.toBitVec = 0#_ ↔ w.toNat % 2 ^ 52 = 0 := by
  rw [← toNat_unpackMantissa, ← BitVec.toNat_inj]
  rfl

theorem unpackExponent_eq_zero_iff {w : UInt64} :
    @unpackExponent Format.binary64 w.toBitVec = 0#_ ↔ exponentField w = 0 := by
  rw [← toNat_unpackExponent, ← BitVec.toNat_inj]
  rfl

theorem ofBitVec_unpackSign (w : UInt64) :
    (Sign.ofBitVec (@unpackSign Format.binary64 w.toBitVec) == .negative) =
      (w.toNat / 2 ^ 63 == 1) := by
  have bit : (@unpackSign Format.binary64 w.toBitVec).toNat = w.toNat / 2 ^ 63 := by
    rw [unpackSign_def, BitVec.extractLsb'_toNat, Nat.shiftRight_eq_div_pow]
    have small : w.toNat / 2 ^ 63 < 2 := by
      have := w.toNat_lt
      omega
    exact Nat.mod_eq_of_lt small
  rw [← bit]
  generalize @unpackSign Format.binary64 w.toBitVec = b
  revert b
  decide

theorem toNat_append_mantissa (w : UInt64) :
    (1#1 ++ @unpackMantissa Format.binary64 w.toBitVec).toNat = w.toNat % 2 ^ 52 + 2 ^ 52 := by
  rw [BitVec.toNat_append, ← Nat.shiftLeft_add_eq_or_of_lt (BitVec.isLt _), toNat_unpackMantissa,
    Nat.add_comm]
  rfl

theorem ofFloat_eq (x : Float) : Binary.ofFloat x =
    if exponentField x.toBits = 2047 then
      if x.toBits.toNat % 2 ^ 52 = 0 then .infinite (x.toBits.toNat / 2 ^ 63 == 1) else .nan
    else if exponentField x.toBits = 0 then
      .finite (x.toBits.toNat / 2 ^ 63 == 1) (x.toBits.toNat % 2 ^ 52) (-1074)
    else .finite (x.toBits.toNat / 2 ^ 63 == 1) (x.toBits.toNat % 2 ^ 52 + 2 ^ 52)
      ((exponentField x.toBits : Int) - 1075) :=
  rfl

/-- The bits of a double are taken apart in one way, for what it stands for and for its order. -/
theorem ofFloat_eq_ofUnpacked (x : Float) : Binary.ofFloat x = .ofUnpacked x.toModel.unpack := by
  have negative := ofBitVec_unpackSign x.toBits
  have exponent := toNat_unpackExponent x.toBits
  have ones := @unpackExponent_eq_ones_iff x.toBits
  have zeros := @unpackExponent_eq_zero_iff x.toBits
  have empty := @unpackMantissa_eq_zero_iff x.toBits
  have taken : x.toModel.unpack = UnpackedFloat.unpack Format.binary64 x.toBits.toBitVec := rfl
  rw [ofFloat_eq, taken, ← negative]
  fun_cases UnpackedFloat.unpack Format.binary64 x.toBits.toBitVec with
  | case1 mantissa field bit sign all none => rw [if_pos (ones.1 all), if_pos (empty.1 none)]; rfl
  | case2 mantissa field all some => rw [if_pos (ones.1 all), if_neg (mt empty.2 some)]; rfl
  | case3 mantissa field bit sign other zero none =>
    rw [if_neg (mt ones.2 other), if_pos (zeros.1 zero), empty.1 none]
    rfl
  | case4 mantissa field value bit sign other zero some =>
    rw [if_neg (mt ones.2 other), if_pos (zeros.1 zero), ← toNat_unpackMantissa]
    have least : value + 1 = -1074 := by
      rw [show value = (field.toNat : Int) - (1023 + 52) from rfl, zero]
      rfl
    rw [Binary.ofUnpacked, least]
  | case5 mantissa field value bit sign other normal =>
    rw [if_neg (mt ones.2 other), if_neg (mt zeros.2 normal), ← toNat_append_mantissa]
    rw [← exponent]
    rfl

theorem lt_iff : x < y ↔ x.toModel.unpack.compare y.toModel.unpack = some .lt := by
  change decide (x.toModel < y.toModel) = true ↔ _
  rw [decide_eq_true_iff]
  exact beq_iff_eq

theorem beq_iff : (x == y) = true ↔ x.toModel.unpack.compare y.toModel.unpack = some .eq := by
  change (x.toModel.unpack.compare y.toModel.unpack == some .eq) = true ↔ _
  exact beq_iff_eq

theorem lt_zero_iff {negative : Bool} {m : Nat} {e : Int}
    (number : Binary.ofFloat x = .finite negative m e) : x < 0 ↔ negative = true ∧ m ≠ 0 := by
  have zero : (0 : Float).toModel.unpack = .zero .positive := rfl
  rw [ofFloat_eq_ofUnpacked] at number
  rw [lt_iff, zero]
  cases taken : x.toModel.unpack with
  | notANumber =>
    rw [taken] at number
    cases number
  | infinity sign =>
    rw [taken] at number
    cases number
  | zero sign =>
    rw [taken] at number
    cases number
    exact iff_of_false nofun fun both => both.2 rfl
  | finite sign mantissa exponent some =>
    rw [taken] at number
    cases number
    cases sign with
    | negative => exact iff_of_true rfl ⟨rfl, Nat.ne_of_gt some⟩
    | positive => exact iff_of_false nofun fun both => nomatch both.1

theorem compare_comm (a b : UnpackedFloat) : b.compare a = (a.compare b).map Ordering.swap := by
  have sizes (m n : Nat) (d e : Int) :
      (compare e d).then (compare n m) = ((compare d e).then (compare m n)).swap := by
    rw [Ordering.swap_then, ← Std.OrientedCmp.eq_swap, ← Std.OrientedCmp.eq_swap]
  fun_cases UnpackedFloat.compare a b with
  | case1 => cases b <;> rfl
  | case3 s t => cases s <;> cases t <;> rfl
  | case4 _ number bounded | case5 _ number bounded =>
    cases b with
    | notANumber => exact absurd rfl number
    | infinity t => exact absurd rfl (bounded t)
    | zero t => rfl
    | finite t => rfl
  | case6 _ number bounded | case7 _ number bounded =>
    cases a with
    | notANumber => exact absurd rfl number
    | infinity s => exact absurd rfl (bounded s)
    | zero s => rfl
    | finite s => rfl
  | case13 m d _ n e => exact congrArg some (congrArg Ordering.swap (sizes m n d e))
  | case16 m d _ n e => exact congrArg some (sizes m n d e)
  | _ => rfl

theorem compare_eq_none_iff (a b : UnpackedFloat) :
    a.compare b = none ↔ a.isNaN ∨ b.isNaN := by
  fun_cases UnpackedFloat.compare a b <;> simp [UnpackedFloat.isNaN]

end Decimal

open Decimal

variable {x y : Float}

/-- The order of two doubles is that of the numbers that they stand for. -/
theorem compareFloat_eq (x y : Float) :
    compareFloat x y = x.toModel.unpack.compare y.toModel.unpack := by
  have back := compare_comm x.toModel.unpack y.toModel.unpack
  rw [compareFloat]
  simp only [lt_iff, beq_iff, back]
  cases x.toModel.unpack.compare y.toModel.unpack with
  | none => rfl
  | some o => cases o <;> rfl

/-- Only no number has no order. -/
theorem compareFloat_eq_none_iff : compareFloat x y = none ↔ x.isNaN ∨ y.isNaN := by
  rw [compareFloat_eq, compare_eq_none_iff]
  exact Iff.rfl

end ControlDeck
