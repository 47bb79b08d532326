import ControlDeck.Decimal.Reader
import ControlDeck.Proofs.WholeDoubles

namespace ControlDeck.Decimal

/-- The least number that is rounded to an infinity. -/
def overflow : Nat :=
  2 ^ 1024 - 2 ^ 970

variable {num den n k : Nat} {e : Int} {negative : Bool}

theorem overflow_pos : 0 < overflow := by
  decide +kernel

theorem overflow_eq : overflow = (2 ^ 54 - 1) * 2 ^ 970 := by
  decide +kernel

theorem overflow_bounds_two : (2 : ℚ) ^ 1023 ≤ overflow ∧ (overflow : ℚ) ≤ 2 ^ 1024 :=
  ⟨mod_cast (by decide +kernel : 2 ^ 1023 ≤ overflow),
    mod_cast (by decide +kernel : overflow ≤ 2 ^ 1024)⟩

theorem overflow_bounds_ten : (10 : ℚ) ^ 308 ≤ overflow ∧ (overflow : ℚ) ≤ 10 ^ 309 :=
  ⟨mod_cast (by decide +kernel : 10 ^ 308 ≤ overflow),
    mod_cast (by decide +kernel : overflow ≤ 10 ^ 309)⟩

theorem descale_succ (num den k : Nat) :
    descale num den (k + 1 : Nat) = (num, den * (2 ^ k * 2)) := by
  rw [descale_eq, Int.toNat_natCast, Int.toNat_neg_natCast, Nat.pow_zero, Nat.mul_one, Nat.pow_succ]

/-- A number is rounded to less than an even one if it is below the middle between that and its
predecessor: the middle itself goes up. -/
theorem roundToEven_lt_iff (pos : 0 < den) (even : k % 2 = 0) :
    roundToEven num den < k ↔ 2 * num + den < 2 * (k * den) := by
  have parts := Nat.div_add_mod' num den
  have rest := Nat.mod_lt num pos
  rcases Nat.lt_or_ge (num / den) k with below | above
  · obtain ⟨m, rfl⟩ := Nat.exists_eq_add_of_lt below
    rw [Nat.add_mul, Nat.add_mul, Nat.one_mul]
    rcases Nat.eq_zero_or_pos m with rfl | far
    · rw [Nat.zero_mul, roundToEven]
      split
      · omega
      · split <;> omega
    · have low := roundToEven_le num den
      have most : den ≤ m * den := Nat.le_mul_of_pos_left den far
      omega
  · have low := le_roundToEven num den
    have most : k * den ≤ num / den * den := Nat.mul_le_mul_right den above
    omega

theorem descale_pos (num : Nat) (pos : 0 < den) (e : Int) : 0 < (descale num den e).2 := by
  rw [descale_eq]
  exact Nat.mul_pos pos (Nat.two_pow_pos _)

theorem zpow_eq_div {b : ℚ} (some : b ≠ 0) {m n : Nat} (h : e = m - n) : b ^ e = b ^ m / b ^ n := by
  rw [h, zpow_sub₀ some, zpow_natCast, zpow_natCast]

/-- A quotient in units of a power of two. -/
theorem descale_value (num den : Nat) (e : Int) :
    ((descale num den e).1 : ℚ) / (descale num den e).2 = num / den / 2 ^ e := by
  have power : (2 : ℚ) ^ e = 2 ^ e.toNat / 2 ^ (-e).toNat := zpow_eq_div two_ne_zero (by omega)
  rw [descale_eq, power]
  push_cast
  field_simp

theorem descale_div_lt_iff (pos : 0 < den) :
    (descale num den e).1 / (descale num den e).2 < 2 ^ k ↔ (num / den : ℚ) < 2 ^ (e + k) := by
  have unit := descale_pos num pos e
  have unit' : (0 : ℚ) < (descale num den e).2 := mod_cast unit
  have power : (0 : ℚ) < 2 ^ e := zpow_pos two_pos e
  rw [Nat.div_lt_iff_lt_mul unit, zpow_add₀ two_ne_zero, mul_comm ((2 : ℚ) ^ e),
    ← div_lt_iff₀ power, ← descale_value, div_lt_iff₀ unit', zpow_natCast]
  exact_mod_cast Iff.rfl

/-- A quotient lies between powers of two that are told by the digits of its parts. -/
theorem log2_bounds (some : num ≠ 0) (pos : 0 < den) :
    (2 : ℚ) ^ ((num.log2 : Int) - den.log2 - 1) ≤ num / den ∧
      (num / den : ℚ) < 2 ^ ((num.log2 : Int) - den.log2 + 1) := by
  have numLow : (2 : ℚ) ^ num.log2 ≤ num := mod_cast Nat.log2_self_le some
  have numHigh : (num : ℚ) < 2 ^ (num.log2 + 1) := mod_cast Nat.lt_log2_self
  have denLow : (2 : ℚ) ^ den.log2 ≤ den := mod_cast Nat.log2_self_le pos.ne'
  have denHigh : (den : ℚ) < 2 ^ (den.log2 + 1) := mod_cast Nat.lt_log2_self
  have part : (0 : ℚ) < den := mod_cast pos
  have low : (2 : ℚ) ^ ((num.log2 : Int) - den.log2 - 1) = 2 ^ num.log2 / 2 ^ (den.log2 + 1) :=
    zpow_eq_div two_ne_zero (by omega)
  have high : (2 : ℚ) ^ ((num.log2 : Int) - den.log2 + 1) = 2 ^ (num.log2 + 1) / 2 ^ den.log2 :=
    zpow_eq_div two_ne_zero (by omega)
  rw [low, high]
  exact ⟨div_le_div₀ num.cast_nonneg numLow part denHigh.le,
    div_lt_div₀ numHigh denLow (by positivity) (by positivity)⟩

/-- The exponent with which a number has 53 binary digits. -/
def fittingExponent (num den : Nat) : Int :=
  let e : Int := (num.log2 : Int) - den.log2 - 52
  if (descale num den e).1 / (descale num den e).2 < 2 ^ 52 then e - 1 else e

theorem fittingExponent_spec (some : num ≠ 0) (pos : 0 < den) :
    (2 : ℚ) ^ (fittingExponent num den + 52) ≤ num / den ∧
      (num / den : ℚ) < 2 ^ (fittingExponent num den + 53) := by
  obtain ⟨low, high⟩ := log2_bounds some pos
  rw [fittingExponent]
  generalize start : (num.log2 : Int) - den.log2 - 52 = e
  rw [show (num.log2 : Int) - den.log2 - 1 = e - 1 + 52 by omega] at low
  rw [show (num.log2 : Int) - den.log2 + 1 = e + 53 by omega] at high
  split
  · rename_i less
    rw [descale_div_lt_iff pos] at less
    refine ⟨low, ?_⟩
    rwa [show e - 1 + 53 = e + (52 : Nat) by omega]
  · rename_i enough
    rw [descale_div_lt_iff pos, not_lt] at enough
    exact ⟨enough, high⟩

theorem lt_overflow {b x : ℚ} {m : Nat} (base : 1 ≤ b) (least : b ^ m ≤ overflow)
    (below : x < b ^ e) (small : e ≤ m) : x < overflow :=
  calc x < b ^ e := below
    _ ≤ b ^ (m : Int) := zpow_le_zpow_right₀ base small
    _ ≤ overflow := (zpow_natCast b m).trans_le least

theorem overflow_le {b x : ℚ} {m : Nat} (base : 1 ≤ b) (most : overflow ≤ b ^ m)
    (above : b ^ e ≤ x) (large : m ≤ e) : overflow ≤ x :=
  calc (overflow : ℚ) ≤ b ^ (m : Int) := most.trans_eq (zpow_natCast b m).symm
    _ ≤ b ^ e := zpow_le_zpow_right₀ base large
    _ ≤ x := above

/-- The middle is half a unit below `2 ^ 53` units. -/
theorem lt_middle_iff (pos : 0 < den) (unit : Nat) :
    (num / den : ℚ) < ((2 ^ 54 - 1) * unit : Nat) ↔
      2 * num + den * (unit * 2) < 2 * (2 ^ 53 * (den * (unit * 2))) := by
  have part : (0 : ℚ) < den := mod_cast pos
  have whole : (num / den : ℚ) < ((2 ^ 54 - 1) * unit : Nat) ↔ num < (2 ^ 54 - 1) * unit * den := by
    rw [div_lt_iff₀ part]
    exact_mod_cast Iff.rfl
  rw [whole, Nat.mul_assoc, ← Nat.mul_assoc den, Nat.mul_comm unit den]
  omega

/-- With the exponent of the largest doubles, a number is rounded to 53 digits exactly if it is not
too large. -/
theorem roundToEven_lt_iff_lt_overflow (pos : 0 < den) :
    roundToEven (descale num den 971).1 (descale num den 971).2 < 2 ^ 53 ↔
      (num / den : ℚ) < overflow := by
  have unit := descale_pos num pos 971
  have scaled : descale num den 971 = (num, den * (2 ^ 970 * 2)) := descale_succ num den 970
  rw [roundToEven_lt_iff unit (by decide), overflow_eq, lt_middle_iff pos, scaled]

theorem magnitudeBits_eq (some : num ≠ 0) (chosen : max (fittingExponent num den) (-1074) = e)
    (rounded : roundToEven (descale num den e).1 (descale num den e).2 = k) :
    magnitudeBits num den =
      if k < 2 ^ 52 then k else min ((e + 1075).toNat * 2 ^ 52 + (k - 2 ^ 52)) (2047 * 2 ^ 52) := by
  rw [magnitudeBits, if_neg some, ← rounded, ← chosen]
  rfl

/-- The bits are those of an infinity exactly if the number is too large. -/
theorem magnitudeBits_lt_iff (pos : 0 < den) :
    magnitudeBits num den < 2047 * 2 ^ 52 ↔ (num / den : ℚ) < overflow := by
  by_cases zero : num = 0
  · rw [zero, magnitudeBits, if_pos rfl, Nat.cast_zero, zero_div]
    exact iff_of_true (by decide) (Nat.cast_pos.2 overflow_pos)
  obtain ⟨low, high⟩ := fittingExponent_spec zero pos
  generalize chosen : max (fittingExponent num den) (-1074) = e
  have reached : (num / den : ℚ) < 2 ^ (e + (53 : Nat)) :=
    high.trans_le (zpow_le_zpow_right₀ one_le_two (by omega))
  have most := (roundToEven_le (descale num den e).1 (descale num den e).2).trans
    ((descale_div_lt_iff pos).2 reached)
  rw [magnitudeBits_eq zero chosen rfl]
  rcases lt_or_ge e 972 with small | large
  · rcases lt_or_ge e 971 with smaller | last
    · -- All that is rounded up to the next power of two has room.
      refine iff_of_true ?_ (lt_overflow one_le_two overflow_bounds_two.1 reached (by omega))
      split <;> omega
    · have same : e = 971 := by omega
      rw [← roundToEven_lt_iff_lt_overflow pos, ← same]
      split <;> omega
  · have fitting : fittingExponent num den = e := by omega
    rw [fitting] at low
    have beyond := overflow_le one_le_two overflow_bounds_two.2 low (by omega)
    refine iff_of_false ?_ (not_lt.2 beyond)
    have least := not_lt.1 (mt (descale_div_lt_iff (k := 52) pos).1 (not_lt.2 low))
    have up := least.trans (le_roundToEven _ _)
    split <;> omega

theorem magnitudeBits_le (num den : Nat) : magnitudeBits num den ≤ 2047 * 2 ^ 52 := by
  by_cases zero : num = 0
  · rw [zero, magnitudeBits, if_pos rfl]
    exact Nat.zero_le _
  · rw [magnitudeBits_eq zero rfl rfl]
    split <;> omega

theorem not_isFinite_infinity (negative : Bool) : ¬(infinity negative).isFinite := by
  cases negative <;> decide +kernel

theorem ofRatio_of_overflow (pos : 0 < den) (large : (overflow : ℚ) ≤ num / den) :
    ofRatio negative num den = infinity negative := by
  have bits := not_lt.1 (mt (magnitudeBits_lt_iff pos).1 (not_lt.2 large))
  rw [ofRatio, Nat.le_antisymm (magnitudeBits_le num den) bits]
  cases negative <;> rfl

theorem isFinite_ofRatio_iff (pos : 0 < den) :
    (ofRatio negative num den).isFinite ↔ (num / den : ℚ) < overflow := by
  rcases lt_or_ge (num / den : ℚ) overflow with small | large
  · exact iff_of_true (isFinite_ofRatio ((magnitudeBits_lt_iff pos).2 small)) small
  · rw [ofRatio_of_overflow pos large]
    exact iff_of_false (not_isFinite_infinity negative) (not_lt.2 large)

/-- The number of decimal digits of a number bounds it. -/
theorem repr_bounds (some : n ≠ 0) (k : Int) :
    (10 : ℚ) ^ (n.repr.length + k - 1) ≤ n * 10 ^ k ∧
      (n * 10 ^ k : ℚ) < 10 ^ (n.repr.length + k) := by
  have power : (0 : ℚ) < 10 ^ k := by positivity
  have digits : 0 < n.repr.length := List.length_pos_iff.2 (digits_repr n).some
  have least : 10 ^ (n.repr.length - 1) ≤ n := by
    by_contra below
    rcases Nat.eq_zero_or_pos (n.repr.length - 1) with one | more
    · rw [one, Nat.pow_zero] at below
      omega
    · have shorter := (Nat.length_repr_le_iff more).2 (Nat.not_le.1 below)
      omega
  have low : (10 : ℚ) ^ (n.repr.length - 1) ≤ n := mod_cast least
  have high : (n : ℚ) < 10 ^ n.repr.length := mod_cast (Nat.length_repr_le_iff digits).1 le_rfl
  have first : (n.repr.length : Int) + k - 1 = (n.repr.length - 1 : Nat) + k := by omega
  rw [first, zpow_add₀ (by decide), zpow_add₀ (by decide), zpow_natCast, zpow_natCast]
  exact ⟨mul_le_mul_of_nonneg_right low power.le, mul_lt_mul_of_pos_right high power⟩

theorem mul_ten_pow (n : Nat) (k : Int) :
    (n * 10 ^ k : ℚ) = (n * pow10 k.toNat : Nat) / (pow10 (-k).toNat : Nat) := by
  have cast (m : Nat) : (pow10 m : ℚ) = 10 ^ m := by
    rw [show pow10 m = 10 ^ m from rfl, Nat.cast_pow, Nat.cast_ofNat]
  have power : (10 : ℚ) ^ k = 10 ^ k.toNat / 10 ^ (-k).toNat := zpow_eq_div (by decide) (by omega)
  rw [Nat.cast_mul, cast, cast, power, mul_div_assoc]

/-- The double nearest to a number is infinite from the middle between the largest double and the
next power of two on. The bounds within which powers of ten are computed lie beyond all doubles. -/
theorem isFinite_ofScientific_iff {k : Int} :
    (ofScientific negative n k).isFinite ↔ (n * 10 ^ k : ℚ) < overflow := by
  have zero : (ofRatio negative 0 1).isFinite := isFinite_ofRatio (by decide)
  by_cases none : n = 0
  · have positive : ((0 : Nat) * 10 ^ k : ℚ) < overflow := by
      rw [Nat.cast_zero, zero_mul]
      exact Nat.cast_pos.2 overflow_pos
    rw [ofScientific, none]
    exact iff_of_true zero positive
  obtain ⟨low, high⟩ := repr_bounds none k
  rw [ofScientific, decide_eq_false none, Bool.false_or]
  generalize (n.repr.length : Int) + k = magnitude at low high
  split
  · rename_i tiny
    have small := of_decide_eq_true tiny
    exact iff_of_true zero (lt_overflow (by decide) overflow_bounds_ten.1 high (by omega))
  · split
    · have beyond := overflow_le (by decide) overflow_bounds_ten.2 low (by omega)
      exact iff_of_false (not_isFinite_infinity negative) (not_lt.2 beyond)
    · rw [mul_ten_pow]
      exact isFinite_ofRatio_iff (Nat.pow_pos (by decide))

end ControlDeck.Decimal
