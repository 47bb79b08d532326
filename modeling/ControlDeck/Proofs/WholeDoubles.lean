import ControlDeck.Decimal.Fixed
import ControlDeck.Proofs.DoubleOrder

namespace ControlDeck.Decimal

/-- At most 53 binary digits before the zeros at the end: the whole numbers that are doubles, up to
the range of doubles. -/
def Representable (n : Nat) : Prop :=
  ∃ m k, m < 2 ^ 53 ∧ n = m * 2 ^ k

/-- The distance of the doubles about a whole number, if that is more than one. -/
def spacing (n : Nat) : Nat :=
  2 ^ (n.log2 - 52)

/-- A whole number rounded to 53 binary digits, a tie to the even one. -/
def nearestWhole (n : Nat) : Nat :=
  roundToEven n (spacing n) * spacing n

variable {n num den d : Nat}

theorem le_roundToEven (num den : Nat) : num / den ≤ roundToEven num den := by
  rw [roundToEven]
  split
  · exact Nat.le_refl _
  · split <;> omega

theorem roundToEven_mul (n : Nat) (pos : 0 < den) : roundToEven (n * den) den = n := by
  rw [roundToEven, Nat.mul_mod_left, Nat.mul_div_cancel n pos, if_pos (by omega)]

theorem roundToEven_one (n : Nat) : roundToEven n 1 = n := by
  have exact := roundToEven_mul n Nat.one_pos
  rwa [Nat.mul_one] at exact

/-- No multiple of the unit is nearer than the rounded one. -/
theorem roundToEven_nearest (num : Nat) (pos : 0 < den) (k : Nat) :
    Nat.dist (roundToEven num den * den) num ≤ Nat.dist (k * den) num := by
  have parts := Nat.div_add_mod' num den
  have rest := Nat.mod_lt num pos
  have next : (num / den + 1) * den = num / den * den + den := Nat.succ_mul _ _
  have side : k * den ≤ num / den * den ∨ num / den * den + den ≤ k * den := by
    rcases Nat.lt_or_ge (num / den) k with above | below
    · exact .inr (next ▸ Nat.mul_le_mul_right den above)
    · exact .inl (Nat.mul_le_mul_right den below)
  have down : roundToEven num den = num / den → 2 * (num % den) ≤ den := by
    rw [roundToEven]
    split
    · omega
    · split <;> omega
  have up : roundToEven num den = num / den + 1 → den ≤ 2 * (num % den) := by
    rw [roundToEven]
    split
    · omega
    · split <;> omega
  have low := le_roundToEven num den
  have high := roundToEven_le num den
  rw [Nat.dist, Nat.dist]
  rcases Nat.lt_or_ge (num / den) (roundToEven num den) with above | below
  · have chosen : roundToEven num den = num / den + 1 := by omega
    have half := up chosen
    rw [chosen, next]
    omega
  · have chosen : roundToEven num den = num / den := by omega
    have half := down chosen
    rw [chosen]
    omega

theorem spacing_pos (n : Nat) : 0 < spacing n :=
  Nat.two_pow_pos _

theorem div_spacing_lt (n : Nat) : n / spacing n < 2 ^ 53 := by
  rw [Nat.div_lt_iff_lt_mul (spacing_pos n), spacing, ← Nat.pow_add]
  exact Nat.lt_log2_self.trans_le (Nat.pow_le_pow_right (by decide) (by omega))

theorem representable_nearestWhole (n : Nat) : Representable (nearestWhole n) := by
  have small := div_spacing_lt n
  have high := roundToEven_le n (spacing n)
  rcases Nat.lt_or_ge (roundToEven n (spacing n)) (2 ^ 53) with fits | carry
  · exact ⟨_, _, fits, rfl⟩
  · have full : roundToEven n (spacing n) = 2 ^ 53 := by omega
    refine ⟨1, 53 + (n.log2 - 52), by decide, ?_⟩
    rw [nearestWhole, full, spacing, Nat.pow_add, Nat.one_mul]

theorem Representable.spacing_dvd (h : Representable d) (large : 2 ^ n.log2 ≤ d) :
    spacing n ∣ d := by
  obtain ⟨m, k, digits, rfl⟩ := h
  have below : m * 2 ^ k < 2 ^ (53 + k) := by
    rw [Nat.pow_add]
    exact Nat.mul_lt_mul_of_pos_right digits (Nat.two_pow_pos k)
  have order : n.log2 < 53 + k := (Nat.pow_lt_pow_iff_right (by decide)).1 (large.trans_lt below)
  exact Dvd.dvd.mul_left (Nat.pow_dvd_pow 2 (by omega)) m

/-- No whole number that is a double is nearer than the rounded one. -/
theorem nearestWhole_nearest (n : Nat) (h : Representable d) :
    Nat.dist (nearestWhole n) n ≤ Nat.dist d n := by
  rcases Nat.lt_or_ge n.log2 53 with short | long
  · have unit : spacing n = 1 := by
      rw [spacing, Nat.sub_eq_zero_of_le (by omega), Nat.pow_zero]
    rw [nearestWhole, unit, roundToEven_one, Nat.mul_one, Nat.dist_self]
    exact Nat.zero_le _
  · rcases Nat.lt_or_ge d (2 ^ n.log2) with small | large
    · -- The power of two between the two numbers is a multiple of the unit.
      have power : 2 ^ 52 * spacing n = 2 ^ n.log2 := by
        rw [spacing, ← Nat.pow_add]
        congr 1
        omega
      have least : 2 ^ n.log2 ≤ n := Nat.log2_self_le (by rintro rfl; simp at long)
      have near := roundToEven_nearest n (spacing_pos n) (2 ^ 52)
      rw [power] at near
      refine near.trans ?_
      rw [Nat.dist, Nat.dist]
      omega
    · obtain ⟨k, rfl⟩ := h.spacing_dvd large
      rw [Nat.mul_comm]
      exact roundToEven_nearest n (spacing_pos n) k

theorem nearestWhole_eq_self_iff : nearestWhole n = n ↔ Representable n := by
  constructor
  · intro same
    rw [← same]
    exact representable_nearestWhole n
  · intro h
    have near := nearestWhole_nearest n h
    rw [Nat.dist_self] at near
    exact Nat.eq_of_dist_eq_zero (Nat.le_zero.1 near)

theorem nearestWhole_zero : nearestWhole 0 = 0 :=
  nearestWhole_eq_self_iff.2 ⟨0, 0, by decide, rfl⟩

theorem nearestWhole_ne_zero (some : n ≠ 0) : nearestWhole n ≠ 0 := by
  intro zero
  have near := nearestWhole_nearest n ⟨1, 0, by decide, rfl⟩
  rw [zero, Nat.dist, Nat.dist] at near
  omega

theorem descale_eq (num den : Nat) (e : Int) :
    descale num den e = (num * 2 ^ (-e).toNat, den * 2 ^ e.toNat) := by
  rw [descale]
  split
  · rw [Int.toNat_of_nonpos (by omega : -e ≤ 0), Nat.pow_zero, Nat.mul_one]
    rfl
  · rw [Int.toNat_of_nonpos (by omega : e ≤ 0), Nat.pow_zero, Nat.mul_one]
    rfl

theorem descale_one (n : Nat) (e : Int) :
    descale n 1 e = (n * 2 ^ (-e).toNat, 2 ^ e.toNat) := by
  rw [descale_eq, Nat.one_mul]

theorem le_descale_div {k : Nat} {e : Int} (some : n ≠ 0) (h : e + k ≤ n.log2) :
    2 ^ k ≤ (descale n 1 e).1 / (descale n 1 e).2 := by
  rw [descale_one, Nat.le_div_iff_mul_le (Nat.two_pow_pos _), ← Nat.pow_add]
  calc 2 ^ (k + e.toNat) ≤ 2 ^ (n.log2 + (-e).toNat) :=
        Nat.pow_le_pow_right (by decide) (by omega)
    _ = 2 ^ n.log2 * 2 ^ (-e).toNat := Nat.pow_add ..
    _ ≤ n * 2 ^ (-e).toNat := Nat.mul_le_mul_right _ (Nat.log2_self_le some)

/-- The digits of the nearest double, which has the exponent of the spacing. -/
theorem roundToEven_descale {e : Int} (exponent : e = (n.log2 : Int) - 52) :
    roundToEven (descale n 1 e).1 (descale n 1 e).2 * 2 ^ e.toNat =
      nearestWhole n * 2 ^ (-e).toNat := by
  have unit : spacing n = 2 ^ e.toNat := by
    rw [spacing, exponent]
    congr 1
    omega
  rw [descale_one, nearestWhole, unit]
  dsimp only
  rcases Int.le_total 0 e with up | down
  · rw [Int.toNat_of_nonpos (by omega : -e ≤ 0), Nat.pow_zero, Nat.mul_one, Nat.mul_one]
  · rw [Int.toNat_of_nonpos down, Nat.pow_zero, roundToEven_one, roundToEven_one, Nat.mul_one,
      Nat.mul_one]

/-- The digits and the exponent that the bits of a whole number hold. -/
theorem magnitudeBits_whole (some : n ≠ 0) (small : n < 2 ^ 64) :
    ∃ (q : Nat) (e : Int), 2 ^ 52 ≤ q ∧ q ≤ 2 ^ 53 ∧ -52 ≤ e ∧ e ≤ 11 ∧
      magnitudeBits n 1 = (e + 1075).toNat * 2 ^ 52 + (q - 2 ^ 52) ∧
      q * 2 ^ e.toNat = nearestWhole n * 2 ^ (-e).toNat := by
  have size : n.log2 < 64 := (Nat.log2_lt some).2 small
  generalize exponent : (n.log2 : Int) - 52 = e
  have start : (n.log2 : Int) - (Nat.log2 1 : Nat) - 52 = e := by
    rw [show Nat.log2 1 = 0 from rfl]
    omega
  have least := @le_descale_div n 52 e some (by omega)
  have most := @descale_div_lt n 53 e (by omega)
  have value := roundToEven_descale exponent.symm
  rcases scaled : descale n 1 e with ⟨num, den⟩
  rw [scaled] at least most value
  dsimp only at least most value
  have low := le_roundToEven num den
  have high := roundToEven_le num den
  have power : pow2 52 = 2 ^ 52 := rfl
  have kept : max (if num / den < 2 ^ 52 then e - 1 else e) (-1074) = e := by
    rw [if_neg (Nat.not_lt.2 least)]
    omega
  refine ⟨roundToEven num den, e, by omega, by omega, by omega, by omega, ?_, value⟩
  rw [magnitudeBits, if_neg some, start, power]
  dsimp only
  rw [scaled]
  dsimp only
  rw [kept, scaled]
  dsimp only
  rw [if_neg (Nat.not_lt.2 (least.trans low))]
  exact min_eq_left (by omega)

/-- The sign and the magnitude that the bits of a double hold. -/
theorem ofFloat_ofRatio {negative : Bool} (h : magnitudeBits num den < 2047 * 2 ^ 52) :
    Binary.ofFloat (ofRatio negative num den) =
      if magnitudeBits num den / 2 ^ 52 = 0 then
        .finite negative (magnitudeBits num den % 2 ^ 52) (-1074)
      else .finite negative (magnitudeBits num den % 2 ^ 52 + 2 ^ 52)
        ((magnitudeBits num den / 2 ^ 52 : Nat) - 1075) := by
  rw [ofRatio]
  generalize magnitudeBits num den = b at h
  generalize whole : (if negative then pow2 63 else 0) + b = w
  have power : pow2 63 = 2 ^ 63 := rfl
  have small : w < 2 ^ 64 := by
    rw [← whole, power]
    split <;> omega
  have sign : (w / 2 ^ 63 == 1) = negative := by
    rw [← whole, power]
    cases negative with
    | false => exact beq_false_of_ne (by simp; omega)
    | true => exact beq_iff_eq.2 (by simp; omega)
  have digits : w / 2 ^ 52 % 2 ^ 11 = b / 2 ^ 52 ∧ w % 2 ^ 52 = b % 2 ^ 52 := by
    rw [← whole, power]
    split <;> omega
  have word : (UInt64.ofNat w).toNat = w := UInt64.toNat_ofNat_of_lt' small
  have field : exponentField (UInt64.ofNat w) = b / 2 ^ 52 := by
    rw [exponentField, word, digits.1]
  have bits := toBits_ofBits (w := .ofNat w) (by rw [field]; omega)
  rw [ofFloat_eq, bits, field, word, sign, digits.2, if_neg (by omega)]

/-- Digits that round up to one more digit are the next power of two. -/
theorem carry_value {e : Int} {value : Nat} (h : 2 ^ 53 * 2 ^ e.toNat = value * 2 ^ (-e).toNat) :
    2 ^ 52 * 2 ^ (e + 1).toNat = value * 2 ^ (-(e + 1)).toNat := by
  rcases lt_or_ge e 0 with down | up
  · have shift : (-e).toNat = (-(e + 1)).toNat + 1 := by omega
    have power : value * 2 ^ (-e).toNat = value * 2 ^ (-(e + 1)).toNat * 2 := by
      rw [shift, Nat.pow_add_one, Nat.mul_assoc]
    rw [power, Int.toNat_of_nonpos (by omega : e ≤ 0)] at h
    rw [Int.toNat_of_nonpos (by omega : e + 1 ≤ 0)]
    omega
  · have shift : (e + 1).toNat = e.toNat + 1 := by omega
    rw [Int.toNat_of_nonpos (by omega : -e ≤ 0)] at h
    rw [shift, Nat.pow_add_one, Int.toNat_of_nonpos (by omega : -(e + 1) ≤ 0)]
    omega

/-- The double of an integer stands for the integer's rounded magnitude. -/
theorem ofFloat_ofInt {n : Int} (word : fitsWord 64 n) :
    ∃ (m : Nat) (e : Int), Binary.ofFloat (ofInt n) = .finite (decide (n < 0)) m e ∧
      m * 2 ^ e.toNat = nearestWhole n.natAbs * 2 ^ (-e).toNat := by
  have size := natAbs_lt_of_fitsWord word
  have bits := @ofFloat_ofRatio n.natAbs 1 (decide (n < 0)) (magnitudeBits_lt size)
  rw [ofInt, bits]
  by_cases zero : n.natAbs = 0
  · rw [zero, nearestWhole_zero]
    refine ⟨0, -1074, rfl, ?_⟩
    rw [Nat.zero_mul, Nat.zero_mul]
  · obtain ⟨q, e, low, high, least, most, held, value⟩ := magnitudeBits_whole zero size
    rcases Nat.lt_or_ge q (2 ^ 53) with fits | carry
    · have field : magnitudeBits n.natAbs 1 / 2 ^ 52 = (e + 1075).toNat := by omega
      have digits : magnitudeBits n.natAbs 1 % 2 ^ 52 + 2 ^ 52 = q := by omega
      have exponent : ((e + 1075).toNat : Int) - 1075 = e := by omega
      refine ⟨q, e, ?_, value⟩
      rw [field, digits, exponent, if_neg (by omega)]
    · have field : magnitudeBits n.natAbs 1 / 2 ^ 52 = (e + 1076).toNat := by omega
      have digits : magnitudeBits n.natAbs 1 % 2 ^ 52 + 2 ^ 52 = 2 ^ 52 := by omega
      have exponent : ((e + 1076).toNat : Int) - 1075 = e + 1 := by omega
      have full : q = 2 ^ 53 := by omega
      rw [full] at value
      refine ⟨2 ^ 52, e + 1, ?_, carry_value value⟩
      rw [field, digits, exponent, if_neg (by omega)]

theorem ofInt_lt_zero_iff {n : Int} (word : fitsWord 64 n) : ofInt n < 0 ↔ n < 0 := by
  obtain ⟨m, e, number, value⟩ := ofFloat_ofInt word
  rw [lt_zero_iff number, decide_eq_true_iff, and_iff_left_iff_imp]
  rintro negative rfl
  rw [Nat.zero_mul, eq_comm, Nat.mul_eq_zero] at value
  rcases value with zero | zero
  · exact nearestWhole_ne_zero (by omega) zero
  · exact absurd zero (Nat.two_pow_pos _).ne'

/-- The text of an integer that went by way of a double. -/
theorem fixedText_ofInt {n : Int} (word : fitsWord 64 n) :
    fixedText 0 (ofInt n) = (nearestWhole n.natAbs).repr := by
  obtain ⟨m, e, number, value⟩ := ofFloat_ofInt word
  have units : roundedUnits 0 m e = nearestWhole n.natAbs := by
    have scaled : m * pow2 e.toNat * pow10 0 = nearestWhole n.natAbs * 2 ^ (-e).toNat := by
      rw [← value]
      exact Nat.mul_one _
    rw [roundedUnits, scaled]
    exact roundToEven_mul _ (Nat.two_pow_pos _)
  rw [fixedText, number]
  dsimp only
  rw [units, unitsText, if_pos rfl, show pow10 0 = 1 from rfl, Nat.div_one]

end ControlDeck.Decimal
