import ControlDeck.Proofs.NumberLayout
import ControlDeck.Proofs.WholeDoubles

namespace ControlDeck.Formatter

open Decimal Formula NumberPattern

/-- A pattern of zeros only. -/
def zeros (width : Nat) : String :=
  String.ofList (List.replicate width '0')

/-- A magnitude brought to a least width, after the sign of an integer. -/
def integerText (width : Nat) (n : Int) (magnitude : Nat) : String :=
  (if n < 0 then "-" else "") ++ padded width magnitude

variable {n : Int} {width : Nat}

theorem numeric_zeros (some : 0 < width) :
    Numeric (zeros width).toList (List.replicate width '0') [] := by
  rw [zeros, String.toList_ofList]
  refine .bare (by simp; omega) ?_
  intro c hc
  exact .inl (List.eq_of_mem_replicate hc)

theorem rendering_ofInt (word : fitsWord 64 n) :
    Rendering 0 (ofInt n) (nearestWhole n.natAbs).repr.toList [] where
  text := by rw [fixedText_ofInt word, pointed, List.append_nil]
  digits := digits_repr _
  decimals := nofun
  count := rfl

theorem signOf_ofInt (word : fitsWord 64 n) :
    signOf (ofInt n) (nearestWhole n.natAbs).repr.toList = if n < 0 then ['-'] else [] := by
  have digits : n < 0 → ∃ c ∈ (nearestWhole n.natAbs).repr.toList, c ≠ '0' := by
    intro negative
    by_contra none
    have zero : ∀ c ∈ (nearestWhole n.natAbs).repr.toList, c = '0' := by
      simpa using none
    have value := ofDigits_eq_zero zero
    rw [ofDigits_repr] at value
    exact nearestWhole_ne_zero (by omega) value
  have sign := ofInt_lt_zero_iff word
  by_cases negative : n < 0
  · rw [signOf, if_pos ⟨sign.2 negative, digits negative⟩, if_pos negative]
  · rw [signOf, if_neg (fun both => negative (sign.1 both.1)), if_neg negative]

theorem toList_integerText (width : Nat) (n : Int) (magnitude : Nat) :
    (integerText width n magnitude).toList =
      (if n < 0 then ['-'] else []) ++ (padded width magnitude).toList := by
  rw [integerText, String.toList_append]
  split <;> rfl

theorem layout_ofInt (word : fitsWord 64 n) (width : Nat) :
    layout width (ofInt n) (nearestWhole n.natAbs).repr.toList [] [] =
      (integerText width n (nearestWhole n.natAbs)).toList := by
  have wide : widened width (nearestWhole n.natAbs).repr.toList [] =
      (padded width (nearestWhole n.natAbs)).toList := by
    rw [widened, if_neg (fun lone => lone.2.2 rfl), padded_toList, String.length_toList]
  rw [layout, wide, pointed, List.append_nil (padded _ _).toList, List.append_nil,
    signOf_ofInt word, toList_integerText]

/-- The text of an integer is that of the double nearest to it. -/
theorem standard_zeros (word : fitsWord 64 n) (some : 0 < width) :
    standard (.integer n) (zeros width) =
      .ok (integerText width n (nearestWhole n.natAbs)) := by
  have parts : ofParts (List.replicate width '0') [] = ⟨width, 0, 0⟩ := by
    rw [ofParts, List.count_replicate_self]
    rfl
  have rendered := @render?_eq_layout _ _ ⟨width, 0, 0⟩ _ (rendering_ofInt word)
  have kept : keptOf 0 [] = [] := rfl
  rw [kept, layout_ofInt word, String.ofList_toList] at rendered
  rw [standard, number, ofText?_of_numeric (numeric_zeros some)]
  dsimp only
  rw [parts, rendered]

theorem integerText_inj {a b : Nat} : integerText width n a = integerText width n b ↔ a = b := by
  constructor
  · intro same
    have texts := congrArg String.toList same
    rw [toList_integerText, toList_integerText, List.append_cancel_left_eq] at texts
    rw [← ofDigits_padded width a, texts, ofDigits_padded]
  · exact congrArg _

theorem display_integer (n : Int) : (Value.integer n).display = integerText 1 n n.natAbs := by
  have wide : 1 - n.natAbs.repr.length = 0 := by
    have := @Nat.length_repr_pos n.natAbs
    omega
  have bare : padded 1 n.natAbs = n.natAbs.repr := by
    rw [padded, wide]
    rfl
  rw [Value.display, integerText, bare, Int.repr_eq_if]
  rcases lt_or_ge n 0 with negative | positive
  · have digits : (-n).toNat = n.natAbs := by omega
    rw [if_neg (not_le.2 negative), if_pos negative, digits]
  · have digits : n.toNat = n.natAbs := by omega
    rw [if_pos positive, if_neg (not_lt.2 positive), digits, String.empty_append]

/-- An integer is written with its own digits exactly if it is the double nearest to it. -/
theorem standard_integer_iff (word : fitsWord 64 n) (some : 0 < width) :
    standard (.integer n) (zeros width) = .ok (integerText width n (nearestWhole n.natAbs)) ∧
    (standard (.integer n) (zeros width) = .ok (integerText width n n.natAbs) ↔
      Representable n.natAbs) ∧
    (standard (.integer n) "0" = .ok (Value.integer n).display ↔ Representable n.natAbs) := by
  have written := fun {w} some => @standard_zeros n w word some
  have own : ∀ w, 0 < w → (standard (.integer n) (zeros w) = .ok (integerText w n n.natAbs) ↔
      Representable n.natAbs) := by
    intro w some
    rw [written some, Except.ok.injEq, integerText_inj, nearestWhole_eq_self_iff]
  refine ⟨written some, own width some, ?_⟩
  rw [display_integer]
  exact own 1 Nat.one_pos

/-- The highest integer, with zeros before it. -/
theorem standard_integer_iff_highest :
    fitsWord 64 (2 ^ 63 - 1) ∧ ¬Representable (2 ^ 63 - 1) ∧
      standard (.integer (2 ^ 63 - 1)) "00000000000000000000" = .ok "09223372036854775808" := by
  have word : fitsWord 64 (2 ^ 63 - 1) := by decide
  obtain ⟨written, digits, -⟩ := @standard_integer_iff _ 20 word (by decide)
  have text : integerText 20 (2 ^ 63 - 1) (nearestWhole (2 ^ 63 - 1)) = "09223372036854775808" := by
    decide +kernel
  have own : integerText 20 (2 ^ 63 - 1) (2 ^ 63 - 1) = "09223372036854775807" := by
    decide +kernel
  have same := written.trans (congrArg Except.ok text)
  refine ⟨word, ?_, same⟩
  intro exact
  have both := (same.symm.trans (digits.2 exact)).trans (congrArg Except.ok own)
  exact absurd (Except.ok.inj both) (by decide)

/-- The first integer that is no double gets the digits of the one before it. -/
theorem standard_integer_inexact :
    fitsWord 64 9007199254740993 ∧
      (Value.integer 9007199254740993).display = "9007199254740993" ∧
      standard (.integer 9007199254740993) "0" = .ok "9007199254740992" ∧
      standard (.integer 9007199254740993) "0" ≠
        .ok (Value.integer 9007199254740993).display := by
  have written : standard (.integer 9007199254740993) "0" = .ok "9007199254740992" := by rfl
  have digits : (Value.integer 9007199254740993).display = "9007199254740993" := by rfl
  refine ⟨by decide, digits, written, ?_⟩
  rw [written, digits]
  decide

end ControlDeck.Formatter
