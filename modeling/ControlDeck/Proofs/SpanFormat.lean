import ControlDeck.Formula.Eval
import ControlDeck.Proofs.Spans

namespace ControlDeck.Span

open Decimal Text

/-- Every unit, down to the nanosecond. -/
def fullPattern : String :=
  "d.hh:mm:ss.fffffffff"

namespace Fields

variable {f : Fields}

/-- A length in nanoseconds, divided into fields. -/
def ofLength (n : Nat) : Fields where
  days := (n / second / 86400 : Nat)
  hours := (n / second / 3600 % 24 : Nat)
  minutes := (n / second / 60 % 60 : Nat)
  seconds := (n / second % 60 : Nat)
  nanos := n % second

theorem ofLength_proper (n : Nat) : (ofLength n).Proper where
  days := Int.natCast_nonneg _
  hours := Int.natCast_nonneg _
  minutes := ⟨Int.natCast_nonneg _, Int.ofNat_lt.2 (Nat.mod_lt _ (by decide))⟩
  seconds := ⟨Int.natCast_nonneg _, Int.ofNat_lt.2 (Nat.mod_lt _ (by decide))⟩

theorem ofLength_total (n : Nat) : (ofLength n).total = n := by
  have units : second = 1000000000 ∧ minute = 60000000000 ∧ hour = 3600000000000 ∧
      day = 86400000000000 := by decide
  obtain ⟨second, minute, hour, day⟩ := units
  simp only [total, terms, ofLength, List.sum_cons, List.sum_nil, second, minute, hour, day]
  omega

/-- Fields none of which is below zero are in reach as soon as all of them together are. -/
theorem Proper.admitted (h : f.Proper) (total : f.total ≤ limit) : f.Admitted where
  days := h.days
  hours := h.hours
  minutes := h.minutes.2
  seconds := h.seconds.2
  reach := by
    have nonneg := h.terms_nonneg
    constructor
    · intro n hn
      have le : n ≤ f.total := List.single_le_sum nonneg n hn
      have := nonneg n hn
      omega
    · intro first hfirst
      have start := (List.mem_inits _ _).1 hfirst
      have le : first.sum ≤ f.total := start.sublist.sum_le_sum nonneg
      have := List.sum_nonneg fun n hn => nonneg n (start.subset hn)
      omega

end Fields

/-- What the full pattern writes for a length in nanoseconds. -/
def fullText (n : Nat) : String :=
  String.join ((runs fullPattern.toList).map (runText 'd' n))

theorem runs_fullPattern : runs fullPattern.toList =
    [('d', 1), ('.', 1), ('h', 2), (':', 1), ('m', 2), (':', 1), ('s', 2), ('.', 1), ('f', 9)] := by
  decide

theorem fullText_toList (n : Nat) : (fullText n).toList =
    ((padded 1 (n / second / 86400)).toList ++
      '.' :: (padded 2 (n / second / 3600 % 24)).toList) ++
    ':' :: ((padded 2 (n / second / 60 % 60)).toList ++
    ':' :: ((padded 2 (n / second % 60)).toList ++ '.' :: (padded 9 (n % second)).toList)) := by
  have parts : (runs fullPattern.toList).map (runText 'd' n) =
      [padded 1 (n / second / 86400), ".", padded 2 (n / second / 3600 % 24), ":",
        padded 2 (n / second / 60 % 60), ":", padded 2 (n / second % 60), ".",
        padded 9 (n % second / 1)] := by
    rw [runs_fullPattern]
    rfl
  rw [fullText, parts, String.toList_join, Nat.div_one]
  simp

theorem body_fullText (n : Nat) : Body (fullText n).toList (Fields.ofLength n) := by
  have length : (padded 9 (n % second)).toList.length = 9 :=
    length_padded (by decide) (Nat.mod_lt n (by decide))
  have scale : n % second * pow10 0 = n % second := Nat.mul_one _
  have hours := Hours.afterDays (Numeral.padded 1 (n / second / 86400))
    (Numeral.padded 2 (n / second / 3600 % 24))
  have minutes := Numeral.padded 2 (n / second / 60 % 60)
  have seconds := Seconds.withFraction (Numeral.padded 2 (n / second % 60))
    (digits_padded 9 (n % second)) length.le
  rw [ofDigits_padded, length, Nat.sub_self, scale] at seconds
  rw [fullText_toList]
  exact .mk hours minutes seconds

theorem fullText_start (n : Nat) (rest : List Char) : (fullText n).toList ≠ '-' :: rest := by
  have digits := digits_padded 1 (n / second / 86400)
  rw [fullText_toList]
  cases first : (padded 1 (n / second / 86400)).toList with
  | nil => exact absurd first digits.some
  | cons c s =>
    intro same
    cases same
    exact digits.not_sign (.inr rfl) s first

/-- A span written in full. -/
def inFull (a : Span) : String :=
  (if a.nanos < 0 then "-" else "") ++ fullText a.nanos.natAbs

theorem format?_fullPattern (a : Span) : a.format? fullPattern = some a.inFull := by
  have leading : leading? (runs fullPattern.toList) = some 'd' := by decide
  rw [format?, leading]
  rfl

theorem inFull_written (a : Span) :
    Written a.inFull.toList (decide (a.nanos < 0)) (Fields.ofLength a.nanos.natAbs) := by
  have body := body_fullText a.nanos.natAbs
  rw [inFull]
  by_cases negative : a.nanos < 0
  · rw [if_pos negative, decide_eq_true negative, toList_signed]
    exact .minus body
  · rw [if_neg negative, decide_eq_false negative, String.empty_append]
    exact .plain (fullText_start _) body

theorem value_ofLength (a : Span) :
    (Fields.ofLength a.nanos.natAbs).value (decide (a.nanos < 0)) = a.nanos := by
  rw [Fields.value, Fields.ofLength_total]
  split
  · rename_i negative
    have := of_decide_eq_true negative
    omega
  · rename_i nonneg
    have := of_decide_eq_false (Bool.not_eq_true _ ▸ nonneg)
    omega

/-- The units of the pattern divide a span into fields that add up to the span again. -/
theorem format_decodes (a : Span) : ∃ text,
    Formatter.standard (.timespan a) "d.hh:mm:ss.fffffffff" = .ok text ∧ DecodesTo text a := by
  have total : (Fields.ofLength a.nanos.natAbs).total ≤ limit := by
    rw [Fields.ofLength_total]
    exact Int.ofNat_le.2 a.bounded
  have admitted := (Fields.ofLength_proper _).admitted total
  have written := a.inFull_written
  refine ⟨a.inFull, ?_, ?_⟩
  · have format : a.format? "d.hh:mm:ss.fffffffff" = some a.inFull := a.format?_fullPattern
    rw [Formatter.standard, format]
  · rw [decodesTo_iff, trim_of_forall written.not_blank, read?_eq_some_iff]
    exact ⟨_, _, written, admitted, a.value_ofLength.symm⟩

end ControlDeck.Span
