import ControlDeck.Formula.Eval
import ControlDeck.Proofs.DoubleTexts

namespace ControlDeck

open Decimal Text

namespace Formula

/-- Two evaluations give the same integer, or both fail as conversions. -/
def SameInteger (x y : Except EvalError Value) : Prop :=
  (∃ n, x = .ok (.integer n) ∧ y = .ok (.integer n)) ∨
    ∃ text kind text' kind',
      x = .error (.conversion text kind) ∧ y = .error (.conversion text' kind')

/-- The integers that stand for no number and for the infinities. -/
def wordEnds : List Int :=
  [0, -2 ^ 63, 2 ^ 63 - 1]

variable {s : String} {x : Float} {read : Readings} {format : Formatter} {a : Formula}

theorem truncateToWord_mem_wordEnds (h : ¬x.isFinite) : truncateToWord 64 x ∈ wordEnds := by
  rw [truncateToWord]
  cases number : Binary.ofFloat x with
  | nan => decide
  | infinite negative => cases negative <;> decide
  | finite negative m e => exact absurd (isFinite_iff.2 ⟨_, _, _, number⟩) h

/-- A text that is no integer of a word is converted by way of a double as well, but no matter
whether that is finite. -/
theorem toInteger_text (word : readWord? 64 (trim s.toList) = none)
    (double : readFloat? (trim s.toList) = some x) :
    toInteger (.text s) = .ok (.integer (truncateToWord 64 x)) ∧
      (toDouble (.text s) >>= toInteger) = toInteger (.double x) := by
  constructor
  · rw [toInteger, word, double]
  · rw [toDouble, double]
    rfl

theorem toInteger_text_of_none (word : readWord? 64 (trim s.toList) = none)
    (double : readFloat? (trim s.toList) = none) :
    toInteger (.text s) = .error (.conversion s .integer) ∧
      (toDouble (.text s) >>= toInteger) = .error (.conversion s .double) := by
  constructor
  · rw [toInteger, word, double]
  · rw [toDouble, double]
    rfl

theorem toInteger_double_of_not_isFinite (h : ¬x.isFinite) :
    toInteger (.double x) = .error (.conversion (Decimal.text x) .integer) :=
  if_neg h

theorem eval_int (value : a.eval read format = .ok (.text s)) :
    (call₁ .int a).eval read format = toInteger (.text s) ∧
      (call₁ .int (call₁ .double a)).eval read format =
        (toDouble (.text s) >>= toInteger) := by
  rw [eval, eval, eval, value]
  exact ⟨rfl, rfl⟩

theorem not_sameInteger {n : Int} {e : EvalError} : ¬SameInteger (.ok (.integer n)) (.error e) := by
  rintro (⟨m, -, failed⟩ | ⟨text, kind, text', kind', failed, -⟩)
  · cases failed
  · cases failed

/-- For a text that is no integer of a word, the two ways differ exactly if it is that of something
that is no finite double: the direct one makes an integer of that too. -/
theorem int_text_iff (value : a.eval read format = .ok (.text s))
    (word : readWord? 64 (trim s.toList) = none) :
    (SameInteger ((call₁ .int a).eval read format)
      ((call₁ .int (call₁ .double a)).eval read format) ↔ ¬Boundless (trim s.toList)) ∧
    (Boundless (trim s.toList) → ∃ n ∈ wordEnds, ∃ text,
      (call₁ .int a).eval read format = .ok (.integer n) ∧
        (call₁ .int (call₁ .double a)).eval read format = .error (.conversion text .integer)) := by
  obtain ⟨direct, detour⟩ := eval_int value
  rw [direct, detour]
  have apart (boundless : Boundless (trim s.toList)) : ∃ n ∈ wordEnds, ∃ text,
      toInteger (.text s) = .ok (.integer n) ∧
        (toDouble (.text s) >>= toInteger) = .error (.conversion text .integer) := by
    obtain ⟨x, double, infinite⟩ := boundless_iff.1 boundless
    obtain ⟨whole, way⟩ := toInteger_text word double
    exact ⟨_, truncateToWord_mem_wordEnds infinite, _, whole,
      way.trans (toInteger_double_of_not_isFinite infinite)⟩
  refine ⟨⟨?_, ?_⟩, apart⟩
  · intro same boundless
    obtain ⟨n, -, text, whole, failed⟩ := apart boundless
    rw [whole, failed] at same
    exact not_sameInteger same
  · intro bounded
    cases double : readFloat? (trim s.toList) with
    | none =>
      obtain ⟨failed, failed'⟩ := toInteger_text_of_none word double
      exact .inr ⟨_, _, _, _, failed, failed'⟩
    | some x =>
      have finite : x.isFinite := by
        by_contra infinite
        exact bounded (boundless_iff.2 ⟨x, double, infinite⟩)
      obtain ⟨whole, way⟩ := toInteger_text word double
      exact .inl ⟨_, whole, way.trans (if_pos finite)⟩

/-- A number below all integers of a word, which both ways make the least of them. -/
theorem int_text_iff_low :
    readWord? 64 (trim " -9.3e18".toList) = none ∧ ¬Boundless (trim " -9.3e18".toList) ∧
      SameInteger
        ((call₁ .int (.literal (.text " -9.3e18"))).eval (fun _ => none) .standard)
        ((call₁ .int (call₁ .double (.literal (.text " -9.3e18")))).eval (fun _ => none)
          .standard) := by
  have word : readWord? 64 (trim " -9.3e18".toList) = none := by decide +kernel
  have bounded : ¬Boundless (trim " -9.3e18".toList) := by
    have finite : (readFloat? (trim " -9.3e18".toList)).all Float.isFinite = true := by
      decide +kernel
    rw [boundless_iff]
    rintro ⟨x, read, infinite⟩
    rw [read] at finite
    exact infinite finite
  exact ⟨word, bounded, (int_text_iff rfl word).1.2 bounded⟩

/-- No number is zero at once, and not an integer by way of a double. -/
theorem int_text_notANumber :
    readWord? 64 (trim "NaN".toList) = none ∧
      (call₁ .int (.literal (.text "NaN"))).eval (fun _ => none) .standard = .ok (.integer 0) ∧
      (call₁ .int (call₁ .double (.literal (.text "NaN")))).eval (fun _ => none) .standard =
        .error (.conversion "NaN" .integer) ∧
      ¬SameInteger
        ((call₁ .int (.literal (.text "NaN"))).eval (fun _ => none) .standard)
        ((call₁ .int (call₁ .double (.literal (.text "NaN")))).eval (fun _ => none) .standard) := by
  have zero : (call₁ .int (.literal (.text "NaN"))).eval (fun _ => none) .standard =
      .ok (.integer 0) := by
    decide +kernel
  have failed : (call₁ .int (call₁ .double (.literal (.text "NaN")))).eval (fun _ => none)
      .standard = .error (.conversion "NaN" .integer) := by
    decide +kernel
  refine ⟨by decide +kernel, zero, failed, ?_⟩
  rw [zero, failed]
  exact not_sameInteger

end Formula

end ControlDeck
