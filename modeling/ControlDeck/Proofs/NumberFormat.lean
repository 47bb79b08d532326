import ControlDeck.Formula.Eval
import ControlDeck.Proofs.Doubles
import ControlDeck.Proofs.Splitting

namespace ControlDeck

open Decimal Text

namespace Decimal

variable {x : Float}

theorem le_length_padded (width n : Nat) : width ≤ (padded width n).length := by
  rw [← String.length_toList, padded_toList, List.length_append, List.length_replicate,
    String.length_toList]
  omega

theorem le_length_unitsText (places units : Nat) : places ≤ (unitsText places units).length := by
  rw [unitsText]
  split
  · omega
  · have digits := le_length_padded places (units % pow10 places)
    rw [String.length_append]
    omega

theorem le_length_fixedText (h : x.isFinite) (places : Nat) :
    places ≤ (fixedText places x).length := by
  obtain ⟨negative, m, e, number⟩ := isFinite_iff.1 h
  rw [fixedText, number]
  exact le_length_unitsText _ _

theorem length_fixedText_of_not_isFinite (h : ¬x.isFinite) (places : Nat) :
    (fixedText places x).length = 3 := by
  rw [fixedText]
  cases number : Binary.ofFloat x with
  | nan => exact (by decide : "NaN".length = 3)
  | infinite negative => exact (by decide : "inf".length = 3)
  | finite negative m e => exact absurd (isFinite_iff.2 ⟨_, _, _, number⟩) h

end Decimal

namespace Formula.NumberPattern

/-- The digits of a pattern for numbers. -/
def Marks (s : List Char) : Prop :=
  ∀ c ∈ s, c = '0' ∨ c = '#'

/-- A pattern for numbers, with what it has before and after its point. -/
inductive Numeric : List Char → List Char → List Char → Prop where
  | bare {whole : List Char} (some : whole ≠ []) (h : Marks whole) : Numeric whole whole []
  | pointed {whole fraction : List Char} (h : Marks whole) (h' : Marks fraction) :
    Numeric (whole ++ '.' :: fraction) whole fraction

/-- Zeros are digits that are always written; hash marks count after the point alone. -/
def ofParts (whole fraction : List Char) : NumberPattern :=
  ⟨whole.count '0', fraction.count '0', fraction.count '#'⟩

variable {s whole fraction : List Char} {p : NumberPattern} {x : Float}

theorem Marks.not_mem_point (h : Marks s) : '.' ∉ s := by
  intro point
  rcases h _ point with same | same <;> cases same

theorem marks_of_not_mem_point (h : ∀ c ∈ s, c = '0' ∨ c = '#' ∨ c = '.') (absent : '.' ∉ s) :
    Marks s := by
  intro c hc
  rcases h c hc with zero | hash | rfl
  · exact .inl zero
  · exact .inr hash
  · exact absurd hc absent

theorem exists_numeric_iff : (∃ whole fraction, Numeric s whole fraction) ↔
    s ≠ [] ∧ (∀ c ∈ s, c = '0' ∨ c = '#' ∨ c = '.') ∧ s.count '.' ≤ 1 := by
  constructor
  · rintro ⟨whole, fraction, ⟨some, h⟩ | ⟨h, h'⟩⟩
    · refine ⟨some, fun c hc => (h c hc).imp_right .inl, ?_⟩
      exact (List.count_eq_zero.2 h.not_mem_point).trans_le (Nat.zero_le 1)
    · refine ⟨List.append_ne_nil_of_right_ne_nil _ (List.cons_ne_nil _ _), ?_, ?_⟩
      · intro c hc
        rcases List.mem_append.1 hc with before | after
        · exact (h c before).imp_right .inl
        · rcases List.mem_cons.1 after with rfl | after
          · exact .inr (.inr rfl)
          · exact (h' c after).imp_right .inl
      · rw [List.count_append, List.count_cons_self, List.count_eq_zero.2 h.not_mem_point,
          List.count_eq_zero.2 h'.not_mem_point]
  · rintro ⟨some, marks, point⟩
    cases cut : splitOnce '.' s with
    | none =>
      have absent := splitOnce_eq_none_iff.1 cut
      exact ⟨s, [], .bare some (marks_of_not_mem_point marks absent)⟩
    | some parts =>
      obtain ⟨absent, rfl⟩ := eq_of_splitOnce cut
      have absent' : '.' ∉ parts.2 := by
        rw [List.count_append, List.count_cons_self] at point
        exact List.count_eq_zero.1 (by omega)
      have before := fun c hc => marks c (List.mem_append_left _ hc)
      have after := fun c hc => marks c (List.mem_append_right _ (List.mem_cons_of_mem _ hc))
      exact ⟨parts.1, parts.2, .pointed (marks_of_not_mem_point before absent)
        (marks_of_not_mem_point after absent')⟩

theorem refused_eq_false_iff :
    (s.isEmpty || !s.all (fun c => c == '0' || c == '#' || c == '.') ||
      decide (1 < s.count '.')) = false ↔ ∃ whole fraction, Numeric s whole fraction := by
  rw [exists_numeric_iff]
  simp [and_assoc, or_iff_not_imp_left]

theorem ofText?_of_numeric (h : Numeric s whole fraction) :
    ofText? s = some (ofParts whole fraction) := by
  rw [ofText?, if_neg (Bool.eq_false_iff.1 (refused_eq_false_iff.2 ⟨_, _, h⟩))]
  cases h with
  | bare some h => rw [splitOnce_eq_none_iff.2 h.not_mem_point]; rfl
  | pointed h h' => rw [splitOnce_append h.not_mem_point]; rfl

/-- These are all the patterns that are read as patterns for numbers. -/
theorem ofText?_eq_some_iff :
    ofText? s = some p ↔
      ∃ whole fraction, Numeric s whole fraction ∧ ofParts whole fraction = p := by
  constructor
  · intro h
    have taken : ∃ whole fraction, Numeric s whole fraction := by
      rw [ofText?] at h
      split at h
      · cases h
      · rename_i taken
        exact refused_eq_false_iff.1 (Bool.eq_false_iff.2 taken)
    obtain ⟨whole, fraction, numeric⟩ := taken
    exact ⟨whole, fraction, numeric, Option.some.inj ((ofText?_of_numeric numeric).symm.trans h)⟩
  · rintro ⟨whole, fraction, numeric, rfl⟩
    exact ofText?_of_numeric numeric

/-- There is a text exactly if the optional digits can be taken off the digits that are written. -/
theorem exists_render?_iff : (∃ text, p.render? x = some text) ↔
    p.optional ≤ (fixedText (p.required + p.optional) x).length := by
  rw [render?, String.length_toList]
  split
  · rename_i short
    exact iff_of_false nofun (Nat.not_le.2 short)
  · rename_i room
    exact iff_of_true ⟨_, rfl⟩ (Nat.not_lt.1 room)

/-- A finite number has as many characters as the pattern has digits after its point, so that the
optional ones can be taken off again. All others have three. -/
theorem optional_le_iff : p.optional ≤ (fixedText (p.required + p.optional) x).length ↔
    x.isFinite ∨ p.optional ≤ 3 := by
  by_cases finite : x.isFinite
  · have room := le_length_fixedText finite (p.required + p.optional)
    exact iff_of_true (by omega) (.inl finite)
  · rw [length_fixedText_of_not_isFinite finite, or_iff_right finite]

end Formula.NumberPattern

namespace Value

/-- The numbers that a property can hold, with the doubles that are written for them. -/
inductive Number : Value → Float → Prop where
  | integer {n : Int} (word : fitsWord 64 n) : Number (integer n) (ofInt n)
  | double (x : Float) : Number (double x) x

variable {v : Value} {x : Float} {kind : Kind} {raw : String} {datum : Datum}

theorem Number.isFinite_iff (h : Number v x) : x.isFinite ↔ ∀ y, v = .double y → y.isFinite := by
  cases h with
  | integer word => exact iff_of_true (isFinite_ofInt word) nofun
  | double x =>
    constructor
    · rintro finite y ⟨⟩
      exact finite
    · exact fun finite => finite x rfl

theorem fitsWord_of_decoded {n : Int} (decoded : Datum.ofText? kind raw = some datum)
    (held : ofDatum datum = .integer n) : fitsWord 64 n := by
  cases kind with
  | integer =>
    obtain ⟨m, read, rfl⟩ := Option.map_eq_some_iff.1 decoded
    cases held
    exact fitsWord_mono (by decide) (readWord?_eq_some_iff.1 read).2
  | long =>
    obtain ⟨m, read, rfl⟩ := Option.map_eq_some_iff.1 decoded
    cases held
    exact (readWord?_eq_some_iff.1 read).2
  | boolean | double | timespan | datetime =>
    obtain ⟨_, read, rfl⟩ := Option.map_eq_some_iff.1 decoded
    cases held
  | string | object =>
    cases decoded
    cases held

theorem number_of_decoded (decoded : Datum.ofText? kind raw = some datum)
    (number : (ofDatum datum).toFloat? = some x) : Number (ofDatum datum) x := by
  cases held : ofDatum datum with
  | integer n =>
    rw [held] at number
    cases number
    exact .integer (fitsWord_of_decoded decoded held)
  | double y =>
    rw [held] at number
    cases number
    exact .double x
  | _ =>
    rw [held] at number
    cases number

end Value

namespace Formatter

open Formula NumberPattern

variable {v : Value} {x : Float} {pattern : String} {whole fraction : List Char}

theorem standard_numeric (h : v.Number x) (numeric : Numeric pattern.toList whole fraction) :
    (∃ text, standard v pattern = .ok text) ↔
      ∃ text, (ofParts whole fraction).render? x = some text := by
  have written : standard v pattern = number v x pattern := by
    cases h <;> rfl
  rw [written, number, ofText?_of_numeric numeric]
  dsimp only
  cases (ofParts whole fraction).render? x with
  | none => exact iff_of_false nofun nofun
  | some text => exact iff_of_true ⟨text, rfl⟩ ⟨text, rfl⟩

theorem standard_number_iff (h : v.Number x) (numeric : Numeric pattern.toList whole fraction) :
    (∃ text, standard v pattern = .ok text) ↔ x.isFinite ∨ fraction.count '#' ≤ 3 := by
  rw [standard_numeric h numeric, exists_render?_iff, optional_le_iff]
  rfl

/-- A number that a property holds has a text for a pattern exactly if it is finite, as every
integer is, or the pattern has at most three optional digits. -/
theorem standard_decoded_iff {kind : Kind} {raw : String} {datum : Datum}
    (decoded : Datum.ofText? kind raw = some datum)
    (number : (Value.ofDatum datum).toFloat? = some x)
    (numeric : Numeric pattern.toList whole fraction) :
    (fraction.count '#' ≤ (fixedText (fraction.count '0' + fraction.count '#') x).length ↔
      (∀ y, datum = .double y → y.isFinite) ∨ fraction.count '#' ≤ 3) ∧
    ((∃ text, standard (Value.ofDatum datum) pattern = .ok text) ↔
      (∀ y, datum = .double y → y.isFinite) ∨ fraction.count '#' ≤ 3) := by
  have held := Value.number_of_decoded decoded number
  have finite : x.isFinite ↔ ∀ y, datum = .double y → y.isFinite := by
    rw [held.isFinite_iff]
    cases datum <;> simp [Value.ofDatum]
  rw [← finite]
  exact ⟨@optional_le_iff (ofParts whole fraction) x, standard_number_iff held numeric⟩

theorem numeric_fourHashes : Numeric "0.####".toList ['0'] ['#', '#', '#', '#'] :=
  @Numeric.pointed ['0'] ['#', '#', '#', '#'] (by simp [Marks]) (by simp [Marks])

theorem standard_decoded_iff_highest :
    Datum.ofText? .long "9223372036854775807" = some (.long 9223372036854775807) ∧
      ∃ text, standard (.integer 9223372036854775807) "0.####" = .ok text := by
  have decoded : Datum.ofText? .long "9223372036854775807" = some (.long 9223372036854775807) := by
    decide
  exact ⟨decoded, (standard_decoded_iff decoded rfl numeric_fourHashes).2.2 (.inl nofun)⟩

/-- Four optional digits are more than the text of no number has characters. -/
theorem standard_notANumber :
    Datum.ofText? .double "NaN" = some (.double notANumber) ∧
      Numeric "0.####".toList ['0'] ['#', '#', '#', '#'] ∧ (fixedText 4 notANumber).length < 4 ∧
      standard (.double notANumber) "0.####" = .error (.unwritable "0.####") := by
  refine ⟨by decide +kernel, numeric_fourHashes, by decide +kernel, ?_⟩
  rfl

end Formatter

end ControlDeck
