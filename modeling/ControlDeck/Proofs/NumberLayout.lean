import ControlDeck.Proofs.NumberFormat

namespace ControlDeck

open Decimal Text

namespace Decimal

/-- Digits after a point, and no point where there are none. -/
def pointed : List Char → List Char
  | [] => []
  | c :: rest => '.' :: c :: rest

/-- The number that digits with at most one point among them stand for. -/
def magnitudeOf (s : List Char) : ℚ :=
  match splitOnce '.' s with
  | none => ofDigits s
  | some (whole, fraction) => ofDigits (whole ++ fraction) / 10 ^ fraction.length

/-- The number that a decimal text stands for. -/
def valueOf : List Char → ℚ
  | '-' :: s => -magnitudeOf s
  | s => magnitudeOf s

/-- The digits before and after the point of a magnitude that is rounded to the given number of
places. -/
structure Rendering (places : Nat) (x : Float) (whole fraction : List Char) : Prop where
  text : (fixedText places x).toList = whole ++ pointed fraction
  digits : Digits whole
  decimals : ∀ c ∈ fraction, c.isDigit = true
  count : fraction.length = places

variable {s whole fraction : List Char} {c : Char} {x : Float} {places : Nat}

theorem ne_of_isDigit (h : c.isDigit = true) : c ≠ '.' ∧ c ≠ '-' := by
  constructor <;>
  · rintro rfl
    exact absurd h (by decide)

theorem not_mem_of_digits (h : ∀ c ∈ s, c.isDigit = true) : '.' ∉ s ∧ '-' ∉ s :=
  ⟨fun point => (ne_of_isDigit (h _ point)).1 rfl, fun sign => (ne_of_isDigit (h _ sign)).2 rfl⟩

theorem mem_pointed (h : c ∈ pointed s) : c = '.' ∨ c ∈ s := by
  cases s with
  | nil => cases h
  | cons d rest => exact List.mem_cons.1 h

theorem mem_pointed_of_mem (h : c ∈ s) : c ∈ pointed s := by
  cases s with
  | nil => cases h
  | cons d rest => exact List.mem_cons_of_mem '.' h

theorem pointed_of_ne_nil (h : s ≠ []) : pointed s = '.' :: s := by
  cases s with
  | nil => exact absurd rfl h
  | cons c rest => rfl

theorem exists_rendering (h : x.isFinite) (places : Nat) :
    ∃ whole fraction, Rendering places x whole fraction := by
  obtain ⟨negative, m, e, number⟩ := isFinite_iff.1 h
  have written : fixedText places x = unitsText places (roundedUnits places m e) := by
    rw [fixedText, number]
  refine ⟨(roundedUnits places m e / pow10 places).repr.toList,
    if places = 0 then [] else (padded places (roundedUnits places m e % pow10 places)).toList, ?_⟩
  by_cases none : places = 0
  · rw [if_pos none]
    rw [unitsText, if_pos none] at written
    refine ⟨?_, digits_repr _, List.forall_mem_nil _, none.symm⟩
    rw [written, pointed, List.append_nil]
  · rw [if_neg none]
    rw [unitsText, if_neg none] at written
    have digits := digits_padded places (roundedUnits places m e % pow10 places)
    refine ⟨?_, digits_repr _, digits.all, ?_⟩
    · rw [written, pointed_of_ne_nil digits.some]
      simp
    · exact length_padded (Nat.pos_of_ne_zero none)
        (Nat.mod_lt _ (Nat.pow_pos (by decide)))

theorem ofDigits_zeros (n : Nat) (s : List Char) :
    ofDigits (List.replicate n '0' ++ s) = ofDigits s := by
  rw [ofDigits_eq, Nat.ofDigitChars_append, Nat.ofDigitChars_replicate_zero, Nat.mul_zero,
    ofDigits_eq]

theorem ofDigits_append_zeros (s : List Char) (n : Nat) :
    ofDigits (s ++ List.replicate n '0') = 10 ^ n * ofDigits s := by
  rw [ofDigits_eq, Nat.ofDigitChars_append, Nat.ofDigitChars_replicate_zero, ofDigits_eq]

theorem ofDigits_eq_zero (h : ∀ c ∈ s, c = '0') : ofDigits s = 0 := by
  rw [List.eq_replicate_of_mem h, ← List.append_nil (List.replicate _ _), ofDigits_zeros]
  rfl

theorem valueOf_of_not_mem (h : '-' ∉ s) : valueOf s = magnitudeOf s := by
  rw [valueOf]
  rintro rest rfl
  exact h List.mem_cons_self

theorem magnitudeOf_pointed (h : '.' ∉ whole) :
    magnitudeOf (whole ++ pointed fraction) =
      ofDigits (whole ++ fraction) / 10 ^ fraction.length := by
  rw [magnitudeOf]
  cases fraction with
  | nil => simp [pointed, splitOnce_eq_none_iff.2 h]
  | cons c rest => rw [pointed, splitOnce_append h]

end Decimal

namespace Formula.NumberPattern

/-- What is left of a fraction without its longest run of zeros at the end that has at most the
given length. -/
def Shortened (optional : Nat) (fraction kept : List Char) : Prop :=
  ∃ zeros ≤ optional, fraction = kept ++ List.replicate zeros '0' ∧
    (zeros < optional → kept.getLast? ≠ some '0')

/-- Digits brought to a least width. With a width of zero a lone zero is left out before digits of
a fraction. -/
def widened (width : Nat) (whole kept : List Char) : List Char :=
  if width = 0 ∧ whole = ['0'] ∧ kept ≠ [] then []
  else List.replicate (width - whole.length) '0' ++ whole

/-- The sign of a number whose rounded magnitude has the given digits. -/
def signOf (x : Float) (digits : List Char) : List Char :=
  if x < 0 ∧ ∃ c ∈ digits, c ≠ '0' then ['-'] else []

variable {whole fraction kept s : List Char} {p : NumberPattern} {x : Float} {n optional : Nat}

theorem dropZeros_zeros (n : Nat) (s : List Char) :
    ∃ zeros ≤ n, s = List.replicate zeros '0' ++ dropZeros n s ∧
      (zeros < n → (dropZeros n s).head? ≠ some '0') := by
  fun_induction dropZeros n s with
  | case1 n rest ih =>
    obtain ⟨zeros, le, split, longest⟩ := ih
    refine ⟨zeros + 1, Nat.succ_le_succ le, ?_, fun room => longest (Nat.lt_of_succ_lt_succ room)⟩
    rw [List.replicate_succ, List.cons_append, ← split]
  | case2 n s other =>
    refine ⟨0, Nat.zero_le n, rfl, ?_⟩
    intro room zero
    cases n with
    | zero => cases room
    | succ n =>
      cases s with
      | nil => cases zero
      | cons c rest =>
        cases zero
        exact other n rest rfl rfl

theorem dropZeros_append (h : n ≤ s.length) (rest : List Char) :
    dropZeros n (s ++ rest) = dropZeros n s ++ rest := by
  induction n generalizing s with
  | zero => rfl
  | succ n ih =>
    cases s with
    | nil => cases h
    | cons c s =>
      by_cases zero : c = '0'
      · subst zero
        exact ih (Nat.le_of_succ_le_succ h)
      · simp [dropZeros, zero]

/-- What is written of a fraction. -/
def keptOf (optional : Nat) (fraction : List Char) : List Char :=
  (dropZeros optional fraction.reverse).reverse

theorem shortened_keptOf (optional : Nat) (fraction : List Char) :
    Shortened optional fraction (keptOf optional fraction) := by
  obtain ⟨zeros, le, split, longest⟩ := dropZeros_zeros optional fraction.reverse
  refine ⟨zeros, le, ?_, ?_⟩
  · have back := congrArg List.reverse split
    rwa [List.reverse_reverse, List.reverse_append, List.reverse_replicate] at back
  · rwa [keptOf, List.getLast?_reverse]

theorem Shortened.subset (h : Shortened optional fraction kept) : kept ⊆ fraction := by
  obtain ⟨zeros, -, rfl, -⟩ := h
  exact List.subset_append_left kept _

theorem trimFraction_pointed (room : optional ≤ fraction.length) (some : fraction ≠ [])
    (digits : ∀ c ∈ fraction, c.isDigit = true) (whole : List Char) :
    trimFraction optional (whole ++ pointed fraction) =
      whole ++ pointed (keptOf optional fraction) := by
  have reversed : (whole ++ pointed fraction).reverse =
      fraction.reverse ++ '.' :: whole.reverse := by
    rw [pointed_of_ne_nil some]
    simp
  have subset := (shortened_keptOf optional fraction).subset
  rw [trimFraction, reversed, dropZeros_append (by rwa [List.length_reverse])]
  rw [keptOf] at subset ⊢
  cases left : dropZeros optional fraction.reverse with
  | nil => simp [pointed]
  | cons c rest =>
    rw [left] at subset
    have digit : c.isDigit = true := digits c (subset (by simp))
    have point : c ≠ '.' := (ne_of_isDigit digit).1
    rw [pointed_of_ne_nil (by simp), List.cons_append]
    simp [point]

theorem takeWhile_pointed (h : Digits whole) (kept : List Char) :
    (whole ++ pointed kept).takeWhile (· != '.') = whole := by
  have before : ∀ c ∈ whole, (c != '.') = true := by
    intro c hc
    exact bne_iff_ne.2 (ne_of_isDigit (h.all c hc)).1
  rw [List.takeWhile_append_of_pos before]
  cases kept with
  | nil => simp [pointed]
  | cons c rest => simp [pointed]

theorem lone_zero (h : Digits whole) {rest : List Char}
    (same : whole ++ pointed kept = '0' :: '.' :: rest) : whole = ['0'] ∧ kept ≠ [] := by
  cases whole with
  | nil => exact absurd rfl h.some
  | cons c whole =>
    cases whole with
    | nil =>
      cases kept with
      | nil => cases same
      | cons d kept =>
        cases same
        exact ⟨rfl, List.cons_ne_nil _ _⟩
    | cons d whole =>
      cases same
      exact absurd (h.all '.' (by simp)) (by decide)

theorem padWhole_pointed (h : Digits whole) (width : Nat) (kept : List Char) :
    padWhole width (whole ++ pointed kept) = widened width whole kept ++ pointed kept := by
  by_cases lone : width = 0 ∧ whole = ['0'] ∧ kept ≠ []
  · rw [widened, if_pos lone]
    obtain ⟨rfl, rfl, left⟩ := lone
    rw [pointed_of_ne_nil left]
    rfl
  · rw [widened, if_neg lone, padWhole, takeWhile_pointed h]
    · split
      · rw [List.append_assoc]
      · rename_i wide
        rw [Nat.sub_eq_zero_of_le (Nat.not_lt.1 wide)]
        rfl
    · intro rest none same
      exact lone ⟨none, lone_zero h same⟩

theorem digits_widened (h : Digits whole) (width : Nat) (kept : List Char) :
    ∀ c ∈ widened width whole kept, c.isDigit = true := by
  intro c hc
  rw [widened] at hc
  split at hc
  · cases hc
  · rcases List.mem_append.1 hc with zero | hc
    · rw [List.eq_of_mem_replicate zero]
      decide
    · exact h.all c hc

theorem zeros_widened (width : Nat) (whole kept : List Char) :
    (∀ c ∈ widened width whole kept, c = '0') ↔ ∀ c ∈ whole, c = '0' := by
  rw [widened]
  split
  · rename_i lone
    simp [lone.2.1]
  · simp only [List.mem_append, List.mem_replicate]
    constructor
    · intro zeros c hc
      exact zeros c (.inr hc)
    · rintro zeros c (⟨-, zero⟩ | hc)
      · exact zero
      · exact zeros c hc

theorem Shortened.zeros (h : Shortened optional fraction kept) :
    (∀ c ∈ kept, c = '0') ↔ ∀ c ∈ fraction, c = '0' := by
  obtain ⟨zeros, -, rfl, -⟩ := h
  simp only [List.mem_append, List.mem_replicate]
  constructor
  · rintro zeros c (hc | ⟨-, zero⟩)
    · exact zeros c hc
    · exact zero
  · intro zeros c hc
    exact zeros c (.inl hc)

/-- The test for a sign looks for digits other than zero in what is written. -/
theorem isZero_iff {a b : List Char} (digits : ∀ c ∈ a ++ b, c.isDigit = true) :
    ((a ++ pointed b).all fun c => c == '0' || c == '.') = true ↔ ∀ c ∈ a ++ b, c = '0' := by
  simp only [List.all_eq_true, Bool.or_eq_true, beq_iff_eq]
  constructor
  · intro zeros c hc
    have written : c ∈ a ++ pointed b := by
      rcases List.mem_append.1 hc with before | after
      · exact List.mem_append_left _ before
      · exact List.mem_append_right _ (mem_pointed_of_mem after)
    exact (zeros c written).resolve_right (ne_of_isDigit (digits c hc)).1
  · intro zeros c hc
    rcases List.mem_append.1 hc with before | after
    · exact .inl (zeros c (List.mem_append_left _ before))
    · rcases mem_pointed after with point | after
      · exact .inr point
      · exact .inl (zeros c (List.mem_append_right _ after))

/-- The text of a number, from the digits of its rounded magnitude and what is kept of those after
the point. -/
def layout (width : Nat) (x : Float) (whole fraction kept : List Char) : List Char :=
  signOf x (whole ++ fraction) ++ (widened width whole kept ++ pointed kept)

theorem digits_laid (h : Digits whole) (decimals : ∀ c ∈ fraction, c.isDigit = true)
    (shortened : Shortened optional fraction kept) (width : Nat) :
    ∀ c ∈ widened width whole kept ++ kept, c.isDigit = true := by
  intro c hc
  rcases List.mem_append.1 hc with before | after
  · exact digits_widened h width kept c before
  · exact decimals c (shortened.subset after)

theorem zeros_laid (shortened : Shortened optional fraction kept) (width : Nat)
    (whole : List Char) : (∀ c ∈ widened width whole kept ++ kept, c = '0') ↔
      ∀ c ∈ whole ++ fraction, c = '0' := by
  rw [List.forall_mem_append, List.forall_mem_append, zeros_widened, shortened.zeros]

theorem length_le_pointed (whole fraction : List Char) :
    fraction.length ≤ (whole ++ pointed fraction).length := by
  cases fraction with
  | nil => exact Nat.zero_le _
  | cons c rest =>
    simp only [pointed, List.length_append, List.length_cons]
    omega

theorem trimmed_pointed (room : optional ≤ fraction.length)
    (decimals : ∀ c ∈ fraction, c.isDigit = true) (whole : List Char) :
    (if optional = 0 then whole ++ pointed fraction
      else trimFraction optional (whole ++ pointed fraction)) =
        whole ++ pointed (keptOf optional fraction) := by
  split
  · rename_i none
    subst none
    simp [keptOf, dropZeros]
  · rename_i some
    have left : fraction ≠ [] := List.length_pos_iff.1 (by omega)
    exact trimFraction_pointed room left decimals whole

theorem render?_eq_layout (h : Rendering (p.required + p.optional) x whole fraction) :
    p.render? x =
      some (String.ofList (layout p.whole x whole fraction (keptOf p.optional fraction))) := by
  have shortened := shortened_keptOf p.optional fraction
  have room : p.optional ≤ fraction.length := by
    rw [h.count]
    omega
  have long : ¬(whole ++ pointed fraction).length < p.optional :=
    Nat.not_lt.2 (room.trans (length_le_pointed whole fraction))
  have trimmed := trimmed_pointed room h.decimals whole
  have padded := padWhole_pointed h.digits p.whole (keptOf p.optional fraction)
  have digits := digits_laid h.digits h.decimals shortened p.whole
  have zeros := (isZero_iff digits).trans (zeros_laid shortened p.whole whole)
  simp only [render?, h.text, if_neg long, trimmed, padded, layout, signOf]
  generalize widened p.whole whole _ ++ pointed _ = text at zeros
  have sign : (decide (x < 0) && !text.all fun c => c == '0' || c == '.') = true ↔
      x < 0 ∧ ∃ c ∈ whole ++ fraction, c ≠ '0' := by
    rw [Bool.and_eq_true, decide_eq_true_iff, Bool.not_eq_true', ← Bool.not_eq_true, zeros]
    simp only [not_forall, exists_prop]
  by_cases negative : x < 0 ∧ ∃ c ∈ whole ++ fraction, c ≠ '0'
  · rw [if_pos (sign.2 negative), if_pos negative, List.singleton_append]
  · rw [if_neg (fun test => negative (sign.1 test)), if_neg negative, List.nil_append]

theorem ofDigits_widened (width : Nat) (whole kept : List Char) :
    ofDigits (widened width whole kept ++ kept) = ofDigits (whole ++ kept) := by
  rw [widened]
  split
  · rename_i lone
    rw [lone.2.1, ← ofDigits_zeros 1 ([] ++ kept)]
    rfl
  · rw [List.append_assoc, ofDigits_zeros]

theorem Shortened.magnitude (h : Shortened optional fraction kept) (whole : List Char) :
    (ofDigits (whole ++ kept) / 10 ^ kept.length : ℚ) =
      ofDigits (whole ++ fraction) / 10 ^ fraction.length := by
  obtain ⟨zeros, -, rfl, -⟩ := h
  rw [← List.append_assoc, ofDigits_append_zeros, List.length_append, List.length_replicate,
    pow_add, Nat.cast_mul, Nat.cast_pow, Nat.cast_ofNat, mul_comm ((10 : ℚ) ^ kept.length)]
  exact (mul_div_mul_left _ _ (by positivity)).symm

theorem magnitudeOf_laid (h : Digits whole) (shortened : Shortened optional fraction kept)
    (width : Nat) :
    magnitudeOf (widened width whole kept ++ pointed kept) =
      magnitudeOf (whole ++ pointed fraction) := by
  have before := (not_mem_of_digits (digits_widened h width kept)).1
  rw [magnitudeOf_pointed before, magnitudeOf_pointed (not_mem_of_digits h.all).1,
    ofDigits_widened, shortened.magnitude]

theorem not_mem_minus {a b : List Char} (h : ∀ c ∈ a, c.isDigit = true)
    (h' : ∀ c ∈ b, c.isDigit = true) : '-' ∉ a ++ pointed b := by
  intro minus
  rcases List.mem_append.1 minus with before | after
  · exact (not_mem_of_digits h).2 before
  · rcases mem_pointed after with point | after
    · cases point
    · exact (not_mem_of_digits h').2 after

theorem valueOf_layout (h : Digits whole) (decimals : ∀ c ∈ fraction, c.isDigit = true)
    (shortened : Shortened optional fraction kept) (width : Nat) (x : Float) :
    valueOf (layout width x whole fraction kept) =
      if x < 0 then -valueOf (whole ++ pointed fraction)
      else valueOf (whole ++ pointed fraction) := by
  have same := magnitudeOf_laid h shortened width
  have bare : '-' ∉ widened width whole kept ++ pointed kept :=
    not_mem_minus (digits_widened h width kept) fun c hc => decimals c (shortened.subset hc)
  rw [valueOf_of_not_mem (not_mem_minus h.all decimals), layout, signOf]
  by_cases negative : x < 0
  · rw [if_pos negative]
    by_cases some : ∃ c ∈ whole ++ fraction, c ≠ '0'
    · rw [if_pos ⟨negative, some⟩, List.singleton_append, valueOf, same]
    · have zero : ofDigits (whole ++ fraction) = 0 := by
        apply ofDigits_eq_zero
        intro c hc
        by_contra other
        exact some ⟨c, hc, other⟩
      rw [if_neg (fun both => some both.2), List.nil_append, valueOf_of_not_mem bare, same,
        magnitudeOf_pointed (not_mem_of_digits h.all).1, zero]
      simp
  · rw [if_neg negative, if_neg (fun both => negative both.1), List.nil_append,
      valueOf_of_not_mem bare, same]

end Formula.NumberPattern

namespace Formatter

open Formula NumberPattern

/-- A finite double is written with the digits of its rounded magnitude, as the pattern lays them
out, and its text stands for the same decimal. -/
theorem standard_keepsRounded {x : Float} {pattern : String} {before after : List Char}
    (finite : x.isFinite) (numeric : Numeric pattern.toList before after) :
    ∃ (text : String) (whole fraction kept : List Char),
      standard (.double x) pattern = .ok text ∧
      Rendering (after.count '0' + after.count '#') x whole fraction ∧
      Shortened (after.count '#') fraction kept ∧
      text.toList = layout (before.count '0') x whole fraction kept ∧
      valueOf text.toList =
        if x < 0 then -valueOf (whole ++ pointed fraction)
        else valueOf (whole ++ pointed fraction) := by
  obtain ⟨whole, fraction, rendering⟩ :=
    exists_rendering finite (after.count '0' + after.count '#')
  have shortened := shortened_keptOf (after.count '#') fraction
  have rendered : (ofParts before after).render? x = some (String.ofList
      (layout (before.count '0') x whole fraction (keptOf (after.count '#') fraction))) :=
    render?_eq_layout rendering
  refine ⟨_, whole, fraction, _, ?_, rendering, shortened, String.toList_ofList, ?_⟩
  · rw [standard, number, ofText?_of_numeric numeric]
    dsimp only
    rw [rendered]
  · rw [String.toList_ofList]
    exact valueOf_layout rendering.digits rendering.decimals shortened _ x

/-- A half below zero, without the zeros on both sides of its digit. -/
theorem standard_keepsRounded_half :
    Float.isFinite (-0.5) ∧ Numeric ".0#".toList [] ['0', '#'] ∧
      standard (.double (-0.5)) ".0#" = .ok "-.5" ∧
      valueOf "-.5".toList = -valueOf "0.50".toList := by
  have finite : Float.isFinite (-0.5) := by decide
  have numeric : Numeric ".0#".toList [] ['0', '#'] :=
    @Numeric.pointed [] ['0', '#'] (by simp [Marks]) (by simp [Marks])
  obtain ⟨text, whole, fraction, kept, written, rendering, -, -, value⟩ :=
    standard_keepsRounded finite numeric
  have expected : standard (.double (-0.5)) ".0#" = .ok "-.5" := rfl
  have rounded : fixedText 2 (-0.5) = "0.50" := by decide +kernel
  have negative : (-0.5 : Float) < 0 := by decide
  cases written.symm.trans expected
  rw [if_pos negative, ← rendering.text] at value
  exact ⟨finite, numeric, written, value.trans (congrArg (fun s => -valueOf s.toList) rounded)⟩

end Formatter

end ControlDeck
