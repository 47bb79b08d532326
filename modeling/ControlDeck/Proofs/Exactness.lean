import ControlDeck.Proofs.Reading

namespace ControlDeck.Formula

open Decimal

variable {read : Readings} {format : Formatter} {f : Formula} {op : BinaryOp} {v x y : Value}
  {i j n : Int}

/-- The integer that a property reads; none if its value is of another kind or missing. -/
def integerAt? (read : Readings) (name : String) : Option Int :=
  match (read name).bind Reading.datum with
  | some (.integer n) | some (.long n) => some n
  | _ => none

/-- The result of an operator on unbounded integers, which the remainder by zero has not got. The
quotient of a remainder is truncated. -/
def BinaryOp.unbounded? : BinaryOp → Int → Int → Option Int
  | add, i, j => some (i + j)
  | sub, i, j => some (i - j)
  | mul, i, j => some (i * j)
  | rem, i, j => if j = 0 then none else some (i.tmod j)
  | _, _, _ => none

/-- The value of a formula over the unbounded integers. -/
def unbounded? (read : Readings) : Formula → Option Int
  | literal (.integer n) => some n
  | property name => integerAt? read name
  | unary .negate a => (a.unbounded? read).map fun n => -n
  | binary op a b => do op.unbounded? (← a.unbounded? read) (← b.unbounded? read)
  | call₁ .abs a => (a.unbounded? read).map fun n => (n.natAbs : Int)
  | _ => none

/-- The formulas of integer arithmetic. -/
inductive Integral : Formula → Prop where
  | literal (n : Int) : Integral (literal (.integer n))
  | property (name : String) : Integral (property name)
  | negate {a : Formula} (h : Integral a) : Integral (unary .negate a)
  | binary {a b : Formula} {op : BinaryOp} (h : op ∈ [.add, .sub, .mul, .rem]) (ha : Integral a)
      (hb : Integral b) : Integral (binary op a b)
  | abs {a : Formula} (h : Integral a) : Integral (call₁ .abs a)

theorem integerOr_eq_integer_iff {m : Int} {r : Float} :
    integerOr m r = .integer n ↔ m = n ∧ fitsWord 64 m := by
  rw [integerOr]
  split
  · rename_i fits
    simp [fits]
  · rename_i outside
    simp [outside]

theorem ofReading_eq_integer_iff {name : String} :
    Value.ofReading (read name) = .integer n ↔ integerAt? read name = some n := by
  rw [integerAt?]
  cases read name with
  | none => simp [Value.ofReading]
  | some r =>
    obtain ⟨kind, datum, raw⟩ := r
    cases datum with
    | none => simp [Value.ofReading]
    | some d => cases d <;> simp [Value.ofReading, Value.ofDatum]

theorem applyUnary_negate_integer (h : applyUnary .negate x = .ok (.integer n)) :
    ∃ i, x = .integer i ∧ -i = n := by
  cases x with
  | integer i => exact ⟨i, rfl, (integerOr_eq_integer_iff.1 (Except.ok.inj h)).1⟩
  | _ => cases h

theorem apply₁_abs_integer (h : apply₁ .abs x = .ok (.integer n)) :
    ∃ i, x = .integer i ∧ (i.natAbs : Int) = n := by
  cases x with
  | integer i => exact ⟨i, rfl, (integerOr_eq_integer_iff.1 (Except.ok.inj h)).1⟩
  | _ => cases h

theorem arithmetic_integer {exact : Int → Int → Int} {rounded : Float → Float → Float}
    (h : arithmetic op exact rounded x y = .ok (.integer n)) :
    ∃ i j, x = .integer i ∧ y = .integer j ∧ exact i j = n := by
  rw [arithmetic.eq_def] at h
  split at h
  · rename_i i j
    exact ⟨i, j, rfl, rfl, (integerOr_eq_integer_iff.1 (Except.ok.inj h)).1⟩
  · split at h
    · cases h
    · cases h

theorem orMismatch_map {α : Type} {a : Option α} {make : α → Value}
    (h : orMismatch op x y (a.map make) = .ok v) : ∃ t, make t = v := by
  cases a with
  | none => cases h
  | some t => exact ⟨t, Except.ok.inj h⟩

theorem isZero_zero : isZero (.integer 0) = true := by
  decide

theorem remainder_integer (nonzero : ¬(x.toFloat?.isSome && isZero y) = true)
    (h : remainder x y = .ok (.integer n)) :
    ∃ i j, x = .integer i ∧ y = .integer j ∧ BinaryOp.rem.unbounded? i j = some n := by
  rw [remainder.eq_def] at h
  split at h
  · rename_i i j
    have hj : j ≠ 0 := by
      rintro rfl
      exact nonzero isZero_zero
    split at h
    · cases h
    · cases h
      exact ⟨i, j, rfl, rfl, if_neg hj⟩
  · rename_i apart
    obtain ⟨i, j, rfl, rfl, -⟩ := arithmetic_integer h
    exact (apart i j rfl rfl).elim

/-- An operator gives an integer only for two integers, and only the exact one. -/
theorem applyBinary_integer (h : applyBinary op x y = .ok (.integer n)) :
    ∃ i j, x = .integer i ∧ y = .integer j ∧ op.unbounded? i j = some n := by
  cases op with
  | eq | ne => cases h
  | lt | le | gt | ge =>
    obtain ⟨o, -, h⟩ := map_eq_ok.1 h
    cases h
  | and =>
    obtain ⟨t, -, h⟩ := bind_eq_ok.1 h
    split at h
    · obtain ⟨u, -, h⟩ := map_eq_ok.1 h
      cases h
    · cases h
  | or =>
    obtain ⟨t, -, h⟩ := bind_eq_ok.1 h
    split at h
    · cases h
    · obtain ⟨u, -, h⟩ := map_eq_ok.1 h
      cases h
  | add =>
    simp only [applyBinary] at h
    split at h
    · cases h
    · cases h
    · obtain ⟨t, ht⟩ := orMismatch_map h
      cases ht
    · obtain ⟨t, ht⟩ := orMismatch_map h
      cases ht
    · obtain ⟨i, j, rfl, rfl, rfl⟩ := arithmetic_integer h
      exact ⟨i, j, rfl, rfl, rfl⟩
  | sub =>
    simp only [applyBinary] at h
    split at h
    · obtain ⟨t, ht⟩ := orMismatch_map h
      cases ht
    · cases h
    · obtain ⟨t, ht⟩ := orMismatch_map h
      cases ht
    · obtain ⟨i, j, rfl, rfl, rfl⟩ := arithmetic_integer h
      exact ⟨i, j, rfl, rfl, rfl⟩
  | mul =>
    obtain ⟨i, j, rfl, rfl, rfl⟩ := arithmetic_integer h
    exact ⟨i, j, rfl, rfl, rfl⟩
  | div =>
    simp only [applyBinary] at h
    split at h
    · split at h
      · cases h
      · cases h
    · cases h
  | rem =>
    simp only [applyBinary] at h
    split at h
    · cases h
    · rename_i nonzero
      exact remainder_integer nonzero h

theorem eval_arithmetic (h : op ∈ [.add, .sub, .mul, .rem]) (a b : Formula) :
    (binary op a b).eval read format = (do
      let x ← a.eval read format
      let y ← b.eval read format
      applyBinary op x y) := by
  simp only [List.mem_cons, List.not_mem_nil, or_false] at h
  rcases h with rfl | rfl | rfl | rfl <;> rfl

theorem Integral.unbounded?_of_eval (hf : f.Integral) (h : f.eval read format = .ok (.integer n)) :
    f.unbounded? read = some n := by
  induction hf generalizing n with
  | literal m =>
    cases h
    rfl
  | property name => exact ofReading_eq_integer_iff.1 (Except.ok.inj h)
  | negate ha ih =>
    obtain ⟨x, hx, h⟩ := bind_eq_ok.1 h
    obtain ⟨i, rfl, rfl⟩ := applyUnary_negate_integer h
    rw [unbounded?, ih hx]
    rfl
  | binary member ha hb iha ihb =>
    rw [eval_arithmetic member] at h
    obtain ⟨x, hx, h⟩ := bind_eq_ok.1 h
    obtain ⟨y, hy, h⟩ := bind_eq_ok.1 h
    obtain ⟨i, j, rfl, rfl, exact⟩ := applyBinary_integer h
    rw [unbounded?, iha hx, ihb hy]
    exact exact
  | abs ha ih =>
    obtain ⟨x, hx, h⟩ := bind_eq_ok.1 h
    obtain ⟨i, rfl, rfl⟩ := apply₁_abs_integer h
    rw [unbounded?, ih hx]
    rfl

theorem integerOr_of_fits {r : Float} (fits : fitsWord 64 n) : integerOr n r = .integer n :=
  if_pos fits

theorem unbounded?_of_mem (h : op ∈ [.add, .sub, .mul, .rem]) (whole : op ≠ .rem) (i j : Int) :
    ∃ n, op.unbounded? i j = some n := by
  simp only [List.mem_cons, List.not_mem_nil, or_false] at h
  rcases h with rfl | rfl | rfl | rfl
  · exact ⟨i + j, rfl⟩
  · exact ⟨i - j, rfl⟩
  · exact ⟨i * j, rfl⟩
  · exact absurd rfl whole

theorem applyBinary_of_fits (exact : op.unbounded? i j = some n) (whole : op ≠ .rem)
    (fits : fitsWord 64 n) : applyBinary op (.integer i) (.integer j) = .ok (.integer n) := by
  cases op with
  | add | sub | mul =>
    cases exact
    exact congrArg Except.ok (integerOr_of_fits fits)
  | rem => exact absurd rfl whole
  | _ => cases exact

/-- What keeps the arithmetic of a formula within the integers: it takes no remainders, its
properties read integers, and the exact value of every part fits in 64 bits. -/
structure Contained (read : Readings) (f : Formula) : Prop where
  whole : ∀ a b, binary .rem a b ∉ f.parts
  present : ∀ name ∈ f.names, ∃ n, integerAt? read name = some n
  fits : ∀ g ∈ f.parts, ∀ n, g.unbounded? read = some n → fitsWord 64 n

theorem Contained.operand {a : Formula} (h : f.Contained read) (parts : a.parts ⊆ f.parts)
    (names : a.names ⊆ f.names) : a.Contained read where
  whole := fun b c mem => h.whole b c (parts mem)
  present := fun name mem => h.present name (names mem)
  fits := fun g mem => h.fits g (parts mem)

theorem mem_parts_self (f : Formula) : f ∈ f.parts := by
  cases f <;> exact List.mem_cons_self

theorem Integral.eval_of_contained (hf : f.Integral) (h : f.Contained read) :
    ∃ n, f.unbounded? read = some n ∧ f.eval read format = .ok (.integer n) := by
  induction hf with
  | literal n => exact ⟨n, rfl, rfl⟩
  | property name =>
    obtain ⟨n, hn⟩ := h.present name (List.mem_singleton_self name)
    exact ⟨n, hn, congrArg Except.ok (ofReading_eq_integer_iff.2 hn)⟩
  | @negate a ha ih =>
    obtain ⟨i, ha, value⟩ := ih (h.operand (List.subset_cons_self _ _) (List.Subset.refl _))
    have exact : (unary .negate a).unbounded? read = some (-i) := by
      rw [unbounded?, ha]
      rfl
    refine ⟨-i, exact, ?_⟩
    rw [eval, value]
    exact congrArg Except.ok (integerOr_of_fits (h.fits _ (mem_parts_self _) _ exact))
  | @binary a b op member ha hb iha ihb =>
    have whole : op ≠ .rem := by
      rintro rfl
      exact h.whole a b (mem_parts_self _)
    obtain ⟨i, ha, valuea⟩ := iha (h.operand
      (List.subset_cons_of_subset _ (List.subset_append_left _ _)) (List.subset_append_left _ _))
    obtain ⟨j, hb, valueb⟩ := ihb (h.operand
      (List.subset_cons_of_subset _ (List.subset_append_right _ _)) (List.subset_append_right _ _))
    obtain ⟨n, hn⟩ := unbounded?_of_mem member whole i j
    have exact : (Formula.binary op a b).unbounded? read = some n := by
      rw [unbounded?, ha, hb]
      exact hn
    refine ⟨n, exact, ?_⟩
    rw [eval_arithmetic member, valuea, valueb]
    exact applyBinary_of_fits hn whole (h.fits _ (mem_parts_self _) _ exact)
  | @abs a ha ih =>
    obtain ⟨i, ha, value⟩ := ih (h.operand (List.subset_cons_self _ _) (List.Subset.refl _))
    have exact : (call₁ .abs a).unbounded? read = some (i.natAbs : Int) := by
      rw [unbounded?, ha]
      rfl
    refine ⟨i.natAbs, exact, ?_⟩
    rw [eval, value]
    exact congrArg Except.ok (integerOr_of_fits (h.fits _ (mem_parts_self _) _ exact))

/-- An integer that is the value of a formula of integer arithmetic is its exact value, and the
exact value is found as long as every part has one that fits in 64 bits and no remainder is
taken. -/
theorem eval_exactInteger (h : f.Integral) :
    (∀ n, f.eval read format = .ok (.integer n) → f.unbounded? read = some n) ∧
      (f.Contained read →
        ∃ n, f.unbounded? read = some n ∧ f.eval read format = .ok (.integer n)) :=
  ⟨fun _ => h.unbounded?_of_eval, h.eval_of_contained⟩

/-- The least integer that fits in 64 bits is reached. -/
theorem eval_exactInteger_least :
    let f := binary .sub (unary .negate (literal (.integer 9223372036854775807))) (property "gear")
    let read := fun _ => some ⟨.integer, some (.integer 1), "1"⟩
    f.Integral ∧ f.Contained read ∧
      f.unbounded? read = some (-9223372036854775808) ∧
      f.eval read Formatter.standard = .ok (.integer (-9223372036854775808)) := by
  intro f read
  have integral : f.Integral := .binary (by decide) (.negate (.literal _)) (.property _)
  have contained : f.Contained read := by
    refine ⟨by simp [f, parts], fun name _ => ⟨1, rfl⟩, fun g hg n hn => ?_⟩
    simp only [f, parts, List.mem_cons, List.mem_append, List.not_mem_nil, or_false] at hg
    rcases hg with rfl | (rfl | rfl) | rfl <;> cases hn <;> decide
  obtain ⟨n, exact, value⟩ := (eval_exactInteger integral).2 contained
  cases exact
  exact ⟨integral, contained, (eval_exactInteger integral).1 _ value, value⟩

/-- Its opposite does not fit. -/
example (read : Readings) (format : Formatter) :
    (unary .negate (literal (.integer (-9223372036854775808)))).eval read format =
      .ok (.double 9223372036854775808) := by
  rfl

end ControlDeck.Formula
