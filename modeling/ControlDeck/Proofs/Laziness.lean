import ControlDeck.Proofs.Reading

namespace ControlDeck.Formula

variable {read : Readings} {format : Formatter} {a b c f : Formula} {x y z v : Value}

/-- The branch that a condition selects of two values. -/
def selected (condition whenTrue whenFalse : Value) : Except EvalError Value :=
  (truthFor (.function .ifThenElse) condition).map fun b => if b then whenTrue else whenFalse

/-- The value of a formula all of whose operands are evaluated before anything is applied to
them. -/
def evalStrict (read : Readings) (format : Formatter) : Formula → Except EvalError Value
  | .literal v => .ok v
  | .property name => .ok (Value.ofReading (read name))
  | .unary op a => do applyUnary op (← evalStrict read format a)
  | .binary op a b => do
    let x ← evalStrict read format a
    let y ← evalStrict read format b
    applyBinary op x y
  | .call₁ f a => do apply₁ f (← evalStrict read format a)
  | .call₂ f a b => do
    let x ← evalStrict read format a
    let y ← evalStrict read format b
    apply₂ format f x y
  | .choose c a b => do
    let x ← evalStrict read format c
    let y ← evalStrict read format a
    let z ← evalStrict read format b
    selected x y z

theorem eval_binary_of_ok (op : BinaryOp) (ha : a.eval read format = .ok x)
    (hb : b.eval read format = .ok y) :
    (binary op a b).eval read format = applyBinary op x y := by
  cases op with
  | and | or =>
    simp only [eval, applyBinary, ha, hb]
    rfl
  | _ =>
    simp only [eval, ha, hb]
    rfl

theorem eval_call₂_of_ok (f : Function₂) (ha : a.eval read format = .ok x)
    (hb : b.eval read format = .ok y) :
    (call₂ f a b).eval read format = apply₂ format f x y := by
  cases f with
  | ifNull =>
    simp only [eval, ha, hb]
    cases x <;> rfl
  | _ =>
    simp only [eval, ha, hb]
    rfl

theorem eval_choose_of_ok (hc : c.eval read format = .ok x) (ha : a.eval read format = .ok y)
    (hb : b.eval read format = .ok z) :
    (choose c a b).eval read format = selected x y z := by
  have condition : (choose c a b).eval read format =
      (truthFor (.function .ifThenElse) x >>= fun t =>
        if t then a.eval read format else b.eval read format) := by
    rw [eval, hc]
    rfl
  rw [condition, ha, hb, selected]
  cases truthFor (.function .ifThenElse) x with
  | error e => rfl
  | ok t => cases t <;> rfl

/-- Every part of a formula has a value. -/
def Total (read : Readings) (format : Formatter) (f : Formula) : Prop :=
  ∀ g ∈ f.parts, ∃ w, g.eval read format = .ok w

theorem Total.of_operands {operands : List Formula} (parts : f.parts = f :: operands)
    (value : f.eval read format = .ok v)
    (rest : ∀ g ∈ operands, ∃ w, g.eval read format = .ok w) : f.Total read format := by
  rw [Total, parts]
  exact List.forall_mem_cons.2 ⟨⟨v, value⟩, rest⟩

theorem Total.value (h : f.Total read format) : ∃ w, f.eval read format = .ok w :=
  h f (by cases f <;> exact List.mem_cons_self)

theorem eval_of_evalStrict (h : f.evalStrict read format = .ok v) :
    f.eval read format = .ok v ∧ f.Total read format := by
  induction f generalizing v with
  | literal w => exact ⟨h, .of_operands rfl h (by simp)⟩
  | property name => exact ⟨h, .of_operands rfl h (by simp)⟩
  | unary op a ih =>
    obtain ⟨x, ha, happly⟩ := bind_eq_ok.1 h
    obtain ⟨hx, rest⟩ := ih ha
    have value : (unary op a).eval read format = .ok v := by
      rw [eval, hx]
      exact happly
    exact ⟨value, .of_operands rfl value rest⟩
  | binary op a b iha ihb =>
    obtain ⟨x, ha, h⟩ := bind_eq_ok.1 h
    obtain ⟨y, hb, happly⟩ := bind_eq_ok.1 h
    obtain ⟨hx, resta⟩ := iha ha
    obtain ⟨hy, restb⟩ := ihb hb
    have value := (eval_binary_of_ok op hx hy).trans happly
    exact ⟨value, .of_operands rfl value (List.forall_mem_append.2 ⟨resta, restb⟩)⟩
  | call₁ g a ih =>
    obtain ⟨x, ha, happly⟩ := bind_eq_ok.1 h
    obtain ⟨hx, rest⟩ := ih ha
    have value : (call₁ g a).eval read format = .ok v := by
      rw [eval, hx]
      exact happly
    exact ⟨value, .of_operands rfl value rest⟩
  | call₂ g a b iha ihb =>
    obtain ⟨x, ha, h⟩ := bind_eq_ok.1 h
    obtain ⟨y, hb, happly⟩ := bind_eq_ok.1 h
    obtain ⟨hx, resta⟩ := iha ha
    obtain ⟨hy, restb⟩ := ihb hb
    have value := (eval_call₂_of_ok g hx hy).trans happly
    exact ⟨value, .of_operands rfl value (List.forall_mem_append.2 ⟨resta, restb⟩)⟩
  | choose c a b ihc iha ihb =>
    obtain ⟨x, hc, h⟩ := bind_eq_ok.1 h
    obtain ⟨y, ha, h⟩ := bind_eq_ok.1 h
    obtain ⟨z, hb, happly⟩ := bind_eq_ok.1 h
    obtain ⟨hx, restc⟩ := ihc hc
    obtain ⟨hy, resta⟩ := iha ha
    obtain ⟨hz, restb⟩ := ihb hb
    have value := (eval_choose_of_ok hx hy hz).trans happly
    have operands := List.forall_mem_append.2 ⟨restc, List.forall_mem_append.2 ⟨resta, restb⟩⟩
    exact ⟨value, .of_operands rfl value operands⟩

theorem Total.evalStrict (h : f.Total read format) :
    f.evalStrict read format = f.eval read format := by
  induction f with
  | literal w => rfl
  | property name => rfl
  | unary op a ih => rw [Formula.evalStrict, eval, ih (List.forall_mem_cons.1 h).2]
  | binary op a b iha ihb =>
    obtain ⟨resta, restb⟩ := List.forall_mem_append.1 (List.forall_mem_cons.1 h).2
    obtain ⟨x, hx⟩ := Total.value resta
    obtain ⟨y, hy⟩ := Total.value restb
    rw [Formula.evalStrict, eval_binary_of_ok op hx hy, iha resta, ihb restb, hx, hy]
    rfl
  | call₁ g a ih => rw [Formula.evalStrict, eval, ih (List.forall_mem_cons.1 h).2]
  | call₂ g a b iha ihb =>
    obtain ⟨resta, restb⟩ := List.forall_mem_append.1 (List.forall_mem_cons.1 h).2
    obtain ⟨x, hx⟩ := Total.value resta
    obtain ⟨y, hy⟩ := Total.value restb
    rw [Formula.evalStrict, eval_call₂_of_ok g hx hy, iha resta, ihb restb, hx, hy]
    rfl
  | choose c a b ihc iha ihb =>
    obtain ⟨restc, rest⟩ := List.forall_mem_append.1 (List.forall_mem_cons.1 h).2
    obtain ⟨resta, restb⟩ := List.forall_mem_append.1 rest
    obtain ⟨x, hx⟩ := Total.value restc
    obtain ⟨y, hy⟩ := Total.value resta
    obtain ⟨z, hz⟩ := Total.value restb
    rw [Formula.evalStrict, eval_choose_of_ok hx hy hz, ihc restc, iha resta, ihb restb, hx, hy, hz]
    rfl

/-- An evaluation that leaves nothing out has a value exactly if every part of the formula has one,
and it has no other value then: what is left out can only be an error. -/
theorem evalStrict_eq_ok_iff : f.evalStrict read format = .ok v ↔
    f.eval read format = .ok v ∧ ∀ g ∈ f.parts, ∃ w, g.eval read format = .ok w := by
  constructor
  · exact eval_of_evalStrict
  · rintro ⟨value, total⟩
    rw [Total.evalStrict total, value]

/-- A branch that is not taken need not have a value. -/
example (read : Readings) (format : Formatter) :
    let f := choose (literal (.boolean true)) (literal (.integer 1))
      (binary .div (literal (.integer 1)) (literal (.integer 0)))
    f.eval read format = .ok (.integer 1) ∧ f.evalStrict read format = .error .divisionByZero :=
  ⟨rfl, rfl⟩

end ControlDeck.Formula
