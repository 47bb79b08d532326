import ControlDeck.Comparison
import ControlDeck.Proofs.DoubleOrder

namespace ControlDeck

/-- Values without an order to each other. -/
inductive Incomparable : Datum → Datum → Prop where
  | kinds {a b : Datum} : a.kind ≠ b.kind → Incomparable a b
  | noNumber {x y : Float} : x.isNaN ∨ y.isNaN → Incomparable (.double x) (.double y)

namespace Datum

variable {a b : Datum}

theorem compare_of_kind_ne (other : a.kind ≠ b.kind) : a.compare b = none := by
  cases a <;> cases b <;> first | rfl | exact absurd rfl other

theorem compare_eq_none_iff : a.compare b = none ↔ Incomparable a b := by
  constructor
  · intro none
    by_cases same : a.kind = b.kind
    · cases a <;> cases b <;> cases same
      case double.double.refl x y => exact .noNumber (compareFloat_eq_none_iff.1 none)
      all_goals cases none
    · exact .kinds same
  · intro h
    cases h with
    | kinds other => exact compare_of_kind_ne other
    | noNumber absent => exact compareFloat_eq_none_iff.2 absent

theorem kind_of_ofText? {kind : Kind} {text : String} (h : ofText? kind text = some a) :
    a.kind = kind := by
  cases kind with
  | string | object =>
    cases h
    rfl
  | _ =>
    obtain ⟨value, -, rfl⟩ := Option.map_eq_some_iff.1 h
    rfl

theorem incomparable_iff (same : a.kind = b.kind) : Incomparable a b ↔
    ∃ x y : Float, a = .double x ∧ b = .double y ∧ (x.isNaN ∨ y.isNaN) := by
  constructor
  · intro h
    cases h with
    | kinds other => exact absurd same other
    | noNumber absent => exact ⟨_, _, rfl, rfl, absent⟩
  · rintro ⟨x, y, rfl, rfl, absent⟩
    exact .noNumber absent

end Datum

theorem Reading.kind_of_decode {kind : Kind} {raw : String} {r : Reading} {a : Datum}
    (h : decode kind raw = .ok r) (value : r.datum = some a) : a.kind = r.kind := by
  rw [decode] at h
  split at h
  · cases h
    cases value
  · split at h
    · rename_i read
      cases h
      cases value
      exact Datum.kind_of_ofText? read
    · cases h

namespace Comparison

/-- The order of what a property reads to a text. -/
def orderTo? (read : Readings) (property bound : String) : Option Ordering := do
  let current ← read property
  let value ← current.datum
  let bound ← current.coerce? bound
  value.compare bound

/-- A comparison of a property with texts holds. -/
def Holds (read : Readings) (property : String) (op : Operator) (bounds : List String) : Prop :=
  eval read ⟨property, op, bounds⟩ = true

/-- Nothing can be said about a property and a text: the property has no value, the text is none of
its kind, or the two have no order. -/
inductive Undecided (read : Readings) (property bound : String) : Prop where
  | absent : read property = none → Undecided read property bound
  | null {r : Reading} : read property = some r → r.datum = none → Undecided read property bound
  | foreign {r : Reading} : read property = some r → r.coerce? bound = none →
      Undecided read property bound
  | incomparable {r : Reading} {value limit : Datum} : read property = some r →
      r.datum = some value → r.coerce? bound = some limit → Incomparable value limit →
      Undecided read property bound

variable {read : Readings} {property bound low high : String} {bounds : List String}
  {op : Operator} {o : Ordering}

theorem orderTo?_eq_none_iff : orderTo? read property bound = none ↔
    Undecided read property bound := by
  constructor
  · intro none
    rw [orderTo?] at none
    cases current : read property with
    | none => exact .absent current
    | some r =>
      cases value : r.datum with
      | none => exact .null current value
      | some value =>
        cases limit : r.coerce? bound with
        | none => exact .foreign current limit
        | some limit =>
          rw [current, Option.bind_eq_bind, Option.bind_some, value, Option.bind_eq_bind,
            Option.bind_some, limit] at none
          exact .incomparable current value limit (Datum.compare_eq_none_iff.1 none)
  · intro h
    rw [orderTo?]
    cases h with
    | absent current => rw [current]; rfl
    | null current value => simp [current, value]
    | foreign current limit => simp [current, limit]
    | incomparable current value limit apart =>
      simp [current, value, limit, Datum.compare_eq_none_iff.2 apart]

theorem eval_single (single : op ≠ .between) (read : Readings) (property bound : String) :
    eval read ⟨property, op, [bound]⟩ =
      ((orderTo? read property bound).map op.holds).getD false := by
  rw [eval, orderTo?]
  cases read property with
  | none => rfl
  | some current =>
    cases value : current.datum with
    | none => simp [value]
    | some value =>
      cases limit : current.coerce? bound with
      | none => simp [limit]
      | some limit =>
        simp only [*, List.mapM_cons, List.mapM_nil, Option.bind_eq_bind, Option.bind_some]
        cases op with
        | between => exact absurd rfl single
        | _ => rfl

theorem eval_between (read : Readings) (property low high : String) :
    eval read ⟨property, .between, [low, high]⟩ =
      (eval read ⟨property, .ge, [low]⟩ && eval read ⟨property, .le, [high]⟩) := by
  have ge := @eval_single .ge (by decide) read property low
  have le := @eval_single .le (by decide) read property high
  rw [ge, le, eval, orderTo?, orderTo?]
  cases read property with
  | none => rfl
  | some current =>
    cases value : current.datum with
    | none => simp [value]
    | some value =>
      cases first : current.coerce? low with
      | none => simp [first]
      | some first =>
        cases second : current.coerce? high with
        | none => simp [first, second]
        | some second => simp [*, holdsTo]

theorem length_eq_of_mapM {α β : Type} {f : α → Option β} {s : List α} {t : List β}
    (h : s.mapM f = some t) : t.length = s.length := by
  induction s generalizing t with
  | nil =>
    cases h
    rfl
  | cons a s ih =>
    rw [List.mapM_cons] at h
    obtain ⟨b, -, h⟩ := Option.bind_eq_some_iff.1 h
    obtain ⟨t, rest, h⟩ := Option.bind_eq_some_iff.1 h
    cases h
    exact congrArg Nat.succ (ih rest)

theorem eval_between_of_length (other : bounds.length ≠ 2) (read : Readings) (property : String) :
    eval read ⟨property, .between, bounds⟩ = false := by
  rw [eval]
  cases read property with
  | none => rfl
  | some current =>
    dsimp only
    cases current.datum with
    | none => rfl
    | some value =>
      cases limits : bounds.mapM current.coerce? with
      | none => rfl
      | some limits' =>
        -- The test is on the values that were read, which are as many as the texts.
        have count := length_eq_of_mapM limits
        match limits' with
        | [] | [_] | _ :: _ :: _ :: _ => rfl
        | [low, high] => exact absurd count.symm other

theorem holds_single_iff (single : op ≠ .between) : Holds read property op [bound] ↔
    ∃ o, orderTo? read property bound = some o ∧ op.holds o = true := by
  rw [Holds, eval_single single]
  cases orderTo? read property bound <;> simp

/-- The signs that stand for one order. -/
theorem holds_strict_iff :
    (Holds read property .lt [bound] ↔ orderTo? read property bound = some .lt) ∧
    (Holds read property .eq [bound] ↔ orderTo? read property bound = some .eq) ∧
    (Holds read property .gt [bound] ↔ orderTo? read property bound = some .gt) := by
  refine ⟨?_, ?_, ?_⟩ <;>
  · rw [holds_single_iff (by decide)]
    simp [Operator.holds]

/-- The signs that leave out one order. -/
theorem holds_weak_iff :
    (Holds read property .ne [bound] ↔
      Holds read property .lt [bound] ∨ Holds read property .gt [bound]) ∧
    (Holds read property .ge [bound] ↔
      Holds read property .gt [bound] ∨ Holds read property .eq [bound]) ∧
    (Holds read property .le [bound] ↔
      Holds read property .lt [bound] ∨ Holds read property .eq [bound]) := by
  obtain ⟨lt, eq, gt⟩ := @holds_strict_iff read property bound
  refine ⟨?_, ?_, ?_⟩ <;>
  · rw [holds_single_iff (by decide)]
    simp only [lt, eq, gt]
    rcases orderTo? read property bound with - | - | - | - <;> simp [Operator.holds]

theorem not_holds_iff : (∀ op, op ≠ .between → ¬Holds read property op [bound]) ↔
    Undecided read property bound := by
  rw [← orderTo?_eq_none_iff]
  constructor
  · intro silent
    obtain ⟨lt, eq, gt⟩ := @holds_strict_iff read property bound
    cases order : orderTo? read property bound with
    | none => rfl
    | some o =>
      cases o with
      | lt => exact absurd (lt.2 order) (silent .lt (by decide))
      | eq => exact absurd (eq.2 order) (silent .eq (by decide))
      | gt => exact absurd (gt.2 order) (silent .gt (by decide))
  · intro none op single h
    obtain ⟨o, order, -⟩ := (holds_single_iff single).1 h
    rw [none] at order
    cases order

/-- A property that was received is undecided for want of a value, of a text of its kind or of a
number. -/
theorem undecided_iff_of_decode {kind : Kind} {raw : String} {r : Reading}
    (current : read property = some r) (decoded : Reading.decode kind raw = .ok r) :
    Undecided read property bound ↔ r.datum = none ∨ r.coerce? bound = none ∨
      ∃ x y : Float, r.datum = some (.double x) ∧ r.coerce? bound = some (.double y) ∧
        (x.isNaN ∨ y.isNaN) := by
  constructor
  · intro h
    cases h with
    | absent none =>
      rw [none] at current
      cases current
    | null same none =>
      cases same.symm.trans current
      exact .inl none
    | foreign same none =>
      cases same.symm.trans current
      exact .inr (.inl none)
    | incomparable same value limit apart =>
      cases same.symm.trans current
      have kinds := (Reading.kind_of_decode decoded value).trans (Datum.kind_of_ofText? limit).symm
      obtain ⟨x, y, rfl, rfl, absent⟩ := (Datum.incomparable_iff kinds).1 apart
      exact .inr (.inr ⟨x, y, value, limit, absent⟩)
  · rintro (none | none | ⟨x, y, value, limit, absent⟩)
    · exact .null current none
    · exact .foreign current none
    · exact .incomparable current value limit (.noNumber absent)

/-- The laws of comparisons with one text and with a range. All of them rest on one order of the
value to the text: where there is none, no comparison holds, not even an inequality. -/
theorem eval_laws (read : Readings) (property bound : String) :
    (¬(Holds read property .lt [bound] ∧ Holds read property .eq [bound]) ∧
      ¬(Holds read property .lt [bound] ∧ Holds read property .gt [bound]) ∧
      ¬(Holds read property .eq [bound] ∧ Holds read property .gt [bound])) ∧
    ((Holds read property .ne [bound] ↔
        Holds read property .lt [bound] ∨ Holds read property .gt [bound]) ∧
      (Holds read property .ge [bound] ↔
        Holds read property .gt [bound] ∨ Holds read property .eq [bound]) ∧
      (Holds read property .le [bound] ↔
        Holds read property .lt [bound] ∨ Holds read property .eq [bound])) ∧
    ((∀ op, op ≠ .between → ¬Holds read property op [bound]) ↔
      Undecided read property bound) ∧
    (∀ other, Holds read property .between [bound, other] ↔
      Holds read property .ge [bound] ∧ Holds read property .le [other]) ∧
    ∀ bounds : List String, bounds.length ≠ 2 → ¬Holds read property .between bounds := by
  refine ⟨?_, holds_weak_iff, not_holds_iff, ?_, ?_⟩
  · obtain ⟨lt, eq, gt⟩ := @holds_strict_iff read property bound
    rw [lt, eq, gt]
    cases orderTo? read property bound with
    | none => simp
    | some o => cases o <;> simp
  · intro other
    rw [Holds, eval_between, Bool.and_eq_true]
    exact Iff.rfl
  · intro bounds other h
    rw [Holds, eval_between_of_length other] at h
    cases h

example :
    eval (fun _ => some ⟨.double, Datum.ofText? .double "NaN", "NaN"⟩) ⟨"x", .ne, ["1"]⟩ = false :=
  rfl

end Comparison

end ControlDeck
