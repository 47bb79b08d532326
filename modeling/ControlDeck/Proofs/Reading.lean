import ControlDeck.Expression.Slot
import Mathlib.Tactic.Common

namespace ControlDeck

theorem bind_eq_ok {ε α β : Type} {x : Except ε α} {f : α → Except ε β} {b : β} :
    (x >>= f) = .ok b ↔ ∃ a, x = .ok a ∧ f a = .ok b := by
  cases x with
  | error e => exact ⟨nofun, nofun⟩
  | ok a => exact ⟨fun h => ⟨a, rfl, h⟩, fun ⟨_, ha, hf⟩ => Except.ok.inj ha ▸ hf⟩

theorem bind_eq_error {ε α β : Type} {x : Except ε α} {f : α → Except ε β} {e : ε} :
    (x >>= f) = .error e ↔ x = .error e ∨ ∃ a, x = .ok a ∧ f a = .error e := by
  cases x <;> simp [bind, Except.bind]

theorem map_eq_ok {ε α β : Type} {x : Except ε α} {f : α → β} {b : β} :
    x.map f = .ok b ↔ ∃ a, x = .ok a ∧ f a = b := by
  cases x with
  | error e => exact ⟨nofun, nofun⟩
  | ok a =>
    exact ⟨fun h => ⟨a, rfl, Except.ok.inj h⟩, fun ⟨_, ha, hf⟩ => Except.ok.inj ha ▸ hf ▸ rfl⟩

theorem map_eq_error {ε α β : Type} {x : Except ε α} {f : α → β} {e : ε} :
    x.map f = .error e ↔ x = .error e := by
  cases x <;> simp [Except.map]

namespace Formula

/-- The names of the properties that occur in a formula. -/
def names : Formula → List String
  | literal _ => []
  | property name => [name]
  | unary _ a => a.names
  | binary _ a b => a.names ++ b.names
  | call₁ _ a => a.names
  | call₂ _ a b => a.names ++ b.names
  | choose c a b => c.names ++ (a.names ++ b.names)

/-- A formula and all formulas within it. -/
def parts : Formula → List Formula
  | literal v => [literal v]
  | property name => [property name]
  | unary op a => unary op a :: a.parts
  | binary op a b => binary op a b :: (a.parts ++ b.parts)
  | call₁ f a => call₁ f a :: a.parts
  | call₂ f a b => call₂ f a b :: (a.parts ++ b.parts)
  | choose c a b => choose c a b :: (c.parts ++ (a.parts ++ b.parts))

theorem eval_congr {read read' : Readings} (format : Formatter) {f : Formula}
    (h : ∀ name ∈ f.names, read name = read' name) : f.eval read format = f.eval read' format := by
  induction f with
  | literal v => rfl
  | property name => rw [eval, eval, h name (List.mem_singleton_self name)]
  | unary op a ih => rw [eval, eval, ih h]
  | binary op a b iha ihb =>
    obtain ⟨ha, hb⟩ := List.forall_mem_append.1 h
    cases op <;> simp only [eval, iha ha, ihb hb]
  | call₁ f a ih => rw [eval, eval, ih h]
  | call₂ f a b iha ihb =>
    obtain ⟨ha, hb⟩ := List.forall_mem_append.1 h
    cases f <;> simp only [eval, iha ha, ihb hb]
  | choose c a b ihc iha ihb =>
    obtain ⟨hc, h⟩ := List.forall_mem_append.1 h
    obtain ⟨ha, hb⟩ := List.forall_mem_append.1 h
    rw [eval, eval, ihc hc, iha ha, ihb hb]

@[simp] theorem mem_insertName {n name : String} {ns : List String} :
    n ∈ insertName name ns ↔ n = name ∨ n ∈ ns := by
  induction ns with
  | nil => simp [insertName]
  | cons first ns ih =>
    rw [insertName]
    split
    · simp
    · split
      · rename_i _ he
        simp [he]
      · rw [List.mem_cons, ih, List.mem_cons]
        tauto

theorem insertName_ascending {name : String} {ns : List String} (h : ns.Pairwise (· < ·)) :
    (insertName name ns).Pairwise (· < ·) := by
  induction ns with
  | nil => exact List.pairwise_singleton _ _
  | cons first ns ih =>
    obtain ⟨hf, hns⟩ := List.pairwise_cons.1 h
    rw [insertName]
    split
    · rename_i before
      refine List.pairwise_cons.2 ⟨List.forall_mem_cons.2 ⟨before, ?_⟩, h⟩
      intro n hn
      exact String.lt_trans before (hf n hn)
    · split
      · exact h
      · rename_i before other
        refine List.pairwise_cons.2 ⟨?_, ih hns⟩
        intro n hn
        rcases mem_insertName.1 hn with rfl | hn
        · exact Std.lt_of_le_of_ne (String.not_lt.1 before) (Ne.symm other)
        · exact hf n hn

theorem propertyNames_ascending (tokens : List Located) :
    (propertyNames tokens).Pairwise (· < ·) := by
  induction tokens with
  | nil => exact .nil
  | cons t tokens ih =>
    obtain ⟨token, position⟩ := t
    cases token with
    | property name => exact insertName_ascending ih
    | _ => exact ih

theorem mem_propertyNames_cons {n : String} {t : Located} {rest : List Located} :
    n ∈ propertyNames (t :: rest) ↔ t.token = .property n ∨ n ∈ propertyNames rest := by
  obtain ⟨token, position⟩ := t
  cases token <;> simp [propertyNames, eq_comm]

/-- What a reader takes from the tokens has just the properties that it takes away. -/
def Reader.Collects (next : Reader) : Prop :=
  ∀ ⦃tokens rest : List Located⦄ ⦃f : Formula⦄, next tokens = .ok (f, rest) →
    ∀ n, n ∈ propertyNames tokens ↔ n ∈ f.names ∨ n ∈ propertyNames rest

theorem chainFrom_names {next : Reader} (h : next.Collects) {level bound : Nat} {left f : Formula}
    {tokens rest : List Located} (hr : chainFrom level next bound left tokens = .ok (f, rest))
    (n : String) :
    n ∈ left.names ∨ n ∈ propertyNames tokens ↔ n ∈ f.names ∨ n ∈ propertyNames rest := by
  induction bound, left, tokens using chainFrom.induct level with
  | case1 bound left b position after same ih =>
    rw [chainFrom, if_pos same] at hr
    obtain ⟨⟨right, after'⟩, hn, hr⟩ := bind_eq_ok.1 hr
    rw [← ih right after' hr, mem_propertyNames_cons, h hn n, names, List.mem_append]
    simp only [reduceCtorEq, false_or, or_assoc]
  | case2 bound left b position after other =>
    rw [chainFrom, if_neg other] at hr
    obtain ⟨rfl, rfl⟩ := Prod.mk.inj (Except.ok.inj hr)
    rfl
  | case3 bound left tokens other =>
    rw [chainFrom] at hr
    · obtain ⟨rfl, rfl⟩ := Prod.mk.inj (Except.ok.inj hr)
      rfl
    · exact other

theorem Reader.Collects.chain {next : Reader} (h : next.Collects) (level : Nat) :
    (chain level next).Collects := by
  intro tokens rest f hr n
  obtain ⟨⟨left, after⟩, hn, hr⟩ := bind_eq_ok.1 hr
  rw [h hn n, chainFrom_names h hr]

theorem Reader.Collects.climb {operand : Reader} (h : operand.Collects) (levels : Nat) :
    (climb operand levels).Collects := by
  induction levels with
  | zero => exact h
  | succ level ih => exact ih.chain level

theorem Reader.Collects.expression {operand : Reader} (h : operand.Collects) :
    (expression operand).Collects :=
  h.climb 6

theorem expect_names {token : Token} (ht : ∀ name, token ≠ .property name)
    {tokens rest : List Located} (h : expect token tokens = .ok rest) (n : String) :
    n ∈ propertyNames tokens ↔ n ∈ propertyNames rest := by
  cases tokens with
  | nil => cases h
  | cons t tokens =>
    rw [expect] at h
    split at h
    · rename_i same
      obtain rfl := Except.ok.inj h
      simp [mem_propertyNames_cons, same, ht]
    · cases h

theorem arguments_names {next : Reader} (h : next.Collects) {bound : Nat}
    {tokens rest : List Located} {args : List Formula}
    (hr : Formula.arguments next bound tokens = .ok (args, rest)) (n : String) :
    n ∈ propertyNames tokens ↔ n ∈ args.flatMap names ∨ n ∈ propertyNames rest := by
  induction bound generalizing tokens args with
  | zero =>
    obtain ⟨rfl, rfl⟩ := Prod.mk.inj (Except.ok.inj hr)
    simp
  | succ bound ih =>
    rw [Formula.arguments] at hr
    obtain ⟨⟨first, after⟩, hn, hr⟩ := bind_eq_ok.1 hr
    rw [h hn n]
    dsimp only at hr
    split at hr
    · exact nomatch hr
    · obtain ⟨⟨others, after'⟩, ho, hr⟩ := bind_eq_ok.1 hr
      obtain ⟨rfl, rfl⟩ := Prod.mk.inj (Except.ok.inj hr)
      rw [mem_propertyNames_cons, ih ho, List.flatMap_cons, List.mem_append]
      simp only [reduceCtorEq, false_or, or_assoc]
    · obtain ⟨rfl, rfl⟩ := Prod.mk.inj (Except.ok.inj hr)
      simp [mem_propertyNames_cons]
    · exact nomatch hr

theorem Function.call?_names {f : Function} {args : List Formula} {call : Formula}
    (h : f.call? args = some call) : call.names = args.flatMap Formula.names := by
  unfold Function.call? at h
  split at h
  case h_14 => exact nomatch h
  all_goals
    obtain rfl := Option.some.inj h
    simp [Formula.names]

theorem Reader.Collects.callOf {next : Reader} (h : next.Collects) (name : String) :
    (callOf next name).Collects := by
  intro tokens rest f hr n
  rw [Formula.callOf] at hr
  split at hr
  · exact nomatch hr
  · rename_i function _
    have called {args : List Formula} {after : List Located} {call : Formula}
        (read : n ∈ propertyNames tokens ↔ n ∈ args.flatMap names ∨ n ∈ propertyNames after)
        (hc : function.call? args = some call)
        (hr : (.ok (call, after) : Except ExpressionError _) = .ok (f, rest)) :
        n ∈ propertyNames tokens ↔ n ∈ f.names ∨ n ∈ propertyNames rest := by
      obtain ⟨rfl, rfl⟩ := Prod.mk.inj (Except.ok.inj hr)
      rw [read, Function.call?_names hc]
    dsimp only at hr
    split at hr
    · obtain ⟨⟨args, after⟩, ha, hr⟩ := bind_eq_ok.1 hr
      obtain ⟨rfl, rfl⟩ := Prod.mk.inj (Except.ok.inj ha)
      dsimp only at hr
      split at hr
      · rename_i call hc
        exact called (by simp [mem_propertyNames_cons]) hc hr
      · exact nomatch hr
    · obtain ⟨⟨args, after⟩, ha, hr⟩ := bind_eq_ok.1 hr
      dsimp only at hr
      split at hr
      · rename_i call hc
        exact called (arguments_names h ha n) hc hr
      · exact nomatch hr

theorem labelled_names {labels : Option Labels} {word : String} {f : Formula}
    (h : labelled labels word = .ok f) : f.names = [] := by
  rw [labelled] at h
  split at h
  · obtain rfl := Except.ok.inj h
    rfl
  · exact nomatch h

theorem Reader.Collects.operandWith {nestedOperand nestedExpression : Reader}
    (ho : nestedOperand.Collects) (he : nestedExpression.Collects) (labels : Option Labels) :
    (operandWith labels nestedOperand nestedExpression).Collects := by
  intro tokens rest f hr n
  cases tokens with
  | nil => cases hr
  | cons t tokens =>
    obtain ⟨token, position⟩ := t
    rw [mem_propertyNames_cons]
    cases token with
    | integer | decimal | text | true | false | null | property =>
      obtain ⟨rfl, rfl⟩ := Prod.mk.inj (Except.ok.inj hr)
      simp [names, eq_comm]
    | not =>
      obtain ⟨⟨a, after⟩, ha, hr⟩ := map_eq_ok.1 hr
      obtain ⟨rfl, rfl⟩ := Prod.mk.inj hr
      rw [ho ha n, names]
      simp
    | op b =>
      cases b with
      | sub =>
        obtain ⟨⟨a, after⟩, ha, hr⟩ := map_eq_ok.1 hr
        obtain ⟨rfl, rfl⟩ := Prod.mk.inj hr
        rw [ho ha n, names]
        simp
      | _ => cases hr
    | «open» =>
      obtain ⟨⟨inner, after⟩, hi, hr⟩ := bind_eq_ok.1 hr
      obtain ⟨after', hx, hr⟩ := bind_eq_ok.1 hr
      obtain ⟨rfl, rfl⟩ := Prod.mk.inj (Except.ok.inj hr)
      rw [he hi n, expect_names (by simp) hx]
      simp
    | word name =>
      unfold Formula.operandWith at hr
      dsimp only at hr
      split at hr
      · have called := he.callOf name hr n
        simpa [mem_propertyNames_cons] using called
      · obtain ⟨a, ha, hr⟩ := map_eq_ok.1 hr
        obtain ⟨rfl, rfl⟩ := Prod.mk.inj hr
        simp [labelled_names ha]
    | close | comma => cases hr

theorem operand_collects (labels : Option Labels) (room : Nat) :
    (operand labels room).Collects := by
  induction room with
  | zero =>
    have failing (e : ExpressionError) : Reader.Collects fun _ => .error e := fun _ _ _ h => by
      cases h
    exact (failing _).operandWith (failing _) labels
  | succ room ih => exact ih.operandWith ih.expression labels

theorem ofTokens_names {labels : Option Labels} {tokens : List Located} {f : Formula}
    (h : ofTokens labels tokens = .ok f) (n : String) :
    n ∈ propertyNames tokens ↔ n ∈ f.names := by
  rw [ofTokens] at h
  split at h
  · cases h
  · obtain ⟨⟨formula, rest⟩, hr, h⟩ := bind_eq_ok.1 h
    cases rest with
    | nil =>
      obtain rfl := Except.ok.inj h
      simpa [propertyNames] using (operand_collects labels maxNesting).expression hr n
    | cons => cases h

/-- A formula reads just the properties that it is said to read. -/
theorem parse_names {labels : Option Labels} {source : String} {f : Formula} {used : List String}
    (h : parse labels source = .ok (f, used)) (n : String) : n ∈ used ↔ n ∈ f.names := by
  obtain ⟨tokens, -, h⟩ := bind_eq_ok.1 h
  obtain ⟨formula, hf, h⟩ := bind_eq_ok.1 h
  obtain ⟨rfl, rfl⟩ := Prod.mk.inj (Except.ok.inj h)
  exact ofTokens_names hf n

theorem parse_ascending {labels : Option Labels} {source : String} {f : Formula}
    {used : List String} (h : parse labels source = .ok (f, used)) : used.Pairwise (· < ·) := by
  obtain ⟨tokens, -, h⟩ := bind_eq_ok.1 h
  obtain ⟨formula, -, h⟩ := bind_eq_ok.1 h
  obtain ⟨rfl, rfl⟩ := Prod.mk.inj (Except.ok.inj h)
  exact propertyNames_ascending tokens

end Formula

/-- The names of the properties that occur in an expression. -/
def Expression.names : Expression → List String
  | empty => []
  | comparison c => [c.property]
  | formula f => f.names

theorem Comparison.eval_congr {read read' : Readings} {c : Comparison}
    (h : read c.property = read' c.property) : c.eval read = c.eval read' := by
  rw [eval, eval, h]

theorem Expression.eval_congr {read read' : Readings} (format : Formatter) {e : Expression}
    (h : ∀ name ∈ e.names, read name = read' name) : e.eval read format = e.eval read' format := by
  cases e with
  | empty => rfl
  | comparison c =>
    rw [eval, eval, Comparison.eval_congr (h c.property (List.mem_singleton_self _))]
  | formula f => exact f.eval_congr format h

/-- The names that are said to be read are those that occur. -/
def Compiled.Exact (c : Compiled) : Prop :=
  ∀ n, n ∈ c.used ↔ n ∈ c.expression.names

theorem Compiled.exact_empty : empty.Exact := fun _ => Iff.rfl

theorem Compiled.ofText_exact {labels : Option Labels} {text : String} {c : Compiled}
    (h : ofText labels text = .ok c) : c.Exact := by
  unfold ofText at h
  dsimp only at h
  split at h
  · obtain rfl := Except.ok.inj h
    exact exact_empty
  · split at h
    · obtain ⟨⟨f, used⟩, hp, h⟩ := bind_eq_ok.1 h
      obtain rfl := Except.ok.inj h
      exact Formula.parse_names hp
    · obtain ⟨comparison, -, h⟩ := bind_eq_ok.1 h
      obtain rfl := Except.ok.inj h
      exact fun n => Iff.rfl

theorem Compiled.ofText_ascending {labels : Option Labels} {text : String} {c : Compiled}
    (h : ofText labels text = .ok c) : c.used.Pairwise (· < ·) := by
  unfold ofText at h
  dsimp only at h
  split at h
  · obtain rfl := Except.ok.inj h
    exact .nil
  · split at h
    · obtain ⟨⟨f, used⟩, hp, h⟩ := bind_eq_ok.1 h
      obtain rfl := Except.ok.inj h
      exact Formula.parse_ascending hp
    · obtain ⟨comparison, -, h⟩ := bind_eq_ok.1 h
      obtain rfl := Except.ok.inj h
      exact List.pairwise_singleton _ _

/-- The names that a text is said to read are just those of the properties in its expression, each
of them once, and no other property has a part in the outcome of an evaluation. -/
theorem Compiled.ofText_used {labels : Option Labels} {text : String} {c : Compiled}
    (h : ofText labels text = .ok c) :
    c.used.Pairwise (· < ·) ∧ (∀ name, name ∈ c.used ↔ name ∈ c.expression.names) ∧
      ∀ (format : Formatter) (read read' : Readings), (∀ name ∈ c.used, read name = read' name) →
        c.expression.eval read format = c.expression.eval read' format := by
  have exact := ofText_exact h
  refine ⟨ofText_ascending h, exact, fun format read read' agree => ?_⟩
  exact c.expression.eval_congr format fun name hn => agree name ((exact name).2 hn)

/-- Two spellings of a name are two properties here, and a branch that is not taken is read too. -/
theorem Compiled.ofText_used_branches :
    ∃ c, ofText (some [("unit", "km/h")])
        " if([rpm] > [Rpm] * 2, format([rpm], '0'), UNIT) " = .ok c ∧
      c.used = ["Rpm", "rpm"] ∧
      ∀ (format : Formatter) (read read' : Readings), read "rpm" = read' "rpm" →
        read "Rpm" = read' "Rpm" →
          c.expression.eval read format = c.expression.eval read' format := by
  have used : (ofText (some [("unit", "km/h")])
      " if([rpm] > [Rpm] * 2, format([rpm], '0'), UNIT) ").toOption.map (·.used) =
        some ["Rpm", "rpm"] := by
    decide +kernel
  cases h : ofText (some [("unit", "km/h")])
      " if([rpm] > [Rpm] * 2, format([rpm], '0'), UNIT) " with
  | error e =>
    rw [h] at used
    cases used
  | ok c =>
    rw [h] at used
    have hu : c.used = ["Rpm", "rpm"] := Option.some.inj used
    refine ⟨c, rfl, hu, fun format read read' lower upper => ?_⟩
    refine (ofText_used h).2.2 format read read' ?_
    rw [hu]
    simp [lower, upper]

namespace Slot

theorem update_exact {s : Slot} (h : s.compiled.Exact) (labels : Option Labels) (text : String) :
    (s.update labels text).1.compiled.Exact := by
  rw [update]
  split
  · rename_i compiled hc
    exact Compiled.ofText_exact hc
  · exact h

theorem ofText_exact (labels : Option Labels) (text : String) :
    (ofText labels text).1.compiled.Exact :=
  update_exact Compiled.exact_empty labels text

/-- Nothing but what is reported changes when an expression is evaluated. -/
structure Alike (s s' : Slot) : Prop where
  compiled : s'.compiled = s.compiled
  format : s'.format = s.format

theorem Alike.refl (s : Slot) : s.Alike s := ⟨rfl, rfl⟩

theorem Alike.trans {r s t : Slot} (h : r.Alike s) (h' : s.Alike t) : r.Alike t :=
  ⟨h'.compiled.trans h.compiled, h'.format.trans h.format⟩

theorem eval_alike (read : Readings) (s : Slot) : s.Alike (s.eval read).2.1 := by
  rw [eval]
  split
  · exact .refl s
  · exact .refl s
  · exact ⟨rfl, rfl⟩

theorem eval_value (read : Readings) (s : Slot) :
    (s.eval read).1 = (s.compiled.expression.eval read s.format).toOption := by
  rw [eval]
  split <;> simp [Except.toOption, *]

theorem Alike.eval {s s' : Slot} (h : s.Alike s') (read : Readings) :
    (s'.eval read).1 = (s.eval read).1 := by
  rw [eval_value, eval_value, h.compiled, h.format]

theorem isActive_alike (read : Readings) (s : Slot) : s.Alike (s.isActive read).2.1 := by
  rw [isActive]
  split
  · exact .refl s
  · exact s.eval_alike read

theorem display_alike (read : Readings) (s : Slot) : s.Alike (s.display read).2.1 := by
  rw [display]
  split
  · exact .refl s
  · exact s.eval_alike read

theorem Alike.isActive {s s' : Slot} (h : s.Alike s') (read : Readings) :
    (s'.isActive read).1 = (s.isActive read).1 := by
  unfold Slot.isActive
  rw [h.compiled]
  split
  · rfl
  · exact congrArg (·.elim false Value.isActive) (h.eval read)

theorem Alike.display {s s' : Slot} (h : s.Alike s') (read : Readings) :
    (s'.display read).1 = (s.display read).1 := by
  unfold Slot.display
  rw [h.compiled]
  split
  · rfl
  · exact congrArg (·.elim "" Value.display) (h.eval read)

theorem eval_congr {s : Slot} (h : s.compiled.Exact) {read read' : Readings}
    (agree : ∀ n ∈ s.compiled.used, read n = read' n) : s.eval read = s.eval read' := by
  have value := s.compiled.expression.eval_congr s.format fun n hn => agree n ((h n).2 hn)
  rw [eval, eval, value]

theorem isActive_congr {s : Slot} (h : s.compiled.Exact) {read read' : Readings}
    (agree : ∀ n ∈ s.compiled.used, read n = read' n) : s.isActive read = s.isActive read' := by
  rw [isActive, isActive, eval_congr h agree]

theorem display_congr {s : Slot} (h : s.compiled.Exact) {read read' : Readings}
    (agree : ∀ n ∈ s.compiled.used, read n = read' n) : s.display read = s.display read' := by
  rw [display, display, eval_congr h agree]

end Slot

end ControlDeck
