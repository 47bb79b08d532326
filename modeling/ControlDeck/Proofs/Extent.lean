import ControlDeck.Proofs.Parsing

namespace ControlDeck.Formula

/-- The formulas that a formula applies something to. -/
def operands : Formula → List Formula
  | literal _ | property _ => []
  | unary _ a | call₁ _ a => [a]
  | binary _ a b | call₂ _ a b => [a, b]
  | choose c a b => [c, a, b]

/-- Whether operands are nested in the formula, as they are in a unary operator and in a call. -/
def nests : Formula → Bool
  | literal _ | property _ | binary _ _ _ => false
  | unary _ _ | call₁ _ _ | call₂ _ _ _ | choose _ _ _ => true

/-- A way down from a formula to one of its parts. The list has an entry for each step, which says
whether the step leads to a nested operand. -/
inductive Path : Formula → List Bool → Formula → Prop where
  | here (f : Formula) : Path f [] f
  | down {f g h : Formula} {steps : List Bool} (operand : g ∈ f.operands) (rest : Path g steps h) :
    Path f (f.nests :: steps) h

/-- The greatest number of nested operands on a way down. -/
def nesting : Formula → Nat
  | literal _ | property _ => 0
  | unary _ a | call₁ _ a => a.nesting + 1
  | binary _ a b => max a.nesting b.nesting
  | call₂ _ a b => max a.nesting b.nesting + 1
  | choose c a b => max c.nesting (max a.nesting b.nesting) + 1

variable {f g : Formula} {n : Nat}

theorem nesting_le_of_operand (h : g ∈ f.operands) :
    g.nesting + f.nests.toNat ≤ f.nesting := by
  cases f with
  | literal | property => cases h
  | unary | call₁ =>
    obtain rfl := List.mem_singleton.1 h
    exact Nat.le_refl _
  | binary | call₂ | choose =>
    simp only [operands, List.mem_cons, List.not_mem_nil, or_false] at h
    simp only [nests, nesting, Bool.toNat_true, Bool.toNat_false]
    rcases h with rfl | rfl | rfl <;> omega

theorem nesting_le_of_operands (h : ∀ g ∈ f.operands, g.nesting ≤ n) :
    f.nesting ≤ n + f.nests.toNat := by
  cases f with
  | literal | property => exact Nat.zero_le _
  | unary | call₁ => exact Nat.succ_le_succ (h _ List.mem_cons_self)
  | binary | call₂ | choose =>
    simp only [operands, List.forall_mem_cons, List.not_mem_nil, false_implies, implies_true,
      and_true] at h
    simp only [nests, nesting, Bool.toNat_true, Bool.toNat_false]
    omega

theorem count_true_cons (b : Bool) (steps : List Bool) :
    (b :: steps).count true = steps.count true + b.toNat := by
  cases b <;> simp

/-- No way down leads to more nested operands. -/
theorem Path.count_le {steps : List Bool} (h : Path f steps g) : steps.count true ≤ f.nesting := by
  induction h with
  | here f => exact Nat.zero_le _
  | @down f g h steps operand rest ih =>
    calc (f.nests :: steps).count true
      _ = steps.count true + f.nests.toNat := count_true_cons _ _
      _ ≤ g.nesting + f.nests.toNat := Nat.add_le_add_right ih _
      _ ≤ f.nesting := nesting_le_of_operand operand

theorem parts_eq (f : Formula) : f.parts = f :: f.operands.flatMap parts := by
  cases f <;> simp [parts, operands]

theorem Function.call?_operands {function : Function} {args : List Formula}
    (h : function.call? args = some f) : f.operands = args ∧ f.nests = true := by
  unfold Function.call? at h
  split at h
  case h_14 => exact nomatch h
  all_goals
    obtain rfl := Option.some.inj h
    exact ⟨rfl, rfl⟩

theorem flatMap_parts_length_le {args : List (List Token × Formula)}
    (h : ∀ arg ∈ args, arg.2.parts.length ≤ arg.1.length) :
    ((args.map (·.2)).flatMap parts).length ≤
      ([Token.comma].intercalate (args.map (·.1))).length := by
  induction args with
  | nil => exact Nat.zero_le _
  | cons arg args ih =>
    obtain ⟨harg, hargs⟩ := List.forall_mem_cons.1 h
    have hmore := ih hargs
    cases args with
    | nil => simpa using harg
    | cons arg' args =>
      simp only [List.map_cons, List.flatMap_cons, List.intercalate_cons_cons,
        List.length_append, List.length_singleton] at hmore ⊢
      omega

section

variable {labels : Option Labels} {room level : Nat} {tokens : List Token}

/-- A formula has no more parts than tokens. -/
theorem Derives.parts_length_le (h : Derives labels room level tokens f) :
    f.parts.length ≤ tokens.length := by
  induction h with
  | literal | property | label => exact Nat.le_refl _
  | group inner ih =>
    simp only [List.length_cons, List.length_append]
    omega
  | unary h operand ih => exact Nat.succ_le_succ ih
  | call known operands least most called ih =>
    have arguments := flatMap_parts_length_le ih
    obtain ⟨hargs, -⟩ := Function.call?_operands called
    rw [parts_eq, hargs]
    simp only [List.length_cons, List.length_append]
    omega
  | tighter h ih => exact ih
  | binary h hl hr ihl ihr =>
    simp only [parts, List.length_cons, List.length_append]
    omega

theorem Derives.nesting_le (h : Derives labels room level tokens f) : f.nesting ≤ room := by
  induction h with
  | literal | property | label => exact Nat.zero_le _
  | group inner ih => exact Nat.le_succ_of_le ih
  | unary h operand ih => exact Nat.succ_le_succ ih
  | call known operands least most called ih =>
    obtain ⟨hargs, hnests⟩ := Function.call?_operands called
    have bounded := nesting_le_of_operands (hargs ▸ List.forall_mem_map.2 ih)
    rwa [hnests] at bounded
  | tighter h ih => exact ih
  | binary h hl hr ihl ihr => exact Nat.max_le.2 ⟨ihl, ihr⟩

/-- A text that is read has few enough tokens, and they are written for what is read. -/
theorem derives_of_parse {source : String} {used : List String}
    (h : parse labels source = .ok (f, used)) :
    ∃ tokens, tokenize source = .ok tokens ∧ tokens.length ≤ maxTokens ∧
      Derives labels maxNesting 6 (bare tokens) f := by
  obtain ⟨tokens, ht, h⟩ := bind_eq_ok.1 h
  obtain ⟨formula, hf, h⟩ := bind_eq_ok.1 h
  obtain ⟨rfl, rfl⟩ := Prod.mk.inj (Except.ok.inj h)
  obtain ⟨short, read⟩ := ofTokens_eq_ok.1 hf
  obtain ⟨taken, rfl, derived⟩ := (operand_sound labels maxNesting).climb 6 read
  rw [List.append_nil] at ht short
  exact ⟨taken, ht, short, derived⟩

end

/-- The outcome of an evaluation that may recur so many levels deep; none if it would have to go
deeper. -/
def evalWithin (read : Readings) (format : Formatter) :
    Nat → Formula → ExceptT EvalError Option Value
  | 0, _ => .mk none
  | _ + 1, .literal v => return v
  | _ + 1, .property name => return Value.ofReading (read name)
  | levels + 1, .unary op a => do applyUnary op (← evalWithin read format levels a)
  | levels + 1, .binary .and a b => do
    if ← truthFor (.binary .and) (← evalWithin read format levels a) then
      (truthFor (.binary .and) (← evalWithin read format levels b)).map .boolean
    else return .boolean false
  | levels + 1, .binary .or a b => do
    if ← truthFor (.binary .or) (← evalWithin read format levels a) then return .boolean true
    else (truthFor (.binary .or) (← evalWithin read format levels b)).map .boolean
  | levels + 1, .binary op a b => do
    let x ← evalWithin read format levels a
    let y ← evalWithin read format levels b
    applyBinary op x y
  | levels + 1, .call₁ f a => do apply₁ f (← evalWithin read format levels a)
  | levels + 1, .call₂ .ifNull a b => do
    match ← evalWithin read format levels a with
    | .null => evalWithin read format levels b
    | v => return v
  | levels + 1, .call₂ f a b => do
    let x ← evalWithin read format levels a
    let y ← evalWithin read format levels b
    apply₂ format f x y
  | levels + 1, .choose c a b => do
    if ← truthFor (.function .ifThenElse) (← evalWithin read format levels c) then
      evalWithin read format levels a
    else evalWithin read format levels b

section

variable {read : Readings} {format : Formatter} {levels : Nat} {a b c : Formula}

/-- An outcome that is found within the levels. -/
abbrev settled {α : Type} (x : Except EvalError α) : ExceptT EvalError Option α :=
  .mk (some x)

theorem settled_bind {α β : Type} {x : Except EvalError α} {next : α → Except EvalError β}
    {next' : α → ExceptT EvalError Option β} (h : ∀ a, next' a = settled (next a)) :
    settled x >>= next' = settled (x >>= next) := by
  cases x with
  | error e => rfl
  | ok a => exact h a

/-- The evaluation does not run out of levels. -/
def Fits (read : Readings) (format : Formatter) (levels : Nat) (f : Formula) : Prop :=
  f.evalWithin read format levels = settled (f.eval read format)

theorem Fits.unary (h : a.Fits read format levels) (op : UnaryOp) :
    (unary op a).Fits read format (levels + 1) := by
  rw [Fits, evalWithin, eval, h]
  exact settled_bind fun x => rfl

theorem Fits.binary (ha : a.Fits read format levels) (hb : b.Fits read format levels)
    (op : BinaryOp) : (binary op a b).Fits read format (levels + 1) := by
  rw [Fits] at ha hb ⊢
  cases op with
  | and =>
    rw [evalWithin, eval, ha, hb]
    refine settled_bind fun x => settled_bind fun t => ?_
    cases t with
    | true => exact settled_bind fun y => rfl
    | false => rfl
  | or =>
    rw [evalWithin, eval, ha, hb]
    refine settled_bind fun x => settled_bind fun t => ?_
    cases t with
    | true => rfl
    | false => exact settled_bind fun y => rfl
  | _ =>
    simp only [evalWithin, eval, ha, hb]
    exact settled_bind fun x => settled_bind fun y => rfl

theorem Fits.call₁ (h : a.Fits read format levels) (f : Function₁) :
    (call₁ f a).Fits read format (levels + 1) := by
  rw [Fits, evalWithin, eval, h]
  exact settled_bind fun x => rfl

theorem Fits.call₂ (ha : a.Fits read format levels) (hb : b.Fits read format levels)
    (f : Function₂) : (call₂ f a b).Fits read format (levels + 1) := by
  rw [Fits] at ha hb ⊢
  cases f with
  | ifNull =>
    rw [evalWithin, eval, ha, hb]
    refine settled_bind fun x => ?_
    cases x <;> rfl
  | _ =>
    simp only [evalWithin, eval, ha, hb]
    exact settled_bind fun x => settled_bind fun y => rfl

theorem Fits.choose (hc : c.Fits read format levels) (ha : a.Fits read format levels)
    (hb : b.Fits read format levels) : (choose c a b).Fits read format (levels + 1) := by
  rw [Fits, evalWithin, eval, hc, ha, hb]
  refine settled_bind fun x => settled_bind fun t => ?_
  cases t <;> rfl

/-- An evaluation needs no more levels than the formula has parts. -/
theorem fits_of_length_le (read : Readings) (format : Formatter) {levels : Nat}
    (h : f.parts.length ≤ levels) : f.Fits read format levels := by
  induction levels generalizing f with
  | zero => cases f <;> cases h
  | succ levels ih =>
    cases f with
    | literal | property => rfl
    | unary op a => exact (ih (Nat.le_of_succ_le_succ h)).unary op
    | call₁ g a => exact (ih (Nat.le_of_succ_le_succ h)).call₁ g
    | binary op a b =>
      simp only [parts, List.length_cons, List.length_append] at h
      exact (ih (by omega)).binary (ih (by omega)) op
    | call₂ g a b =>
      simp only [parts, List.length_cons, List.length_append] at h
      exact (ih (by omega)).call₂ (ih (by omega)) g
    | choose c a b =>
      simp only [parts, List.length_cons, List.length_append] at h
      exact (ih (by omega)).choose (ih (by omega)) (ih (by omega))

/-- The operand is one level deeper. -/
example (read : Readings) (format : Formatter) :
    (unary .negate (literal (.integer 1))).evalWithin read format 1 = .mk none :=
  rfl

end

end ControlDeck.Formula
