import ControlDeck.Proofs.Grammar

namespace ControlDeck.Formula

/-- The tokens of a list without their positions. -/
abbrev bare (tokens : List Located) : List Token :=
  tokens.map (·.token)

variable {labels : Option Labels} {room level : Nat}

theorem commas_head (first : List Token) (others : List (List Token)) :
    ∃ more, [Token.comma].intercalate (first :: others) = first ++ more := by
  cases others with
  | nil => exact ⟨[], by rw [List.intercalate_singleton, List.append_nil]⟩
  | cons second others => exact ⟨_, by rw [List.intercalate_cons_cons, List.append_assoc]⟩

/-- Whatever is read is derived from the tokens that are taken away. -/
def Reader.Sound (next : Reader) (written : List Token → Formula → Prop) : Prop :=
  ∀ ⦃tokens rest : List Located⦄ ⦃f : Formula⦄, next tokens = .ok (f, rest) →
    ∃ taken, tokens = taken ++ rest ∧ written (bare taken) f

theorem chainFrom_sound {next : Reader} (h : next.Sound (Derives labels room level)) {bound : Nat}
    {before : List Token} {left f : Formula} {tokens rest : List Located}
    (hl : Derives labels room (level + 1) before left)
    (hr : chainFrom level next bound left tokens = .ok (f, rest)) :
    ∃ taken, tokens = taken ++ rest ∧ Derives labels room (level + 1) (before ++ bare taken) f := by
  induction bound, left, tokens using chainFrom.induct level generalizing before with
  | case1 bound left b position after same ih =>
    rw [chainFrom, if_pos same] at hr
    obtain ⟨⟨right, after'⟩, hn, hc⟩ := bind_eq_ok.1 hr
    obtain ⟨taken, rfl, hd⟩ := h hn
    obtain ⟨taken', rfl, hd'⟩ := ih right after' (.binary (mem_operators.2 same) hl hd) hc
    refine ⟨⟨.op b, position⟩ :: (taken ++ taken'), by simp, ?_⟩
    simpa [bare] using hd'
  | case2 bound left b position after other =>
    rw [chainFrom, if_neg other] at hr
    obtain ⟨rfl, rfl⟩ := Prod.mk.inj (Except.ok.inj hr)
    exact ⟨[], rfl, by simpa [bare] using hl⟩
  | case3 bound left tokens other =>
    rw [chainFrom] at hr
    · obtain ⟨rfl, rfl⟩ := Prod.mk.inj (Except.ok.inj hr)
      exact ⟨[], rfl, by simpa [bare] using hl⟩
    · exact other

theorem Reader.Sound.climb {operand : Reader} (h : operand.Sound (Derives labels room 0))
    (level : Nat) : (climb operand level).Sound (Derives labels room level) := by
  induction level with
  | zero => exact h
  | succ level ih =>
    intro tokens rest f hr
    obtain ⟨⟨left, after⟩, hn, hc⟩ := bind_eq_ok.1 hr
    obtain ⟨taken, rfl, hd⟩ := ih hn
    obtain ⟨taken', rfl, hd'⟩ := chainFrom_sound ih (.tighter hd) hc
    exact ⟨taken ++ taken', by simp, by simpa [bare] using hd'⟩

theorem expect_sound {token : Token} {tokens rest : List Located}
    (h : expect token tokens = .ok rest) : ∃ t, tokens = t :: rest ∧ t.token = token := by
  cases tokens with
  | nil => cases h
  | cons t tokens =>
    rw [expect] at h
    split at h
    · rename_i same
      obtain rfl := Except.ok.inj h
      exact ⟨t, rfl, same⟩
    · cases h

theorem arguments_sound {next : Reader} {written : List Token → Formula → Prop}
    (h : next.Sound written) {bound : Nat} {tokens rest : List Located} {args : List Formula}
    (hb : tokens.length < bound)
    (hr : Formula.arguments next bound tokens = .ok (args, rest)) :
    ∃ (taken : List Located) (parts : List (List Token × Formula)), tokens = taken ++ rest ∧
      args = parts.map (·.2) ∧ (∀ part ∈ parts, written part.1 part.2) ∧ parts ≠ [] ∧
      bare taken = [Token.comma].intercalate (parts.map (·.1)) ++ [.close] := by
  induction bound generalizing tokens args with
  | zero => omega
  | succ bound ih =>
    rw [Formula.arguments] at hr
    obtain ⟨⟨first, after⟩, hn, hc⟩ := bind_eq_ok.1 hr
    obtain ⟨taken, rfl, hw⟩ := h hn
    dsimp only at hc
    split at hc
    · cases hc
    · rename_i position after'
      obtain ⟨⟨others, after''⟩, ho, hc⟩ := bind_eq_ok.1 hc
      obtain ⟨rfl, rfl⟩ := Prod.mk.inj (Except.ok.inj hc)
      simp only [List.length_append, List.length_cons] at hb
      obtain ⟨taken', parts, rfl, rfl, hp, hne, he⟩ := ih (by omega) ho
      refine ⟨taken ++ ⟨.comma, position⟩ :: taken', (bare taken, first) :: parts, by simp, rfl,
        List.forall_mem_cons.2 ⟨hw, hp⟩, List.cons_ne_nil _ _, ?_⟩
      obtain ⟨part, parts, rfl⟩ := List.exists_cons_of_ne_nil hne
      simp only [bare, List.map_append, List.map_cons] at he ⊢
      rw [he, List.intercalate_cons_cons]
      simp
    · rename_i position after'
      obtain ⟨rfl, rfl⟩ := Prod.mk.inj (Except.ok.inj hc)
      exact ⟨taken ++ [⟨.close, position⟩], [(bare taken, first)], by simp, rfl, by simpa using hw,
        List.cons_ne_nil _ _, by simp [bare]⟩
    · cases hc

/-- What is nested in an operand; it is nothing where there is no room for it. -/
def Nested (labels : Option Labels) : Nat → Nat → List Token → Formula → Prop
  | 0, _ => fun _ _ => False
  | room + 1, level => Derives labels room level

theorem callOf_eq_ok {next : Reader} {name : String} {tokens rest : List Located} {f : Formula}
    (h : callOf next name tokens = .ok (f, rest)) :
    ∃ function args, Function.ofName? name = some function ∧ function.call? args = some f ∧
      (args = [] ∨ Formula.arguments next tokens.length.succ tokens = .ok (args, rest)) := by
  rw [callOf] at h
  split at h
  · cases h
  rename_i function known
  dsimp only at h
  split at h
  all_goals
    obtain ⟨⟨args, after⟩, ha, hc⟩ := bind_eq_ok.1 h
    dsimp only at hc
    split at hc
    case h_2 => cases hc
    rename_i call called
    obtain ⟨rfl, rfl⟩ := Prod.mk.inj (Except.ok.inj hc)
  · obtain ⟨rfl, rfl⟩ := Prod.mk.inj (Except.ok.inj ha)
    exact ⟨function, [], known, called, .inl rfl⟩
  · exact ⟨function, args, known, called, .inr ha⟩

theorem callOf_sound {next : Reader} (h : next.Sound (Nested labels room 6)) {name : String}
    {tokens rest : List Located} {f : Formula} (hr : callOf next name tokens = .ok (f, rest)) :
    ∃ taken, tokens = taken ++ rest ∧
      Derives labels room 0 (.word name :: .open :: bare taken) f := by
  obtain ⟨function, args, known, called, ha⟩ := callOf_eq_ok hr
  rw [Function.ofName?_eq_some] at known
  obtain ⟨least, most⟩ := Function.call?_arity called
  rcases ha with rfl | ha
  · cases function <;> cases least
  · obtain ⟨taken, parts, rfl, rfl, hp, hne, he⟩ := arguments_sound h (Nat.lt_succ_self _) ha
    rw [List.length_map] at least most
    refine ⟨taken, rfl, ?_⟩
    rw [he]
    cases room with
    | zero =>
      obtain ⟨part, parts, rfl⟩ := List.exists_cons_of_ne_nil hne
      exact (hp part List.mem_cons_self).elim
    | succ room => exact .call known hp least most called

theorem labelled_sound {word : String} {f : Formula} (h : labelled labels word = .ok f) :
    Derives labels room 0 [.word word] f := by
  rw [labelled] at h
  split at h
  · rename_i text found
    obtain rfl := Except.ok.inj h
    obtain ⟨dictionary, known, hr⟩ := Option.bind_eq_some_iff.1 found
    exact .label known (Labels.gives_of_resolve? hr)
  · cases h

theorem operandWith_sound {nestedOperand nestedExpression : Reader}
    (ho : nestedOperand.Sound (Nested labels room 0))
    (he : nestedExpression.Sound (Nested labels room 6)) :
    (operandWith labels nestedOperand nestedExpression).Sound (Derives labels room 0) := by
  intro tokens rest f hr
  have unary {t : Located} {op : UnaryOp} {after : List Located} (ht : t.token.unary? = some op)
      (hr : (nestedOperand after).map (fun read => (.unary op read.1, read.2)) = .ok (f, rest)) :
      ∃ taken, t :: after = taken ++ rest ∧ Derives labels room 0 (bare taken) f := by
    obtain ⟨⟨a, after'⟩, ha, hf⟩ := map_eq_ok.1 hr
    obtain ⟨rfl, rfl⟩ := Prod.mk.inj hf
    obtain ⟨taken, rfl, hd⟩ := ho ha
    refine ⟨t :: taken, rfl, ?_⟩
    cases room with
    | zero => exact hd.elim
    | succ room => exact .unary ht hd
  cases tokens with
  | nil => cases hr
  | cons t tokens =>
    obtain ⟨token, position⟩ := t
    cases token with
    | integer | decimal | text | true | false | null =>
      obtain ⟨rfl, rfl⟩ := Prod.mk.inj (Except.ok.inj hr)
      exact ⟨[_], rfl, .literal rfl⟩
    | property name =>
      obtain ⟨rfl, rfl⟩ := Prod.mk.inj (Except.ok.inj hr)
      exact ⟨[_], rfl, .property name⟩
    | not => exact unary rfl hr
    | op b =>
      cases b with
      | sub => exact unary rfl hr
      | _ => cases hr
    | «open» =>
      obtain ⟨⟨inner, after⟩, hi, hc⟩ := bind_eq_ok.1 hr
      obtain ⟨after', hx, hc⟩ := bind_eq_ok.1 hc
      obtain ⟨rfl, rfl⟩ := Prod.mk.inj (Except.ok.inj hc)
      obtain ⟨taken, rfl, hd⟩ := he hi
      obtain ⟨t, rfl, ht⟩ := expect_sound hx
      refine ⟨⟨.open, position⟩ :: (taken ++ [t]), by simp, ?_⟩
      simp only [bare, List.map_cons, List.map_append, List.map_nil, ht]
      cases room with
      | zero => exact hd.elim
      | succ room => exact .group hd
    | word name =>
      unfold operandWith at hr
      dsimp only at hr
      split at hr
      · rename_i position' after
        obtain ⟨taken, rfl, hd⟩ := callOf_sound he hr
        exact ⟨⟨.word name, position⟩ :: ⟨.open, position'⟩ :: taken, rfl, hd⟩
      · obtain ⟨a, ha, hf⟩ := map_eq_ok.1 hr
        obtain ⟨rfl, rfl⟩ := Prod.mk.inj hf
        exact ⟨[_], rfl, labelled_sound ha⟩
    | close | comma => cases hr

theorem operand_sound (labels : Option Labels) (room : Nat) :
    (operand labels room).Sound (Derives labels room 0) := by
  induction room with
  | zero =>
    have failing (e : ExpressionError) (level : Nat) :
        Reader.Sound (fun _ => .error e) (Nested labels 0 level) := fun _ _ _ h => by
      cases h
    exact operandWith_sound (failing _ 0) (failing _ 6)
  | succ room ih => exact operandWith_sound ih (ih.climb 6)

theorem bare_eq_cons {located : List Located} {token : Token} {tokens : List Token} :
    bare located = token :: tokens ↔
      ∃ position after, located = ⟨token, position⟩ :: after ∧ bare after = tokens := by
  rw [bare, List.map_eq_cons_iff]
  constructor
  · rintro ⟨⟨token, position⟩, after, rfl, rfl, h⟩
    exact ⟨position, after, rfl, h⟩
  · rintro ⟨position, after, rfl, h⟩
    exact ⟨⟨token, position⟩, after, rfl, rfl, h⟩

theorem bare_eq_singleton {located : List Located} {token : Token} :
    bare located = [token] ↔ ∃ position, located = [⟨token, position⟩] := by
  rw [bare_eq_cons]
  simp

theorem bare_eq_append {located : List Located} {tokens tokens' : List Token} :
    bare located = tokens ++ tokens' ↔
      ∃ before after, located = before ++ after ∧ bare before = tokens ∧ bare after = tokens' :=
  List.map_eq_append_iff

/-- The tokens cannot go on with a formula of the first `level` levels that ends before them. -/
def Ends (level : Nat) : List Located → Prop
  | [] => True
  | t :: _ => t.token ≠ .open ∧ ∀ b, t.token = .op b → level ≤ b.level

theorem Ends.mono {level level' : Nat} {rest : List Located} (h : Ends level rest)
    (le : level' ≤ level) : Ends level' rest := by
  cases rest with
  | nil => trivial
  | cons t rest => exact ⟨h.1, fun b hb => Nat.le_trans le (h.2 b hb)⟩

theorem ends_op {b : BinaryOp} {t : Located} (h : t.token = .op b) (rest : List Located) :
    Ends b.level (t :: rest) := by
  refine ⟨by simp [h], fun b' hb => ?_⟩
  rw [h] at hb
  cases hb
  exact Nat.le_refl _

theorem ends_of_token {t : Located} (h : t.token = .comma ∨ t.token = .close) (level : Nat)
    (rest : List Located) : Ends level (t :: rest) := by
  rcases h with h | h <;> exact ⟨by simp [h], by simp [h]⟩

/-- The tokens are read as the formula, whatever stands after them. -/
def Reader.Reads (next : Reader) (level : Nat) (tokens : List Token) (f : Formula) : Prop :=
  ∀ ⦃located rest : List Located⦄, bare located = tokens → Ends level rest →
    next (located ++ rest) = .ok (f, rest)

/-- A formula of level `level + 1` is read as the left operand of what may go on at that level. -/
def Reader.Opens (operand : Reader) : Nat → List Token → Formula → Prop
  | 0, tokens, f => operand.Reads 0 tokens f
  | level + 1, tokens, f =>
    ∀ ⦃located rest : List Located⦄, bare located = tokens → Ends level rest →
      ∃ bound, rest.length ≤ bound ∧ climb operand (level + 1) (located ++ rest) =
        chainFrom level (climb operand level) bound f rest

theorem chainFrom_ends {next : Reader} {bound : Nat} {f : Formula} {rest : List Located}
    (h : Ends (level + 1) rest) : chainFrom level next bound f rest = .ok (f, rest) := by
  unfold chainFrom
  split
  · rename_i b position rest
    have := h.2 b rfl
    rw [if_neg (by omega)]
  · rfl

theorem Reader.Opens.reads {operand : Reader} {tokens : List Token} {f : Formula}
    (h : operand.Opens level tokens f) : (climb operand level).Reads level tokens f := by
  cases level with
  | zero => exact h
  | succ level =>
    intro located rest hl he
    obtain ⟨bound, -, hr⟩ := h hl (he.mono (Nat.le_succ level))
    rw [hr, chainFrom_ends he]

theorem Reader.Reads.opens {operand : Reader} {tokens : List Token} {f : Formula}
    (h : (climb operand level).Reads level tokens f) : operand.Opens (level + 1) tokens f := by
  intro located rest hl he
  refine ⟨rest.length, Nat.le_refl _, ?_⟩
  rw [climb, chain, h hl he]
  rfl

theorem Reader.Opens.binary {operand : Reader} {before after : List Token} {b : BinaryOp}
    {left right : Formula} (hb : b.level = level) (hl : operand.Opens (level + 1) before left)
    (hr : (climb operand level).Reads level after right) :
    operand.Opens (level + 1) (before ++ .op b :: after) (.binary b left right) := by
  intro located rest he ends
  obtain ⟨first, others, rfl, hfirst, ho⟩ := bare_eq_append.1 he
  obtain ⟨position, second, rfl, hsecond⟩ := bare_eq_cons.1 ho
  obtain ⟨bound, hbound, hread⟩ :=
    @hl first (⟨.op b, position⟩ :: (second ++ rest)) hfirst (hb ▸ ends_op rfl _)
  cases bound with
  | zero => simp at hbound
  | succ bound =>
    refine ⟨bound, by simp at hbound; omega, ?_⟩
    rw [List.append_assoc, List.cons_append, hread, chainFrom, if_pos hb, hr hsecond ends]
    rfl

theorem arguments_reads {next : Reader} {args : List (List Token × Formula)}
    (h : ∀ arg ∈ args, next.Reads 6 arg.1 arg.2) (hne : args ≠ []) {bound : Nat}
    {located rest : List Located}
    (hl : bare located = [Token.comma].intercalate (args.map (·.1)) ++ [.close])
    (hb : located.length < bound) :
    Formula.arguments next bound (located ++ rest) = .ok (args.map (·.2), rest) := by
  induction args generalizing located bound with
  | nil => exact (hne rfl).elim
  | cons arg args ih =>
    obtain ⟨harg, hargs⟩ := List.forall_mem_cons.1 h
    obtain ⟨bound, rfl⟩ := Nat.exists_eq_add_one_of_ne_zero (by omega : bound ≠ 0)
    cases args with
    | nil =>
      rw [List.map_cons, List.map_nil, List.intercalate_singleton] at hl
      obtain ⟨first, others, rfl, hfirst, ho⟩ := bare_eq_append.1 hl
      obtain ⟨position, rfl⟩ := bare_eq_singleton.1 ho
      rw [List.append_assoc]
      exact bind_eq_ok.2 ⟨_, harg hfirst (ends_of_token (.inr rfl) 6 _), rfl⟩
    | cons arg' args =>
      rw [List.map_cons, List.map_cons, List.intercalate_cons_cons, List.append_assoc,
        List.append_assoc] at hl
      obtain ⟨first, others, rfl, hfirst, ho⟩ := bare_eq_append.1 hl
      obtain ⟨position, second, rfl, hsecond⟩ := bare_eq_cons.1 ho
      simp only [List.length_append, List.length_cons] at hb
      rw [List.append_assoc]
      exact bind_eq_ok.2 ⟨_, harg hfirst (ends_of_token (.inl rfl) 6 _),
        bind_eq_ok.2 ⟨_, ih hargs (List.cons_ne_nil _ _) hsecond (by omega), rfl⟩⟩

theorem callOf_reads {next : Reader} {name : String} {function : Function}
    {args : List (List Token × Formula)} {f : Formula}
    (known : Function.ofName? name = some function)
    (h : ∀ arg ∈ args, next.Reads 6 arg.1 arg.2) (hne : args ≠ [])
    (called : function.call? (args.map (·.2)) = some f) {located rest : List Located}
    (hl : bare located = [Token.comma].intercalate (args.map (·.1)) ++ [.close])
    {token : Token} {tokens : List Token} (head : bare located = token :: tokens)
    (hc : token ≠ .close) :
    callOf next name (located ++ rest) = .ok (f, rest) := by
  have bound : located.length < (located ++ rest).length.succ := by
    rw [List.length_append]
    omega
  have read : Formula.arguments next (located ++ rest).length.succ (located ++ rest) =
      .ok (args.map (·.2), rest) := arguments_reads h hne hl bound
  rw [callOf, known]
  dsimp only
  split
  · rename_i position after he
    obtain ⟨position', after', rfl, -⟩ := bare_eq_cons.1 head
    cases he
    exact (hc rfl).elim
  · refine bind_eq_ok.2 ⟨_, read, ?_⟩
    dsimp only
    rw [called]

theorem operand_eq (labels : Option Labels) (room : Nat) :
    ∃ nestedOperand nestedExpression,
      operand labels room = operandWith labels nestedOperand nestedExpression := by
  cases room <;> exact ⟨_, _, rfl⟩

theorem literal_reads {nestedOperand nestedExpression : Reader} {token : Token} {value : Value}
    (h : token.value? = some value) (position : Nat) (rest : List Located) :
    operandWith labels nestedOperand nestedExpression (⟨token, position⟩ :: rest) =
      .ok (.literal value, rest) := by
  cases token <;> cases h <;> rfl

theorem unary_reads {nestedOperand nestedExpression : Reader} {token : Token} {op : UnaryOp}
    (h : token.unary? = some op) {tokens rest : List Located} {f : Formula}
    (read : nestedOperand tokens = .ok (f, rest)) (position : Nat) :
    operandWith labels nestedOperand nestedExpression (⟨token, position⟩ :: tokens) =
      .ok (.unary op f, rest) := by
  cases token with
  | not =>
    cases h
    exact map_eq_ok.2 ⟨_, read, rfl⟩
  | op b =>
    cases b with
    | sub =>
      cases h
      exact map_eq_ok.2 ⟨_, read, rfl⟩
    | _ => cases h
  | _ => cases h

theorem label_reads {nestedOperand nestedExpression : Reader} {word text : String}
    {dictionary : Labels} (known : labels = some dictionary)
    (found : dictionary.resolve? word = some text) (position : Nat) {rest : List Located}
    (ends : Ends 0 rest) :
    operandWith labels nestedOperand nestedExpression (⟨.word word, position⟩ :: rest) =
      .ok (.literal (.text text), rest) := by
  unfold operandWith
  dsimp only
  split
  · exact (ends.1 rfl).elim
  · rw [labelled, known, Option.bind_some, found]
    rfl

/-- The parser accepts what the grammar derives. -/
theorem Derives.opens (distinct : ∀ dictionary ∈ labels, dictionary.Distinct)
    {tokens : List Token} {f : Formula} (h : Derives labels room level tokens f) :
    (operand labels room).Opens level tokens f := by
  induction h with
  | @literal room token value h =>
    intro located rest hl ends
    obtain ⟨position, rfl⟩ := bare_eq_singleton.1 hl
    obtain ⟨nestedOperand, nestedExpression, he⟩ := operand_eq labels room
    rw [he]
    exact literal_reads h position rest
  | @property room name =>
    intro located rest hl ends
    obtain ⟨position, rfl⟩ := bare_eq_singleton.1 hl
    obtain ⟨nestedOperand, nestedExpression, he⟩ := operand_eq labels room
    rw [he]
    rfl
  | @label room word text dictionary known gives =>
    intro located rest hl ends
    obtain ⟨position, rfl⟩ := bare_eq_singleton.1 hl
    obtain ⟨nestedOperand, nestedExpression, he⟩ := operand_eq labels room
    rw [he]
    exact label_reads known (gives.resolve? (distinct _ known)) position ends
  | group inner ih =>
    intro located rest hl ends
    obtain ⟨position, after, rfl, ha⟩ := bare_eq_cons.1 hl
    obtain ⟨first, others, rfl, hfirst, ho⟩ := bare_eq_append.1 ha
    obtain ⟨position', rfl⟩ := bare_eq_singleton.1 ho
    rw [List.cons_append, List.append_assoc]
    exact bind_eq_ok.2 ⟨_, ih.reads hfirst (ends_of_token (.inr rfl) 6 _), rfl⟩
  | unary h operand ih =>
    intro located rest hl ends
    obtain ⟨position, after, rfl, ha⟩ := bare_eq_cons.1 hl
    exact unary_reads h (ih ha ends) position
  | call known operands least most called ih =>
    rename_i room name function args f
    intro located rest hl ends
    obtain ⟨position, others, rfl, ho⟩ := bare_eq_cons.1 hl
    obtain ⟨position', after, rfl, ha⟩ := bare_eq_cons.1 ho
    have hne : args ≠ [] := by
      rintro rfl
      cases function <;> cases least
    obtain ⟨arg, more, rfl⟩ := List.exists_cons_of_ne_nil hne
    obtain ⟨token, tokens, ht, hc⟩ := (operands arg List.mem_cons_self).head
    obtain ⟨others, hm⟩ := commas_head arg.1 (more.map (·.1))
    have head : bare after = token :: (tokens ++ others ++ [.close]) := by
      rw [ha, List.map_cons, hm, ht, List.cons_append, List.cons_append]
    exact callOf_reads (Function.ofName?_eq_some.2 known) (fun arg harg => (ih arg harg).reads)
      hne called ha head hc
  | tighter h ih => exact ih.reads.opens
  | binary h hl hr ihl ihr => exact ihl.binary (mem_operators.1 h) ihr.reads

theorem ofTokens_eq_ok {tokens : List Located} {f : Formula} :
    ofTokens labels tokens = .ok f ↔ tokens.length ≤ maxTokens ∧
      expression (operand labels maxNesting) tokens = .ok (f, []) := by
  rw [ofTokens]
  split
  · rename_i long
    constructor
    · intro h
      cases h
    · intro h
      exact absurd h.1 (Nat.not_le_of_lt long)
  · rename_i short
    rw [bind_eq_ok]
    constructor
    · rintro ⟨⟨formula, rest⟩, hr, he⟩
      cases rest with
      | nil =>
        obtain rfl := Except.ok.inj he
        exact ⟨Nat.le_of_not_lt short, hr⟩
      | cons => cases he
    · rintro ⟨-, hr⟩
      exact ⟨_, hr, rfl⟩

theorem Derives.expression_eq_ok (distinct : ∀ dictionary ∈ labels, dictionary.Distinct)
    {tokens : List Located} {f : Formula} (h : Derives labels room 6 (bare tokens) f) :
    expression (operand labels room) tokens = .ok (f, []) := by
  have read : climb (operand labels room) 6 (tokens ++ []) = .ok (f, []) :=
    (h.opens distinct).reads rfl trivial
  rwa [List.append_nil] at read

/-- A list of tokens is written for one formula at most. -/
theorem Derives.unique (distinct : ∀ dictionary ∈ labels, dictionary.Distinct) {room' : Nat}
    {tokens : List Located} {f f' : Formula} (h : Derives labels room 6 (bare tokens) f)
    (h' : Derives labels room' 6 (bare tokens) f') : f = f' := by
  have read := (h.mono (Nat.le_max_left room room')).expression_eq_ok distinct
  have read' := (h'.mono (Nat.le_max_right room room')).expression_eq_ok distinct
  exact (Prod.mk.inj (Except.ok.inj (read.symm.trans read'))).1

/-- The parser accepts just the lists of at most 1024 tokens that the grammar derives with at most
64 parentheses, call arguments and unary operators around any point, and it makes of them the
formula that they are written for, which is the only one. -/
theorem ofTokens_eq_ok_iff (distinct : ∀ dictionary ∈ labels, dictionary.Distinct)
    (tokens : List Located) :
    (∀ f, ofTokens labels tokens = .ok f ↔
      tokens.length ≤ 1024 ∧ Derives labels 64 6 (bare tokens) f) ∧
      ∀ room room' f f', Derives labels room 6 (bare tokens) f →
        Derives labels room' 6 (bare tokens) f' → f = f' := by
  refine ⟨fun f => ?_, fun room room' f f' h h' => h.unique distinct h'⟩
  rw [ofTokens_eq_ok]
  refine and_congr_right fun _ => ⟨fun h => ?_, fun h => h.expression_eq_ok distinct⟩
  obtain ⟨taken, rfl, hd⟩ := (operand_sound labels maxNesting).climb 6 h
  rwa [List.append_nil]

/-- The tokens of `-round([x], 1) - (2 < Unit) - 3`. -/
def roundedDifference : List Located :=
  [⟨.op .sub, 0⟩, ⟨.word "round", 1⟩, ⟨.open, 6⟩, ⟨.property "x", 7⟩, ⟨.comma, 10⟩,
    ⟨.integer 1, 12⟩, ⟨.close, 13⟩, ⟨.op .sub, 15⟩, ⟨.open, 17⟩, ⟨.integer 2, 18⟩, ⟨.op .lt, 20⟩,
    ⟨.word "Unit", 22⟩, ⟨.close, 26⟩, ⟨.op .sub, 28⟩, ⟨.integer 3, 30⟩]

def roundedDifferenceFormula : Formula :=
  .binary .sub
    (.binary .sub
      (.unary .negate (.call₂ .roundTo (.property "x") (.literal (.integer 1))))
      (.binary .lt (.literal (.integer 2)) (.literal (.text "km/h"))))
    (.literal (.integer 3))

theorem ofTokens_eq_ok_iff_roundedDifference :
    (∀ dictionary ∈ some [("unit", "km/h")], Labels.Distinct dictionary) ∧
      Derives (some [("unit", "km/h")]) 64 6 (bare roundedDifference) roundedDifferenceFormula ∧
      ∀ room f, Derives (some [("unit", "km/h")]) room 6 (bare roundedDifference) f →
        f = roundedDifferenceFormula := by
  have distinct : ∀ dictionary ∈ some [("unit", "km/h")], Labels.Distinct dictionary := by
    rintro dictionary ⟨⟩
    exact List.nodup_singleton _
  obtain ⟨accepts, unique⟩ := ofTokens_eq_ok_iff distinct roundedDifference
  have derives := ((accepts roundedDifferenceFormula).1 (by decide +kernel)).2
  exact ⟨distinct, derives, fun room f h => unique room 64 f _ h derives⟩

end ControlDeck.Formula
