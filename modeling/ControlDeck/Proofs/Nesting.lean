import ControlDeck.Proofs.Extent

namespace ControlDeck.Formula

/-- The values of the counter before and after a reading. -/
structure Attempt where
  before : Nat
  after : Nat
deriving DecidableEq

/-- The counter of what is nested around a point of the text, with its history. The readers hand on
the room that is left instead, and find the same. -/
structure Counter where
  depth : Nat := 0
  /-- The values that it has had, the latest first. -/
  values : List Nat := [0]
  /-- The readings that are over, failed ones too, the latest first. -/
  attempts : List Attempt := []
deriving DecidableEq

def Counter.set (c : Counter) (depth : Nat) : Counter :=
  { c with depth, values := depth :: c.values }

/-- What is read while the counter is kept. An error leaves the counter as it is at that point. -/
abbrev Counted := ExceptT ExpressionError (StateM Counter)

namespace Counted

/-- What a run comes to from the given counter, and the counter after it. -/
def start {α : Type} (run : Counted α) (c : Counter) : Except ExpressionError α × Counter :=
  run.run.run c

abbrev Reader := List Located → Counted (Formula × List Located)

/-- Counts what is read, unless too much is around it. -/
def nested (next : Reader) : Reader := fun tokens c =>
  if maxNesting ≤ c.depth then (.error (.tooDeep maxNesting), c)
  else
    let (outcome, c) := (next tokens).start (c.set (c.depth + 1))
    (outcome, c.set (c.depth - 1))

/-- Notes the values of the counter before and after what is read. -/
def noted (next : Reader) : Reader := fun tokens c =>
  let (outcome, c') := (next tokens).start c
  (outcome, { c' with attempts := ⟨c.depth, c'.depth⟩ :: c'.attempts })

def chainFrom (level : Nat) (next : Reader) : Nat → Formula → Reader
  | bound + 1, left, ⟨.op b, position⟩ :: rest =>
    if b.level = level then do
      let (right, rest) ← next rest
      chainFrom level next bound (.binary b left right) rest
    else return (left, ⟨.op b, position⟩ :: rest)
  | _, left, tokens => return (left, tokens)

def chain (level : Nat) (next : Reader) : Reader := noted fun tokens => do
  let (left, rest) ← next tokens
  chainFrom level next rest.length left rest

def climb (operand : Reader) : Nat → Reader
  | 0 => operand
  | level + 1 => chain level (climb operand level)

def expression (operand : Reader) : Reader :=
  climb operand 6

def arguments (next : Reader) : Nat → List Located → Counted (List Formula × List Located)
  | 0, tokens => return ([], tokens)
  | bound + 1, tokens => do
    let (first, rest) ← next tokens
    match rest with
    | [] => throw (.unexpectedEnd (.token .close))
    | ⟨.comma, _⟩ :: rest => do
      let (others, rest) ← arguments next bound rest
      return (first :: others, rest)
    | ⟨.close, _⟩ :: rest => return ([first], rest)
    | ⟨token, position⟩ :: _ => throw (.unexpectedToken token .commaOrClose position)

def callOf (next : Reader) (name : String) : Reader := noted fun tokens =>
  match Function.ofName? name with
  | none => throw (.unknownFunction name)
  | some f => do
    let (args, rest) ←
      match tokens with
      | ⟨.close, _⟩ :: rest => pure ([], rest)
      | tokens => arguments next tokens.length.succ tokens
    match f.call? args with
    | some call => return (call, rest)
    | none => throw (.argumentCount f args.length)

/-- Reads an operand that starts with no unary operator. -/
def primary (labels : Option Labels) (nestedExpression : Reader) : Reader := noted fun
  | [] => throw (.unexpectedEnd .value)
  | ⟨token, position⟩ :: rest =>
    match token with
    | .integer n => return (.literal (.integer n), rest)
    | .decimal x => return (.literal (.double x), rest)
    | .text s => return (.literal (.text s), rest)
    | .true => return (.literal (.boolean true), rest)
    | .false => return (.literal (.boolean false), rest)
    | .null => return (.literal .null, rest)
    | .property name => return (.property name, rest)
    | .open => do
      let (inner, rest) ← nestedExpression rest
      let rest ← expect .close rest
      return (inner, rest)
    | .word name =>
      match rest with
      | ⟨.open, _⟩ :: rest => callOf nestedExpression name rest
      | rest => do
        let a ← labelled labels name
        return (a, rest)
    | token => throw (.unexpectedToken token .value position)

def operandWith (labels : Option Labels) (nestedOperand nestedExpression : Reader) : Reader :=
  noted fun
  | ⟨.not, _⟩ :: rest => do
    let (a, rest) ← nestedOperand rest
    return (.unary .not a, rest)
  | ⟨.op .sub, _⟩ :: rest => do
    let (a, rest) ← nestedOperand rest
    return (.unary .negate a, rest)
  | tokens => primary labels nestedExpression tokens

/-- Reads an operand. The first argument bounds how often it may call itself, and the counter is
what stops it if the bound is greater than the limit of the counter. -/
def operand (labels : Option Labels) : Nat → Reader
  | 0 => fun _ => throw (.tooDeep maxNesting)
  | bound + 1 =>
    operandWith labels (nested (operand labels bound)) (nested (expression (operand labels bound)))

def ofTokens (labels : Option Labels) (bound : Nat) (tokens : List Located) : Counted Formula :=
  if maxTokens < tokens.length then throw (.tooLong maxTokens)
  else do
    let (formula, rest) ← expression (operand labels bound) tokens
    match rest with
    | [] => return formula
    | ⟨token, position⟩ :: _ => throw (.unexpectedToken token .endOfExpression position)

def parse (labels : Option Labels) (bound : Nat) (source : String) :
    Counted (Formula × List String) := do
  let tokens ← tokenize source
  let formula ← ofTokens labels bound tokens
  return (formula, propertyNames tokens)

end Counted

/-- The counter has kept to its limit, and no reading has changed it. -/
structure Counter.Sound (c : Counter) : Prop where
  bounded : ∀ n ∈ c.values, n ≤ maxNesting
  restored : ∀ attempt ∈ c.attempts, attempt.after = attempt.before

theorem Counter.Sound.set {c : Counter} (h : c.Sound) {depth : Nat} (le : depth ≤ maxNesting) :
    (c.set depth).Sound where
  bounded := List.forall_mem_cons.2 ⟨le, h.bounded⟩
  restored := h.restored

namespace Counted

variable {α β : Type} {depth : Nat}

/-- Where the counter has the given value, the outcome is found, and the counter has that value
again. -/
def Finds (run : Counted α) (depth : Nat) (outcome : Except ExpressionError α) : Prop :=
  ∀ c : Counter, c.Sound → c.depth = depth →
    (run.start c).1 = outcome ∧ (run.start c).2.depth = depth ∧ (run.start c).2.Sound

theorem finds_pure (a : α) : Finds (pure a) depth (.ok a) :=
  fun _ sound here => ⟨rfl, here, sound⟩

theorem finds_throw (e : ExpressionError) : Finds (throw e : Counted α) depth (.error e) :=
  fun _ sound here => ⟨rfl, here, sound⟩

theorem finds_lift (x : Except ExpressionError α) : Finds (liftM x : Counted α) depth x :=
  fun _ sound here => ⟨rfl, here, sound⟩

theorem start_bind (run : Counted α) (next : α → Counted β) (c : Counter) :
    (run >>= next).start c = ExceptT.bindCont next (run.start c).1 (run.start c).2 :=
  rfl

theorem Finds.bind {run : Counted α} {outcome : Except ExpressionError α} {next : α → Counted β}
    {next' : α → Except ExpressionError β} (h : run.Finds depth outcome)
    (hnext : ∀ a, (next a).Finds depth (next' a)) :
    (run >>= next).Finds depth (outcome >>= next') := by
  intro c sound here
  obtain ⟨rfl, hd, hs⟩ := h c sound here
  rw [start_bind]
  cases (run.start c).1 with
  | error e => exact ⟨rfl, hd, hs⟩
  | ok a => exact hnext a _ hs hd

theorem Finds.map {run : Counted α} {outcome : Except ExpressionError α}
    (h : run.Finds depth outcome) (f : α → β) :
    (run >>= fun a => pure (f a)).Finds depth (outcome.map f) := by
  have bound : outcome.map f = outcome >>= fun a => .ok (f a) := by
    cases outcome <;> rfl
  rw [bound]
  exact h.bind fun a => finds_pure (f a)

/-- The reader finds what the other finds, and the counter is back after it. -/
def Reader.Follows (next : Reader) (depth : Nat) (plain : Formula.Reader) : Prop :=
  ∀ tokens, (next tokens).Finds depth (plain tokens)

variable {next : Reader} {plain : Formula.Reader}

theorem Finds.noted {tokens : List Located}
    {outcome : Except ExpressionError (Formula × List Located)}
    (h : (next tokens).Finds depth outcome) : (Counted.noted next tokens).Finds depth outcome := by
  intro c sound here
  obtain ⟨hout, hd, hs⟩ := h c sound here
  exact ⟨hout, hd, hs.bounded, List.forall_mem_cons.2 ⟨hd.trans here.symm, hs.restored⟩⟩

theorem nested_start {c : Counter} (room : c.depth < maxNesting) (tokens : List Located) :
    (nested next tokens).start c =
      ((next tokens).start (c.set (c.depth + 1))).map id fun c => c.set (c.depth - 1) :=
  if_neg (Nat.not_le_of_lt room)

theorem Reader.Follows.nested (h : next.Follows (depth + 1) plain) (room : depth < maxNesting) :
    (nested next).Follows depth plain := by
  rintro tokens c sound rfl
  obtain ⟨hout, hd, hs⟩ := h tokens (c.set (c.depth + 1)) (sound.set room) rfl
  have back : ((next tokens).start (c.set (c.depth + 1))).2.depth - 1 = c.depth := by
    rw [hd, Nat.add_sub_cancel]
  rw [nested_start room]
  exact ⟨hout, back, hs.set (Nat.le_of_lt (back.symm ▸ room))⟩

theorem nested_full (next : Reader) :
    (nested next).Follows maxNesting fun _ => .error (.tooDeep maxNesting) := by
  intro tokens c sound here
  have stopped : (nested next tokens).start c = (.error (.tooDeep maxNesting), c) :=
    if_pos (Nat.le_of_eq here.symm)
  rw [stopped]
  exact ⟨rfl, here, sound⟩

theorem chainFrom_finds (h : next.Follows depth plain) (level bound : Nat) (left : Formula)
    (tokens : List Located) :
    (chainFrom level next bound left tokens).Finds depth
      (Formula.chainFrom level plain bound left tokens) := by
  induction bound, left, tokens using chainFrom.induct level with
  | case1 bound left b position rest same ih =>
    rw [chainFrom, Formula.chainFrom, if_pos same, if_pos same]
    exact (h rest).bind fun read => ih read.1 read.2
  | case2 bound left b position rest other =>
    rw [chainFrom, Formula.chainFrom, if_neg other, if_neg other]
    exact finds_pure _
  | case3 bound left tokens other =>
    rw [chainFrom, Formula.chainFrom]
    · exact finds_pure _
    · exact other
    · exact other

theorem Reader.Follows.climb (h : next.Follows depth plain) (level : Nat) :
    (climb next level).Follows depth (Formula.climb plain level) := by
  induction level with
  | zero => exact h
  | succ level ih =>
    intro tokens
    refine Finds.noted ?_
    exact (ih tokens).bind fun read => chainFrom_finds ih level _ read.1 read.2

theorem arguments_finds (h : next.Follows depth plain) (bound : Nat) (tokens : List Located) :
    (Counted.arguments next bound tokens).Finds depth (Formula.arguments plain bound tokens) := by
  induction bound generalizing tokens with
  | zero => exact finds_pure _
  | succ bound ih =>
    refine (h tokens).bind fun read => ?_
    obtain ⟨first, rest⟩ := read
    cases rest with
    | nil => exact finds_throw _
    | cons t rest =>
      obtain ⟨token, position⟩ := t
      cases token with
      | comma => exact (ih rest).bind fun read => finds_pure _
      | close => exact finds_pure _
      | _ => exact finds_throw _

theorem Reader.Follows.callOf (h : next.Follows depth plain) (name : String) :
    (callOf next name).Follows depth (Formula.callOf plain name) := by
  intro tokens
  refine Finds.noted ?_
  rw [Formula.callOf]
  cases Function.ofName? name with
  | none => exact finds_throw _
  | some f =>
    have called (read : List Formula × List Located) :
        Finds (match f.call? read.1 with
          | some call => pure (call, read.2)
          | none => throw (.argumentCount f read.1.length)) depth
        (match f.call? read.1 with
          | some call => .ok (call, read.2)
          | none => .error (.argumentCount f read.1.length)) := by
      cases f.call? read.1 with
      | some call => exact finds_pure _
      | none => exact finds_throw _
    have read := (arguments_finds h tokens.length.succ tokens).bind called
    -- Only a closing parenthesis at the start keeps the arguments from being read.
    cases tokens with
    | nil => exact read
    | cons t rest =>
      obtain ⟨token, position⟩ := t
      cases token with
      | close => exact called ([], rest)
      | _ => exact read

variable {labels : Option Labels} {nestedOperand nestedExpression : Reader}
  {plainOperand plainExpression : Formula.Reader}

/-- What starts with no unary operator is read alike. -/
theorem primary_finds (h : nestedExpression.Follows depth plainExpression)
    {tokens : List Located} (plain : ∀ t ∈ tokens.head?, t.token.unary? = none) :
    (primary labels nestedExpression tokens).Finds depth
      (Formula.operandWith labels plainOperand plainExpression tokens) := by
  have label (name : String) (rest : List Located) :
      Finds (do
        let a ← labelled labels name
        return (a, rest)) depth ((labelled labels name).map fun a => (a, rest)) :=
    (finds_lift _).map fun a => (a, rest)
  refine Finds.noted ?_
  cases tokens with
  | nil => exact finds_throw _
  | cons t rest =>
    obtain ⟨token, position⟩ := t
    cases token with
    | integer | decimal | text | true | false | null | property => exact finds_pure _
    | «open» =>
      exact (h rest).bind fun read => (finds_lift (expect .close read.2)).bind fun rest =>
        finds_pure (read.1, rest)
    | word name =>
      cases rest with
      | nil => exact label name []
      | cons t rest =>
        obtain ⟨token, position'⟩ := t
        cases token with
        | «open» => exact h.callOf name rest
        | _ => exact label name _
    | close | comma => exact finds_throw _
    | not => exact nomatch plain _ rfl
    | op b =>
      cases b with
      | sub => exact nomatch plain _ rfl
      | _ => exact finds_throw _

theorem operandWith_follows (ho : nestedOperand.Follows depth plainOperand)
    (he : nestedExpression.Follows depth plainExpression) :
    (operandWith labels nestedOperand nestedExpression).Follows depth
      (Formula.operandWith labels plainOperand plainExpression) := by
  intro tokens
  refine Finds.noted ?_
  cases tokens with
  | nil => exact primary_finds he nofun
  | cons t rest =>
    obtain ⟨token, position⟩ := t
    cases token with
    | not => exact (ho rest).map fun read => (Formula.unary .not read.1, read.2)
    | op b =>
      cases b with
      | sub => exact (ho rest).map fun read => (Formula.unary .negate read.1, read.2)
      | _ => exact primary_finds he (by rintro t ⟨⟩; rfl)
    | _ => exact primary_finds he (by rintro t ⟨⟩; rfl)

/-- The counter and the room that is left add up to the limit. -/
theorem operand_follows (labels : Option Labels) {room bound : Nat}
    (total : depth + room = maxNesting) (enough : room < bound) :
    (operand labels bound).Follows depth (Formula.operand labels room) := by
  induction bound generalizing depth room with
  | zero => omega
  | succ bound ih =>
    cases room with
    | zero =>
      -- The counter is at its limit, so what the nested readers would do does not matter.
      obtain rfl := total
      exact operandWith_follows (nested_full _) (nested_full _)
    | succ room =>
      have inner : (operand labels bound).Follows (depth + 1) (Formula.operand labels room) :=
        ih (by omega) (by omega)
      exact operandWith_follows (inner.nested (by omega)) ((inner.climb 6).nested (by omega))

theorem ofTokens_finds (labels : Option Labels) {bound : Nat} (enough : maxNesting < bound)
    (tokens : List Located) :
    (ofTokens labels bound tokens).Finds 0 (Formula.ofTokens labels tokens) := by
  rw [ofTokens, Formula.ofTokens]
  split
  · exact finds_throw _
  · have inner : (operand labels bound).Follows 0 (Formula.operand labels maxNesting) :=
      operand_follows labels (Nat.zero_add maxNesting) enough
    refine (inner.climb 6 tokens).bind fun read => ?_
    obtain ⟨f, rest⟩ := read
    cases rest with
    | nil => exact finds_pure f
    | cons t rest => exact finds_throw _

theorem parse_finds (labels : Option Labels) {bound : Nat} (enough : maxNesting < bound)
    (source : String) : (parse labels bound source).Finds 0 (Formula.parse labels source) :=
  (finds_lift _).bind fun tokens => (ofTokens_finds labels enough tokens).bind fun f =>
    finds_pure (f, propertyNames tokens)

end Counted

theorem Counter.sound_start : ({} : Counter).Sound where
  bounded := by simp
  restored := by simp

/-- Of a text that is read, the formula has no more parts than the text has tokens, at most 1024,
and an evaluation recurs no deeper; no way down in it leads through more than 64 operands of unary
operators and arguments of calls. While any text is read, the counter of these and of parentheses
stays within 64, and each reading leaves it as it was, also where it fails. -/
theorem parse_bounded (labels : Option Labels) (source : String) :
    (∀ f used, parse labels source = .ok (f, used) →
      (∃ tokens, tokenize source = .ok tokens ∧ f.parts.length ≤ tokens.length) ∧
      f.parts.length ≤ 1024 ∧
      (∀ read format, (f.evalWithin read format 1024).run = some (f.eval read format)) ∧
      ∀ steps g, Path f steps g → steps.count true ≤ 64) ∧
    ∀ bound, 64 < bound →
      let (outcome, counter) := (Counted.parse labels bound source).start {}
      outcome = parse labels source ∧ counter.depth = 0 ∧ (∀ n ∈ counter.values, n ≤ 64) ∧
        ∀ attempt ∈ counter.attempts, attempt.after = attempt.before := by
  refine ⟨fun f used h => ?_, fun bound enough => ?_⟩
  · obtain ⟨tokens, ht, short, derived⟩ := derives_of_parse h
    have few : f.parts.length ≤ tokens.length := by
      simpa using derived.parts_length_le
    have small : f.parts.length ≤ 1024 := Nat.le_trans few short
    exact ⟨⟨tokens, ht, few⟩, small, fun read format => fits_of_length_le read format small,
      fun steps g path => Nat.le_trans path.count_le derived.nesting_le⟩
  · obtain ⟨found, back, sound⟩ :=
      Counted.parse_finds labels enough source {} Counter.sound_start rfl
    exact ⟨found, back, sound.bounded, sound.restored⟩

/-- As much as may be is nested: 63 signs and the argument of a call. -/
theorem parse_bounded_signs :
    let labels := some [("Unit", "km/h")]
    let source := String.ofList (List.replicate 63 '-' ++ "abs(unit)".toList)
    let f := Nat.repeat (unary .negate) 63 (call₁ .abs (literal (.text "km/h")))
    parse labels source = .ok (f, []) ∧ f.nesting = 64 ∧
      (∃ tokens, tokenize source = .ok tokens ∧ f.parts.length ≤ tokens.length) ∧
      (∀ read format, (f.evalWithin read format 1024).run = some (f.eval read format)) ∧
      (∀ steps g, Path f steps g → steps.count true ≤ 64) ∧ 64 < 65 ∧
      let (outcome, counter) := (Counted.parse labels 65 source).start {}
      outcome = .ok (f, []) ∧ 64 ∈ counter.values ∧ counter.depth = 0 ∧
        (∀ n ∈ counter.values, n ≤ 64) ∧
        ∀ attempt ∈ counter.attempts, attempt.after = attempt.before := by
  intro labels source f
  have read : parse labels source = .ok (f, []) := by decide +kernel
  have full : f.nesting = 64 := by decide +kernel
  have reached : 64 ∈ ((Counted.parse labels 65 source).start {}).2.values := by decide +kernel
  obtain ⟨small, counted⟩ := parse_bounded labels source
  obtain ⟨few, -, fits, ways⟩ := small f [] read
  have enough : 64 < 65 := by decide
  obtain ⟨found, back, within, restored⟩ := counted 65 enough
  exact ⟨read, full, few, fits, ways, enough, found.trans read, reached, back, within, restored⟩

/-- The last reading fails two levels deep. -/
example :
    let (outcome, counter) := (Counted.parse none 65 "-(1 +").start {}
    outcome = .error (.unexpectedEnd .value) ∧ counter.values = [0, 1, 2, 1, 0] ∧
      counter.attempts.length = 20 := by
  decide +kernel

end ControlDeck.Formula
