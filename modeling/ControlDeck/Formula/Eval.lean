import ControlDeck.Decimal.Rounding
import ControlDeck.Formula.NumberPattern
import ControlDeck.Formula.Tree

namespace ControlDeck

namespace Formula

/-- What an evaluation was about to apply. -/
inductive Action where
  | unary (op : UnaryOp)
  | binary (op : BinaryOp)
  | function (f : Function)
deriving DecidableEq

def Action.symbol : Action → String
  | unary op => op.symbol
  | binary op => op.symbol
  | function f => f.name

end Formula

inductive EvalError where
  | typeMismatch (op : Formula.BinaryOp) (left right : ValueKind)
  | invalidOperand (action : Formula.Action) (operand : ValueKind)
  | divisionByZero
  | conversion (text : String) (target : ValueKind)
  | format (reason : String)
  /-- A pattern of a correct form asks for what the value has not got. No slot takes this for a
  failure: the evaluation breaks off, and so does whatever asked for it. -/
  | unwritable (pattern : String)
deriving DecidableEq

def EvalError.message : EvalError → String
  | typeMismatch op left right =>
    "Cannot apply '" ++ op.symbol ++ "' to " ++ left.name ++ " and " ++ right.name
  | invalidOperand action operand =>
    "Cannot apply '" ++ action.symbol ++ "' to " ++ operand.name
  | divisionByZero => "Division by zero"
  | conversion text target => "Cannot convert '" ++ text ++ "' to " ++ target.name
  | format reason => "Format failed: " ++ reason
  | unwritable pattern => "Format failed: no text for pattern '" ++ pattern ++ "'"

/-- What `format` does with a value and a pattern. -/
abbrev Formatter := Value → String → Except EvalError String

namespace Formatter

def placeholder : String := "\x7b0\x7d"

/-- Replaces each placeholder in a pattern by a text. -/
def substitute (text : List Char) : List Char → List Char
  | '\x7b' :: '0' :: '\x7d' :: rest => text ++ substitute text rest
  | c :: rest => c :: substitute text rest
  | [] => []

def hasPlaceholder : List Char → Bool
  | '\x7b' :: '0' :: '\x7d' :: _ => true
  | _ :: rest => hasPlaceholder rest
  | [] => false

/-- A pattern for values of any kind: each placeholder becomes the text that is shown for the
value. -/
def general (value : Value) (pattern : String) : Except EvalError String :=
  if hasPlaceholder pattern.toList then
    .ok (String.ofList (substitute value.display.toList pattern.toList))
  else
    .error (.format ("pattern '" ++ pattern ++ "' does not apply to " ++ value.kind.name))

def number (value : Value) (x : Float) (pattern : String) : Except EvalError String :=
  match Formula.NumberPattern.ofText? pattern.toList with
  | none => general value pattern
  | some p =>
    match p.render? x with
    | some text => .ok text
    | none => .error (.unwritable pattern)

def time (t : DateTime) (pattern : String) : Except EvalError String :=
  match DatePattern.items? pattern.toList with
  | none => .error (.format ("invalid date pattern '" ++ pattern ++ "'"))
  | some items =>
    match DatePattern.render? t items with
    | some text => .ok text
    | none => .error (.unwritable pattern)

/-- Numbers, spans and times have patterns of their own. -/
def standard : Formatter := fun value pattern =>
  match value with
  | .null => .ok ""
  | .integer n => number value (Decimal.ofInt n) pattern
  | .double x => number value x pattern
  | .timespan t =>
    match t.format? pattern with
    | some text => .ok text
    | none => .error (.format ("invalid time span pattern '" ++ pattern ++ "'"))
  | .datetime t => time t pattern
  | value => general value pattern

end Formatter

namespace Formula

/-- The truth of a value that is about to be used as an operand. -/
def truthFor (action : Action) (v : Value) : Except EvalError Bool :=
  match v.truth? with
  | some b => .ok b
  | none => .error (.invalidOperand action v.kind)

def numberFor (f : Function) (v : Value) : Except EvalError Float :=
  match v.toFloat? with
  | some x => .ok x
  | none => .error (.invalidOperand (.function f) v.kind)

/-- An integer where it fits in 64 bits, and else the given double. -/
def integerOr (n : Int) (x : Float) : Value :=
  if Decimal.fitsWord 64 n then .integer n else .double x

def applyUnary : UnaryOp → Value → Except EvalError Value
  | .not, v => (truthFor (.unary .not) v).map fun b => .boolean !b
  | .negate, .integer n => .ok (integerOr (-n) (-Decimal.ofInt n))
  | .negate, .double x => .ok (.double (-x))
  | .negate, .timespan t => .ok (.timespan t.neg)
  | .negate, v => .error (.invalidOperand (.unary .negate) v.kind)

/-- Equality of values. An integer and a double are compared as doubles; values of other different
kinds are not equal. -/
def equal : Value → Value → Bool
  | .null, .null => true
  | .boolean a, .boolean b => a == b
  | .integer a, .integer b => a == b
  | .integer a, .double b => Decimal.ofInt a == b
  | .double a, .integer b => a == Decimal.ofInt b
  | .double a, .double b => a == b
  | .text a, .text b => a == b
  | .timespan a, .timespan b => a.nanos == b.nanos
  | .datetime a, .datetime b => a == b
  | _, _ => false

def order? : Value → Value → Option Ordering
  | .integer a, .integer b => some (compare a b)
  | .integer a, .double b => compareFloat (Decimal.ofInt a) b
  | .double a, .integer b => compareFloat a (Decimal.ofInt b)
  | .double a, .double b => compareFloat a b
  | .text a, .text b => some (compare a b)
  | .boolean a, .boolean b => some (compare a b)
  | .timespan a, .timespan b => some (a.compare b)
  | .datetime a, .datetime b => some (a.compare b)
  | _, _ => none

def mismatch (op : BinaryOp) (a b : Value) : EvalError :=
  .typeMismatch op a.kind b.kind

def orderFor (op : BinaryOp) (a b : Value) : Except EvalError Ordering :=
  match order? a b with
  | some o => .ok o
  | none => .error (mismatch op a b)

/-- Arithmetic on numbers: exact on integers while the result fits, in doubles otherwise. -/
def arithmetic (op : BinaryOp) (exact : Int → Int → Int) (rounded : Float → Float → Float)
    (a b : Value) : Except EvalError Value :=
  match a, b with
  | .integer m, .integer n =>
    .ok (integerOr (exact m n) (rounded (Decimal.ofInt m) (Decimal.ofInt n)))
  | a, b =>
    match a.toFloat?, b.toFloat? with
    | some x, some y => .ok (.double (rounded x y))
    | _, _ => .error (mismatch op a b)

/-- The remainder of two numbers. The least integer has no integer remainder by minus one, as the
quotient does not fit. -/
def remainder (a b : Value) : Except EvalError Value :=
  match a, b with
  | .integer m, .integer n =>
    if n = -1 ∧ m = -Decimal.pow2 63 then
      .ok (.double (Decimal.remainder (Decimal.ofInt m) (Decimal.ofInt n)))
    else .ok (.integer (m.tmod n))
  | a, b => arithmetic .rem Int.tmod Decimal.remainder a b

def orMismatch (op : BinaryOp) (a b : Value) : Option Value → Except EvalError Value
  | some v => .ok v
  | none => .error (mismatch op a b)

def isZero (v : Value) : Bool :=
  match v.toFloat? with
  | some x => x == 0
  | none => false

/-- Applies an operator to two values. -/
def applyBinary (op : BinaryOp) (a b : Value) : Except EvalError Value :=
  match op with
  | .eq => .ok (.boolean (equal a b))
  | .ne => .ok (.boolean !(equal a b))
  | .lt => (orderFor op a b).map fun o => .boolean (o == .lt)
  | .le => (orderFor op a b).map fun o => .boolean (o != .gt)
  | .gt => (orderFor op a b).map fun o => .boolean (o == .gt)
  | .ge => (orderFor op a b).map fun o => .boolean (o != .lt)
  | .add =>
    match a, b with
    | .text _, _ | _, .text _ => .ok (.text (a.display ++ b.display))
    | .timespan s, .timespan t => orMismatch op a b ((s.add? t).map .timespan)
    | .datetime s, .timespan t => orMismatch op a b ((s.add? t).map .datetime)
    | _, _ => arithmetic op (· + ·) (· + ·) a b
  | .sub =>
    match a, b with
    | .timespan s, .timespan t => orMismatch op a b ((s.sub? t).map .timespan)
    | .datetime s, .datetime t => .ok (.timespan (s.since t))
    | .datetime s, .timespan t => orMismatch op a b ((s.subSpan? t).map .datetime)
    | _, _ => arithmetic op (· - ·) (· - ·) a b
  | .mul => arithmetic op (· * ·) (· * ·) a b
  | .div =>
    match a.toFloat?, b.toFloat? with
    | some x, some y => if y == 0 then .error .divisionByZero else .ok (.double (x / y))
    | _, _ => .error (mismatch op a b)
  | .rem =>
    if a.toFloat?.isSome && isZero b then .error .divisionByZero else remainder a b
  | .and => do
    let x ← truthFor (.binary op) a
    if x then (truthFor (.binary op) b).map .boolean else .ok (.boolean false)
  | .or => do
    let x ← truthFor (.binary op) a
    if x then .ok (.boolean true) else (truthFor (.binary op) b).map .boolean

def toInteger : Value → Except EvalError Value
  | .integer n => .ok (.integer n)
  | .boolean b => .ok (.integer b.toInt)
  | .timespan t => .ok (.integer t.seconds)
  | .double x =>
    if x.isFinite then .ok (.integer (Decimal.truncateToWord 64 x))
    else .error (.conversion (Decimal.text x) .integer)
  | .text s =>
    let trimmed := Text.trim s.toList
    match Decimal.readWord? 64 trimmed, Decimal.readFloat? trimmed with
    | some n, _ => .ok (.integer n)
    | none, some x => .ok (.integer (Decimal.truncateToWord 64 x))
    | none, none => .error (.conversion s .integer)
  | v => .error (.conversion v.display .integer)

def toDouble : Value → Except EvalError Value
  | .integer n => .ok (.double (Decimal.ofInt n))
  | .double x => .ok (.double x)
  | .boolean b => .ok (.double (if b then 1 else 0))
  | .timespan t => .ok (.double (Decimal.ofInt t.milliseconds / 1000))
  | .text s =>
    match Decimal.readFloat? (Text.trim s.toList) with
    | some x => .ok (.double x)
    | none => .error (.conversion s .double)
  | v => .error (.conversion v.display .double)

/-- Rounds to a number of decimal places, negative for places before the point. -/
def roundTo (places : Int) (v : Value) : Except EvalError Value :=
  match v with
  | .integer n =>
    if 0 ≤ places then .ok (.integer n) else .ok (.double (scaled (Decimal.ofInt n)))
  | v => (numberFor .round v).map fun x => .double (scaled x)
where
  scaled (x : Float) : Float :=
    let scale := Decimal.powerOfTen places
    Decimal.round (x * scale) / scale

def apply₁ : Function₁ → Value → Except EvalError Value
  | .abs, .integer n => .ok (integerOr n.natAbs (Decimal.ofInt n).abs)
  | .abs, .timespan t => .ok (.timespan t.abs)
  | .abs, v => (numberFor .abs v).map fun x => .double x.abs
  | .round, v => roundTo 0 v
  | .floor, .integer n => .ok (.integer n)
  | .floor, v => (numberFor .floor v).map fun x => .double (Decimal.floor x)
  | .ceiling, .integer n => .ok (.integer n)
  | .ceiling, v => (numberFor .ceiling v).map fun x => .double (Decimal.ceiling x)
  | .int, v => toInteger v
  | .double, v => toDouble v
  | .str, v => .ok (.text v.display)

/-- The text of a pattern operand. -/
def patternText : Value → String
  | .text s => s
  | v => v.display

def apply₂ (format : Formatter) : Function₂ → Value → Value → Except EvalError Value
  | .ifNull, .null, b => .ok b
  | .ifNull, a, _ => .ok a
  | .roundTo, a, b => do
    let places ← numberFor .round b
    roundTo (Decimal.truncateToWord 32 places) a
  | .min, a, b => (orderFor .lt a b).map fun o => if o == .lt then a else b
  | .max, a, b => (orderFor .gt a b).map fun o => if o == .gt then a else b
  | .format, a, b => (format a (patternText b)).map .text

/-- The value of a formula. The right operand of a logical operator, the second operand of `isnull`
and the branches of `if` are evaluated only where they count. -/
def eval (read : Readings) (format : Formatter) : Formula → Except EvalError Value
  | .literal v => .ok v
  | .property name => .ok (Value.ofReading (read name))
  | .unary op a => do applyUnary op (← eval read format a)
  | .binary .and a b => do
    if ← truthFor (.binary .and) (← eval read format a) then
      (truthFor (.binary .and) (← eval read format b)).map .boolean
    else return .boolean false
  | .binary .or a b => do
    if ← truthFor (.binary .or) (← eval read format a) then return .boolean true
    else (truthFor (.binary .or) (← eval read format b)).map .boolean
  | .binary op a b => do
    let x ← eval read format a
    let y ← eval read format b
    applyBinary op x y
  | .call₁ f a => do apply₁ f (← eval read format a)
  | .call₂ .ifNull a b => do
    match ← eval read format a with
    | .null => eval read format b
    | v => return v
  | .call₂ f a b => do
    let x ← eval read format a
    let y ← eval read format b
    apply₂ format f x y
  | .choose c a b => do
    if ← truthFor (.function .ifThenElse) (← eval read format c) then eval read format a
    else eval read format b

end Formula

end ControlDeck
