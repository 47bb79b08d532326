import ControlDeck.Text.Blank
import ControlDeck.Decimal.Reader
import ControlDeck.Time.Calendar

namespace ControlDeck.DateTime

open Decimal Text

/-- What a layout expects next in a text. -/
inductive Part where
  | year | month | day | hour | hour12 | minute | second
  /-- A point and fraction digits, or nothing. -/
  | fraction
  /-- `am` or `pm`. -/
  | halfDay
  /-- Any white space, or none. -/
  | blank
  | mark (c : Char)

/-- The fields read so far. -/
structure Fields where
  year : Int := 0
  month : Nat := 0
  day : Nat := 0
  hour : Nat := 0
  afternoon : Bool := false
  minute : Nat := 0
  second : Nat := 0
  nanos : Nat := 0

/-- Second 60 is the leap second that follows second 59. -/
def Fields.toDateTime? (f : Fields) : Option DateTime := do
  let date ← Date.ofParts? f.year f.month f.day
  let hour := if f.afternoon then f.hour + 12 else f.hour
  if 24 ≤ hour ∨ 60 ≤ f.minute ∨ 61 ≤ f.second then none
  else
    let leap := f.second = 60
    let second := if leap then 59 else f.second
    return ⟨date, hour * 3600 + f.minute * 60 + second,
      f.nanos + if leap then Span.second else 0⟩

/-- Digits at the start of a text, at least one and at most `width`. -/
def digits? (width : Nat) (s : List Char) : Option (Nat × List Char) :=
  let digits := (s.take width).takeWhile Char.isDigit
  if digits.isEmpty then none else some (ofDigits digits, s.drop digits.length)

/-- Exactly `width` digits at the start of a text. -/
def exactDigits? (width : Nat) (s : List Char) : Option (Nat × List Char) :=
  let digits := (s.take width).takeWhile Char.isDigit
  if digits.length = width then some (ofDigits digits, s.drop width) else none

/-- A number in its range, after any white space. -/
def field? (low high : Nat) (s : List Char) : Option (Nat × List Char) :=
  (digits? 2 (trimStart s)).filter fun (n, _) => low ≤ n && n ≤ high

/-- A year of up to four digits, or of any number of digits after a sign. -/
def year? (s : List Char) : Option (Int × List Char) :=
  match trimStart s with
  | '-' :: rest => (digits? rest.length rest).map fun (n, rest) => (-n, rest)
  | '+' :: rest => (digits? rest.length rest).map fun (n, rest) => (n, rest)
  | s => (digits? 4 s).map fun (n, rest) => (n, rest)

/-- Fraction digits as nanoseconds; those beyond the ninth are dropped. -/
def nanos? (s : List Char) : Option (Nat × List Char) :=
  let digits := s.takeWhile Char.isDigit
  if digits.isEmpty then none
  else
    let kept := digits.take 9
    some (ofDigits kept * pow10 (9 - kept.length), s.dropWhile Char.isDigit)

def Part.read? (f : Fields) (s : List Char) : Part → Option (Fields × List Char)
  | .year => (year? s).map fun (n, rest) => ({ f with year := n }, rest)
  | .month => (field? 1 12 s).map fun (n, rest) => ({ f with month := n }, rest)
  | .day => (field? 1 31 s).map fun (n, rest) => ({ f with day := n }, rest)
  | .hour => (field? 0 23 s).map fun (n, rest) => ({ f with hour := n }, rest)
  | .hour12 => (field? 1 12 s).map fun (n, rest) => ({ f with hour := n % 12 }, rest)
  | .minute => (field? 0 59 s).map fun (n, rest) => ({ f with minute := n }, rest)
  | .second => (field? 0 60 s).map fun (n, rest) => ({ f with second := n }, rest)
  | .fraction =>
    match s with
    | '.' :: rest => (nanos? rest).map fun (n, rest) => ({ f with nanos := n }, rest)
    | _ => some (f, s)
  | .halfDay =>
    match s with
    | a :: b :: rest =>
      if b.toLower ≠ 'm' then none
      else if a.toLower = 'a' then some ({ f with afternoon := false }, rest)
      else if a.toLower = 'p' then some ({ f with afternoon := true }, rest)
      else none
    | _ => none
  | .blank => some (f, trimStart s)
  | .mark c =>
    match s with
    | d :: rest => if c = d then some (f, rest) else none
    | [] => none

/-- Reads all of a text by a layout. -/
def readParts? : List Part → Fields → List Char → Option Fields
  | [], f, s => if s.isEmpty then some f else none
  | part :: parts, f, s => do
    let (f, rest) ← part.read? f s
    readParts? parts f rest

def clock : List Part :=
  [.hour, .mark ':', .minute, .mark ':', .second]

def dashedDate : List Part :=
  [.year, .mark '-', .month, .mark '-', .day]

def slashedDate : List Part :=
  [.month, .mark '/', .day, .mark '/', .year]

def dottedDate : List Part :=
  [.day, .mark '.', .month, .mark '.', .year]

/-- The layouts without a zone, in the order in which they are tried. -/
def layouts : List (List Part) :=
  [dashedDate ++ [.mark 'T'] ++ clock ++ [.fraction],
    dashedDate ++ [.blank] ++ clock ++ [.fraction],
    slashedDate ++ [.blank] ++ clock,
    slashedDate ++ [.blank, .hour12, .mark ':', .minute, .mark ':', .second, .blank, .halfDay],
    dottedDate ++ [.blank] ++ clock]

def skip? (c : Char) : List Char → Option (List Char)
  | d :: rest => if c = d then some rest else none
  | [] => none

/-- The offset from universal time at the end of a text: `Z`, or hours up to 23 and minutes up to 59
after a sign. Its value is not used, as the local time is what counts. -/
def isOffset : List Char → Bool
  | [c] => c == 'Z' || c == 'z'
  | [sign, h₁, h₂, ':', m₁, m₂] =>
    (sign == '+' || sign == '-' || sign == Char.ofNat 0x2212) &&
      [h₁, h₂, m₁, m₂].all Char.isDigit &&
      ofDigits [h₁, h₂] ≤ 23 && ofDigits [m₁, m₂] ≤ 59
  | _ => false

/-- A time with an offset: fields of fixed width, joined by `T`, `t` or a space. -/
def readZoned? (s : List Char) : Option DateTime := do
  let (year, s) ← exactDigits? 4 s
  let (month, s) ← exactDigits? 2 (← skip? '-' s)
  let (day, s) ← exactDigits? 2 (← skip? '-' s)
  let s ←
    match s with
    | c :: rest => if c = 'T' ∨ c = 't' ∨ c = ' ' then some rest else none
    | [] => none
  let (hour, s) ← exactDigits? 2 s
  let (minute, s) ← exactDigits? 2 (← skip? ':' s)
  let (second, s) ← exactDigits? 2 (← skip? ':' s)
  let (nanos, s) ←
    match s with
    | '.' :: rest => nanos? rest
    | s => some (0, s)
  if isOffset s then
    Fields.toDateTime? { year, month, day, hour, minute, second, nanos }
  else none

/-- A time with an offset, or else one in the first layout that fits. -/
def read? (s : List Char) : Option DateTime :=
  match readZoned? s with
  | some t => some t
  | none => layouts.findSome? fun layout => do (← readParts? layout {} s).toDateTime?

end ControlDeck.DateTime
