import ControlDeck.Decimal.Binary

namespace ControlDeck.Decimal

def digitValue (c : Char) : Nat :=
  c.toNat - '0'.toNat

def ofDigits (digits : List Char) : Nat :=
  digits.foldl (fun n c => 10 * n + digitValue c) 0

/-- One or more ASCII digits and nothing else. -/
def readNat? (s : List Char) : Option Nat :=
  if s.isEmpty || !s.all Char.isDigit then none else some (ofDigits s)

/-- Digits after at most one sign. -/
def readInt? : List Char → Option Int
  | '-' :: rest => (readNat? rest).map fun n => -n
  | '+' :: rest => (readNat? rest).map Int.ofNat
  | s => (readNat? s).map Int.ofNat

/-- The integers that fit in a signed word of the given number of bits. -/
def fitsWord (bits : Nat) (n : Int) : Bool :=
  -pow2 (bits - 1) ≤ n && n < pow2 (bits - 1)

/-- A decimal integer that fits in a signed word. -/
def readWord? (bits : Nat) (s : List Char) : Option Int :=
  (readInt? s).filter (fitsWord bits)

/-- The double nearest to `± n * 10 ^ k`. The powers that are out of reach of any double are not
computed. -/
def ofScientific (negative : Bool) (n : Nat) (k : Int) : Float :=
  let magnitude : Int := n.repr.length + k
  if n = 0 || magnitude < -330 then ofRatio negative 0 1
  else if 320 < magnitude then infinity negative
  else ofRatio negative (n * pow10 k.toNat) (pow10 (-k).toNat)

/-- What follows an exponent mark: an integer, and none if there is no mark. -/
def readExponent? : List Char → Option Int
  | [] => some 0
  | c :: rest => if c = 'e' ∨ c = 'E' then readInt? rest else none

/-- Digits with at most one point among them and an optional exponent. -/
def readMagnitude? (negative : Bool) (s : List Char) : Option Float :=
  let whole := s.takeWhile Char.isDigit
  let afterWhole := s.dropWhile Char.isDigit
  let (fraction, rest) :=
    match afterWhole with
    | '.' :: more => (more.takeWhile Char.isDigit, more.dropWhile Char.isDigit)
    | more => ([], more)
  if whole.isEmpty && fraction.isEmpty then none
  else
    (readExponent? rest).map fun e =>
      ofScientific negative (ofDigits (whole ++ fraction)) (e - fraction.length)

def readUnsigned? (negative : Bool) (s : List Char) : Option Float :=
  match readMagnitude? negative s with
  | some x => some x
  | none =>
    let word := s.map Char.toLower
    if word = "nan".toList then some notANumber
    else if word = "inf".toList ∨ word = "infinity".toList then some (infinity negative)
    else none

/-- A double: a decimal number, `nan`, `inf` or `infinity` in any case, after at most one sign. -/
def readFloat? : List Char → Option Float
  | '-' :: rest => readUnsigned? true rest
  | '+' :: rest => readUnsigned? false rest
  | s => readUnsigned? false s

end ControlDeck.Decimal
