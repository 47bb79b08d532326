import ControlDeck.Decimal.Positional
import ControlDeck.Decimal.Reader
import ControlDeck.Text.Blank
import ControlDeck.Time.Span

namespace ControlDeck.Span

open Decimal Text

/-- One to nine fraction digits of a second, in nanoseconds. -/
def readFraction? (s : List Char) : Option Nat :=
  if s.length ≤ 9 then (readNat? s).map (· * pow10 (9 - s.length)) else none

/-- Days and hours, the days optional. -/
def readHours? (s : List Char) : Option (Int × Int) :=
  match splitOnce '.' s with
  | some (d, h) => do return (← readWord? 64 d, ← readWord? 64 h)
  | none => (readWord? 64 s).map fun h => (0, h)

/-- Seconds and nanoseconds, the fraction optional. -/
def readSeconds? (s : List Char) : Option (Int × Nat) :=
  match splitOnce '.' s with
  | some (whole, fraction) => do
    let nanos ← readFraction? fraction
    return (← readWord? 64 whole, nanos)
  | none => (readWord? 64 s).map fun n => (n, 0)

/-- The sum of the fields `[d.]hh:mm:ss[.f]`. Minutes and seconds have an upper bound of 59, days
and hours a lower bound of 0. -/
def readBody? (s : List Char) : Option Span :=
  match splitAll ':' s with
  | [first, middle, last] => do
    let (days, hours) ← readHours? first
    let minutes ← readWord? 64 middle
    let (seconds, nanos) ← readSeconds? last
    if 60 ≤ minutes ∨ 60 ≤ seconds ∨ hours < 0 ∨ days < 0 then none
    else
      let sum ← (← ofUnits? day days).add? (← ofUnits? hour hours)
      let sum ← sum.add? (← ofUnits? minute minutes)
      let sum ← sum.add? (← ofUnits? second seconds)
      sum.add? (← ofNanos? nanos)
  | _ => none

/-- A span written `[-][d.]hh:mm:ss[.f]`. -/
def read? : List Char → Option Span
  | '-' :: rest => (readBody? rest).map neg
  | s => readBody? s

/-- The letters that stand for a part of a span. -/
def isUnit (c : Char) : Bool :=
  c == 'd' || c == 'h' || c == 'm' || c == 's' || c == 'f'

/-- A pattern as runs: equal unit letters side by side count together, any other character is a
run of its own. -/
def runs : List Char → List (Char × Nat)
  | [] => []
  | c :: rest =>
    match runs rest with
    | (d, count) :: more =>
      if c = d ∧ isUnit c then (d, count + 1) :: more else (c, 1) :: (d, count) :: more
    | [] => [(c, 1)]

/-- The greatest unit of a pattern, which carries the whole of what lies above it. -/
def leading? (pattern : List (Char × Nat)) : Option Char :=
  ['d', 'h', 'm', 's'].find? fun unit => pattern.any fun run => run.1 == unit

/-- The value of a unit for a magnitude in seconds. -/
def unitValue (leading unit : Char) (seconds : Nat) : Nat :=
  let carries := unit == leading
  match unit with
  | 'd' => seconds / 86400
  | 'h' => if carries then seconds / 3600 else seconds / 3600 % 24
  | 'm' => if carries then seconds / 60 else seconds / 60 % 60
  | _ => if carries then seconds else seconds % 60

def runText (leading : Char) (magnitude : Nat) : Char × Nat → String
  | (c, count) =>
    if c = 'f' then
      let digits := min count 9
      padded digits (magnitude % second / pow10 (9 - digits))
    else if isUnit c then padded count (unitValue leading c (magnitude / second))
    else "".pushn c count

/-- A span written by a pattern of unit letters, or nothing if the pattern has no unit above the
fraction. -/
def format? (pattern : String) (a : Span) : Option String :=
  let pattern := runs pattern.toList
  (leading? pattern).map fun leading =>
    (if a.nanos < 0 then "-" else "") ++
      String.join (pattern.map (runText leading a.nanos.natAbs))

end ControlDeck.Span
