import ControlDeck.Time.Span

namespace ControlDeck

/-- A day of the proleptic Gregorian calendar. -/
structure Date where
  year : Int
  month : Nat
  day : Nat
deriving DecidableEq

namespace Date

def isLeap (year : Int) : Bool :=
  year % 4 = 0 && (year % 100 ≠ 0 || year % 400 = 0)

def daysInMonth (year : Int) (month : Nat) : Nat :=
  match month with
  | 2 => if isLeap year then 29 else 28
  | 4 | 6 | 9 | 11 => 30
  | _ => 31

def minYear : Int := -262143

def maxYear : Int := 262142

def ofParts? (year : Int) (month day : Nat) : Option Date :=
  if minYear ≤ year ∧ year ≤ maxYear ∧ 1 ≤ month ∧ month ≤ 12 ∧ 1 ≤ day ∧
      day ≤ daysInMonth year month then
    some ⟨year, month, day⟩
  else none

/-- Days since the first of January 1970. Years are counted from March, so that a leap day ends
one. -/
def toEpochDay (d : Date) : Int :=
  let y := if d.month ≤ 2 then d.year - 1 else d.year
  let monthFromMarch := (d.month + 9) % 12
  let dayOfYear : Int := (153 * monthFromMarch + 2) / 5 + d.day - 1
  y * 365 + y / 4 - y / 100 + y / 400 + dayOfYear - 719468

def ofEpochDay (n : Int) : Date :=
  let z := n + 719468
  let era := z / 146097
  let dayOfEra := z % 146097
  let yearOfEra := (dayOfEra - dayOfEra / 1460 + dayOfEra / 36524 - dayOfEra / 146096) / 365
  let dayOfYear := dayOfEra - (365 * yearOfEra + yearOfEra / 4 - yearOfEra / 100)
  let monthFromMarch := (5 * dayOfYear + 2) / 153
  let day := dayOfYear - (153 * monthFromMarch + 2) / 5 + 1
  let month := if monthFromMarch < 10 then monthFromMarch + 3 else monthFromMarch - 9
  let year := yearOfEra + era * 400 + if month ≤ 2 then 1 else 0
  ⟨year, month.toNat, day.toNat⟩

/-- The day within its year, from 1. -/
def ordinal (d : Date) : Nat :=
  (d.toEpochDay - (Date.mk d.year 1 1).toEpochDay + 1).toNat

/-- Days since the last Monday. -/
def weekday (d : Date) : Nat :=
  ((d.toEpochDay + 3) % 7).toNat

/-- The year and the number of the week that the Thursday of the date's week lies in. -/
def isoWeek (d : Date) : Int × Nat :=
  let thursday := ofEpochDay (d.toEpochDay - d.weekday + 3)
  (thursday.year, (thursday.ordinal + 6) / 7)

/-- The number of the week within the year, where the given day of the week starts a week. -/
def weekFrom (start : Nat) (d : Date) : Nat :=
  (d.ordinal + 6 - (d.weekday + 7 - start) % 7) / 7

end Date

/-- A date and a time of day without a zone. In a leap second the nanoseconds run on beyond the
second. -/
structure DateTime where
  date : Date
  second : Nat
  nanos : Nat
deriving DecidableEq

namespace DateTime

def compare (a b : DateTime) : Ordering :=
  (Ord.compare a.date.toEpochDay b.date.toEpochDay).then
    ((Ord.compare a.second b.second).then (Ord.compare a.nanos b.nanos))

/-- The time a span after a time of day, with the days that it moved by. A leap second is left as
if it were the second before or after it, whichever way the span leads. -/
def addToTime (second nanos : Nat) (span : Span) : Int × Nat × Nat :=
  let whole := span.seconds
  let part := span.nanos.tmod Span.second
  let sum : Int := nanos + part
  let normal (s n : Int) : Int × Nat × Nat :=
    let total := s + whole + (n + part) / Span.second
    (total / 86400, (total % 86400).toNat, ((n + part) % Span.second).toNat)
  if Span.second ≤ nanos then
    if 0 < whole ∨ (0 < part ∧ 2 * Span.second ≤ sum) then normal second (nanos - Span.second)
    else if whole < 0 then normal (second + 1) (nanos - Span.second)
    else (0, second, sum.toNat)
  else normal second nanos

def add? (a : DateTime) (span : Span) : Option DateTime :=
  let (days, second, nanos) := addToTime a.second a.nanos span
  let date := Date.ofEpochDay (a.date.toEpochDay + days)
  if Date.minYear ≤ date.year ∧ date.year ≤ Date.maxYear then some ⟨date, second, nanos⟩ else none

def subSpan? (a : DateTime) (span : Span) : Option DateTime :=
  a.add? span.neg

/-- The nanoseconds from `b` to `a`. A leap second counts for the times after it. -/
def nanosSince (a b : DateTime) : Int :=
  let days := a.date.toEpochDay - b.date.toEpochDay
  let leap : Int :=
    if b.second < a.second ∧ Span.second ≤ b.nanos then 1
    else if a.second < b.second ∧ Span.second ≤ a.nanos then -1
    else 0
  (days * 86400 + a.second - b.second + leap) * Span.second + a.nanos - b.nanos

/-- The span from `b` to `a`. Dates lie too close together for it to be out of range. -/
def since (a b : DateTime) : Span :=
  (Span.ofNanos? (a.nanosSince b)).getD .zero

end DateTime

end ControlDeck
