import ControlDeck.Decimal.Power

namespace ControlDeck

/-- The longest time span, in nanoseconds either way: as many milliseconds as a signed 64-bit word
counts. -/
def Span.limit : Nat :=
  (Decimal.pow2 63 - 1) * Decimal.pow10 6

/-- A signed length of time. -/
structure Span where
  nanos : Int
  bounded : nanos.natAbs ≤ Span.limit
deriving DecidableEq

namespace Span

def second : Nat := Decimal.pow10 9

def minute : Nat := 60 * second

def hour : Nat := 60 * minute

def day : Nat := 24 * hour

def ofNanos? (n : Int) : Option Span :=
  if h : n.natAbs ≤ limit then some ⟨n, h⟩ else none

def zero : Span := ⟨0, Nat.zero_le _⟩

/-- The span of `n` units of the given length. -/
def ofUnits? (unit : Nat) (n : Int) : Option Span :=
  ofNanos? (n * unit)

def add? (a b : Span) : Option Span :=
  ofNanos? (a.nanos + b.nanos)

def sub? (a b : Span) : Option Span :=
  ofNanos? (a.nanos - b.nanos)

def neg (a : Span) : Span :=
  ⟨-a.nanos, by rw [Int.natAbs_neg]; exact a.bounded⟩

def abs (a : Span) : Span :=
  ⟨a.nanos.natAbs, by rw [Int.natAbs_natCast]; exact a.bounded⟩

def compare (a b : Span) : Ordering :=
  Ord.compare a.nanos b.nanos

/-- Whole seconds, the fraction dropped. -/
def seconds (a : Span) : Int :=
  a.nanos.tdiv second

/-- Whole milliseconds, the fraction dropped. -/
def milliseconds (a : Span) : Int :=
  a.nanos.tdiv (Decimal.pow10 6)

end Span

end ControlDeck
