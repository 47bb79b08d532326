import ControlDeck.Decimal.Binary
import ControlDeck.Decimal.Positional

namespace ControlDeck.Decimal

/-- The real numbers `low` to `high` over one denominator that round to the double between them;
the ends belong to them when `closed`. -/
structure Neighbourhood where
  value : Nat
  low : Nat
  high : Nat
  den : Nat
  closed : Bool

/-- The neighbourhood of `m * 2 ^ e`. Below a power of two the doubles lie twice as close. -/
def Neighbourhood.of (m : Nat) (e : Int) : Neighbourhood :=
  let narrow := m = pow2 52 ∧ -1074 < e
  let unit := pow2 e.toNat
  { value := 4 * m * unit
    low := (4 * m - if narrow then 1 else 2) * unit
    high := (4 * m + 2) * unit
    den := 4 * pow2 (-e).toNat
    closed := m % 2 = 0 }

/-- Whether `q * 10 ^ k` lies in the neighbourhood. -/
def Neighbourhood.holds (b : Neighbourhood) (q : Nat) (k : Int) : Bool :=
  let x := q * pow10 k.toNat * b.den
  let scale := pow10 (-k).toNat
  if b.closed then b.low * scale ≤ x && x ≤ b.high * scale
  else b.low * scale < x && x < b.high * scale

/-- The nearer of the two neighbours of the value among the multiples of `10 ^ k`, of those that
lie in the neighbourhood; the upper one of two equally near. -/
def Neighbourhood.onGrid (b : Neighbourhood) (k : Int) : Option Nat :=
  let num := b.value * pow10 (-k).toNat
  let den := b.den * pow10 k.toNat
  let q := num / den
  match b.holds q k, b.holds (q + 1) k with
  | true, true => some (if 2 * (num % den) < den then q else q + 1)
  | true, false => some q
  | false, true => some (q + 1)
  | false, false => none

/-- The first power of ten above the value, looked for from an exponent that is too small. -/
def firstAbove (num den : Nat) : Nat → Int → Int
  | 0, k => k
  | fuel + 1, k =>
    if num * pow10 (-k).toNat < den * pow10 k.toNat then k else firstAbove num den fuel (k + 1)

/-- The coarsest decimal grid, starting from `10 ^ k` and refined at most `fuel` times, that has
a point in the neighbourhood. -/
def Neighbourhood.coarsest (b : Neighbourhood) : Nat → Int → Nat × Int
  | 0, k => (b.value / b.den, k)
  | fuel + 1, k =>
    match b.onGrid k with
    | some q => (q, k)
    | none => b.coarsest fuel (k - 1)

/-- The decimal `q * 10 ^ k` with the fewest digits that rounds to the double `m * 2 ^ e`, and of
those the nearest to it. Seventeen digits always suffice. -/
def shortest (m : Nat) (e : Int) : Nat × Int :=
  let b := Neighbourhood.of m e
  let estimate : Int := ((m.log2 : Int) + e) * 30103 / 100000 - 1
  let top := firstAbove b.value b.den 4 estimate
  b.coarsest 18 top

/-- The shortest text that reads back as the same double; never with an exponent, and without a
fraction for whole numbers. -/
def text (x : Float) : String :=
  match Binary.ofFloat x with
  | .nan => "NaN"
  | .infinite negative => if negative then "-inf" else "inf"
  | .finite negative m e =>
    let sign := if negative then "-" else ""
    if m = 0 then sign ++ "0"
    else
      let (q, k) := shortest m e
      sign ++ positional q k

end ControlDeck.Decimal
