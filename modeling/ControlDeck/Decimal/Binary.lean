import ControlDeck.Decimal.Power

namespace ControlDeck.Decimal

/-- What a double stands for: the number `± mantissa * 2 ^ exponent`, an infinity or no number. -/
inductive Binary where
  | nan
  | infinite (negative : Bool)
  | finite (negative : Bool) (mantissa : Nat) (exponent : Int)
deriving DecidableEq, Repr

def Binary.ofFloat (x : Float) : Binary :=
  let bits := x.toBits.toNat
  let negative := bits / pow2 63 == 1
  let field : Nat := bits / pow2 52 % pow2 11
  let fraction := bits % pow2 52
  if field = 2047 then
    if fraction = 0 then .infinite negative else .nan
  else if field = 0 then .finite negative fraction (-1074)
  else .finite negative (fraction + pow2 52) ((field : Int) - 1075)

/-- The integer nearest to `num / den`, the even one of two equally near. -/
def roundToEven (num den : Nat) : Nat :=
  let q := num / den
  let r := num % den
  if 2 * r < den then q
  else if den < 2 * r then q + 1
  else q + q % 2

/-- The fraction `num / den / 2 ^ e` as a numerator and a denominator. -/
def descale (num den : Nat) (e : Int) : Nat × Nat :=
  if 0 ≤ e then (num, den * pow2 e.toNat) else (num * pow2 (-e).toNat, den)

/-- The bits of the double nearest to `num / den`. The exponent is chosen so that the rounded
quotient has 53 binary digits, or fewer at the lower end of the range; a quotient that rounds up
to 54 digits carries into the exponent field by the addition. -/
def magnitudeBits (num den : Nat) : Nat :=
  if num = 0 then 0
  else
    let e₀ : Int := (num.log2 : Int) - den.log2 - 52
    let (n₀, d₀) := descale num den e₀
    let e := max (if n₀ / d₀ < pow2 52 then e₀ - 1 else e₀) (-1074)
    let (n, d) := descale num den e
    let q := roundToEven n d
    if q < pow2 52 then q
    else min ((e + 1075).toNat * pow2 52 + (q - pow2 52)) (2047 * pow2 52)

/-- The double nearest to `± num / den`, an infinity if that is beyond the largest double. -/
def ofRatio (negative : Bool) (num den : Nat) : Float :=
  Float.ofBits (UInt64.ofNat ((if negative then pow2 63 else 0) + magnitudeBits num den))

/-- The double nearest to an integer. -/
def ofInt (n : Int) : Float :=
  ofRatio (n < 0) n.natAbs 1

def infinity (negative : Bool) : Float :=
  Float.ofBits (if negative then 0xFFF0000000000000 else 0x7FF0000000000000)

def notANumber : Float :=
  Float.ofBits 0x7FF8000000000000

end ControlDeck.Decimal
