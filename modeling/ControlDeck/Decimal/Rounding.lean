import ControlDeck.Decimal.Binary

namespace ControlDeck.Decimal

/-- Replaces a finite double with a fraction by an integer computed from its sign and its magnitude
`num / den`. The sign is kept also where the integer is zero. -/
def toWhole (whole : Bool → Nat → Nat → Nat) (x : Float) : Float :=
  match Binary.ofFloat x with
  | .finite negative m e =>
    if 0 ≤ e then x else ofRatio negative (whole negative m (pow2 (-e).toNat)) 1
  | _ => x

def ceilDiv (num den : Nat) : Nat :=
  (num + den - 1) / den

def floor (x : Float) : Float :=
  toWhole (fun negative num den => if negative then ceilDiv num den else num / den) x

def ceiling (x : Float) : Float :=
  toWhole (fun negative num den => if negative then num / den else ceilDiv num den) x

/-- The nearest whole double, the one farther from zero of two equally near. -/
def round (x : Float) : Float :=
  toWhole (fun _ num den => (2 * num + den) / (2 * den)) x

/-- The integer part, held at the ends of a signed word; no number counts as zero. -/
def truncateToWord (bits : Nat) (x : Float) : Int :=
  let lowest : Int := -pow2 (bits - 1)
  let highest : Int := pow2 (bits - 1) - 1
  match Binary.ofFloat x with
  | .nan => 0
  | .infinite negative => if negative then lowest else highest
  | .finite negative m e =>
    let n := m * pow2 e.toNat / pow2 (-e).toNat
    if negative then max (-n) lowest else min n highest

/-- The exact remainder of the division that truncates its quotient; it has the dividend's sign. -/
def remainder (x y : Float) : Float :=
  match Binary.ofFloat x, Binary.ofFloat y with
  | .finite negative m e, .finite _ m' e' =>
    if m' = 0 then notANumber
    else
      let low := min e e'
      let r := (m * pow2 (e - low).toNat) % (m' * pow2 (e' - low).toNat)
      ofRatio negative (r * pow2 low.toNat) (pow2 (-low).toNat)
  | .finite _ _ _, .infinite _ => x
  | _, _ => notANumber

/-- The product of the powers `base ^ (2 ^ i)` over the binary digits of `n`, lowest first. -/
def powerSteps (base product : Float) (n : Nat) : Float :=
  let product := if n % 2 = 1 then product * base else product
  if h : n / 2 = 0 then product else powerSteps (base * base) product (n / 2)
termination_by n
decreasing_by omega

/-- `10 ^ n` by repeated squaring in doubles, with the rounding errors that has; a negative power is
the reciprocal of the positive one. -/
def powerOfTen (n : Int) : Float :=
  let p := powerSteps 10 1 n.natAbs
  if n < 0 then 1 / p else p

end ControlDeck.Decimal
