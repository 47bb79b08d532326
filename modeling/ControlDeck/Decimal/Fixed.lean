import ControlDeck.Decimal.Binary
import ControlDeck.Decimal.Positional

namespace ControlDeck.Decimal

/-- `± m * 2 ^ e` without its sign, rounded to whole units of `10 ^ -places`, ties to even. -/
def roundedUnits (places m : Nat) (e : Int) : Nat :=
  roundToEven (m * pow2 e.toNat * pow10 places) (pow2 (-e).toNat)

/-- The text of `|x|` with the given number of fraction digits. -/
def fixedText (places : Nat) (x : Float) : String :=
  match Binary.ofFloat x with
  | .nan => "NaN"
  | .infinite _ => "inf"
  | .finite _ m e => unitsText places (roundedUnits places m e)

end ControlDeck.Decimal
