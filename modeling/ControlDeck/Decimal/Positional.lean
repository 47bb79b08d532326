import ControlDeck.Decimal.Power

namespace ControlDeck.Decimal

/-- Decimal digits of `n`, with zeros on the left up to the given width. -/
def padded (width n : Nat) : String :=
  let digits := n.repr
  "".pushn '0' (width - digits.length) ++ digits

/-- A count of units of `10 ^ -places` as at least one integer digit and exactly `places` fraction
digits, with no point if there are none. -/
def unitsText (places units : Nat) : String :=
  let whole := (units / pow10 places).repr
  if places = 0 then whole
  else whole ++ "." ++ padded places (units % pow10 places)

/-- The text of `q * 10 ^ k` without an exponent. -/
def positional (q : Nat) (k : Int) : String :=
  if 0 ≤ k then q.repr.pushn '0' k.toNat else unitsText (-k).toNat q

end ControlDeck.Decimal
