import ControlDeck.Decimal.Fixed
import ControlDeck.Text.Blank

namespace ControlDeck.Formula

/-- A pattern such as `00.0##`: the least number of integer digits, and the fraction digits that are
always written and those that are not written where they are trailing zeros. -/
structure NumberPattern where
  whole : Nat
  required : Nat
  optional : Nat
deriving DecidableEq

namespace NumberPattern

open Text

/-- Zeros and hash marks with at most one point between them. -/
def ofText? (pattern : List Char) : Option NumberPattern :=
  if pattern.isEmpty || !pattern.all (fun c => c == '0' || c == '#' || c == '.') ||
      1 < pattern.count '.' then none
  else
    let (whole, fraction) := (splitOnce '.' pattern).getD (pattern, [])
    some ⟨whole.count '0', fraction.count '0', fraction.count '#'⟩

/-- Drops zeros at the end of a text, at most the given number. -/
def dropZeros : Nat → List Char → List Char
  | n + 1, '0' :: rest => dropZeros n rest
  | _, s => s

/-- A rendering without its optional trailing zeros, and without its point if that comes last. -/
def trimFraction (optional : Nat) (s : List Char) : List Char :=
  match dropZeros optional s.reverse with
  | '.' :: rest => rest.reverse
  | rest => rest.reverse

/-- Brings the integer part to its least width. A width of zero leaves out a lone zero before the
point. -/
def padWhole (width : Nat) (s : List Char) : List Char :=
  let digits := (s.takeWhile (· != '.')).length
  if digits < width then List.replicate (width - digits) '0' ++ s
  else
    match width, s with
    | 0, '0' :: '.' :: rest => '.' :: rest
    | _, s => s

/-- The text of a number. There is none for a rendering that is shorter than its optional digits,
which only the texts of the infinities and of no number can be. -/
def render? (p : NumberPattern) (x : Float) : Option String :=
  let text := (Decimal.fixedText (p.required + p.optional) x).toList
  if text.length < p.optional then none
  else
    let text := if p.optional = 0 then text else trimFraction p.optional text
    let text := padWhole p.whole text
    let isZero := text.all fun c => c == '0' || c == '.'
    some (String.ofList (if x < 0 && !isZero then '-' :: text else text))

end NumberPattern

end ControlDeck.Formula
