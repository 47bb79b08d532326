import ControlDeck.Property.Value
import ControlDeck.Text.Blank

namespace ControlDeck

/-- An announcement of a property's value. -/
structure PropertyLine where
  name : String
  reading : Reading
deriving DecidableEq

namespace PropertyLine

open Text

def isLineEnd (c : Char) : Bool :=
  c == '\r' || c == '\n'

/-- The name, the kind and the text of a line `Property <name> <kind> <text>`. Single spaces part
the fields, and the last field takes the rest of the line. -/
def fields? (line : List Char) : Option (String × String × String) := do
  let (keyword, rest) ← splitOnce ' ' line
  let (name, rest) ← splitOnce ' ' rest
  let (kind, raw) ← splitOnce ' ' rest
  if keyword = "Property".toList ∧ name ≠ [] then
    some (String.ofList name, String.ofList kind, String.ofList raw)
  else none

def decode (line : String) : Except PropertyError PropertyLine :=
  let line := dropEndWhile isLineEnd line.toList
  match fields? line with
  | none => .error (.malformedLine (String.ofList line))
  | some (name, kindName, raw) =>
    match Kind.ofName? kindName with
    | none => .error (.unknownKind kindName)
    | some kind => (Reading.decode kind raw).map fun reading => ⟨name, reading⟩

end PropertyLine

end ControlDeck
