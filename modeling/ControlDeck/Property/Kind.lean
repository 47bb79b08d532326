import ControlDeck.Text.Lowercase

namespace ControlDeck

/-- The declared kind of a property. -/
inductive Kind where
  | boolean | integer | long | double | timespan | datetime | string | object
deriving DecidableEq, Repr

namespace Kind

def name : Kind → String
  | boolean => "boolean"
  | integer => "integer"
  | long => "long"
  | double => "double"
  | timespan => "timespan"
  | datetime => "datetime"
  | string => "string"
  | object => "object"

def isNumeric : Kind → Bool
  | integer | long | double => true
  | _ => false

/-- Kinds are named in any ASCII case, two of them also by a shorter name. -/
def ofName? (s : String) : Option Kind :=
  match Text.asciiLowercase s with
  | "boolean" | "bool" => some boolean
  | "integer" | "int" => some integer
  | "long" => some long
  | "double" => some double
  | "timespan" => some timespan
  | "datetime" => some datetime
  | "string" => some string
  | "object" => some object
  | _ => none

end Kind

end ControlDeck
