import ControlDeck.Decimal.Shortest
import ControlDeck.Property.Value
import ControlDeck.Time.DatePattern

namespace ControlDeck

/-- What an expression evaluates to. -/
inductive Value where
  | null
  | boolean (b : Bool)
  | integer (n : Int)
  | double (x : Float)
  | text (s : String)
  | timespan (t : Span)
  | datetime (t : DateTime)
deriving DecidableEq

inductive ValueKind where
  | null | boolean | integer | double | text | timespan | datetime
deriving DecidableEq, Repr

def ValueKind.name : ValueKind → String
  | null => "null"
  | boolean => "boolean"
  | integer => "integer"
  | double => "double"
  | text => "string"
  | timespan => "timespan"
  | datetime => "datetime"

namespace Value

def kind : Value → ValueKind
  | null => .null
  | boolean _ => .boolean
  | integer _ => .integer
  | double _ => .double
  | text _ => .text
  | timespan _ => .timespan
  | datetime _ => .datetime

def ofDatum : Datum → Value
  | .boolean b => boolean b
  | .integer n | .long n => integer n
  | .double x => double x
  | .timespan t => timespan t
  | .datetime t => datetime t
  | .string s | .object s => text s

/-- A property without a value reads as null. -/
def ofReading : Option Reading → Value
  | some r => (r.datum.map ofDatum).getD null
  | none => null

/-- True and the numbers above zero are active. -/
def isActive : Value → Bool
  | boolean b => b
  | integer n => 0 < n
  | double x => 0 < x
  | _ => false

/-- The text that is shown for a value. -/
def display : Value → String
  | null => ""
  | boolean b => if b then "True" else "False"
  | integer n => n.repr
  | double x => Decimal.text x
  | text s => s
  | timespan t => (t.format? "hh:mm:ss").getD ""
  | datetime t => t.display

/-- A number as a double. -/
def toFloat? : Value → Option Float
  | integer n => some (Decimal.ofInt n)
  | double x => some x
  | _ => none

/-- Null counts as false and a number as whether it is not zero; other kinds have no truth. -/
def truth? : Value → Option Bool
  | null => some false
  | boolean b => some b
  | integer n => some (n ≠ 0)
  | double x => some (x != 0)
  | _ => none

end Value

end ControlDeck
