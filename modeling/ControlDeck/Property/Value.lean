import ControlDeck.Decimal.Reader
import ControlDeck.Property.Kind
import ControlDeck.Time.DateReader
import ControlDeck.Time.SpanText

namespace ControlDeck

/-- A value of a property that is not null. -/
inductive Datum where
  | boolean (b : Bool)
  | integer (n : Int)
  | long (n : Int)
  | double (x : Float)
  | timespan (t : Span)
  | datetime (t : DateTime)
  | string (s : String)
  | object (s : String)
deriving DecidableEq

inductive PropertyError where
  | malformedLine (line : String)
  | unknownKind (name : String)
  | invalidValue (kind : Kind) (text : String)
deriving DecidableEq

def PropertyError.message : PropertyError → String
  | malformedLine line => "Malformed property line: " ++ line
  | unknownKind name => "Unknown property type: " ++ name
  | invalidValue kind text => "Invalid " ++ kind.name ++ " value: " ++ text

/-- Numbers are ordered as doubles are: no number is neither before, equal to nor after anything. -/
def compareFloat (x y : Float) : Option Ordering :=
  if x < y then some .lt
  else if x == y then some .eq
  else if y < x then some .gt
  else none

namespace Datum

open Decimal Text

def kind : Datum → Kind
  | boolean _ => .boolean
  | integer _ => .integer
  | long _ => .long
  | double _ => .double
  | timespan _ => .timespan
  | datetime _ => .datetime
  | string _ => .string
  | object _ => .object

def readBoolean? (s : List Char) : Option Bool :=
  let word := s.map Char.toLower
  if word = "true".toList ∨ s = ['1'] then some true
  else if word = "false".toList ∨ s = ['0'] then some false
  else none

/-- A text as a value of the given kind. White space around it counts in texts only. -/
def ofText? (kind : Kind) (text : String) : Option Datum :=
  let s := trim text.toList
  match kind with
  | .boolean => (readBoolean? s).map boolean
  | .integer => (readWord? 32 s).map integer
  | .long => (readWord? 64 s).map long
  | .double => (readFloat? s).map double
  | .timespan => (Span.read? s).map timespan
  | .datetime => (DateTime.read? s).map datetime
  | .string => some (string text)
  | .object => some (object text)

/-- The order of two values of one kind. -/
def compare : Datum → Datum → Option Ordering
  | boolean a, boolean b => some (Ord.compare a b)
  | integer a, integer b => some (Ord.compare a b)
  | long a, long b => some (Ord.compare a b)
  | double a, double b => compareFloat a b
  | timespan a, timespan b => some (a.compare b)
  | datetime a, datetime b => some (a.compare b)
  | string a, string b => some (Ord.compare a b)
  | object a, object b => some (Ord.compare a b)
  | _, _ => none

end Datum

/-- A value as last received: its declared kind, what the text stands for and the text itself. -/
structure Reading where
  kind : Kind
  datum : Option Datum
  raw : String
deriving DecidableEq

namespace Reading

def nullText : String := "(null)"

def decode (kind : Kind) (raw : String) : Except PropertyError Reading :=
  if Text.trimmed raw = nullText then .ok ⟨kind, none, raw⟩
  else
    match Datum.ofText? kind raw with
    | some datum => .ok ⟨kind, some datum, raw⟩
    | none => .error (.invalidValue kind raw)

/-- A text as a value of the kind of this reading. -/
def coerce? (r : Reading) (text : String) : Option Datum :=
  Datum.ofText? r.kind text

end Reading

/-- What a name currently reads, if anything. -/
abbrev Readings := String → Option Reading

end ControlDeck
