import ControlDeck.Expression.Error
import ControlDeck.Property.Value
import ControlDeck.Text.Blank

namespace ControlDeck

namespace Comparison

inductive Operator where
  | eq | ge | le | ne | between | gt | lt
deriving DecidableEq, Repr

def Operator.symbol : Operator → String
  | eq => "=="
  | ge => ">="
  | le => "<="
  | ne => "!="
  | between => "~~"
  | gt => ">"
  | lt => "<"

/-- The operators in the order in which they are looked for, so that no operator is taken for a
shorter one. -/
def Operator.all : List Operator :=
  [eq, ge, le, ne, between, gt, lt]

end Comparison

/-- A comparison of one property with fixed texts. -/
structure Comparison where
  property : String
  operator : Comparison.Operator
  bounds : List String
deriving DecidableEq

namespace Comparison

open Text

/-- The operator at the start of a text and what follows it. -/
def operatorAt? (s : List Char) : Option (Operator × List Char) :=
  Operator.all.findSome? fun op => (dropStart? op.symbol.toList s).map fun rest => (op, rest)

/-- A text parted at its first operator. -/
def split? : List Char → Option (List Char × Operator × List Char)
  | [] => none
  | c :: rest =>
    match operatorAt? (c :: rest) with
    | some (op, after) => some ([], op, after)
    | none => (split? rest).map fun (before, op, after) => (c :: before, op, after)

def boundsOf (op : Operator) (s : List Char) : List String :=
  match op with
  | .between => (splitAll ';' s).map fun bound => String.ofList (trim bound)
  | _ => [String.ofList s]

/-- A comparison written `<property> [<operator> <bounds>]`. A bare property is compared with zero,
and the two bounds of a range are parted by a semicolon. -/
def parse (text : String) : Except ExpressionError Comparison :=
  let (property, op, bounds) :=
    match split? text.toList with
    | some (before, op, after) => (trim before, op, boundsOf op (trim after))
    | none => (trim text.toList, .gt, ["0"])
  if property.isEmpty then .error (.missingProperty text)
  else .ok ⟨String.ofList property, op, bounds⟩

def display (c : Comparison) : String :=
  c.property ++ " " ++ c.operator.symbol ++ " " ++ String.intercalate ";" c.bounds

/-- Whether an order of the value to a bound satisfies an operator. -/
def Operator.holds : Operator → Ordering → Bool
  | eq, o => o == .eq
  | ne, o => o != .eq
  | gt, o => o == .gt
  | ge, o => o != .lt
  | lt, o => o == .lt
  | le, o => o != .gt
  | between, _ => false

/-- The order of a value to a bound, if there is one. -/
def holdsTo (op : Operator) (value bound : Datum) : Bool :=
  ((value.compare bound).map op.holds).getD false

/-- Whether the comparison holds. It does not where the property has no value, a bound is not of its
kind, a bound and the value have no order, or a range has not got two bounds. -/
def eval (read : Readings) (c : Comparison) : Bool :=
  match read c.property with
  | none => false
  | some current =>
    match current.datum, c.bounds.mapM current.coerce? with
    | some value, some bounds =>
      match c.operator, bounds with
      | .between, [low, high] => holdsTo .ge value low && holdsTo .le value high
      | .between, _ => false
      | op, bound :: _ => holdsTo op value bound
      | _, [] => false
    | _, _ => false

end Comparison

end ControlDeck
