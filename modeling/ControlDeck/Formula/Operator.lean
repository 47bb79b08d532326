import ControlDeck.Text.Lowercase

namespace ControlDeck.Formula

inductive UnaryOp where
  | not | negate
deriving DecidableEq, Repr

def UnaryOp.symbol : UnaryOp → String
  | not => "!"
  | negate => "-"

inductive BinaryOp where
  | or | and | eq | ne | lt | le | gt | ge | add | sub | mul | div | rem
deriving DecidableEq, Repr

namespace BinaryOp

def symbol : BinaryOp → String
  | or => "||"
  | and => "&&"
  | eq => "=="
  | ne => "!="
  | lt => "<"
  | le => "<="
  | gt => ">"
  | ge => ">="
  | add => "+"
  | sub => "-"
  | mul => "*"
  | div => "/"
  | rem => "%"

/-- How loosely an operator binds; the levels run from 0 to 5. -/
def level : BinaryOp → Nat
  | mul | div | rem => 0
  | add | sub => 1
  | lt | le | gt | ge => 2
  | eq | ne => 3
  | and => 4
  | or => 5

end BinaryOp

/-- A builtin function. -/
inductive Function where
  | ifThenElse | ifNull | abs | round | floor | ceiling | min | max | int | double | str | format
deriving DecidableEq, Repr

namespace Function

def name : Function → String
  | ifThenElse => "if"
  | ifNull => "isnull"
  | abs => "abs"
  | round => "round"
  | floor => "floor"
  | ceiling => "ceiling"
  | min => "min"
  | max => "max"
  | int => "int"
  | double => "double"
  | str => "str"
  | format => "format"

def all : List Function :=
  [ifThenElse, ifNull, abs, round, floor, ceiling, min, max, int, double, str, format]

/-- The least and the greatest number of arguments. -/
def arity : Function → Nat × Nat
  | ifThenElse => (3, 3)
  | ifNull | min | max | format => (2, 2)
  | round => (1, 2)
  | abs | floor | ceiling | int | double | str => (1, 1)

def arityText (f : Function) : String :=
  let (least, greatest) := f.arity
  if least = greatest then least.repr else least.repr ++ "-" ++ greatest.repr

/-- Functions are named in any ASCII case. -/
def ofName? (name : String) : Option Function :=
  all.find? fun f => f.name == Text.asciiLowercase name

end Function

end ControlDeck.Formula
