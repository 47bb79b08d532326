import ControlDeck.Formula.Operator
import ControlDeck.Formula.Value

namespace ControlDeck

namespace Formula

/-- The functions of one operand. -/
inductive Function₁ where
  | abs | round | floor | ceiling | int | double | str
deriving DecidableEq, Repr

/-- The functions of two operands; `roundTo` is `round` with a number of places. -/
inductive Function₂ where
  | ifNull | roundTo | min | max | format
deriving DecidableEq, Repr

def Function₁.function : Function₁ → Function
  | abs => .abs
  | round => .round
  | floor => .floor
  | ceiling => .ceiling
  | int => .int
  | double => .double
  | str => .str

def Function₂.function : Function₂ → Function
  | ifNull => .ifNull
  | roundTo => .round
  | min => .min
  | max => .max
  | format => .format

end Formula

/-- A general expression. -/
inductive Formula where
  | literal (value : Value)
  | property (name : String)
  | unary (op : Formula.UnaryOp) (operand : Formula)
  | binary (op : Formula.BinaryOp) (left right : Formula)
  | call₁ (function : Formula.Function₁) (operand : Formula)
  | call₂ (function : Formula.Function₂) (left right : Formula)
  | choose (condition whenTrue whenFalse : Formula)
deriving DecidableEq

/-- The call of a function, if it takes that many arguments. -/
def Formula.Function.call? : Formula.Function → List Formula → Option Formula
  | .ifThenElse, [c, a, b] => some (.choose c a b)
  | .ifNull, [a, b] => some (.call₂ .ifNull a b)
  | .min, [a, b] => some (.call₂ .min a b)
  | .max, [a, b] => some (.call₂ .max a b)
  | .format, [a, b] => some (.call₂ .format a b)
  | .round, [a, b] => some (.call₂ .roundTo a b)
  | .round, [a] => some (.call₁ .round a)
  | .abs, [a] => some (.call₁ .abs a)
  | .floor, [a] => some (.call₁ .floor a)
  | .ceiling, [a] => some (.call₁ .ceiling a)
  | .int, [a] => some (.call₁ .int a)
  | .double, [a] => some (.call₁ .double a)
  | .str, [a] => some (.call₁ .str a)
  | _, _ => none

end ControlDeck
