import ControlDeck.Comparison
import ControlDeck.Formula.Eval
import ControlDeck.Formula.Parser

namespace ControlDeck

/-- A condition or a display text in one of its forms. -/
inductive Expression where
  /-- Nothing is written: always active, and shows nothing. -/
  | empty
  | comparison (c : Comparison)
  | formula (f : Formula)
deriving DecidableEq

namespace Expression

/-- The value of an expression. -/
def eval (read : Readings) (format : Formatter) : Expression → Except EvalError Value
  | empty => .ok (.boolean true)
  | comparison c => .ok (.boolean (c.eval read))
  | formula f => f.eval read format

end Expression

/-- An expression and the names of the properties it reads, ascending. -/
structure Compiled where
  expression : Expression
  used : List String
deriving DecidableEq

namespace Compiled

def empty : Compiled := ⟨.empty, []⟩

def isEmpty (c : Compiled) : Bool :=
  c.expression = .empty

/-- Text with an opening bracket is a formula, blank text is the empty expression, and any other
text a comparison. -/
def ofText (labels : Option Labels) (text : String) : Except ExpressionError Compiled :=
  let trimmed := Text.trim text.toList
  if trimmed.isEmpty then .ok empty
  else if trimmed.contains '[' then do
    let (formula, used) ← Formula.parse labels (String.ofList trimmed)
    return ⟨.formula formula, used⟩
  else do
    let comparison ← Comparison.parse (String.ofList trimmed)
    return ⟨.comparison comparison, [comparison.property]⟩

end Compiled

end ControlDeck
