import ControlDeck.Expression
import ControlDeck.Warning

namespace ControlDeck

/-- The place of one expression: the text written last and the expression in effect, which is that
of the last text that compiled. -/
structure Slot where
  source : String := ""
  compiled : Compiled := .empty
  lastError : Option ExpressionError := none
  /-- Whether a failed evaluation of the expression in effect has been reported. -/
  reported : Bool := false
  format : Formatter := Formatter.standard

namespace Slot

/-- Takes a new text. One that does not compile leaves the expression in effect as it is. -/
def update (labels : Option Labels) (text : String) (s : Slot) : Slot × List Warning :=
  match Compiled.ofText labels text with
  | .ok compiled =>
    ({ s with source := text, compiled, lastError := none, reported := false }, [])
  | .error e => ({ s with source := text, lastError := some e }, [.keptExpression text e])

def ofText (labels : Option Labels) (text : String) : Slot × List Warning :=
  update labels text {}

/-- The value of the expression in effect. Only the first failure is reported. An evaluation that
breaks off is no failure and leaves the slot as it is, and what is returned then reaches nobody. -/
def eval (read : Readings) (s : Slot) : Option Value × Slot × List Warning :=
  match s.compiled.expression.eval read s.format with
  | .ok v => (some v, s, [])
  | .error (.unwritable pattern) => (none, s, [.evaluationBroken s.source pattern])
  | .error e =>
    (none, { s with reported := true }, if s.reported then [] else [.evaluationFailed s.source e])

/-- Whether the value is active; an empty expression always is. -/
def isActive (read : Readings) (s : Slot) : Bool × Slot × List Warning :=
  if s.compiled.isEmpty then (true, s, [])
  else
    let (value, s, warnings) := s.eval read
    (value.elim false Value.isActive, s, warnings)

/-- The text that is shown for the value; none for an empty expression. -/
def display (read : Readings) (s : Slot) : String × Slot × List Warning :=
  if s.compiled.isEmpty then ("", s, [])
  else
    let (value, s, warnings) := s.eval read
    (value.elim "" Value.display, s, warnings)

end Slot

end ControlDeck
