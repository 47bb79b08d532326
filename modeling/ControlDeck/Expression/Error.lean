import ControlDeck.Formula.Token

namespace ControlDeck

/-- What could have stood where something else does. -/
inductive Expected where
  | value
  | token (t : Formula.Token)
  | commaOrClose
  | endOfExpression
deriving DecidableEq

def Expected.describe : Expected → String
  | value => "a value"
  | token t => t.describe
  | commaOrClose => "',' or ')'"
  | endOfExpression => "end of expression"

/-- Why a text is not an expression. -/
inductive ExpressionError where
  | missingProperty (text : String)
  | unexpectedChar (found : Char) (position : Nat)
  | unexpectedToken (found : Formula.Token) (expected : Expected) (position : Nat)
  | unexpectedEnd (expected : Expected)
  | unterminatedText (position : Nat)
  | unterminatedProperty (position : Nat)
  | unknownFunction (name : String)
  | argumentCount (function : Formula.Function) (got : Nat)
  | unknownWord (name : String)
  | invalidNumber (literal : String)
  | tooDeep (limit : Nat)
  | tooLong (limit : Nat)
deriving DecidableEq

def ExpressionError.message : ExpressionError → String
  | missingProperty text => "Missing property name in condition '" ++ text ++ "'"
  | unexpectedChar found position =>
    "Unexpected character '" ++ String.singleton found ++ "' at position " ++ position.repr
  | unexpectedToken found expected position =>
    "Unexpected " ++ found.describe ++ " at position " ++ position.repr ++ ", expected " ++
      expected.describe
  | unexpectedEnd expected => "Unexpected end of expression, expected " ++ expected.describe
  | unterminatedText position => "Unterminated string starting at position " ++ position.repr
  | unterminatedProperty position =>
    "Unterminated property reference starting at position " ++ position.repr
  | unknownFunction name => "Unknown function '" ++ name ++ "'"
  | argumentCount function got =>
    "Function '" ++ function.name ++ "' expects " ++ function.arityText ++ " arguments, got " ++
      got.repr
  | unknownWord name => "Unknown identifier '" ++ name ++ "'"
  | invalidNumber literal => "Invalid number '" ++ literal ++ "'"
  | tooDeep limit => "Expression nests deeper than " ++ limit.repr ++ " levels"
  | tooLong limit => "Expression has more than " ++ limit.repr ++ " tokens"

end ControlDeck
