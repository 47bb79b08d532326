import ControlDeck.Decimal.Shortest
import ControlDeck.Formula.Operator

namespace ControlDeck.Formula

inductive Token where
  | integer (n : Int)
  | decimal (x : Float)
  | text (s : String)
  | property (name : String)
  | word (name : String)
  | true
  | false
  | null
  | open
  | close
  | comma
  | not
  | op (op : BinaryOp)
deriving DecidableEq

def Token.describe : Token → String
  | integer n => "number " ++ n.repr
  | decimal x => "number " ++ Decimal.text x
  | text s => "string '" ++ s ++ "'"
  | property name => "property [" ++ name ++ "]"
  | word name => "identifier '" ++ name ++ "'"
  | true => "'true'"
  | false => "'false'"
  | null => "'null'"
  | .open => "'('"
  | close => "')'"
  | comma => "','"
  | not => "'!'"
  | op b => "'" ++ b.symbol ++ "'"

/-- A token and the number of characters before it. -/
structure Located where
  token : Token
  position : Nat
deriving DecidableEq

end ControlDeck.Formula
