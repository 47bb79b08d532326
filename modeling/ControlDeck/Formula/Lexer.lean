import ControlDeck.Decimal.Reader
import ControlDeck.Expression.Error
import ControlDeck.Text.Blank
import ControlDeck.Text.Letter

namespace ControlDeck.Formula

open Decimal Text

/-- What an escaped character stands for. -/
def unescape : Char → Char
  | 'n' => '\n'
  | 't' => '\t'
  | c => c

/-- The content of a quoted text up to its closing quote, and the number of characters that takes
with the quote. -/
def scanQuoted (quote : Char) : List Char → Option (List Char × Nat)
  | [] => none
  | '\\' :: [] => none
  | '\\' :: c :: rest => (scanQuoted quote rest).map fun (s, n) => (unescape c :: s, n + 2)
  | c :: rest =>
    if c = quote then some ([], 1)
    else (scanQuoted quote rest).map fun (s, n) => (c :: s, n + 1)

def isWordStart (c : Char) : Bool :=
  isLetter c || c == '_'

def isWordPart (c : Char) : Bool :=
  isLetter c || isNumber c || c == '_' || c == '.'

/-- Digits, or digits on both sides of a point. -/
def scanNumber (s : List Char) : Except ExpressionError (Token × Nat) :=
  let whole := s.takeWhile Char.isDigit
  let fraction :=
    match s.dropWhile Char.isDigit with
    | '.' :: rest => rest.takeWhile Char.isDigit
    | _ => []
  if fraction.isEmpty then
    match readWord? 64 whole with
    | some n => .ok (.integer n, whole.length)
    | none => .error (.invalidNumber (String.ofList whole))
  else
    .ok (.decimal (ofScientific false (ofDigits (whole ++ fraction)) (-fraction.length)),
      whole.length + 1 + fraction.length)

/-- Keywords are recognised in any ASCII case. -/
def wordToken (word : String) : Token :=
  match asciiLowercase word with
  | "true" => .true
  | "false" => .false
  | "null" => .null
  | "and" => .op .and
  | "or" => .op .or
  | "not" => .not
  | _ => .word word

/-- The token that starts with the character `c` and the number of characters it has after that.
The source text and the position are for the errors. -/
def scanToken (source : String) (position : Nat) (c : Char) (rest : List Char) :
    Except ExpressionError (Token × Nat) :=
  let next := rest.head?
  match c with
  | '(' => .ok (.open, 0)
  | ')' => .ok (.close, 0)
  | ',' => .ok (.comma, 0)
  | '+' => .ok (.op .add, 0)
  | '-' => .ok (.op .sub, 0)
  | '*' => .ok (.op .mul, 0)
  | '/' => .ok (.op .div, 0)
  | '%' => .ok (.op .rem, 0)
  | '=' => .ok (.op .eq, if next = some '=' then 1 else 0)
  | '!' => if next = some '=' then .ok (.op .ne, 1) else .ok (.not, 0)
  | '<' =>
    if next = some '=' then .ok (.op .le, 1)
    else if next = some '>' then .ok (.op .ne, 1)
    else .ok (.op .lt, 0)
  | '>' => if next = some '=' then .ok (.op .ge, 1) else .ok (.op .gt, 0)
  | '[' =>
    match splitOnce ']' rest with
    | none => .error (.unterminatedProperty position)
    | some (inner, _) =>
      let name := trim inner
      if name.isEmpty then .error (.missingProperty source)
      else .ok (.property (String.ofList name), inner.length + 1)
  | c =>
    if c = '&' ∧ next = some '&' then .ok (.op .and, 1)
    else if c = '|' ∧ next = some '|' then .ok (.op .or, 1)
    else if c = '\'' ∨ c = '"' then
      match scanQuoted c rest with
      | none => .error (.unterminatedText position)
      | some (s, n) => .ok (.text (String.ofList s), n)
    else if c.isDigit then (scanNumber (c :: rest)).map fun (t, n) => (t, n - 1)
    else if isWordStart c then
      let tail := rest.takeWhile isWordPart
      .ok (wordToken (String.ofList (c :: tail)), tail.length)
    else .error (.unexpectedChar c position)

/-- The tokens of a text of which the first `position` characters are already read. -/
def tokensFrom (source : String) : Nat → List Char → Except ExpressionError (List Located)
  | _, [] => .ok []
  | position, c :: rest =>
    if isBlank c then tokensFrom source (position + 1) rest
    else do
      let (token, n) ← scanToken source position c rest
      let tokens ← tokensFrom source (position + 1 + n) (rest.drop n)
      return ⟨token, position⟩ :: tokens
termination_by _ s => s.length
decreasing_by all_goals grind

def tokenize (source : String) : Except ExpressionError (List Located) :=
  tokensFrom source 0 source.toList

end ControlDeck.Formula
