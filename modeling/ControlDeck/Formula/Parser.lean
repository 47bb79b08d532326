import ControlDeck.Formula.Lexer
import ControlDeck.Formula.Tree

namespace ControlDeck

/-- The texts that words stand for, in the order of the dictionary. -/
abbrev Labels := List (String × String)

namespace Labels

/-- The text of a word: that of the very word, or else that of the first entry that differs from it
in ASCII case only. -/
def resolve? (labels : Labels) (word : String) : Option String :=
  match labels.lookup word with
  | some text => some text
  | none =>
    (labels.find? fun entry => Text.asciiLowercase entry.1 == Text.asciiLowercase word).map (·.2)

end Labels

namespace Formula

/-- How many parentheses, call arguments and unary operators may enclose a point. -/
def maxNesting : Nat := 64

def maxTokens : Nat := 1024

/-- Reads a formula at the start of a token list and leaves the rest. -/
abbrev Reader := List Located → Except ExpressionError (Formula × List Located)

/-- Reads formulas joined by the operators of one level, to the left of which `left` stands. The
first argument bounds their number. -/
def chainFrom (level : Nat) (next : Reader) :
    Nat → Formula → List Located → Except ExpressionError (Formula × List Located)
  | bound + 1, left, ⟨.op b, position⟩ :: rest =>
    if b.level = level then do
      let (right, rest) ← next rest
      chainFrom level next bound (.binary b left right) rest
    else .ok (left, ⟨.op b, position⟩ :: rest)
  | _, left, tokens => .ok (left, tokens)

def chain (level : Nat) (next : Reader) : Reader := fun tokens => do
  let (left, rest) ← next tokens
  chainFrom level next rest.length left rest

/-- Reads a formula of the first `levels` levels of binary operators. -/
def climb (operand : Reader) : Nat → Reader
  | 0 => operand
  | level + 1 => chain level (climb operand level)

def expression (operand : Reader) : Reader :=
  climb operand 6

/-- Takes the given token off the list. -/
def expect (token : Token) : List Located → Except ExpressionError (List Located)
  | [] => .error (.unexpectedEnd (.token token))
  | t :: rest =>
    if t.token = token then .ok rest
    else .error (.unexpectedToken t.token (.token token) t.position)

/-- Reads arguments parted by commas up to the closing parenthesis. The first argument bounds their
number. -/
def arguments (next : Reader) :
    Nat → List Located → Except ExpressionError (List Formula × List Located)
  | 0, tokens => .ok ([], tokens)
  | bound + 1, tokens => do
    let (first, rest) ← next tokens
    match rest with
    | [] => .error (.unexpectedEnd (.token .close))
    | ⟨.comma, _⟩ :: rest => do
      let (others, rest) ← arguments next bound rest
      return (first :: others, rest)
    | ⟨.close, _⟩ :: rest => .ok ([first], rest)
    | ⟨token, position⟩ :: _ => .error (.unexpectedToken token .commaOrClose position)

/-- Reads what follows the opening parenthesis of a call. -/
def callOf (next : Reader) (name : String) : Reader := fun tokens =>
  match Function.ofName? name with
  | none => .error (.unknownFunction name)
  | some f => do
    let (args, rest) ←
      match tokens with
      | ⟨.close, _⟩ :: rest => .ok ([], rest)
      | tokens => arguments next tokens.length.succ tokens
    match f.call? args with
    | some call => .ok (call, rest)
    | none => .error (.argumentCount f args.length)

def labelled (labels : Option Labels) (word : String) : Except ExpressionError Formula :=
  match labels.bind (·.resolve? word) with
  | some text => .ok (.literal (.text text))
  | none => .error (.unknownWord word)

/-- Reads an operand: unary operators and what they apply to. The two readers read what is nested
in it. -/
def operandWith (labels : Option Labels) (nestedOperand nestedExpression : Reader) : Reader
  | [] => .error (.unexpectedEnd .value)
  | ⟨token, position⟩ :: rest =>
    match token with
    | .not => (nestedOperand rest).map fun (a, rest) => (.unary .not a, rest)
    | .op .sub => (nestedOperand rest).map fun (a, rest) => (.unary .negate a, rest)
    | .integer n => .ok (.literal (.integer n), rest)
    | .decimal x => .ok (.literal (.double x), rest)
    | .text s => .ok (.literal (.text s), rest)
    | .true => .ok (.literal (.boolean true), rest)
    | .false => .ok (.literal (.boolean false), rest)
    | .null => .ok (.literal .null, rest)
    | .property name => .ok (.property name, rest)
    | .open => do
      let (inner, rest) ← nestedExpression rest
      let rest ← expect .close rest
      return (inner, rest)
    | .word name =>
      match rest with
      | ⟨.open, _⟩ :: rest => callOf nestedExpression name rest
      | rest => (labelled labels name).map fun a => (a, rest)
    | token => .error (.unexpectedToken token .value position)

/-- Reads an operand in which at most the given number of levels is nested. -/
def operand (labels : Option Labels) : Nat → Reader
  | 0 =>
    let tooDeep : Reader := fun _ => .error (.tooDeep maxNesting)
    operandWith labels tooDeep tooDeep
  | room + 1 => operandWith labels (operand labels room) (expression (operand labels room))

/-- The formula that a whole token list stands for. -/
def ofTokens (labels : Option Labels) (tokens : List Located) : Except ExpressionError Formula :=
  if maxTokens < tokens.length then .error (.tooLong maxTokens)
  else do
    let (formula, rest) ← expression (operand labels maxNesting) tokens
    match rest with
    | [] => .ok formula
    | ⟨token, position⟩ :: _ => .error (.unexpectedToken token .endOfExpression position)

/-- Adds a text to an ascending list of distinct texts. -/
def insertName (name : String) : List String → List String
  | [] => [name]
  | first :: rest =>
    if name < first then name :: first :: rest
    else if name = first then first :: rest
    else first :: insertName name rest

/-- The distinct names of the properties among some tokens, ascending. -/
def propertyNames : List Located → List String
  | [] => []
  | ⟨.property name, _⟩ :: rest => insertName name (propertyNames rest)
  | _ :: rest => propertyNames rest

/-- The formula of a text and the properties that it reads. -/
def parse (labels : Option Labels) (source : String) :
    Except ExpressionError (Formula × List String) := do
  let tokens ← tokenize source
  let formula ← ofTokens labels tokens
  return (formula, propertyNames tokens)

end Formula

end ControlDeck
