import ControlDeck.Decimal.Reader

namespace ControlDeck.Toml

open Decimal

def isSpace (c : Char) : Bool :=
  c == ' ' || c == '\t'

/-- Any character but the controls; the tab is none of them. -/
def isPlain (c : Char) : Bool :=
  c == '\t' || (0x20 ≤ c.toNat && c.toNat ≠ 0x7F)

def skipSpace (s : List Char) : List Char :=
  s.dropWhile isSpace

/-- What follows the line break at the start of a text. -/
def newline? : List Char → Option (List Char)
  | '\n' :: rest => some rest
  | '\r' :: '\n' :: rest => some rest
  | _ => none

/-- Skips a comment, but not the end of its line. -/
def skipComment : List Char → List Char
  | '#' :: rest => rest.dropWhile isPlain
  | s => s

/-- Skips spaces and a comment and then the end of the line. -/
def lineEnd? (s : List Char) : Option (List Char) :=
  match skipComment (skipSpace s) with
  | [] => some []
  | s => newline? s

/-- Skips spaces and line breaks. -/
def skipBlank : List Char → List Char
  | '\r' :: '\n' :: rest => skipBlank rest
  | c :: rest => if isSpace c || c == '\n' then skipBlank rest else c :: rest
  | [] => []

theorem skipBlank_length (s : List Char) : (skipBlank s).length ≤ s.length := by
  fun_induction skipBlank s <;> grind

/-- The digits that a character code is written in, the value of each below 16. -/
def hexValue? (c : Char) : Option Nat :=
  if c.isDigit then some (c.toNat - '0'.toNat)
  else
    let lower := c.toLower
    if 'a' ≤ lower ∧ lower ≤ 'f' then some (lower.toNat - 'a'.toNat + 10) else none

def hexNumber? (digits : List Char) : Option Nat :=
  digits.foldlM (fun n c => (hexValue? c).map (16 * n + ·)) 0

/-- The character of a code in `width` digits. -/
def codePoint? (width : Nat) (s : List Char) : Option Char := do
  let digits := s.take width
  let n ← if digits.length = width then hexNumber? digits else none
  if n.isValidChar then some (Char.ofNat n) else none

/-- The character that an escape stands for, and the number of characters after the backslash. -/
def escape? : List Char → Option (Char × Nat)
  | 'b' :: _ => some ('\x08', 1)
  | 't' :: _ => some ('\t', 1)
  | 'n' :: _ => some ('\n', 1)
  | 'f' :: _ => some ('\x0c', 1)
  | 'r' :: _ => some ('\r', 1)
  | '"' :: _ => some ('"', 1)
  | '\\' :: _ => some ('\\', 1)
  | 'u' :: rest => (codePoint? 4 rest).map fun c => (c, 5)
  | 'U' :: rest => (codePoint? 8 rest).map fun c => (c, 9)
  | _ => none

/-- The rest of a text in double quotes. -/
def basic? : List Char → Option (List Char × List Char)
  | [] => none
  | '"' :: rest => some ([], rest)
  | '\\' :: rest =>
    match escape? rest with
    | some (c, n) => (basic? (rest.drop n)).map fun (s, rest) => (c :: s, rest)
    | none => none
  | c :: rest =>
    if isPlain c then (basic? rest).map fun (s, rest) => (c :: s, rest) else none
termination_by s => s.length
decreasing_by all_goals grind

/-- The rest of a text in single quotes. -/
def literal? (s : List Char) : Option (List Char × List Char) :=
  let content := s.takeWhile (· != '\'')
  match s.dropWhile (· != '\'') with
  | _ :: rest => if content.all isPlain then some (content, rest) else none
  | [] => none

/-- The closing quotes of a text over several lines, after which it goes on with `rest`. Up to two
quotes before the closing three belong to the text. -/
def closing? (quote : Char) (s : List Char) : Option (List Char × List Char) :=
  let run := (s.takeWhile (· == quote)).length
  if 3 ≤ run ∧ run ≤ 5 then some (List.replicate (run - 3) quote, s.drop run) else none

/-- The rest of a text over several lines, its quotes double if it has escapes and single if
not. -/
def multiline? (escapes : Bool) : List Char → Option (List Char × List Char)
  | [] => none
  | '\r' :: '\n' :: rest => (multiline? escapes rest).map fun (s, rest) => ('\n' :: s, rest)
  | c :: rest =>
    let quote := if escapes then '"' else '\''
    if c = quote then
      match closing? quote (c :: rest) with
      | some closed => some closed
      | none =>
        if rest.take 2 = [quote, quote] then none
        else (multiline? escapes rest).map fun (s, rest) => (c :: s, rest)
    else if escapes ∧ c = '\\' then
      match newline? (skipSpace rest) with
      | some _ => multiline? escapes (skipBlank rest)
      | none =>
        match escape? rest with
        | some (c, n) => (multiline? escapes (rest.drop n)).map fun (s, rest) => (c :: s, rest)
        | none => none
    else if isPlain c ∨ c = '\n' then
      (multiline? escapes rest).map fun (s, rest) => (c :: s, rest)
    else none
termination_by s => s.length
decreasing_by all_goals grind [skipBlank_length]

/-- A line break right after the opening quotes does not belong to the text. -/
def afterOpening (s : List Char) : List Char :=
  (newline? s).getD s

def text? : List Char → Option (String × List Char)
  | '"' :: '"' :: '"' :: rest => pack (multiline? true (afterOpening rest))
  | '\'' :: '\'' :: '\'' :: rest => pack (multiline? false (afterOpening rest))
  | '"' :: rest => pack (basic? rest)
  | '\'' :: rest => pack (literal? rest)
  | _ => none
where
  pack (read : Option (List Char × List Char)) : Option (String × List Char) :=
    read.map fun (s, rest) => (String.ofList s, rest)

def isBare (c : Char) : Bool :=
  c.isAlphanum || c == '_' || c == '-'

def simpleKey? : List Char → Option (String × List Char)
  | '"' :: rest => (basic? rest).map fun (s, rest) => (String.ofList s, rest)
  | '\'' :: rest => (literal? rest).map fun (s, rest) => (String.ofList s, rest)
  | s =>
    let key := s.takeWhile isBare
    if key.isEmpty then none else some (String.ofList key, s.dropWhile isBare)

/-- Keys joined by points, with spaces around each, at most `bound` of them. -/
def key? : Nat → List Char → Option (List String × List Char)
  | 0, _ => none
  | bound + 1, s => do
    let (first, rest) ← simpleKey? (skipSpace s)
    match skipSpace rest with
    | '.' :: rest => do
      let (others, rest) ← key? bound rest
      return (first :: others, rest)
    | rest => return ([first], rest)

end ControlDeck.Toml
