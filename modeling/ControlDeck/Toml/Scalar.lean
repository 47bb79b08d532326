import ControlDeck.Settings.Data
import ControlDeck.Text.Blank
import ControlDeck.Time.Calendar
import ControlDeck.Toml.Text

namespace ControlDeck.Toml

open Decimal Text

/-- Digits with single underscores between them, which are left out, and the rest. -/
def digits (isDigit : Char → Bool) : List Char → List Char × List Char
  | c :: d :: rest =>
    if isDigit c then
      let (more, rest) := digits isDigit (d :: rest)
      (c :: more, rest)
    else if c = '_' ∧ isDigit d then digits isDigit (d :: rest)
    else ([], c :: d :: rest)
  | [c] => if isDigit c then ([c], []) else ([], [c])
  | [] => ([], [])

def digits? (isDigit : Char → Bool) (s : List Char) : Option (List Char × List Char) :=
  if s.head?.any isDigit then some (digits isDigit s) else none

/-- A sign, kept where it is negative. -/
def sign : List Char → List Char × List Char
  | '-' :: rest => (['-'], rest)
  | '+' :: rest => ([], rest)
  | s => ([], s)

/-- Signed digits, of which a zero in front is the only one. -/
def decimal? (s : List Char) : Option (List Char × List Char) :=
  let (mark, rest) := sign s
  match rest with
  | '0' :: rest => some (mark ++ ['0'], rest)
  | rest => (digits? Char.isDigit rest).map fun (ds, rest) => (mark ++ ds, rest)

def based? (base : Nat) (s : List Char) : Option (Data × List Char) := do
  let (ds, rest) ← digits? (fun c => (hexValue? c).any (· < base)) s
  let n ← ds.foldlM (fun n c => (hexValue? c).map (base * n + ·)) 0
  if n < pow2 63 then some (.integer n, rest) else none

def integer? : List Char → Option (Data × List Char)
  | '0' :: 'x' :: rest => based? 16 rest
  | '0' :: 'o' :: rest => based? 8 rest
  | '0' :: 'b' :: rest => based? 2 rest
  | s => do
    let (ds, rest) ← decimal? s
    return (.integer (← readWord? 64 ds), rest)

def exponent? : List Char → Option (List Char × List Char)
  | c :: rest =>
    if c = 'e' ∨ c = 'E' then
      let (mark, rest) := sign rest
      (digits? Char.isDigit rest).map fun (ds, rest) => ('e' :: mark ++ ds, rest)
    else none
  | [] => none

/-- A number with a fraction, an exponent or both. -/
def pointed? (s : List Char) : Option (List Char × List Char) := do
  let (whole, rest) ← decimal? s
  match rest with
  | '.' :: rest => do
    let (fraction, rest) ← digits? Char.isDigit rest
    let (power, rest) := (exponent? rest).getD ([], rest)
    return (whole ++ '.' :: fraction ++ power, rest)
  | rest => do
    let (power, rest) ← exponent? rest
    return (whole ++ power, rest)

/-- A number that is not an integer. One that is too great is refused. -/
def float? (s : List Char) : Option (Data × List Char) :=
  match pointed? s with
  | some (number, rest) =>
    match readFloat? number with
    | some x => if x == infinity false then none else some (.decimal, rest)
    | none => none
  | none =>
    let (_, rest) := sign s
    (dropStart? "inf".toList rest <|> dropStart? "nan".toList rest).map fun rest => (.decimal, rest)

/-- A number of `width` digits between two bounds. -/
def field? (width low high : Nat) (s : List Char) : Option (Nat × List Char) :=
  let ds := s.take width
  if ds.length = width ∧ ds.all Char.isDigit ∧ low ≤ ofDigits ds ∧ ofDigits ds ≤ high then
    some (ofDigits ds, s.drop width)
  else none

def date? (s : List Char) : Option (List Char) := do
  let (year, rest) ← field? 4 0 9999 s
  let (month, rest) ← field? 2 1 12 (← dropStart? ['-'] rest)
  let (_, rest) ← field? 2 1 (Date.daysInMonth year month) (← dropStart? ['-'] rest)
  return rest

def time? (s : List Char) : Option (List Char) := do
  let (_, rest) ← field? 2 0 23 s
  let (_, rest) ← field? 2 0 59 (← dropStart? [':'] rest)
  let (_, rest) ← field? 2 0 60 (← dropStart? [':'] rest)
  match rest with
  | '.' :: fraction =>
    if fraction.head?.any Char.isDigit then return fraction.dropWhile Char.isDigit else return rest
  | rest => return rest

def offset? : List Char → Option (List Char)
  | c :: rest =>
    if c = 'Z' ∨ c = 'z' then some rest
    else if c = '+' ∨ c = '-' then do
      let (_, rest) ← field? 2 0 23 rest
      let (_, rest) ← field? 2 0 59 (← dropStart? [':'] rest)
      return rest
    else none
  | [] => none

/-- Skips a date, a time or both, the latter also with an offset. -/
def instant? (s : List Char) : Option (List Char) :=
  match date? s with
  | some rest =>
    let time :=
      match rest with
      | c :: more => if c = 'T' ∨ c = 't' ∨ c = ' ' then time? more else none
      | [] => none
    match time with
    | some rest => some ((offset? rest).getD rest)
    | none => some rest
  | none => time? s

/-- A value that holds no others. -/
def scalar? (s : List Char) : Option (Data × List Char) :=
  match s with
  | [] => none
  | c :: _ =>
    if c = '"' ∨ c = '\'' then (text? s).map fun (t, rest) => (.text t, rest)
    else if c = 't' then (dropStart? "true".toList s).map fun rest => (.boolean true, rest)
    else if c = 'f' then (dropStart? "false".toList s).map fun rest => (.boolean false, rest)
    else
      match instant? s with
      | some rest => some (.instant, rest)
      | none => float? s <|> integer? s

end ControlDeck.Toml
