import ControlDeck.Decimal.Positional
import ControlDeck.Text.Blank
import ControlDeck.Time.Calendar

namespace ControlDeck.DatePattern

open Decimal Text

/-- How a number is brought to its width. -/
inductive Padding where
  | none | zero | space
deriving DecidableEq

inductive Field where
  | year | century | yearOfCentury | isoYear | isoYearOfCentury | quarter | month | day | ordinal
  | weekFromSunday | weekFromMonday | isoWeek | daysFromSunday | weekdayNumber
  | hour | hour12 | minute | second | nanos | timestamp
deriving DecidableEq

inductive Name where
  | weekday | shortWeekday | month | shortMonth | halfDay | upperHalfDay
deriving DecidableEq

inductive Item where
  | text (s : String)
  | number (field : Field) (padding : Padding)
  | name (name : Name)
  /-- The fraction of the second after a point, in as many groups of three digits as it needs. -/
  | fraction
  /-- The first `digits` digits of the fraction, after a point if `pointed`. -/
  | digits (digits : Nat) (pointed : Bool)
  /-- The zone, which a time of day without one does not have. -/
  | zone
deriving DecidableEq

def zeroed (f : Field) : Item := .number f .zero

def clock : List Item :=
  [zeroed .hour, .text ":", zeroed .minute, .text ":", zeroed .second]

def slashedDate : List Item :=
  [zeroed .month, .text "/", zeroed .day, .text "/", zeroed .yearOfCentury]

/-- What a conversion letter stands for. -/
def letter? : Char → Option (List Item)
  | 'A' => some [.name .weekday]
  | 'a' => some [.name .shortWeekday]
  | 'B' => some [.name .month]
  | 'b' | 'h' => some [.name .shortMonth]
  | 'C' => some [zeroed .century]
  | 'c' => some ([.name .shortWeekday, .text " ", .name .shortMonth, .text " ",
      .number .day .space, .text " "] ++ clock ++ [.text " ", zeroed .year])
  | 'D' | 'x' => some slashedDate
  | 'd' => some [zeroed .day]
  | 'e' => some [.number .day .space]
  | 'F' => some [zeroed .year, .text "-", zeroed .month, .text "-", zeroed .day]
  | 'f' => some [zeroed .nanos]
  | 'G' => some [zeroed .isoYear]
  | 'g' => some [zeroed .isoYearOfCentury]
  | 'H' => some [zeroed .hour]
  | 'I' => some [zeroed .hour12]
  | 'j' => some [zeroed .ordinal]
  | 'k' => some [.number .hour .space]
  | 'l' => some [.number .hour12 .space]
  | 'M' => some [zeroed .minute]
  | 'm' => some [zeroed .month]
  | 'n' => some [.text "\n"]
  | 'P' => some [.name .halfDay]
  | 'p' => some [.name .upperHalfDay]
  | 'q' => some [.number .quarter .none]
  | 'R' => some [zeroed .hour, .text ":", zeroed .minute]
  | 'r' => some [zeroed .hour12, .text ":", zeroed .minute, .text ":", zeroed .second, .text " ",
      .name .upperHalfDay]
  | 'S' => some [zeroed .second]
  | 's' => some [.number .timestamp .none]
  | 'T' | 'X' => some clock
  | 't' => some [.text "\t"]
  | 'U' => some [zeroed .weekFromSunday]
  | 'u' => some [.number .weekdayNumber .none]
  | 'V' => some [zeroed .isoWeek]
  | 'v' => some [.number .day .space, .text "-", .name .shortMonth, .text "-", zeroed .year]
  | 'W' => some [zeroed .weekFromMonday]
  | 'w' => some [.number .daysFromSunday .none]
  | 'Y' => some [zeroed .year]
  | 'y' => some [zeroed .yearOfCentury]
  | 'Z' | 'z' | '+' => some [.zone]
  | '%' => some [.text "%"]
  | _ => none

def padding? : Char → Option Padding
  | '-' => some .none
  | '0' => some .zero
  | '_' => some .space
  | _ => none

def groupDigits? : Char → Option Nat
  | '3' => some 3
  | '6' => some 6
  | '9' => some 9
  | _ => none

/-- The items of the conversion that follows a percent sign and the number of its characters. A
padding may stand before a single number only. -/
def conversion? : List Char → Option (List Item × Nat)
  | [] => none
  | '#' :: rest => if rest.head? = some 'z' then some ([.zone], 2) else none
  | ':' :: rest =>
    if rest.take 1 = ['z'] then some ([.zone], 2)
    else if rest.take 2 = [':', 'z'] then some ([.zone], 3)
    else if rest.take 3 = [':', ':', 'z'] then some ([.zone], 4)
    else none
  | '.' :: rest =>
    if rest.head? = some 'f' then some ([.fraction], 2)
    else if rest[1]? = some 'f' then
      (rest.head?.bind groupDigits?).map fun n => ([.digits n true], 3)
    else none
  | c :: rest =>
    match padding? c, groupDigits? c with
    | some padding, _ =>
      match rest.head?.bind letter? with
      | some [.number field _] => some ([.number field padding], 2)
      | _ => none
    | none, some n => if rest.head? = some 'f' then some ([.digits n false], 2) else none
    | none, none => (letter? c).map fun items => (items, 1)

/-- The items of a pattern, if all its conversions are known. -/
def items? : List Char → Option (List Item)
  | [] => some []
  | '%' :: rest =>
    match conversion? rest with
    | some (items, n) => (items? (rest.drop n)).map (items ++ ·)
    | none => none
  | c :: rest => (items? rest).map (.text (String.singleton c) :: ·)
termination_by s => s.length
decreasing_by all_goals grind

/-- A text brought to a width by blanks on its left. -/
def blankPadded (width : Nat) (s : String) : String :=
  "".pushn ' ' (width - s.length) ++ s

/-- A number with the sign before the padding zeros, but after padding blanks. -/
def wide (width : Nat) (padding : Padding) (signed : Bool) (n : Int) : String :=
  let sign := if n < 0 then "-" else if signed then "+" else ""
  match padding with
  | .none => sign ++ n.natAbs.repr
  | .zero => sign ++ padded (width - sign.length) n.natAbs
  | .space => blankPadded width (sign ++ n.natAbs.repr)

/-- Two digits. The tens are one character also where they exceed nine, and the number is taken
modulo 256. -/
def pair (padding : Padding) (n : Int) : String :=
  let n := (n % 256).toNat
  let ones := String.singleton (Char.ofNat ('0'.toNat + n % 10))
  if n / 10 = 0 ∧ padding = .none then ones
  else if n / 10 = 0 ∧ padding = .space then " " ++ ones
  else String.singleton (Char.ofNat ('0'.toNat + n / 10)) ++ ones

/-- Four digits; a sign and a fifth place where those do not hold the year. -/
def yearText (padding : Padding) (year : Int) : String :=
  if 0 ≤ year ∧ year < 10000 then wide 4 padding false year else wide 5 padding true year

def hourOf (t : DateTime) : Nat := t.second / 3600

def hour12Of (t : DateTime) : Nat :=
  if hourOf t % 12 = 0 then 12 else hourOf t % 12

def fieldText (t : DateTime) (padding : Padding) : Field → String
  | .year => yearText padding t.date.year
  | .century => pair padding (t.date.year / 100)
  | .yearOfCentury => pair padding (t.date.year % 100)
  | .isoYear => yearText padding t.date.isoWeek.1
  | .isoYearOfCentury => pair padding (t.date.isoWeek.1 % 100)
  | .quarter => ((t.date.month + 2) / 3).repr
  | .month => pair padding t.date.month
  | .day => pair padding t.date.day
  | .ordinal => wide 3 padding false t.date.ordinal
  | .weekFromSunday => pair padding (t.date.weekFrom 6)
  | .weekFromMonday => pair padding (t.date.weekFrom 0)
  | .isoWeek => pair padding t.date.isoWeek.2
  | .daysFromSunday => ((t.date.weekday + 1) % 7).repr
  | .weekdayNumber => (t.date.weekday + 1).repr
  | .hour => pair padding (hourOf t)
  | .hour12 => pair padding (hour12Of t)
  | .minute => pair padding (t.second / 60 % 60)
  | .second => pair padding (t.second % 60 + t.nanos / Span.second)
  | .nanos => wide 9 padding false (t.nanos % Span.second)
  | .timestamp => wide 9 padding false (t.date.toEpochDay * 86400 + t.second)

def weekdays : List String :=
  ["Monday", "Tuesday", "Wednesday", "Thursday", "Friday", "Saturday", "Sunday"]

def months : List String :=
  ["January", "February", "March", "April", "May", "June", "July", "August", "September",
    "October", "November", "December"]

def short (s : String) : String :=
  String.ofList (s.toList.take 3)

def nameText (t : DateTime) : Name → String
  | .weekday => weekdays.getD t.date.weekday ""
  | .shortWeekday => short (weekdays.getD t.date.weekday "")
  | .month => months.getD (t.date.month - 1) ""
  | .shortMonth => short (months.getD (t.date.month - 1) "")
  | .halfDay => if hourOf t < 12 then "am" else "pm"
  | .upperHalfDay => if hourOf t < 12 then "AM" else "PM"

def fractionText (nanos : Nat) : String :=
  if nanos = 0 then ""
  else if nanos % pow10 6 = 0 then "." ++ padded 3 (nanos / pow10 6)
  else if nanos % pow10 3 = 0 then "." ++ padded 6 (nanos / pow10 3)
  else "." ++ padded 9 nanos

def itemText? (t : DateTime) : Item → Option String
  | .text s => some s
  | .number field padding => some (fieldText t padding field)
  | .name name => some (nameText t name)
  | .fraction => some (fractionText (t.nanos % Span.second))
  | .digits n pointed =>
    some ((if pointed then "." else "") ++ padded n (t.nanos % Span.second / pow10 (9 - n)))
  | .zone => none

/-- The text of a time by the items of a pattern, or nothing if they ask for its zone. -/
def render? (t : DateTime) (items : List Item) : Option String :=
  (items.mapM (itemText? t)).map String.join

end ControlDeck.DatePattern

namespace ControlDeck.DateTime

/-- `YYYY-MM-DD hh:mm:ss`. -/
def display (t : DateTime) : String :=
  (DatePattern.render? t
    ([DatePattern.zeroed .year, .text "-", DatePattern.zeroed .month, .text "-",
      DatePattern.zeroed .day, .text " "] ++ DatePattern.clock)).getD ""

end ControlDeck.DateTime
