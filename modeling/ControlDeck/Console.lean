import ControlDeck.Text.Lines
import ControlDeck.Warning

namespace ControlDeck.Console

open Text

/-- What comes of a line: nothing where it is blank. -/
def readLine (line : String) : List Gesture × List Warning :=
  let line := String.ofList (chomp line.toList)
  if (trim line.toList).isEmpty then ([], [])
  else
    match Gesture.read line with
    | .ok g => ([g], [])
    | .error e => ([], [.deck e])

/-- The gestures of a list of lines, up to the first that is not text. -/
def readLines : List (List UInt8) → List Gesture × List Warning
  | [] => ([], [])
  | line :: lines =>
    match decodeUtf8 line with
    | .error fault => ([], [.unreadableInput fault])
    | .ok line =>
      let (gestures, warnings) := readLine line
      let (others, more) := readLines lines
      (gestures ++ others, warnings ++ more)

/-- The gestures of an input, one a line. -/
def read (input : List UInt8) : List Gesture × List Warning :=
  readLines (rawLines 10 input)

end ControlDeck.Console
