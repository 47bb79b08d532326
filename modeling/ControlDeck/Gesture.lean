import ControlDeck.Decimal.Reader
import ControlDeck.Text.Blank
import ControlDeck.Text.Lowercase

namespace ControlDeck

/-- What is done to a control of the device. -/
inductive Motion where
  | down | up | dialDown | dialUp | tap
  /-- Negative ticks turn left. -/
  | rotate (ticks : Int)
deriving DecidableEq

/-- A motion on the control with the given context. -/
structure Gesture where
  context : String
  motion : Motion
deriving DecidableEq

namespace Gesture

open Text

/-- The words of a text, parted by white space. -/
def wordsOf : List Char → List (List Char)
  | [] => []
  | c :: rest =>
    if isBlank c then wordsOf rest
    else
      match rest with
      | [] => [[c]]
      | d :: _ =>
        if isBlank d then [c] :: wordsOf rest
        else
          match wordsOf rest with
          | [] => [[c]]
          | word :: words => (c :: word) :: words

/-- A gesture written `<verb> <context>`, or `rotate <context> <ticks>`. The verb is in any ASCII
case. -/
def ofText? (text : String) : Option Gesture :=
  let words := (wordsOf text.toList).map String.ofList
  match words with
  | [verb, context] =>
    match asciiLowercase verb with
    | "down" => some ⟨context, .down⟩
    | "up" => some ⟨context, .up⟩
    | "dialdown" => some ⟨context, .dialDown⟩
    | "dialup" => some ⟨context, .dialUp⟩
    | "tap" => some ⟨context, .tap⟩
    | _ => none
  | [verb, context, ticks] =>
    if asciiLowercase verb = "rotate" then
      (Decimal.readWord? 32 ticks.toList).map fun n => ⟨context, .rotate n⟩
    else none
  | _ => none

end Gesture

/-- Why the deck does not follow a gesture or a configuration. -/
inductive DeckError where
  | invalidGesture (text : String)
  | unknownContext (context : String)
  | duplicateContext (context : String)
deriving DecidableEq

def DeckError.message : DeckError → String
  | invalidGesture text => "Invalid hardware event '" ++ text ++ "'"
  | unknownContext context => "No action configured for context '" ++ context ++ "'"
  | duplicateContext context => "Duplicate action context '" ++ context ++ "'"

/-- The gesture of a line; the error shows the line without the white space around it. -/
def Gesture.read (line : String) : Except DeckError Gesture :=
  match ofText? line with
  | some g => .ok g
  | none => .error (.invalidGesture (Text.trimmed line))

end ControlDeck
