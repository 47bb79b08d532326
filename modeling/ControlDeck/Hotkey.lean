import ControlDeck.Text.Blank
import ControlDeck.Text.Lowercase

namespace ControlDeck

inductive Modifier where
  | ctrl | alt | shift | win
deriving DecidableEq, Repr

def Modifier.name : Modifier → String
  | ctrl => "Ctrl"
  | alt => "Alt"
  | shift => "Shift"
  | win => "Win"

/-- Modifiers are named in any ASCII case, some of them by more than one name. -/
def Modifier.ofName? (s : String) : Option Modifier :=
  match Text.asciiLowercase s with
  | "ctrl" | "control" => some ctrl
  | "alt" => some alt
  | "shift" => some shift
  | "win" | "meta" | "super" => some win
  | _ => none

/-- A key with the modifiers that are held with it. -/
structure Hotkey where
  modifiers : List Modifier
  key : String
deriving DecidableEq

namespace Hotkey

/-- A hotkey written with plus signs between its parts, the key last. -/
def ofText? (text : String) : Option Hotkey := do
  let parts := (Text.splitAll '+' text.toList).map fun part => String.ofList (Text.trim part)
  let key ← parts.getLast?
  if key.isEmpty then none
  else return ⟨← parts.dropLast.mapM Modifier.ofName?, key⟩

def display (h : Hotkey) : String :=
  String.join (h.modifiers.map fun m => m.name ++ "+") ++ h.key

end Hotkey

end ControlDeck
