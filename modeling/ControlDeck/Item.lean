import ControlDeck.Expression.Slot

namespace ControlDeck

/-- What an item is configured to act on. -/
inductive TargetConfig where
  | keypress (hotkey : String)
  | trigger (name : String)
  | role (owner role : String)
deriving DecidableEq

structure ItemConfig where
  target : TargetConfig
  condition : String := ""
  long : Bool := false
deriving DecidableEq

/-- Names are taken without the white space around them and must not be blank. -/
def TargetConfig.target : TargetConfig → Except ItemError Target
  | keypress text =>
    match Hotkey.ofText? text with
    | some hotkey => .ok (.key hotkey)
    | none => .error (.invalidHotkey text)
  | trigger name =>
    let name := Text.trimmed name
    if name.isEmpty then .error (.missingField "trigger" "name")
    else .ok (.control (.trigger name))
  | role owner name =>
    let owner := Text.trimmed owner
    let name := Text.trimmed name
    if owner.isEmpty then .error (.missingField "role" "owner")
    else if name.isEmpty then .error (.missingField "role" "role")
    else .ok (.control (.role ⟨owner, name⟩))

/-- A target that a motion acts on while its condition is active. -/
structure Item where
  target : Target
  /-- Fires on long presses instead of short ones. -/
  long : Bool
  condition : Slot

namespace Item

/-- The item of a configuration. A condition that does not compile is left out, with a warning. -/
def build (labels : Option Labels) (config : ItemConfig) : Except ItemError (Item × List Warning) :=
  do
    let target ← config.target.target
    let (condition, warnings) := Slot.ofText labels config.condition
    let ignored :=
      match condition.lastError with
      | some e => [.conditionIgnored config.condition target e]
      | none => []
    return (⟨target, config.long, condition⟩, warnings ++ ignored)

end Item

end ControlDeck
