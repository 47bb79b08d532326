import ControlDeck.Decimal.Power
import ControlDeck.Settings.Basic
import ControlDeck.Text.Utf8
import ControlDeck.Toml.Document

namespace ControlDeck

namespace Data

/-- The members of a record: by name in a table, or by position in a list that is not too long. A
date or a time counts as a table of other members. -/
def members? (names : List String) : Data → Option (String → Option Data)
  | .table entries => some fun name => entries.lookup name
  | .list elements surplus =>
    if elements.length ≤ names.length ∨ surplus then
      some fun name => (names.zip elements).lookup name
    else none
  | .instant => some fun _ => none
  | _ => none

def text? : Data → Option String
  | .text s => some s
  | _ => none

def boolean? : Data → Option Bool
  | .boolean b => some b
  | _ => none

/-- An integer from zero up to, but not including, `2 ^ bits`. -/
def word? (bits : Nat) : Data → Option Nat
  | .integer n => if 0 ≤ n ∧ n < Decimal.pow2 bits then some n.toNat else none
  | .natural n => if n < Decimal.pow2 bits then some n else none
  | _ => none

def list? {α : Type} (read : Data → Option α) : Data → Option (List α)
  | .list elements _ => elements.mapM read
  | _ => none

end Data

/-- A member that may be left out but must not be of a wrong kind. -/
def optional {α : Type} (read : Data → Option α) (default : α) : Option Data → Option α
  | none => some default
  | some d => read d

namespace ConnectionSettings

def ofData? (d : Data) : Option ConnectionSettings := do
  let names := ["host", "port", "banner_prefix", "reconnect_delay_ms", "connect_timeout_ms"]
  let get ← d.members? names
  let unset : ConnectionSettings := {}
  return {
    host := ← optional Data.text? unset.host (get "host")
    port := ← optional (Data.word? 16) unset.port (get "port")
    bannerStart := ← optional Data.text? unset.bannerStart (get "banner_prefix")
    reconnectDelayMs := ← optional (Data.word? 64) unset.reconnectDelayMs (get "reconnect_delay_ms")
    connectTimeoutMs :=
      ← optional (Data.word? 64) unset.connectTimeoutMs (get "connect_timeout_ms") }

end ConnectionSettings

namespace Timing

def ofData? (d : Data) : Option Timing := do
  let get ← d.members? ["dwell_ms", "long_press_ms", "short_press_pause_ms"]
  let unset : Timing := {}
  return {
    dwellMs := ← optional (Data.word? 64) unset.dwellMs (get "dwell_ms")
    longPressMs := ← optional (Data.word? 64) unset.longPressMs (get "long_press_ms")
    shortPressPauseMs :=
      ← optional (Data.word? 64) unset.shortPressPauseMs (get "short_press_pause_ms") }

end Timing

namespace ItemConfig

/-- The kind of an item, by its name or by its position among the kinds. -/
def kindName? : Data → Option String
  | .text s => some s
  | .natural n => ["keypress", "trigger", "role"][n]?
  | _ => none

def target? (entries : List (String × Data)) : Option TargetConfig := do
  let required (name : String) : Option String := do (← entries.lookup name).text?
  match ← (entries.lookup "type").bind kindName? with
  | "keypress" => return .keypress (← required "hotkey")
  | "trigger" => return .trigger (← required "name")
  | "role" => return .role (← required "owner") (← required "role")
  | _ => none

def ofData? : Data → Option ItemConfig
  | .table entries => do
    return {
      target := ← target? entries
      condition := ← optional Data.text? "" (entries.lookup "condition")
      long := ← optional Data.boolean? false (entries.lookup "long") }
  | _ => none

end ItemConfig

namespace ActionConfig

def labels? : Data → Option Labels
  | .table entries => entries.mapM fun (name, d) => d.text?.map fun s => (name, s)
  | _ => none

def ofData? (d : Data) : Option ActionConfig := do
  let names := ["context", "state", "title", "labels", "press", "dial_left", "dial_right",
    "touch_tap"]
  let get ← d.members? names
  let items (name : String) : Option (List ItemConfig) :=
    optional (Data.list? ItemConfig.ofData?) [] (get name)
  return {
    context := ← optional Data.text? "" (get "context")
    state := ← optional Data.text? "" (get "state")
    title := ← optional Data.text? "" (get "title")
    labels := ← optional labels? [] (get "labels")
    bindings := {
      press := ← items "press"
      dialLeft := ← items "dial_left"
      dialRight := ← items "dial_right"
      touchTap := ← items "touch_tap" } }

end ActionConfig

/-- Why settings cannot be loaded. -/
inductive SettingsError where
  | unreadable
  | malformed
deriving DecidableEq

/-- What is found where the settings should be. -/
inductive SettingsSource where
  | missing
  | unreadable
  | content (bytes : List UInt8)

namespace Settings

def ofData? (d : Data) : Option Settings := do
  let get ← d.members? ["connection", "timing", "action"]
  return {
    connection := ← optional ConnectionSettings.ofData? {} (get "connection")
    timing := ← optional Timing.ofData? {} (get "timing")
    actions := ← optional (Data.list? ActionConfig.ofData?) [] (get "action") }

def ofToml? (text : String) : Option Settings :=
  (Toml.read? text).bind ofData?

/-- The settings of a source and whether they are the defaults for want of one. -/
def load : SettingsSource → Except SettingsError (Settings × Bool)
  | .missing => .ok ({}, true)
  | .unreadable => .error .unreadable
  | .content bytes =>
    match Text.decodeUtf8 bytes with
    | .error _ => .error .unreadable
    | .ok text =>
      match ofToml? text with
      | some settings => .ok (settings, false)
      | none => .error .malformed

/-- The path below a directory. -/
def below (directory name : String) : String :=
  if directory.isEmpty then name
  else if directory.toList.getLast? = some '/' then directory ++ name
  else directory ++ "/" ++ name

/-- Where the settings are looked for: in the user's directory for settings, if that is given as an
absolute path, or else in the usual place below the home directory. -/
def defaultPath (home settingsHome : String) : String :=
  let directory :=
    if settingsHome.toList.head? = some '/' then settingsHome else below home ".config"
  below (below directory "simbridge") "config.toml"

end Settings

end ControlDeck
