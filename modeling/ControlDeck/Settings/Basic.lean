import ControlDeck.Formula.Parser
import ControlDeck.Item
import ControlDeck.Settings.Data

namespace ControlDeck

/-- How the property server is reached. -/
structure ConnectionSettings where
  host : String := "127.0.0.1"
  port : Nat := 18082
  /-- What the server's first line must start with. -/
  bannerStart : String := "SimHub Property Server"
  reconnectDelayMs : Nat := 5000
  connectTimeoutMs : Nat := 3000

/-- How long presses last. -/
structure Timing where
  /-- How long each queued press is held. -/
  dwellMs : Nat := 40
  /-- After how long a press counts as long; at zero no press does. -/
  longPressMs : Nat := 500
  /-- How long a short press or a tap is held. -/
  shortPressPauseMs : Nat := 40

/-- The items of one action, by the motion that they follow. -/
structure BindingConfig where
  press : List ItemConfig := []
  dialLeft : List ItemConfig := []
  dialRight : List ItemConfig := []
  touchTap : List ItemConfig := []

/-- One control of the device: what it shows and what it does. -/
structure ActionConfig where
  context : String := ""
  /-- The condition for showing the control as on. -/
  state : String := ""
  /-- The expression whose text is shown. -/
  title : String := ""
  labels : Labels := []
  bindings : BindingConfig := {}

structure Settings where
  connection : ConnectionSettings := {}
  timing : Timing := {}
  actions : List ActionConfig := []

end ControlDeck
