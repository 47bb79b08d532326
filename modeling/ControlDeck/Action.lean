import ControlDeck.Actuator
import ControlDeck.Link

namespace ControlDeck

/-- What a control of the device shows. -/
structure Display where
  context : String
  isOn : Bool
  title : String
deriving DecidableEq

inductive DeckEvent where
  | display (display : Display)
  | keyDown (hotkey : Hotkey)
  | keyUp (hotkey : Hotkey)
  | link (event : LinkEvent)
  | warn (w : Warning)
deriving DecidableEq

/-- One control of the device at work. -/
structure Action where
  context : String
  labels : Labels
  /-- What the announcements for this action are addressed to. -/
  receiver : Nat
  /-- The keys of the properties that are followed, in order. -/
  watched : List String := []
  state : Slot
  title : Slot
  rig : Rig
  press : Option Session := none
  dialPress : Option Session := none
  /-- What the device has last been told to show. -/
  shown : Option Display := none

namespace Item

/-- The items of those configurations that are sound; `owner` names the action in warnings. -/
def buildSound (owner : String) (labels : Labels) : List ItemConfig → List Item × List Warning
  | [] => ([], [])
  | config :: configs =>
    let (items, more) := buildSound owner labels configs
    match Item.build (some labels) config with
    | .ok (item, warnings) => (item :: items, warnings ++ more)
    | .error e => (items, .skippedItem owner e :: more)

end Item

namespace Bindings

def buildSound (owner : String) (labels : Labels) (config : BindingConfig) :
    Bindings × List Warning :=
  let (press, w₁) := Item.buildSound owner labels config.press
  let (dialLeft, w₂) := Item.buildSound owner labels config.dialLeft
  let (dialRight, w₃) := Item.buildSound owner labels config.dialRight
  let (touchTap, w₄) := Item.buildSound owner labels config.touchTap
  ({ press, dialLeft, dialRight, touchTap }, w₁ ++ w₂ ++ w₃ ++ w₄)

end Bindings

namespace Action

/-- The names of the properties that the expressions read. -/
def used (a : Action) : List String :=
  a.rig.actuator.bindings.used ++ a.state.compiled.used ++ a.title.compiled.used

/-- Adds a name under its key to a list in the order of keys. The first name under a key stays. -/
def insertWanted (name : String) : List (String × String) → List (String × String)
  | [] => [(Text.lowercase name, name)]
  | (key, other) :: rest =>
    if Text.lowercase name < key then (Text.lowercase name, name) :: (key, other) :: rest
    else if Text.lowercase name = key then (key, other) :: rest
    else (key, other) :: insertWanted name rest

/-- The keys of the properties to be followed, each with a spelling, in order. -/
def wanted (a : Action) : List (String × String) :=
  a.used.foldl (fun names name => insertWanted name names) []

end Action

/-- An action at work, with the link that it shares with others and what has happened so far. -/
structure Turn where
  action : Action
  link : Link
  events : List DeckEvent := []

namespace Turn

def record (events : List DeckEvent) (t : Turn) : Turn :=
  { t with events := t.events ++ events }

def warn (warnings : List Warning) (t : Turn) : Turn :=
  t.record (warnings.map .warn)

/-- Uses the link. -/
def use (f : Link → Link × List LinkEvent) (t : Turn) : Turn :=
  let (link, events) := f t.link
  { t with link }.record (events.map .link)

def effect (t : Turn) : Effect → Turn
  | .keyDown hotkey => t.record [.keyDown hotkey]
  | .keyUp hotkey => t.record [.keyUp hotkey]
  | .send c => t.use fun l => l.send c
  | .warn w => t.warn [w]

def act (f : Actuator → Actuator × List Stroke) (t : Turn) : Turn :=
  let (rig, effects) := t.action.rig.act f
  effects.foldl effect { t with action := { t.action with rig } }

def readings (t : Turn) : Readings :=
  fun name => t.link.subscriptions.value name

/-- Follows the properties that have come to be used, and no longer those that are not used. -/
def sync (t : Turn) : Turn :=
  let wanted := t.action.wanted
  let keys := wanted.map (·.1)
  let receiver := t.action.receiver
  let fresh := wanted.filter fun (key, _) => key ∉ t.action.watched
  let gone := t.action.watched.filter (· ∉ keys)
  let t := fresh.foldl (fun t (_, name) => t.use fun l => l.subscribe name receiver) t
  let t := gone.foldl (fun t key => t.use fun l => (l.unsubscribe key receiver, [])) t
  { t with action := { t.action with watched := keys } }

/-- Tells the device what to show, if that is something else than before. -/
def refresh (t : Turn) : Turn :=
  let (isOn, state, w₁) := t.action.state.isActive t.readings
  let (title, titleSlot, w₂) := t.action.title.display t.readings
  let display := ⟨t.action.context, isOn, title⟩
  let t := { t with action := { t.action with state, title := titleSlot } }.warn (w₁ ++ w₂)
  if t.action.shown = some display then t
  else { t with action := { t.action with shown := some display } }.record [.display display]

def setState (text : String) (t : Turn) : Turn :=
  let (state, warnings) := t.action.state.update (some t.action.labels) text
  ({ t with action := { t.action with state } }.warn warnings).sync.refresh

def setTitle (text : String) (t : Turn) : Turn :=
  let (title, warnings) := t.action.title.update (some t.action.labels) text
  ({ t with action := { t.action with title } }.warn warnings).sync.refresh

/-- Presses that have begun keep the targets that they had. -/
def setBindings (owner : String) (config : BindingConfig) (t : Turn) : Turn :=
  let (bindings, warnings) := Bindings.buildSound owner t.action.labels config
  ((t.warn warnings).act fun a => ({ a with bindings }, [])).sync

def startPress (now : Nat) (t : Turn) : Turn × Session :=
  let (rig, session, effects) := t.action.rig.press now t.readings
  (effects.foldl effect { t with action := { t.action with rig } }, session)

def endPress (session : Session) (t : Turn) : Turn :=
  t.act fun a => a.release session

/-- A press that has not ended is ended first. -/
def down (now : Nat) (t : Turn) : Turn :=
  let t := t.action.press.elim t fun stale =>
    (t.warn [.pressedTwice t.action.context]).endPress stale
  let (t, session) := t.startPress now
  { t with action := { t.action with press := some session } }

def up (t : Turn) : Turn :=
  t.action.press.elim t fun session =>
    { t with action := { t.action with press := none } }.endPress session

def dialDown (now : Nat) (t : Turn) : Turn :=
  let t := t.action.dialPress.elim t fun stale =>
    (t.warn [.dialPressedTwice t.action.context]).endPress stale
  let (t, session) := t.startPress now
  { t with action := { t.action with dialPress := some session } }

def dialUp (t : Turn) : Turn :=
  t.action.dialPress.elim t fun session =>
    { t with action := { t.action with dialPress := none } }.endPress session

def follow (now : Nat) (motion : Motion) (t : Turn) : Turn :=
  match motion with
  | .down => t.down now
  | .up => t.up
  | .dialDown => t.dialDown now
  | .dialUp => t.dialUp
  | .tap => t.act fun a => a.tap t.readings
  | .rotate ticks => t.act fun a => a.rotate ticks t.readings

/-- Releases every control that is still held. -/
def deactivate (t : Turn) : Turn :=
  t.act fun a => (a, [.releaseHeld])

/-- Ends all presses and follows no property any more. -/
def shutdown (now : Nat) (t : Turn) : Turn :=
  let t := (t.up.dialUp.act fun a => a.stop now).use fun l => (l.remove t.action.receiver, [])
  let t := { t with action := { t.action with watched := [] } }
  t.use fun l => ({ l with subscriptions := l.subscriptions.close t.action.receiver }, [])

/-- Puts an action to work. -/
def start (config : ActionConfig) (timing : Timing) (link : Link) : Turn :=
  let (state, w₁) := Slot.ofText (some config.labels) config.state
  let (title, w₂) := Slot.ofText (some config.labels) config.title
  let (bindings, w₃) := Bindings.buildSound config.context config.labels config.bindings
  let (subscriptions, receiver) := link.subscriptions.newReceiver
  let action : Action :=
    { context := config.context, labels := config.labels, receiver, state, title
      rig := { actuator := .ofTiming timing bindings } }
  let t : Turn := { action, link := { link with subscriptions } }
  (t.warn (w₁ ++ w₂ ++ w₃)).sync.refresh

end Turn

end ControlDeck
