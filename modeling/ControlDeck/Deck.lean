import ControlDeck.Action

namespace ControlDeck

/-- All actions of a device, which share one link. -/
structure Deck where
  actions : List Action := []
  link : Link
  /-- The receivers that announcements have come for and that have not been heeded. -/
  mail : List Nat := []
  /-- The contexts of the actions whose properties have been announced. -/
  notices : List String := []
  /-- The last change of the link that has not been heeded. -/
  linkChange : Option Bool := none
  /-- Whether the deck heeds announcements and the link by itself. -/
  running : Bool := false

namespace Deck

/-- Notes what is to be heeded of some events. -/
def note (events : List DeckEvent) (d : Deck) : Deck :=
  events.foldl (fun d event =>
    match event with
    | .link (.delivered delivery) => { d with mail := d.mail ++ [delivery.receiver] }
    | .link (.changed usable) => { d with linkChange := some usable }
    | _ => d) d

/-- Uses the link. -/
def use (f : Link → Link × List LinkEvent) (d : Deck) : Deck × List DeckEvent :=
  let (link, events) := f d.link
  let events := events.map DeckEvent.link
  ({ d with link }.note events, events)

/-- Lets the actions that satisfy the test have their turns, one after the other. -/
def eachWhere (test : Action → Bool) (f : Turn → Turn) :
    List Action → Link → List Action × Link × List DeckEvent
  | [], link => ([], link, [])
  | action :: actions, link =>
    if test action then
      let t := f { action, link }
      let (actions, link, events) := eachWhere test f actions t.link
      (t.action :: actions, link, t.events ++ events)
    else
      let (actions, link, events) := eachWhere test f actions link
      (action :: actions, link, events)

def turnWhere (test : Action → Bool) (f : Turn → Turn) (d : Deck) : Deck × List DeckEvent :=
  let (actions, link, events) := eachWhere test f d.actions d.link
  ({ d with actions, link }.note events, events)

/-- Lets every action have its turn. -/
def turnAll (f : Turn → Turn) (d : Deck) : Deck × List DeckEvent :=
  d.turnWhere (fun _ => true) f

/-- Lets the action with a context have its turn. -/
def turn (context : String) (f : Turn → Turn) (d : Deck) : Deck × List DeckEvent :=
  d.turnWhere (·.context = context) f

def find? (context : String) (d : Deck) : Option Action :=
  d.actions.find? (·.context = context)

/-- Adds an action for each configuration. -/
def addAll (timing : Timing) : List ActionConfig → Deck → Except DeckError (Deck × List DeckEvent)
  | [], d => .ok (d, [])
  | config :: configs, d =>
    if (d.find? config.context).isSome then .error (.duplicateContext config.context)
    else do
      let t := Turn.start config timing d.link
      let (d, events) ←
        addAll timing configs
          ({ d with actions := d.actions ++ [t.action], link := t.link }.note t.events)
      return (d, t.events ++ events)

def ofSettings (settings : Settings) (link : Link) : Except DeckError (Deck × List DeckEvent) :=
  addAll settings.timing settings.actions { link }

def follow (now : Nat) (g : Gesture) (d : Deck) : Except DeckError (Deck × List DeckEvent) :=
  match d.find? g.context with
  | none => .error (.unknownContext g.context)
  | some _ => .ok (d.turn g.context fun t => t.follow now g.motion)

/-- Follows a gesture; one that cannot be followed is a warning. -/
def heed (now : Nat) (g : Gesture) (d : Deck) : Deck × List DeckEvent :=
  match d.follow now g with
  | .ok result => result
  | .error e => (d, [.warn (.deck e)])

/-- Shows what the properties are now, after all controls have been released if there is no
connection. -/
def linkChanged (usable : Bool) (d : Deck) : Deck × List DeckEvent :=
  if usable then d.turnAll Turn.refresh
  else
    let (d, events) := d.turnAll fun t => t.deactivate.refresh
    (d, .warn .deactivating :: events)

/-- Turns mail into notices for the actions that it is for. -/
def sortMail (d : Deck) : Deck :=
  let contextOf (receiver : Nat) : List String :=
    (d.actions.filter (·.receiver = receiver)).map (·.context)
  { d with mail := [], notices := d.notices ++ d.mail.flatMap contextOf }

/-- Shows what has come for the actions that have been noticed. -/
def heedNotices : List String → Deck → Deck × List DeckEvent
  | [], d => (d, [])
  | context :: contexts, d =>
    let (d, events) := d.turn context Turn.refresh
    let (d, more) := heedNotices contexts d
    (d, events ++ more)

def heedLink (d : Deck) : Deck × List DeckEvent :=
  d.linkChange.elim (d, []) fun usable => { d with linkChange := none }.linkChanged usable

/-- Does what a running deck does by itself. -/
def attend (d : Deck) : Deck × List DeckEvent :=
  if d.running then
    let (d, events) := heedNotices d.notices { d with notices := [] }
    let (d, more) := d.heedLink
    (d, events ++ more)
  else (d, [])

/-- Lets the actuators and the link do what is due, and heeds what has come of it. -/
def settleWith (act : Actuator → Actuator × List Stroke) (now : Nat) (d : Deck) :
    Deck × List DeckEvent :=
  let (d, acted) := d.turnAll fun t => t.act act
  let (d, linked) := d.use (Link.settle now)
  let (d, attended) := d.sortMail.attend
  let (d, written) := d.use (Link.settle now)
  (d, acted ++ linked ++ attended ++ written)

/-- Does all that is due. -/
def settle (now : Nat) (d : Deck) : Deck × List DeckEvent :=
  d.settleWith (Actuator.settle now) now

/-- Does what has become due as time went on to `now`. -/
def tick (now : Nat) (d : Deck) : Deck × List DeckEvent :=
  d.settleWith (Actuator.tick now) now

/-- Ends all actions. -/
def shutdown (now : Nat) (d : Deck) : Deck × List DeckEvent :=
  { d with running := false }.turnAll (Turn.shutdown now)

end Deck

end ControlDeck
