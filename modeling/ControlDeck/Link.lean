import ControlDeck.Settings.Basic
import ControlDeck.Subscriptions
import ControlDeck.Text.Lines
import ControlDeck.Warning

namespace ControlDeck

/-- Where the connection to the property server stands. -/
inductive LinkPhase where
  /-- The server has not taken the connection; it is given up when it is due. -/
  | offered (due : Nat)
  /-- The server's first line has not come; the connection is given up when it is due. -/
  | greeting (due : Nat)
  /-- The server is being told of the subscriptions; some names are still to be written. -/
  | opening (unwritten : List String)
  | live
  /-- There is no connection; the next one is offered when it is due. -/
  | resting (due : Nat)
  /-- There will be no other connection. -/
  | ended
deriving DecidableEq

/-- What happens at the link. -/
inductive LinkEvent where
  | wrote (request : Request)
  /-- A command was written over a connection of its own. -/
  | wroteAside (command : Command)
  /-- An offered connection was given up before the server had taken it. -/
  | withdrew
  | delivered (delivery : Delivery)
  /-- The connection became usable or unusable. -/
  | changed (usable : Bool)
  | warn (w : Warning)
deriving DecidableEq

/-- The one connection to the property server that all receivers share. Commands for roles do not
take it: each is written over a connection of its own. -/
structure Link where
  settings : ConnectionSettings := {}
  subscriptions : Subscriptions := {}
  phase : LinkPhase
  /-- What is to be written. -/
  outbox : List Request := []
  /-- What is to be written over other connections. -/
  asides : List Command := []
  /-- Whether the connection has been asked to end. -/
  closing : Bool := false

namespace Link

def offer (now : Nat) (l : Link) : Link :=
  { l with phase := .offered (now + l.settings.connectTimeoutMs) }

def ofSettings (settings : ConnectionSettings) : Link :=
  offer 0 { settings, phase := .ended }

def isUsable (l : Link) : Bool :=
  l.phase = .live

def request (r : Request) (l : Link) : Link :=
  { l with outbox := l.outbox ++ [r] }

def requestAll (rs : List Request) (l : Link) : Link :=
  { l with outbox := l.outbox ++ rs }

def subscribe (name : String) (receiver : Nat) (l : Link) : Link × List LinkEvent :=
  let (subscriptions, joining, deliveries) := l.subscriptions.subscribe name receiver
  let l := { l with subscriptions }
  (if joining = .send then l.request (.subscribe name) else l, deliveries.map .delivered)

def unsubscribe (name : String) (receiver : Nat) (l : Link) : Link :=
  let (subscriptions, names) := l.subscriptions.unsubscribe name receiver
  { l with subscriptions }.requestAll (names.map .unsubscribe)

/-- Takes a receiver out of every subscription. -/
def remove (receiver : Nat) (l : Link) : Link :=
  let (subscriptions, names) := l.subscriptions.remove receiver
  { l with subscriptions }.requestAll (names.map .unsubscribe)

/-- Takes a command to be written. One for a trigger is dropped while there is no connection. -/
def send (c : Command) (l : Link) : Link × List LinkEvent :=
  match c.control with
  | .role _ => ({ l with asides := l.asides ++ [c] }, [])
  | .trigger _ =>
    if l.subscriptions.connected then (l.request (.command c), [])
    else (l, [.warn (.notConnected (.command c))])

def close (l : Link) : Link :=
  { l with closing := true }

/-- Writes one line, if there is any to be written. -/
def writeNext (l : Link) : Option (Link × LinkEvent) :=
  match l.phase, l.outbox with
  | .opening (name :: names), _ =>
    some ({ l with phase := .opening names }, .wrote (.subscribe name))
  | .opening [], _ => some ({ l with phase := .live }, .changed true)
  | .live, r :: rest => some ({ l with outbox := rest }, .wrote r)
  | _, _ => none

/-- A bound on the number of steps in which all is written. -/
def backlog (l : Link) : Nat :=
  match l.phase with
  | .opening names => names.length + 1 + l.outbox.length
  | _ => l.outbox.length

def writeUpTo : Nat → Link → Link × List LinkEvent
  | 0, l => (l, [])
  | n + 1, l =>
    match l.writeNext with
    | none => (l, [])
    | some (l, event) =>
      let (l, events) := writeUpTo n l
      (l, event :: events)

/-- Writes all lines that are to be written. -/
def writeAll (l : Link) : Link × List LinkEvent :=
  writeUpTo l.backlog l

/-- Goes from the current phase to one without connection. -/
def leave (phase : LinkPhase) (l : Link) : Link × List LinkEvent :=
  ({ l with phase, subscriptions := l.subscriptions.disconnect },
    match l.phase with
    | .offered _ => [.withdrew]
    | .live => [.changed false]
    | _ => [])

/-- Ends the connection, to be offered again after the delay. -/
def fail (now : Nat) (fault : LinkFault) (l : Link) : Link × List LinkEvent :=
  let (l, events) := l.leave (.resting (now + l.settings.reconnectDelayMs))
  (l, events ++ [.warn (.connectionFailed fault l.settings.reconnectDelayMs)])

/-- The server takes the offered connection. -/
def accept (l : Link) : Link :=
  match l.phase with
  | .offered due => { l with phase := .greeting due }
  | _ => l

/-- The server ends the connection. -/
def hangUp (now : Nat) (l : Link) : Link × List LinkEvent :=
  match l.phase with
  | .greeting _ | .opening _ | .live => l.fail now .closed
  | _ => (l, [])

/-- The first line of the server shows whether it is the right one. What was to be written on an
earlier connection is forgotten. -/
def greet (now : Nat) (line : List Char) (l : Link) : Link × List LinkEvent :=
  if (Text.dropStart? l.settings.bannerStart.toList line).isSome then
    let (subscriptions, names) := l.subscriptions.connect
    ({ l with subscriptions, outbox := [], phase := .opening names }, [])
  else l.fail now (.unexpectedBanner (String.ofList (Text.trimEnd line)))

/-- Passes an announcement on; blank lines have no meaning. -/
def hear (line : List Char) (l : Link) : Link × List LinkEvent :=
  if (Text.trim line).isEmpty then (l, [])
  else
    match PropertyLine.decode (String.ofList line) with
    | .error e => (l, [.warn (.droppedLine e)])
    | .ok line =>
      match l.subscriptions.publish line with
      | none => (l, [])
      | some (subscriptions, deliveries) =>
        ({ l with subscriptions }, deliveries.map .delivered)

/-- Takes a line from the server. -/
def receiveLine (now : Nat) (line : List UInt8) (l : Link) : Link × List LinkEvent :=
  match l.phase, Text.decodeUtf8 line with
  | .greeting _, .ok text => l.greet now (Text.chomp text.toList)
  | .opening _, .ok text | .live, .ok text => l.hear (Text.chomp text.toList)
  | .greeting _, .error fault | .opening _, .error fault | .live, .error fault =>
    l.fail now (.unreadable fault)
  | _, _ => (l, [])

/-- Takes lines from the server, and writes what is to be written after each. -/
def receiveLines (now : Nat) : List (List UInt8) → Link → Link × List LinkEvent
  | [], l => (l, [])
  | line :: lines, l =>
    let (l, heard) := l.receiveLine now line
    let (l, written) := l.writeAll
    let (l, more) := receiveLines now lines l
    (l, heard ++ written ++ more)

/-- Takes what the server has written. -/
def receive (now : Nat) (bytes : List UInt8) (l : Link) : Link × List LinkEvent :=
  receiveLines now (Text.rawLines 10 bytes) l

/-- Gives up what has taken too long, and offers a connection when it is time. -/
def run (now : Nat) (l : Link) : Link × List LinkEvent :=
  let (l, events) :=
    match l.phase with
    | .offered due | .greeting due =>
      if due ≤ now then l.fail now (.timeout l.settings.connectTimeoutMs) else (l, [])
    | _ => (l, [])
  match l.phase with
  | .resting due => (if due ≤ now then l.offer now else l, events)
  | _ => (l, events)

/-- Does all that is due. Once asked to end, the connection ends when all lines are written. -/
def settle (now : Nat) (l : Link) : Link × List LinkEvent :=
  let (l, events) := if l.closing then (l, []) else l.run now
  let (l, written) := l.writeAll
  let aside := l.asides.map .wroteAside
  let l := { l with asides := [] }
  let (l, left) := if l.closing then l.leave .ended else (l, [])
  (l, events ++ written ++ aside ++ left)

end Link

end ControlDeck
