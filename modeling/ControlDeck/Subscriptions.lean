import ControlDeck.Property.Line
import ControlDeck.Text.Lowercase

namespace ControlDeck

/-- A property that some receiver wants to follow. -/
structure Subscription where
  /-- What the property is known by: its name in lower case. -/
  key : String
  /-- The spelling that the server is told. -/
  name : String
  receivers : List Nat
  /-- The last announcement since the subscription began. -/
  last : Option PropertyLine := none

/-- An announcement on its way to a receiver. -/
structure Delivery where
  receiver : Nat
  line : PropertyLine
deriving DecidableEq

structure Subscriptions where
  entries : List Subscription := []
  /-- How many receivers have been made; they are numbered from one. -/
  created : Nat := 0
  /-- The receivers that take no more announcements. -/
  closed : List Nat := []
  connected : Bool := false

/-- What came of a wish to follow a property. -/
inductive Joining where
  /-- The subscription is new and has to be sent to the server. -/
  | send
  /-- The subscription is new and is sent when the server is connected. -/
  | deferred
  | joined
  | already
deriving DecidableEq

namespace Subscriptions

def find? (name : String) (s : Subscriptions) : Option Subscription :=
  s.entries.find? (·.key = Text.lowercase name)

/-- The spellings that the server should know. -/
def desired (s : Subscriptions) : List String :=
  s.entries.map (·.name)

def value (name : String) (s : Subscriptions) : Option Reading := do
  let entry ← s.find? name
  let line ← entry.last
  return line.reading

def newReceiver (s : Subscriptions) : Subscriptions × Nat :=
  ({ s with created := s.created + 1 }, s.created + 1)

def close (receiver : Nat) (s : Subscriptions) : Subscriptions :=
  { s with closed := receiver :: s.closed }

def modify (name : String) (f : Subscription → Subscription) (s : Subscriptions) : Subscriptions :=
  { s with entries := s.entries.map fun e => if e.key = Text.lowercase name then f e else e }

/-- Sends an announcement to those receivers that still take any. -/
def deliver (receivers : List Nat) (line : PropertyLine) (s : Subscriptions) : List Delivery :=
  (receivers.filter (· ∉ s.closed)).map fun receiver => ⟨receiver, line⟩

/-- A receiver that joins others is sent the last announcement. -/
def subscribe (name : String) (receiver : Nat) (s : Subscriptions) :
    Subscriptions × Joining × List Delivery :=
  match s.find? name with
  | none =>
    ({ s with entries := s.entries ++ [⟨Text.lowercase name, name, [receiver], none⟩] },
      if s.connected then .send else .deferred, [])
  | some entry =>
    if receiver ∈ entry.receivers then (s, .already, [])
    else
      (s.modify name fun e => { e with receivers := e.receivers ++ [receiver] }, .joined,
        entry.last.elim [] fun line => s.deliver [receiver] line)

/-- Takes a receiver out of the subscriptions in question and ends those that it leaves without
any. Returns the spellings of which the server has to be told. -/
def leave (inQuestion : Subscription → Bool) (receiver : Nat) (s : Subscriptions) :
    Subscriptions × List String :=
  let without (e : Subscription) : Subscription :=
    if inQuestion e then { e with receivers := e.receivers.filter (· ≠ receiver) } else e
  let (ended, entries) := (s.entries.map without).partition (·.receivers.isEmpty)
  ({ s with entries }, if s.connected then ended.map (·.name) else [])

def unsubscribe (name : String) (receiver : Nat) (s : Subscriptions) :
    Subscriptions × List String :=
  s.leave (·.key = Text.lowercase name) receiver

/-- Takes a receiver out of every subscription. -/
def remove (receiver : Nat) (s : Subscriptions) : Subscriptions × List String :=
  s.leave (fun _ => true) receiver

/-- Keeps an announcement and sends it to every receiver of the property; none where no one follows
it. -/
def publish (line : PropertyLine) (s : Subscriptions) : Option (Subscriptions × List Delivery) :=
  (s.find? line.name).map fun entry =>
    (s.modify line.name fun e => { e with last := some line }, s.deliver entry.receivers line)

/-- Returns what the server has to be told about a new connection. -/
def connect (s : Subscriptions) : Subscriptions × List String :=
  ({ s with connected := true }, s.desired)

def disconnect (s : Subscriptions) : Subscriptions :=
  { s with connected := false }

end Subscriptions

end ControlDeck
