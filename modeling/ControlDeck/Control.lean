import ControlDeck.Hotkey
import ControlDeck.Text.Quoted

namespace ControlDeck

/-- A role of the simulator, named within its owner. -/
structure Role where
  owner : String
  name : String
deriving DecidableEq

def Role.display (r : Role) : String :=
  r.owner ++ "/" ++ r.name

/-- An input of the simulator that is pressed and released from outside. -/
inductive Control where
  | trigger (name : String)
  | role (role : Role)
deriving DecidableEq

inductive Command where
  | press (c : Control)
  | release (c : Control)
deriving DecidableEq

def Command.control : Command → Control
  | press c | release c => c

/-- What is sent to the property server. -/
inductive Request where
  | subscribe (name : String)
  | unsubscribe (name : String)
  | command (c : Command)
deriving DecidableEq

namespace Request

/-- The words of a request, which single spaces part on its line. -/
def words : Request → List String
  | subscribe name => ["subscribe", name]
  | unsubscribe name => ["unsubscribe", name]
  | command (.press (.trigger name)) => ["trigger-input-pressed", name]
  | command (.release (.trigger name)) => ["trigger-input-released", name]
  | command (.press (.role r)) => ["controlmapper-role-pressed", r.owner, r.name]
  | command (.release (.role r)) => ["controlmapper-role-released", r.owner, r.name]

def wire (r : Request) : String :=
  String.intercalate " " r.words ++ "\r\n"

/-- A request as it is named in warnings. -/
def describe : Request → String
  | subscribe name => "Subscribe(" ++ Text.quote name ++ ")"
  | unsubscribe name => "Unsubscribe(" ++ Text.quote name ++ ")"
  | command (.press (.trigger name)) => "TriggerPressed(" ++ Text.quote name ++ ")"
  | command (.release (.trigger name)) => "TriggerReleased(" ++ Text.quote name ++ ")"
  | command (.press (.role r)) => "Start " ++ roleFields r
  | command (.release (.role r)) => "Stop " ++ roleFields r
where
  roleFields (r : Role) : String :=
    "\x7b owner_id: " ++ Text.quote r.owner ++ ", role_name: " ++ Text.quote r.name ++ " \x7d"

end Request

/-- What a command item acts on. -/
inductive Target where
  | key (hotkey : Hotkey)
  | control (c : Control)
deriving DecidableEq

def Target.display : Target → String
  | key hotkey => "keypress " ++ hotkey.display
  | control (.trigger name) => "trigger " ++ name
  | control (.role r) => "role " ++ r.display

end ControlDeck
