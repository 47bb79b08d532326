import ControlDeck.Control
import ControlDeck.Formula.Eval
import ControlDeck.Expression.Error
import ControlDeck.Gesture
import ControlDeck.Text.Utf8

namespace ControlDeck

/-- Why a command item cannot be built. -/
inductive ItemError where
  | invalidHotkey (text : String)
  | missingField (item field : String)
deriving DecidableEq

def ItemError.message : ItemError → String
  | invalidHotkey text => "Invalid hotkey '" ++ text ++ "'"
  | missingField item field => "Missing " ++ field ++ " for " ++ item ++ " command item"

/-- Why a connection to the property server ended. -/
inductive LinkFault where
  | closed
  | timeout (ms : Nat)
  | unexpectedBanner (line : String)
  | unreadable (fault : Text.Utf8Fault)
deriving DecidableEq

def LinkFault.message : LinkFault → String
  | closed => "Connection closed by server"
  | timeout ms => "Connect timed out after " ++ ms.repr ++ "ms"
  | unexpectedBanner line => "Handshake failed: unexpected banner: " ++ line
  | unreadable fault => "Connection error: " ++ fault.message

/-- Something that went wrong. The program goes on after each of them but a broken evaluation. -/
inductive Warning where
  | keptExpression (text : String) (error : ExpressionError)
  | evaluationFailed (source : String) (error : EvalError)
  /-- An evaluation broke off, and no value or failure came of it. -/
  | evaluationBroken (source pattern : String)
  | conditionIgnored (condition : String) (target : Target) (error : ExpressionError)
  | skippedItem (action : String) (error : ItemError)
  | strayRelease
  | forcedRelease (c : Control)
  | pressedTwice (action : String)
  | dialPressedTwice (action : String)
  | deactivating
  | deck (error : DeckError)
  | unreadableInput (fault : Text.Utf8Fault)
  | droppedLine (error : PropertyError)
  | connectionFailed (fault : LinkFault) (retryMs : Nat)
  | notConnected (request : Request)
deriving DecidableEq

def Warning.message : Warning → String
  | keptExpression text error =>
    "Keeping previous expression, '" ++ text ++ "' does not compile: " ++ error.message
  | evaluationFailed source error => "Evaluating '" ++ source ++ "' failed: " ++ error.message
  | evaluationBroken source pattern =>
    "Evaluating '" ++ source ++ "' broke off at pattern '" ++ pattern ++ "'"
  | conditionIgnored condition target error =>
    "Condition '" ++ condition ++ "' of " ++ target.display ++ " does not compile (" ++
      error.message ++ "), the item fires on every press"
  | skippedItem action error =>
    "Skipping command item of action '" ++ action ++ "': " ++ error.message
  | strayRelease => "Release without a matching press, ignoring"
  | forcedRelease (.trigger name) =>
    "Forcing release of trigger '" ++ name ++ "' still held at deactivation"
  | forcedRelease (.role r) =>
    "Forcing stop of role '" ++ r.display ++ "' still active at deactivation"
  | pressedTwice action => "Action '" ++ action ++ "' pressed twice, releasing first press"
  | dialPressedTwice action => "Dial of '" ++ action ++ "' pressed twice, releasing first press"
  | deactivating => "Property server disconnected, deactivating all actions"
  | deck error => error.message
  | unreadableInput fault => "Failed to read stdin: " ++ fault.message
  | droppedLine error => "Dropping line from property server: " ++ error.message
  | connectionFailed fault retryMs =>
    "Property server connection failed: " ++ fault.message ++ ". Retrying in " ++ retryMs.repr ++
      "ms"
  | notConnected request =>
    "Not connected to property server, dropping " ++ request.describe

end ControlDeck
