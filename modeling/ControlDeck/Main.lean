import ControlDeck.Console
import ControlDeck.Deck
import ControlDeck.Settings.Decode

namespace ControlDeck.CommandLine

def displayText (d : Display) : String :=
  "Display: " ++ d.title ++ " (context " ++ d.context ++ ", state " ++
    (if d.isOn then "on" else "off") ++ ")"

/-- The line that is printed for an event. What goes on at the link is seen in warnings only. -/
def eventText? : DeckEvent → Option String
  | .display d => some (displayText d)
  | .keyDown hotkey => some ("Key down: " ++ hotkey.display)
  | .keyUp hotkey => some ("Key up: " ++ hotkey.display)
  | .warn w | .link (.warn w) => some w.message
  | .link _ => none

/-- Follows the gestures of a line. -/
def followLine (now : Nat) (line : String) (deck : Deck) : Deck × List DeckEvent :=
  let (gestures, warnings) := Console.readLine line
  let (deck, events) := gestures.foldl (fun (deck, events) g =>
    let (deck, more) := deck.heed now g
    (deck, events ++ more)) (deck, warnings.map .warn)
  let (deck, settled) := deck.settle now
  (deck, events ++ settled)

/-- Ends all actions and the link. -/
def finish (now : Nat) (deck : Deck) : Deck × List DeckEvent :=
  let (deck, ended) := deck.shutdown now
  let (deck, closed) := { deck with link := deck.link.close }.settle now
  (deck, ended ++ closed)

def report (events : List DeckEvent) : IO Unit :=
  (events.filterMap eventText?).forM IO.println

def source (path : String) : IO SettingsSource := do
  try
    return .content (← IO.FS.readBinFile path).toList
  catch
    | .noFileOrDirectory .. => return .missing
    | _ => return .unreadable

/-- Reads lines until the input ends. The first line after a while finds the deck as it was left,
so the time since then is made up for first. -/
partial def serve (input : IO.FS.Stream) (begun now : Nat) (deck : Deck) : IO Unit := do
  let line ← input.getLine
  let present := (← IO.monoMsNow) - begun
  let mut deck := deck
  for ms in [now:present] do
    let (next, events) := deck.tick (ms + 1)
    report events
    deck := next
  if line.isEmpty then
    report (finish present deck).2
  else
    let (next, events) := followLine present line deck
    report events
    serve input begun present next

def run (path : String) : IO UInt32 := do
  match Settings.load (← source path) with
  | .error .unreadable =>
    IO.eprintln ("Failed to read config file " ++ path)
    return 1
  | .error .malformed =>
    IO.eprintln ("Failed to parse config file " ++ path)
    return 1
  | .ok (settings, isDefault) =>
    if isDefault then
      IO.println ("Config file " ++ path ++ " does not exist, using defaults")
    IO.println ("Loaded " ++ settings.actions.length.repr ++ " actions")
    match Deck.ofSettings settings (Link.ofSettings settings.connection) with
    | .error e =>
      IO.eprintln e.message
      return 1
    | .ok (deck, events) =>
      report events
      let (deck, settled) := { deck with running := true }.settle 0
      report settled
      serve (← IO.getStdin) (← IO.monoMsNow) 0 deck
      return 0

end ControlDeck.CommandLine

/-- Settings come from the file that the first argument names, or from the usual place, and gestures
from standard input, one a line. What the deck shows and does is printed. No connection to the
property server is made, so the ones that the link offers time out. -/
def main (args : List String) : IO UInt32 := do
  let home := (← IO.getEnv "HOME").getD ""
  let settingsHome := (← IO.getEnv "XDG_CONFIG_HOME").getD ""
  ControlDeck.CommandLine.run
    (args.head?.getD (ControlDeck.Settings.defaultPath home settingsHome))
