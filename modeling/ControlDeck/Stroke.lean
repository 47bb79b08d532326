import ControlDeck.Warning

namespace ControlDeck

/-- What is asked to be done to targets. -/
inductive Stroke where
  | press (t : Target)
  | release (t : Target)
  /-- Releases every control that is still held. -/
  | releaseHeld
  | warn (w : Warning)
deriving DecidableEq

/-- What is done in the end. -/
inductive Effect where
  | keyDown (hotkey : Hotkey)
  | keyUp (hotkey : Hotkey)
  | send (c : Command)
  | warn (w : Warning)
deriving DecidableEq

end ControlDeck
