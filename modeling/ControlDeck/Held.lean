import ControlDeck.Stroke

namespace ControlDeck

/-- The controls that are held down, in the order of their presses. -/
abbrev Held := List Control

namespace Held

/-- A press is sent also for a control that is held already. -/
def press (c : Control) (held : Held) : Held × List Command :=
  (if c ∈ held then held else held ++ [c], [.press c])

/-- A release is sent for a held control only. -/
def release (c : Control) (held : Held) : Held × List Command :=
  if c ∈ held then (held.filter (· ≠ c), [.release c]) else (held, [])

/-- Releases all that is held. -/
def deactivate (held : Held) : Held × List Command :=
  ([], held.map .release)

/-- Keys go down and up as asked; what happens to a control depends on what is held. -/
def perform (held : Held) : Stroke → Held × List Effect
  | .press (.key hotkey) => (held, [.keyDown hotkey])
  | .release (.key hotkey) => (held, [.keyUp hotkey])
  | .press (.control c) => (held.press c).map id (·.map .send)
  | .release (.control c) => (held.release c).map id (·.map .send)
  | .releaseHeld =>
    held.deactivate.map id (·.flatMap fun c => [.warn (.forcedRelease c.control), .send c])
  | .warn w => (held, [.warn w])

def performAll (held : Held) : List Stroke → Held × List Effect
  | [] => (held, [])
  | stroke :: strokes =>
    let (held, effects) := held.perform stroke
    let (held, more) := performAll held strokes
    (held, effects ++ more)

end Held

end ControlDeck
