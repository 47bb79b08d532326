import ControlDeck.Stroke

namespace ControlDeck

/-- What is pressed and released together. -/
structure Cycle where
  hotkey : Option Hotkey := none
  trigger : Option String := none
  role : Option Role := none
deriving DecidableEq

namespace Cycle

def ofTarget : Target → Cycle
  | .key hotkey => { hotkey := some hotkey }
  | .control (.trigger name) => { trigger := some name }
  | .control (.role role) => { role := some role }

/-- The targets in the order in which they are pressed, and released. -/
def targets (c : Cycle) : List Target :=
  (c.hotkey.map Target.key).toList ++
    (c.trigger.map fun name => Target.control (.trigger name)).toList ++
    (c.role.map fun role => Target.control (.role role)).toList

def presses (c : Cycle) : List Stroke :=
  c.targets.map .press

def releases (c : Cycle) : List Stroke :=
  c.targets.map .release

end Cycle

/-- Works off press cycles one after the other, each held for the same time. -/
structure Pacer where
  /-- For how many milliseconds a cycle is held. -/
  dwell : Nat
  waiting : List Cycle := []
  /-- The cycle that is held, and until when. -/
  current : Option (Cycle × Nat) := none
  stopped : Bool := false

namespace Pacer

/-- Appends copies of a cycle. -/
def enqueue (c : Cycle) (count : Nat) (p : Pacer) : Pacer :=
  if p.stopped then p else { p with waiting := p.waiting ++ List.replicate count c }

/-- Works off cycles up to the first that is held for some time. -/
def start (now dwell : Nat) : List Cycle → Option (Cycle × Nat) × List Cycle × List Stroke
  | [] => (none, [], [])
  | c :: rest =>
    if dwell = 0 then
      let (current, rest, strokes) := start now dwell rest
      (current, rest, c.presses ++ c.releases ++ strokes)
    else (some (c, now + dwell), rest, c.presses)

/-- Does what is due. Once stopped, the cycle that is held is released and the others are
dropped. -/
def run (now : Nat) (p : Pacer) : Pacer × List Stroke :=
  let release := p.current.elim [] fun (c, _) => c.releases
  if p.stopped then ({ p with waiting := [], current := none }, release)
  else if p.current.any (now < ·.2) then (p, [])
  else
    let (current, waiting, strokes) := start now p.dwell p.waiting
    ({ p with waiting, current }, release ++ strokes)

/-- Ends all work and releases what is held. -/
def stop (now : Nat) (p : Pacer) : Pacer × List Stroke :=
  let (p, strokes) := { p with stopped := true }.run now
  (p, strokes ++ [.releaseHeld])

end Pacer

end ControlDeck
