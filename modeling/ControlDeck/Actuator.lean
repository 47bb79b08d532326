import ControlDeck.Held
import ControlDeck.Item
import ControlDeck.Pacer
import ControlDeck.PressTimer
import ControlDeck.Settings.Basic

namespace ControlDeck

/-- The items of an action, by the motion that they follow. -/
structure Bindings where
  press : List Item := []
  dialLeft : List Item := []
  dialRight : List Item := []
  touchTap : List Item := []

namespace Bindings

/-- The names of the properties that the conditions read, in order. -/
def used (b : Bindings) : List String :=
  (b.press ++ b.dialLeft ++ b.dialRight ++ b.touchTap).foldl
    (fun names item =>
      item.condition.compiled.used.foldl (fun ns n => Formula.insertName n ns) names)
    []

end Bindings

/-- What a press acts on, by how long it turns out to be. -/
structure Aim where
  short : List Target
  long : List Target
deriving DecidableEq

namespace Item

/-- The items, those of them whose conditions are active, and what went wrong. -/
def active (read : Readings) : List Item → List Item × List Item × List Warning
  | [] => ([], [], [])
  | item :: items =>
    let (isActive, condition, warnings) := item.condition.isActive read
    let item := { item with condition }
    let (items, others, more) := active read items
    (item :: items, if isActive then item :: others else others, warnings ++ more)

/-- Parts the targets of items by the length of presses that they are for. -/
def aim (items : List Item) : Aim where
  short := (items.filter (!·.long)).map (·.target)
  long := (items.filter (·.long)).map (·.target)

end Item

/-- A press that has not been released. -/
inductive Session where
  /-- The targets that were pressed. -/
  | direct (targets : List Target)
  /-- The press is long or short depending on when it is released. -/
  | timed
deriving DecidableEq

/-- Work that is to be gone on with. -/
inductive Chore where
  | pacing
  /-- To act on what presses have turned out to be. -/
  | phases
  /-- To release what a tap has pressed. -/
  | tap (targets : List Target)
deriving DecidableEq

/-- Acts on targets as the motions on one control of the device ask for. -/
structure Actuator where
  bindings : Bindings
  /-- For how many milliseconds a short press or a tap is held. -/
  pause : Nat
  timer : PressTimer Aim
  pacer : Pacer
  /-- What presses have turned out to be and has not been acted on. -/
  phases : List (PressPhase Aim) := []
  /-- The targets of the short press that is held, and until when. -/
  shortPress : Option (List Target × Nat) := none
  /-- The targets of the taps that are held, and until when. -/
  taps : List (List Target × Nat) := []
  /-- The work that is due, in the order in which it is done. -/
  chores : List Chore := [.pacing, .phases]
  stopped : Bool := false

namespace Actuator

def ofTiming (timing : Timing) (bindings : Bindings) : Actuator where
  bindings
  pause := timing.shortPressPauseMs
  timer := { threshold := timing.longPressMs }
  pacer := { dwell := timing.dwellMs }

def enlist (chore : Chore) (a : Actuator) : Actuator :=
  if chore ∈ a.chores then a else { a with chores := a.chores ++ [chore] }

/-- Presses the active items. If any item is for long presses, it is left to the timer what the
press acts on. -/
def press (now : Nat) (read : Readings) (a : Actuator) : Actuator × Session × List Stroke :=
  if a.stopped then (a, .direct [], [])
  else
    let (items, active, warnings) := Item.active read a.bindings.press
    let a := { a with bindings := { a.bindings with press := items } }
    let aim := Item.aim active
    if items.any (·.long) then
      ({ a with timer := a.timer.down now aim }, .timed, warnings.map .warn)
    else (a, .direct aim.short, warnings.map .warn ++ aim.short.map .press)

/-- Releases what a press acted on. -/
def release (session : Session) (a : Actuator) : Actuator × List Stroke :=
  match session with
  | .direct targets => (a, targets.map .release)
  | .timed =>
    match a.timer.up with
    | (timer, some phase) =>
      (enlist .phases { a with timer, phases := a.phases ++ [phase] }, [])
    | (timer, none) => ({ a with timer }, [.warn .strayRelease])

/-- Queues one cycle a tick for each active item; negative ticks turn left. -/
def rotate (ticks : Int) (read : Readings) (a : Actuator) : Actuator × List Stroke :=
  if a.stopped ∨ ticks = 0 then (a, [])
  else
    let bound := if ticks < 0 then a.bindings.dialLeft else a.bindings.dialRight
    let (items, active, warnings) := Item.active read bound
    let bindings :=
      if ticks < 0 then { a.bindings with dialLeft := items }
      else { a.bindings with dialRight := items }
    let pacer := active.foldl (fun p item => p.enqueue (.ofTarget item.target) ticks.natAbs) a.pacer
    (enlist .pacing { a with bindings, pacer }, warnings.map .warn)

/-- Presses the active items, to be released after the pause. -/
def tap (read : Readings) (a : Actuator) : Actuator × List Stroke :=
  if a.stopped then (a, [])
  else
    let (items, active, warnings) := Item.active read a.bindings.touchTap
    let targets := active.map (·.target)
    let chores := if targets.isEmpty then a.chores else a.chores ++ [.tap targets]
    ({ a with bindings := { a.bindings with touchTap := items }, chores },
      warnings.map .warn ++ targets.map .press)

/-- Acts on phases up to the first short press that is held for some time. -/
def follow (now pause : Nat) :
    List (PressPhase Aim) → Option (List Target × Nat) × List (PressPhase Aim) × List Stroke
  | [] => (none, [], [])
  | phase :: rest =>
    match phase with
    | .short aim =>
      if pause = 0 then
        let (shortPress, rest, strokes) := follow now pause rest
        (shortPress, rest, aim.short.map .press ++ aim.short.map .release ++ strokes)
      else (some (aim.short, now + pause), rest, aim.short.map .press)
    | .longStart aim =>
      let (shortPress, rest, strokes) := follow now pause rest
      (shortPress, rest, aim.long.map .press ++ strokes)
    | .longEnd aim =>
      let (shortPress, rest, strokes) := follow now pause rest
      (shortPress, rest, aim.long.map .release ++ strokes)

/-- What is released of phases that are not acted on any more. -/
def owed : List (PressPhase Aim) → List Stroke
  | [] => []
  | .longEnd aim :: rest => aim.long.map .release ++ owed rest
  | _ :: rest => owed rest

def runPhases (now : Nat) (a : Actuator) : Actuator × List Stroke :=
  let release := a.shortPress.elim [] fun (targets, _) => targets.map .release
  if a.stopped then ({ a with phases := [], shortPress := none }, release ++ owed a.phases)
  else if a.shortPress.any (now < ·.2) then (a, [])
  else
    let (shortPress, phases, strokes) := follow now a.pause a.phases
    ({ a with phases, shortPress }, release ++ strokes)

def run (now : Nat) (a : Actuator) : Chore → Actuator × List Stroke
  | .pacing =>
    let (pacer, strokes) := a.pacer.run now
    ({ a with pacer }, strokes)
  | .phases => a.runPhases now
  | .tap targets =>
    if a.stopped ∨ a.pause = 0 then (a, targets.map .release)
    else ({ a with taps := a.taps ++ [(targets, now + a.pause)] }, [])

def runAll (now : Nat) (a : Actuator) : List Chore → Actuator × List Stroke
  | [] => (a, [])
  | chore :: chores =>
    let (a, strokes) := a.run now chore
    let (a, more) := runAll now a chores
    (a, strokes ++ more)

/-- Does all work that is due. -/
def settle (now : Nat) (a : Actuator) : Actuator × List Stroke :=
  runAll now { a with timer := a.timer.arm now, chores := [] } a.chores

/-- Releases the taps whose time is over. -/
def endTaps (now : Nat) (a : Actuator) : Actuator × List Stroke :=
  let (ended, taps) := a.taps.partition fun (_, due) => a.stopped || due ≤ now
  ({ a with taps }, ended.flatMap fun (targets, _) => targets.map .release)

/-- Does what has become due as time went on to `now`. -/
def tick (now : Nat) (a : Actuator) : Actuator × List Stroke :=
  let (timer, phase) := (a.timer.arm now).tick now
  let a := { a with timer, phases := a.phases ++ phase.toList }
  let (a, released) := a.endTaps now
  let (a, strokes) := runAll now { a with chores := [] } (a.chores ++ [.phases, .pacing])
  (a, released ++ strokes)

/-- Ends all work: what is held is released, and nothing is pressed from now on. Here all tasks come
to their end before it returns. -/
def stop (now : Nat) (a : Actuator) : Actuator × List Stroke :=
  let (timer, longHeld) := a.timer.reset
  let released := longHeld.elim [] fun aim => aim.long.map .release
  let a := { a with timer, stopped := true, pacer := { a.pacer with stopped := true } }
  let (a, ended) := a.endTaps now
  let (a, strokes) := runAll now { a with chores := [] } (a.chores ++ [.phases, .pacing])
  (a, released ++ ended ++ strokes ++ [.releaseHeld])

end Actuator

/-- An actuator and what it holds down. -/
structure Rig where
  actuator : Actuator
  held : Held := []

namespace Rig

def act (f : Actuator → Actuator × List Stroke) (rig : Rig) : Rig × List Effect :=
  let (actuator, strokes) := f rig.actuator
  let (held, effects) := rig.held.performAll strokes
  (⟨actuator, held⟩, effects)

def press (now : Nat) (read : Readings) (rig : Rig) : Rig × Session × List Effect :=
  let (actuator, session, strokes) := rig.actuator.press now read
  let (held, effects) := rig.held.performAll strokes
  (⟨actuator, held⟩, session, effects)

/-- Releases every control that is still held and returns how many there were. -/
def deactivate (rig : Rig) : Rig × Nat × List Effect :=
  let (held, effects) := rig.held.perform .releaseHeld
  ({ rig with held }, rig.held.length, effects)

end Rig

end ControlDeck
