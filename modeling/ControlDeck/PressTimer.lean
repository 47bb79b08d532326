namespace ControlDeck

/-- What a press turns out to be. -/
inductive PressPhase (α : Type) where
  | short (token : α)
  | longStart (token : α)
  | longEnd (token : α)
deriving DecidableEq

/-- Tells short presses from long ones. A press becomes long when it has lasted for the threshold
with no other press or release since. -/
structure PressTimer (α : Type) where
  /-- In milliseconds; at zero no press is long. -/
  threshold : Nat
  /-- The presses that have neither ended nor become long, the latest first. -/
  pending : List α := []
  /-- The long press that has not ended. -/
  longHeld : Option α := none
  /-- When the latest press becomes long. -/
  deadline : Option Nat := none
  /-- Whether the wait for the deadline has not begun yet. -/
  fresh : Bool := false

namespace PressTimer

variable {α : Type}

def down (now : Nat) (token : α) (t : PressTimer α) : PressTimer α :=
  { t with
    pending := token :: t.pending
    deadline := if t.threshold = 0 then none else some (now + t.threshold)
    fresh := true }

/-- Begins to wait for the latest press to become long: the threshold counts from then on. -/
def arm (now : Nat) (t : PressTimer α) : PressTimer α :=
  if t.fresh then
    { t with deadline := t.deadline.map fun _ => now + t.threshold, fresh := false }
  else t

/-- Ends the latest pending press, or else the long one; none where there is no press. -/
def up (t : PressTimer α) : PressTimer α × Option (PressPhase α) :=
  match t.pending with
  | token :: pending => ({ t with pending, deadline := none }, some (.short token))
  | [] => ({ t with longHeld := none, deadline := none }, t.longHeld.map .longEnd)

/-- Makes the latest press long if it is time. -/
def tick (now : Nat) (t : PressTimer α) : PressTimer α × Option (PressPhase α) :=
  if t.deadline.any (· ≤ now) then
    match t.pending with
    | token :: pending =>
      ({ t with pending, longHeld := some token, deadline := none }, some (.longStart token))
    | [] => ({ t with deadline := none }, none)
  else (t, none)

/-- Forgets every press and returns the long one. -/
def reset (t : PressTimer α) : PressTimer α × Option α :=
  ({ t with pending := [], longHeld := none, deadline := none }, t.longHeld)

end PressTimer

end ControlDeck
