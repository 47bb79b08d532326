import ControlDeck.Proofs.Fates

namespace ControlDeck.PressTimer

variable {α : Type}

/-- How far the task has come that is to make a press long. -/
inductive Stage where
  | spawned
  | asleep (due : Nat)
  /-- It has slept for the threshold, and is about to get hold of the presses. -/
  | awake
  | ended
deriving DecidableEq

/-- The task that is to make a press long. -/
structure Alarm where
  stage : Stage := .spawned
  /-- Whether it has been called off. -/
  cancelled : Bool := false
deriving DecidableEq

/-- Whether an alarm lets time go by. One that has been called off may be as late as it likes. -/
def Alarm.rests (now : Nat) (a : Alarm) : Bool :=
  a.cancelled ||
    match a.stage with
    | .spawned | .awake => false
    | .asleep due => now < due
    | .ended => true

/-- A timer with a task for each press that may become long, what time it is, and what came of
presses when. -/
structure Alarms (α : Type) where
  threshold : Nat
  now : Nat := 0
  pending : List α := []
  longHeld : Option α := none
  /-- The index of the alarm that has been set last, unless it is off. -/
  current : Option Nat := none
  /-- All alarms that have ever been set, in order. -/
  alarms : List Alarm := []
  past : List (Nat × Outcome α) := []

namespace Alarms

/-- The steps of callers, of the tasks and of the clock may follow each other in any order. -/
inductive Move (α : Type) where
  | call (c : Call α)
  /-- The alarm with the given index goes on: it falls asleep, wakes up, or gets hold of the
  presses. -/
  | turn (i : Nat)
  /-- The alarm with the given index finds that it has been called off. -/
  | quit (i : Nat)
  /-- A millisecond passes, unless an alarm that is on has something to do before. -/
  | pass

def note (outcomes : List (Outcome α)) (w : Alarms α) : Alarms α :=
  { w with past := w.past ++ outcomes.map (w.now, ·) }

def set (i : Nat) (f : Alarm → Alarm) (w : Alarms α) : Alarms α :=
  { w with alarms := w.alarms.modify i f }

/-- Calls off the alarm that has been set last. -/
def cancel (w : Alarms α) : Alarms α :=
  match w.current with
  | some i => { w.set i fun a => { a with cancelled := true } with current := none }
  | none => w

def down (token : α) (w : Alarms α) : Alarms α :=
  let w := w.cancel
  if w.threshold = 0 then { w with pending := token :: w.pending }
  else
    { w with
      pending := token :: w.pending
      current := some w.alarms.length
      alarms := w.alarms ++ [{}] }

def up (w : Alarms α) : Alarms α :=
  let w := w.cancel
  match w.pending with
  | token :: pending => note [.told (.short token)] { w with pending }
  | [] =>
    note (w.longHeld.toList.map fun token => .told (.longEnd token)) { w with longHeld := none }

def reset (w : Alarms α) : Alarms α :=
  let w := w.cancel
  note (w.longHeld.toList.map .returned ++ w.pending.map .forgotten)
    { w with pending := [], longHeld := none }

def call (w : Alarms α) : Call α → Alarms α
  | .down token => w.down token
  | .up => w.up
  | .reset => w.reset

/-- Makes the latest press long. -/
def ring (w : Alarms α) : Alarms α :=
  match w.pending with
  | token :: pending =>
    note [.told (.longStart token)] { w with pending, longHeld := some token, current := none }
  | [] => { w with current := none }

/-- An alarm that has been called off while it was getting hold of the presses leaves them alone. -/
def turn (i : Nat) (w : Alarms α) : Alarms α :=
  match w.alarms[i]? with
  | none => w
  | some a =>
    match a.stage with
    | .spawned => w.set i fun a => { a with stage := .asleep (w.now + w.threshold) }
    | .asleep due => if due ≤ w.now then w.set i fun a => { a with stage := .awake } else w
    | .awake =>
      let w := w.set i fun a => { a with stage := .ended }
      if a.cancelled then w else w.ring
    | .ended => w

def quit (i : Nat) (w : Alarms α) : Alarms α :=
  match w.alarms[i]? with
  | none => w
  | some a =>
    if a.cancelled ∧ a.stage ≠ .awake then w.set i fun a => { a with stage := .ended } else w

def step (w : Alarms α) : Move α → Alarms α
  | .call c => w.call c
  | .turn i => w.turn i
  | .quit i => w.quit i
  | .pass => if w.alarms.all (·.rests w.now) then { w with now := w.now + 1 } else w

def run (w : Alarms α) (moves : List (Move α)) : Alarms α :=
  moves.foldl step w

/-- Whether an alarm rings with a move, or all alarms of the present have rung before it. -/
def rings (w : Alarms α) : Move α → Bool
  | .call _ | .quit _ => false
  | .turn i => w.alarms[i]? = some ⟨.awake, false⟩
  | .pass => w.alarms.all (·.rests w.now)

/-- The presses that are begun, in order. -/
def given : List (Move α) → List α
  | [] => []
  | .call (.down token) :: moves => token :: given moves
  | _ :: moves => given moves

/-- The latest call before the alarms of some time ring, and when it was made: nothing if there is
no call, or if the alarms have not rung yet. -/
def latest (time : Nat) : Alarms α → Option (Nat × Call α) → List (Move α) → Option (Nat × Call α)
  | _, _, [] => none
  | w, _, .call c :: moves => latest time (w.call c) (some (w.now, c)) moves
  | w, last, move :: moves =>
    if w.rings move ∧ w.now = time then last else latest time (w.step move) last moves

/-- When an alarm goes off if it is not called off. -/
def Due (threshold now due : Nat) : Stage → Prop
  | .spawned => now + threshold = due
  | .asleep wakes => wakes = due
  | .awake => due ≤ now
  | .ended => False

/-- The tasks come to the same as one deadline. -/
structure Shows (w : Alarms α) (r : Record α) : Prop where
  threshold : r.timer.threshold = w.threshold
  now : r.now = w.now
  past : r.past = w.past
  pending : r.timer.pending = w.pending
  longHeld : r.timer.longHeld = w.longHeld
  off : w.current = none → r.timer.deadline = none
  on : ∀ i, w.current = some i → ∃ a due, w.alarms[i]? = some a ∧ a.cancelled = false ∧
    Due w.threshold w.now due a.stage ∧ r.timer.deadline = some due
  /-- Every other alarm has been called off or has ended. -/
  stale : ∀ i a, w.alarms[i]? = some a → w.current ≠ some i → a.cancelled = true ∨ a.stage = .ended

variable {w : Alarms α} {r : Record α}

theorem alarm_set (w : Alarms α) (i j : Nat) (f : Alarm → Alarm) :
    (w.set i f).alarms[j]? = w.alarms[j]?.map fun a => if i = j then f a else a := by
  rw [set, List.getElem?_modify]
  rfl

/-- An alarm goes on without having any effect yet. -/
theorem Shows.set (h : w.Shows r) {i : Nat} {a : Alarm} (ha : w.alarms[i]? = some a) {stage : Stage}
    (due : w.current = some i →
      ∀ d, Due w.threshold w.now d a.stage → Due w.threshold w.now d stage)
    (ended : a.stage = .ended → stage = .ended) : (w.set i fun a => { a with stage }).Shows r where
  threshold := h.threshold
  now := h.now
  past := h.past
  pending := h.pending
  longHeld := h.longHeld
  off := h.off
  on j hj := by
    obtain ⟨b, d, hb, uncancelled, rings, deadline⟩ := h.on j hj
    refine ⟨if i = j then { b with stage } else b, d, ?_, ?_, ?_, deadline⟩
    · rw [alarm_set, hb, Option.map_some]
    · split <;> exact uncancelled
    · split
      · rename_i same
        subst same
        cases ha.symm.trans hb
        exact due hj d rings
      · exact rings
  stale j b hb other := by
    rw [alarm_set] at hb
    obtain ⟨b', hb', rfl⟩ := Option.map_eq_some_iff.1 hb
    have before := h.stale j b' hb' other
    split
    · rename_i same
      subst same
      cases ha.symm.trans hb'
      exact before.imp_right ended
    · exact before

/-- The alarm that has been set last is off from now on, and so is the deadline. -/
theorem Shows.retire (h : w.Shows r) {i : Nat} (hi : w.current = some i) {f : Alarm → Alarm}
    (off : ∀ a, (f a).cancelled = true ∨ (f a).stage = .ended) :
    Shows { w.set i f with current := none }
      { r with timer := { r.timer with deadline := none } } := by
  refine ⟨h.threshold, h.now, h.past, h.pending, h.longHeld, fun _ => rfl, nofun, ?_⟩
  intro j b hb _
  rw [alarm_set] at hb
  obtain ⟨a, ha, rfl⟩ := Option.map_eq_some_iff.1 hb
  split
  · exact off a
  · rename_i other
    refine h.stale j a ha ?_
    rw [hi, ne_eq, Option.some.injEq]
    exact other

theorem Shows.cancel (h : w.Shows r) :
    w.cancel.Shows { r with timer := { r.timer with deadline := none } } ∧
      w.cancel.current = none := by
  rw [Alarms.cancel]
  split
  · rename_i i hi
    exact ⟨h.retire hi fun _ => .inl rfl, rfl⟩
  · rename_i off
    exact ⟨⟨h.threshold, h.now, h.past, h.pending, h.longHeld, fun _ => rfl,
      fun i hi => (Option.some_ne_none i (hi.symm.trans off)).elim, h.stale⟩, off⟩

theorem call_off (r : Record α) (c : Call α) :
    Record.call { r with timer := { r.timer with deadline := none } } c = r.call c := by
  cases c with
  | down token => rfl
  | up =>
    obtain ⟨⟨threshold, pending, longHeld, deadline, fresh⟩, now, past⟩ := r
    cases pending <;> rfl
  | reset => rfl

/-- Nothing but what is pending, what is held and what came of it differs. -/
theorem Shows.tell (h : w.Shows r) (off : w.current = none) (timer : PressTimer α)
    (threshold : timer.threshold = w.threshold) (deadline : timer.deadline = none)
    (outcomes : List (Outcome α)) :
    (note outcomes { w with pending := timer.pending, longHeld := timer.longHeld }).Shows
      (r.note timer outcomes) where
  threshold := threshold
  now := h.now
  past := by rw [Record.note, Alarms.note, h.past, h.now]
  pending := rfl
  longHeld := rfl
  off _ := deadline
  on i hi := (Option.some_ne_none i (hi.symm.trans off)).elim
  stale := h.stale

theorem Shows.down (h : w.Shows r) (off : w.current = none) (token : α) :
    (if w.threshold = 0 then { w with pending := token :: w.pending }
      else { w with
        pending := token :: w.pending
        current := some w.alarms.length
        alarms := w.alarms ++ [{}] } : Alarms α).Shows (r.call (.down token)) := by
  have past : r.past ++ [] = w.past := (List.append_nil _).trans h.past
  have pending : token :: r.timer.pending = token :: w.pending := congrArg _ h.pending
  split
  · rename_i never
    refine ⟨h.threshold, h.now, past, pending, h.longHeld, fun _ => ?_, ?_, h.stale⟩
    · exact if_pos (h.threshold.trans never)
    · exact fun i hi => (Option.some_ne_none i (hi.symm.trans off)).elim
  · rename_i long
    refine ⟨h.threshold, h.now, past, pending, h.longHeld, nofun, ?_, ?_⟩
    · rintro _ ⟨⟩
      refine ⟨{}, w.now + w.threshold, ?_, rfl, rfl, ?_⟩
      · simp
      · have long : r.timer.threshold ≠ 0 := h.threshold ▸ long
        rw [← h.now, ← h.threshold]
        exact if_neg long
    · intro i a ha other
      rcases Nat.lt_or_ge i w.alarms.length with earlier | later
      · rw [List.getElem?_append_left earlier] at ha
        exact h.stale i a ha (off ▸ nofun)
      · rw [List.getElem?_append_right later] at ha
        obtain ⟨last, -⟩ := List.getElem?_eq_some_iff.1 ha
        simp only [List.length_singleton] at last
        exact (other (congrArg some (by omega))).elim

theorem Shows.call (h : w.Shows r) (c : Call α) : (w.call c).Shows (r.call c) := by
  obtain ⟨h, off⟩ := h.cancel
  rw [← call_off]
  generalize hr : ({ r with timer := { r.timer with deadline := none } } : Record α) = r' at h
  cases c with
  | down token => exact h.down off token
  | up =>
    rw [Alarms.call, Alarms.up, Record.call]
    rcases up_cases r'.timer with ⟨token, pending, waiting, short⟩ | ⟨none, ends⟩
    · have told := h.tell off r'.timer.up.1
      rw [short] at told ⊢
      rw [h.pending] at waiting
      simp only [waiting]
      simpa [h.longHeld] using told h.threshold rfl [.told (.short token)]
    · have told := h.tell off r'.timer.up.1
      rw [ends] at told ⊢
      have held := told h.threshold rfl ((r'.timer.longHeld.map .longEnd).toList.map .told)
      rw [h.pending] at none
      simp only [none]
      have same : (w.cancel.longHeld.toList.map fun token => Outcome.told (.longEnd token)) =
          (r'.timer.longHeld.map .longEnd).toList.map .told := by
        rw [h.longHeld]
        cases w.cancel.longHeld <;> rfl
      rw [same]
      simpa [h.pending, none] using held
  | reset =>
    rw [Alarms.call, Alarms.reset, Record.call, ← h.pending, ← h.longHeld]
    exact h.tell off r'.timer.reset.1 h.threshold rfl _

theorem Shows.uncancelled (h : w.Shows r) {i : Nat} {a : Alarm} (ha : w.alarms[i]? = some a)
    (hi : w.current = some i) : a.cancelled = false := by
  obtain ⟨b, -, hb, uncancelled, -⟩ := h.on i hi
  cases ha.symm.trans hb
  exact uncancelled

/-- An alarm that is about to ring is the one that has been set last. -/
theorem Shows.isCurrent (h : w.Shows r) {i : Nat} (ha : w.alarms[i]? = some ⟨.awake, false⟩) :
    w.current = some i := by
  by_contra other
  rcases h.stale i _ ha other with cancelled | ended
  · cases cancelled
  · cases ended

theorem Shows.ring (h : w.Shows r) {i : Nat} (ha : w.alarms[i]? = some ⟨.awake, false⟩) :
    (w.set i fun a => { a with stage := .ended }).ring.Shows r.fire := by
  have hi := h.isCurrent ha
  obtain ⟨a, due, ha', -, past, deadline⟩ := h.on i hi
  cases ha.symm.trans ha'
  have silent := h.retire hi (f := fun a => { a with stage := .ended }) fun _ => .inr rfl
  rw [Alarms.ring, Record.fire]
  rcases tick_cases r.now r.timer with
    ⟨later, -⟩ | ⟨-, -, -, ⟨empty, off⟩ | ⟨token, rest, waiting, long⟩⟩
  · have := later due deadline
    rw [h.now] at this
    exact (Nat.not_lt.2 past this).elim
  · have told := silent.tell rfl { r.timer with deadline := none } h.threshold rfl []
    rw [off]
    rw [h.pending] at empty
    simpa [Alarms.note, Alarms.set, Record.note, h.pending, h.longHeld, empty] using told
  · have told := silent.tell rfl
      { r.timer with pending := rest, longHeld := some token, deadline := none } h.threshold rfl
      [.told (.longStart token)]
    rw [long]
    rw [h.pending] at waiting
    simpa [Alarms.set, Record.note, waiting] using told

theorem Shows.turn (h : w.Shows r) (i : Nat) :
    (w.turn i).Shows (if w.rings (.turn i) then r.fire else r) := by
  rw [Alarms.turn, rings]
  cases ha : w.alarms[i]? with
  | none => exact h
  | some a =>
    obtain ⟨stage, cancelled⟩ := a
    cases stage with
    | spawned => exact h.set ha (fun _ _ due => due) nofun
    | asleep due =>
      simp only
      split
      · exact h.set ha (fun _ _ wakes => by rwa [Due, ← wakes]) nofun
      · exact h
    | awake =>
      cases cancelled with
      | true =>
        refine h.set ha ?_ nofun
        intro hi
        cases h.uncancelled ha hi
      | false => exact h.ring ha
    | ended => exact h

theorem Shows.quit (h : w.Shows r) (i : Nat) : (w.quit i).Shows r := by
  rw [Alarms.quit]
  cases ha : w.alarms[i]? with
  | none => exact h
  | some a =>
    simp only
    split
    · rename_i off
      refine h.set ha ?_ fun _ => rfl
      intro hi
      exact absurd off.1 (Bool.eq_false_iff.1 (h.uncancelled ha hi))
    · exact h

/-- Where all alarms rest, none is due, and time passes for them. -/
theorem Shows.pass (h : w.Shows r) (rest : w.alarms.all (·.rests w.now) = true) :
    Shows { w with now := w.now + 1 } (r.step .pass) := by
  have asleep : ∀ i, w.current = some i → ∃ a due, w.alarms[i]? = some a ∧ a.cancelled = false ∧
      a.stage = .asleep due ∧ w.now < due ∧ r.timer.deadline = some due := by
    intro i hi
    obtain ⟨a, due, ha, uncancelled, wakes, deadline⟩ := h.on i hi
    have rests := List.all_eq_true.1 rest a (List.mem_of_getElem? ha)
    refine ⟨a, due, ha, uncancelled, ?_⟩
    obtain ⟨stage, cancelled⟩ := a
    cases stage with
    | asleep due' =>
      cases wakes
      cases uncancelled
      exact ⟨rfl, of_decide_eq_true rests, deadline⟩
    | ended => exact wakes.elim
    | spawned | awake =>
      cases uncancelled
      cases rests
  have early : ∀ d, r.timer.deadline = some d → r.now < d := by
    intro d deadline
    cases hi : w.current with
    | none => exact (Option.some_ne_none d (deadline.symm.trans (h.off hi))).elim
    | some i =>
      obtain ⟨-, due, -, -, -, later, deadline'⟩ := asleep i hi
      cases deadline.symm.trans deadline'
      rwa [h.now]
  have quiet : r.timer.tick r.now = (r.timer, none) := by
    rcases tick_cases r.now r.timer with ⟨-, same⟩ | ⟨d, deadline, past, -⟩
    · exact same
    · exact (Nat.not_lt.2 past (early d deadline)).elim
  have same : r.step .pass = { r with now := r.now + 1, past := r.past ++ [] } := by
    simp only [Record.step, Record.fire, Record.note, quiet]
    rfl
  rw [same, List.append_nil]
  refine ⟨h.threshold, congrArg (· + 1) h.now, h.past, h.pending, h.longHeld, h.off, ?_, h.stale⟩
  intro i hi
  obtain ⟨a, due, ha, uncancelled, stage, -, deadline⟩ := asleep i hi
  refine ⟨a, due, ha, uncancelled, ?_, deadline⟩
  rw [stage]
  rfl

/-- What a move comes to where there is one deadline instead of the tasks. -/
def image (w : Alarms α) : Move α → List (PressTimer.Move α)
  | .call c => [.call c]
  | .turn i => if w.rings (.turn i) then [.fire] else []
  | .quit _ => []
  | .pass => if w.rings .pass then [.pass] else []

def images : Alarms α → List (Move α) → List (PressTimer.Move α)
  | _, [] => []
  | w, move :: moves => w.image move ++ images (w.step move) moves

theorem Shows.step (h : w.Shows r) (move : Move α) :
    (w.step move).Shows (r.run (w.image move)) := by
  cases move with
  | call c => exact h.call c
  | turn i =>
    have turned := h.turn i
    rw [image]
    split
    · rename_i ringing
      rwa [if_pos ringing] at turned
    · rename_i silent
      rwa [if_neg silent] at turned
  | quit i => exact h.quit i
  | pass =>
    rw [image, Alarms.step, rings]
    split
    · rename_i rest
      exact h.pass rest
    · exact h

theorem Shows.run (h : w.Shows r) (moves : List (Move α)) :
    (w.run moves).Shows (r.run (w.images moves)) := by
  induction moves generalizing w r with
  | nil => exact h
  | cons move moves ih =>
    have later := ih (h.step move)
    rwa [Record.run, Record.run, ← List.foldl_append] at later

@[simp] theorem cancel_now (w : Alarms α) : w.cancel.now = w.now := by
  rw [cancel]
  split <;> rfl

theorem call_now (w : Alarms α) (c : Call α) : (w.call c).now = w.now := by
  cases c with
  | down token =>
    rw [call, Alarms.down]
    split <;> exact cancel_now w
  | up =>
    rw [call, Alarms.up]
    split <;> exact cancel_now w
  | reset => exact cancel_now w

/-- By the time the first alarm gets hold of the presses, its own has ended and another one has
begun. -/
example : (run { threshold := 2 } [.call (.down 'a'), .turn 0, .pass, .pass, .turn 0, .call .up,
      .call (.down 'b'), .turn 0]).pending = ['b'] := by
  decide

end Alarms

end ControlDeck.PressTimer
