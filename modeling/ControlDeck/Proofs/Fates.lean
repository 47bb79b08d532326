import ControlDeck.PressTimer
import Mathlib.Data.List.Perm.Basic
import Mathlib.Tactic.Common

namespace ControlDeck.PressTimer

variable {α : Type}

inductive Call (α : Type) where
  | down (token : α)
  | up
  | reset

/-- What comes of a press. -/
inductive Outcome (α : Type) where
  | told (phase : PressPhase α)
  /-- It is dropped while it is pending. -/
  | forgotten (token : α)
  /-- It is long, and whoever resets the timer is left to end it. -/
  | returned (token : α)
deriving DecidableEq

namespace Outcome

/-- The press that is pending no more. -/
def settled? : Outcome α → Option α
  | told (.short token) | told (.longStart token) | forgotten token => some token
  | told (.longEnd _) | returned _ => none

/-- The press that becomes long. -/
def started? : Outcome α → Option α
  | told (.longStart token) => some token
  | told (.short _) | told (.longEnd _) | forgotten _ | returned _ => none

/-- The long press that is over. -/
def ended? : Outcome α → Option α
  | told (.longEnd token) | returned token => some token
  | told (.short _) | told (.longStart _) | forgotten _ => none

/-- Whether it is about a long press. -/
def isLong : Outcome α → Bool
  | told (.longStart _) | told (.longEnd _) | returned _ => true
  | told (.short _) | forgotten _ => false

end Outcome

/-- The presses that are settled, in order. -/
def settled (past : List (Nat × Outcome α)) : List α :=
  past.filterMap (·.2.settled?)

/-- The presses that become long at a time. -/
def startsAt (time : Nat) (past : List (Nat × Outcome α)) : List α :=
  past.filterMap fun e => if e.1 = time then e.2.started? else none

/-- The beginnings and ends of long presses. -/
def longs (past : List (Nat × Outcome α)) : List (Outcome α) :=
  (past.map (·.2)).filter (·.isLong)

/-- The timer in use: what time it is, and what came of presses when. -/
structure Record (α : Type) where
  timer : PressTimer α
  now : Nat := 0
  past : List (Nat × Outcome α) := []

inductive Move (α : Type) where
  | call (c : Call α)
  /-- The timers of the present fire. -/
  | fire
  /-- A millisecond passes, but not before the timers have fired. -/
  | pass

namespace Record

def note (r : Record α) (timer : PressTimer α) (outcomes : List (Outcome α)) : Record α :=
  { r with timer, past := r.past ++ outcomes.map (r.now, ·) }

def call (r : Record α) : Call α → Record α
  | .down token => r.note (r.timer.down r.now token) []
  | .up => r.note r.timer.up.1 (r.timer.up.2.toList.map .told)
  | .reset =>
    r.note r.timer.reset.1
      (r.timer.reset.2.toList.map .returned ++ r.timer.pending.map .forgotten)

def fire (r : Record α) : Record α :=
  r.note (r.timer.tick r.now).1 ((r.timer.tick r.now).2.toList.map .told)

def step (r : Record α) : Move α → Record α
  | .call c => r.call c
  | .fire => r.fire
  | .pass => { r.fire with now := r.now + 1 }

def run (r : Record α) (moves : List (Move α)) : Record α :=
  moves.foldl step r

end Record

/-- The presses that are begun, in order. -/
def given : List (Move α) → List α
  | [] => []
  | .call (.down token) :: moves => token :: given moves
  | _ :: moves => given moves

/-- The latest call before the timers of some time fire, and when it was made: nothing if there is
no call, or if the timers have not fired yet. -/
def latest (time : Nat) : Nat → Option (Nat × Call α) → List (Move α) → Option (Nat × Call α)
  | _, _, [] => none
  | now, _, .call c :: moves => latest time now (some (now, c)) moves
  | now, last, .fire :: moves => if now = time then last else latest time now last moves
  | now, last, .pass :: moves => if now = time then last else latest time (now + 1) last moves

/-- By the latest call, a press becomes long at some time. -/
def IsDue (threshold time : Nat) (last : Option (Nat × Call α)) (token : α) : Prop :=
  threshold ≠ 0 ∧ ∃ begun, last = some (begun, .down token) ∧ begun + threshold = time

theorem tick_cases (now : Nat) (t : PressTimer α) :
    ((∀ d, t.deadline = some d → now < d) ∧ t.tick now = (t, none)) ∨
    ∃ d, t.deadline = some d ∧ d ≤ now ∧
      ((t.pending = [] ∧ t.tick now = ({ t with deadline := none }, none)) ∨
        ∃ token pending, t.pending = token :: pending ∧
          t.tick now = ({ t with pending, longHeld := some token, deadline := none },
            some (.longStart token))) := by
  obtain ⟨threshold, pending, longHeld, deadline⟩ := t
  cases deadline with
  | none => exact .inl ⟨nofun, rfl⟩
  | some d =>
    by_cases due : d ≤ now
    · refine .inr ⟨d, rfl, due, ?_⟩
      cases pending with
      | nil => exact .inl ⟨rfl, by simp [tick, due]⟩
      | cons token pending => exact .inr ⟨token, pending, rfl, by simp [tick, due]⟩
    · refine .inl ⟨?_, by simp [tick, due]⟩
      rintro _ ⟨⟩
      exact Nat.lt_of_not_le due

theorem up_cases (t : PressTimer α) :
    (∃ token pending, t.pending = token :: pending ∧
      t.up = ({ t with pending, deadline := none }, some (.short token))) ∨
    (t.pending = [] ∧
      t.up = ({ t with longHeld := none, deadline := none }, t.longHeld.map .longEnd)) := by
  obtain ⟨threshold, pending, longHeld, deadline⟩ := t
  cases pending with
  | nil => exact .inr ⟨rfl, rfl⟩
  | cons token pending => exact .inl ⟨token, pending, rfl, rfl⟩

section Outcomes

variable {past : List (Nat × Outcome α)}

theorem settled_concat (past : List (Nat × Outcome α)) (e : Nat × Outcome α) :
    settled (past ++ [e]) = settled past ++ e.2.settled?.toList := by
  cases h : e.2.settled? <;> simp [settled, h]

theorem longs_concat (past : List (Nat × Outcome α)) (e : Nat × Outcome α) :
    longs (past ++ [e]) = longs past ++ if e.2.isLong then [e.2] else [] := by
  cases h : e.2.isLong <;> simp [longs, h]

/-- A long press ends only if it is the latest that has begun, and has not ended before. -/
def EndsBegun (past : List (Nat × Outcome α)) : Prop :=
  ∀ before e token, before ++ [e] <+: past → e.2.ended? = some token →
    (longs before).getLast? = some (.told (.longStart token))

theorem EndsBegun.concat (h : EndsBegun past) {e : Nat × Outcome α}
    (begun : ∀ token, e.2.ended? = some token →
      (longs past).getLast? = some (.told (.longStart token))) : EndsBegun (past ++ [e]) := by
  intro before e' token among ended
  rcases List.prefix_concat_iff.1 among with all | earlier
  · obtain ⟨rfl, same⟩ := List.append_inj' all rfl
    cases same
    exact begun token ended
  · exact h before e' token earlier ended

end Outcomes

namespace Record

/-- What has come of presses accounts for what is pending and what is held. -/
structure Accounts (r : Record α) (tokens : List α) : Prop where
  fates : tokens.Perm (settled r.past ++ r.timer.pending)
  held : r.timer.longHeld = (longs r.past).getLast?.bind Outcome.started?
  ends : EndsBegun r.past

variable {r : Record α} {tokens : List α}

/-- A press that is held has begun, and nothing long has begun or ended since. -/
theorem Accounts.begun (h : r.Accounts tokens) {token : α} (held : r.timer.longHeld = some token) :
    (longs r.past).getLast? = some (.told (.longStart token)) := by
  obtain ⟨outcome, last, started⟩ := Option.bind_eq_some_iff.1 (h.held.symm.trans held)
  rcases outcome with (_ | _ | _) | _ | _ <;> cases started
  exact last

/-- One press comes to something: it is taken from the pending ones, is held from now on, or has
been held. -/
theorem Accounts.tell (h : r.Accounts tokens) {timer : PressTimer α} {o : Outcome α}
    (pending : r.timer.pending = o.settled?.toList ++ timer.pending)
    (held : timer.longHeld = if o.isLong then o.started? else r.timer.longHeld)
    (ended : ∀ token, o.ended? = some token → r.timer.longHeld = some token) :
    (r.note timer [o]).Accounts tokens where
  fates := by
    show tokens.Perm (settled (r.past ++ [(r.now, o)]) ++ timer.pending)
    rw [settled_concat, List.append_assoc, ← pending]
    exact h.fates
  held := by
    show timer.longHeld = (longs (r.past ++ [(r.now, o)])).getLast?.bind Outcome.started?
    rw [longs_concat, held, h.held]
    split
    · rw [List.getLast?_concat, Option.bind_some]
    · rw [List.append_nil]
  ends := h.ends.concat fun token last => h.begun (ended token last)

theorem Accounts.still (h : r.Accounts tokens) {timer : PressTimer α}
    (pending : timer.pending = r.timer.pending) (held : timer.longHeld = r.timer.longHeld) :
    (r.note timer []).Accounts tokens where
  fates := by simpa [note, pending] using h.fates
  held := by simpa [note, held] using h.held
  ends := by simpa [note] using h.ends

theorem Accounts.forget (h : r.Accounts tokens) {timer : PressTimer α} {pending : List α}
    (waiting : r.timer.pending = pending) (none : timer.pending = [])
    (held : timer.longHeld = r.timer.longHeld) :
    (r.note timer (pending.map .forgotten)).Accounts tokens := by
  induction pending generalizing r with
  | nil => exact h.still (none.trans waiting.symm) held
  | cons token pending ih =>
    have first : (r.note { timer with pending } [.forgotten token]).Accounts tokens :=
      h.tell waiting held nofun
    simpa [note] using ih first rfl rfl

theorem Accounts.fire (h : r.Accounts tokens) : r.fire.Accounts tokens := by
  rcases tick_cases r.now r.timer with
    ⟨-, same⟩ | ⟨d, -, -, ⟨-, silent⟩ | ⟨token, pending, waiting, long⟩⟩
  · rw [Record.fire, same]
    exact h.still rfl rfl
  · rw [Record.fire, silent]
    exact h.still rfl rfl
  · rw [Record.fire, long]
    exact h.tell waiting rfl nofun

theorem Accounts.up (h : r.Accounts tokens) : (r.call .up).Accounts tokens := by
  rcases up_cases r.timer with ⟨token, pending, waiting, short⟩ | ⟨none, ends⟩
  · rw [call, short]
    exact h.tell waiting rfl nofun
  · rw [call, ends]
    cases held : r.timer.longHeld with
    | none => exact h.still rfl held.symm
    | some token =>
      refine h.tell rfl rfl ?_
      rintro _ ⟨⟩
      exact held

theorem Accounts.reset (h : r.Accounts tokens) : (r.call .reset).Accounts tokens := by
  cases held : r.timer.longHeld with
  | none =>
    have same : r.call .reset = r.note r.timer.reset.1 (r.timer.pending.map .forgotten) := by
      simp [call, PressTimer.reset, held]
    rw [same]
    exact h.forget rfl rfl held.symm
  | some token =>
    have handed : (r.note { r.timer with longHeld := none } [.returned token]).Accounts tokens := by
      refine h.tell rfl rfl ?_
      rintro _ ⟨⟩
      exact held
    have both : r.call .reset =
        (r.note { r.timer with longHeld := none } [.returned token]).note r.timer.reset.1
          (r.timer.pending.map .forgotten) := by
      simp [call, note, PressTimer.reset, held]
    rw [both]
    exact handed.forget rfl rfl rfl

theorem Accounts.down (h : r.Accounts tokens) (token : α) :
    (r.call (.down token)).Accounts (tokens ++ [token]) where
  fates := by
    have one := (List.perm_append_singleton token tokens).trans (h.fates.cons token)
    simpa [call, note, PressTimer.down] using one.trans List.perm_middle.symm
  held := by simpa [call, note, PressTimer.down] using h.held
  ends := by simpa [call, note] using h.ends

theorem Accounts.run (h : r.Accounts tokens) (moves : List (Move α)) :
    (r.run moves).Accounts (tokens ++ given moves) := by
  induction moves generalizing r tokens with
  | nil => simpa [given, Record.run] using h
  | cons move moves ih =>
    cases move with
    | call c =>
      cases c with
      | down token =>
        rw [given, List.append_cons]
        exact ih (h.down token)
      | up => exact ih h.up
      | reset => exact ih h.reset
    | fire => exact ih h.fire
    | pass => exact ih (r := r.step .pass) ⟨h.fire.fates, h.fire.held, h.fire.ends⟩

theorem startsAt_note (time : Nat) (r : Record α) (timer : PressTimer α)
    (outcomes : List (Outcome α)) :
    startsAt time (r.note timer outcomes).past = startsAt time r.past ++
      if r.now = time then outcomes.filterMap Outcome.started? else [] := by
  rw [note, startsAt, List.filterMap_append, List.filterMap_map]
  split
  · rename_i same
    simp only [Function.comp_def, same, if_true]
    rfl
  · rename_i other
    simp only [Function.comp_def, other, if_false, List.filterMap_none]
    rfl

theorem startsAt_call (r : Record α) (c : Call α) (time : Nat) :
    startsAt time (r.call c).past = startsAt time r.past := by
  cases c with
  | down token => simp [call, startsAt_note]
  | up =>
    rcases up_cases r.timer with ⟨token, pending, -, short⟩ | ⟨-, ends⟩
    · simp [call, startsAt_note, short, Outcome.started?]
    · cases held : r.timer.longHeld <;>
        simp [call, startsAt_note, ends, held, Outcome.started?]
  | reset =>
    cases held : r.timer.longHeld <;>
      simp [call, startsAt_note, PressTimer.reset, held, Outcome.started?, List.filterMap_map,
        Function.comp_def]

@[simp] theorem call_now (r : Record α) (c : Call α) : (r.call c).now = r.now := by
  cases c <;> rfl

theorem deadline_call (r : Record α) (c : Call α) :
    (r.call c).timer.threshold = r.timer.threshold ∧
      ∀ d, (r.call c).timer.deadline = some d →
        ∃ token, c = .down token ∧ r.timer.threshold ≠ 0 ∧ r.now + r.timer.threshold = d := by
  cases c with
  | down token =>
    refine ⟨rfl, ?_⟩
    intro d due
    simp only [call, note, PressTimer.down] at due
    split at due
    · cases due
    · rename_i long
      exact ⟨token, rfl, long, Option.some.inj due⟩
  | up =>
    rcases up_cases r.timer with ⟨token, pending, -, short⟩ | ⟨-, ends⟩
    · rw [call, short]
      exact ⟨rfl, nofun⟩
    · rw [call, ends]
      exact ⟨rfl, nofun⟩
  | reset => exact ⟨rfl, nofun⟩

/-- The timers of some time have fired. -/
structure Fired (time : Nat) (r : Record α) : Prop where
  past : time ≤ r.now
  later : ∀ d, r.timer.deadline = some d → time < d

/-- A press that is begun later becomes long later, and the others are off the timer. -/
theorem Fired.step {time : Nat} (h : Fired time r) (move : Move α) :
    Fired time (r.step move) ∧ startsAt time (r.step move).past = startsAt time r.past := by
  have fire : Fired time r.fire ∧ startsAt time r.fire.past = startsAt time r.past := by
    rcases tick_cases r.now r.timer with
      ⟨-, same⟩ | ⟨d, due, past, ⟨-, silent⟩ | ⟨token, pending, -, long⟩⟩
    · rw [Record.fire, same, startsAt_note]
      exact ⟨⟨h.past, h.later⟩, by simp⟩
    · rw [Record.fire, silent, startsAt_note]
      exact ⟨⟨h.past, nofun⟩, by simp⟩
    · have other : r.now ≠ time := by
        have := h.later d due
        omega
      rw [Record.fire, long, startsAt_note, if_neg other, List.append_nil]
      exact ⟨⟨h.past, nofun⟩, rfl⟩
  cases move with
  | call c =>
    refine ⟨⟨(call_now r c).symm ▸ h.past, ?_⟩, startsAt_call r c time⟩
    intro d due
    obtain ⟨-, -, long, rfl⟩ := (deadline_call r c).2 d due
    have := h.past
    omega
  | fire => exact fire
  | pass => exact ⟨⟨Nat.le_succ_of_le fire.1.past, fire.1.later⟩, fire.2⟩

theorem Fired.run {time : Nat} (h : Fired time r) (moves : List (Move α)) :
    startsAt time (r.run moves).past = startsAt time r.past := by
  induction moves generalizing r with
  | nil => rfl
  | cons move moves ih =>
    obtain ⟨fired, same⟩ := h.step move
    exact (ih fired).trans same

/-- The timers of some time have not fired yet, and are set as the latest call has left them. -/
structure Awaits (threshold time : Nat) (last : Option (Nat × Call α)) (r : Record α) : Prop where
  pace : r.timer.threshold = threshold
  early : r.now ≤ time
  silent : startsAt time r.past = []
  set : ∀ token, IsDue threshold time last token →
    r.timer.deadline = some time ∧ ∃ pending, r.timer.pending = token :: pending
  due : ∀ d, r.timer.deadline = some d → r.now ≤ d ∧ ∃ token, IsDue threshold d last token

variable {threshold time : Nat} {last : Option (Nat × Call α)}

theorem Awaits.call (h : Awaits threshold time last r) (c : Call α) :
    Awaits threshold time (some (r.now, c)) (r.call c) := by
  obtain ⟨same, due⟩ := deadline_call r c
  refine ⟨same.trans h.pace, (call_now r c).symm ▸ h.early,
    (startsAt_call r c time).trans h.silent, ?_, ?_⟩
  · rintro token ⟨long, begun, down, rfl⟩
    cases down
    rw [← h.pace] at long ⊢
    exact ⟨if_neg long, r.timer.pending, rfl⟩
  · intro d alarm
    obtain ⟨token, rfl, long, rfl⟩ := due d alarm
    rw [h.pace] at long ⊢
    exact ⟨Nat.le_add_right r.now threshold, token, long, r.now, rfl, rfl⟩

/-- What fires earlier is not due at the time. -/
theorem Awaits.fire (h : Awaits threshold time last r) (early : r.now < time) :
    Awaits threshold time last r.fire ∧ ∀ d, r.fire.timer.deadline = some d → r.now < d := by
  have none : startsAt time r.fire.past = [] := by
    rw [Record.fire, startsAt_note, h.silent, if_neg (Nat.ne_of_lt early), List.append_nil]
  rcases tick_cases r.now r.timer with ⟨later, same⟩ | ⟨d, alarm, past, rings⟩
  · rw [Record.fire, same] at none ⊢
    exact ⟨⟨h.pace, h.early, none, h.set, h.due⟩, later⟩
  · have unset : ∀ token, ¬IsDue threshold time last token := by
      intro token isDue
      have := (h.set token isDue).1.symm.trans alarm
      cases this
      omega
    rcases rings with ⟨-, off⟩ | ⟨token, pending, -, long⟩
    · rw [Record.fire, off] at none ⊢
      exact ⟨⟨h.pace, h.early, none, fun token isDue => absurd isDue (unset token), nofun⟩, nofun⟩
    · rw [Record.fire, long] at none ⊢
      exact ⟨⟨h.pace, h.early, none, fun token isDue => absurd isDue (unset token), nofun⟩, nofun⟩

/-- The timers of the time fire, and a press becomes long just if it is due. -/
theorem Awaits.ring (h : Awaits threshold time last r) (now : r.now = time) :
    Fired time r.fire ∧ (startsAt time r.fire.past).length ≤ 1 ∧
      ∀ token, token ∈ startsAt time r.fire.past ↔ IsDue threshold time last token := by
  rcases tick_cases r.now r.timer with ⟨later, same⟩ | ⟨d, alarm, past, rings⟩
  · have none : startsAt time r.fire.past = [] := by
      rw [Record.fire, same, startsAt_note, h.silent]
      simp
    rw [none]
    refine ⟨?_, Nat.zero_le 1, ?_⟩
    · rw [Record.fire, same]
      exact ⟨Nat.le_of_eq now.symm, fun d alarm => now ▸ later d alarm⟩
    · intro token
      refine ⟨nofun, ?_⟩
      intro isDue
      have := later time (h.set token isDue).1
      omega
  · obtain ⟨soon, due, isDue⟩ := h.due d alarm
    obtain rfl : d = time := by omega
    obtain ⟨-, pending, first⟩ := h.set due isDue
    rcases rings with ⟨none, -⟩ | ⟨token, rest, waiting, long⟩
    · rw [first] at none
      cases none
    · obtain ⟨rfl, rfl⟩ := List.cons.inj (first.symm.trans waiting)
      have one : startsAt d r.fire.past = [due] := by
        rw [Record.fire, long, startsAt_note, h.silent, if_pos now]
        rfl
      rw [one]
      refine ⟨?_, Nat.le_refl 1, ?_⟩
      · rw [Record.fire, long]
        exact ⟨Nat.le_of_eq now.symm, nofun⟩
      · intro token
        rw [List.mem_singleton]
        constructor
        · rintro rfl
          exact isDue
        · rintro ⟨-, begun, down, -⟩
          obtain ⟨-, begun', down', -⟩ := isDue
          cases down.symm.trans down'
          rfl

theorem Awaits.run (h : Awaits threshold time last r) (moves : List (Move α)) :
    (startsAt time (r.run moves).past).length ≤ 1 ∧
      ∀ token, token ∈ startsAt time (r.run moves).past ↔
        IsDue threshold time (latest time r.now last moves) token := by
  induction moves generalizing r last with
  | nil =>
    refine ⟨by simp [Record.run, h.silent], ?_⟩
    intro token
    simp [Record.run, h.silent, latest, IsDue]
  | cons move moves ih =>
    cases move with
    | call c =>
      have later := ih (h.call c)
      rwa [call_now] at later
    | fire =>
      rw [latest]
      by_cases now : r.now = time
      · obtain ⟨fired, once, exactly⟩ := h.ring now
        have same : startsAt time (r.run (.fire :: moves)).past = startsAt time r.fire.past :=
          fired.run moves
        rw [if_pos now, same]
        exact ⟨once, exactly⟩
      · rw [if_neg now]
        exact ih (h.fire (Nat.lt_of_le_of_ne h.early now)).1
    | pass =>
      rw [latest]
      by_cases now : r.now = time
      · obtain ⟨fired, once, exactly⟩ := h.ring now
        have fired' : Fired time (r.step .pass) := ⟨Nat.le_succ_of_le fired.past, fired.later⟩
        have same : startsAt time (r.run (.pass :: moves)).past = startsAt time r.fire.past :=
          fired'.run moves
        rw [if_pos now, same]
        exact ⟨once, exactly⟩
      · rw [if_neg now]
        have early := Nat.lt_of_le_of_ne h.early now
        obtain ⟨awaits, later⟩ := h.fire early
        exact ih (r := r.step .pass) ⟨awaits.pace, early, awaits.silent, awaits.set,
          fun d alarm => ⟨later d alarm, (awaits.due d alarm).2⟩⟩

/-- The first press does not become long while a second one is pending, and then ends before it. -/
example : (run ⟨{ threshold := 2 }, 0, []⟩ [.call (.down 'a'), .pass, .call (.down 'b'),
      .pass, .pass, .fire, .call .up, .call .up]).past =
    [(3, .told (.longStart 'b')), (3, .told (.short 'a')), (3, .told (.longEnd 'b'))] := by
  decide

end Record

end ControlDeck.PressTimer
