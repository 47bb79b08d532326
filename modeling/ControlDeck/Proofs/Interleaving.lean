import ControlDeck.Proofs.Stopping

namespace ControlDeck

theorem PressTimer.arm_fresh {α : Type} (now : Nat) (t : PressTimer α) :
    (t.arm now).fresh = false := by
  rw [arm]
  split
  · rfl
  · rename_i waiting
    exact Bool.eq_false_iff.2 waiting

namespace Actuator

/-- What one of the tasks of an actuator does when it has its turn: it goes on as far as its next
wait, and no other task comes in between. -/
inductive Turn where
  /-- The timer begins to wait for the latest press to become long. -/
  | arm
  /-- The timer wakes up. -/
  | ring
  /-- What presses have turned out to be is acted on. -/
  | phases
  /-- Cycles are worked off. -/
  | pacing
  /-- The chore with the given index is taken up. -/
  | chore (i : Nat)
  /-- The tap with the given index has been held for long enough, or is cut short. -/
  | endTap (i : Nat)

def turn (now : Nat) (a : Actuator) : Turn → Actuator × List Stroke
  | .arm => ({ a with timer := a.timer.arm now }, [])
  | .ring =>
    if a.timer.fresh then (a, [])
    else
      let (timer, phase) := a.timer.tick now
      ({ a with timer, phases := a.phases ++ phase.toList }, [])
  | .phases => a.run now .phases
  | .pacing => a.run now .pacing
  | .chore i =>
    match a.chores[i]? with
    | some chore => run now { a with chores := a.chores.eraseIdx i } chore
    | none => (a, [])
  | .endTap i =>
    match a.taps[i]? with
    | some (targets, due) =>
      if a.stopped ∨ due ≤ now then
        ({ a with taps := a.taps.eraseIdx i }, targets.map .release)
      else (a, [])
    | none => (a, [])

def turns (now : Nat) : List Turn → Actuator → Actuator × List Stroke
  | [], a => (a, [])
  | t :: ts, a =>
    let (a, strokes) := a.turn now t
    let (a, more) := turns now ts a
    (a, strokes ++ more)

/-- All that a stop does before it waits for the pacer to come to its end: the tasks are told to
end, and the long press that is held is released. -/
def halt (a : Actuator) : Actuator × List Stroke :=
  (a.ended, a.timer.longHeld.elim [] fun aim => aim.long.map .release)

theorem turns_append (now : Nat) (ts us : List Turn) (a : Actuator) :
    turns now (ts ++ us) a =
      ((turns now us (turns now ts a).1).1,
        (turns now ts a).2 ++ (turns now us (turns now ts a).1).2) := by
  induction ts generalizing a with
  | nil => rfl
  | cons t ts ih => simp only [List.cons_append, turns, ih, List.append_assoc]

/-- What the tasks come to if they have their turns in some order. -/
def Schedules (now : Nat) (a : Actuator) (done : Actuator × List Stroke) : Prop :=
  ∃ ts, turns now ts a = done

theorem Schedules.refl (now : Nat) (a : Actuator) : Schedules now a (a, []) :=
  ⟨[], rfl⟩

theorem Schedules.one (now : Nat) (a : Actuator) (t : Turn) : Schedules now a (a.turn now t) :=
  ⟨[t], by simp [turns]⟩

theorem Schedules.trans {now : Nat} {a : Actuator} {b c : Actuator × List Stroke}
    (h : Schedules now a b) (h' : Schedules now b.1 c) : Schedules now a (c.1, b.2 ++ c.2) := by
  obtain ⟨ts, rfl⟩ := h
  obtain ⟨us, rfl⟩ := h'
  exact ⟨ts ++ us, turns_append now ts us a⟩

/-- A task does not look at what is left for others. -/
theorem run_chores (now : Nat) (a : Actuator) (chores : List Chore) (chore : Chore) :
    run now { a with chores } chore =
      ({ (run now a chore).1 with chores }, (run now a chore).2) := by
  cases chore with
  | pacing => rfl
  | phases =>
    simp only [run, runPhases]
    split
    · rfl
    · split <;> rfl
  | tap targets =>
    simp only [run]
    split <;> rfl

/-- Chores are done one after the other if each task has its turn in the order of the chores. -/
theorem schedules_runAll (now : Nat) (a : Actuator) (chores : List Chore) :
    Schedules now { a with chores } (runAll now { a with chores := [] } chores) := by
  induction chores generalizing a with
  | nil => exact .refl now _
  | cons chore chores ih =>
    have first : turn now { a with chores := chore :: chores } (.chore 0) =
        ({ (run now a chore).1 with chores }, (run now a chore).2) :=
      run_chores now a chores chore
    have one := Schedules.one now { a with chores := chore :: chores } (.chore 0)
    rw [first] at one
    rw [runAll, run_chores]
    exact one.trans (ih (run now a chore).1)

theorem schedules_endTaps (now : Nat) (a : Actuator) :
    Schedules now a (a.endTaps now) := by
  -- the taps that come first are those that are held on
  have skip (kept taps : List (List Target × Nat)) : Schedules now { a with taps := kept ++ taps }
      ({ a with taps := kept ++ taps.filter fun tap => !(a.stopped || tap.2 ≤ now) },
        (taps.filter fun tap => a.stopped || tap.2 ≤ now).flatMap (·.1.map .release)) := by
    induction taps generalizing kept with
    | nil => simpa using Schedules.refl now { a with taps := kept ++ [] }
    | cons tap taps ih =>
      cases ended : a.stopped || tap.2 ≤ now with
      | true =>
        have first : turn now { a with taps := kept ++ tap :: taps } (.endTap kept.length) =
            ({ a with taps := kept ++ taps }, tap.1.map .release) := by
          rw [Bool.or_eq_true, decide_eq_true_eq] at ended
          simp [turn, ended, List.eraseIdx_append_of_length_le]
        have one := Schedules.one now { a with taps := kept ++ tap :: taps } (.endTap kept.length)
        rw [first] at one
        simpa only [List.filter_cons, ended, Bool.not_true, Bool.false_eq_true, ↓reduceIte,
          List.flatMap_cons] using one.trans (ih kept)
      | false =>
        have later := ih (kept ++ [tap])
        simpa only [List.filter_cons, ended, Bool.not_false, Bool.false_eq_true, ↓reduceIte,
          List.append_assoc, List.singleton_append] using later
  simpa [endTaps, List.partition_eq_filter_filter, Function.comp_def] using skip [] a.taps

theorem runAll_append (now : Nat) (a : Actuator) (cs ds : List Chore) :
    runAll now a (cs ++ ds) = ((runAll now (runAll now a cs).1 ds).1,
      (runAll now a cs).2 ++ (runAll now (runAll now a cs).1 ds).2) := by
  induction cs generalizing a with
  | nil => rfl
  | cons c cs ih => simp only [List.cons_append, runAll, ih, List.append_assoc]

theorem schedules_catchUp (now : Nat) (a : Actuator) : Schedules now a (a.catchUp now) := by
  have chores (a : Actuator) : Schedules now a
      (runAll now { a with chores := [] } (a.chores ++ [.phases, .pacing])) := by
    have phases := Schedules.one now (runAll now { a with chores := [] } a.chores).1 .phases
    have all := (schedules_runAll now a a.chores).trans (phases.trans (.one now _ .pacing))
    rw [runAll_append]
    simp only [runAll, List.append_nil]
    exact all
  exact (schedules_endTaps now a).trans (chores (a.endTaps now).1)

/-- To do all work that is due is to let each task have its turn. -/
theorem schedules_settle (now : Nat) (a : Actuator) : Schedules now a (a.settle now) :=
  (Schedules.one now a .arm).trans
    (schedules_runAll now { a with timer := a.timer.arm now } a.chores)

theorem schedules_tick (now : Nat) (a : Actuator) : Schedules now a (a.tick now) := by
  let armed : Actuator := { a with timer := a.timer.arm now }
  have rings : armed.turn now .ring = ({ a with
      timer := ((a.timer.arm now).tick now).1
      phases := a.phases ++ ((a.timer.arm now).tick now).2.toList }, []) := by
    rw [turn, if_neg (by simp [armed, PressTimer.arm_fresh])]
  have ring := Schedules.one now armed .ring
  rw [rings] at ring
  rw [tick_eq]
  exact ((Schedules.one now a .arm).trans ring).trans (schedules_catchUp now _)

end Actuator

namespace Rig.Usage

/-- What is asked of a rig. -/
inductive Call where
  | press (read : Readings)
  | release (i : Nat)
  | rotate (ticks : Int) (read : Readings)
  | tap (read : Readings)
  | bind (bindings : Bindings)
  | deactivate

def Call.event : Call → Event
  | press read => .press read
  | release i => .release i
  | rotate ticks read => .rotate ticks read
  | tap read => .tap read
  | bind bindings => .bind bindings
  | deactivate => .deactivate

/-- One step of a rig in use. The steps of callers, of the tasks and of the clock may follow each
other in any order. -/
inductive Move where
  | call (c : Call)
  | turn (t : Actuator.Turn)
  /-- A millisecond goes by. -/
  | pass
  /-- A stop begins. -/
  | halt
  /-- A stop releases all that is still held, and returns. -/
  | finish

def move (u : Usage) : Move → Usage × List Effect
  | .call c => u.step c.event
  | .turn t => u.act fun a => a.turn u.now t
  | .pass => ({ u with now := u.now + 1 }, [])
  | .halt => u.act Actuator.halt
  | .finish => u.act fun a => (a, [.releaseHeld])

def moves : List Move → Usage → Usage × List Effect
  | [], u => (u, [])
  | m :: ms, u =>
    let (u, effects) := u.move m
    let (u, more) := moves ms u
    (u, effects ++ more)

theorem moves_append (ms ns : List Move) (u : Usage) :
    moves (ms ++ ns) u =
      ((moves ns (moves ms u).1).1, (moves ms u).2 ++ (moves ns (moves ms u).1).2) := by
  induction ms generalizing u with
  | nil => rfl
  | cons m ms ih => simp only [List.cons_append, moves, ih, List.append_assoc]

theorem moves_turns (ts : List Actuator.Turn) (u : Usage) :
    moves (ts.map .turn) u = u.act (Actuator.turns u.now ts) := by
  induction ts generalizing u with
  | nil => rfl
  | cons t ts ih =>
    simp only [List.map_cons, moves, ih, move, act, Rig.act, Actuator.turns, Held.performAll_append]
    rfl

theorem moves_schedule {u : Usage} {f : Actuator → Actuator × List Stroke}
    (h : Actuator.Schedules u.now u.rig.actuator (f u.rig.actuator)) :
    ∃ ms, moves ms u = u.act f := by
  obtain ⟨ts, same⟩ := h
  refine ⟨ts.map .turn, ?_⟩
  rw [moves_turns, act, act, Rig.act, Rig.act, same]

/-- Whatever happens to a rig at once happens to it step by step. -/
theorem step_moves (u : Usage) (event : Event) : ∃ ms, moves ms u = u.step event := by
  have call (c : Call) : ∃ ms, moves ms u = u.step c.event :=
    ⟨[.call c], by simp [moves, move]⟩
  cases event with
  | press read => exact call (.press read)
  | release i => exact call (.release i)
  | rotate ticks read => exact call (.rotate ticks read)
  | tap read => exact call (.tap read)
  | bind bindings => exact call (.bind bindings)
  | deactivate => exact call .deactivate
  | settle => exact moves_schedule (Actuator.schedules_settle u.now _)
  | tick =>
    obtain ⟨ms, same⟩ := moves_schedule (u := { u with now := u.now + 1 })
      (Actuator.schedules_tick (u.now + 1) u.rig.actuator)
    exact ⟨.pass :: ms, by rw [moves]; exact same⟩

theorem meet_moves (u : Usage) (occasion : Occasion) : ∃ ms, moves ms u = u.meet occasion := by
  cases occasion with
  | event event => exact u.step_moves event
  | stop =>
    obtain ⟨ms, same⟩ := moves_schedule (u := (u.move .halt).1)
      (Actuator.schedules_catchUp u.now u.rig.actuator.ended)
    refine ⟨.halt :: (ms ++ [.finish]), ?_⟩
    simp only [moves, moves_append, same]
    simp only [meet, move, act, Rig.act, Actuator.stop_eq, Actuator.halt, Held.performAll_append,
      Held.after_append, List.append_nil, List.append_assoc]
    rfl

/-- So the rig of the device does what its tasks may do. -/
theorem live_moves (occasions : List Occasion) (u : Usage) :
    ∃ ms, moves ms u = live occasions u := by
  induction occasions generalizing u with
  | nil => exact ⟨[], rfl⟩
  | cons occasion occasions ih =>
    obtain ⟨ms, first⟩ := u.meet_moves occasion
    obtain ⟨ns, later⟩ := ih (u.meet occasion).1
    exact ⟨ms ++ ns, by rw [moves_append, first, later]; rfl⟩

end Rig.Usage

end ControlDeck
