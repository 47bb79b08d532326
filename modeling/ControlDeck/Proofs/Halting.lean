import ControlDeck.Proofs.Pacing

namespace ControlDeck.Pacer

/-- A cycle from its press to its release. -/
structure Turn where
  cycle : Cycle
  begun : Nat
  ended : Nat

def Turn.effects (t : Turn) : List (Nat × Effect) :=
  t.cycle.downs.map (t.begun, ·) ++ t.cycle.ups.map (t.ended, ·)

/-- What has been done of the cycle that is held. -/
def opened (dwell : Nat) (current : Option (Cycle × Nat)) : List (Nat × Effect) :=
  current.elim [] fun (c, due) => c.downs.map (due - dwell, ·)

/-- The turn of the cycle that is held, if it ends now. -/
def closed (dwell now : Nat) (current : Option (Cycle × Nat)) : List Turn :=
  (current.map fun (c, due) => ⟨c, due - dwell, now⟩).toList

theorem closed_cycles (dwell now : Nat) (current : Option (Cycle × Nat)) :
    (closed dwell now current).map (·.cycle) = (current.map (·.1)).toList := by
  cases current <;> rfl

theorem mem_closed {dwell now : Nat} {current : Option (Cycle × Nat)} {t : Turn} :
    t ∈ closed dwell now current ↔
      ∃ c due, current = some (c, due) ∧ (⟨c, due - dwell, now⟩ : Turn) = t := by
  simp [closed]

/-- What happens to a pacer in use. -/
inductive Act where
  | move (m : Move)
  | stop

namespace Record

def stop (r : Record) : Record :=
  let (pacer, strokes) := r.pacer.stop r.now
  let (held, effects) := r.held.performAll strokes
  { r with pacer, held, past := r.past ++ effects.map (r.now, ·) }

def act (r : Record) : Act → Record
  | .move m => r.step m
  | .stop => r.stop

def live (r : Record) (acts : List Act) : Record :=
  acts.foldl act r

end Record

/-- Cycles that are begun at once are over at once as well, or one of them is held. -/
theorem start_turns (now dwell : Nat) (cs : List Cycle) :
    ∃ turns : List Turn,
      (Held.performAll [] (start now dwell cs).2.2).2.map (now, ·) =
        turns.flatMap Turn.effects ++ opened dwell (start now dwell cs).1 ∧
      turns.map (·.cycle) ++
        (((start now dwell cs).1.map (·.1)).toList ++ (start now dwell cs).2.1) = cs ∧
      (∀ t ∈ turns, t.begun = now ∧ t.ended = now + dwell ∧ dwell = 0) ∧
      ∀ c due, (start now dwell cs).1 = some (c, due) → due = now + dwell := by
  induction cs with
  | nil => exact ⟨[], rfl, rfl, nofun, nofun⟩
  | cons c cs ih =>
    by_cases zero : dwell = 0
    · subst zero
      obtain ⟨turns, effects, order, times, due⟩ := ih
      refine ⟨⟨c, now, now⟩ :: turns, ?_, ?_, ?_, ?_⟩
      · simp only [start, if_true, Held.performAll_append [] (c.presses ++ c.releases), Held.after,
          c.performAll_both, List.map_append, effects, List.flatMap_cons, Turn.effects]
        simp only [List.append_assoc]
      · simpa only [start, if_true, List.map_cons, List.cons_append, List.cons.injEq, true_and]
          using order
      · rw [List.forall_mem_cons]
        exact ⟨⟨rfl, rfl, rfl⟩, times⟩
      · simpa only [start, if_true] using due
    · refine ⟨[], ?_, ?_, nofun, ?_⟩
      · simp [start, zero, c.performAll_presses, opened]
      · simp [start, zero]
      · simp only [start, zero, if_false]
        rintro _ _ ⟨⟩
        rfl

namespace Record

variable {r : Record} {dwell : Nat} {as : List (Nat × Cycle)} {turns : List Turn}
  {cycles : List Cycle}

/-- The past consists of some turns that are over and the beginning of the one that is not; the
cycles that wait come after them. -/
structure Tells (r : Record) (dwell : Nat) (turns : List Turn) (cycles : List Cycle) : Prop where
  past : r.past = turns.flatMap Turn.effects ++ opened dwell r.pacer.current
  order : turns.map (·.cycle) ++
    ((r.pacer.current.map (·.1)).toList ++ r.pacer.waiting) = cycles
  done : ∀ t ∈ turns, t.ended = t.begun + dwell ∧ t.ended ≤ r.now
  since : ∀ c due, r.pacer.current = some (c, due) → dwell ≤ due ∧ due - dwell ≤ r.now

theorem Tells.enqueue (h : r.Tells dwell turns cycles) (running : r.pacer.stopped = false)
    (c : Cycle) (count : Nat) :
    (r.step (.enqueue c count)).Tells dwell turns (cycles ++ List.replicate count c) := by
  have grown : r.pacer.enqueue c count =
      { r.pacer with waiting := r.pacer.waiting ++ List.replicate count c } := by
    simp [Pacer.enqueue, running]
  simp only [step, grown]
  refine ⟨h.past, ?_, h.done, h.since⟩
  rw [← h.order]
  simp only [List.append_assoc]

/-- A cycle that is held and released now makes a turn. -/
theorem Tells.closes (h : r.Tells dwell turns cycles) :
    r.past ++ (r.pacer.current.elim [] (·.1.ups)).map (r.now, ·) =
      (turns ++ closed dwell r.now r.pacer.current).flatMap Turn.effects := by
  rw [h.past, List.flatMap_append, List.append_assoc]
  cases r.pacer.current with
  | none => rfl
  | some held => simp [opened, closed, Turn.effects]

theorem Keeps.released (h : r.Keeps dwell as) :
    r.held.performAll (r.pacer.current.elim [] (·.1.releases)) =
      ([], r.pacer.current.elim [] (·.1.ups)) := by
  rw [h.held]
  cases r.pacer.current with
  | none => rfl
  | some held => exact held.1.performAll_releases

theorem Tells.work (h : r.Tells dwell turns cycles) (keeps : r.Keeps dwell as) :
    ∃ turns, r.work.Tells dwell turns cycles := by
  rcases run_cases r.now keeps.running with ⟨c, due, current, early, ran⟩ | ⟨past, ran⟩
  · have rests : Rests r.now r.pacer.current r.pacer.waiting := by
      rw [current]
      refine ⟨nofun, ?_⟩
      rintro _ _ ⟨⟩
      exact early
    rw [work_of_rests keeps.running rests]
    exact ⟨turns, h⟩
  · obtain rfl := keeps.pace
    obtain ⟨more, effects, order, times, due⟩ :=
      start_turns r.now r.pacer.dwell r.pacer.waiting
    refine ⟨turns ++ closed r.pacer.dwell r.now r.pacer.current ++ more, ?_⟩
    simp only [Record.work, tick, ran, Held.performAll_append, Held.after, keeps.released]
    refine ⟨?_, ?_, ?_, ?_⟩
    · simp only [List.map_append, effects, ← List.append_assoc, h.closes, List.flatMap_append]
    · rw [← h.order, List.map_append, List.append_assoc, order, List.map_append, closed_cycles,
        List.append_assoc]
    · intro t ht
      simp only [List.mem_append, or_assoc] at ht
      rcases ht with ht | ht | ht
      · exact h.done t ht
      · obtain ⟨c, due, current, rfl⟩ := mem_closed.1 ht
        have := past c due current
        have := keeps.due c due current
        have := h.since c due current
        exact ⟨by show r.now = due - r.pacer.dwell + r.pacer.dwell; omega, Nat.le_refl _⟩
      · obtain ⟨begun, ended, zero⟩ := times t ht
        exact ⟨by rw [begun, ended], by rw [ended, zero]; exact Nat.le_refl _⟩
    · intro c due' current
      have := due c due' current
      show r.pacer.dwell ≤ due' ∧ due' - r.pacer.dwell ≤ r.now
      omega

theorem Tells.pass (h : r.work.Tells dwell turns cycles) :
    (r.step .pass).Tells dwell turns cycles where
  past := h.past
  order := h.order
  done := fun t ht => ⟨(h.done t ht).1, Nat.le_succ_of_le (h.done t ht).2⟩
  since := fun c due current =>
    ⟨(h.since c due current).1, Nat.le_succ_of_le (h.since c due current).2⟩

theorem Tells.run (h : r.Tells dwell turns cycles) (keeps : r.Keeps dwell as)
    (moves : List Move) :
    ∃ turns, (r.run moves).Tells dwell turns (cycles ++ (arrivals r.now moves).map (·.2)) := by
  induction moves generalizing r turns cycles as with
  | nil =>
    rw [arrivals, List.map_nil, List.append_nil]
    exact ⟨turns, h⟩
  | cons move moves ih =>
    cases move with
    | enqueue c count =>
      rw [arrivals, List.map_append, List.map_replicate, ← List.append_assoc]
      exact ih (h.enqueue keeps.running c count) (keeps.enqueue c count)
    | work =>
      obtain ⟨turns, worked⟩ := h.work keeps
      exact ih worked keeps.work.1
    | pass =>
      obtain ⟨turns, worked⟩ := h.work keeps
      exact ih worked.pass keeps.pass

/-- Nothing is left to do, and nothing is held. -/
structure Over (r : Record) : Prop where
  stopped : r.pacer.stopped = true
  waiting : r.pacer.waiting = []
  current : r.pacer.current = none
  held : r.held = []

theorem Keeps.stop (h : r.Keeps dwell as) :
    r.stop.Over ∧ r.stop.now = r.now ∧
      r.stop.past = r.past ++ (r.pacer.current.elim [] (·.1.ups)).map (r.now, ·) := by
  have performed : r.held.performAll (r.pacer.stop r.now).2 =
      ([], r.pacer.current.elim [] (·.1.ups)) := by
    show r.held.performAll (r.pacer.current.elim [] (·.1.releases) ++ [.releaseHeld]) = _
    -- the worker has released the cycle, and nothing is left for the forced release
    simp only [Held.performAll_append, Held.after, h.released]
    exact congrArg (Prod.mk []) (List.append_nil _)
  have stopped : r.stop = { r with
      pacer := (r.pacer.stop r.now).1
      held := (r.held.performAll (r.pacer.stop r.now).2).1
      past := r.past ++ (r.held.performAll (r.pacer.stop r.now).2).2.map (r.now, ·) } := rfl
  rw [stopped, performed]
  exact ⟨⟨rfl, rfl, rfl, rfl⟩, rfl, rfl⟩

theorem Over.run_eq (h : r.Over) : r.pacer.run r.now = (r.pacer, []) := by
  obtain ⟨⟨dwell, waiting, current, stopped⟩, held, now, past⟩ := r
  obtain ⟨rfl, rfl, rfl, -⟩ := h
  rfl

theorem Over.act (h : r.Over) (a : Act) : (r.act a).Over ∧ (r.act a).past = r.past := by
  have work : r.work.Over ∧ r.work.past = r.past := by
    simp only [Record.work, tick, h.run_eq, Held.performAll, List.map_nil, List.append_nil]
    exact ⟨⟨h.stopped, h.waiting, h.current, h.held⟩, trivial⟩
  cases a with
  | move m =>
    cases m with
    | enqueue c count =>
      have refused : r.pacer.enqueue c count = r.pacer := by simp [Pacer.enqueue, h.stopped]
      simp only [Record.act, step, refused]
      exact ⟨h, trivial⟩
    | work => exact work
    | pass => exact ⟨⟨work.1.stopped, work.1.waiting, work.1.current, work.1.held⟩, work.2⟩
  | stop =>
    obtain ⟨⟨dwell, waiting, current, stopped⟩, held, now, past⟩ := r
    obtain ⟨rfl, rfl, rfl, rfl⟩ := h
    exact ⟨⟨rfl, rfl, rfl, rfl⟩, List.append_nil past⟩

theorem Over.live (h : r.Over) (acts : List Act) :
    (r.live acts).Over ∧ (r.live acts).past = r.past := by
  induction acts generalizing r with
  | nil => exact ⟨h, rfl⟩
  | cons a acts ih =>
    obtain ⟨stillOver, same⟩ := h.act a
    obtain ⟨last, still⟩ := ih stillOver
    exact ⟨last, still.trans same⟩

end Record

/-- Whenever a pacer is stopped and whatever is called later, all that is ever done is that the
cycles that have begun by then are pressed and released once each, those first that have arrived
first. A cycle is released when its time is over, or at the stop if that is earlier. The stop adds
the releases of the cycle that is held and nothing else, and no control is held after it. -/
theorem stop_endsTurns (dwell : Nat) (moves : List Move) (later : List Act) {r ended : Record}
    (h : Record.run ⟨{ dwell }, [], 0, []⟩ moves = r) (hs : r.stop.live later = ended) :
    ended.held = [] ∧
      ended.past = r.past ++ (r.pacer.current.elim [] (·.1.ups)).map (r.now, ·) ∧
      ∃ turns : List Turn,
        ended.past = turns.flatMap Turn.effects ∧
        turns.map (·.cycle) ++ r.pacer.waiting = (arrivals 0 moves).map (·.2) ∧
        ∀ t ∈ turns, t.begun ≤ r.now ∧ t.ended = min (t.begun + dwell) r.now := by
  have fresh : Record.Keeps ⟨{ dwell }, [], 0, []⟩ dwell [] := .fresh dwell
  have keeps : r.Keeps dwell (arrivals 0 moves) := h ▸ fresh.run moves
  have blank : Record.Tells ⟨{ dwell }, [], 0, []⟩ dwell [] [] := ⟨rfl, rfl, nofun, nofun⟩
  obtain ⟨turns, tells⟩ := blank.run fresh moves
  rw [h] at tells
  obtain ⟨isOver, -, stopped⟩ := keeps.stop
  obtain ⟨last, still⟩ := isOver.live later
  rw [← hs]
  refine ⟨last.held, still.trans stopped, turns ++ closed dwell r.now r.pacer.current,
    (still.trans stopped).trans tells.closes, ?_, ?_⟩
  · rw [List.map_append, closed_cycles, List.append_assoc]
    exact tells.order
  · intro t ht
    rcases List.mem_append.1 ht with ht | ht
    · have := tells.done t ht
      omega
    · obtain ⟨c, due, current, rfl⟩ := mem_closed.1 ht
      have := keeps.due c due current
      have := tells.since c due current
      show due - dwell ≤ r.now ∧ r.now = min (due - dwell + dwell) r.now
      omega

/-- The second of three cycles is held when the pacer is stopped, and the last has just arrived. -/
def inMidDwell : List Move :=
  [.enqueue { trigger := some "horn" } 1,
    .enqueue { hotkey := some ⟨[], "A"⟩, trigger := some "horn" } 1,
    .pass, .pass, .pass, .enqueue { trigger := some "flash" } 1]

theorem stop_endsTurns_inMidDwell :
    (Record.live (Record.stop (Record.run ⟨{ dwell := 2 }, [], 0, []⟩ inMidDwell))
      [.move (.enqueue { trigger := some "flash" } 1), .move .pass, .stop, .move .pass]).past =
      [(0, .send (.press (.trigger "horn"))), (2, .send (.release (.trigger "horn"))),
        (2, .keyDown ⟨[], "A"⟩), (2, .send (.press (.trigger "horn"))),
        (3, .keyUp ⟨[], "A"⟩), (3, .send (.release (.trigger "horn")))] := by
  have ends := stop_endsTurns 2 inMidDwell
    [.move (.enqueue { trigger := some "flash" } 1), .move .pass, .stop, .move .pass] rfl rfl
  exact ends.2.1.trans (by decide +kernel)

end ControlDeck.Pacer
