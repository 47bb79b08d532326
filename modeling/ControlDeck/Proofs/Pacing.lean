import ControlDeck.Clock
import ControlDeck.Pacer
import ControlDeck.Proofs.Strokes

namespace ControlDeck

namespace Cycle

/-- What goes down when the cycle starts. -/
def downs (c : Cycle) : List Effect :=
  (c.hotkey.map .keyDown).toList ++
    (c.trigger.map fun name => .send (.press (.trigger name))).toList ++
    (c.role.map fun role => .send (.press (.role role))).toList

/-- What goes up when the cycle ends. -/
def ups (c : Cycle) : List Effect :=
  (c.hotkey.map .keyUp).toList ++
    (c.trigger.map fun name => .send (.release (.trigger name))).toList ++
    (c.role.map fun role => .send (.release (.role role))).toList

/-- What is held between start and end. -/
def controls (c : Cycle) : Held :=
  (c.trigger.map .trigger).toList ++ (c.role.map .role).toList

theorem performAll_presses (c : Cycle) : Held.performAll [] c.presses = (c.controls, c.downs) := by
  obtain ⟨hotkey, trigger, role⟩ := c
  cases hotkey <;> cases trigger <;> cases role <;>
    simp [presses, targets, controls, downs, Held.performAll, Held.perform, Held.press]

theorem performAll_releases (c : Cycle) :
    Held.performAll c.controls c.releases = ([], c.ups) := by
  obtain ⟨hotkey, trigger, role⟩ := c
  cases hotkey <;> cases trigger <;> cases role <;>
    simp [releases, targets, controls, ups, Held.performAll, Held.perform, Held.release]

theorem performAll_both (c : Cycle) :
    Held.performAll [] (c.presses ++ c.releases) = ([], c.downs ++ c.ups) := by
  simp only [Held.performAll_append, Held.after, performAll_presses, performAll_releases]

end Cycle

namespace Pacer

/-- Cycles with the times of their arrival are laid out one after the other, from some time on. -/
def schedule (dwell : Nat) : Nat → List (Nat × Cycle) → List (Nat × Effect)
  | _, [] => []
  | free, (arrival, c) :: rest =>
    let begun := max arrival free
    let ended := begun + dwell
    c.downs.map (begun, ·) ++ c.ups.map (ended, ·) ++ schedule dwell ended rest

/-- What is due is done to what is held. -/
def tick (now : Nat) (s : Pacer × Held) : (Pacer × Held) × List Effect :=
  let (pacer, strokes) := s.1.run now
  let (held, effects) := s.2.performAll strokes
  ((pacer, held), effects)

/-- The pacer in use: what time it is, and what was done when. -/
structure Record where
  pacer : Pacer
  held : Held := []
  now : Nat := 0
  past : List (Nat × Effect) := []

inductive Move where
  | enqueue (c : Cycle) (count : Nat)
  /-- What is due is done. -/
  | work
  /-- A millisecond passes, but not before what is due is done. -/
  | pass

namespace Record

def work (r : Record) : Record :=
  let ((pacer, held), effects) := tick r.now (r.pacer, r.held)
  { r with pacer, held, past := r.past ++ effects.map (r.now, ·) }

def step (r : Record) : Move → Record
  | .enqueue c count => { r with pacer := r.pacer.enqueue c count }
  | .work => r.work
  | .pass => { r.work with now := r.now + 1 }

def run (r : Record) (moves : List Move) : Record :=
  moves.foldl step r

end Record

/-- The cycles that are enqueued, each copy by itself, with the times of their arrival. -/
def arrivals : Nat → List Move → List (Nat × Cycle)
  | _, [] => []
  | now, .enqueue c count :: moves => List.replicate count (now, c) ++ arrivals now moves
  | now, .work :: moves => arrivals now moves
  | now, .pass :: moves => arrivals (now + 1) moves

/-- When the pacer is free for the cycles that wait. -/
def free (now : Nat) (current : Option (Cycle × Nat)) : Nat :=
  current.elim now (·.2)

/-- What is still to be done: the held cycle ends, and the others follow. -/
def ahead (dwell now : Nat) (current : Option (Cycle × Nat)) (waiting : List (Nat × Cycle)) :
    List (Nat × Effect) :=
  (current.elim [] fun (c, due) => c.ups.map (due, ·)) ++ schedule dwell (free now current) waiting

/-- Nothing is due: cycles wait for a held one only, which ends later. -/
structure Rests (now : Nat) (current : Option (Cycle × Nat)) (waiting : List Cycle) : Prop where
  idle : current = none → waiting = []
  busy : ∀ c due, current = some (c, due) → now < due

section Schedule

variable {dwell now : Nat} {as : List (Nat × Cycle)} {cs : List Cycle}

theorem le_of_mem_schedule {begin : Nat} {e : Nat × Effect} (h : e ∈ schedule dwell begin as) :
    begin ≤ e.1 := by
  induction as generalizing begin with
  | nil => simp [schedule] at h
  | cons a as ih =>
    simp only [schedule, List.mem_append, List.mem_map] at h
    rcases h with (⟨_, -, rfl⟩ | ⟨_, -, rfl⟩) | rest
    · exact Nat.le_max_right ..
    · show begin ≤ max a.1 begin + dwell
      omega
    · have later := ih rest
      omega

/-- A schedule of what is yet to arrive may as well begin later. -/
theorem schedule_begin {begin begin' : Nat} (le : begin ≤ begin')
    (later : ∀ a ∈ as, begin' ≤ a.1) : schedule dwell begin as = schedule dwell begin' as := by
  cases as with
  | nil => rfl
  | cons a as =>
    have first := later a List.mem_cons_self
    have same : max a.1 begin = max a.1 begin' := by omega
    simp only [schedule, same]

/-- When cycles arrived does not matter where the pacer is not free before. -/
theorem schedule_waiting {begin now' : Nat} (le : now ≤ begin) (le' : now' ≤ begin) :
    schedule dwell begin (cs.map (now, ·) ++ as) =
      schedule dwell begin (cs.map (now', ·) ++ as) := by
  induction cs generalizing begin with
  | nil => rfl
  | cons c cs ih =>
    have same : max now begin = begin := Nat.max_eq_right le
    have same' : max now' begin = begin := Nat.max_eq_right le'
    simp only [List.map_cons, List.cons_append, schedule, same, same']
    rw [ih (by omega) (by omega)]

/-- A millisecond in which nothing is due changes nothing in what is still to be done. -/
theorem Rests.ahead_succ {current : Option (Cycle × Nat)} (h : Rests now current cs)
    (later : ∀ a ∈ as, now + 1 ≤ a.1) :
    ahead dwell (now + 1) current (cs.map (now + 1, ·) ++ as) =
      ahead dwell now current (cs.map (now, ·) ++ as) := by
  cases current with
  | none =>
    rw [h.idle rfl]
    exact (schedule_begin (Nat.le_succ now) later).symm
  | some held =>
    obtain ⟨c, due⟩ := held
    have ends := h.busy c due rfl
    exact congrArg (c.ups.map (due, ·) ++ ·) (schedule_waiting ends (Nat.le_of_lt ends))

theorem Rests.lt_of_mem_ahead {current : Option (Cycle × Nat)} {e : Nat × Effect}
    (h : Rests now current cs) (he : e ∈ ahead dwell now current (cs.map (now, ·))) :
    now < e.1 := by
  cases current with
  | none =>
    rw [h.idle rfl] at he
    simp [ahead, schedule] at he
  | some held =>
    obtain ⟨c, due⟩ := held
    have ends := h.busy c due rfl
    simp only [ahead, free, Option.elim, List.mem_append, List.mem_map] at he
    rcases he with ⟨_, -, rfl⟩ | rest
    · exact ends
    · exact Nat.lt_of_lt_of_le ends (le_of_mem_schedule rest)

/-- Cycles that wait while nothing is held are begun, and what is done so is what their schedule has
for this time. -/
theorem performAll_start (now dwell : Nat) (cs : List Cycle) :
    ∃ effects,
      Held.performAll [] (start now dwell cs).2.2 =
        ((start now dwell cs).1.elim [] (·.1.controls), effects) ∧
      Rests now (start now dwell cs).1 (start now dwell cs).2.1 ∧
      ∀ later, schedule dwell now (cs.map (now, ·) ++ later) = effects.map (now, ·) ++
        ahead dwell now (start now dwell cs).1
          ((start now dwell cs).2.1.map (now, ·) ++ later) := by
  induction cs with
  | nil => exact ⟨[], rfl, ⟨fun _ => rfl, by simp [start]⟩, fun _ => rfl⟩
  | cons c cs ih =>
    by_cases zero : dwell = 0
    · -- the cycle is over at once, and the next one starts
      obtain ⟨effects, performed, rests, scheduled⟩ := ih
      refine ⟨c.downs ++ c.ups ++ effects, ?_, ?_, ?_⟩
      · subst zero
        simp only [start, if_true, Held.performAll_append [] (c.presses ++ c.releases), Held.after,
          c.performAll_both, performed]
      · simpa only [start, zero, if_true] using rests
      · intro later
        subst zero
        simp only [start, if_true, List.map_cons, List.cons_append, schedule, Nat.max_self,
          Nat.add_zero, scheduled, List.map_append, List.append_assoc]
    · refine ⟨c.downs, ?_, ?_, ?_⟩
      · simp only [start, zero, if_false, c.performAll_presses, Option.elim]
      · simp only [start, zero, if_false]
        refine ⟨by simp, ?_⟩
        rintro _ _ ⟨⟩
        omega
      · intro later
        simp only [start, zero, if_false, List.map_cons, List.cons_append, schedule, Nat.max_self,
          ahead, free, Option.elim, List.append_assoc]

end Schedule

/-- Either a cycle is held on, or the one that was held is released and those that wait are
begun. -/
theorem run_cases (now : Nat) {p : Pacer} (running : p.stopped = false) :
    (∃ c due, p.current = some (c, due) ∧ now < due ∧ p.run now = (p, [])) ∨
    ((∀ c due, p.current = some (c, due) → due ≤ now) ∧
      p.run now =
        ({ p with
            current := (start now p.dwell p.waiting).1
            waiting := (start now p.dwell p.waiting).2.1 },
          (p.current.elim [] (·.1.releases)) ++ (start now p.dwell p.waiting).2.2)) := by
  obtain ⟨dwell, waiting, current, stopped⟩ := p
  subst running
  cases current with
  | none => exact .inr ⟨nofun, rfl⟩
  | some held =>
    obtain ⟨c, due⟩ := held
    by_cases early : now < due
    · exact .inl ⟨c, due, rfl, early, by simp [Pacer.run, early]⟩
    · refine .inr ⟨?_, by simp [Pacer.run, early]⟩
      rintro _ _ ⟨⟩
      exact Nat.le_of_not_lt early

/-- The record keeps to the schedule of what has arrived, whatever is enqueued later. -/
structure Record.Keeps (r : Record) (dwell : Nat) (as : List (Nat × Cycle)) : Prop where
  pace : r.pacer.dwell = dwell
  running : r.pacer.stopped = false
  held : r.held = r.pacer.current.elim [] (·.1.controls)
  due : ∀ c due, r.pacer.current = some (c, due) → r.now ≤ due
  scheduled : ∀ later, (∀ a ∈ later, r.now ≤ a.1) →
    r.past ++ ahead dwell r.now r.pacer.current (r.pacer.waiting.map (r.now, ·) ++ later) =
      schedule dwell 0 (as ++ later)

namespace Record

variable {r : Record} {dwell : Nat} {as : List (Nat × Cycle)}

theorem Keeps.fresh (dwell : Nat) : Keeps ⟨{ dwell }, [], 0, []⟩ dwell [] where
  pace := rfl
  running := rfl
  held := rfl
  due := nofun
  scheduled := fun _ _ => rfl

theorem Keeps.enqueue (h : r.Keeps dwell as) (c : Cycle) (count : Nat) :
    (r.step (.enqueue c count)).Keeps dwell (as ++ List.replicate count (r.now, c)) := by
  have grown : r.pacer.enqueue c count =
      { r.pacer with waiting := r.pacer.waiting ++ List.replicate count c } := by
    simp [Pacer.enqueue, h.running]
  simp only [step, grown]
  refine ⟨h.pace, h.running, h.held, h.due, ?_⟩
  intro later after
  have copies := h.scheduled (List.replicate count (r.now, c) ++ later) (by
    intro a ha
    rcases List.mem_append.1 ha with copy | ha
    · exact Nat.le_of_eq (by rw [List.eq_of_mem_replicate copy])
    · exact after a ha)
  simpa only [List.map_append, List.map_replicate, List.append_assoc] using copies

theorem work_of_rests (running : r.pacer.stopped = false)
    (rests : Rests r.now r.pacer.current r.pacer.waiting) : r.work = r := by
  obtain ⟨⟨dwell, waiting, current, stopped⟩, held, now, past⟩ := r
  subst running
  cases current with
  | none =>
    obtain rfl : waiting = [] := rests.idle rfl
    simp [work, tick, Pacer.run, Pacer.start, Held.performAll]
  | some busy =>
    have early : now < busy.2 := rests.busy _ _ rfl
    simp [work, tick, Pacer.run, early, Held.performAll]

/-- What is held until now goes up now, and nothing is held then. -/
theorem Keeps.performAll_release (h : r.Keeps dwell as)
    (past : ∀ c due, r.pacer.current = some (c, due) → due ≤ r.now) :
    ∃ ups, r.held.performAll (r.pacer.current.elim [] (·.1.releases)) = ([], ups) ∧
      ∀ waiting, ahead dwell r.now r.pacer.current waiting =
        ups.map (r.now, ·) ++ schedule dwell r.now waiting := by
  rw [h.held]
  cases current : r.pacer.current with
  | none => exact ⟨[], rfl, fun _ => rfl⟩
  | some held =>
    obtain ⟨c, due⟩ := held
    have now : due = r.now := Nat.le_antisymm (past c due current) (h.due c due current)
    exact ⟨c.ups, c.performAll_releases, fun _ => by rw [ahead, free, now]; rfl⟩

/-- What is due is done, and then nothing is due. -/
theorem Keeps.work (h : r.Keeps dwell as) :
    r.work.Keeps dwell as ∧ Rests r.now r.work.pacer.current r.work.pacer.waiting := by
  rcases run_cases r.now h.running with ⟨c, due, current, early, ran⟩ | ⟨past, ran⟩
  · have rests : Rests r.now r.pacer.current r.pacer.waiting := by
      rw [current]
      refine ⟨nofun, ?_⟩
      rintro _ _ ⟨⟩
      exact early
    rw [work_of_rests h.running rests]
    exact ⟨h, rests⟩
  · obtain ⟨ups, released, ended⟩ := h.performAll_release past
    obtain ⟨effects, performed, rests, begun⟩ :=
      performAll_start r.now r.pacer.dwell r.pacer.waiting
    simp only [Record.work, tick, ran, Held.performAll_append, Held.after, released, performed]
    refine ⟨⟨h.pace, h.running, rfl, ?_, ?_⟩, rests⟩
    · intro c due current
      exact Nat.le_of_lt (rests.busy c due current)
    · intro later after
      rw [← h.scheduled later after, ended, ← h.pace, begun]
      simp only [List.map_append, List.append_assoc]

theorem Keeps.pass (h : r.Keeps dwell as) : (r.step .pass).Keeps dwell as := by
  obtain ⟨kept, rests⟩ := h.work
  refine ⟨kept.pace, kept.running, kept.held, ?_, ?_⟩
  · intro c due current
    exact rests.busy c due current
  · intro later after
    rw [← kept.scheduled later fun a ha => Nat.le_of_succ_le (after a ha)]
    exact congrArg (r.work.past ++ ·) (rests.ahead_succ after)

theorem Keeps.run (h : r.Keeps dwell as) (moves : List Move) :
    (r.run moves).Keeps dwell (as ++ arrivals r.now moves) := by
  induction moves generalizing r as with
  | nil =>
    rw [arrivals, List.append_nil]
    exact h
  | cons move moves ih =>
    cases move with
    | enqueue c count =>
      rw [arrivals, ← List.append_assoc]
      exact ih (h.enqueue c count)
    | work => exact ih h.work.1
    | pass => exact ih h.pass

/-- Time goes on by the clock just as by moves. -/
theorem Keeps.advance_eq_run (h : r.Keeps dwell as)
    (rests : Rests r.now r.pacer.current r.pacer.waiting) (ms : Nat) :
    ∃ more, (r.run (List.replicate ms [Move.pass, .work]).flatten).past = r.past ++ more ∧
      Clock.advance tick ms r.now (r.pacer, r.held) =
        (((r.run (List.replicate ms [Move.pass, .work]).flatten).pacer,
          (r.run (List.replicate ms [Move.pass, .work]).flatten).held), more) := by
  induction ms generalizing r with
  | zero => exact ⟨[], (List.append_nil _).symm, rfl⟩
  | succ ms ih =>
    have passed : r.step .pass = { r with now := r.now + 1 } := by
      rw [step, work_of_rests h.running rests]
    have unrolled : r.run (List.replicate (ms + 1) [Move.pass, .work]).flatten =
        (r.step .pass).work.run (List.replicate ms [Move.pass, .work]).flatten := rfl
    obtain ⟨kept, rests'⟩ := h.pass.work
    obtain ⟨more, past, advanced⟩ := ih kept rests'
    rw [unrolled, passed]
    rw [passed] at past advanced
    refine ⟨(tick (r.now + 1) (r.pacer, r.held)).2.map (r.now + 1, ·) ++ more, ?_, ?_⟩
    · rw [past, ← List.append_assoc]
      rfl
    · rw [Clock.advance]
      exact congrArg (Prod.map id ((tick (r.now + 1) (r.pacer, r.held)).2.map (r.now + 1, ·) ++ ·))
        advanced

end Record

/-- Up to any time just that is done which the schedule of the enqueued cycles has by then. Only
what is due at the present may not have been done yet. -/
theorem run_keepsSchedule (dwell : Nat) (moves : List Move) {r : Record} {t : Nat}
    (h : Record.run ⟨{ dwell }, [], 0, []⟩ moves = r) (le : t ≤ r.now) :
    r.work.past.filter (·.1 ≤ t) = (schedule dwell 0 (arrivals 0 moves)).filter (·.1 ≤ t) ∧
      (t < r.now → r.past.filter (·.1 ≤ t) = r.work.past.filter (·.1 ≤ t)) := by
  have keeps : r.Keeps dwell (arrivals 0 moves) := h ▸ (Record.Keeps.fresh dwell).run moves
  obtain ⟨kept, rests⟩ := keeps.work
  constructor
  · have all := kept.scheduled [] nofun
    rw [List.append_nil, List.append_nil] at all
    have none : (ahead dwell r.now r.work.pacer.current
        (r.work.pacer.waiting.map (r.now, ·))).filter (·.1 ≤ t) = [] := by
      apply List.filter_eq_nil_iff.2
      intro e he
      have later : r.now < e.1 := rests.lt_of_mem_ahead he
      simp only [decide_eq_true_eq, Nat.not_le]
      omega
    rw [← all, List.filter_append]
    exact (List.append_right_eq_self.2 none).symm
  · intro before
    have none : ((tick r.now (r.pacer, r.held)).2.map (r.now, ·)).filter (·.1 ≤ t) = [] := by
      simp [before]
    show _ = (r.past ++ (tick r.now (r.pacer, r.held)).2.map (r.now, ·)).filter (·.1 ≤ t)
    rw [List.filter_append, none, List.append_nil]

/-- A trigger that is asked for once more at the very time its first cycle ends, and a cycle without
effect between the two. -/
def atTheEnd : List Move :=
  [.enqueue { trigger := some "horn" } 1, .work, .pass, .enqueue {} 1, .pass,
    .enqueue { hotkey := some ⟨[], "A"⟩, trigger := some "horn" } 2, .work, .pass, .pass, .work,
    .pass, .pass, .pass]

theorem run_keepsSchedule_atTheEnd :
    6 ≤ (Record.run ⟨{ dwell := 2 }, [], 0, []⟩ atTheEnd).now ∧
      (Record.run ⟨{ dwell := 2 }, [], 0, []⟩ atTheEnd).work.past.filter (·.1 ≤ 6) =
        [(0, .send (.press (.trigger "horn"))), (2, .send (.release (.trigger "horn"))),
          (4, .keyDown ⟨[], "A"⟩), (4, .send (.press (.trigger "horn"))),
          (6, .keyUp ⟨[], "A"⟩), (6, .send (.release (.trigger "horn"))),
          (6, .keyDown ⟨[], "A"⟩), (6, .send (.press (.trigger "horn")))] := by
  have late : 6 ≤ (Record.run ⟨{ dwell := 2 }, [], 0, []⟩ atTheEnd).now := by decide
  have upTo := run_keepsSchedule 2 atTheEnd rfl late
  refine ⟨late, upTo.1.trans ?_⟩
  decide +kernel

end Pacer

end ControlDeck
