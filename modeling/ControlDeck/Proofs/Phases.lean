import ControlDeck.Proofs.Levels

namespace ControlDeck

/-- What it comes to when a phase is acted on. -/
def PressPhase.strokes : PressPhase Aim → List Stroke
  | .short aim => aim.short.map .press ++ aim.short.map .release
  | .longStart aim => aim.long.map .press
  | .longEnd aim => aim.long.map .release

theorem Pacer.run_idle {p : Pacer} (hw : p.waiting = []) (hc : p.current = none) (now : Nat) :
    p.run now = (p, []) := by
  obtain ⟨dwell, waiting, current, stopped⟩ := p
  subst hw hc
  cases stopped <;> rfl

namespace Actuator

/-- What is still to come of the presses so far. -/
def coming (a : Actuator) : List Stroke :=
  (shortTargets a.shortPress).map .release ++ a.phases.flatMap PressPhase.strokes

/-- Nothing goes on but presses. -/
structure Calm (a : Actuator) : Prop where
  running : a.stopped = false
  waiting : a.pacer.waiting = []
  current : a.pacer.current = none
  taps : a.taps = []
  chores : ∀ chore ∈ a.chores, chore = .pacing ∨ chore = .phases

/-- The strokes are the next ones to come, and nothing but presses is affected by them. -/
structure Proceeds (a : Actuator) (strokes : List Stroke) (a' : Actuator) : Prop where
  calm : a'.Calm
  timer : a'.timer = a.timer
  bindings : a'.bindings = a.bindings
  chores : a'.chores = a.chores
  coming : strokes ++ a'.coming = a.coming

theorem Calm.refl {a : Actuator} (h : a.Calm) : a.Proceeds [] a :=
  ⟨h, rfl, rfl, rfl, rfl⟩

/-- Phases are acted on in their order, and what is not done at once is done before what follows. -/
theorem follow_strokes (now pause : Nat) (ps : List (PressPhase Aim)) :
    (follow now pause ps).2.2 ++ ((shortTargets (follow now pause ps).1).map .release ++
      (follow now pause ps).2.1.flatMap PressPhase.strokes) = ps.flatMap PressPhase.strokes := by
  induction ps with
  | nil => rfl
  | cons p ps ih =>
    rw [List.flatMap_cons, ← ih]
    cases p with
    | short aim =>
      rw [follow_short]
      split
      · simp only [PressPhase.strokes, List.append_assoc]
      · rw [PressPhase.strokes, List.append_assoc, ih]
        rfl
    | longStart aim => rw [follow_longStart, PressPhase.strokes, List.append_assoc]
    | longEnd aim => rw [follow_longEnd, PressPhase.strokes, List.append_assoc]

theorem releases_shortPress (held : Option (List Target × Nat)) :
    (held.elim [] fun (targets, _) => targets.map .release) =
      (shortTargets held).map Stroke.release := by
  cases held <;> rfl

theorem Calm.runPhases {a : Actuator} (h : a.Calm) (now : Nat) :
    a.Proceeds (a.runPhases now).2 (a.runPhases now).1 := by
  by_cases hd : a.shortPress.any (now < ·.2)
  · rw [Actuator.runPhases, if_neg (by simp [h.running]), if_pos hd]
    exact h.refl
  rw [runPhases_due h.running hd, releases_shortPress]
  refine ⟨⟨h.running, h.waiting, h.current, h.taps, h.chores⟩, rfl, rfl, rfl, ?_⟩
  rw [coming, coming, List.append_assoc, follow_strokes]

theorem Calm.run {a : Actuator} (h : a.Calm) (now : Nat) {chore : Chore}
    (hc : chore = .pacing ∨ chore = .phases) :
    a.Proceeds (a.run now chore).2 (a.run now chore).1 := by
  rcases hc with rfl | rfl
  · rw [Actuator.run, Pacer.run_idle h.waiting h.current]
    exact h.refl
  · exact h.runPhases now

/-- A phase is acted on after those before it. -/
theorem Calm.enlist {a : Actuator} (h : a.Calm) (timer : PressTimer Aim)
    (phase : PressPhase Aim) :
    ∃ chores, enlist .phases { a with timer, phases := a.phases ++ [phase] } =
        { a with timer, phases := a.phases ++ [phase], chores } ∧
      Calm { a with timer, phases := a.phases ++ [phase], chores } := by
  rw [Actuator.enlist]
  split
  · exact ⟨a.chores, rfl, h.running, h.waiting, h.current, h.taps, h.chores⟩
  · refine ⟨a.chores ++ [.phases], rfl, h.running, h.waiting, h.current, h.taps, ?_⟩
    intro chore hc
    rcases List.mem_append.1 hc with hc | hc
    · exact h.chores chore hc
    · exact .inr (List.mem_singleton.1 hc)

/-- For how many milliseconds there is something to do at most. -/
def wait (now : Nat) (a : Actuator) : Nat :=
  a.phases.length * (a.pause + 2) + a.shortPress.elim 0 fun held => held.2 - now + 1

theorem follow_stops (now pause : Nat) {ps : List (PressPhase Aim)} {n : Nat} (h : ps.length ≤ n) :
    ((follow now pause ps).1 = none ∧ (follow now pause ps).2.1 = []) ∨
      ∃ targets, (follow now pause ps).1 = some (targets, now + pause) ∧
        (follow now pause ps).2.1.length < n := by
  induction ps with
  | nil => exact .inl ⟨rfl, rfl⟩
  | cons p ps ih =>
    have later := ih (Nat.le_of_succ_le h)
    cases p with
    | short aim =>
      rw [follow_short]
      split
      · exact later
      · exact .inr ⟨aim.short, rfl, h⟩
    | longStart aim => exact later
    | longEnd aim => exact later

theorem Calm.wait_runPhases {a : Actuator} (h : a.Calm) (now : Nat) :
    (a.runPhases (now + 1)).1.wait (now + 1) ≤ a.wait now - 1 := by
  by_cases hd : a.shortPress.any (now + 1 < ·.2)
  · rw [Actuator.runPhases, if_neg (by simp [h.running]), if_pos hd]
    obtain ⟨held, hs, later⟩ := (Option.any_eq_true _ _).1 hd
    simp only [wait, hs, Option.elim_some]
    simp only [decide_eq_true_eq] at later
    omega
  rw [runPhases_due h.running hd]
  have stops := follow_stops (now + 1) a.pause (Nat.le_refl a.phases.length)
  rcases stops with ⟨none, done⟩ | ⟨targets, some, shorter⟩
  · simp [wait, none, done]
  · -- the phases that are left take less time by more than the new short press is held
    simp only [wait, some, Option.elim_some]
    have := Nat.mul_le_mul_right (a.pause + 2) (Nat.succ_le_of_lt shorter)
    rw [Nat.succ_mul] at this
    omega

theorem coming_eq_nil {a : Actuator} {now : Nat} (h : a.wait now = 0) : a.coming = [] := by
  rw [wait, Nat.add_eq_zero_iff, Nat.mul_eq_zero] at h
  have phases : a.phases = [] := List.eq_nil_of_length_eq_zero (h.1.resolve_right (by omega))
  cases hs : a.shortPress with
  | none => simp [coming, phases, hs, shortTargets]
  | some held => simp [hs] at h

end Actuator

end ControlDeck
