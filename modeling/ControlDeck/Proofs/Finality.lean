import ControlDeck.Proofs.Interleaving

namespace ControlDeck

/-- Nothing goes down by the effect, and nothing is sent. -/
def Effect.isQuiet : Effect → Bool
  | keyUp _ | warn _ => true
  | keyDown _ | send _ => false

theorem Held.perform_empty {s : Stroke} (h : ∀ t, s ≠ .press t) :
    (Held.perform [] s).1 = [] ∧ ∀ e ∈ (Held.perform [] s).2, e.isQuiet := by
  cases s with
  | press t => exact (h t rfl).elim
  | release t => cases t <;> simp [perform, Held.release, Effect.isQuiet]
  | releaseHeld => simp [perform, deactivate]
  | warn w => simp [perform, Effect.isQuiet]

/-- While nothing is held, strokes without a press only let keys go up. -/
theorem Held.performAll_empty {ss : List Stroke} (h : ∀ t, .press t ∉ ss) :
    Held.after [] ss = [] ∧ ∀ e ∈ (Held.performAll [] ss).2, e.isQuiet := by
  induction ss with
  | nil => exact ⟨rfl, fun _ he => (List.not_mem_nil he).elim⟩
  | cons s ss ih =>
    obtain ⟨held, effects⟩ := perform_empty fun t same => h t (same ▸ List.mem_cons_self)
    obtain ⟨later, more⟩ := ih fun t ht => h t (List.mem_cons_of_mem s ht)
    rw [after_cons, held]
    refine ⟨later, ?_⟩
    intro e he
    simp only [performAll, held, List.mem_append] at he
    exact he.elim (effects e) (more e)

open Stroke (Sheds)

namespace Actuator

/-- Each task by itself comes to its end without a press. -/
theorem Ending.turn {a : Actuator} (h : a.Ending) (now : Nat) (t : Turn) :
    (a.turn now t).1.Ending ∧ ∀ target, .press target ∉ (a.turn now t).2 := by
  have run {a : Actuator} (h : a.Ending) (chore : Chore) :
      (a.run now chore).1.Ending ∧ ∀ target, .press target ∉ (a.run now chore).2 := by
    obtain ⟨same, sheds⟩ := h.run now chore
    exact ⟨same ▸ h.without chore, sheds.press⟩
  cases t with
  | arm =>
    exact ⟨⟨h.stopped, h.pacer, (a.timer.arm_pending now).trans h.pending,
      (a.timer.arm_longHeld now).trans h.longHeld⟩, fun _ => List.not_mem_nil⟩
  | ring =>
    obtain ⟨-, pending, longHeld⟩ := PressTimer.tick_forgotten h.pending h.longHeld now
    rw [Actuator.turn]
    split
    · exact ⟨h, fun _ => List.not_mem_nil⟩
    · exact ⟨⟨h.stopped, h.pacer, pending, longHeld⟩, fun _ => List.not_mem_nil⟩
  | phases => exact run h .phases
  | pacing => exact run h .pacing
  | chore i =>
    rw [Actuator.turn]
    split
    · exact run (a := { a with chores := a.chores.eraseIdx i })
        ⟨h.stopped, h.pacer, h.pending, h.longHeld⟩ _
    · exact ⟨h, fun _ => List.not_mem_nil⟩
  | endTap i =>
    rw [Actuator.turn]
    split
    · split
      · exact ⟨⟨h.stopped, h.pacer, h.pending, h.longHeld⟩, (Sheds.release _).press⟩
      · exact ⟨h, fun _ => List.not_mem_nil⟩
    · exact ⟨h, fun _ => List.not_mem_nil⟩

theorem Ending.release {a : Actuator} (h : a.Ending) (session : Session) :
    (a.release session).1.Ending ∧ ∀ target, .press target ∉ (a.release session).2 := by
  cases session with
  | direct targets => exact ⟨h, (Sheds.release targets).press⟩
  | timed =>
    rw [Actuator.release, h.up]
    exact ⟨{ h with pending := rfl, longHeld := rfl }, (Sheds.warn _).press⟩

/-- Whatever state a stop finds, the tasks are told to end at once. -/
theorem halt_ending (a : Actuator) :
    a.halt.1.Ending ∧ ∀ target, .press target ∉ a.halt.2 := by
  refine ⟨⟨rfl, rfl, rfl, rfl⟩, ?_⟩
  rw [halt]
  cases a.timer.longHeld with
  | none => exact fun _ => List.not_mem_nil
  | some aim => exact (Sheds.release aim.long).press

end Actuator

namespace Rig.Usage

/-- What is asked to be done to targets by a step. -/
def asked (u : Usage) : Move → List Stroke
  | .call c => u.strokes c.event
  | .turn t => (u.rig.actuator.turn u.now t).2
  | .pass => []
  | .halt => u.rig.actuator.halt.2
  | .finish => [.releaseHeld]

theorem step_held (u : Usage) (event : Event) :
    (u.step event).1.rig.held = u.rig.held.after (u.strokes event) := by
  cases event with
  | release i =>
    rw [step, strokes]
    cases u.sessions[i]? <;> rfl
  | _ => rfl

theorem move_asked (u : Usage) (m : Move) :
    (u.move m).1.rig.held = u.rig.held.after (u.asked m) ∧
      (u.move m).2 = (u.rig.held.performAll (u.asked m)).2 := by
  cases m with
  | call c => exact ⟨u.step_held c.event, u.step_effects c.event⟩
  | turn | pass | halt | finish => exact ⟨rfl, rfl⟩

/-- Calls find that the work is ending, and press nothing either. -/
theorem ending_call {u : Usage} (h : u.rig.actuator.Ending) (c : Call) :
    (u.step c.event).1.rig.actuator.Ending ∧ ∀ target, .press target ∉ u.strokes c.event := by
  have none : ∀ target, Stroke.press target ∉ [] := fun _ => List.not_mem_nil
  cases c with
  | press read =>
    have silent : u.rig.actuator.press u.now read = (u.rig.actuator, .direct [], []) := by
      rw [Actuator.press, if_pos h.stopped]
    simp only [Call.event, step, strokes, Rig.press, silent]
    exact ⟨h, none⟩
  | release i =>
    rw [Call.event, step, strokes]
    cases u.sessions[i]? with
    | none => exact ⟨h, none⟩
    | some session => exact h.release session
  | rotate ticks read =>
    have silent : u.rig.actuator.rotate ticks read = (u.rig.actuator, []) := by
      rw [Actuator.rotate, if_pos (.inl h.stopped)]
    simp only [Call.event, step, strokes, act, Rig.act, silent]
    exact ⟨h, none⟩
  | tap read =>
    have silent : u.rig.actuator.tap read = (u.rig.actuator, []) := by
      rw [Actuator.tap, if_pos h.stopped]
    simp only [Call.event, step, strokes, act, Rig.act, silent]
    exact ⟨h, none⟩
  | bind bindings => exact ⟨⟨h.stopped, h.pacer, h.pending, h.longHeld⟩, none⟩
  | deactivate => exact ⟨h, Sheds.releaseHeld.press⟩

theorem ending_move {u : Usage} (h : u.rig.actuator.Ending) (m : Move) :
    (u.move m).1.rig.actuator.Ending ∧ ∀ target, .press target ∉ u.asked m := by
  cases m with
  | call c => exact ending_call h c
  | turn t => exact h.turn u.now t
  | pass => exact ⟨h, fun _ => List.not_mem_nil⟩
  | halt => exact u.rig.actuator.halt_ending
  | finish => exact ⟨h, Sheds.releaseHeld.press⟩

/-- The work is ending, and no control is held. -/
structure Final (u : Usage) : Prop where
  ending : u.rig.actuator.Ending
  held : u.rig.held = []

theorem Final.move {u : Usage} (h : u.Final) (m : Move) :
    (u.move m).1.Final ∧ ∀ e ∈ (u.move m).2, e.isQuiet := by
  obtain ⟨ending, none⟩ := ending_move h.ending m
  obtain ⟨held, effects⟩ := u.move_asked m
  obtain ⟨empty, quiet⟩ := Held.performAll_empty none
  rw [h.held] at held effects
  exact ⟨⟨ending, held.trans empty⟩, effects ▸ quiet⟩

theorem Final.moves {u : Usage} (h : u.Final) (ms : List Move) :
    (Usage.moves ms u).1.Final ∧ ∀ e ∈ (Usage.moves ms u).2, e.isQuiet := by
  induction ms generalizing u with
  | nil => exact ⟨h, fun _ he => (List.not_mem_nil he).elim⟩
  | cons m ms ih =>
    obtain ⟨final, effects⟩ := h.move m
    obtain ⟨last, more⟩ := ih final
    refine ⟨last, ?_⟩
    intro e he
    exact (List.mem_append.1 he).elim (effects e) (more e)

end Rig.Usage

end ControlDeck
