import ControlDeck.Proofs.Wanted

namespace ControlDeck

namespace Actuator

@[simp] theorem enlist_bindings (chore : Chore) (a : Actuator) :
    (a.enlist chore).bindings = a.bindings := by
  rw [enlist]
  split <;> rfl

theorem press_used (now : Nat) (read : Readings) (a : Actuator) :
    (a.press now read).1.bindings.used = a.bindings.used := by
  rw [press]
  split
  · rfl
  · dsimp only
    split <;>
      exact Bindings.used_congr (by simp [Bindings.items, List.map_append, Item.active_compiled])

theorem rotate_used (ticks : Int) (read : Readings) (a : Actuator) :
    (a.rotate ticks read).1.bindings.used = a.bindings.used := by
  rw [rotate]
  split
  · rfl
  · apply Bindings.used_congr
    by_cases left : ticks < 0 <;>
      simp [left, Bindings.items, List.map_append, Item.active_compiled]

theorem tap_used (read : Readings) (a : Actuator) :
    (a.tap read).1.bindings.used = a.bindings.used := by
  rw [tap]
  split
  · rfl
  · apply Bindings.used_congr
    simp [Bindings.items, List.map_append, Item.active_compiled]

theorem release_bindings (session : Session) (a : Actuator) :
    (a.release session).1.bindings = a.bindings := by
  cases session with
  | direct => rfl
  | timed =>
    rw [release]
    split
    · simp
    · rfl

theorem run_bindings (now : Nat) (a : Actuator) (chore : Chore) :
    (a.run now chore).1.bindings = a.bindings := by
  cases chore with
  | pacing => rfl
  | phases =>
    rw [run, runPhases]
    split
    · rfl
    · split <;> rfl
  | tap targets =>
    rw [run]
    split <;> rfl

theorem runAll_bindings (now : Nat) (a : Actuator) (chores : List Chore) :
    (runAll now a chores).1.bindings = a.bindings := by
  induction chores generalizing a with
  | nil => rfl
  | cons chore chores ih => exact (ih (a.run now chore).1).trans (a.run_bindings now chore)

theorem settle_bindings (now : Nat) (a : Actuator) : (a.settle now).1.bindings = a.bindings :=
  runAll_bindings now _ a.chores

theorem tick_bindings (now : Nat) (a : Actuator) : (a.tick now).1.bindings = a.bindings :=
  runAll_bindings now _ _

theorem stop_bindings (now : Nat) (a : Actuator) : (a.stop now).1.bindings = a.bindings :=
  runAll_bindings now _ _

end Actuator

/-- What the device is told to show. -/
def DeckEvent.display? : DeckEvent → Option Display
  | display d => some d
  | _ => none

theorem DeckEvent.display?_warnings (warnings : List Warning) :
    (warnings.map DeckEvent.warn).filterMap display? = [] := by
  simp [display?]

namespace Turn

/-- What has happened since shows nothing. -/
def Unseen (t t' : Turn) : Prop :=
  ∃ events, t'.events = t.events ++ events ∧ events.filterMap DeckEvent.display? = []

theorem Unseen.refl (t : Turn) : t.Unseen t :=
  ⟨[], (List.append_nil _).symm, rfl⟩

theorem Unseen.trans {t t' t'' : Turn} (h : t.Unseen t') (h' : t'.Unseen t'') : t.Unseen t'' := by
  obtain ⟨es, he, hd⟩ := h
  obtain ⟨es', he', hd'⟩ := h'
  refine ⟨es ++ es', by rw [he', he, List.append_assoc], ?_⟩
  rw [List.filterMap_append, hd, hd']
  rfl

theorem unseen_record (t : Turn) {events : List DeckEvent}
    (h : events.filterMap DeckEvent.display? = []) : t.Unseen (t.record events) :=
  ⟨events, rfl, h⟩

theorem unseen_warn (t : Turn) (warnings : List Warning) : t.Unseen (t.warn warnings) :=
  t.unseen_record (DeckEvent.display?_warnings warnings)

theorem unseen_use (t : Turn) (f : Link → Link × List LinkEvent) : t.Unseen (t.use f) :=
  ⟨(f t.link).2.map .link, rfl, by simp [DeckEvent.display?]⟩

/-- All that matters to what is followed and shown is as before. -/
structure Quiet (t t' : Turn) : Prop where
  context : t'.action.context = t.action.context
  receiver : t'.action.receiver = t.action.receiver
  watched : t'.action.watched = t.action.watched
  state : t'.action.state = t.action.state
  title : t'.action.title = t.action.title
  shown : t'.action.shown = t.action.shown
  used : t'.action.used = t.action.used
  subscriptions : t'.link.subscriptions = t.link.subscriptions
  unseen : t.Unseen t'

theorem Quiet.refl (t : Turn) : t.Quiet t :=
  ⟨rfl, rfl, rfl, rfl, rfl, rfl, rfl, rfl, .refl t⟩

theorem Quiet.trans {t t' t'' : Turn} (h : t.Quiet t') (h' : t'.Quiet t'') : t.Quiet t'' where
  context := h'.context.trans h.context
  receiver := h'.receiver.trans h.receiver
  watched := h'.watched.trans h.watched
  state := h'.state.trans h.state
  title := h'.title.trans h.title
  shown := h'.shown.trans h.shown
  used := h'.used.trans h.used
  subscriptions := h'.subscriptions.trans h.subscriptions
  unseen := h.unseen.trans h'.unseen

theorem quiet_record (t : Turn) {events : List DeckEvent}
    (h : events.filterMap DeckEvent.display? = []) : t.Quiet (t.record events) :=
  ⟨rfl, rfl, rfl, rfl, rfl, rfl, rfl, rfl, t.unseen_record h⟩

theorem quiet_warn (t : Turn) (warnings : List Warning) : t.Quiet (t.warn warnings) :=
  ⟨rfl, rfl, rfl, rfl, rfl, rfl, rfl, rfl, t.unseen_warn warnings⟩

theorem quiet_send (t : Turn) (c : Command) : t.Quiet (t.use fun l => l.send c) := by
  have subscriptions : (t.link.send c).1.subscriptions = t.link.subscriptions := by
    rw [Link.send]
    split
    · rfl
    · split <;> rfl
  exact ⟨rfl, rfl, rfl, rfl, rfl, rfl, rfl, subscriptions, t.unseen_use _⟩

theorem quiet_effect (t : Turn) (e : Effect) : t.Quiet (t.effect e) := by
  cases e with
  | keyDown hotkey => exact t.quiet_record rfl
  | keyUp hotkey => exact t.quiet_record rfl
  | send c => exact t.quiet_send c
  | warn w => exact t.quiet_warn [w]

theorem quiet_effects (t : Turn) (effects : List Effect) : t.Quiet (effects.foldl effect t) := by
  induction effects generalizing t with
  | nil => exact .refl t
  | cons e effects ih => exact (t.quiet_effect e).trans (ih (t.effect e))

theorem quiet_rig (t : Turn) (rig : Rig)
    (h : rig.actuator.bindings.used = t.action.rig.actuator.bindings.used) :
    t.Quiet { t with action := { t.action with rig } } := by
  refine ⟨rfl, rfl, rfl, rfl, rfl, rfl, ?_, rfl, .refl t⟩
  rw [Action.used, Action.used]
  exact congrArg (· ++ _ ++ _) h

theorem quiet_act (t : Turn) {f : Actuator → Actuator × List Stroke}
    (h : (f t.action.rig.actuator).1.bindings.used = t.action.rig.actuator.bindings.used) :
    t.Quiet (t.act f) :=
  (t.quiet_rig (t.action.rig.act f).1 h).trans (quiet_effects _ _)

theorem quiet_presses (t : Turn) (press dialPress : Option Session) :
    t.Quiet { t with action := { t.action with press, dialPress } } :=
  ⟨rfl, rfl, rfl, rfl, rfl, rfl, rfl, rfl, .refl t⟩

theorem quiet_startPress (t : Turn) (now : Nat) : t.Quiet (t.startPress now).1 :=
  (t.quiet_rig (t.action.rig.press now t.readings).1
    (t.action.rig.actuator.press_used now t.readings)).trans (quiet_effects _ _)

theorem quiet_endPress (t : Turn) (session : Session) : t.Quiet (t.endPress session) :=
  t.quiet_act (congrArg Bindings.used (Actuator.release_bindings session _))

theorem quiet_down (t : Turn) (now : Nat) : t.Quiet (t.down now) := by
  have ended : t.Quiet (t.action.press.elim t fun stale =>
      (t.warn [.pressedTwice t.action.context]).endPress stale) := by
    cases t.action.press with
    | none => exact .refl t
    | some stale => exact (t.quiet_warn _).trans (quiet_endPress _ stale)
  exact ended.trans ((quiet_startPress _ now).trans (quiet_presses _ _ _))

theorem quiet_dialDown (t : Turn) (now : Nat) : t.Quiet (t.dialDown now) := by
  have ended : t.Quiet (t.action.dialPress.elim t fun stale =>
      (t.warn [.dialPressedTwice t.action.context]).endPress stale) := by
    cases t.action.dialPress with
    | none => exact .refl t
    | some stale => exact (t.quiet_warn _).trans (quiet_endPress _ stale)
  exact ended.trans ((quiet_startPress _ now).trans (quiet_presses _ _ _))

theorem quiet_up (t : Turn) : t.Quiet t.up := by
  rw [up]
  cases t.action.press with
  | none => exact .refl t
  | some session => exact (t.quiet_presses none _).trans (quiet_endPress _ session)

theorem quiet_dialUp (t : Turn) : t.Quiet t.dialUp := by
  rw [dialUp]
  cases t.action.dialPress with
  | none => exact .refl t
  | some session => exact (t.quiet_presses _ none).trans (quiet_endPress _ session)

theorem quiet_follow (t : Turn) (now : Nat) (motion : Motion) : t.Quiet (t.follow now motion) := by
  cases motion with
  | down => exact t.quiet_down now
  | up => exact t.quiet_up
  | dialDown => exact t.quiet_dialDown now
  | dialUp => exact t.quiet_dialUp
  | tap => exact t.quiet_act (Actuator.tap_used t.readings _)
  | rotate ticks => exact t.quiet_act (Actuator.rotate_used ticks t.readings _)

theorem quiet_deactivate (t : Turn) : t.Quiet t.deactivate :=
  t.quiet_act rfl

theorem quiet_settle (t : Turn) (now : Nat) : t.Quiet (t.act (Actuator.settle now)) :=
  t.quiet_act (congrArg Bindings.used (Actuator.settle_bindings now _))

theorem quiet_tick (t : Turn) (now : Nat) : t.Quiet (t.act (Actuator.tick now)) :=
  t.quiet_act (congrArg Bindings.used (Actuator.tick_bindings now _))

end Turn

end ControlDeck
