import ControlDeck.Proofs.Balance
import Mathlib.Data.List.Perm.Basic

namespace ControlDeck

/-- How many presses have not ended. -/
def PressTimer.presses {α : Type} (t : PressTimer α) : Nat :=
  t.pending.length + t.longHeld.toList.length

namespace Rig

/-- A rig in use, with the presses that have not been released. -/
structure Usage where
  rig : Rig
  now : Nat := 0
  sessions : List Session := []

namespace Usage

/-- What can happen to a rig in use. -/
inductive Event where
  /-- A press of the key or of the dial. -/
  | press (read : Readings)
  /-- The end of the press with the given index. -/
  | release (i : Nat)
  | rotate (ticks : Int) (read : Readings)
  | tap (read : Readings)
  | bind (bindings : Bindings)
  | deactivate
  /-- All work that is due is done. -/
  | settle
  /-- A millisecond goes by. -/
  | tick

def ofTiming (timing : Timing) (bindings : Bindings) : Usage where
  rig := { actuator := .ofTiming timing bindings }

def act (f : Actuator → Actuator × List Stroke) (u : Usage) : Usage × List Effect :=
  let (rig, effects) := u.rig.act f
  ({ u with rig }, effects)

def step (u : Usage) : Event → Usage × List Effect
  | .press read =>
    let (rig, session, effects) := u.rig.press u.now read
    ({ u with rig, sessions := session :: u.sessions }, effects)
  | .release i =>
    match u.sessions[i]? with
    | some session => { u with sessions := u.sessions.eraseIdx i }.act fun a => a.release session
    | none => (u, [])
  | .rotate ticks read => u.act fun a => a.rotate ticks read
  | .tap read => u.act fun a => a.tap read
  | .bind bindings => u.act fun a => ({ a with bindings }, [])
  | .deactivate =>
    let (rig, _, effects) := u.rig.deactivate
    ({ u with rig }, effects)
  | .settle => u.act fun a => a.settle u.now
  | .tick => { u with now := u.now + 1 }.act fun a => a.tick (u.now + 1)

def run : List Event → Usage → Usage × List Effect
  | [], u => (u, [])
  | event :: events, u =>
    let (u, effects) := u.step event
    let (u, more) := run events u
    (u, effects ++ more)

/-- The targets of the long press that another one overtakes by an event. -/
def loses (u : Usage) : Event → List Target
  | .tick => (u.rig.actuator.timer.arm (u.now + 1)).overtaken (u.now + 1)
  | _ => []

theorem loses_eq_nil {u : Usage} {event : Event} (h : event ≠ .tick) : u.loses event = [] := by
  cases event <;> first | rfl | exact (h rfl).elim

/-- The targets of the long presses that other ones overtake by some events. -/
def overtaken : List Event → Usage → List Target
  | [], _ => []
  | event :: events, u => u.loses event ++ overtaken events (u.step event).1

/-- Two presses that may become long are never open at once. -/
def Apart : List Event → Usage → Prop
  | [], _ => True
  | event :: events, u => u.sessions.count .timed ≤ 1 ∧ Apart events (u.step event).1

end Usage

end Rig

/-- There is nothing left to be done, nor to be waited for. -/
structure Actuator.Idle (a : Actuator) : Prop where
  deadline : a.timer.deadline = none
  phases : a.phases = []
  shortPress : a.shortPress = none
  taps : a.taps = []
  chores : a.chores.flatMap Chore.owing = []
  current : a.pacer.current = none
  waiting : a.pacer.waiting = []

/-- A control that the simulator has been told to release last. A key never is one. -/
def Target.LetGo (effects : List Effect) : Target → Prop
  | .key _ => False
  | .control c => c.isDown false effects = false

@[simp] theorem PressTimer.down_presses {α : Type} (now : Nat) (token : α) (t : PressTimer α) :
    (t.down now token).presses = t.presses + 1 := by
  simp only [presses, down, List.length_cons]
  omega

theorem PressTimer.up_presses {α : Type} (t : PressTimer α) : t.up.1.presses = t.presses - 1 := by
  cases hp : t.pending with
  | cons token pending =>
    simp only [presses, up, hp, List.length_cons]
    omega
  | nil => cases hl : t.longHeld <;> simp [presses, up, hp, hl]

@[simp] theorem PressTimer.arm_presses {α : Type} (now : Nat) (t : PressTimer α) :
    (t.arm now).presses = t.presses := by
  rw [presses, presses, arm_pending, arm_longHeld]

theorem PressTimer.tick_presses {α : Type} (now : Nat) (t : PressTimer α) :
    (t.tick now).1.presses ≤ t.presses := by
  rw [tick]
  split
  · cases hp : t.pending <;> simp [presses, hp]
  · exact Nat.le_refl _

theorem Actuator.release_timer (a : Actuator) (session : Session) :
    (a.release session).1.stopped = a.stopped ∧
      (a.release session).1.timer.presses =
        a.timer.presses - if session = .timed then 1 else 0 := by
  cases session with
  | direct => simp [release]
  | timed =>
    have up := a.timer.up_presses
    rw [release]
    split
    · rename_i timer phase hu
      rw [hu] at up
      simp [up]
    · rename_i timer hu
      rw [hu] at up
      simp [up]

theorem Actuator.press_timer {a : Actuator} (h : a.stopped = false) (now : Nat) (read : Readings) :
    (a.press now read).1.stopped = false ∧
      (a.press now read).1.timer.presses =
        a.timer.presses + if (a.press now read).2.1 = .timed then 1 else 0 := by
  rw [press_running h]
  split <;> simp [h]

theorem Actuator.tick_timer (now : Nat) (a : Actuator) :
    (a.tick now).1.stopped = a.stopped ∧
      (a.tick now).1.timer = ((a.timer.arm now).tick now).1 := by
  obtain ⟨ht, hs⟩ := runAll_keeps now
    { (endTaps now { a with
      timer := ((a.timer.arm now).tick now).1
      phases := a.phases ++ ((a.timer.arm now).tick now).2.toList }).1 with
      chores := [] }
    (a.chores ++ [.phases, .pacing])
  exact ⟨hs, ht⟩

theorem Actuator.pays_bind (a : Actuator) (bindings : Bindings) (ss ls : List Target) :
    Account.Pays ⟨a, ss, ls⟩ [] ⟨{ a with bindings }, ss, ls⟩ :=
  ⟨(Account.Pays.refl _).net, fun _ hc => ⟨hc.held, hc.phases⟩⟩

theorem Actuator.pays_releaseHeld (a : Actuator) (ss ls : List Target) :
    Account.Pays ⟨a, ss, ls⟩ [.releaseHeld] ⟨a, ss, ls⟩ :=
  ⟨fun _ => (Int.sub_self _).symm, fun _ hc => ⟨fun _ hm => (List.not_mem_nil hm).elim, hc.phases⟩⟩

theorem Session.perm_eraseIdx {sessions : List Session} {i : Nat} {session : Session}
    (h : sessions[i]? = some session) : sessions.Perm (session :: sessions.eraseIdx i) := by
  obtain ⟨hi, rfl⟩ := List.getElem?_eq_some_iff.1 h
  exact (List.getElem_cons_eraseIdx_perm hi).symm

namespace Rig.Usage

/-- What holds throughout the use of a rig, by the effects so far and the targets that long presses
have lost. -/
structure Sound (lost : List Target) (effects : List Effect) (u : Usage) : Prop where
  running : u.rig.actuator.stopped = false
  /-- Each press that has not ended has a session that ends it. -/
  presses : u.rig.actuator.timer.presses ≤ u.sessions.count .timed
  net : ∀ h, Effect.net h effects =
    Actuator.Account.due (.key h) ⟨u.rig.actuator, u.sessions.flatMap Session.targets, lost⟩
  covers : Actuator.Account.Covers u.rig.held
    ⟨u.rig.actuator, u.sessions.flatMap Session.targets, lost⟩
  down : ∀ c : Control, c.isDown false effects = decide (c ∈ u.rig.held)

theorem Sound.perform {lost lost' : List Target} {effects : List Effect} {u : Usage}
    (h : Sound lost effects u) {a : Actuator} (sessions : List Session) {strokes : List Stroke}
    (pays : Actuator.Account.Pays ⟨u.rig.actuator, u.sessions.flatMap Session.targets, lost⟩ strokes
      ⟨a, sessions.flatMap Session.targets, lost'⟩)
    (running : a.stopped = false) (presses : a.timer.presses ≤ sessions.count .timed) (now : Nat) :
    Sound lost' (effects ++ (u.rig.held.performAll strokes).2)
      ⟨⟨a, u.rig.held.after strokes⟩, now, sessions⟩ where
  running := running
  presses := presses
  net g := by
    rw [Effect.net_append, h.net, Held.performAll_net, pays.net]
    simp only
    omega
  covers := pays.covers _ h.covers
  down c := by rw [Control.isDown_append, h.down, Held.performAll_isDown]

theorem Sound.start (timing : Timing) (bindings : Bindings) :
    Sound [] [] (ofTiming timing bindings) where
  running := rfl
  presses := Nat.le_refl _
  net _ := rfl
  covers := ⟨fun _ h => (List.not_mem_nil h).elim, trivial⟩
  down _ := rfl

theorem Sound.press {lost : List Target} {effects : List Effect} {u : Usage}
    (h : Sound lost effects u) (read : Readings) :
    Sound lost (effects ++ (u.step (.press read)).2) (u.step (.press read)).1 := by
  obtain ⟨hr, hp⟩ := Actuator.press_timer h.running u.now read
  have pays := Actuator.pays_press h.running u.now read (u.sessions.flatMap Session.targets) lost
  refine h.perform ((u.rig.actuator.press u.now read).2.1 :: u.sessions) pays hr ?_ u.now
  have presses := h.presses
  rw [hp, List.count_cons]
  simp only [beq_iff_eq]
  omega

theorem Sound.release {lost : List Target} {effects : List Effect} {u : Usage}
    (h : Sound lost effects u) (i : Nat) :
    Sound lost (effects ++ (u.step (.release i)).2) (u.step (.release i)).1 := by
  rw [Usage.step]
  cases hs : u.sessions[i]? with
  | none => simpa using h
  | some session =>
    obtain ⟨hr, hp⟩ := Actuator.release_timer u.rig.actuator session
    have perm := Session.perm_eraseIdx hs
    have pays := (Actuator.pays_perm (a := u.rig.actuator) (perm.flatMap_right Session.targets)
      lost).trans (Actuator.pays_release u.rig.actuator session
        ((u.sessions.eraseIdx i).flatMap Session.targets) lost)
    refine h.perform (u.sessions.eraseIdx i) pays (hr.trans h.running) ?_ u.now
    have count := perm.count_eq .timed
    have presses := h.presses
    rw [List.count_cons] at count
    rw [hp]
    simp only [beq_iff_eq] at count
    omega

theorem Sound.step {lost : List Target} {effects : List Effect} {u : Usage}
    (h : Sound lost effects u) (event : Event) :
    Sound (lost ++ u.loses event) (effects ++ (u.step event).2) (u.step event).1 := by
  cases event with
  | press read =>
    rw [loses_eq_nil (by nofun), List.append_nil]
    exact h.press read
  | release i =>
    rw [loses_eq_nil (by nofun), List.append_nil]
    exact h.release i
  | rotate ticks read =>
    obtain ⟨ht, hr⟩ := Actuator.rotate_keeps ticks read u.rig.actuator
    rw [loses_eq_nil (by nofun), List.append_nil]
    exact h.perform u.sessions (Actuator.pays_rotate ticks read u.rig.actuator _ lost)
      (hr.trans h.running) (ht ▸ h.presses) u.now
  | tap read =>
    have pays := Actuator.pays_touch h.running read (u.sessions.flatMap Session.targets) lost
    obtain ⟨bindings, targets, warnings, ha⟩ := Actuator.tap_running h.running read
    rw [loses_eq_nil (by nofun), List.append_nil]
    refine h.perform u.sessions pays ?_ ?_ u.now
    · rw [ha]
      exact h.running
    · rw [ha]
      exact h.presses
  | bind bindings =>
    rw [loses_eq_nil (by nofun), List.append_nil]
    exact h.perform u.sessions (Actuator.pays_bind u.rig.actuator bindings _ lost) h.running
      h.presses u.now
  | deactivate =>
    rw [loses_eq_nil (by nofun), List.append_nil]
    have sound := h.perform u.sessions (Actuator.pays_releaseHeld u.rig.actuator _ lost) h.running
      h.presses u.now
    have single : (u.rig.held.performAll [.releaseHeld]).2 = (u.rig.held.perform .releaseHeld).2 :=
      List.append_nil _
    rwa [single] at sound
  | settle =>
    obtain ⟨ht, hr⟩ := Actuator.runAll_keeps u.now
      { u.rig.actuator with timer := u.rig.actuator.timer.arm u.now, chores := [] }
      u.rig.actuator.chores
    rw [loses_eq_nil (by nofun), List.append_nil]
    refine h.perform u.sessions (Actuator.pays_settle h.running _ lost) (hr.trans h.running)
      ?_ u.now
    rw [Actuator.settle, ht, PressTimer.arm_presses]
    exact h.presses
  | tick =>
    obtain ⟨hr, ht⟩ := Actuator.tick_timer (u.now + 1) u.rig.actuator
    refine h.perform u.sessions (Actuator.pays_tick h.running _ lost) (hr.trans h.running) ?_
      (u.now + 1)
    have ticked := PressTimer.tick_presses (u.now + 1) (u.rig.actuator.timer.arm (u.now + 1))
    rw [ht]
    rw [PressTimer.arm_presses] at ticked
    exact Nat.le_trans ticked h.presses

theorem Sound.run {lost : List Target} {effects : List Effect} {u : Usage}
    (h : Sound lost effects u) (events : List Event) :
    Sound (lost ++ overtaken events u) (effects ++ (run events u).2) (run events u).1 := by
  induction events generalizing lost effects u with
  | nil => simpa [Usage.run, overtaken] using h
  | cons event events ih =>
    have := ih (h.step event)
    rwa [List.append_assoc, List.append_assoc] at this

theorem sound_of_run {timing : Timing} {bindings : Bindings} {events : List Event} {u : Usage}
    {effects : List Effect} (h : run events (ofTiming timing bindings) = (u, effects)) :
    Sound (overtaken events (ofTiming timing bindings)) effects u := by
  have sound := (Sound.start timing bindings).run events
  rwa [h] at sound

/-- A long press is lost only while another press is open. -/
theorem Sound.loses_eq_nil {lost : List Target} {effects : List Effect} {u : Usage}
    (h : Sound lost effects u) (hs : u.sessions.count .timed ≤ 1) (event : Event) :
    u.loses event = [] := by
  cases event with
  | tick =>
    rw [loses, PressTimer.overtaken]
    split
    · rename_i started
      have presses := Nat.le_trans h.presses hs
      cases hp : u.rig.actuator.timer.pending with
      | nil =>
        rw [PressTimer.tick, PressTimer.arm_pending, hp] at started
        split at started <;> cases started
      | cons aim aims =>
        cases hl : u.rig.actuator.timer.longHeld with
        | none => rw [PressTimer.arm_held, PressTimer.held, hl, Option.elim_none]
        | some => simp [PressTimer.presses, hp, hl] at presses
    · rfl
  | _ => rfl

theorem Sound.overtaken_eq_nil {lost : List Target} {effects : List Effect} {u : Usage}
    (h : Sound lost effects u) {events : List Event} (apart : Apart events u) :
    overtaken events u = [] := by
  induction events generalizing lost effects u with
  | nil => rfl
  | cons event events ih =>
    obtain ⟨hs, apart⟩ := apart
    rw [overtaken, h.loses_eq_nil hs event, ih (h.step event) apart, List.append_nil]

theorem Sound.owing_eq_nil {lost : List Target} {effects : List Effect} {u : Usage}
    (h : Sound lost effects u) (hs : u.sessions = []) (hi : u.rig.actuator.Idle) :
    u.rig.actuator.owing = [] := by
  have longHeld : u.rig.actuator.timer.longHeld = none := by
    have presses := h.presses
    rw [hs, List.count_nil, PressTimer.presses] at presses
    cases hl : u.rig.actuator.timer.longHeld with
    | none => rfl
    | some => simp [hl] at presses
  simp [Actuator.owing, PressTimer.held, longHeld, hi.phases, hi.shortPress, hi.taps, hi.chores,
    hi.current, Actuator.shortTargets, Actuator.cycleTargets]

/-- At rest, only the targets that long presses have lost are down more often than up. -/
theorem Sound.net_eq_lost {lost : List Target} {effects : List Effect} {u : Usage}
    (h : Sound lost effects u) (hs : u.sessions = []) (hi : u.rig.actuator.Idle) (g : Hotkey) :
    Effect.net g effects = lost.count (.key g) := by
  rw [h.net, Actuator.Account.due_eq, h.owing_eq_nil hs hi, hs, hi.phases]
  simp

theorem Sound.mem_lost {lost : List Target} {effects : List Effect} {u : Usage}
    (h : Sound lost effects u) (hs : u.sessions = []) (hi : u.rig.actuator.Idle) {c : Control}
    (hc : c ∈ u.rig.held) : .control c ∈ lost := by
  have covered := h.covers.held c hc
  rw [h.owing_eq_nil hs hi, hs] at covered
  exact covered

/-- Once every press has ended and nothing is left to be done, a key has gone down as often as up,
but for the long presses that others have overtaken. So nothing stays pressed exactly when those
presses were of no key, and of controls only that have been released since for another reason. -/
theorem rests_iff {timing : Timing} {bindings : Bindings} {events : List Event} {u : Usage}
    {effects : List Effect} (h : run events (ofTiming timing bindings) = (u, effects))
    (hs : u.sessions = []) (hi : u.rig.actuator.Idle) :
    (∀ g, effects.count (.keyDown g) =
        effects.count (.keyUp g) + (overtaken events (ofTiming timing bindings)).count (.key g)) ∧
      ((u.rig.held = [] ∧ ∀ g, effects.count (.keyDown g) = effects.count (.keyUp g)) ↔
        ∀ t ∈ overtaken events (ofTiming timing bindings), t.LetGo effects) := by
  have sound := sound_of_run h
  have keys (g : Hotkey) : effects.count (.keyDown g) =
      effects.count (.keyUp g) + (overtaken events (ofTiming timing bindings)).count (.key g) := by
    have net := sound.net_eq_lost hs hi g
    rw [Effect.net] at net
    omega
  refine ⟨keys, ?_, fun letGo => ⟨?_, ?_⟩⟩
  · rintro ⟨held, even⟩ t ht
    cases t with
    | key g =>
      have lost := List.count_pos_iff.2 ht
      have := keys g
      have := even g
      omega
    | control c => rw [Target.LetGo, sound.down, held, decide_eq_false List.not_mem_nil]
  · rw [List.eq_nil_iff_forall_not_mem]
    intro c hc
    have up : c.isDown false effects = false := letGo _ (sound.mem_lost hs hi hc)
    rw [sound.down] at up
    exact of_decide_eq_false up hc
  · intro g
    have none_lost := List.count_eq_zero.2 fun hg => letGo (.key g) hg
    rw [keys g, none_lost, Nat.add_zero]

/-- Presses that do not overlap leave nothing pressed. -/
theorem rests_of_apart {timing : Timing} {bindings : Bindings} {events : List Event} {u : Usage}
    {effects : List Effect} (h : run events (ofTiming timing bindings) = (u, effects))
    (hs : u.sessions = []) (hi : u.rig.actuator.Idle)
    (apart : Apart events (ofTiming timing bindings)) :
    u.rig.held = [] ∧ ∀ g, Effect.net g effects = 0 := by
  have sound := sound_of_run h
  have none_lost := (Sound.start timing bindings).overtaken_eq_nil apart
  rw [none_lost] at sound
  refine ⟨?_, fun g => sound.net_eq_lost hs hi g⟩
  rw [List.eq_nil_iff_forall_not_mem]
  intro c hc
  exact List.not_mem_nil (sound.mem_lost hs hi hc)

/-- A long press of a horn and a key that a long press of the key overtakes. -/
def overlap : List Event :=
  [.press fun _ => none, .settle, .tick, .bind { press := [longKey] }, .press fun _ => none,
    .settle, .tick, .release 0, .release 0, .settle]
where
  longKey : Item := ⟨.key ⟨[], "F1"⟩, true, {}⟩

def longHornAndKey : Bindings where
  press := [⟨.control (.trigger "horn"), true, {}⟩, overlap.longKey]

theorem overlap_idle :
    (run overlap (ofTiming { longPressMs := 1 } longHornAndKey)).1.rig.actuator.Idle :=
  ⟨by decide, by decide, by decide, by decide, by decide, by decide, by decide⟩

theorem rests_iff_overlap :
    (run overlap (ofTiming { longPressMs := 1 } longHornAndKey)).1.sessions = [] ∧
      (run overlap (ofTiming { longPressMs := 1 } longHornAndKey)).1.rig.actuator.Idle ∧
      ¬∀ t ∈ overtaken overlap (ofTiming { longPressMs := 1 } longHornAndKey),
        t.LetGo (run overlap (ofTiming { longPressMs := 1 } longHornAndKey)).2 := by
  refine ⟨by decide, overlap_idle, ?_⟩
  intro letGo
  have rests := (rests_iff rfl (by decide) overlap_idle).2.2 letGo
  exact absurd rests.1 (by decide)

theorem overlap_leaves_down :
    (run overlap (ofTiming { longPressMs := 1 } longHornAndKey)).1.sessions = [] ∧
      (run overlap (ofTiming { longPressMs := 1 } longHornAndKey)).1.rig.actuator.Idle ∧
      (run overlap (ofTiming { longPressMs := 1 } longHornAndKey)).1.rig.held = [.trigger "horn"] ∧
      (run overlap (ofTiming { longPressMs := 1 } longHornAndKey)).2.count
        (.keyDown ⟨[], "F1"⟩) = 2 ∧
      (run overlap (ofTiming { longPressMs := 1 } longHornAndKey)).2.count
        (.keyUp ⟨[], "F1"⟩) = 1 :=
  ⟨by decide, overlap_idle, by decide, by decide, by decide⟩

end Rig.Usage

end ControlDeck
