import ControlDeck.Proofs.Interleaving
import ControlDeck.Proofs.Phases
import ControlDeck.Proofs.Reading
import Mathlib.Data.List.Forall2

namespace ControlDeck

namespace Item

/-- Nothing but what is reported about the condition differs. -/
structure Alike (i j : Item) : Prop where
  target : j.target = i.target
  long : j.long = i.long
  condition : i.condition.Alike j.condition

theorem Alike.refl (i : Item) : i.Alike i := ⟨rfl, rfl, .refl i.condition⟩

theorem alike_refl (is : List Item) : List.Forall₂ Alike is is :=
  List.forall₂_same.2 fun i _ => .refl i

/-- The items whose conditions are active. -/
def activeAmong (read : Readings) (items : List Item) : List Item :=
  items.filter fun item => (item.condition.isActive read).1

theorem active_cons (read : Readings) (item : Item) (items : List Item) :
    active read (item :: items) =
      ({ item with condition := (item.condition.isActive read).2.1 } :: (active read items).1,
        if (item.condition.isActive read).1 then
          { item with condition := (item.condition.isActive read).2.1 } :: (active read items).2.1
        else (active read items).2.1,
        (item.condition.isActive read).2.2 ++ (active read items).2.2) := rfl

theorem active_alike {is js : List Item} (h : List.Forall₂ Alike is js) (read : Readings) :
    List.Forall₂ Alike is (active read js).1 ∧
      List.Forall₂ Alike (activeAmong read is) (active read js).2.1 := by
  induction h with
  | nil => exact ⟨.nil, .nil⟩
  | @cons i j is js alike _ ih =>
    have same : i.Alike { j with condition := (j.condition.isActive read).2.1 } :=
      ⟨alike.target, alike.long, alike.condition.trans (j.condition.isActive_alike read)⟩
    rw [active_cons]
    refine ⟨.cons same ih.1, ?_⟩
    rw [activeAmong, List.filter_cons, alike.condition.isActive read]
    split
    · exact .cons same ih.2
    · exact ih.2

theorem targets_alike {is js : List Item} (h : List.Forall₂ Alike is js) (test : Bool → Bool) :
    (js.filter fun item => test item.long).map (·.target) =
      (is.filter fun item => test item.long).map (·.target) := by
  induction h with
  | nil => rfl
  | cons alike _ ih =>
    rw [List.filter_cons, List.filter_cons, alike.long]
    split
    · rw [List.map_cons, List.map_cons, alike.target, ih]
    · exact ih

theorem aim_alike {is js : List Item} (h : List.Forall₂ Alike is js) : aim js = aim is := by
  rw [aim, aim, targets_alike h fun long => !long, targets_alike h fun long => long]

theorem any_long_alike {is js : List Item} (h : List.Forall₂ Alike is js) :
    js.any (·.long) = is.any (·.long) := by
  induction h with
  | nil => rfl
  | cons alike _ ih => rw [List.any_cons, List.any_cons, alike.long, ih]

end Item

/-- The timer has nothing to do yet. -/
def PressTimer.Rests {α : Type} (now : Nat) (t : PressTimer α) : Prop :=
  ∀ due ∈ t.deadline, t.fresh = false ∧ now < due

instance {α : Type} (now : Nat) (t : PressTimer α) : Decidable (t.Rests now) :=
  inferInstanceAs (Decidable (∀ due ∈ t.deadline, t.fresh = false ∧ now < due))

/-- A press, as it is seen from outside. -/
structure Hold where
  /-- The items that were bound at the press. -/
  bound : List Item
  /-- Those of them whose conditions were active then. -/
  active : List Item
  start : Nat
  /-- When its timer began to wait, if it has. -/
  armed : Option Nat := none
  /-- Whether its timer has rung. -/
  long : Bool := false

namespace Hold

/-- Whether it depends on the timer what the press acts on. -/
def timed (h : Hold) : Bool :=
  h.bound.any (·.long)

def targets (h : Hold) : List Target :=
  h.active.map (·.target)

/-- The targets of the items that a timed press is for. -/
def fitting (h : Hold) : List Target :=
  if h.timed then (h.active.filter (·.long = h.long)).map (·.target) else []

/-- What a timed press comes to. -/
def block (h : Hold) : List Stroke :=
  h.fitting.map .press ++ h.fitting.map .release

/-- What a timed press has come to before it ends. -/
def begun (h : Hold) : List Stroke :=
  if h.long then h.fitting.map .press else []

/-- What a press comes to at once. -/
def down (h : Hold) : List Stroke :=
  if h.timed then [] else h.targets.map .press

/-- What the end of a press comes to at once. -/
def up (h : Hold) : List Stroke :=
  if h.timed then [] else h.targets.map .release

def arm (now : Nat) (h : Hold) : Hold :=
  { h with armed := h.armed.or (some now) }

/-- The timer has its turn, and rings if it has waited for the threshold. -/
def ring (threshold now : Nat) (h : Hold) : Hold :=
  if h.timed ∧ threshold ≠ 0 ∧ h.armed.any (· + threshold ≤ now) then { h with long := true } else h

end Hold

/-- What an onlooker knows of the presses on a control. -/
structure Diary where
  /-- The items that are bound to presses. -/
  bound : List Item
  now : Nat := 0
  /-- The presses that have ended, and when they did. -/
  past : List (Hold × Nat) := []
  current : Option Hold := none

namespace Diary

open Rig.Usage (Call Move)

def press (read : Readings) (d : Diary) : Hold :=
  { bound := d.bound, active := Item.activeAmong read d.bound, start := d.now }

def note (threshold : Nat) (d : Diary) : Move → Diary
  | .call (.press read) => { d with current := some (d.press read) }
  | .call (.release _) =>
    { d with past := d.past ++ (d.current.map (·, d.now)).toList, current := none }
  | .call (.bind bindings) => { d with bound := bindings.press }
  | .turn .arm => { d with current := d.current.map (·.arm d.now) }
  | .turn .ring => { d with current := d.current.map (·.ring threshold d.now) }
  | .pass => { d with now := d.now + 1 }
  | .call (.rotate _ _) | .call (.tap _) | .call .deactivate => d
  | .turn .phases | .turn .pacing | .turn (.chore _) | .turn (.endTap _) | .halt | .finish => d

def ofMoves (threshold : Nat) (bindings : Bindings) (ms : List Move) : Diary :=
  ms.foldl (note threshold) { bound := bindings.press }

/-- What the timed presses have come to, one after the other. -/
def blocks (d : Diary) : List Stroke :=
  (d.past.flatMap fun e => e.1.block) ++ d.current.elim [] Hold.begun

/-- The strokes are what a call comes to at once, apart from warnings about conditions. -/
def Answers (d : Diary) (strokes : List Stroke) : Call → Prop
  | .press read =>
    ∃ warnings : List Warning, strokes = warnings.map .warn ++ (d.press read).down
  | .release _ => ∃ hold, d.current = some hold ∧ strokes = hold.up
  | .bind _ => strokes = []
  | .rotate _ _ | .tap _ | .deactivate => True

/-- The timer while a press may still become long. -/
def timer (threshold : Nat) (h : Hold) : PressTimer Aim where
  threshold
  pending := [Item.aim h.active]
  deadline := if threshold = 0 then none else some (h.armed.getD h.start + threshold)
  fresh := h.armed.isNone

/-- What has been noted of the press that is held tells how the timer stands. -/
inductive Tells (threshold : Nat) : Option Hold → PressTimer Aim → Prop
  /-- There is no press that depends on the timer. -/
  | idle {current : Option Hold} (direct : ∀ h, current = some h → h.timed = false)
      (fresh : Bool) : Tells threshold current { threshold, fresh }
  /-- The press may still become long. -/
  | waiting {h : Hold} (timed : h.timed = true) (short : h.long = false) :
      Tells threshold (some h) (timer threshold h)
  | lasting {h : Hold} (timed : h.timed = true) (long : h.long = true) (fresh : Bool) :
      Tells threshold (some h) { threshold, longHeld := some (Item.aim h.active), fresh }

def sessions (d : Diary) : List Session :=
  d.current.toList.map fun hold => if hold.timed then .timed else .direct hold.targets

theorem fitting_direct {h : Hold} (ht : h.timed = false) : h.fitting = [] := by
  simp [Hold.fitting, ht]

theorem fitting_long {h : Hold} (ht : h.timed = true) (hl : h.long = true) :
    h.fitting = (Item.aim h.active).long := by
  simp [Hold.fitting, ht, hl, Item.aim]

theorem fitting_short {h : Hold} (ht : h.timed = true) (hl : h.long = false) :
    h.fitting = (Item.aim h.active).short := by
  simp [Hold.fitting, ht, hl, Item.aim]

variable {threshold : Nat} {d : Diary} {t : PressTimer Aim}

theorem Tells.rest (threshold : Nat) (fresh : Bool) :
    Tells threshold none { threshold, fresh } :=
  .idle (fun _ hc => (Option.some_ne_none _ hc.symm).elim) fresh

theorem Tells.press (h : Tells threshold d.current t) (hc : d.current = none) (read : Readings) :
    Tells threshold (some (d.press read))
      (if (d.press read).timed then t.down d.now (Item.aim (d.press read).active) else t) := by
  rw [hc] at h
  cases h with
  | idle _ fresh =>
    cases ht : (d.press read).timed with
    | true => exact .waiting ht rfl
    | false =>
      refine .idle ?_ fresh
      rintro _ ⟨⟩
      exact ht

/-- The end of a timed press is told by a phase, which completes the block of the press. -/
theorem Tells.release {hold : Hold} (h : Tells threshold (some hold) t) :
    if hold.timed then
      ∃ phase t', t.up = (t', some phase) ∧ Tells threshold none t' ∧
        hold.begun ++ phase.strokes = hold.block
    else Tells threshold none t ∧ hold.begun = [] ∧ hold.block = [] := by
  cases h with
  | idle direct fresh =>
    have ht := direct hold rfl
    rw [ht, if_neg Bool.false_ne_true]
    refine ⟨.rest threshold fresh, ?_, ?_⟩
    · rw [Hold.begun, fitting_direct ht, List.map_nil, ite_self]
    · rw [Hold.block, fitting_direct ht]
      rfl
  | waiting timed short =>
    rw [timed, if_pos rfl]
    refine ⟨.short (Item.aim hold.active), _, rfl, .rest threshold _, ?_⟩
    rw [Hold.begun, short, Hold.block, fitting_short timed short]
    rfl
  | lasting timed long fresh =>
    rw [timed, if_pos rfl]
    refine ⟨.longEnd (Item.aim hold.active), _, rfl, .rest threshold fresh, ?_⟩
    rw [Hold.begun, long, Hold.block, fitting_long timed long]
    rfl

theorem arm_timer (threshold now : Nat) (h : Hold) :
    (timer threshold h).arm now = timer threshold (h.arm now) := by
  obtain ⟨bound, active, start, armed, long⟩ := h
  cases armed with
  | none => by_cases never : threshold = 0 <;> simp [PressTimer.arm, timer, Hold.arm, never]
  | some since => rfl

theorem tick_timer {hold : Hold} {since : Nat} (armed : hold.armed = some since)
    (threshold now : Nat) :
    (timer threshold hold).tick now =
      if threshold ≠ 0 ∧ since + threshold ≤ now then
        ({ threshold, longHeld := some (Item.aim hold.active) },
          some (.longStart (Item.aim hold.active)))
      else (timer threshold hold, none) := by
  by_cases never : threshold = 0
  · simp [PressTimer.tick, timer, never]
  · by_cases due : since + threshold ≤ now <;> simp [PressTimer.tick, timer, armed, never, due]

theorem arm_unset {t : PressTimer Aim} (h : t.deadline = none) (now : Nat) :
    t.arm now = { t with fresh := false } := by
  obtain ⟨threshold, pending, longHeld, deadline, fresh⟩ := t
  cases h
  cases fresh <;> rfl

theorem Tells.arm {current : Option Hold} (h : Tells threshold current t) (now : Nat) :
    Tells threshold (current.map (·.arm now)) (t.arm now) := by
  cases h with
  | idle direct fresh =>
    rw [arm_unset rfl]
    refine .idle ?_ false
    intro h hc
    obtain ⟨hold, held, rfl⟩ := Option.map_eq_some_iff.1 hc
    exact direct hold held
  | @waiting hold timed short =>
    rw [Option.map_some, arm_timer]
    exact .waiting (h := hold.arm now) timed short
  | @lasting hold timed long fresh =>
    rw [arm_unset rfl]
    exact .lasting (h := hold.arm now) timed long false

theorem ring_long {hold : Hold} (hl : hold.long = true) (threshold now : Nat) :
    hold.ring threshold now = hold := by
  rw [Hold.ring]
  split
  · rw [← hl]
  · rfl

theorem ring_direct {hold : Hold} (ht : hold.timed = false) (threshold now : Nat) :
    hold.ring threshold now = hold := by
  rw [Hold.ring, if_neg (by simp [ht])]

/-- A press becomes long with the turn in which its timer finds that it has waited for the
threshold. -/
theorem Tells.ring {current : Option Hold} (h : Tells threshold current t)
    (awake : t.fresh = false) (now : Nat) :
    Tells threshold (current.map (·.ring threshold now)) (t.tick now).1 ∧
      (current.map (·.ring threshold now)).elim [] Hold.begun =
        current.elim [] Hold.begun ++ (t.tick now).2.toList.flatMap PressPhase.strokes := by
  cases h with
  | idle direct fresh =>
    have same : current.map (·.ring threshold now) = current := by
      cases current with
      | none => rfl
      | some hold => rw [Option.map_some, ring_direct (direct hold rfl)]
    rw [same]
    exact ⟨.idle direct fresh, (List.append_nil _).symm⟩
  | @waiting hold timed short =>
    obtain ⟨since, armed⟩ := Option.isSome_iff_exists.1 (Option.isNone_eq_false_iff.1 awake)
    have none : hold.begun = [] := by simp [Hold.begun, short]
    rw [Option.map_some, Option.elim_some, Option.elim_some, none, tick_timer armed]
    by_cases due : threshold ≠ 0 ∧ since + threshold ≤ now
    · have rings : hold.ring threshold now = { hold with long := true } := by
        rw [Hold.ring, if_pos ⟨timed, due.1, by simpa [armed] using due.2⟩]
      rw [if_pos due, rings]
      refine ⟨.lasting (h := { hold with long := true }) timed rfl false, ?_⟩
      rw [Hold.begun, fitting_long (h := { hold with long := true }) timed rfl]
      simp [PressPhase.strokes]
    · have waits : hold.ring threshold now = hold := by
        rw [Hold.ring, if_neg fun rings => due ⟨rings.2.1, by simpa [armed] using rings.2.2⟩]
      rw [if_neg due, waits, none]
      exact ⟨.waiting timed short, rfl⟩
  | @lasting hold timed long fresh =>
    rw [Option.map_some, ring_long long]
    exact ⟨.lasting timed long fresh, (List.append_nil _).symm⟩

/-- As long as its timer has not begun to wait, a press does not become long. -/
theorem Tells.ring_fresh {current : Option Hold} (h : Tells threshold current t)
    (asleep : t.fresh = true) (now : Nat) : current.map (·.ring threshold now) = current := by
  cases h with
  | idle direct fresh =>
    cases current with
    | none => rfl
    | some hold => rw [Option.map_some, ring_direct (direct hold rfl)]
  | @waiting hold timed short =>
    have unarmed : hold.armed = none := Option.isNone_iff_eq_none.1 asleep
    rw [Option.map_some, Hold.ring, if_neg (by simp [unarmed])]
  | @lasting hold timed long fresh => rw [Option.map_some, ring_long long]

theorem press_short {d : Diary} {read : Readings} (h : (d.press read).timed = false) :
    (Item.aim (d.press read).active).short = (d.press read).targets := by
  have direct : ∀ item ∈ (d.press read).active, (!item.long) = true := by
    intro item hi
    rw [Hold.timed, List.any_eq_false] at h
    rw [Bool.not_eq_true', ← Bool.not_eq_true]
    exact h item (List.mem_of_mem_filter hi)
  rw [Item.aim, List.filter_eq_self.2 direct, Hold.targets]

end Diary

namespace Rig.Usage

/-- Whether a step belongs to a use of one control for nothing but presses, by whether the control
is held. -/
def Move.Fits (held : Bool) : Move → Prop
  | .call (.press _) => held = false
  | .call (.release i) => held = true ∧ i = 0
  | .call (.bind _) | .turn _ | .pass => True
  | .call (.rotate _ _) | .call (.tap _) | .call .deactivate | .halt | .finish => False

/-- Whether the control is held after a step. -/
def Move.holds (held : Bool) : Move → Bool
  | .call (.press _) => true
  | .call (.release _) => false
  | .call (.rotate _ _) | .call (.tap _) | .call (.bind _) | .call .deactivate => held
  | .turn _ | .pass | .halt | .finish => held

/-- One control is pressed and released by turns, and nothing else is used. -/
def Alternates : Bool → List Move → Prop
  | _, [] => True
  | held, m :: ms => m.Fits held ∧ Alternates (m.holds held) ms

/-- What a task asks to be done. -/
def worked (u : Usage) : Move → List Stroke
  | .turn t => (u.rig.actuator.turn u.now t).2
  | .call _ | .pass | .halt | .finish => []

/-- No time goes by while the timer has something to do. -/
def Timely : List Move → Usage → Prop
  | [], _ => True
  | m :: ms, u => (m = .pass → u.rig.actuator.timer.Rests u.now) ∧ Timely ms (u.move m).1

instance : (m : Move) → Decidable (m = .pass)
  | .pass => isTrue rfl
  | .call _ | .turn _ | .halt | .finish => isFalse nofun

instance decidableTimely : (ms : List Move) → (u : Usage) → Decidable (Timely ms u)
  | [], _ => isTrue trivial
  | m :: ms, u =>
    have := decidableTimely ms (u.move m).1
    inferInstanceAs (Decidable ((m = .pass → u.rig.actuator.timer.Rests u.now) ∧ _))

/-- All that the tasks ask to be done. -/
def work : List Move → Usage → List Stroke
  | [], _ => []
  | m :: ms, u => u.worked m ++ work ms (u.move m).1

/-- What an onlooker has noted tells how things stand, by what the tasks have done. -/
structure Agrees (threshold : Nat) (done : List Stroke) (d : Diary) (u : Usage) : Prop where
  calm : u.rig.actuator.Calm
  now : u.now = d.now
  timer : Diary.Tells threshold d.current u.rig.actuator.timer
  sessions : u.sessions = d.sessions
  bound : List.Forall₂ Item.Alike d.bound u.rig.actuator.bindings.press
  coming : done ++ u.rig.actuator.coming = d.blocks

theorem Agrees.start (timing : Timing) (bindings : Bindings) :
    Agrees timing.longPressMs [] { bound := bindings.press } (ofTiming timing bindings) where
  calm := ⟨rfl, rfl, rfl, rfl, by simp [ofTiming, Actuator.ofTiming]⟩
  now := rfl
  timer := .rest timing.longPressMs false
  sessions := rfl
  bound := Item.alike_refl bindings.press
  coming := rfl

variable {threshold : Nat} {done : List Stroke} {d : Diary} {u : Usage}

theorem Agrees.press (h : Agrees threshold done d u) (hc : d.current = none) (read : Readings) :
    Agrees threshold done (d.note threshold (.call (.press read))) (u.step (.press read)).1 ∧
      d.Answers (u.strokes (.press read)) (.press read) := by
  obtain ⟨bound, active⟩ := Item.active_alike h.bound read
  have timed : (Item.active read u.rig.actuator.bindings.press).1.any (·.long) =
      (d.press read).timed := Item.any_long_alike bound
  have aim : Item.aim (Item.active read u.rig.actuator.bindings.press).2.1 =
      Item.aim (d.press read).active := Item.aim_alike active
  have running := Actuator.press_running h.calm.running u.now read
  have timer := h.timer.press hc read
  have blocks : (d.note threshold (.call (.press read))).blocks = d.blocks := by
    simp [Diary.blocks, Diary.note, hc, Hold.begun, Diary.press]
  have none : u.sessions = [] := by rw [h.sessions, Diary.sessions, hc]; rfl
  rw [timed, aim] at running
  have calm := h.calm
  cases ht : (d.press read).timed with
  | true =>
    rw [ht, if_pos rfl] at running timer
    simp only [step, strokes, Rig.press, running]
    refine ⟨⟨⟨calm.running, calm.waiting, calm.current, calm.taps, calm.chores⟩, h.now, ?_, ?_,
      bound, h.coming.trans blocks.symm⟩, (Item.active read u.rig.actuator.bindings.press).2.2, ?_⟩
    · rw [h.now]
      exact timer
    · simp [none, Diary.sessions, Diary.note, ht]
    · rw [Hold.down, ht, if_pos rfl, List.append_nil]
  | false =>
    rw [ht, if_neg Bool.false_ne_true] at running timer
    simp only [step, strokes, Rig.press, running]
    refine ⟨⟨⟨calm.running, calm.waiting, calm.current, calm.taps, calm.chores⟩, h.now, timer, ?_,
      bound, h.coming.trans blocks.symm⟩, (Item.active read u.rig.actuator.bindings.press).2.2, ?_⟩
    · simp [none, Diary.sessions, Diary.note, ht, Diary.press_short ht]
    · rw [Hold.down, ht, if_neg Bool.false_ne_true, Diary.press_short ht]

theorem release_blocks {hold : Hold} (hc : d.current = some hold) (i : Nat) :
    (d.note threshold (.call (.release i))).blocks =
      (d.past.flatMap fun e => e.1.block) ++ hold.block := by
  simp [Diary.blocks, Diary.note, hc]

theorem Agrees.release (h : Agrees threshold done d u) {hold : Hold} (hc : d.current = some hold) :
    Agrees threshold done (d.note threshold (.call (.release 0))) (u.step (.release 0)).1 ∧
      d.Answers (u.strokes (.release 0)) (.release 0) := by
  have calm := h.calm
  have sessions : u.sessions = [if hold.timed then .timed else .direct hold.targets] := by
    rw [h.sessions, Diary.sessions, hc]
    rfl
  have sofar : d.blocks = (d.past.flatMap fun e => e.1.block) ++ hold.begun := by
    rw [Diary.blocks, hc]
    rfl
  have timer := h.timer
  rw [hc] at timer
  have ended := timer.release
  cases ht : hold.timed with
  | false =>
    rw [ht, if_neg Bool.false_ne_true] at ended sessions
    obtain ⟨timer, begun, block⟩ := ended
    simp only [step, strokes, sessions, List.getElem?_cons_zero, Option.elim_some]
    refine ⟨⟨⟨calm.running, calm.waiting, calm.current, calm.taps, calm.chores⟩, h.now, timer, rfl,
      h.bound, ?_⟩, hold, hc, ?_⟩
    · rw [release_blocks hc, block, ← begun, ← sofar]
      exact h.coming
    · rw [Hold.up, ht, if_neg Bool.false_ne_true]
      rfl
  | true =>
    rw [ht, if_pos rfl] at ended sessions
    obtain ⟨phase, timer', up, timer, block⟩ := ended
    obtain ⟨chores, enlist, calm⟩ := calm.enlist timer' phase
    have release : u.rig.actuator.release .timed = ({ u.rig.actuator with
        timer := timer', phases := u.rig.actuator.phases ++ [phase], chores }, []) := by
      rw [Actuator.release, up]
      exact congrArg (·, []) enlist
    simp only [step, strokes, sessions, List.getElem?_cons_zero, Option.elim_some, act, Rig.act,
      release]
    refine ⟨⟨calm, h.now, timer, rfl, h.bound, ?_⟩, hold, hc, ?_⟩
    · rw [release_blocks hc, ← block, ← List.append_assoc, ← sofar, ← h.coming]
      simp [Actuator.coming]
    · rw [Hold.up, ht, if_pos rfl]

theorem Agrees.proceed (h : Agrees threshold done d u) {a a' : Actuator} {strokes : List Stroke}
    (proceeds : a.Proceeds strokes a') (timer : a.timer = u.rig.actuator.timer)
    (bindings : a.bindings = u.rig.actuator.bindings) (coming : a.coming = u.rig.actuator.coming)
    (held : Held) : Agrees threshold (done ++ strokes) d ⟨⟨a', held⟩, u.now, u.sessions⟩ where
  calm := proceeds.calm
  now := h.now
  timer := by
    rw [proceeds.timer, timer]
    exact h.timer
  sessions := h.sessions
  bound := by
    rw [proceeds.bindings, bindings]
    exact h.bound
  coming := by rw [List.append_assoc, proceeds.coming, coming, h.coming]

theorem Agrees.arm (h : Agrees threshold done d u) :
    Agrees threshold done (d.note threshold (.turn .arm)) (u.move (.turn .arm)).1 where
  calm := ⟨h.calm.running, h.calm.waiting, h.calm.current, h.calm.taps, h.calm.chores⟩
  now := h.now
  timer := by
    show Diary.Tells threshold (d.current.map (·.arm d.now)) (u.rig.actuator.timer.arm u.now)
    rw [← h.now]
    exact h.timer.arm u.now
  sessions := by
    rw [Diary.sessions, Diary.note]
    exact h.sessions.trans (by rw [Diary.sessions]; cases d.current <;> rfl)
  bound := h.bound
  coming := h.coming.trans (by rw [Diary.blocks, Diary.blocks, Diary.note]; cases d.current <;> rfl)

theorem ring_sessions (threshold : Nat) (d : Diary) :
    (d.note threshold (.turn .ring)).sessions = d.sessions := by
  rw [Diary.sessions, Diary.sessions, Diary.note]
  cases d.current with
  | none => rfl
  | some hold =>
    simp only [Option.map_some, Hold.ring]
    split <;> rfl

theorem Agrees.ring (h : Agrees threshold done d u) :
    Agrees threshold done (d.note threshold (.turn .ring)) (u.move (.turn .ring)).1 := by
  have sessions := h.sessions.trans (ring_sessions threshold d).symm
  cases fresh : u.rig.actuator.timer.fresh with
  | true =>
    have same : d.note threshold (.turn .ring) = d := by
      rw [Diary.note, h.timer.ring_fresh fresh]
    have still : (u.move (.turn .ring)).1 = u := by
      simp [move, act, Rig.act, Actuator.turn, fresh, Held.performAll]
    rw [same, still]
    exact h
  | false =>
    obtain ⟨timer, begun⟩ := h.timer.ring fresh u.now
    have rings : u.rig.actuator.turn u.now .ring = ({ u.rig.actuator with
        timer := (u.rig.actuator.timer.tick u.now).1
        phases := u.rig.actuator.phases ++ (u.rig.actuator.timer.tick u.now).2.toList }, []) := by
      rw [Actuator.turn, if_neg (by simp [fresh])]
    have calm := h.calm
    simp only [move, act, Rig.act, rings]
    refine ⟨⟨calm.running, calm.waiting, calm.current, calm.taps, calm.chores⟩, h.now, ?_, sessions,
      h.bound, ?_⟩
    · rw [Diary.note, ← h.now]
      exact timer
    · have sofar :
          (d.past.flatMap fun e => e.1.block) ++ d.current.elim [] Hold.begun = d.blocks := rfl
      rw [Diary.blocks, Diary.note, ← h.now, begun, ← List.append_assoc, sofar, ← h.coming]
      simp [Actuator.coming]

theorem Agrees.turn (h : Agrees threshold done d u) (t : Actuator.Turn) :
    Agrees threshold (done ++ u.worked (.turn t)) (d.note threshold (.turn t))
      (u.move (.turn t)).1 := by
  cases t with
  | arm =>
    rw [worked, Actuator.turn, List.append_nil]
    exact h.arm
  | ring =>
    have silent : (u.rig.actuator.turn u.now .ring).2 = [] := by
      rw [Actuator.turn]
      split <;> rfl
    rw [worked, silent, List.append_nil]
    exact h.ring
  | phases => exact h.proceed (h.calm.runPhases u.now) rfl rfl rfl _
  | pacing => exact h.proceed (h.calm.run u.now (.inl rfl)) rfl rfl rfl _
  | chore i =>
    simp only [worked, move, act, Rig.act, Actuator.turn]
    cases hi : u.rig.actuator.chores[i]? with
    | none => exact h.proceed h.calm.refl rfl rfl rfl _
    | some chore =>
      have calm : Actuator.Calm
          { u.rig.actuator with chores := u.rig.actuator.chores.eraseIdx i } :=
        ⟨h.calm.running, h.calm.waiting, h.calm.current, h.calm.taps,
          fun chore hc => h.calm.chores chore (List.mem_of_mem_eraseIdx hc)⟩
      have kind := h.calm.chores chore (List.mem_of_getElem? hi)
      exact h.proceed (calm.run u.now kind) rfl rfl rfl _
  | endTap i =>
    have none : u.rig.actuator.turn u.now (.endTap i) = (u.rig.actuator, []) := by
      rw [Actuator.turn, h.calm.taps]
      rfl
    simp only [worked, move, act, Rig.act, none]
    exact h.proceed h.calm.refl rfl rfl rfl _

theorem Agrees.move (h : Agrees threshold done d u) {m : Move} (fits : m.Fits d.current.isSome) :
    Agrees threshold (done ++ u.worked m) (d.note threshold m) (u.move m).1 ∧
      ∀ c, m = .call c → d.Answers (u.strokes c.event) c := by
  cases m with
  | call c =>
    rw [worked, List.append_nil]
    cases c with
    | press read =>
      obtain ⟨agrees, answers⟩ :=
        h.press (Option.not_isSome_iff_eq_none.1 (Bool.not_eq_true _ ▸ fits)) read
      exact ⟨agrees, by rintro _ ⟨⟩; exact answers⟩
    | release i =>
      obtain ⟨held, rfl⟩ := fits
      obtain ⟨hold, hc⟩ := Option.isSome_iff_exists.1 held
      obtain ⟨agrees, answers⟩ := h.release hc
      exact ⟨agrees, by rintro _ ⟨⟩; exact answers⟩
    | rotate | tap | deactivate => exact fits.elim
    | bind bindings =>
      exact ⟨⟨{ h.calm with }, h.now, h.timer, h.sessions, Item.alike_refl _, h.coming⟩,
        by rintro _ ⟨⟩; rfl⟩
  | turn t => exact ⟨h.turn t, nofun⟩
  | pass =>
    rw [worked, List.append_nil]
    exact ⟨⟨h.calm, congrArg (· + 1) h.now, h.timer, h.sessions, h.bound, h.coming⟩, nofun⟩
  | halt | finish => exact fits.elim

theorem note_holds (threshold : Nat) (d : Diary) (m : Move) :
    (d.note threshold m).current.isSome = m.holds d.current.isSome := by
  cases m with
  | call c => cases c <;> rfl
  | turn t => cases t <;> simp [Diary.note, Move.holds]
  | pass | halt | finish => rfl

theorem Agrees.moves (h : Agrees threshold done d u) {ms : List Move}
    (alternates : Alternates d.current.isSome ms) :
    Agrees threshold (done ++ work ms u) (ms.foldl (Diary.note threshold) d) (moves ms u).1 := by
  induction ms generalizing done d u with
  | nil => rwa [work, List.append_nil]
  | cons m ms ih =>
    obtain ⟨fits, later⟩ := alternates
    rw [← note_holds threshold] at later
    have all := ih (h.move fits).1 later
    rwa [List.append_assoc] at all

theorem Alternates.split {before after : List Move} {m : Move}
    (h : Alternates d.current.isSome (before ++ m :: after)) (threshold : Nat) :
    Alternates d.current.isSome before ∧
      m.Fits (before.foldl (Diary.note threshold) d).current.isSome := by
  induction before generalizing d with
  | nil => exact ⟨trivial, h.1⟩
  | cons first before ih =>
    have later : Alternates (d.note threshold first).current.isSome (before ++ m :: after) := by
      rw [note_holds]
      exact h.2
    obtain ⟨alternates, fits⟩ := ih later
    rw [note_holds] at alternates
    exact ⟨⟨h.1, alternates⟩, fits⟩

theorem work_append (ms ns : List Move) (u : Usage) :
    work (ms ++ ns) u = work ms u ++ work ns (moves ms u).1 := by
  induction ms generalizing u with
  | nil => rfl
  | cons m ms ih => rw [List.cons_append, work, ih, ← List.append_assoc]; rfl

/-- Time goes by, and what presses have turned out to be is acted on each millisecond. -/
def rounds : Nat → List Move
  | 0 => []
  | n + 1 => .pass :: .turn .phases :: rounds n

/-- Once nothing is held, all is done when enough time has gone by. -/
theorem Agrees.finish (h : Agrees threshold done d u) (hc : d.current = none) {n : Nat}
    (hn : u.rig.actuator.wait u.now ≤ n) : done ++ work (rounds n) u = d.blocks := by
  induction n generalizing done d u with
  | zero =>
    have all := h.coming
    rwa [Actuator.coming_eq_nil (Nat.le_zero.1 hn)] at all
  | succ n ih =>
    have passed := (h.move (m := .pass) trivial).1
    have acted := passed.turn .phases
    have sooner := h.calm.wait_runPhases u.now
    have all := ih acted hc (Nat.le_trans sooner (by omega))
    rw [List.append_assoc, List.append_assoc] at all
    exact all

end Rig.Usage

namespace Hold

/-- A press becomes long no sooner than when it has lasted for the threshold. -/
structure Late (threshold now : Nat) (h : Hold) : Prop where
  start : h.start ≤ now
  armed : ∀ since, h.armed = some since → h.start ≤ since
  long : h.long = true → threshold ≠ 0 ∧ h.start + threshold ≤ now

/-- Whether a press may still become long. -/
def Open (threshold : Nat) (h : Hold) : Prop :=
  h.timed = true ∧ h.long = false ∧ threshold ≠ 0

/-- A press that may still become long has not lasted for longer than the threshold. -/
structure Prompt (threshold now : Nat) (h : Hold) : Prop where
  armed : h.Open threshold → ∀ since, h.armed = some since → since = h.start
  unarmed : h.Open threshold → h.armed = none → now = h.start
  short : h.Open threshold → now ≤ h.start + threshold

variable {threshold now : Nat} {hold : Hold}

theorem Late.arm (h : hold.Late threshold now) : (hold.arm now).Late threshold now where
  start := h.start
  armed since hs := by
    cases ha : hold.armed with
    | none =>
      simp only [Hold.arm, ha, Option.none_or, Option.some.injEq] at hs
      exact hs ▸ h.start
    | some begun =>
      simp only [Hold.arm, ha, Option.some_or, Option.some.injEq] at hs
      exact h.armed since (ha.trans (congrArg some hs))
  long := h.long

theorem Late.ring (h : hold.Late threshold now) : (hold.ring threshold now).Late threshold now := by
  rw [Hold.ring]
  split
  · rename_i rings
    obtain ⟨since, armed, due⟩ := (Option.any_eq_true _ _).1 rings.2.2
    have := h.armed since armed
    simp only [decide_eq_true_eq] at due
    exact ⟨h.start, h.armed, fun _ => ⟨rings.2.1, by simp only; omega⟩⟩
  · exact h

theorem Prompt.arm (h : hold.Prompt threshold now) : (hold.arm now).Prompt threshold now where
  armed ho since hs := by
    cases ha : hold.armed with
    | none =>
      simp only [Hold.arm, ha, Option.none_or, Option.some.injEq] at hs
      exact hs.symm.trans (h.unarmed ho ha)
    | some begun =>
      simp only [Hold.arm, ha, Option.some_or, Option.some.injEq] at hs
      exact h.armed ho since (ha.trans (congrArg some hs))
  unarmed ho hn := by simp [Hold.arm] at hn
  short := h.short

theorem Prompt.ring (h : hold.Prompt threshold now) :
    (hold.ring threshold now).Prompt threshold now := by
  rw [Hold.ring]
  split
  · have closed : ¬Open threshold { hold with long := true } := fun ho => Bool.noConfusion ho.2.1
    exact ⟨fun ho => (closed ho).elim, fun ho => (closed ho).elim, fun ho => (closed ho).elim⟩
  · exact h

/-- No time goes by while the timer has something to do. -/
theorem Prompt.pass (h : hold.Prompt threshold now)
    (rests : hold.Open threshold → ∃ since, hold.armed = some since ∧ now < since + threshold) :
    hold.Prompt threshold (now + 1) where
  armed := h.armed
  unarmed ho hn := by
    obtain ⟨since, hs, -⟩ := rests ho
    cases hn.symm.trans hs
  short ho := by
    obtain ⟨since, hs, early⟩ := rests ho
    have := h.armed ho since hs
    omega

end Hold

namespace Diary

open Rig.Usage (Call Move)

/-- Something holds of every press by the time it has ended, or by now. -/
structure Each (P : Nat → Hold → Prop) (d : Diary) : Prop where
  past : ∀ h finish, (h, finish) ∈ d.past → P finish h
  current : ∀ h, d.current = some h → P d.now h

variable {P : Nat → Hold → Prop} {threshold : Nat} {d : Diary}

theorem Each.start (P : Nat → Hold → Prop) (bound : List Item) : Each P { bound } :=
  ⟨fun _ _ among => (List.not_mem_nil among).elim,
    fun _ held => (Option.some_ne_none _ held.symm).elim⟩

theorem Each.note (h : d.Each P) {m : Move} (press : ∀ read, P d.now (d.press read))
    (arm : ∀ h, P d.now h → P d.now (h.arm d.now))
    (ring : ∀ h, P d.now h → P d.now (h.ring threshold d.now))
    (pass : m = .pass → ∀ h, d.current = some h → P d.now h → P (d.now + 1) h) :
    (d.note threshold m).Each P := by
  cases m with
  | call c =>
    cases c with
    | press read => exact ⟨h.past, by rintro _ ⟨⟩; exact press read⟩
    | release i =>
      refine ⟨?_, fun _ held => (Option.some_ne_none _ held.symm).elim⟩
      intro hold finish among
      rcases List.mem_append.1 among with earlier | last
      · exact h.past hold finish earlier
      · obtain ⟨_, held, same⟩ := Option.map_eq_some_iff.1 (Option.mem_toList.1 last)
        cases same
        exact h.current hold held
    | bind | rotate | tap | deactivate => exact ⟨h.past, h.current⟩
  | turn t =>
    cases t with
    | arm =>
      refine ⟨h.past, ?_⟩
      intro hold hc
      obtain ⟨before, held, rfl⟩ := Option.map_eq_some_iff.1 hc
      exact arm before (h.current before held)
    | ring =>
      refine ⟨h.past, ?_⟩
      intro hold hc
      obtain ⟨before, held, rfl⟩ := Option.map_eq_some_iff.1 hc
      exact ring before (h.current before held)
    | phases | pacing | chore | endTap => exact ⟨h.past, h.current⟩
  | pass => exact ⟨h.past, fun hold hc => pass rfl hold hc (h.current hold hc)⟩
  | halt | finish => exact ⟨h.past, h.current⟩

theorem Each.late (h : d.Each (Hold.Late threshold)) (ms : List Move) :
    (ms.foldl (Diary.note threshold) d).Each (Hold.Late threshold) := by
  induction ms generalizing d with
  | nil => exact h
  | cons m ms ih =>
    refine ih (h.note (fun read => ⟨Nat.le_refl _, nofun, nofun⟩) (fun _ => Hold.Late.arm)
      (fun _ => Hold.Late.ring) fun _ hold _ late => ?_)
    exact ⟨Nat.le_succ_of_le late.start, late.armed,
      fun long => ⟨(late.long long).1, Nat.le_succ_of_le (late.long long).2⟩⟩

/-- The timer has nothing to do yet. -/
theorem Tells.rests {t : PressTimer Aim} {hold : Hold} (h : Tells threshold (some hold) t)
    {now : Nat} (rests : t.Rests now) (ho : hold.Open threshold) :
    ∃ since, hold.armed = some since ∧ now < since + threshold := by
  obtain ⟨timed, short, never⟩ := ho
  cases h with
  | idle direct => exact (Bool.noConfusion (timed.symm.trans (direct hold rfl)))
  | waiting =>
    obtain ⟨awake, early⟩ := rests (hold.armed.getD hold.start + threshold) (if_neg never)
    obtain ⟨since, armed⟩ := Option.isSome_iff_exists.1 (Option.isNone_eq_false_iff.1 awake)
    refine ⟨since, armed, ?_⟩
    rwa [armed] at early
  | lasting _ long => exact (Bool.noConfusion (short.symm.trans long))

end Diary

namespace Rig.Usage

theorem Agrees.prompt {threshold : Nat} {done : List Stroke} {d : Diary} {u : Usage}
    (h : Agrees threshold done d u) (prompt : d.Each (Hold.Prompt threshold)) {ms : List Move}
    (alternates : Alternates d.current.isSome ms) (timely : Timely ms u) :
    (ms.foldl (Diary.note threshold) d).Each (Hold.Prompt threshold) := by
  induction ms generalizing done d u with
  | nil => exact prompt
  | cons m ms ih =>
    obtain ⟨fits, later⟩ := alternates
    rw [← note_holds threshold] at later
    refine ih (h.move fits).1 (prompt.note ?_ (fun _ => Hold.Prompt.arm)
      (fun _ => Hold.Prompt.ring) ?_) later timely.2
    · exact fun read => ⟨fun _ => nofun, fun _ _ => rfl, fun _ => Nat.le_add_right _ _⟩
    · intro passes hold held before
      have timer := h.timer
      rw [held] at timer
      exact before.pass (h.now ▸ timer.rests (timely.1 passes))

/-- Where a control is pressed and released by turns, in whatever order the tasks have their turns,
a press of items of which none is for long presses acts on the active ones at once, and its end
releases just those. The other presses come one after the other to one block each: the items that
were active when the press began, those for long presses if its timer has rung before the release
and the others if not, are pressed and then released. Nothing that happens later changes that. The
timer never rings before the press has lasted for the threshold; and unless time goes by while the
timer has something to do, it has rung when the press has lasted for longer. -/
theorem alternates_cycles {timing : Timing} {bindings : Bindings} {ms : List Move}
    (h : Alternates false ms) :
    (∀ before c after, ms = before ++ .call c :: after →
        (Diary.ofMoves timing.longPressMs bindings before).Answers
          ((moves before (ofTiming timing bindings)).1.strokes c.event) c) ∧
      work ms (ofTiming timing bindings) <+:
        (Diary.ofMoves timing.longPressMs bindings ms).blocks ∧
      ((Diary.ofMoves timing.longPressMs bindings ms).current = none → ∃ n, ∀ m, n ≤ m →
        work (ms ++ rounds m) (ofTiming timing bindings) =
          (Diary.ofMoves timing.longPressMs bindings ms).blocks) ∧
      ∀ hold finish, (hold, finish) ∈ (Diary.ofMoves timing.longPressMs bindings ms).past →
        (hold.long = true →
          timing.longPressMs ≠ 0 ∧ hold.start + timing.longPressMs ≤ finish) ∧
        (Timely ms (ofTiming timing bindings) → hold.timed = true → timing.longPressMs ≠ 0 →
          hold.start + timing.longPressMs < finish → hold.long = true) := by
  have start := Agrees.start timing bindings
  have agrees := start.moves h
  rw [List.nil_append] at agrees
  refine ⟨?_, ⟨_, agrees.coming⟩, fun released => ?_, fun hold finish among => ⟨?_, ?_⟩⟩
  · intro before c after same
    subst same
    obtain ⟨alternates, fits⟩ :=
      Alternates.split (d := { bound := bindings.press }) h timing.longPressMs
    exact ((start.moves alternates).move fits).2 c rfl
  · let u := (moves ms (ofTiming timing bindings)).1
    refine ⟨u.rig.actuator.wait u.now, fun m hm => ?_⟩
    rw [work_append]
    exact agrees.finish released hm
  · exact (((Diary.Each.start _ bindings.press).late ms).past hold finish among).long
  · intro timely timed never lasted
    have prompt := (start.prompt (.start _ bindings.press) h timely).past hold finish among
    rw [← Bool.not_eq_false]
    intro short
    have := prompt.short ⟨timed, short, never⟩
    omega

/-- A short press, a long one that outlasts its items, and a press of the items bound meanwhile. -/
def threePresses : List Move :=
  [.call (.press fun _ => none), .turn .arm, .call (.release 0), .turn .phases,
    .call (.press fun _ => none), .turn .arm, .pass, .pass, .turn .ring,
    .call (.bind { press := [⟨.key ⟨[], "F3"⟩, false, {}⟩] }), .pass, .call (.release 0),
    .call (.press fun _ => none), .call (.release 0)]

def twoKeys : Bindings where
  press := [⟨.key ⟨[], "F1"⟩, false, {}⟩, ⟨.key ⟨[], "F2"⟩, true, {}⟩]

theorem threePresses_timely :
    Timely threePresses (ofTiming { longPressMs := 2, shortPressPauseMs := 3 } twoKeys) := by
  decide

theorem alternates_cycles_threePresses :
    Alternates false threePresses ∧
      (∃ n, ∀ m, n ≤ m → work (threePresses ++ rounds m)
        (ofTiming { longPressMs := 2, shortPressPauseMs := 3 } twoKeys) =
          [.press (.key ⟨[], "F1"⟩), .release (.key ⟨[], "F1"⟩), .press (.key ⟨[], "F2"⟩),
            .release (.key ⟨[], "F2"⟩)]) ∧
      Timely threePresses (ofTiming { longPressMs := 2, shortPressPauseMs := 3 } twoKeys) ∧
      ∃ hold, (hold, 3) ∈ (Diary.ofMoves 2 twoKeys threePresses).past ∧ hold.timed = true ∧
        hold.start + 2 < 3 ∧ hold.long = true := by
  have alternates : Alternates false threePresses :=
    ⟨rfl, trivial, ⟨rfl, rfl⟩, trivial, rfl, trivial, trivial, trivial, trivial, trivial, trivial,
      ⟨rfl, rfl⟩, rfl, ⟨rfl, rfl⟩, trivial⟩
  obtain ⟨-, -, all, times⟩ :=
    @alternates_cycles { longPressMs := 2, shortPressPauseMs := 3 } twoKeys _ alternates
  obtain ⟨n, done⟩ := all rfl
  refine ⟨alternates, ⟨n, fun m hm => (done m hm).trans (by decide)⟩, threePresses_timely, ?_⟩
  have second :=
    List.mem_of_getElem? (l := (Diary.ofMoves 2 twoKeys threePresses).past) (i := 1) rfl
  exact ⟨_, second, rfl, by decide,
    (times _ _ second).2 threePresses_timely rfl (by decide) (by decide)⟩

/-- A press that is released just when it has lasted for the threshold, before its timer has its
turn. -/
def upFirst : List Move :=
  [.call (.press fun _ => none), .turn .arm, .pass, .pass, .call (.release 0)]

theorem upFirst_isShort :
    Alternates false upFirst ∧
      Timely upFirst (ofTiming { longPressMs := 2, shortPressPauseMs := 3 } twoKeys) ∧
      (Diary.ofMoves 2 twoKeys upFirst).past.map (fun e => (e.1.start, e.2)) = [(0, 2)] ∧
      work (upFirst ++ rounds 4)
        (ofTiming { longPressMs := 2, shortPressPauseMs := 3 } twoKeys) =
          [.press (.key ⟨[], "F1"⟩), .release (.key ⟨[], "F1"⟩)] :=
  ⟨⟨rfl, trivial, trivial, trivial, ⟨rfl, rfl⟩, trivial⟩, by decide, by decide, by decide⟩

end Rig.Usage

end ControlDeck
