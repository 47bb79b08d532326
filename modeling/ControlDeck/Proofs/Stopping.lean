import ControlDeck.Proofs.Levels

namespace ControlDeck

/-- The strokes release the targets that are gone, each as often as it occurs there, and press
nothing. -/
structure Stroke.Sheds (gone : List Target) (strokes : List Stroke) : Prop where
  net : ∀ t, Stroke.net t strokes = -gone.count t
  press : ∀ t, .press t ∉ strokes

namespace Stroke.Sheds

theorem nil : Sheds [] [] :=
  ⟨fun _ => rfl, fun _ => List.not_mem_nil⟩

theorem release (ts : List Target) : Sheds ts (ts.map .release) :=
  ⟨fun t => net_release t ts, fun t h => by simp at h⟩

theorem warn (w : Warning) : Sheds [] [.warn w] :=
  ⟨fun _ => rfl, fun t h => by simp at h⟩

theorem releaseHeld : Sheds [] [.releaseHeld] :=
  ⟨fun _ => rfl, fun t h => by simp at h⟩

theorem append {ts us : List Target} {ss ss' : List Stroke} (h : Sheds ts ss) (h' : Sheds us ss') :
    Sheds (ts ++ us) (ss ++ ss') := by
  refine ⟨fun t => ?_, fun t ht => ?_⟩
  · rw [net_append, h.net, h'.net, List.count_append]
    omega
  · exact (List.mem_append.1 ht).elim (h.press t) (h'.press t)

theorem perm {ts us : List Target} {ss : List Stroke} (h : Sheds ts ss) (hp : ts.Perm us) :
    Sheds us ss :=
  ⟨fun t => by rw [h.net, hp.count_eq], h.press⟩

end Stroke.Sheds

open Stroke (Sheds)

/-- A press becomes long only if there is one. -/
theorem PressTimer.tick_forgotten {α : Type} {t : PressTimer α} (pending : t.pending = [])
    (longHeld : t.longHeld = none) (now : Nat) :
    (t.tick now).2 = none ∧ (t.tick now).1.pending = [] ∧ (t.tick now).1.longHeld = none := by
  rw [tick, pending]
  split
  · exact ⟨rfl, rfl, longHeld⟩
  · exact ⟨rfl, pending, longHeld⟩

namespace Actuator

/-- The work is ending: nothing is begun any more, and no press is timed. -/
structure Ending (a : Actuator) : Prop where
  stopped : a.stopped = true
  pacer : a.pacer.stopped = true
  pending : a.timer.pending = []
  longHeld : a.timer.longHeld = none

/-- The work has ended, and everything has been released. -/
structure Halted (a : Actuator) : Prop extends Ending a where
  phases : a.phases = []
  shortPress : a.shortPress = none
  taps : a.taps = []
  chores : a.chores = []
  current : a.pacer.current = none

theorem sheds_owed (ps : List (PressPhase Aim)) :
    Sheds (ps.flatMap PressPhase.ending) (owed ps) := by
  induction ps with
  | nil => exact .nil
  | cons p ps ih =>
    cases p with
    | short => exact ih
    | longStart => exact ih
    | longEnd aim => exact (Sheds.release aim.long).append ih

theorem sheds_shortPress (held : Option (List Target × Nat)) :
    Sheds (shortTargets held) (held.elim [] fun (targets, _) => targets.map .release) := by
  cases held with
  | none => exact .nil
  | some held => exact .release held.1

theorem sheds_cycle (held : Option (Cycle × Nat)) :
    Sheds (cycleTargets held) (held.elim [] fun (c, _) => c.releases) := by
  cases held with
  | none => exact .nil
  | some held => exact .release held.1.targets

/-- What a piece of work still has to release. -/
def left (a : Actuator) : Chore → List Target
  | .pacing => cycleTargets a.pacer.current
  | .phases => a.phases.flatMap PressPhase.ending ++ shortTargets a.shortPress
  | .tap targets => targets

/-- The actuator once a piece of work is done with. -/
def without (a : Actuator) : Chore → Actuator
  | .pacing => { a with pacer := { a.pacer with waiting := [], current := none } }
  | .phases => { a with phases := [], shortPress := none }
  | .tap _ => a

theorem Ending.run {a : Actuator} (h : a.Ending) (now : Nat) (chore : Chore) :
    (a.run now chore).1 = a.without chore ∧ Sheds (a.left chore) (a.run now chore).2 := by
  cases chore with
  | pacing =>
    rw [Actuator.run, Pacer.run, if_pos h.pacer]
    exact ⟨rfl, sheds_cycle _⟩
  | phases =>
    rw [Actuator.run, runPhases, if_pos h.stopped]
    exact ⟨rfl, ((sheds_shortPress _).append (sheds_owed _)).perm List.perm_append_comm⟩
  | tap targets =>
    rw [Actuator.run, if_pos (.inl h.stopped)]
    exact ⟨rfl, .release targets⟩

theorem Ending.without {a : Actuator} (h : a.Ending) (chore : Chore) :
    (a.without chore).Ending := by
  cases chore <;> exact ⟨h.stopped, h.pacer, h.pending, h.longHeld⟩

theorem without_owing (a : Actuator) (chore : Chore) :
    (a.left chore ++ (a.without chore).owing).Perm (chore.owing ++ a.owing) := by
  rw [List.perm_iff_count]
  intro t
  cases chore <;>
    simp only [left, without, owing, Chore.owing, cycleTargets, shortTargets, Option.elim_none,
      List.flatMap_nil, List.nil_append, List.append_nil, List.count_append]
  all_goals omega

theorem Ending.runAll {a : Actuator} (h : a.Ending) (now : Nat) (chores : List Chore) :
    (runAll now a chores).1 = chores.foldl Actuator.without a ∧
      ∃ gone, Sheds gone (Actuator.runAll now a chores).2 ∧
        (gone ++ (Actuator.runAll now a chores).1.owing).Perm
          (chores.flatMap Chore.owing ++ a.owing) := by
  induction chores generalizing a with
  | nil => exact ⟨rfl, [], .nil, List.Perm.refl _⟩
  | cons chore chores ih =>
    obtain ⟨same, sheds⟩ := h.run now chore
    obtain ⟨ended, gone, more, perm⟩ := ih (h.without chore)
    have all : Actuator.runAll now a (chore :: chores) =
        ((Actuator.runAll now (a.without chore) chores).1,
          (a.run now chore).2 ++ (Actuator.runAll now (a.without chore) chores).2) := by
      rw [Actuator.runAll, ← same]
    rw [all]
    refine ⟨ended, a.left chore ++ gone, sheds.append more, ?_⟩
    rw [List.perm_iff_count]
    intro t
    have later := perm.count_eq t
    have here := (a.without_owing chore).count_eq t
    simp only [List.flatMap_cons, List.count_append] at later here ⊢
    omega

/-- The actuator as it is when it has just been told to stop. -/
def ended (a : Actuator) : Actuator :=
  { a with timer := a.timer.reset.1, stopped := true, pacer := { a.pacer with stopped := true } }

theorem stop_eq (now : Nat) (a : Actuator) :
    a.stop now = ((a.ended.catchUp now).1,
      (a.timer.longHeld.elim [] fun aim => aim.long.map .release) ++ (a.ended.catchUp now).2 ++
        [.releaseHeld]) := by
  simp only [stop, catchUp, ended, List.append_assoc, PressTimer.reset]

theorem endTaps_stopped {a : Actuator} (h : a.stopped = true) (now : Nat) :
    a.endTaps now = ({ a with taps := [] }, (a.taps.flatMap (·.1)).map .release) := by
  simp [endTaps, h, List.partition_eq_filter_filter, List.map_flatMap]

theorem Ending.foldl_without {a : Actuator} (h : a.Ending) (chores : List Chore) :
    (chores.foldl Actuator.without a).Ending ∧
      (chores.foldl Actuator.without a).taps = a.taps ∧
      (chores.foldl Actuator.without a).chores = a.chores := by
  induction chores generalizing a with
  | nil => exact ⟨h, rfl, rfl⟩
  | cons chore chores ih =>
    obtain ⟨ending, taps, left⟩ := ih (h.without chore)
    refine ⟨ending, taps.trans ?_, left.trans ?_⟩ <;> cases chore <;> rfl

theorem Halted.owing {a : Actuator} (h : a.Halted) : a.owing = [] := by
  simp [Actuator.owing, PressTimer.held, h.longHeld, h.phases, h.shortPress, h.taps, h.chores,
    h.current, shortTargets, cycleTargets]

/-- Once nothing is begun any more, all that is held is released at the next occasion. -/
theorem Ending.catchUp {a : Actuator} (h : a.Ending) (now : Nat) :
    (a.catchUp now).1.Halted ∧ Sheds a.owing (a.catchUp now).2 := by
  let untapped : Actuator := { a with taps := [], chores := [] }
  have ending : untapped.Ending := ⟨h.stopped, h.pacer, h.pending, h.longHeld⟩
  obtain ⟨same, gone, sheds, perm⟩ := ending.runAll now (a.chores ++ [Chore.phases, .pacing])
  have all : a.catchUp now = ((Actuator.runAll now untapped (a.chores ++ [.phases, .pacing])).1,
      (a.taps.flatMap (·.1)).map .release ++
        (Actuator.runAll now untapped (a.chores ++ [.phases, .pacing])).2) := by
    rw [Actuator.catchUp, endTaps_stopped h.stopped]
  have halted : (Actuator.runAll now untapped (a.chores ++ [.phases, .pacing])).1.Halted := by
    rw [same, List.foldl_append]
    obtain ⟨done, taps, chores⟩ := ending.foldl_without a.chores
    exact
      { stopped := done.stopped, pacer := done.pacer, pending := done.pending
        longHeld := done.longHeld, phases := rfl, shortPress := rfl, taps, chores, current := rfl }
  rw [all]
  refine ⟨halted, ((Sheds.release _).append sheds).perm ?_⟩
  rw [halted.owing, List.append_nil] at perm
  rw [List.perm_iff_count]
  intro t
  have released := perm.count_eq t
  simp only [untapped, owing, List.flatMap_append, List.count_append, List.flatMap_cons,
    Chore.owing, List.flatMap_nil, List.count_nil] at released ⊢
  omega

/-- Whatever has been pressed is released when the work is stopped, and nothing else is pressed. -/
theorem sheds_stop (now : Nat) (a : Actuator) :
    (a.stop now).1.Halted ∧ Sheds a.owing (a.stop now).2 := by
  obtain ⟨halted, sheds⟩ := (⟨rfl, rfl, rfl, rfl⟩ : a.ended.Ending).catchUp now
  have held : Sheds a.timer.held
      (a.timer.longHeld.elim [] fun aim => aim.long.map .release) := by
    rw [PressTimer.held]
    cases a.timer.longHeld with
    | none => exact .nil
    | some aim => exact .release aim.long
  rw [stop_eq]
  refine ⟨halted, ((held.append sheds).append .releaseHeld).perm ?_⟩
  simp [owing, ended, PressTimer.held, PressTimer.reset]

/-- There is no press left that a release could end. -/
theorem Ending.up {a : Actuator} (h : a.Ending) :
    a.timer.up = ({ a.timer with pending := [], longHeld := none, deadline := none }, none) := by
  rw [PressTimer.up, h.pending, h.longHeld]
  rfl

theorem Halted.release {a : Actuator} (h : a.Halted) (session : Session) :
    (a.release session).1.Halted ∧ Sheds session.targets (a.release session).2 := by
  cases session with
  | direct targets => exact ⟨h, .release targets⟩
  | timed =>
    rw [Actuator.release, h.toEnding.up]
    exact ⟨{ h with pending := rfl, longHeld := rfl }, .warn _⟩

theorem Halted.tick {a : Actuator} (h : a.Halted) (now : Nat) :
    (a.tick now).1.Halted ∧ Sheds [] (a.tick now).2 ∧
      (a.timer.arm now).overtaken now = [] := by
  obtain ⟨phase, pending, longHeld⟩ :=
    PressTimer.tick_forgotten ((a.timer.arm_pending now).trans h.pending)
      ((a.timer.arm_longHeld now).trans h.longHeld) now
  obtain ⟨halted, sheds⟩ := (⟨h.stopped, h.pacer, pending, longHeld⟩ :
    Ending { a with
      timer := ((a.timer.arm now).tick now).1
      phases := a.phases ++ ((a.timer.arm now).tick now).2.toList }).catchUp now
  have same : Actuator.owing { a with
      timer := ((a.timer.arm now).tick now).1
      phases := a.phases ++ ((a.timer.arm now).tick now).2.toList } = [] := by
    rw [← h.owing, Actuator.owing, Actuator.owing, phase]
    simp [PressTimer.held, longHeld, h.longHeld]
  rw [same] at sheds
  refine ⟨halted, sheds, ?_⟩
  rw [PressTimer.overtaken, phase]
  rfl

end Actuator

namespace Rig.Usage

/-- When the work has ended, presses that were made before may still be released, and nothing else
happens. -/
theorem halted_step {u : Usage} (h : u.rig.actuator.Halted) (event : Event) :
    (u.step event).1.rig.actuator.Halted ∧ u.loses event = [] ∧
      ∃ gone, Sheds gone (u.strokes event) ∧
        (gone ++ (u.step event).1.sessions.flatMap Session.targets).Perm
          (u.sessions.flatMap Session.targets) := by
  cases event with
  | press read =>
    have none : u.rig.actuator.press u.now read = (u.rig.actuator, .direct [], []) := by
      rw [Actuator.press, if_pos h.stopped]
    simp only [step, strokes, Rig.press, none]
    exact ⟨h, rfl, [], .nil, .refl _⟩
  | release i =>
    rw [step, strokes]
    cases hs : u.sessions[i]? with
    | none => exact ⟨h, rfl, [], .nil, .refl _⟩
    | some session =>
      obtain ⟨halted, sheds⟩ := h.release session
      refine ⟨halted, rfl, session.targets, sheds, ?_⟩
      exact ((Session.perm_eraseIdx hs).flatMap_right Session.targets).symm
  | rotate ticks read =>
    have none : u.rig.actuator.rotate ticks read = (u.rig.actuator, []) := by
      rw [Actuator.rotate, if_pos (.inl h.stopped)]
    simp only [step, strokes, act, Rig.act, none]
    exact ⟨h, rfl, [], .nil, .refl _⟩
  | tap read =>
    have none : u.rig.actuator.tap read = (u.rig.actuator, []) := by
      rw [Actuator.tap, if_pos h.stopped]
    simp only [step, strokes, act, Rig.act, none]
    exact ⟨h, rfl, [], .nil, .refl _⟩
  | bind bindings => exact ⟨{ h with }, rfl, [], .nil, .refl _⟩
  | deactivate => exact ⟨h, rfl, [], .releaseHeld, .refl _⟩
  | settle =>
    have none : u.rig.actuator.settle u.now =
        ({ u.rig.actuator with timer := u.rig.actuator.timer.arm u.now, chores := [] }, []) := by
      rw [Actuator.settle, h.chores]
      rfl
    have pending := (u.rig.actuator.timer.arm_pending u.now).trans h.pending
    have longHeld := (u.rig.actuator.timer.arm_longHeld u.now).trans h.longHeld
    simp only [step, strokes, act, Rig.act, none]
    exact ⟨{ h with chores := rfl, pending, longHeld }, rfl, [], .nil, .refl _⟩
  | tick =>
    obtain ⟨halted, sheds, none⟩ := h.tick (u.now + 1)
    exact ⟨halted, none, [], sheds, .refl _⟩

/-- What can happen to a rig until its work is stopped, and from then on. -/
inductive Occasion where
  | event (event : Event)
  /-- Ends all work. -/
  | stop

def meet (u : Usage) : Occasion → Usage × List Effect
  | .event event => u.step event
  | .stop => u.act fun a => a.stop u.now

def live : List Occasion → Usage → Usage × List Effect
  | [], u => (u, [])
  | occasion :: occasions, u =>
    let (u, effects) := u.meet occasion
    let (u, more) := live occasions u
    (u, effects ++ more)

/-- The targets of the long press that another one overtakes on an occasion. -/
def overtakes (u : Usage) : Occasion → List Target
  | .event event => u.loses event
  | .stop => []

/-- The targets of the long presses whose beginning is not acted on any more, as the work is stopped
while an earlier press is still held. -/
def skips (u : Usage) : Occasion → List Target
  | .event _ => []
  | .stop => u.rig.actuator.phases.flatMap PressPhase.starting

/-- What some occasions amount to, by what each of them does. -/
def gather (f : Usage → Occasion → List Target) : List Occasion → Usage → List Target
  | [], _ => []
  | occasion :: occasions, u => f u occasion ++ gather f occasions (u.meet occasion).1

/-- What holds throughout the life of a rig, by the effects so far, the targets that long presses
have lost and those that they have never pressed. -/
structure Level (lost skipped : List Target) (effects : List Effect) (u : Usage) : Prop where
  net : ∀ g, Effect.net g effects =
    Actuator.Account.due (.key g) ⟨u.rig.actuator, u.sessions.flatMap Session.targets, lost⟩ -
      skipped.count (.key g)
  /-- A key has gone up more often than down at most by as much as in the end. -/
  before : ∀ g p, p <+: effects → 0 ≤ Effect.net g p ∨ Effect.net g effects ≤ Effect.net g p
  state : u.rig.actuator.stopped = false ∧ skipped = [] ∧
      Actuator.Account.Backed ⟨u.rig.actuator, u.sessions.flatMap Session.targets, lost⟩ ∨
    u.rig.actuator.Halted

theorem Level.start (timing : Timing) (bindings : Bindings) :
    Level [] [] [] (ofTiming timing bindings) where
  net _ := rfl
  before g p hp := by
    rw [List.prefix_nil.1 hp]
    exact .inl (Int.le_refl 0)
  state := by
    refine .inl ⟨rfl, rfl, fun later hs t => ?_⟩
    rw [List.suffix_nil.1 hs]
    exact Int.le_refl 0

/-- While the work goes on, keys go up only as often as they have gone down. -/
theorem Level.afford {lost lost' : List Target} {effects : List Effect} {u : Usage}
    (h : Level lost [] effects u) {strokes : List Stroke} {a : Actuator} {sessions : List Session}
    (affords : Actuator.Account.Affords
      ⟨u.rig.actuator, u.sessions.flatMap Session.targets, lost⟩ strokes
      ⟨a, sessions.flatMap Session.targets, lost'⟩)
    (backed : Actuator.Account.Backed ⟨u.rig.actuator, u.sessions.flatMap Session.targets, lost⟩)
    (running : a.stopped = false) (held : Held) (now : Nat) :
    Level lost' [] (effects ++ (u.rig.held.performAll strokes).2) ⟨⟨a, held⟩, now, sessions⟩ where
  net g := by
    rw [Effect.net_append, h.net, Held.performAll_net, affords.pays.net]
    simp only
    omega
  before g p hp := by
    have nonneg := backed.due_nonneg (.key g)
    have net := h.net g
    rw [List.count_nil] at net
    -- what is due is never negative while the work goes on
    apply Or.inl
    rcases prefix_append hp with hp | ⟨q, hq, rfl⟩
    · have := h.before g p hp
      omega
    · obtain ⟨q', hq', same⟩ := u.rig.held.performAll_prefix strokes hq g
      have := affords.stays backed (.key g) q' hq'
      rw [Effect.net_append, same]
      omega
  state := .inl ⟨running, rfl, affords.backed backed⟩

/-- When no more than what is held is released and the work has ended, only the phases that have not
been acted on are missing. -/
theorem Level.shed {lost skipped : List Target} {effects : List Effect} {u : Usage}
    (h : Level lost skipped effects u) {gone : List Target} {strokes : List Stroke} {a : Actuator}
    {sessions : List Session} (sheds : Sheds gone strokes) (halted : a.Halted)
    (all : ∀ t, gone.count t + (sessions.flatMap Session.targets).count t =
      u.rig.actuator.owing.count t + (u.sessions.flatMap Session.targets).count t)
    (held : Held) (now : Nat) :
    Level lost (skipped ++ u.rig.actuator.phases.flatMap PressPhase.starting)
      (effects ++ (u.rig.held.performAll strokes).2) ⟨⟨a, held⟩, now, sessions⟩ where
  net g := by
    have all := all (.key g)
    rw [Effect.net_append, h.net, Held.performAll_net, sheds.net]
    simp only [Actuator.Account.due_eq, halted.owing, halted.phases, List.flatMap_nil,
      List.count_nil, List.count_append]
    omega
  before g p hp := by
    -- nothing is pressed any more, so the number is least in the end
    rw [Effect.net_append, Held.performAll_net, sheds.net]
    rcases prefix_append hp with hp | ⟨q, hq, rfl⟩
    · have := h.before g p hp
      omega
    · obtain ⟨q', hq', same⟩ := u.rig.held.performAll_prefix strokes hq g
      have := Stroke.net_le_of_prefix hq' (sheds.press (.key g))
      rw [sheds.net] at this
      rw [Effect.net_append, same]
      omega
  state := .inr halted

theorem Level.meet {lost skipped : List Target} {effects : List Effect} {u : Usage}
    (h : Level lost skipped effects u) (occasion : Occasion) :
    Level (lost ++ u.overtakes occasion) (skipped ++ u.skips occasion)
      (effects ++ (u.meet occasion).2) (u.meet occasion).1 := by
  cases occasion with
  | event event =>
    rw [overtakes, skips, List.append_nil, Usage.meet, step_effects]
    rcases h.state with ⟨running, rfl, backed⟩ | halted
    · exact h.afford (affords_step running lost event) backed (step_stopped running event) _ _
    · obtain ⟨ended, none, gone, sheds, perm⟩ := halted_step halted event
      have all (t : Target) : gone.count t +
          ((u.step event).1.sessions.flatMap Session.targets).count t =
            u.rig.actuator.owing.count t + (u.sessions.flatMap Session.targets).count t := by
        rw [halted.owing, List.count_nil, Nat.zero_add, ← List.count_append]
        exact perm.count_eq t
      have level := h.shed sheds ended all (u.step event).1.rig.held (u.step event).1.now
      rw [halted.phases, List.flatMap_nil, List.append_nil] at level
      rw [none, List.append_nil]
      exact level
  | stop =>
    obtain ⟨halted, sheds⟩ := Actuator.sheds_stop u.now u.rig.actuator
    rw [overtakes, List.append_nil]
    exact h.shed sheds halted (fun _ => rfl) _ u.now

theorem Level.live {lost skipped : List Target} {effects : List Effect} {u : Usage}
    (h : Level lost skipped effects u) (occasions : List Occasion) :
    Level (lost ++ gather overtakes occasions u) (skipped ++ gather skips occasions u)
      (effects ++ (live occasions u).2) (Usage.live occasions u).1 := by
  induction occasions generalizing lost skipped effects u with
  | nil => simpa only [gather, Usage.live, List.append_nil] using h
  | cons occasion occasions ih =>
    have later := ih (h.meet occasion)
    simpa only [gather, Usage.live, List.append_assoc] using later

theorem Level.net_nonneg_iff {lost skipped : List Target} {effects : List Effect} {u : Usage}
    (h : Level lost skipped effects u) (g : Hotkey) :
    (0 ≤ Effect.net g effects ↔ skipped.count (.key g) ≤
        lost.count (.key g) + (u.sessions.flatMap Session.targets).count (.key g)) ∧
      -(skipped.count (.key g) : Int) ≤ Effect.net g effects := by
  have net := h.net g
  rcases h.state with ⟨-, rfl, backed⟩ | halted
  · have nonneg := backed.due_nonneg (.key g)
    rw [List.count_nil] at net ⊢
    omega
  · simp only [Actuator.Account.due_eq, halted.owing, halted.phases, List.flatMap_nil,
      List.count_nil] at net
    omega

/-- At no moment has a key gone up more often than down, but for the long presses of it whose
beginning was still to be acted on when the work was stopped. The key is never ahead exactly when
those are made up for by long presses that others have overtaken and by presses that are not
released in the end. -/
theorem keyUps_le {timing : Timing} {bindings : Bindings} {occasions : List Occasion} {u : Usage}
    {effects : List Effect} (h : Usage.live occasions (ofTiming timing bindings) = (u, effects))
    (g : Hotkey) :
    (∀ p, p <+: effects → p.count (.keyUp g) ≤
        p.count (.keyDown g) + (gather skips occasions (ofTiming timing bindings)).count (.key g)) ∧
      ((∀ p, p <+: effects → p.count (.keyUp g) ≤ p.count (.keyDown g)) ↔
        (gather skips occasions (ofTiming timing bindings)).count (.key g) ≤
          (gather overtakes occasions (ofTiming timing bindings)).count (.key g) +
            (u.sessions.flatMap Session.targets).count (.key g)) := by
  have level := (Level.start timing bindings).live occasions
  rw [h, List.nil_append, List.nil_append, List.nil_append] at level
  obtain ⟨nonneg_iff, bound⟩ := level.net_nonneg_iff g
  have before := level.before g
  simp only [Effect.net] at nonneg_iff bound before
  refine ⟨fun p hp => ?_, fun never => ?_, fun made p hp => ?_⟩
  · have := before p hp
    omega
  · have := never effects List.prefix_rfl
    exact nonneg_iff.1 (by omega)
  · have := before p hp
    have := nonneg_iff.2 made
    omega

/-- A long press of a key begins while a short press is still held, and the work is stopped. -/
def hasty : List Occasion :=
  [.event (.press fun _ => none), .event (.release 0), .event .settle,
    .event (.press fun _ => none), .event .settle, .event .tick, .stop]

def longKey : Bindings where
  press := [⟨.key ⟨[], "F1"⟩, true, {}⟩]

theorem keyUps_le_hasty :
    ¬∀ p, p <+: (live hasty (ofTiming { longPressMs := 1, shortPressPauseMs := 2 } longKey)).2 →
      p.count (.keyUp ⟨[], "F1"⟩) ≤ p.count (.keyDown ⟨[], "F1"⟩) := by
  intro never
  have made := (keyUps_le rfl ⟨[], "F1"⟩).2.1 never
  exact absurd made (by decide)

theorem hasty_releases_unpressed :
    (live hasty (ofTiming { longPressMs := 1, shortPressPauseMs := 2 } longKey)).2.count
        (.keyDown ⟨[], "F1"⟩) = 0 ∧
      (live hasty (ofTiming { longPressMs := 1, shortPressPauseMs := 2 } longKey)).2.count
        (.keyUp ⟨[], "F1"⟩) = 1 :=
  ⟨by decide, by decide⟩

end Rig.Usage

end ControlDeck
