import ControlDeck.Actuator
import ControlDeck.Proofs.Strokes

namespace ControlDeck

/-- What a phase presses that a later phase is to release. -/
def PressPhase.starting : PressPhase Aim → List Target
  | .longStart aim => aim.long
  | .short _ | .longEnd _ => []

/-- What a phase releases that an earlier phase has pressed. -/
def PressPhase.ending : PressPhase Aim → List Target
  | .longEnd aim => aim.long
  | .short _ | .longStart _ => []

def Chore.owing : Chore → List Target
  | .tap targets => targets
  | .pacing | .phases => []

/-- The targets of the long press that has not ended. -/
def PressTimer.held (t : PressTimer Aim) : List Target :=
  t.longHeld.elim [] (·.long)

/-- The targets of the long press that gives way to another one as time goes on to `now`. The timer
keeps one long press only. -/
def PressTimer.overtaken (now : Nat) (t : PressTimer Aim) : List Target :=
  if (t.tick now).2.isSome then t.held else []

@[simp] theorem PressTimer.arm_pending {α : Type} (now : Nat) (t : PressTimer α) :
    (t.arm now).pending = t.pending := by
  rw [arm]
  split <;> rfl

@[simp] theorem PressTimer.arm_longHeld {α : Type} (now : Nat) (t : PressTimer α) :
    (t.arm now).longHeld = t.longHeld := by
  rw [arm]
  split <;> rfl

@[simp] theorem PressTimer.arm_held (now : Nat) (t : PressTimer Aim) :
    (t.arm now).held = t.held := by
  rw [held, held, arm_longHeld]

def Session.targets : Session → List Target
  | .direct targets => targets
  | .timed => []

namespace Actuator

def shortTargets (held : Option (List Target × Nat)) : List Target :=
  held.elim [] (·.1)

def cycleTargets (held : Option (Cycle × Nat)) : List Target :=
  held.elim [] (·.1.targets)

/-- What is still to be released of what has been pressed, apart from the targets of sessions. -/
def owing (a : Actuator) : List Target :=
  a.timer.held ++ a.phases.flatMap PressPhase.ending ++ shortTargets a.shortPress ++
    a.taps.flatMap (·.1) ++ a.chores.flatMap Chore.owing ++ cycleTargets a.pacer.current

end Actuator

/-- By how much the releases of a target among some phases outnumber the presses. -/
def PressPhase.due (t : Target) (phases : List (PressPhase Aim)) : Int :=
  ((phases.flatMap ending).count t : Int) - (phases.flatMap starting).count t

/-- Whatever the phases press is released by a later phase, or is among the given targets. -/
def PressPhase.EndIn (rest : List Target) : List (PressPhase Aim) → Prop
  | [] => True
  | phase :: phases =>
    (∀ t ∈ phase.starting, t ∈ phases.flatMap ending ∨ t ∈ rest) ∧ EndIn rest phases

theorem PressPhase.due_cons (t : Target) (p : PressPhase Aim) (ps : List (PressPhase Aim)) :
    due t (p :: ps) = p.ending.count t - p.starting.count t + due t ps := by
  simp only [due, List.flatMap_cons, List.count_append]
  omega

/-- A new phase may itself release what is not released before. -/
theorem PressPhase.EndIn.append {rest rest' : List Target} {ps : List (PressPhase Aim)}
    {p : PressPhase Aim} (h : EndIn rest ps) (hr : ∀ t ∈ rest, t ∈ p.ending ∨ t ∈ rest')
    (hp : p.starting ⊆ rest') : EndIn rest' (ps ++ [p]) := by
  induction ps with
  | nil => exact ⟨fun t ht => .inr (hp ht), trivial⟩
  | cons q ps ih =>
    rw [List.cons_append]
    refine ⟨?_, ih h.2⟩
    intro t ht
    simp only [List.flatMap_append, List.mem_append, List.flatMap_cons, List.flatMap_nil,
      List.append_nil]
    rcases h.1 t ht with hq | hq
    · exact .inl (.inl hq)
    · exact (hr t hq).imp_left .inr

namespace Actuator

/-- An actuator with what else is still to be released, and what never will be. -/
structure Account where
  actuator : Actuator
  /-- The targets of sessions. -/
  sessions : List Target
  /-- The targets of overtaken long presses. -/
  lost : List Target

namespace Account

/-- By how much the presses of a target so far outnumber its releases. -/
def due (t : Target) (x : Account) : Int :=
  x.actuator.owing.count t + x.sessions.count t + x.lost.count t -
    (x.actuator.phases.flatMap PressPhase.starting).count t

/-- Whatever is held, or will be, is still to be released or is lost. -/
structure Covers (held : Held) (x : Account) : Prop where
  held : ∀ c ∈ held, .control c ∈ x.actuator.owing ++ x.sessions ++ x.lost
  phases : PressPhase.EndIn (x.actuator.timer.held ++ x.lost) x.actuator.phases

/-- The strokes by which one account passes into another keep the account balanced. -/
structure Pays (x : Account) (strokes : List Stroke) (y : Account) : Prop where
  net : ∀ t, Stroke.net t strokes = y.due t - x.due t
  covers : ∀ held, x.Covers held → y.Covers (held.after strokes)

theorem Pays.refl (x : Account) : x.Pays [] x :=
  ⟨fun _ => (Int.sub_self _).symm, fun _ h => h⟩

theorem Pays.trans {x y z : Account} {ss ss' : List Stroke} (h : x.Pays ss y)
    (h' : y.Pays ss' z) : x.Pays (ss ++ ss') z := by
  constructor
  · intro t
    rw [Stroke.net_append, h.net, h'.net]
    omega
  · intro held hx
    rw [Held.after_append]
    exact h'.covers _ (h.covers held hx)

theorem Pays.warn {x y : Account} {ss : List Stroke} (ws : List Warning) (h : x.Pays ss y) :
    x.Pays (ws.map .warn ++ ss) y := by
  constructor
  · intro t
    rw [Stroke.net_append, Stroke.net_warn, Int.zero_add]
    exact h.net t
  · intro held hx
    rw [Held.after_append, Held.after_warn]
    exact h.covers held hx

theorem due_eq (t : Target) (a : Actuator) (ss ls : List Target) :
    due t ⟨a, ss, ls⟩ = a.owing.count t + ss.count t + ls.count t -
      (a.phases.flatMap PressPhase.starting).count t := rfl

end Account

/-- The strokes release some targets and press others, which is all that they change. -/
structure Swaps (gone : List Target) (strokes : List Stroke) (new : List Target) : Prop where
  net : ∀ t, Stroke.net t strokes = new.count t - gone.count t
  held : ∀ (held : Held) (c : Control), c ∈ held.after strokes →
    .control c ∈ new ∨ c ∈ held ∧ .control c ∉ gone

theorem Swaps.refl (ts : List Target) : Swaps ts [] ts :=
  ⟨fun _ => (Int.sub_self _).symm, fun _ _ h => (Classical.em _).imp_right (⟨h, ·⟩)⟩

theorem Swaps.press (ts : List Target) : Swaps [] (ts.map .press) ts := by
  refine ⟨fun t => by simp, ?_⟩
  intro held c h
  rw [Held.mem_after_press] at h
  exact h.symm.imp_right (⟨·, List.not_mem_nil⟩)

theorem Swaps.release (ts : List Target) : Swaps ts (ts.map .release) [] := by
  refine ⟨fun t => by simp, ?_⟩
  intro held c h
  rw [Held.mem_after_release] at h
  exact .inr h

theorem Swaps.trans {ts us vs : List Target} {ss ss' : List Stroke} (h : Swaps ts ss us)
    (h' : Swaps us ss' vs) : Swaps ts (ss ++ ss') vs := by
  constructor
  · intro t
    rw [Stroke.net_append, h.net, h'.net]
    omega
  · intro held c hc
    rw [Held.after_append] at hc
    rcases h'.held _ c hc with hv | ⟨hc, hu⟩
    · exact .inl hv
    · exact (h.held _ c hc).elim (absurd · hu) .inr

/-- Strokes that swap a part of what is owing, of which the rest stays, keep the account
balanced. -/
theorem Swaps.pays {gone new ss ss' ls : List Target} {strokes : List Stroke} {a a' : Actuator}
    (h : Swaps gone strokes new) (rest : List Target)
    (hb : ∀ t, a.owing.count t + ss.count t = gone.count t + rest.count t)
    (ha : ∀ t, a'.owing.count t + ss'.count t = new.count t + rest.count t)
    (ht : a'.timer.held = a.timer.held) (hp : a'.phases = a.phases) :
    Account.Pays ⟨a, ss, ls⟩ strokes ⟨a', ss', ls⟩ := by
  refine ⟨?_, fun held hc => ⟨?_, ?_⟩⟩
  · intro t
    have hb := hb t
    have ha := ha t
    rw [h.net, Account.due_eq, Account.due_eq, hp]
    omega
  · intro c hm
    have hb := hb (.control c)
    have ha := ha (.control c)
    rw [← List.count_pos_iff, List.count_append, List.count_append]
    rcases h.held held c hm with hn | ⟨hm, hg⟩
    · rw [← List.count_pos_iff] at hn
      simp only
      omega
    · have hm := hc.held c hm
      rw [← List.count_pos_iff, List.count_append, List.count_append] at hm
      rw [List.count_eq_zero.2 hg] at hb
      simp only at hm ⊢
      omega
  · simpa only [ht, hp] using hc.phases

/-- A change that leaves what is owing keeps the account balanced. -/
theorem Account.Pays.silent {ss ss' ls : List Target} {a a' : Actuator}
    (h : ∀ t, a'.owing.count t + ss'.count t = a.owing.count t + ss.count t)
    (ht : a'.timer.held = a.timer.held) (hp : a'.phases = a.phases) :
    Account.Pays ⟨a, ss, ls⟩ [] ⟨a', ss', ls⟩ :=
  (Swaps.refl []).pays (a.owing ++ ss) (by simp) (by simpa using h) ht hp

end Actuator

end ControlDeck
