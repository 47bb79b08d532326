import ControlDeck.Proofs.Release

namespace ControlDeck

theorem prefix_append {α : Type} {p xs ys : List α} (h : p <+: xs ++ ys) :
    p <+: xs ∨ ∃ q, q <+: ys ∧ p = xs ++ q := by
  rcases List.prefix_or_prefix_of_prefix h (List.prefix_append xs ys) with hp | ⟨q, rfl⟩
  · exact .inl hp
  · exact .inr ⟨q, (List.prefix_append_right_inj xs).1 h, rfl⟩

namespace Stroke

/-- Where the presses of a target outnumber its releases by `n` at first, the releases never come to
outnumber the presses. -/
def Stays (t : Target) (n : Int) (strokes : List Stroke) : Prop :=
  ∀ p, p <+: strokes → 0 ≤ n + net t p

theorem stays_nil {t : Target} {n : Int} (h : 0 ≤ n) : Stays t n [] := by
  intro p hp
  rw [List.prefix_nil.1 hp, net_nil]
  omega

theorem Stays.append {t : Target} {n : Int} {ss ss' : List Stroke} (h : Stays t n ss)
    (h' : Stays t (n + net t ss) ss') : Stays t n (ss ++ ss') := by
  intro p hp
  rcases prefix_append hp with hp | ⟨q, hq, rfl⟩
  · exact h p hp
  · have := h' q hq
    rw [net_append]
    omega

theorem stays_press {t : Target} {n : Int} (h : 0 ≤ n) (ts : List Target) :
    Stays t n (ts.map .press) := by
  intro p hp
  obtain ⟨us, rest, rfl, rfl, -⟩ := List.map_eq_append_iff.1 hp.choose_spec.symm
  rw [net_press]
  omega

theorem stays_release {t : Target} {n : Int} {ts : List Target} (h : (ts.count t : Int) ≤ n) :
    Stays t n (ts.map .release) := by
  intro p hp
  obtain ⟨us, rest, rfl, rfl, -⟩ := List.map_eq_append_iff.1 hp.choose_spec.symm
  rw [List.count_append] at h
  rw [net_release]
  omega

theorem stays_warn {t : Target} {n : Int} (h : 0 ≤ n) (ws : List Warning) :
    Stays t n (ws.map .warn) := by
  intro p hp
  obtain ⟨us, rest, rfl, rfl, -⟩ := List.map_eq_append_iff.1 hp.choose_spec.symm
  rw [net_warn]
  omega

/-- A number is back where it was once targets have been pressed and released. -/
theorem Stays.cycle {t : Target} {n : Int} {ss : List Stroke} (h : Stays t n ss)
    (hn : 0 ≤ n) (ts : List Target) : Stays t n (ts.map .press ++ ts.map .release ++ ss) := by
  refine ((stays_press hn ts).append (stays_release ?_)).append ?_
  · rw [net_press]
    omega
  · rw [net_append, net_press, net_release, Int.add_right_neg, Int.add_zero]
    exact h

theorem Stays.release {t : Target} {n : Int} {ss : List Stroke} (h : Stays t n ss)
    (hn : 0 ≤ n) (ts : List Target) : Stays t (n + ts.count t) (ts.map .release ++ ss) := by
  refine (stays_release (by omega)).append ?_
  rw [net_release, Int.add_neg_cancel_right]
  exact h

/-- Strokes among which there is no press only ever bring the number down. -/
theorem net_le_of_prefix {t : Target} {p ss : List Stroke} (hp : p <+: ss)
    (h : Stroke.press t ∉ ss) : net t ss ≤ net t p := by
  obtain ⟨q, rfl⟩ := hp
  have none : q.count (.press t) = 0 :=
    List.count_eq_zero.2 fun hq => h (List.mem_append_right p hq)
  have : net t q ≤ 0 := by
    rw [net, none]
    omega
  rw [net_append]
  omega

end Stroke

theorem Held.perform_prefix (held : Held) (s : Stroke) {p : List Effect}
    (hp : p <+: (held.perform s).2) (h : Hotkey) :
    Effect.net h p = 0 ∨ Effect.net h p = Stroke.net (.key h) [s] := by
  have noKey (hs : ∀ e ∈ (held.perform s).2, (∃ c, e = .send c) ∨ ∃ w, e = .warn w) :
      Effect.net h p = 0 :=
    Effect.net_eq_zero h fun e he => hs e (hp.subset he)
  have single (e : Effect) (he : (held.perform s).2 = [e]) :
      Effect.net h p = 0 ∨ Effect.net h p = Stroke.net (.key h) [s] := by
    rw [← held.perform_net s h, he]
    rw [he] at hp
    rcases List.prefix_cons_iff.1 hp with rfl | ⟨q, rfl, hq⟩
    · exact .inl rfl
    · rw [List.prefix_nil.1 hq]
      exact .inr rfl
  cases s with
  | press t =>
    cases t with
    | key g => exact single _ rfl
    | control c => exact single _ rfl
  | release t =>
    cases t with
    | key g => exact single _ rfl
    | control c =>
      refine .inl (noKey ?_)
      simp only [perform, Held.release]
      split <;> simp
  | releaseHeld =>
    refine .inl (noKey ?_)
    intro e he
    simp only [perform, deactivate, Prod.map_snd, List.mem_flatMap, List.mem_cons,
      List.not_mem_nil, or_false] at he
    obtain ⟨c, -, rfl | rfl⟩ := he
    · exact .inr ⟨_, rfl⟩
    · exact .inl ⟨_, rfl⟩
  | warn w => exact single _ rfl

/-- At each moment a key has gone down and up as some of the strokes ask for. -/
theorem Held.performAll_prefix (held : Held) (ss : List Stroke) {p : List Effect}
    (hp : p <+: (held.performAll ss).2) (h : Hotkey) :
    ∃ q, q <+: ss ∧ Effect.net h p = Stroke.net (.key h) q := by
  induction ss generalizing held p with
  | nil => exact ⟨[], List.prefix_rfl, by rw [List.prefix_nil.1 hp]; rfl⟩
  | cons s ss ih =>
    rw [performAll] at hp
    rcases prefix_append hp with hp | ⟨q, hq, rfl⟩
    · rcases held.perform_prefix s hp h with hn | hn
      · exact ⟨[], List.nil_prefix, hn⟩
      · exact ⟨[s], List.prefix_append [s] ss, hn⟩
    · obtain ⟨q', hq', hn⟩ := ih _ hq
      refine ⟨s :: q', List.cons_prefix_cons.2 ⟨rfl, hq'⟩, ?_⟩
      rw [Effect.net_append, perform_net, hn, ← Stroke.net_cons]

theorem PressPhase.due_append (t : Target) (ps qs : List (PressPhase Aim)) :
    due t (ps ++ qs) = due t ps + due t qs := by
  simp only [due, List.flatMap_append, List.count_append]
  omega

namespace Actuator

namespace Account

/-- A long press that is still to begin is to end after that, or is held or lost. -/
def Backed (x : Account) : Prop :=
  ∀ later, later <:+ x.actuator.phases → ∀ t,
    0 ≤ (x.actuator.timer.held.count t : Int) + x.lost.count t + PressPhase.due t later

/-- While the strokes lead from one account to another, no target is released more often than it has
been pressed. -/
structure Affords (x : Account) (strokes : List Stroke) (y : Account) : Prop where
  pays : x.Pays strokes y
  backed : x.Backed → y.Backed
  stays : x.Backed → ∀ t, Stroke.Stays t (x.due t) strokes

/-- What is held for other reasons than by a long press is owed in any case. -/
theorem Backed.le_due {x : Account} (h : x.Backed) (t : Target) :
    ((shortTargets x.actuator.shortPress).count t + (x.actuator.taps.flatMap (·.1)).count t +
      (x.actuator.chores.flatMap Chore.owing).count t +
      (cycleTargets x.actuator.pacer.current).count t + x.sessions.count t : Int) ≤ x.due t := by
  have backed := h _ List.suffix_rfl t
  have owing := owing_due t x.actuator
  rw [due]
  omega

theorem Backed.due_nonneg {x : Account} (h : x.Backed) (t : Target) : 0 ≤ x.due t := by
  have := h.le_due t
  omega

theorem Backed.same {x y : Account} (h : x.Backed)
    (hp : y.actuator.phases <:+ x.actuator.phases)
    (ht : y.actuator.timer.held = x.actuator.timer.held) (hl : y.lost = x.lost) : y.Backed := by
  intro later hs t
  rw [ht, hl]
  exact h later (hs.trans hp) t

/-- A new phase changes what is held or lost by what it ends or begins. -/
theorem Backed.append {x y : Account} (h : x.Backed) {p : PressPhase Aim}
    (hp : y.actuator.phases = x.actuator.phases ++ [p])
    (hb : ∀ t, (y.actuator.timer.held.count t : Int) + y.lost.count t + PressPhase.due t [p] =
      x.actuator.timer.held.count t + x.lost.count t) : y.Backed := by
  intro later hs t
  rw [hp, List.suffix_concat_iff] at hs
  rcases hs with rfl | ⟨earlier, rfl, hs⟩
  · simp only [PressPhase.due, List.flatMap_nil, List.count_nil]
    omega
  · have := h earlier hs t
    have := hb t
    rw [PressPhase.due_append]
    omega

theorem Affords.refl (x : Account) : x.Affords [] x :=
  ⟨.refl x, id, fun h t => Stroke.stays_nil (h.due_nonneg t)⟩

theorem Affords.trans {x y z : Account} {ss ss' : List Stroke} (h : x.Affords ss y)
    (h' : y.Affords ss' z) : x.Affords (ss ++ ss') z := by
  refine ⟨h.pays.trans h'.pays, h'.backed ∘ h.backed, fun hx t => ?_⟩
  refine (h.stays hx t).append ?_
  have same : x.due t + Stroke.net t ss = y.due t := by
    rw [h.pays.net]
    omega
  rw [same]
  exact h'.stays (h.backed hx) t

theorem Affords.warn {x y : Account} {ss : List Stroke} (ws : List Warning) (h : x.Affords ss y) :
    x.Affords (ws.map .warn ++ ss) y := by
  refine ⟨h.pays.warn ws, h.backed, fun hx t => ?_⟩
  refine (Stroke.stays_warn (hx.due_nonneg t) ws).append ?_
  rw [Stroke.net_warn, Int.add_zero]
  exact h.stays hx t

theorem Pays.affords {x y : Account} (h : x.Pays [] y) (hb : x.Backed → y.Backed) :
    x.Affords [] y :=
  ⟨h, hb, fun hx t => Stroke.stays_nil (hx.due_nonneg t)⟩

end Account

theorem stays_start {t : Target} {n : Int} (h : 0 ≤ n) (now dwell : Nat) (cs : List Cycle) :
    Stroke.Stays t n (Pacer.start now dwell cs).2.2 := by
  induction cs with
  | nil => exact Stroke.stays_nil h
  | cons c cs ih =>
    rw [Pacer.start]
    split
    · exact ih.cycle h c.targets
    · exact Stroke.stays_press h c.targets

theorem stays_pacer_run {t : Target} {n : Int} (now : Nat) {p : Pacer}
    (h : ((cycleTargets p.current).count t : Int) ≤ n) : Stroke.Stays t n (p.run now).2 := by
  have release : Stroke.Stays t n (p.current.elim [] fun held => held.1.releases) := by
    cases hc : p.current with
    | none => exact Stroke.stays_nil (by omega)
    | some held =>
      rw [hc] at h
      exact Stroke.stays_release h
  have net : Stroke.net t (p.current.elim [] fun held => held.1.releases) =
      -(cycleTargets p.current).count t := by
    cases p.current with
    | none => rfl
    | some held => exact Stroke.net_release t held.1.targets
  rw [Pacer.run]
  split
  · exact release
  · split
    · exact Stroke.stays_nil (by omega)
    · refine release.append (stays_start ?_ now p.dwell p.waiting)
      rw [net]
      omega

theorem affords_pacing (now : Nat) (a : Actuator) (ss ls : List Target) :
    Account.Affords ⟨a, ss, ls⟩ (a.run now .pacing).2 ⟨(a.run now .pacing).1, ss, ls⟩ := by
  refine ⟨pays_pacing now a ss ls, fun h => h.same List.suffix_rfl rfl rfl, fun h t => ?_⟩
  have := h.le_due t
  exact stays_pacer_run now (by simp only at this; omega)

theorem affords_tap (now : Nat) (a : Actuator) (targets ss ls : List Target) :
    Account.Affords ⟨a, targets ++ ss, ls⟩ (a.run now (.tap targets)).2
      ⟨(a.run now (.tap targets)).1, ss, ls⟩ := by
  refine ⟨pays_tap now a targets ss ls, fun h => ?_, fun h t => ?_⟩
  · rw [run]
    split <;> exact h.same List.suffix_rfl rfl rfl
  · have due := h.le_due t
    simp only [List.count_append] at due
    rw [run]
    split
    · exact Stroke.stays_release (by omega)
    · exact Stroke.stays_nil (h.due_nonneg t)

theorem affords_endTaps (now : Nat) (a : Actuator) (ss ls : List Target) :
    Account.Affords ⟨a, ss, ls⟩ (a.endTaps now).2 ⟨(a.endTaps now).1, ss, ls⟩ := by
  refine ⟨pays_endTaps now a ss ls, fun h => h.same List.suffix_rfl rfl rfl, fun h t => ?_⟩
  have due := h.le_due t
  have ended := count_partition (fun tap => a.stopped || tap.2 ≤ now) a.taps t
  have he : (a.endTaps now).2 =
      ((a.taps.partition fun tap => a.stopped || tap.2 ≤ now).1.flatMap (·.1)).map .release := by
    rw [List.map_flatMap]
    rfl
  rw [he]
  exact Stroke.stays_release (by simp only at due; omega)

theorem follow_suffix (now pause : Nat) (ps : List (PressPhase Aim)) :
    (follow now pause ps).2.1 <:+ ps := by
  induction ps with
  | nil => exact List.suffix_rfl
  | cons p ps ih =>
    cases p with
    | short aim =>
      rw [follow_short]
      split
      · exact ih.trans (List.suffix_cons _ _)
      · exact List.suffix_cons _ _
    | longStart aim => exact ih.trans (List.suffix_cons _ _)
    | longEnd aim => exact ih.trans (List.suffix_cons _ _)

/-- While phases are acted on, a target is down as often as the phases that are left make up for. -/
theorem stays_follow {t : Target} {n : Int} {ps : List (PressPhase Aim)}
    (h : ∀ later, later <:+ ps → 0 ≤ n + PressPhase.due t later) (now pause : Nat) :
    Stroke.Stays t (n + PressPhase.due t ps) (follow now pause ps).2.2 := by
  induction ps with
  | nil => exact Stroke.stays_nil (h [] List.suffix_rfl)
  | cons p ps ih =>
    have here := h _ List.suffix_rfl
    have after := ih fun later hs => h later (hs.trans (List.suffix_cons p ps))
    have next := h ps (List.suffix_cons p ps)
    have due := PressPhase.due_cons t p ps
    cases p with
    | short aim =>
      have same : PressPhase.due t (.short aim :: ps) = PressPhase.due t ps := by
        simpa [PressPhase.starting, PressPhase.ending] using due
      rw [follow_short, same]
      split
      · exact after.cycle next aim.short
      · exact Stroke.stays_press next aim.short
    | longStart aim =>
      refine (Stroke.stays_press here aim.long).append ?_
      have same : n + PressPhase.due t (.longStart aim :: ps) +
          Stroke.net t (aim.long.map .press) = n + PressPhase.due t ps := by
        rw [Stroke.net_press, due, PressPhase.starting, PressPhase.ending, List.count_nil]
        omega
      rw [same]
      exact after
    | longEnd aim =>
      have same : n + PressPhase.due t (.longEnd aim :: ps) =
          n + PressPhase.due t ps + aim.long.count t := by
        rw [due, PressPhase.starting, PressPhase.ending, List.count_nil]
        omega
      rw [follow_longEnd, same]
      exact after.release next aim.long

theorem affords_phases {now : Nat} {a : Actuator} (hs : a.stopped = false) (ss ls : List Target) :
    Account.Affords ⟨a, ss, ls⟩ (a.run now .phases).2 ⟨(a.run now .phases).1, ss, ls⟩ := by
  refine ⟨pays_phases hs ss ls, fun h => ?_, fun h t => ?_⟩
  · rw [run, runPhases, if_neg (by simp [hs])]
    split
    · exact h
    · exact h.same (follow_suffix _ _ _) rfl rfl
  · by_cases hd : a.shortPress.any (now < ·.2)
    · rw [run, runPhases, if_neg (by simp [hs]), if_pos hd]
      exact Stroke.stays_nil (h.due_nonneg t)
    rw [run, runPhases_due hs hd]
    have due := h.le_due t
    have owing := owing_due t a
    -- all that is owed for other reasons than by the phases and the short press
    let others : Int := a.timer.held.count t + (a.taps.flatMap (·.1)).count t +
      (a.chores.flatMap Chore.owing).count t + (cycleTargets a.pacer.current).count t +
      ss.count t + ls.count t
    have split : Account.due t ⟨a, ss, ls⟩ =
        others + PressPhase.due t a.phases + (shortTargets a.shortPress).count t := by
      rw [Account.due_eq]
      omega
    have nonneg (later : List (PressPhase Aim)) (hl : later <:+ a.phases) :
        0 ≤ others + PressPhase.due t later := by
      have := h later hl t
      simp only at this
      omega
    have followed := stays_follow nonneg now a.pause
    rw [split]
    cases hp : a.shortPress with
    | none => simpa [shortTargets] using followed
    | some held => exact followed.release (nonneg _ List.suffix_rfl) held.1

theorem affords_run {now : Nat} {a : Actuator} (h : a.stopped = false) (chore : Chore)
    (ss ls : List Target) :
    Account.Affords ⟨a, chore.owing ++ ss, ls⟩ (a.run now chore).2
      ⟨(a.run now chore).1, ss, ls⟩ := by
  cases chore with
  | pacing => exact affords_pacing now a ss ls
  | phases => exact affords_phases h ss ls
  | tap targets => exact affords_tap now a targets ss ls

theorem affords_runAll (now : Nat) {a : Actuator} (h : a.stopped = false) (chores : List Chore)
    (ss ls : List Target) :
    Account.Affords ⟨a, chores.flatMap Chore.owing ++ ss, ls⟩ (runAll now a chores).2
      ⟨(runAll now a chores).1, ss, ls⟩ := by
  induction chores generalizing a with
  | nil => exact .refl _
  | cons chore chores ih =>
    rw [List.flatMap_cons, List.append_assoc]
    exact (affords_run h chore _ ls).trans (ih ((run_keeps now a chore).2.trans h))

theorem affords_begin (a : Actuator) (ss ls : List Target) :
    Account.Affords ⟨a, ss, ls⟩ []
      ⟨{ a with chores := [] }, a.chores.flatMap Chore.owing ++ ss, ls⟩ :=
  (pays_begin a ss ls).affords fun h => h.same List.suffix_rfl rfl rfl

theorem affords_arm (now : Nat) (a : Actuator) (ss ls : List Target) :
    Account.Affords ⟨a, ss, ls⟩ [] ⟨{ a with timer := a.timer.arm now }, ss, ls⟩ :=
  (pays_arm now a ss ls).affords fun h => h.same List.suffix_rfl (a.timer.arm_held now) rfl

theorem affords_settle {now : Nat} {a : Actuator} (h : a.stopped = false) (ss ls : List Target) :
    Account.Affords ⟨a, ss, ls⟩ (a.settle now).2 ⟨(a.settle now).1, ss, ls⟩ :=
  ((affords_arm now a ss ls).trans (affords_begin { a with timer := a.timer.arm now } ss ls)).trans
    (affords_runAll now (a := { a with timer := a.timer.arm now, chores := [] }) h a.chores ss ls)

theorem affords_timer (now : Nat) (a : Actuator) (ss ls : List Target) :
    Account.Affords ⟨a, ss, ls⟩ []
      ⟨{ a with
        timer := (a.timer.tick now).1, phases := a.phases ++ (a.timer.tick now).2.toList },
        ss, ls ++ a.timer.overtaken now⟩ := by
  refine (pays_timer now a ss ls).affords fun h => ?_
  rw [PressTimer.overtaken, PressTimer.tick]
  split
  · cases hp : a.timer.pending with
    | nil =>
      simp only [Option.toList_none, List.append_nil, Option.isSome_none, Bool.false_eq_true,
        ↓reduceIte]
      exact h.same List.suffix_rfl rfl rfl
    | cons aim pending =>
      refine h.append rfl fun t => ?_
      simp only [Option.isSome_some, ↓reduceIte, List.count_append, PressPhase.due,
        List.flatMap_singleton, PressPhase.starting, PressPhase.ending, List.count_nil,
        PressTimer.held, Option.elim_some]
      omega
  · simp only [Option.toList_none, List.append_nil, Option.isSome_none, Bool.false_eq_true,
      ↓reduceIte]
    exact h

/-- The taps whose time is over end, and all work that is due is done. -/
def catchUp (now : Nat) (a : Actuator) : Actuator × List Stroke :=
  let (a, released) := a.endTaps now
  let (a, strokes) := runAll now { a with chores := [] } (a.chores ++ [.phases, .pacing])
  (a, released ++ strokes)

theorem tick_eq (now : Nat) (a : Actuator) :
    a.tick now = catchUp now { a with
      timer := ((a.timer.arm now).tick now).1
      phases := a.phases ++ ((a.timer.arm now).tick now).2.toList } := rfl

theorem affords_catchUp (now : Nat) {a : Actuator} (h : a.stopped = false) (ss ls : List Target) :
    Account.Affords ⟨a, ss, ls⟩ (a.catchUp now).2 ⟨(a.catchUp now).1, ss, ls⟩ := by
  let untapped := (a.endTaps now).1
  have begun := (affords_endTaps now a ss ls).trans (affords_begin untapped ss ls)
  have done := affords_runAll now (a := { untapped with chores := [] }) h
    (untapped.chores ++ [.phases, .pacing]) ss ls
  have none : (untapped.chores ++ [Chore.phases, .pacing]).flatMap Chore.owing =
      untapped.chores.flatMap Chore.owing := by
    simp [Chore.owing]
  rw [none] at done
  have all := begun.trans done
  rw [List.append_nil] at all
  exact all

theorem affords_tick {now : Nat} {a : Actuator} (h : a.stopped = false) (ss ls : List Target) :
    Account.Affords ⟨a, ss, ls⟩ (a.tick now).2
      ⟨(a.tick now).1, ss, ls ++ (a.timer.arm now).overtaken now⟩ := by
  let armed := { a with timer := a.timer.arm now }
  let timed := { armed with
    timer := (armed.timer.tick now).1
    phases := armed.phases ++ (armed.timer.tick now).2.toList }
  have caught := affords_catchUp now (a := timed) h ss (ls ++ armed.timer.overtaken now)
  exact ((affords_arm now a ss ls).trans (affords_timer now armed ss ls)).trans caught

theorem affords_press {a : Actuator} (hs : a.stopped = false) (now : Nat) (read : Readings)
    (ss ls : List Target) :
    Account.Affords ⟨a, ss, ls⟩ (a.press now read).2.2
      ⟨(a.press now read).1, (a.press now read).2.1.targets ++ ss, ls⟩ := by
  refine ⟨pays_press hs now read ss ls, fun h => ?_, fun h t => ?_⟩
  · rw [press_running hs]
    split <;> exact h.same List.suffix_rfl rfl rfl
  · have nonneg := h.due_nonneg t
    rw [press_running hs]
    split
    · exact Stroke.stays_warn nonneg _
    · refine (Stroke.stays_warn nonneg _).append ?_
      rw [Stroke.net_warn, Int.add_zero]
      exact Stroke.stays_press nonneg _

theorem affords_enlist {a : Actuator} (chore : Chore) (h : chore.owing = []) (ss ls : List Target) :
    Account.Affords ⟨a, ss, ls⟩ [] ⟨enlist chore a, ss, ls⟩ := by
  refine (pays_enlist chore h ss ls).affords fun hb => ?_
  rw [enlist]
  split
  · exact hb
  · exact hb.same List.suffix_rfl rfl rfl

theorem affords_up (a : Actuator) (ss ls : List Target) :
    Account.Affords ⟨a, ss, ls⟩ []
      ⟨{ a with timer := a.timer.up.1, phases := a.phases ++ a.timer.up.2.toList }, ss, ls⟩ := by
  refine (pays_up a ss ls).affords fun h => ?_
  cases hp : a.timer.pending with
  | cons aim pending =>
    simp only [PressTimer.up, hp, Option.toList_some]
    refine h.append rfl fun t => ?_
    simp only [PressPhase.due, List.flatMap_singleton, PressPhase.starting, PressPhase.ending,
      List.count_nil, PressTimer.held]
    omega
  | nil =>
    cases hl : a.timer.longHeld with
    | none =>
      simp only [PressTimer.up, hp, hl, Option.map_none, Option.toList_none, List.append_nil]
      exact h.same List.suffix_rfl (by simp [PressTimer.held, hl]) rfl
    | some aim =>
      simp only [PressTimer.up, hp, hl, Option.map_some, Option.toList_some]
      refine h.append rfl fun t => ?_
      simp only [PressPhase.due, List.flatMap_singleton, PressPhase.starting, PressPhase.ending,
        List.count_nil, PressTimer.held, hl, Option.elim_none, Option.elim_some]
      omega

theorem affords_release (a : Actuator) (session : Session) (ss ls : List Target) :
    Account.Affords ⟨a, session.targets ++ ss, ls⟩ (a.release session).2
      ⟨(a.release session).1, ss, ls⟩ := by
  cases session with
  | direct targets =>
    refine ⟨pays_release a _ ss ls, fun h => h.same List.suffix_rfl rfl rfl, fun h t => ?_⟩
    have due := h.le_due t
    simp only [Session.targets, List.count_append] at due ⊢
    exact Stroke.stays_release (by omega)
  | timed =>
    have up := affords_up a ss ls
    rw [release]
    split
    · rename_i timer phase hu
      rw [hu] at up
      exact up.trans (affords_enlist .phases rfl ss ls)
    · rename_i timer hu
      rw [hu] at up
      simp only [Option.toList_none, List.append_nil] at up
      exact .warn [.strayRelease] up

theorem affords_rotate (ticks : Int) (read : Readings) (a : Actuator) (ss ls : List Target) :
    Account.Affords ⟨a, ss, ls⟩ (a.rotate ticks read).2 ⟨(a.rotate ticks read).1, ss, ls⟩ := by
  refine ⟨pays_rotate ticks read a ss ls, fun h => ?_, fun h t => ?_⟩ <;>
    by_cases hr : a.stopped ∨ ticks = 0
  · rw [rotate, if_pos hr]
    exact h
  · obtain ⟨bindings, pacer, warnings, -, he⟩ := rotate_queues hr read
    rw [he, enlist]
    split <;> exact h.same List.suffix_rfl rfl rfl
  · rw [rotate, if_pos hr]
    exact Stroke.stays_nil (h.due_nonneg t)
  · obtain ⟨bindings, pacer, warnings, -, he⟩ := rotate_queues hr read
    rw [he]
    exact Stroke.stays_warn (h.due_nonneg t) warnings

theorem affords_touch {a : Actuator} (hs : a.stopped = false) (read : Readings)
    (ss ls : List Target) :
    Account.Affords ⟨a, ss, ls⟩ (a.tap read).2 ⟨(a.tap read).1, ss, ls⟩ := by
  obtain ⟨bindings, targets, warnings, he⟩ := tap_running hs read
  refine ⟨pays_touch hs read ss ls, fun h => ?_, fun h t => ?_⟩
  · rw [he]
    exact h.same List.suffix_rfl rfl rfl
  · rw [he]
    refine (Stroke.stays_warn (h.due_nonneg t) warnings).append ?_
    rw [Stroke.net_warn, Int.add_zero]
    exact Stroke.stays_press (h.due_nonneg t) targets

theorem affords_perm {a : Actuator} {ss ss' : List Target} (h : ss.Perm ss') (ls : List Target) :
    Account.Affords ⟨a, ss, ls⟩ [] ⟨a, ss', ls⟩ :=
  (pays_perm h ls).affords fun hb => hb.same List.suffix_rfl rfl rfl

theorem affords_bind (a : Actuator) (bindings : Bindings) (ss ls : List Target) :
    Account.Affords ⟨a, ss, ls⟩ [] ⟨{ a with bindings }, ss, ls⟩ :=
  (pays_bind a bindings ss ls).affords fun h => h.same List.suffix_rfl rfl rfl

theorem affords_releaseHeld (a : Actuator) (ss ls : List Target) :
    Account.Affords ⟨a, ss, ls⟩ [.releaseHeld] ⟨a, ss, ls⟩ := by
  refine ⟨pays_releaseHeld a ss ls, id, fun h t p hp => ?_⟩
  have none : Stroke.net t p = 0 := by
    rcases List.prefix_cons_iff.1 hp with rfl | ⟨q, rfl, hq⟩
    · rfl
    · rw [List.prefix_nil.1 hq]
      rfl
  rw [none, Int.add_zero]
  exact h.due_nonneg t

end Actuator

namespace Rig.Usage

/-- What is asked to be done to targets by an event. -/
def strokes (u : Usage) : Event → List Stroke
  | .press read => (u.rig.actuator.press u.now read).2.2
  | .release i => u.sessions[i]?.elim [] fun session => (u.rig.actuator.release session).2
  | .rotate ticks read => (u.rig.actuator.rotate ticks read).2
  | .tap read => (u.rig.actuator.tap read).2
  | .bind _ => []
  | .deactivate => [.releaseHeld]
  | .settle => (u.rig.actuator.settle u.now).2
  | .tick => (u.rig.actuator.tick (u.now + 1)).2

theorem step_effects (u : Usage) (event : Event) :
    (u.step event).2 = (u.rig.held.performAll (u.strokes event)).2 := by
  cases event with
  | release i =>
    rw [step, strokes]
    cases u.sessions[i]? <;> rfl
  | deactivate => exact (List.append_nil _).symm
  | _ => rfl

theorem affords_step {u : Usage} (running : u.rig.actuator.stopped = false) (lost : List Target)
    (event : Event) :
    Actuator.Account.Affords ⟨u.rig.actuator, u.sessions.flatMap Session.targets, lost⟩
      (u.strokes event)
      ⟨(u.step event).1.rig.actuator, (u.step event).1.sessions.flatMap Session.targets,
        lost ++ u.loses event⟩ := by
  by_cases passes : event = .tick
  · subst passes
    exact Actuator.affords_tick running _ lost
  rw [loses_eq_nil passes, List.append_nil]
  cases event with
  | press read => exact Actuator.affords_press running u.now read _ lost
  | release i =>
    rw [step, strokes]
    cases hs : u.sessions[i]? with
    | none => exact .refl _
    | some session =>
      have perm := (Session.perm_eraseIdx hs).flatMap_right Session.targets
      exact (Actuator.affords_perm perm lost).trans
        (Actuator.affords_release u.rig.actuator session _ lost)
  | rotate ticks read => exact Actuator.affords_rotate ticks read u.rig.actuator _ lost
  | tap read => exact Actuator.affords_touch running read _ lost
  | bind bindings => exact Actuator.affords_bind u.rig.actuator bindings _ lost
  | deactivate => exact Actuator.affords_releaseHeld u.rig.actuator _ lost
  | settle => exact Actuator.affords_settle running _ lost
  | tick => exact (passes rfl).elim

theorem step_stopped {u : Usage} (running : u.rig.actuator.stopped = false) (event : Event) :
    (u.step event).1.rig.actuator.stopped = false := by
  cases event with
  | press read => exact (Actuator.press_timer running u.now read).1
  | release i =>
    rw [step]
    cases u.sessions[i]? with
    | none => exact running
    | some session => exact (Actuator.release_timer u.rig.actuator session).1.trans running
  | rotate ticks read => exact (Actuator.rotate_keeps ticks read u.rig.actuator).2.trans running
  | tap read =>
    obtain ⟨bindings, targets, warnings, he⟩ := Actuator.tap_running running read
    exact (congrArg (·.1.stopped) he).trans running
  | bind | deactivate => exact running
  | settle => exact (Actuator.runAll_keeps u.now _ u.rig.actuator.chores).2.trans running
  | tick => exact (Actuator.tick_timer (u.now + 1) u.rig.actuator).1.trans running

end Rig.Usage

end ControlDeck
