import ControlDeck.Proofs.Account
import Mathlib.Tactic.Tauto

namespace ControlDeck

namespace Actuator

theorem start_net (now dwell : Nat) (cs : List Cycle) (t : Target) :
    Stroke.net t (Pacer.start now dwell cs).2.2 =
      (cycleTargets (Pacer.start now dwell cs).1).count t := by
  induction cs with
  | nil => rfl
  | cons c cs ih =>
    rw [Pacer.start]
    split
    · dsimp only
      rw [Stroke.net_append, Stroke.net_append, ih, Cycle.presses, Cycle.releases,
        Stroke.net_press, Stroke.net_release]
      omega
    · simp [Cycle.presses, cycleTargets]

theorem mem_after_start (now dwell : Nat) (cs : List Cycle) (held : Held) {c : Control}
    (h : c ∈ held.after (Pacer.start now dwell cs).2.2) :
    c ∈ held ∨ .control c ∈ cycleTargets (Pacer.start now dwell cs).1 := by
  induction cs generalizing held with
  | nil => exact .inl h
  | cons d cs ih =>
    rw [Pacer.start] at h ⊢
    by_cases hd : dwell = 0
    · rw [if_pos hd] at h ⊢
      rw [Held.after_append, Held.after_append] at h
      apply (ih _ h).imp_left
      intro hc
      rw [Cycle.releases, Held.mem_after_release, Cycle.presses, Held.mem_after_press] at hc
      exact hc.1.resolve_right hc.2
    · rw [if_neg hd] at h ⊢
      exact (Held.mem_after_press _ _ _).1 h

theorem follow_short (now pause : Nat) (aim : Aim) (ps : List (PressPhase Aim)) :
    follow now pause (.short aim :: ps) =
      if pause = 0 then
        ((follow now pause ps).1, (follow now pause ps).2.1,
          aim.short.map .press ++ aim.short.map .release ++ (follow now pause ps).2.2)
      else (some (aim.short, now + pause), ps, aim.short.map .press) := rfl

theorem follow_longStart (now pause : Nat) (aim : Aim) (ps : List (PressPhase Aim)) :
    follow now pause (.longStart aim :: ps) =
      ((follow now pause ps).1, (follow now pause ps).2.1,
        aim.long.map .press ++ (follow now pause ps).2.2) := rfl

theorem follow_longEnd (now pause : Nat) (aim : Aim) (ps : List (PressPhase Aim)) :
    follow now pause (.longEnd aim :: ps) =
      ((follow now pause ps).1, (follow now pause ps).2.1,
        aim.long.map .release ++ (follow now pause ps).2.2) := rfl

theorem follow_net (now pause : Nat) (ps : List (PressPhase Aim)) (t : Target) :
    Stroke.net t (follow now pause ps).2.2 =
      (shortTargets (follow now pause ps).1).count t +
        PressPhase.due t (follow now pause ps).2.1 - PressPhase.due t ps := by
  induction ps with
  | nil => rfl
  | cons p ps ih =>
    rw [PressPhase.due_cons]
    cases p with
    | short aim =>
      rw [follow_short]
      split
      · simp only [Stroke.net_append, Stroke.net_press, Stroke.net_release, ih, PressPhase.ending,
          PressPhase.starting, List.count_nil]
        omega
      · simp [shortTargets, PressPhase.ending, PressPhase.starting]
    | longStart aim =>
      simp only [follow_longStart, Stroke.net_append, Stroke.net_press, ih, PressPhase.ending,
        PressPhase.starting, List.count_nil]
      omega
    | longEnd aim =>
      simp only [follow_longEnd, Stroke.net_append, Stroke.net_release, ih, PressPhase.ending,
        PressPhase.starting, List.count_nil]
      omega

theorem follow_endIn {now pause : Nat} {ps : List (PressPhase Aim)} {rest : List Target}
    (h : PressPhase.EndIn rest ps) : PressPhase.EndIn rest (follow now pause ps).2.1 := by
  induction ps with
  | nil => exact h
  | cons p ps ih =>
    cases p with
    | short aim =>
      rw [follow_short]
      split
      · exact ih h.2
      · exact h.2
    | longStart aim => exact ih h.2
    | longEnd aim => exact ih h.2

/-- What is held once phases are acted on was held for another reason, or is to be released. -/
theorem mem_after_follow {now pause : Nat} {ps : List (PressPhase Aim)} {rest : List Target}
    (h : PressPhase.EndIn rest ps) (others : List Target) (hr : rest ⊆ others) {held : Held}
    (hheld : ∀ c ∈ held, .control c ∈ ps.flatMap PressPhase.ending ∨ .control c ∈ others)
    {c : Control} (hc : c ∈ held.after (follow now pause ps).2.2) :
    .control c ∈ shortTargets (follow now pause ps).1 ∨
      .control c ∈ (follow now pause ps).2.1.flatMap PressPhase.ending ∨ .control c ∈ others := by
  induction ps generalizing held with
  | nil => exact .inr (hheld c hc)
  | cons p ps ih =>
    cases p with
    | short aim =>
      rw [follow_short] at hc ⊢
      by_cases hp : pause = 0
      · rw [if_pos hp] at hc ⊢
        rw [Held.after_append, Held.after_append] at hc
        refine ih h.2 (fun d hd => hheld d ?_) hc
        rw [Held.mem_after_release, Held.mem_after_press] at hd
        exact hd.1.resolve_right hd.2
      · rw [if_neg hp] at hc ⊢
        rcases (Held.mem_after_press _ _ _).1 hc with hc | hc
        · exact .inr (hheld c hc)
        · exact .inl hc
    | longStart aim =>
      rw [follow_longStart, Held.after_append] at hc
      refine ih h.2 ?_ hc
      intro d hd
      rw [Held.mem_after_press] at hd
      rcases hd with hd | hd
      · exact hheld d hd
      · exact (h.1 _ hd).imp_right (@hr _)
    | longEnd aim =>
      rw [follow_longEnd, Held.after_append] at hc
      refine ih h.2 ?_ hc
      intro d hd
      rw [Held.mem_after_release] at hd
      have := hheld d hd.1
      simpa [PressPhase.ending, hd.2] using this

theorem swaps_start (now dwell : Nat) (cs : List Cycle) :
    Swaps [] (Pacer.start now dwell cs).2.2 (cycleTargets (Pacer.start now dwell cs).1) :=
  ⟨fun t => by simp [start_net], fun held _ h =>
    (mem_after_start now dwell cs held h).symm.imp_right (⟨·, List.not_mem_nil⟩)⟩

theorem swaps_pacer_run (now : Nat) (p : Pacer) :
    Swaps (cycleTargets p.current) (p.run now).2 (cycleTargets (p.run now).1.current) := by
  have release :
      Swaps (cycleTargets p.current) (p.current.elim [] fun held => held.1.releases) [] := by
    cases p.current with
    | none => exact .refl []
    | some held => exact .release held.1.targets
  rw [Pacer.run]
  split
  · exact release
  · split
    · exact .refl _
    · exact release.trans (swaps_start now p.dwell p.waiting)

theorem pays_pacing (now : Nat) (a : Actuator) (ss ls : List Target) :
    Account.Pays ⟨a, ss, ls⟩ (a.run now .pacing).2 ⟨(a.run now .pacing).1, ss, ls⟩ := by
  refine (swaps_pacer_run now a.pacer).pays
    (a.timer.held ++ a.phases.flatMap PressPhase.ending ++ shortTargets a.shortPress ++
      a.taps.flatMap (·.1) ++ a.chores.flatMap Chore.owing ++ ss) ?_ ?_ rfl rfl
  · intro t
    simp only [owing, List.count_append]
    omega
  · intro t
    simp only [run, owing, List.count_append]
    omega

theorem pays_tap (now : Nat) (a : Actuator) (targets ss ls : List Target) :
    Account.Pays ⟨a, targets ++ ss, ls⟩ (a.run now (.tap targets)).2
      ⟨(a.run now (.tap targets)).1, ss, ls⟩ := by
  rw [run]
  split
  · refine (Swaps.release targets).pays (a.owing ++ ss) ?_ ?_ rfl rfl
    · intro t
      simp only [List.count_append]
      omega
    · intro t
      simp [List.count_append]
  · refine (Swaps.refl []).pays (a.owing ++ targets ++ ss) ?_ ?_ rfl rfl
    · intro t
      simp [List.count_append]
    · intro t
      simp [owing, List.count_append]
      omega

theorem count_partition (test : List Target × Nat → Bool) (taps : List (List Target × Nat))
    (t : Target) : (taps.flatMap (·.1)).count t =
      ((taps.partition test).1.flatMap (·.1)).count t +
        ((taps.partition test).2.flatMap (·.1)).count t := by
  simp only [List.partition_eq_filter_filter]
  induction taps with
  | nil => rfl
  | cons tap taps ih =>
    rw [List.flatMap_cons, List.count_append, ih]
    by_cases h : test tap
    · simp [h]
      omega
    · simp [h]
      omega

theorem pays_endTaps (now : Nat) (a : Actuator) (ss ls : List Target) :
    Account.Pays ⟨a, ss, ls⟩ (a.endTaps now).2 ⟨(a.endTaps now).1, ss, ls⟩ := by
  have hm : (a.endTaps now).2 =
      ((a.taps.partition fun tap => a.stopped || tap.2 ≤ now).1.flatMap (·.1)).map .release := by
    rw [List.map_flatMap]
    rfl
  have ht : (a.endTaps now).1 =
      { a with taps := (a.taps.partition fun tap => a.stopped || tap.2 ≤ now).2 } := rfl
  rw [hm, ht]
  refine (Swaps.release _).pays
    (a.timer.held ++ a.phases.flatMap PressPhase.ending ++ shortTargets a.shortPress ++
      (a.taps.partition fun tap => a.stopped || tap.2 ≤ now).2.flatMap (·.1) ++
      a.chores.flatMap Chore.owing ++ cycleTargets a.pacer.current ++ ss) ?_ ?_ rfl rfl
  · intro t
    simp only [owing, List.count_append,
      count_partition (fun tap => a.stopped || tap.2 ≤ now) a.taps]
    omega
  · intro t
    simp only [owing, List.count_append, List.count_nil]
    omega

theorem owing_due (t : Target) (a : Actuator) :
    (a.owing.count t : Int) - (a.phases.flatMap PressPhase.starting).count t =
      a.timer.held.count t + PressPhase.due t a.phases + (shortTargets a.shortPress).count t +
        (a.taps.flatMap (·.1)).count t + (a.chores.flatMap Chore.owing).count t +
        (cycleTargets a.pacer.current).count t := by
  simp only [owing, PressPhase.due, List.count_append]
  omega

theorem runPhases_due {now : Nat} {a : Actuator} (hs : a.stopped = false)
    (hd : ¬a.shortPress.any (now < ·.2)) :
    a.runPhases now =
      ({ a with
          phases := (follow now a.pause a.phases).2.1
          shortPress := (follow now a.pause a.phases).1 },
        (a.shortPress.elim [] fun (targets, _) => targets.map .release) ++
          (follow now a.pause a.phases).2.2) := by
  rw [runPhases, if_neg (by simp [hs]), if_neg hd]

/-- The short press that is held is released, and the phases are acted on. -/
theorem pays_phases {now : Nat} {a : Actuator} (h : a.stopped = false) (ss ls : List Target) :
    Account.Pays ⟨a, ss, ls⟩ (a.run now .phases).2 ⟨(a.run now .phases).1, ss, ls⟩ := by
  have release : Swaps (shortTargets a.shortPress)
      (a.shortPress.elim [] fun (targets, _) => targets.map .release) [] := by
    cases a.shortPress with
    | none => exact .refl []
    | some held => exact .release held.1
  by_cases hd : a.shortPress.any (now < ·.2)
  · rw [run, runPhases, if_neg (by simp [h]), if_pos hd]
    exact .refl _
  rw [run, runPhases_due h hd]
  refine ⟨?_, fun held hc => ⟨?_, follow_endIn hc.phases⟩⟩
  · intro t
    have hb := owing_due t a
    have ha := owing_due t { a with
      shortPress := (follow now a.pause a.phases).1, phases := (follow now a.pause a.phases).2.1 }
    rw [Stroke.net_append, release.net, follow_net, Account.due_eq, Account.due_eq]
    simp only [List.count_nil] at hb ha ⊢
    omega
  · intro c hm
    rw [Held.after_append] at hm
    have hr := mem_after_follow hc.phases (a.timer.held ++ a.taps.flatMap (·.1) ++
      a.chores.flatMap Chore.owing ++ cycleTargets a.pacer.current ++ ss ++ ls) ?_ ?_ hm
    · simp only [owing, List.mem_append] at hr ⊢
      tauto
    · intro t ht
      simp only [List.mem_append] at ht ⊢
      tauto
    · intro d hd
      obtain ⟨hd, hn⟩ := (release.held held d hd).resolve_left List.not_mem_nil
      have hd := hc.held d hd
      simp only [owing, List.mem_append] at hd ⊢
      tauto

theorem pays_perm {a : Actuator} {ss ss' : List Target} (h : ss.Perm ss') (ls : List Target) :
    Account.Pays ⟨a, ss, ls⟩ [] ⟨a, ss', ls⟩ := by
  refine .silent ?_ rfl rfl
  intro t
  simp [h.count_eq]

@[simp] theorem run_keeps (now : Nat) (a : Actuator) (chore : Chore) :
    (a.run now chore).1.timer = a.timer ∧ (a.run now chore).1.stopped = a.stopped := by
  cases chore with
  | pacing => exact ⟨rfl, rfl⟩
  | phases =>
    rw [run, runPhases]
    split
    · exact ⟨rfl, rfl⟩
    · split <;> exact ⟨rfl, rfl⟩
  | tap targets =>
    rw [run]
    split <;> exact ⟨rfl, rfl⟩

theorem pays_run {now : Nat} {a : Actuator} (h : a.stopped = false) (chore : Chore)
    (ss ls : List Target) :
    Account.Pays ⟨a, chore.owing ++ ss, ls⟩ (a.run now chore).2 ⟨(a.run now chore).1, ss, ls⟩ := by
  cases chore with
  | pacing => exact pays_pacing now a ss ls
  | phases => exact pays_phases h ss ls
  | tap targets => exact pays_tap now a targets ss ls

@[simp] theorem runAll_keeps (now : Nat) (a : Actuator) (chores : List Chore) :
    (runAll now a chores).1.timer = a.timer ∧ (runAll now a chores).1.stopped = a.stopped := by
  induction chores generalizing a with
  | nil => exact ⟨rfl, rfl⟩
  | cons chore chores ih =>
    obtain ⟨ht, hs⟩ := run_keeps now a chore
    obtain ⟨ht', hs'⟩ := ih (a.run now chore).1
    exact ⟨ht'.trans ht, hs'.trans hs⟩

theorem pays_runAll (now : Nat) {a : Actuator} (h : a.stopped = false) (chores : List Chore)
    (ss ls : List Target) :
    Account.Pays ⟨a, chores.flatMap Chore.owing ++ ss, ls⟩ (runAll now a chores).2
      ⟨(runAll now a chores).1, ss, ls⟩ := by
  induction chores generalizing a with
  | nil => exact .refl _
  | cons chore chores ih =>
    rw [List.flatMap_cons, List.append_assoc]
    exact (pays_run h chore _ ls).trans (ih ((run_keeps now a chore).2.trans h))

theorem pays_begin (a : Actuator) (ss ls : List Target) :
    Account.Pays ⟨a, ss, ls⟩ []
      ⟨{ a with chores := [] }, a.chores.flatMap Chore.owing ++ ss, ls⟩ := by
  refine .silent ?_ rfl rfl
  intro t
  simp [owing]
  omega

theorem pays_arm (now : Nat) (a : Actuator) (ss ls : List Target) :
    Account.Pays ⟨a, ss, ls⟩ [] ⟨{ a with timer := a.timer.arm now }, ss, ls⟩ := by
  refine .silent ?_ (a.timer.arm_held now) rfl
  intro t
  simp [owing]

theorem pays_settle {now : Nat} {a : Actuator} (h : a.stopped = false) (ss ls : List Target) :
    Account.Pays ⟨a, ss, ls⟩ (a.settle now).2 ⟨(a.settle now).1, ss, ls⟩ := by
  let armed := { a with timer := a.timer.arm now }
  have done := pays_runAll now (a := { armed with chores := [] }) h a.chores ss ls
  exact ((pays_arm now a ss ls).trans (pays_begin armed ss ls)).trans done

/-- A press that becomes long owes its release from then on, and what it overtakes is lost. -/
theorem pays_timer (now : Nat) (a : Actuator) (ss ls : List Target) :
    Account.Pays ⟨a, ss, ls⟩ []
      ⟨{ a with
        timer := (a.timer.tick now).1, phases := a.phases ++ (a.timer.tick now).2.toList },
        ss, ls ++ a.timer.overtaken now⟩ := by
  have plain (timer : PressTimer Aim) (ht : timer.longHeld = a.timer.longHeld) :
      Account.Pays ⟨a, ss, ls⟩ [] ⟨{ a with timer, phases := a.phases ++ [] }, ss, ls ++ []⟩ := by
    rw [List.append_nil, List.append_nil]
    have he : timer.held = a.timer.held := congrArg (·.elim [] (·.long)) ht
    refine .silent ?_ he rfl
    intro t
    simp only [owing, he, List.count_append]
  rw [PressTimer.overtaken, PressTimer.tick]
  split
  · cases hp : a.timer.pending with
    | nil => exact plain { a.timer with pending := [], deadline := none } rfl
    | cons aim pending =>
      refine ⟨?_, fun held hc => ⟨?_, hc.phases.append ?_ ?_⟩⟩
      · intro t
        simp only [Account.due_eq, owing, Option.toList_some, List.flatMap_append,
          List.flatMap_cons, List.flatMap_nil, List.append_nil, List.count_append,
          PressPhase.starting, PressPhase.ending, Stroke.net_nil,
          Option.isSome_some, ↓reduceIte, PressTimer.held, Option.elim_some]
        omega
      · intro c hm
        have hm := hc.held c hm
        simp only [owing, Option.toList_some, List.flatMap_append, List.mem_append,
          Option.isSome_some, ↓reduceIte] at hm ⊢
        tauto
      · intro t ht
        simp only [Option.isSome_some, ↓reduceIte, List.mem_append] at ht ⊢
        tauto
      · intro t ht
        simp only [List.mem_append]
        exact .inl ht
  · exact plain a.timer rfl

theorem pays_tick {now : Nat} {a : Actuator} (h : a.stopped = false) (ss ls : List Target) :
    Account.Pays ⟨a, ss, ls⟩ (a.tick now).2
      ⟨(a.tick now).1, ss, ls ++ (a.timer.arm now).overtaken now⟩ := by
  let a₀ := { a with timer := a.timer.arm now }
  let a₁ := { a₀ with
    timer := (a₀.timer.tick now).1, phases := a₀.phases ++ (a₀.timer.tick now).2.toList }
  let a₂ := (a₁.endTaps now).1
  have timed := (pays_arm now a ss ls).trans (pays_timer now a₀ ss ls)
  have ended := timed.trans (pays_endTaps now a₁ ss (ls ++ a₀.timer.overtaken now))
  have begun := ended.trans (pays_begin a₂ ss _)
  have done := pays_runAll now (a := { a₂ with chores := [] }) h
    (a₂.chores ++ [.phases, .pacing]) ss (ls ++ a₀.timer.overtaken now)
  have hz : (a₂.chores ++ [Chore.phases, .pacing]).flatMap Chore.owing =
      a₂.chores.flatMap Chore.owing := by
    simp [Chore.owing]
  rw [hz] at done
  have all := begun.trans done
  rw [List.append_nil, List.nil_append] at all
  exact all

theorem press_running {a : Actuator} (h : a.stopped = false) (now : Nat) (read : Readings) :
    a.press now read =
      if (Item.active read a.bindings.press).1.any (·.long) then
        ({ a with
          bindings := { a.bindings with press := (Item.active read a.bindings.press).1 }
          timer := a.timer.down now (Item.aim (Item.active read a.bindings.press).2.1) },
          .timed, (Item.active read a.bindings.press).2.2.map .warn)
      else
        ({ a with bindings := { a.bindings with press := (Item.active read a.bindings.press).1 } },
          .direct (Item.aim (Item.active read a.bindings.press).2.1).short,
          (Item.active read a.bindings.press).2.2.map .warn ++
            (Item.aim (Item.active read a.bindings.press).2.1).short.map .press) := by
  rw [press, if_neg (by simp [h])]

theorem pays_press {a : Actuator} (h : a.stopped = false) (now : Nat) (read : Readings)
    (ss ls : List Target) :
    Account.Pays ⟨a, ss, ls⟩ (a.press now read).2.2
      ⟨(a.press now read).1, (a.press now read).2.1.targets ++ ss, ls⟩ := by
  rw [press_running h]
  split
  · rw [← List.append_nil (List.map _ _)]
    refine .warn _ (.silent ?_ rfl rfl)
    intro t
    simp [owing, Session.targets, PressTimer.held, PressTimer.down]
  · refine .warn _ ((Swaps.press _).pays (a.owing ++ ss) ?_ ?_ rfl rfl)
    · intro t
      simp
    · intro t
      simp only [owing, Session.targets, List.count_append]
      omega

theorem pays_enlist {a : Actuator} (chore : Chore) (h : chore.owing = []) (ss ls : List Target) :
    Account.Pays ⟨a, ss, ls⟩ [] ⟨enlist chore a, ss, ls⟩ := by
  rw [enlist]
  split
  · exact .refl _
  · refine .silent ?_ rfl rfl
    intro t
    simp only [owing, List.flatMap_append, List.flatMap_singleton, h, List.append_nil]

@[simp] theorem enlist_keeps (chore : Chore) (a : Actuator) :
    (enlist chore a).timer = a.timer ∧ (enlist chore a).stopped = a.stopped := by
  rw [enlist]
  split <;> exact ⟨rfl, rfl⟩

/-- The end of a short press owes nothing, and that of a long one what the press has owed. -/
theorem pays_up (a : Actuator) (ss ls : List Target) :
    Account.Pays ⟨a, ss, ls⟩ []
      ⟨{ a with timer := a.timer.up.1, phases := a.phases ++ a.timer.up.2.toList }, ss, ls⟩ := by
  cases hp : a.timer.pending with
  | cons aim pending =>
    simp only [PressTimer.up, hp, Option.toList_some]
    refine ⟨?_, fun held hc => ⟨?_, hc.phases.append ?_ ?_⟩⟩
    · intro t
      simp [Account.due_eq, owing, PressPhase.starting, PressPhase.ending, PressTimer.held]
    · intro c hm
      have hm := hc.held c hm
      simp only [owing, List.flatMap_append, List.mem_append, PressTimer.held] at hm ⊢
      tauto
    · exact fun t ht => .inr ht
    · exact List.nil_subset _
  | nil =>
    cases hl : a.timer.longHeld with
    | none =>
      simp only [PressTimer.up, hp, hl, Option.map_none, Option.toList_none, List.append_nil]
      have he : ({ a.timer with pending := [], longHeld := none, deadline := none } :
          PressTimer Aim).held = a.timer.held := by
        rw [PressTimer.held, PressTimer.held, hl]
      refine .silent ?_ he rfl
      intro t
      simp only [owing, he, List.count_append]
    | some aim =>
      simp only [PressTimer.up, hp, hl, Option.map_some, Option.toList_some]
      have ht : a.timer.held = aim.long := by
        rw [PressTimer.held, hl]
        rfl
      refine ⟨?_, fun held hc => ⟨?_, hc.phases.append ?_ ?_⟩⟩
      · intro t
        have hc : (a.timer.longHeld.elim [] (·.long)).count t = aim.long.count t := by
          rw [hl]
          rfl
        simp [Account.due_eq, owing, PressPhase.starting, PressPhase.ending, PressTimer.held]
        omega
      · intro c hm
        have hm := hc.held c hm
        simp only [owing, ht, List.flatMap_append, List.flatMap_cons, List.flatMap_nil,
          List.append_nil, PressPhase.ending, List.mem_append] at hm ⊢
        tauto
      · intro t hm
        simp only [ht, List.mem_append] at hm ⊢
        exact hm.imp_right .inr
      · exact List.nil_subset _

theorem pays_release (a : Actuator) (session : Session) (ss ls : List Target) :
    Account.Pays ⟨a, session.targets ++ ss, ls⟩ (a.release session).2
      ⟨(a.release session).1, ss, ls⟩ := by
  cases session with
  | direct targets =>
    refine (Swaps.release targets).pays (a.owing ++ ss) ?_ ?_ rfl rfl
    · intro t
      simp [Session.targets]
      omega
    · intro t
      simp [release]
  | timed =>
    have up := pays_up a ss ls
    rw [release]
    split
    · rename_i timer phase hu
      rw [hu] at up
      exact up.trans (pays_enlist .phases rfl ss ls)
    · rename_i timer hu
      rw [hu] at up
      simp only [Option.toList_none, List.append_nil] at up
      exact .warn [.strayRelease] up

theorem enqueue_current (p : Pacer) (c : Cycle) (count : Nat) :
    (p.enqueue c count).current = p.current := by
  rw [Pacer.enqueue]
  split <;> rfl

theorem foldl_enqueue_current (items : List Item) (count : Nat) (p : Pacer) :
    (items.foldl (fun p item => p.enqueue (.ofTarget item.target) count) p).current =
      p.current := by
  induction items generalizing p with
  | nil => rfl
  | cons item items ih => rw [List.foldl_cons, ih, enqueue_current]

/-- Rotation does not press anything: it only queues cycles. -/
theorem rotate_queues {ticks : Int} {a : Actuator} (h : ¬(a.stopped ∨ ticks = 0))
    (read : Readings) :
    ∃ (bindings : Bindings) (pacer : Pacer) (warnings : List Warning),
      pacer.current = a.pacer.current ∧ a.rotate ticks read =
        (enlist .pacing { a with bindings, pacer }, warnings.map .warn) :=
  ⟨_, _, _, foldl_enqueue_current _ _ _, by rw [rotate, if_neg h]⟩

theorem pays_rotate (ticks : Int) (read : Readings) (a : Actuator) (ss ls : List Target) :
    Account.Pays ⟨a, ss, ls⟩ (a.rotate ticks read).2 ⟨(a.rotate ticks read).1, ss, ls⟩ := by
  by_cases h : a.stopped ∨ ticks = 0
  · rw [rotate, if_pos h]
    exact .refl _
  obtain ⟨bindings, pacer, warnings, hp, he⟩ := rotate_queues h read
  have queued : Account.Pays ⟨a, ss, ls⟩ [] ⟨{ a with bindings, pacer }, ss, ls⟩ := by
    refine .silent ?_ rfl rfl
    intro t
    simp only [owing, hp, List.count_append]
  have all := (queued.trans (pays_enlist .pacing rfl ss ls)).warn warnings
  rw [List.append_nil, List.append_nil] at all
  rw [he]
  exact all

theorem rotate_keeps (ticks : Int) (read : Readings) (a : Actuator) :
    (a.rotate ticks read).1.timer = a.timer ∧ (a.rotate ticks read).1.stopped = a.stopped := by
  by_cases h : a.stopped ∨ ticks = 0
  · rw [rotate, if_pos h]
    exact ⟨rfl, rfl⟩
  · obtain ⟨bindings, pacer, warnings, hp, he⟩ := rotate_queues h read
    rw [he]
    exact enlist_keeps _ _

theorem tap_running {a : Actuator} (h : a.stopped = false) (read : Readings) :
    ∃ (bindings : Bindings) (targets : List Target) (warnings : List Warning),
      a.tap read = ({ a with
        bindings, chores := if targets.isEmpty then a.chores else a.chores ++ [.tap targets] },
        warnings.map .warn ++ targets.map .press) :=
  ⟨_, _, _, by rw [tap, if_neg (by simp [h])]⟩

theorem pays_touch {a : Actuator} (h : a.stopped = false) (read : Readings) (ss ls : List Target) :
    Account.Pays ⟨a, ss, ls⟩ (a.tap read).2 ⟨(a.tap read).1, ss, ls⟩ := by
  obtain ⟨bindings, targets, warnings, he⟩ := tap_running h read
  rw [he]
  refine .warn warnings ((Swaps.press targets).pays (a.owing ++ ss) ?_ ?_ rfl rfl)
  · intro t
    simp
  · intro t
    have hc : ((if targets.isEmpty then a.chores else a.chores ++ [Chore.tap targets]).flatMap
        Chore.owing).count t = (a.chores.flatMap Chore.owing).count t + targets.count t := by
      cases targets <;> simp [Chore.owing]
    simp only [owing, hc, List.count_append]
    omega

end Actuator

end ControlDeck
