import ControlDeck.Actuator
import Mathlib.Data.List.Induction
import Mathlib.Data.List.Nodup
import Mathlib.Data.List.Perm.Basic

namespace ControlDeck

/-- The commands that concern a control. -/
def Command.about (c : Control) (sent : List Command) : List Command :=
  sent.filter (·.control = c)

/-- Commands about one control that leave it down, or up: each release follows a press at once. -/
structure Command.Leave (c : Control) (down : Prop) (sent : List Command) : Prop where
  last : down ↔ sent.getLast? = some (.press c)
  follows : ∀ before after, sent = before ++ .release c :: after →
    before.getLast? = some (.press c)

namespace Command

variable {c d : Control} {down : Prop} {sent more : List Command}

@[simp] theorem about_nil : about c [] = [] := rfl

@[simp] theorem about_append : about c (sent ++ more) = about c sent ++ about c more :=
  List.filter_append ..

theorem about_press : about c [.press d] = if d = c then [.press c] else [] := by
  by_cases h : d = c <;> simp [about, control, h]

theorem about_release : about c [.release d] = if d = c then [.release c] else [] := by
  by_cases h : d = c <;> simp [about, control, h]

theorem Leave.nil : Leave c False [] where
  last := by simp
  follows := by simp

/-- A command among some others and a last one is the last one, or is among the others. -/
theorem split_last {r last : Command} {before after : List Command}
    (split : sent ++ [last] = before ++ r :: after) :
    (before = sent ∧ r = last) ∨ ∃ rest, sent = before ++ r :: rest := by
  rcases List.eq_nil_or_concat after with rfl | ⟨rest, tail, rfl⟩
  · obtain ⟨same, one⟩ := List.append_inj' split rfl
    exact .inl ⟨same.symm, (List.cons.inj one).1.symm⟩
  · have regrouped : sent ++ [last] = (before ++ r :: rest) ++ [tail] := by simpa using split
    exact .inr ⟨rest, (List.append_inj' regrouped rfl).1⟩

theorem Leave.press (h : Leave c down sent) : Leave c True (sent ++ [.press c]) where
  last := by simp
  follows := by
    intro before after split
    rcases split_last split with ⟨-, same⟩ | ⟨rest, earlier⟩
    · cases same
    · exact h.follows before rest earlier

theorem Leave.release (h : Leave c down sent) (hd : down) :
    Leave c False (sent ++ [.release c]) where
  last := by simp
  follows := by
    intro before after split
    rcases split_last split with ⟨rfl, -⟩ | ⟨rest, earlier⟩
    · exact h.last.1 hd
    · exact h.follows before rest earlier

end Command

namespace Held

open Command

/-- What is asked about controls. -/
inductive Call where
  | press (c : Control)
  | release (c : Control)
  | deactivate

/-- What a call leaves held, and the commands that it sends. In which order all that is held is
released is left open. -/
inductive Does (held : Held) : Call → Held → List Command → Prop where
  | press (c : Control) : Does held (.press c) (held.press c).1 (held.press c).2
  | release (c : Control) : Does held (.release c) (held.release c).1 (held.release c).2
  | deactivate {sent : List Command} (order : sent.Perm held.deactivate.2) :
      Does held .deactivate held.deactivate.1 sent

/-- What is held after some calls, and all the commands that they have sent. -/
inductive Trace : List Call → Held → List Command → Prop where
  | start : Trace [] [] []
  | call {calls : List Call} {held held' : Held} {sent more : List Command} {call : Call}
      (before : Trace calls held sent) (now : Does held call held' more) :
      Trace (calls ++ [call]) held' (sent ++ more)

/-- What is held is what the commands sent so far leave down. -/
structure Follows (held : Held) (sent : List Command) : Prop where
  nodup : held.Nodup
  leave : ∀ c, Leave c (c ∈ held) (about c sent)

variable {held held' : Held} {sent more : List Command} {calls : List Call}

theorem about_released (nodup : held.Nodup) (order : more.Perm (held.map .release)) (c : Control) :
    about c more = if c ∈ held then [.release c] else [] := by
  have same : (about c more).Perm (about c (held.map .release)) := order.filter _
  have copies : about c (held.map .release) = (held.filter (· = c)).map .release := by
    simp only [about, List.filter_map]
    rfl
  rw [copies, List.filter_eq, nodup.count] at same
  by_cases down : c ∈ held
  · rw [if_pos down] at same ⊢
    exact List.perm_singleton.1 same
  · rw [if_neg down] at same ⊢
    exact List.perm_nil.1 same

theorem mem_press {c d : Control} : d ∈ (held.press c).1 ↔ c = d ∨ d ∈ held := by
  simp only [Held.press]
  split
  · rename_i down
    exact ⟨.inr, fun h => h.elim (fun same => same ▸ down) id⟩
  · simp [or_comm, eq_comm]

theorem Follows.press (h : Follows held sent) (c : Control) :
    Follows (held.press c).1 (sent ++ (held.press c).2) where
  nodup := by
    simp only [Held.press]
    split
    · exact h.nodup
    · rename_i absent
      exact List.concat_eq_append ▸ h.nodup.concat absent
  leave := by
    intro d
    rw [about_append, mem_press, Held.press, about_press]
    by_cases same : c = d
    · subst d
      simpa using (h.leave c).press
    · simpa [same] using h.leave d

theorem Follows.release (h : Follows held sent) (c : Control) :
    Follows (held.release c).1 (sent ++ (held.release c).2) := by
  by_cases down : c ∈ held
  · simp only [Held.release, down, if_true]
    refine ⟨h.nodup.filter _, ?_⟩
    intro d
    rw [about_append, about_release]
    by_cases same : c = d
    · subst d
      simpa using (h.leave c).release down
    · simpa [same, Ne.symm same] using h.leave d
  · simpa [Held.release, down] using h

theorem Follows.deactivate (h : Follows held sent) (order : more.Perm held.deactivate.2) :
    Follows held.deactivate.1 (sent ++ more) where
  nodup := List.nodup_nil
  leave := by
    intro d
    rw [about_append, about_released h.nodup order]
    by_cases down : d ∈ held
    · simpa [Held.deactivate, down] using (h.leave d).release down
    · simpa [Held.deactivate, down] using h.leave d

theorem Follows.call {call : Call} (h : Follows held sent) (does : Does held call held' more) :
    Follows held' (sent ++ more) := by
  cases does with
  | press c => exact h.press c
  | release c => exact h.release c
  | deactivate order => exact h.deactivate order

theorem Trace.follows (t : Trace calls held sent) : Follows held sent := by
  induction t with
  | start => exact ⟨List.nodup_nil, fun c => by simpa using Leave.nil⟩
  | call before now ih => exact ih.call now

/-- A call never sends the release of what is not held. -/
theorem Does.held_of_release {call : Call} {c : Control} (does : Does held call held' more)
    (sends : .release c ∈ more) : c ∈ held := by
  cases does with
  | press d => simp [Held.press] at sends
  | release d =>
    simp only [Held.release] at sends
    split at sends
    · rename_i down
      simp only [List.mem_singleton, Command.release.injEq] at sends
      rwa [sends]
    · simp at sends
  | deactivate order =>
    have listed := order.mem_iff.1 sends
    simpa [Held.deactivate] using listed

/-- Whatever the calls, there is a trace of them. -/
theorem exists_trace (calls : List Call) : ∃ held sent, Trace calls held sent := by
  induction calls using List.reverseRecOn with
  | nil => exact ⟨[], [], .start⟩
  | append_singleton calls call ih =>
    obtain ⟨held, sent, t⟩ := ih
    cases call with
    | press c => exact ⟨_, _, t.call (.press c)⟩
    | release c => exact ⟨_, _, t.call (.release c)⟩
    | deactivate => exact ⟨_, _, t.call (.deactivate (List.Perm.refl _))⟩

/-- A control is held just if the last command about it is a press; each release of it follows a
press of it at once and is sent only while it is held; and `deactivate` sends one release for each
held control and nothing else, counts them and leaves none. -/
theorem trace_follows (t : Trace calls held sent) :
    (∀ c, c ∈ held ↔ (about c sent).getLast? = some (.press c)) ∧
    (∀ c before after, about c sent = before ++ .release c :: after →
      before.getLast? = some (.press c)) ∧
    (∀ call held' more, Does held call held' more → ∀ c, .release c ∈ more → c ∈ held) ∧
    ∀ held' more, Does held .deactivate held' more →
      held' = [] ∧ (∀ c, more.count (.release c) = if c ∈ held then 1 else 0) ∧
      (∀ r ∈ more, ∃ c ∈ held, r = .release c) ∧
      held.Nodup ∧ more.length = held.length ∧
      ∀ rig : Rig, rig.held = held →
        rig.deactivate.1.held = [] ∧ rig.deactivate.2.1 = more.length := by
  have follows := t.follows
  refine ⟨fun c => (follows.leave c).last, fun c => (follows.leave c).follows,
    fun _ _ _ does _ => does.held_of_release, ?_⟩
  rintro held' more (_ | _ | order)
  have size : more.length = held.length := by
    rw [order.length_eq, Held.deactivate, List.length_map]
  refine ⟨rfl, ?_, ?_, follows.nodup, size, ?_⟩
  · intro c
    have apart : more.count (.release c) = (about c more).count (.release c) := by
      rw [about, List.count_filter]
      simp [Command.control]
    rw [apart, about_released follows.nodup order]
    split <;> simp
  · intro r sends
    have listed := order.mem_iff.1 sends
    obtain ⟨c, down, same⟩ := List.mem_map.1 listed
    exact ⟨c, down, same.symm⟩
  · rintro rig rfl
    exact ⟨rfl, size.symm⟩

/-- A trigger and a role of one name, of which the trigger is pressed twice. -/
theorem trace_follows_oneName :
    Trace [.press (.trigger "horn"), .press (.role ⟨"deck", "horn"⟩), .release (.trigger "flash"),
        .press (.trigger "horn")]
      [.trigger "horn", .role ⟨"deck", "horn"⟩]
      [.press (.trigger "horn"), .press (.role ⟨"deck", "horn"⟩), .press (.trigger "horn")] ∧
    Does [.trigger "horn", .role ⟨"deck", "horn"⟩] .deactivate []
      [.release (.role ⟨"deck", "horn"⟩), .release (.trigger "horn")] ∧
    (about (.trigger "horn") [.press (.trigger "horn"), .press (.role ⟨"deck", "horn"⟩),
      .press (.trigger "horn")]).getLast? = some (.press (.trigger "horn")) ∧
    [Command.release (.role ⟨"deck", "horn"⟩), .release (.trigger "horn")].count
      (.release (.trigger "horn")) = 1 := by
  have trace : Trace [.press (.trigger "horn"), .press (.role ⟨"deck", "horn"⟩),
        .release (.trigger "flash"), .press (.trigger "horn")]
      [.trigger "horn", .role ⟨"deck", "horn"⟩]
      [.press (.trigger "horn"), .press (.role ⟨"deck", "horn"⟩), .press (.trigger "horn")] :=
    (((Trace.start.call (.press _)).call (.press _)).call (.release _)).call (.press _)
  have forced : Does [.trigger "horn", .role ⟨"deck", "horn"⟩] .deactivate []
      [.release (.role ⟨"deck", "horn"⟩), .release (.trigger "horn")] :=
    .deactivate (List.Perm.swap ..)
  obtain ⟨held, -, -, deactivates⟩ := trace_follows trace
  obtain ⟨-, once, -⟩ := deactivates _ _ forced
  refine ⟨trace, forced, (held (.trigger "horn")).1 (by simp), ?_⟩
  rw [once, if_pos (by simp)]

end Held

end ControlDeck
