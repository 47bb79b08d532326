import ControlDeck.Proofs.Runs

namespace ControlDeck

/-- The actions and the registry know the same of what each action follows. -/
structure Coherent (actions : List Action) (s : Subscriptions) : Prop where
  sound : s.Sound
  distinct : (actions.map (·.receiver)).Nodup
  made : ∀ a ∈ actions, a.receiver ≤ s.created
  closed : ∀ r ∈ s.closed, r ≤ s.created
  known : ∀ key r, s.Follows key r → ∃ a ∈ actions, a.receiver = r
  follows : ∀ a ∈ actions, ∀ key, s.Follows key a.receiver ↔ key ∈ a.watched
  /-- Actions that have not been shut down follow what they read. -/
  synced : ∀ a ∈ actions, a.receiver ∉ s.closed → a.Synced
  exact : ∀ a ∈ actions, a.Exact

theorem Link.Step.keeps (step : Link.Step) {l : Link} (h : l.subscriptions.Sound) :
    (step.apply l).1.subscriptions.Sound ∧
      (step.apply l).1.subscriptions.created = l.subscriptions.created ∧
      (step.apply l).1.subscriptions.closed = l.subscriptions.closed ∧
      ∀ key r, (step.apply l).1.subscriptions.Follows key r ↔ l.subscriptions.Follows key r := by
  rcases step.registry l with same | ⟨line, ds, hp, -⟩
  · refine ⟨h.of_entries same.entries, same.created, same.closed, ?_⟩
    intro key r
    rw [Subscriptions.Follows, Subscriptions.Follows, same.entries]
  · have follows (key : String) (r : Nat) := Subscriptions.follows_publish hp key r
    have sound := h.publish hp
    obtain ⟨-, -, published, -⟩ := Subscriptions.publish_eq_some.1 hp
    refine ⟨sound, ?_, ?_, follows⟩ <;> rw [published] <;> rfl

namespace Coherent

open Deck

theorem empty : Coherent [] {} where
  sound := Subscriptions.sound_empty
  distinct := List.nodup_nil
  made _ h := (List.not_mem_nil h).elim
  closed _ h := (List.not_mem_nil h).elim
  known _ _ h := (List.not_mem_nil h.choose_spec.1).elim
  follows _ h := (List.not_mem_nil h).elim
  synced _ h := (List.not_mem_nil h).elim
  exact _ h := (List.not_mem_nil h).elim

variable {pre post : List Action} {a : Action} {link : Link}

theorem ready (h : Coherent (pre ++ a :: post) link.subscriptions) :
    Turn.Ready { action := a, link } :=
  ⟨h.sound, h.follows a (by simp)⟩

theorem receiver_ne {s : Subscriptions} (h : Coherent (pre ++ a :: post) s) {b : Action}
    (hb : b ∈ pre ++ post) : b.receiver ≠ a.receiver :=
  apart_of_nodup h.distinct hb

/-- Whatever an action does in its turn, all stay coherent. -/
theorem turn (h : Coherent (pre ++ a :: post) link.subscriptions) {t : Turn}
    (ht : Turn.Leads { action := a, link } t) :
    Coherent (pre ++ t.action :: post) t.link.subscriptions where
  sound := ht.sound
  distinct := by
    rw [map_replace ht.receiver]
    exact h.distinct
  made b hb := by
    rw [ht.created]
    rcases mem_replace.1 hb with rfl | hb
    · rw [ht.receiver]
      exact h.made a (by simp)
    · exact h.made b (mem_replace.2 (.inr hb))
  closed r hr := by
    rw [ht.created]
    rcases ht.closed r hr with hr | rfl
    · exact h.closed r hr
    · exact h.made a (by simp)
  known key r hr := by
    rw [ht.follows] at hr
    split at hr
    · rename_i own
      exact ⟨t.action, by simp, ht.receiver.trans own.symm⟩
    · rename_i other
      obtain ⟨b, hb, rfl⟩ := h.known key r hr
      rcases mem_replace.1 hb with rfl | hb
      · exact (other rfl).elim
      · exact ⟨b, mem_replace.2 (.inr hb), rfl⟩
  follows b hb key := by
    rw [ht.follows]
    rcases mem_replace.1 hb with rfl | hb
    · rw [if_pos ht.receiver]
    · rw [if_neg (h.receiver_ne hb)]
      exact h.follows b (mem_replace.2 (.inr hb)) key
  synced b hb live := by
    rcases mem_replace.1 hb with rfl | hb
    · rw [ht.receiver] at live
      exact ht.synced live (h.synced a (by simp) fun dead => live (ht.kept _ dead))
    · exact h.synced b (mem_replace.2 (.inr hb)) fun dead => live (ht.kept _ dead)
  exact b hb := by
    rcases mem_replace.1 hb with rfl | hb
    · exact ht.exact (h.exact a (by simp))
    · exact h.exact b (mem_replace.2 (.inr hb))

variable {actions : List Action} {s s' : Subscriptions}

theorem of_follows (h : Coherent actions s) (sound : s'.Sound) (created : s'.created = s.created)
    (closed : s'.closed = s.closed) (follows : ∀ key r, s'.Follows key r ↔ s.Follows key r) :
    Coherent actions s' where
  sound := sound
  distinct := h.distinct
  made := created ▸ h.made
  closed := by
    rw [closed, created]
    exact h.closed
  known := by simpa only [follows] using h.known
  follows := by simpa only [follows] using h.follows
  synced := closed ▸ h.synced
  exact := h.exact

theorem step {l : Link} (h : Coherent actions l.subscriptions) (step : Link.Step) :
    Coherent actions (step.apply l).1.subscriptions := by
  obtain ⟨sound, created, closed, follows⟩ := step.keeps h.sound
  exact h.of_follows sound created closed follows

end Coherent

namespace Turn

/-- An action that has been given a receiver, and reads nothing. -/
def blank (config : ActionConfig) (timing : Timing) (link : Link) : Turn where
  action :=
    { context := config.context, labels := config.labels
      receiver := link.subscriptions.created + 1, state := {}, title := {}
      rig := { actuator := .ofTiming timing {} } }
  link := { link with subscriptions := link.subscriptions.newReceiver.1 }

/-- An action that is about to follow what it reads. -/
def begin (config : ActionConfig) (timing : Timing) (link : Link) : Turn :=
  let t := blank config timing link
  let state := Slot.ofText (some config.labels) config.state
  let title := Slot.ofText (some config.labels) config.title
  let bindings := Bindings.buildSound config.context config.labels config.bindings
  Turn.warn (state.2 ++ title.2 ++ bindings.2)
    { t with action := { t.action with
      state := state.1, title := title.1, rig := { actuator := .ofTiming timing bindings.1 } } }

theorem start_eq (config : ActionConfig) (timing : Timing) (link : Link) :
    start config timing link = (begin config timing link).sync.refresh := rfl

end Turn

namespace Coherent

open Deck

variable {actions : List Action} {link : Link}

theorem blank (h : Coherent actions link.subscriptions) (config : ActionConfig) (timing : Timing) :
    Coherent (actions ++ [(Turn.blank config timing link).action])
      (Turn.blank config timing link).link.subscriptions where
  sound := h.sound.of_entries rfl
  distinct := nodup_concat h.distinct fun b hb => Nat.ne_of_lt (Nat.lt_succ_of_le (h.made b hb))
  made a ha := by
    rcases List.mem_append.1 ha with ha | ha
    · exact Nat.le_succ_of_le (h.made a ha)
    · rw [List.mem_singleton.1 ha]
      exact Nat.le_refl _
  closed r hr := Nat.le_succ_of_le (h.closed r hr)
  known key r hr := by
    obtain ⟨a, ha, hr⟩ := h.known key r hr
    exact ⟨a, List.mem_append_left _ ha, hr⟩
  follows a ha key := by
    rcases List.mem_append.1 ha with ha | ha
    · exact h.follows a ha key
    · rw [List.mem_singleton.1 ha]
      refine ⟨?_, fun hm => (List.not_mem_nil hm).elim⟩
      intro hf
      obtain ⟨b, hb, hr⟩ := h.known key _ hf
      exact (Nat.not_succ_le_self _ (hr ▸ h.made b hb)).elim
  synced a ha := by
    rcases List.mem_append.1 ha with ha | ha
    · exact h.synced a ha
    · rw [List.mem_singleton.1 ha]
      refine fun _ key => ⟨fun hm => (List.not_mem_nil hm).elim, ?_⟩
      rintro ⟨name, ⟨item, hi, -⟩ | hs | ht, -⟩
      · exact (List.not_mem_nil hi).elim
      · exact (List.not_mem_nil hs).elim
      · exact (List.not_mem_nil ht).elim
  exact a ha := by
    rcases List.mem_append.1 ha with ha | ha
    · exact h.exact a ha
    · rw [List.mem_singleton.1 ha]
      exact ⟨Compiled.exact_empty, Compiled.exact_empty⟩

theorem start_leads (h : Coherent actions link.subscriptions) (config : ActionConfig)
    (timing : Timing) :
    Turn.Leads (Turn.blank config timing link) (Turn.start config timing link) := by
  have ready : (Turn.blank config timing link).Ready := (h.blank config timing).ready
  rw [Turn.start_eq]
  exact Turn.Leads.refresh (ready.leads_sync rfl rfl rfl rfl fun _ =>
    ⟨Slot.ofText_exact _ _, Slot.ofText_exact _ _⟩)

theorem start (h : Coherent actions link.subscriptions) (config : ActionConfig) (timing : Timing) :
    Coherent (actions ++ [(Turn.start config timing link).action])
      (Turn.start config timing link).link.subscriptions :=
  (h.blank config timing).turn (h.start_leads config timing)

end Coherent

namespace Deck

/-- The action has not been shut down. -/
def IsLive (d : Deck) (a : Action) : Prop :=
  a.receiver ∉ d.link.subscriptions.closed

instance (d : Deck) (a : Action) : Decidable (d.IsLive a) :=
  inferInstanceAs (Decidable (a.receiver ∉ d.link.subscriptions.closed))

/-- What the actions and the registry of a deck know is coherent. -/
def IsCoherent (d : Deck) : Prop :=
  Coherent d.actions d.link.subscriptions

theorem IsCoherent.turnWhere {d : Deck} (h : d.IsCoherent) (test : Action → Bool) (deed : Deed) :
    (d.turnWhere test deed.act).1.IsCoherent :=
  turnWhere_induction test deed.act
    (P := fun actions link _ => Coherent actions link.subscriptions)
    (fun _ _ _ _ _ _ _ h => h.turn (deed.leads h.ready)) [] h

theorem IsCoherent.step {d : Deck} (h : d.IsCoherent) (s : Step) : (s.apply d).1.IsCoherent := by
  cases s with
  | turn test deed => exact h.turnWhere test deed
  | link s =>
    rw [IsCoherent, Step.apply, use, note_actions, note_link]
    exact Coherent.step h s
  | forward i =>
    rw [Step.apply]
    split <;> exact h
  | heed i =>
    rw [Step.apply]
    split
    · rename_i context _
      exact IsCoherent.turnWhere (d := { d with notices := d.notices.eraseIdx i }) h
        (fun a => decide (a.context = context)) .refresh
    · exact h
  | heedLink =>
    rw [Step.apply, heedLink]
    cases d.linkChange with
    | none => exact h
    | some usable =>
      cases usable with
      | true =>
        exact IsCoherent.turnWhere (d := { d with linkChange := none }) h (fun _ => true) .refresh
      | false =>
        exact IsCoherent.turnWhere (d := { d with linkChange := none }) h (fun _ => true) .standDown

theorem IsCoherent.event {d : Deck} (h : d.IsCoherent) (event : Event) :
    (event.apply d).1.IsCoherent := by
  cases event with
  | start config timing =>
    rw [IsCoherent, Event.apply, start_actions, start_link]
    exact Coherent.start h config timing
  | step s => exact h.step s

end Deck

end ControlDeck
