import ControlDeck.Proofs.Coherence

namespace ControlDeck

/-- Actions that have been shut down follow nothing. -/
def Ended (actions : List Action) (s : Subscriptions) : Prop :=
  ∀ a ∈ actions, a.receiver ∈ s.closed → a.watched = []

namespace Ended

variable {pre post : List Action} {a : Action} {link : Link}

theorem turn (h : Ended (pre ++ a :: post) link.subscriptions)
    (coherent : Coherent (pre ++ a :: post) link.subscriptions) {deed : Deed}
    (live : deed.sets → a.receiver ∉ link.subscriptions.closed) :
    Ended (pre ++ (deed.act { action := a, link }).action :: post)
      (deed.act { action := a, link }).link.subscriptions := by
  have leads := deed.leads coherent.ready
  intro b hb dead
  rcases Deck.mem_replace.1 hb with rfl | hb
  · rw [leads.receiver] at dead
    cases sets : deed.sets with
    | true =>
      rw [Deed.closed_of_sets sets] at dead
      exact (live sets dead).elim
    | false =>
      rcases Deed.watched_of_not_sets sets { action := a, link } with none | ⟨watched, closed⟩
      · exact none
      · rw [closed] at dead
        rw [watched]
        exact h a (by simp) dead
  · rcases leads.closed _ dead with dead | own
    · exact h b (Deck.mem_replace.2 (.inr hb)) dead
    · exact (coherent.receiver_ne hb own).elim

theorem start {actions : List Action} (h : Ended actions link.subscriptions)
    (coherent : Coherent actions link.subscriptions) (config : ActionConfig) (timing : Timing) :
    Ended (actions ++ [(Turn.start config timing link).action])
      (Turn.start config timing link).link.subscriptions := by
  have closed : (Turn.start config timing link).link.subscriptions.closed =
      link.subscriptions.closed := by
    rw [Turn.start_eq, Turn.refresh_link]
    exact (Turn.begin config timing link).sync_receivers.2
  intro b hb dead
  rw [closed] at dead
  rcases List.mem_append.1 hb with hb | hb
  · exact h b hb dead
  · rw [List.mem_singleton.1 hb, (coherent.start_leads config timing).receiver] at dead
    exact (Nat.not_succ_le_self _ (coherent.closed _ dead)).elim

end Ended

namespace Deck

/-- No expression of an action that has been shut down is changed. -/
def Admits (d : Deck) : Event → Prop
  | .step (.turn test deed) => deed.sets → ∀ a ∈ d.actions, test a → d.IsLive a
  | _ => True

def AdmitsAll : List Event → Deck → Prop
  | [], _ => True
  | event :: events, d => d.Admits event ∧ AdmitsAll events (event.apply d).1

structure IsSettled (d : Deck) : Prop where
  coherent : d.IsCoherent
  ended : Ended d.actions d.link.subscriptions

theorem IsSettled.turnWhere {d : Deck} (h : d.IsSettled) {test : Action → Bool} {deed : Deed}
    (live : deed.sets → ∀ a ∈ d.actions, test a → d.IsLive a) :
    (d.turnWhere test deed.act).1.IsSettled := by
  -- While expressions are changed, nothing is shut down: what was live at first still is.
  have all := turnWhere_induction test deed.act
    (P := fun actions link _ => Coherent actions link.subscriptions ∧
      Ended actions link.subscriptions ∧
      (deed.sets → link.subscriptions.closed = d.link.subscriptions.closed))
    (fun pre a post link es ha ht ⟨coherent, ended, closed⟩ => by
      refine ⟨coherent.turn (deed.leads coherent.ready), ended.turn coherent ?_, ?_⟩
      · intro sets
        rw [closed sets]
        exact live sets a ha ht
      · intro sets
        rw [Deed.closed_of_sets sets]
        exact closed sets)
    [] ⟨h.coherent, h.ended, fun _ => rfl⟩
  exact ⟨all.1, all.2.1⟩

theorem IsSettled.turnQuietly {d : Deck} (h : d.IsSettled) (test : Action → Bool) (deed : Deed)
    (sets : deed.sets = false) : (d.turnWhere test deed.act).1.IsSettled :=
  h.turnWhere fun hs => (Bool.false_ne_true (sets.symm.trans hs)).elim

theorem IsSettled.event {d : Deck} (h : d.IsSettled) {event : Event} (admitted : d.Admits event) :
    (event.apply d).1.IsSettled := by
  cases event with
  | start config timing =>
    refine ⟨h.coherent.event (.start config timing), ?_⟩
    rw [Event.apply, start_actions, start_link]
    exact h.ended.start h.coherent config timing
  | step s =>
    cases s with
    | turn test deed => exact h.turnWhere admitted
    | link s =>
      refine ⟨h.coherent.step (.link s), ?_⟩
      obtain ⟨-, -, closed, -⟩ := s.keeps h.coherent.sound
      rw [Event.apply, Step.apply, use, note_actions, note_link, Ended, closed]
      exact h.ended
    | forward i =>
      rw [Event.apply, Step.apply]
      split
      · exact ⟨h.coherent, h.ended⟩
      · exact h
    | heed i =>
      rw [Event.apply, Step.apply]
      split
      · rename_i context _
        exact IsSettled.turnQuietly (d := { d with notices := d.notices.eraseIdx i })
          ⟨h.coherent, h.ended⟩ (fun a => decide (a.context = context)) .refresh rfl
      · exact h
    | heedLink =>
      rw [Event.apply, Step.apply, heedLink]
      have heeded : IsSettled { d with linkChange := none } := ⟨h.coherent, h.ended⟩
      cases d.linkChange with
      | none => exact h
      | some usable =>
        cases usable with
        | true => exact heeded.turnQuietly (fun _ => true) .refresh rfl
        | false => exact heeded.turnQuietly (fun _ => true) .standDown rfl

theorem IsSettled.run {d : Deck} (h : d.IsSettled) {events : List Event}
    (admitted : AdmitsAll events d) : (run events d).1.IsSettled := by
  induction events generalizing d with
  | nil => exact h
  | cons event events ih => exact ih (h.event admitted.1) admitted.2

/-- Just what the expressions of live actions read is followed, and known to the server. -/
structure FollowsExpressions (d : Deck) : Prop where
  listed : ∀ a ∈ d.actions, d.IsLive a →
    ∀ key, d.link.subscriptions.Follows key a.receiver ↔ a.Wants key
  watched : ∀ a ∈ d.actions, d.IsLive a → ∀ key, key ∈ a.watched ↔ a.Wants key
  single : (d.link.subscriptions.desired.map Text.lowercase).Nodup
  desired : ∀ key, key ∈ d.link.subscriptions.desired.map Text.lowercase ↔
    ∃ a ∈ d.actions, d.IsLive a ∧ a.Wants key
  ended : ∀ a ∈ d.actions, ¬d.IsLive a → ∀ key, ¬d.link.subscriptions.Follows key a.receiver

theorem IsSettled.followsExpressions {d : Deck} (h : d.IsSettled) : d.FollowsExpressions := by
  obtain ⟨coherent, ended⟩ := h
  have listed (a : Action) (ha : a ∈ d.actions) (live : d.IsLive a) (key : String) :
      d.link.subscriptions.Follows key a.receiver ↔ a.Wants key :=
    (coherent.follows a ha key).trans (coherent.synced a ha live key)
  have none (a : Action) (ha : a ∈ d.actions) (dead : ¬d.IsLive a) (key : String) :
      ¬d.link.subscriptions.Follows key a.receiver := by
    rw [coherent.follows a ha, ended a ha (Decidable.not_not.1 dead)]
    exact List.not_mem_nil
  refine ⟨listed, fun a ha live => coherent.synced a ha live, coherent.sound.desired_nodup, ?_,
    none⟩
  intro key
  rw [coherent.sound.mem_desired_iff]
  constructor
  · rintro ⟨r, hr⟩
    obtain ⟨a, ha, rfl⟩ := coherent.known key r hr
    have live : d.IsLive a := Decidable.of_not_not fun dead => none a ha dead key hr
    exact ⟨a, ha, live, (listed a ha live key).1 hr⟩
  · rintro ⟨a, ha, live, wants⟩
    exact ⟨a.receiver, (listed a ha live key).2 wants⟩

/-- Whatever happens to a deck, each live action follows just what its expressions read, and the
server is to know just these properties, each by one spelling. -/
theorem run_followsExpressions (settings : ConnectionSettings) {events : List Event}
    (admitted : AdmitsAll events { link := .ofSettings settings }) :
    (run events { link := .ofSettings settings }).1.FollowsExpressions := by
  have settled : IsSettled { link := .ofSettings settings } :=
    ⟨Coherent.empty, fun _ h => (List.not_mem_nil h).elim⟩
  exact (settled.run admitted).followsExpressions

/-- Two actions read one property by different spellings; one of them is changed, and the other
shut down. -/
def twoActions : List Event :=
  [.start { context := "a", state := "[Gear] > 1", title := "[gear] + [Lap]" } {},
    .start { context := "b", title := "[Flag]" } {},
    .step (.turn (·.context = "b") (.setState "[GEAR] + [flag]")),
    .step (.turn (·.context = "b") (.setTitle "[")),
    .step (.turn (·.context = "a") (.shutdown 0)),
    .step (.turn (·.context = "b") (.setTitle ""))]

theorem run_followsExpressions_twoActions :
    (run twoActions { link := .ofSettings {} }).1.link.subscriptions.desired = ["Gear", "Flag"] ∧
      (run twoActions { link := .ofSettings {} }).1.FollowsExpressions := by
  refine ⟨by decide +kernel, run_followsExpressions {} ?_⟩
  refine ⟨trivial, trivial, ?_, ?_, ?_, ?_, trivial⟩
  all_goals
    rw [Admits]
    decide +kernel

end Deck

end ControlDeck
