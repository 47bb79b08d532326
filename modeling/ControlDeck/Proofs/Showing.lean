import ControlDeck.Proofs.Displays

namespace ControlDeck

/-- The action shows what is to be shown, or something waits to tell it of a change. -/
def Action.IsFresh (s : Subscriptions) (mail : List Nat) (notices : List String) (a : Action) :
    Prop :=
  a.receiver ∉ s.closed →
    a.shown = some (a.current fun n => s.value n) ∨ a.receiver ∈ mail ∨ a.context ∈ notices

theorem Action.IsFresh.more {s : Subscriptions} {mail : List Nat} {notices : List String}
    {a : Action} (h : a.IsFresh s mail notices) (mail' : List Nat) :
    a.IsFresh s (mail ++ mail') notices :=
  fun live => (h live).imp_right (Or.imp_left (List.mem_append_left mail'))

namespace Coherent

variable {mail : List Nat} {notices : List String}

/-- Only the properties that an action follows matter to what it shows. -/
theorem current_congr {actions : List Action} {s : Subscriptions} (h : Coherent actions s)
    {a : Action} (ha : a ∈ actions) (live : a.receiver ∉ s.closed) {read : Readings}
    (agree : ∀ n, s.Follows (Text.lowercase n) a.receiver → read n = s.value n) :
    a.current read = a.current fun n => s.value n :=
  (h.exact a ha).current_congr fun n hn =>
    agree n ((h.follows a ha _).2 ((h.synced a ha live _).2 ⟨n, hn, rfl⟩))

section Turn

variable {pre post : List Action} {a : Action} {link : Link} {t : Turn}

/-- The turn of another action leaves the values of the properties that an action follows. -/
theorem fresh_other (h : Coherent (pre ++ a :: post) link.subscriptions)
    (leads : Turn.Leads { action := a, link } t) {b : Action} (hb : b ∈ pre ++ post)
    (fresh : b.IsFresh link.subscriptions mail notices) :
    b.IsFresh t.link.subscriptions mail notices := by
  intro live
  have before : b.receiver ∉ link.subscriptions.closed := fun dead => live (leads.kept _ dead)
  apply (fresh before).imp_left
  intro now
  rw [now, h.current_congr (Deck.mem_replace.2 (.inr hb)) before fun n hn => leads.values n ?_]
  exact ⟨b.receiver, (leads.follows _ _).2 (by rwa [if_neg (h.receiver_ne hb)])⟩

/-- An action that shows nothing new in its turn has nothing new to show. -/
theorem fresh_own (h : Coherent (pre ++ a :: post) link.subscriptions)
    (leads : Turn.Leads { action := a, link } t) (displays : Turn.Displays { action := a, link } t)
    (fresh : a.IsFresh link.subscriptions mail notices) :
    t.action.IsFresh t.link.subscriptions mail notices := by
  intro live
  rcases displays.current with now | ⟨state, title, shown⟩
  · exact .inl now
  · have own : a.receiver ∉ link.subscriptions.closed := by
      rw [← leads.receiver]
      exact fun dead => live (leads.kept _ dead)
    rcases fresh own with now | waiting
    · left
      have same (read : Readings) : a.current read = t.action.current read := by
        rw [Action.current, Action.current, state, title, leads.context]
      rw [shown, now, same, (h.turn leads).current_congr (by simp) live fun n hn => ?_]
      exact (leads.values n ⟨t.action.receiver, hn⟩).symm
    · rw [leads.receiver, leads.context]
      exact .inr waiting

end Turn

/-- What the link announces waits for all actions that read it. -/
theorem fresh_link {actions : List Action} {l : Link} (h : Coherent actions l.subscriptions)
    (step : Link.Step) {a : Action} (ha : a ∈ actions)
    (fresh : a.IsFresh l.subscriptions mail notices) :
    a.IsFresh (step.apply l).1.subscriptions
      (mail ++ ((step.apply l).2.map DeckEvent.link).filterMap DeckEvent.receiver?) notices := by
  intro live
  obtain ⟨-, -, closed, -⟩ := step.keeps h.sound
  rw [closed] at live
  rcases fresh live with now | waiting
  · rcases step.registry l with same | ⟨line, ds, hp, delivered⟩
    · left
      have values (n : String) :
          (step.apply l).1.subscriptions.value n = l.subscriptions.value n := by
        simp only [Subscriptions.value, Subscriptions.find?, same.entries]
      simpa only [values] using now
    · -- The line waits for an action that follows its property, and means nothing to others.
      by_cases reads : l.subscriptions.Follows (Text.lowercase line.name) a.receiver
      · right
        left
        have mem := h.sound.mem_publish hp reads live
        rw [delivered, List.map_map]
        refine List.mem_append_right _ (List.mem_filterMap.2 ⟨_, List.mem_map_of_mem mem, rfl⟩)
      · left
        rw [now, h.current_congr ha live fun n hn => h.sound.value_publish hp fun same => ?_]
        exact reads (same ▸ hn)
  · exact .inr (waiting.imp_left (List.mem_append_left _))

end Coherent

/-- The actions of a deck show what the properties are, or are to learn that one has changed. -/
structure Showing (actions : List Action) (s : Subscriptions) (mail : List Nat)
    (notices : List String) (trace : List DeckEvent) : Prop where
  coherent : Coherent actions s
  told : Told actions trace
  fresh : ∀ a ∈ actions, a.IsFresh s mail notices

namespace Showing

variable {mail : List Nat} {notices : List String} {trace : List DeckEvent}

theorem turn {pre post : List Action} {a : Action} {link : Link}
    (h : Showing (pre ++ a :: post) link.subscriptions mail notices trace) {t : Turn}
    (leads : Turn.Leads { action := a, link } t)
    (displays : Turn.Displays { action := a, link } t) :
    Showing (pre ++ t.action :: post) t.link.subscriptions mail notices (trace ++ t.events) where
  coherent := h.coherent.turn leads
  told := h.told.turn leads.context displays.shows
  fresh b hb := by
    rcases Deck.mem_replace.1 hb with rfl | hb
    · exact h.coherent.fresh_own leads displays (h.fresh a (by simp))
    · exact h.coherent.fresh_other leads hb (h.fresh b (Deck.mem_replace.2 (.inr hb)))

theorem turnWhere {d : Deck} (h : Showing d.actions d.link.subscriptions mail notices trace)
    (test : Action → Bool) (deed : Deed) :
    Showing (d.turnWhere test deed.act).1.actions (d.turnWhere test deed.act).1.link.subscriptions
      mail notices (trace ++ (d.turnWhere test deed.act).2) :=
  Deck.turnWhere_induction test deed.act
    (P := fun actions link es => Showing actions link.subscriptions mail notices es)
    (fun _ a _ link _ _ _ h => h.turn (deed.leads h.coherent.ready)
      (deed.displays { action := a, link })) trace h

theorem start {actions : List Action} {link : Link}
    (h : Showing actions link.subscriptions mail notices trace) {config : ActionConfig}
    (unknown : ∀ a ∈ actions, a.context ≠ config.context) (timing : Timing) :
    Showing (actions ++ [(Turn.start config timing link).action])
      (Turn.start config timing link).link.subscriptions mail notices
      (trace ++ (Turn.start config timing link).events) where
  coherent := h.coherent.start config timing
  told := h.told.start unknown timing link
  fresh b hb := by
    rcases List.mem_append.1 hb with hb | hb
    · refine (h.coherent.blank config timing).fresh_other (h.coherent.start_leads config timing)
        (List.mem_append_left _ hb) ?_
      exact h.fresh b hb
    · rw [List.mem_singleton.1 hb, Turn.start_eq]
      exact fun _ => .inl (Turn.refresh_current _)

end Showing

namespace Deck

/-- The deck shows what the properties are, but for those of which it is to learn. -/
def IsShowing (trace : List DeckEvent) (d : Deck) : Prop :=
  Showing d.actions d.link.subscriptions d.mail d.notices trace

variable {d : Deck} {trace : List DeckEvent}

theorem IsShowing.note {actions : List Action} {link : Link} {notices : List String}
    (h : Showing actions link.subscriptions d.mail notices trace) (es : List DeckEvent) :
    IsShowing trace ({ d with actions, link, notices }.note es) := by
  rw [IsShowing, note_actions, note_link, note_notices, note_mail]
  exact ⟨h.coherent, h.told, fun a ha => (h.fresh a ha).more _⟩

theorem IsShowing.turnWhere (h : d.IsShowing trace) (test : Action → Bool) (deed : Deed) :
    IsShowing (trace ++ (d.turnWhere test deed.act).2) (d.turnWhere test deed.act).1 := by
  obtain ⟨-, -, notices, mail⟩ := d.turnWhere_fields test deed.act
  have turned := Showing.turnWhere h test deed
  rw [IsShowing, notices, mail]
  exact ⟨turned.coherent, turned.told, fun a ha => (turned.fresh a ha).more _⟩

theorem mem_eraseIdx_or {α : Type} {l : List α} {i : Nat} {x y : α} (hx : x ∈ l)
    (hy : l[i]? = some y) : x = y ∨ x ∈ l.eraseIdx i := by
  obtain ⟨j, hj⟩ := List.mem_iff_getElem?.1 hx
  by_cases same : j = i
  · rw [same] at hj
    exact .inl (Option.some.inj (hj.symm.trans hy))
  · exact .inr (List.mem_eraseIdx_iff_getElem?.2 ⟨j, same, hj⟩)

theorem IsShowing.forward (h : d.IsShowing trace) {i : Nat} {receiver : Nat}
    (hi : d.mail[i]? = some receiver) :
    IsShowing trace
      { d with mail := d.mail.eraseIdx i, notices := d.notices ++ d.contexts receiver } where
  coherent := h.coherent
  told := h.told
  fresh a ha live := by
    rcases h.fresh a ha live with now | mail | notice
    · exact .inl now
    · rcases mem_eraseIdx_or mail hi with own | other
      · refine .inr (.inr (List.mem_append_right _ (List.mem_map_of_mem ?_)))
        exact List.mem_filter.2 ⟨ha, decide_eq_true own⟩
      · exact .inr (.inl other)
    · exact .inr (.inr (List.mem_append_left _ notice))

/-- All actions with a context show what is to be shown when they have been told to. -/
theorem turn_current (context : String) {a : Action}
    (ha : a ∈ (d.turn context Turn.refresh).1.actions) (hc : a.context = context) :
    a.shown = some (a.current fun n =>
      (d.turn context Turn.refresh).1.link.subscriptions.value n) := by
  rw [turn] at ha ⊢
  obtain ⟨actions, link, -, -⟩ := d.turnWhere_fields (·.context = context) Turn.refresh
  obtain ⟨mapped, same⟩ := eachWhere_map (·.context = context) Turn.refresh
    (fun a link => Turn.refresh_link { action := a, link }) d.actions d.link
  rw [link, same]
  rw [actions, mapped] at ha
  obtain ⟨b, -, rfl⟩ := List.mem_map.1 ha
  split at hc
  · rename_i hb
    rw [if_pos hb]
    have link := Turn.refresh_link { action := b, link := d.link }
    have readings : Turn.readings (Turn.refresh { action := b, link := d.link }) =
        fun n => d.link.subscriptions.value n :=
      congrArg (fun l n => l.subscriptions.value n) link
    rw [Turn.refresh_current { action := b, link := d.link }, readings]
  · rename_i hb
    exact (hb (decide_eq_true hc)).elim

theorem IsShowing.heed {context : String} {notices : List String}
    (h : Showing d.actions d.link.subscriptions d.mail notices trace)
    (heeded : ∀ c ∈ notices, c = context ∨ c ∈ d.notices) :
    IsShowing (trace ++ (d.turn context Turn.refresh).2) (d.turn context Turn.refresh).1 := by
  have turned := Showing.turnWhere h (·.context = context) .refresh
  obtain ⟨-, -, notices, mail⟩ := d.turnWhere_fields (·.context = context) Turn.refresh
  refine ⟨turned.coherent, turned.told, ?_⟩
  intro a ha live
  -- Only the actions with the context lose a notice, and these have just been refreshed.
  by_cases own : a.context = context
  · exact .inl (turn_current context ha own)
  · rcases turned.fresh a ha live with now | waiting | notice
    · exact .inl now
    · refine .inr (.inl ?_)
      rw [turn, mail]
      exact List.mem_append_left _ waiting
    · refine .inr (.inr ?_)
      rw [turn, notices]
      exact (heeded _ notice).resolve_left own

theorem IsShowing.heedLink (h : d.IsShowing trace) :
    IsShowing (trace ++ d.heedLink.2) d.heedLink.1 := by
  rw [Deck.heedLink]
  have heeded : IsShowing trace { d with linkChange := none } := h
  cases d.linkChange with
  | none =>
    rw [Option.elim_none, List.append_nil]
    exact h
  | some usable =>
    cases usable with
    | true => exact heeded.turnWhere (fun _ => true) .refresh
    | false =>
      have turned := heeded.turnWhere (fun _ => true) .standDown
      refine ⟨turned.coherent, turned.told.of_displays ?_, turned.fresh⟩
      intro c
      rw [displays_append, displays_append]
      rfl

theorem IsShowing.step (h : d.IsShowing trace) (s : Step) :
    IsShowing (trace ++ (s.apply d).2) (s.apply d).1 := by
  cases s with
  | turn test deed => exact h.turnWhere test deed
  | link s =>
    rw [Step.apply, use, IsShowing, note_actions, note_link, note_notices, note_mail]
    refine ⟨Coherent.step h.coherent s, h.told.of_displays ?_, ?_⟩
    · intro c
      rw [displays_append, displays_link, List.append_nil]
    · intro a ha
      exact h.coherent.fresh_link s ha (h.fresh a ha)
  | forward i =>
    rw [Step.apply]
    split
    · rename_i receiver hi
      rw [List.append_nil]
      exact h.forward hi
    · rw [List.append_nil]
      exact h
  | heed i =>
    rw [Step.apply]
    split
    · rename_i context hi
      exact IsShowing.heed (d := { d with notices := d.notices.eraseIdx i }) h
        fun c hc => mem_eraseIdx_or hc hi
    · rw [List.append_nil]
      exact h
  | heedLink => exact h.heedLink

theorem IsShowing.run (h : d.IsShowing trace) (steps : List Step) :
    IsShowing (trace ++ (run (steps.map .step) d).2) (run (steps.map .step) d).1 := by
  induction steps generalizing d trace with
  | nil =>
    rw [List.map_nil, Deck.run, List.append_nil]
    exact h
  | cons s steps ih =>
    have rest := ih (h.step s)
    rwa [List.append_assoc] at rest

theorem IsShowing.start (h : d.IsShowing trace) {config : ActionConfig}
    (unknown : ∀ a ∈ d.actions, a.context ≠ config.context) (timing : Timing) :
    IsShowing (trace ++ (d.start config timing).2) (d.start config timing).1 := by
  rw [start_fst]
  exact IsShowing.note (Showing.start h unknown timing) (Turn.start config timing d.link).events

theorem addAll_cons {timing : Timing} {config : ActionConfig} {configs : List ActionConfig}
    {made : Deck × List DeckEvent} (h : addAll timing (config :: configs) d = .ok made) :
    (∀ a ∈ d.actions, a.context ≠ config.context) ∧
      ∃ rest, addAll timing configs (d.start config timing).1 = .ok rest ∧
        made = (rest.1, (d.start config timing).2 ++ rest.2) := by
  rw [addAll] at h
  split at h
  · cases h
  · rename_i unknown
    refine ⟨by simpa [find?] using unknown, ?_⟩
    dsimp only at h
    obtain ⟨rest, hr, hm⟩ := bind_eq_ok.1 h
    rw [← start_fst] at hr
    exact ⟨rest, hr, (Except.ok.inj hm).symm⟩

theorem IsShowing.addAll (h : d.IsShowing trace) {timing : Timing} {configs : List ActionConfig}
    {made : Deck × List DeckEvent} (added : addAll timing configs d = .ok made) :
    IsShowing (trace ++ made.2) made.1 := by
  induction configs generalizing d trace made with
  | nil =>
    cases added
    rw [List.append_nil]
    exact h
  | cons config configs ih =>
    obtain ⟨unknown, rest, hr, rfl⟩ := addAll_cons added
    have all := ih (h.start unknown timing) hr
    rwa [List.append_assoc] at all

/-- While nothing waits to tell a live action of a change, its control has been told last what the
action has to show for the values of the properties, and no control has been told a thing twice in
succession. -/
structure ShowsValues (trace : List DeckEvent) (d : Deck) : Prop where
  last : ∀ a ∈ d.actions, d.IsLive a → a.receiver ∉ d.mail → a.context ∉ d.notices →
    (displays a.context trace).getLast? = some (a.current fun n => d.link.subscriptions.value n)
  changing : ∀ context, (displays context trace).IsChain (· ≠ ·)

theorem IsShowing.showsValues (h : d.IsShowing trace) : d.ShowsValues trace := by
  refine ⟨?_, h.told.changing⟩
  intro a ha live mail notice
  rw [h.told.last a ha]
  rcases h.fresh a ha live with now | waiting | waiting
  · exact now
  · exact (mail waiting).elim
  · exact (notice waiting).elim

/-- A link that no one uses yet follows nothing, whatever it does. -/
theorem coherent_unused (settings : ConnectionSettings) (before : List Link.Step) :
    Coherent [] ((Link.ofSettings settings).stepAll before).1.subscriptions := by
  have steps (l : Link) (h : Coherent [] l.subscriptions) :
      Coherent [] (l.stepAll before).1.subscriptions := by
    induction before generalizing l with
    | nil => exact h
    | cons s before ih => exact ih _ (h.step s)
  exact steps _ Coherent.empty

/-- A deck shows what the properties are, whatever happens to it and to its link. -/
theorem run_showsValues {settings : Settings} {before : List Link.Step}
    {made : Deck × List DeckEvent}
    (h : ofSettings settings ((Link.ofSettings settings.connection).stepAll before).1 = .ok made)
    (steps : List Step) :
    (run (steps.map .step) made.1).1.ShowsValues
      (made.2 ++ (run (steps.map .step) made.1).2) := by
  have unused := coherent_unused settings.connection before
  have shown : IsShowing [] { link := ((Link.ofSettings settings.connection).stepAll before).1 } :=
    ⟨unused, Told.empty, fun _ h => (List.not_mem_nil h).elim⟩
  exact ((shown.addAll h).run steps).showsValues

def gearSettings : Settings where
  connection := { bannerStart := "S" }
  actions := [{ context := "a", state := "[Gear] > 1", title := "[gear]" }]

/-- The server announces the property, and the action learns of it. -/
def gearSteps : List Step :=
  [.link (.receiveLine 0 [83]), .link .write, .link .write,
    .link (.receiveLine 0 "Property Gear integer 3".toUTF8.toList), .forward 0, .heed 0]

theorem run_showsValues_gear :
    ∃ made,
      ofSettings gearSettings
        ((Link.ofSettings gearSettings.connection).stepAll [.accept]).1 = .ok made ∧
      displays "a" (made.2 ++ (run (gearSteps.map .step) made.1).2) =
        [⟨"a", false, ""⟩, ⟨"a", true, "3"⟩] ∧
      (run (gearSteps.map .step) made.1).1.ShowsValues
        (made.2 ++ (run (gearSteps.map .step) made.1).2) := by
  have shown :
      (ofSettings gearSettings
        ((Link.ofSettings gearSettings.connection).stepAll [.accept]).1).toOption.map
        (fun made => displays "a" (made.2 ++ (run (gearSteps.map .step) made.1).2)) =
          some [⟨"a", false, ""⟩, ⟨"a", true, "3"⟩] := by
    decide +kernel
  cases h : ofSettings gearSettings
      ((Link.ofSettings gearSettings.connection).stepAll [.accept]).1 with
  | error e =>
    rw [h] at shown
    cases shown
  | ok made =>
    rw [h] at shown
    exact ⟨made, rfl, Option.some.inj shown, run_showsValues h gearSteps⟩

end Deck

end ControlDeck
