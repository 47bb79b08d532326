import ControlDeck.Deck
import ControlDeck.Proofs.Deeds
import ControlDeck.Proofs.Moves

namespace ControlDeck

/-- The receiver that is sent an announcement. -/
def DeckEvent.receiver? : DeckEvent → Option Nat
  | link (.delivered delivery) => some delivery.receiver
  | _ => none

/-- How the link has changed. -/
def DeckEvent.change? : DeckEvent → Option Bool
  | link (.changed usable) => some usable
  | _ => none

namespace Deck

theorem note_append (es es' : List DeckEvent) (d : Deck) :
    d.note (es ++ es') = (d.note es).note es' :=
  List.foldl_append

/-- Nothing but mail and the last change of the link is noted. -/
theorem note_eq (es : List DeckEvent) (d : Deck) :
    d.note es = { d with
      mail := d.mail ++ es.filterMap DeckEvent.receiver?
      linkChange := (es.filterMap DeckEvent.change?).getLast?.or d.linkChange } := by
  induction es generalizing d with
  | nil => rw [List.filterMap_nil, List.append_nil]; rfl
  | cons e es ih =>
    have cons : d.note (e :: es) = (d.note [e]).note es := rfl
    rw [cons, ih]
    rcases e with _ | _ | _ | (_ | _ | _ | delivery | usable | _) | _
    case link.delivered =>
      have first : d.note [.link (.delivered delivery)] =
        { d with mail := d.mail ++ [delivery.receiver] } := rfl
      rw [first, List.append_assoc]
      rfl
    case link.changed =>
      have last (changes : List Bool) : (usable :: changes).getLast?.or d.linkChange =
          changes.getLast?.or (some usable) := by
        rw [List.getLast?_cons]
        cases changes.getLast? <;> rfl
      have first : d.note [.link (.changed usable)] = { d with linkChange := some usable } := rfl
      rw [first, ← last]
      rfl
    all_goals rfl

@[simp] theorem note_actions (es : List DeckEvent) (d : Deck) :
    (d.note es).actions = d.actions := by
  rw [note_eq]

@[simp] theorem note_link (es : List DeckEvent) (d : Deck) : (d.note es).link = d.link := by
  rw [note_eq]

@[simp] theorem note_notices (es : List DeckEvent) (d : Deck) :
    (d.note es).notices = d.notices := by
  rw [note_eq]

@[simp] theorem note_mail (es : List DeckEvent) (d : Deck) :
    (d.note es).mail = d.mail ++ es.filterMap DeckEvent.receiver? := by
  rw [note_eq]

section Replace

variable {pre post actions : List Action} {a a' b : Action}

theorem mem_replace : b ∈ pre ++ a' :: post ↔ b = a' ∨ b ∈ pre ++ post := by
  simp only [List.mem_append, List.mem_cons]
  tauto

theorem map_replace {α : Type} {f : Action → α} (h : f a' = f a) :
    (pre ++ a' :: post).map f = (pre ++ a :: post).map f := by
  simp [h]

theorem apart_of_nodup {α : Type} {f : Action → α} (h : ((pre ++ a :: post).map f).Nodup)
    (hb : b ∈ pre ++ post) : f b ≠ f a := by
  rw [List.map_append, List.map_cons, List.nodup_append] at h
  obtain ⟨-, hp, apart⟩ := h
  rcases List.mem_append.1 hb with hb | hb
  · exact apart _ (List.mem_map_of_mem hb) _ List.mem_cons_self
  · intro same
    exact (List.nodup_cons.1 hp).1 (same ▸ List.mem_map_of_mem hb)

theorem nodup_concat {α : Type} {f : Action → α} (h : (actions.map f).Nodup)
    (new : ∀ b ∈ actions, f b ≠ f a) : ((actions ++ [a]).map f).Nodup := by
  rw [List.map_append, List.nodup_append]
  refine ⟨h, List.nodup_singleton _, ?_⟩
  intro x hx y hy
  obtain ⟨b, hb, rfl⟩ := List.mem_map.1 hx
  rw [List.map_singleton, List.mem_singleton] at hy
  rw [hy]
  exact new b hb

end Replace

section Turns

variable {test : Action → Bool} {f : Turn → Turn}

/-- What each turn keeps, all turns keep. -/
theorem eachWhere_induction {P : List Action → Link → List DeckEvent → Prop}
    {actions : List Action}
    (turn : ∀ pre a post link es, a ∈ actions → test a → P (pre ++ a :: post) link es →
      P (pre ++ (f { action := a, link }).action :: post) (f { action := a, link }).link
        (es ++ (f { action := a, link }).events))
    (pre : List Action) {link : Link} {es : List DeckEvent} (h : P (pre ++ actions) link es) :
    P (pre ++ (eachWhere test f actions link).1) (eachWhere test f actions link).2.1
      (es ++ (eachWhere test f actions link).2.2) := by
  -- The actions in `pre` have had their turns, or are not to have one.
  induction actions generalizing pre link es with
  | nil => simpa [eachWhere] using h
  | cons a actions ih =>
    have later := ih fun pre b post link es hb =>
      turn pre b post link es (List.mem_cons_of_mem a hb)
    rw [eachWhere]
    split
    · rename_i ht
      have next := turn pre a actions link es List.mem_cons_self ht h
      rw [List.append_cons] at next
      have rest := later _ next
      rwa [List.append_assoc, List.append_assoc] at rest
    · rw [List.append_cons] at h
      have rest := later _ h
      rwa [List.append_assoc] at rest

/-- Turns that do not use the link are taken each by itself. -/
theorem eachWhere_map (test : Action → Bool) (f : Turn → Turn)
    (hf : ∀ a link, (f { action := a, link }).link = link) (actions : List Action) (link : Link) :
    (eachWhere test f actions link).1 =
        actions.map (fun a => if test a then (f { action := a, link }).action else a) ∧
      (eachWhere test f actions link).2.1 = link := by
  induction actions with
  | nil => exact ⟨rfl, rfl⟩
  | cons a actions ih =>
    obtain ⟨mapped, same⟩ := ih
    rw [eachWhere]
    split
    · rename_i ht
      simp only [hf, mapped, same, List.map_cons, ht, if_true, and_self]
    · rename_i ht
      simp [mapped, same, ht]

theorem turnWhere_fields (test : Action → Bool) (f : Turn → Turn) (d : Deck) :
    (d.turnWhere test f).1.actions = (eachWhere test f d.actions d.link).1 ∧
      (d.turnWhere test f).1.link = (eachWhere test f d.actions d.link).2.1 ∧
      (d.turnWhere test f).1.notices = d.notices ∧
      (d.turnWhere test f).1.mail =
        d.mail ++ (d.turnWhere test f).2.filterMap DeckEvent.receiver? := by
  rw [turnWhere, note_actions, note_link, note_notices, note_mail]
  exact ⟨rfl, rfl, rfl, rfl⟩

/-- What each turn keeps, a deck keeps. -/
theorem turnWhere_induction (test : Action → Bool) (f : Turn → Turn)
    {P : List Action → Link → List DeckEvent → Prop} {d : Deck}
    (turn : ∀ pre a post link es, a ∈ d.actions → test a → P (pre ++ a :: post) link es →
      P (pre ++ (f { action := a, link }).action :: post) (f { action := a, link }).link
        (es ++ (f { action := a, link }).events))
    (es : List DeckEvent) (h : P d.actions d.link es) :
    P (d.turnWhere test f).1.actions (d.turnWhere test f).1.link
      (es ++ (d.turnWhere test f).2) := by
  obtain ⟨actions, link, -, -⟩ := d.turnWhere_fields test f
  rw [actions, link]
  exact eachWhere_induction turn [] h

end Turns

/-- What a deck does of itself, what is asked of it, and what its link does. -/
inductive Step where
  | turn (test : Action → Bool) (deed : Deed)
  | link (s : Link.Step)
  /-- A piece of mail becomes a notice. -/
  | forward (i : Nat)
  /-- The action of a notice shows what has come. -/
  | heed (i : Nat)
  | heedLink

/-- What can happen to a deck. -/
inductive Event where
  | start (config : ActionConfig) (timing : Timing)
  | step (s : Step)

/-- The contexts of the actions that a receiver belongs to. -/
def contexts (receiver : Nat) (d : Deck) : List String :=
  (d.actions.filter (·.receiver = receiver)).map (·.context)

def start (config : ActionConfig) (timing : Timing) (d : Deck) : Deck × List DeckEvent :=
  let t := Turn.start config timing d.link
  ({ d with actions := d.actions ++ [t.action], link := t.link }.note t.events, t.events)

theorem start_fst (config : ActionConfig) (timing : Timing) (d : Deck) :
    (d.start config timing).1 =
      { d with
        actions := d.actions ++ [(Turn.start config timing d.link).action]
        link := (Turn.start config timing d.link).link }.note
          (Turn.start config timing d.link).events := rfl

theorem start_actions (config : ActionConfig) (timing : Timing) (d : Deck) :
    (d.start config timing).1.actions =
      d.actions ++ [(Turn.start config timing d.link).action] := by
  rw [start_fst, note_actions]

theorem start_link (config : ActionConfig) (timing : Timing) (d : Deck) :
    (d.start config timing).1.link = (Turn.start config timing d.link).link := by
  rw [start_fst, note_link]

def Step.apply (d : Deck) : Step → Deck × List DeckEvent
  | turn test deed => d.turnWhere test deed.act
  | link s => d.use fun l => s.apply l
  | forward i =>
    match d.mail[i]? with
    | some receiver =>
      ({ d with mail := d.mail.eraseIdx i, notices := d.notices ++ d.contexts receiver }, [])
    | none => (d, [])
  | heed i =>
    match d.notices[i]? with
    | some context => { d with notices := d.notices.eraseIdx i }.turn context Turn.refresh
    | none => (d, [])
  | heedLink => d.heedLink

def Event.apply (d : Deck) : Event → Deck × List DeckEvent
  | start config timing => d.start config timing
  | step s => s.apply d

def run : List Event → Deck → Deck × List DeckEvent
  | [], d => (d, [])
  | event :: events, d =>
    let (d, es) := event.apply d
    let (d, more) := run events d
    (d, es ++ more)

theorem run_cons (event : Event) (events : List Event) (d : Deck) :
    run (event :: events) d =
      ((run events (event.apply d).1).1,
        (event.apply d).2 ++ (run events (event.apply d).1).2) := rfl

theorem run_append (events events' : List Event) (d : Deck) :
    run (events ++ events') d =
      ((run events' (run events d).1).1, (run events d).2 ++ (run events' (run events d).1).2) := by
  induction events generalizing d with
  | nil => rfl
  | cons event events ih =>
    rw [List.cons_append, run_cons, ih, run_cons, List.append_assoc]

theorem use_eq (f : Link → Link × List LinkEvent) (d : Deck) :
    d.use f = ({ d with link := (f d.link).1 }.note ((f d.link).2.map .link),
      (f d.link).2.map .link) := rfl

theorem use_steps (steps : List Link.Step) (d : Deck) :
    run (steps.map fun s => .step (.link s)) d = d.use (Link.stepAll steps) := by
  induction steps generalizing d with
  | nil => rfl
  | cons s steps ih =>
    rw [List.map_cons, run_cons, ih, use_eq (Link.stepAll (s :: steps)), Link.stepAll_cons,
      List.map_append, note_append]
    simp only [Event.apply, Step.apply, use_eq, note_eq]

theorem sortMail_steps (mail : List Nat) (d : Deck) :
    run ((List.replicate mail.length (Step.forward 0)).map .step) { d with mail } =
      (sortMail { d with mail }, []) := by
  induction mail generalizing d with
  | nil => simp [sortMail, run]
  | cons receiver mail ih =>
    have first : Event.apply { d with mail := receiver :: mail } (.step (.forward 0)) =
        ({ d with mail, notices := d.notices ++ d.contexts receiver }, []) := rfl
    rw [List.length_cons, List.replicate_succ, List.map_cons, run_cons, first,
      ih { d with notices := d.notices ++ d.contexts receiver }]
    simp [sortMail, contexts]

theorem turnWhere_notices (test : Action → Bool) (f : Turn → Turn) (d : Deck)
    (notices : List String) :
    { d with notices }.turnWhere test f =
      ({ (d.turnWhere test f).1 with notices }, (d.turnWhere test f).2) := by
  simp only [turnWhere, note_eq]

theorem heedNotices_steps (contexts : List String) (d : Deck) :
    run ((List.replicate contexts.length (Step.heed 0)).map .step) { d with notices := contexts } =
      heedNotices contexts { d with notices := [] } := by
  induction contexts generalizing d with
  | nil => rfl
  | cons context contexts ih =>
    have first : Event.apply { d with notices := context :: contexts } (.step (.heed 0)) =
        { d with notices := contexts }.turn context Turn.refresh := rfl
    rw [List.length_cons, List.replicate_succ, List.map_cons, run_cons, first, heedNotices, turn,
      turn, turnWhere_notices, turnWhere_notices _ _ d [], ih]

/-- Some steps lead to the result. -/
def Reaches (d : Deck) (result : Deck × List DeckEvent) : Prop :=
  ∃ steps : List Step, run (steps.map .step) d = result

theorem Reaches.trans {d : Deck} {r r' : Deck × List DeckEvent} (h : d.Reaches r)
    (h' : r.1.Reaches r') : d.Reaches (r'.1, r.2 ++ r'.2) := by
  obtain ⟨steps, rfl⟩ := h
  obtain ⟨steps', rfl⟩ := h'
  exact ⟨steps ++ steps', by rw [List.map_append, run_append]⟩

theorem reaches_step (s : Step) (d : Deck) : d.Reaches (s.apply d) :=
  ⟨[s], Prod.ext rfl (List.append_nil _)⟩

theorem reaches_settleLink (now : Nat) (d : Deck) : d.Reaches (d.use (Link.settle now)) := by
  obtain ⟨steps, hs⟩ := d.link.settle_steps now
  refine ⟨steps.map .link, ?_⟩
  rw [List.map_map, use_eq, ← hs]
  exact use_steps steps d

theorem reaches_attend (d : Deck) : d.Reaches d.attend := by
  rw [attend]
  split
  · have noticed : d.Reaches (heedNotices d.notices { d with notices := [] }) :=
      ⟨_, heedNotices_steps d.notices d⟩
    exact noticed.trans (reaches_step .heedLink _)
  · exact ⟨[], rfl⟩

theorem reaches_settleWith (deed : Deed) {act : Actuator → Actuator × List Stroke}
    (h : deed.act = fun t => t.act act) (now : Nat) (d : Deck) :
    d.Reaches (d.settleWith act now) := by
  have sorted (d : Deck) : d.Reaches (d.sortMail, []) := ⟨_, sortMail_steps d.mail d⟩
  have acted : d.Reaches (d.turnAll fun t => t.act act) := h ▸ reaches_step (.turn _ deed) d
  rw [settleWith]
  generalize d.turnAll (fun t => t.act act) = turned at acted ⊢
  obtain ⟨d₁, events⟩ := turned
  have linked := acted.trans (reaches_settleLink now d₁)
  dsimp only at linked ⊢
  generalize d₁.use (Link.settle now) = used at linked ⊢
  obtain ⟨d₂, linkEvents⟩ := used
  have attended := (linked.trans (sorted d₂)).trans (reaches_attend d₂.sortMail)
  dsimp only at attended ⊢
  generalize d₂.sortMail.attend = heeded at attended ⊢
  obtain ⟨d₃, shown⟩ := heeded
  have written := attended.trans (reaches_settleLink now d₃)
  rwa [List.append_nil] at written

/-- What becomes due is made of steps. -/
theorem reaches_tick (now : Nat) (d : Deck) : d.Reaches (d.tick now) :=
  reaches_settleWith (.tick now) rfl now d

theorem reaches_settle (now : Nat) (d : Deck) : d.Reaches (d.settle now) :=
  reaches_settleWith (.settle now) rfl now d

end Deck

end ControlDeck
