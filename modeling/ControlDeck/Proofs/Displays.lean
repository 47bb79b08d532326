import ControlDeck.Proofs.Coherence
import Mathlib.Data.List.Chain

namespace ControlDeck

/-- What the control with a context has been told to show, in order. -/
def displays (context : String) (trace : List DeckEvent) : List Display :=
  (trace.filterMap DeckEvent.display?).filter (·.context = context)

theorem displays_append (context : String) (trace events : List DeckEvent) :
    displays context (trace ++ events) = displays context trace ++ displays context events := by
  rw [displays, List.filterMap_append, List.filter_append]
  rfl

theorem displays_link (context : String) (events : List LinkEvent) :
    displays context (events.map .link) = [] := by
  simp [displays, DeckEvent.display?]

namespace Turn.Shows

variable {a : Action} {link : Link} {t : Turn}

theorem displays_other (h : Shows { action := a, link } t) {context : String}
    (other : context ≠ a.context) : displays context t.events = [] := by
  obtain ⟨events, he, ⟨none, -⟩ | ⟨d, one, own, -⟩⟩ := h
  · rw [displays, he, List.nil_append, none]
    rfl
  · rw [displays, he, List.nil_append, one]
    simp [own, other.symm]

theorem displays_own (h : Shows { action := a, link } t) :
    displays a.context t.events = [] ∧ t.action.shown = a.shown ∨
      ∃ d, displays a.context t.events = [d] ∧ t.action.shown = some d ∧ a.shown ≠ some d := by
  obtain ⟨events, he, ⟨none, same⟩ | ⟨d, one, own, now, new⟩⟩ := h
  · refine .inl ⟨?_, same⟩
    rw [displays, he, List.nil_append, none]
    rfl
  · refine .inr ⟨d, ?_, now, new⟩
    rw [displays, he, List.nil_append, one]
    simp [own]

end Turn.Shows

/-- Each action knows what its control was told last, and no control was told a thing twice in
succession. -/
structure Told (actions : List Action) (trace : List DeckEvent) : Prop where
  distinct : (actions.map (·.context)).Nodup
  last : ∀ a ∈ actions, (displays a.context trace).getLast? = a.shown
  known : ∀ context, (∀ a ∈ actions, a.context ≠ context) → displays context trace = []
  changing : ∀ context, (displays context trace).IsChain (· ≠ ·)

namespace Told

open Deck

theorem empty : Told [] [] where
  distinct := List.nodup_nil
  last _ h := (List.not_mem_nil h).elim
  known _ _ := rfl
  changing _ := List.isChain_nil

variable {pre post : List Action} {a : Action} {link : Link} {trace : List DeckEvent}

theorem of_displays {actions : List Action} (h : Told actions trace) {trace' : List DeckEvent}
    (same : ∀ context, displays context trace' = displays context trace) : Told actions trace' where
  distinct := h.distinct
  last a ha := (congrArg List.getLast? (same a.context)).trans (h.last a ha)
  known c hc := (same c).trans (h.known c hc)
  changing c := (same c).symm ▸ h.changing c

theorem context_ne (h : Told (pre ++ a :: post) trace) {b : Action} (hb : b ∈ pre ++ post) :
    b.context ≠ a.context :=
  apart_of_nodup h.distinct hb

theorem turn (h : Told (pre ++ a :: post) trace) {t : Turn}
    (context : t.action.context = a.context) (shows : Turn.Shows { action := a, link } t) :
    Told (pre ++ t.action :: post) (trace ++ t.events) where
  distinct := by
    rw [map_replace context]
    exact h.distinct
  last b hb := by
    rw [displays_append]
    rcases mem_replace.1 hb with rfl | hb
    · rw [context]
      rcases shows.displays_own with ⟨none, same⟩ | ⟨d, one, now, -⟩
      · rw [none, List.append_nil, same]
        exact h.last a (by simp)
      · rw [one, List.getLast?_concat, now]
    · rw [shows.displays_other (h.context_ne hb), List.append_nil]
      exact h.last b (mem_replace.2 (.inr hb))
  known c hc := by
    have own : c ≠ a.context := fun same => hc t.action (by simp) (context.trans same.symm)
    rw [displays_append, shows.displays_other own, List.append_nil]
    apply h.known c
    intro b hb
    rcases mem_replace.1 hb with rfl | hb
    · exact own.symm
    · exact hc b (mem_replace.2 (.inr hb))
  changing c := by
    rw [displays_append]
    by_cases own : c = a.context
    · rw [own]
      rcases shows.displays_own with ⟨none, -⟩ | ⟨d, one, -, new⟩
      · rw [none, List.append_nil]
        exact h.changing a.context
      · rw [one]
        apply (h.changing a.context).append (List.isChain_singleton d)
        rw [h.last a (by simp)]
        rintro x hx y hy rfl
        obtain rfl : d = x := Option.some.inj hy
        exact new hx
    · rw [shows.displays_other own, List.append_nil]
      exact h.changing c

theorem blank {actions : List Action} (h : Told actions trace) {config : ActionConfig}
    (unknown : ∀ a ∈ actions, a.context ≠ config.context) (timing : Timing) (link : Link) :
    Told (actions ++ [(Turn.blank config timing link).action]) trace where
  distinct := nodup_concat h.distinct unknown
  last a ha := by
    rcases List.mem_append.1 ha with ha | ha
    · exact h.last a ha
    · rw [List.mem_singleton.1 ha]
      exact congrArg List.getLast? (h.known config.context unknown)
  known c hc := h.known c fun a ha => hc a (List.mem_append_left _ ha)
  changing := h.changing

theorem start {actions : List Action} (h : Told actions trace) {config : ActionConfig}
    (unknown : ∀ a ∈ actions, a.context ≠ config.context) (timing : Timing) (link : Link) :
    Told (actions ++ [(Turn.start config timing link).action])
      (trace ++ (Turn.start config timing link).events) := by
  have unseen : (Turn.blank config timing link).Unseen (Turn.begin config timing link) :=
    Turn.unseen_warn _ _
  have displays := (unseen.trans (Turn.sync_unseen _)).displays_refresh
    (by rw [Turn.sync_action]; rfl) (by rw [Turn.sync_action]; rfl)
  refine (h.blank unknown timing link).turn ?_ displays.shows
  rw [Turn.start_eq, Turn.refresh_action, Turn.sync_action]
  rfl

end Told

end ControlDeck
