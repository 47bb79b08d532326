import ControlDeck.Proofs.Agreement

namespace ControlDeck.Link

/-- The requests that a call makes to the server. Commands for roles do not take the connection. -/
def Call.requests (l : Link) : Call → List Request
  | subscribe name receiver =>
    if (l.subscriptions.subscribe name receiver).2.1 = .send then [.subscribe name] else []
  | unsubscribe name receiver => (l.subscriptions.unsubscribe name receiver).2.map .unsubscribe
  | remove receiver => (l.subscriptions.remove receiver).2.map .unsubscribe
  | send c =>
    match c.control with
    | .role _ => []
    | .trigger _ => [.command c]
  | newReceiver | closeReceiver _ | close => []

def Move.requests (l : Link) : Move → List Request
  | call c => c.requests l
  | step _ => []

/-- All that is still to be written. -/
def toWrite (l : Link) : List Request :=
  l.unwritten.map .subscribe ++ l.outbox

/-- A link with what has happened on its connections, which are numbered from one. What happened
without a connection has no number. -/
structure Journal where
  link : Link
  /-- How many connections have been marked so far. -/
  connections : Nat := 0
  /-- The subscriptions that were desired when a connection was marked. -/
  desired : List (Option Nat × Request) := []
  /-- The requests that were made. -/
  made : List (Option Nat × Request) := []
  /-- The requests that were written. -/
  written : List (Option Nat × Request) := []

/-- The part of a record that is about one connection. -/
def on (connection : Option Nat) (entries : List (Option Nat × Request)) : List Request :=
  (entries.filter (·.1 = connection)).map (·.2)

namespace Journal

/-- The connection that is marked. -/
def current (j : Journal) : Option Nat :=
  if j.link.subscriptions.connected then some j.connections else none

/-- A connection is marked where there was none. -/
def Begins (l l' : Link) : Prop :=
  l.subscriptions.connected = false ∧ l'.subscriptions.connected = true

instance (l l' : Link) : Decidable (Begins l l') :=
  inferInstanceAs (Decidable (_ ∧ _))

def after (j : Journal) (made : List Request) (link : Link) (events : List LinkEvent) :
    Journal where
  link
  connections := if Begins j.link link then j.connections + 1 else j.connections
  desired := j.desired ++
    (if Begins j.link link then link.subscriptions.desired.map .subscribe else []).map
      (some (j.connections + 1), ·)
  made := j.made ++ made.map (j.current, ·)
  written := j.written ++ (events.filterMap LinkEvent.wrote?).map (j.current, ·)

def step (j : Journal) (move : Move) : Journal :=
  j.after (move.requests j.link) (move.apply j.link).1 (move.apply j.link).2

def run (j : Journal) (moves : List Move) : Journal :=
  moves.foldl step j

end Journal

/-- What a move makes of what is to be written, and what is written by it. -/
inductive Outcome (l : Link) (made : List Request) (l' : Link) : List LinkEvent → Prop where
  /-- If the connection is there, it was there before, and the requests are to be written on it. -/
  | kept {events : List LinkEvent}
      (stays : l'.subscriptions.connected →
        l.subscriptions.connected ∧ l'.toWrite = l.toWrite ++ made)
      (silent : events.filterMap LinkEvent.wrote? = []) : Outcome l made l' events
  | wrote {r : Request} (connected : l.subscriptions.connected)
      (toWrite : l.toWrite = r :: l'.toWrite) (none : made = []) : Outcome l made l' [.wrote r]
  | began {events : List LinkEvent} (connected : l.subscriptions.connected = false)
      (connected' : l'.subscriptions.connected)
      (toWrite : l'.toWrite = l'.subscriptions.desired.map .subscribe)
      (silent : events.filterMap LinkEvent.wrote? = []) (none : made = []) :
      Outcome l made l' events

/-- A change that is not about what is to be written. -/
theorem Outcome.beside {l l' : Link} {events : List LinkEvent}
    (connected : l'.subscriptions.connected = l.subscriptions.connected)
    (toWrite : l'.toWrite = l.toWrite) (silent : events.filterMap LinkEvent.wrote? = []) :
    Outcome l [] l' events :=
  .kept (fun marked => ⟨connected.symm.trans marked, toWrite.trans (List.append_nil _).symm⟩) silent

/-- The connection is not there any more. -/
theorem Outcome.lost {l l' : Link} {events : List LinkEvent}
    (connected : l'.subscriptions.connected = false)
    (silent : events.filterMap LinkEvent.wrote? = []) : Outcome l [] l' events :=
  .kept (fun marked => (Bool.false_ne_true (connected.symm.trans marked)).elim) silent

theorem Outcome.same (l : Link) : Outcome l [] l [] :=
  .beside rfl rfl rfl

theorem leave_silent (phase : LinkPhase) (l : Link) :
    (l.leave phase).2.filterMap LinkEvent.wrote? = [] := by
  rw [leave]
  cases l.phase <;> rfl

theorem fail_silent (now : Nat) (fault : LinkFault) (l : Link) :
    (l.fail now fault).2.filterMap LinkEvent.wrote? = [] := by
  rw [fail, List.filterMap_append, leave_silent]
  rfl

theorem run_silent (now : Nat) (l : Link) : (l.run now).2.filterMap LinkEvent.wrote? = [] := by
  cases phase : l.phase with
  | opening | live | ended => simp [run, phase]
  | resting due => by_cases late : due ≤ now <;> simp [run, phase, late]
  | offered due | greeting due =>
    by_cases late : due ≤ now
    · have failed : (l.run now).2 = (l.fail now (.timeout l.settings.connectTimeoutMs)).2 := by
        rw [run, phase]
        simp only [late, if_true]
        split <;> rfl
      rw [failed, fail_silent]
    · simp [run, phase, late]

theorem outcome_fail (now : Nat) (fault : LinkFault) (l : Link) :
    Outcome l [] (l.fail now fault).1 (l.fail now fault).2 :=
  .lost rfl (l.fail_silent now fault)

theorem outcome_greet {l : Link} (connected : l.subscriptions.connected = false) (now : Nat)
    (line : List Char) : Outcome l [] (l.greet now line).1 (l.greet now line).2 := by
  rw [greet]
  split
  · exact .began connected rfl (List.append_nil _) rfl rfl
  · exact l.outcome_fail now _

theorem outcome_hear (line : List Char) (l : Link) :
    Outcome l [] (l.hear line).1 (l.hear line).2 := by
  rw [hear]
  split
  · exact .same l
  · split
    · exact .beside rfl rfl rfl
    · rename_i line _
      cases published : l.subscriptions.publish line with
      | none => exact .same l
      | some result =>
        obtain ⟨s, ds⟩ := result
        obtain ⟨-, -, rfl, -⟩ := Subscriptions.publish_eq_some.1 published
        exact .beside rfl rfl (Exchange.silent_delivered ds)

theorem outcome_write {l l' : Link} {event : LinkEvent}
    (connected : l.subscriptions.connected = l.isOpen) (writes : l.writeNext = some (l', event)) :
    Outcome l [] l' [event] := by
  rcases writeNext_cases writes with
    ⟨name, names, phase, rfl, rfl⟩ | ⟨phase, rfl, rfl⟩ | ⟨r, rest, phase, outbox, rfl, rfl⟩
  · have marked : l.subscriptions.connected := by rw [connected, isOpen, phase]
    exact .wrote marked (by simp [toWrite, unwritten, phase]) rfl
  · exact .beside rfl (by simp [toWrite, unwritten, phase]) rfl
  · have marked : l.subscriptions.connected := by rw [connected, isOpen, phase]
    exact .wrote marked (by simp [toWrite, unwritten, phase, outbox]) rfl

theorem Step.outcome {l : Link} (connected : l.subscriptions.connected = l.isOpen) (s : Step) :
    Outcome l [] (s.apply l).1 (s.apply l).2 := by
  cases s with
  | accept =>
    rw [Step.apply, Link.accept]
    split
    · rename_i due phase
      exact .beside rfl (by simp [toWrite, unwritten, phase]) rfl
    · exact .same l
  | hangUp now =>
    rw [Step.apply, Link.hangUp]
    split
    case h_4 => exact .same l
    all_goals exact l.outcome_fail now _
  | receiveLine now line =>
    rw [Step.apply, Link.receiveLine]
    split
    · rename_i phase _
      exact outcome_greet (connected.trans (by rw [isOpen, phase])) now _
    · exact l.outcome_hear _
    · exact l.outcome_hear _
    · exact l.outcome_fail now _
    · exact l.outcome_fail now _
    · exact l.outcome_fail now _
    · exact .same l
  | write =>
    rw [Step.apply]
    cases writes : l.writeNext with
    | none => exact .same l
    | some written => exact outcome_write connected writes
  | writeAsides =>
    have silent : (l.asides.map LinkEvent.wroteAside).filterMap LinkEvent.wrote? = [] := by
      simp [LinkEvent.wrote?]
    exact .beside rfl rfl silent
  | run now =>
    rw [Step.apply]
    cases opened : l.isOpen with
    | true =>
      rw [run_open opened]
      exact .same l
    | false =>
      have shut := (run_shut opened now).2 (connected.trans opened)
      exact .lost shut (l.run_silent now)
  | finish =>
    rw [Step.apply]
    split
    · exact .lost rfl (l.leave_silent .ended)
    · exact .same l

theorem outcome_leave (q : String → Bool) (receiver : Nat) (l : Link) :
    let left := l.subscriptions.leave (fun e => q e.key) receiver
    Outcome l (left.2.map .unsubscribe)
      ({ l with subscriptions := left.1 }.requestAll (left.2.map .unsubscribe)) [] :=
  .kept (fun marked => ⟨marked, (List.append_assoc ..).symm⟩) rfl

theorem outcome_send (c : Command) (l : Link) :
    Outcome l ((Call.send c).requests l) (l.send c).1 (l.send c).2 := by
  rw [Call.requests, send]
  cases c.control with
  | role => exact .beside rfl rfl rfl
  | trigger =>
    cases connected : l.subscriptions.connected with
    | true => exact .kept (fun marked => ⟨marked, (List.append_assoc ..).symm⟩) rfl
    | false =>
      -- the command is dropped, as there is no connection
      exact .kept (fun marked => (Bool.false_ne_true (connected.symm.trans marked)).elim) rfl

theorem Call.outcome (c : Call) (l : Link) :
    Outcome l (c.requests l) (c.apply l).1 (c.apply l).2 := by
  cases c with
  | newReceiver | closeReceiver | close => exact .beside rfl rfl rfl
  | subscribe name receiver =>
    rw [Call.apply, subscribe_eq]
    have connected := l.subscriptions.subscribe_connected name receiver
    exact .kept (fun marked => ⟨connected.symm.trans marked, (List.append_assoc ..).symm⟩)
      (Exchange.silent_delivered _)
  | unsubscribe name receiver =>
    exact l.outcome_leave (fun key => decide (key = Text.lowercase name)) receiver
  | remove receiver => exact l.outcome_leave (fun _ => true) receiver
  | send c => exact l.outcome_send c

theorem Move.outcome {l : Link} (connected : l.subscriptions.connected = l.isOpen) (move : Move) :
    Outcome l (move.requests l) (move.apply l).1 (move.apply l).2 := by
  cases move with
  | call c => exact c.outcome l
  | step s => exact s.outcome connected

theorem toWrite_eq_nil {l : Link} (opened : l.isOpen) (idle : l.writeNext = none) :
    l.toWrite = [] := by
  cases phase : l.phase with
  | opening names => cases names <;> simp [writeNext, phase] at idle
  | live =>
    cases outbox : l.outbox with
    | nil => rw [toWrite, unwritten, phase, outbox]; rfl
    | cons => simp [writeNext, phase, outbox] at idle
  | offered | greeting | resting | ended => simp [isOpen, phase] at opened

theorem backlog_of_writeNext {l l' : Link} {event : LinkEvent}
    (writes : l.writeNext = some (l', event)) : l.backlog = l'.backlog + 1 := by
  rcases writeNext_cases writes with
    ⟨name, names, phase, rfl, -⟩ | ⟨phase, rfl, -⟩ | ⟨r, rest, phase, outbox, rfl, -⟩
  · simp only [backlog, phase, List.length_cons]
    omega
  · simp only [backlog, phase, List.length_nil]
    omega
  · simp only [backlog, phase, outbox, List.length_cons]

theorem writeUpTo_idle {n : Nat} {l : Link} (enough : l.backlog ≤ n) :
    (l.writeUpTo n).1.writeNext = none := by
  induction n generalizing l with
  | zero =>
    cases writes : l.writeNext with
    | none => exact writes
    | some written =>
      have more := backlog_of_writeNext writes
      omega
  | succ n ih =>
    rw [writeUpTo]
    cases writes : l.writeNext with
    | none => exact writes
    | some written =>
      have more := backlog_of_writeNext writes
      exact ih (by omega)

theorem Call.outbox_eq {l : Link} (connected : l.subscriptions.connected = false) (c : Call) :
    (c.apply l).1.outbox = l.outbox := by
  cases c with
  | newReceiver | closeReceiver | close => rfl
  | subscribe name receiver =>
    have deferred : (l.subscriptions.subscribe name receiver).2.1 ≠ .send := by
      simp only [Subscriptions.subscribe, connected]
      split
      · simp
      · split <;> simp
    rw [Call.apply, subscribe_eq, if_neg deferred, List.append_nil]
  | unsubscribe | remove =>
    simp [Call.apply, Link.unsubscribe, Link.remove, requestAll, Subscriptions.unsubscribe,
      Subscriptions.remove, Subscriptions.leave, connected]
  | send c =>
    rw [Call.apply, Link.send, connected]
    split <;> rfl

section On

variable {k : Option Nat} {es es' : List (Option Nat × Request)} {rs : List Request}

@[simp] theorem on_nil : on k [] = [] := rfl

@[simp] theorem on_append : on k (es ++ es') = on k es ++ on k es' := by
  rw [on, List.filter_append, List.map_append]
  rfl

@[simp] theorem on_map (k' : Option Nat) : on k (rs.map (k', ·)) = if k' = k then rs else [] := by
  by_cases same : k' = k
  · rw [on, List.filter_eq_self.2 (by simp [same]), List.map_map, if_pos same]
    exact List.map_id rs
  · rw [on, List.filter_eq_nil_iff.2 (by simp [same]), if_neg same]
    rfl

end On

namespace Journal

/-- Records agree with the link: what is written on a connection, and still is to be, is what was
desired and then what was made. -/
structure Agrees (j : Journal) : Prop where
  link : ∃ written, Exchange.Agrees ⟨j.link, written⟩
  unmarked : on none j.written = []
  before : ∀ k, on (some k) j.written <+: on (some k) j.desired ++ on (some k) j.made
  now : j.link.subscriptions.connected →
    on (some j.connections) j.written ++ j.link.toWrite =
      on (some j.connections) j.desired ++ on (some j.connections) j.made
  later : ∀ k, j.connections < k →
    on (some k) j.desired = [] ∧ on (some k) j.made = [] ∧ on (some k) j.written = []

theorem Agrees.start (settings : ConnectionSettings) : Agrees { link := .ofSettings settings } where
  link := ⟨[], .start settings⟩
  unmarked := rfl
  before := fun _ => List.prefix_rfl
  now := nofun
  later := fun _ _ => ⟨rfl, rfl, rfl⟩

theorem current_of_connected {j : Journal} (h : j.link.subscriptions.connected) :
    j.current = some j.connections := if_pos h

theorem current_ne {j : Journal} {k : Nat} (h : j.connections < k) : j.current ≠ some k := by
  rw [current]
  split
  · intro same
    exact absurd (Option.some.inj same) (Nat.ne_of_lt h)
  · exact nofun

variable {j : Journal} {l : Link} {events : List LinkEvent} {made : List Request}

theorem Agrees.kept (h : j.Agrees) (link : ∃ written, Exchange.Agrees ⟨l, written⟩)
    (stays : l.subscriptions.connected →
      j.link.subscriptions.connected ∧ l.toWrite = j.link.toWrite ++ made)
    (silent : events.filterMap LinkEvent.wrote? = []) : (j.after made l events).Agrees := by
  have same : ¬Begins j.link l := by
    rintro ⟨old, new⟩
    exact Bool.false_ne_true (old.symm.trans (stays new).1)
  simp only [after, if_neg same, silent, List.map_nil, List.append_nil]
  refine ⟨link, h.unmarked, ?_, ?_, ?_⟩
  · intro k
    rw [on_append, ← List.append_assoc]
    exact (h.before k).trans (List.prefix_append ..)
  · intro marked
    obtain ⟨marked', toWrite⟩ := stays marked
    rw [toWrite, on_append, on_map, current_of_connected marked', if_pos rfl,
      ← List.append_assoc, ← List.append_assoc, h.now marked']
  · intro k above
    have elsewhere : j.current ≠ some k := current_ne above
    rw [on_append, on_map, if_neg elsewhere, List.append_nil]
    exact h.later k above

theorem Agrees.wrote {r : Request} (h : j.Agrees)
    (link : ∃ written, Exchange.Agrees ⟨l, written⟩) (connected : j.link.subscriptions.connected)
    (toWrite : j.link.toWrite = r :: l.toWrite) : (j.after [] l [.wrote r]).Agrees := by
  have same : ¬Begins j.link l := by
    rintro ⟨old, -⟩
    exact Bool.false_ne_true (old.symm.trans connected)
  have one : [LinkEvent.wrote r].filterMap LinkEvent.wrote? = [r] := rfl
  have now := h.now connected
  rw [toWrite, List.append_cons] at now
  simp only [after, if_neg same, one, current_of_connected connected, List.map_nil,
    List.append_nil]
  refine ⟨link, ?_, ?_, ?_, ?_⟩
  · rw [on_append, on_map, if_neg nofun, h.unmarked]
    rfl
  · intro k
    rw [on_append, on_map]
    split
    · rename_i current
      rw [← Option.some.inj current, ← now]
      exact List.prefix_append ..
    · rw [List.append_nil]
      exact h.before k
  · intro _
    rw [on_append, on_map, if_pos rfl, now]
  · intro k above
    have elsewhere : some j.connections ≠ some k := by simpa using Nat.ne_of_lt above
    rw [on_append, on_map, if_neg elsewhere, List.append_nil]
    exact h.later k above

theorem Agrees.began (h : j.Agrees) (link : ∃ written, Exchange.Agrees ⟨l, written⟩)
    (connected : j.link.subscriptions.connected = false) (connected' : l.subscriptions.connected)
    (toWrite : l.toWrite = l.subscriptions.desired.map .subscribe)
    (silent : events.filterMap LinkEvent.wrote? = []) : (j.after [] l events).Agrees := by
  have begins : Begins j.link l := ⟨connected, connected'⟩
  obtain ⟨desired, old, written⟩ := h.later (j.connections + 1) (Nat.lt_succ_self _)
  simp only [after, if_pos begins, silent, List.map_nil, List.append_nil]
  refine ⟨link, h.unmarked, ?_, ?_, ?_⟩
  · intro k
    rw [on_append, on_map]
    split
    · rename_i new
      rw [← Option.some.inj new, written]
      exact List.nil_prefix
    · rw [List.append_nil]
      exact h.before k
  · intro _
    rw [on_append, on_map, if_pos rfl, desired, old, written, toWrite, List.append_nil]
  · intro k above
    have elsewhere : some (j.connections + 1) ≠ some k := by simpa using Nat.ne_of_lt above
    rw [on_append, on_map, if_neg elsewhere, List.append_nil]
    exact h.later k (Nat.lt_of_succ_lt above)

theorem Agrees.step (h : j.Agrees) (move : Move) : (j.step move).Agrees := by
  obtain ⟨written, agrees⟩ := h.link
  have link : ∃ written, Exchange.Agrees ⟨(move.apply j.link).1, written⟩ := by
    cases move with
    | call c => exact ⟨_, agrees.call c⟩
    | step s => exact ⟨_, agrees.step s⟩
  have outcome := move.outcome agrees.connected
  rw [Journal.step]
  generalize move.requests j.link = made at outcome ⊢
  generalize (move.apply j.link).1 = l at outcome link ⊢
  generalize (move.apply j.link).2 = events at outcome ⊢
  cases outcome with
  | kept stays silent => exact h.kept link stays silent
  | wrote connected toWrite none =>
    subst none
    exact h.wrote link connected toWrite
  | began connected connected' toWrite silent none =>
    subst none
    exact h.began link connected connected' toWrite silent

theorem Agrees.run (h : j.Agrees) (moves : List Move) : (j.run moves).Agrees := by
  induction moves generalizing j with
  | nil => exact h
  | cons move moves ih => exact ih (h.step move)

/-- On each connection the subscriptions that were desired when it was marked are written, and then
what has been asked for since, in order; nothing is written on any other connection than the one
that was marked when it was asked for. Nothing that is asked for without a connection is kept to be
written, and on a connection that lasts everything is written in the end. -/
theorem run_inOrder (settings : ConnectionSettings) (moves : List Move) {j : Journal}
    (h : run { link := .ofSettings settings } moves = j) :
    (∀ k, on (some k) j.written <+: on (some k) j.desired ++ on (some k) j.made) ∧
      on none j.written = [] ∧
      (j.link.subscriptions.connected = false →
        ∀ c : Call, (c.apply j.link).1.outbox = j.link.outbox) ∧
      (j.link.subscriptions.connected → j.link.writeNext = none →
        on j.current j.written = on j.current j.desired ++ on j.current j.made) ∧
      j.link.writeAll.1.writeNext = none := by
  have agrees : j.Agrees := h ▸ (Agrees.start settings).run moves
  refine ⟨agrees.before, agrees.unmarked, Call.outbox_eq, ?_, writeUpTo_idle (Nat.le_refl _)⟩
  intro connected idle
  obtain ⟨written, link⟩ := agrees.link
  have none : j.link.toWrite = [] := toWrite_eq_nil (link.connected.symm.trans connected) idle
  have now := agrees.now connected
  rw [none, List.append_nil] at now
  rw [current_of_connected connected, now]

/-- A command is still to be written when its connection is lost, one is given while there is none,
and a property is asked for while the next connection begins. -/
def reconnection : List Move :=
  [.step .accept, .step (.receiveLine 0 [83]), .call (.subscribe "Gear" 1), .step .write,
    .step .write, .call (.send (.press (.trigger "horn"))), .step (.hangUp 1),
    .call (.send (.release (.trigger "horn"))), .step (.run 3), .step .accept,
    .step (.receiveLine 3 [83]), .call (.subscribe "Lap" 1), .step .write, .step .write,
    .call (.send (.press (.trigger "flash"))), .step .write, .step .write]

def reconnected : Journal :=
  run { link := .ofSettings { bannerStart := "S", reconnectDelayMs := 2 } } reconnection

theorem run_inOrder_reconnection :
    reconnected.link.subscriptions.connected ∧ reconnected.link.writeNext.isNone ∧
      on (some 1) reconnected.written <+:
        [.subscribe "Gear", .command (.press (.trigger "horn"))] ∧
      on (some 2) reconnected.written =
        [.subscribe "Gear", .subscribe "Lap", .command (.press (.trigger "flash"))] := by
  have connected : reconnected.link.subscriptions.connected := by decide +kernel
  have idle : reconnected.link.writeNext.isNone := by decide +kernel
  have second : reconnected.current = some 2 := by decide +kernel
  have due : on (some 1) reconnected.desired ++ on (some 1) reconnected.made =
      [.subscribe "Gear", .command (.press (.trigger "horn"))] := by
    decide +kernel
  have due' : on (some 2) reconnected.desired ++ on (some 2) reconnected.made =
      [.subscribe "Gear", .subscribe "Lap", .command (.press (.trigger "flash"))] := by
    decide +kernel
  obtain ⟨inOrder, -, -, all, -⟩ :=
    run_inOrder { bannerStart := "S", reconnectDelayMs := 2 } reconnection (j := reconnected) rfl
  have written := all connected (Option.isNone_iff_eq_none.1 idle)
  rw [second, due'] at written
  exact ⟨connected, idle, due ▸ inOrder 1, written⟩

end Journal

end ControlDeck.Link
