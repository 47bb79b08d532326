import ControlDeck.Proofs.Moves
import ControlDeck.Proofs.Registry

namespace ControlDeck

/-- What the server has subscriptions for once it has read a request. It may be asked neither for a
property that it knows in some spelling, nor to give up a name that it does not know. -/
def Request.apply (known : List String) : Request → Option (List String)
  | subscribe name =>
    if Text.lowercase name ∈ known.map Text.lowercase then none else some (known ++ [name])
  | unsubscribe name => if name ∈ known then some (known.filter (· ≠ name)) else none
  | command _ => some known

def Request.applyAll (known : List String) (requests : List Request) : Option (List String) :=
  requests.foldlM apply known

namespace Request

@[simp] theorem applyAll_nil (known : List String) : applyAll known [] = some known := rfl

theorem applyAll_cons (known : List String) (r : Request) (rs : List Request) :
    applyAll known (r :: rs) = (r.apply known).bind fun known => applyAll known rs := rfl

theorem applyAll_append (known : List String) (rs rs' : List Request) :
    applyAll known (rs ++ rs') = (applyAll known rs).bind fun known => applyAll known rs' :=
  List.foldlM_append

theorem applyAll_subscribe (known names : List String)
    (h : ((known ++ names).map Text.lowercase).Nodup) :
    applyAll known (names.map .subscribe) = some (known ++ names) := by
  induction names generalizing known with
  | nil => rw [List.append_nil, List.map_nil, applyAll_nil]
  | cons name names ih =>
    have fresh : Text.lowercase name ∉ known.map Text.lowercase := by
      rw [List.map_append, List.nodup_append] at h
      intro hm
      exact h.2.2 _ hm _ (List.mem_map_of_mem List.mem_cons_self) rfl
    rw [List.append_cons] at h ⊢
    rw [List.map_cons, applyAll_cons, apply, if_neg fresh, Option.bind_some, ih _ h]

theorem applyAll_unsubscribe {α : Type} (name : α → String) (p : α → Bool) (known : List String)
    (items : List α) (h : (known ++ items.map name).Nodup) :
    applyAll (known ++ items.map name) (((items.filter p).map name).map .unsubscribe) =
      some (known ++ (items.filter (!p ·)).map name) := by
  induction items generalizing known with
  | nil => rfl
  | cons item items ih =>
    cases hp : p item with
    | false =>
      rw [List.filter_cons_of_neg (by simp [hp]), List.filter_cons_of_pos (by simp [hp])]
      rw [List.map_cons, List.append_cons] at h
      rw [List.map_cons, List.map_cons, List.append_cons, ih _ h, List.append_assoc,
        List.singleton_append]
    | true =>
      rw [List.filter_cons_of_pos hp, List.filter_cons_of_neg (by simp [hp])]
      have rest : (known ++ name item :: items.map name).filter (· ≠ name item) =
          known ++ items.map name := by
        rw [List.map_cons, List.nodup_append] at h
        obtain ⟨-, hi, apart⟩ := h
        rw [List.filter_append, List.filter_cons_of_neg (by simp), List.filter_eq_self.2,
          List.filter_eq_self.2]
        · intro a ha
          exact decide_eq_true fun he => (List.nodup_cons.1 hi).1 (he ▸ ha)
        · intro a ha
          exact decide_eq_true (apart a ha _ List.mem_cons_self)
      rw [List.map_cons, List.map_cons, List.map_cons, applyAll_cons, apply, if_pos (by simp), rest,
        Option.bind_some]
      exact ih _ (h.sublist (by simp))

end Request

namespace Subscriptions

theorem applyAll_desired {s : Subscriptions} (h : s.Sound) :
    Request.applyAll [] (s.desired.map .subscribe) = some s.desired :=
  Request.applyAll_subscribe [] s.desired h.desired_nodup

theorem applyAll_joining {s : Subscriptions} (h : s.Sound) (name : String) (receiver : Nat)
    (hc : s.connected) :
    Request.applyAll s.desired
        (if (s.subscribe name receiver).2.1 = .send then [.subscribe name] else []) =
      some (s.subscribe name receiver).1.desired := by
  cases hf : s.find? name with
  | none =>
    have sound := h.subscribe name receiver
    rw [subscribe_new hf] at sound ⊢
    have nodup := sound.desired_nodup
    rw [hc, if_pos rfl, if_pos rfl, desired, desired, List.map_append, List.map_singleton]
    rw [desired, List.map_append, List.map_singleton] at nodup
    exact Request.applyAll_subscribe _ [name] nodup
  | some e =>
    by_cases hr : receiver ∈ e.receivers
    · rw [subscribe_already hf hr]
      rfl
    · rw [subscribe_join hf hr, modify_desired]
      · rfl
      · exact fun _ => rfl

theorem applyAll_leave {s : Subscriptions} (h : s.Sound) (q : String → Bool) (receiver : Nat)
    (hc : s.connected) :
    Request.applyAll s.desired ((s.leave (fun e => q e.key) receiver).2.map .unsubscribe) =
      some (s.leave (fun e => q e.key) receiver).1.desired := by
  have names : s.desired = (s.entries.map (·.without q receiver)).map (·.name) := by
    rw [desired, List.map_map]
    exact (List.map_congr_left fun e _ => e.without_name q receiver).symm
  have nodup := h.desired_nodup.of_map
  rw [leave_eq, hc, if_pos rfl, desired, names] at *
  exact Request.applyAll_unsubscribe (fun e : Subscription => e.name) (·.receivers.isEmpty) [] _
    nodup

end Subscriptions

def LinkEvent.wrote? : LinkEvent → Option Request
  | wrote r => some r
  | _ => none

/-- A link and what has been written to the server over the connection that is open. -/
structure Exchange where
  link : Link
  written : List Request := []

namespace Exchange

def after (x : Exchange) (link : Link) (events : List LinkEvent) : Exchange :=
  ⟨link, if link.isOpen then x.written ++ events.filterMap LinkEvent.wrote? else []⟩

def step (x : Exchange) (move : Link.Move) : Exchange :=
  x.after (move.apply x.link).1 (move.apply x.link).2

def run (x : Exchange) (moves : List Link.Move) : Exchange :=
  moves.foldl step x

/-- What has been written, and then is to be, leaves the server with just the subscriptions that are
desired. -/
structure Agrees (x : Exchange) : Prop where
  sound : x.link.subscriptions.Sound
  connected : x.link.subscriptions.connected = x.link.isOpen
  closed : x.link.isOpen = false → x.written = []
  known : x.link.isOpen → Request.applyAll []
    (x.written ++ x.link.unwritten.map .subscribe ++ x.link.outbox) =
      some x.link.subscriptions.desired

theorem Agrees.start (settings : ConnectionSettings) : Agrees ⟨.ofSettings settings, []⟩ :=
  ⟨Subscriptions.sound_empty, rfl, fun _ => rfl, nofun⟩

theorem after_open {l : Link} (h : l.isOpen) (x : Exchange) (events : List LinkEvent) :
    x.after l events = ⟨l, x.written ++ events.filterMap LinkEvent.wrote?⟩ := by
  rw [after, if_pos h]

theorem after_closed {l : Link} (h : l.isOpen = false) (x : Exchange) (events : List LinkEvent) :
    x.after l events = ⟨l, []⟩ := by
  rw [after, if_neg (by simp [h])]

theorem Agrees.shut {x : Exchange} {l : Link} (sound : l.subscriptions.Sound)
    (connected : l.subscriptions.connected = false) (shut : l.isOpen = false)
    (events : List LinkEvent) : (x.after l events).Agrees := by
  rw [after_closed shut]
  refine ⟨sound, connected.trans shut.symm, fun _ => rfl, ?_⟩
  intro open_
  exact absurd (shut.symm.trans open_) Bool.false_ne_true

/-- A change of the registry, with the requests that it asks for. -/
theorem Agrees.request {x : Exchange} (h : x.Agrees) {l : Link} (rs : List Request)
    {events : List LinkEvent} (phase : l.phase = x.link.phase)
    (outbox : l.outbox = x.link.outbox ++ rs)
    (sound : l.subscriptions.Sound)
    (connected : l.subscriptions.connected = x.link.subscriptions.connected)
    (desired : x.link.subscriptions.connected →
      Request.applyAll x.link.subscriptions.desired rs = some l.subscriptions.desired)
    (silent : events.filterMap LinkEvent.wrote? = []) : (x.after l events).Agrees := by
  have same : l.isOpen = x.link.isOpen := by rw [Link.isOpen, Link.isOpen, phase]
  have conn : l.subscriptions.connected = l.isOpen := by rw [connected, h.connected, same]
  cases ho : l.isOpen with
  | false => exact .shut sound (conn.trans ho) ho events
  | true =>
    rw [after_open ho, silent, List.append_nil]
    refine ⟨sound, conn, ?_, ?_⟩
    · intro shut
      exact absurd (ho.symm.trans shut) (by decide)
    · intro _
      have unwritten : l.unwritten = x.link.unwritten := by
        rw [Link.unwritten, Link.unwritten, phase]
      have open_ : x.link.isOpen := same.symm.trans ho
      simp only [outbox, unwritten]
      rw [← List.append_assoc, Request.applyAll_append, h.known open_]
      exact desired (h.connected.trans open_)

theorem Agrees.same {x : Exchange} (h : x.Agrees) {l : Link} {events : List LinkEvent}
    (phase : l.phase = x.link.phase) (outbox : l.outbox = x.link.outbox)
    (sound : l.subscriptions.Sound)
    (connected : l.subscriptions.connected = x.link.subscriptions.connected)
    (desired : l.subscriptions.desired = x.link.subscriptions.desired)
    (silent : events.filterMap LinkEvent.wrote? = []) : (x.after l events).Agrees :=
  h.request [] phase (outbox.trans (List.append_nil _).symm) sound connected
    (fun _ => congrArg some desired.symm) silent

theorem silent_delivered (ds : List Delivery) :
    (ds.map LinkEvent.delivered).filterMap LinkEvent.wrote? = [] := by
  simp [LinkEvent.wrote?]

theorem Agrees.subscribe {x : Exchange} (h : x.Agrees) (name : String) (receiver : Nat) :
    (x.after (x.link.subscribe name receiver).1 (x.link.subscribe name receiver).2).Agrees := by
  rw [Link.subscribe_eq]
  exact h.request _ rfl rfl (h.sound.subscribe name receiver)
    (x.link.subscriptions.subscribe_connected name receiver)
    (Subscriptions.applyAll_joining h.sound name receiver) (silent_delivered _)

theorem Agrees.leave {x : Exchange} (h : x.Agrees) (q : String → Bool) (receiver : Nat) :
    let left := x.link.subscriptions.leave (fun e => q e.key) receiver
    (x.after ({ x.link with subscriptions := left.1 }.requestAll (left.2.map .unsubscribe))
      []).Agrees :=
  h.request _ rfl rfl (h.sound.leave q receiver) rfl
    (Subscriptions.applyAll_leave h.sound q receiver) rfl

theorem Agrees.send {x : Exchange} (h : x.Agrees) (c : Command) :
    (x.after (x.link.send c).1 (x.link.send c).2).Agrees := by
  rw [Link.send]
  split
  · exact h.same rfl rfl h.sound rfl rfl rfl
  · split
    · exact h.request [.command c] rfl rfl h.sound rfl (fun _ => rfl) rfl
    · exact h.same rfl rfl h.sound rfl rfl rfl

theorem Agrees.hear {x : Exchange} (h : x.Agrees) (line : List Char) :
    (x.after (x.link.hear line).1 (x.link.hear line).2).Agrees := by
  rw [Link.hear]
  split
  · exact h.same rfl rfl h.sound rfl rfl rfl
  · split
    · exact h.same rfl rfl h.sound rfl rfl rfl
    · rename_i line _
      cases hp : x.link.subscriptions.publish line with
      | none => exact h.same rfl rfl h.sound rfl rfl rfl
      | some published =>
        obtain ⟨s, ds⟩ := published
        have sound := h.sound.publish hp
        obtain ⟨-, -, rfl, -⟩ := Subscriptions.publish_eq_some.1 hp
        exact h.same rfl rfl sound rfl (Subscriptions.modify_desired _ _ fun _ => rfl)
          (silent_delivered ds)

theorem Agrees.drop {x : Exchange} (h : x.Agrees) {phase : LinkPhase}
    (shut : ({ x.link with phase } : Link).isOpen = false) (events : List LinkEvent) :
    (x.after (x.link.leave phase).1 events).Agrees :=
  .shut (l := (x.link.leave phase).1) (h.sound.of_entries rfl) rfl shut events

theorem Agrees.fail {x : Exchange} (h : x.Agrees) (now : Nat) (fault : LinkFault) :
    (x.after (x.link.fail now fault).1 (x.link.fail now fault).2).Agrees :=
  h.drop rfl _

theorem Agrees.greet {x : Exchange} (h : x.Agrees) (shut : x.link.isOpen = false) (now : Nat)
    (line : List Char) : (x.after (x.link.greet now line).1 (x.link.greet now line).2).Agrees := by
  rw [Link.greet]
  split
  · rw [after_open rfl, h.closed shut]
    refine ⟨h.sound.of_entries rfl, rfl, fun shut => (Bool.false_ne_true shut.symm).elim, ?_⟩
    intro _
    rw [List.append_nil]
    exact Subscriptions.applyAll_desired h.sound
  · exact h.fail now _

theorem Agrees.receiveLine {x : Exchange} (h : x.Agrees) (now : Nat) (line : List UInt8) :
    (x.after (x.link.receiveLine now line).1 (x.link.receiveLine now line).2).Agrees := by
  rw [Link.receiveLine]
  split
  · rename_i phase _
    exact h.greet (by rw [Link.isOpen, phase]) now _
  · exact h.hear _
  · exact h.hear _
  · exact h.fail now _
  · exact h.fail now _
  · exact h.fail now _
  · exact h.same rfl rfl h.sound rfl rfl rfl

theorem Agrees.accept {x : Exchange} (h : x.Agrees) :
    (x.after x.link.accept []).Agrees := by
  rw [Link.accept]
  split
  · rename_i due phase
    have shut : x.link.isOpen = false := by rw [Link.isOpen, phase]
    exact .shut (l := { x.link with phase := .greeting due }) h.sound (h.connected.trans shut) rfl _
  · exact h.same rfl rfl h.sound rfl rfl rfl

theorem Agrees.hangUp {x : Exchange} (h : x.Agrees) (now : Nat) :
    (x.after (x.link.hangUp now).1 (x.link.hangUp now).2).Agrees := by
  rw [Link.hangUp]
  split
  · exact h.fail now _
  · exact h.fail now _
  · exact h.fail now _
  · exact h.same rfl rfl h.sound rfl rfl rfl

theorem Agrees.write {x : Exchange} (h : x.Agrees) {l : Link} {event : LinkEvent}
    (hw : x.link.writeNext = some (l, event)) : (x.after l [event]).Agrees := by
  rcases Link.writeNext_cases hw with
    ⟨name, names, phase, rfl, rfl⟩ | ⟨phase, rfl, rfl⟩ | ⟨r, rest, phase, outbox, rfl, rfl⟩
  · have known := h.known (by rw [Link.isOpen, phase])
    rw [after_open rfl]
    refine ⟨h.sound, h.connected.trans (by rw [Link.isOpen, phase]; rfl),
      fun shut => (Bool.false_ne_true shut.symm).elim, ?_⟩
    intro _
    rw [Link.unwritten, phase] at known
    simpa [Link.unwritten, LinkEvent.wrote?] using known
  · have known := h.known (by rw [Link.isOpen, phase])
    rw [after_open rfl]
    refine ⟨h.sound, h.connected.trans (by rw [Link.isOpen, phase]; rfl),
      fun shut => (Bool.false_ne_true shut.symm).elim, ?_⟩
    intro _
    have silent : [LinkEvent.changed true].filterMap LinkEvent.wrote? = [] := rfl
    rw [Link.unwritten, phase] at known
    simpa [Link.unwritten, silent] using known
  · have known := h.known (by rw [Link.isOpen, phase])
    have open_ : ({ x.link with outbox := rest } : Link).isOpen := by rw [Link.isOpen, phase]
    rw [after_open open_]
    refine ⟨h.sound, h.connected.trans (by rw [open_, Link.isOpen, phase]), ?_, ?_⟩
    · intro shut
      exact absurd (open_.symm.trans shut) (by decide)
    · intro _
      rw [Link.unwritten, phase, outbox] at known
      simpa [Link.unwritten, LinkEvent.wrote?, phase] using known

theorem Agrees.proceed {x : Exchange} (h : x.Agrees) (now : Nat) :
    (x.after (x.link.run now).1 (x.link.run now).2).Agrees := by
  cases ho : x.link.isOpen with
  | true =>
    rw [Link.run_open ho]
    exact h.same rfl rfl h.sound rfl rfl rfl
  | false =>
    obtain ⟨shut, connected⟩ := Link.run_shut ho now
    have sound := h.sound.of_entries (x.link.run_registry now).entries
    exact .shut sound (connected (h.connected.trans ho)) shut _

theorem Agrees.call {x : Exchange} (h : x.Agrees) (c : Link.Call) :
    (x.step (.call c)).Agrees := by
  cases c with
  | newReceiver => exact h.same rfl rfl (h.sound.of_entries rfl) rfl rfl rfl
  | closeReceiver receiver => exact h.same rfl rfl (h.sound.of_entries rfl) rfl rfl rfl
  | subscribe name receiver => exact h.subscribe name receiver
  | unsubscribe name receiver =>
    exact h.leave (fun key => decide (key = Text.lowercase name)) receiver
  | remove receiver => exact h.leave (fun _ => true) receiver
  | send c => exact h.send c
  | close => exact h.same rfl rfl h.sound rfl rfl rfl

theorem Agrees.step {x : Exchange} (h : x.Agrees) (s : Link.Step) : (x.step (.step s)).Agrees := by
  cases s with
  | accept => exact h.accept
  | hangUp now => exact h.hangUp now
  | receiveLine now line => exact h.receiveLine now line
  | write =>
    rw [Exchange.step, Link.Move.apply, Link.Step.apply]
    cases hw : x.link.writeNext with
    | none => exact h.same rfl rfl h.sound rfl rfl rfl
    | some written => exact h.write hw
  | writeAsides =>
    have silent : (x.link.asides.map LinkEvent.wroteAside).filterMap LinkEvent.wrote? = [] := by
      simp [LinkEvent.wrote?]
    exact h.same rfl rfl h.sound rfl rfl silent
  | run now => exact h.proceed now
  | finish =>
    rw [Exchange.step, Link.Move.apply, Link.Step.apply]
    split
    · exact h.drop rfl _
    · exact h.same rfl rfl h.sound rfl rfl rfl

theorem Agrees.run {x : Exchange} (h : x.Agrees) (moves : List Link.Move) :
    (x.run moves).Agrees := by
  induction moves generalizing x with
  | nil => exact h
  | cons move moves ih =>
    cases move with
    | call c => exact ih (h.call c)
    | step s => exact ih (h.step s)

/-- While lines can be written, the server ends up with just the subscriptions that are desired, by
requests none of which it refuses, once all has been written that is to be. -/
theorem run_agrees (settings : ConnectionSettings) (moves : List Link.Move) {x : Exchange}
    (h : run ⟨.ofSettings settings, []⟩ moves = x) (open_ : x.link.isOpen) :
    Request.applyAll []
        (x.written ++ x.link.unwritten.map .subscribe ++ x.link.outbox) =
          some x.link.subscriptions.desired ∧
      (x.link.subscriptions.desired.map Text.lowercase).Nodup ∧
      (x.link.writeNext = none →
        Request.applyAll [] x.written = some x.link.subscriptions.desired) := by
  have agrees : x.Agrees := h ▸ (Agrees.start settings).run moves
  refine ⟨agrees.known open_, agrees.sound.desired_nodup, ?_⟩
  intro idle
  have known := agrees.known open_
  cases phase : x.link.phase with
  | opening names => cases names <;> simp [Link.writeNext, phase] at idle
  | live =>
    cases outbox : x.link.outbox with
    | nil => simpa [Link.unwritten, phase, outbox] using known
    | cons => simp [Link.writeNext, phase, outbox] at idle
  | offered | greeting | resting | ended => simp [Link.isOpen, phase] at open_

/-- Two receivers follow a property by different spellings, of which the server knows one. -/
def twoSpellings : List Link.Move :=
  [.call (.subscribe "Gear" 1), .step .accept, .step (.receiveLine 0 [83]), .step .write,
    .call (.subscribe "gear" 2), .call (.subscribe "Lap" 2), .call (.remove 1), .step .write,
    .step .write]

theorem run_agrees_twoSpellings :
    (run ⟨.ofSettings { bannerStart := "S" }, []⟩ twoSpellings).link.isOpen ∧
      Request.applyAll [] (run ⟨.ofSettings { bannerStart := "S" }, []⟩ twoSpellings).written =
        some ["Gear", "Lap"] := by
  have open_ : (run ⟨.ofSettings { bannerStart := "S" }, []⟩ twoSpellings).link.isOpen := by
    decide +kernel
  have agrees := run_agrees { bannerStart := "S" } twoSpellings rfl open_
  have idle :
      (run ⟨.ofSettings { bannerStart := "S" }, []⟩ twoSpellings).link.writeNext.isNone := by
    decide +kernel
  refine ⟨open_, (agrees.2.2 (Option.isNone_iff_eq_none.1 idle)).trans ?_⟩
  decide +kernel

end Exchange

end ControlDeck
