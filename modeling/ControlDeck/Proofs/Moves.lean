import ControlDeck.Link

namespace ControlDeck

namespace Link

/-- Whether lines can be written to the server. -/
def isOpen (l : Link) : Bool :=
  match l.phase with
  | .opening _ | .live => true
  | .offered _ | .greeting _ | .resting _ | .ended => false

/-- The names that the server is still to be told of since the connection began. -/
def unwritten (l : Link) : List String :=
  match l.phase with
  | .opening names => names
  | .offered _ | .greeting _ | .live | .resting _ | .ended => []

/-- What the users of a link can ask of it. -/
inductive Call where
  | newReceiver
  | closeReceiver (receiver : Nat)
  | subscribe (name : String) (receiver : Nat)
  | unsubscribe (name : String) (receiver : Nat)
  | remove (receiver : Nat)
  | send (c : Command)
  | close

/-- What the link does of itself, and what the server does to it. -/
inductive Step where
  | accept
  | hangUp (now : Nat)
  | receiveLine (now : Nat) (line : List UInt8)
  | write
  | writeAsides
  | run (now : Nat)
  | finish

inductive Move where
  | call (c : Call)
  | step (s : Step)

def Call.apply (l : Link) : Call → Link × List LinkEvent
  | newReceiver => ({ l with subscriptions := l.subscriptions.newReceiver.1 }, [])
  | closeReceiver receiver => ({ l with subscriptions := l.subscriptions.close receiver }, [])
  | subscribe name receiver => l.subscribe name receiver
  | unsubscribe name receiver => (l.unsubscribe name receiver, [])
  | remove receiver => (l.remove receiver, [])
  | send c => l.send c
  | close => (l.close, [])

def Step.apply (l : Link) : Step → Link × List LinkEvent
  | accept => (l.accept, [])
  | hangUp now => l.hangUp now
  | receiveLine now line => l.receiveLine now line
  | write => l.writeNext.elim (l, []) fun (l, event) => (l, [event])
  | writeAsides => ({ l with asides := [] }, l.asides.map .wroteAside)
  | run now => l.run now
  | finish => if l.closing then l.leave .ended else (l, [])

def Move.apply (l : Link) : Move → Link × List LinkEvent
  | call c => c.apply l
  | step s => s.apply l

theorem subscribe_eq (name : String) (receiver : Nat) (l : Link) :
    l.subscribe name receiver =
      ({ l with
          subscriptions := (l.subscriptions.subscribe name receiver).1
          outbox := l.outbox ++
            if (l.subscriptions.subscribe name receiver).2.1 = .send then [.subscribe name]
            else [] },
        (l.subscriptions.subscribe name receiver).2.2.map .delivered) := by
  simp only [subscribe, request]
  split
  · rfl
  · rw [List.append_nil]

theorem run_open {l : Link} (h : l.isOpen) (now : Nat) : l.run now = (l, []) := by
  cases hp : l.phase with
  | opening | live => simp [run, hp]
  | offered | greeting | resting | ended => simp [isOpen, hp] at h

theorem run_shut {l : Link} (h : l.isOpen = false) (now : Nat) :
    (l.run now).1.isOpen = false ∧
      (l.subscriptions.connected = false → (l.run now).1.subscriptions.connected = false) := by
  cases hp : l.phase with
  | opening | live => simp [isOpen, hp] at h
  | ended => simp [run, hp, isOpen]
  | resting due => by_cases hd : due ≤ now <;> simp [run, hp, hd, isOpen, offer]
  | offered due | greeting due =>
    by_cases hd : due ≤ now
    · by_cases hr : now + l.settings.reconnectDelayMs ≤ now <;>
        simp [run, hp, hd, hr, fail, leave, offer, isOpen, Subscriptions.disconnect]
    · simp [run, hp, hd, isOpen]

theorem writeNext_cases {l l' : Link} {event : LinkEvent}
    (writes : l.writeNext = some (l', event)) :
    (∃ name names, l.phase = .opening (name :: names) ∧ l' = { l with phase := .opening names } ∧
      event = .wrote (.subscribe name)) ∨
    (l.phase = .opening [] ∧ l' = { l with phase := .live } ∧ event = .changed true) ∨
    ∃ r rest, l.phase = .live ∧ l.outbox = r :: rest ∧ l' = { l with outbox := rest } ∧
      event = .wrote r := by
  cases phase : l.phase with
  | opening names =>
    cases names with
    | nil =>
      simp only [writeNext, phase, Option.some.injEq, Prod.mk.injEq] at writes
      exact .inr (.inl ⟨rfl, writes.1.symm, writes.2.symm⟩)
    | cons name names =>
      simp only [writeNext, phase, Option.some.injEq, Prod.mk.injEq] at writes
      exact .inl ⟨name, names, rfl, writes.1.symm, writes.2.symm⟩
  | live =>
    cases outbox : l.outbox with
    | nil => simp [writeNext, phase, outbox] at writes
    | cons r rest =>
      simp only [writeNext, phase, outbox, Option.some.injEq, Prod.mk.injEq] at writes
      exact .inr (.inr ⟨r, rest, rfl, rfl, writes.1.symm, writes.2.symm⟩)
  | offered | greeting | resting | ended => simp [writeNext, phase] at writes

/-- Nothing but whether there is a connection is different. -/
structure SameRegistry (l l' : Link) : Prop where
  entries : l'.subscriptions.entries = l.subscriptions.entries
  created : l'.subscriptions.created = l.subscriptions.created
  closed : l'.subscriptions.closed = l.subscriptions.closed

theorem SameRegistry.refl (l : Link) : l.SameRegistry l := ⟨rfl, rfl, rfl⟩

theorem leave_registry (phase : LinkPhase) (l : Link) : l.SameRegistry (l.leave phase).1 :=
  ⟨rfl, rfl, rfl⟩

theorem fail_registry (now : Nat) (fault : LinkFault) (l : Link) :
    l.SameRegistry (l.fail now fault).1 :=
  ⟨rfl, rfl, rfl⟩

theorem writeNext_registry {l l' : Link} {event : LinkEvent} (h : l.writeNext = some (l', event)) :
    l.SameRegistry l' := by
  rcases writeNext_cases h with ⟨_, _, -, rfl, -⟩ | ⟨-, rfl, -⟩ | ⟨_, _, -, -, rfl, -⟩ <;>
    exact ⟨rfl, rfl, rfl⟩

theorem greet_registry (now : Nat) (line : List Char) (l : Link) :
    l.SameRegistry (l.greet now line).1 := by
  rw [greet]
  split
  · exact ⟨rfl, rfl, rfl⟩
  · exact l.fail_registry now _

theorem run_registry (now : Nat) (l : Link) : l.SameRegistry (l.run now).1 := by
  cases hp : l.phase with
  | opening | live | ended => simpa [run, hp] using SameRegistry.refl l
  | resting due =>
    by_cases hd : due ≤ now <;> simp only [run, hp, hd, if_true, if_false] <;>
      exact ⟨rfl, rfl, rfl⟩
  | offered due | greeting due =>
    by_cases hd : due ≤ now
    · by_cases hr : now + l.settings.reconnectDelayMs ≤ now <;>
        simp only [run, hp, hd, hr, fail, leave, if_true, if_false] <;> exact ⟨rfl, rfl, rfl⟩
    · simpa [run, hp, hd] using SameRegistry.refl l

theorem hear_registry (line : List Char) (l : Link) :
    l.SameRegistry (l.hear line).1 ∨ ∃ property ds,
      l.subscriptions.publish property = some ((l.hear line).1.subscriptions, ds) ∧
        (l.hear line).2 = ds.map .delivered := by
  rw [hear]
  split
  · exact .inl (.refl l)
  · split
    · exact .inl (.refl l)
    · rename_i property _
      cases hp : l.subscriptions.publish property with
      | none => exact .inl (.refl l)
      | some published => exact .inr ⟨property, published.2, hp, rfl⟩

theorem Step.registry (s : Step) (l : Link) :
    l.SameRegistry (s.apply l).1 ∨ ∃ property ds,
      l.subscriptions.publish property = some ((s.apply l).1.subscriptions, ds) ∧
        (s.apply l).2 = ds.map .delivered := by
  cases s with
  | accept =>
    rw [Step.apply, Link.accept]
    split <;> exact .inl ⟨rfl, rfl, rfl⟩
  | hangUp now =>
    rw [Step.apply, Link.hangUp]
    split
    case h_4 => exact .inl (.refl l)
    all_goals exact .inl (l.fail_registry now _)
  | receiveLine now line =>
    rw [Step.apply, Link.receiveLine]
    split
    · exact .inl (l.greet_registry now _)
    · exact l.hear_registry _
    · exact l.hear_registry _
    · exact .inl (l.fail_registry now _)
    · exact .inl (l.fail_registry now _)
    · exact .inl (l.fail_registry now _)
    · exact .inl (.refl l)
  | write =>
    rw [Step.apply]
    cases hw : l.writeNext with
    | none => exact .inl (.refl l)
    | some written => exact .inl (writeNext_registry hw)
  | writeAsides => exact .inl ⟨rfl, rfl, rfl⟩
  | run now => exact .inl (l.run_registry now)
  | finish =>
    rw [Step.apply]
    split
    · exact .inl (l.leave_registry .ended)
    · exact .inl (.refl l)

def stepAll : List Step → Link → Link × List LinkEvent
  | [], l => (l, [])
  | s :: steps, l =>
    let (l, events) := s.apply l
    let (l, more) := stepAll steps l
    (l, events ++ more)

theorem stepAll_cons (s : Step) (steps : List Step) (l : Link) :
    l.stepAll (s :: steps) =
      (((s.apply l).1.stepAll steps).1, (s.apply l).2 ++ ((s.apply l).1.stepAll steps).2) := rfl

theorem stepAll_append (steps steps' : List Step) (l : Link) :
    l.stepAll (steps ++ steps') =
      (((l.stepAll steps).1.stepAll steps').1,
        (l.stepAll steps).2 ++ ((l.stepAll steps).1.stepAll steps').2) := by
  induction steps generalizing l with
  | nil => rfl
  | cons s steps ih => rw [List.cons_append, stepAll_cons, ih, stepAll_cons, List.append_assoc]

theorem writeUpTo_steps (n : Nat) (l : Link) : ∃ steps, l.stepAll steps = l.writeUpTo n := by
  induction n generalizing l with
  | zero => exact ⟨[], rfl⟩
  | succ n ih =>
    cases hw : l.writeNext with
    | none => exact ⟨[], by rw [writeUpTo, hw]; rfl⟩
    | some written =>
      obtain ⟨l', event⟩ := written
      obtain ⟨steps, hs⟩ := ih l'
      have first : Step.write.apply l = (l', [event]) := by rw [Step.apply, hw]; rfl
      refine ⟨.write :: steps, ?_⟩
      rw [writeUpTo, hw, stepAll_cons, first, hs]
      rfl

theorem receiveLines_steps (now : Nat) (lines : List (List UInt8)) (l : Link) :
    ∃ steps, l.stepAll steps = l.receiveLines now lines := by
  induction lines generalizing l with
  | nil => exact ⟨[], rfl⟩
  | cons line lines ih =>
    obtain ⟨writes, hw⟩ :=
      (l.receiveLine now line).1.writeUpTo_steps (l.receiveLine now line).1.backlog
    obtain ⟨steps, hs⟩ := ih (l.receiveLine now line).1.writeAll.1
    refine ⟨(.receiveLine now line :: writes) ++ steps, ?_⟩
    rw [stepAll_append, stepAll_cons, Step.apply, hw]
    exact congrArg (fun r : Link × List LinkEvent => (r.1, _ ++ r.2)) hs

theorem receive_steps (now : Nat) (bytes : List UInt8) (l : Link) :
    ∃ steps, l.stepAll steps = l.receive now bytes :=
  l.receiveLines_steps now (Text.rawLines 10 bytes)

theorem settle_steps (now : Nat) (l : Link) : ∃ steps, l.stepAll steps = l.settle now := by
  obtain ⟨first, hf⟩ : ∃ first : List Step,
      l.stepAll first = if l.closing then (l, []) else l.run now := by
    cases l.closing with
    | true => exact ⟨[], rfl⟩
    | false => exact ⟨[.run now], Prod.ext rfl (List.append_nil _)⟩
  obtain ⟨writes, hw⟩ := (l.stepAll first).1.writeUpTo_steps (l.stepAll first).1.backlog
  refine ⟨first ++ writes ++ [.writeAsides, .finish], ?_⟩
  rw [stepAll_append, stepAll_append, hw, hf]
  simp only [stepAll, Step.apply, List.append_nil, ← List.append_assoc]
  rfl

end Link

end ControlDeck
