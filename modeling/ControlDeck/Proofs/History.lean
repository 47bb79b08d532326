import ControlDeck.Control
import ControlDeck.Proofs.Registry

namespace ControlDeck.Subscriptions

/-- What the users of a registry can ask of it, and what happens to its connection. -/
inductive Call where
  | newReceiver
  | close (receiver : Nat)
  | subscribe (name : String) (receiver : Nat)
  | unsubscribe (name : String) (receiver : Nat)
  | remove (receiver : Nat)
  | publish (line : PropertyLine)
  | connect
  | disconnect

/-- What comes of a call besides the change of the registry. -/
structure Answer where
  deliveries : List Delivery := []
  /-- What the caller has to write to the server. -/
  requests : List Request := []
  /-- The names with which a new connection begins. -/
  desired : List String := []

/-- Some calls one after another, of a registry that is kept in one form or another. -/
def runWith {σ : Type} (apply : σ → Call → σ × Answer) (s : σ) : List Call → σ × List Answer
  | [] => (s, [])
  | call :: calls =>
    let (s, answer) := apply s call
    let (s, answers) := runWith apply s calls
    (s, answer :: answers)

theorem runWith_cons {σ : Type} (apply : σ → Call → σ × Answer) (s : σ) (call : Call)
    (calls : List Call) :
    runWith apply s (call :: calls) =
      let later := runWith apply (apply s call).1 calls
      (later.1, (apply s call).2 :: later.2) := rfl

def apply (s : Subscriptions) : Call → Subscriptions × Answer
  | .newReceiver => (s.newReceiver.1, {})
  | .close receiver => (s.close receiver, {})
  | .subscribe name receiver =>
    let (s, joining, deliveries) := s.subscribe name receiver
    (s, { deliveries, requests := if joining = .send then [.subscribe name] else [] })
  | .unsubscribe name receiver =>
    let (s, names) := s.unsubscribe name receiver
    (s, { requests := names.map .unsubscribe })
  | .remove receiver =>
    let (s, names) := s.remove receiver
    (s, { requests := names.map .unsubscribe })
  | .publish line =>
    match s.publish line with
    | none => (s, {})
    | some (s, deliveries) => (s, { deliveries })
  | .connect =>
    let (s, desired) := s.connect
    (s, { desired })
  | .disconnect => (s.disconnect, {})

/-- A registry after some calls, and what came of each. -/
def run (s : Subscriptions) (calls : List Call) : Subscriptions × List Answer :=
  runWith apply s calls

/-- Whether a call puts a receiver under a key or takes it out; none where it does neither. Calls of
the past are listed the latest first, which is the order in which they are looked through. -/
def Call.registers? (key : String) (receiver : Nat) : Call → Option Bool
  | subscribe name r => if Text.lowercase name = key ∧ r = receiver then some true else none
  | unsubscribe name r => if Text.lowercase name = key ∧ r = receiver then some false else none
  | remove r => if r = receiver then some false else none
  | newReceiver | close _ | publish _ | connect | disconnect => none

/-- What a call announces of a property. -/
def Call.announces? (key : String) : Call → Option PropertyLine
  | publish line => if Text.lowercase line.name = key then some line else none
  | newReceiver | close _ | subscribe .. | unsubscribe .. | remove _ | connect | disconnect => none

/-- The receiver that a call registers for some property. -/
def Call.joiner? : Call → Option Nat
  | subscribe _ receiver => some receiver
  | _ => none

/-- Whether the last call that put the receiver under the key, or took it out, put it there. -/
def registered (key : String) (receiver : Nat) (past : List Call) : Bool :=
  (past.findSome? (Call.registers? key receiver)).getD false

/-- Whether some receiver is registered. -/
def followed (key : String) (past : List Call) : Bool :=
  (past.filterMap Call.joiner?).any (registered key · past)

/-- The calls since the property is followed without a break, with the one that began it. -/
def sinceBegun (key : String) : List Call → List Call
  | [] => []
  | call :: past => if followed key (call :: past) then call :: sinceBegun key past else []

/-- The last announcement since the subscription began. -/
def cached (key : String) (past : List Call) : Option PropertyLine :=
  (sinceBegun key past).findSome? (Call.announces? key)

variable {key : String} {receiver : Nat} {past : List Call} {call : Call} {line : PropertyLine}

theorem registered_cons : registered key receiver (call :: past) =
    (call.registers? key receiver).getD (registered key receiver past) := by
  rw [registered, List.findSome?_cons]
  cases call.registers? key receiver <;> rfl

theorem joiner_of_registers (h : call.registers? key receiver = some true) :
    call.joiner? = some receiver := by
  cases call with
  | subscribe name r =>
    simp only [Call.registers?, Option.ite_none_right_eq_some] at h
    rw [Call.joiner?, h.1.2]
  | _ => simp [Call.registers?] at h

theorem followed_iff : followed key past ↔ ∃ receiver, registered key receiver past := by
  simp only [followed, List.any_eq_true, List.mem_filterMap]
  constructor
  · rintro ⟨receiver, -, h⟩
    exact ⟨receiver, h⟩
  · rintro ⟨receiver, h⟩
    refine ⟨receiver, ?_, h⟩
    -- the call that registered the receiver names it
    cases hf : past.findSome? (Call.registers? key receiver) with
    | none => simp [registered, hf] at h
    | some joins =>
      obtain rfl : joins = true := by simpa [registered, hf] using h
      obtain ⟨call, hc, hj⟩ := List.exists_of_findSome?_eq_some hf
      exact ⟨call, hc, joiner_of_registers hj⟩

theorem cached_of_unfollowed (h : followed key past = false) : cached key past = none := by
  cases past with
  | nil => rfl
  | cons call past => simp [cached, sinceBegun, h]

theorem cached_cons (h : followed key (call :: past)) :
    cached key (call :: past) = (call.announces? key).or (cached key past) := by
  rw [cached, sinceBegun, if_pos h, List.findSome?_cons]
  cases call.announces? key <;> rfl

theorem lowercase_of_announces (h : call.announces? key = some line) :
    Text.lowercase line.name = key := by
  cases call with
  | publish line' =>
    simp only [Call.announces?, Option.ite_none_right_eq_some, Option.some.injEq] at h
    rw [← h.2]
    exact h.1
  | _ => simp [Call.announces?] at h

theorem lowercase_of_cached (h : cached key past = some line) : Text.lowercase line.name = key := by
  obtain ⟨call, -, hc⟩ := List.exists_of_findSome?_eq_some h
  exact lowercase_of_announces hc

/-- The registry lists a receiver under a key just if the calls registered it there, and keeps the
last announcement. -/
structure Tracks (s : Subscriptions) (past : List Call) : Prop where
  sound : s.Sound
  follows : ∀ key receiver, s.Follows key receiver ↔ registered key receiver past
  once : ∀ e ∈ s.entries, e.receivers.Nodup
  last : ∀ e ∈ s.entries, e.last = cached e.key past
  closed : ∀ receiver ∈ s.closed, .close receiver ∈ past

namespace Tracks

variable {s s' : Subscriptions}

theorem start : Tracks {} [] where
  sound := sound_empty
  follows := by simp [Follows, registered]
  once := by simp
  last := by simp
  closed := by simp

theorem followed_iff (h : s.Tracks past) :
    followed key past ↔ ∃ receiver, s.Follows key receiver := by
  simp only [Subscriptions.followed_iff, h.follows]

theorem not_followed (h : s.Tracks past) {name : String} (unknown : s.find? name = none) :
    followed (Text.lowercase name) past = false := by
  refine Bool.eq_false_iff.2 fun followed => ?_
  obtain ⟨_, e, he, hk, -⟩ := h.followed_iff.1 followed
  exact find?_eq_none.1 unknown e he hk

/-- It is enough to say what a call makes of the announcements of those properties that some
receiver still follows. -/
theorem of_call (h : s.Tracks past) (sound : s'.Sound)
    (follows : ∀ key receiver, s'.Follows key receiver ↔ registered key receiver (call :: past))
    (once : ∀ e ∈ s'.entries, e.receivers.Nodup)
    (last : ∀ e ∈ s'.entries, e.last = (call.announces? e.key).or (cached e.key past))
    (closed : ∀ receiver ∈ s'.closed, receiver ∈ s.closed ∨ call = .close receiver) :
    s'.Tracks (call :: past) where
  sound
  follows
  once
  last := by
    intro e he
    obtain ⟨receiver, hr⟩ := List.exists_mem_of_ne_nil _ (sound.followed e he)
    have followed : followed e.key (call :: past) :=
      Subscriptions.followed_iff.2 ⟨receiver, (follows _ _).1 ⟨e, he, rfl, hr⟩⟩
    rw [cached_cons followed]
    exact last e he
  closed := by
    intro receiver hr
    rcases closed receiver hr with hr | rfl
    · exact List.mem_cons_of_mem _ (h.closed receiver hr)
    · exact List.mem_cons_self

/-- A call that is about no property. -/
theorem beside (h : s.Tracks past) (entries : s'.entries = s.entries)
    (registers : ∀ key receiver, call.registers? key receiver = none)
    (announces : ∀ key, call.announces? key = none)
    (closed : ∀ receiver ∈ s'.closed, receiver ∈ s.closed ∨ call = .close receiver) :
    s'.Tracks (call :: past) := by
  refine h.of_call (h.sound.of_entries entries) ?_ (fun e he => h.once e (entries ▸ he)) ?_ closed
  · intro key receiver
    rw [registered_cons, registers, Option.getD_none, ← h.follows, Follows, entries, Follows]
  · intro e he
    rw [announces, Option.none_or]
    exact h.last e (entries ▸ he)

theorem subscribe (h : s.Tracks past) (name : String) (receiver : Nat) :
    (s.subscribe name receiver).1.Tracks (.subscribe name receiver :: past) := by
  refine h.of_call (h.sound.subscribe name receiver) ?_ ?_ ?_ ?_
  · intro key r
    rw [h.sound.follows_subscribe, h.follows, registered_cons, Call.registers?]
    by_cases joins : Text.lowercase name = key ∧ receiver = r
    · rw [if_pos joins]
      simp [joins]
    · rw [if_neg joins, Option.getD_none, or_iff_left]
      rintro ⟨rfl, rfl⟩
      exact joins ⟨rfl, rfl⟩
  · intro e he
    cases hf : s.find? name with
    | none =>
      rw [subscribe_new hf] at he
      rcases List.mem_append.1 he with he | he
      · exact h.once e he
      · rw [List.mem_singleton.1 he]
        exact List.nodup_singleton receiver
    | some found =>
      by_cases hr : receiver ∈ found.receivers
      · rw [subscribe_already hf hr] at he
        exact h.once e he
      · rw [subscribe_join hf hr] at he
        obtain ⟨e, hs, rfl⟩ := mem_modify.1 he
        split
        · rename_i hk
          -- it is the subscription that was found, which does not list the receiver
          obtain rfl := h.sound.eq_of_find? hf hs hk
          exact List.concat_eq_append ▸ (h.once e hs).concat hr
        · exact h.once e hs
  · intro e he
    rw [Call.announces?, Option.none_or]
    cases hf : s.find? name with
    | none =>
      rw [subscribe_new hf] at he
      rcases List.mem_append.1 he with he | he
      · exact h.last e he
      · rw [List.mem_singleton.1 he]
        exact (cached_of_unfollowed (h.not_followed hf)).symm
    | some found =>
      by_cases hr : receiver ∈ found.receivers
      · rw [subscribe_already hf hr] at he
        exact h.last e he
      · rw [subscribe_join hf hr] at he
        obtain ⟨e, hs, rfl⟩ := mem_modify.1 he
        split
        · exact h.last e hs
        · exact h.last e hs
  · intro r hr
    rw [(s.subscribe_receivers name receiver).2] at hr
    exact .inl hr

theorem leave (h : s.Tracks past) (q : String → Bool) (receiver : Nat)
    (registers : ∀ key r, call.registers? key r =
      if q key ∧ r = receiver then some false else none)
    (announces : ∀ key, call.announces? key = none) :
    (s.leave (fun e => q e.key) receiver).1.Tracks (call :: past) := by
  refine h.of_call (h.sound.leave q receiver) ?_ ?_ ?_ fun r hr => .inl hr
  · intro key r
    rw [follows_leave, h.follows, registered_cons, registers]
    split
    · rename_i leaves
      simp [leaves]
    · rename_i stays
      simp [stays]
  · intro e he
    obtain ⟨e, hs, rfl, -⟩ := mem_leave.1 he
    rw [Subscription.without]
    split
    · exact (h.once e hs).filter _
    · exact h.once e hs
  · intro e he
    obtain ⟨e, hs, rfl, -⟩ := mem_leave.1 he
    rw [announces, Option.none_or, Subscription.without_last, Subscription.without_key]
    exact h.last e hs

theorem publish (h : s.Tracks past) {deliveries : List Delivery}
    (published : s.publish line = some (s', deliveries)) : s'.Tracks (.publish line :: past) := by
  refine h.of_call (h.sound.publish published) ?_ ?_ ?_ ?_
  · intro key receiver
    rw [follows_publish published, h.follows, registered_cons]
    rfl
  · intro e he
    obtain ⟨-, -, rfl, -⟩ := publish_eq_some.1 published
    obtain ⟨e, hs, rfl⟩ := mem_modify.1 he
    split
    · exact h.once e hs
    · exact h.once e hs
  · intro e he
    obtain ⟨-, -, rfl, -⟩ := publish_eq_some.1 published
    obtain ⟨e, hs, rfl⟩ := mem_modify.1 he
    rw [Call.announces?]
    split
    · rename_i same
      simp [same]
    · rename_i other
      rw [if_neg (Ne.symm other), Option.none_or]
      exact h.last e hs
  · intro receiver hr
    obtain ⟨-, -, rfl, -⟩ := publish_eq_some.1 published
    exact .inl hr

/-- An announcement of a property that no one follows is dropped. -/
theorem drop (h : s.Tracks past) (unknown : s.publish line = none) :
    s.Tracks (.publish line :: past) := by
  refine h.of_call h.sound ?_ h.once ?_ fun r hr => .inl hr
  · intro key receiver
    rw [h.follows, registered_cons]
    rfl
  · intro e he
    have other : e.key ≠ Text.lowercase line.name :=
      find?_eq_none.1 (Option.map_eq_none_iff.1 unknown) e he
    rw [Call.announces?, if_neg (Ne.symm other), Option.none_or]
    exact h.last e he

theorem apply (h : s.Tracks past) (call : Call) : (s.apply call).1.Tracks (call :: past) := by
  cases call with
  | newReceiver | connect | disconnect =>
    exact h.beside rfl (fun _ _ => rfl) (fun _ => rfl) fun _ hr => .inl hr
  | close receiver =>
    refine h.beside rfl (fun _ _ => rfl) (fun _ => rfl) fun r hr => ?_
    rcases List.mem_cons.1 hr with rfl | hr
    · exact .inr rfl
    · exact .inl hr
  | subscribe name receiver => exact h.subscribe name receiver
  | unsubscribe name receiver =>
    refine h.leave (fun key => decide (key = Text.lowercase name)) receiver ?_ fun _ => rfl
    intro key r
    exact if_congr (and_congr (eq_comm.trans decide_eq_true_iff.symm) eq_comm) rfl rfl
  | remove receiver =>
    refine h.leave (fun _ => true) receiver ?_ fun _ => rfl
    intro key r
    exact if_congr (eq_comm.trans (and_iff_right rfl).symm) rfl rfl
  | publish line =>
    rw [Subscriptions.apply]
    split
    · exact h.drop ‹_›
    · exact h.publish ‹_›

theorem run (h : s.Tracks past) (calls : List Call) :
    (s.run calls).1.Tracks (calls.reverse ++ past) := by
  induction calls generalizing s past with
  | nil => exact h
  | cons call calls ih =>
    rw [List.reverse_cons, List.append_assoc, List.singleton_append]
    exact ih (h.apply call)

/-- The value of a property is the one announced last. -/
theorem value (h : s.Tracks past) (name : String) :
    s.value name = (cached (Text.lowercase name) past).map (·.reading) := by
  by_cases followed : followed (Text.lowercase name) past
  · obtain ⟨_, e, he, hk, -⟩ := h.followed_iff.1 followed
    rw [h.sound.value_of_mem he hk, h.last e he, hk]
  · rw [cached_of_unfollowed (Bool.eq_false_iff.2 followed)]
    apply value_eq_none
    intro e he hk
    obtain ⟨receiver, hr⟩ := List.exists_mem_of_ne_nil _ (h.sound.followed e he)
    exact (followed (h.followed_iff.2 ⟨receiver, e, he, hk, hr⟩)).elim

end Tracks

end ControlDeck.Subscriptions
