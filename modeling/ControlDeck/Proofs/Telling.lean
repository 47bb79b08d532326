import ControlDeck.Proofs.History

namespace ControlDeck

/-- Whether a request is about the property with the key. -/
def Request.concerns (key : String) : Request → Bool
  | subscribe name | unsubscribe name => Text.lowercase name = key
  | command _ => false

namespace Subscriptions

def about (key : String) (requests : List Request) : List Request :=
  requests.filter (Request.concerns key)

/-- What the server is told after a call: what the caller is asked to write, and the names with
which a connection begins. -/
def Answer.told (answer : Answer) : List Request :=
  answer.requests ++ answer.desired.map .subscribe

def told (answers : List Answer) : List Request :=
  answers.flatMap Answer.told

/-- What is asked about a property, of which the server was told before, by a call that changes
whether it is followed. -/
structure Asks (connected before after : Prop) (told asked : List Request) : Prop where
  begins : connected → ¬before → after → ∃ name, asked = [.subscribe name]
  ends : connected → before → ¬after →
    ∃ name, asked = [.unsubscribe name] ∧ told.getLast? = some (.subscribe name)
  silent : ¬connected ∨ (before ↔ after) → asked = []

namespace Asks

variable {connected before after : Prop} {told : List Request} {name : String}

theorem unconnected (hc : ¬connected) : Asks connected before after told [] :=
  ⟨fun h => absurd h hc, fun h => absurd h hc, fun _ => rfl⟩

theorem same (h : before ↔ after) : Asks connected before after told [] :=
  ⟨fun _ hb ha => absurd (h.2 ha) hb, fun _ hb ha => absurd (h.1 hb) ha, fun _ => rfl⟩

theorem began (hc : connected) (hb : ¬before) (ha : after) :
    Asks connected before after told [.subscribe name] where
  begins _ _ _ := ⟨name, rfl⟩
  ends _ h _ := absurd h hb
  silent h := (h.elim (· hc) fun same => hb (same.2 ha)).elim

theorem ended (hc : connected) (hb : before) (ha : ¬after)
    (last : told.getLast? = some (.subscribe name)) :
    Asks connected before after told [.unsubscribe name] where
  begins _ h _ := absurd hb h
  ends _ _ _ := ⟨name, rfl, last⟩
  silent h := (h.elim (· hc) fun same => ha (same.1 hb)).elim

end Asks

/-- The server was last told of each property in the spelling that is kept. -/
def Informed (s : Subscriptions) (told : List Request) : Prop :=
  s.connected → ∀ e ∈ s.entries, (about e.key told).getLast? = some (.subscribe e.name)

/-- Some subscription has the key. -/
def Knows (key : String) (s : Subscriptions) : Prop :=
  ∃ e ∈ s.entries, e.key = key

variable {s s' : Subscriptions} {key : String} {sent : List Request} {call : Call}

theorem about_append (rs rs' : List Request) :
    about key (rs ++ rs') = about key rs ++ about key rs' :=
  List.filter_append ..

/-- In a list without two items of one key, the items with the key of one are that one. -/
theorem filter_key_eq {α : Type} (key : α → String) {items : List α} (apart : (items.map key).Nodup)
    {item : α} (h : item ∈ items) : items.filter (key · = key item) = [item] := by
  induction items with
  | nil => exact (List.not_mem_nil h).elim
  | cons first items ih =>
    obtain ⟨new, apart⟩ := List.nodup_cons.1 apart
    rcases List.mem_cons.1 h with rfl | h
    · have others : items.filter (key · = key item) = [] := by
        refine List.filter_eq_nil_iff.2 fun other ho same => ?_
        rw [decide_eq_true_eq] at same
        exact new (same ▸ List.mem_map_of_mem ho)
      rw [List.filter_cons_of_pos (by simp), others]
    · have other : key first ≠ key item := fun same => new (same ▸ List.mem_map_of_mem h)
      rw [List.filter_cons_of_neg (by simp [other]), ih apart h]

/-- What is changed of a subscription is neither its key nor its spelling. -/
theorem exists_of_mem_modify {name : String} {f : Subscription → Subscription}
    {e : Subscription} (he : e ∈ (s.modify name f).entries) (hk : ∀ e, (f e).key = e.key)
    (hn : ∀ e, (f e).name = e.name) :
    ∃ e' ∈ s.entries, e'.key = e.key ∧ e'.name = e.name := by
  obtain ⟨e, hs, rfl⟩ := mem_modify.1 he
  refine ⟨e, hs, ?_⟩
  split
  · exact ⟨(hk e).symm, (hn e).symm⟩
  · exact ⟨rfl, rfl⟩

namespace Sound

theorem knows_iff (h : s.Sound) : s.Knows key ↔ ∃ receiver, s.Follows key receiver := by
  constructor
  · rintro ⟨e, he, hk⟩
    obtain ⟨receiver, hr⟩ := List.exists_mem_of_ne_nil _ (h.followed e he)
    exact ⟨receiver, e, he, hk, hr⟩
  · rintro ⟨receiver, e, he, hk, -⟩
    exact ⟨e, he, hk⟩

/-- Of a property with a subscription the desired names have one spelling. -/
theorem about_desired (h : s.Sound) {e : Subscription} (he : e ∈ s.entries) :
    about e.key (s.desired.map .subscribe) = [.subscribe e.name] := by
  have keyed : s.entries.filter (fun e' => Text.lowercase e'.name = e.key) =
      s.entries.filter (·.key = e.key) :=
    List.filter_congr fun e' he' => by rw [h.keyed e' he']
  simp only [about, desired, List.map_map, List.filter_map, Function.comp_def, Request.concerns]
  rw [keyed, filter_key_eq (·.key) h.apart he]
  rfl

/-- A property of which the receiver is taken out is given up where no other receiver follows it. -/
theorem about_leave (h : s.Sound) (q : String → Bool) (receiver : Nat) (hc : s.connected) :
    about key ((s.leave (fun e => q e.key) receiver).2.map .unsubscribe) =
      ((s.entries.filter (·.key = key)).filter (·.without q receiver |>.receivers.isEmpty)).map
        fun e => .unsubscribe e.name := by
  have keyed : s.entries.filter (fun e => Text.lowercase e.name = key) =
      s.entries.filter (·.key = key) :=
    List.filter_congr fun e he => by rw [h.keyed e he]
  rw [leave_eq, hc, if_pos rfl, ← keyed]
  simp only [about, List.map_map, List.filter_map, Function.comp_def, Request.concerns,
    Subscription.without_name, List.filter_filter, Bool.and_comm]

end Sound

theorem requests_subscribe (name : String) (receiver : Nat) :
    (s.apply (.subscribe name receiver)).2.requests =
      if s.connected ∧ s.find? name = none then [.subscribe name] else [] := by
  rw [apply]
  cases found : s.find? name with
  | none =>
    rw [subscribe_new found]
    cases s.connected <;> rfl
  | some e =>
    rw [if_neg fun h => Option.some_ne_none e h.2]
    by_cases hr : receiver ∈ e.receivers
    · rw [subscribe_already found hr]
      rfl
    · rw [subscribe_join found hr]
      rfl

theorem knows_leave (s : Subscriptions) (q : String → Bool) (receiver : Nat) :
    (s.leave (fun e => q e.key) receiver).1.Knows key ↔
      ∃ e ∈ s.entries, e.key = key ∧ (e.without q receiver).receivers ≠ [] := by
  constructor
  · rintro ⟨e, he, hk⟩
    obtain ⟨e, hs, rfl, hr⟩ := mem_leave.1 he
    exact ⟨e, hs, (e.without_key q receiver).symm.trans hk, hr⟩
  · rintro ⟨e, hs, hk, hr⟩
    exact ⟨_, mem_leave.2 ⟨e, hs, rfl, hr⟩, (e.without_key q receiver).trans hk⟩

namespace Informed

theorem start : Informed {} [] := nofun

theorem asks_leave (informed : s.Informed sent) (h : s.Sound) (q : String → Bool)
    (receiver : Nat) :
    Asks s.connected (s.Knows key) ((s.leave (fun e => q e.key) receiver).1.Knows key)
      (about key sent) (about key ((s.leave (fun e => q e.key) receiver).2.map .unsubscribe)) := by
  by_cases hc : s.connected
  · rw [h.about_leave q receiver hc, knows_leave]
    by_cases known : s.Knows key
    · obtain ⟨e, he, rfl⟩ := known
      rw [filter_key_eq (·.key) h.apart he]
      by_cases last : (e.without q receiver).receivers = []
      · -- the receiver was the last one that followed the property
        rw [List.filter_cons_of_pos (by simp [last])]
        refine .ended hc ⟨e, he, rfl⟩ ?_ (informed hc e he)
        rintro ⟨e', he', hk, hr⟩
        rw [h.eq_of_key he he' hk] at hr
        exact hr last
      · rw [List.filter_cons_of_neg (by simp [last])]
        exact .same (iff_of_true ⟨e, he, rfl⟩ ⟨e, he, rfl, last⟩)
    · have none : s.entries.filter (·.key = key) = [] :=
        List.filter_eq_nil_iff.2 fun e he same => known ⟨e, he, of_decide_eq_true same⟩
      rw [none]
      exact .same (iff_of_false known fun ⟨e, he, hk, _⟩ => known ⟨e, he, hk⟩)
  · have asked : (s.leave (fun e => q e.key) receiver).2 = [] := by rw [leave_eq, if_neg hc]
    rw [asked]
    exact .unconnected hc

theorem asks_subscribe (h : s.Sound) (name : String) (receiver : Nat) :
    Asks s.connected (s.Knows key) ((s.subscribe name receiver).1.Knows key)
      (about key sent) (about key (s.apply (.subscribe name receiver)).2.requests) := by
  have knows :
      (s.subscribe name receiver).1.Knows key ↔ s.Knows key ∨ key = Text.lowercase name := by
    rw [(h.subscribe name receiver).knows_iff, h.knows_iff]
    simp only [h.follows_subscribe, exists_or, exists_and_left, exists_eq, and_true]
  rw [knows, requests_subscribe]
  by_cases begins : s.connected ∧ s.find? name = none
  · obtain ⟨hc, unknown⟩ := begins
    rw [if_pos ⟨hc, unknown⟩]
    by_cases own : Text.lowercase name = key
    · have asked : about key [.subscribe name] = [.subscribe name] := by
        simp [about, Request.concerns, own]
      rw [asked]
      refine .began hc ?_ (.inr own.symm)
      rintro ⟨e, he, hk⟩
      exact find?_eq_none.1 unknown e he (hk.trans own.symm)
    · have asked : about key [.subscribe name] = [] := by simp [about, Request.concerns, own]
      rw [asked]
      exact .same (or_iff_left (Ne.symm own)).symm
  · rw [if_neg begins]
    by_cases hc : s.connected
    · obtain ⟨e, found⟩ := Option.ne_none_iff_exists'.1 fun unknown => begins ⟨hc, unknown⟩
      obtain ⟨he, hk⟩ := h.find?_eq_some.1 found
      exact .same (or_iff_left_of_imp fun own => ⟨e, he, hk.trans own.symm⟩).symm
    · exact .unconnected hc

/-- A registry with a connection asks for a subscription just when a property gets its first
follower, and to give it up, in the spelling that the server was told last, just when it loses the
last one. -/
theorem asks (informed : s.Informed sent) (h : s.Sound) (call : Call) :
    Asks s.connected (s.Knows key) ((s.apply call).1.Knows key) (about key sent)
      (about key (s.apply call).2.requests) := by
  cases call with
  | newReceiver | close | connect | disconnect => exact .same Iff.rfl
  | subscribe name receiver => exact asks_subscribe h name receiver
  | unsubscribe name receiver =>
    exact informed.asks_leave h (fun key => decide (key = Text.lowercase name)) receiver
  | remove receiver => exact informed.asks_leave h (fun _ => true) receiver
  | publish line =>
    rw [Subscriptions.apply]
    split
    · exact .same Iff.rfl
    · rename_i published
      refine .same ?_
      rw [h.knows_iff, (h.publish published).knows_iff]
      simp only [follows_publish published]

/-- Of each property that is still followed the server is told nothing by a call, or it is told the
spelling that is kept. -/
theorem of_call (informed : s.Informed sent) {more : List Request}
    (h : s'.connected → ∀ e ∈ s'.entries, about e.key more = [.subscribe e.name] ∨
      (s.connected ∧ about e.key more = [] ∧ ∃ e' ∈ s.entries, e'.key = e.key ∧ e'.name = e.name)) :
    s'.Informed (sent ++ more) := by
  intro hc e he
  rw [about_append]
  rcases h hc e he with asked | ⟨hc, silent, e', he', hk, hn⟩
  · rw [asked, List.getLast?_concat]
  · rw [silent, List.append_nil, ← hk, ← hn]
    exact informed hc e' he'

theorem leave (informed : s.Informed sent) (h : s.Sound) (q : String → Bool) (receiver : Nat) :
    (s.leave (fun e => q e.key) receiver).1.Informed
      (sent ++ (s.leave (fun e => q e.key) receiver).2.map .unsubscribe) := by
  refine informed.of_call fun hc e he => .inr ⟨hc, ?_⟩
  obtain ⟨e, hs, rfl, hr⟩ := mem_leave.1 he
  refine ⟨?_, e, hs, (e.without_key q receiver).symm, (e.without_name q receiver).symm⟩
  rw [Subscription.without_key, h.about_leave q receiver hc, filter_key_eq (·.key) h.apart hs,
    List.filter_cons_of_neg (by simp [hr])]
  rfl

theorem subscribe (informed : s.Informed sent) (name : String) (receiver : Nat) :
    (s.subscribe name receiver).1.Informed
      (sent ++ (s.apply (.subscribe name receiver)).2.requests) := by
  rw [requests_subscribe]
  refine informed.of_call fun hc e he => ?_
  rw [s.subscribe_connected name receiver] at hc
  cases found : s.find? name with
  | none =>
    rw [if_pos ⟨hc, rfl⟩]
    rw [subscribe_new found] at he
    rcases List.mem_append.1 he with he | he
    · have other : Text.lowercase name ≠ e.key := (find?_eq_none.1 found e he).symm
      exact .inr ⟨hc, by simp [about, Request.concerns, other], e, he, rfl, rfl⟩
    · rw [List.mem_singleton.1 he]
      exact .inl (by simp [about, Request.concerns])
  | some found' =>
    rw [if_neg fun h => Option.some_ne_none _ h.2]
    refine .inr ⟨hc, rfl, ?_⟩
    by_cases hr : receiver ∈ found'.receivers
    · rw [subscribe_already found hr] at he
      exact ⟨e, he, rfl, rfl⟩
    · rw [subscribe_join found hr] at he
      exact exists_of_mem_modify he (fun _ => rfl) fun _ => rfl

theorem apply (informed : s.Informed sent) (h : s.Sound) (call : Call) :
    (s.apply call).1.Informed (sent ++ (s.apply call).2.told) := by
  cases call with
  | newReceiver | close => exact informed.of_call fun hc e he => .inr ⟨hc, rfl, e, he, rfl, rfl⟩
  | disconnect => exact nofun
  | connect => exact informed.of_call fun _ e he => .inl (h.about_desired he)
  | subscribe name receiver =>
    have told : (s.apply (.subscribe name receiver)).2.told =
      (s.apply (.subscribe name receiver)).2.requests := List.append_nil _
    exact told ▸ informed.subscribe name receiver
  | unsubscribe name receiver =>
    have told : (s.apply (.unsubscribe name receiver)).2.told =
      (s.unsubscribe name receiver).2.map .unsubscribe := List.append_nil _
    exact told ▸ informed.leave h (fun key => decide (key = Text.lowercase name)) receiver
  | remove receiver =>
    have told : (s.apply (.remove receiver)).2.told = (s.remove receiver).2.map .unsubscribe :=
      List.append_nil _
    exact told ▸ informed.leave h (fun _ => true) receiver
  | publish line =>
    rw [Subscriptions.apply]
    split
    · exact informed.of_call fun hc e he => .inr ⟨hc, rfl, e, he, rfl, rfl⟩
    · rename_i published
      obtain ⟨-, -, rfl, -⟩ := publish_eq_some.1 published
      refine informed.of_call fun hc e he => .inr ⟨hc, rfl, ?_⟩
      exact exists_of_mem_modify he (fun _ => rfl) fun _ => rfl

theorem run (informed : s.Informed sent) {past : List Call} (h : s.Tracks past)
    (calls : List Call) : (s.run calls).1.Informed (sent ++ told (s.run calls).2) := by
  induction calls generalizing s sent past with
  | nil => exact (List.append_nil sent).symm ▸ informed
  | cons call calls ih =>
    have later := ih (informed.apply h.sound call) (h.apply call)
    rwa [List.append_assoc] at later

end Informed

end Subscriptions

end ControlDeck
