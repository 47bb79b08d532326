import ControlDeck.Subscriptions
import Mathlib.Data.List.Nodup

namespace ControlDeck

/-- A subscription from which a receiver is taken where it is in question. -/
def Subscription.without (inQuestion : String → Bool) (receiver : Nat) (e : Subscription) :
    Subscription :=
  if inQuestion e.key then { e with receivers := e.receivers.filter (· ≠ receiver) } else e

@[simp] theorem Subscription.without_key (q : String → Bool) (r : Nat) (e : Subscription) :
    (e.without q r).key = e.key := by
  unfold without
  split <;> rfl

@[simp] theorem Subscription.without_name (q : String → Bool) (r : Nat) (e : Subscription) :
    (e.without q r).name = e.name := by
  unfold without
  split <;> rfl

@[simp] theorem Subscription.without_last (q : String → Bool) (r : Nat) (e : Subscription) :
    (e.without q r).last = e.last := by
  unfold without
  split <;> rfl

theorem Subscription.mem_without {q : String → Bool} {r r' : Nat} {e : Subscription} :
    r' ∈ (e.without q r).receivers ↔ r' ∈ e.receivers ∧ ¬(q e.key ∧ r' = r) := by
  unfold without
  split
  · rename_i h
    simp [h]
  · rename_i h
    simp [h]

namespace Subscriptions

/-- Each property has one subscription at most, and only while some receiver follows it. -/
structure Sound (s : Subscriptions) : Prop where
  keyed : ∀ e ∈ s.entries, e.key = Text.lowercase e.name
  apart : (s.entries.map (·.key)).Nodup
  followed : ∀ e ∈ s.entries, e.receivers ≠ []

/-- The receiver is listed under the key. -/
def Follows (key : String) (receiver : Nat) (s : Subscriptions) : Prop :=
  ∃ e ∈ s.entries, e.key = key ∧ receiver ∈ e.receivers

theorem Sound.find?_eq_some {s : Subscriptions} (h : s.Sound) {name : String} {e : Subscription} :
    s.find? name = some e ↔ e ∈ s.entries ∧ e.key = Text.lowercase name := by
  constructor
  · intro he
    exact ⟨List.mem_of_find?_eq_some he, by simpa using List.find?_some he⟩
  · rintro ⟨he, hk⟩
    cases hf : s.find? name with
    | none =>
      have absent := List.find?_eq_none.1 hf e he
      exact (absent (decide_eq_true hk)).elim
    | some e' =>
      have hk' : e'.key = Text.lowercase name := by simpa using List.find?_some hf
      rw [List.inj_on_of_nodup_map h.apart (List.mem_of_find?_eq_some hf) he (hk'.trans hk.symm)]

theorem Sound.eq_of_key {s : Subscriptions} (h : s.Sound) {e e' : Subscription}
    (he : e ∈ s.entries) (he' : e' ∈ s.entries) (hk : e'.key = e.key) : e' = e :=
  List.inj_on_of_nodup_map h.apart he' he hk

theorem Sound.eq_of_find? {s : Subscriptions} (h : s.Sound) {name : String} {e e' : Subscription}
    (found : s.find? name = some e) (he' : e' ∈ s.entries) (hk' : e'.key = Text.lowercase name) :
    e' = e := by
  obtain ⟨he, hk⟩ := h.find?_eq_some.1 found
  exact h.eq_of_key he he' (hk'.trans hk.symm)

theorem Sound.follows_iff {s : Subscriptions} (h : s.Sound) {e : Subscription}
    (he : e ∈ s.entries) {receiver : Nat} :
    s.Follows e.key receiver ↔ receiver ∈ e.receivers := by
  constructor
  · rintro ⟨e', he', hk, hr⟩
    rwa [h.eq_of_key he he' hk] at hr
  · intro hr
    exact ⟨e, he, rfl, hr⟩

theorem find?_eq_none {s : Subscriptions} {name : String} :
    s.find? name = none ↔ ∀ e ∈ s.entries, e.key ≠ Text.lowercase name := by
  simp [find?]

theorem Sound.mem_desired_iff {s : Subscriptions} (h : s.Sound) {key : String} :
    key ∈ s.desired.map Text.lowercase ↔ ∃ receiver, s.Follows key receiver := by
  simp only [desired, List.map_map, List.mem_map, Function.comp_apply]
  constructor
  · rintro ⟨e, he, hk⟩
    obtain ⟨receiver, hr⟩ := List.exists_mem_of_ne_nil _ (h.followed e he)
    exact ⟨receiver, e, he, (h.keyed e he).trans hk, hr⟩
  · rintro ⟨receiver, e, he, hk, -⟩
    exact ⟨e, he, (h.keyed e he).symm.trans hk⟩

theorem Sound.desired_nodup {s : Subscriptions} (h : s.Sound) :
    (s.desired.map Text.lowercase).Nodup := by
  have keys : s.desired.map Text.lowercase = s.entries.map (·.key) := by
    rw [desired, List.map_map]
    exact List.map_congr_left fun e he => (h.keyed e he).symm
  rw [keys]
  exact h.apart

theorem sound_empty : Sound {} :=
  ⟨fun _ h => (List.not_mem_nil h).elim, List.nodup_nil, fun _ h => (List.not_mem_nil h).elim⟩

theorem Sound.of_entries {s s' : Subscriptions} (h : s.Sound) (he : s'.entries = s.entries) :
    s'.Sound := by
  refine ⟨?_, ?_, ?_⟩
  · rw [he]
    exact h.keyed
  · rw [he]
    exact h.apart
  · rw [he]
    exact h.followed

theorem Sound.modify {s : Subscriptions} (h : s.Sound) (name : String)
    {f : Subscription → Subscription} (hk : ∀ e, (f e).key = e.key) (hn : ∀ e, (f e).name = e.name)
    (hr : ∀ e, e.receivers ≠ [] → (f e).receivers ≠ []) : (s.modify name f).Sound where
  keyed := by
    intro e he
    obtain ⟨e, he', rfl⟩ := List.mem_map.1 he
    split
    · rw [hk, hn]
      exact h.keyed e he'
    · exact h.keyed e he'
  apart := by
    have keys : (s.modify name f).entries.map (·.key) = s.entries.map (·.key) := by
      rw [Subscriptions.modify, List.map_map]
      apply List.map_congr_left
      intro e _
      simp only [Function.comp_apply]
      split
      · exact hk e
      · rfl
    rw [keys]
    exact h.apart
  followed := by
    intro e he
    obtain ⟨e, he', rfl⟩ := List.mem_map.1 he
    split
    · exact hr e (h.followed e he')
    · exact h.followed e he'

theorem modify_desired (s : Subscriptions) (name : String) {f : Subscription → Subscription}
    (hn : ∀ e, (f e).name = e.name) : (s.modify name f).desired = s.desired := by
  rw [desired, modify, List.map_map, desired]
  apply List.map_congr_left
  intro e _
  simp only [Function.comp_apply]
  split
  · exact hn e
  · rfl

theorem subscribe_new {s : Subscriptions} {name : String} (h : s.find? name = none)
    (receiver : Nat) : s.subscribe name receiver =
      ({ s with entries := s.entries ++ [⟨Text.lowercase name, name, [receiver], none⟩] },
        if s.connected then .send else .deferred, []) := by
  rw [subscribe, h]

theorem subscribe_already {s : Subscriptions} {name : String} {e : Subscription}
    (h : s.find? name = some e) {receiver : Nat} (hr : receiver ∈ e.receivers) :
    s.subscribe name receiver = (s, .already, []) := by
  rw [subscribe, h]
  exact if_pos hr

theorem subscribe_join {s : Subscriptions} {name : String} {e : Subscription}
    (h : s.find? name = some e) {receiver : Nat} (hr : receiver ∉ e.receivers) :
    s.subscribe name receiver =
      (s.modify name fun e => { e with receivers := e.receivers ++ [receiver] }, .joined,
        e.last.elim [] fun line => s.deliver [receiver] line) := by
  rw [subscribe, h]
  exact if_neg hr

theorem subscribe_connected (name : String) (receiver : Nat) (s : Subscriptions) :
    (s.subscribe name receiver).1.connected = s.connected := by
  cases hf : s.find? name with
  | none => rw [subscribe_new hf]
  | some e =>
    by_cases hr : receiver ∈ e.receivers
    · rw [subscribe_already hf hr]
    · rw [subscribe_join hf hr]
      rfl

theorem Sound.subscribe {s : Subscriptions} (h : s.Sound) (name : String) (receiver : Nat) :
    (s.subscribe name receiver).1.Sound := by
  cases hf : s.find? name with
  | none =>
    rw [subscribe_new hf]
    refine ⟨?_, ?_, ?_⟩
    · intro e he
      rcases List.mem_append.1 he with he | he
      · exact h.keyed e he
      · rw [List.mem_singleton.1 he]
    · rw [List.map_append, List.nodup_append]
      refine ⟨h.apart, List.nodup_singleton _, ?_⟩
      intro key hk key' hk'
      obtain ⟨e, he, rfl⟩ := List.mem_map.1 hk
      rw [List.map_singleton, List.mem_singleton] at hk'
      rw [hk']
      exact find?_eq_none.1 hf e he
    · intro e he
      rcases List.mem_append.1 he with he | he
      · exact h.followed e he
      · rw [List.mem_singleton.1 he]
        exact List.cons_ne_nil _ _
  | some e =>
    by_cases hr : receiver ∈ e.receivers
    · rwa [subscribe_already hf hr]
    · rw [subscribe_join hf hr]
      exact h.modify name (fun _ => rfl) (fun _ => rfl) fun _ _ => by simp

theorem follows_modify {s : Subscriptions} {name : String} {f : Subscription → Subscription}
    (hk : ∀ e, (f e).key = e.key) {key : String} {r : Nat} :
    (s.modify name f).Follows key r ↔
      ∃ e ∈ s.entries, e.key = key ∧
        r ∈ (if e.key = Text.lowercase name then f e else e).receivers := by
  constructor
  · rintro ⟨e, he, rfl, hr⟩
    obtain ⟨e, hs, rfl⟩ := List.mem_map.1 he
    refine ⟨e, hs, ?_, hr⟩
    split
    · exact (hk e).symm
    · rfl
  · rintro ⟨e, he, rfl, hr⟩
    refine ⟨_, List.mem_map.2 ⟨e, he, rfl⟩, ?_, hr⟩
    split
    · exact hk e
    · rfl

theorem Sound.follows_subscribe {s : Subscriptions} (h : s.Sound) (name : String)
    (receiver : Nat) (key : String) (r : Nat) :
    (s.subscribe name receiver).1.Follows key r ↔
      s.Follows key r ∨ (key = Text.lowercase name ∧ r = receiver) := by
  cases hf : s.find? name with
  | none =>
    rw [subscribe_new hf]
    simp only [Follows, List.mem_append, List.mem_singleton]
    constructor
    · rintro ⟨e, he | rfl, hk, hr⟩
      · exact .inl ⟨e, he, hk, hr⟩
      · exact .inr ⟨hk.symm, List.mem_singleton.1 hr⟩
    · rintro (⟨e, he, hk, hr⟩ | ⟨rfl, rfl⟩)
      · exact ⟨e, .inl he, hk, hr⟩
      · exact ⟨_, .inr rfl, rfl, List.mem_singleton_self _⟩
  | some found =>
    obtain ⟨hm, hk⟩ := h.find?_eq_some.1 hf
    by_cases hr : receiver ∈ found.receivers
    · rw [subscribe_already hf hr]
      refine ⟨.inl, ?_⟩
      rintro (hs | ⟨rfl, rfl⟩)
      · exact hs
      · exact ⟨found, hm, hk, hr⟩
    · rw [subscribe_join hf hr, follows_modify (by simp)]
      constructor
      · rintro ⟨e, he, rfl, hr⟩
        split at hr
        · rename_i hk
          rcases List.mem_append.1 hr with hr | hr
          · exact .inl ⟨e, he, rfl, hr⟩
          · exact .inr ⟨hk, List.mem_singleton.1 hr⟩
        · exact .inl ⟨e, he, rfl, hr⟩
      · rintro (⟨e, he, rfl, hr⟩ | ⟨rfl, rfl⟩)
        · refine ⟨e, he, rfl, ?_⟩
          split
          · exact List.mem_append_left _ hr
          · exact hr
        · refine ⟨found, hm, hk, ?_⟩
          rw [if_pos hk]
          exact List.mem_append_right _ (List.mem_singleton_self _)

theorem leave_eq (s : Subscriptions) (q : String → Bool) (receiver : Nat) :
    s.leave (fun e => q e.key) receiver =
      ({ s with
          entries := (s.entries.map (·.without q receiver)).filter (!·.receivers.isEmpty) },
        if s.connected then
          ((s.entries.map (·.without q receiver)).filter (·.receivers.isEmpty)).map (·.name)
        else []) := by
  simp only [leave, List.partition_eq_filter_filter]
  rfl

theorem mem_leave {s : Subscriptions} {q : String → Bool} {receiver : Nat} {e : Subscription} :
    e ∈ (s.leave (fun e => q e.key) receiver).1.entries ↔
      ∃ e' ∈ s.entries, e = e'.without q receiver ∧ e.receivers ≠ [] := by
  rw [leave_eq]
  simp only [List.mem_filter, List.mem_map, Bool.not_eq_true', List.isEmpty_eq_false_iff, ne_eq]
  constructor
  · rintro ⟨⟨e', he, rfl⟩, hr⟩
    exact ⟨e', he, rfl, hr⟩
  · rintro ⟨e', he, rfl, hr⟩
    exact ⟨⟨e', he, rfl⟩, hr⟩

theorem Sound.leave {s : Subscriptions} (h : s.Sound) (q : String → Bool) (receiver : Nat) :
    (s.leave (fun e => q e.key) receiver).1.Sound where
  keyed := by
    intro e he
    obtain ⟨e, hs, rfl, -⟩ := mem_leave.1 he
    rw [Subscription.without_key, Subscription.without_name]
    exact h.keyed e hs
  apart := by
    have keys : (s.entries.map (·.without q receiver)).map (·.key) = s.entries.map (·.key) := by
      rw [List.map_map]
      exact List.map_congr_left fun e _ => e.without_key q receiver
    rw [leave_eq]
    exact (keys ▸ h.apart).sublist (List.filter_sublist.map _)
  followed := by
    intro e he
    obtain ⟨e, -, -, hr⟩ := mem_leave.1 he
    exact hr

theorem follows_leave (s : Subscriptions) (q : String → Bool) (receiver : Nat) (key : String)
    (r : Nat) :
    (s.leave (fun e => q e.key) receiver).1.Follows key r ↔
      s.Follows key r ∧ ¬(q key ∧ r = receiver) := by
  constructor
  · rintro ⟨e, he, rfl, hr⟩
    obtain ⟨e, hs, rfl, -⟩ := mem_leave.1 he
    obtain ⟨hr, hq⟩ := Subscription.mem_without.1 hr
    rw [Subscription.without_key] at *
    exact ⟨⟨e, hs, rfl, hr⟩, hq⟩
  · rintro ⟨⟨e, he, rfl, hr⟩, hq⟩
    have hr' := Subscription.mem_without.2 ⟨hr, hq⟩
    exact ⟨_, mem_leave.2 ⟨e, he, rfl, List.ne_nil_of_mem hr'⟩, e.without_key q receiver, hr'⟩

theorem Sound.unsubscribe {s : Subscriptions} (h : s.Sound) (name : String) (receiver : Nat) :
    (s.unsubscribe name receiver).1.Sound :=
  h.leave (fun key => decide (key = Text.lowercase name)) receiver

theorem Sound.remove {s : Subscriptions} (h : s.Sound) (receiver : Nat) :
    (s.remove receiver).1.Sound :=
  h.leave (fun _ => true) receiver

theorem follows_unsubscribe {s : Subscriptions} {name : String} {receiver : Nat} {key : String}
    {r : Nat} : (s.unsubscribe name receiver).1.Follows key r ↔
      s.Follows key r ∧ ¬(key = Text.lowercase name ∧ r = receiver) := by
  have left := follows_leave s (fun key => decide (key = Text.lowercase name)) receiver key r
  simpa [unsubscribe] using left

theorem follows_remove {s : Subscriptions} {receiver : Nat} {key : String} {r : Nat} :
    (s.remove receiver).1.Follows key r ↔ s.Follows key r ∧ r ≠ receiver := by
  have left := follows_leave s (fun _ => true) receiver key r
  simpa [remove] using left

theorem publish_eq_some {s s' : Subscriptions} {line : PropertyLine} {ds : List Delivery} :
    s.publish line = some (s', ds) ↔
      ∃ e, s.find? line.name = some e ∧
        s' = s.modify line.name (fun e => { e with last := some line }) ∧
        ds = s.deliver e.receivers line := by
  simp only [publish, Option.map_eq_some_iff, Prod.mk.injEq]
  constructor
  · rintro ⟨e, he, rfl, rfl⟩
    exact ⟨e, he, rfl, rfl⟩
  · rintro ⟨e, he, rfl, rfl⟩
    exact ⟨e, he, rfl, rfl⟩

theorem Sound.publish {s s' : Subscriptions} (h : s.Sound) {line : PropertyLine}
    {ds : List Delivery} (hp : s.publish line = some (s', ds)) : s'.Sound := by
  obtain ⟨e, -, rfl, -⟩ := publish_eq_some.1 hp
  exact h.modify line.name (fun _ => rfl) (fun _ => rfl) fun _ hr => hr

theorem follows_publish {s s' : Subscriptions} {line : PropertyLine} {ds : List Delivery}
    (hp : s.publish line = some (s', ds)) (key : String) (r : Nat) :
    s'.Follows key r ↔ s.Follows key r := by
  obtain ⟨e, -, rfl, -⟩ := publish_eq_some.1 hp
  rw [follows_modify (by simp)]
  simp only [apply_ite, ite_self]
  rfl

theorem Sound.value_of_mem {s : Subscriptions} (h : s.Sound) {e : Subscription}
    (he : e ∈ s.entries) {name : String} (hk : e.key = Text.lowercase name) :
    s.value name = e.last.map (·.reading) := by
  rw [value, h.find?_eq_some.2 ⟨he, hk⟩]
  cases hl : e.last <;> simp [hl]

theorem value_eq_none {s : Subscriptions} {name : String}
    (h : ∀ e ∈ s.entries, e.key = Text.lowercase name → e.last = none) : s.value name = none := by
  rw [value]
  cases hf : s.find? name with
  | none => rfl
  | some e =>
    have hk : e.key = Text.lowercase name := by simpa using List.find?_some hf
    rw [Option.bind_eq_bind, Option.bind_some, h e (List.mem_of_find?_eq_some hf) hk]
    rfl

theorem mem_modify {s : Subscriptions} {name : String} {f : Subscription → Subscription}
    {e : Subscription} : e ∈ (s.modify name f).entries ↔
      ∃ e' ∈ s.entries, (if e'.key = Text.lowercase name then f e' else e') = e :=
  List.mem_map

theorem Sound.value_modify {s : Subscriptions} (h : s.Sound) {name : String}
    {f : Subscription → Subscription} (sound : (s.modify name f).Sound)
    (hk : ∀ e, (f e).key = e.key) {n : String}
    (hl : Text.lowercase n = Text.lowercase name → ∀ e, (f e).last = e.last) :
    (s.modify name f).value n = s.value n := by
  by_cases known : ∃ e ∈ s.entries, e.key = Text.lowercase n
  · obtain ⟨e, he, hn⟩ := known
    have key : (if e.key = Text.lowercase name then f e else e).key = Text.lowercase n := by
      split
      · exact (hk e).trans hn
      · exact hn
    rw [h.value_of_mem he hn, sound.value_of_mem (mem_modify.2 ⟨e, he, rfl⟩) key]
    split
    · rename_i hname
      rw [hl (hn.symm.trans hname)]
    · rfl
  · rw [value_eq_none fun e he hn => (known ⟨e, he, hn⟩).elim]
    apply value_eq_none
    intro e he hn
    obtain ⟨e, hs, rfl⟩ := mem_modify.1 he
    refine (known ⟨e, hs, ?_⟩).elim
    split at hn
    · exact (hk e).symm.trans hn
    · exact hn

/-- To follow a property changes no value. -/
theorem Sound.value_subscribe {s : Subscriptions} (h : s.Sound) (name : String) (receiver : Nat)
    (n : String) : (s.subscribe name receiver).1.value n = s.value n := by
  have sound := h.subscribe name receiver
  cases hf : s.find? name with
  | none =>
    rw [subscribe_new hf] at sound ⊢
    by_cases known : ∃ e ∈ s.entries, e.key = Text.lowercase n
    · obtain ⟨e, he, hn⟩ := known
      rw [h.value_of_mem he hn, sound.value_of_mem (List.mem_append_left _ he) hn]
    · rw [value_eq_none (s := s) fun e he hn => (known ⟨e, he, hn⟩).elim]
      apply value_eq_none
      intro e he hn
      rcases List.mem_append.1 he with he | he
      · exact (known ⟨e, he, hn⟩).elim
      · rw [List.mem_singleton.1 he]
  | some e =>
    by_cases hr : receiver ∈ e.receivers
    · rw [subscribe_already hf hr]
    · rw [subscribe_join hf hr] at sound ⊢
      exact h.value_modify sound (by simp) (by simp)

/-- The value of a property lasts while some receiver follows it. -/
theorem Sound.value_leave {s : Subscriptions} (h : s.Sound) (q : String → Bool) (receiver : Nat)
    {n : String}
    (followed : ∃ r, (s.leave (fun e => q e.key) receiver).1.Follows (Text.lowercase n) r) :
    (s.leave (fun e => q e.key) receiver).1.value n = s.value n := by
  obtain ⟨r, e, he, hk, -⟩ := followed
  rw [(h.leave q receiver).value_of_mem he hk]
  obtain ⟨e, hs, rfl, -⟩ := mem_leave.1 he
  rw [Subscription.without_key] at hk
  rw [Subscription.without_last, h.value_of_mem hs hk]

theorem Sound.value_publish {s s' : Subscriptions} (h : s.Sound) {line : PropertyLine}
    {ds : List Delivery} (hp : s.publish line = some (s', ds)) {n : String}
    (hn : Text.lowercase n ≠ Text.lowercase line.name) : s'.value n = s.value n := by
  have sound := h.publish hp
  obtain ⟨e, -, rfl, -⟩ := publish_eq_some.1 hp
  exact h.value_modify sound (fun _ => rfl) fun he => (hn he).elim

/-- An announcement is sent to all that follow the property and take announcements. -/
theorem Sound.mem_publish {s s' : Subscriptions} (h : s.Sound) {line : PropertyLine}
    {ds : List Delivery} (hp : s.publish line = some (s', ds)) {receiver : Nat}
    (follows : s.Follows (Text.lowercase line.name) receiver) (hc : receiver ∉ s.closed) :
    ⟨receiver, line⟩ ∈ ds := by
  obtain ⟨e, hf, -, rfl⟩ := publish_eq_some.1 hp
  obtain ⟨e', he, hk, hr⟩ := follows
  have same : s.find? line.name = some e' := h.find?_eq_some.2 ⟨he, hk⟩
  obtain rfl : e = e' := Option.some.inj (hf.symm.trans same)
  exact List.mem_map.2 ⟨receiver, List.mem_filter.2 ⟨hr, decide_eq_true hc⟩, rfl⟩

def joinAll (receiver : Nat) (names : List String) (s : Subscriptions) : Subscriptions :=
  names.foldl (fun s name => (s.subscribe name receiver).1) s

def leaveAll (receiver : Nat) (names : List String) (s : Subscriptions) : Subscriptions :=
  names.foldl (fun s name => (s.unsubscribe name receiver).1) s

theorem subscribe_receivers (name : String) (receiver : Nat) (s : Subscriptions) :
    (s.subscribe name receiver).1.created = s.created ∧
      (s.subscribe name receiver).1.closed = s.closed := by
  cases hf : s.find? name with
  | none => simp [subscribe_new hf]
  | some e =>
    by_cases hr : receiver ∈ e.receivers
    · simp [subscribe_already hf hr]
    · simp [subscribe_join hf hr, modify]

theorem joinAll_receivers (receiver : Nat) (names : List String) (s : Subscriptions) :
    (s.joinAll receiver names).created = s.created ∧
      (s.joinAll receiver names).closed = s.closed := by
  induction names generalizing s with
  | nil => exact ⟨rfl, rfl⟩
  | cons name names ih =>
    obtain ⟨created, closed⟩ := ih (s.subscribe name receiver).1
    obtain ⟨created', closed'⟩ := s.subscribe_receivers name receiver
    exact ⟨created.trans created', closed.trans closed'⟩

theorem Sound.joinAll {s : Subscriptions} (h : s.Sound) (receiver : Nat) (names : List String) :
    (s.joinAll receiver names).Sound := by
  induction names generalizing s with
  | nil => exact h
  | cons name names ih => exact ih (h.subscribe name receiver)

theorem Sound.follows_joinAll {s : Subscriptions} (h : s.Sound) (receiver : Nat)
    (names : List String) (key : String) (r : Nat) :
    (s.joinAll receiver names).Follows key r ↔
      s.Follows key r ∨ (r = receiver ∧ key ∈ names.map Text.lowercase) := by
  induction names generalizing s with
  | nil => simp [Subscriptions.joinAll]
  | cons name names ih =>
    apply (ih (h.subscribe name receiver)).trans
    rw [h.follows_subscribe, List.map_cons, List.mem_cons]
    tauto

theorem Sound.value_joinAll {s : Subscriptions} (h : s.Sound) (receiver : Nat)
    (names : List String) (n : String) : (s.joinAll receiver names).value n = s.value n := by
  induction names generalizing s with
  | nil => rfl
  | cons name names ih =>
    exact (ih (h.subscribe name receiver)).trans (h.value_subscribe name receiver n)

theorem leaveAll_receivers (receiver : Nat) (names : List String) (s : Subscriptions) :
    (s.leaveAll receiver names).created = s.created ∧
      (s.leaveAll receiver names).closed = s.closed := by
  induction names generalizing s with
  | nil => exact ⟨rfl, rfl⟩
  | cons name names ih => exact ih (s.unsubscribe name receiver).1

theorem Sound.leaveAll {s : Subscriptions} (h : s.Sound) (receiver : Nat) (names : List String) :
    (s.leaveAll receiver names).Sound := by
  induction names generalizing s with
  | nil => exact h
  | cons name names ih => exact ih (h.unsubscribe name receiver)

theorem follows_leaveAll (receiver : Nat) (names : List String) (s : Subscriptions) (key : String)
    (r : Nat) :
    (s.leaveAll receiver names).Follows key r ↔
      s.Follows key r ∧ ¬(r = receiver ∧ key ∈ names.map Text.lowercase) := by
  induction names generalizing s with
  | nil => simp [Subscriptions.leaveAll]
  | cons name names ih =>
    apply (ih (s.unsubscribe name receiver).1).trans
    rw [follows_unsubscribe, List.map_cons, List.mem_cons]
    tauto

theorem Sound.value_leaveAll {s : Subscriptions} (h : s.Sound) (receiver : Nat)
    (names : List String) {n : String}
    (followed : ∃ r, (s.leaveAll receiver names).Follows (Text.lowercase n) r) :
    (s.leaveAll receiver names).value n = s.value n := by
  induction names generalizing s with
  | nil => rfl
  | cons name names ih =>
    have before := (ih (h.unsubscribe name receiver) followed)
    obtain ⟨r, hr⟩ := followed
    have kept := ((follows_leaveAll receiver names _ _ _).1 hr).1
    exact before.trans
      (h.value_leave (fun key => decide (key = Text.lowercase name)) receiver ⟨r, kept⟩)

end Subscriptions

end ControlDeck
