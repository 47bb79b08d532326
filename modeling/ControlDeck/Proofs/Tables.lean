import ControlDeck.Proofs.Telling

namespace ControlDeck

/-- A table with at most one entry for a key. -/
abbrev Table (α : Type) := List (String × α)

namespace Table

variable {α : Type}

def get? (key : String) (t : Table α) : Option α :=
  (t.find? (·.1 = key)).map (·.2)

def erase (key : String) (t : Table α) : Table α :=
  t.filter (·.1 ≠ key)

def insert (key : String) (value : α) (t : Table α) : Table α :=
  t.erase key ++ [(key, value)]

def update (key : String) (f : α → α) (t : Table α) : Table α :=
  t.map fun entry => if entry.1 = key then (entry.1, f entry.2) else entry

end Table

/-- The receivers of a property, and what was announced of it last. -/
structure Audience where
  receivers : List Nat
  last : Option PropertyLine := none

def Audience.without (receiver : Nat) (a : Audience) : Audience :=
  { a with receivers := a.receivers.filter (· ≠ receiver) }

/-- A registry that keeps the spellings of the properties in a table of their own. -/
structure Tables where
  subscriptions : Table Audience := []
  names : Table String := []
  created : Nat := 0
  closed : List Nat := []
  connected : Bool := false

namespace Tables

open Subscriptions (Call Answer)

def deliver (receivers : List Nat) (line : PropertyLine) (t : Tables) : List Delivery :=
  (receivers.filter (· ∉ t.closed)).map fun receiver => ⟨receiver, line⟩

def subscribe (name : String) (receiver : Nat) (t : Tables) : Tables × Joining × List Delivery :=
  let key := Text.lowercase name
  match t.subscriptions.get? key with
  | none =>
    ({ t with
        subscriptions := t.subscriptions.insert key { receivers := [receiver] }
        names := t.names.insert key name },
      if t.connected then .send else .deferred, [])
  | some audience =>
    if receiver ∈ audience.receivers then (t, .already, [])
    else
      ({ t with
          subscriptions := t.subscriptions.update key fun a =>
            { a with receivers := a.receivers ++ [receiver] } },
        .joined, audience.last.elim [] fun line => t.deliver [receiver] line)

def forget (key : String) (t : Tables) : Tables :=
  { t with subscriptions := t.subscriptions.erase key, names := t.names.erase key }

/-- Where there is no spelling of a property that no receiver is left of, the spelling of the call
would serve. -/
def unsubscribe (name : String) (receiver : Nat) (t : Tables) : Tables × Option String :=
  let key := Text.lowercase name
  match t.subscriptions.get? key with
  | none => (t, none)
  | some audience =>
    let left := { t with subscriptions := t.subscriptions.update key (Audience.without receiver) }
    if (audience.without receiver).receivers ≠ [] then (left, none)
    else
      (left.forget key, if t.connected then some ((t.names.get? key).getD name) else none)

/-- Forgets some properties, and returns the spellings of those that have one. -/
def forgetAll : List String → Tables → Tables × List String
  | [], t => (t, [])
  | key :: keys, t =>
    let (t', names) := forgetAll keys (t.forget key)
    (t', (t.names.get? key).toList ++ names)

/-- Only a property that the receiver followed is forgotten. -/
def remove (receiver : Nat) (t : Tables) : Tables × List String :=
  let emptied := (t.subscriptions.filter fun entry =>
    receiver ∈ entry.2.receivers ∧ (entry.2.without receiver).receivers = []).map (·.1)
  let left := { t with subscriptions := t.subscriptions.map fun (entry : String × Audience) =>
    (entry.1, entry.2.without receiver) }
  let (t', names) := left.forgetAll emptied
  (t', if t.connected then names else [])

def publish (line : PropertyLine) (t : Tables) : Option (Tables × List Delivery) :=
  let key := Text.lowercase line.name
  (t.subscriptions.get? key).map fun audience =>
    ({ t with subscriptions := t.subscriptions.update key fun a => { a with last := some line } },
      t.deliver audience.receivers line)

/-- The receivers of a property. -/
def receivers (key : String) (t : Tables) : List Nat :=
  ((t.subscriptions.get? key).map (·.receivers)).getD []

def apply (t : Tables) : Call → Tables × Answer
  | .newReceiver => ({ t with created := t.created + 1 }, {})
  | .close receiver => ({ t with closed := receiver :: t.closed }, {})
  | .subscribe name receiver =>
    let (t, joining, deliveries) := t.subscribe name receiver
    (t, { deliveries, requests := if joining = .send then [.subscribe name] else [] })
  | .unsubscribe name receiver =>
    let (t, spelling) := t.unsubscribe name receiver
    (t, { requests := spelling.toList.map .unsubscribe })
  | .remove receiver =>
    let (t, names) := t.remove receiver
    (t, { requests := names.map .unsubscribe })
  | .publish line =>
    match t.publish line with
    | none => (t, {})
    | some (t, deliveries) => (t, { deliveries })
  | .connect => ({ t with connected := true }, { desired := t.names.map (·.2) })
  | .disconnect => ({ t with connected := false }, {})

def run (t : Tables) (calls : List Call) : Tables × List Answer :=
  Subscriptions.runWith apply t calls

end Tables

namespace Subscriptions

def keyOf (name key : String) : Bool :=
  key = Text.lowercase name

theorem unsubscribe_eq (name : String) (receiver : Nat) (s : Subscriptions) :
    s.unsubscribe name receiver = s.leave (fun e => keyOf name e.key) receiver := rfl

/-- Whether a subscription keeps some receiver when one leaves. -/
def lasts (q : String → Bool) (receiver : Nat) (e : Subscription) : Bool :=
  !(e.without q receiver).receivers.isEmpty

theorem leave_eq_lasts (s : Subscriptions) (q : String → Bool) (receiver : Nat) :
    s.leave (fun e => q e.key) receiver =
      ({ s with entries := (s.entries.filter (lasts q receiver)).map (·.without q receiver) },
        if s.connected then (s.entries.filter (!lasts q receiver ·)).map (·.name) else []) := by
  have lasting : lasts q receiver = fun e => !(e.without q receiver).receivers.isEmpty := rfl
  rw [leave_eq, List.filter_map, List.filter_map, List.map_map]
  simp [Function.comp_def, lasting]

theorem remove_eq (receiver : Nat) (s : Subscriptions) :
    s.remove receiver =
      ({ s with
          entries := (s.entries.filter (lasts (fun _ => true) receiver)).map
            (·.without (fun _ => true) receiver) },
        if s.connected then
          (s.entries.filter (!lasts (fun _ => true) receiver ·)).map (·.name)
        else []) :=
  s.leave_eq_lasts (fun _ => true) receiver

namespace Sound

variable {s : Subscriptions} {name : String} {receiver : Nat} {e : Subscription}

theorem lasts_other (h : s.Sound) (he : e ∈ s.entries) {q : String → Bool} (hq : ¬q e.key) :
    lasts q receiver e := by
  simpa [lasts, Subscription.without, hq] using h.followed e he

/-- Where no subscription ends, the receiver is only taken out. -/
theorem leave_lasting {q : String → Bool} (all : ∀ e ∈ s.entries, lasts q receiver e) :
    s.leave (fun e => q e.key) receiver =
      ({ s with entries := s.entries.map (·.without q receiver) }, []) := by
  have ended : s.entries.filter (!lasts q receiver ·) = [] :=
    List.filter_eq_nil_iff.2 fun e he => by simp [all e he]
  rw [leave_eq_lasts, List.filter_eq_self.2 all, ended, List.map_nil, ite_self]

theorem unsubscribe_unknown (h : s.Sound) (unknown : s.find? name = none) :
    s.unsubscribe name receiver = (s, []) := by
  have other := find?_eq_none.1 unknown
  have all : ∀ e ∈ s.entries, lasts (keyOf name) receiver e :=
    fun e he => h.lasts_other he (by simpa [keyOf] using other e he)
  have same : s.entries.map (·.without (keyOf name) receiver) = s.entries.map id :=
    List.map_congr_left fun e he => if_neg (by simpa [keyOf] using other e he)
  rw [unsubscribe_eq, leave_lasting all, same, List.map_id]

/-- The subscription to a property lasts if a receiver is left; all others do anyhow. -/
theorem lasts_keyOf (h : s.Sound) (found : s.find? name = some e) {e' : Subscription}
    (he' : e' ∈ s.entries) :
    lasts (keyOf name) receiver e' =
      (!keyOf name e'.key || !(e.receivers.filter (· ≠ receiver)).isEmpty) := by
  by_cases own : keyOf name e'.key
  · obtain rfl := h.eq_of_find? found he' (of_decide_eq_true own)
    rw [lasts, Subscription.without, if_pos own, own]
    rfl
  · rw [h.lasts_other he' own, Bool.eq_false_iff.2 own]
    rfl

theorem unsubscribe_others (h : s.Sound) (found : s.find? name = some e)
    (others : e.receivers.filter (· ≠ receiver) ≠ []) :
    s.unsubscribe name receiver =
      (s.modify name fun e => { e with receivers := e.receivers.filter (· ≠ receiver) }, []) := by
  have all : ∀ e' ∈ s.entries, lasts (keyOf name) receiver e' := fun e' he' => by
    rw [h.lasts_keyOf found he', List.isEmpty_eq_false_iff.2 others, Bool.not_false, Bool.or_true]
  rw [unsubscribe_eq, leave_lasting all, Subscriptions.modify]
  simp only [Subscription.without, keyOf, decide_eq_true_eq]

theorem unsubscribe_last (h : s.Sound) (found : s.find? name = some e)
    (last : e.receivers.filter (· ≠ receiver) = []) :
    s.unsubscribe name receiver =
      ({ s with entries := s.entries.filter (·.key ≠ Text.lowercase name) },
        if s.connected then [e.name] else []) := by
  obtain ⟨he, hk⟩ := h.find?_eq_some.1 found
  have lasting : s.entries.filter (lasts (keyOf name) receiver) =
      s.entries.filter (·.key ≠ Text.lowercase name) :=
    List.filter_congr fun e' he' => by
      rw [h.lasts_keyOf found he', last]
      simp [keyOf]
  have ended : s.entries.filter (!lasts (keyOf name) receiver ·) = [e] := by
    rw [← filter_key_eq (·.key) h.apart he]
    refine List.filter_congr fun e' he' => ?_
    rw [h.lasts_keyOf found he', last]
    simp [keyOf, hk]
  have same : (s.entries.filter (·.key ≠ Text.lowercase name)).map
      (·.without (keyOf name) receiver) =
      (s.entries.filter (·.key ≠ Text.lowercase name)).map id :=
    List.map_congr_left fun e' he' => if_neg (by simpa [keyOf] using (List.mem_filter.1 he').2)
  rw [unsubscribe_eq, leave_eq_lasts, lasting, ended, same, List.map_id]
  rfl

/-- Where some receiver is listed, none is left only if the one that leaves was listed. -/
theorem lasts_all (h : s.Sound) (he : e ∈ s.entries) : lasts (fun _ => true) receiver e = false ↔
    receiver ∈ e.receivers ∧ e.receivers.filter (· ≠ receiver) = [] := by
  have left : (e.without (fun _ => true) receiver).receivers =
      e.receivers.filter (· ≠ receiver) := rfl
  rw [lasts, Bool.not_eq_false', List.isEmpty_iff, left]
  refine (and_iff_right_of_imp fun none => ?_).symm
  obtain ⟨r, hr⟩ := List.exists_mem_of_ne_nil _ (h.followed e he)
  have same : r = receiver := by simpa using List.filter_eq_nil_iff.1 none r hr
  exact same ▸ hr

/-- The subscriptions that stay are known by their keys. -/
theorem lasts_iff (h : s.Sound) (he : e ∈ s.entries) {q : String → Bool} :
    e.key ∉ (s.entries.filter (!lasts q receiver ·)).map (·.key) ↔ lasts q receiver e := by
  constructor
  · intro other
    by_contra ends
    exact other (List.mem_map_of_mem (List.mem_filter.2 ⟨he, by simpa using ends⟩))
  · intro stays mem
    obtain ⟨e', he', hk⟩ := List.mem_map.1 mem
    obtain ⟨he', ends⟩ := List.mem_filter.1 he'
    rw [h.eq_of_key he he' hk, stays] at ends
    exact Bool.false_ne_true ends

end Sound

end Subscriptions

namespace Tables

open Subscriptions

/-- The tables of a registry. -/
def of (s : Subscriptions) : Tables where
  subscriptions := s.entries.map fun e => (e.key, ⟨e.receivers, e.last⟩)
  names := s.entries.map fun e => (e.key, e.name)
  created := s.created
  closed := s.closed
  connected := s.connected

section

variable {s : Subscriptions} {key name : String} {receiver : Nat} {e : Subscription}

theorem get?_map {α : Type} (value : Subscription → α) (entries : List Subscription) :
    Table.get? key (entries.map fun e => (e.key, value e)) =
      (entries.find? (·.key = key)).map value := by
  rw [Table.get?, List.find?_map, Option.map_map]
  rfl

theorem erase_map {α : Type} (value : Subscription → α) (entries : List Subscription) :
    Table.erase key (entries.map fun e => (e.key, value e)) =
      (entries.filter (·.key ≠ key)).map fun e => (e.key, value e) := by
  rw [Table.erase, List.filter_map]
  rfl

theorem audience_of (key : String) (s : Subscriptions) :
    (of s).subscriptions.get? key =
      (s.entries.find? (·.key = key)).map fun e => ⟨e.receivers, e.last⟩ :=
  get?_map _ s.entries

theorem spelling_of (key : String) (s : Subscriptions) :
    (of s).names.get? key = (s.entries.find? (·.key = key)).map (·.name) :=
  get?_map _ s.entries

/-- A new entry comes after all others. -/
theorem insert_map {α : Type} (value : Subscription → α) (entries : List Subscription)
    (new : ∀ e ∈ entries, e.key ≠ key) (v : α) :
    Table.insert key v (entries.map fun e => (e.key, value e)) =
      (entries.map fun e => (e.key, value e)) ++ [(key, v)] := by
  rw [Table.insert, erase_map, List.filter_eq_self.2 fun e he => decide_eq_true (new e he)]

/-- A change of the subscription to a property that keeps its spelling. -/
theorem of_modify (s : Subscriptions) (name : String) {f : Subscription → Subscription}
    (change : Audience → Audience) (hk : ∀ e, (f e).key = e.key) (hn : ∀ e, (f e).name = e.name)
    (hf : ∀ e : Subscription, ⟨(f e).receivers, (f e).last⟩ = change ⟨e.receivers, e.last⟩) :
    of (s.modify name f) =
      { of s with
        subscriptions := (of s).subscriptions.update (Text.lowercase name) change } := by
  have subscriptions : (of (s.modify name f)).subscriptions =
      (of s).subscriptions.update (Text.lowercase name) change := by
    simp only [of, Subscriptions.modify, Table.update, List.map_map]
    refine List.map_congr_left fun e _ => ?_
    simp only [Function.comp_apply]
    split
    · rw [hk, hf]
    · rfl
  have names : (of (s.modify name f)).names = (of s).names := by
    simp only [of, Subscriptions.modify, List.map_map]
    refine List.map_congr_left fun e _ => ?_
    simp only [Function.comp_apply]
    split
    · rw [hk, hn]
    · rfl
  exact Tables.mk.injEq .. |>.mpr ⟨subscriptions, names, rfl, rfl, rfl⟩

theorem subscribe_of (s : Subscriptions) (name : String) (receiver : Nat) :
    (of s).subscribe name receiver =
      (of (s.subscribe name receiver).1, (s.subscribe name receiver).2) := by
  rw [subscribe, audience_of]
  cases found : s.find? name with
  | none =>
    have unknown : s.entries.find? (·.key = Text.lowercase name) = none := found
    have new := find?_eq_none.1 found
    rw [unknown, subscribe_new found]
    simp only [Option.map_none, of, insert_map _ _ new, List.map_append, List.map_cons,
      List.map_nil]
    rfl
  | some e =>
    have known : s.entries.find? (·.key = Text.lowercase name) = some e := found
    rw [known, Option.map_some]
    by_cases hr : receiver ∈ e.receivers
    · rw [subscribe_already found hr]
      exact if_pos hr
    · have joined := of_modify s name
        (f := fun e => { e with receivers := e.receivers ++ [receiver] })
        (fun a => { a with receivers := a.receivers ++ [receiver] }) (fun _ => rfl) (fun _ => rfl)
        fun _ => rfl
      rw [subscribe_join found hr, joined]
      exact if_neg hr

theorem publish_of (s : Subscriptions) (line : PropertyLine) :
    (of s).publish line = (s.publish line).map fun (s, deliveries) => (of s, deliveries) := by
  have announced := of_modify s line.name (f := fun e => { e with last := some line })
    (fun a => { a with last := some line }) (fun _ => rfl) (fun _ => rfl) fun _ => rfl
  rw [publish, Subscriptions.publish, audience_of, Option.map_map, Option.map_map]
  simp only [Function.comp_def, announced]
  rfl

theorem of_forget (s : Subscriptions) (key : String) :
    of { s with entries := s.entries.filter (·.key ≠ key) } = (of s).forget key := by
  simp only [of, forget, erase_map]

theorem erase_update {α : Type} (key : String) (f : α → α) (t : Table α) :
    (t.update key f).erase key = t.erase key := by
  induction t with
  | nil => rfl
  | cons entry t ih =>
    by_cases own : entry.1 = key
    · simpa [Table.erase, Table.update, own] using ih
    · simpa [Table.erase, Table.update, own] using ih

theorem unsubscribe_of (h : s.Sound) (name : String) (receiver : Nat) :
    ((of s).unsubscribe name receiver).1 = of (s.unsubscribe name receiver).1 ∧
      ((of s).unsubscribe name receiver).2.toList = (s.unsubscribe name receiver).2 := by
  rw [unsubscribe, audience_of]
  cases found : s.find? name with
  | none =>
    have unknown : s.entries.find? (·.key = Text.lowercase name) = none := found
    rw [unknown, h.unsubscribe_unknown found]
    exact ⟨rfl, rfl⟩
  | some e =>
    have known : s.entries.find? (·.key = Text.lowercase name) = some e := found
    rw [known, Option.map_some]
    by_cases last : e.receivers.filter (· ≠ receiver) = []
    · rw [h.unsubscribe_last found last, of_forget]
      have spelling : (of s).names.get? (Text.lowercase name) = some e.name := by
        rw [spelling_of, known, Option.map_some]
      simp only [Audience.without, last, ne_eq, not_true_eq_false, if_false, spelling]
      refine ⟨?_, ?_⟩
      · simp only [forget, erase_update]
      · rw [show (of s).connected = s.connected from rfl]
        cases s.connected <;> rfl
    · have left := of_modify s name
        (f := fun e => { e with receivers := e.receivers.filter (· ≠ receiver) })
        (Audience.without receiver) (fun _ => rfl) (fun _ => rfl) fun _ => rfl
      rw [h.unsubscribe_others found last, left]
      simp only [Audience.without, ne_eq, last, not_false_eq_true, if_true, Option.toList_none,
        and_self]

theorem forgetAll_fst (keys : List String) (t : Tables) :
    (forgetAll keys t).1 =
      { t with
        subscriptions := t.subscriptions.filter (·.1 ∉ keys)
        names := t.names.filter (·.1 ∉ keys) } := by
  induction keys generalizing t with
  | nil => simp [forgetAll]
  | cons key keys ih => simp [forgetAll, ih, forget, Table.erase, List.filter_filter, Bool.and_comm]

theorem get?_erase {α : Type} {key key' : String} (other : key' ≠ key) (t : Table α) :
    (t.erase key).get? key' = t.get? key' := by
  rw [Table.get?, Table.erase, List.find?_filter, Table.get?]
  congr 2
  funext entry
  by_cases own : entry.1 = key'
  · simp [own, other]
  · simp [own]

theorem forgetAll_snd {keys : List String} (nodup : keys.Nodup) (t : Tables) :
    (forgetAll keys t).2 = keys.filterMap fun key => t.names.get? key := by
  induction keys generalizing t with
  | nil => rfl
  | cons key keys ih =>
    obtain ⟨new, nodup⟩ := List.nodup_cons.1 nodup
    have kept : keys.filterMap (fun key' => (t.forget key).names.get? key') =
        keys.filterMap fun key' => t.names.get? key' :=
      List.filterMap_congr fun key' hk => get?_erase (ne_of_mem_of_not_mem hk new) t.names
    change (t.names.get? key).toList ++ (forgetAll keys (t.forget key)).2 = _
    rw [ih nodup, kept, List.filterMap_cons]
    cases t.names.get? key <;> rfl

theorem find?_key (h : s.Sound) (he : e ∈ s.entries) :
    s.entries.find? (·.key = e.key) = some e := by
  rw [← List.head?_filter, filter_key_eq (·.key) h.apart he]
  rfl

theorem remove_of (h : s.Sound) (receiver : Nat) :
    (of s).remove receiver = (of (s.remove receiver).1, (s.remove receiver).2) := by
  let stays := lasts (fun _ => true) receiver
  let ended := s.entries.filter (!stays ·)
  have emptied : ((of s).subscriptions.filter fun entry =>
      receiver ∈ entry.2.receivers ∧ (entry.2.without receiver).receivers = []).map (·.1) =
        ended.map (·.key) := by
    rw [of, List.filter_map, List.map_map]
    refine congrArg (List.map Subscription.key) (List.filter_congr fun e he => ?_)
    rw [Bool.eq_iff_iff, Bool.not_eq_true', h.lasts_all he]
    exact decide_eq_true_iff
  have nodup : (ended.map (·.key)).Nodup :=
    h.apart.sublist (List.filter_sublist.map _)
  have spellings : (ended.map (·.key)).filterMap (fun key => (of s).names.get? key) =
      ended.map (·.name) := by
    rw [List.filterMap_map]
    refine List.filterMap_eq_map_iff_forall_eq_some.2 fun e he => ?_
    rw [Function.comp_apply, spelling_of, find?_key h (List.mem_of_mem_filter he), Option.map_some]
  have kept {α : Type} (value : Subscription → α) :
      (s.entries.map fun e => (e.key, value e)).filter (·.1 ∉ ended.map (·.key)) =
        (s.entries.filter stays).map fun e => (e.key, value e) := by
    rw [List.filter_map]
    refine congrArg (List.map _) (List.filter_congr fun e he => ?_)
    rw [Bool.eq_iff_iff, Function.comp_apply, decide_eq_true_iff]
    exact h.lasts_iff he
  let left : Tables := { of s with
    subscriptions := s.entries.map fun e =>
      (e.key, Audience.without receiver ⟨e.receivers, e.last⟩) }
  have forgotten : left.forgetAll (ended.map (·.key)) =
      (of (s.remove receiver).1, ended.map (·.name)) := by
    refine Prod.ext ?_ ((forgetAll_snd nodup left).trans spellings)
    rw [forgetAll_fst, remove_eq]
    simp only [of, left, kept, List.map_map, stays]
    rfl
  have gone : (s.remove receiver).2 = if s.connected then ended.map (·.name) else [] :=
    congrArg Prod.snd (remove_eq receiver s)
  have taken : ((of s).subscriptions.map fun (entry : String × Audience) =>
      (entry.1, entry.2.without receiver)) = left.subscriptions := List.map_map ..
  rw [remove, emptied, taken, gone]
  exact congrArg (fun (t : Tables × List String) => (t.1, if s.connected then t.2 else []))
    forgotten

theorem apply_of (h : s.Sound) (call : Call) :
    (of s).apply call = (of (s.apply call).1, (s.apply call).2) := by
  cases call with
  | newReceiver | close | disconnect => rfl
  | connect =>
    have desired : (of s).names.map (·.2) = s.desired := List.map_map ..
    rw [apply, desired]
    rfl
  | subscribe name receiver =>
    rw [apply, subscribe_of]
    rfl
  | unsubscribe name receiver =>
    obtain ⟨same, spelling⟩ := unsubscribe_of h name receiver
    simp only [apply, Subscriptions.apply, same, spelling]
  | remove receiver =>
    rw [apply, remove_of h]
    rfl
  | publish line =>
    rw [apply, publish_of, Subscriptions.apply]
    cases s.publish line <;> rfl

/-- The tables are the same registry in another form. -/
theorem run_of {past : List Call} (h : s.Tracks past) (calls : List Call) :
    (of s).run calls = (of (s.run calls).1, (s.run calls).2) := by
  induction calls generalizing s past with
  | nil => rfl
  | cons call calls ih =>
    have first := apply_of h.sound call
    have later := ih (h.apply call)
    rw [run, Subscriptions.run] at later ⊢
    rw [runWith_cons, first, later, runWith_cons]

theorem mem_receivers (h : s.Sound) : receiver ∈ (of s).receivers key ↔ s.Follows key receiver := by
  rw [receivers, audience_of]
  cases found : s.entries.find? (·.key = key) with
  | none =>
    refine iff_of_false (List.not_mem_nil) ?_
    rintro ⟨e, he, hk, -⟩
    exact List.find?_eq_none.1 found e he (decide_eq_true hk)
  | some e =>
    have he := List.mem_of_find?_eq_some found
    obtain rfl : e.key = key := by simpa using List.find?_some found
    exact (h.follows_iff he).symm

theorem receivers_ne_nil (h : s.Sound) : (of s).receivers key ≠ [] ↔ s.Knows key := by
  rw [h.knows_iff]
  constructor
  · intro some
    obtain ⟨receiver, hr⟩ := List.exists_mem_of_ne_nil _ some
    exact ⟨receiver, (mem_receivers h).1 hr⟩
  · rintro ⟨receiver, hr⟩
    exact List.ne_nil_of_mem ((mem_receivers h).2 hr)

/-- The two tables are about the same properties, each in a spelling of its own and with some
receiver. -/
structure Consistent (t : Tables) : Prop where
  same : t.subscriptions.map (·.1) = t.names.map (·.1)
  apart : (t.names.map (·.1)).Nodup
  spelled : ∀ entry ∈ t.names, Text.lowercase entry.2 = entry.1
  followed : ∀ entry ∈ t.subscriptions, entry.2.receivers ≠ []

theorem consistent_of (h : s.Sound) : (of s).Consistent where
  same := by simp only [of, List.map_map, Function.comp_def]
  apart := by
    simp only [of, List.map_map, Function.comp_def]
    exact h.apart
  spelled := by
    intro entry mem
    obtain ⟨e, he, rfl⟩ := List.mem_map.1 mem
    exact (h.keyed e he).symm
  followed := by
    intro entry mem
    obtain ⟨e, he, rfl⟩ := List.mem_map.1 mem
    exact h.followed e he

theorem asks_of {past : List Call} {sent : List Request} (h : s.Tracks past)
    (informed : s.Informed sent) (call : Call) (key : String) :
    Asks s.connected ((of s).receivers key ≠ []) ((of (s.apply call).1).receivers key ≠ [])
      (about key sent) (about key (s.apply call).2.requests) := by
  rw [receivers_ne_nil h.sound, receivers_ne_nil (h.apply call).sound]
  exact informed.asks h.sound call

/-- After any calls the tables are those of the registry and consistent, and a receiver is listed
just if the calls registered it. Any next call asks for a subscription, or to give one up, just when
its property gets a first receiver or loses the last, over a connection. -/
theorem run_counts (calls : List Call) (call : Call) :
    let (s, answers) := Subscriptions.run {} calls
    let (s', answer) := s.apply call
    run {} calls = (of s, answers) ∧ (of s).apply call = (of s', answer) ∧ (of s).Consistent ∧
      ∀ key,
        (∀ receiver, receiver ∈ (of s).receivers key ↔ registered key receiver calls.reverse) ∧
        Asks s.connected ((of s).receivers key ≠ []) ((of s').receivers key ≠ [])
          (about key (told answers)) (about key answer.requests) := by
  have tracks := List.append_nil calls.reverse ▸ Tracks.start.run calls
  have informed := Informed.start.run .start calls
  have sound := tracks.sound
  refine ⟨run_of .start calls, apply_of sound call, consistent_of sound, fun key => ⟨?_, ?_⟩⟩
  · exact fun receiver => (mem_receivers sound).trans (tracks.follows key receiver)
  · exact asks_of tracks informed call key

end

end Tables

end ControlDeck
