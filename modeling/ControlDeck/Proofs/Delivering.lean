import ControlDeck.Proofs.History

namespace ControlDeck.Subscriptions

variable {key : String} {receiver : Nat} {past : List Call} {s : Subscriptions}

/-- The announcements of a property among the deliveries to a receiver. -/
def linesTo (key : String) (receiver : Nat) (deliveries : List Delivery) : List PropertyLine :=
  (deliveries.filter fun d => d.receiver = receiver ∧ Text.lowercase d.line.name = key).map (·.line)

/-- The announcements of a property that a receiver is sent. -/
def received (key : String) (receiver : Nat) (answers : List Answer) : List PropertyLine :=
  linesTo key receiver (answers.flatMap (·.deliveries))

/-- What is announced of a property until a receiver is taken out. -/
def announcedUntilLeft (key : String) (receiver : Nat) (calls : List Call) : List PropertyLine :=
  (calls.takeWhile (·.registers? key receiver ≠ some false)).filterMap (·.announces? key)

/-- What a receiver is to be sent of a property in each period in which it is registered: what was
announced last before it joined, and then each announcement. -/
def periods (key : String) (receiver : Nat) (past : List Call) :
    List Call → List (List PropertyLine)
  | [] => []
  | call :: calls =>
    let later := periods key receiver (call :: past) calls
    if call.registers? key receiver = some true ∧ registered key receiver past = false then
      ((cached key past).toList ++ announcedUntilLeft key receiver calls) :: later
    else later

theorem announces_of_registers {call : Call} {joins : Bool}
    (h : call.registers? key receiver = some joins) : call.announces? key = none := by
  cases call with
  | publish => simp [Call.registers?] at h
  | _ => rfl

theorem announcedUntilLeft_cons (call : Call) (calls : List Call) :
    announcedUntilLeft key receiver (call :: calls) =
      if call.registers? key receiver = some false then []
      else (call.announces? key).toList ++ announcedUntilLeft key receiver calls := by
  by_cases leaves : call.registers? key receiver = some false
  · simp [announcedUntilLeft, leaves]
  · cases announces : call.announces? key <;> simp [announcedUntilLeft, leaves, announces]

@[simp] theorem linesTo_nil : linesTo key receiver [] = [] := rfl

theorem linesTo_append (ds ds' : List Delivery) :
    linesTo key receiver (ds ++ ds') = linesTo key receiver ds ++ linesTo key receiver ds' := by
  rw [linesTo, List.filter_append, List.map_append]
  rfl

theorem received_cons (answer : Answer) (answers : List Answer) :
    received key receiver (answer :: answers) =
      linesTo key receiver answer.deliveries ++ received key receiver answers := by
  rw [received, List.flatMap_cons, linesTo_append]
  rfl

theorem linesTo_deliver {receivers : List Nat} (nodup : receivers.Nodup)
    (open_ : receiver ∉ s.closed) (line : PropertyLine) :
    linesTo key receiver (s.deliver receivers line) =
      if receiver ∈ receivers ∧ Text.lowercase line.name = key then [line] else [] := by
  by_cases named : Text.lowercase line.name = key
  · have own : (receivers.filter (· ∉ s.closed)).filter (· = receiver) =
        if receiver ∈ receivers then [receiver] else [] := by
      rw [List.filter_comm, List.filter_eq, nodup.count]
      split
      · simp [open_]
      · rfl
    simp only [linesTo, deliver, List.filter_map, List.map_map]
    simp only [Function.comp_def, named, and_true, own]
    split <;> rfl
  · rw [if_neg fun h => named h.2, linesTo, List.map_eq_nil_iff, List.filter_eq_nil_iff]
    intro d hd
    obtain ⟨r, -, rfl⟩ := List.mem_map.1 hd
    simp [named]

namespace Tracks

theorem mem_receivers (h : s.Tracks past) {name : String} {e : Subscription}
    (found : s.find? name = some e) :
    receiver ∈ e.receivers ↔ registered (Text.lowercase name) receiver past := by
  obtain ⟨he, hk⟩ := h.sound.find?_eq_some.1 found
  rw [← h.follows, ← hk, h.sound.follows_iff he]

theorem linesTo_subscribe (h : s.Tracks past) (open_ : receiver ∉ s.closed) (name : String)
    (r : Nat) :
    linesTo key receiver (s.subscribe name r).2.2 =
      if Text.lowercase name = key ∧ r = receiver ∧ registered key receiver past = false
      then (cached key past).toList else [] := by
  cases found : s.find? name with
  | none =>
    rw [subscribe_new found, linesTo_nil]
    split
    · rename_i joins
      rw [← joins.1, cached_of_unfollowed (h.not_followed found)]
      rfl
    · rfl
  | some e =>
    have lists : r ∈ e.receivers ↔ _ := h.mem_receivers found
    by_cases hr : r ∈ e.receivers
    · rw [subscribe_already found hr, linesTo_nil, if_neg]
      rintro ⟨rfl, rfl, new⟩
      exact absurd (lists.1 hr) (by simp [new])
    · obtain ⟨he, hk⟩ := h.sound.find?_eq_some.1 found
      have last : e.last = cached (Text.lowercase name) past := hk ▸ h.last e he
      rw [subscribe_join found hr, last]
      cases hc : cached (Text.lowercase name) past with
      | none =>
        rw [Option.elim_none, linesTo_nil]
        split
        · rename_i joins
          rw [← joins.1, hc]
          rfl
        · rfl
      | some line =>
        rw [Option.elim_some, linesTo_deliver (List.nodup_singleton r) open_,
          lowercase_of_cached hc]
        by_cases joins : Text.lowercase name = key ∧ r = receiver
        · obtain ⟨rfl, rfl⟩ := joins
          have new : registered (Text.lowercase name) r past = false :=
            Bool.eq_false_iff.2 fun already => hr (lists.2 already)
          rw [if_pos ⟨List.mem_singleton_self r, rfl⟩, if_pos ⟨rfl, rfl, new⟩, hc]
          rfl
        · rw [if_neg fun h => joins ⟨h.2, (List.mem_singleton.1 h.1).symm⟩,
            if_neg fun h => joins ⟨h.1, h.2.1⟩]

theorem linesTo_publish (h : s.Tracks past) (open_ : receiver ∉ s.closed) (line : PropertyLine) :
    linesTo key receiver (s.apply (.publish line)).2.deliveries =
      if Text.lowercase line.name = key ∧ registered key receiver past then [line] else [] := by
  rw [Subscriptions.apply]
  cases found : s.find? line.name with
  | none =>
    rw [Subscriptions.publish, found, Option.map_none, linesTo_nil, if_neg]
    rintro ⟨rfl, already⟩
    have followed := Subscriptions.followed_iff.2 ⟨receiver, already⟩
    simp [h.not_followed found] at followed
  | some e =>
    obtain ⟨he, -⟩ := h.sound.find?_eq_some.1 found
    rw [Subscriptions.publish, found, Option.map_some]
    refine (linesTo_deliver (h.once e he) open_ line).trans (if_congr ?_ rfl rfl)
    rw [h.mem_receivers found, and_comm]
    exact and_congr_right fun named => by rw [named]

/-- What a call sends a receiver of a property. -/
theorem linesTo_apply (h : s.Tracks past) (open_ : receiver ∉ s.closed) (call : Call) :
    linesTo key receiver (s.apply call).2.deliveries =
      if registered key receiver past then (call.announces? key).toList
      else if call.registers? key receiver = some true then (cached key past).toList else [] := by
  cases call with
  | newReceiver | close | connect | disconnect | unsubscribe | remove =>
    simp [Subscriptions.apply, Call.registers?, Call.announces?]
  | subscribe name r =>
    refine (h.linesTo_subscribe open_ name r).trans ?_
    cases registered key receiver past <;> simp [Call.registers?, Call.announces?]
  | publish line =>
    rw [h.linesTo_publish open_]
    by_cases named : Text.lowercase line.name = key <;>
      cases registered key receiver past <;> simp [Call.registers?, Call.announces?, named]

/-- What a receiver is sent by some calls, whether it is registered when they begin or not. -/
theorem received_run (h : s.Tracks past) {calls : List Call} (open_ : .close receiver ∉ past)
    (open_' : .close receiver ∉ calls) :
    received key receiver (s.run calls).2 =
      (if registered key receiver past then announcedUntilLeft key receiver calls else []) ++
        (periods key receiver past calls).flatten := by
  induction calls generalizing s past with
  | nil => cases registered key receiver past <;> rfl
  | cons call calls ih =>
    obtain ⟨other, open_'⟩ := not_or.1 (List.mem_cons.not.1 open_')
    have later := ih (h.apply call) (List.mem_cons.not.2 (not_or.2 ⟨other, open_⟩)) open_'
    have now : linesTo key receiver (s.apply call).2.deliveries = _ :=
      h.linesTo_apply (fun closed => open_ (h.closed _ closed)) call
    rw [registered_cons] at later
    change received key receiver ((s.apply call).2 :: ((s.apply call).1.run calls).2) = _
    rw [received_cons, now, later, periods]
    cases before : registered key receiver past with
    | true =>
      rw [announcedUntilLeft_cons]
      cases registers : call.registers? key receiver with
      | none => simp
      | some joins =>
        have silent := announces_of_registers registers
        cases joins <;> simp [silent]
    | false =>
      cases registers : call.registers? key receiver with
      | none => simp
      | some joins => cases joins <;> simp

end Tracks

/-- Of each property a receiver is sent just what it is to be sent in the periods in which it is
registered, and the value of a property is the one announced last since its subscription began. -/
theorem run_delivers (calls : List Call) (receiver : Nat) (open_ : .close receiver ∉ calls) :
    (∀ key, received key receiver (run {} calls).2 = (periods key receiver [] calls).flatten ∧
      ((run {} calls).1.Follows key receiver ↔ registered key receiver calls.reverse)) ∧
    ∀ name, (run {} calls).1.value name =
      (cached (Text.lowercase name) calls.reverse).map (·.reading) := by
  have tracks := Tracks.start.run calls
  rw [List.append_nil] at tracks
  refine ⟨fun key => ⟨?_, tracks.follows key receiver⟩, tracks.value⟩
  exact Tracks.start.received_run List.not_mem_nil open_

def gear (text : String) : PropertyLine :=
  ⟨"Gear", ⟨.string, some (.string text), text⟩⟩

/-- The second receiver joins three times: twice where the first one follows the property, then
alone. -/
def rejoining : List Call :=
  [.newReceiver, .newReceiver, .subscribe "Gear" 1, .publish (gear "R"), .subscribe "gear" 2,
    .subscribe "GEAR" 2, .publish (gear "N"), .unsubscribe "Gear" 2, .connect, .publish (gear "1"),
    .disconnect, .subscribe "gEAR" 2, .publish (gear "2"), .remove 1, .publish (gear "3"),
    .unsubscribe "gear" 2, .subscribe "Gear" 2, .publish (gear "4")]

theorem run_delivers_rejoining :
    .close 2 ∉ rejoining ∧
      received "gear" 2 (run {} rejoining).2 =
        [gear "R", gear "N"] ++ [gear "1", gear "2", gear "3"] ++ [gear "4"] ∧
      (run {} rejoining).1.value "GEAR" = some (gear "4").reading := by
  have open_ : .close 2 ∉ rejoining := by simp [rejoining]
  obtain ⟨delivers, values⟩ := run_delivers rejoining 2 open_
  refine ⟨open_, (delivers "gear").1.trans ?_, (values "GEAR").trans ?_⟩
  · decide +kernel
  · decide +kernel

end ControlDeck.Subscriptions
