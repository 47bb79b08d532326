import ControlDeck.Action
import ControlDeck.Proofs.Lowercase
import ControlDeck.Proofs.Reading
import ControlDeck.Proofs.Registry

namespace ControlDeck

theorem Item.active_compiled (read : Readings) (items : List Item) :
    (Item.active read items).1.map (·.condition.compiled) = items.map (·.condition.compiled) := by
  induction items with
  | nil => rfl
  | cons item items ih =>
    rw [active, List.map_cons, List.map_cons, ih]
    exact congrArg (· :: _) (item.condition.isActive_alike read).compiled

def Bindings.items (b : Bindings) : List Item :=
  b.press ++ b.dialLeft ++ b.dialRight ++ b.touchTap

theorem Bindings.used_congr {b b' : Bindings}
    (h : b'.items.map (·.condition.compiled) = b.items.map (·.condition.compiled)) :
    b'.used = b.used := by
  have fold (b : Bindings) : b.used = (b.items.map (·.condition.compiled)).foldl
      (fun names c => c.used.foldl (fun ns n => Formula.insertName n ns) names) [] := by
    rw [List.foldl_map]
    rfl
  rw [fold, fold, h]

theorem mem_foldl_insertName {n : String} {added names : List String} :
    n ∈ added.foldl (fun ns n => Formula.insertName n ns) names ↔ n ∈ names ∨ n ∈ added := by
  induction added generalizing names with
  | nil => simp
  | cons name added ih =>
    rw [List.foldl_cons, ih, Formula.mem_insertName, List.mem_cons]
    tauto

theorem Bindings.mem_used {b : Bindings} {n : String} :
    n ∈ b.used ↔ ∃ item ∈ b.items, n ∈ item.condition.compiled.used := by
  have fold (items : List Item) (names : List String) :
      n ∈ items.foldl
        (fun names item => item.condition.compiled.used.foldl
          (fun ns n => Formula.insertName n ns) names) names ↔
        n ∈ names ∨ ∃ item ∈ items, n ∈ item.condition.compiled.used := by
    induction items generalizing names with
    | nil => simp
    | cons item items ih =>
      rw [List.foldl_cons, ih, mem_foldl_insertName, List.exists_mem_cons_iff, or_assoc]
  exact (fold b.items []).trans (by simp)

namespace Action

/-- Some expression in effect reads the property. -/
def Reads (a : Action) (name : String) : Prop :=
  (∃ item ∈ a.rig.actuator.bindings.items, name ∈ item.condition.compiled.used) ∨
    name ∈ a.state.compiled.used ∨ name ∈ a.title.compiled.used

/-- Some expression in effect reads the property with the key. -/
def Wants (a : Action) (key : String) : Prop :=
  ∃ name, a.Reads name ∧ Text.lowercase name = key

theorem mem_used {a : Action} {name : String} : name ∈ a.used ↔ a.Reads name := by
  rw [used, Reads, List.mem_append, List.mem_append, Bindings.mem_used, or_assoc]

theorem mem_insertWanted {name : String} {p : String × String} {ns : List (String × String)}
    (h : p ∈ insertWanted name ns) : p = (Text.lowercase name, name) ∨ p ∈ ns := by
  induction ns with
  | nil => exact .inl (List.mem_singleton.1 h)
  | cons q ns ih =>
    rw [insertWanted] at h
    split at h
    · exact List.mem_cons.1 h
    · split at h
      · exact .inr h
      · rcases List.mem_cons.1 h with rfl | h
        · exact .inr List.mem_cons_self
        · exact (ih h).imp_right (List.mem_cons_of_mem q)

theorem insertWanted_keys {name key : String} {ns : List (String × String)} :
    key ∈ (insertWanted name ns).map (·.1) ↔ key = Text.lowercase name ∨ key ∈ ns.map (·.1) := by
  induction ns with
  | nil => simp [insertWanted]
  | cons q ns ih =>
    rw [insertWanted]
    split
    · simp
    · split
      · rename_i same
        simp [same]
      · rw [List.map_cons, List.mem_cons, ih, List.map_cons, List.mem_cons]
        tauto

theorem mem_wanted {a : Action} {p : String × String} (h : p ∈ a.wanted) :
    p.1 = Text.lowercase p.2 := by
  have fold (names : List String) (ns : List (String × String))
      (hns : ∀ p ∈ ns, p.1 = Text.lowercase p.2) :
      ∀ p ∈ names.foldl (fun ns name => insertWanted name ns) ns, p.1 = Text.lowercase p.2 := by
    induction names generalizing ns with
    | nil => exact hns
    | cons name names ih =>
      apply ih _
      intro p hp
      rcases mem_insertWanted hp with rfl | hp
      · rfl
      · exact hns p hp
  exact fold a.used [] (fun _ hp => (List.not_mem_nil hp).elim) p h

theorem wanted_keys {a : Action} {key : String} :
    key ∈ a.wanted.map (·.1) ↔ a.Wants key := by
  have fold (names : List String) (ns : List (String × String)) :
      key ∈ (names.foldl (fun ns name => insertWanted name ns) ns).map (·.1) ↔
        (∃ name ∈ names, Text.lowercase name = key) ∨ key ∈ ns.map (·.1) := by
    induction names generalizing ns with
    | nil => simp
    | cons name names ih =>
      rw [List.foldl_cons, ih, insertWanted_keys, List.exists_mem_cons_iff, or_assoc,
        eq_comm (a := key)]
      exact or_left_comm
  apply (fold a.used []).trans
  simp [mem_used, Wants]

end Action

end ControlDeck
