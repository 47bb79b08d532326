import ControlDeck.Proofs.Grammar
import Mathlib.Data.List.Perm.Basic

namespace ControlDeck

namespace Labels

variable {labels order : Labels} {word key text : String}

/-- Two entries of the dictionary have the word up to ASCII case, and their texts are different. -/
def Clashes (labels : Labels) (word : String) : Prop :=
  ∃ entry ∈ labels, ∃ entry' ∈ labels,
    Text.asciiLowercase entry.1 = Text.asciiLowercase word ∧
      Text.asciiLowercase entry'.1 = Text.asciiLowercase word ∧ entry.2 ≠ entry'.2

theorem eq_of_mem (distinct : (labels.map (·.1)).Nodup) {text' : String}
    (h : (word, text) ∈ labels) (h' : (word, text') ∈ labels) : text = text' :=
  congrArg Prod.snd (List.inj_on_of_nodup_map distinct h h' rfl)

theorem resolve?_of_mem (distinct : (labels.map (·.1)).Nodup) (h : (word, text) ∈ labels) :
    labels.resolve? word = some text := by
  cases found : labels.lookup word with
  | none =>
    rw [List.lookup_eq_none_iff] at found
    simpa using found _ h
  | some text' =>
    obtain ⟨before, after, split, -⟩ := List.lookup_eq_some_iff.1 found
    have first : (word, text') ∈ labels := by simp [split]
    rw [resolve?, found, eq_of_mem distinct first h]

theorem resolve?_cons (none : ∀ other, (word, other) ∉ (key, text) :: labels)
    (same : Text.asciiLowercase key = Text.asciiLowercase word) :
    resolve? ((key, text) :: labels) word = some text := by
  have absent : List.lookup word ((key, text) :: labels) = .none := by
    rw [List.lookup_eq_none_iff]
    intro entry h
    rw [bne_iff_ne]
    rintro rfl
    exact none entry.2 h
  rw [resolve?, absent]
  simp [same]

theorem gives_iff_of_perm (perm : order.Perm labels) :
    order.Gives word text ↔ labels.Gives word text := by
  simp only [Gives, perm.mem_iff]

/-- A word stands for just the texts that some order of the dictionary gives it. -/
theorem exists_perm_iff (distinct : (labels.map (·.1)).Nodup) :
    (∃ order : Labels, order.Perm labels ∧ order.resolve? word = some text) ↔
      labels.Gives word text := by
  constructor
  · rintro ⟨order, perm, found⟩
    exact (gives_iff_of_perm perm).1 (gives_of_resolve? found)
  · rintro (exact | ⟨none, key, h, same⟩)
    · exact ⟨labels, .refl labels, resolve?_of_mem distinct exact⟩
    · have front := List.perm_cons_erase h
      refine ⟨(key, text) :: labels.erase (key, text), front.symm, resolve?_cons ?_ same⟩
      exact fun other later => none other (front.mem_iff.2 later)

theorem resolve?_isSome_iff : (labels.resolve? word).isSome ↔ ∃ text, labels.Gives word text := by
  constructor
  · intro known
    obtain ⟨text, found⟩ := Option.isSome_iff_exists.1 known
    exact ⟨text, gives_of_resolve? found⟩
  · rintro ⟨text, h⟩
    rw [resolve?]
    split
    · rfl
    · rw [Option.isSome_map, List.find?_isSome]
      rcases h with exact | ⟨-, key, h, same⟩
      · exact ⟨_, exact, beq_self_eq_true _⟩
      · exact ⟨_, h, beq_iff_eq.2 same⟩

theorem gives_unique_iff (distinct : (labels.map (·.1)).Nodup) :
    (∀ text text', labels.Gives word text → labels.Gives word text' → text = text') ↔
      (∃ text, (word, text) ∈ labels) ∨ ¬labels.Clashes word := by
  constructor
  · intro unique
    by_contra other
    obtain ⟨none, clash⟩ := not_or.1 other
    obtain ⟨entry, h, entry', h', same, same', differ⟩ := not_not.1 clash
    have absent := not_exists.1 none
    exact differ (unique _ _ (.inr ⟨absent, _, h, same⟩) (.inr ⟨absent, _, h', same'⟩))
  · intro h text text' gives gives'
    rcases gives with exact | ⟨none, key, h₁, same⟩ <;>
      rcases gives' with exact' | ⟨none', key', h₂, same'⟩
    · exact eq_of_mem distinct exact exact'
    · exact absurd exact (none' text)
    · exact absurd exact' (none text')
    · by_contra differ
      have clash : labels.Clashes word := ⟨_, h₁, _, h₂, same, same', differ⟩
      exact h.elim (fun ⟨text, exact⟩ => none text exact) fun free => free clash

theorem resolve?_eq_of_perm (perm : order.Perm labels)
    (unique : ∀ text text', labels.Gives word text → labels.Gives word text' → text = text') :
    order.resolve? word = labels.resolve? word := by
  have known : (order.resolve? word).isSome ↔ (labels.resolve? word).isSome := by
    simp only [resolve?_isSome_iff, gives_iff_of_perm perm]
  cases found : labels.resolve? word with
  | none => simpa [found] using known
  | some text =>
    rw [found, Option.isSome_some, iff_true_right rfl] at known
    obtain ⟨text', found'⟩ := Option.isSome_iff_exists.1 known
    have gives := (gives_iff_of_perm perm).1 (gives_of_resolve? found')
    rw [found', unique text' text gives (gives_of_resolve? found)]

theorem labelled_eq_ok_iff : Formula.labelled (some labels) word = .ok (.literal (.text text)) ↔
    labels.resolve? word = some text := by
  rw [Formula.labelled, Option.bind_some]
  cases labels.resolve? word <;> simp

theorem labelled_eq_error_iff : Formula.labelled (some labels) word = .error (.unknownWord word) ↔
    ¬(labels.resolve? word).isSome := by
  rw [Formula.labelled, Option.bind_some]
  cases labels.resolve? word <;> simp

/-- Whether a word is known does not depend on the order of a dictionary, the orders give it just
the texts that it stands for, and all orders agree exactly if the very word is in the dictionary or
no two entries clash over it. -/
theorem labelled_perm_iff (distinct : (labels.map (·.1)).Nodup) (word : String) :
    (∀ order : Labels, order.Perm labels →
        (Formula.labelled (some order) word = .error (.unknownWord word) ↔
          ¬∃ text, labels.Gives word text)) ∧
      (∀ text, (∃ order : Labels, order.Perm labels ∧
          Formula.labelled (some order) word = .ok (.literal (.text text))) ↔
        labels.Gives word text) ∧
      ((∀ order order' : Labels, order.Perm labels → order'.Perm labels →
          Formula.labelled (some order) word = Formula.labelled (some order') word) ↔
        (∃ text, (word, text) ∈ labels) ∨ ¬labels.Clashes word) := by
  have resolved (text : String) : (∃ order : Labels, order.Perm labels ∧
      Formula.labelled (some order) word = .ok (.literal (.text text))) ↔
        labels.Gives word text := by
    simp only [labelled_eq_ok_iff, exists_perm_iff distinct]
  refine ⟨?_, resolved, ?_⟩
  · intro order perm
    simp only [labelled_eq_error_iff, resolve?_isSome_iff, gives_iff_of_perm perm]
  · rw [← gives_unique_iff distinct]
    constructor
    · intro agree text text' gives gives'
      obtain ⟨order, perm, found⟩ := (resolved text).2 gives
      obtain ⟨order', perm', found'⟩ := (resolved text').2 gives'
      have same := agree order order' perm perm'
      rw [found, found'] at same
      cases same
      rfl
    · intro unique order order' perm perm'
      have same : order.resolve? word = order'.resolve? word :=
        (resolve?_eq_of_perm perm unique).trans (resolve?_eq_of_perm perm' unique).symm
      rw [Formula.labelled, Formula.labelled, Option.bind_some, Option.bind_some, same]

/-- A dictionary with two entries that clash over a third spelling of their word. -/
def speedUnits : Labels :=
  [("Unit", "km/h"), ("UNIT", "mph"), ("gear", "N")]

theorem labelled_perm_iff_speedUnits :
    (speedUnits.map (·.1)).Nodup ∧
      (∀ order order' : Labels, order.Perm speedUnits → order'.Perm speedUnits →
        Formula.labelled (some order) "UNIT" = Formula.labelled (some order') "UNIT") ∧
      ∃ order : Labels, order.Perm speedUnits ∧
        Formula.labelled (some order) "unit" = .ok (.literal (.text "mph")) := by
  have distinct : (speedUnits.map (·.1)).Nodup := by decide
  refine ⟨distinct, (labelled_perm_iff distinct "UNIT").2.2.2 (.inl ⟨"mph", by decide⟩), ?_⟩
  refine ((labelled_perm_iff distinct "unit").2.1 "mph").2 (.inr ⟨?_, "UNIT", by decide, by decide⟩)
  simp [speedUnits]

/-- Which of the entries that clash over a word comes first decides what it stands for. -/
theorem labelled_order_matters :
    (speedUnits.map (·.1)).Nodup ∧ speedUnits.reverse.Perm speedUnits ∧
      Formula.labelled (some speedUnits) "unit" = .ok (.literal (.text "km/h")) ∧
      Formula.labelled (some speedUnits.reverse) "unit" = .ok (.literal (.text "mph")) := by
  decide

end Labels

end ControlDeck
