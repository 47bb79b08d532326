import ControlDeck.Text.Blank
import Mathlib.Data.List.DropRight

namespace ControlDeck.Text

variable {separator c : Char} {s a b : List Char}

theorem splitOnce_append (h : separator ∉ a) (b : List Char) :
    splitOnce separator (a ++ separator :: b) = some (a, b) := by
  induction a with
  | nil => simp [splitOnce]
  | cons c a ih =>
    have head := List.ne_of_not_mem_cons h
    simp [splitOnce, head.symm, ih (List.not_mem_of_not_mem_cons h)]

theorem splitOnce_eq_none_iff : splitOnce separator s = none ↔ separator ∉ s := by
  induction s with
  | nil => simp [splitOnce]
  | cons c s ih =>
    by_cases head : c = separator
    · simp [splitOnce, head]
    · simp [splitOnce, head, ih, Ne.symm head]

theorem eq_of_splitOnce (h : splitOnce separator s = some (a, b)) :
    separator ∉ a ∧ s = a ++ separator :: b := by
  induction s generalizing a with
  | nil => cases h
  | cons c s ih =>
    by_cases head : c = separator
    · rw [splitOnce, if_pos head] at h
      cases h
      exact ⟨List.not_mem_nil, by rw [head, List.nil_append]⟩
    · rw [splitOnce, if_neg head] at h
      obtain ⟨⟨before, after⟩, cut, ⟨⟩⟩ := Option.map_eq_some_iff.1 h
      obtain ⟨absent, rfl⟩ := ih cut
      exact ⟨List.not_mem_cons_of_ne_of_not_mem (Ne.symm head) absent, rfl⟩

theorem ne_append_cons (h : separator ∉ s) : s ≠ a ++ separator :: b := by
  rintro rfl
  exact h (List.mem_append_right a List.mem_cons_self)

theorem append_cons_inj {a' b' : List Char} (h : separator ∉ a) (h' : separator ∉ a')
    (same : a ++ separator :: b = a' ++ separator :: b') : a = a' ∧ b = b' := by
  have cut := splitOnce_append h b
  rw [same, splitOnce_append h' b'] at cut
  cases cut
  exact ⟨rfl, rfl⟩

theorem splitAll_ne_nil (separator : Char) (s : List Char) : splitAll separator s ≠ [] := by
  fun_cases splitAll separator s <;> simp

theorem splitAll_of_not_mem (h : separator ∉ s) : splitAll separator s = [s] := by
  induction s with
  | nil => rfl
  | cons c s ih =>
    have head := List.ne_of_not_mem_cons h
    simp [splitAll, head.symm, ih (List.not_mem_of_not_mem_cons h)]

theorem splitAll_append (h : separator ∉ a) (b : List Char) :
    splitAll separator (a ++ separator :: b) = a :: splitAll separator b := by
  induction a with
  | nil => simp [splitAll]
  | cons c a ih =>
    have head := List.ne_of_not_mem_cons h
    simp [splitAll, head.symm, ih (List.not_mem_of_not_mem_cons h)]

/-- What is cut is one part, or the part before the first separator and the parts of the rest. -/
theorem splitAll_cases (separator : Char) (s : List Char) :
    (separator ∉ s ∧ splitAll separator s = [s]) ∨
      ∃ a b, separator ∉ a ∧ s = a ++ separator :: b ∧
        splitAll separator s = a :: splitAll separator b := by
  cases cut : splitOnce separator s with
  | none =>
    have absent := splitOnce_eq_none_iff.1 cut
    exact .inl ⟨absent, splitAll_of_not_mem absent⟩
  | some parts =>
    obtain ⟨absent, rfl⟩ := eq_of_splitOnce cut
    exact .inr ⟨_, _, absent, rfl, splitAll_append absent _⟩

theorem splitAll_eq_singleton_iff : splitAll separator s = [a] ↔ separator ∉ s ∧ s = a := by
  rcases splitAll_cases separator s with ⟨absent, split⟩ | ⟨before, after, -, rfl, split⟩
  · simp [split, absent]
  · simp [split, splitAll_ne_nil]

theorem splitAll_eq_cons_iff {part : List Char} {parts : List (List Char)} :
    splitAll separator s = a :: part :: parts ↔
      ∃ b, separator ∉ a ∧ s = a ++ separator :: b ∧ splitAll separator b = part :: parts := by
  constructor
  · intro split
    rcases splitAll_cases separator s with ⟨-, single⟩ | ⟨before, after, absent, rfl, more⟩
    · rw [single] at split
      cases split
    · rw [more] at split
      obtain ⟨rfl, rest⟩ := List.cons.inj split
      exact ⟨after, absent, rfl, rest⟩
  · rintro ⟨b, absent, rfl, rest⟩
    rw [splitAll_append absent, rest]

theorem not_mem_of_mem_splitAll (h : a ∈ splitAll separator s) : separator ∉ a := by
  induction s generalizing a with
  | nil =>
    rw [List.mem_singleton.1 h]
    exact List.not_mem_nil
  | cons c s ih =>
    by_cases head : c = separator
    · rw [splitAll, if_pos head] at h
      rcases List.mem_cons.1 h with rfl | later
      · exact List.not_mem_nil
      · exact ih later
    · obtain ⟨part, parts, split⟩ := List.exists_cons_of_ne_nil (splitAll_ne_nil separator s)
      rw [splitAll, if_neg head, split] at h
      rw [split] at ih
      rcases List.mem_cons.1 h with rfl | later
      · exact List.not_mem_cons_of_ne_of_not_mem (Ne.symm head) (ih List.mem_cons_self)
      · exact ih (List.mem_cons_of_mem part later)

theorem splitAll_intercalate {parts : List (List Char)} (some : parts ≠ [])
    (absent : ∀ part ∈ parts, separator ∉ part) :
    splitAll separator ([separator].intercalate parts) = parts := by
  induction parts with
  | nil => exact absurd rfl some
  | cons part parts ih =>
    have first := absent part List.mem_cons_self
    cases parts with
    | nil => rw [List.intercalate_singleton, splitAll_of_not_mem first]
    | cons next parts =>
      have rest := ih (List.cons_ne_nil next parts) fun p hp => absent p (List.mem_cons_of_mem _ hp)
      rw [List.intercalate_cons_cons, List.append_assoc, List.singleton_append,
        splitAll_append first, rest]

/-- What passes a test is taken up to the first character that does not. -/
theorem takeWhile_append_of_stop {test : Char → Bool} (ha : ∀ c ∈ a, test c = true)
    (stop : ∀ c ∈ b.head?, test c = false) :
    (a ++ b).takeWhile test = a ∧ (a ++ b).dropWhile test = b := by
  have none : b.takeWhile test = [] ∧ b.dropWhile test = b := by
    cases b with
    | nil => exact ⟨rfl, rfl⟩
    | cons c b =>
      have refused := Bool.eq_false_iff.1 (stop c rfl)
      exact ⟨List.takeWhile_cons_of_neg refused, List.dropWhile_cons_of_neg refused⟩
  rw [List.takeWhile_append_of_pos ha, List.dropWhile_append_of_pos ha, none.1, none.2,
    List.append_nil]
  exact ⟨rfl, rfl⟩

theorem dropStart?_eq_some_iff : dropStart? a s = some b ↔ s = a ++ b := by
  induction a generalizing s with
  | nil => simp [dropStart?, eq_comm]
  | cons c a ih =>
    cases s with
    | nil => simp [dropStart?]
    | cons d s =>
      by_cases head : c = d
      · simp [dropStart?, head, ih]
      · simp [dropStart?, head, Ne.symm head]

theorem prefix_of_not_mem (h : c ∉ s) (starts : s <+: a ++ c :: b) : s <+: a := by
  rcases List.prefix_or_prefix_of_prefix starts (List.prefix_append a (c :: b)) with
    inside | ⟨m, rfl⟩
  · exact inside
  · cases m with
    | nil => exact (List.append_nil a).symm ▸ List.prefix_rfl
    | cons d m =>
      have first := List.cons_prefix_cons.1 ((List.prefix_append_right_inj a).1 starts)
      rw [first.1] at h
      exact absurd (List.mem_append_right a List.mem_cons_self) h

/-- What is left has a last character that the test refuses, and all that went passes it. -/
theorem dropEndWhile_eq_iff {test : Char → Bool} : dropEndWhile test s = a ↔
    (∃ ending, (∀ c ∈ ending, test c = true) ∧ s = a ++ ending) ∧
      ∀ c ∈ a.getLast?, test c = false := by
  change s.rdropWhile test = a ↔ _
  constructor
  · rintro rfl
    refine ⟨⟨s.rtakeWhile test, fun c => List.mem_rtakeWhile_imp,
      List.rdropWhile_append_rtakeWhile.symm⟩, ?_⟩
    intro c last
    obtain ⟨some, rfl⟩ := List.mem_getLast?_eq_getLast last
    simpa using List.rdropWhile_last_not test s some
  · rintro ⟨⟨ending, all, rfl⟩, last⟩
    induction ending using List.reverseRecOn with
    | nil =>
      rw [List.append_nil, List.rdropWhile_eq_self_iff]
      intro some
      rw [last _ (List.getLast?_eq_getLast_of_ne_nil some)]
      exact Bool.false_ne_true
    | append_singleton ending c ih =>
      have passes := all c (by simp)
      rw [← List.append_assoc, List.rdropWhile_concat_pos _ _ _ passes]
      exact ih fun d hd => all d (List.mem_append_left _ hd)

/-- Nothing is trimmed exactly if nothing is at either end. -/
theorem trim_eq_self_iff :
    trim s = s ↔ s.dropWhile isBlank = s ∧ s.rdropWhile isBlank = s := by
  have whole : trim s = (s.dropWhile isBlank).rdropWhile isBlank := rfl
  constructor
  · intro h
    have start : s.dropWhile isBlank = s := by
      have shorter := (List.rdropWhile_prefix isBlank (s.dropWhile isBlank)).length_le
      rw [← whole, h] at shorter
      exact (List.dropWhile_suffix isBlank).eq_of_length_le shorter
    rw [whole, start] at h
    exact ⟨start, h⟩
  · rintro ⟨start, stop⟩
    rw [whole, start, stop]

theorem trim_of_forall (h : ∀ c ∈ s, isBlank c = false) : trim s = s := by
  refine trim_eq_self_iff.2 ⟨?_, ?_⟩
  · exact List.dropWhile_eq_self_iff.2 fun some => by simp [h]
  · exact List.rdropWhile_eq_self_iff.2 fun some => by simp [h]

theorem trim_cons (hc : isBlank c = false) (h : trim s = s) : trim (c :: s) = c :: s := by
  refine trim_eq_self_iff.2 ⟨List.dropWhile_cons_of_neg (by simp [hc]), ?_⟩
  refine List.rdropWhile_eq_self_iff.2 fun _ => ?_
  cases s with
  | nil => simp [hc]
  | cons d s =>
    rw [List.getLast_cons (List.cons_ne_nil d s)]
    exact List.rdropWhile_eq_self_iff.1 (trim_eq_self_iff.1 h).2 _

theorem trim_append_cons (hc : isBlank c = false) (ha : trim a = a) (hb : trim b = b) :
    trim (a ++ c :: b) = a ++ c :: b := by
  have stop := (trim_eq_self_iff.1 (trim_cons hc hb)).2
  rw [trim_eq_self_iff]
  constructor
  · cases a with
    | nil => exact List.dropWhile_cons_of_neg (by simp [hc])
    | cons d a =>
      have start := List.dropWhile_eq_self_iff.1 (trim_eq_self_iff.1 ha).1 (Nat.succ_pos _)
      exact List.dropWhile_cons_of_neg start
  · apply List.rdropWhile_eq_self_iff.2
    intro some
    rw [List.getLast_append_of_ne_nil some (List.cons_ne_nil c b)]
    exact List.rdropWhile_eq_self_iff.1 stop _

theorem trim_trim (s : List Char) : trim (trim s) = trim s := by
  refine trim_eq_self_iff.2 ⟨?_, List.rdropWhile_idempotent isBlank _⟩
  apply List.dropWhile_eq_self_iff.2
  intro some
  have shorter : trim s <+: s.dropWhile isBlank := List.rdropWhile_prefix isBlank _
  have start := List.dropWhile_eq_self_iff.1 (List.dropWhile_idempotent isBlank s)
    (some.trans_le shorter.length_le)
  simpa [shorter.getElem some] using start

theorem trim_isInfix (s : List Char) : trim s <:+: s :=
  (List.rdropWhile_prefix isBlank _).isInfix.trans (List.dropWhile_suffix isBlank).isInfix

/-- A text is the white space in front of it, what trimming leaves, and what was cut off the end. -/
theorem exists_append_trim (s : List Char) :
    ∃ ending, s = s.takeWhile isBlank ++ (trim s ++ ending) := by
  obtain ⟨ending, shown⟩ : trim s <+: s.dropWhile isBlank := List.rdropWhile_prefix isBlank _
  exact ⟨ending, by rw [shown, List.takeWhile_append_dropWhile]⟩

theorem trim_cons_blank (hc : isBlank c = true) (s : List Char) : trim (c :: s) = trim s := by
  rw [trim, trim, trimStart, List.dropWhile_cons_of_pos hc, trimStart]

theorem trim_append_blank (hc : isBlank c = true) (h : trim s = s) : trim (s ++ [c]) = s := by
  cases s with
  | nil => exact trim_cons_blank hc []
  | cons d s =>
    obtain ⟨whole, stop⟩ := trim_eq_self_iff.1 h
    have start := List.dropWhile_eq_self_iff.1 whole (Nat.succ_pos _)
    have kept : (d :: s ++ [c]).dropWhile isBlank = d :: s ++ [c] :=
      List.dropWhile_cons_of_neg start
    have all : trim (d :: s ++ [c]) = (d :: s ++ [c]).rdropWhile isBlank := by
      rw [trim, trimStart, kept]
      rfl
    rw [all, List.rdropWhile_concat_pos isBlank _ c hc, stop]

theorem trim_intercalate {parts : List (List Char)} (hc : isBlank c = false)
    (tidy : ∀ part ∈ parts, trim part = part) :
    trim ([c].intercalate parts) = [c].intercalate parts := by
  induction parts with
  | nil => rfl
  | cons part parts ih =>
    have first := tidy part List.mem_cons_self
    cases parts with
    | nil => rwa [List.intercalate_singleton]
    | cons next parts =>
      have rest := ih fun p hp => tidy p (List.mem_cons_of_mem _ hp)
      rw [List.intercalate_cons_cons, List.append_assoc, List.singleton_append]
      exact trim_append_cons hc first rest

theorem trimmed_eq_self_iff {text : String} :
    trimmed text = text ↔ trim text.toList = text.toList := by
  rw [trimmed, ← String.toList_inj, String.toList_ofList]

end ControlDeck.Text
