import ControlDeck.Proofs.Overflow
import ControlDeck.Proofs.Splitting

namespace ControlDeck.Decimal

open Text

variable {c : Char} {s more : List Char} {n : Nat} {k e : Int} {negative : Bool} {x : Float}

/-- An exponent as it may be written, or none. -/
inductive Exponent : List Char → Int → Prop where
  | none : Exponent [] 0
  | marked {c : Char} {s : List Char} {e : Int} (mark : c = 'e' ∨ c = 'E') (h : Numeral s e) :
    Exponent (c :: s) e

/-- A decimal number `n * 10 ^ k` as it may be written, without its sign. -/
inductive Magnitude : List Char → Nat → Int → Prop where
  | whole {digits s : List Char} {e : Int} (h : Digits digits) (h' : Exponent s e) :
    Magnitude (digits ++ s) (ofDigits digits) e
  | pointed {before after s : List Char} {e : Int} (h : Digits (before ++ after))
    (h' : Exponent s e) :
    Magnitude (before ++ '.' :: (after ++ s)) (ofDigits (before ++ after)) (e - after.length)

theorem readExponent?_eq_some_iff : readExponent? s = some e ↔ Exponent s e := by
  constructor
  · intro h
    fun_cases readExponent? s with
    | case1 =>
      cases h
      exact .none
    | case2 c rest mark =>
      rw [readExponent?, if_pos mark] at h
      exact .marked mark (readInt?_eq_some_iff.1 h)
    | case3 c rest other =>
      rw [readExponent?, if_neg other] at h
      cases h
  · rintro (_ | ⟨mark, h⟩)
    · rfl
    · rw [readExponent?, if_pos mark, readInt?_eq_some_iff.2 h]

theorem Exponent.stops (h : Exponent s e) : ∀ c ∈ s.head?, c.isDigit = false ∧ c ≠ '.' := by
  cases h with
  | none => nofun
  | marked mark =>
    rintro c ⟨⟩
    rcases mark with rfl | rfl <;> decide

theorem readMagnitude?_pointed (point : s.dropWhile Char.isDigit = '.' :: more) :
    readMagnitude? negative s =
      if s.takeWhile Char.isDigit ++ more.takeWhile Char.isDigit = [] then none
      else (readExponent? (more.dropWhile Char.isDigit)).map fun e =>
        ofScientific negative (ofDigits (s.takeWhile Char.isDigit ++ more.takeWhile Char.isDigit))
          (e - (more.takeWhile Char.isDigit).length) := by
  rw [readMagnitude?, point]
  simp only [List.append_eq_nil_iff, Bool.and_eq_true, List.isEmpty_iff]

theorem readMagnitude?_bare (bare : ∀ more, s.dropWhile Char.isDigit ≠ '.' :: more) :
    readMagnitude? negative s =
      if s.takeWhile Char.isDigit = [] then none
      else (readExponent? (s.dropWhile Char.isDigit)).map
        (ofScientific negative (ofDigits (s.takeWhile Char.isDigit))) := by
  rw [readMagnitude?]
  split
  rename_i parted
  split at parted
  · exact absurd ‹_› (bare _)
  · cases parted
    simp

theorem Magnitude.read (h : Magnitude s n k) (negative : Bool) :
    readMagnitude? negative s = some (ofScientific negative n k) := by
  cases h with
  | @whole digits s e h h' =>
    obtain ⟨taken, left⟩ := takeWhile_append_of_stop h.all fun c hc => (h'.stops c hc).1
    have bare : ∀ more, s ≠ '.' :: more := by
      rintro more rfl
      exact (h'.stops '.' rfl).2 rfl
    rw [readMagnitude?_bare (by rwa [left]), taken, left, if_neg h.some,
      readExponent?_eq_some_iff.2 h']
    rfl
  | @pointed before after s e h h' =>
    have front : ∀ c ∈ before, c.isDigit = true := fun c hc => h.all c (List.mem_append_left _ hc)
    have back : ∀ c ∈ after, c.isDigit = true := fun c hc => h.all c (List.mem_append_right _ hc)
    have point : ∀ c ∈ ('.' :: (after ++ s)).head?, c.isDigit = false := by
      rintro c ⟨⟩
      decide
    obtain ⟨taken, left⟩ := takeWhile_append_of_stop front point
    obtain ⟨taken', left'⟩ := takeWhile_append_of_stop back fun c hc => (h'.stops c hc).1
    rw [readMagnitude?_pointed left, taken, taken', left', if_neg h.some,
      readExponent?_eq_some_iff.2 h']
    rfl

theorem magnitude_of_readMagnitude? (h : readMagnitude? negative s = some x) :
    ∃ n k, Magnitude s n k ∧ ofScientific negative n k = x := by
  have digit (t : List Char) : ∀ c ∈ t.takeWhile Char.isDigit, c.isDigit = true :=
    fun _ => List.mem_takeWhile_imp
  by_cases point : ∃ more, s.dropWhile Char.isDigit = '.' :: more
  · obtain ⟨more, point⟩ := point
    rw [readMagnitude?_pointed point] at h
    split at h
    · cases h
    · rename_i some
      obtain ⟨e, exponent, rfl⟩ := Option.map_eq_some_iff.1 h
      have digits : Digits (s.takeWhile Char.isDigit ++ more.takeWhile Char.isDigit) :=
        ⟨some, List.forall_mem_append.2 ⟨digit s, digit more⟩⟩
      have magnitude := Magnitude.pointed digits (readExponent?_eq_some_iff.1 exponent)
      rw [List.takeWhile_append_dropWhile, ← point, List.takeWhile_append_dropWhile] at magnitude
      exact ⟨_, _, magnitude, rfl⟩
  · rw [readMagnitude?_bare (not_exists.1 point)] at h
    split at h
    · cases h
    · rename_i some
      obtain ⟨e, exponent, rfl⟩ := Option.map_eq_some_iff.1 h
      have magnitude := Magnitude.whole ⟨some, digit s⟩ (readExponent?_eq_some_iff.1 exponent)
      rw [List.takeWhile_append_dropWhile] at magnitude
      exact ⟨_, _, magnitude, rfl⟩

theorem readMagnitude?_eq_some_iff : readMagnitude? negative s = some x ↔
    ∃ n k, Magnitude s n k ∧ ofScientific negative n k = x := by
  constructor
  · exact magnitude_of_readMagnitude?
  · rintro ⟨n, k, magnitude, rfl⟩
    exact magnitude.read negative

theorem Magnitude.head (h : Magnitude s n k) :
    ∃ c rest, s = c :: rest ∧ (c.isDigit = true ∨ c = '.') := by
  cases h with
  | @whole digits s e h =>
    obtain ⟨c, rest, rfl⟩ := List.exists_cons_of_ne_nil h.some
    exact ⟨c, rest ++ s, rfl, .inl (h.all c List.mem_cons_self)⟩
  | @pointed before after s e h =>
    cases before with
    | nil => exact ⟨_, _, rfl, .inr rfl⟩
    | cons c before => exact ⟨c, _, rfl, .inl (h.all c List.mem_cons_self)⟩

/-- The words for no number and for the infinities, in any ASCII case. -/
def Special (s : List Char) : Prop :=
  s.map Char.toLower ∈ ["nan".toList, "inf".toList, "infinity".toList]

/-- A text, without its sign, of something that is no finite double. -/
def Excess (s : List Char) : Prop :=
  Special s ∨ ∃ n k, Magnitude s n k ∧ (overflow : ℚ) ≤ n * 10 ^ k

theorem Special.isAlpha (h : Special s) : ∀ c ∈ s, c.isAlpha = true := by
  intro c hc
  have letters : ∀ word ∈ ["nan".toList, "inf".toList, "infinity".toList],
      ∀ d ∈ word, d.isAlpha = true := by simp
  rw [← Char.isAlpha_toLower_eq_isAlpha]
  exact letters _ h _ (List.mem_map_of_mem hc)

theorem isAlpha_of_isDigit (h : c.isDigit = true) : c.isAlpha = false := by
  simp only [Char.isDigit, Char.isAlpha, Char.isUpper, Char.isLower] at *
  grind

theorem Magnitude.not_special (h : Magnitude s n k) : ¬Special s := by
  intro word
  obtain ⟨c, rest, rfl, first⟩ := h.head
  have letter := word.isAlpha c List.mem_cons_self
  rcases first with digit | rfl
  · rw [isAlpha_of_isDigit digit] at letter
    cases letter
  · revert letter
    decide

theorem not_isFinite_notANumber : ¬notANumber.isFinite := by
  decide +kernel

theorem readUnsigned?_special (h : Special s) (negative : Bool) :
    ∃ x, readUnsigned? negative s = some x ∧ ¬x.isFinite := by
  have none : readMagnitude? negative s = none := by
    rw [Option.eq_none_iff_forall_ne_some]
    intro x read
    obtain ⟨n, k, magnitude, -⟩ := readMagnitude?_eq_some_iff.1 read
    exact magnitude.not_special h
  rw [readUnsigned?, none]
  dsimp only
  split
  · exact ⟨_, rfl, not_isFinite_notANumber⟩
  · rename_i other
    rw [if_pos (List.mem_pair.1 ((List.mem_cons.1 h).resolve_left other))]
    exact ⟨_, rfl, not_isFinite_infinity negative⟩

theorem readUnsigned?_magnitude (h : Magnitude s n k) (negative : Bool) :
    readUnsigned? negative s = some (ofScientific negative n k) := by
  rw [readUnsigned?, h.read negative]

theorem unsigned_cases (h : readUnsigned? negative s = some x) :
    Special s ∨ ∃ n k, Magnitude s n k ∧ ofScientific negative n k = x := by
  rw [readUnsigned?] at h
  split at h
  · rename_i y read
    cases h
    exact .inr (readMagnitude?_eq_some_iff.1 read)
  · refine .inl ?_
    dsimp only at h
    split_ifs at h with nan infinite
    · simp [Special, nan]
    · rcases infinite with short | long
      · simp [Special, short]
      · simp [Special, long]

theorem excess_iff (negative : Bool) :
    Excess s ↔ ∃ x, readUnsigned? negative s = some x ∧ ¬x.isFinite := by
  constructor
  · rintro (word | ⟨n, k, magnitude, large⟩)
    · exact readUnsigned?_special word negative
    · refine ⟨_, readUnsigned?_magnitude magnitude negative, ?_⟩
      rw [isFinite_ofScientific_iff]
      exact not_lt.2 large
  · rintro ⟨x, read, infinite⟩
    rcases unsigned_cases read with word | ⟨n, k, magnitude, rfl⟩
    · exact .inl word
    · rw [isFinite_ofScientific_iff, not_lt] at infinite
      exact .inr ⟨n, k, magnitude, infinite⟩

theorem not_excess_of_sign (sign : c = '+' ∨ c = '-') : ¬Excess (c :: s) := by
  rintro (word | ⟨n, k, magnitude, -⟩)
  · have letter := word.isAlpha c List.mem_cons_self
    rcases sign with rfl | rfl <;> exact absurd letter (by decide)
  · obtain ⟨d, rest, same, first⟩ := magnitude.head
    cases same
    rcases sign with rfl | rfl <;> exact absurd first (by decide)

/-- A text of something that is no finite double. -/
inductive Boundless : List Char → Prop where
  | bare {s : List Char} (h : Excess s) : Boundless s
  | signed {c : Char} {s : List Char} (sign : c = '+' ∨ c = '-') (h : Excess s) : Boundless (c :: s)

/-- These are all the texts that are read as a double that is not finite. -/
theorem boundless_iff : Boundless s ↔ ∃ x, readFloat? s = some x ∧ ¬x.isFinite := by
  constructor
  · rintro (h | ⟨rfl | rfl, h⟩)
    · rw [readFloat?]
      · exact (excess_iff false).1 h
      · rintro rest rfl
        exact not_excess_of_sign (.inr rfl) h
      · rintro rest rfl
        exact not_excess_of_sign (.inl rfl) h
    · exact (excess_iff false).1 h
    · exact (excess_iff true).1 h
  · rintro ⟨x, read, infinite⟩
    fun_cases readFloat? s with
    | case1 rest => exact .signed (.inr rfl) ((excess_iff true).2 ⟨x, read, infinite⟩)
    | case2 rest => exact .signed (.inl rfl) ((excess_iff false).2 ⟨x, read, infinite⟩)
    | case3 s minus plus =>
      rw [readFloat?] at read
      · exact .bare ((excess_iff false).2 ⟨x, read, infinite⟩)
      · exact minus
      · exact plus

end ControlDeck.Decimal
