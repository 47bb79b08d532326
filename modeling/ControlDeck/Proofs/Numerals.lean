import ControlDeck.Decimal.Positional
import ControlDeck.Decimal.Reader

namespace ControlDeck.Decimal

/-- One or more digits. -/
structure Digits (s : List Char) : Prop where
  some : s ≠ []
  all : ∀ c ∈ s, c.isDigit = true

/-- A number as it may be written: digits after at most one sign. -/
inductive Numeral : List Char → Int → Prop where
  | bare {digits : List Char} (h : Digits digits) : Numeral digits (ofDigits digits)
  | plus {digits : List Char} (h : Digits digits) : Numeral ('+' :: digits) (ofDigits digits)
  | minus {digits : List Char} (h : Digits digits) : Numeral ('-' :: digits) (-ofDigits digits)

variable {s : List Char} {n : Int}

theorem readNat?_eq_some_iff {n : Nat} : readNat? s = some n ↔ Digits s ∧ ofDigits s = n := by
  have test : (s.isEmpty || !s.all Char.isDigit) = false ↔ Digits s := by
    rw [Bool.or_eq_false_iff, List.isEmpty_eq_false_iff, Bool.not_eq_false', List.all_eq_true]
    exact ⟨fun h => ⟨h.1, h.2⟩, fun h => ⟨h.some, h.all⟩⟩
  rw [readNat?]
  split
  · rename_i bad
    refine ⟨nofun, ?_⟩
    rintro ⟨digits, -⟩
    rw [test.2 digits] at bad
    cases bad
  · rename_i good
    rw [Bool.not_eq_true, test] at good
    simp [good]

theorem Digits.not_sign (h : Digits s) {c : Char} (sign : c = '+' ∨ c = '-') (rest : List Char) :
    s ≠ c :: rest := by
  rintro rfl
  have digit := h.all c List.mem_cons_self
  rcases sign with rfl | rfl <;> exact absurd digit (by decide)

theorem readInt?_bare (plus : ∀ rest, s ≠ '+' :: rest) (minus : ∀ rest, s ≠ '-' :: rest) :
    readInt? s = (readNat? s).map Int.ofNat := by
  rw [readInt?]
  · exact minus
  · exact plus

theorem readInt?_eq_some_iff : readInt? s = some n ↔ Numeral s n := by
  constructor
  · fun_cases readInt? s with
    | case1 rest =>
      intro h
      obtain ⟨_, cast, rfl⟩ := Option.map_eq_some_iff.1 h
      obtain ⟨m, read, ⟨⟩⟩ := Option.bind_eq_some_iff.1 cast
      obtain ⟨digits, rfl⟩ := readNat?_eq_some_iff.1 read
      exact .minus digits
    | case2 rest =>
      intro h
      obtain ⟨m, read, rfl⟩ := Option.map_eq_some_iff.1 h
      obtain ⟨digits, rfl⟩ := readNat?_eq_some_iff.1 read
      exact .plus digits
    | case3 s =>
      intro h
      obtain ⟨m, read, rfl⟩ := Option.map_eq_some_iff.1 h
      obtain ⟨digits, rfl⟩ := readNat?_eq_some_iff.1 read
      exact .bare digits
  · rintro (h | h | h)
    · rw [readInt?_bare (h.not_sign (.inl rfl)) (h.not_sign (.inr rfl)),
        readNat?_eq_some_iff.2 ⟨h, rfl⟩]
      rfl
    · rw [readInt?, readNat?_eq_some_iff.2 ⟨h, rfl⟩]
      rfl
    · rw [readInt?, readNat?_eq_some_iff.2 ⟨h, rfl⟩]
      rfl

theorem fitsWord_iff {bits : Nat} :
    fitsWord bits n ↔ -(pow2 (bits - 1) : Int) ≤ n ∧ n < pow2 (bits - 1) := by
  rw [fitsWord, Bool.and_eq_true, decide_eq_true_iff, decide_eq_true_iff]

theorem fitsWord_mono {small large : Nat} (le : small ≤ large) (h : fitsWord small n) :
    fitsWord large n := by
  have power : pow2 (small - 1) ≤ pow2 (large - 1) := Nat.pow_le_pow_right (by decide) (by omega)
  rw [fitsWord_iff] at h ⊢
  omega

theorem readWord?_eq_some_iff {bits : Nat} :
    readWord? bits s = some n ↔ Numeral s n ∧ fitsWord bits n := by
  rw [readWord?, Option.filter_eq_some_iff, readInt?_eq_some_iff]

theorem Numeral.unique {m : Int} (h : Numeral s n) (h' : Numeral s m) : m = n := by
  have same := (readInt?_eq_some_iff.2 h').symm.trans (readInt?_eq_some_iff.2 h)
  exact Option.some.inj same

theorem Numeral.mem (h : Numeral s n) {c : Char} (hc : c ∈ s) :
    c.isDigit = true ∨ c = '+' ∨ c = '-' := by
  cases h with
  | bare h => exact .inl (h.all c hc)
  | plus h =>
    rcases List.mem_cons.1 hc with rfl | hc
    · exact .inr (.inl rfl)
    · exact .inl (h.all c hc)
  | minus h =>
    rcases List.mem_cons.1 hc with rfl | hc
    · exact .inr (.inr rfl)
    · exact .inl (h.all c hc)

theorem ofDigits_eq (s : List Char) : ofDigits s = Nat.ofDigitChars 10 s 0 := rfl

theorem digits_repr (n : Nat) : Digits n.repr.toList where
  some := by
    rw [Nat.toList_repr]
    exact Nat.toDigits_ne_nil
  all := by
    rw [Nat.toList_repr]
    exact fun c hc => Nat.isDigit_of_mem_toDigits (by decide) (by decide) hc

theorem toList_pushn (s : String) (c : Char) (n : Nat) :
    (s.pushn c n).toList = s.toList ++ List.replicate n c := by
  rw [String.pushn_eq_repeat_push]
  induction n with
  | zero => simp [Nat.repeat]
  | succ n ih =>
    rw [Nat.repeat, String.toList_push, ih, List.append_assoc, List.replicate_succ']

theorem padded_toList (width n : Nat) :
    (padded width n).toList = List.replicate (width - n.repr.length) '0' ++ n.repr.toList := by
  rw [padded, String.toList_append, toList_pushn]
  rfl

theorem digits_padded (width n : Nat) : Digits (padded width n).toList where
  some := by
    rw [padded_toList]
    exact List.append_ne_nil_of_right_ne_nil _ (digits_repr n).some
  all := by
    intro c hc
    rw [padded_toList, List.mem_append, List.mem_replicate] at hc
    rcases hc with ⟨-, rfl⟩ | hc
    · decide
    · exact (digits_repr n).all c hc

theorem ofDigits_repr (n : Nat) : ofDigits n.repr.toList = n := by
  rw [ofDigits_eq, Nat.toList_repr, Nat.ofDigitChars_ten_toDigits]

theorem ofDigits_padded (width n : Nat) : ofDigits (padded width n).toList = n := by
  rw [padded_toList, ofDigits_eq, Nat.ofDigitChars_append, Nat.ofDigitChars_replicate_zero,
    Nat.mul_zero, ← ofDigits_eq, ofDigits_repr]

theorem length_padded {width n : Nat} (some : 0 < width) (fits : n < pow10 width) :
    (padded width n).toList.length = width := by
  have short : n.repr.length ≤ width := (Nat.length_repr_le_iff some).2 fits
  rw [padded_toList, List.length_append, List.length_replicate, String.length_toList]
  omega

theorem Numeral.padded (width n : Nat) : Numeral (padded width n).toList n := by
  have written := Numeral.bare (digits_padded width n)
  rwa [ofDigits_padded] at written

end ControlDeck.Decimal
