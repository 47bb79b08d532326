import Mathlib
import ControlDeck.Formula.Lexer
import ControlDeck.Proofs.Numerals
import ControlDeck.Proofs.Splitting

namespace ControlDeck.Formula

open Decimal Text

variable {c quote : Char} {s after rest : List Char} {source : String} {position : Nat}
  {t : Token}

/-- The words that name no operand, in lower case. -/
def keywords : List (String × Token) :=
  [("true", .true), ("false", .false), ("null", .null), ("and", .op .and), ("or", .op .or),
    ("not", .not)]

/-- The signs of operators and punctuation. -/
def signs : List (List Char × Token) :=
  [(['('], .open), ([')'], .close), ([','], .comma), (['+'], .op .add), (['-'], .op .sub),
    (['*'], .op .mul), (['/'], .op .div), (['%'], .op .rem), (['!'], .not),
    (['&', '&'], .op .and), (['|', '|'], .op .or), (['='], .op .eq), (['=', '='], .op .eq),
    (['!', '='], .op .ne), (['<', '>'], .op .ne), (['<'], .op .lt), (['<', '='], .op .le),
    (['>'], .op .gt), (['>', '='], .op .ge)]

/-- The content of a quoted text, with a backslash before each backslash and each of the quotes. -/
def escape (quote : Char) : List Char → List Char
  | [] => []
  | c :: rest =>
    if c = '\\' ∨ c = quote then '\\' :: c :: escape quote rest else c :: escape quote rest

/-- The ways to write a token. Decimals are left out: only some of them have a finite text. -/
inductive Token.Spelled : Token → List Char → Prop where
  | integer {n : Nat} (fits : n < 2 ^ 63) : Spelled (.integer n) n.repr.toList
  | text {quote : Char} (h : quote = '\'' ∨ quote = '"') (s : String) :
      Spelled (.text s) (quote :: (escape quote s.toList ++ [quote]))
  | property {name : String} (some : name ≠ "") (trimmed : trimmed name = name)
      (closing : ']' ∉ name.toList) : Spelled (.property name) ('[' :: (name.toList ++ [']']))
  | word {name : String} {c : Char} {s : List Char} (chars : name.toList = c :: s)
      (start : isWordStart c) (parts : ∀ d ∈ s, isWordPart d)
      (free : ∀ t, (asciiLowercase name, t) ∉ keywords) : Spelled (.word name) name.toList
  | keyword {t : Token} {name : String} (h : (asciiLowercase name, t) ∈ keywords) :
      Spelled t name.toList
  | sign {t : Token} {s : List Char} (h : (s, t) ∈ signs) : Spelled t s

/-- White space or the end of a text. -/
def Break (after : List Char) : Prop :=
  ∀ c ∈ after.head?, isBlank c = true

theorem isWordPart_of_isBlank (h : isBlank c = true) : isWordPart c = false := by
  have code : c.toNat ∈ [9, 10, 11, 12, 13, 0x20, 0x85, 0xA0, 0x1680, 0x2000, 0x2001, 0x2002,
      0x2003, 0x2004, 0x2005, 0x2006, 0x2007, 0x2008, 0x2009, 0x200A, 0x2028, 0x2029, 0x202F,
      0x205F, 0x3000] := by
    simp only [isBlank, Bool.or_eq_true, Bool.and_eq_true, decide_eq_true_eq, beq_iff_eq] at h
    simp only [List.mem_cons, List.not_mem_nil, or_false]
    omega
  rw [← Char.ofNat_toNat c]
  generalize c.toNat = n at code
  revert n
  decide +kernel

theorem isWordPart_of_isWordStart (h : isWordStart c) : isWordPart c := by
  rw [isWordStart, Bool.or_eq_true] at h
  rw [isWordPart]
  rcases h with h | h <;> simp [h]

theorem code_of_isDigit (h : c.isDigit = true) : 48 ≤ c.toNat ∧ c.toNat ≤ 57 :=
  Char.isDigit_iff_toNat.1 h

theorem isWordPart_of_isDigit (h : c.isDigit = true) : isWordPart c := by
  have small : c.toNat < 128 := by
    have := code_of_isDigit h
    omega
  simp [isWordPart, isNumber, small, h]

theorem isDigit_of_isWordStart (h : isWordStart c) : c.isDigit = false := by
  cases digit : c.isDigit with
  | false => rfl
  | true =>
    have code : c.toNat ∈ [48, 49, 50, 51, 52, 53, 54, 55, 56, 57] := by
      have := code_of_isDigit digit
      simp only [List.mem_cons, List.not_mem_nil, or_false]
      omega
    rw [← Char.ofNat_toNat c] at h
    generalize c.toNat = n at code h
    revert h n
    decide

theorem isBlank_of_isWordPart (h : isWordPart c) : isBlank c = false := by
  cases blank : isBlank c with
  | false => rfl
  | true =>
    rw [isWordPart_of_isBlank blank] at h
    cases h

namespace Break

theorem head?_ne (h : Break after) (hc : isBlank c = false) : after.head? ≠ some c := by
  intro head
  rw [h c head] at hc
  cases hc

/-- What passes a test that white space does not pass is taken up to the end. -/
theorem takeWhile_append {test : Char → Bool} (h : Break after)
    (blank : ∀ c, isBlank c = true → test c = false) (hs : ∀ c ∈ s, test c = true) :
    (s ++ after).takeWhile test = s ∧ (s ++ after).dropWhile test = after :=
  takeWhile_append_of_stop hs fun c head => blank c (h c head)

end Break

/-- A text that is read as a token wherever white space or the end of the text follows. -/
def Scans (t : Token) (s : List Char) : Prop :=
  ∃ c rest, s = c :: rest ∧ isBlank c = false ∧ ∀ source position after, Break after →
    scanToken source position c (rest ++ after) = .ok (t, rest.length)

/-- A digit begins a number, and any other character of a word begins a word or nothing. -/
theorem scanToken_of_isWordPart (h : isWordPart c) : scanToken source position c rest =
    if c.isDigit then (scanNumber (c :: rest)).map fun (t, n) => (t, n - 1)
    else if isWordStart c then
      .ok (wordToken (String.ofList (c :: rest.takeWhile isWordPart)),
        (rest.takeWhile isWordPart).length)
    else .error (.unexpectedChar c position) := by
  unfold scanToken
  split
  all_goals try exact absurd h (by decide)
  have apart (d : Char) (hd : isWordPart d = false) : c ≠ d := by
    rintro rfl
    rw [h] at hd
    cases hd
  have ampersand := apart '&' (by decide)
  have bar := apart '|' (by decide)
  have single := apart '\'' (by decide)
  have double := apart '"' (by decide)
  simp only [ampersand, bar, single, double, false_and, or_self, if_false]

theorem isDigit_of_isBlank (h : isBlank c = true) : c.isDigit = false := by
  cases digit : c.isDigit with
  | false => rfl
  | true =>
    rw [isBlank_of_isWordPart (isWordPart_of_isDigit digit)] at h
    cases h

theorem scanNumber_append {n : Int} (digits : Digits s) (read : readWord? 64 s = some n)
    (ends : Break after) : scanNumber (s ++ after) = .ok (.integer n, s.length) := by
  obtain ⟨taken, left⟩ := ends.takeWhile_append (fun _ => isDigit_of_isBlank) digits.all
  -- This tells which alternative the fraction comes from.
  have point : ∀ rest, after ≠ '.' :: rest := by
    rintro rest rfl
    exact ends.head?_ne (by decide) rfl
  rw [scanNumber]
  simp [taken, left, read]

theorem fitsWord_natCast {n : Nat} (fits : n < 2 ^ 63) : fitsWord 64 n := by
  have power : pow2 63 = 2 ^ 63 := rfl
  rw [fitsWord_iff, Nat.add_one_sub_one, power]
  omega

theorem scans_integer {n : Nat} (fits : n < 2 ^ 63) : Scans (.integer n) n.repr.toList := by
  have digits := digits_repr n
  have read : readWord? 64 n.repr.toList = some (n : Int) := by
    have written := Numeral.bare digits
    rw [ofDigits_repr] at written
    exact readWord?_eq_some_iff.2 ⟨written, fitsWord_natCast fits⟩
  obtain ⟨c, s, chars⟩ := List.exists_cons_of_ne_nil digits.some
  rw [chars] at digits read ⊢
  have head := digits.all c List.mem_cons_self
  refine ⟨c, s, rfl, isBlank_of_isWordPart (isWordPart_of_isDigit head), ?_⟩
  intro source position after ends
  rw [scanToken_of_isWordPart (isWordPart_of_isDigit head), if_pos head, ← List.cons_append,
    scanNumber_append digits read ends]
  rfl

theorem unescape_of_escaped (h : quote = '\'' ∨ quote = '"') (hc : c = '\\' ∨ c = quote) :
    unescape c = c := by
  rcases hc with rfl | rfl
  · rfl
  · rcases h with rfl | rfl <;> rfl

theorem scanQuoted_escape (h : quote = '\'' ∨ quote = '"') (s after : List Char) :
    scanQuoted quote (escape quote s ++ quote :: after) =
      some (s, (escape quote s).length + 1) := by
  have plain : quote ≠ '\\' := by
    rcases h with rfl | rfl <;> decide
  induction s with
  | nil => simp [escape, scanQuoted, plain]
  | cons c s ih =>
    rw [escape]
    split
    · rename_i escaped
      simp [scanQuoted, ih, unescape_of_escaped h escaped]
    · rename_i bare
      obtain ⟨slash, inner⟩ := not_or.1 bare
      simp [scanQuoted, ih, slash, inner]

theorem scans_text (h : quote = '\'' ∨ quote = '"') (s : String) :
    Scans (.text s) (quote :: (escape quote s.toList ++ [quote])) := by
  refine ⟨quote, _, rfl, ?_, ?_⟩
  · rcases h with rfl | rfl <;> decide
  · intro source position after ends
    have read := scanQuoted_escape h s.toList after
    rw [List.append_assoc, List.singleton_append]
    rcases h with rfl | rfl
    · simp [scanToken, read]
    · simp [scanToken, read]

theorem scans_property {name : String} (some : name ≠ "") (trimmed : Text.trimmed name = name)
    (closing : ']' ∉ name.toList) :
    Scans (.property name) ('[' :: (name.toList ++ [']'])) := by
  refine ⟨'[', _, rfl, by decide, ?_⟩
  intro source position after ends
  have cut := splitOnce_append closing after
  have inner := trimmed_eq_self_iff.1 trimmed
  have more : name.toList ≠ [] := by
    simpa using some
  rw [List.append_assoc, List.singleton_append]
  simp [scanToken, cut, inner, more]

theorem scans_word {name : String} (chars : name.toList = c :: s) (start : isWordStart c)
    (parts : ∀ d ∈ s, isWordPart d) : Scans (wordToken name) name.toList := by
  have part := isWordPart_of_isWordStart start
  refine ⟨c, s, chars, isBlank_of_isWordPart part, ?_⟩
  intro source position after ends
  obtain ⟨taken, -⟩ := ends.takeWhile_append (fun _ => isWordPart_of_isBlank) parts
  rw [scanToken_of_isWordPart part, isDigit_of_isWordStart start, if_neg Bool.false_ne_true,
    if_pos start, taken, ← chars, String.ofList_toList]

theorem wordToken_of_free {name : String} (free : ∀ t, (asciiLowercase name, t) ∉ keywords) :
    wordToken name = .word name := by
  simp only [keywords, List.mem_cons, List.not_mem_nil, Prod.mk.injEq, or_false, not_or] at free
  unfold wordToken
  split
  all_goals simp_all

theorem wordToken_of_mem {name : String} (h : (asciiLowercase name, t) ∈ keywords) :
    wordToken name = t := by
  simp only [keywords, List.mem_cons, List.not_mem_nil, Prod.mk.injEq, or_false] at h
  rcases h with ⟨h, rfl⟩ | ⟨h, rfl⟩ | ⟨h, rfl⟩ | ⟨h, rfl⟩ | ⟨h, rfl⟩ | ⟨h, rfl⟩ <;>
    simp [wordToken, h]

theorem toNat_lt_of_isAlpha (h : c.isAlpha = true) : c.toNat < 128 := by
  simp only [Char.isAlpha, Char.isUpper, Char.isLower, Bool.or_eq_true, Bool.and_eq_true,
    decide_eq_true_eq, ge_iff_le, UInt32.le_iff_toNat_le] at h
  change c.val.toNat < 128
  rcases h with ⟨-, upper⟩ | ⟨-, lower⟩
  · exact upper.trans_lt (by decide)
  · exact lower.trans_lt (by decide)

theorem isWordStart_of_toLower (h : c.toLower.isAlpha) : isWordStart c := by
  rw [Char.isAlpha_toLower_eq_isAlpha] at h
  simp [isWordStart, isLetter, toNat_lt_of_isAlpha h, h]

theorem scans_keyword {name : String} (h : (asciiLowercase name, t) ∈ keywords) :
    Scans t name.toList := by
  have letters : ∀ entry ∈ keywords, entry.1.toList ≠ [] ∧ entry.1.toList.all Char.isAlpha := by
    decide
  obtain ⟨some, all⟩ := letters _ h
  simp only [asciiLowercase, String.toList_ofList, List.all_eq_true, List.mem_map,
    forall_exists_index, and_imp, forall_apply_eq_imp_iff₂, ne_eq, List.map_eq_nil_iff] at some all
  obtain ⟨c, s, chars⟩ := List.exists_cons_of_ne_nil some
  have start : ∀ d ∈ c :: s, isWordStart d := fun d hd =>
    isWordStart_of_toLower (all d (chars ▸ hd))
  rw [← wordToken_of_mem h]
  refine scans_word chars (start c List.mem_cons_self) fun d hd => ?_
  exact isWordPart_of_isWordStart (start d (List.mem_cons_of_mem c hd))

theorem scans_sign : ∀ entry ∈ signs, Scans entry.2 entry.1 := by
  have longer {after : List Char} (ends : Break after) :
      after.head? ≠ some '=' ∧ after.head? ≠ some '>' :=
    ⟨ends.head?_ne (by decide), ends.head?_ne (by decide)⟩
  simp only [signs, List.forall_mem_cons, List.not_mem_nil, false_imp_iff, implies_true, and_true]
  and_intros
  all_goals
    refine ⟨_, _, rfl, by decide, fun source position after ends => ?_⟩
    simp [scanToken, longer ends]

theorem Token.Spelled.scans (h : t.Spelled s) : Scans t s := by
  cases h with
  | integer fits => exact scans_integer fits
  | text quoted s => exact scans_text quoted s
  | property some trimmed closing => exact scans_property some trimmed closing
  | word chars start parts free =>
    rw [← wordToken_of_free free]
    exact scans_word chars start parts
  | keyword h => exact scans_keyword h
  | sign h => exact scans_sign _ h

/-- What can be written: no decimal, no integer below zero, and no name that would end too early or
be read as a keyword. -/
def Token.Writable : Token → Prop
  | .integer n => 0 ≤ n ∧ n < 2 ^ 63
  | .decimal _ => False
  | .property name => name ≠ "" ∧ trimmed name = name ∧ ']' ∉ name.toList
  | .word name => (∃ c s, name.toList = c :: s ∧ isWordStart c ∧ ∀ d ∈ s, isWordPart d) ∧
      ∀ t, (asciiLowercase name, t) ∉ keywords
  | _ => True

theorem symbol_mem_signs (op : BinaryOp) : (op.symbol.toList, .op op) ∈ signs := by
  cases op <;> decide

theorem Token.Writable.spelled (h : t.Writable) : ∃ s, t.Spelled s := by
  cases t with
  | integer n =>
    obtain ⟨n, rfl⟩ := Int.eq_ofNat_of_zero_le h.1
    exact ⟨_, .integer (by exact_mod_cast h.2)⟩
  | decimal x => exact h.elim
  | text s => exact ⟨_, .text (.inl rfl) s⟩
  | property name => exact ⟨_, .property h.1 h.2.1 h.2.2⟩
  | word name =>
    obtain ⟨⟨c, s, chars, start, parts⟩, free⟩ := h
    exact ⟨_, .word chars start parts free⟩
  | true => exact ⟨"true".toList, .keyword (by decide)⟩
  | false => exact ⟨"false".toList, .keyword (by decide)⟩
  | null => exact ⟨"null".toList, .keyword (by decide)⟩
  | «open» => exact ⟨['('], .sign (by decide)⟩
  | close => exact ⟨[')'], .sign (by decide)⟩
  | comma => exact ⟨[','], .sign (by decide)⟩
  | not => exact ⟨['!'], .sign (by decide)⟩
  | op b => exact ⟨_, .sign (symbol_mem_signs b)⟩

end ControlDeck.Formula
