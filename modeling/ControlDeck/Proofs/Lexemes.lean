import ControlDeck.Proofs.Reading
import ControlDeck.Proofs.Spelling

namespace ControlDeck.Formula

open Decimal Text

variable {c d quote : Char} {s rest content : List Char} {source : String} {position place n : Nat}
  {t : Token} {test : List Char → Prop} {tokens : List Located}

/-- What stands between two quotes, and the text that it is read as. -/
inductive Quoted (quote : Char) : List Char → List Char → Prop where
  | nil : Quoted quote [] []
  | escape {s content : List Char} (c : Char) (h : Quoted quote s content) :
    Quoted quote ('\\' :: c :: s) (unescape c :: content)
  | char {c : Char} {s content : List Char} (bare : c ≠ '\\') (inner : c ≠ quote)
    (h : Quoted quote s content) : Quoted quote (c :: s) (c :: content)

/-- The texts that are read as a token: its spellings and, more widely, numbers with zeros in front,
decimals, escapes of any character and brackets with white space inside. -/
inductive Token.Lexeme : Token → List Char → Prop where
  | spelled {t : Token} {s : List Char} (h : t.Spelled s) : Lexeme t s
  | integer {digits : List Char} (h : Digits digits) (fits : ofDigits digits < 2 ^ 63) :
    Lexeme (.integer (ofDigits digits)) digits
  | decimal {whole fraction : List Char} (h : Digits whole) (h' : Digits fraction) :
    Lexeme (.decimal (ofScientific Bool.false (ofDigits (whole ++ fraction)) (-fraction.length)))
      (whole ++ '.' :: fraction)
  | text {quote : Char} (h : quote = '\'' ∨ quote = '"') {s content : List Char}
    (quoted : Quoted quote s content) :
    Lexeme (.text (String.ofList content)) (quote :: (s ++ [quote]))
  | property {inner : List Char} (some : trim inner ≠ []) (closing : ']' ∉ inner) :
    Lexeme (.property (String.ofList (trim inner))) ('[' :: (inner ++ [']']))

theorem Token.Lexeme.ne_nil (h : t.Lexeme s) : s ≠ [] := by
  cases h with
  | spelled h =>
    obtain ⟨c, rest, rfl, -⟩ := h.scans
    exact List.cons_ne_nil c rest
  | integer digits => exact digits.some
  | decimal whole => exact List.append_ne_nil_of_left_ne_nil whole.some _
  | text | property => exact List.cons_ne_nil _ _

/-- A text that is read as the token is in front. -/
def Token.Begins (t : Token) (s : List Char) : Prop :=
  ∃ lexeme, t.Lexeme lexeme ∧ lexeme <+: s

/-- The first `n + 1` characters are read as the token. -/
def Token.Takes (t : Token) (n : Nat) (s : List Char) : Prop :=
  ∃ lexeme, t.Lexeme lexeme ∧ lexeme.length = n + 1 ∧ lexeme <+: s

theorem quoted_of_scanQuoted (h : scanQuoted quote s = some (content, n)) :
    ∃ inner, Quoted quote inner content ∧ inner.length + 1 = n ∧ inner ++ [quote] <+: s := by
  fun_induction scanQuoted quote s generalizing content n with
  | case1 => cases h
  | case2 => cases h
  | case3 c rest ih =>
    obtain ⟨⟨content, n⟩, read, ⟨⟩⟩ := Option.map_eq_some_iff.1 h
    obtain ⟨inner, quoted, rfl, front⟩ := ih read
    exact ⟨_, .escape c quoted, rfl, by simpa using front⟩
  | case4 c rest =>
    cases h
    exact ⟨[], .nil, rfl, by simp⟩
  | case5 c rest bare other inner ih =>
    obtain ⟨⟨content, n⟩, read, ⟨⟩⟩ := Option.map_eq_some_iff.1 h
    obtain ⟨text, quoted, rfl, front⟩ := ih read
    have plain : c ≠ '\\' := by
      rintro rfl
      cases rest with
      | nil => exact bare rfl rfl
      | cons d rest => exact other d rest rfl rfl
    exact ⟨_, .char plain inner quoted, rfl, by simpa using front⟩

theorem takes_sign (h : ([c], t) ∈ signs) (rest : List Char) : t.Takes 0 (c :: rest) :=
  ⟨[c], .spelled (.sign h), rfl, by simp⟩

theorem takes_sign₂ (next : rest.head? = some d) (h : ([c, d], t) ∈ signs) :
    t.Takes 1 (c :: rest) := by
  obtain ⟨rest, rfl⟩ := List.head?_eq_some_iff.1 next
  exact ⟨[c, d], .spelled (.sign h), rfl, by simp⟩

theorem takes_text (h : quote = '\'' ∨ quote = '"')
    (read : scanQuoted quote rest = some (content, n)) :
    (Token.text (String.ofList content)).Takes n (quote :: rest) := by
  obtain ⟨inner, quoted, rfl, front⟩ := quoted_of_scanQuoted read
  exact ⟨_, .text h quoted, by simp, by simpa using front⟩

theorem takes_property {inner after : List Char} (cut : splitOnce ']' rest = some (inner, after))
    (some : trim inner ≠ []) :
    (Token.property (String.ofList (trim inner))).Takes (inner.length + 1) ('[' :: rest) := by
  obtain ⟨closing, rfl⟩ := eq_of_splitOnce cut
  exact ⟨_, .property some closing, by simp, by simp⟩

theorem spelled_wordToken {name : String} (chars : name.toList = c :: s) (start : isWordStart c)
    (parts : ∀ d ∈ s, isWordPart d) : (wordToken name).Spelled name.toList := by
  by_cases free : ∀ t, (asciiLowercase name, t) ∉ keywords
  · rw [wordToken_of_free free]
    exact .word chars start parts free
  · obtain ⟨t, keyword⟩ := not_forall_not.1 free
    rw [wordToken_of_mem keyword]
    exact .keyword keyword

theorem takes_word (start : isWordStart c) (rest : List Char) :
    (wordToken (String.ofList (c :: rest.takeWhile isWordPart))).Takes
      (rest.takeWhile isWordPart).length (c :: rest) := by
  have chars := @String.toList_ofList (c :: rest.takeWhile isWordPart)
  have spelled := spelled_wordToken chars start fun d hd => List.mem_takeWhile_imp hd
  rw [chars] at spelled
  exact ⟨_, .spelled spelled, rfl, by simpa using List.takeWhile_prefix isWordPart⟩

theorem digits_takeWhile (digit : c.isDigit = true) (rest : List Char) :
    Digits ((c :: rest).takeWhile Char.isDigit) :=
  ⟨by simp [digit], fun _ hd => List.mem_takeWhile_imp hd⟩

theorem takes_integer (digit : c.isDigit = true) {value : Int}
    (read : readWord? 64 ((c :: rest).takeWhile Char.isDigit) = some value) :
    (Token.integer value).Takes (((c :: rest).takeWhile Char.isDigit).length - 1) (c :: rest) := by
  have digits := digits_takeWhile digit rest
  obtain ⟨numeral, fits⟩ := readWord?_eq_some_iff.1 read
  obtain rfl := numeral.unique (.bare digits)
  have power : pow2 63 = 2 ^ 63 := rfl
  rw [fitsWord_iff, Nat.add_one_sub_one, power] at fits
  have length := List.length_pos_iff.2 digits.some
  exact ⟨_, .integer digits (by omega), by omega, List.takeWhile_prefix _⟩

theorem takes_decimal (digit : c.isDigit = true) {more : List Char}
    (point : (c :: rest).dropWhile Char.isDigit = '.' :: more)
    (some : more.takeWhile Char.isDigit ≠ []) :
    (Token.decimal (ofScientific false
        (ofDigits ((c :: rest).takeWhile Char.isDigit ++ more.takeWhile Char.isDigit))
        (-(more.takeWhile Char.isDigit).length))).Takes
      (((c :: rest).takeWhile Char.isDigit).length + (more.takeWhile Char.isDigit).length)
      (c :: rest) := by
  have whole := digits_takeWhile digit rest
  have fraction : Digits (more.takeWhile Char.isDigit) :=
    ⟨some, fun _ hd => List.mem_takeWhile_imp hd⟩
  have front : (c :: rest).takeWhile Char.isDigit ++ '.' :: more = c :: rest := by
    rw [← point, List.takeWhile_append_dropWhile]
  have lexeme : (c :: rest).takeWhile Char.isDigit ++ '.' :: more.takeWhile Char.isDigit <+:
      (c :: rest).takeWhile Char.isDigit ++ '.' :: more :=
    (List.prefix_append_right_inj _).2
      (List.cons_prefix_cons.2 ⟨rfl, List.takeWhile_prefix Char.isDigit⟩)
  rw [front] at lexeme
  refine ⟨_, .decimal whole fraction, ?_, lexeme⟩
  rw [List.length_append, List.length_cons, Nat.add_assoc]

theorem takes_number (digit : c.isDigit = true) (read : scanNumber (c :: rest) = .ok (t, n)) :
    t.Takes (n - 1) (c :: rest) := by
  unfold scanNumber at read
  extract_lets whole fraction at read
  split at read
  · split at read
    · cases read
      exact takes_integer digit ‹_›
    · cases read
  · rename_i some
    cases read
    unfold fraction at some ⊢
    split at some
    · rename_i more point
      rw [Nat.add_right_comm, Nat.add_sub_cancel]
      exact takes_decimal digit point (mt List.isEmpty_iff.2 some)
    · exact absurd rfl some

theorem takes_of_scanToken (h : scanToken source position c rest = .ok (t, n)) :
    t.Takes n (c :: rest) := by
  unfold scanToken at h
  split at h
  case h_9 =>
    cases h
    split
    · exact takes_sign₂ ‹_› (by decide)
    · exact takes_sign (by decide) rest
  case h_10 | h_12 =>
    dsimp only at h
    split_ifs at h
    all_goals cases h
    · exact takes_sign₂ ‹_› (by decide)
    · exact takes_sign (by decide) rest
  case h_11 =>
    dsimp only at h
    split_ifs at h
    all_goals cases h
    · exact takes_sign₂ ‹_› (by decide)
    · exact takes_sign₂ ‹_› (by decide)
    · exact takes_sign (by decide) rest
  case h_13 =>
    dsimp only at h
    split at h
    · cases h
    · rename_i cut
      split_ifs at h with empty
      cases h
      exact takes_property cut (mt List.isEmpty_iff.2 empty)
  case h_14 =>
    dsimp only at h
    split_ifs at h with and or quoted digit start
    · obtain ⟨rfl, next⟩ := and
      cases h
      exact takes_sign₂ next (by decide)
    · obtain ⟨rfl, next⟩ := or
      cases h
      exact takes_sign₂ next (by decide)
    · split at h
      · cases h
      · rename_i read
        cases h
        exact takes_text quoted read
    · obtain ⟨⟨t, n⟩, read, ⟨⟩⟩ := map_eq_ok.1 h
      exact takes_number digit read
    · cases h
      exact takes_word start rest
  all_goals
    cases h
    exact takes_sign (by decide) rest

theorem Token.Takes.le_length (h : t.Takes n (c :: rest)) : n ≤ rest.length := by
  obtain ⟨lexeme, -, length, front⟩ := h
  have shorter := front.length_le
  rw [length, List.length_cons] at shorter
  omega

/-- From the given place on, a text that comes after `position` characters passes a test. -/
def At (position place : Nat) (s : List Char) (test : List Char → Prop) : Prop :=
  ∃ before after, s = before ++ after ∧ place = position + before.length ∧ test after

theorem At.of_drop (le : n ≤ s.length) (h : At (position + n) place (s.drop n) test) :
    At position place s test := by
  obtain ⟨before, after, split, rfl, holds⟩ := h
  refine ⟨s.take n ++ before, after, ?_, ?_, holds⟩
  · rw [List.append_assoc, ← split, List.take_append_drop]
  · rw [List.length_append, List.length_take_of_le le, Nat.add_assoc]

theorem At.of_blank (h : At (position + 1) place rest test) : At position place (c :: rest) test :=
  .of_drop (n := 1) (by simp) h

theorem At.of_takes (takes : t.Takes n (c :: rest))
    (h : At (position + 1 + n) place (rest.drop n) test) : At position place (c :: rest) test := by
  rw [Nat.add_assoc, Nat.add_comm 1 n] at h
  exact .of_drop (Nat.succ_le_succ takes.le_length) h

/-- Each token stands where the text has something that is read as it. -/
theorem begins_of_tokensFrom (h : tokensFrom source position s = .ok tokens) :
    ∀ located ∈ tokens, At position located.position s located.token.Begins := by
  induction position, s using tokensFrom.induct generalizing tokens with
  | case1 position =>
    rw [tokensFrom] at h
    cases h
    exact fun located hl => absurd hl List.not_mem_nil
  | case2 position c rest blank ih =>
    rw [tokensFrom, if_pos blank] at h
    exact fun located hl => (ih h located hl).of_blank
  | case3 position c rest shown ih =>
    rw [tokensFrom, if_neg shown] at h
    obtain ⟨⟨token, n⟩, scan, h⟩ := bind_eq_ok.1 h
    obtain ⟨others, later, h⟩ := bind_eq_ok.1 h
    cases h
    have takes := takes_of_scanToken scan
    refine List.forall_mem_cons.2 ⟨?_, fun located hl => (ih n later located hl).of_takes takes⟩
    obtain ⟨lexeme, read, -, front⟩ := takes
    exact ⟨[], c :: rest, rfl, rfl, lexeme, read, front⟩

end ControlDeck.Formula
