import ControlDeck.Proofs.Lexemes
import ControlDeck.Proofs.Parsing

namespace ControlDeck

namespace ExpressionError

/-- The position that an error reports. -/
def position? : ExpressionError → Option Nat
  | unexpectedChar _ position | unexpectedToken _ _ position | unterminatedText position
  | unterminatedProperty position => some position
  | _ => none

/-- What an error is about is in front. An error without a position points at nothing. -/
def PointsAt : ExpressionError → List Char → Prop
  | unexpectedChar c _, s => s.head? = some c
  | unexpectedToken token _ _, s => token.Begins s
  | unterminatedText _, s => s.head? = some '\'' ∨ s.head? = some '"'
  | unterminatedProperty _, s => s.head? = some '['
  | _, _ => False

/-- An error that has a position names a token of a list and its position. -/
def Blames (e : ExpressionError) (tokens : List Formula.Located) : Prop :=
  ∀ position ∈ e.position?, ∃ token expected,
    e = .unexpectedToken token expected position ∧ ⟨token, position⟩ ∈ tokens

variable {e : ExpressionError} {tokens rest : List Formula.Located}

theorem blames_of_none (h : e.position? = none) (tokens : List Formula.Located) :
    e.Blames tokens := by
  intro position found
  rw [h] at found
  cases found

theorem Blames.mono (h : e.Blames rest) (part : rest ⊆ tokens) : e.Blames tokens := by
  intro position found
  obtain ⟨token, expected, same, member⟩ := h position found
  exact ⟨token, expected, same, part member⟩

theorem blames_unexpected {token : Formula.Token} {position : Nat} (expected : Expected)
    (h : ⟨token, position⟩ ∈ tokens) :
    (unexpectedToken token expected position).Blames tokens := by
  rintro _ ⟨⟩
  exact ⟨token, expected, rfl, h⟩

end ExpressionError

namespace Formula

open Text ExpressionError

variable {c : Char} {rest s : List Char} {source : String} {position place : Nat}
  {e : ExpressionError}

theorem position?_of_scanNumber (h : scanNumber s = .error e) : e.position? = none := by
  rw [scanNumber] at h
  split_ifs at h
  split at h
  all_goals cases h
  rfl

theorem pointsAt_of_scanToken (h : scanToken source position c rest = .error e)
    (reported : e.position? = some place) : place = position ∧ e.PointsAt (c :: rest) := by
  unfold scanToken at h
  split at h
  case h_10 | h_11 | h_12 =>
    dsimp only at h
    split_ifs at h
  case h_13 =>
    dsimp only at h
    split at h
    · cases h
      cases reported
      exact ⟨rfl, rfl⟩
    · split_ifs at h
      cases h
      cases reported
  case h_14 =>
    dsimp only at h
    split_ifs at h with and or quoted digit start
    · split at h
      · cases h
        cases reported
        exact ⟨rfl, by simpa [PointsAt] using quoted⟩
      · cases h
    · rw [position?_of_scanNumber (map_eq_error.1 h)] at reported
      cases reported
    · cases h
      cases reported
      exact ⟨rfl, rfl⟩
  all_goals cases h

/-- An error of the lexer points at what it reports. -/
theorem pointsAt_of_tokensFrom (h : tokensFrom source position s = .error e)
    (reported : e.position? = some place) : At position place s e.PointsAt := by
  induction position, s using tokensFrom.induct with
  | case1 position =>
    rw [tokensFrom] at h
    cases h
  | case2 position c rest blank ih =>
    rw [tokensFrom, if_pos blank] at h
    exact (ih h).of_blank
  | case3 position c rest shown ih =>
    rw [tokensFrom, if_neg shown] at h
    rcases bind_eq_error.1 h with fault | ⟨⟨token, n⟩, scan, h⟩
    · obtain ⟨rfl, points⟩ := pointsAt_of_scanToken fault reported
      exact ⟨[], c :: rest, rfl, rfl, points⟩
    · rcases bind_eq_error.1 h with later | ⟨others, -, h⟩
      · exact (ih n later).of_takes (takes_of_scanToken scan)
      · cases h

/-- Every error of a reader blames a token that it was given. -/
def Reader.Blames (next : Reader) : Prop :=
  ∀ ⦃tokens : List Located⦄ ⦃e : ExpressionError⦄, next tokens = .error e → e.Blames tokens

/-- A reader leaves the end of what it was given. -/
def Reader.Leaves (next : Reader) : Prop :=
  ∀ ⦃tokens rest : List Located⦄ ⦃f : Formula⦄, next tokens = .ok (f, rest) → rest <:+ tokens

variable {labels : Option Labels} {room : Nat} {tokens : List Located} {next : Reader}

theorem Reader.Sound.leaves {written : List Token → Formula → Prop} (h : next.Sound written) :
    next.Leaves := by
  intro tokens rest f read
  obtain ⟨taken, rfl, -⟩ := h read
  exact List.suffix_append taken rest

theorem chainFrom_blames (leaves : next.Leaves) (h : next.Blames) {level bound : Nat}
    {left : Formula} (read : chainFrom level next bound left tokens = .error e) :
    e.Blames tokens := by
  induction bound, left, tokens using chainFrom.induct level with
  | case1 bound left b position after same ih =>
    rw [chainFrom, if_pos same] at read
    rcases bind_eq_error.1 read with fault | ⟨⟨right, rest⟩, operand, read⟩
    · exact (h fault).mono (List.subset_cons_self _ _)
    · exact (ih right rest read).mono fun t ht => .tail _ ((leaves operand).subset ht)
  | case2 bound left b position after other =>
    rw [chainFrom, if_neg other] at read
    cases read
  | case3 bound left tokens other =>
    rw [chainFrom] at read
    · cases read
    · exact other

theorem Reader.Blames.climb {operand : Reader} (sound : operand.Sound (Derives labels room 0))
    (h : operand.Blames) (level : Nat) : (climb operand level).Blames := by
  induction level with
  | zero => exact h
  | succ level ih =>
    intro tokens e read
    have leaves := (sound.climb level).leaves
    rcases bind_eq_error.1 read with fault | ⟨⟨left, rest⟩, first, read⟩
    · exact ih fault
    · exact (chainFrom_blames leaves ih read).mono (leaves first).subset

theorem expect_blames {token : Token} (h : expect token tokens = .error e) : e.Blames tokens := by
  cases tokens with
  | nil =>
    cases h
    exact blames_of_none rfl []
  | cons t tokens =>
    rw [expect] at h
    split_ifs at h
    cases h
    exact blames_unexpected _ List.mem_cons_self

theorem arguments_blames (leaves : next.Leaves) (h : next.Blames) {bound : Nat}
    (read : Formula.arguments next bound tokens = .error e) : e.Blames tokens := by
  induction bound generalizing tokens with
  | zero => cases read
  | succ bound ih =>
    rw [Formula.arguments] at read
    rcases bind_eq_error.1 read with fault | ⟨⟨first, rest⟩, argument, read⟩
    · exact h fault
    · refine Blames.mono ?_ (leaves argument).subset
      dsimp only at read
      split at read
      · cases read
        exact blames_of_none rfl []
      · rcases bind_eq_error.1 read with fault | ⟨⟨others, rest⟩, -, read⟩
        · exact (ih fault).mono (List.subset_cons_self _ _)
        · cases read
      · cases read
      · cases read
        exact blames_unexpected _ List.mem_cons_self

theorem callOf_blames (leaves : next.Leaves) (h : next.Blames) {name : String}
    (read : callOf next name tokens = .error e) : e.Blames tokens := by
  rw [callOf] at read
  split at read
  · cases read
    exact blames_of_none rfl tokens
  · dsimp only at read
    split at read
    all_goals rcases bind_eq_error.1 read with fault | ⟨⟨args, rest⟩, -, finish⟩
    · cases fault
    · dsimp only at finish
      split at finish
      all_goals cases finish
      exact blames_of_none rfl _
    · exact arguments_blames leaves h fault
    · dsimp only at finish
      split at finish
      all_goals cases finish
      exact blames_of_none rfl tokens

theorem labelled_blames {word : String} (h : labelled labels word = .error e) :
    e.Blames tokens := by
  rw [labelled] at h
  split at h
  · cases h
  · cases h
    exact blames_of_none rfl tokens

theorem operandWith_blames {nestedOperand nestedExpression : Reader} (ho : nestedOperand.Blames)
    (leaves : nestedExpression.Leaves) (he : nestedExpression.Blames) :
    (operandWith labels nestedOperand nestedExpression).Blames := by
  intro tokens e read
  cases tokens with
  | nil =>
    cases read
    exact blames_of_none rfl []
  | cons t tokens =>
    obtain ⟨token, position⟩ := t
    cases token with
    | not => exact (ho (map_eq_error.1 read)).mono (List.subset_cons_self _ _)
    | op b =>
      cases b with
      | sub => exact (ho (map_eq_error.1 read)).mono (List.subset_cons_self _ _)
      | _ =>
        cases read
        exact blames_unexpected _ List.mem_cons_self
    | «open» =>
      refine Blames.mono ?_ (List.subset_cons_self _ _)
      rcases bind_eq_error.1 read with fault | ⟨⟨inner, rest⟩, nested, read⟩
      · exact he fault
      · rcases bind_eq_error.1 read with fault | ⟨rest, -, read⟩
        · exact (expect_blames fault).mono (leaves nested).subset
        · cases read
    | word name =>
      unfold operandWith at read
      dsimp only at read
      split at read
      · exact (callOf_blames leaves he read).mono fun t ht => .tail _ (.tail _ ht)
      · exact labelled_blames (map_eq_error.1 read)
    | close | comma =>
      cases read
      exact blames_unexpected _ List.mem_cons_self
    | integer | decimal | text | property | true | false | null => cases read

theorem operand_blames (labels : Option Labels) (room : Nat) : (operand labels room).Blames := by
  induction room with
  | zero =>
    have tooDeep : Reader.Blames fun _ => .error (.tooDeep maxNesting) := by
      intro tokens e read
      cases read
      exact blames_of_none rfl tokens
    exact operandWith_blames tooDeep (fun _ _ _ => nofun) tooDeep
  | succ room ih =>
    have sound := operand_sound labels room
    exact operandWith_blames ih (sound.climb 6).leaves (ih.climb sound 6)

/-- An error of the parser points at the token that it names. -/
theorem ofTokens_blames (h : ofTokens labels tokens = .error e) : e.Blames tokens := by
  rw [ofTokens] at h
  split at h
  · cases h
    exact blames_of_none rfl tokens
  · have sound := operand_sound labels maxNesting
    rcases bind_eq_error.1 h with fault | ⟨⟨formula, rest⟩, read, h⟩
    · exact (operand_blames labels maxNesting).climb sound 6 fault
    · have suffix := (sound.climb 6).leaves read
      dsimp only at h
      split at h
      · cases h
      · cases h
        exact blames_unexpected _ (suffix.subset List.mem_cons_self)

theorem pointsAt_of_parse (h : Formula.parse labels source = .error e)
    (reported : e.position? = some place) : At 0 place source.toList e.PointsAt := by
  rcases bind_eq_error.1 h with fault | ⟨tokens, read, h⟩
  · exact pointsAt_of_tokensFrom fault reported
  · rcases bind_eq_error.1 h with fault | ⟨formula, -, h⟩
    · obtain ⟨token, expected, rfl, member⟩ := ofTokens_blames fault place reported
      exact begins_of_tokensFrom read _ member
    · cases h

theorem Token.Begins.append {t : Token} (h : t.Begins s) (tail : List Char) :
    t.Begins (s ++ tail) := by
  obtain ⟨lexeme, read, front⟩ := h
  exact ⟨lexeme, read, front.trans (List.prefix_append s tail)⟩

end Formula

open Text

namespace ExpressionError

variable {e : ExpressionError} {s : List Char}

theorem PointsAt.append (h : e.PointsAt s) (tail : List Char) : e.PointsAt (s ++ tail) := by
  cases e with
  | unexpectedToken token => exact Formula.Token.Begins.append h tail
  | unterminatedText =>
    exact h.imp List.mem_head?_append_of_mem_head? List.mem_head?_append_of_mem_head?
  | unexpectedChar | unterminatedProperty => exact List.mem_head?_append_of_mem_head? h
  | _ => exact h

theorem PointsAt.ne_nil (h : e.PointsAt s) : s ≠ [] := by
  rintro rfl
  cases e with
  | unexpectedToken token =>
    obtain ⟨lexeme, read, front⟩ := h
    exact read.ne_nil (List.prefix_nil.1 front)
  | _ => simp [PointsAt] at h

end ExpressionError

theorem Comparison.eq_missingProperty_of_parse {text : String} {e : ExpressionError}
    (h : Comparison.parse text = .error e) : e = .missingProperty text := by
  unfold Comparison.parse at h
  split at h
  split_ifs at h
  cases h
  rfl

namespace Compiled

/-- How many white space characters a text begins with. -/
def indent (text : String) : Nat :=
  (text.toList.takeWhile isBlank).length

/-- Only formulas have errors with a position, and they are read without the white space around. -/
theorem parse_of_ofText {labels : Option Labels} {text : String} {e : ExpressionError}
    {position : Nat} (h : ofText labels text = .error e) (reported : e.position? = some position) :
    Formula.parse labels (trimmed text) = .error e := by
  rw [ofText] at h
  split_ifs at h
  · rcases bind_eq_error.1 h with fault | ⟨parsed, -, h⟩
    · exact fault
    · cases h
  · rcases bind_eq_error.1 h with fault | ⟨parsed, -, h⟩
    · rw [Comparison.eq_missingProperty_of_parse fault] at reported
      cases reported
    · cases h

/-- Where an error of a text says that it is, counted from the first character that is not white
space, the text has what the error is about. -/
theorem ofText_pointsAt {labels : Option Labels} {text : String} {e : ExpressionError}
    {position : Nat} (h : ofText labels text = .error e) (reported : e.position? = some position) :
    position + indent text < text.length ∧
      e.PointsAt (text.toList.drop (indent text + position)) := by
  obtain ⟨before, after, split, rfl, holds⟩ :=
    Formula.pointsAt_of_parse (parse_of_ofText h reported) reported
  obtain ⟨ending, whole⟩ := exists_append_trim text.toList
  rw [trimmed, String.toList_ofList] at split
  rw [split, List.append_assoc, ← List.append_assoc] at whole
  have shown : (text.toList.takeWhile isBlank ++ before).length = indent text + before.length := by
    rw [List.length_append, indent]
  rw [Nat.zero_add, Nat.add_comm, ← String.length_toList]
  constructor
  · have some := List.length_pos_iff.2 holds.ne_nil
    rw [whole, ← shown]
    simp only [List.length_append]
    omega
  · rw [whole, ← shown, List.drop_left]
    exact holds.append ending

/-- A stray character behind a property, with white space in front. -/
theorem ofText_pointsAt_stray :
    ofText none "  [x] $" = .error (.unexpectedChar '$' 4) ∧ 4 + indent "  [x] $" < 7 ∧
      (ExpressionError.unexpectedChar '$' 4).PointsAt
        ("  [x] $".toList.drop (indent "  [x] $" + 4)) := by
  have stray : ofText none "  [x] $" = .error (.unexpectedChar '$' 4) := by decide +kernel
  exact ⟨stray, ofText_pointsAt stray rfl⟩

/-- With white space in front, an error may point at another character than the one it names. -/
theorem pointsAt_needs_indent : ¬ ∀ (labels : Option Labels) (text : String) (e : ExpressionError)
    (position : Nat), ofText labels text = .error e → e.position? = some position →
      position < text.length ∧ e.PointsAt (text.toList.drop position) := by
  intro direct
  have stray : ofText none "  [x] $" = .error (.unexpectedChar '$' 4) := by decide +kernel
  obtain ⟨-, points⟩ := direct _ _ _ _ stray rfl
  exact absurd points (by simp [ExpressionError.PointsAt])

end Compiled

end ControlDeck
