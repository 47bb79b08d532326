import ControlDeck.Proofs.Spelling

namespace ControlDeck.Formula

open Text

variable {gap rest after trailing : List Char} {source : String} {position : Nat} {t : Token}
  {s : List Char}

/-- A token in one of its spellings, and the white space before it. -/
structure Piece where
  gap : List Char
  token : Token
  text : List Char
  blank : ∀ c ∈ gap, isBlank c = Bool.true
  spelled : token.Spelled text

/-- The text of some pieces, and white space after the last. -/
def written (trailing : List Char) : List Piece → List Char
  | [] => trailing
  | p :: rest => p.gap ++ (p.text ++ written trailing rest)

/-- The tokens of some pieces, the first of which comes after `position` characters. Each stands
where its spelling begins. -/
def located : Nat → List Piece → List Located
  | _, [] => []
  | position, p :: rest =>
    ⟨p.token, position + p.gap.length⟩ ::
      located (position + p.gap.length + p.text.length) rest

theorem tokensFrom_blanks (blank : ∀ c ∈ gap, isBlank c = Bool.true) :
    tokensFrom source position (gap ++ rest) = tokensFrom source (position + gap.length) rest := by
  induction gap generalizing position with
  | nil => rfl
  | cons c gap ih =>
    rw [List.cons_append, tokensFrom, if_pos (blank c List.mem_cons_self),
      ih fun d hd => blank d (List.mem_cons_of_mem c hd), List.length_cons]
    congr 1
    omega

theorem tokensFrom_spelled (h : t.Spelled s) (ends : Break after) :
    tokensFrom source position (s ++ after) =
      (tokensFrom source (position + s.length) after).map (⟨t, position⟩ :: ·) := by
  obtain ⟨c, rest, rfl, shown, scan⟩ := h.scans
  rw [List.cons_append, tokensFrom, shown, if_neg Bool.false_ne_true,
    scan source position after ends]
  dsimp only [bind, Except.bind]
  rw [List.drop_left, List.length_cons]
  rw [show position + 1 + rest.length = position + (rest.length + 1) by omega]
  cases tokensFrom source (position + (rest.length + 1)) after <;> rfl

theorem ends_written {pieces : List Piece} (apart : ∀ p ∈ pieces.head?, p.gap ≠ [])
    (blank : ∀ c ∈ trailing, isBlank c = Bool.true) : Break (written trailing pieces) := by
  intro c head
  cases pieces with
  | nil => exact blank c (List.mem_of_mem_head? head)
  | cons p pieces =>
    obtain ⟨d, gap, same⟩ := List.exists_cons_of_ne_nil (apart p rfl)
    rw [written, same] at head
    cases head
    exact p.blank c (same ▸ List.mem_cons_self)

theorem tokensFrom_written {pieces : List Piece} (apart : ∀ p ∈ pieces.tail, p.gap ≠ [])
    (blank : ∀ c ∈ trailing, isBlank c = Bool.true) :
    tokensFrom source position (written trailing pieces) = .ok (located position pieces) := by
  induction pieces generalizing position with
  | nil =>
    have none := @tokensFrom_blanks trailing [] source position blank
    rwa [List.append_nil, tokensFrom] at none
  | cons p pieces ih =>
    have ends : Break (written trailing pieces) :=
      ends_written (fun q hq => apart q (List.mem_of_mem_head? hq)) blank
    rw [written, tokensFrom_blanks p.blank, tokensFrom_spelled p.spelled ends,
      ih fun q hq => apart q (List.mem_of_mem_tail hq)]
    rfl

theorem located_tokens (position : Nat) (pieces : List Piece) :
    (located position pieces).map (·.token) = pieces.map (·.token) := by
  induction pieces generalizing position with
  | nil => rfl
  | cons p pieces ih => rw [located, List.map_cons, List.map_cons, ih]

theorem exists_pieces {tokens : List Token} (h : ∀ t ∈ tokens, t.Writable) :
    ∃ pieces : List Piece, pieces.map (·.token) = tokens ∧ ∀ p ∈ pieces, p.gap ≠ [] := by
  induction tokens with
  | nil => exact ⟨[], rfl, by simp⟩
  | cons t tokens ih =>
    obtain ⟨s, spelled⟩ := (h t List.mem_cons_self).spelled
    obtain ⟨pieces, same, apart⟩ := ih fun u hu => h u (List.mem_cons_of_mem t hu)
    refine ⟨⟨[' '], t, s, List.all_eq_true.1 rfl, spelled⟩ :: pieces, ?_, ?_⟩
    · rw [List.map_cons, same]
    · exact List.forall_mem_cons.2 ⟨by simp, apart⟩

/-- Every list of tokens that can be written is read from some text. -/
theorem exists_source {tokens : List Token} (h : ∀ t ∈ tokens, t.Writable) :
    ∃ source found, tokenize source = .ok found ∧ found.map (·.token) = tokens := by
  obtain ⟨pieces, rfl, apart⟩ := exists_pieces h
  refine ⟨String.ofList (written [] pieces), located 0 pieces, ?_, located_tokens 0 pieces⟩
  rw [tokenize, String.toList_ofList]
  exact tokensFrom_written (fun p hp => apart p (List.mem_of_mem_tail hp)) (by simp)

/-- Tokens that are written with white space between them, each in any of its spellings, are read
back, and each where it was written. -/
theorem tokenize_written {pieces : List Piece} (apart : ∀ p ∈ pieces.tail, p.gap ≠ [])
    (blank : ∀ c ∈ trailing, isBlank c = Bool.true) :
    tokenize (String.ofList (written trailing pieces)) = .ok (located 0 pieces) ∧
      (located 0 pieces).map (·.token) = pieces.map (·.token) := by
  refine ⟨?_, located_tokens 0 pieces⟩
  rw [tokenize, String.toList_ofList]
  exact tokensFrom_written apart blank

/-- Quotes within a text, a keyword in capitals, and another sign for `!=`. -/
theorem tokenize_written_mixed : ∃ (pieces : List Piece) (trailing : List Char),
    (∀ p ∈ pieces.tail, p.gap ≠ []) ∧ (∀ c ∈ trailing, isBlank c = Bool.true) ∧
      written trailing pieces = "[Gear ratio] <>\t'it\\'s \\\\'\n AND 120 ".toList ∧
      tokenize "[Gear ratio] <>\t'it\\'s \\\\'\n AND 120 " =
        .ok [⟨.property "Gear ratio", 0⟩, ⟨.op .ne, 13⟩, ⟨.text "it's \\", 16⟩, ⟨.op .and, 28⟩,
          ⟨.integer 120, 32⟩] := by
  let pieces : List Piece := [
    ⟨[], .property "Gear ratio", _, by simp, .property (by decide) (by decide) (by decide)⟩,
    ⟨[' '], .op .ne, ['<', '>'], List.all_eq_true.1 rfl, .sign (by decide)⟩,
    ⟨['\t'], _, _, List.all_eq_true.1 rfl, .text (.inl rfl) "it's \\"⟩,
    ⟨['\n', ' '], .op .and, "AND".toList, List.all_eq_true.1 rfl, .keyword (by decide)⟩,
    ⟨[' '], _, _, List.all_eq_true.1 rfl, .integer (show 120 < 2 ^ 63 by decide)⟩]
  have apart : ∀ p ∈ pieces.tail, p.gap ≠ [] := by simp [pieces]
  have blank : ∀ c ∈ [' '], isBlank c = Bool.true := List.all_eq_true.1 rfl
  refine ⟨pieces, [' '], apart, blank, by decide, ?_⟩
  exact (tokenize_written apart blank).1

end ControlDeck.Formula
