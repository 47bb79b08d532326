import ControlDeck.Comparison
import ControlDeck.Proofs.Splitting

namespace ControlDeck

namespace Comparison

open Text

/-- No operator occurs in a text. -/
def Free (s : List Char) : Prop :=
  ∀ op : Operator, ¬op.symbol.toList <:+: s

/-- The comparisons that some text stands for. -/
structure Legible (c : Comparison) : Prop where
  named : c.property.toList ≠ []
  tidy : trim c.property.toList = c.property.toList
  free : Free c.property.toList
  tidyBounds : ∀ bound ∈ c.bounds, trim bound.toList = bound.toList
  range : c.operator = .between → c.bounds ≠ [] ∧ ∀ bound ∈ c.bounds, ';' ∉ bound.toList
  single : c.operator ≠ .between → ∃ bound, c.bounds = [bound]

variable {s a before after : List Char} {d : Char} {op : Operator} {c : Comparison}
  {text bound : String}

theorem Operator.mem_all (op : Operator) : op ∈ Operator.all := by
  cases op <;> decide

theorem Operator.not_mem_symbol (op : Operator) : ' ' ∉ op.symbol.toList := by
  cases op <;> decide

theorem Free.of_isInfix (h : Free s) (part : a <:+: s) : Free a :=
  fun op inside => h op (inside.trans part)

theorem operatorAt?_eq_none_iff :
    operatorAt? s = none ↔ ∀ op : Operator, ¬op.symbol.toList <+: s := by
  rw [operatorAt?, List.findSome?_eq_none_iff]
  constructor
  · rintro none op ⟨rest, rfl⟩
    have hit := none op op.mem_all
    rw [dropStart?_eq_some_iff.2 rfl] at hit
    cases hit
  · intro absent op _
    rw [Option.map_eq_none_iff, Option.eq_none_iff_forall_ne_some]
    intro rest hit
    exact absent op ⟨rest, (dropStart?_eq_some_iff.1 hit).symm⟩

theorem eq_of_operatorAt? (h : operatorAt? s = some (op, after)) :
    s = op.symbol.toList ++ after := by
  obtain ⟨found, -, hit⟩ := List.exists_of_findSome?_eq_some h
  obtain ⟨rest, drop, ⟨⟩⟩ := Option.map_eq_some_iff.1 hit
  exact dropStart?_eq_some_iff.1 drop

theorem operatorAt?_space (absent : ∀ op : Operator, ¬op.symbol.toList <+: a) (s : List Char) :
    operatorAt? (a ++ ' ' :: s) = none := by
  rw [operatorAt?_eq_none_iff]
  intro op starts
  exact absent op (prefix_of_not_mem op.not_mem_symbol starts)

theorem free_nil : Free [] := by
  intro op inside
  rw [List.infix_nil] at inside
  cases op <;> cases inside

theorem free_cons_iff :
    Free (d :: s) ↔ (∀ op : Operator, ¬op.symbol.toList <+: d :: s) ∧ Free s := by
  simp only [Free, List.infix_cons_iff, not_or, forall_and]

theorem split?_eq_none_iff : split? s = none ↔ Free s := by
  induction s with
  | nil => exact iff_of_true rfl free_nil
  | cons d s ih =>
    rw [split?, free_cons_iff, ← operatorAt?_eq_none_iff, ← ih]
    cases operatorAt? (d :: s) with
    | none => simp
    | some hit => simp

theorem eq_of_split? (h : split? s = some (before, op, after)) :
    s = before ++ (op.symbol.toList ++ after) ∧ Free before := by
  induction s generalizing before with
  | nil => cases h
  | cons d s ih =>
    rw [split?] at h
    cases start : operatorAt? (d :: s) with
    | some hit =>
      rw [start] at h
      cases h
      exact ⟨eq_of_operatorAt? start, free_nil⟩
    | none =>
      rw [start] at h
      obtain ⟨⟨first, op, after⟩, split, ⟨⟩⟩ := Option.map_eq_some_iff.1 h
      obtain ⟨rfl, free⟩ := ih split
      have absent : ∀ op : Operator, ¬op.symbol.toList <+: d :: first := by
        intro op starts
        have whole := operatorAt?_eq_none_iff.1 start op
        exact whole (starts.trans (List.prefix_append (d :: first) _))
      exact ⟨rfl, free_cons_iff.2 ⟨absent, free⟩⟩

theorem split?_space (free : Free a) (s : List Char) :
    split? (a ++ ' ' :: s) =
      (split? s).map fun (before, op, after) => (a ++ ' ' :: before, op, after) := by
  -- An operator that starts in the text before the space would have to go on over the space.
  induction a with
  | nil =>
    have none := operatorAt?_space (fun op starts => free_nil op starts.isInfix) s
    rw [List.nil_append] at none ⊢
    rw [split?, none]
    rfl
  | cons d a ih =>
    obtain ⟨absent, rest⟩ := free_cons_iff.1 free
    have none := operatorAt?_space absent s
    rw [List.cons_append] at none ⊢
    rw [split?, none, ih rest]
    cases split? s with
    | none => rfl
    | some parts => rfl

/-- A space ends an operator, so no longer one is found. -/
theorem split?_symbol (op : Operator) (s : List Char) :
    split? (op.symbol.toList ++ ' ' :: s) = some ([], op, ' ' :: s) := by
  cases op <;> rfl

theorem display_toList (c : Comparison) :
    c.display.toList = c.property.toList ++
      ' ' :: (c.operator.symbol.toList ++
        ' ' :: [';'].intercalate (c.bounds.map String.toList)) := by
  simp only [display, String.toList_append, String.toList_intercalate, List.append_assoc]
  rfl

theorem boundsOf_of_ne (h : op ≠ .between) (s : List Char) : boundsOf op s = [String.ofList s] := by
  cases op with
  | between => exact absurd rfl h
  | _ => rfl

/-- What is read: a bare property is compared as if a bound had been written after it. -/
theorem parse_eq_ok (h : parse text = .ok c) : ∃ before op after, Free before ∧ trim before ≠ [] ∧
    c = ⟨String.ofList (trim before), op, boundsOf op (trim after)⟩ := by
  rw [parse] at h
  cases cut : split? text.toList with
  | none =>
    rw [cut] at h
    dsimp only at h
    split at h
    · cases h
    · rename_i some
      cases h
      exact ⟨text.toList, .gt, ['0'], split?_eq_none_iff.1 cut, mt List.isEmpty_iff.2 some, rfl⟩
  | some parts =>
    obtain ⟨before, op, after⟩ := parts
    rw [cut] at h
    dsimp only at h
    split at h
    · cases h
    · rename_i some
      cases h
      exact ⟨before, op, after, (eq_of_split? cut).2, mt List.isEmpty_iff.2 some, rfl⟩

theorem tidy_boundsOf (h : bound ∈ boundsOf op (trim s)) : trim bound.toList = bound.toList := by
  by_cases range : op = .between
  · rw [range, boundsOf] at h
    obtain ⟨part, -, rfl⟩ := List.mem_map.1 h
    rw [String.toList_ofList, trim_trim]
  · rw [boundsOf_of_ne range, List.mem_singleton] at h
    rw [h, String.toList_ofList, trim_trim]

theorem legible_of_parse (h : parse text = .ok c) : Legible c := by
  obtain ⟨before, op, after, free, some, rfl⟩ := parse_eq_ok h
  constructor
  case named => rwa [String.toList_ofList]
  case tidy => rw [String.toList_ofList, trim_trim]
  case free =>
    rw [String.toList_ofList]
    exact free.of_isInfix (trim_isInfix before)
  case tidyBounds => exact fun bound => tidy_boundsOf
  case range =>
    rintro rfl
    constructor
    · exact mt List.map_eq_nil_iff.1 (splitAll_ne_nil ';' _)
    · intro bound hb inside
      obtain ⟨part, cut, rfl⟩ := List.mem_map.1 hb
      rw [String.toList_ofList] at inside
      exact not_mem_of_mem_splitAll cut ((trim_isInfix part).subset inside)
  case single => exact fun range => ⟨_, boundsOf_of_ne range _⟩

theorem Legible.split?_display (h : Legible c) : split? c.display.toList =
    some (c.property.toList ++ [' '], c.operator,
      ' ' :: [';'].intercalate (c.bounds.map String.toList)) := by
  rw [display_toList, split?_space h.free, split?_symbol]
  rfl

theorem Legible.boundsOf_intercalate (h : Legible c) :
    boundsOf c.operator ([';'].intercalate (c.bounds.map String.toList)) = c.bounds := by
  by_cases range : c.operator = .between
  · obtain ⟨some, absent⟩ := h.range range
    have parts := @splitAll_intercalate ';' (c.bounds.map String.toList)
      (mt List.map_eq_nil_iff.1 some) (by simpa using absent)
    have back : ∀ bound ∈ c.bounds, String.ofList (trim bound.toList) = bound := by
      intro bound hb
      rw [h.tidyBounds bound hb, String.ofList_toList]
    rw [range, boundsOf, parts, List.map_map]
    exact (List.map_congr_left back).trans (List.map_id' c.bounds)
  · obtain ⟨bound, single⟩ := h.single range
    rw [boundsOf_of_ne range, single, List.map_singleton, List.intercalate_singleton,
      String.ofList_toList]

theorem Legible.parse_display_eq (h : Legible c) : parse c.display = .ok c := by
  have bounds : trim (' ' :: [';'].intercalate (c.bounds.map String.toList)) =
      [';'].intercalate (c.bounds.map String.toList) := by
    rw [trim_cons_blank rfl]
    exact trim_intercalate rfl (by simpa using h.tidyBounds)
  rw [parse, h.split?_display]
  dsimp only
  rw [trim_append_blank rfl h.tidy, bounds, h.boundsOf_intercalate, String.ofList_toList,
    if_neg (mt List.isEmpty_iff.1 h.named)]

theorem legible_iff : Legible c ↔ ∃ text, parse text = .ok c := by
  constructor
  · intro h
    exact ⟨c.display, h.parse_display_eq⟩
  · rintro ⟨text, h⟩
    exact legible_of_parse h

/-- The text of a comparison that was read is read as that comparison. -/
theorem parse_display (h : parse text = .ok c) : parse c.display = .ok c :=
  (legible_of_parse h).parse_display_eq

/-- A sign that is no operator before the operator, and operators and empty texts among the
bounds. -/
theorem parse_display_signs :
    parse " a= ~~; <1 ==2 ;" = .ok ⟨"a=", .between, ["", "<1 ==2", ""]⟩ ∧
      parse "a= ~~ ;<1 ==2;" = .ok ⟨"a=", .between, ["", "<1 ==2", ""]⟩ := by
  have read : parse " a= ~~; <1 ==2 ;" = .ok ⟨"a=", .between, ["", "<1 ==2", ""]⟩ := by rfl
  exact ⟨read, parse_display read⟩

end Comparison

end ControlDeck
