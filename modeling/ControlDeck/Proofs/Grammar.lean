import ControlDeck.Proofs.Reading
import Mathlib.Data.List.Nodup

namespace ControlDeck

/-- A word stands for the text of that very word in the dictionary or, if the dictionary has not got
it, for the text of a word that differs from it in ASCII case only. -/
def Labels.Gives (labels : Labels) (word text : String) : Prop :=
  (word, text) ∈ labels ∨
    (∀ other, (word, other) ∉ labels) ∧
      ∃ key, (key, text) ∈ labels ∧ Text.asciiLowercase key = Text.asciiLowercase word

/-- No two words of the dictionary are the same but for ASCII case. -/
def Labels.Distinct (labels : Labels) : Prop :=
  (labels.map fun entry => Text.asciiLowercase entry.1).Nodup

theorem Labels.gives_of_resolve? {labels : Labels} {word text : String}
    (h : labels.resolve? word = some text) : labels.Gives word text := by
  rw [resolve?] at h
  split at h
  · rename_i found hl
    obtain rfl := Option.some.inj h
    obtain ⟨before, after, rfl, -⟩ := List.lookup_eq_some_iff.1 hl
    exact .inl (by simp)
  · rename_i hl
    rw [List.lookup_eq_none_iff] at hl
    obtain ⟨entry, hf, rfl⟩ := Option.map_eq_some_iff.1 h
    refine .inr ⟨fun other hm => ?_, entry.1, List.mem_of_find?_eq_some hf, ?_⟩
    · simpa using hl _ hm
    · simpa using List.find?_some hf

theorem Labels.Distinct.eq_of_mem {labels : Labels} (h : labels.Distinct)
    {entry entry' : String × String} (hm : entry ∈ labels) (hm' : entry' ∈ labels)
    (same : Text.asciiLowercase entry.1 = Text.asciiLowercase entry'.1) : entry = entry' :=
  List.inj_on_of_nodup_map h hm hm' same

theorem Labels.Gives.resolve? {labels : Labels} (distinct : labels.Distinct) {word text : String}
    (h : labels.Gives word text) : labels.resolve? word = some text := by
  rw [Labels.resolve?]
  split
  · rename_i found hl
    obtain ⟨before, after, he, -⟩ := List.lookup_eq_some_iff.1 hl
    have hm : (word, found) ∈ labels := by simp [he]
    rcases h with h | ⟨none, -⟩
    · exact congrArg some (Prod.mk.inj (distinct.eq_of_mem hm h rfl)).2
    · exact (none found hm).elim
  · rename_i hl
    rw [List.lookup_eq_none_iff] at hl
    obtain ⟨-, key, hm, same⟩ := h.resolve_left fun hm => by simpa using hl _ hm
    cases hf : labels.find? fun entry =>
        Text.asciiLowercase entry.1 == Text.asciiLowercase word with
    | none =>
      rw [List.find?_eq_none] at hf
      exact (hf _ hm (by simpa using same)).elim
    | some entry =>
      have he : Text.asciiLowercase entry.1 = Text.asciiLowercase word := by
        simpa using List.find?_some hf
      rw [distinct.eq_of_mem (List.mem_of_find?_eq_some hf) hm (he.trans same.symm)]
      rfl

namespace Formula

/-- The value of a token that is a formula by itself. -/
def Token.value? : Token → Option Value
  | .integer n => some (.integer n)
  | .decimal x => some (.double x)
  | .text s => some (.text s)
  | .true => some (.boolean Bool.true)
  | .false => some (.boolean Bool.false)
  | .null => some .null
  | _ => none

/-- The operator that a token is before its operand. -/
def Token.unary? : Token → Option UnaryOp
  | .not => some .not
  | .op .sub => some .negate
  | _ => none

/-- The binary operators of each level of the grammar, the tightest first. -/
def operators : Nat → List BinaryOp
  | 0 => [.mul, .div, .rem]
  | 1 => [.add, .sub]
  | 2 => [.lt, .le, .gt, .ge]
  | 3 => [.eq, .ne]
  | 4 => [.and]
  | 5 => [.or]
  | _ => []

/-- The grammar of formulas: `Derives labels room level tokens f` says that the tokens are written
for `f` with the operators of the first `level` levels outside of parentheses, all of which group to
the left, and that at most `room` parentheses, call arguments and unary operators are around any
point. Level 0 has operands only, and level 6 has all formulas. -/
inductive Derives (labels : Option Labels) : Nat → Nat → List Token → Formula → Prop where
  | literal {room : Nat} {token : Token} {value : Value} (h : token.value? = some value) :
    Derives labels room 0 [token] (.literal value)
  | property {room : Nat} (name : String) :
    Derives labels room 0 [.property name] (.property name)
  | label {room : Nat} {word text : String} {dictionary : Labels} (known : labels = some dictionary)
    (gives : dictionary.Gives word text) :
    Derives labels room 0 [.word word] (.literal (.text text))
  | group {room : Nat} {tokens : List Token} {f : Formula}
    (inner : Derives labels room 6 tokens f) :
    Derives labels (room + 1) 0 (.open :: (tokens ++ [.close])) f
  | unary {room : Nat} {token : Token} {op : UnaryOp} {tokens : List Token} {f : Formula}
    (h : token.unary? = some op) (operand : Derives labels room 0 tokens f) :
    Derives labels (room + 1) 0 (token :: tokens) (.unary op f)
  | call {room : Nat} {name : String} {function : Function} {args : List (List Token × Formula)}
    {f : Formula} (known : Text.asciiLowercase name = function.name)
    (operands : ∀ arg ∈ args, Derives labels room 6 arg.1 arg.2)
    (least : function.arity.1 ≤ args.length) (most : args.length ≤ function.arity.2)
    (called : function.call? (args.map (·.2)) = some f) :
    Derives labels (room + 1) 0
      (.word name :: .open :: ([Token.comma].intercalate (args.map (·.1)) ++ [.close])) f
  | tighter {room level : Nat} {tokens : List Token} {f : Formula}
    (h : Derives labels room level tokens f) : Derives labels room (level + 1) tokens f
  | binary {room level : Nat} {before after : List Token} {op : BinaryOp} {left right : Formula}
    (h : op ∈ operators level) (hl : Derives labels room (level + 1) before left)
    (hr : Derives labels room level after right) :
    Derives labels room (level + 1) (before ++ .op op :: after) (.binary op left right)

theorem mem_operators {level : Nat} {op : BinaryOp} : op ∈ operators level ↔ op.level = level := by
  match level with
  | 0 | 1 | 2 | 3 | 4 | 5 => cases op <;> simp [operators, BinaryOp.level]
  | level + 6 => cases op <;> simp [operators, BinaryOp.level]

theorem Function.ofName?_eq_some {name : String} {f : Function} :
    ofName? name = some f ↔ Text.asciiLowercase name = f.name := by
  constructor
  · intro h
    have := List.find?_some h
    exact (beq_iff_eq.1 this).symm
  · intro h
    rw [ofName?, h]
    cases f <;> decide

theorem Function.call?_arity {function : Function} {args : List Formula} {f : Formula}
    (h : function.call? args = some f) :
    function.arity.1 ≤ args.length ∧ args.length ≤ function.arity.2 := by
  unfold Function.call? at h
  split at h
  case h_14 => exact nomatch h
  all_goals simp [Function.arity]

/-- A function takes just as many arguments as its arity allows. -/
theorem Function.call?_isSome {function : Function} {args : List Formula} :
    (function.call? args).isSome ↔
      function.arity.1 ≤ args.length ∧ args.length ≤ function.arity.2 := by
  constructor
  · intro h
    obtain ⟨f, hf⟩ := Option.isSome_iff_exists.1 h
    exact call?_arity hf
  · rintro ⟨least, most⟩
    match args with
    | [] => cases function <;> simp [arity] at least
    | [a] => cases function <;> simp_all [arity, call?]
    | [a, b] => cases function <;> simp_all [arity, call?]
    | [a, b, c] => cases function <;> simp_all [arity, call?]
    | a :: b :: c :: d :: rest =>
      have three : function.arity.2 ≤ 3 := by cases function <;> decide
      simp only [List.length_cons] at most
      omega

namespace Derives

variable {labels : Option Labels} {room level : Nat} {tokens : List Token} {f : Formula}

theorem mono (h : Derives labels room level tokens f) {room' : Nat} (le : room ≤ room') :
    Derives labels room' level tokens f := by
  induction h generalizing room' with
  | literal h => exact .literal h
  | property name => exact .property name
  | label known gives => exact .label known gives
  | group inner ih =>
    obtain ⟨room', rfl⟩ := Nat.exists_eq_add_one_of_ne_zero (by omega : room' ≠ 0)
    exact .group (ih (by omega))
  | unary h operand ih =>
    obtain ⟨room', rfl⟩ := Nat.exists_eq_add_one_of_ne_zero (by omega : room' ≠ 0)
    exact .unary h (ih (by omega))
  | call known operands least most called ih =>
    obtain ⟨room', rfl⟩ := Nat.exists_eq_add_one_of_ne_zero (by omega : room' ≠ 0)
    exact .call known (fun arg harg => ih arg harg (by omega)) least most called
  | tighter h ih => exact .tighter (ih le)
  | binary h hl hr ihl ihr => exact .binary h (ihl le) (ihr le)

/-- No formula is written with no tokens, nor does any start with a closing parenthesis. -/
theorem head (h : Derives labels room level tokens f) :
    ∃ token rest, tokens = token :: rest ∧ token ≠ .close := by
  induction h with
  | literal h => exact ⟨_, _, rfl, by rintro rfl; cases h⟩
  | property | label | group | call => exact ⟨_, _, rfl, nofun⟩
  | unary h => exact ⟨_, _, rfl, by rintro rfl; cases h⟩
  | tighter h ih => exact ih
  | binary h hl hr ihl ihr =>
    obtain ⟨token, rest, rfl, hc⟩ := ihl
    exact ⟨token, _, rfl, hc⟩

end Derives

end Formula

end ControlDeck
