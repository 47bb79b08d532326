import ControlDeck.Control
import ControlDeck.Item
import Mathlib.Data.List.Basic
import Mathlib.Tactic.Common

namespace ControlDeck

namespace Text

def lineEnd : List Char :=
  ['\r', '\n']

/-- The parts of a text between its line ends. -/
def splitLines : List Char → List (List Char)
  | [] => [[]]
  | '\r' :: '\n' :: rest => [] :: splitLines rest
  | c :: rest => (splitLines rest).modifyHead (c :: ·)

/-- A text that holds a line end. -/
def Breaks (s : List Char) : Prop :=
  lineEnd <:+: s

instance (s : List Char) : Decidable (Breaks s) :=
  inferInstanceAs (Decidable (lineEnd <:+: s))

variable {c : Char} {a b s : List Char}

theorem splitLines_cons (h : c = '\r' → ∀ rest, s ≠ '\n' :: rest) :
    splitLines (c :: s) = (splitLines s).modifyHead (c :: ·) := by
  rw [splitLines]
  rintro rest rfl rfl
  exact h rfl rest rfl

theorem splitLines_ne_nil (s : List Char) : splitLines s ≠ [] := by
  fun_induction splitLines s with
  | case1 | case2 => exact List.cons_ne_nil _ _
  | case3 c rest _ ih => simpa [List.modifyHead_eq_nil_iff] using ih

theorem splitLines_append (a b : List Char) :
    splitLines (a ++ (lineEnd ++ b)) = splitLines a ++ splitLines b := by
  fun_induction splitLines a with
  | case1 => rfl
  | case2 rest ih =>
    change [] :: splitLines (rest ++ (lineEnd ++ b)) = _
    rw [ih, List.cons_append]
  | case3 c rest other ih =>
    have apart : c = '\r' → ∀ rest', rest ++ (lineEnd ++ b) ≠ '\n' :: rest' := by
      intro hc rest' same
      cases rest with
      | nil => exact absurd (List.cons.inj same).1 (by decide)
      | cons d rest => exact other rest hc (by rw [(List.cons.inj same).1])
    rw [List.cons_append, splitLines_cons apart, ih]
    obtain ⟨line, lines, split⟩ := List.exists_cons_of_ne_nil (splitLines_ne_nil rest)
    rw [split]
    rfl

theorem breaks_iff : Breaks s ↔ ∃ a b, s = a ++ (lineEnd ++ b) := by
  rw [Breaks, List.IsInfix]
  simp only [List.append_assoc, eq_comm]

/-- A text without a line end is one line. -/
theorem splitLines_eq (h : ¬Breaks s) : splitLines s = [s] := by
  fun_induction splitLines s with
  | case1 => rfl
  | case2 rest ih => exact absurd (List.prefix_append lineEnd rest).isInfix h
  | case3 c rest _ ih =>
    rw [ih fun inner => h (List.infix_cons inner)]
    rfl

theorem two_le_length_splitLines (h : Breaks s) : 2 ≤ (splitLines s).length := by
  obtain ⟨a, b, rfl⟩ := breaks_iff.1 h
  rw [splitLines_append, List.length_append]
  have ha := List.length_pos_iff.2 (splitLines_ne_nil a)
  have hb := List.length_pos_iff.2 (splitLines_ne_nil b)
  omega

/-- A line end does not reach over another character. -/
theorem breaks_append_cons (hr : c ≠ '\r') (hn : c ≠ '\n') :
    Breaks (a ++ c :: b) ↔ Breaks a ∨ Breaks b := by
  constructor
  · intro h
    obtain ⟨p, q, same⟩ := breaks_iff.1 h
    rcases List.append_eq_append_iff.1 same with ⟨m, rfl, tail⟩ | ⟨m, rfl, tail⟩
    · cases m with
      | nil => exact absurd (List.cons.inj tail).1 hr
      | cons d m => exact .inr (breaks_iff.2 ⟨m, q, (List.cons.inj tail).2⟩)
    · match m, tail with
      | [], tail => exact absurd (List.cons.inj tail).1.symm hr
      | [_], tail => exact absurd (List.cons.inj (List.cons.inj tail).2).1.symm hn
      | _ :: _ :: m, tail =>
        obtain ⟨first, tail⟩ := List.cons.inj tail
        obtain ⟨second, -⟩ := List.cons.inj tail
        exact .inl (breaks_iff.2 ⟨p, m, by rw [← first, ← second, lineEnd]; rfl⟩)
  · rintro (ha | hb)
    · exact ha.trans (List.prefix_append a _).isInfix
    · exact hb.trans ((List.suffix_cons c b).trans (List.suffix_append a _)).isInfix

/-- Two texts with a separator between their parts. -/
theorem append_cons_eq_iff {a b a' b' : List Char} :
    a ++ c :: b = a' ++ c :: b' ↔
      (a = a' ∧ b = b') ∨ (∃ m, a' = a ++ c :: m ∧ b = m ++ c :: b') ∨
        ∃ m, a = a' ++ c :: m ∧ b' = m ++ c :: b := by
  constructor
  · intro same
    rcases List.append_eq_append_iff.1 same with ⟨m, rfl, tail⟩ | ⟨m, rfl, tail⟩
    · cases m with
      | nil => exact .inl ⟨(List.append_nil a).symm, (List.cons.inj tail).2⟩
      | cons d m =>
        obtain ⟨rfl, rest⟩ := List.cons.inj tail
        exact .inr (.inl ⟨m, rfl, rest⟩)
    · cases m with
      | nil => exact .inl ⟨List.append_nil a', (List.cons.inj tail).2.symm⟩
      | cons d m =>
        obtain ⟨rfl, rest⟩ := List.cons.inj tail
        exact .inr (.inr ⟨m, rfl, rest⟩)
  · rintro (⟨rfl, rfl⟩ | ⟨m, rfl, rfl⟩ | ⟨m, rfl, rfl⟩)
    · rfl
    · rw [List.append_assoc, List.cons_append]
    · rw [List.append_assoc, List.cons_append]

end Text

namespace Request

/-- A request for a property that some expression reads, or for a control that some item acts on. -/
def Issuable : Request → Prop
  | subscribe name | unsubscribe name =>
    ∃ labels text compiled, Compiled.ofText labels text = .ok compiled ∧ name ∈ compiled.used
  | command c => ∃ config : TargetConfig, config.target = .ok (.control c.control)

def line (r : Request) : String :=
  String.intercalate " " r.words

/-- The names in a request, which follow its first word. -/
def names (r : Request) : List String :=
  r.words.tail

/-- What is written for some requests one after another. -/
def stream (rs : List Request) : List Char :=
  rs.flatMap (·.wire.toList)

def keyword (r : Request) : String :=
  r.words.headD ""

variable {r r' : Request}

theorem words_eq (r : Request) : r.words = r.keyword :: r.names := by
  rcases r with name | name | (name | role) | (name | role) <;> rfl

theorem names_ne_nil (r : Request) : r.names ≠ [] := by
  rcases r with name | name | (name | role) | (name | role) <;> exact List.cons_ne_nil _ _

def keywords : List String :=
  ["subscribe", "unsubscribe", "trigger-input-pressed", "trigger-input-released",
    "controlmapper-role-pressed", "controlmapper-role-released"]

theorem keyword_mem (r : Request) : r.keyword ∈ keywords := by
  rcases r with name | name | (name | role) | (name | role) <;> simp [keyword, words, keywords]

/-- The first word of a line ends at its first space. -/
theorem keyword_plain (r : Request) :
    ' ' ∉ r.keyword.toList ∧ ¬Text.Breaks r.keyword.toList := by
  have plain : ∀ word ∈ keywords, ' ' ∉ word.toList ∧ ¬Text.Breaks word.toList := by
    decide +kernel
  exact plain r.keyword r.keyword_mem

theorem intercalate_cons (word : String) {words : List String} (h : words ≠ []) :
    (String.intercalate " " (word :: words)).toList =
      word.toList ++ ' ' :: (String.intercalate " " words).toList := by
  obtain ⟨next, words, rfl⟩ := List.exists_cons_of_ne_nil h
  simp only [String.toList_intercalate, List.map_cons, List.intercalate_cons_cons,
    List.append_assoc]
  rfl

theorem line_toList (r : Request) :
    r.line.toList = r.keyword.toList ++ ' ' :: (String.intercalate " " r.names).toList := by
  rw [line, words_eq, intercalate_cons r.keyword r.names_ne_nil]

theorem wire_toList (r : Request) : r.wire.toList = r.line.toList ++ Text.lineEnd := by
  rw [wire, String.toList_append]
  rfl

theorem breaks_intercalate {words : List String} (h : words ≠ []) :
    Text.Breaks (String.intercalate " " words).toList ↔ ∃ w ∈ words, Text.Breaks w.toList := by
  induction words with
  | nil => exact absurd rfl h
  | cons word words ih =>
    rw [List.exists_mem_cons_iff]
    cases words with
    | nil => simp
    | cons next words =>
      rw [intercalate_cons word (List.cons_ne_nil _ _),
        Text.breaks_append_cons (by decide) (by decide), ih (List.cons_ne_nil _ _)]

/-- A line is broken only by a name. -/
theorem breaks_line : Text.Breaks r.line.toList ↔ ∃ name ∈ r.names, Text.Breaks name.toList := by
  rw [line_toList, Text.breaks_append_cons (by decide) (by decide),
    breaks_intercalate r.names_ne_nil, or_iff_right r.keyword_plain.2]

theorem splitLines_stream (rs : List Request) :
    Text.splitLines (stream rs) = rs.flatMap (fun r => Text.splitLines r.line.toList) ++ [[]] := by
  induction rs with
  | nil => rfl
  | cons r rs ih =>
    rw [stream, List.flatMap_cons, wire_toList, List.append_assoc, Text.splitLines_append,
      List.flatMap_cons, List.append_assoc, ← ih]
    rfl

/-- No request has more lines than one just if none of them has two. -/
theorem length_splitLines_stream (rs : List Request) :
    rs.length + 1 ≤ (Text.splitLines (stream rs)).length ∧
      ((Text.splitLines (stream rs)).length = rs.length + 1 ↔
        ∀ r ∈ rs, ¬Text.Breaks r.line.toList) := by
  induction rs with
  | nil => simp [stream, Text.splitLines]
  | cons r rs ih =>
    obtain ⟨le, iff⟩ := ih
    have length : (Text.splitLines (stream (r :: rs))).length =
        (Text.splitLines r.line.toList).length + (Text.splitLines (stream rs)).length := by
      rw [splitLines_stream, splitLines_stream, List.flatMap_cons, List.append_assoc,
        List.length_append]
    rw [length, List.forall_mem_cons, ← iff, List.length_cons]
    by_cases broken : Text.Breaks r.line.toList
    · have two := Text.two_le_length_splitLines broken
      exact ⟨by omega, fun same => by omega, fun h => absurd broken h.1⟩
    · rw [Text.splitLines_eq broken, List.length_singleton]
      exact ⟨by omega, fun same => ⟨broken, by omega⟩, fun h => by omega⟩

theorem wire_eq_iff : r.wire = r'.wire ↔ r.keyword = r'.keyword ∧
    String.intercalate " " r.names = String.intercalate " " r'.names := by
  rw [← String.toList_inj, wire_toList, wire_toList, List.append_left_inj, line_toList, line_toList,
    Text.append_cons_eq_iff, String.toList_inj, String.toList_inj]
  refine or_iff_left ?_
  rintro (⟨m, longer, -⟩ | ⟨m, longer, -⟩)
  · exact r'.keyword_plain.1 (longer ▸ List.mem_append_right _ List.mem_cons_self)
  · exact r.keyword_plain.1 (longer ▸ List.mem_append_right _ List.mem_cons_self)

end Request

/-- The owner of one role goes on where the name of the other begins. -/
def Role.Overlaps (a b : Role) : Prop :=
  ∃ middle, b.owner = a.owner ++ " " ++ middle ∧ a.name = middle ++ " " ++ b.name

namespace Role

variable {a b : Role}

theorem toList_spaced (s t : String) : (s ++ " " ++ t).toList = s.toList ++ ' ' :: t.toList := by
  rw [String.toList_append, String.toList_append, List.append_assoc]
  rfl

theorem overlaps_iff : a.Overlaps b ↔ ∃ middle : List Char,
    b.owner.toList = a.owner.toList ++ ' ' :: middle ∧
      a.name.toList = middle ++ ' ' :: b.name.toList := by
  constructor
  · rintro ⟨middle, owner, name⟩
    exact ⟨middle.toList, owner ▸ toList_spaced .., name ▸ toList_spaced ..⟩
  · rintro ⟨middle, owner, name⟩
    refine ⟨String.ofList middle, String.toList_inj.1 ?_, String.toList_inj.1 ?_⟩
    · rw [toList_spaced, String.toList_ofList, owner]
    · rw [toList_spaced, String.toList_ofList, name]

theorem spaced_eq_iff : a.owner ++ " " ++ a.name = b.owner ++ " " ++ b.name ↔
    a = b ∨ a.Overlaps b ∨ b.Overlaps a := by
  rw [← String.toList_inj, toList_spaced, toList_spaced, Text.append_cons_eq_iff, String.toList_inj,
    String.toList_inj, ← overlaps_iff, ← overlaps_iff, ← Role.mk.injEq]

end Role

namespace Request

variable {r r' : Request}

/-- Requests of one kind for two roles that overlap. -/
inductive Confused : Request → Request → Prop
  | press {a b : Role} (h : a.Overlaps b ∨ b.Overlaps a) :
    Confused (.command (.press (.role a))) (.command (.press (.role b)))
  | release {a b : Role} (h : a.Overlaps b ∨ b.Overlaps a) :
    Confused (.command (.release (.role a))) (.command (.release (.role b)))

theorem Confused.wire_eq (h : r.Confused r') : r.wire = r'.wire := by
  cases h with
  | press h => exact wire_eq_iff.2 ⟨rfl, Role.spaced_eq_iff.2 (.inr h)⟩
  | release h => exact wire_eq_iff.2 ⟨rfl, Role.spaced_eq_iff.2 (.inr h)⟩

/-- Requests that differ at most in their names. -/
inductive SameKind : Request → Request → Prop
  | subscribe (name name' : String) : SameKind (.subscribe name) (.subscribe name')
  | unsubscribe (name name' : String) : SameKind (.unsubscribe name) (.unsubscribe name')
  | pressTrigger (name name' : String) :
    SameKind (.command (.press (.trigger name))) (.command (.press (.trigger name')))
  | releaseTrigger (name name' : String) :
    SameKind (.command (.release (.trigger name))) (.command (.release (.trigger name')))
  | pressRole (a b : Role) :
    SameKind (.command (.press (.role a))) (.command (.press (.role b)))
  | releaseRole (a b : Role) :
    SameKind (.command (.release (.role a))) (.command (.release (.role b)))

theorem SameKind.of_keyword (h : r.keyword = r'.keyword) : r.SameKind r' := by
  rcases r with name | name | (name | a) | (name | a) <;>
    rcases r' with name' | name' | (name' | b) | (name' | b) <;>
      first
      | constructor
      | simp [keyword, words] at h

theorem SameKind.eq_or_confused (h : r.SameKind r')
    (same : String.intercalate " " r.names = String.intercalate " " r'.names) :
    r = r' ∨ r.Confused r' := by
  cases h with
  | subscribe name name' => exact .inl (congrArg Request.subscribe same)
  | unsubscribe name name' => exact .inl (congrArg Request.unsubscribe same)
  | pressTrigger name name' =>
    exact .inl (congrArg (fun name => command (.press (.trigger name))) same)
  | releaseTrigger name name' =>
    exact .inl (congrArg (fun name => command (.release (.trigger name))) same)
  | pressRole a b =>
    rcases Role.spaced_eq_iff.1 same with rfl | overlap
    · exact .inl rfl
    · exact .inr (.press overlap)
  | releaseRole a b =>
    rcases Role.spaced_eq_iff.1 same with rfl | overlap
    · exact .inl rfl
    · exact .inr (.release overlap)

theorem wire_eq_iff_confused : r.wire = r'.wire ↔ r = r' ∨ r.Confused r' := by
  constructor
  · intro same
    obtain ⟨hk, hn⟩ := wire_eq_iff.1 same
    exact (SameKind.of_keyword hk).eq_or_confused hn
  · rintro (rfl | h)
    · rfl
    · exact h.wire_eq

/-- Requests are read line by line, each as one line, just if no name holds a line end. Two requests
have one text just if they are of one kind and for two roles that overlap. -/
theorem wire_frames (rs : List Request) :
    ((Text.splitLines (stream rs)).length = rs.length + 1 ↔
        ∀ r ∈ rs, ∀ name ∈ r.names, ¬Text.Breaks name.toList) ∧
      (Text.splitLines (stream rs) = rs.map (·.line.toList) ++ [[]] ↔
        ∀ r ∈ rs, ∀ name ∈ r.names, ¬Text.Breaks name.toList) ∧
      ∀ r r' : Request, r.wire = r'.wire ↔ r = r' ∨ r.Confused r' := by
  have whole : (∀ r ∈ rs, ∀ name ∈ r.names, ¬Text.Breaks name.toList) ↔
      ∀ r ∈ rs, ¬Text.Breaks r.line.toList :=
    forall₂_congr fun r _ => by rw [breaks_line, not_exists]; simp only [not_and]
  have count := (length_splitLines_stream rs).2
  rw [whole]
  refine ⟨count, ⟨fun same => count.1 ?_, fun unbroken => ?_⟩, fun _ _ => wire_eq_iff_confused⟩
  · rw [same, List.length_append, List.length_map, List.length_singleton]
  · have lines : rs.flatMap (fun r => Text.splitLines r.line.toList) =
        rs.flatMap fun r => [r.line.toList] :=
      List.flatMap_congr fun r hr => Text.splitLines_eq (unbroken r hr)
    rw [splitLines_stream, lines, List.map_eq_flatMap]

theorem issuable_of_used (labels : Option Labels) (text : String) {name : String}
    {used : List String} (h : (Compiled.ofText labels text).toOption.map (·.used) = some used)
    (hn : name ∈ used) : (subscribe name).Issuable := by
  obtain ⟨compiled, hc, rfl⟩ := Option.map_eq_some_iff.1 h
  cases ho : Compiled.ofText labels text with
  | error e => rw [ho] at hc; cases hc
  | ok c =>
    rw [ho] at hc
    obtain rfl := Option.some.inj hc
    exact ⟨labels, text, c, ho, hn⟩

/-- Only the ends of names are trimmed: a line end within a name begins a line of its own, and a
space within an owner may as well stand before a name. -/
theorem wire_misframed :
    let horn := command (.press (.trigger "horn\r\nsubscribe Gear"))
    let flaps := subscribe "Flaps\r\nsubscribe Gear"
    let left := command (.press (.role ⟨"left wing", "light"⟩))
    let right := command (.press (.role ⟨"left", "wing light"⟩))
    (∀ r ∈ [horn, flaps, left, right], r.Issuable) ∧
      (Text.splitLines (stream [horn, flaps])).length = 5 ∧ left ≠ right ∧
      left.wire = right.wire := by
  refine ⟨?_, by decide +kernel, by decide +kernel, by decide +kernel⟩
  simp only [List.forall_mem_cons]
  refine ⟨⟨.trigger "horn\r\nsubscribe Gear", by decide +kernel⟩, ?_,
    ⟨.role "left wing" "light", by decide +kernel⟩, ⟨.role "left" "wing light", by decide +kernel⟩,
    nofun⟩
  exact issuable_of_used none "[Flaps\r\nsubscribe Gear] > 1" (by decide +kernel)
    (List.mem_singleton_self _)

end Request

end ControlDeck
