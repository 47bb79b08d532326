import ControlDeck.Property.Line
import ControlDeck.Proofs.Splitting

namespace ControlDeck

open Text

variable {s : List Char} {line name kindName raw : String} {kind : Kind}
  {reading : Reading}

/-- The names of a kind, in lower case. -/
def Kind.names : Kind → List String
  | boolean => ["boolean", "bool"]
  | integer => ["integer", "int"]
  | kind => [kind.name]

theorem Kind.ofName?_eq_some_iff :
    ofName? name = some kind ↔ asciiLowercase name ∈ kind.names := by
  rw [ofName?]
  split
  all_goals cases kind <;> simp_all [names, Kind.name]

theorem Kind.not_mem_of_named (h : asciiLowercase name ∈ kind.names) : ' ' ∉ name.toList := by
  have words : ∀ word ∈ kind.names, ' ' ∉ word.toList := by
    cases kind <;> decide
  intro space
  refine words _ h ?_
  rw [asciiLowercase, String.toList_ofList]
  exact List.mem_map.2 ⟨' ', space, by decide⟩

theorem Reading.eq_of_decode (h : Reading.decode kind raw = .ok reading) :
    reading.kind = kind ∧ reading.raw = raw := by
  rw [decode] at h
  split at h
  · cases h
    exact ⟨rfl, rfl⟩
  · split at h
    · cases h
      exact ⟨rfl, rfl⟩
    · cases h

namespace PropertyLine

theorem fields?_eq_some_iff : fields? s = some (name, kindName, raw) ↔
    (name ≠ "" ∧ ' ' ∉ name.toList ∧ ' ' ∉ kindName.toList) ∧
      s = "Property".toList ++
        ' ' :: (name.toList ++ ' ' :: (kindName.toList ++ ' ' :: raw.toList)) := by
  constructor
  · intro h
    simp only [fields?, Option.bind_eq_bind, Option.bind_eq_some_iff, Prod.exists] at h
    obtain ⟨keyword, rest, cut, name', rest', cut', kind, raw', cut'', same⟩ := h
    obtain ⟨-, rfl⟩ := eq_of_splitOnce cut
    obtain ⟨parted, rfl⟩ := eq_of_splitOnce cut'
    obtain ⟨parted', rfl⟩ := eq_of_splitOnce cut''
    split at same
    case isFalse => cases same
    case isTrue good =>
      cases same
      simp only [String.toList_ofList, good.1, and_true]
      refine ⟨?_, parted, parted'⟩
      exact fun empty => good.2 (String.ofList_eq_empty_iff.1 empty)
  · rintro ⟨⟨some, parted, parted'⟩, rfl⟩
    have keyword : ' ' ∉ "Property".toList := by decide
    have good : "Property".toList = "Property".toList ∧ name.toList ≠ [] :=
      ⟨rfl, mt String.toList_eq_nil_iff.1 some⟩
    rw [fields?, splitOnce_append keyword]
    dsimp only [bind, Option.bind]
    rw [splitOnce_append parted]
    dsimp only
    rw [splitOnce_append parted']
    dsimp only
    rw [String.ofList_toList, String.ofList_toList, String.ofList_toList]
    exact if_pos good

/-- A line without its end. -/
def announcement (name kindName raw : String) : String :=
  "Property " ++ name ++ " " ++ kindName ++ " " ++ raw

theorem toList_announcement : (announcement name kindName raw).toList = "Property".toList ++
    ' ' :: (name.toList ++ ' ' :: (kindName.toList ++ ' ' :: raw.toList)) := by
  simp only [announcement, String.toList_append, List.append_assoc]
  rfl

/-- The parts of a line: a name, a kind in one of its spellings and a text. Line ends may follow.
The text may hold spaces, as only the first two parts are cut off. Line ends are taken off the end
of the line only: a name may hold carriage returns and line feeds, and so may the text before its
last character, and these are kept. -/
structure Parts (line name kindName : String) (kind : Kind) (raw : String) : Prop where
  split : ∃ ending : String, (∀ c ∈ ending.toList, isLineEnd c = true) ∧
    line = announcement name kindName raw ++ ending
  named : name ≠ ""
  parted : ' ' ∉ name.toList
  spelled : asciiLowercase kindName ∈ kind.names
  last : ∀ c ∈ raw.toList.getLast?, isLineEnd c = false

/-- A space is before the text, so a line without its end ends in a line end only if its text
does. -/
theorem last_announcement_iff :
    (∀ c ∈ (announcement name kindName raw).toList.getLast?, isLineEnd c = false) ↔
      ∀ c ∈ raw.toList.getLast?, isLineEnd c = false := by
  rw [toList_announcement, List.getLast?_append, List.getLast?_cons, List.getLast?_append,
    List.getLast?_cons, List.getLast?_append, List.getLast?_cons]
  cases raw.toList.getLast? with
  | none => simp [isLineEnd]
  | some c => simp

theorem parts_iff : Parts line name kindName kind raw ↔
    fields? (dropEndWhile isLineEnd line.toList) = some (name, kindName, raw) ∧
      Kind.ofName? kindName = some kind := by
  rw [fields?_eq_some_iff, ← toList_announcement, dropEndWhile_eq_iff, last_announcement_iff,
    Kind.ofName?_eq_some_iff]
  constructor
  · rintro ⟨⟨ending, all, rfl⟩, named, parted, spelled, last⟩
    have parted' := Kind.not_mem_of_named spelled
    exact ⟨⟨⟨named, parted, parted'⟩, ⟨ending.toList, all, String.toList_append⟩, last⟩, spelled⟩
  · rintro ⟨⟨⟨named, parted, -⟩, ⟨ending, all, split⟩, last⟩, spelled⟩
    refine ⟨⟨String.ofList ending, ?_, ?_⟩, named, parted, spelled, last⟩
    · rwa [String.toList_ofList]
    · rw [← String.toList_inj, String.toList_append, String.toList_ofList, split]

theorem Parts.unique {name' kindName' raw' : String} {kind' : Kind}
    (h : Parts line name kindName kind raw) (h' : Parts line name' kindName' kind' raw') :
    name = name' ∧ kindName = kindName' ∧ kind = kind' ∧ raw = raw' := by
  obtain ⟨fields, spelled⟩ := parts_iff.1 h
  obtain ⟨fields', spelled'⟩ := parts_iff.1 h'
  cases fields.symm.trans fields'
  cases spelled.symm.trans spelled'
  exact ⟨rfl, rfl, rfl, rfl⟩

theorem decode_of_parts (parts : Parts line name kindName reading.kind reading.raw)
    (read : Reading.decode reading.kind reading.raw = .ok reading) :
    decode line = .ok ⟨name, reading⟩ := by
  obtain ⟨fields, spelled⟩ := parts_iff.1 parts
  rw [decode, fields]
  dsimp only
  rw [spelled]
  dsimp only
  rw [read]
  rfl

theorem exists_parts (h : decode line = .ok ⟨name, reading⟩) :
    ∃ kindName, Parts line name kindName reading.kind reading.raw ∧
      Reading.decode reading.kind reading.raw = .ok reading := by
  rw [decode] at h
  split at h
  · cases h
  · rename_i name kindName raw fields
    split at h
    · cases h
    · rename_i kind spelled
      cases read : Reading.decode kind raw with
      | error e =>
        rw [read] at h
        cases h
      | ok reading =>
        rw [read] at h
        cases h
        obtain ⟨rfl, rfl⟩ := Reading.eq_of_decode read
        exact ⟨kindName, parts_iff.2 ⟨fields, spelled⟩, read⟩

/-- A line is accepted exactly if it has a name, a kind in one of its spellings and a text that is
decoded as that kind; it then announces these and what the text stands for. No line has its parts in
two ways. -/
theorem decode_eq_ok_iff (line : String) :
    (∀ name reading, decode line = .ok ⟨name, reading⟩ ↔
      ∃ kindName, Parts line name kindName reading.kind reading.raw ∧
        Reading.decode reading.kind reading.raw = .ok reading) ∧
      ∀ name kindName kind raw name' kindName' kind' raw', Parts line name kindName kind raw →
        Parts line name' kindName' kind' raw' →
          name = name' ∧ kindName = kindName' ∧ kind = kind' ∧ raw = raw' := by
  refine ⟨fun name reading => ⟨exists_parts, ?_⟩, ?_⟩
  · rintro ⟨kindName, parts, read⟩
    exact decode_of_parts parts read
  · intro name kindName kind raw name' kindName' kind' raw' parts parts'
    exact parts.unique parts'

/-- A kind in another spelling, and spaces around a text. -/
theorem decode_eq_ok_iff_spaces :
    Parts "Property lap INT  12 \r\n" "lap" "INT" .integer " 12 " ∧
      decode "Property lap INT  12 \r\n" = .ok ⟨"lap", .integer, some (.integer 12), " 12 "⟩ := by
  have parts : Parts "Property lap INT  12 \r\n" "lap" "INT" .integer " 12 " := by
    have ending : ∀ c ∈ "\r\n".toList, isLineEnd c = true := by simp [isLineEnd]
    have last : ∀ c ∈ " 12 ".toList.getLast?, isLineEnd c = false := by simp [isLineEnd]
    exact ⟨⟨"\r\n", ending, by decide⟩, by decide, by decide, by decide, last⟩
  have read : Reading.decode .integer " 12 " = .ok ⟨.integer, some (.integer 12), " 12 "⟩ := by
    decide
  exact ⟨parts, ((decode_eq_ok_iff _).1 _ _).2 ⟨"INT", parts, read⟩⟩

end PropertyLine

end ControlDeck
