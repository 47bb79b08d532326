import ControlDeck.Proofs.Numerals
import ControlDeck.Proofs.Splitting
import ControlDeck.Property.Value
import Mathlib.Algebra.Order.BigOperators.Group.List
import Mathlib.Algebra.Order.Ring.Int
import Mathlib.Data.List.Infix

namespace ControlDeck.Span

open Decimal Text

/-- The values of the fields of a written span, whose sign is apart. -/
@[ext]
structure Fields where
  days : Int
  hours : Int
  minutes : Int
  seconds : Int
  nanos : Nat
deriving DecidableEq

/-- Hours, and before them days and a point if there are days. -/
inductive Hours : List Char → Int → Int → Prop where
  | bare {s : List Char} {hours : Int} (h : Numeral s hours) : Hours s 0 hours
  | afterDays {s t : List Char} {days hours : Int} (d : Numeral s days) (h : Numeral t hours) :
      Hours (s ++ '.' :: t) days hours

/-- Seconds, and after them a point and up to nine digits if there is a fraction, which is counted
in nanoseconds. -/
inductive Seconds : List Char → Int → Nat → Prop where
  | bare {s : List Char} {seconds : Int} (h : Numeral s seconds) : Seconds s seconds 0
  | withFraction {s t : List Char} {seconds : Int} (h : Numeral s seconds) (f : Digits t)
      (places : t.length ≤ 9) :
      Seconds (s ++ '.' :: t) seconds (ofDigits t * pow10 (9 - t.length))

/-- The fields `[d.]hh:mm:ss[.f]`. -/
inductive Body : List Char → Fields → Prop where
  | mk {first middle last : List Char} {f : Fields} (h : Hours first f.days f.hours)
      (m : Numeral middle f.minutes) (s : Seconds last f.seconds f.nanos) :
      Body (first ++ ':' :: (middle ++ ':' :: last)) f

/-- A span written `[-][d.]hh:mm:ss[.f]`, whether it begins with the sign, and its fields. -/
inductive Written : List Char → Bool → Fields → Prop where
  | plain {s : List Char} {f : Fields} (start : ∀ rest, s ≠ '-' :: rest) (body : Body s f) :
      Written s false f
  | minus {s : List Char} {f : Fields} (body : Body s f) : Written ('-' :: s) true f

namespace Fields

/-- What each field counts for, in nanoseconds. -/
def terms (f : Fields) : List Int :=
  [f.days * day, f.hours * hour, f.minutes * minute, f.seconds * second, f.nanos]

def total (f : Fields) : Int :=
  f.terms.sum

def value (negative : Bool) (f : Fields) : Int :=
  if negative then -f.total else f.total

/-- No field and no sum of the first fields is longer than a span can be. -/
structure InReach (f : Fields) : Prop where
  term : ∀ n ∈ f.terms, n.natAbs ≤ limit
  partialSum : ∀ first ∈ f.terms.inits, first.sum.natAbs ≤ limit

/-- What the reader asks of the fields. -/
structure Admitted (f : Fields) : Prop where
  days : 0 ≤ f.days
  hours : 0 ≤ f.hours
  minutes : f.minutes < 60
  seconds : f.seconds < 60
  reach : f.InReach

/-- The fields of a length of time: none is below zero, and minutes and seconds are below sixty. -/
structure Proper (f : Fields) : Prop where
  days : 0 ≤ f.days
  hours : 0 ≤ f.hours
  minutes : 0 ≤ f.minutes ∧ f.minutes < 60
  seconds : 0 ≤ f.seconds ∧ f.seconds < 60

end Fields

section Sums

variable {α : Type} {n : Int} {a : Span} {f : Fields}

theorem ofNanos?_eq_some_iff : ofNanos? n = some a ↔ a.nanos = n := by
  rw [ofNanos?]
  constructor
  · intro h
    split at h
    · cases h
      rfl
    · cases h
  · rintro rfl
    exact dif_pos a.bounded

theorem bind_ofNanos?_eq_some_iff {next : Span → Option α} {x : α} :
    (ofNanos? n).bind next = some x ↔ ∃ h : n.natAbs ≤ limit, next ⟨n, h⟩ = some x := by
  rw [ofNanos?]
  split
  · rename_i h
    simp [h]
  · rename_i h
    simp [h]

/-- The fields added up from the left. -/
def Fields.sum? (f : Fields) : Option Span := do
  let sum ← (← ofUnits? day f.days).add? (← ofUnits? hour f.hours)
  let sum ← sum.add? (← ofUnits? minute f.minutes)
  let sum ← sum.add? (← ofUnits? second f.seconds)
  sum.add? (← ofNanos? f.nanos)

theorem Fields.inReach_iff :
    f.InReach ↔ (∀ n ∈ f.terms, n.natAbs ≤ limit) ∧ ∀ p ∈ f.terms.inits, p.sum.natAbs ≤ limit :=
  ⟨fun h => ⟨h.term, h.partialSum⟩, fun h => ⟨h.1, h.2⟩⟩

theorem Fields.sum?_eq_some_iff : f.sum? = some a ↔ f.InReach ∧ a.nanos = f.total := by
  -- Each span that is made on the way adds one bound, and the spans before it are known.
  simp only [Fields.sum?, ofUnits?, add?, Option.bind_eq_bind, bind_ofNanos?_eq_some_iff,
    ofNanos?_eq_some_iff, exists_prop]
  simp only [inReach_iff, total, terms, List.forall_mem_cons, List.inits, List.map_cons,
    List.map_nil, List.sum_cons, List.sum_nil, List.not_mem_nil, false_implies, implies_true,
    and_true, Int.add_zero, ← Int.add_assoc]
  constructor
  · rintro ⟨days, hours, sum, minutes, sum', seconds, sum'', nanos, total⟩
    exact ⟨⟨⟨days, hours, minutes, seconds, nanos⟩, Nat.zero_le _, days, sum, sum', sum'',
      total ▸ a.bounded⟩, total⟩
  · rintro ⟨⟨⟨days, hours, minutes, seconds, nanos⟩, -, -, sum, sum', sum'', -⟩, total⟩
    exact ⟨days, hours, sum, minutes, sum', seconds, sum'', nanos, total⟩

/-- The condition under which the reader adds the fields up. -/
theorem Fields.admitted_iff : f.Admitted ↔
    ¬(60 ≤ f.minutes ∨ 60 ≤ f.seconds ∨ f.hours < 0 ∨ f.days < 0) ∧ f.InReach := by
  constructor
  · rintro ⟨days, hours, minutes, seconds, reach⟩
    exact ⟨by omega, reach⟩
  · rintro ⟨range, reach⟩
    exact ⟨by omega, by omega, by omega, by omega, reach⟩

end Sums

section Grammar

variable {s t : List Char} {days hours minutes seconds : Int} {nanos : Nat} {f : Fields} {a : Span}

/-- A field that counts for no longer than a span can be fits in a word. -/
theorem fitsWord_of_reach {n : Int} {unit : Nat} (long : second ≤ unit)
    (reach : (n * unit).natAbs ≤ limit) : fitsWord 64 n = true := by
  have counted : n.natAbs * second ≤ limit := by
    rw [Int.natAbs_mul, Int.natAbs_natCast] at reach
    exact (Nat.mul_le_mul_left _ long).trans reach
  have word : limit < pow2 63 * second := by decide
  have small : n.natAbs < pow2 63 := Nat.lt_of_mul_lt_mul_right (counted.trans_lt word)
  rw [fitsWord, Bool.and_eq_true, decide_eq_true_iff, decide_eq_true_iff, Nat.add_one_sub_one]
  omega

theorem point_not_mem {n : Int} (h : Numeral s n) : '.' ∉ s := by
  intro hc
  rcases h.mem hc with digit | plus | minus
  · cases digit
  · cases plus
  · cases minus

theorem readHours?_eq_some_iff : readHours? s = some (days, hours) ↔
    Hours s days hours ∧ fitsWord 64 days = true ∧ fitsWord 64 hours = true := by
  constructor
  · intro read
    rw [readHours?] at read
    split at read
    · rename_i d h cut
      obtain ⟨-, rfl⟩ := eq_of_splitOnce cut
      obtain ⟨_, readDays, read⟩ := Option.bind_eq_some_iff.1 read
      obtain ⟨_, readHours, ⟨⟩⟩ := Option.bind_eq_some_iff.1 read
      obtain ⟨d, fitsDays⟩ := readWord?_eq_some_iff.1 readDays
      obtain ⟨h, fitsHours⟩ := readWord?_eq_some_iff.1 readHours
      exact ⟨.afterDays d h, fitsDays, fitsHours⟩
    · obtain ⟨_, readHours, ⟨⟩⟩ := Option.map_eq_some_iff.1 read
      obtain ⟨h, fitsHours⟩ := readWord?_eq_some_iff.1 readHours
      exact ⟨.bare h, by decide, fitsHours⟩
  · rintro ⟨written, fitsDays, fitsHours⟩
    cases written with
    | bare h =>
      rw [readHours?, splitOnce_eq_none_iff.2 (point_not_mem h)]
      exact Option.map_eq_some_iff.2 ⟨hours, readWord?_eq_some_iff.2 ⟨h, fitsHours⟩, rfl⟩
    | afterDays d h =>
      rw [readHours?, splitOnce_append (point_not_mem d)]
      simp [readWord?_eq_some_iff.2 ⟨d, fitsDays⟩, readWord?_eq_some_iff.2 ⟨h, fitsHours⟩]

theorem readFraction?_eq_some_iff : readFraction? s = some nanos ↔
    Digits s ∧ s.length ≤ 9 ∧ ofDigits s * pow10 (9 - s.length) = nanos := by
  rw [readFraction?]
  split
  · rename_i short
    rw [Option.map_eq_some_iff]
    constructor
    · rintro ⟨n, read, rfl⟩
      obtain ⟨digits, rfl⟩ := readNat?_eq_some_iff.1 read
      exact ⟨digits, short, rfl⟩
    · rintro ⟨digits, -, rfl⟩
      exact ⟨_, readNat?_eq_some_iff.2 ⟨digits, rfl⟩, rfl⟩
  · rename_i long
    exact ⟨nofun, fun h => absurd h.2.1 long⟩

theorem readSeconds?_eq_some_iff : readSeconds? s = some (seconds, nanos) ↔
    Seconds s seconds nanos ∧ fitsWord 64 seconds = true := by
  constructor
  · intro read
    rw [readSeconds?] at read
    split at read
    · rename_i whole fraction cut
      obtain ⟨-, rfl⟩ := eq_of_splitOnce cut
      obtain ⟨_, readFraction, read⟩ := Option.bind_eq_some_iff.1 read
      obtain ⟨_, readWhole, ⟨⟩⟩ := Option.bind_eq_some_iff.1 read
      obtain ⟨digits, places, rfl⟩ := readFraction?_eq_some_iff.1 readFraction
      obtain ⟨h, fits⟩ := readWord?_eq_some_iff.1 readWhole
      exact ⟨.withFraction h digits places, fits⟩
    · obtain ⟨_, readWhole, ⟨⟩⟩ := Option.map_eq_some_iff.1 read
      obtain ⟨h, fits⟩ := readWord?_eq_some_iff.1 readWhole
      exact ⟨.bare h, fits⟩
  · rintro ⟨written, fits⟩
    cases written with
    | bare h =>
      rw [readSeconds?, splitOnce_eq_none_iff.2 (point_not_mem h)]
      exact Option.map_eq_some_iff.2 ⟨seconds, readWord?_eq_some_iff.2 ⟨h, fits⟩, rfl⟩
    | withFraction h digits places =>
      rw [readSeconds?, splitOnce_append (point_not_mem h)]
      simp [readFraction?_eq_some_iff.2 ⟨digits, places, rfl⟩, readWord?_eq_some_iff.2 ⟨h, fits⟩]

/-- The letters of a field. -/
def IsLetter (c : Char) : Prop :=
  c.isDigit = true ∨ c = '+' ∨ c = '-' ∨ c = '.'

theorem IsLetter.ne_colon {c : Char} (h : IsLetter c) : c ≠ ':' := by
  rintro rfl
  rcases h with h | h | h | h <;> cases h

theorem IsLetter.not_blank {c : Char} (h : IsLetter c) : isBlank c = false := by
  rcases h with digit | rfl | rfl | rfl
  · have range : 48 ≤ c.toNat ∧ c.toNat ≤ 57 := Char.isDigit_iff_toNat.1 digit
    grind [isBlank]
  · decide
  · decide
  · decide

theorem numeral_letters {n : Int} (h : Numeral s n) : ∀ c ∈ s, IsLetter c := by
  intro c hc
  rcases h.mem hc with digit | plus | minus
  · exact .inl digit
  · exact .inr (.inl plus)
  · exact .inr (.inr (.inl minus))

theorem letters_append (left : ∀ c ∈ s, IsLetter c) (right : ∀ c ∈ t, IsLetter c) :
    ∀ c ∈ s ++ '.' :: t, IsLetter c := by
  intro c hc
  rcases List.mem_append.1 hc with hc | hc
  · exact left c hc
  · rcases List.mem_cons.1 hc with rfl | hc
    · exact .inr (.inr (.inr rfl))
    · exact right c hc

theorem Hours.letters (h : Hours s days hours) : ∀ c ∈ s, IsLetter c := by
  cases h with
  | bare h => exact numeral_letters h
  | afterDays d h => exact letters_append (numeral_letters d) (numeral_letters h)

theorem Seconds.letters (h : Seconds s seconds nanos) : ∀ c ∈ s, IsLetter c := by
  cases h with
  | bare h => exact numeral_letters h
  | withFraction h digits places =>
    exact letters_append (numeral_letters h) fun c hc => .inl (digits.all c hc)

theorem colon_not_mem (h : ∀ c ∈ s, IsLetter c) : ':' ∉ s :=
  fun hc => (h _ hc).ne_colon rfl

theorem Body.not_blank (h : Body s f) : ∀ c ∈ s, isBlank c = false := by
  obtain ⟨h, m, s⟩ := h
  intro c hc
  simp only [List.mem_append, List.mem_cons] at hc
  rcases hc with hc | rfl | hc | rfl | hc
  · exact (h.letters c hc).not_blank
  · decide
  · exact (numeral_letters m c hc).not_blank
  · decide
  · exact (s.letters c hc).not_blank

/-- There is no white space in a written span. -/
theorem Written.not_blank {negative : Bool} (h : Written s negative f) :
    ∀ c ∈ s, isBlank c = false := by
  cases h with
  | plain start body => exact body.not_blank
  | minus body => exact List.forall_mem_cons.2 ⟨by decide, body.not_blank⟩

theorem Hours.unique {days' hours' : Int} (h : Hours s days hours) (h' : Hours s days' hours') :
    days' = days ∧ hours' = hours := by
  generalize same : s = s' at h'
  cases h with
  | bare h =>
    cases h' with
    | bare h' => exact ⟨rfl, h.unique (same ▸ h')⟩
    | afterDays _ _ =>
      exact absurd same (ne_append_cons (point_not_mem h))
  | afterDays d h =>
    cases h' with
    | bare h' =>
      exact absurd same.symm (ne_append_cons (point_not_mem h'))
    | afterDays d' h' =>
      obtain ⟨rfl, rfl⟩ := append_cons_inj (point_not_mem d) (point_not_mem d') same
      exact ⟨d.unique d', h.unique h'⟩

theorem Seconds.unique {seconds' : Int} {nanos' : Nat} (h : Seconds s seconds nanos)
    (h' : Seconds s seconds' nanos') : seconds' = seconds ∧ nanos' = nanos := by
  generalize same : s = s' at h'
  cases h with
  | bare h =>
    cases h' with
    | bare h' => exact ⟨h.unique (same ▸ h'), rfl⟩
    | withFraction _ =>
      exact absurd same (ne_append_cons (point_not_mem h))
  | withFraction h =>
    cases h' with
    | bare h' =>
      exact absurd same.symm (ne_append_cons (point_not_mem h'))
    | withFraction h' =>
      obtain ⟨rfl, rfl⟩ := append_cons_inj (point_not_mem h) (point_not_mem h') same
      exact ⟨h.unique h', rfl⟩

theorem Body.unique {f' : Fields} (b : Body s f) (b' : Body s f') : f' = f := by
  generalize same : s = s' at b'
  obtain ⟨h, m, s⟩ := b
  obtain ⟨h', m', s'⟩ := b'
  obtain ⟨rfl, rest⟩ := append_cons_inj (colon_not_mem h.letters) (colon_not_mem h'.letters) same
  obtain ⟨rfl, rfl⟩ := append_cons_inj (colon_not_mem (numeral_letters m))
    (colon_not_mem (numeral_letters m')) rest
  obtain ⟨days, hours⟩ := h.unique h'
  obtain ⟨seconds, nanos⟩ := s.unique s'
  exact Fields.ext days hours (m.unique m') seconds nanos

/-- A text is written in at most one way. -/
theorem Written.unique {negative negative' : Bool} {f' : Fields} (h : Written s negative f)
    (h' : Written s negative' f') : negative' = negative ∧ f' = f := by
  generalize same : s = s' at h'
  cases h with
  | plain start body =>
    cases h' with
    | plain _ body' => exact ⟨rfl, body.unique (same ▸ body')⟩
    | minus _ => exact absurd same (start _)
  | minus body =>
    cases h' with
    | plain start _ => exact absurd same.symm (start _)
    | minus body' => exact ⟨rfl, body.unique ((List.cons.inj same).2 ▸ body')⟩

theorem toList_signed (text : String) : ("-" ++ text).toList = '-' :: text.toList :=
  String.toList_append

/-- A sign before a text that has none negates what is written. -/
theorem Written.negated {negative : Bool} (h : Written s negative f)
    (start : ∀ rest, s ≠ '-' :: rest) : negative = false ∧ Written ('-' :: s) true f := by
  cases h with
  | plain _ body => exact ⟨rfl, .minus body⟩
  | minus _ => exact absurd rfl (start _)

end Grammar

section Reader

variable {s : List Char} {a : Span}

theorem readBody?_eq_some_iff :
    readBody? s = some a ↔ ∃ f, Body s f ∧ f.Admitted ∧ a.nanos = f.total := by
  constructor
  · intro read
    rw [readBody?] at read
    split at read
    · rename_i first middle last cut
      obtain ⟨rest, -, rfl, cutRest⟩ := splitAll_eq_cons_iff.1 cut
      obtain ⟨_, -, rfl, single⟩ := splitAll_eq_cons_iff.1 cutRest
      obtain ⟨-, rfl⟩ := splitAll_eq_singleton_iff.1 single
      obtain ⟨⟨days, hours⟩, readHours, read⟩ := Option.bind_eq_some_iff.1 read
      obtain ⟨minutes, readMinutes, read⟩ := Option.bind_eq_some_iff.1 read
      obtain ⟨⟨seconds, nanos⟩, readSeconds, read⟩ := Option.bind_eq_some_iff.1 read
      obtain ⟨h, -⟩ := readHours?_eq_some_iff.1 readHours
      obtain ⟨m, -⟩ := readWord?_eq_some_iff.1 readMinutes
      obtain ⟨s, -⟩ := readSeconds?_eq_some_iff.1 readSeconds
      let f : Fields := ⟨days, hours, minutes, seconds, nanos⟩
      dsimp only at read
      split at read
      · cases read
      · rename_i range
        obtain ⟨reach, total⟩ := f.sum?_eq_some_iff.1 read
        exact ⟨f, ⟨h, m, s⟩, Fields.admitted_iff.2 ⟨range, reach⟩, total⟩
    · cases read
  · rintro ⟨f, ⟨h, m, s⟩, admitted, total⟩
    -- That a field fits in a word is asked by its reader, and follows from the bound on its term.
    have fits {n : Int} (unit : Nat) (long : second ≤ unit) (term : n * unit ∈ f.terms) :=
      fitsWord_of_reach long (admitted.reach.term _ term)
    rw [readBody?, splitAll_append (colon_not_mem h.letters),
      splitAll_append (colon_not_mem (numeral_letters m)),
      splitAll_of_not_mem (colon_not_mem s.letters)]
    have readHours := readHours?_eq_some_iff.2
      ⟨h, fits day (by decide) (by simp [Fields.terms]),
        fits hour (by decide) (by simp [Fields.terms])⟩
    have readMinutes := readWord?_eq_some_iff.2
      ⟨m, fits minute (by decide) (by simp [Fields.terms])⟩
    have readSeconds := readSeconds?_eq_some_iff.2
      ⟨s, fits second (by decide) (by simp [Fields.terms])⟩
    obtain ⟨range, reach⟩ := Fields.admitted_iff.1 admitted
    simp only [readHours, readMinutes, readSeconds, Option.bind_eq_bind, Option.bind_some,
      if_neg range]
    exact f.sum?_eq_some_iff.2 ⟨reach, total⟩

theorem nanos_inj {a b : Span} (h : a.nanos = b.nanos) : a = b := by
  cases a
  cases b
  cases h
  rfl

theorem read?_eq_some_iff : read? s = some a ↔
    ∃ negative f, Written s negative f ∧ f.Admitted ∧ a.nanos = f.value negative := by
  constructor
  · fun_cases read? s with
    | case1 rest =>
      intro read
      obtain ⟨b, readBody, rfl⟩ := Option.map_eq_some_iff.1 read
      obtain ⟨f, body, admitted, total⟩ := readBody?_eq_some_iff.1 readBody
      exact ⟨true, f, .minus body, admitted, congrArg Neg.neg total⟩
    | case2 s start =>
      intro read
      obtain ⟨f, body, admitted, total⟩ := readBody?_eq_some_iff.1 read
      exact ⟨false, f, .plain start body, admitted, total⟩
  · rintro ⟨negative, f, written, admitted, value⟩
    cases written with
    | plain start body =>
      rw [read?]
      · exact readBody?_eq_some_iff.2 ⟨f, body, admitted, value⟩
      · exact start
    | minus body =>
      have total : a.neg.nanos = f.total := (congrArg Neg.neg value).trans (Int.neg_neg f.total)
      have readBody := readBody?_eq_some_iff.2 ⟨f, body, admitted, total⟩
      rw [read?, readBody]
      exact congrArg some (nanos_inj (Int.neg_neg a.nanos))

/-- A text is decoded as a property to the span. -/
def DecodesTo (text : String) (a : Span) : Prop :=
  Reading.decode .timespan text = .ok ⟨.timespan, some (.timespan a), text⟩

theorem decodesTo_iff {text : String} : DecodesTo text a ↔ read? (trim text.toList) = some a := by
  rw [DecodesTo, Reading.decode]
  split
  · rename_i null
    have unread : read? (trim text.toList) = none := by
      rw [← String.toList_ofList (l := trim text.toList), ← trimmed, null]
      decide
    rw [unread]
    exact iff_of_false (by simp) (by simp)
  · rw [Datum.ofText?]
    cases read? (trim text.toList) with
    | none => simp
    | some b => simp

end Reader

namespace Fields

variable {f : Fields}

theorem proper_iff (h : f.Admitted) : f.Proper ↔ 0 ≤ f.minutes ∧ 0 ≤ f.seconds := by
  constructor
  · rintro ⟨-, -, minutes, seconds⟩
    exact ⟨minutes.1, seconds.1⟩
  · rintro ⟨minutes, seconds⟩
    exact ⟨h.days, h.hours, ⟨minutes, h.minutes⟩, ⟨seconds, h.seconds⟩⟩

theorem Proper.terms_nonneg (h : f.Proper) : ∀ n ∈ f.terms, 0 ≤ n := by
  have scaled {n : Int} (unit : Nat) (nonneg : 0 ≤ n) : 0 ≤ n * unit :=
    Int.mul_nonneg nonneg (Int.natCast_nonneg unit)
  simp only [terms, List.forall_mem_cons]
  exact ⟨scaled _ h.days, scaled _ h.hours, scaled _ h.minutes.1, scaled _ h.seconds.1,
    Int.natCast_nonneg _, nofun⟩

theorem Proper.total_nonneg (h : f.Proper) : 0 ≤ f.total :=
  List.sum_nonneg h.terms_nonneg

end Fields

/-- A text without white space around it is decoded exactly if it is written by the grammar, with
fields that the reader admits, and then to what its fields come to. As minutes and seconds have no
lower bound of their own, they may be below zero, and a text without a sign before it may stand for
a span below zero only then. A sign before such a text negates the span. -/
theorem decodes_asWritten {text : String} (tidy : trimmed text = text) :
    (∀ a, DecodesTo text a ↔ ∃ negative f,
      Written text.toList negative f ∧ f.Admitted ∧ a.nanos = f.value negative) ∧
    (∀ a negative f, DecodesTo text a → Written text.toList negative f →
      (f.Proper ↔ 0 ≤ f.minutes ∧ 0 ≤ f.seconds) ∧
      (f.Proper → negative = false → 0 ≤ a.nanos)) ∧
    ∀ a, DecodesTo text a → (∀ rest, text.toList ≠ '-' :: rest) →
      DecodesTo ("-" ++ text) a.neg := by
  have kept := trimmed_eq_self_iff.1 tidy
  have decodes (a : Span) : DecodesTo text a ↔ ∃ negative f,
      Written text.toList negative f ∧ f.Admitted ∧ a.nanos = f.value negative := by
    rw [decodesTo_iff, kept, read?_eq_some_iff]
  refine ⟨decodes, ?_, ?_⟩
  · intro a negative f decoded written
    obtain ⟨_, _, written', admitted, value⟩ := (decodes a).1 decoded
    obtain ⟨rfl, rfl⟩ := written.unique written'
    refine ⟨Fields.proper_iff admitted, ?_⟩
    rintro proper rfl
    rw [value]
    exact proper.total_nonneg
  · intro a decoded start
    obtain ⟨negative, f, written, admitted, value⟩ := (decodes a).1 decoded
    obtain ⟨rfl, negated⟩ := written.negated start
    rw [decodesTo_iff, toList_signed, trim_cons (by decide) kept, read?_eq_some_iff]
    exact ⟨true, f, negated, admitted, congrArg Neg.neg value⟩

def dayAndHalf : Span :=
  ⟨129600500000000, by decide⟩

theorem decodes_asWritten_dayAndHalf :
    trimmed "1.12:00:00.5" = "1.12:00:00.5" ∧
    (∃ negative f, Written "1.12:00:00.5".toList negative f ∧ f.Admitted ∧
      dayAndHalf.nanos = f.value negative) ∧
    DecodesTo "-1.12:00:00.5" dayAndHalf.neg := by
  have tidy : trimmed "1.12:00:00.5" = "1.12:00:00.5" := by decide
  have decoded : DecodesTo "1.12:00:00.5" dayAndHalf := by
    rw [DecodesTo]
    decide
  obtain ⟨decodes, -, negated⟩ := decodes_asWritten tidy
  exact ⟨tidy, (decodes dayAndHalf).1 decoded, negated dayAndHalf decoded nofun⟩

def fiveMinutesBack : Span :=
  ⟨-300000000000, by decide⟩

/-- Minutes with a sign of their own: the text begins with no sign, and is decoded to a span below
zero. -/
theorem fiveMinutesBack_decoded :
    trimmed "00:-05:00" = "00:-05:00" ∧ (∀ rest, "00:-05:00".toList ≠ '-' :: rest) ∧
    DecodesTo "00:-05:00" fiveMinutesBack ∧ fiveMinutesBack.nanos < 0 ∧
    ∀ negative f, Written "00:-05:00".toList negative f → ¬f.Proper := by
  have written : Written "00:-05:00".toList false ⟨0, 0, -5, 0, 0⟩ := by
    have hours := Hours.bare (readInt?_eq_some_iff.1 (by decide : readInt? ['0', '0'] = some 0))
    have minutes := readInt?_eq_some_iff.1 (by decide : readInt? ['-', '0', '5'] = some (-5))
    have seconds := Seconds.bare (readInt?_eq_some_iff.1 (by decide : readInt? ['0', '0'] = some 0))
    have body := Body.mk (f := ⟨0, 0, -5, 0, 0⟩) hours minutes seconds
    exact .plain nofun body
  refine ⟨by decide, nofun, ?_, by decide, ?_⟩
  · rw [DecodesTo]
    decide
  · intro negative f written'
    obtain ⟨rfl, rfl⟩ := written.unique written'
    exact fun proper => absurd proper.minutes.1 (by decide)

end ControlDeck.Span
