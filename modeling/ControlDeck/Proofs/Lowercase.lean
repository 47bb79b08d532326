import ControlDeck.Text.Lowercase
import Mathlib.Tactic.Common

namespace ControlDeck.Text

/-- The least and the greatest lowercase of the code points of a run. -/
def CaseRun.low (r : CaseRun) : Nat :=
  (r.first + r.offset).toNat

def CaseRun.high (r : CaseRun) : Nat :=
  (r.last + r.offset).toNat

def CaseRun.holds (r : CaseRun) (code : Nat) : Bool :=
  r.first ≤ code && code ≤ r.last && (code - r.first) % r.step = 0

/-- The lowercases of a run lie beside another run, or in its gaps. -/
def CaseRun.misses (r r' : CaseRun) : Bool :=
  r.high.blt r'.first || r'.last.blt r.low ||
    (r.step.beq 2 || r.first.beq r.last) && r'.step.beq 2 && ((r.low + r'.first) % 2).beq 1

/-- The lowercases of a run are characters that are not treated by themselves. -/
def CaseRun.plain (r : CaseRun) : Bool :=
  90 < r.low && (r.high < 0x130 || 0x130 < r.low) && (r.high < 0x3A3 || 0x3A3 < r.low) &&
    (r.high < 0xD800 || 0xDFFF < r.low && r.high < 0x110000)

theorem lowercaseRuns_misses :
    (lowercaseRuns.toList.all fun r => lowercaseRuns.toList.all r.misses) = true := by
  decide +kernel

theorem lowercaseRuns_plain : lowercaseRuns.toList.all CaseRun.plain = true := by
  decide +kernel

theorem findCaseRun_eq_none {code : Nat}
    (h : (lowercaseRuns.toList.all fun r => !r.holds code) = true) : findCaseRun code = none := by
  refine Array.find?_eq_none.2 fun r hr => ?_
  have missed : r.holds code = false := by
    simpa using List.all_eq_true.1 h r (Array.mem_toList_iff.2 hr)
  exact Bool.eq_false_iff.1 missed

theorem CaseRun.holds_iff {r : CaseRun} {code : Nat} :
    r.holds code ↔ r.first ≤ code ∧ code ≤ r.last ∧ (code - r.first) % r.step = 0 := by
  simp [holds, and_assoc]

theorem CaseRun.lowered_mem {r : CaseRun} {code : Nat} (h : r.holds code) :
    r.low ≤ (code + r.offset).toNat ∧ (code + r.offset).toNat ≤ r.high := by
  obtain ⟨hf, hl, -⟩ := holds_iff.1 h
  rw [low, high]
  omega

theorem CaseRun.lowered_missed {r r' : CaseRun} {code : Nat} (h : r.holds code) (hp : r.plain)
    (hm : r.misses r') : ¬r'.holds (code + r.offset).toNat := by
  intro h'
  obtain ⟨hf, hl, hs⟩ := holds_iff.1 h
  obtain ⟨hf', hl', hs'⟩ := holds_iff.1 h'
  obtain ⟨lower, upper⟩ := lowered_mem h
  simp only [plain, Bool.and_eq_true, decide_eq_true_eq] at hp
  obtain ⟨⟨⟨positive, -⟩, -⟩, -⟩ := hp
  simp only [misses, Bool.or_eq_true, Bool.and_eq_true, Nat.blt_eq, Nat.beq_eq] at hm
  rcases hm with (beside | beside) | ⟨⟨gaps, even⟩, odd⟩
  · omega
  · omega
  · rw [even] at hs'
    rw [low] at *
    rcases gaps with two | one
    · rw [two] at hs
      omega
    · omega

theorem findCaseRun_lowered {r : CaseRun} {code : Nat} (h : findCaseRun code = some r) :
    findCaseRun (code + r.offset).toNat = none ∧ r.plain ∧ r.holds code := by
  rw [findCaseRun] at h
  have mem : r ∈ lowercaseRuns.toList := Array.mem_toList_iff.2 (Array.mem_of_find?_eq_some h)
  have holds := Array.find?_some h
  have plain := List.all_eq_true.1 lowercaseRuns_plain r mem
  refine ⟨findCaseRun_eq_none (List.all_eq_true.2 ?_), plain, holds⟩
  intro r' mem'
  have misses := List.all_eq_true.1 (List.all_eq_true.1 lowercaseRuns_misses r mem) r' mem'
  simpa using CaseRun.lowered_missed holds plain misses

/-- A character that is left as it is. -/
def IsLower (c : Char) : Prop :=
  c.toNat ≠ 0x3A3 ∧ lowerChar c = [c]

theorem isLower_toLower {c : Char} (h : c.toNat < 128) : IsLower c.toLower := by
  have small : ∀ n < 128, (Char.ofNat n).toLower.toNat < 128 ∧
      (Char.ofNat n).toLower.toLower = (Char.ofNat n).toLower := by decide
  obtain ⟨ascii, same⟩ := small c.toNat h
  rw [Char.ofNat_toNat] at ascii same
  refine ⟨by omega, ?_⟩
  rw [lowerChar, if_pos ascii, same]

theorem isLower_of_findCaseRun {c : Char} (h : findCaseRun c.toNat = none)
    (capital : 90 < c.toNat) (dotted : c.toNat ≠ 0x130) (sigma : c.toNat ≠ 0x3A3) : IsLower c := by
  have same : c.toLower = c := by
    apply dif_neg
    rintro ⟨-, upper⟩
    exact absurd (UInt32.le_iff_toNat_le.1 upper) (Nat.not_le.2 capital)
  refine ⟨sigma, ?_⟩
  rw [lowerChar, same, if_neg dotted, h]
  exact ite_self _

theorem isLower_lowered {r : CaseRun} {code : Nat} (h : findCaseRun code = some r) :
    IsLower (Char.ofNat (code + r.offset).toNat) := by
  obtain ⟨none, plain, holds⟩ := findCaseRun_lowered h
  obtain ⟨lower, upper⟩ := CaseRun.lowered_mem holds
  simp only [CaseRun.plain, Bool.and_eq_true, Bool.or_eq_true, decide_eq_true_eq] at plain
  obtain ⟨⟨⟨positive, dotted⟩, sigma⟩, valid⟩ := plain
  have toNat : (Char.ofNat (code + r.offset).toNat).toNat = (code + r.offset).toNat := by
    rw [Char.ofNat, dif_pos]
    · rfl
    · rw [Nat.isValidChar]
      omega
  exact isLower_of_findCaseRun (by rw [toNat, none]) (by omega) (by omega) (by omega)

theorem isLower_of_mem_lowerChar {c d : Char} (sigma : c.toNat ≠ 0x3A3) (h : d ∈ lowerChar c) :
    IsLower d := by
  rw [lowerChar] at h
  split at h
  · rename_i ascii
    rw [List.mem_singleton.1 h]
    exact isLower_toLower ascii
  · rename_i ascii
    split at h
    · simp only [List.mem_cons, List.not_mem_nil, or_false] at h
      rcases h with rfl | rfl <;>
        exact isLower_of_findCaseRun (findCaseRun_eq_none (by decide +kernel)) (by decide)
          (by decide) (by decide)
    · rename_i dotted
      split at h
      · rename_i r run
        rw [List.mem_singleton.1 h]
        exact isLower_lowered run
      · rename_i run
        rw [List.mem_singleton.1 h]
        exact isLower_of_findCaseRun run (by omega) dotted sigma

theorem isLower_of_mem_lowerAfter {before s : List Char} {c : Char} (h : c ∈ lowerAfter before s) :
    IsLower c := by
  induction s generalizing before with
  | nil => exact (List.not_mem_nil h).elim
  | cons d s ih =>
    rw [lowerAfter, List.mem_append] at h
    rcases h with h | h
    · split at h
      · rw [List.mem_singleton.1 h]
        split <;>
          exact isLower_of_findCaseRun (findCaseRun_eq_none (by decide +kernel)) (by decide)
            (by decide) (by decide)
      · rename_i sigma
        exact isLower_of_mem_lowerChar sigma h
    · exact ih h

theorem lowerAfter_eq_self {before s : List Char} (h : ∀ c ∈ s, IsLower c) :
    lowerAfter before s = s := by
  induction s generalizing before with
  | nil => rfl
  | cons c s ih =>
    obtain ⟨sigma, same⟩ := h c List.mem_cons_self
    rw [lowerAfter, if_neg sigma, same, ih fun d hd => h d (List.mem_cons_of_mem c hd)]
    rfl

@[simp] theorem lowercase_lowercase (s : String) : lowercase (lowercase s) = lowercase s := by
  rw [lowercase, lowercase, String.toList_ofList]
  rw [lowerAfter_eq_self fun c hc => isLower_of_mem_lowerAfter hc]

end ControlDeck.Text
