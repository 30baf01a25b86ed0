import Mathlib.Data.Nat.Digits.Defs

/-! Records that state a total which counts their own text. -/

namespace SparseLab.Library

def digitCount (number : Nat) : Nat := (Nat.toDigits 10 number).length

theorem digitCount_le_iff {number width : Nat} (positive : 0 < width) :
    digitCount number ≤ width ↔ number < 10 ^ width :=
  Nat.length_toDigits_le_iff (by decide) positive

theorem digitCount_pos (number : Nat) : 0 < digitCount number := Nat.length_toDigits_pos

theorem lt_pow_digitCount (number : Nat) : number < 10 ^ digitCount number :=
  (digitCount_le_iff (digitCount_pos number)).mp (Nat.le_refl _)

theorem digitCount_mono {first second : Nat} (ordered : first ≤ second) :
    digitCount first ≤ digitCount second :=
  (digitCount_le_iff (digitCount_pos second)).mpr
    (Nat.lt_of_le_of_lt ordered (lt_pow_digitCount second))

theorem ten_le_pow {width : Nat} (positive : 0 < width) : 10 ≤ 10 ^ width :=
  Nat.le_self_pow (Nat.ne_of_gt positive) 10

theorem digitCount_range {low number : Nat} (above : low ≤ number) (below : number ≤ low + 80) :
    digitCount number =
      if number < 10 ^ digitCount low then digitCount low else digitCount low + 1 := by
  have positive := digitCount_pos low
  have atLeast := digitCount_mono above
  have start := lt_pow_digitCount low
  have ten := ten_le_pow positive
  by_cases inside : number < 10 ^ digitCount low
  · rw [if_pos inside]
    have atMost := (digitCount_le_iff positive).mpr inside
    omega
  · rw [if_neg inside]
    have more : ¬ digitCount number ≤ digitCount low := fun few =>
      inside ((digitCount_le_iff positive).mp few)
    have atMost : digitCount number ≤ digitCount low + 1 := by
      rw [digitCount_le_iff (Nat.succ_pos _), Nat.pow_succ]
      omega
    omega

theorem digitCount_short {number less : Nat} (near : number ≤ less + digitCount number + 1) :
    digitCount number ≤ digitCount less + 1 := by
  by_contra fewer
  have positive := digitCount_pos less
  obtain ⟨digits, same⟩ : ∃ digits, digitCount number = digits + 2 :=
    ⟨digitCount number - 2, by omega⟩
  have large : 10 ^ (digits + 1) ≤ number := by
    by_contra small
    have few : digitCount number ≤ digits + 1 :=
      (digitCount_le_iff (Nat.succ_pos digits)).mpr (by omega)
    omega
  have small : less < 10 ^ digits := (digitCount_le_iff (by omega)).mp (by omega)
  have growth := Nat.lt_pow_self (n := digits) (by decide : 1 < 10)
  have ten : 10 ≤ 10 ^ digits := ten_le_pow (by omega)
  rw [Nat.pow_succ] at large
  omega

structure Widths (next : Nat → Nat) (least : Int) (digit cut low high : Nat) : Prop where
  longLow : ∀ n, low ≤ n → n ≤ high → n < cut → n < digit → next n = (least + 2).toNat
  longHigh : ∀ n, low ≤ n → n ≤ high → n < cut → digit ≤ n → next n = (least + 3).toNat
  shortLow : ∀ n, low ≤ n → n ≤ high → cut ≤ n → n < digit → next n = least.toNat
  shortHigh : ∀ n, low ≤ n → n ≤ high → cut ≤ n → digit ≤ n → next n = (least + 1).toNat

namespace Widths

variable {next : Nat → Nat} {least : Int} {digit cut low high fixed total : Nat}
  (widths : Widths next least digit cut low high)
  (lower : low ≤ least.toNat) (upper : (least + 3).toNat ≤ high)

include widths

theorem range (above : low ≤ total) (below : total ≤ high) :
    least.toNat ≤ next total ∧ next total ≤ (least + 3).toNat := by
  have longLow := widths.longLow total above below
  have longHigh := widths.longHigh total above below
  have shortLow := widths.shortLow total above below
  have shortHigh := widths.shortHigh total above below
  omega

include lower upper

variable (same : next fixed = fixed) (above : low ≤ fixed) (below : fixed ≤ high)
  (atLeast : least.toNat ≤ total) (atMost : total ≤ (least + 3).toNat)

include same above below atLeast atMost

theorem settles_long (long : fixed < cut) : next (next (next total)) = next (next total) := by
  by_cases high' : digit ≤ fixed
  · have value := widths.longHigh fixed above below long high'
    rw [same] at value
    have all : ∀ n, least.toNat ≤ n → n ≤ fixed →
        next n = fixed ∨ next n = (least + 2).toNat ∧ n < digit := by
      intro n first last
      by_cases side : n < digit
      · exact .inr ⟨widths.longLow n (by omega) (by omega) (by omega) side, side⟩
      · have reached := widths.longHigh n (by omega) (by omega) (by omega) (by omega)
        exact .inl (reached.trans value.symm)
    rcases all total atLeast (by omega) with reached | ⟨reached, _⟩
    · rw [reached, same, same]
    · rcases all (next total) (by omega) (by omega) with again | ⟨again, _⟩
      · rw [again, same]
      · rw [again, ← reached, again, reached]
  · have value := widths.longLow fixed above below long (by omega)
    rw [same] at value
    by_cases first : total ≤ fixed
    · have reached := widths.longLow total (by omega) (by omega) (by omega) (by omega)
      rw [reached, ← value, same, same]
    · have longHigh := widths.longHigh total (by omega) (by omega)
      have longLow := widths.longLow total (by omega) (by omega)
      have shortLow := widths.shortLow total (by omega) (by omega)
      have shortHigh := widths.shortHigh total (by omega) (by omega)
      by_cases kept : next total = total
      · rw [kept, kept, kept]
      · have smaller : next total ≤ fixed := by omega
        have bounds : least.toNat ≤ next total ∧ next total ≤ (least + 3).toNat :=
          widths.range (by omega) (by omega)
        have reached := widths.longLow (next total) (by omega) (by omega) (by omega) (by omega)
        rw [reached, ← value, same]

theorem settles_short (short : cut ≤ fixed) : next (next (next total)) = next (next total) := by
  by_cases high' : digit ≤ fixed
  · have value := widths.shortHigh fixed above below short high'
    rw [same] at value
    by_cases first : fixed ≤ total
    · have reached := widths.shortHigh total (by omega) (by omega) (by omega) (by omega)
      rw [reached, ← value, same, same]
    · have longHigh := widths.longHigh total (by omega) (by omega)
      have longLow := widths.longLow total (by omega) (by omega)
      have shortLow := widths.shortLow total (by omega) (by omega)
      have shortHigh := widths.shortHigh total (by omega) (by omega)
      by_cases kept : next total = total
      · rw [kept, kept, kept]
      · have bounds : least.toNat ≤ next total ∧ next total ≤ (least + 3).toNat :=
          widths.range (by omega) (by omega)
        have larger : fixed ≤ next total := by omega
        have reached := widths.shortHigh (next total) (by omega) (by omega) (by omega) (by omega)
        rw [reached, ← value, same]
  · have value := widths.shortLow fixed above below short (by omega)
    rw [same] at value
    have all : ∀ n, fixed ≤ n → n ≤ (least + 3).toNat →
        next n = fixed ∨ next n = (least + 1).toNat ∧ digit ≤ n := by
      intro n first last
      by_cases side : n < digit
      · have reached := widths.shortLow n (by omega) (by omega) (by omega) side
        exact .inl (reached.trans value.symm)
      · exact .inr ⟨widths.shortHigh n (by omega) (by omega) (by omega) (by omega), by omega⟩
    rcases all total (by omega) atMost with reached | ⟨reached, _⟩
    · rw [reached, same, same]
    · rcases all (next total) (by omega) (by omega) with again | ⟨again, _⟩
      · rw [again, same]
      · rw [again, ← reached, again, reached]

end Widths

/-- The total that counts the record stating `total`. -/
def stated (base : Int) (word : Nat → Nat) (total : Nat) : Nat :=
  (base + word total + digitCount total).toNat

section

variable {base : Int} {word : Nat → Nat}

def Verdict (word : Nat → Nat) (short : Nat) : Prop :=
  ∀ high, ∃ cut, ∀ total ≤ high, word total = if total < cut then short + 2 else short

theorem widths_stated {short : Nat} (verdict : Verdict word short) (low : Nat) :
    ∃ cut, Widths (stated base word) (base + short + digitCount low) (10 ^ digitCount low) cut low
      (low + 80) := by
  obtain ⟨cut, words⟩ := verdict (low + 80)
  refine ⟨cut, ?_, ?_, ?_, ?_⟩ <;>
    intro total above below word side <;>
    rw [stated, words total below, digitCount_range above below]
  · rw [if_pos word, if_pos side]
    omega
  · rw [if_pos word, if_neg (by omega)]
    omega
  · rw [if_neg (by omega), if_pos side]
  · rw [if_neg (by omega), if_neg (by omega)]
    omega

theorem settles {short fixed first : Nat} (verdict : Verdict word short)
    (same : stated base word fixed = fixed) (near : first ≤ fixed + 8) :
    stated base word ((stated base word)^[5] first) = (stated base word)^[5] first := by
  have bound : ∀ total, short ≤ word total ∧ word total ≤ short + 2 := by
    intro total
    obtain ⟨cut, words⟩ := verdict total
    rw [words total (Nat.le_refl _)]
    split <;> omega
  have exact' : (base + word fixed + digitCount fixed).toNat = fixed := same
  have fixedWord := bound fixed
  -- The second total is at most a little above the fixed one, and short of it by its digits.
  have firstWord := bound first
  have firstDigits := Nat.le_trans (digitCount_mono near)
    (Nat.le_of_eq (digitCount_range (Nat.le_add_right fixed 8) (by omega)))
  have firstPositive := digitCount_pos first
  obtain ⟨second, secondEq⟩ : ∃ second, stated base word first = second := ⟨_, rfl⟩
  have secondValue : (base + word first + digitCount first).toNat = second := secondEq
  have few : digitCount first ≤ digitCount fixed + 1 := by
    split at firstDigits <;> omega
  have secondAbove : digitCount fixed ≤ digitCount second + 1 := digitCount_short (by omega)
  have secondBelow : digitCount second ≤ digitCount fixed + 1 := by
    have most := digitCount_mono (show second ≤ fixed + 3 by omega)
    have range := digitCount_range (Nat.le_add_right fixed 3) (by omega)
    split at range <;> omega
  -- From the third on, the totals stay close to the fixed one.
  have secondWord := bound second
  obtain ⟨third, thirdEq⟩ : ∃ third, stated base word second = third := ⟨_, rfl⟩
  have thirdValue : (base + word second + digitCount second).toNat = third := thirdEq
  obtain ⟨cut, widths⟩ : ∃ cut, Widths (stated base word) (base + short + digitCount (fixed - 3))
      (10 ^ digitCount (fixed - 3)) cut (fixed - 3) (fixed - 3 + 80) :=
    widths_stated verdict (fixed - 3)
  have digits : digitCount fixed = if fixed < 10 ^ digitCount (fixed - 3) then
      digitCount (fixed - 3) else digitCount (fixed - 3) + 1 :=
    digitCount_range (by omega) (by omega)
  have fixedRange := @Widths.range _ _ _ _ _ _ fixed widths (by omega) (by omega)
  rw [same] at fixedRange
  have fourth := @Widths.range _ _ _ _ _ _ third widths (by omega) (by omega)
  have lower : fixed - 3 ≤ (base + short + digitCount (fixed - 3)).toNat := by omega
  have upper : (base + short + digitCount (fixed - 3) + 3).toNat ≤ fixed - 3 + 80 := by omega
  have settled : stated base word (stated base word (stated base word (stated base word third))) =
      stated base word (stated base word (stated base word third)) := by
    by_cases long : fixed < cut
    · exact widths.settles_long lower upper same (by omega) (by omega) fourth.1 fourth.2 long
    · exact widths.settles_short lower upper same (by omega) (by omega) fourth.1 fourth.2 (by omega)
  rw [← thirdEq, ← secondEq] at settled
  exact settled

end

end SparseLab.Library
