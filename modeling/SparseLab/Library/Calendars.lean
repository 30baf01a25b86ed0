import Mathlib.Tactic.IntervalCases

/-! The proleptic Gregorian calendar: days numbered from the first day of year one. -/

namespace SparseLab.Library.Calendars

def isLeap (year : Nat) : Bool := year % 4 = 0 && (year % 100 ≠ 0 || year % 400 = 0)

def yearLength (year : Nat) : Nat := if isLeap year then 366 else 365

def monthLength (year month : Nat) : Nat :=
  if month = 2 then if isLeap year then 29 else 28
  else if month = 4 ∨ month = 6 ∨ month = 9 ∨ month = 11 then 30 else 31

def daysBeforeYear (year : Nat) : Nat :=
  (year - 1) * 365 + (year - 1) / 4 - (year - 1) / 100 + (year - 1) / 400

def daysBeforeMonth (year : Nat) : Nat → Nat
  | 0 => 0
  | 1 => 0
  | month + 2 => daysBeforeMonth year (month + 1) + monthLength year (month + 1)

def ordinal (year month day : Nat) : Nat := daysBeforeYear year + daysBeforeMonth year month + day

def Valid (year month day : Nat) : Prop :=
  (1 ≤ year ∧ year ≤ 9999) ∧ (1 ≤ month ∧ month ≤ 12) ∧ 1 ≤ day ∧ day ≤ monthLength year month

instance (year month day : Nat) : Decidable (Valid year month day) := by
  unfold Valid
  infer_instance

def maxOrdinal : Nat := 3652059

def yearOf (number : Nat) : Nat :=
  Nat.findGreatest (fun year => daysBeforeYear year < number) (number / 365 + 1)

def monthOf (year number : Nat) : Nat :=
  Nat.findGreatest (fun month => daysBeforeMonth year month < number) 12

def dayOf (year month number : Nat) : Nat := number - daysBeforeMonth year month

def fromOrdinal (number : Nat) : Nat × Nat × Nat :=
  let year := yearOf number
  let month := monthOf year (number - daysBeforeYear year)
  (year, month, dayOf year month (number - daysBeforeYear year))

theorem isLeap_iff (year : Nat) : isLeap year = true ↔ 4 ∣ year ∧ (¬ 100 ∣ year ∨ 400 ∣ year) := by
  simp [isLeap, Nat.dvd_iff_mod_eq_zero]

theorem daysBeforeYear_succ {year : Nat} (positive : 1 ≤ year) :
    daysBeforeYear (year + 1) = daysBeforeYear year + yearLength year := by
  obtain ⟨earlier, rfl⟩ : ∃ earlier, year = earlier + 1 := ⟨year - 1, by omega⟩
  have ordered : (earlier / 100 : Nat) ≤ earlier / 4 := Nat.div_le_div_left (by decide) (by decide)
  have fourths : 100 ∣ earlier + 1 → 4 ∣ earlier + 1 := Dvd.dvd.trans (by decide)
  have hundreds : 400 ∣ earlier + 1 → 100 ∣ earlier + 1 := Dvd.dvd.trans (by decide)
  unfold daysBeforeYear yearLength
  simp only [Nat.add_sub_cancel, Nat.succ_div, isLeap_iff]
  by_cases fourth : 4 ∣ earlier + 1
  · by_cases hundredth : 100 ∣ earlier + 1
    · by_cases cycle : 400 ∣ earlier + 1
      · simp only [fourth, hundredth, cycle, if_true, and_true, or_true]
        omega
      · simp only [fourth, hundredth, cycle, if_true, if_false, not_true, or_false, and_false]
        omega
    · have cycle : ¬ 400 ∣ earlier + 1 := fun divides => hundredth (hundreds divides)
      simp only [fourth, hundredth, cycle, if_true, if_false, not_false_iff, true_or, and_true]
      omega
  · have hundredth : ¬ 100 ∣ earlier + 1 := fun divides => fourth (fourths divides)
    have cycle : ¬ 400 ∣ earlier + 1 := fun divides => hundredth (hundreds divides)
    simp only [fourth, hundredth, cycle, if_false, false_and]
    omega

theorem daysBeforeYear_mono {first second : Nat} (ordered : first ≤ second) :
    daysBeforeYear first ≤ daysBeforeYear second := by
  induction second, ordered using Nat.le_induction with
  | base => exact le_rfl
  | succ second _ ih =>
    rcases Nat.eq_zero_or_pos second with rfl | positive
    · simpa [daysBeforeYear] using ih
    · rw [daysBeforeYear_succ positive]
      omega

theorem daysBeforeYear_large (count : Nat) : 365 * count ≤ daysBeforeYear (count + 1) := by
  unfold daysBeforeYear
  omega

theorem daysBeforeMonth_succ (year : Nat) {month : Nat} (positive : 1 ≤ month) :
    daysBeforeMonth year (month + 1) = daysBeforeMonth year month + monthLength year month := by
  obtain ⟨month, rfl⟩ : ∃ earlier, month = earlier + 1 := ⟨month - 1, by omega⟩
  rfl

theorem daysBeforeMonth_thirteen (year : Nat) : daysBeforeMonth year 13 = yearLength year := by
  cases leap : isLeap year with
  | true => simp [daysBeforeMonth, monthLength, yearLength, leap]
  | false => simp [daysBeforeMonth, monthLength, yearLength, leap]

theorem daysBeforeMonth_mono (year : Nat) {first second : Nat} (ordered : first ≤ second) :
    daysBeforeMonth year first ≤ daysBeforeMonth year second := by
  induction second, ordered using Nat.le_induction with
  | base => exact le_rfl
  | succ second _ ih =>
    rcases Nat.eq_zero_or_pos second with rfl | positive
    · simpa [daysBeforeMonth] using ih
    · rw [daysBeforeMonth_succ year positive]
      omega

section
variable {number : Nat}

theorem yearOf_spec (positive : 1 ≤ number) :
    1 ≤ yearOf number ∧ daysBeforeYear (yearOf number) < number ∧
      number ≤ daysBeforeYear (yearOf number + 1) := by
  have first : daysBeforeYear 1 < number := positive
  have atLeast : 1 ≤ yearOf number := Nat.le_findGreatest (by omega) first
  have holds : daysBeforeYear (yearOf number) < number :=
    Nat.findGreatest_spec (P := fun year => daysBeforeYear year < number) (by omega) first
  refine ⟨atLeast, holds, ?_⟩
  by_contra later
  have within : yearOf number + 1 ≤ number / 365 + 1 := by
    by_contra beyond
    have large := daysBeforeYear_large (yearOf number)
    omega
  exact Nat.findGreatest_is_greatest (Nat.lt_succ_self (yearOf number)) within
    (show daysBeforeYear (yearOf number + 1) < number by omega)

theorem monthOf_spec {year : Nat} (positive : 1 ≤ number) (within : number ≤ yearLength year) :
    (1 ≤ monthOf year number ∧ monthOf year number ≤ 12) ∧
      daysBeforeMonth year (monthOf year number) < number ∧
      number ≤ daysBeforeMonth year (monthOf year number + 1) := by
  have first : daysBeforeMonth year 1 < number := positive
  have atLeast : 1 ≤ monthOf year number := Nat.le_findGreatest (by omega) first
  have atMost : monthOf year number ≤ 12 := Nat.findGreatest_le 12
  have holds : daysBeforeMonth year (monthOf year number) < number :=
    Nat.findGreatest_spec (P := fun month => daysBeforeMonth year month < number)
      (by omega) first
  refine ⟨⟨atLeast, atMost⟩, holds, ?_⟩
  rcases Nat.lt_or_ge (monthOf year number) 12 with earlier | last
  · by_contra later
    exact Nat.findGreatest_is_greatest (Nat.lt_succ_self (monthOf year number))
      (show monthOf year number + 1 ≤ 12 by omega)
      (show daysBeforeMonth year (monthOf year number + 1) < number by omega)
  · have twelfth : monthOf year number = 12 := by omega
    rw [twelfth, daysBeforeMonth_thirteen]
    exact within

theorem fromOrdinal_valid (positive : 1 ≤ number) (within : number ≤ maxOrdinal) :
    Valid (fromOrdinal number).1 (fromOrdinal number).2.1 (fromOrdinal number).2.2 ∧
      ordinal (fromOrdinal number).1 (fromOrdinal number).2.1 (fromOrdinal number).2.2 =
        number := by
  obtain ⟨atLeast, after, upTo⟩ := yearOf_spec positive
  rw [daysBeforeYear_succ atLeast] at upTo
  obtain ⟨months, began, ends⟩ :=
    @monthOf_spec (number - daysBeforeYear (yearOf number)) (yearOf number) (by omega) (by omega)
  rw [daysBeforeMonth_succ _ months.1] at ends
  have bounded : yearOf number ≤ 9999 := by
    by_contra beyond
    have late := daysBeforeYear_mono (show 10000 ≤ yearOf number by omega)
    have ends : daysBeforeYear 10000 = maxOrdinal := by decide
    omega
  simp only [fromOrdinal, dayOf, Valid, ordinal]
  omega

end

theorem ordinal_bounds {year month day : Nat} (valid : Valid year month day) :
    1 ≤ ordinal year month day ∧ ordinal year month day ≤ daysBeforeYear (year + 1) ∧
      ordinal year month day ≤ maxOrdinal := by
  obtain ⟨years, months, days⟩ := valid
  have monthly := daysBeforeMonth_succ year months.1
  have whole := daysBeforeMonth_mono year (show month + 1 ≤ 13 by omega)
  rw [daysBeforeMonth_thirteen] at whole
  have yearly := daysBeforeYear_succ years.1
  have late := daysBeforeYear_mono (show year + 1 ≤ 10000 by omega)
  have ends : daysBeforeYear 10000 = maxOrdinal := by decide
  unfold ordinal
  omega

end SparseLab.Library.Calendars
