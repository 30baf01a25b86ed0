import Mathlib.Tactic.FieldSimp
import Mathlib.Tactic.Ring
import SparseLab.Library.Calendars
import SparseLab.Library.Texts

/-! Timestamps in the layouts of ISO 8601, and the extended UTC layout, which reads back. -/

namespace SparseLab.Library.IsoTimes

open Calendars

def asciiDigit (code : Nat) : Bool := 0x30 ≤ code && code ≤ 0x39

def decimal (digits : Text) : Nat := digits.foldl (fun value code => 10 * value + (code - 0x30)) 0

/-- The number written in the next `width` digits, and what follows them. -/
def readNumber (width : Nat) (letters : Text) : Option (Nat × Text) :=
  if (letters.take width).length = width ∧ (letters.take width).all asciiDigit = true then
    some (decimal (letters.take width), letters.drop width)
  else none

def afterMark (mark : Nat) (marked : Bool) (letters : Text) : Option Text :=
  if marked then if letters.head? = some mark then some letters.tail else none else some letters

def isoWeekOneMonday (year : Nat) : Nat :=
  let first := ordinal year 1 1
  let weekday := (first + 6) % 7
  if weekday > 3 then first - weekday + 7 else first - weekday

def longYear (year : Nat) : Bool :=
  ordinal year 1 1 % 7 = 4 || (ordinal year 1 1 % 7 = 3 && isLeap year)

def weekOrdinal (year week day : Nat) : Option Nat :=
  let number := isoWeekOneMonday year + (week - 1) * 7 + (day - 1)
  if (1 ≤ year ∧ year ≤ 9999) ∧ 1 ≤ week ∧ (week ≤ 52 ∨ week = 53 ∧ longYear year = true) ∧
      (1 ≤ day ∧ day ≤ 7) ∧ number ≤ maxOrdinal then
    some number
  else none

/-- `Www`, or `Www` and a weekday. -/
def readWeekDay (year : Nat) (dashed : Bool) (letters : Text) : Option Nat := do
  let (week, rest) ← readNumber 2 letters
  if rest = [] then weekOrdinal year week 1
  else
    let rest ← afterMark 0x2D dashed rest
    let (day, rest) ← readNumber 1 rest
    if rest = [] then weekOrdinal year week day else none

def readMonthDay (year : Nat) (dashed : Bool) (letters : Text) : Option Nat := do
  let (month, rest) ← readNumber 2 letters
  let rest ← afterMark 0x2D dashed rest
  let (day, rest) ← readNumber 2 rest
  if rest = [] ∧ Valid year month day then some (ordinal year month day) else none

def readDate (letters : Text) : Option Nat := do
  let (year, rest) ← readNumber 4 letters
  let dashed := rest.head? == some 0x2D
  let rest := if dashed then rest.tail else rest
  if rest.head? = some 0x57 then readWeekDay year dashed rest.tail
  else readMonthDay year dashed rest

def separatorAt (letters : Text) : Option Nat :=
  if letters.length = 7 then some 7
  else if letters[4]? = some 0x2D then
    if letters[5]? = some 0x57 then
      if letters[8]? = some 0x2D then
        if letters.length = 9 then none
        -- a weekday is followed by no digit: these are hours after a dash
        else if letters[10]?.any asciiDigit then some 8
        else some 10
      else some 8
    else some 10
  else if letters[4]? = some 0x57 then
    let run := 7 + ((letters.drop 7).takeWhile asciiDigit).length
    if run < 9 then some run
    -- clock components come in pairs of digits
    else if run % 2 = 0 then some 7
    else some 8
  else some 8

def readFraction (letters : Text) : Option Text :=
  if letters = [] then some []
  else if (letters.head? = some 0x2E ∨ letters.head? = some 0x2C) ∧ letters.tail ≠ [] ∧
      letters.tail.all asciiDigit = true then
    some letters.tail
  else none

structure Clock where
  hour : Nat
  minute : Nat
  second : Nat
  fraction : Text
deriving DecidableEq

def readSecond (hour minute : Nat) (colons : Bool) (letters : Text) : Option Clock := do
  let rest ← afterMark 0x3A colons letters
  let (second, rest) ← readNumber 2 rest
  let fraction ← readFraction rest
  return ⟨hour, minute, second, fraction⟩

def readMinute (hour : Nat) (colons : Bool) (letters : Text) : Option Clock := do
  let rest ← afterMark 0x3A colons letters
  let (minute, rest) ← readNumber 2 rest
  if rest = [] then return ⟨hour, minute, 0, []⟩
  else readSecond hour minute colons rest

/-- `HH[:?MM[:?SS[{.,}f+]]]`, with colons everywhere or nowhere. -/
def readClock (letters : Text) : Option Clock := do
  let (hour, rest) ← readNumber 2 letters
  if rest = [] then return ⟨hour, 0, 0, []⟩
  else readMinute hour (rest.head? == some 0x3A) rest

def Clock.seconds (clock : Clock) : Nat := clock.hour * 3600 + clock.minute * 60 + clock.second

def microseconds (fraction : Text) : Nat := decimal ((fraction ++ List.replicate 6 0x30).take 6)

structure Offset where
  west : Bool
  second : Nat
  fraction : Text
deriving DecidableEq

def Offset.microseconds (offset : Offset) : Int :=
  let size : Nat := offset.second * 1000000 + IsoTimes.microseconds offset.fraction
  if offset.west then -size else size

structure Reading where
  ordinal : Nat
  second : Nat
  fraction : Text
  offset : Option Offset
deriving DecidableEq

def zoneMark (code : Nat) : Bool := code = 0x2B || code = 0x2D || code = 0x5A

/-- `Z`, or a signed clock of less than a day. -/
def readOffset (letters : Text) : Option Offset :=
  if letters = [0x5A] then some ⟨false, 0, []⟩
  else if letters.head? = some 0x5A then none
  else do
    let clock ← readClock letters.tail
    let offset : Offset := ⟨letters.head? == some 0x2D, clock.seconds, clock.fraction⟩
    if offset.microseconds.natAbs < 86400 * 1000000 then some offset else none

def readZone (letters : Text) : Option (Option Offset) :=
  if letters = [] then some none else (readOffset letters).map some

def Clock.on (clock : Clock) (day : Nat) (offset : Option Offset) : Option Reading :=
  if clock.hour ≤ 23 ∧ clock.minute ≤ 59 ∧ clock.second ≤ 59 then
    some ⟨day, clock.seconds, clock.fraction, offset⟩
  else if clock.seconds = 86400 ∧ clock.hour = 24 ∧ microseconds clock.fraction = 0 ∧
      day < maxOrdinal then
    some ⟨day + 1, 0, clock.fraction, offset⟩
  else none

def readTime (day : Nat) (letters : Text) : Option Reading := do
  let clock ← readClock (letters.takeWhile fun code => !zoneMark code)
  let offset ← readZone (letters.dropWhile fun code => !zoneMark code)
  clock.on day offset

def readTimestamp (letters : Text) : Option Reading :=
  if letters.length < 7 then none
  else do
    let date ← separatorAt letters
    let day ← readDate (letters.take date)
    if letters.drop date = [] then return ⟨day, 0, [], none⟩
    else readTime day (letters.drop date).tail

def Reading.localMicroseconds (reading : Reading) : Nat :=
  (reading.ordinal * 86400 + reading.second) * 1000000 + microseconds reading.fraction

def fractionValue (fraction : Text) : ℚ := decimal fraction / 10 ^ fraction.length

def Offset.value (offset : Offset) : ℚ :=
  let size := offset.second + fractionValue offset.fraction
  if offset.west then -size else size

def Reading.instant (reading : Reading) (offset : Offset) : ℚ :=
  reading.ordinal * 86400 + reading.second + fractionValue reading.fraction - offset.value

def lost (fraction : Text) : ℚ := decimal (fraction.drop 6) / 10 ^ fraction.length

def Offset.lost (offset : Offset) : ℚ :=
  if offset.west then -IsoTimes.lost offset.fraction else IsoTimes.lost offset.fraction

/-- A number in exactly `width` digits. -/
def padded : (width number : Nat) → Text
  | 0, _ => []
  | width + 1, number => padded width (number / 10) ++ [0x30 + number % 10]

def isoDate (day : Nat) : Text :=
  let date := fromOrdinal day
  padded 4 date.1 ++ 0x2D :: (padded 2 date.2.1 ++ 0x2D :: padded 2 date.2.2)

def isoFraction (microsecond : Nat) : Text :=
  if microsecond = 0 then [] else 0x2E :: padded 6 microsecond

def isoClock (second : Nat) (microsecond : Nat) : Text :=
  padded 2 (second / 3600) ++ 0x3A :: (padded 2 (second / 60 % 60) ++
    0x3A :: (padded 2 (second % 60) ++ isoFraction microsecond))

/-- `YYYY-MM-DDTHH:MM:SS[.ffffff]Z`. -/
def isoUtc (microseconds : Nat) : Text :=
  isoDate (microseconds / 1000000 / 86400) ++
    0x54 :: (isoClock (microseconds / 1000000 % 86400) (microseconds % 1000000) ++ [0x5A])

@[simp] theorem length_padded (width number : Nat) : (padded width number).length = width := by
  induction width generalizing number with
  | zero => rfl
  | succ width ih => simp [padded, ih]

theorem padded_digits (width number : Nat) :
    ∀ code ∈ padded width number, asciiDigit code = true := by
  induction width generalizing number with
  | zero => simp [padded]
  | succ width ih =>
    intro code member
    rw [padded, List.mem_append, List.mem_singleton] at member
    rcases member with earlier | rfl
    · exact ih _ _ earlier
    · simp only [asciiDigit, Bool.and_eq_true, decide_eq_true_eq]
      omega

theorem decimal_append_singleton (digits : Text) (code : Nat) :
    decimal (digits ++ [code]) = 10 * decimal digits + (code - 0x30) := by
  simp [decimal]

theorem decimal_padded {width number : Nat} (fits : number < 10 ^ width) :
    decimal (padded width number) = number := by
  induction width generalizing number with
  | zero =>
    simp only [Nat.pow_zero] at fits
    simp only [padded, decimal, List.foldl_nil]
    omega
  | succ width ih =>
    rw [padded, decimal_append_singleton, ih (by rw [Nat.pow_succ] at fits; omega)]
    omega

theorem readNumber_padded {width number : Nat} (fits : number < 10 ^ width) (rest : Text) :
    readNumber width (padded width number ++ rest) = some (number, rest) := by
  have front : (padded width number ++ rest).take width = padded width number := by
    rw [List.take_append_of_le_length (by simp), List.take_of_length_le (by simp)]
  have back : (padded width number ++ rest).drop width = rest :=
    List.drop_left' (length_padded width number)
  rw [readNumber, front, back, if_pos ⟨length_padded width number,
    List.all_eq_true.mpr (padded_digits width number)⟩, decimal_padded fits]

theorem head?_padded_ne (number : Nat) {width code : Nat} (wide : 0 < width)
    (letter : asciiDigit code = false) (rest : Text) :
    (padded width number ++ rest).head? ≠ some code := by
  intro head
  cases written : padded width number with
  | nil =>
    have lengths := length_padded width number
    rw [written, List.length_nil] at lengths
    omega
  | cons first others =>
    rw [written, List.cons_append, List.head?_cons, Option.some.injEq] at head
    have digit := padded_digits width number first (by rw [written]; exact List.mem_cons_self)
    rw [head, letter] at digit
    exact Bool.false_ne_true digit

section
variable {day : Nat}

@[simp] theorem length_isoDate (day : Nat) : (isoDate day).length = 10 := by simp [isoDate]

theorem date_narrow (positive : 1 ≤ day) (within : day ≤ maxOrdinal) :
    (fromOrdinal day).1 < 10 ^ 4 ∧ (fromOrdinal day).2.1 < 10 ^ 2 ∧
      (fromOrdinal day).2.2 < 10 ^ 2 := by
  obtain ⟨⟨years, months, days⟩, -⟩ := fromOrdinal_valid positive within
  have short : monthLength (fromOrdinal day).1 (fromOrdinal day).2.1 ≤ 31 := by
    unfold monthLength
    split_ifs <;> omega
  refine ⟨?_, ?_, ?_⟩ <;> omega

theorem readDate_isoDate (positive : 1 ≤ day) (within : day ≤ maxOrdinal) :
    readDate (isoDate day) = some day := by
  obtain ⟨valid, number⟩ := fromOrdinal_valid positive within
  obtain ⟨year, month, date⟩ := date_narrow positive within
  have digit := @head?_padded_ne (fromOrdinal day).2.1 2 0x57 (by decide) (by decide)
    (0x2D :: padded 2 (fromOrdinal day).2.2)
  have last : readNumber 2 (padded 2 (fromOrdinal day).2.2) = some ((fromOrdinal day).2.2, []) := by
    simpa using readNumber_padded date []
  simp only [readDate, isoDate, readNumber_padded year, Option.bind_eq_bind, Option.bind_some,
    List.head?_cons, List.tail_cons, BEq.rfl, if_true, if_neg digit, readMonthDay,
    readNumber_padded month, afterMark, last, valid, number, and_self]

theorem isoWeekOneMonday_pos {year : Nat} (positive : 1 ≤ ordinal year 1 1) :
    1 ≤ isoWeekOneMonday year := by
  unfold isoWeekOneMonday
  dsimp only
  split_ifs <;> omega

theorem weekOrdinal_bounds {year week date : Nat} (read : weekOrdinal year week date = some day) :
    1 ≤ day ∧ day ≤ maxOrdinal := by
  simp only [weekOrdinal, Option.ite_none_right_eq_some, Option.some.injEq] at read
  obtain ⟨⟨years, -, -, -, within⟩, number⟩ := read
  have first : Valid year 1 1 := ⟨years, by decide, le_rfl, by simp [monthLength]⟩
  have monday := isoWeekOneMonday_pos (ordinal_bounds first).1
  omega

theorem readWeekDay_bounds {year : Nat} {dashed : Bool} {letters : Text}
    (read : readWeekDay year dashed letters = some day) : 1 ≤ day ∧ day ≤ maxOrdinal := by
  obtain ⟨⟨week, rest⟩, -, dated⟩ := Option.bind_eq_some_iff.mp read
  dsimp only at dated
  by_cases short : rest = []
  · rw [if_pos short] at dated
    exact weekOrdinal_bounds dated
  · rw [if_neg short] at dated
    obtain ⟨after, -, dated⟩ := Option.bind_eq_some_iff.mp dated
    obtain ⟨⟨date, final⟩, -, dated⟩ := Option.bind_eq_some_iff.mp dated
    exact weekOrdinal_bounds (Option.ite_none_right_eq_some.mp dated).2

theorem readMonthDay_bounds {year : Nat} {dashed : Bool} {letters : Text}
    (read : readMonthDay year dashed letters = some day) : 1 ≤ day ∧ day ≤ maxOrdinal := by
  obtain ⟨⟨month, rest⟩, -, dated⟩ := Option.bind_eq_some_iff.mp read
  obtain ⟨after, -, dated⟩ := Option.bind_eq_some_iff.mp dated
  obtain ⟨⟨date, final⟩, -, dated⟩ := Option.bind_eq_some_iff.mp dated
  obtain ⟨⟨-, valid⟩, number⟩ := Option.ite_none_right_eq_some.mp dated
  obtain ⟨positive, -, within⟩ := ordinal_bounds valid
  rw [Option.some.injEq] at number
  omega

theorem readDate_bounds {letters : Text} (read : readDate letters = some day) :
    1 ≤ day ∧ day ≤ maxOrdinal := by
  obtain ⟨⟨year, rest⟩, -, dated⟩ := Option.bind_eq_some_iff.mp read
  dsimp only at dated
  split_ifs at dated
  all_goals first
    | exact readWeekDay_bounds dated
    | exact readMonthDay_bounds dated

end

section
variable {second microsecond : Nat}

def writtenFraction (microsecond : Nat) : Text :=
  if microsecond = 0 then [] else padded 6 microsecond

theorem readFraction_isoFraction (microsecond : Nat) :
    readFraction (isoFraction microsecond) = some (writtenFraction microsecond) := by
  unfold isoFraction writtenFraction
  by_cases whole : microsecond = 0
  · simp [whole, readFraction]
  · have nonempty : padded 6 microsecond ≠ [] := by
      intro empty
      have lengths := length_padded 6 microsecond
      rw [empty] at lengths
      exact absurd lengths (by decide)
    have digits : (padded 6 microsecond).all asciiDigit = true :=
      List.all_eq_true.mpr (padded_digits 6 microsecond)
    simp [whole, readFraction, nonempty, digits]

theorem readClock_isoClock (within : second < 86400) (microsecond : Nat) :
    readClock (isoClock second microsecond) =
      some ⟨second / 3600, second / 60 % 60, second % 60, writtenFraction microsecond⟩ := by
  have hours : second / 3600 < 10 ^ 2 := by omega
  have minutes : second / 60 % 60 < 10 ^ 2 := by omega
  have seconds : second % 60 < 10 ^ 2 := by omega
  simp only [readClock, isoClock, readNumber_padded hours, Option.bind_eq_bind, Option.bind_some,
    List.head?_cons, BEq.rfl, reduceCtorEq, if_false, readMinute, afterMark, if_true,
    List.tail_cons, readNumber_padded minutes, readSecond, readNumber_padded seconds,
    readFraction_isoFraction]
  rfl

theorem isoClock_unzoned (second microsecond : Nat) :
    ∀ code ∈ isoClock second microsecond, (!zoneMark code) = true := by
  have number : ∀ width number code, code ∈ padded width number → zoneMark code = false := by
    intro width number code member
    have digit := padded_digits width number code member
    simp only [asciiDigit, Bool.and_eq_true, decide_eq_true_eq] at digit
    simp only [zoneMark, Bool.or_eq_false_iff, decide_eq_false_iff_not]
    omega
  have colon : zoneMark 0x3A = false := by decide
  have point : zoneMark 0x2E = false := by decide
  intro code member
  rw [Bool.not_eq_true']
  simp only [isoClock, isoFraction, List.mem_append, List.mem_cons] at member
  rcases member with hour | rfl | minute | rfl | part | fraction
  · exact number _ _ _ hour
  · exact colon
  · exact number _ _ _ minute
  · exact colon
  · exact number _ _ _ part
  · split at fraction
    · exact absurd fraction List.not_mem_nil
    · rcases List.mem_cons.mp fraction with rfl | digit
      · exact point
      · exact number _ _ _ digit

theorem readTime_isoClock (day : Nat) (within : second < 86400) (microsecond : Nat) :
    readTime day (isoClock second microsecond ++ [0x5A]) =
      some ⟨day, second, writtenFraction microsecond, some ⟨false, 0, []⟩⟩ := by
  have unzoned := isoClock_unzoned second microsecond
  have clock : (isoClock second microsecond ++ [0x5A]).takeWhile (fun code => !zoneMark code) =
      isoClock second microsecond := by
    rw [List.takeWhile_append_of_pos unzoned]
    simp [zoneMark]
  have zone : (isoClock second microsecond ++ [0x5A]).dropWhile (fun code => !zoneMark code) =
      [0x5A] := by
    rw [List.dropWhile_append_of_pos unzoned]
    simp [zoneMark]
  have seconds : second / 3600 * 3600 + second / 60 % 60 * 60 + second % 60 = second := by omega
  have bounds : second / 3600 ≤ 23 ∧ second / 60 % 60 ≤ 59 ∧ second % 60 ≤ 59 := by omega
  simp only [readTime, clock, zone, readClock_isoClock within, readZone, readOffset,
    Option.bind_eq_bind, Option.bind_some, Option.map_some, reduceCtorEq, if_false, if_true,
    Clock.on, Clock.seconds, if_pos bounds, seconds]

end

section
variable {moment : Nat}

def InCalendar (moment : Nat) : Prop :=
  86400 * 1000000 ≤ moment ∧ moment < (maxOrdinal + 1) * 86400 * 1000000

theorem separatorAt_isoDate (day : Nat) {rest : Text} (nonempty : rest ≠ []) :
    separatorAt (isoDate day ++ rest) = some 10 := by
  have longer := List.length_pos_iff.mpr nonempty
  have lengths : (isoDate day ++ rest).length ≠ 7 := by
    rw [List.length_append, length_isoDate]
    omega
  have year := length_padded 4 (fromOrdinal day).1
  have fourth : (isoDate day ++ rest)[4]? = some 0x2D := by
    simp [isoDate, year]
  have fifth : (isoDate day ++ rest)[5]? ≠ some 0x57 := by
    have month := @head?_padded_ne (fromOrdinal day).2.1 2 0x57 (by decide) (by decide)
      (0x2D :: padded 2 (fromOrdinal day).2.2 ++ rest)
    rw [List.head?_eq_getElem?] at month
    simpa [isoDate, List.getElem?_append, year] using month
  rw [separatorAt, if_neg lengths, if_pos fourth, if_neg fifth]

theorem readTimestamp_isoUtc (within : InCalendar moment) :
    readTimestamp (isoUtc moment) =
      some ⟨moment / 1000000 / 86400, moment / 1000000 % 86400,
        writtenFraction (moment % 1000000), some ⟨false, 0, []⟩⟩ := by
  obtain ⟨began, ends⟩ := within
  have positive : 1 ≤ moment / 1000000 / 86400 := by omega
  have bounded : moment / 1000000 / 86400 ≤ maxOrdinal := by
    unfold maxOrdinal at ends ⊢
    omega
  have long : ¬ (isoUtc moment).length < 7 := by
    rw [isoUtc, List.length_append, length_isoDate]
    omega
  have date : (isoUtc moment).take 10 = isoDate (moment / 1000000 / 86400) :=
    List.take_left' (length_isoDate _)
  have clock : (isoUtc moment).drop 10 =
      0x54 :: (isoClock (moment / 1000000 % 86400) (moment % 1000000) ++ [0x5A]) :=
    List.drop_left' (length_isoDate _)
  have separator : separatorAt (isoUtc moment) = some 10 :=
    separatorAt_isoDate _ (List.cons_ne_nil _ _)
  simp only [readTimestamp, if_neg long, separator, Option.bind_eq_bind, Option.bind_some, date,
    clock, readDate_isoDate positive bounded, reduceCtorEq, if_false, List.tail_cons]
  exact readTime_isoClock _ (Nat.mod_lt _ (by decide)) _

end

section

theorem decimal_append (first second : Text) :
    decimal (first ++ second) = decimal first * 10 ^ second.length + decimal second := by
  induction second using List.reverseRecOn with
  | nil => simp [decimal]
  | append_singleton second code ih =>
    rw [← List.append_assoc, decimal_append_singleton, decimal_append_singleton, ih,
      List.length_append, List.length_singleton, Nat.pow_succ]
    ring

theorem decimal_zeros (count : Nat) : decimal (List.replicate count 0x30) = 0 := by
  induction count with
  | zero => rfl
  | succ count ih => rw [List.replicate_succ', decimal_append_singleton, ih]

theorem fractionValue_eq (fraction : Text) :
    fractionValue fraction = microseconds fraction / 1000000 + lost fraction := by
  unfold fractionValue microseconds lost
  rcases Nat.le_total fraction.length 6 with short | long
  · have filled : (fraction ++ List.replicate 6 0x30).take 6 =
        fraction ++ List.replicate (6 - fraction.length) 0x30 := by
      rw [List.take_append, List.take_of_length_le short, List.take_replicate,
        Nat.min_eq_left (by omega)]
    have scale : (10 : ℚ) ^ fraction.length * 10 ^ (6 - fraction.length) = 1000000 := by
      rw [← pow_add, Nat.add_sub_cancel' short]
      norm_num
    rw [filled, List.drop_eq_nil_of_le short, decimal_append, decimal_zeros, List.length_replicate,
      ← scale]
    have nonzero : (10 : ℚ) ^ fraction.length ≠ 0 := by positivity
    have others : (10 : ℚ) ^ (6 - fraction.length) ≠ 0 := by positivity
    push_cast
    field_simp
    simp [decimal]
  · have taken : (fraction ++ List.replicate 6 0x30).take 6 = fraction.take 6 :=
      List.take_append_of_le_length long
    have scale : (10 : ℚ) ^ fraction.length = 1000000 * 10 ^ (fraction.drop 6).length := by
      rw [List.length_drop]
      obtain ⟨others, length⟩ := Nat.exists_eq_add_of_le long
      rw [length, Nat.add_sub_cancel_left, pow_add]
      norm_num
    have digits := decimal_append (fraction.take 6) (fraction.drop 6)
    rw [List.take_append_drop] at digits
    have nonzero : (10 : ℚ) ^ (fraction.drop 6).length ≠ 0 := by positivity
    rw [taken, scale, digits]
    push_cast
    field_simp

theorem lost_eq_zero {fraction : Text} (short : fraction.length ≤ 6) : lost fraction = 0 := by
  simp [lost, List.drop_eq_nil_of_le short, decimal]

theorem length_writtenFraction (microsecond : Nat) : (writtenFraction microsecond).length ≤ 6 := by
  unfold writtenFraction
  split_ifs
  · exact Nat.zero_le _
  · exact (length_padded 6 microsecond).le

theorem microseconds_writtenFraction {microsecond : Nat} (within : microsecond < 1000000) :
    microseconds (writtenFraction microsecond) = microsecond := by
  unfold writtenFraction microseconds
  by_cases whole : microsecond = 0
  · rw [if_pos whole, whole]
    rfl
  · have taken : (padded 6 microsecond ++ List.replicate 6 0x30).take 6 = padded 6 microsecond :=
      List.take_left' (length_padded 6 microsecond)
    rw [if_neg whole, taken, decimal_padded within]

theorem Offset.value_eq (offset : Offset) :
    offset.value = offset.microseconds / 1000000 + offset.lost := by
  unfold Offset.value Offset.microseconds Offset.lost
  rw [fractionValue_eq]
  cases offset.west with
  | true =>
    simp only [if_true]
    push_cast
    ring
  | false =>
    simp only [Bool.false_eq_true, if_false]
    push_cast
    ring

theorem Reading.instant_eq (reading : Reading) (offset : Offset) :
    reading.instant offset =
      ((reading.localMicroseconds : ℤ) - offset.microseconds : ℤ) / 1000000 +
        (lost reading.fraction - offset.lost) := by
  rw [Reading.instant, Offset.value_eq, fractionValue_eq, Reading.localMicroseconds]
  push_cast
  ring

end

end SparseLab.Library.IsoTimes
