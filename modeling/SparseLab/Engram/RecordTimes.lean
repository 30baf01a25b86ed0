import Mathlib.Tactic.Linarith
import SparseLab.Library.IsoTimes
import SparseLab.Library.Outcomes

/-! The knowledge records of an Engram, and what the canonical form of their times keeps. -/

namespace SparseLab.Engram

open Library Library.Calendars Library.IsoTimes

structure Datetime where
  microseconds : Nat
  utcoffset : Option Int
deriving DecidableEq

def Datetime.fromisoformat (value : Text) : Option Datetime :=
  (readTimestamp value).map fun reading =>
    ⟨reading.localMicroseconds, reading.offset.map Offset.microseconds⟩

inductive TimeValue
  | absent
  | datetime (moment : Datetime)
  | date (day : Nat)
  | text (value : Text)
  | other
deriving DecidableEq

/-- The value of a time field of a JSON row, null or a text. -/
def TimeValue.ofRow (field : Option Text) : TimeValue := field.elim .absent .text

section
variable (digit : Nat → Bool)

/-- The text is `\d{4}-\d{2}-\d{2}` as a whole. -/
def dateShaped : Text → Bool
  | [y₁, y₂, y₃, y₄, dash, m₁, m₂, later, d₁, d₂] =>
    [y₁, y₂, y₃, y₄, m₁, m₂, d₁, d₂].all digit && dash = 0x2D && later = 0x2D
  | _ => false

/-- The digits of `[Tt ]\d{2}:\d{2}:\d{2}[.,](\d+)` where the text starts so. -/
def fractionHere : Text → Option Text
  | mark :: h₁ :: h₂ :: colon :: m₁ :: m₂ :: later :: s₁ :: s₂ :: point :: rest =>
    if (mark = 0x54 ∨ mark = 0x74 ∨ mark = 0x20) ∧
        [h₁, h₂, m₁, m₂, s₁, s₂].all digit = true ∧ colon = 0x3A ∧ later = 0x3A ∧
        (point = 0x2E ∨ point = 0x2C) ∧ rest.takeWhile digit ≠ [] then
      some (rest.takeWhile digit)
    else none
  | _ => none

def fractionSearch : Text → Option Text
  | [] => none
  | code :: rest =>
    match fractionHere digit (code :: rest) with
    | some digits => some digits
    | none => fractionSearch rest

/-- A final `z` is read as `Z`. -/
def upperZulu (value : Text) : Text :=
  if value.getLast? = some 0x7A then value.dropLast ++ [0x5A] else value

def finerThanMicroseconds (value : Text) : Prop :=
  ∃ digits ∈ fractionSearch digit value, 6 < digits.length

instance (value : Text) : Decidable (finerThanMicroseconds digit value) := by
  unfold finerThanMicroseconds
  infer_instance

def astimezone (moment : Datetime) (offset : Int) : Except String Nat :=
  let utc : Int := moment.microseconds - offset
  if 86400 * 1000000 ≤ utc ∧ utc < (maxOrdinal + 1) * 86400 * 1000000 then .ok utc.toNat
  else .error "date value out of range"

def utcText (parsed : Datetime) : Except String Text :=
  match parsed.utcoffset with
  | none => .error "timestamps must include a timezone"
  | some offset => do
      let utc ← astimezone parsed offset
      return isoUtc utc

def normalizeText (value : Text) : Except String Text :=
  if dateShaped digit value = true then
    match readDate value with
    | some day => .ok (isoDate day)
    | none => .error "invalid ISO-8601 date"
  else if finerThanMicroseconds digit value then
    .error "timestamp precision finer than microseconds is unsupported"
  else
    match Datetime.fromisoformat (upperZulu value) with
    | some parsed => utcText parsed
    | none => .error "expected an ISO-8601 date or timestamp"

def normalizeTime : TimeValue → Except String (Option Text)
  | .absent => .ok none
  | .datetime parsed => (utcText parsed).map some
  | .date day => .ok (some (isoDate day))
  | .text value => (normalizeText digit value).map some
  | .other => .error "expected an ISO-8601 date or timestamp"

def instantOf (value : Text) : Except String Datetime :=
  if dateShaped digit value = true then
    match readDate value with
    | some day => .ok ⟨day * 86400 * 1000000, some 0⟩
    | none => .error "Invalid isoformat string"
  else
    match Datetime.fromisoformat value with
    | some parsed => .ok parsed
    | none => .error "Invalid isoformat string"

def timeInstant (value : Option Text) : Except String (Option Datetime) :=
  match value with
  | none => .ok none
  | some value => (instantOf digit value).map some

def Datetime.before (first second : Datetime) : Except String Bool :=
  match first.utcoffset, second.utcoffset with
  | some here, some there =>
    .ok ((first.microseconds : Int) - here < (second.microseconds : Int) - there)
  | none, none => .ok (first.microseconds < second.microseconds)
  | _, _ => .error "can't compare offset-naive and offset-aware datetimes"

def refuseReversed (start finish : Datetime) : Except String Unit := do
  let reversed ← finish.before start
  refuseIf (reversed = true) "valid_until precedes valid_from"

def checkInterval (validFrom validUntil : Option Text) : Except String Unit := do
  let start ← timeInstant digit validFrom
  let finish ← timeInstant digit validUntil
  match start, finish with
  | some start, some finish => refuseReversed start finish
  | _, _ => return ()

structure KnowledgeRecord where
  id : Text
  namespaceName : Text
  subject : Option Text
  relation : Option Text
  value : Option Text
  text : Option Text
  query : Option Text
  aliases : List Text
  hardNegativeIds : List Text
  source : Option Text
  sourceRevision : Option Text
  license : Text
  createdAt : Option Text
  validFrom : Option Text
  validUntil : Option Text
deriving DecidableEq

def nonblank (value : Option Text) : Bool := value.any fun value => !blank value

/-- The category `Cc`. -/
def controlCharacter (code : Nat) : Bool := code < 0x20 || (0x7F ≤ code && code ≤ 0x9F)

namespace KnowledgeRecord
variable (record : KnowledgeRecord)

def triple : List (Option Text) := [record.subject, record.relation, record.value]

def checkOptional (name : String) (value : Option Text) : Except String Unit :=
  refuseIf (value.isSome = true ∧ nonblank value = false) (name ++ " must be nonblank when present")

def checkEntries (name : String) (values : List Text) : Except String Unit := do
  refuseIf (∃ item ∈ values, nonblank (some item) = false) (name ++ " entries must be nonblank")
  refuseIf (¬ values.Nodup) (name ++ " entries must be unique")

def checkTexts : Except String Unit := do
  refuseIf (nonblank (some record.id) = false) "id must be nonblank"
  refuseIf (record.id.any controlCharacter = true) "id must not contain control characters"
  refuseIf (nonblank (some record.namespaceName) = false) "namespace must be nonblank"
  refuseIf (nonblank (some record.license) = false) "license must be nonblank"
  refuseIf (record.triple.any (·.isSome) = true ∧ record.triple.all nonblank = false)
    "subject, relation and value must be all nonblank or all null"
  refuseIf (nonblank record.text = false ∧ record.triple.all nonblank = false)
    "record requires a complete triple or nonblank text"
  checkOptional "text" record.text
  checkOptional "query" record.query
  checkOptional "source" record.source
  checkOptional "source_revision" record.sourceRevision
  checkEntries "aliases" record.aliases
  checkEntries "hard_negative_ids" record.hardNegativeIds
  refuseIf (record.id ∈ record.hardNegativeIds) "record cannot be its own hard negative"

def validateRecord : Except String Unit := do
  record.checkTexts
  checkInterval digit record.validFrom record.validUntil

def authored (createdAt validFrom validUntil : TimeValue) : Except String KnowledgeRecord := do
  let createdAt ← normalizeTime digit createdAt
  let validFrom ← normalizeTime digit validFrom
  let validUntil ← normalizeTime digit validUntil
  let canonical := { record with createdAt, validFrom, validUntil }
  canonical.validateRecord digit
  return canonical

end KnowledgeRecord
end

inductive Meaning
  | day (number : Nat)
  | instant (seconds : ℚ)
deriving DecidableEq

def Meaning.seconds : Meaning → ℚ
  | day number => number * 86400
  | instant seconds => seconds

section
variable (digit : Nat → Bool)

def meaning (value : Text) : Option Meaning :=
  if dateShaped digit value = true then (readDate value).map .day
  else (readTimestamp (upperZulu value)).bind fun reading =>
    reading.offset.map fun offset => .instant (reading.instant offset)

def KeepsDigits (value : Text) : Prop :=
  dateShaped digit value = false → ∀ reading ∈ readTimestamp (upperZulu value),
    ∀ offset ∈ reading.offset, lost reading.fraction = offset.lost

end

section
variable {digit : Nat → Bool}

inductive Canonical : Text → Prop
  | date (day : Nat) (positive : 1 ≤ day) (within : day ≤ maxOrdinal) : Canonical (isoDate day)
  | moment (moment : Nat) (within : InCalendar moment) : Canonical (isoUtc moment)

theorem dateShaped_length {value : Text} (shaped : dateShaped digit value = true) :
    value.length = 10 := by
  unfold dateShaped at shaped
  split at shaped
  · rfl
  · exact absurd shaped Bool.false_ne_true

theorem not_dateShaped_isoUtc (moment : Nat) : dateShaped digit (isoUtc moment) = false := by
  rw [← Bool.not_eq_true]
  intro shaped
  have lengths := dateShaped_length shaped
  simp [isoUtc, isoClock] at lengths

theorem fractionHere_of_not_mark {code : Nat} (rest : Text)
    (plain : ¬ (code = 0x54 ∨ code = 0x74 ∨ code = 0x20)) :
    fractionHere digit (code :: rest) = none := by
  unfold fractionHere
  split
  · rename_i shape
    rw [List.cons.injEq] at shape
    rw [if_neg]
    rintro ⟨mark, -⟩
    exact plain (shape.1 ▸ mark)
  · rfl

theorem fractionSearch_append {front : Text} (rest : Text)
    (plain : ∀ code ∈ front, ¬ (code = 0x54 ∨ code = 0x74 ∨ code = 0x20)) :
    fractionSearch digit (front ++ rest) = fractionSearch digit rest := by
  induction front with
  | nil => rfl
  | cons code front ih =>
    rw [List.cons_append, fractionSearch,
      fractionHere_of_not_mark _ (plain code List.mem_cons_self)]
    exact ih fun other member => plain other (List.mem_cons_of_mem _ member)

theorem padded_unmarked (width number : Nat) :
    ∀ code ∈ padded width number, ¬ (code = 0x54 ∨ code = 0x74 ∨ code = 0x20) := by
  intro code member
  have number := padded_digits width number code member
  simp only [asciiDigit, Bool.and_eq_true, decide_eq_true_eq] at number
  omega

theorem isoDate_unmarked (day : Nat) :
    ∀ code ∈ isoDate day, ¬ (code = 0x54 ∨ code = 0x74 ∨ code = 0x20) := by
  intro code member
  simp only [isoDate, List.mem_append, List.mem_cons] at member
  rcases member with year | rfl | month | rfl | date
  · exact padded_unmarked _ _ _ year
  · decide
  · exact padded_unmarked _ _ _ month
  · decide
  · exact padded_unmarked _ _ _ date

theorem isoClock_unmarked (second microsecond : Nat) :
    ∀ code ∈ isoClock second microsecond ++ [0x5A],
      ¬ (code = 0x54 ∨ code = 0x74 ∨ code = 0x20) := by
  intro code member
  simp only [isoClock, isoFraction, List.mem_append, List.mem_cons] at member
  rcases member with (hour | rfl | minute | rfl | part | fraction) | rfl | nothing
  · exact padded_unmarked _ _ _ hour
  · decide
  · exact padded_unmarked _ _ _ minute
  · decide
  · exact padded_unmarked _ _ _ part
  · split at fraction
    · exact absurd fraction List.not_mem_nil
    · rcases List.mem_cons.mp fraction with rfl | digits
      · decide
      · exact padded_unmarked _ _ _ digits
  · decide
  · exact absurd nothing List.not_mem_nil

section
variable (ascii : ∀ code < 0x80, digit code = asciiDigit code)
include ascii

theorem digit_padded (number : Nat) : digit (0x30 + number % 10) = true := by
  rw [ascii _ (by omega)]
  simp only [asciiDigit, Bool.and_eq_true, decide_eq_true_eq]
  omega

theorem dateShaped_isoDate (day : Nat) : dateShaped digit (isoDate day) = true := by
  simp [isoDate, padded, dateShaped, digit_padded ascii]

theorem fractionHere_isoClock (second microsecond : Nat) :
    ∀ digits ∈ fractionHere digit (0x54 :: (isoClock second microsecond ++ [0x5A])),
      digits.length = 6 := by
  have letter : digit 0x5A = false := ascii _ (by decide)
  intro digits found
  by_cases whole : microsecond = 0
  · simp [isoClock, isoFraction, padded, whole, fractionHere] at found
  · simp [isoClock, isoFraction, padded, whole, fractionHere, digit_padded ascii, letter] at found
    simp [← found]

theorem not_finer_isoUtc (moment : Nat) : ¬ finerThanMicroseconds digit (isoUtc moment) := by
  rintro ⟨digits, found, long⟩
  rw [isoUtc, fractionSearch_append _ (isoDate_unmarked _), fractionSearch] at found
  cases here : fractionHere digit (0x54 :: (isoClock (moment / 1000000 % 86400)
      (moment % 1000000) ++ [0x5A])) with
  | some first =>
    rw [here, Option.mem_def, Option.some.injEq] at found
    have six := fractionHere_isoClock ascii _ _ first here
    rw [found] at six
    omega
  | none =>
    rw [here] at found
    have passed := @fractionSearch_append digit _ []
      (isoClock_unmarked (moment / 1000000 % 86400) (moment % 1000000))
    rw [List.append_nil] at passed
    rw [passed] at found
    exact absurd found (by simp [fractionSearch])

end

theorem upperZulu_isoUtc (moment : Nat) : upperZulu (isoUtc moment) = isoUtc moment := by
  rw [upperZulu, if_neg]
  rw [isoUtc, ← List.cons_append, ← List.append_assoc, List.getLast?_append,
    List.getLast?_singleton, Option.some_or]
  decide

theorem fromisoformat_isoUtc {moment : Nat} (within : InCalendar moment) :
    Datetime.fromisoformat (isoUtc moment) = some ⟨moment, some 0⟩ := by
  have fraction : moment % 1000000 < 1000000 := Nat.mod_lt _ (by decide)
  have offset : Offset.microseconds ⟨false, 0, []⟩ = 0 := by decide
  have whole : (moment / 1000000 / 86400 * 86400 + moment / 1000000 % 86400) * 1000000 +
      moment % 1000000 = moment := by omega
  rw [Datetime.fromisoformat, readTimestamp_isoUtc within, Option.map_some,
    Reading.localMicroseconds, microseconds_writtenFraction fraction, whole, Option.map_some,
    offset]

theorem meaning_isoUtc {moment : Nat} (within : InCalendar moment) :
    meaning digit (isoUtc moment) = some (.instant (moment / 1000000)) := by
  have fraction : moment % 1000000 < 1000000 := Nat.mod_lt _ (by decide)
  have offset : Offset.microseconds ⟨false, 0, []⟩ = 0 := by decide
  have whole : (moment / 1000000 / 86400 * 86400 + moment / 1000000 % 86400) * 1000000 +
      moment % 1000000 = moment := by omega
  have none : Offset.lost ⟨false, 0, []⟩ = 0 := by simp [Offset.lost, IsoTimes.lost, decimal]
  rw [meaning, if_neg (by rw [not_dateShaped_isoUtc]; decide), upperZulu_isoUtc,
    readTimestamp_isoUtc within, Option.bind_some, Option.map_some, Reading.instant_eq,
    lost_eq_zero (length_writtenFraction _), none, offset, Reading.localMicroseconds,
    microseconds_writtenFraction fraction, whole]
  norm_num

section
variable (ascii : ∀ code < 0x80, digit code = asciiDigit code)
include ascii

theorem meaning_isoDate {day : Nat} (positive : 1 ≤ day) (within : day ≤ maxOrdinal) :
    meaning digit (isoDate day) = some (.day day) := by
  rw [meaning, if_pos (dateShaped_isoDate ascii day), readDate_isoDate positive within,
    Option.map_some]

theorem normalizeText_canonical {text : Text} (canonical : Canonical text) :
    normalizeText digit text = .ok text := by
  cases canonical with
  | date day positive within =>
    rw [normalizeText, if_pos (dateShaped_isoDate ascii day), readDate_isoDate positive within]
  | moment moment within =>
    have inRange : (86400 * 1000000 : Int) ≤ moment - 0 ∧
        (moment : Int) - 0 < (maxOrdinal + 1) * 86400 * 1000000 := by
      have bounds := within
      unfold InCalendar at bounds
      omega
    rw [normalizeText, if_neg (by rw [not_dateShaped_isoUtc]; decide),
      if_neg (not_finer_isoUtc ascii moment), upperZulu_isoUtc, fromisoformat_isoUtc within]
    simp only [utcText, astimezone, if_pos inRange, bind, Except.bind, pure, Except.pure]
    congr

theorem instantOf_canonical {text : Text} (canonical : Canonical text) :
    ∃ moment stood, instantOf digit text = .ok ⟨moment, some 0⟩ ∧
      meaning digit text = some stood ∧ (moment : ℚ) / 1000000 = stood.seconds := by
  cases canonical with
  | date day positive within =>
    refine ⟨day * 86400 * 1000000, .day day, ?_, meaning_isoDate ascii positive within, ?_⟩
    · rw [instantOf, if_pos (dateShaped_isoDate ascii day), readDate_isoDate positive within]
    · push_cast
      simp only [Meaning.seconds]
      ring
  | moment moment within =>
    refine ⟨moment, .instant (moment / 1000000), ?_, meaning_isoUtc within, rfl⟩
    rw [instantOf, if_neg (by rw [not_dateShaped_isoUtc]; decide), fromisoformat_isoUtc within]

theorem canonical_injective {first second : Text} (here : Canonical first)
    (there : Canonical second) (same : meaning digit first = meaning digit second) :
    first = second := by
  cases here with
  | date day positive within =>
    rw [meaning_isoDate ascii positive within] at same
    cases there with
    | date other positive within =>
      rw [meaning_isoDate ascii positive within, Option.some.injEq, Meaning.day.injEq] at same
      rw [same]
    | moment other within =>
      rw [meaning_isoUtc within, Option.some.injEq] at same
      exact Meaning.noConfusion same
  | moment moment within =>
    rw [meaning_isoUtc within] at same
    cases there with
    | date other positive within =>
      rw [meaning_isoDate ascii positive within, Option.some.injEq] at same
      exact Meaning.noConfusion same
    | moment other within =>
      rw [meaning_isoUtc within, Option.some.injEq, Meaning.instant.injEq] at same
      have equal : (moment : ℚ) = other := by linarith
      rw [Nat.cast_inj.mp equal]

end

theorem astimezone_ok {parsed : Datetime} {offset : Int} {moment : Nat}
    (converted : astimezone parsed offset = .ok moment) :
    InCalendar moment ∧ (moment : Int) = parsed.microseconds - offset := by
  unfold astimezone at converted
  dsimp only at converted
  split_ifs at converted with within
  rw [Except.ok.injEq] at converted
  have same : (moment : Int) = parsed.microseconds - offset := by
    rw [← converted, Int.toNat_of_nonneg]
    omega
  rw [← same] at within
  refine ⟨?_, same⟩
  unfold InCalendar
  omega

theorem normalizeText_ok {value canonical : Text}
    (accepted : normalizeText digit value = .ok canonical) :
    (dateShaped digit value = true ∧ ∃ day, 1 ≤ day ∧ day ≤ maxOrdinal ∧
      readDate value = some day ∧ canonical = isoDate day) ∨
    (dateShaped digit value = false ∧ ∃ reading offset moment, InCalendar moment ∧
      readTimestamp (upperZulu value) = some reading ∧ reading.offset = some offset ∧
      (moment : Int) = reading.localMicroseconds - offset.microseconds ∧
      canonical = isoUtc moment) := by
  unfold normalizeText at accepted
  cases shaped : dateShaped digit value with
  | true =>
    rw [if_pos shaped] at accepted
    cases read : readDate value with
    | none => simp [read] at accepted
    | some day =>
      simp only [read, Except.ok.injEq] at accepted
      obtain ⟨positive, within⟩ := readDate_bounds read
      exact .inl ⟨rfl, day, positive, within, rfl, accepted.symm⟩
  | false =>
    rw [if_neg (by rw [shaped]; decide)] at accepted
    split_ifs at accepted with finer
    cases read : readTimestamp (upperZulu value) with
    | none => simp [Datetime.fromisoformat, read] at accepted
    | some reading =>
      simp only [Datetime.fromisoformat, read, Option.map_some, utcText] at accepted
      cases zoned : reading.offset with
      | none => simp [zoned] at accepted
      | some offset =>
        simp only [zoned, Option.map_some] at accepted
        obtain ⟨moment, converted, written⟩ := bind_eq_ok accepted
        obtain ⟨within, same⟩ := astimezone_ok converted
        exact .inr ⟨rfl, reading, offset, moment, within, rfl, zoned, same,
          (Except.ok.inj written).symm⟩

theorem normalizeTime_some {value : Text} {stored : Option Text}
    (accepted : normalizeTime digit (.text value) = .ok stored) :
    ∃ canonical, normalizeText digit value = .ok canonical ∧ stored = some canonical := by
  unfold normalizeTime at accepted
  cases normal : normalizeText digit value with
  | error failure => simp [normal, Except.map] at accepted
  | ok canonical =>
    simp only [normal, Except.map, Except.ok.injEq] at accepted
    exact ⟨canonical, rfl, accepted.symm⟩

theorem normalizeTime_text {value canonical : Text}
    (accepted : normalizeTime digit (.text value) = .ok (some canonical)) :
    normalizeText digit value = .ok canonical := by
  obtain ⟨found, normal, same⟩ := normalizeTime_some accepted
  rw [normal, Option.some.inj same]

theorem canonical_of_ok {value canonical : Text}
    (accepted : normalizeText digit value = .ok canonical) : Canonical canonical := by
  rcases normalizeText_ok accepted with
    ⟨-, day, positive, within, -, rfl⟩ | ⟨-, reading, offset, moment, within, -, -, -, rfl⟩
  · exact .date day positive within
  · exact .moment moment within

section
variable (ascii : ∀ code < 0x80, digit code = asciiDigit code)
include ascii

theorem meaning_eq_iff {value canonical : Text}
    (accepted : normalizeText digit value = .ok canonical) :
    meaning digit canonical = meaning digit value ↔ KeepsDigits digit value := by
  rcases normalizeText_ok accepted with ⟨shaped, day, positive, within, read, rfl⟩ |
    ⟨shaped, reading, offset, moment, within, read, zoned, same, rfl⟩
  · have authored : meaning digit value = some (.day day) := by
      rw [meaning, if_pos shaped, read, Option.map_some]
    have kept : KeepsDigits digit value := by
      intro unshaped
      rw [shaped] at unshaped
      exact Bool.noConfusion unshaped
    simp only [meaning_isoDate ascii positive within, authored, kept]
  · have authored : meaning digit value = some (.instant (reading.instant offset)) := by
      rw [meaning, if_neg (by rw [shaped]; decide), read, Option.bind_some, zoned, Option.map_some]
    rw [meaning_isoUtc within, authored, Option.some.injEq, Meaning.instant.injEq,
      Reading.instant_eq, ← same, Int.cast_natCast]
    constructor
    · intro equal unshaped found foundReading foundOffset foundZoned
      rw [read, Option.mem_def, Option.some.injEq] at foundReading
      rw [← foundReading, zoned, Option.mem_def, Option.some.injEq] at foundZoned
      rw [← foundReading, ← foundZoned]
      linarith
    · intro kept
      rw [kept shaped reading read offset zoned]
      ring

theorem checkInterval_canonical {start finish : Text} (began : Canonical start)
    (ended : Canonical finish) :
    ∃ first last, meaning digit start = some first ∧ meaning digit finish = some last ∧
      checkInterval digit (some start) (some finish) =
        refuseIf (last.seconds < first.seconds) "valid_until precedes valid_from" := by
  obtain ⟨moment, first, started, meant, seconds⟩ := instantOf_canonical ascii began
  obtain ⟨other, last, stopped, intended, others⟩ := instantOf_canonical ascii ended
  refine ⟨first, last, meant, intended, ?_⟩
  have order : (other : Int) - 0 < moment - 0 ↔ last.seconds < first.seconds := by
    rw [← seconds, ← others, sub_zero, sub_zero, Nat.cast_lt,
      div_lt_div_iff_of_pos_right (by norm_num), Nat.cast_lt]
  simp only [checkInterval, timeInstant, started, stopped, Except.map, bind, Except.bind,
    refuseReversed, Datetime.before, order, decide_eq_true_eq]

theorem normalizeTime_row {field stored : Option Text}
    (accepted : normalizeTime digit (.ofRow field) = .ok stored) :
    normalizeTime digit (.ofRow stored) = .ok stored ∧ ∀ value ∈ stored, Canonical value := by
  cases field with
  | none =>
    cases accepted
    exact ⟨rfl, fun _ absent => by cases absent⟩
  | some authored =>
    obtain ⟨canonical, normal, rfl⟩ := normalizeTime_some accepted
    have kept := canonical_of_ok normal
    refine ⟨?_, fun _ same => Option.some.inj same ▸ kept⟩
    simp [TimeValue.ofRow, normalizeTime, normalizeText_canonical ascii kept, Except.map]

/-- Times are stored as they were authored exactly where their later digits cancel. What is
stored is stable and names an instant, and equal texts and the interval check agree with it. -/
theorem normalizeTime_exact :
    (∀ value canonical, normalizeTime digit (.text value) = .ok (some canonical) →
      (meaning digit canonical = meaning digit value ↔ KeepsDigits digit value) ∧
      normalizeTime digit (.text canonical) = .ok (some canonical) ∧
      ∃ moment stood, timeInstant digit (some canonical) = .ok (some ⟨moment, some 0⟩) ∧
        meaning digit canonical = some stood ∧ (moment : ℚ) / 1000000 = stood.seconds) ∧
    ∀ start finish first last,
      normalizeTime digit (.text start) = .ok (some first) →
      normalizeTime digit (.text finish) = .ok (some last) →
      KeepsDigits digit start → KeepsDigits digit finish →
      (first = last ↔ meaning digit start = meaning digit finish) ∧
      ∃ began ended, meaning digit start = some began ∧ meaning digit finish = some ended ∧
        checkInterval digit (some first) (some last) =
          refuseIf (ended.seconds < began.seconds) "valid_until precedes valid_from" := by
  constructor
  · intro value canonical accepted
    have stored := canonical_of_ok (normalizeTime_text accepted)
    obtain ⟨moment, stood, read, meant, seconds⟩ := instantOf_canonical ascii stored
    have kept := meaning_eq_iff ascii (normalizeTime_text accepted)
    refine ⟨kept, ?_, moment, stood, ?_, meant, seconds⟩
    · rw [normalizeTime, normalizeText_canonical ascii stored]
      rfl
    · rw [timeInstant, read]
      rfl
  · intro start finish first last began ended keptStart keptFinish
    have here := canonical_of_ok (normalizeTime_text began)
    have there := canonical_of_ok (normalizeTime_text ended)
    have meantStart := (meaning_eq_iff ascii (normalizeTime_text began)).mpr keptStart
    have meantFinish := (meaning_eq_iff ascii (normalizeTime_text ended)).mpr keptFinish
    rw [← meantStart, ← meantFinish]
    refine ⟨⟨fun same => by rw [same], canonical_injective ascii here there⟩, ?_⟩
    exact checkInterval_canonical ascii here there

end

theorem keepsDigits_of_few {value : Text}
    (few : ∀ reading ∈ readTimestamp (upperZulu value), reading.fraction.length ≤ 6 ∧
      ∀ offset ∈ reading.offset, offset.fraction.length ≤ 6) :
    KeepsDigits digit value := by
  intro _ reading read offset zoned
  obtain ⟨clock, zones⟩ := few reading read
  have shift : IsoTimes.lost offset.fraction = 0 := lost_eq_zero (zones offset zoned)
  rw [lost_eq_zero clock, Offset.lost, shift]
  simp

end

def leapRecord : KnowledgeRecord :=
  ⟨text "leap", text "days", none, none, none, some (text "2024 has 366 days"), none, [], [], none,
    none, text "CC0-1.0", none, none, none⟩

/-- One instant in two layouts: an offset and a space, a basic clock and a lower-case `z`. -/
theorem normalizeTime_exact_of_offset :
    meaning asciiDigit (text "2024-02-29T23:30:00.500000Z") =
        meaning asciiDigit (text "2024-03-01 00:30:00.5+01:00") ∧
      (text "2024-02-29T23:30:00.500000Z" = text "2024-02-29T23:30:00.500000Z" ↔
        meaning asciiDigit (text "2024-03-01 00:30:00.5+01:00") =
          meaning asciiDigit (text "20240229T233000,5z")) :=
  ⟨((@normalizeTime_exact asciiDigit fun _ _ => rfl).1
      (text "2024-03-01 00:30:00.5+01:00") (text "2024-02-29T23:30:00.500000Z")
      (by decide +kernel)).1.mpr (keepsDigits_of_few (by decide +kernel)),
    ((@normalizeTime_exact asciiDigit fun _ _ => rfl).2
      (text "2024-03-01 00:30:00.5+01:00") (text "20240229T233000,5z")
      (text "2024-02-29T23:30:00.500000Z") (text "2024-02-29T23:30:00.500000Z")
      (by decide +kernel) (by decide +kernel) (keepsDigits_of_few (by decide +kernel))
      (keepsDigits_of_few (by decide +kernel))).1⟩

theorem basic_layout_drops_digits :
    normalizeTime asciiDigit (.text (text "20240101T120000.1234567Z")) =
        .ok (some (text "2024-01-01T12:00:00.123456Z")) ∧
      meaning asciiDigit (text "2024-01-01T12:00:00.123456Z") ≠
        meaning asciiDigit (text "20240101T120000.1234567Z") ∧
      normalizeTime asciiDigit (.text (text "2024-01-01T12:00:00.1234567Z")) =
        .error "timestamp precision finer than microseconds is unsupported" := by
  refine ⟨by decide +kernel, by decide +kernel, by decide +kernel⟩

end SparseLab.Engram
