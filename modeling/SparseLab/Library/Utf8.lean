import Mathlib.Data.List.Lex

/-! UTF-8 keeps the order of code points: encoded texts compare byte by byte as the texts do. -/

namespace SparseLab.Library

def codeBytes (code : Nat) : List Nat :=
  if code < 0x80 then [code]
  else if code < 0x800 then [0xc0 + code / 0x40, 0x80 + code % 0x40]
  else if code < 0x10000 then
    [0xe0 + code / 0x1000, 0x80 + code / 0x40 % 0x40, 0x80 + code % 0x40]
  else
    [0xf0 + code / 0x40000, 0x80 + code / 0x1000 % 0x40, 0x80 + code / 0x40 % 0x40,
      0x80 + code % 0x40]

/-- `text.encode("utf-8")` of a text without surrogates. -/
def utf8 (codes : List Nat) : List Nat := codes.flatMap codeBytes

@[simp] theorem utf8_nil : utf8 [] = [] := rfl

@[simp] theorem utf8_cons (code : Nat) (codes : List Nat) :
    utf8 (code :: codes) = codeBytes code ++ utf8 codes := rfl

@[simp] theorem utf8_append (codes others : List Nat) :
    utf8 (codes ++ others) = utf8 codes ++ utf8 others := List.flatMap_append

theorem utf8_ascii {codes : List Nat} (ascii : ∀ code ∈ codes, code < 0x80) : utf8 codes = codes := by
  induction codes with
  | nil => rfl
  | cons code codes ih =>
    rw [List.forall_mem_cons] at ascii
    rw [utf8_cons, codeBytes, if_pos ascii.1, ih ascii.2]
    rfl

theorem codeBytes_ne_nil (code : Nat) : codeBytes code ≠ [] := by
  unfold codeBytes
  split
  · simp
  · split
    · simp
    · split
      · simp
      · simp

theorem codeBytes_lt {first second : Nat} (less : first < second) (rest later : List Nat) :
    codeBytes first ++ rest < codeBytes second ++ later := by
  unfold codeBytes
  by_cases one : second < 0x80
  · rw [if_pos (by omega), if_pos one]
    simp only [List.cons_append, List.cons_lt_cons_iff]
    omega
  · rw [if_neg one]
    by_cases short : first < 0x80
    · rw [if_pos short]
      split
      · simp only [List.cons_append, List.cons_lt_cons_iff]
        omega
      · split
        · simp only [List.cons_append, List.cons_lt_cons_iff]
          omega
        · simp only [List.cons_append, List.cons_lt_cons_iff]
          omega
    · rw [if_neg short]
      by_cases two : second < 0x800
      · rw [if_pos (by omega), if_pos two]
        simp only [List.cons_append, List.cons_lt_cons_iff]
        omega
      · rw [if_neg two]
        by_cases pair : first < 0x800
        · rw [if_pos pair]
          split
          · simp only [List.cons_append, List.cons_lt_cons_iff]
            omega
          · simp only [List.cons_append, List.cons_lt_cons_iff]
            omega
        · rw [if_neg pair]
          by_cases three : second < 0x10000
          · rw [if_pos (by omega), if_pos three]
            simp only [List.cons_append, List.cons_lt_cons_iff]
            omega
          · rw [if_neg three]
            split
            · simp only [List.cons_append, List.cons_lt_cons_iff]
              omega
            · simp only [List.cons_append, List.cons_lt_cons_iff]
              omega

theorem common_prefix_lt (start : List Nat) {first second : List Nat} (less : first < second) :
    start ++ first < start ++ second := by
  induction start with
  | nil => exact less
  | cons byte start ih =>
    rw [List.cons_append, List.cons_append, List.cons_lt_cons_iff]
    exact Or.inr ⟨rfl, ih⟩

theorem utf8_lt {first second : List Nat} (less : first < second) : utf8 first < utf8 second := by
  induction first generalizing second with
  | nil =>
    cases second with
    | nil => exact absurd less (lt_irrefl _)
    | cons code codes =>
      rw [utf8_nil, utf8_cons]
      cases bytes : codeBytes code with
      | nil => exact absurd bytes (codeBytes_ne_nil code)
      | cons byte rest => exact List.nil_lt_cons byte _
  | cons code codes ih =>
    cases second with
    | nil => exact absurd less (List.not_lt_nil _)
    | cons other others =>
      rw [utf8_cons, utf8_cons]
      rcases List.cons_lt_cons_iff.mp less with smaller | ⟨same, later⟩
      · exact codeBytes_lt smaller _ _
      · rw [same]
        exact common_prefix_lt _ (ih later)

theorem utf8_lt_iff {first second : List Nat} : utf8 first < utf8 second ↔ first < second := by
  constructor
  · intro less
    rcases lt_trichotomy first second with smaller | same | larger
    · exact smaller
    · rw [same] at less
      exact absurd less (lt_irrefl _)
    · exact absurd (utf8_lt larger) (lt_asymm less)
  · exact utf8_lt

theorem utf8_inj {first second : List Nat} : utf8 first = utf8 second ↔ first = second := by
  constructor
  · intro same
    rcases lt_trichotomy first second with smaller | equal | larger
    · exact absurd same (ne_of_lt (utf8_lt smaller))
    · exact equal
    · exact absurd same.symm (ne_of_lt (utf8_lt larger))
  · exact congrArg utf8

end SparseLab.Library
