import Mathlib.Data.Fintype.Powerset
import SparseLab.Corpus.SpdxTokens
import SparseLab.Library.OperandChains

/-! Classes of SPDX expressions, from `corpus/rights.py`. -/

namespace SparseLab.Corpus.Spdx

open Library

inductive LicenseClass
  | permissive | obligations | unknown | restricted
deriving DecidableEq

instance : Fintype LicenseClass where
  elems := {.permissive, .obligations, .unknown, .restricted}
  complete licenseClass := by cases licenseClass <;> decide

/-- `_PERMISSIVE` -/
def permissiveLicenses : List Text :=
  ["MIT", "MIT-0", "Apache-2.0", "BSD-2-Clause", "BSD-3-Clause", "0BSD", "ISC", "Zlib", "Unlicense",
    "PSF-2.0", "Python-2.0", "CC0-1.0", "BSL-1.0", "Artistic-2.0"].map text

/-- `_ATTRIBUTION` -/
def attributionLicenses : List Text :=
  ["CC-BY-4.0", "CC-BY-3.0", "CC-BY-SA-4.0", "CC-BY-SA-3.0", "ODC-By-1.0"].map text

/-- `_COPYLEFT` -/
def copyleftLicenses : List Text :=
  ["MPL-2.0", "GPL-2.0-only", "GPL-2.0", "GPL-2.0+", "GPL-2.0-or-later", "GPL-3.0-only", "GPL-3.0",
    "GPL-3.0+", "GPL-3.0-or-later", "LGPL-2.1-only", "LGPL-2.1", "LGPL-2.1+", "LGPL-2.1-or-later",
    "LGPL-3.0-only", "LGPL-3.0", "LGPL-3.0+", "LGPL-3.0-or-later", "AGPL-3.0-only", "AGPL-3.0",
    "AGPL-3.0+", "AGPL-3.0-or-later"].map text

/-- `_RESTRICTED` -/
def restrictedLicenses : List Text :=
  ["CC-BY-NC-4.0", "CC-BY-NC-SA-4.0", "CC-BY-ND-4.0", "CC-BY-NC-ND-4.0", "CC-BY-NC-3.0",
    "CC-BY-NC-SA-3.0", "CC-BY-ND-3.0", "CC-BY-NC-ND-3.0"].map text

def syscallLicenses : List Text :=
  ["GPL-2.0", "GPL-2.0-only", "GPL-2.0+", "GPL-2.0-or-later"].map text

inductive SyntaxFailure
  | missingLicense | unclosed | missingIdentifier | missingException | recursionLimit
deriving DecidableEq

def SyntaxFailure.text : SyntaxFailure → String
  | missingLicense => "missing license"
  | unclosed => "unclosed SPDX expression"
  | missingIdentifier => "missing license identifier"
  | missingException => "missing SPDX exception"
  | recursionLimit => "maximum recursion depth exceeded"

def registered (token : Text) : LicenseClass :=
  if token ∈ permissiveLicenses then .permissive
  else if token ∈ attributionLicenses ∨ token ∈ copyleftLicenses then .obligations
  else if token ∈ restrictedLicenses then .restricted
  else .unknown

/-- The branch of `atom` behind an identifier. -/
def identified (token : Text) (tokens : List Text) :
    Except SyntaxFailure (Finset LicenseClass × List Text) :=
  match tokens with
  | [] => .ok ({registered token}, [])
  | next :: rest =>
    if next = text "WITH" then
      match rest with
      | [] => .error .missingException
      | exception :: rest =>
        if exception ≠ text "Linux-syscall-note" ∨ token ∉ syscallLicenses then
          .ok ({.unknown}, rest)
        else .ok ({registered token}, rest)
    else .ok ({registered token}, next :: rest)

def atom : Nat → Reader Text (Finset LicenseClass) SyntaxFailure
  | 0, _ => .error .recursionLimit
  | _ + 1, [] => .error .missingLicense
  | depth + 1, token :: tokens =>
    if token = text "(" then do
      let (result, rest) ← chain (chain (atom depth) (text "AND") (· ∪ ·)) (text "OR") (· ∪ ·) tokens
      match rest with
      | [] => .error .unclosed
      | closing :: rest => if closing ≠ text ")" then .error .unclosed else .ok (result, rest)
    else if token ∈ [text "AND", text "OR", text "WITH", text ")"] then .error .missingIdentifier
    else identified token tokens

def conjunction (depth : Nat) : Reader Text (Finset LicenseClass) SyntaxFailure :=
  chain (atom depth) (text "AND") (· ∪ ·)

def disjunction (depth : Nat) : Reader Text (Finset LicenseClass) SyntaxFailure :=
  chain (conjunction depth) (text "OR") (· ∪ ·)

def worstClass (classes : Finset LicenseClass) : LicenseClass :=
  if .restricted ∈ classes then .restricted
  else if .unknown ∈ classes then .unknown
  else if .obligations ∈ classes then .obligations
  else .permissive

def licenseClass (expression : Text) : LicenseClass :=
  let tokens := findTokens expression
  if tokens = [] ∨ tokens.flatten ≠ squeeze expression then .unknown
  else
    match disjunction (tokens.length + 1) tokens with
    | .error _ => .unknown
    | .ok (classes, rest) => if rest ≠ [] then .unknown else worstClass classes

structure Leaf where
  license : Text
  exception : Option Text
deriving DecidableEq

def Leaf.licenseClass (leaf : Leaf) : LicenseClass :=
  match leaf.exception with
  | none => registered leaf.license
  | some exception =>
    if exception = text "Linux-syscall-note" ∧ leaf.license ∈ syscallLicenses then
      registered leaf.license
    else .unknown

def reserved : List Text := [text "(", text ")", text "AND", text "OR", text "WITH"]

inductive Atom (excepting : Text → Prop) : List Text → List Leaf → Prop
  | license {identifier : Text} : identifier ∉ reserved →
      Atom excepting [identifier] [⟨identifier, none⟩]
  | exception {identifier exception : Text} : identifier ∉ reserved → excepting exception →
      Atom excepting [identifier, text "WITH", exception] [⟨identifier, some exception⟩]
  | nested {tokens : List Text} {leaves : List Leaf} :
      OperandChain (text "OR") (OperandChain (text "AND") (Atom excepting) (· ++ ·)) (· ++ ·) tokens leaves →
      Atom excepting (text "(" :: tokens ++ [text ")"]) leaves

def Conjunction (excepting : Text → Prop) : List Text → List Leaf → Prop :=
  OperandChain (text "AND") (Atom excepting) (· ++ ·)

def Disjunction (excepting : Text → Prop) : List Text → List Leaf → Prop :=
  OperandChain (text "OR") (Conjunction excepting) (· ++ ·)

def Sentence (excepting : Text → Prop) (expression : Text) (leaves : List Leaf) : Prop :=
  ∃ tokens, Spelled expression tokens ∧ Disjunction excepting tokens leaves

/-- `restricted > unknown > obligations > permissive` -/
def LicenseClass.rank : LicenseClass → Nat
  | permissive => 0
  | obligations => 1
  | unknown => 2
  | restricted => 3

theorem worstClass_worst : ∀ classes : Finset LicenseClass, classes.Nonempty →
    worstClass classes ∈ classes ∧ ∀ other ∈ classes, other.rank ≤ (worstClass classes).rank := by
  decide

def Worst (leaves : List Leaf) (worst : LicenseClass) : Prop :=
  (∃ leaf ∈ leaves, leaf.licenseClass = worst) ∧
    ∀ leaf ∈ leaves, leaf.licenseClass.rank ≤ worst.rank

def classes (leaves : List Leaf) : Finset LicenseClass :=
  (leaves.map Leaf.licenseClass).toFinset

section

variable {tokens : List Text} {leaves : List Leaf} {depth : Nat}

theorem classes_append (first second : List Leaf) :
    classes (first ++ second) = classes first ∪ classes second := by
  simp [classes]

theorem Atom.nonempty {excepting : Text → Prop} (atom : Atom excepting tokens leaves) : tokens ≠ [] := by
  cases atom <;> exact List.cons_ne_nil _ _

theorem identified_sound {token : Text} (free : token ∉ reserved) {rest : List Text}
    {result : Finset LicenseClass} (returned : identified token tokens = .ok (result, rest)) :
    ∃ part leaves, token :: tokens = part ++ rest ∧ Atom (fun _ => True) part leaves ∧
      classes leaves = result := by
  cases tokens with
  | nil =>
    cases returned
    exact ⟨[token], _, rfl, .license free, rfl⟩
  | cons next tokens =>
    simp only [identified] at returned
    by_cases marked : next = text "WITH"
    · rw [if_pos marked] at returned
      cases tokens with
      | nil => cases returned
      | cons exception tokens =>
        refine ⟨[token, next, exception], [⟨token, some exception⟩], ?_⟩
        simp only at returned
        by_cases known : exception = text "Linux-syscall-note" ∧ token ∈ syscallLicenses
        · rw [if_neg (by rwa [not_or, not_not, not_not])] at returned
          cases returned
          refine ⟨rfl, marked ▸ .exception free trivial, ?_⟩
          simp [classes, Leaf.licenseClass, known]
        · rw [if_pos (not_and_or.mp known)] at returned
          cases returned
          refine ⟨rfl, marked ▸ .exception free trivial, ?_⟩
          simp [classes, Leaf.licenseClass, known]
    · rw [if_neg marked] at returned
      cases returned
      exact ⟨[token], _, rfl, .license free, rfl⟩

theorem atom_sound (depth : Nat) : Sound (atom depth) (Atom fun _ => True) classes := by
  induction depth with
  | zero => exact fun tokens result rest returned => nomatch returned
  | succ depth ih =>
    intro tokens result rest returned
    cases tokens with
    | nil => cases returned
    | cons token tokens =>
      rw [atom] at returned
      by_cases opening : token = text "("
      · rw [if_pos opening] at returned
        obtain ⟨⟨inner, later⟩, run, returned⟩ := bind_eq_ok returned
        have sound := (ih.chain (text "AND") classes_append).chain (text "OR") classes_append
        obtain ⟨part, leaves, rfl, _, chained, rfl⟩ := sound tokens inner later run
        cases later with
        | nil => cases returned
        | cons closing later =>
          by_cases closes : closing = text ")"
          · simp only [closes, ne_eq, not_true_eq_false, if_false] at returned
            cases returned
            refine ⟨_, leaves, ?_, List.cons_ne_nil _ _, .nested chained, rfl⟩
            simp [opening, closes]
          · simp only [closes, ne_eq, not_false_eq_true, if_true] at returned
            cases returned
      · rw [if_neg opening] at returned
        by_cases wrong : token ∈ [text "AND", text "OR", text "WITH", text ")"]
        · rw [if_pos wrong] at returned
          cases returned
        · rw [if_neg wrong] at returned
          have free : token ∉ reserved := by
            simp only [reserved, List.mem_cons, List.not_mem_nil, or_false, not_or] at wrong ⊢
            exact ⟨opening, wrong.2.2.2, wrong.1, wrong.2.1, wrong.2.2.1⟩
          obtain ⟨part, leaves, split, holds, same⟩ := identified_sound free returned
          exact ⟨part, leaves, split, holds.nonempty, holds, same⟩

def Ended (rest : List Text) : Prop := rest.head? ≠ some (text "WITH")

theorem identified_plain {token : Text} {rest : List Text} (ended : Ended rest) :
    identified token rest = .ok ({registered token}, rest) := by
  cases rest with
  | nil => rfl
  | cons next rest =>
    have other : next ≠ text "WITH" := fun same => ended (by rw [List.head?_cons, same])
    simp only [identified, if_neg other]

theorem identified_exception {token exception : Text} {rest : List Text} :
    identified token (text "WITH" :: exception :: rest) =
      .ok ({(Leaf.mk token (some exception)).licenseClass}, rest) := by
  simp only [identified, if_true, Leaf.licenseClass]
  by_cases known : exception = text "Linux-syscall-note" ∧ token ∈ syscallLicenses
  · rw [if_neg (by rwa [not_or, not_not, not_not]), if_pos known]
  · rw [if_pos (not_and_or.mp known), if_neg known]

theorem atom_identified {token : Text} (free : token ∉ reserved) (rest : List Text) :
    atom (depth + 1) (token :: rest) = identified token rest := by
  simp only [reserved, List.mem_cons, List.not_mem_nil, or_false, not_or] at free
  obtain ⟨opening, closing, conjunct, disjunct, marked⟩ := free
  rw [atom, if_neg opening, if_neg]
  simp [conjunct, disjunct, marked, closing]

theorem atom_complete (depth : Nat) :
    Complete (atom depth) (Atom fun _ => True) classes Ended depth := by
  induction depth with
  | zero =>
    intro part found small holds
    exact absurd (List.length_eq_zero_iff.mp (Nat.le_zero.mp small)) holds.nonempty
  | succ depth ih =>
    intro part found small holds rest ended
    cases holds with
    | license free =>
      rw [List.singleton_append, atom_identified free, identified_plain ended]
      rfl
    | exception free _ =>
      rw [List.cons_append, atom_identified free, List.cons_append, List.cons_append,
        identified_exception]
      rfl
    | @nested tokens _ chained =>
      rw [List.length_append, List.length_cons, List.length_singleton] at small
      have conjuncts := ih.chain (text "AND") (atom_sound depth) classes_append
        (fun rest => by simp only [Ended, List.head?_cons]; decide)
      have whole := conjuncts.chain (text "OR") ((atom_sound depth).chain _ classes_append)
        classes_append (fun rest => by simp only [Ended, List.head?_cons]; decide)
      have run := whole _ _ (by omega) chained (text ")" :: rest)
        (by simp only [Ended, List.head?_cons]; decide)
      have split : text "(" :: tokens ++ [text ")"] ++ rest =
          text "(" :: (tokens ++ text ")" :: rest) := by simp
      rw [split, atom, if_pos rfl, run]
      rfl

theorem disjunction_complete (depth : Nat) :
    Complete (disjunction depth) (Disjunction fun _ => True) classes
      (fun rest => (Ended rest ∧ rest.head? ≠ some (text "AND")) ∧ rest.head? ≠ some (text "OR"))
      depth :=
  ((atom_complete depth).chain _ (atom_sound depth) classes_append
    (fun rest => by simp only [Ended, List.head?_cons]; decide)).chain _
    ((atom_sound depth).chain _ classes_append) classes_append
    (fun rest => by simp only [Ended, List.head?_cons]; decide)

theorem disjunction_sound (depth : Nat) :
    Sound (disjunction depth) (Disjunction fun _ => True) classes :=
  ((atom_sound depth).chain _ classes_append).chain _ classes_append

theorem disjunction_iff {result : Finset LicenseClass} :
    disjunction (tokens.length + 1) tokens = .ok (result, []) ↔
      ∃ leaves, Disjunction (fun _ => True) tokens leaves ∧ classes leaves = result := by
  constructor
  · intro returned
    obtain ⟨part, leaves, split, _, holds, same⟩ := disjunction_sound _ _ _ _ returned
    rw [List.append_nil] at split
    exact ⟨leaves, split ▸ holds, same⟩
  · rintro ⟨leaves, holds, rfl⟩
    have run := disjunction_complete (tokens.length + 1) tokens leaves (Nat.le_succ _) holds []
      (by simp [Ended])
    rwa [List.append_nil] at run

end

theorem Disjunction.rule {excepting : Text → Prop} (good : List Text → List Leaf → Prop)
    (license : ∀ identifier, identifier ∉ reserved → good [identifier] [⟨identifier, none⟩])
    (exception : ∀ identifier exception, identifier ∉ reserved → excepting exception →
      good [identifier, text "WITH", exception] [⟨identifier, some exception⟩])
    (nested : ∀ tokens leaves, good tokens leaves → good (text "(" :: tokens ++ [text ")"]) leaves)
    (join : ∀ keyword ∈ keywords, ∀ before earlier part found, good before earlier →
      good part found → good (before ++ keyword :: part) (earlier ++ found))
    (disjunction : Disjunction excepting tokens leaves) : good tokens leaves := by
  have atoms : ∀ bound tokens leaves, tokens.length ≤ bound → Atom excepting tokens leaves →
      good tokens leaves := by
    intro bound
    induction bound with
    | zero =>
      intro tokens leaves small holds
      exact absurd (List.length_eq_zero_iff.mp (Nat.le_zero.mp small)) holds.nonempty
    | succ bound ih =>
      intro tokens leaves small holds
      cases holds with
      | license free => exact license _ free
      | exception free other => exact exception _ _ free other
      | @nested tokens _ chained =>
        rw [List.length_append, List.length_cons, List.length_singleton] at small
        refine nested _ _ (chained.within (fun part found short conjunction => ?_)
          (join _ (by decide)) (by omega : tokens.length ≤ bound))
        exact conjunction.within ih (join _ (by decide)) short
  exact disjunction.within
    (fun part found short conjunction => conjunction.within (atoms _) (join _ (by decide)) short)
    (join _ (by decide)) (Nat.le_refl _)

theorem Disjunction.nonempty {excepting : Text → Prop}
    (disjunction : Disjunction excepting tokens leaves) : tokens ≠ [] ∧ leaves ≠ [] := by
  refine disjunction.rule (fun tokens leaves => tokens ≠ [] ∧ leaves ≠ []) ?_ ?_ ?_ ?_ <;>
    simp_all

section

variable {expression other : Text} {leaves leaves' : List Leaf} {worst : LicenseClass}

theorem mem_classes {licenseClass : LicenseClass} :
    licenseClass ∈ classes leaves ↔ ∃ leaf ∈ leaves, leaf.licenseClass = licenseClass := by
  simp [classes]

theorem worst_worstClass (some : leaves ≠ []) : Worst leaves (worstClass (classes leaves)) := by
  obtain ⟨first, member⟩ := List.exists_mem_of_ne_nil leaves some
  obtain ⟨inside, above⟩ :=
    worstClass_worst (classes leaves) ⟨_, mem_classes.mpr ⟨first, member, rfl⟩⟩
  exact ⟨mem_classes.mp inside, fun leaf member => above _ (mem_classes.mpr ⟨leaf, member, rfl⟩)⟩

theorem Worst.unique (first : Worst leaves worst) {second : LicenseClass}
    (other : Worst leaves second) : worst = second := by
  obtain ⟨⟨leaf, member, rfl⟩, above⟩ := first
  obtain ⟨⟨leaf', member', rfl⟩, above'⟩ := other
  have below := above leaf' member'
  have below' := above' leaf member
  revert below below'
  cases leaf.licenseClass <;> cases leaf'.licenseClass <;> decide

theorem licenseClass_sentence (sentence : Sentence (fun _ => True) expression leaves) :
    Worst leaves (licenseClass expression) := by
  obtain ⟨tokens, spelled, disjunction⟩ := sentence
  obtain ⟨found, whole⟩ := spelled_iff.mp spelled
  obtain ⟨some, someLeaf⟩ := disjunction.nonempty
  have run := disjunction_iff.mpr ⟨leaves, disjunction, rfl⟩
  simp only [licenseClass]
  rw [found, if_neg (by rw [not_or, not_not]; exact ⟨some, whole⟩), run]
  exact worst_worstClass someLeaf

theorem exists_sentence (known : licenseClass expression ≠ .unknown) :
    ∃ leaves, Sentence (fun _ => True) expression leaves := by
  simp only [licenseClass] at known
  by_cases bad : findTokens expression = [] ∨
      (findTokens expression).flatten ≠ squeeze expression
  · rw [if_pos bad] at known
    exact absurd rfl known
  · rw [if_neg bad] at known
    cases run : disjunction ((findTokens expression).length + 1) (findTokens expression) with
    | error failure =>
      rw [run] at known
      exact absurd rfl known
    | ok returned =>
      obtain ⟨classes, rest⟩ := returned
      rw [run] at known
      by_cases more : rest ≠ []
      · exact absurd (if_pos more) known
      · rw [not_not] at more
        rw [more] at run
        obtain ⟨leaves, disjunction, _⟩ := disjunction_iff.mp run
        rw [not_or, not_not] at bad
        exact ⟨leaves, _, spelled_iff.mpr ⟨rfl, bad.2⟩, disjunction⟩

/-- The class is not unknown exactly for the sentences whose worst leaf is registered, and is then
that of the worst leaf; it does not depend on the order or the nesting of the operands. -/
theorem license_class (expression : Text) :
    (∀ worst, worst ≠ .unknown → (licenseClass expression = worst ↔
      ∃ leaves, Sentence (fun _ => True) expression leaves ∧ Worst leaves worst)) ∧
    (∀ leaves, Sentence (fun _ => True) expression leaves →
      Worst leaves (licenseClass expression) ∧
        ∀ other leaves', Sentence (fun _ => True) other leaves' →
          (∀ leaf, leaf ∈ leaves' ↔ leaf ∈ leaves) →
            licenseClass other = licenseClass expression) := by
  constructor
  · intro worst known
    constructor
    · rintro rfl
      obtain ⟨leaves, sentence⟩ := exists_sentence known
      exact ⟨leaves, sentence, licenseClass_sentence sentence⟩
    · rintro ⟨leaves, sentence, isWorst⟩
      exact (licenseClass_sentence sentence).unique isWorst
  · intro leaves sentence
    refine ⟨licenseClass_sentence sentence, ?_⟩
    intro other leaves' sentence' same
    have worst := licenseClass_sentence sentence'
    have here : Worst leaves (licenseClass other) := by
      obtain ⟨leaf, member, kind⟩ := worst.1
      exact ⟨⟨leaf, (same leaf).mp member, kind⟩,
        fun leaf member => worst.2 leaf ((same leaf).mpr member)⟩
    exact here.unique (licenseClass_sentence sentence)

theorem Disjunction.balanced {tokens : List Text}
    (disjunction : Disjunction (· ∉ reserved) tokens leaves) :
    tokens.count (text "(") = tokens.count (text ")") := by
  have plain : ∀ token, token ∉ reserved →
      [token].count (text "(") = 0 ∧ [token].count (text ")") = 0 := by
    intro token free
    rw [List.count_eq_zero, List.count_eq_zero, List.mem_singleton, List.mem_singleton]
    exact ⟨fun same => free (by rw [← same]; decide), fun same => free (by rw [← same]; decide)⟩
  refine disjunction.rule
    (fun tokens _ => tokens.count (text "(") = tokens.count (text ")")) ?_ ?_ ?_ ?_
  · intro identifier free
    rw [(plain identifier free).1, (plain identifier free).2]
  · intro identifier exception free other
    have split : [identifier, text "WITH", exception] =
        [identifier] ++ [text "WITH"] ++ [exception] := rfl
    simp only [split, List.count_append, plain identifier free, plain exception other]
    decide
  · intro tokens leaves balanced
    simp only [List.count_append, List.count_cons, balanced]
    have apart : (text "(" == text ")") = false ∧ (text ")" == text "(") = false := by decide
    simp [apart]
  · intro keyword member before earlier part found balanced balanced'
    have apart : ∀ keyword ∈ keywords, (keyword == text "(") = false ∧
        (keyword == text ")") = false := by
      decide
    simp only [List.count_append, List.count_cons, balanced, balanced', apart keyword member]

/-- Any token is read as an exception, a parenthesis too: `CC-BY-NC-4.0 AND MIT WITH (`. -/
theorem exception_is_any_token :
    ¬ ∀ expression, licenseClass expression ≠ .unknown ↔ ∃ leaves worst,
      Sentence (· ∉ reserved) expression leaves ∧ Worst leaves worst ∧ worst ≠ .unknown := by
  intro claimed
  have known : licenseClass (text "CC-BY-NC-4.0 AND MIT WITH (") = .restricted := by
    decide +kernel
  obtain ⟨leaves, worst, ⟨tokens, spelled, disjunction⟩, _⟩ :=
    (claimed (text "CC-BY-NC-4.0 AND MIT WITH (")).mp (by rw [known]; decide)
  have balanced := disjunction.balanced
  rw [← (spelled_iff.mp spelled).1] at balanced
  revert balanced
  decide +kernel

end

end SparseLab.Corpus.Spdx
