import Mathlib.Data.List.DropRight
import Mathlib.Data.List.Infix

/-! Padding, stripping and cutting of texts over any alphabet. -/

namespace SparseLab.Library

abbrev Text := List Nat

instance lawfulText : LawfulBEq Text := inferInstance

def text (literal : String) : Text := literal.toList.map Char.toNat

/-- White space as `str.isspace` has it. -/
def whiteSpace (code : Nat) : Bool :=
  (0x09 ≤ code && code ≤ 0x0d) || (0x1c ≤ code && code ≤ 0x20) || code = 0x85 || code = 0xa0 ||
    code = 0x1680 || (0x2000 ≤ code && code ≤ 0x200a) || code = 0x2028 || code = 0x2029 ||
    code = 0x202f || code = 0x205f || code = 0x3000

variable {α : Type*}

/-- `separator.join(pieces)` -/
def joined (separator : List α) : List (List α) → List α
  | [] => []
  | [piece] => piece
  | piece :: pieces => piece ++ separator ++ joined separator pieces

theorem joined_cons (separator piece : List α) {pieces : List (List α)} (more : pieces ≠ []) :
    joined separator (piece :: pieces) = piece ++ separator ++ joined separator pieces := by
  cases pieces with
  | nil => exact absurd rfl more
  | cons next pieces => rfl

theorem joined_append (separator : List α) (pieces : List (List α)) {later : List (List α)}
    (more : later ≠ []) :
    joined separator (pieces ++ later) =
      (pieces.flatMap fun piece => piece ++ separator) ++ joined separator later := by
  induction pieces with
  | nil => rfl
  | cons piece pieces ih =>
    rw [List.cons_append, joined_cons separator piece (by simp [more]), ih, List.flatMap_cons]
    simp only [List.append_assoc]

theorem joined_eq (separator piece : List α) (pieces : List (List α)) :
    joined separator (piece :: pieces) =
      piece ++ pieces.flatMap fun later => separator ++ later := by
  induction pieces generalizing piece with
  | nil => simp [joined]
  | cons next pieces ih =>
    rw [joined_cons separator piece (List.cons_ne_nil _ _), ih, List.flatMap_cons]
    simp only [List.append_assoc]

section

variable (space : α → Bool)

def strip (letters : List α) : List α := (letters.dropWhile space).rdropWhile space

variable {space}

theorem dropWhile_eq_nil {letters : List α} :
    letters.dropWhile space = [] ↔ ∀ letter ∈ letters, space letter := by
  rw [List.dropWhile_eq_nil_iff]

theorem dropWhile_append_of_space {before letters : List α}
    (padding : ∀ letter ∈ before, space letter) :
    (before ++ letters).dropWhile space = letters.dropWhile space := by
  induction before with
  | nil => rfl
  | cons letter before ih =>
    rw [List.cons_append, List.dropWhile_cons_of_pos (padding letter List.mem_cons_self)]
    exact ih fun later member => padding later (List.mem_cons_of_mem _ member)

theorem rdropWhile_append_of_space {letters after : List α}
    (padding : ∀ letter ∈ after, space letter) :
    (letters ++ after).rdropWhile space = letters.rdropWhile space := by
  unfold List.rdropWhile
  rw [List.reverse_append, dropWhile_append_of_space]
  intro letter member
  exact padding letter (List.mem_reverse.mp member)

theorem head_not_space {letters rest : List α} {letter : α}
    (kept : (letter :: rest).dropWhile space = letters) (same : letters = letter :: rest) :
    ¬ space letter := by
  intro blank
  have shorter := (List.dropWhile_suffix space (l := rest)).length_le
  rw [List.dropWhile_cons_of_pos blank] at kept
  rw [kept, same, List.length_cons] at shorter
  omega

theorem dropWhile_strip (letters : List α) :
    (strip space letters).dropWhile space = strip space letters := by
  unfold strip
  cases kept : letters.dropWhile space with
  | nil => rfl
  | cons letter rest =>
    have again := List.dropWhile_idempotent space letters
    rw [kept] at again
    have first := head_not_space again rfl
    obtain ⟨cutOff, same⟩ := List.rdropWhile_prefix space (letter :: rest)
    cases stripped : (letter :: rest).rdropWhile space with
    | nil => rfl
    | cons head tail =>
      rw [stripped, List.cons_append] at same
      injection same with same
      rw [same, List.dropWhile_cons_of_neg first]

theorem rdropWhile_strip (letters : List α) :
    (strip space letters).rdropWhile space = strip space letters :=
  List.rdropWhile_idempotent space _

theorem strip_pad {before after : List α} (letters : List α)
    (left : ∀ letter ∈ before, space letter) (right : ∀ letter ∈ after, space letter) :
    strip space (before ++ strip space letters ++ after) = strip space letters := by
  rw [strip, List.append_assoc, dropWhile_append_of_space left]
  by_cases empty : strip space letters = []
  · rw [empty, List.nil_append, dropWhile_eq_nil.mpr right]
    rfl
  · have kept : (strip space letters ++ after).dropWhile space = strip space letters ++ after := by
      have start : (strip space letters).dropWhile space = _ := dropWhile_strip letters
      cases stripped : strip space letters with
      | nil => exact absurd stripped empty
      | cons head tail =>
        rw [stripped] at start
        rw [List.cons_append, List.dropWhile_cons_of_neg (head_not_space start rfl)]
    rw [kept, rdropWhile_append_of_space right, rdropWhile_strip]

theorem strip_eq_nil {letters : List α} :
    strip space letters = [] ↔ ∀ letter ∈ letters, space letter := by
  constructor
  · intro empty
    rw [strip, List.rdropWhile_eq_nil_iff] at empty
    rw [← dropWhile_eq_nil]
    by_contra kept
    have first := List.head_dropWhile_not space kept
    rw [empty _ (List.head_mem kept)] at first
    cases first
  · intro blank
    rw [strip, dropWhile_eq_nil.mpr blank]
    rfl

end

/-- `not content.strip()` -/
def blank (content : Text) : Bool := (strip whiteSpace content).isEmpty

section

variable {marker letters rest : List α} {first : α}

theorem prefix_of_prefix_append {later : List α} (once : first ∉ later)
    (nonempty : letters ≠ []) (starts : first :: later <+: letters ++ first :: rest) :
    first :: later <+: letters := by
  rcases List.prefix_or_prefix_of_prefix starts (List.prefix_append letters _) with
    inside | ⟨excess, same⟩
  · exact inside
  · cases excess with
    | nil => exact ⟨[], by simpa using same.symm⟩
    | cons letter excess =>
      rw [← same, List.prefix_append_right_inj, List.cons_prefix_cons] at starts
      cases letters with
      | nil => exact absurd rfl nonempty
      | cons head tail =>
        rw [List.cons_append] at same
        injection same with _ same
        rw [← same, ← starts.1] at once
        exact absurd (List.mem_append_right _ List.mem_cons_self) once

variable [DecidableEq α]

/-- `text.split(marker, 1)[0]` -/
def cut (marker : List α) : List α → List α
  | [] => []
  | letter :: rest =>
    if marker.isPrefixOf (letter :: rest) then [] else letter :: cut marker rest

theorem cut_eq_self (absent : ¬ marker <:+: letters) : cut marker letters = letters := by
  induction letters with
  | nil => rfl
  | cons letter later ih =>
    have here : ¬ marker <+: letter :: later := fun starts => absent starts.isInfix
    have after : ¬ marker <:+: later := fun inside =>
      absent (inside.trans (List.suffix_cons letter later).isInfix)
    rw [cut, if_neg (by rwa [List.isPrefixOf_iff_prefix]), ih after]

theorem cut_at (marker rest : List α) (nonempty : marker ≠ []) : cut marker (marker ++ rest) = [] := by
  cases marker with
  | nil => exact absurd rfl nonempty
  | cons letter later =>
    rw [List.cons_append, cut, if_pos]
    rw [List.isPrefixOf_iff_prefix, ← List.cons_append]
    exact List.prefix_append _ _

theorem cut_append {later : List α} (once : first ∉ later)
    (absent : ¬ first :: later <:+: letters) :
    cut (first :: later) (letters ++ first :: rest) =
      letters ++ cut (first :: later) (first :: rest) := by
  induction letters with
  | nil => rfl
  | cons letter letters ih =>
    have here : ¬ first :: later <+: letter :: (letters ++ first :: rest) := by
      intro starts
      have inside : _ <+: letter :: letters := prefix_of_prefix_append once
        (List.cons_ne_nil _ _) starts
      exact absent inside.isInfix
    have after : ¬ first :: later <:+: letters := fun inside =>
      absent (inside.trans (List.suffix_cons letter letters).isInfix)
    rw [List.cons_append, cut, if_neg (by rwa [List.isPrefixOf_iff_prefix]), ih after,
      List.cons_append]

end

end SparseLab.Library
