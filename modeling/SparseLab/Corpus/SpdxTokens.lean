import SparseLab.Library.Texts

/-! The tokens of an SPDX expression, from `corpus/rights.py`. -/

namespace SparseLab.Corpus.Spdx

open Library

/-- `[A-Za-z0-9]` -/
def wordStart (code : Nat) : Bool :=
  (0x30 ≤ code && code ≤ 0x39) || (0x41 ≤ code && code ≤ 0x5a) || (0x61 ≤ code && code ≤ 0x7a)

/-- `[A-Za-z0-9.\-+]` -/
def wordPart (code : Nat) : Bool := wordStart code || code = 0x2b || code = 0x2d || code = 0x2e

/-- `\w` with the flag `re.ASCII` -/
def wordLetter (code : Nat) : Bool := wordStart code || code = 0x5f

def parenthesis (code : Nat) : Bool := code = 0x28 || code = 0x29

def keywords : List Text := [text "AND", text "OR", text "WITH"]

/-- `\b` behind a keyword -/
def boundary (rest : Text) : Bool := !rest.head?.any wordLetter

def keywordAt (letters keyword : Text) : Bool :=
  keyword.isPrefixOf letters && boundary (letters.drop keyword.length)

/-- A match of `_TOKEN` at the start of the letters, and the letters behind it. -/
def tokenAt (letters : Text) : Option (Text × Text) :=
  match letters with
  | [] => none
  | letter :: rest =>
    if parenthesis letter then some ([letter], rest)
    else
      match keywords.find? (keywordAt letters) with
      | some keyword => some (keyword, letters.drop keyword.length)
      | none =>
        if wordStart letter then some (letters.takeWhile wordPart, letters.dropWhile wordPart)
        else none

/-- `_TOKEN.findall`: a letter where no match starts is passed over. -/
def findFrom : Nat → Text → List Text
  | 0, _ => []
  | _ + 1, [] => []
  | fuel + 1, letter :: rest =>
    match tokenAt (letter :: rest) with
    | some (token, after) => token :: findFrom fuel after
    | none => findFrom fuel rest

def findTokens (expression : Text) : List Text := findFrom expression.length expression

/-- `re.sub(r"\s+", "", expression)` -/
def squeeze (expression : Text) : Text := expression.filter fun code => !whiteSpace code

structure Identifier (word : Text) : Prop where
  starts : word.head?.any wordStart
  letters : ∀ letter ∈ word, wordPart letter
  plain : ∀ keyword ∈ keywords, keywordAt word keyword = false

def Word (word : Text) : Prop := word ∈ keywords ∨ Identifier word

inductive Spelled : Text → List Text → Prop
  | done : Spelled [] []
  | space {letter : Nat} {letters : Text} {tokens : List Text} : whiteSpace letter →
      Spelled letters tokens → Spelled (letter :: letters) tokens
  | around {letter : Nat} {letters : Text} {tokens : List Text} : parenthesis letter →
      Spelled letters tokens → Spelled (letter :: letters) ([letter] :: tokens)
  | word {word letters : Text} {tokens : List Text} : Word word →
      (∀ letter ∈ letters.head?, wordPart letter = false) →
      Spelled letters tokens → Spelled (word ++ letters) (word :: tokens)

section

variable {letter : Nat} {letters word rest : Text} {tokens : List Text}

theorem wordPart_of_start (starts : wordStart letter) : wordPart letter := by
  simp [wordPart, starts]

theorem not_space_of_part (part : wordPart letter) : whiteSpace letter = false := by
  simp only [wordPart, wordStart, Bool.or_eq_true, Bool.and_eq_true, decide_eq_true_eq] at part
  simp only [whiteSpace, Bool.or_eq_false_iff, Bool.and_eq_false_iff, decide_eq_false_iff_not]
  omega

theorem not_space_of_parenthesis (around : parenthesis letter) : whiteSpace letter = false := by
  simp only [parenthesis, Bool.or_eq_true, decide_eq_true_eq] at around
  rcases around with rfl | rfl <;> decide

theorem not_parenthesis_of_start (starts : wordStart letter) : parenthesis letter = false := by
  simp only [wordStart, Bool.or_eq_true, Bool.and_eq_true, decide_eq_true_eq] at starts
  simp only [parenthesis, Bool.or_eq_false_iff, decide_eq_false_iff_not]
  omega

theorem keyword_letters : ∀ keyword ∈ keywords,
    keyword.head?.any wordStart ∧ ∀ letter ∈ keyword, wordPart letter := by
  decide

theorem Word.starts (isWord : Word word) : ∃ letter rest, word = letter :: rest ∧ wordStart letter := by
  have first : word.head?.any wordStart := by
    rcases isWord with keyword | identifier
    · exact (keyword_letters word keyword).1
    · exact identifier.starts
  cases word with
  | nil => cases first
  | cons letter rest => exact ⟨letter, rest, rfl, first⟩

theorem Word.parts (isWord : Word word) : ∀ letter ∈ word, wordPart letter := by
  rcases isWord with keyword | identifier
  · exact (keyword_letters word keyword).2
  · exact identifier.letters

theorem Spelled.head (spelled : Spelled (letter :: letters) tokens) :
    whiteSpace letter ∨ parenthesis letter ∨ wordStart letter := by
  generalize same : letter :: letters = all at spelled
  cases spelled with
  | done => cases same
  | space blank _ =>
    cases same
    exact .inl blank
  | around brackets _ =>
    cases same
    exact .inr (.inl brackets)
  | word isWord _ _ =>
    obtain ⟨first, rest, rfl, starts⟩ := isWord.starts
    cases same
    exact .inr (.inr starts)

theorem Spelled.boundary_iff (spelled : Spelled letters tokens) :
    boundary letters = true ↔ ∀ letter ∈ letters.head?, wordPart letter = false := by
  cases letters with
  | nil => simp [boundary]
  | cons letter letters =>
    have first := spelled.head
    simp only [boundary, List.head?_cons, Option.any_some, Option.mem_def, Option.some.injEq,
      forall_eq', Bool.not_eq_true', wordLetter, wordPart]
    simp only [whiteSpace, Spdx.parenthesis, wordStart, Bool.or_eq_true, Bool.and_eq_true,
      decide_eq_true_eq, Bool.or_eq_false_iff, Bool.and_eq_false_iff,
      decide_eq_false_iff_not] at first ⊢
    omega

end

section

variable {letter : Nat} {letters word rest after keyword : Text} {tokens : List Text}

theorem keywordAt_append : keywordAt (keyword ++ rest) keyword = boundary rest := by
  simp [keywordAt]

theorem keyword_unique {other : Text} (member : keyword ∈ keywords) (otherMember : other ∈ keywords)
    (here : keyword <+: letters) (otherHere : other <+: letters) : keyword = other := by
  have apart : ∀ first ∈ keywords, ∀ second ∈ keywords, first <+: second → first = second := by
    decide
  rcases List.prefix_or_prefix_of_prefix here otherHere with first | second
  · exact apart keyword member other otherMember first
  · exact (apart other otherMember keyword member second).symm

theorem starts_of_keywordAt (member : keyword ∈ keywords)
    (here : keywordAt (letter :: rest) keyword = true) : wordStart letter := by
  rw [keywordAt, Bool.and_eq_true, List.isPrefixOf_iff_prefix] at here
  have first := (keyword_letters keyword member).1
  cases keyword with
  | nil => cases first
  | cons code codes =>
    have same := (List.cons_prefix_cons.mp here.1).1
    rw [← same]
    exact first

theorem find_eq_none (outside : wordStart letter = false) :
    keywords.find? (keywordAt (letter :: rest)) = none := by
  rw [List.find?_eq_none]
  intro keyword member here
  rw [starts_of_keywordAt member here] at outside
  cases outside

theorem tokenAt_space (blank : whiteSpace letter) : tokenAt (letter :: rest) = none := by
  have outside : wordStart letter = false := by
    by_contra starts
    rw [Bool.not_eq_false] at starts
    rw [not_space_of_part (wordPart_of_start starts)] at blank
    cases blank
  have bare : parenthesis letter = false := by
    by_contra around
    rw [Bool.not_eq_false] at around
    rw [not_space_of_parenthesis around] at blank
    cases blank
  simp only [tokenAt, bare, outside, find_eq_none outside, Bool.false_eq_true, if_false]

theorem tokenAt_parenthesis (around : parenthesis letter) :
    tokenAt (letter :: rest) = some ([letter], rest) := by
  simp only [tokenAt, around, if_true]

theorem tokenAt_keyword (member : keyword ∈ keywords) (ends : boundary rest = true) :
    tokenAt (keyword ++ rest) = some (keyword, rest) := by
  have found : keywords.find? (keywordAt (keyword ++ rest)) = some keyword := by
    cases search : keywords.find? (keywordAt (keyword ++ rest)) with
    | none =>
      have missed := List.find?_eq_none.mp search keyword member
      rw [keywordAt_append, ends] at missed
      exact absurd rfl missed
    | some other =>
      have here := List.find?_some search
      rw [keywordAt, Bool.and_eq_true, List.isPrefixOf_iff_prefix] at here
      rw [keyword_unique member (List.mem_of_find?_eq_some search) (List.prefix_append _ _) here.1]
  obtain ⟨letter, letters, same, starts⟩ := Word.starts (.inl member)
  subst same
  rw [List.cons_append] at found ⊢
  simp only [tokenAt, not_parenthesis_of_start starts, found, Bool.false_eq_true, if_false]
  simp

theorem Identifier.no_keyword (identifier : Identifier word)
    (ends : ∀ letter ∈ rest.head?, wordPart letter = false) :
    keywords.find? (keywordAt (word ++ rest)) = none := by
  rw [List.find?_eq_none]
  intro keyword member here
  have plain := identifier.plain keyword member
  rw [keywordAt, Bool.and_eq_true, List.isPrefixOf_iff_prefix] at here
  obtain ⟨here, ending⟩ := here
  have inside : keyword <+: word := by
    rcases List.prefix_or_prefix_of_prefix here (List.prefix_append word rest) with inside | outside
    · exact inside
    · obtain ⟨more, rfl⟩ := outside
      cases more with
      | nil => rw [List.append_nil]
      | cons code codes =>
        rw [List.prefix_append_right_inj] at here
        cases rest with
        | nil => simp at here
        | cons first rest =>
          have same := (List.cons_prefix_cons.mp here).1
          have part := (keyword_letters _ member).2 code (by simp)
          rw [same, ends first rfl] at part
          cases part
  obtain ⟨more, rfl⟩ := inside
  rw [keywordAt_append] at plain
  rw [List.append_assoc, List.drop_left] at ending
  cases more with
  | nil => cases plain
  | cons code codes =>
    simp only [boundary, List.cons_append, List.head?_cons] at plain ending
    rw [ending] at plain
    cases plain

theorem takeWhile_parts (parts : ∀ letter ∈ word, wordPart letter)
    (ends : ∀ letter ∈ rest.head?, wordPart letter = false) :
    (word ++ rest).takeWhile wordPart = word ∧ (word ++ rest).dropWhile wordPart = rest := by
  rw [List.takeWhile_append_of_pos parts, List.dropWhile_append_of_pos parts]
  cases rest with
  | nil => simp
  | cons letter rest =>
    have outside : ¬ wordPart letter = true := by simp [ends letter rfl]
    rw [List.takeWhile_cons_of_neg outside, List.dropWhile_cons_of_neg outside]
    simp

theorem tokenAt_word (isWord : Word word) (spelled : Spelled rest tokens)
    (ends : ∀ letter ∈ rest.head?, wordPart letter = false) :
    tokenAt (word ++ rest) = some (word, rest) := by
  rcases isWord with keyword | identifier
  · exact tokenAt_keyword keyword (spelled.boundary_iff.mpr ends)
  · have found := identifier.no_keyword ends
    have split := takeWhile_parts identifier.letters ends
    obtain ⟨letter, letters, rfl, starts⟩ := Word.starts (.inr identifier)
    rw [List.cons_append] at found split ⊢
    simp only [tokenAt, not_parenthesis_of_start starts, found, starts, split, Bool.false_eq_true,
      if_false, if_true]

theorem tokenAt_some {token : Text} (found : tokenAt letters = some (token, after)) :
    letters = token ++ after ∧ token ≠ [] ∧
      ((∃ letter, parenthesis letter ∧ token = [letter]) ∨
        (token ∈ keywords ∧ boundary after = true) ∨
        (Word token ∧ ∀ letter ∈ after.head?, wordPart letter = false)) := by
  cases letters with
  | nil => cases found
  | cons letter rest =>
    rw [tokenAt] at found
    by_cases around : parenthesis letter
    · rw [if_pos around] at found
      cases found
      exact ⟨rfl, List.cons_ne_nil _ _, .inl ⟨letter, around, rfl⟩⟩
    · rw [if_neg around] at found
      cases search : keywords.find? (keywordAt (letter :: rest)) with
      | some keyword =>
        rw [search] at found
        cases found
        have member := List.mem_of_find?_eq_some search
        have here := List.find?_some search
        rw [keywordAt, Bool.and_eq_true, List.isPrefixOf_iff_prefix] at here
        obtain ⟨⟨after, whole⟩, ending⟩ := here
        rw [← whole, List.drop_left] at ending ⊢
        obtain ⟨code, codes, same, _⟩ := Word.starts (.inl member)
        exact ⟨rfl, by rw [same]; exact List.cons_ne_nil _ _, .inr (.inl ⟨member, ending⟩)⟩
      | none =>
        rw [search] at found
        by_cases starts : wordStart letter
        · simp only [starts, if_true] at found
          cases found
          have first : (letter :: rest).takeWhile wordPart =
              letter :: rest.takeWhile wordPart :=
            List.takeWhile_cons_of_pos (wordPart_of_start starts)
          have ends : ∀ code ∈ ((letter :: rest).dropWhile wordPart).head?,
              wordPart code = false := by
            intro code member
            have outside := List.head?_dropWhile_not wordPart (letter :: rest)
            rw [Option.mem_def.mp member] at outside
            exact outside
          refine ⟨List.takeWhile_append_dropWhile.symm, by rw [first]; exact List.cons_ne_nil _ _,
            .inr (.inr ⟨?_, ends⟩)⟩
          by_cases keyword : (letter :: rest).takeWhile wordPart ∈ keywords
          · exact .inl keyword
          · refine .inr ⟨by rw [first]; exact starts, fun code => List.mem_takeWhile_imp, ?_⟩
            intro other member
            by_contra here
            rw [Bool.not_eq_false, keywordAt, Bool.and_eq_true,
              List.isPrefixOf_iff_prefix] at here
            obtain ⟨⟨more, whole⟩, ending⟩ := here
            rw [← whole, List.drop_left] at ending
            cases more with
            | nil =>
              rw [List.append_nil] at whole
              exact keyword (whole ▸ member)
            | cons code codes =>
              refine List.find?_eq_none.mp search other member ?_
              rw [← List.takeWhile_append_dropWhile (p := wordPart) (l := letter :: rest),
                ← whole, List.append_assoc, keywordAt_append]
              exact ending
        · simp only [starts, Bool.false_eq_true, if_false] at found
          cases found

end

section

variable {expression letters : Text} {tokens : List Text} {fuel : Nat}

theorem squeeze_append (first second : Text) :
    squeeze (first ++ second) = squeeze first ++ squeeze second :=
  List.filter_append _ _

theorem squeeze_parts {word : Text} (solid : ∀ letter ∈ word, whiteSpace letter = false) :
    squeeze word = word := by
  rw [squeeze, List.filter_eq_self]
  intro letter member
  rw [solid letter member]
  rfl

theorem squeeze_token {token after : Text} (found : tokenAt letters = some (token, after)) :
    squeeze letters = token ++ squeeze after := by
  obtain ⟨rfl, _, kind⟩ := tokenAt_some found
  rw [squeeze_append, squeeze_parts]
  rcases kind with ⟨letter, around, rfl⟩ | ⟨member, _⟩ | ⟨isWord, _⟩
  · intro code member
    rw [List.mem_singleton.mp member]
    exact not_space_of_parenthesis around
  · exact fun code inside => not_space_of_part ((keyword_letters _ member).2 code inside)
  · exact fun code inside => not_space_of_part (isWord.parts code inside)

theorem flatten_le (fuel : Nat) (letters : Text) :
    (findFrom fuel letters).flatten.length ≤ (squeeze letters).length := by
  induction fuel generalizing letters with
  | zero => exact Nat.zero_le _
  | succ fuel ih =>
    cases letters with
    | nil => exact Nat.le_refl _
    | cons letter rest =>
      rw [findFrom]
      cases found : tokenAt (letter :: rest) with
      | some pair =>
        have later := ih pair.2
        rw [squeeze_token found]
        simp only [List.flatten_cons, List.length_append]
        omega
      | none =>
        have later := ih rest
        have more : (squeeze rest).length ≤ (squeeze (letter :: rest)).length :=
          ((List.sublist_cons_self letter rest).filter _).length_le
        simp only
        omega

theorem Spelled.found (spelled : Spelled letters tokens) (enough : letters.length ≤ fuel) :
    findFrom fuel letters = tokens ∧ tokens.flatten = squeeze letters := by
  induction spelled generalizing fuel with
  | done => cases fuel <;> exact ⟨rfl, rfl⟩
  | @space letter letters tokens blank _ ih =>
    cases fuel with
    | zero => simp at enough
    | succ fuel =>
      rw [List.length_cons] at enough
      have small : letters.length ≤ fuel := by omega
      obtain ⟨same, flat⟩ := ih small
      rw [findFrom, tokenAt_space blank]
      refine ⟨same, flat.trans ?_⟩
      simp [squeeze, blank]
  | @around letter letters tokens brackets _ ih =>
    cases fuel with
    | zero => simp at enough
    | succ fuel =>
      rw [List.length_cons] at enough
      have small : letters.length ≤ fuel := by omega
      obtain ⟨same, flat⟩ := ih small
      rw [findFrom, tokenAt_parenthesis brackets, squeeze_token (tokenAt_parenthesis brackets)]
      simp only [same, List.flatten_cons, flat, and_self]
  | @word word letters tokens isWord ends spelled ih =>
    have here := tokenAt_word isWord spelled ends
    obtain ⟨letter, rest, rfl, _⟩ := isWord.starts
    rw [List.cons_append] at here enough ⊢
    cases fuel with
    | zero => simp at enough
    | succ fuel =>
      rw [List.length_cons, List.length_append] at enough
      have small : letters.length ≤ fuel := by omega
      obtain ⟨same, flat⟩ := ih small
      rw [findFrom, here, squeeze_token here]
      simp only [same, List.flatten_cons, flat, and_self]

theorem spelled_findFrom (enough : letters.length ≤ fuel)
    (whole : (findFrom fuel letters).flatten = squeeze letters) :
    Spelled letters (findFrom fuel letters) := by
  induction fuel generalizing letters with
  | zero =>
    rw [List.length_eq_zero_iff.mp (Nat.le_zero.mp enough)]
    exact .done
  | succ fuel ih =>
    cases letters with
    | nil => exact .done
    | cons letter rest =>
      rw [findFrom] at whole ⊢
      rw [List.length_cons] at enough
      cases found : tokenAt (letter :: rest) with
      | some pair =>
        obtain ⟨token, after⟩ := pair
        rw [found, squeeze_token found] at whole
        simp only [List.flatten_cons, List.append_cancel_left_eq] at whole ⊢
        obtain ⟨split, nonempty, kind⟩ := tokenAt_some found
        have size := congrArg List.length split
        have some := List.length_pos_iff.mpr nonempty
        rw [List.length_cons, List.length_append] at size
        have later := ih (by omega) whole
        rw [split]
        rcases kind with ⟨code, around, rfl⟩ | ⟨member, ending⟩ | ⟨isWord, ends⟩
        · exact .around around later
        · exact .word (.inl member) (later.boundary_iff.mp ending) later
        · exact .word isWord ends later
      | none =>
        rw [found] at whole
        simp only at whole ⊢
        by_cases blank : whiteSpace letter
        · refine .space blank (ih (by omega) ?_)
          rw [whole]
          simp [squeeze, blank]
        · -- A letter that is passed over is missing from the matches.
          have short := flatten_le fuel rest
          rw [whole] at short
          simp only [squeeze, blank, Bool.not_false, List.filter_cons_of_pos,
            List.length_cons] at short
          omega

theorem spelled_iff : Spelled expression tokens ↔
    findTokens expression = tokens ∧ tokens.flatten = squeeze expression := by
  constructor
  · exact fun spelled => spelled.found (Nat.le_refl _)
  · rintro ⟨rfl, whole⟩
    exact spelled_findFrom (Nat.le_refl _) whole

end

end SparseLab.Corpus.Spdx
