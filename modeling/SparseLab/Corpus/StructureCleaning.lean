import Mathlib.Algebra.GroupWithZero.Nat
import SparseLab.Library.Outcomes
import SparseLab.Library.Slices
import SparseLab.Library.Texts

/-! Structural cleaning of a text with its provenance, from `corpus/structure_cleaning.py`. -/

namespace SparseLab.Corpus.Cleaning

open Library

def normalizerV2 : Text := text "normalizer-structure-v2"

def normalizerV3 : Text := text "normalizer-structure-v3"

/-- What the Unicode tables of the standard library decide: `unicodedata.normalize("NFC", _)`,
`str.casefold`, `\d` and `\w`. -/
structure Unicode where
  nfc : Text → Text
  casefold : Text → Text
  decimal : Nat → Bool
  word : Nat → Bool

inductive CleaningFailure
  | unsupported | unencodable
deriving DecidableEq

def CleaningFailure.text : CleaningFailure → String
  | unsupported => "unsupported structured normalizer"
  | unencodable => "surrogates not allowed"

/-- `str.encode()` refuses surrogates. -/
def encodable (content : Text) : Bool := content.all fun code => !(0xd800 ≤ code && code < 0xe000)

section

/-- `text.replace("\r\n", "\n").replace("\r", "\n")` -/
def newlines : Text → Text
  | 0x0d :: 0x0a :: rest => 0x0a :: newlines rest
  | 0x0d :: rest => 0x0a :: newlines rest
  | letter :: rest => letter :: newlines rest
  | [] => []

/-- `_lines` -/
def physicalLines (content : Text) : List Text :=
  if content = [] then []
  else
    let parts := content.splitOn 0x0a
    (parts.dropLast.map fun part => part ++ [0x0a]) ++
      if parts.getLast?.getD [] = [] then [] else [parts.getLast?.getD []]

theorem flatten_ended (separator : Nat) (parts : List Text) (nonempty : parts ≠ []) :
    (parts.dropLast.map fun part => part ++ [separator]).flatten ++ parts.getLast?.getD [] =
      [separator].intercalate parts := by
  induction parts with
  | nil => exact absurd rfl nonempty
  | cons part parts ih =>
    cases parts with
    | nil => simp
    | cons next rest =>
      have later := ih (List.cons_ne_nil next rest)
      rw [List.intercalate_cons_cons, ← later, List.dropLast_cons_cons, List.map_cons,
        List.flatten_cons, List.getLast?_cons_cons]
      simp only [List.append_assoc]

theorem flatten_physicalLines (content : Text) : (physicalLines content).flatten = content := by
  unfold physicalLines
  by_cases empty : content = []
  · rw [if_pos empty, empty]
    rfl
  · rw [if_neg empty, List.flatten_append]
    have ended := flatten_ended 0x0a (content.splitOn 0x0a) (List.splitOn_ne_nil _ _)
    rw [List.intercalate_splitOn] at ended
    conv_rhs => rw [← ended]
    congr 1
    split
    · rename_i last
      rw [last]
      rfl
    · simp

theorem not_mem_splitOn {separator : Nat} {content : Text} :
    ∀ part ∈ content.splitOn separator, separator ∉ part := by
  induction content with
  | nil =>
    intro part member
    rw [List.splitOn_nil, List.mem_singleton] at member
    rw [member]
    exact List.not_mem_nil
  | cons letter content ih =>
    intro part member
    rw [List.splitOn_cons_eq_if_modifyHead] at member
    by_cases ends : letter == separator
    · rw [if_pos ends] at member
      rcases List.mem_cons.mp member with empty | later
      · rw [empty]
        exact List.not_mem_nil
      · exact ih part later
    · rw [if_neg ends] at member
      cases pieces : content.splitOn separator with
      | nil => exact absurd pieces (List.splitOn_ne_nil _ _)
      | cons head rest =>
        rw [pieces, List.modifyHead_cons] at member
        rw [pieces] at ih
        rcases List.mem_cons.mp member with first | later
        · rw [first]
          intro inside
          rcases List.mem_cons.mp inside with same | deeper
          · rw [same] at ends
            exact ends (beq_self_eq_true letter)
          · exact ih head List.mem_cons_self deeper
        · exact ih part (List.mem_cons_of_mem head later)

theorem physicalLines_line {content line : Text} (member : line ∈ physicalLines content) :
    physicalLines line = [line] := by
  unfold physicalLines at member
  by_cases empty : content = []
  · rw [if_pos empty] at member
    cases member
  · rw [if_neg empty] at member
    rcases List.mem_append.mp member with ended | last
    · obtain ⟨part, inside, same⟩ := List.mem_map.mp ended
      have clean : 0x0a ∉ part := not_mem_splitOn part (List.mem_of_mem_dropLast inside)
      have parts : (part ++ [0x0a]).splitOn 0x0a = [part, []] := by
        rw [List.splitOn_append_cons_self_of_not_mem clean, List.splitOn_nil]
      rw [← same, physicalLines, if_neg (by simp), parts]
      rfl
    · by_cases nothing : (content.splitOn 0x0a).getLast?.getD [] = []
      · rw [if_pos nothing] at last
        cases last
      · rw [if_neg nothing, List.mem_singleton] at last
        rw [← last] at nothing
        have inside : line ∈ content.splitOn 0x0a := by
          cases found : (content.splitOn 0x0a).getLast? with
          | none => exact absurd (List.getLast?_eq_none_iff.mp found) (List.splitOn_ne_nil _ _)
          | some final =>
            rw [found] at last
            rw [last]
            exact List.mem_of_getLast? found
        have parts : line.splitOn 0x0a = [line] :=
          List.splitOn_eq_singleton (not_mem_splitOn line inside)
        rw [physicalLines, if_neg nothing, parts]
        simp [nothing]

end

section

/-- Letters that `re.IGNORECASE` takes for one of a pattern. -/
def sameLetter (pattern code : Nat) : Bool :=
  let lower := fun letter => if 0x41 ≤ letter ∧ letter ≤ 0x5a then letter + 0x20 else letter
  lower pattern = lower code || (lower pattern = 0x69 && (code = 0x130 || code = 0x131)) ||
    (lower pattern = 0x73 && code = 0x17f) || (lower pattern = 0x6b && code = 0x212a)

def literal : Text → Text → Option Text
  | [], letters => some letters
  | _ :: _, [] => none
  | pattern :: patterns, letter :: letters =>
    if sameLetter pattern letter then literal patterns letters else none

def optional (pattern letters : Text) : Text := (literal pattern letters).getD letters

variable (unicode : Unicode)

/-- `\b` behind a letter -/
def wordEnds (rest : Text) : Bool := !rest.head?.any unicode.word

/-- `_GUTENBERG_START` and `_GUTENBERG_END`, on a line without its ending. -/
def gutenbergMarker (name : String) (letters : Text) : Bool :=
  let found := do
    let rest ← literal (text "***") letters
    let rest ← literal (text name ++ text " OF ") (rest.dropWhile whiteSpace)
    let rest ← literal (text "PROJECT GUTENBERG ") (optional (text "THE ") rest)
    literal (text "EBOOK") rest <|> literal (text "ETEXT") rest
  found.any fun rest =>
    wordEnds unicode rest && (text "***").isSuffixOf (rest.rdropWhile whiteSpace)

def gutenbergCredit (letters : Text) : Bool :=
  (literal (text "Produced by") (optional (text "This eBook was ") letters)).any (wordEnds unicode)

def heading (letters : Text) : Bool :=
  let rest := letters.dropWhile whiteSpace
  let hashes := rest.takeWhile (· = 0x23)
  let after := rest.dropWhile (· = 0x23)
  (letters.takeWhile whiteSpace).length ≤ 3 && 1 ≤ hashes.length && hashes.length ≤ 6 &&
    after.head?.any whiteSpace && !(after.dropWhile whiteSpace).isEmpty

/-- `_LIST` -/
def listItem (letters : Text) : Bool :=
  let rest := letters.dropWhile whiteSpace
  let digits := rest.takeWhile unicode.decimal
  let after := rest.dropWhile unicode.decimal
  (rest.head?.any (fun mark => mark = 0x2d || mark = 0x2a || mark = 0x2b) &&
      rest.tail.head?.any whiteSpace) ||
    (!digits.isEmpty && after.head?.any (fun mark => mark = 0x2e || mark = 0x29) &&
      after.tail.head?.any whiteSpace)

/-- The letter and the length of the marker of `_FENCE`. -/
def fenceMarker (letters : Text) : Option (Nat × Nat) :=
  let rest := letters.dropWhile whiteSpace
  match rest.head? with
  | none => none
  | some mark =>
    let run := (rest.takeWhile (· = mark)).length
    if (mark = 0x60 ∨ mark = 0x7e) ∧ 3 ≤ run then some (mark, run) else none

def equation (letters : Text) : Bool :=
  [text "$$", text "\\[", text "\\]"].any fun start =>
    start.isPrefixOf (letters.dropWhile whiteSpace)

def indented (letters : Text) : Bool :=
  (text "    ").isPrefixOf letters || (text "\t").isPrefixOf letters

end

section

def frontMatterKeys : List Text :=
  ["title", "weight", "categories", "category", "tags", "date", "draft", "slug", "description"].map
    text

def pagerdutyFrontMatterKeys : List Text :=
  ["cover", "hero", "hero_alt_text", "style", "pdf"].map text

def asciiLetter (code : Nat) : Bool :=
  (0x41 ≤ code && code ≤ 0x5a) || (0x61 ≤ code && code ≤ 0x7a)

def keyLetter (code : Nat) : Bool :=
  asciiLetter code || (0x30 ≤ code && code ≤ 0x39) || code = 0x5f || code = 0x2d

/-- The key of a line `key: value`, in lower case. -/
def lineKey (value : Text) : Option Text :=
  let name := value.takeWhile keyLetter
  if name.head?.any asciiLetter ∧ (value.dropWhile keyLetter).head? = some 0x3a then
    some (name.map fun code => if 0x41 ≤ code ∧ code ≤ 0x5a then code + 0x20 else code)
  else none

def headerKeys : List Text → Option (List Text)
  | [] => some []
  | line :: lines =>
    let value := strip whiteSpace line
    if value = [] ∨ (text "#").isPrefixOf value ∨ (text "- ").isPrefixOf value then headerKeys lines
    else
      match lineKey value with
      | none => none
      | some key => (headerKeys lines).map fun keys => key :: keys

def frontMatterEnd (lines : List Text) (sourceId normalizer : Text) : Option Nat × Option String :=
  if lines.head?.map (strip whiteSpace) ≠ some (text "---") then (none, none)
  else
    match (slice lines 1 81).findIdx? fun line =>
        strip whiteSpace line = text "---" ∨ strip whiteSpace line = text "..." with
    | none => (none, some "unclosed_yaml_header")
    | some offset =>
      let closing := offset + 1
      match headerKeys (slice lines 1 closing) with
      | none => (none, some "ambiguous_yaml_header")
      | some keys =>
        let allowed :=
          if normalizer = normalizerV3 ∧ sourceId = text "kml_scale_pagerduty" then
            frontMatterKeys ++ pagerdutyFrontMatterKeys
          else frontMatterKeys
        if keys = [] ∨ ¬ ∀ key ∈ keys, key ∈ allowed then
          (none, some "configuration_or_ambiguous_yaml")
        else (some (closing + 1), none)

end

structure RemovedSpan where
  rawLineStart : Nat
  rawLineEnd : Nat
  reason : String
  sha256 : String
deriving DecidableEq

structure RetainedSpan where
  rawLineStart : Nat
  rawLineEnd : Nat
  outputStart : Nat
  outputEnd : Nat
deriving DecidableEq

inductive Kind
  | fenceOpen | fenceClose | code | heading | list | equation | indented | prose
deriving DecidableEq

def Kind.text : Kind → String
  | fenceOpen => "fence_open"
  | fenceClose => "fence_close"
  | code => "code"
  | heading => "heading"
  | list => "list"
  | equation => "equation"
  | indented => "indented"
  | prose => "prose"

structure Block where
  kind : Kind
  rawLine : Nat
  outputStart : Nat
  outputEnd : Nat
deriving DecidableEq

inductive Decision
  | excludeMetadataOnly | retain
deriving DecidableEq

def Decision.text : Decision → String
  | excludeMetadataOnly => "exclude_lm_metadata_only"
  | retain => "retain"

structure Structure where
  normalizer : Text
  retainedSpans : List RetainedSpan
  removedSpans : List RemovedSpan
  blocks : List Block
  flags : List String
  decision : Decision
deriving DecidableEq

structure Cleaned where
  text : Text
  provenance : Structure
  dropReason : Option String
deriving DecidableEq

section

variable (unicode : Unicode) (sha256 : Text → String) (lines : List Text)

structure Draft where
  keep : List Bool
  removed : List RemovedSpan
  flags : List String

def Draft.flag (draft : Draft) (flag : String) : Draft := { draft with flags := draft.flags ++ [flag] }

def remove (draft : Draft) (start stop : Nat) (reason : String) : Except CleaningFailure Draft := do
  if start ≥ stop then .ok draft
  else
    let content := (slice lines start stop).flatten
    refuseIf (encodable content = false) .unencodable
    .ok
      { draft with
        keep := draft.keep.mapIdx fun index kept => kept && !(start ≤ index && index < stop)
        removed := draft.removed ++
          [{ rawLineStart := start + 1, rawLineEnd := stop, reason := reason
             sha256 := sha256 content }] }

def markerLine (name : String) (line : Text) : Bool :=
  gutenbergMarker unicode name (strip whiteSpace line)

def creditBoundary (first : Nat) : Option Nat :=
  ((slice lines (first + 1) (min (first + 12) lines.length)).findIdx? blank).map (first + 1 + ·)

def removeCredit (draft : Draft) : Except CleaningFailure Draft :=
  match (lines.take 8).findIdx? fun line => !blank line with
  | none => .ok draft
  | some first =>
    if gutenbergCredit unicode (strip whiteSpace (lines.getD first [])) then
      match creditBoundary lines first with
      | none => .ok (draft.flag "ambiguous_gutenberg_credit")
      | some boundary =>
        if ((slice lines first boundary).map List.length).sum ≤ 500 ∧
            (lines.drop (boundary + 1)).any (fun line => !blank line) then
          remove sha256 lines draft 0 (boundary + 1) "gutenberg_production_credit"
        else .ok (draft.flag "ambiguous_gutenberg_credit")
    else .ok draft

/-- `"project gutenberg" in line.casefold()` -/
def mentionsGutenberg (line : Text) : Bool :=
  decide (text "project gutenberg" <:+: unicode.casefold line)

def removeHeader (start : Option Nat) (draft : Draft) : Except CleaningFailure Draft :=
  match start with
  | some start => remove sha256 lines draft 0 (start + 1) "gutenberg_header_through_start_marker"
  | none => removeCredit unicode sha256 lines draft

def removeFooter (start : Option Nat) (draft : Draft) : Except CleaningFailure Draft :=
  match lines.findIdx? (markerLine unicode "END") with
  | none => .ok draft
  | some stop =>
    if start.all fun start => start < stop then
      remove sha256 lines draft stop lines.length "gutenberg_footer_from_end_marker"
    else .ok (draft.flag "ambiguous_gutenberg_markers")

def removeGutenberg (draft : Draft) : Except CleaningFailure Draft := do
  let start := (lines.take 300).findIdx? (markerLine unicode "START")
  let draft ← removeHeader unicode sha256 lines start draft
  removeFooter unicode sha256 lines start
    (if start = none ∧ (lines.take 80).any (mentionsGutenberg unicode) then
      draft.flag "ambiguous_gutenberg_header"
    else draft)

def removeFront (frontEnd : Option Nat) (draft : Draft) : Except CleaningFailure Draft :=
  match frontEnd with
  | none => .ok draft
  | some stop => remove sha256 lines draft 0 stop "recognized_yaml_front_matter"

def removeWrappers (sourceId normalizer : Text) (draft : Draft) : Except CleaningFailure Draft :=
  if (text "project_gutenberg").isPrefixOf sourceId ∨
      (normalizer = normalizerV3 ∧ sourceId = text "kml_scale_project_gutenberg") then
    removeGutenberg unicode sha256 lines draft
  else .ok draft

end

section

variable (unicode : Unicode)

structure Scan where
  retained : List RetainedSpan
  blocks : List Block
  output : List Text
  offset : Nat
  fence : Option (Nat × Nat)
  segment : Option (Nat × Nat)

def kindOf (fence : Option (Nat × Nat)) (stripped : Text) : Kind × Option (Nat × Nat) :=
  match fenceMarker stripped, fence with
  | some marker, none => (.fenceOpen, some marker)
  | some marker, some open' =>
    if marker.1 = open'.1 ∧ open'.2 ≤ marker.2 then (.fenceClose, none) else (.code, some open')
  | none, some open' => (.code, some open')
  | none, none =>
    if heading stripped then (.heading, none)
    else if listItem unicode stripped then (.list, none)
    else if equation stripped then (.equation, none)
    else if indented stripped then (.indented, none)
    else (.prose, none)

def scanLine (scan : Scan) (item : (Text × Bool) × Nat) : Scan :=
  let line := item.1.1
  let index := item.2
  if item.1.2 = false then
    match scan.segment with
    | none => scan
    | some (start, offset) =>
      { scan with
        retained := scan.retained ++
          [{ rawLineStart := start + 1, rawLineEnd := index, outputStart := offset
             outputEnd := scan.offset }]
        segment := none }
  else
    let (kind, fence) := kindOf unicode scan.fence (line.rdropWhile (· = 0x0a))
    { retained := scan.retained
      blocks :=
        if kind = .prose then scan.blocks
        else scan.blocks ++
          [{ kind := kind, rawLine := index + 1, outputStart := scan.offset
             outputEnd := scan.offset + line.length }]
      output := scan.output ++ [line]
      offset := scan.offset + line.length
      fence := fence
      segment := some (scan.segment.getD (index, scan.offset)) }

def startScan : Scan :=
  { retained := [], blocks := [], output := [], offset := 0, fence := none, segment := none }

def closeScan (scan : Scan) (count : Nat) : List RetainedSpan :=
  match scan.segment with
  | none => scan.retained
  | some (start, offset) =>
    scan.retained ++ [{ rawLineStart := start + 1, rawLineEnd := count, outputStart := offset
                        outputEnd := scan.offset }]

end

def cleanStructure (unicode : Unicode) (sha256 : Text → String) (content sourceId normalizer : Text) :
    Except CleaningFailure Cleaned := do
  refuseIf (normalizer ≠ normalizerV2 ∧ normalizer ≠ normalizerV3) .unsupported
  let normalized := unicode.nfc (newlines content)
  let lines := physicalLines normalized
  let front := frontMatterEnd lines sourceId normalizer
  let draft ← removeFront sha256 lines front.1
    { keep := lines.map fun _ => true, removed := [], flags := front.2.toList }
  let draft ← removeWrappers unicode sha256 lines sourceId normalizer draft
  let flags :=
    if 0xfffd ∈ normalized ∨ 0 ∈ normalized then draft.flags ++ ["possible_extraction_damage"]
    else draft.flags
  let scan := ((lines.zip draft.keep).zipIdx).foldl (scanLine unicode) startScan
  let result := scan.output.flatten
  .ok
    (if front.1 ≠ none ∧ blank result then
      { text := normalized
        provenance :=
          { normalizer := normalizer
            retainedSpans :=
              [{ rawLineStart := 1, rawLineEnd := lines.length, outputStart := 0
                 outputEnd := normalized.length }]
            removedSpans := []
            blocks := scan.blocks
            flags := flags ++ ["metadata_only_front_matter"]
            decision := .excludeMetadataOnly }
        dropReason := some "metadata_only_front_matter" }
    else
      { text := result
        provenance :=
          { normalizer := normalizer
            retainedSpans := closeScan scan lines.length
            removedSpans := draft.removed
            blocks := scan.blocks
            flags := flags
            decision := .retain }
        dropReason := none })

end SparseLab.Corpus.Cleaning
