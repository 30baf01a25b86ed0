import SparseLab.Corpus.StructureCleaning
import SparseLab.Library.Excerpts

/-! What structural cleaning keeps and removes is exactly what its provenance says. -/

namespace SparseLab.Corpus.Cleaning

open Library

def RemovedSpan.passage (lines : List Text) (span : RemovedSpan) : Text :=
  (slice lines (span.rawLineStart - 1) span.rawLineEnd).flatten

def RemovedSpan.Covers (span : RemovedSpan) (index : Nat) : Prop :=
  span.rawLineStart ≤ index + 1 ∧ index + 1 ≤ span.rawLineEnd

instance (span : RemovedSpan) (index : Nat) : Decidable (span.Covers index) :=
  inferInstanceAs (Decidable (_ ∧ _))

def RemovedSpan.Within (span : RemovedSpan) (count : Nat) : Prop :=
  1 ≤ span.rawLineStart ∧ span.rawLineStart ≤ span.rawLineEnd ∧ span.rawLineEnd ≤ count

section

variable (unicode : Unicode) {sha256 : Text → String} {lines : List Text} {draft : Draft}

structure Drafted (sha256 : Text → String) (lines : List Text) (draft : Draft) : Prop where
  length : draft.keep.length = lines.length
  kept : ∀ index < lines.length,
    draft.keep[index]? = some (decide (¬ ∃ span ∈ draft.removed, span.Covers index))
  within : ∀ span ∈ draft.removed, span.Within lines.length
  digests : ∀ span ∈ draft.removed, span.sha256 = sha256 (span.passage lines)

def removal (sha256 : Text → String) (lines : List Text) (start stop : Nat) (reason : String) :
    RemovedSpan :=
  { rawLineStart := start + 1, rawLineEnd := stop, reason := reason
    sha256 := sha256 (slice lines start stop).flatten }

def Unencodable (lines : List Text) (failure : CleaningFailure) : Prop :=
  failure = .unencodable ∧ encodable lines.flatten = false

theorem encodable_slice (start stop : Nat) (whole : encodable lines.flatten = true) :
    encodable (slice lines start stop).flatten = true := by
  unfold encodable at *
  rw [List.all_eq_true] at *
  intro code member
  obtain ⟨line, line_mem, inside⟩ := List.mem_flatten.mp member
  have listed : line ∈ lines := List.mem_of_mem_take (List.mem_of_mem_drop line_mem)
  exact whole code (List.mem_flatten.mpr ⟨line, listed, inside⟩)

theorem remove_outcome (drafted : Drafted sha256 lines draft) {start stop : Nat} (reason : String)
    (ordered : start < stop) (within : stop ≤ lines.length) :
    Outcome (fun next => Drafted sha256 lines next ∧
        next.removed = draft.removed ++ [removal sha256 lines start stop reason])
      (Unencodable lines) (remove sha256 lines draft start stop reason) := by
  rw [remove, if_neg (by omega)]
  by_cases writable : encodable (slice lines start stop).flatten = false
  · rw [refuseIf_raises writable]
    refine ⟨rfl, ?_⟩
    by_contra whole
    rw [encodable_slice start stop (by simpa using whole)] at writable
    cases writable
  · rw [refuseIf_bind writable]
    refine ⟨⟨?_, ?_, ?_, ?_⟩, rfl⟩
    · rw [List.length_mapIdx, drafted.length]
    · intro index inside
      have old := drafted.kept index inside
      rw [List.getElem?_mapIdx, old, Option.map_some]
      congr 1
      simp only [List.mem_append, List.mem_singleton, or_and_right, exists_or, exists_eq_left]
      have here : ¬ RemovedSpan.Covers
          ⟨start + 1, stop, reason, sha256 (slice lines start stop).flatten⟩ index ↔
            index < start ∨ stop ≤ index := by
        show ¬ (start + 1 ≤ index + 1 ∧ index + 1 ≤ stop) ↔ _
        omega
      rw [Bool.eq_iff_iff]
      simp [here]
    · intro span member
      rcases List.mem_append.mp member with before | new
      · exact drafted.within span before
      · rw [List.mem_singleton.mp new]
        show 1 ≤ start + 1 ∧ start + 1 ≤ stop ∧ stop ≤ lines.length
        omega
    · intro span member
      rcases List.mem_append.mp member with before | new
      · exact drafted.digests span before
      · rw [List.mem_singleton.mp new]
        rfl

theorem Drafted.flag (drafted : Drafted sha256 lines draft) (flag : String) :
    Drafted sha256 lines (draft.flag flag) :=
  ⟨drafted.length, drafted.kept, drafted.within, drafted.digests⟩

theorem marker_starred {name : String} {line : Text} (marked : markerLine unicode name line = true) :
    (strip whiteSpace line).head? = some 0x2a := by
  unfold markerLine gutenbergMarker at marked
  cases stripped : strip whiteSpace line with
  | nil =>
    rw [stripped] at marked
    simp [literal, text] at marked
  | cons letter rest =>
    rw [stripped] at marked
    by_cases star : sameLetter 0x2a letter = true
    · have same : letter = 0x2a := by
        simp [sameLetter] at star
        split at star <;> omega
      rw [same]
      rfl
    · have first : text "***" = 0x2a :: text "**" := rfl
      rw [first, literal, if_neg star] at marked
      cases marked

theorem headerKeys_unstarred {header : List Text} {keys : List Text}
    (read : headerKeys header = some keys) :
    ∀ line ∈ header, (strip whiteSpace line).head? ≠ some 0x2a := by
  induction header generalizing keys with
  | nil =>
    intro line member
    cases member
  | cons line header ih =>
    rw [headerKeys] at read
    intro other member starred
    obtain ⟨tail, stripped⟩ := List.head?_eq_some_iff.mp starred
    by_cases comment : strip whiteSpace line = [] ∨ (text "#").isPrefixOf (strip whiteSpace line) ∨
        (text "- ").isPrefixOf (strip whiteSpace line)
    · rw [if_pos comment] at read
      rcases List.mem_cons.mp member with first | later
      · rw [← first, stripped] at comment
        simp [text] at comment
      · exact ih read other later starred
    · rw [if_neg comment] at read
      cases key : lineKey (strip whiteSpace line) with
      | none =>
        rw [key] at read
        cases read
      | some name =>
        rw [key] at read
        cases rest : headerKeys header with
        | none =>
          rw [rest] at read
          cases read
        | some names =>
          rcases List.mem_cons.mp member with first | later
          · rw [← first, stripped] at key
            simp [lineKey, keyLetter, asciiLetter] at key
          · exact ih rest other later starred

theorem headed_of_head {starts : Text} (first : lines.head?.map (strip whiteSpace) = some starts) :
    ∃ line, lines[0]? = some line ∧ strip whiteSpace line = starts := by
  cases lines with
  | nil => cases first
  | cons line lines => exact ⟨line, rfl, by simpa using first⟩

structure Headed (lines : List Text) (stop : Nat) : Prop where
  inside : 0 < stop ∧ stop ≤ lines.length
  dashed : ∃ line, lines[0]? = some line ∧ strip whiteSpace line = text "---"
  unmarked : ∀ name index, ∀ line, index < stop → lines[index]? = some line →
    markerLine unicode name line = false

theorem frontMatterEnd_headed {sourceId normalizer : Text} {stop : Nat} {flag : Option String}
    (found : frontMatterEnd lines sourceId normalizer = (some stop, flag)) :
    Headed unicode lines stop := by
  unfold frontMatterEnd at found
  by_cases dashed : lines.head?.map (strip whiteSpace) ≠ some (text "---")
  · rw [if_pos dashed] at found
    cases found
  · rw [if_neg dashed] at found
    have start := headed_of_head (not_not.mp dashed)
    cases closed : (slice lines 1 81).findIdx? fun line =>
        strip whiteSpace line = text "---" ∨ strip whiteSpace line = text "..." with
    | none =>
      rw [closed] at found
      cases found
    | some offset =>
      rw [closed] at found
      cases read : headerKeys (slice lines 1 (offset + 1)) with
      | none =>
        simp only [read] at found
        cases found
      | some keys =>
        simp only [read] at found
        have same : offset + 2 = stop := by
          split at found <;> split at found <;> cases found <;> rfl
        obtain ⟨bound, ends, -⟩ := List.findIdx?_eq_some_iff_getElem.mp closed
        have long : offset + 1 < lines.length := by
          rw [length_slice] at bound
          omega
        refine ⟨by omega, start, ?_⟩
        intro name index line inside here
        by_contra marked
        have starred := marker_starred unicode (by simpa using marked)
        have positions : index = 0 ∨ index = offset + 1 ∨ (1 ≤ index ∧ index < offset + 1) := by
          omega
        rcases positions with first | last | middle
        · subst first
          obtain ⟨opening, at_zero, dashes⟩ := start
          rw [here] at at_zero
          rw [Option.some.inj at_zero, dashes] at starred
          cases starred
        · subst last
          have closing : line = (slice lines 1 81)[offset] := by
            have position := getElem?_slice lines 1 81 offset
            rw [List.getElem?_eq_getElem bound] at position
            rw [length_slice] at bound
            rw [if_pos (by omega), Nat.add_comm, here] at position
            exact (Option.some.inj position).symm
          rw [← closing] at ends
          rcases of_decide_eq_true ends with dashes | dots
          · rw [dashes] at starred
            cases starred
          · rw [dots] at starred
            cases starred
        · have member : line ∈ slice lines 1 (offset + 1) := by
            apply List.mem_of_getElem? (i := index - 1)
            rw [getElem?_slice, if_pos (by omega), ← here]
            congr 1
            omega
          exact headerKeys_unstarred read line member starred

def Apart (first second : RemovedSpan) : Prop :=
  first.rawLineEnd < second.rawLineStart ∨
    (first.reason = "recognized_yaml_front_matter" ∧
      second.reason = "gutenberg_header_through_start_marker" ∧
      first.rawLineStart = 1 ∧ second.rawLineStart = 1) ∨
    (first.reason = "gutenberg_production_credit" ∧
      second.reason = "gutenberg_footer_from_end_marker")

def Fronted (sha256 : Text → String) (lines : List Text) (removed : List RemovedSpan) : Prop :=
  removed = [] ∨ ∃ stop, Headed unicode lines stop ∧
    removed = [removal sha256 lines 0 stop "recognized_yaml_front_matter"]

theorem credit_not_dashed : gutenbergCredit unicode (text "---") = false := by
  have unread : literal (text "Produced by") (optional (text "This eBook was ") (text "---")) = none := by
    decide
  rw [gutenbergCredit, unread]
  rfl

theorem first_dashed {line : Text} (here : lines[0]? = some line)
    (dashed : strip whiteSpace line = text "---") :
    (lines.take 8).findIdx? (fun line => !blank line) = some 0 ∧
      strip whiteSpace (lines.getD 0 []) = text "---" := by
  cases lines with
  | nil => cases here
  | cons first lines =>
    have same : first = line := by simpa using here
    subst same
    refine ⟨?_, dashed⟩
    have visible : blank first = false := by
      unfold blank
      rw [dashed]
      rfl
    rw [List.take_succ_cons, List.findIdx?_cons, visible]
    rfl

theorem removeCredit_outcome (drafted : Drafted sha256 lines draft) :
    Outcome (fun next => Drafted sha256 lines next ∧ (next.removed = draft.removed ∨
        (∀ line, lines[0]? = some line → strip whiteSpace line ≠ text "---") ∧
          ∃ stop, next.removed = draft.removed ++
            [removal sha256 lines 0 stop "gutenberg_production_credit"]))
      (Unencodable lines) (removeCredit unicode sha256 lines draft) := by
  unfold removeCredit
  cases found : (lines.take 8).findIdx? fun line => !blank line with
  | none => exact ⟨drafted, Or.inl rfl⟩
  | some first =>
    by_cases credit : gutenbergCredit unicode (strip whiteSpace (lines.getD first [])) = true
    · simp only [if_pos credit]
      cases boundary : creditBoundary lines first with
      | none => exact ⟨drafted.flag _, Or.inl rfl⟩
      | some stop =>
        apply Outcome.ite
        · rintro ⟨-, later⟩
          have inside : stop + 1 ≤ lines.length := by
            obtain ⟨line, member, -⟩ := List.any_eq_true.mp later
            have long := List.length_pos_of_mem member
            rw [List.length_drop] at long
            omega
          apply (remove_outcome drafted "gutenberg_production_credit" (Nat.succ_pos stop)
            inside).mono
          rintro next ⟨still, removed⟩
          refine ⟨still, Or.inr ⟨?_, stop + 1, removed⟩⟩
          intro line here dashed
          obtain ⟨zero, dashes⟩ := first_dashed here dashed
          rw [found] at zero
          rw [Option.some.inj zero, dashes, credit_not_dashed] at credit
          cases credit
        · intro _
          exact ⟨drafted.flag _, Or.inl rfl⟩
    · simp only [if_neg credit]
      exact ⟨drafted, Or.inl rfl⟩

structure Wrapped (lines : List Text) (start : Option Nat) (removed : List RemovedSpan) : Prop where
  apart : removed.Pairwise Apart
  before : ∀ stop line, lines[stop]? = some line → markerLine unicode "END" line = true →
    (start.all fun start => start < stop) = true → ∀ span ∈ removed,
      span.rawLineEnd ≤ stop ∨ span.reason = "gutenberg_production_credit"

variable {unicode}

theorem Headed.before {front stop : Nat} {line : Text} (headed : Headed unicode lines front)
    (here : lines[stop]? = some line) (marked : markerLine unicode "END" line = true) :
    front ≤ stop := by
  by_contra inside
  rw [headed.unmarked "END" stop line (by omega) here] at marked
  cases marked

section

variable {removed : List RemovedSpan} (fronted : Fronted unicode sha256 lines removed)

include fronted

theorem Fronted.wrapped {start : Option Nat} : Wrapped unicode lines start removed := by
  rcases fronted with none | ⟨front, headed, only⟩
  · rw [none]
    exact ⟨List.Pairwise.nil, fun _ _ _ _ _ span member => by cases member⟩
  · rw [only]
    refine ⟨List.pairwise_singleton _ _, ?_⟩
    intro stop line here marked _ span member
    rw [List.mem_singleton.mp member]
    exact Or.inl (headed.before here marked)

theorem Fronted.header {start : Nat} :
    Wrapped unicode lines (some start) (removed ++
      [removal sha256 lines 0 (start + 1) "gutenberg_header_through_start_marker"]) := by
  have old : Wrapped unicode lines (some start) removed := fronted.wrapped
  constructor
  · rw [List.pairwise_append]
    refine ⟨old.apart, List.pairwise_singleton _ _, ?_⟩
    intro earlier member later last
    rw [List.mem_singleton.mp last]
    rcases fronted with none | ⟨front, headed, only⟩
    · rw [none] at member
      cases member
    · rw [only] at member
      rw [List.mem_singleton.mp member]
      exact Or.inr (Or.inl ⟨rfl, rfl, rfl, rfl⟩)
  · intro stop line here marked later span member
    rcases List.mem_append.mp member with first | last
    · exact old.before stop line here marked later span first
    · rw [List.mem_singleton.mp last]
      left
      show start < stop
      simpa using later

theorem Fronted.credit {stop : Nat}
    (undashed : ∀ line, lines[0]? = some line → strip whiteSpace line ≠ text "---") :
    Wrapped unicode lines none
      (removed ++ [removal sha256 lines 0 stop "gutenberg_production_credit"]) := by
  rcases fronted with none | ⟨front, headed, -⟩
  · rw [none, List.nil_append]
    refine ⟨List.pairwise_singleton _ _, ?_⟩
    intro stop line here marked _ span member
    rw [List.mem_singleton.mp member]
    exact Or.inr rfl
  · obtain ⟨line, here, dashed⟩ := headed.dashed
    exact absurd dashed (undashed line here)

end

theorem Wrapped.footer {removed : List RemovedSpan} {start : Option Nat} {stop : Nat} {line : Text}
    (wrapped : Wrapped unicode lines start removed) (here : lines[stop]? = some line)
    (marked : markerLine unicode "END" line = true)
    (later : (start.all fun start => start < stop) = true) :
    (removed ++ [removal sha256 lines stop lines.length
      "gutenberg_footer_from_end_marker"]).Pairwise Apart := by
  rw [List.pairwise_append]
  refine ⟨wrapped.apart, List.pairwise_singleton _ _, ?_⟩
  intro earlier member last final
  rw [List.mem_singleton.mp final]
  rcases wrapped.before stop line here marked later earlier member with ends | credit
  · left
    show earlier.rawLineEnd < stop + 1
    omega
  · exact Or.inr (Or.inr ⟨credit, rfl⟩)

theorem removeHeader_outcome (drafted : Drafted sha256 lines draft) {start : Option Nat}
    (fronted : Fronted unicode sha256 lines draft.removed)
    (inside : ∀ line ∈ start, line < lines.length) :
    Outcome (fun next => Drafted sha256 lines next ∧ Wrapped unicode lines start next.removed)
      (Unencodable lines) (removeHeader unicode sha256 lines start draft) := by
  cases start with
  | some start =>
    apply (remove_outcome drafted "gutenberg_header_through_start_marker" (Nat.succ_pos start)
      (inside start rfl)).mono
    rintro next ⟨still, removed⟩
    exact ⟨still, removed ▸ fronted.header⟩
  | none =>
    apply (removeCredit_outcome unicode drafted).mono
    rintro next ⟨still, same | ⟨undashed, stop, removed⟩⟩
    · exact ⟨still, same ▸ fronted.wrapped⟩
    · exact ⟨still, removed ▸ fronted.credit undashed⟩

theorem removeFooter_outcome (drafted : Drafted sha256 lines draft) {start : Option Nat}
    (wrapped : Wrapped unicode lines start draft.removed) :
    Outcome (fun next => Drafted sha256 lines next ∧ next.removed.Pairwise Apart)
      (Unencodable lines) (removeFooter unicode sha256 lines start draft) := by
  unfold removeFooter
  cases found : lines.findIdx? (markerLine unicode "END") with
  | none => exact ⟨drafted, wrapped.apart⟩
  | some stop =>
    obtain ⟨bound, marked, -⟩ := List.findIdx?_eq_some_iff_getElem.mp found
    apply Outcome.ite
    · intro later
      apply (remove_outcome drafted "gutenberg_footer_from_end_marker" bound (Nat.le_refl _)).mono
      rintro next ⟨still, removed⟩
      rw [removed]
      exact ⟨still, wrapped.footer (List.getElem?_eq_getElem bound) marked later⟩
    · intro _
      exact ⟨drafted.flag _, wrapped.apart⟩

theorem removeGutenberg_outcome (drafted : Drafted sha256 lines draft)
    (fronted : Fronted unicode sha256 lines draft.removed) :
    Outcome (fun next => Drafted sha256 lines next ∧ next.removed.Pairwise Apart)
      (Unencodable lines) (removeGutenberg unicode sha256 lines draft) := by
  have inside : ∀ line ∈ (lines.take 300).findIdx? (markerLine unicode "START"),
      line < lines.length := by
    intro line found
    obtain ⟨bound, -⟩ := List.findIdx?_eq_some_iff_getElem.mp found
    rw [List.length_take] at bound
    omega
  apply (removeHeader_outcome drafted fronted inside).bind
  rintro next ⟨still, wrapped⟩
  apply removeFooter_outcome
  · split
    · exact still.flag _
    · exact still
  · split
    · exact wrapped
    · exact wrapped

end

def RetainedSpan.excerpt (span : RetainedSpan) : Excerpt :=
  ⟨span.rawLineStart - 1, span.rawLineEnd, span.outputStart, span.outputEnd⟩

def Block.Shows (lines : List Text) (content : Text) (block : Block) : Prop :=
  1 ≤ block.rawLine ∧ block.outputEnd ≤ content.length ∧
    lines[block.rawLine - 1]? = some (slice content block.outputStart block.outputEnd)

section

variable {unicode : Unicode} {lines : List Text} {keep : List Bool} {count : Nat} {scan : Scan}

structure Scanned (lines : List Text) (keep : List Bool) (count : Nat) (scan : Scan) : Prop where
  taken : Excerpts lines (fun index => keep[index]? = some true) count scan.output.flatten
    ((closeScan scan count).map RetainedSpan.excerpt)
  numbered : ∀ span ∈ closeScan scan count, 1 ≤ span.rawLineStart
  offset : scan.offset = scan.output.flatten.length
  shown : ∀ block ∈ scan.blocks, block.Shows lines scan.output.flatten

theorem scanned_start (lines : List Text) (keep : List Bool) : Scanned lines keep 0 startScan where
  taken := Excerpts.start _ _
  numbered span member := by cases member
  offset := rfl
  shown block member := by cases member

theorem Block.Shows.append {content : Text} {block : Block} (shows : block.Shows lines content)
    (later : Text) : block.Shows lines (content ++ later) := by
  obtain ⟨numbered, bound, found⟩ := shows
  refine ⟨numbered, ?_, ?_⟩
  · rw [List.length_append]
    omega
  · rw [slice_append_of_le later _ bound]
    exact found

theorem Scanned.discard (scanned : Scanned lines keep count scan) (line : Text)
    (dropped : keep[count]? = some false) :
    Scanned lines keep (count + 1) (scanLine unicode scan ((line, false), count)) := by
  have skipped := scanned.taken.skip (by rw [dropped]; simp)
  cases open' : scan.segment with
  | none =>
    have same : scanLine unicode scan ((line, false), count) = scan := by
      simp [scanLine, open']
    have spans : closeScan scan (count + 1) = closeScan scan count := by
      simp [closeScan, open']
    rw [same]
    exact ⟨spans ▸ skipped, spans ▸ scanned.numbered, scanned.offset, scanned.shown⟩
  | some segment =>
    have spans : closeScan (scanLine unicode scan ((line, false), count)) (count + 1) =
        closeScan scan count := by
      simp [closeScan, scanLine, open']
    have output : (scanLine unicode scan ((line, false), count)).output = scan.output := by
      simp [scanLine, open']
    refine ⟨?_, ?_, ?_, ?_⟩
    · rw [spans, output]
      exact skipped
    · rw [spans]
      exact scanned.numbered
    · rw [output]
      simpa [scanLine, open'] using scanned.offset
    · rw [output]
      simpa [scanLine, open'] using scanned.shown

theorem Scanned.retain (scanned : Scanned lines keep count scan) {line : Text}
    (here : lines[count]? = some line) (kept : keep[count]? = some true) :
    Scanned lines keep (count + 1) (scanLine unicode scan ((line, true), count)) := by
  have output : (scanLine unicode scan ((line, true), count)).output.flatten =
      scan.output.flatten ++ line := by
    simp [scanLine]
  have offset : (scanLine unicode scan ((line, true), count)).offset =
      scan.output.flatten.length + line.length := by
    simp [scanLine, scanned.offset]
  have segment : (scanLine unicode scan ((line, true), count)).segment =
      some (scan.segment.getD (count, scan.offset)) := by
    simp [scanLine]
  have retained : (scanLine unicode scan ((line, true), count)).retained = scan.retained := by
    simp [scanLine]
  have spans : closeScan (scanLine unicode scan ((line, true), count)) (count + 1) =
      scan.retained ++ [⟨(scan.segment.getD (count, scan.offset)).1 + 1, count + 1,
        (scan.segment.getD (count, scan.offset)).2, scan.output.flatten.length + line.length⟩] := by
    rw [closeScan, segment, retained, offset]
  refine ⟨?_, ?_, ?_, ?_⟩
  · rw [spans, output, List.map_append, List.map_singleton]
    have taken := scanned.taken
    cases open' : scan.segment with
    | none =>
      have closed : closeScan scan count = scan.retained := by rw [closeScan, open']
      rw [closed] at taken
      have more := taken.append kept here
      rw [← scanned.offset] at more ⊢
      exact more
    | some segment =>
      have closed : closeScan scan count =
          scan.retained ++ [⟨segment.1 + 1, count, segment.2, scan.offset⟩] := by
        rw [closeScan, open']
      rw [closed, List.map_append, List.map_singleton] at taken
      exact taken.extend kept here rfl scanned.offset
  · rw [spans]
    intro span member
    rcases List.mem_append.mp member with old | new
    · apply scanned.numbered span
      unfold closeScan
      split
      · exact old
      · exact List.mem_append_left _ old
    · rw [List.mem_singleton.mp new]
      exact Nat.le_add_left 1 _
  · rw [offset, output, List.length_append]
  · rw [output]
    intro block member
    have cases' : block ∈ scan.blocks ∨ ∃ kind, block =
        ⟨kind, count + 1, scan.offset, scan.offset + line.length⟩ := by
      simp only [scanLine] at member
      split at member
      · rename_i impossible
        cases impossible
      · split at member
        · exact Or.inl member
        · rcases List.mem_append.mp member with old | new
          · exact Or.inl old
          · exact Or.inr ⟨_, List.mem_singleton.mp new⟩
    rcases cases' with old | ⟨kind, same⟩
    · exact (scanned.shown block old).append line
    · rw [same]
      refine ⟨Nat.le_add_left 1 count, ?_, ?_⟩
      · rw [List.length_append, scanned.offset]
      · show lines[count]? = _
        rw [here, scanned.offset, slice_append_end line (Nat.le_refl _), List.drop_length]
        rfl

theorem scanned_run (length : keep.length = lines.length) {rest : List (Text × Bool)} :
    ∀ {count : Nat} {scan : Scan}, (lines.zip keep).drop count = rest → count ≤ lines.length →
      Scanned lines keep count scan →
      Scanned lines keep lines.length ((rest.zipIdx count).foldl (scanLine unicode) scan) := by
  induction rest with
  | nil =>
    intro count scan done bound scanned
    have whole : (lines.zip keep).length ≤ count := List.drop_eq_nil_iff.mp done
    rw [List.length_zip, length, Nat.min_self] at whole
    have reached : count = lines.length := by omega
    subst reached
    exact scanned
  | cons item rest ih =>
    intro count scan left bound scanned
    have here : (lines.zip keep)[count]? = some item := by
      have first := congrArg List.head? left
      rwa [List.head?_drop, List.head?_cons] at first
    have inside : count < (lines.zip keep).length := (List.getElem?_eq_some_iff.mp here).1
    rw [List.length_zip, length, Nat.min_self] at inside
    have later : (lines.zip keep).drop (count + 1) = rest := by
      rw [← List.drop_drop, left]
      rfl
    obtain ⟨line, kept⟩ := item
    obtain ⟨line_here, kept_here⟩ := List.getElem?_zip_eq_some.mp here
    rw [List.zipIdx_cons, List.foldl_cons]
    apply ih later (by omega)
    cases kept with
    | true => exact scanned.retain line_here kept_here
    | false => exact scanned.discard line kept_here

end

def RetainedSpan.passage (lines : List Text) (span : RetainedSpan) : Text :=
  (slice lines (span.rawLineStart - 1) span.rawLineEnd).flatten

def RetainedSpan.Covers (span : RetainedSpan) (index : Nat) : Prop :=
  span.rawLineStart ≤ index + 1 ∧ index + 1 ≤ span.rawLineEnd

def RetainedSpan.Within (span : RetainedSpan) (count : Nat) : Prop :=
  1 ≤ span.rawLineStart ∧ span.rawLineStart ≤ span.rawLineEnd ∧ span.rawLineEnd ≤ count

structure Provenance (sha256 : Text → String) (lines : List Text) (result : Cleaned) : Prop where
  partitioned : ∀ index < lines.length,
    (∃ span ∈ result.provenance.retainedSpans, span.Covers index) ↔
      ¬ ∃ span ∈ result.provenance.removedSpans, span.Covers index
  retainedWithin : ∀ span ∈ result.provenance.retainedSpans, span.Within lines.length
  retainedApart : result.provenance.retainedSpans.Pairwise fun earlier later =>
    earlier.rawLineEnd < later.rawLineStart
  removedWithin : ∀ span ∈ result.provenance.removedSpans, span.Within lines.length
  removedApart : result.provenance.removedSpans.Pairwise Apart
  content : result.text =
    (result.provenance.retainedSpans.map (RetainedSpan.passage lines)).flatten
  outputs : ∀ span ∈ result.provenance.retainedSpans, span.outputEnd ≤ result.text.length ∧
    slice result.text span.outputStart span.outputEnd = span.passage lines
  digests : ∀ span ∈ result.provenance.removedSpans, span.sha256 = sha256 (span.passage lines)
  blocks : result.provenance.decision = .retain →
    ∀ block ∈ result.provenance.blocks, block.Shows lines result.text
  whole : result.provenance.decision = .excludeMetadataOnly →
    result.text = lines.flatten ∧ result.provenance.removedSpans = []

section

variable {unicode : Unicode} {sha256 : Text → String} {lines : List Text} {draft : Draft}

theorem Scanned.provenance {scan : Scan} (drafted : Drafted sha256 lines draft)
    (apart : draft.removed.Pairwise Apart)
    (scanned : Scanned lines draft.keep lines.length scan) (normalizer : Text)
    (flags : List String) (dropReason : Option String) :
    Provenance sha256 lines
      { text := scan.output.flatten
        provenance :=
          { normalizer := normalizer, retainedSpans := closeScan scan lines.length
            removedSpans := draft.removed, blocks := scan.blocks, flags := flags
            decision := .retain }
        dropReason := dropReason } where
  partitioned index inside := by
    have covered := scanned.taken.covered index inside
    rw [drafted.kept index inside] at covered
    simp only [Option.some.injEq, decide_eq_true_eq, List.mem_map, exists_exists_and_eq_and]
      at covered
    rw [covered]
    apply exists_congr
    intro span
    apply and_congr_right
    intro member
    have numbered := scanned.numbered span member
    show _ ↔ span.rawLineStart - 1 ≤ index ∧ index < span.rawLineEnd
    unfold RetainedSpan.Covers
    omega
  retainedWithin span member := by
    have within := scanned.taken.within span.excerpt (List.mem_map_of_mem member)
    have numbered := scanned.numbered span member
    change span.rawLineStart - 1 < span.rawLineEnd ∧ span.rawLineEnd ≤ lines.length at within
    unfold RetainedSpan.Within
    omega
  retainedApart := by
    have ordered := List.pairwise_map.mp scanned.taken.ordered
    apply ordered.imp_of_mem
    intro earlier later _ member before
    have numbered := scanned.numbered later member
    change earlier.rawLineEnd ≤ later.rawLineStart - 1 at before
    omega
  removedWithin := drafted.within
  removedApart := apart
  content := by
    have whole := scanned.taken.whole
    rw [List.map_map] at whole
    exact whole
  outputs span member := by
    obtain ⟨-, bound, same⟩ := scanned.taken.sliced span.excerpt (List.mem_map_of_mem member)
    exact ⟨bound, same⟩
  digests := drafted.digests
  blocks _ := scanned.shown
  whole excluded := by cases excluded

theorem kept_whole (nonempty : lines ≠ []) (normalizer : Text) (blocks : List Block)
    (flags : List String) (dropReason : Option String) :
    Provenance sha256 lines
      { text := lines.flatten
        provenance :=
          { normalizer := normalizer
            retainedSpans :=
              [{ rawLineStart := 1, rawLineEnd := lines.length, outputStart := 0
                 outputEnd := lines.flatten.length }]
            removedSpans := [], blocks := blocks, flags := flags
            decision := .excludeMetadataOnly }
        dropReason := dropReason } := by
  have long : 1 ≤ lines.length := List.length_pos_iff.mpr nonempty
  have passage : RetainedSpan.passage lines
      ⟨1, lines.length, 0, lines.flatten.length⟩ = lines.flatten :=
    congrArg List.flatten (slice_all lines (Nat.le_refl _))
  constructor
  · intro index inside
    simp [RetainedSpan.Covers]
    omega
  · intro span member
    rw [List.mem_singleton.mp member]
    exact ⟨Nat.le_refl 1, long, Nat.le_refl _⟩
  · exact List.pairwise_singleton _ _
  · intro span member
    cases member
  · exact List.Pairwise.nil
  · rw [List.map_singleton, List.flatten_singleton, passage]
  · intro span member
    rw [List.mem_singleton.mp member, passage]
    exact ⟨Nat.le_refl _, slice_all _ (Nat.le_refl _)⟩
  · intro span member
    cases member
  · intro retained
    cases retained
  · intro _
    exact ⟨rfl, rfl⟩

theorem drafted_start (flags : List String) :
    Drafted sha256 lines { keep := lines.map fun _ => true, removed := [], flags := flags } where
  length := List.length_map _
  kept index inside := by simp [inside]
  within span member := by cases member
  digests span member := by cases member

theorem removeFront_outcome {sourceId normalizer : Text} (flags : List String) :
    Outcome (fun next => Drafted sha256 lines next ∧ Fronted unicode sha256 lines next.removed)
      (Unencodable lines)
      (removeFront sha256 lines (frontMatterEnd lines sourceId normalizer).1
        { keep := lines.map fun _ => true, removed := [], flags := flags }) := by
  cases found : frontMatterEnd lines sourceId normalizer with
  | mk frontEnd flag =>
    cases frontEnd with
    | none => exact ⟨drafted_start flags, Or.inl rfl⟩
    | some stop =>
      have headed := frontMatterEnd_headed unicode found
      apply (remove_outcome (drafted_start flags) "recognized_yaml_front_matter"
        headed.inside.1 headed.inside.2).mono
      rintro next ⟨drafted, removed⟩
      exact ⟨drafted, Or.inr ⟨stop, headed, removed⟩⟩

theorem removeWrappers_outcome (drafted : Drafted sha256 lines draft)
    (fronted : Fronted unicode sha256 lines draft.removed) (sourceId normalizer : Text) :
    Outcome (fun next => Drafted sha256 lines next ∧ next.removed.Pairwise Apart)
      (Unencodable lines) (removeWrappers unicode sha256 lines sourceId normalizer draft) := by
  apply Outcome.ite
  · intro _
    exact removeGutenberg_outcome drafted fronted
  · intro _
    have wrapped : Wrapped unicode lines none draft.removed := fronted.wrapped
    exact ⟨drafted, wrapped.apart⟩

theorem front_nonempty {sourceId normalizer : Text}
    (front : (frontMatterEnd lines sourceId normalizer).1 ≠ none) : lines ≠ [] := by
  intro empty
  rw [empty] at front
  exact front rfl

/-- Cleaning accounts for every line of the normalized text, and fails only on another normalizer
or where a removed line cannot be encoded. -/
theorem structural_cleaning (unicode : Unicode) (sha256 : Text → String)
    (content sourceId normalizer : Text) :
    (physicalLines (unicode.nfc (newlines content))).flatten = unicode.nfc (newlines content) ∧
      Outcome (Provenance sha256 (physicalLines (unicode.nfc (newlines content))))
        (fun failure =>
          failure = .unsupported ∧ normalizer ≠ normalizerV2 ∧ normalizer ≠ normalizerV3 ∨
            failure = .unencodable ∧ encodable (unicode.nfc (newlines content)) = false)
        (cleanStructure unicode sha256 content sourceId normalizer) := by
  refine ⟨flatten_physicalLines _, ?_⟩
  unfold cleanStructure
  by_cases unsupported : normalizer ≠ normalizerV2 ∧ normalizer ≠ normalizerV3
  · rw [refuseIf_raises unsupported]
    exact Or.inl ⟨rfl, unsupported⟩
  · rw [refuseIf_bind unsupported]
    dsimp only
    generalize unicode.nfc (newlines content) = normalized
    have flat := flatten_physicalLines normalized
    generalize physicalLines normalized = lines at flat
    have raised : ∀ failure, Unencodable lines failure →
        failure = .unsupported ∧ normalizer ≠ normalizerV2 ∧ normalizer ≠ normalizerV3 ∨
          failure = .unencodable ∧ encodable normalized = false := by
      rintro failure ⟨same, unencodable⟩
      rw [flat] at unencodable
      exact Or.inr ⟨same, unencodable⟩
    apply ((@removeFront_outcome unicode sha256 lines sourceId normalizer _).mono_error raised).bind
    rintro front ⟨fronted_draft, fronted⟩
    apply ((removeWrappers_outcome fronted_draft fronted sourceId normalizer).mono_error raised).bind
    rintro draft ⟨drafted, apart⟩
    have scanned : Scanned lines draft.keep lines.length
        (((lines.zip draft.keep).zipIdx).foldl (scanLine unicode) startScan) :=
      scanned_run drafted.length List.drop_zero (Nat.zero_le _) (scanned_start lines draft.keep)
    rw [Outcome.ok_iff]
    split
    · rename_i metadata
      rw [← flat]
      exact kept_whole (front_nonempty metadata.1) _ _ _ _
    · exact scanned.provenance drafted apart _ _ _

def asciiUnicode : Unicode where
  nfc letters := letters
  casefold letters := letters.map fun code => if 0x41 ≤ code ∧ code ≤ 0x5a then code + 0x20 else code
  decimal code := 0x30 ≤ code && code ≤ 0x39
  word code := asciiLetter code || (0x30 ≤ code && code ≤ 0x39) || code = 0x5f

def wrappedText : Text :=
  text "---\ntitle: x\n---\n*** START OF THE PROJECT GUTENBERG EBOOK X ***\nbody\n"

theorem removals_of_wrappedText :
    ((cleanStructure asciiUnicode (fun _ => "") wrappedText (text "project_gutenberg")
        normalizerV2).toOption.map fun result =>
          result.provenance.removedSpans.map fun span => (span.rawLineStart, span.rawLineEnd)) =
      some [(1, 3), (1, 4)] := by
  decide +kernel

theorem removals_overlap :
    ¬ Outcome (fun result => result.provenance.removedSpans.Pairwise fun first second =>
          ∀ index, ¬ (first.Covers index ∧ second.Covers index))
        (fun _ => True)
        (cleanStructure asciiUnicode (fun _ => "") wrappedText (text "project_gutenberg")
          normalizerV2) := by
  intro disjoint
  have ranges := removals_of_wrappedText
  cases run : cleanStructure asciiUnicode (fun _ => "") wrappedText (text "project_gutenberg")
      normalizerV2 with
  | error failure =>
    rw [run] at ranges
    cases ranges
  | ok result =>
    rw [run] at ranges disjoint
    rw [Outcome.ok_iff] at disjoint
    have spans : result.provenance.removedSpans.map (fun span =>
        (span.rawLineStart, span.rawLineEnd)) = [(1, 3), (1, 4)] := Option.some.inj ranges
    cases removed : result.provenance.removedSpans with
    | nil =>
      rw [removed] at spans
      cases spans
    | cons front rest =>
      cases rest with
      | nil =>
        rw [removed] at spans
        have counts := congrArg List.length spans
        cases counts
      | cons header rest =>
        rw [removed] at spans disjoint
        simp only [List.map_cons, List.cons.injEq, Prod.mk.injEq] at spans
        have apart := (List.pairwise_cons.mp disjoint).1 header List.mem_cons_self 0
        unfold RemovedSpan.Covers at apart
        omega

end

end SparseLab.Corpus.Cleaning
