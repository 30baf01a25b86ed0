import Mathlib.Data.List.GetD
import SparseLab.Data.Authorship
import SparseLab.Data.Streaming
import SparseLab.Library.ArraySinks
import SparseLab.Library.Utf8

/-!
Collecting rendered conversations, from `_collect` and `_supervision_for_encoding` in
`data/packing.py`. The ids are integers without a width.
-/

namespace SparseLab.Data

open Library

structure Encoding where
  ids : List Int
  offsets : List (Nat × Nat)
  paired : offsets.length = ids.length

structure ChatTokenizer where
  eos : Option Int
  encode : Text → Encoding
  idToToken : Int → Option String

structure CollectLimits where
  maxDocuments : Nat
  maxTokens : Nat
  byteTable : Option (Nat × Nat)

structure CollectStats where
  acquired : Nat := 0
  retained : Nat := 0
  skipped : Nat := 0
  truncated : Nat := 0
deriving DecidableEq

def insideSpan (spans : List (Nat × Nat)) (place : Nat × Nat) : Bool :=
  spans.any fun span => place.1 < place.2 && span.1 ≤ place.1 && place.2 ≤ span.2

def supervisionForEncoding (document : RenderedConversation) (offsets : List (Nat × Nat))
    (tokenCount : Nat) : List Bool :=
  if document.lossMode = .allTokens then List.replicate tokenCount true
  else (offsets.take tokenCount).map (insideSpan document.supervisionSpans)

/-- `document.encode("utf-8")`, which refuses surrogates. -/
def encodeText (document : Text) : Except String (List UInt8) :=
  if document.any fun code => 0xD800 ≤ code && code ≤ 0xDFFF then
    .error "'utf-8' codec can't encode character"
  else .ok ((utf8 document).map UInt8.ofNat)

structure CollectedArrays where
  ids : List Int
  supervision : List Bool
  byteAddresses : Option (List Int)
  stats : CollectStats
deriving DecidableEq

section
variable (tokenizer : ChatTokenizer) (limits : CollectLimits)

def chatTokenBytes (ids : List Int) (document : Text) : Except String (List (List UInt8)) := do
  let pieces ← ids.mapM (tokenBytes tokenizer.idToToken)
  let bytes ← encodeText document
  if pieces.flatten ≠ bytes then
    .error "tokenizer token bytes do not reconstruct the source document"
  else pure pieces

def chatAddresses (ids : List Int) (document : Text) (selectedCount : Nat) :
    Except String (List Int) :=
  match limits.byteTable with
  | none => .ok []
  | some (tableSize, ngramSize) => do
      let pieces ← chatTokenBytes tokenizer ids document
      addresses tableSize ngramSize [] (pieces.take selectedCount)

def selectedIds (eos : Int) (document : RenderedConversation) (selectedCount : Nat) : List Int :=
  (tokenizer.encode document.text).ids.take selectedCount ++ [eos]

def selectedSupervision (document : RenderedConversation) (selectedCount : Nat) : List Bool :=
  supervisionForEncoding document (tokenizer.encode document.text).offsets selectedCount ++
    [document.lossMode = .allTokens ||
      (selectedCount = (tokenizer.encode document.text).ids.length &&
        !document.supervisionSpans.isEmpty)]

variable {σ τ ρ : Type} (values : ArraySink σ Int) (supervision : ArraySink τ Bool)
  (byteAddresses : ArraySink ρ Int)

structure Gathering (σ τ ρ : Type) where
  values : σ
  supervision : τ
  byteAddresses : ρ
  stats : CollectStats := {}

/-- The loop of `_collect` over the rendered documents. -/
def gather (eos : Int) (state : Gathering σ τ ρ) :
    List RenderedConversation → Except String (Gathering σ τ ρ)
  | [] => .ok state
  | document :: documents =>
    if ¬ (state.stats.acquired < limits.maxDocuments ∧
        values.length state.values < limits.maxTokens) then .ok state
    else
      let stats := { state.stats with acquired := state.stats.acquired + 1 }
      if document.text.isEmpty then
        gather eos { state with stats := { stats with skipped := stats.skipped + 1 } } documents
      else do
        let _ ← encodeText document.text
        let count := (tokenizer.encode document.text).ids.length
        let remaining := limits.maxTokens - values.length state.values
        if remaining ≤ 1 then .ok { state with stats }
        else
          let selectedCount := min count (remaining - 1)
          let found ← chatAddresses tokenizer limits (tokenizer.encode document.text).ids
            document.text selectedCount
          gather eos {
            values := values.extend state.values
              (selectedIds tokenizer eos document selectedCount)
            supervision := supervision.extend state.supervision
              (selectedSupervision tokenizer document selectedCount)
            byteAddresses := byteAddresses.extend state.byteAddresses found
            stats := { stats with
              retained := stats.retained + 1
              truncated := stats.truncated + if selectedCount < count then 1 else 0 } } documents

def collectWith (documents : List RenderedConversation) : Except String CollectedArrays :=
  match tokenizer.eos with
  | none => .error "tokenizer has no <eos> special token"
  | some eos => do
      let ended ← gather tokenizer limits values supervision byteAddresses eos
        { values := values.empty, supervision := supervision.empty,
          byteAddresses := byteAddresses.empty } documents
      return {
        ids := values.finish ended.values
        supervision := supervision.finish ended.supervision
        byteAddresses := limits.byteTable.map fun _ => byteAddresses.finish ended.byteAddresses
        stats := ended.stats }

def collect (spooled : Bool) (documents : List RenderedConversation) :
    Except String CollectedArrays :=
  if spooled then
    collectWith tokenizer limits (spoolSink Int 65536) (spoolSink Bool 65536) (spoolSink Int 65536)
      documents
  else collectWith tokenizer limits (listSink Int) (listSink Bool) (listSink Int) documents

end

section
variable (tokenizer : ChatTokenizer) (limits : CollectLimits)
variable {σ τ ρ : Type} {values : ArraySink σ Int} {supervision : ArraySink τ Bool}
  {byteAddresses : ArraySink ρ Int}

def Gathering.view (values : ArraySink σ Int) (supervision : ArraySink τ Bool)
    (byteAddresses : ArraySink ρ Int) (state : Gathering σ τ ρ) :
    Gathering (List Int) (List Bool) (List Int) where
  values := values.finish state.values
  supervision := supervision.finish state.supervision
  byteAddresses := byteAddresses.finish state.byteAddresses
  stats := state.stats

theorem gather_view (lawful : values.Lawful) (lawfulMask : supervision.Lawful)
    (lawfulAddresses : byteAddresses.Lawful) (eos : Int) (documents : List RenderedConversation) :
    ∀ state : Gathering σ τ ρ,
    (gather tokenizer limits values supervision byteAddresses eos state documents).map
        (Gathering.view values supervision byteAddresses) =
      gather tokenizer limits (listSink Int) (listSink Bool) (listSink Int) eos
        (state.view values supervision byteAddresses) documents := by
  induction documents with
  | nil => exact fun _ => rfl
  | cons document documents ih =>
    intro state
    have same : (listSink Int).length (state.view values supervision byteAddresses).values =
        values.length state.values := (lawful.length_eq state.values).symm
    have counted : (state.view values supervision byteAddresses).stats = state.stats := rfl
    unfold gather
    rw [same, counted]
    by_cases room : state.stats.acquired < limits.maxDocuments ∧
      values.length state.values < limits.maxTokens
    case neg =>
      simp only [if_pos room]
      rfl
    by_cases empty : document.text.isEmpty = true
    case pos =>
      simp only [if_neg (not_not.mpr room), if_pos empty]
      exact ih _
    simp only [if_neg (not_not.mpr room), if_neg empty]
    cases encodeText document.text with
    | error failure => rfl
    | ok bytes =>
      dsimp only [bind, Except.bind]
      by_cases little : limits.maxTokens - values.length state.values ≤ 1
      case pos =>
        simp only [if_pos little]
        rfl
      simp only [if_neg little]
      cases chatAddresses tokenizer limits (tokenizer.encode document.text).ids document.text
          (min (tokenizer.encode document.text).ids.length
            (limits.maxTokens - values.length state.values - 1)) with
      | error failure => rfl
      | ok found =>
        dsimp only
        rw [ih, Gathering.view, lawful.finish_extend, lawfulMask.finish_extend,
          lawfulAddresses.finish_extend]
        rfl

theorem collectWith_eq (lawful : values.Lawful) (lawfulMask : supervision.Lawful)
    (lawfulAddresses : byteAddresses.Lawful) (documents : List RenderedConversation) :
    collectWith tokenizer limits values supervision byteAddresses documents =
      collectWith tokenizer limits (listSink Int) (listSink Bool) (listSink Int) documents := by
  unfold collectWith
  cases tokenizer.eos with
  | none => rfl
  | some eos =>
    have seen := gather_view tokenizer limits lawful lawfulMask lawfulAddresses eos documents
      { values := values.empty, supervision := supervision.empty,
        byteAddresses := byteAddresses.empty }
    rw [Gathering.view, lawful.finish_empty, lawfulMask.finish_empty,
      lawfulAddresses.finish_empty] at seen
    dsimp only
    rw [show (listSink Int).empty = [] from rfl, show (listSink Bool).empty = [] from rfl, ← seen]
    cases gather tokenizer limits values supervision byteAddresses eos
      { values := values.empty, supervision := supervision.empty,
        byteAddresses := byteAddresses.empty } documents with
    | error failure => rfl
    | ok ended => rfl

theorem collect_eq (spooled : Bool) (documents : List RenderedConversation) :
    collect tokenizer limits spooled documents =
      collectWith tokenizer limits (listSink Int) (listSink Bool) (listSink Int) documents := by
  cases spooled with
  | false => rfl
  | true =>
    exact collectWith_eq tokenizer limits (spoolSink_lawful 65536) (spoolSink_lawful 65536)
      (spoolSink_lawful 65536) documents

end

section
variable {tokenizer : ChatTokenizer} {limits : CollectLimits}

theorem length_addresses {tableSize ngramSize : Nat} {pieces : List (List UInt8)} :
    ∀ {seen : List UInt8} {found : List Int},
    addresses tableSize ngramSize seen pieces = .ok found → found.length = pieces.length + 1 := by
  induction pieces with
  | nil =>
    intro seen found made
    rw [← Except.ok.inj made]
    rfl
  | cons piece pieces ih =>
    intro seen found made
    obtain ⟨address, -, made⟩ := bind_eq_ok made
    obtain ⟨rest, later, made⟩ := bind_eq_ok made
    rw [← Except.ok.inj made, List.length_cons, ih later, List.length_cons]

theorem length_chatTokenBytes {ids : List Int} {document : Text} {pieces : List (List UInt8)}
    (made : chatTokenBytes tokenizer ids document = .ok pieces) : pieces.length = ids.length := by
  obtain ⟨found, read, made⟩ := bind_eq_ok made
  obtain ⟨bytes, -, made⟩ := bind_eq_ok made
  split at made
  next => cases made
  next =>
    rw [← Except.ok.inj made]
    exact (mapM_eq_ok.mp read).length_eq.symm

structure Taken (tokenizer : ChatTokenizer) (limits : CollectLimits) where
  document : RenderedConversation
  count : Nat
  found : List Int
  within : count ≤ (tokenizer.encode document.text).ids.length
  addressed : chatAddresses tokenizer limits (tokenizer.encode document.text).ids document.text
    count = .ok found

namespace Taken

variable (taken : Taken tokenizer limits)

def encoding : Encoding := tokenizer.encode taken.document.text

def mask : List Bool := selectedSupervision tokenizer taken.document taken.count

@[simp] theorem length_ids (eos : Int) :
    (selectedIds tokenizer eos taken.document taken.count).length = taken.count + 1 := by
  rw [selectedIds, List.length_append, List.length_take, List.length_singleton,
    Nat.min_eq_left taken.within]

theorem length_supervisionForEncoding : (supervisionForEncoding taken.document
    taken.encoding.offsets taken.count).length = taken.count := by
  unfold supervisionForEncoding
  split
  next => exact List.length_replicate
  next =>
    rw [List.length_map, List.length_take, taken.encoding.paired]
    exact Nat.min_eq_left taken.within

@[simp] theorem length_mask : taken.mask.length = taken.count + 1 := by
  have tokens := taken.length_supervisionForEncoding
  rw [mask, selectedSupervision, List.length_append, List.length_singleton]
  exact congrArg (· + 1) tokens

theorem length_found (table : limits.byteTable.isSome) : taken.found.length = taken.count + 1 := by
  have addressed := taken.addressed
  unfold chatAddresses at addressed
  split at addressed
  next absent =>
    rw [absent] at table
    cases table
  next size ngram present =>
    obtain ⟨pieces, read, addressed⟩ := bind_eq_ok addressed
    rw [length_addresses addressed, List.length_take, length_chatTokenBytes read,
      Nat.min_eq_left taken.within]

end Taken

structure Collected (tokenizer : ChatTokenizer) (limits : CollectLimits) (eos : Int)
    (documents : List RenderedConversation) (kept : List (Taken tokenizer limits))
    (arrays : CollectedArrays) : Prop where
  documents : kept.map Taken.document <+: documents.filter fun document => !document.text.isEmpty
  ids : arrays.ids = kept.flatMap fun taken => selectedIds tokenizer eos taken.document taken.count
  supervision : arrays.supervision = kept.flatMap Taken.mask
  byteAddresses : arrays.byteAddresses = limits.byteTable.map fun _ => kept.flatMap Taken.found
  cut : ∀ before taken after, kept = before ++ taken :: after →
    taken.count < taken.encoding.ids.length → after = [] ∧ arrays.ids.length = limits.maxTokens
  capped : arrays.ids.length ≤ limits.maxTokens
  masked : arrays.supervision.length = arrays.ids.length
  addressed : ∀ found, arrays.byteAddresses = some found → found.length = arrays.ids.length

structure Gathered (eos : Int) (documents : List RenderedConversation)
    (kept : List (Taken tokenizer limits))
    (state ended : Gathering (List Int) (List Bool) (List Int)) : Prop where
  documents : kept.map Taken.document <+: documents.filter fun document => !document.text.isEmpty
  ids : ended.values = state.values ++
    kept.flatMap fun taken => selectedIds tokenizer eos taken.document taken.count
  supervision : ended.supervision = state.supervision ++ kept.flatMap Taken.mask
  byteAddresses : ended.byteAddresses = state.byteAddresses ++ kept.flatMap Taken.found
  cut : ∀ before taken after, kept = before ++ taken :: after →
    taken.count < taken.encoding.ids.length → after = [] ∧ ended.values.length = limits.maxTokens
  capped : state.values.length ≤ limits.maxTokens → ended.values.length ≤ limits.maxTokens
  full : limits.maxTokens ≤ state.values.length → kept = []

theorem gathered_nothing {eos : Int} {documents : List RenderedConversation}
    {state ended : Gathering (List Int) (List Bool) (List Int)}
    (values : ended.values = state.values) (supervision : ended.supervision = state.supervision)
    (byteAddresses : ended.byteAddresses = state.byteAddresses) :
    Gathered eos documents ([] : List (Taken tokenizer limits)) state ended where
  documents := List.nil_prefix
  ids := by rw [values, List.flatMap_nil, List.append_nil]
  supervision := by rw [supervision, List.flatMap_nil, List.append_nil]
  byteAddresses := by rw [byteAddresses, List.flatMap_nil, List.append_nil]
  cut := fun before taken after none => absurd none (by simp)
  capped := fun within => values ▸ within
  full := fun _ => rfl

theorem gathered_cons {eos : Int} {documents : List RenderedConversation}
    (taken : Taken tokenizer limits) {kept : List (Taken tokenizer limits)}
    {state between ended : Gathering (List Int) (List Bool) (List Int)}
    (nonempty : ¬ taken.document.text.isEmpty = true)
    (remaining : 1 < limits.maxTokens - state.values.length)
    (count : taken.count = min taken.encoding.ids.length
      (limits.maxTokens - state.values.length - 1))
    (values : between.values = state.values ++
      selectedIds tokenizer eos taken.document taken.count)
    (supervision : between.supervision = state.supervision ++ taken.mask)
    (byteAddresses : between.byteAddresses = state.byteAddresses ++ taken.found)
    (later : Gathered eos documents kept between ended) :
    Gathered eos (taken.document :: documents) (taken :: kept) state ended where
  documents := by
    rw [List.filter_cons_of_pos (by simpa using nonempty), List.map_cons]
    exact List.cons_prefix_cons.mpr ⟨rfl, later.documents⟩
  ids := by rw [later.ids, values, List.flatMap_cons, List.append_assoc]
  supervision := by rw [later.supervision, supervision, List.flatMap_cons, List.append_assoc]
  byteAddresses := by
    rw [later.byteAddresses, byteAddresses, List.flatMap_cons, List.append_assoc]
  cut := by
    intro before cutOff after split short
    have grown : between.values.length = state.values.length + (taken.count + 1) := by
      rw [values, List.length_append, Taken.length_ids]
    cases before with
    | nil =>
      obtain ⟨rfl, rfl⟩ := List.cons.inj split
      have full : between.values.length = limits.maxTokens := by omega
      have nothing := later.full (Nat.le_of_eq full.symm)
      rw [later.ids, nothing, List.flatMap_nil, List.append_nil]
      exact ⟨rfl, full⟩
    | cons first before =>
      obtain ⟨-, rest⟩ := List.cons.inj split
      exact later.cut before cutOff after rest short
  capped := by
    intro within
    refine later.capped ?_
    rw [values, List.length_append, Taken.length_ids]
    omega
  full := by
    intro full
    omega

theorem gather_takes {eos : Int} {documents : List RenderedConversation} :
    ∀ {state ended : Gathering (List Int) (List Bool) (List Int)},
    gather tokenizer limits (listSink Int) (listSink Bool) (listSink Int) eos state documents =
      .ok ended →
    ∃ kept : List (Taken tokenizer limits), Gathered eos documents kept state ended := by
  induction documents with
  | nil =>
    intro state ended gathered
    rw [← Except.ok.inj gathered]
    exact ⟨[], gathered_nothing rfl rfl rfl⟩
  | cons document documents ih =>
    intro state ended gathered
    unfold gather at gathered
    by_cases room : state.stats.acquired < limits.maxDocuments ∧
      (listSink Int).length state.values < limits.maxTokens
    case neg =>
      rw [if_pos room] at gathered
      rw [← Except.ok.inj gathered]
      exact ⟨[], gathered_nothing rfl rfl rfl⟩
    rw [if_neg (not_not.mpr room)] at gathered
    by_cases empty : document.text.isEmpty = true
    case pos =>
      dsimp only at gathered
      rw [if_pos empty] at gathered
      obtain ⟨kept, later⟩ := ih gathered
      have skipped : (document :: documents).filter (fun document => !document.text.isEmpty) =
          documents.filter fun document => !document.text.isEmpty :=
        List.filter_cons_of_neg (by simpa using empty)
      exact ⟨kept, { later with documents := skipped ▸ later.documents }⟩
    dsimp only at gathered
    rw [if_neg empty] at gathered
    obtain ⟨bytes, -, gathered⟩ := bind_eq_ok gathered
    by_cases little : limits.maxTokens - (listSink Int).length state.values ≤ 1
    case pos =>
      rw [if_pos little] at gathered
      rw [← Except.ok.inj gathered]
      exact ⟨[], gathered_nothing rfl rfl rfl⟩
    rw [if_neg little] at gathered
    obtain ⟨found, addressed, gathered⟩ := bind_eq_ok gathered
    obtain ⟨kept, later⟩ := ih gathered
    let taken : Taken tokenizer limits := ⟨document, _, found, Nat.min_le_left _ _, addressed⟩
    exact ⟨taken :: kept,
      gathered_cons taken empty (Nat.lt_of_not_le little) rfl rfl rfl rfl later⟩

theorem collect_takes {spooled : Bool} {documents : List RenderedConversation}
    {arrays : CollectedArrays}
    (collected : collect tokenizer limits spooled documents = .ok arrays) :
    ∃ eos, tokenizer.eos = some eos ∧
      ∃ kept, Collected tokenizer limits eos documents kept arrays := by
  rw [collect_eq, collectWith] at collected
  cases stated : tokenizer.eos with
  | none =>
    rw [stated] at collected
    cases collected
  | some eos =>
    rw [stated] at collected
    obtain ⟨ended, gathered, collected⟩ := bind_eq_ok collected
    obtain ⟨kept, made⟩ := gather_takes gathered
    rw [← Except.ok.inj collected]
    have ids := made.ids
    have supervision := made.supervision
    have byteAddresses := made.byteAddresses
    refine ⟨eos, rfl, kept, made.documents, ids, supervision, ?_, made.cut,
      made.capped (Nat.zero_le _), ?_, ?_⟩
    · exact congrArg (fun addresses => limits.byteTable.map fun _ => addresses) byteAddresses
    · change ended.supervision.length = ended.values.length
      rw [ids, supervision]
      simp [listSink, List.length_flatMap]
    · intro found read
      cases table : limits.byteTable with
      | none =>
        rw [table] at read
        cases read
      | some sizes =>
        rw [table] at read
        rw [← Option.some.inj read]
        change ended.byteAddresses.length = ended.values.length
        have sized : ∀ taken : Taken tokenizer limits, taken.found.length = taken.count + 1 :=
          fun taken => taken.length_found (by rw [table]; rfl)
        rw [ids, byteAddresses]
        simp [listSink, List.length_flatMap, sized]

end

section

def charAuthors (pieces : List Piece) : List Author := pieces.flatMap Piece.authors

theorem length_charAuthors (pieces : List Piece) :
    (charAuthors pieces).length = (piecesText pieces).length := by
  simp [charAuthors, piecesText, List.length_flatMap]

theorem author_said {before after : List Piece} {words : Text} {place : Nat}
    (starts : (piecesText before).length ≤ place)
    (ends : place < (piecesText before).length + (words.length + 1)) :
    (charAuthors (before ++ .said words :: after))[place]? = some .separator ∨
      (charAuthors (before ++ .said words :: after))[place]? = some .assistant := by
  have authors : charAuthors (before ++ .said words :: after) =
      charAuthors before ++ (Piece.authors (.said words) ++ charAuthors after) := by
    simp [charAuthors]
  rw [authors, List.getElem?_append_right (by rw [length_charAuthors]; exact starts),
    length_charAuthors]
  obtain ⟨index, rfl⟩ := Nat.exists_eq_add_of_le starts
  rw [Nat.add_sub_cancel_left]
  cases index with
  | zero => exact .inl rfl
  | succ index =>
    have short : index < (words.map fun _ => Author.assistant).length := by
      rw [List.length_map]
      omega
    refine .inr ?_
    rw [Piece.authors, List.cons_append, List.getElem?_cons_succ,
      List.getElem?_append_left short, List.getElem?_map, List.getElem?_eq_getElem (by omega)]
    rfl

def SaidIn (pieces : List Piece) (place : Nat × Nat) : Prop :=
  place.1 < place.2 ∧ ∃ before words after, pieces = before ++ .said words :: after ∧
    (piecesText before).length ≤ place.1 ∧
    place.2 ≤ (piecesText before).length + (words.length + 1)

theorem SaidIn.author {pieces : List Piece} {place : Nat × Nat} (inside : SaidIn pieces place)
    {index : Nat} (starts : place.1 ≤ index) (ends : index < place.2) :
    (charAuthors pieces)[index]? = some .separator ∨
      (charAuthors pieces)[index]? = some .assistant := by
  obtain ⟨-, before, words, after, rfl, low, high⟩ := inside
  exact author_said (Nat.le_trans low starts) (Nat.lt_of_lt_of_le ends high)

theorem insideSpan_said {pieces : List Piece} {place : Nat × Nat} :
    insideSpan (saidSpans 0 pieces) place = true ↔ SaidIn pieces place := by
  simp only [insideSpan, List.any_eq_true, Bool.and_eq_true, decide_eq_true_eq]
  constructor
  · rintro ⟨span, member, ⟨nonempty, starts⟩, ends⟩
    obtain ⟨before, words, after, split, rfl⟩ := mem_saidSpans.mp member
    exact ⟨nonempty, before, words, after, split, starts, ends⟩
  · rintro ⟨nonempty, before, words, after, split, starts, ends⟩
    exact ⟨_, mem_saidSpans.mpr ⟨before, words, after, split, rfl⟩, ⟨nonempty, starts⟩, ends⟩

structure Masked (pieces : List Piece) (encoding : Encoding) (count : Nat) (mask : List Bool) :
    Prop where
  length : mask.length = count + 1
  token : ∀ index place, index < count → encoding.offsets[index]? = some place →
    (mask[index]? = some true ↔ SaidIn pieces place)
  author : ∀ index place character, index < count → encoding.offsets[index]? = some place →
    mask[index]? = some true → place.1 ≤ character → character < place.2 →
    (charAuthors pieces)[character]? = some .separator ∨
      (charAuthors pieces)[character]? = some .assistant
  ending : mask[count]? = some (decide (count = encoding.ids.length))

variable {tokenizer : ChatTokenizer} {limits : CollectLimits} (taken : Taken tokenizer limits)

theorem Taken.mask_token {index : Nat} (token : index < taken.count) :
    taken.mask[index]? = (supervisionForEncoding taken.document taken.encoding.offsets
      taken.count)[index]? :=
  List.getElem?_append_left (Nat.lt_of_lt_of_eq token taken.length_supervisionForEncoding.symm)

theorem Taken.mask_ending : taken.mask[taken.count]? =
    some (taken.document.lossMode = .allTokens ||
      (taken.count = taken.encoding.ids.length && !taken.document.supervisionSpans.isEmpty)) := by
  have tokens := taken.length_supervisionForEncoding
  rw [encoding] at tokens
  rw [mask, selectedSupervision, List.getElem?_append_right (Nat.le_of_eq tokens), tokens,
    Nat.sub_self]
  rfl

theorem Taken.mask_allTokens (mode : taken.document.lossMode = .allTokens) :
    taken.mask = List.replicate (taken.count + 1) true := by
  rw [mask, selectedSupervision, supervisionForEncoding, if_pos mode, List.replicate_succ']
  simp [mode]

theorem Taken.masked {pieces : List Piece} (mode : taken.document.lossMode = .assistantOnly)
    (spans : taken.document.supervisionSpans = saidSpans 0 pieces)
    (speaks : taken.document.supervisionSpans ≠ []) :
    Masked pieces taken.encoding taken.count taken.mask := by
  have token : ∀ index place, index < taken.count → taken.encoding.offsets[index]? = some place →
      (taken.mask[index]? = some true ↔ SaidIn pieces place) := by
    intro index place earlier found
    rw [taken.mask_token earlier, supervisionForEncoding, if_neg (by rw [mode]; decide),
      List.getElem?_map, List.getElem?_take_of_lt earlier, found, spans, ← insideSpan_said]
    exact Option.some_inj
  refine ⟨taken.length_mask, token, ?_, ?_⟩
  · intro index place character earlier found supervised starts ends
    exact ((token index place earlier found).mp supervised).author starts ends
  · have heard : taken.document.supervisionSpans.isEmpty = false := by
      simpa using speaks
    rw [taken.mask_ending, mode, heard]
    simp

theorem v1Document_mode {path : String} {lineNumber : Nat} {record : Json}
    {rendered : RenderedConversation}
    (accepted : v1Document path lineNumber record = .ok rendered) :
    rendered.lossMode = .allTokens := by
  unfold v1Document at accepted
  obtain ⟨-, accepted⟩ := refuseIf_bind_eq_ok.mp accepted
  obtain ⟨messages, -, accepted⟩ := bind_eq_ok accepted
  obtain ⟨⟨system, parsed⟩, -, accepted⟩ := bind_eq_ok accepted
  obtain ⟨-, accepted⟩ := refuseIf_bind_eq_ok.mp accepted
  obtain ⟨-, accepted⟩ := refuseIf_bind_eq_ok.mp accepted
  obtain ⟨document, -, accepted⟩ := bind_eq_ok accepted
  rw [← Except.ok.inj accepted]

end

section

def greeting (mode : String) : Json :=
  .dict [(text "format_version", .int 2), (text "loss_mode", .str (text mode)),
    (text "messages", .list [
      .dict [(text "role", .str (text "user")), (text "content", .str (text "a"))],
      .dict [(text "role", .str (text "assistant")), (text "content", .str (text "b"))]])]

def greetingDocument (mode : LossMode) : RenderedConversation :=
  ⟨text "User: a\n\nAssistant: b",
    if mode = .assistantOnly then [(19, 21)] else [(0, 21)], mode⟩

def letterTokenizer : ChatTokenizer where
  eos := some 0
  encode := fun document => {
    ids := document.map Int.ofNat
    offsets := (List.range document.length).map fun place => (place, place + 1)
    paired := by simp }
  idToToken := fun _ => none

end

end SparseLab.Data
