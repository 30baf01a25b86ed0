import SparseLab.Corpus.TokenDenominator

/-! What a measurement counts, whatever its batches are. -/

namespace SparseLab.Corpus.Denominator

open Library Cleaning Records NearDuplicates

section

def firstRows (rows : List DocumentRow) : List DocumentRow :=
  rows.foldl (fun kept row =>
    if row.contentSha256 ∈ kept.map DocumentRow.contentSha256 then kept else kept ++ [row]) []

theorem firstRows_concat (rows : List DocumentRow) (row : DocumentRow) :
    firstRows (rows ++ [row]) =
      if row.contentSha256 ∈ (firstRows rows).map DocumentRow.contentSha256 then firstRows rows
      else firstRows rows ++ [row] := by
  rw [firstRows, List.foldl_append]
  rfl

theorem mem_firstRows {rows : List DocumentRow} {digest : Text} :
    digest ∈ (firstRows rows).map DocumentRow.contentSha256 ↔
      digest ∈ rows.map DocumentRow.contentSha256 := by
  induction rows using List.reverseRecOn with
  | nil => rfl
  | append_singleton rows row ih =>
    rw [firstRows_concat, List.map_append, List.mem_append, List.map_singleton,
      List.mem_singleton, ← ih]
    by_cases known : row.contentSha256 ∈ (firstRows rows).map DocumentRow.contentSha256
    · rw [if_pos known]
      constructor
      · exact Or.inl
      · rintro (inside | rfl)
        · exact inside
        · exact known
    · rw [if_neg known, List.map_append, List.mem_append, List.map_singleton, List.mem_singleton]

theorem nodup_firstRows (rows : List DocumentRow) :
    ((firstRows rows).map DocumentRow.contentSha256).Nodup := by
  induction rows using List.reverseRecOn with
  | nil => exact List.nodup_nil
  | append_singleton rows row ih =>
    rw [firstRows_concat]
    by_cases known : row.contentSha256 ∈ (firstRows rows).map DocumentRow.contentSha256
    · rw [if_pos known]
      exact ih
    · rw [if_neg known, List.map_append, List.map_singleton]
      exact List.nodup_append.mpr ⟨ih, List.nodup_singleton _, fun digest inside other last => by
        rw [List.mem_singleton.mp last]
        rintro rfl
        exact known inside⟩

theorem length_firstRows (rows : List DocumentRow) :
    (firstRows rows).length = (rows.map DocumentRow.contentSha256).dedup.length := by
  have perm : ((firstRows rows).map DocumentRow.contentSha256).Perm
      (rows.map DocumentRow.contentSha256).dedup := by
    rw [List.perm_ext_iff_of_nodup (nodup_firstRows rows) (List.nodup_dedup _)]
    intro digest
    rw [mem_firstRows, List.mem_dedup]
  rw [← perm.length_eq, List.length_map]

end

section

def eligibleRows (rows : List DocumentRow) (domain : Text) : List DocumentRow :=
  rows.filter fun row => row.Kept ∧ domain ∈ row.domains

def textBytes (row : DocumentRow) : Nat := (utf8Length row.text).getD 0

def denominator (tokenizer : Option Tokenizer) (rows : List DocumentRow) (domain : Text) : Counts :=
  let firsts := firstRows (eligibleRows rows domain)
  { eligibleDocuments := (eligibleRows rows domain).length
    distinctDocuments := ((eligibleRows rows domain).map DocumentRow.contentSha256).dedup.length
    sourceBytes := (firsts.map textBytes).sum
    sourceTokens := tokenizer.map fun tokenizer =>
      (firsts.map fun row => (tokenizer.encode row.text).length).sum }

def Present (options : Options) (rows : List DocumentRow) (domain : Text) : Prop :=
  domain ∈ options.requested ∨ (options.allDomains = true ∧ eligibleRows rows domain ≠ [])

instance (options : Options) (rows : List DocumentRow) (domain : Text) :
    Decidable (Present options rows domain) := inferInstanceAs (Decidable (_ ∨ _))

variable {tokenizer : Tokenizer} {progress next : Progress} {domains : Text → Option Counts}
  {labels : List Text} {domain : Text}

theorem foldl_alter (change : Counts → Counts) (distinct : labels.Nodup) :
    labels.foldl (alter change) domains domain =
      if domain ∈ labels then (domains domain).map change else domains domain := by
  induction labels generalizing domains with
  | nil => rfl
  | cons label labels ih =>
    obtain ⟨own, rest⟩ := List.nodup_cons.mp distinct
    rw [List.foldl_cons, ih rest, alter]
    by_cases here : domain = label
    · subst here
      rw [if_neg own, if_pos List.mem_cons_self, Function.update_self]
    · rw [Function.update_of_ne here]
      by_cases there : domain ∈ labels
      · rw [if_pos there, if_pos (List.mem_cons_of_mem _ there)]
      · rw [if_neg there, if_neg (by simp [here, there])]

def owed (tokenizer : Tokenizer) (domain : Text) (pending : List (Text × List Text)) : Nat :=
  (pending.map fun entry =>
    if domain ∈ entry.2 then (tokenizer.encode entry.1).length else 0).sum

theorem Counts.addTokens_zero (counts : Counts) : counts.addTokens 0 = counts := by
  obtain ⟨eligible, distinct, bytes, tokens⟩ := counts
  cases tokens <;> rfl

theorem Counts.addTokens_add (counts : Counts) (first second : Nat) :
    (counts.addTokens first).addTokens second = counts.addTokens (first + second) := by
  obtain ⟨eligible, distinct, bytes, tokens⟩ := counts
  cases tokens with
  | none => rfl
  | some tokens => simp [Counts.addTokens, Nat.add_assoc]

theorem foldl_entries {pending : List (Text × List Text)}
    (distinct : ∀ entry ∈ pending, entry.2.Nodup) :
    ((pending.map fun entry => (tokenizer.encode entry.1, entry.2)).foldl (fun domains entry =>
      entry.2.foldl (alter fun counts => counts.addTokens entry.1.length) domains) domains) domain =
      (domains domain).map fun counts => counts.addTokens (owed tokenizer domain pending) := by
  induction pending generalizing domains with
  | nil =>
    have same : (fun counts : Counts => counts.addTokens (owed tokenizer domain [])) = id :=
      funext Counts.addTokens_zero
    rw [same, Option.map_id]
    rfl
  | cons entry pending ih =>
    obtain ⟨own, rest⟩ := List.forall_mem_cons.mp distinct
    rw [List.map_cons, List.foldl_cons, ih rest, foldl_alter _ own]
    have total : owed tokenizer domain (entry :: pending) =
        (if domain ∈ entry.2 then (tokenizer.encode entry.1).length else 0) +
          owed tokenizer domain pending := by
      rw [owed, List.map_cons, List.sum_cons]
      rfl
    rw [total]
    by_cases here : domain ∈ entry.2
    · rw [if_pos here, if_pos here, Option.map_map]
      congr 1
      funext counts
      exact counts.addTokens_add _ _
    · rw [if_neg here, if_neg here, Nat.zero_add]

/-- `encode_batch` encodes each text as `encode` does. -/
def Tokenizer.Agrees (tokenizer : Tokenizer) : Prop :=
  ∀ texts, tokenizer.encodeBatch texts = texts.map tokenizer.encode

theorem encodeTexts_eq (agrees : tokenizer.Agrees) (texts : List Text) :
    encodeTexts tokenizer texts = texts.map tokenizer.encode := by
  match texts with
  | [] => exact agrees []
  | [_] => rfl
  | first :: second :: rest => exact agrees (first :: second :: rest)

theorem flush_spec (agrees : tokenizer.Agrees)
    (distinct : ∀ entry ∈ progress.pending, entry.2.Nodup) :
    ∃ next, flush tokenizer progress = .ok next ∧ next.pending = [] ∧ next.seen = progress.seen ∧
      next.rowsScanned = progress.rowsScanned ∧ ∀ domain, next.domains domain =
        (progress.domains domain).map fun counts =>
          counts.addTokens (owed tokenizer domain progress.pending) := by
  have paired : ∀ pending : List (Text × List Text),
      (pending.map fun entry => tokenizer.encode entry.1).zip (pending.map Prod.snd) =
        pending.map fun entry => (tokenizer.encode entry.1, entry.2) := by
    intro pending
    induction pending with
    | nil => rfl
    | cons entry pending ih => simp only [List.map_cons, List.zip_cons_cons, ih]
  cases batch : progress.pending with
  | nil =>
    refine ⟨progress, by rw [flush, batch], batch, rfl, rfl, fun domain => ?_⟩
    have same : (fun counts : Counts => counts.addTokens (owed tokenizer domain [])) = id :=
      funext Counts.addTokens_zero
    rw [same, Option.map_id]
    rfl
  | cons entry rest =>
    have encodings : encodeTexts tokenizer ((entry :: rest).map Prod.fst) =
        (entry :: rest).map fun entry => tokenizer.encode entry.1 := by
      rw [encodeTexts_eq agrees, List.map_map]
      rfl
    rw [batch] at distinct
    refine ⟨{ progress with
      domains := ((entry :: rest).map fun entry =>
        (tokenizer.encode entry.1, entry.2)).foldl (fun domains entry => entry.2.foldl
          (alter fun counts => counts.addTokens entry.1.length) domains) progress.domains
      pending := []
      batchBytes := 0
      batchCount := progress.batchCount + 1 }, ?_, rfl, rfl, rfl,
        fun domain => foldl_entries distinct⟩
    rw [flush, batch]
    simp only [encodings]
    rw [if_neg (by simp), paired]

theorem foldl_countDomain {digest : Text} {seen : List (Text × Text)} {before : List Text}
    (distinct : labels.Nodup) :
    ∃ counted, labels.foldl (countDomain digest) (domains, seen, before) =
        (counted, seen ++ (labels.filter fun label => (label, digest) ∉ seen).map (·, digest),
          before ++ labels.filter fun label => (label, digest) ∉ seen) ∧
      ∀ domain, counted domain = if domain ∈ labels then
        (domains domain).map fun counts => counts.addDocument ((domain, digest) ∉ seen)
        else domains domain := by
  induction labels generalizing domains seen before with
  | nil => exact ⟨domains, by simp, fun _ => rfl⟩
  | cons label labels ih =>
    obtain ⟨own, rest⟩ := List.nodup_cons.mp distinct
    have later : ∀ other ∈ labels, ∀ known : List (Text × Text),
        ((other, digest) ∉ known ++ [(label, digest)]) = ((other, digest) ∉ known) := by
      intro other inside known
      have differs : other ≠ label := fun same => own (same ▸ inside)
      simp [differs]
    by_cases fresh : (label, digest) ∈ seen
    · obtain ⟨counted, folded, each⟩ := @ih
        (alter (fun counts => counts.addDocument false) domains label) seen before rest
      refine ⟨counted, ?_, fun domain => ?_⟩
      · rw [List.foldl_cons, List.filter_cons_of_neg (by simpa using fresh), ← folded]
        simp [countDomain, fresh]
      · rw [each, alter]
        by_cases here : domain = label
        · subst here
          rw [if_neg own, if_pos List.mem_cons_self, Function.update_self]
          simp [fresh]
        · rw [Function.update_of_ne here]
          by_cases there : domain ∈ labels
          · rw [if_pos there, if_pos (List.mem_cons_of_mem _ there)]
          · rw [if_neg there, if_neg (by simp [here, there])]
    · obtain ⟨counted, folded, each⟩ := @ih
        (alter (fun counts => counts.addDocument true) domains label)
        (seen ++ [(label, digest)]) (before ++ [label]) rest
      have same : (labels.filter fun other => (other, digest) ∉ seen ++ [(label, digest)]) =
          labels.filter fun other => (other, digest) ∉ seen :=
        List.filter_congr fun other inside => by simp only [later other inside seen]
      refine ⟨counted, ?_, fun domain => ?_⟩
      · rw [List.foldl_cons, List.filter_cons_of_pos (by simpa using fresh)]
        have first : countDomain digest (domains, seen, before) label =
            (alter (fun counts => counts.addDocument true) domains label,
              seen ++ [(label, digest)], before ++ [label]) := by
          simp [countDomain, fresh]
        rw [first, folded, same]
        simp
      · rw [each, alter]
        by_cases here : domain = label
        · subst here
          rw [if_neg own, if_pos List.mem_cons_self, Function.update_self]
          simp [fresh]
        · rw [Function.update_of_ne here]
          by_cases there : domain ∈ labels
          · rw [if_pos there, if_pos (List.mem_cons_of_mem _ there)]
            have unseen := later domain there seen
            simp only [unseen]
          · rw [if_neg there, if_neg (by simp [here, there])]

theorem foldl_open (zero : Counts) :
    labels.foldl (fun domains label =>
      Function.update domains label (some ((domains label).getD zero))) domains domain =
      if domain ∈ labels then some ((domains domain).getD zero) else domains domain := by
  induction labels generalizing domains with
  | nil => rfl
  | cons label labels ih =>
    rw [List.foldl_cons, ih]
    by_cases here : domain = label
    · subst here
      rw [Function.update_self, if_pos List.mem_cons_self]
      by_cases there : domain ∈ labels
      · rw [if_pos there]
        rfl
      · rw [if_neg there]
    · rw [Function.update_of_ne here]
      by_cases there : domain ∈ labels
      · rw [if_pos there, if_pos (List.mem_cons_of_mem _ there)]
      · rw [if_neg there, if_neg (by simp [here, there])]

end

section

variable {options : Options} {tokenizer : Tokenizer} {progress next : Progress} {rows : List DocumentRow}
  {row : DocumentRow} {labels : List Text} {domain : Text}

def tokenCount (tokenizer : Option Tokenizer) (content : Text) : Nat :=
  (tokenizer.map fun tokenizer => (tokenizer.encode content).length).getD 0

def settled (tokenizer : Option Tokenizer) (progress : Progress) (domain : Text) : Option Counts :=
  (progress.domains domain).map fun counts => counts.addTokens
    (progress.pending.map fun entry =>
      if domain ∈ entry.2 then tokenCount tokenizer entry.1 else 0).sum

structure WellLabelled (progress : Progress) : Prop where
  nodup : ∀ entry ∈ progress.pending, entry.2.Nodup
  known : ∀ entry ∈ progress.pending, ∀ label ∈ entry.2, (progress.domains label).isSome

theorem settled_some (domain : Text) : settled (some tokenizer) progress domain =
    (progress.domains domain).map fun counts =>
      counts.addTokens (owed tokenizer domain progress.pending) := rfl

theorem flush_settled (agrees : tokenizer.Agrees) (labelled : WellLabelled progress)
    (flushed : flush tokenizer progress = .ok next) :
    (∀ domain, settled (some tokenizer) next domain = settled (some tokenizer) progress domain) ∧
      next.pending = [] ∧ next.seen = progress.seen ∧ next.rowsScanned = progress.rowsScanned ∧
        ∀ domain, (next.domains domain).isSome = (progress.domains domain).isSome := by
  obtain ⟨result, returned, pending, seen, scanned, each⟩ := flush_spec agrees labelled.nodup
  rw [flushed] at returned
  cases returned
  refine ⟨fun domain => ?_, pending, seen, scanned, fun domain => ?_⟩
  · have none : (fun counts : Counts => counts.addTokens (owed tokenizer domain [])) = id :=
      funext Counts.addTokens_zero
    rw [settled_some, settled_some, each, pending, none, Option.map_id]
    rfl
  · rw [each, Option.isSome_map]

theorem encodeRow_settled (agrees : tokenizer.Agrees) (labelled : WellLabelled progress)
    (distinct : labels.Nodup) (known : ∀ label ∈ labels, (progress.domains label).isSome)
    {content : Text} {length : Nat}
    (encoded : encodeRow options tokenizer progress content labels length = .ok next) :
    (∀ domain, settled (some tokenizer) next domain = if domain ∈ labels then
      (settled (some tokenizer) progress domain).map fun counts =>
        counts.addTokens (tokenizer.encode content).length
      else settled (some tokenizer) progress domain) ∧ next.seen = progress.seen ∧
        next.rowsScanned = progress.rowsScanned ∧ WellLabelled next ∧
          ∀ domain, (next.domains domain).isSome = (progress.domains domain).isSome := by
  obtain ⟨flushed, before, rest⟩ := bind_eq_ok encoded
  have first : (∀ domain, settled (some tokenizer) flushed domain =
      settled (some tokenizer) progress domain) ∧ flushed.seen = progress.seen ∧
        flushed.rowsScanned = progress.rowsScanned ∧ WellLabelled flushed ∧
          ∀ domain, (flushed.domains domain).isSome = (progress.domains domain).isSome := by
    unfold makeRoom at before
    split at before
    · obtain ⟨same, empty, seen, scanned, keys⟩ := flush_settled agrees labelled before
      exact ⟨same, seen, scanned, ⟨by simp [empty], by simp [empty]⟩, keys⟩
    · cases before
      exact ⟨fun _ => rfl, rfl, rfl, labelled, fun _ => rfl⟩
  obtain ⟨same, seen, scanned, labelled', keys⟩ := first
  by_cases large : options.batchSourceBytes < length
  · rw [if_pos large] at rest
    obtain ⟨-, rest⟩ := refuseIf_bind_eq_ok.mp rest
    cases rest
    refine ⟨fun domain => ?_, seen, scanned, ⟨labelled'.nodup, fun entry member label inside => ?_⟩,
      fun domain => ?_⟩
    · rw [← same domain, settled_some, settled_some]
      simp only [foldl_alter _ distinct]
      by_cases here : domain ∈ labels
      · rw [if_pos here, if_pos here, Option.map_map, Option.map_map]
        congr 1
        funext counts
        simp [Counts.addTokens_add, Nat.add_comm]
      · rw [if_neg here, if_neg here]
    · simp only [foldl_alter _ distinct]
      split
      · rw [Option.isSome_map]
        exact labelled'.known entry member label inside
      · exact labelled'.known entry member label inside
    · simp only [foldl_alter _ distinct]
      rw [← keys domain]
      split
      · rw [Option.isSome_map]
      · rfl
  · rw [if_neg large] at rest
    let added : Progress :=
      { flushed with
        pending := flushed.pending ++ [(content, labels)]
        batchBytes := flushed.batchBytes + length }
    have whole : ∀ domain, settled (some tokenizer) added domain = if domain ∈ labels then
        (settled (some tokenizer) progress domain).map fun counts =>
          counts.addTokens (tokenizer.encode content).length
        else settled (some tokenizer) progress domain := by
      intro domain
      have total : owed tokenizer domain (flushed.pending ++ [(content, labels)]) =
          owed tokenizer domain flushed.pending +
            if domain ∈ labels then (tokenizer.encode content).length else 0 := by
        rw [owed, List.map_append, List.sum_append]
        simp [owed]
      rw [← same domain, settled_some, settled_some, total]
      by_cases here : domain ∈ labels
      · rw [if_pos here, if_pos here, Option.map_map]
        congr 1
        funext counts
        exact (counts.addTokens_add _ _).symm
      · rw [if_neg here, if_neg here, Nat.add_zero]
    have labelled'' : WellLabelled added := by
      constructor
      · intro entry member
        rcases List.mem_append.mp member with old | new
        · exact labelled'.nodup entry old
        · rw [List.mem_singleton.mp new]
          exact distinct
      · intro entry member label inside
        rcases List.mem_append.mp member with old | new
        · exact labelled'.known entry old label inside
        · rw [List.mem_singleton.mp new] at inside
          change (flushed.domains label).isSome
          rw [keys]
          exact known label inside
    simp only at rest
    split at rest
    · obtain ⟨same', empty, seen', scanned', keys'⟩ := flush_settled agrees labelled'' rest
      exact ⟨fun domain => (same' domain).trans (whole domain), seen'.trans seen,
        scanned'.trans scanned, ⟨by simp [empty], by simp [empty]⟩,
          fun domain => (keys' domain).trans (keys domain)⟩
    · cases rest
      exact ⟨whole, seen, scanned, labelled'', keys⟩

def countRow (tokenizer : Option Tokenizer) (row : DocumentRow) (fresh : Bool) (counts : Counts) :
    Counts :=
  if fresh then
    ((counts.addDocument true).addBytes (textBytes row)).addTokens (tokenCount tokenizer row.text)
  else counts.addDocument false

theorem settled_getD (labelled : WellLabelled progress) (tokenizer : Option Tokenizer)
    (domain : Text) (zero : Counts) : (settled tokenizer progress domain).getD zero =
      ((progress.domains domain).getD zero).addTokens (progress.pending.map fun entry =>
        if domain ∈ entry.2 then tokenCount tokenizer entry.1 else 0).sum := by
  unfold settled
  cases found : progress.domains domain with
  | some counts => rfl
  | none =>
    have nothing : ∀ entry ∈ progress.pending,
        (if domain ∈ entry.2 then tokenCount tokenizer entry.1 else 0) = 0 := by
      intro entry member
      refine if_neg fun inside => ?_
      have known := labelled.known entry member domain inside
      rw [found] at known
      cases known
    have none : (progress.pending.map fun entry =>
        if domain ∈ entry.2 then tokenCount tokenizer entry.1 else 0).sum = 0 := by
      refine List.sum_eq_zero_iff_forall_eq_nat.mpr fun count member => ?_
      obtain ⟨entry, inside, rfl⟩ := List.mem_map.mp member
      exact nothing entry inside
    rw [none]
    exact (Counts.addTokens_zero zero).symm

theorem mem_applicable : domain ∈ applicable options progress row ↔ domain ∈ row.domains ∧
    (options.allDomains = true ∨ (progress.domains domain).isSome = true) := by
  simp [applicable, List.mem_insertionSort]

theorem nodup_applicable : (applicable options progress row).Nodup :=
  (List.perm_insertionSort _ _).nodup_iff.mpr ((List.nodup_dedup _).filter _)

theorem measureRow_settled (agrees : ∀ tokenizer ∈ options.tokenizer, tokenizer.Agrees)
    (labelled : WellLabelled progress) (kept : row.Kept)
    (measured : measureRow options progress row = .ok next) :
    (∀ domain, settled options.tokenizer next domain =
      if domain ∈ applicable options progress row then
        some (countRow options.tokenizer row ((domain, row.contentSha256) ∉ progress.seen)
          ((settled options.tokenizer progress domain).getD (Counts.zero options.tokenizer)))
      else settled options.tokenizer progress domain) ∧
    next.seen = progress.seen ++ ((applicable options progress row).filter fun domain =>
      (domain, row.contentSha256) ∉ progress.seen).map (·, row.contentSha256) ∧
    next.rowsScanned = progress.rowsScanned ∧ WellLabelled next := by
  rw [measureRow, if_neg (not_not.mpr kept)] at measured
  simp only at measured
  have distinct : (applicable options progress row).Nodup := nodup_applicable
  generalize applicable options progress row = labels at measured distinct ⊢
  by_cases none : labels = []
  · rw [if_pos none] at measured
    cases measured
    subst none
    exact ⟨fun _ => rfl, by simp, rfl, labelled⟩
  · rw [if_neg none] at measured
    obtain ⟨length, encoded, rest⟩ := bind_eq_ok measured
    obtain ⟨-, rest⟩ := refuseIf_bind_eq_ok.mp rest
    have bytes : textBytes row = length := by
      unfold encodedLength at encoded
      rw [textBytes]
      cases width : utf8Length row.text with
      | none =>
        rw [width] at encoded
        cases encoded
      | some found =>
        rw [width] at encoded
        cases encoded
        rfl
    obtain ⟨counted, folded, each⟩ := @foldl_countDomain
      (labels.foldl (fun domains domain => Function.update domains domain
        (some ((domains domain).getD (Counts.zero options.tokenizer)))) progress.domains)
      labels row.contentSha256 progress.seen [] distinct
    rw [folded, List.nil_append] at rest
    simp only at rest
    have opened : ∀ domain, counted domain = if domain ∈ labels then
        some (((progress.domains domain).getD (Counts.zero options.tokenizer)).addDocument
          ((domain, row.contentSha256) ∉ progress.seen))
        else progress.domains domain := by
      intro domain
      rw [each, foldl_open]
      by_cases here : domain ∈ labels
      · rw [if_pos here, if_pos here, if_pos here]
        rfl
      · rw [if_neg here, if_neg here, if_neg here]
    have fresh_iff : ∀ domain, (domain ∈ labels.filter fun domain =>
        (domain, row.contentSha256) ∉ progress.seen) ↔
          domain ∈ labels ∧ (domain, row.contentSha256) ∉ progress.seen := by
      intro domain
      simp
    generalize freshEq : (labels.filter fun domain =>
      (domain, row.contentSha256) ∉ progress.seen) = fresh at rest fresh_iff ⊢
    have freshNodup : fresh.Nodup := by
      rw [← freshEq]
      exact distinct.filter _
    let credited : Progress :=
      { progress with
        domains := fresh.foldl (alter fun counts => counts.addBytes length) counted
        seen := progress.seen ++ fresh.map (·, row.contentSha256) }
    have credits : ∀ domain, settled options.tokenizer credited domain = if domain ∈ labels then
        some (let counts := ((settled options.tokenizer progress domain).getD
            (Counts.zero options.tokenizer)).addDocument ((domain, row.contentSha256) ∉ progress.seen)
          if domain ∈ fresh then counts.addBytes length else counts)
        else settled options.tokenizer progress domain := by
      intro domain
      have own : credited.domains domain = if domain ∈ fresh then
          (counted domain).map fun counts => counts.addBytes length else counted domain :=
        foldl_alter _ freshNodup
      rw [settled_getD labelled, settled, own, opened]
      by_cases here : domain ∈ labels
      · rw [if_pos here, if_pos here]
        by_cases new : domain ∈ fresh
        · rw [if_pos new, if_pos new]
          rfl
        · rw [if_neg new, if_neg new]
          rfl
      · have old : domain ∉ fresh := fun new => here ((fresh_iff domain).mp new).1
        rw [if_neg here, if_neg here, if_neg old]
        rfl
    have keys : ∀ domain, (credited.domains domain).isSome = true ↔
        domain ∈ labels ∨ (progress.domains domain).isSome = true := by
      intro domain
      have some := congrArg Option.isSome (credits domain)
      unfold settled at some
      rw [Option.isSome_map] at some
      rw [some]
      by_cases here : domain ∈ labels
      · rw [if_pos here]
        simp [here]
      · rw [if_neg here, Option.isSome_map]
        simp [here]
    have labelled' : WellLabelled credited :=
      ⟨labelled.nodup, fun entry member label inside =>
        (keys label).mpr (Or.inr (labelled.known entry member label inside))⟩
    have counts_eq : ∀ domain ∈ labels, ∀ counts : Counts,
        countRow options.tokenizer row ((domain, row.contentSha256) ∉ progress.seen) counts =
          let counts := counts.addDocument ((domain, row.contentSha256) ∉ progress.seen)
          if domain ∈ fresh then
            (counts.addBytes length).addTokens (tokenCount options.tokenizer row.text)
          else counts := by
      intro domain here counts
      by_cases new : (domain, row.contentSha256) ∈ progress.seen
      · have old : domain ∉ fresh := fun inside => ((fresh_iff domain).mp inside).2 new
        simp [countRow, new, old]
      · have inside : domain ∈ fresh := (fresh_iff domain).mpr ⟨here, new⟩
        simp [countRow, new, inside, bytes]
    by_cases empty : fresh = []
    · rw [if_pos empty] at rest
      cases rest
      have same : credited = { progress with
          domains := counted
          seen := progress.seen ++ fresh.map (·, row.contentSha256) } := by
        simp [credited, empty]
      rw [← same]
      refine ⟨fun domain => ?_, rfl, rfl, labelled'⟩
      rw [credits]
      by_cases here : domain ∈ labels
      · rw [if_pos here, if_pos here, counts_eq domain here]
        simp [empty]
      · rw [if_neg here, if_neg here]
    · rw [if_neg empty] at rest
      cases model : options.tokenizer with
      | none =>
        rw [model] at rest credits counts_eq
        cases rest
        refine ⟨fun domain => ?_, rfl, rfl, labelled'⟩
        rw [credits]
        by_cases here : domain ∈ labels
        · rw [if_pos here, if_pos here, counts_eq domain here]
          by_cases new : domain ∈ fresh
          · simp only [if_pos new]
            exact congrArg Option.some (Counts.addTokens_zero _).symm
          · simp only [if_neg new]
        · rw [if_neg here, if_neg here]
      | some tokenizer =>
        rw [model] at rest credits counts_eq
        obtain ⟨whole, seen, scanned, labelled'', -⟩ :=
          encodeRow_settled (agrees tokenizer model) labelled' freshNodup
            (fun label new => (keys label).mpr (Or.inl ((fresh_iff label).mp new).1)) rest
        refine ⟨fun domain => ?_, seen, scanned, labelled''⟩
        rw [whole, credits]
        by_cases here : domain ∈ labels
        · rw [if_pos here, if_pos here, counts_eq domain here]
          by_cases new : domain ∈ fresh
          · simp only [if_pos new]
            rfl
          · simp only [if_neg new]
        · have old : domain ∉ fresh := fun new => here ((fresh_iff domain).mp new).1
          rw [if_neg here, if_neg here, if_neg old]

end

section

variable {options : Options} {progress next : Progress} {rows : List DocumentRow} {row : DocumentRow}
  {domain : Text}

theorem eligibleRows_concat : eligibleRows (rows ++ [row]) domain =
    if row.Kept ∧ domain ∈ row.domains then eligibleRows rows domain ++ [row]
    else eligibleRows rows domain := by
  rw [eligibleRows, List.filter_append]
  by_cases here : row.Kept ∧ domain ∈ row.domains
  · rw [if_pos here, List.filter_cons_of_pos (by simpa using here)]
    rfl
  · rw [if_neg here, List.filter_cons_of_neg (by simpa using here)]
    exact List.append_nil _

theorem denominator_nil (tokenizer : Option Tokenizer) (empty : eligibleRows rows domain = []) :
    denominator tokenizer rows domain = Counts.zero tokenizer := by
  rw [denominator, empty]
  rfl

theorem denominator_concat (tokenizer : Option Tokenizer) (here : row.Kept ∧ domain ∈ row.domains) :
    denominator tokenizer (rows ++ [row]) domain = countRow tokenizer row
      (row.contentSha256 ∉ (eligibleRows rows domain).map DocumentRow.contentSha256)
      (denominator tokenizer rows domain) := by
  have firsts := firstRows_concat (eligibleRows rows domain) row
  have count := length_firstRows (eligibleRows rows domain)
  have count' := length_firstRows (eligibleRows rows domain ++ [row])
  simp only [mem_firstRows] at firsts
  rw [denominator, denominator, eligibleRows_concat, if_pos here]
  rw [← count, ← count', firsts]
  by_cases known : row.contentSha256 ∈ (eligibleRows rows domain).map DocumentRow.contentSha256
  · rw [if_pos known]
    simp [countRow, known, Counts.addDocument]
  · rw [if_neg known]
    cases tokenizer with
    | none => simp [countRow, known, Counts.addDocument, Counts.addBytes, Counts.addTokens]
    | some tokenizer =>
      simp [countRow, known, Counts.addDocument, Counts.addBytes, Counts.addTokens, tokenCount]

structure Consistent (options : Options) (rows : List DocumentRow) (progress : Progress) : Prop where
  counts : ∀ domain, settled options.tokenizer progress domain =
    if Present options rows domain then some (denominator options.tokenizer rows domain) else none
  seen : ∀ domain digest, (domain, digest) ∈ progress.seen ↔ Present options rows domain ∧
    digest ∈ (eligibleRows rows domain).map DocumentRow.contentSha256
  labelled : WellLabelled progress
  scanned : progress.rowsScanned = rows.length

theorem Consistent.isSome (consistent : Consistent options rows progress) (domain : Text) :
    (progress.domains domain).isSome = true ↔ Present options rows domain := by
  have some := congrArg Option.isSome (consistent.counts domain)
  rw [settled, Option.isSome_map] at some
  rw [some]
  by_cases present : Present options rows domain
  · simp [present]
  · simp [present]

theorem start_consistent : Consistent options [] (start options) := by
  have none : ∀ domain, Present options [] domain ↔ domain ∈ options.requested := by
    intro domain
    simp [Present, eligibleRows]
  refine ⟨fun domain => ?_, ?_, ⟨by simp [start], by simp [start]⟩, rfl⟩
  · rw [denominator_nil _ rfl]
    by_cases asked : domain ∈ options.requested
    · rw [if_pos ((none domain).mpr asked), settled, start]
      simp only [if_pos asked, Option.map_some, List.map_nil, List.sum_nil, Counts.addTokens_zero]
    · rw [if_neg (mt (none domain).mp asked), settled, start]
      simp only [if_neg asked, Option.map_none]
  · intro domain digest
    simp [start, eligibleRows]

theorem measureRow_consistent (agrees : ∀ tokenizer ∈ options.tokenizer, tokenizer.Agrees)
    (consistent : Consistent options rows progress)
    (measured : measureRow options { progress with rowsScanned := progress.rowsScanned + 1 } row =
      .ok next) : Consistent options (rows ++ [row]) next := by
  by_cases kept : row.Kept
  · obtain ⟨counts, seen, scanned, labelled⟩ := @measureRow_settled options
      { progress with rowsScanned := progress.rowsScanned + 1 } next row agrees
      ⟨consistent.labelled.nodup, consistent.labelled.known⟩ kept measured
    have label_iff : ∀ domain, domain ∈ applicable options
        { progress with rowsScanned := progress.rowsScanned + 1 } row ↔
          domain ∈ row.domains ∧ (options.allDomains = true ∨ Present options rows domain) := by
      intro domain
      rw [mem_applicable]
      exact and_congr_right fun _ => or_congr_right (consistent.isSome domain)
    have present_iff : ∀ domain, Present options (rows ++ [row]) domain ↔
        Present options rows domain ∨ (domain ∈ row.domains ∧ options.allDomains = true) := by
      intro domain
      rw [Present, Present, eligibleRows_concat]
      by_cases here : domain ∈ row.domains
      · rw [if_pos ⟨kept, here⟩]
        simp only [here]
        constructor
        · rintro (asked | ⟨all, -⟩)
          · exact Or.inl (Or.inl asked)
          · exact Or.inr ⟨trivial, all⟩
        · rintro ((asked | ⟨all, -⟩) | ⟨-, all⟩)
          · exact Or.inl asked
          · exact Or.inr ⟨all, by simp⟩
          · exact Or.inr ⟨all, by simp⟩
      · rw [if_neg (fun both => here both.2)]
        simp [here]
    have old : ∀ domain, (domain, row.contentSha256) ∈ progress.seen ↔
        Present options rows domain ∧
          row.contentSha256 ∈ (eligibleRows rows domain).map DocumentRow.contentSha256 :=
      fun domain => consistent.seen domain _
    have unseen : ∀ domain, domain ∈ row.domains →
        (options.allDomains = true ∨ Present options rows domain) →
        ((domain, row.contentSha256) ∈ progress.seen ↔
          row.contentSha256 ∈ (eligibleRows rows domain).map DocumentRow.contentSha256) := by
      intro domain _ counted
      rw [old]
      constructor
      · exact And.right
      · intro known
        refine ⟨?_, known⟩
        rcases counted with all | present
        · refine Or.inr ⟨all, fun empty => ?_⟩
          rw [empty] at known
          cases known
        · exact present
    refine ⟨fun domain => ?_, fun domain digest => ?_, labelled, ?_⟩
    · rw [counts]
      by_cases here : domain ∈ row.domains ∧ (options.allDomains = true ∨ Present options rows domain)
      · have present : Present options (rows ++ [row]) domain := by
          rw [present_iff]
          rcases here.2 with all | present
          · exact Or.inr ⟨here.1, all⟩
          · exact Or.inl present
        have before : (settled options.tokenizer
            { progress with rowsScanned := progress.rowsScanned + 1 } domain).getD
              (Counts.zero options.tokenizer) = denominator options.tokenizer rows domain := by
          change (settled options.tokenizer progress domain).getD _ = _
          rw [consistent.counts]
          by_cases there : Present options rows domain
          · rw [if_pos there]
            rfl
          · have empty : eligibleRows rows domain = [] := by
              by_contra some
              rcases here.2 with all | present
              · exact there (Or.inr ⟨all, some⟩)
              · exact there present
            rw [if_neg there, denominator_nil _ empty]
            rfl
        rw [if_pos ((label_iff domain).mpr here), if_pos present, before,
          denominator_concat _ ⟨kept, here.1⟩]
        simp only [unseen domain here.1 here.2]
      · rw [if_neg (mt (label_iff domain).mp here)]
        change settled options.tokenizer progress domain = _
        rw [consistent.counts]
        by_cases inside : domain ∈ row.domains
        · have neither := not_or.mp fun counted => here ⟨inside, counted⟩
          have absent : ¬ Present options (rows ++ [row]) domain := by
            rw [present_iff]
            rintro (present | ⟨-, all⟩)
            · exact neither.2 present
            · exact neither.1 all
          rw [if_neg neither.2, if_neg absent]
        · have same : denominator options.tokenizer (rows ++ [row]) domain =
              denominator options.tokenizer rows domain := by
            rw [denominator, denominator, eligibleRows_concat, if_neg fun both => inside both.2]
          have alike : Present options (rows ++ [row]) domain ↔ Present options rows domain := by
            rw [present_iff]
            simp [inside]
          rw [same]
          simp only [alike]
    · rw [seen, List.mem_append, List.mem_map]
      change (domain, digest) ∈ progress.seen ∨ _ ↔ _
      rw [consistent.seen, eligibleRows_concat, present_iff]
      by_cases here : domain ∈ row.domains
      · rw [if_pos ⟨kept, here⟩, List.map_append, List.mem_append, List.map_singleton,
          List.mem_singleton]
        constructor
        · rintro (⟨present, known⟩ | ⟨label, fresh, same⟩)
          · exact ⟨Or.inl present, Or.inl known⟩
          · obtain ⟨rfl, rfl⟩ := Prod.mk.inj same
            obtain ⟨-, counted⟩ := (label_iff label).mp (List.mem_filter.mp fresh).1
            refine ⟨?_, Or.inr rfl⟩
            rcases counted with all | present
            · exact Or.inr ⟨here, all⟩
            · exact Or.inl present
        · rintro ⟨present, known⟩
          have counted : options.allDomains = true ∨ Present options rows domain := by
            rcases present with present | ⟨-, all⟩
            · exact Or.inr present
            · exact Or.inl all
          by_cases before : digest ∈ (eligibleRows rows domain).map DocumentRow.contentSha256
          · refine Or.inl ⟨?_, before⟩
            rcases counted with all | present
            · refine Or.inr ⟨all, fun empty => ?_⟩
              rw [empty] at before
              cases before
            · exact present
          · rcases known with known | rfl
            · exact absurd known before
            · refine Or.inr ⟨domain, List.mem_filter.mpr ⟨(label_iff domain).mpr ⟨here, counted⟩, ?_⟩,
                rfl⟩
              simpa [unseen domain here counted] using before
      · rw [if_neg fun both => here both.2]
        constructor
        · rintro (⟨present, known⟩ | ⟨label, fresh, same⟩)
          · exact ⟨Or.inl present, known⟩
          · obtain ⟨rfl, rfl⟩ := Prod.mk.inj same
            exact absurd ((label_iff label).mp (List.mem_filter.mp fresh).1).1 here
        · rintro ⟨present | ⟨inside, -⟩, known⟩
          · exact Or.inl ⟨present, known⟩
          · exact absurd inside here
    · rw [scanned, List.length_append, List.length_singleton]
      exact congrArg (· + 1) consistent.scanned
  · rw [measureRow, if_pos kept] at measured
    cases measured
    have same : ∀ domain, eligibleRows (rows ++ [row]) domain = eligibleRows rows domain := by
      intro domain
      rw [eligibleRows_concat, if_neg fun both => kept both.1]
    refine ⟨fun domain => ?_, fun domain digest => ?_,
      ⟨consistent.labelled.nodup, consistent.labelled.known⟩, ?_⟩
    · have alike : Present options (rows ++ [row]) domain ↔ Present options rows domain := by
        rw [Present, Present, same]
      have counts : denominator options.tokenizer (rows ++ [row]) domain =
          denominator options.tokenizer rows domain := by
        rw [denominator, denominator, same]
      rw [counts]
      simp only [alike]
      exact consistent.counts domain
    · rw [Present, same]
      exact consistent.seen domain digest
    · rw [List.length_append, List.length_singleton]
      exact congrArg (· + 1) consistent.scanned

def rowsOf (options : Options) (documents : Bytes) : Option (List DocumentRow) :=
  ((physicalLines documents).filter fun line => !blankBytes line).mapM options.loads

theorem measureLines_consistent (agrees : ∀ tokenizer ∈ options.tokenizer, tokenizer.Agrees)
    {lines : List Bytes} (consistent : Consistent options rows progress)
    (measured : lines.foldlM (measureLine options) progress = .ok next) :
    ∃ later, (lines.filter fun line => !blankBytes line).mapM options.loads = some later ∧
      Consistent options (rows ++ later) next := by
  induction lines generalizing rows progress with
  | nil =>
    cases measured
    exact ⟨[], rfl, by rwa [List.append_nil]⟩
  | cons line lines ih =>
    obtain ⟨middle, first, rest⟩ := bind_eq_ok measured
    rw [measureLine] at first
    by_cases empty : blankBytes line = true
    · rw [if_pos empty] at first
      cases first
      rw [List.filter_cons_of_neg (by simp [empty])]
      exact ih consistent rest
    · rw [if_neg empty] at first
      rw [List.filter_cons_of_pos (by simp [empty])]
      cases read : options.loads line with
      | none =>
        rw [read] at first
        cases first
      | some row =>
        rw [read] at first
        obtain ⟨later, loads, after⟩ := ih (measureRow_consistent agrees consistent first) rest
        refine ⟨row :: later, ?_, by simpa using after⟩
        rw [List.mapM_cons, read, loads]
        rfl

theorem measured_counts (agrees : ∀ tokenizer ∈ options.tokenizer, tokenizer.Agrees)
    {inventorySha256 : String} {inventorySize : Nat} {documents : Bytes} {measured : Measured}
    (returned : measureSourceDomains options inventorySha256 inventorySize documents =
      .ok measured) :
    ∃ rows, rowsOf options documents = some rows ∧ measured.rowsScanned = rows.length ∧
      ∀ domain, measured.domains domain = if Present options rows domain then
        some (denominator options.tokenizer rows domain) else none := by
  obtain ⟨-, rest⟩ := refuseIf_bind_eq_ok.mp returned
  obtain ⟨-, rest⟩ := refuseIf_bind_eq_ok.mp rest
  obtain ⟨read, lines, rest⟩ := bind_eq_ok rest
  obtain ⟨last, flushed, rest⟩ := bind_eq_ok rest
  obtain ⟨-, rest⟩ := refuseIf_bind_eq_ok.mp rest
  cases rest
  obtain ⟨rows, loads, consistent⟩ := measureLines_consistent agrees start_consistent lines
  rw [List.nil_append] at consistent
  refine ⟨rows, loads, ?_, fun domain => ?_⟩
  · rw [← consistent.scanned]
    unfold finish at flushed
    cases model : options.tokenizer with
    | none =>
      rw [model] at flushed
      cases flushed
      rfl
    | some tokenizer =>
      rw [model] at flushed
      obtain ⟨-, -, -, scanned, -⟩ :=
        flush_settled (agrees tokenizer model) consistent.labelled flushed
      exact scanned
  · rw [← consistent.counts]
    unfold finish at flushed
    cases model : options.tokenizer with
    | none =>
      rw [model] at flushed
      cases flushed
      have nothing : (fun counts : Counts => counts.addTokens
          (read.pending.map fun entry =>
            if domain ∈ entry.2 then tokenCount none entry.1 else 0).sum) = id := by
        funext counts
        have zero : (read.pending.map fun entry =>
            if domain ∈ entry.2 then tokenCount none entry.1 else 0).sum = 0 := by
          apply List.sum_eq_zero_iff_forall_eq_nat.mpr
          simp [tokenCount]
        rw [zero]
        exact counts.addTokens_zero
      rw [settled, nothing, Option.map_id]
      rfl
    | some tokenizer =>
      rw [model] at flushed
      obtain ⟨settled, pending, -⟩ :=
        flush_settled (agrees tokenizer model) consistent.labelled flushed
      have none : (fun counts : Counts => counts.addTokens (owed tokenizer domain [])) = id :=
        funext Counts.addTokens_zero
      rw [← settled domain, settled_some, pending, none, Option.map_id]
      rfl

end

/-- A measurement counts what there is to count, and neither the limits of a batch nor the mode of
an oversized document change the counts. -/
theorem measured_denominator {options : Options} {inventorySha256 : String} {inventorySize : Nat}
    {documents : Bytes} {measured : Measured}
    (agrees : ∀ tokenizer ∈ options.tokenizer, tokenizer.Agrees)
    (returned : measureSourceDomains options inventorySha256 inventorySize documents =
      .ok measured) :
    (∃ rows, rowsOf options documents = some rows ∧ measured.rowsScanned = rows.length ∧
      ∀ domain, measured.domains domain = if Present options rows domain then
        some (denominator options.tokenizer rows domain) else none) ∧
    ∀ batchDocuments batchSourceBytes maxDocumentSourceBytes other,
      measureSourceDomains { options with batchDocuments, batchSourceBytes, maxDocumentSourceBytes }
        inventorySha256 inventorySize documents = .ok other →
      other.domains = measured.domains := by
  have counts := measured_counts agrees returned
  refine ⟨counts, ?_⟩
  intro batchDocuments batchSourceBytes maxDocumentSourceBytes other again
  obtain ⟨rows, loads, -, domains⟩ := counts
  obtain ⟨rows', loads', -, domains'⟩ := measured_counts (by exact agrees) again
  have same : some rows' = some rows := loads'.symm.trans loads
  cases same
  funext domain
  rw [domains, domains']
  rfl

section

def sampleRow (line : Bytes) : Option DocumentRow :=
  match line.head? with
  | some 97 => some ⟨text "train", none, [text "code"], text "ab", text "first"⟩
  | some 98 => some ⟨text "train", none, [text "code", text "web"], text "ab", text "first"⟩
  | some 99 => some ⟨text "train", none, [text "web"], text "abcdefgh", text "second"⟩
  | some 100 => some ⟨text "validation", none, [text "web"], text "ab", text "third"⟩
  | _ => none

def sampleTokenizer : Tokenizer where
  encode content := content
  encodeBatch texts := texts

def sampleOptions : Options where
  tokenizer := some sampleTokenizer
  requested := [text "code", text "web"]
  batchDocuments := 2
  batchSourceBytes := 4
  allDomains := false
  maxDocumentSourceBytes := none
  loads := sampleRow
  sha256 _ := "digest"

/-- `a`, `b`, an empty line, `c` and `d` -/
def sampleDocuments : Bytes := [97, 10, 98, 10, 10, 99, 10, 100]

theorem measured_denominator_of_four : ∃ measured,
    measureSourceDomains sampleOptions "digest" 8 sampleDocuments = .ok measured ∧
    measured.domains (text "code") = some ⟨2, 1, 2, some 2⟩ ∧
    measured.domains (text "web") = some ⟨2, 2, 10, some 10⟩ ∧
    ∃ rows, rowsOf sampleOptions sampleDocuments = some rows ∧ measured.rowsScanned = rows.length := by
  have agrees : ∀ tokenizer ∈ sampleOptions.tokenizer, tokenizer.Agrees := by
    rintro _ ⟨⟩
    exact fun texts => (List.map_id texts).symm
  have counts : (measureSourceDomains sampleOptions "digest" 8 sampleDocuments).toOption.map
      (fun measured => (measured.domains (text "code"), measured.domains (text "web"))) =
      some (some ⟨2, 1, 2, some 2⟩, some ⟨2, 2, 10, some 10⟩) := by decide +kernel
  cases returned : measureSourceDomains sampleOptions "digest" 8 sampleDocuments with
  | error failure =>
    rw [returned] at counts
    cases counts
  | ok measured =>
    rw [returned] at counts
    obtain ⟨code, web⟩ := Prod.mk.inj (Option.some.inj counts)
    obtain ⟨⟨rows, loads, scanned, -⟩, -⟩ := measured_denominator agrees returned
    exact ⟨measured, rfl, code, web, rows, loads, scanned⟩

end

end SparseLab.Corpus.Denominator
