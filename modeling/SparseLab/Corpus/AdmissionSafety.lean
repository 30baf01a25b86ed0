import SparseLab.Corpus.AdmissionRearranged

/-! Admission is complete and closed: what a manifest that passes has admitted. -/

namespace SparseLab.Corpus.Admission

open Library Cleaning Rights
open Records (Bytes Routines Reading ReadFailure recordsFromPath maxRecordBytes sha256Hex
  readLines_sha256)

section

variable {screens : Screens} {store : Store} {item : Json}

namespace HubEntry

def FlaggedQualified (entry : HubEntry screens store item) (decision : RowDecision) : Prop :=
  decision ∈ entry.decisions ∧ decision.verdict = .qualify ∧
    ∃ value receipt conflict flags, (value, receipt) ∈
        entry.sample.values.zip entry.opened.shard.selectedRows ∧
      receipt.sourceRowIndex = decision.index ∧
      screening screens entry.hub value = some (conflict, flags) ∧ flags ≠ []

def Reviewed (entry : HubEntry screens store item) : Prop :=
  ∀ decision, entry.FlaggedQualified decision →
    ∃ review, decision.manualReview = some review ∧ completeReview review = true

def NoNullReview (entry : HubEntry screens store item) : Prop :=
  ∀ decision, entry.FlaggedQualified decision → decision.manualReview ≠ some .null

structure Covered (entry : HubEntry screens store item) : Prop where
  declared : entry.hub.Declared screens store item
  eligible : entry.opened.Eligible screens item entry.hub
  listed : ∃ values, item.get (text "records") = some (.list values) ∧
    List.Forall₂ (fun value decision => RowDecision.Checked value decision) values entry.decisions
  once : (entry.decisions.map RowDecision.index).Nodup ∧ (entry.decisions.map
    RowDecision.index).Perm (entry.opened.shard.selectedRows.map Receipt.sourceRowIndex)
  bytes : text (screens.routines.sha256 entry.contents) = entry.opened.file.sha256
  rows : List.Forall₂ (fun value receipt => ∃ decision ∈ entry.decisions,
      decision.index = receipt.sourceRowIndex ∧
      rowDigest screens value = some decision.sha256 ∧
      receipt.sourceRowSha256 = decision.sha256 ∧
      (decision.verdict = .qualify → ∃ conflict flags,
        screening screens entry.hub value = some (conflict, flags) ∧ material conflict = none))
    entry.sample.values entry.opened.shard.selectedRows

end HubEntry

variable {policyId policySha256 : Text} {result : (Text × Text) × Resolved}

theorem admitShard_covered
    (admitted : admitShard screens store policyId policySha256 item = .ok result)
    (entry : HubEntry screens store item) : entry.Covered := by
  obtain ⟨-, declared⟩ := hubSource_ok entry.hub_eq
  obtain ⟨listed, once⟩ := hubDecisions_ok entry.decisions_eq
  obtain ⟨complete, rows⟩ := admitShard_rows admitted entry
  refine ⟨declared, hubShard_ok entry.opened_eq, listed, once, readLines_sha256 _ complete, ?_⟩
  refine rows.imp ?_
  rintro value receipt ⟨decision, row⟩
  refine ⟨decision, row.decided, row.index, row.digest, row.receipt, fun qualified => ?_⟩
  obtain ⟨conflict, flags, screened, clean⟩ := row.screened
  exact ⟨conflict, flags, screened, (clean qualified).1⟩

theorem forall₂_zip {α β : Type} {related : α → β → Prop} {values : List α} {others : List β}
    (each : List.Forall₂ related values others) {value : α} {other : β}
    (member : (value, other) ∈ values.zip others) : related value other :=
  (List.forall₂_iff_zip.mp each).2 member

theorem admitShard_reviewed
    (admitted : admitShard screens store policyId policySha256 item = .ok result)
    (entry : HubEntry screens store item) : entry.Reviewed ↔ entry.NoNullReview := by
  obtain ⟨⟨values, -, checked⟩, distinct, -⟩ := hubDecisions_ok entry.decisions_eq
  obtain ⟨-, rows⟩ := admitShard_rows admitted entry
  constructor
  · intro reviewed decision flagged null
    obtain ⟨review, same, complete⟩ := reviewed decision flagged
    rw [null] at same
    rw [← Option.some.inj same] at complete
    cases complete
  · intro present decision flagged
    have nonnull := present decision flagged
    obtain ⟨member, qualified, value, receipt, conflict, flags, placed, index, screened, some⟩ :=
      flagged
    obtain ⟨own, row⟩ := forall₂_zip rows placed
    have same : own = decision :=
      List.inj_on_of_nodup_map distinct row.decided member (row.index.trans index)
    subst same
    obtain ⟨again, others, screened', clean⟩ := row.screened
    rw [screened] at screened'
    cases screened'
    have written := (clean qualified).2 some
    obtain ⟨original, -, passed⟩ := forall₂_right checked member
    cases manual : own.manualReview with
    | none => exact absurd manual written
    | some review =>
      have accepted := passed.reviewed
      rw [manual] at accepted nonnull
      cases review with
      | null => exact absurd rfl nonnull
      | _ => exact ⟨_, rfl, accepted⟩

end

section

variable {screens : Screens} {store : Store} {manifest : Json} {results : Results}

def AdmittedAs (screens : Screens) (store : Store) (manifest item : Json) (group : Results) : Prop :=
  (kindOf store item = some .huggingfaceDataset ∧ ∃ result, admitShard screens store
    (policyId manifest) (policySha256 manifest) item = .ok result ∧ group = [result]) ∨
  (kindOf store item = some .git ∧
    admitRepository screens store (policyId manifest) (policySha256 manifest) item = .ok group)

theorem AdmittedAs.admits {item : Json} {group : Results}
    (admitted : AdmittedAs screens store manifest item group) :
    Admits screens store (policyId manifest) (policySha256 manifest) item group := by
  rcases admitted with ⟨-, shard⟩ | ⟨-, repository⟩
  · exact Or.inl shard
  · exact Or.inr repository

theorem HubEntry.kindOf {item : Json} (entry : HubEntry screens store item) :
    kindOf store item = some .huggingfaceDataset := by
  obtain ⟨-, declared⟩ := hubSource_ok entry.hub_eq
  rw [Admission.kindOf, declared.named, Option.bind_some, declared.source, Option.map_some,
    declared.kind]

theorem admittedAs_shards {items : List Json} {results : Results}
    (each : List.Forall₂ (fun item result => admitShard screens store (policyId manifest)
      (policySha256 manifest) item = .ok result) items results) :
    List.Forall₂ (AdmittedAs screens store manifest) items
      (results.map fun result => [result]) := by
  induction each with
  | nil => exact List.Forall₂.nil
  | cons head _ ih =>
    obtain ⟨entry, -⟩ := admitShard_opens head
    exact List.Forall₂.cons (Or.inl ⟨entry.kindOf, _, head, rfl⟩) ih

theorem admittedAs_repositories {items : List Json} {groups : List Results}
    (git : ∀ item ∈ items, kindOf store item = some .git)
    (each : List.Forall₂ (fun item group => admitRepository screens store (policyId manifest)
      (policySha256 manifest) item = .ok group) items groups) :
    List.Forall₂ (AdmittedAs screens store manifest) items groups := by
  induction each with
  | nil => exact List.Forall₂.nil
  | cons head _ ih =>
    exact List.Forall₂.cons (Or.inr ⟨git _ List.mem_cons_self, head⟩)
      (ih fun item member => git item (List.mem_cons_of_mem _ member))

theorem verifyRecordAdmission_groups
    (accepted : verifyRecordAdmission screens store manifest = .ok results) :
    ((entriesOf manifest).map fun item => textField item "source_id").Perm
        (store.sources.keys.map some) ∧
      ∃ items groups, items.Perm (entriesOf manifest) ∧
        List.Forall₂ (AdmittedAs screens store manifest) items groups ∧
          results = groups.flatten := by
  unfold verifyRecordAdmission at accepted
  by_cases version : numbered (manifest.get (text "schema_version")) 1 = true
  · rw [if_pos version] at accepted
    obtain ⟨schema, admitted⟩ := verifyV1_ok.mp accepted
    refine ⟨namesAre_perm schema.names store.sources.distinct schema.length, _, _,
      List.Perm.refl _, admittedAs_shards (mapM_eq_ok.mp admitted), ?_⟩
    exact (flatten_singletons results).symm
  · rw [if_neg version] at accepted
    obtain ⟨schema, hubs, files, shards, repositories, rfl⟩ := verifyV2_ok.mp accepted
    have git : ∀ item ∈ gitItems store manifest, kindOf store item = some .git := by
      intro item member
      simpa using (List.mem_filter.mp member).2
    refine ⟨namesAre_perm schema.names store.sources.distinct schema.length, _, _, schema.perm,
      List.rel_append (admittedAs_shards (mapM_eq_ok.mp shards))
        (admittedAs_repositories git (mapM_eq_ok.mp repositories)), ?_⟩
    rw [List.flatten_append, flatten_singletons]

structure ProperAdmission (screens : Screens) (store : Store) (manifest : Json)
    (results : Results) : Prop where
  sources : ((entriesOf manifest).map fun item => textField item "source_id").Perm
    (store.sources.keys.map some)
  kinds : ∀ item ∈ entriesOf manifest,
    kindOf store item = some .huggingfaceDataset ∨ kindOf store item = some .git
  keys : (results.map Prod.fst).Nodup ∧
    (results.map Prod.fst).Perm (store.sources.keys.flatMap (pinnedFiles store))
  rows : ∀ item ∈ entriesOf manifest, kindOf store item = some .huggingfaceDataset →
    ∃ entry : HubEntry screens store item, entry.Covered ∧
      entry.resolved (policyId manifest) (policySha256 manifest) ∈ results
  reviewed : ∀ item ∈ entriesOf manifest, ∀ entry : HubEntry screens store item, entry.Reviewed
  files : ∀ item ∈ entriesOf manifest, kindOf store item = some .git →
    ∃ repository : Repository, repository.Declared screens store item ∧
      ∀ decision ∈ repository.decisions, ∃ file contents decided, ∃ result ∈ results,
        FileAdmitted screens store repository decision file contents decided result.2.rights ∧
          result.1 = (repository.sourceId, file.path) ∧ result.2.decided = .file decided
  unordered : ∀ other, Reordered manifest other → ∃ others,
    verifyRecordAdmission screens store other = .ok others ∧ results.Perm others

theorem admittedAs_of_accepted (accepted : verifyRecordAdmission screens store manifest = .ok results)
    {item : Json} (member : item ∈ entriesOf manifest) :
    ∃ group, AdmittedAs screens store manifest item group ∧ group ⊆ results := by
  obtain ⟨-, items, groups, perm, each, rfl⟩ := verifyRecordAdmission_groups accepted
  obtain ⟨group, inside, admitted⟩ := forall₂_left each (perm.mem_iff.mpr member)
  exact ⟨group, admitted, fun result there => List.mem_flatten.mpr ⟨group, inside, there⟩⟩

theorem hub_of_accepted (accepted : verifyRecordAdmission screens store manifest = .ok results)
    {item : Json} (member : item ∈ entriesOf manifest)
    (hub : kindOf store item = some .huggingfaceDataset) :
    ∃ result ∈ results,
      admitShard screens store (policyId manifest) (policySha256 manifest) item = .ok result := by
  obtain ⟨group, ⟨-, result, admitted, rfl⟩ | ⟨git, -⟩, within⟩ :=
    admittedAs_of_accepted accepted member
  · exact ⟨result, within (List.mem_singleton.mpr rfl), admitted⟩
  · rw [hub] at git
    cases git

theorem git_of_accepted (accepted : verifyRecordAdmission screens store manifest = .ok results)
    {item : Json} (member : item ∈ entriesOf manifest) (git : kindOf store item = some .git) :
    ∃ group, group ⊆ results ∧
      admitRepository screens store (policyId manifest) (policySha256 manifest) item = .ok group := by
  obtain ⟨group, ⟨hub, -⟩ | ⟨-, admitted⟩, within⟩ := admittedAs_of_accepted accepted member
  · rw [git] at hub
    cases hub
  · exact ⟨group, within, admitted⟩

theorem record_admission (accepted : verifyRecordAdmission screens store manifest = .ok results) :
    ProperAdmission screens store manifest results ↔
      ∀ item ∈ entriesOf manifest, ∀ entry : HubEntry screens store item, entry.NoNullReview := by
  constructor
  · intro proper item member entry
    obtain ⟨result, -, admitted⟩ := hub_of_accepted accepted member entry.kindOf
    exact (admitShard_reviewed admitted entry).mp (proper.reviewed item member entry)
  · intro present
    obtain ⟨sources, items, groups, perm, each, flat⟩ := verifyRecordAdmission_groups accepted
    refine ⟨sources, ?_, ?_, ?_, ?_, ?_, ?_⟩
    · intro item member
      obtain ⟨group, ⟨hub, -⟩ | ⟨git, -⟩, -⟩ := admittedAs_of_accepted accepted member
      · exact Or.inl hub
      · exact Or.inr git
    · rw [flat]
      exact admitted_distinct (each.imp fun _ _ admitted => admitted.admits)
        ((perm.map _).trans sources) store.sources.distinct
    · intro item member hub
      obtain ⟨result, inside, admitted⟩ := hub_of_accepted accepted member hub
      obtain ⟨entry, rfl⟩ := admitShard_opens admitted
      exact ⟨entry, admitShard_covered admitted entry, inside⟩
    · intro item member entry
      obtain ⟨result, -, admitted⟩ := hub_of_accepted accepted member entry.kindOf
      exact (admitShard_reviewed admitted entry).mpr (present item member entry)
    · intro item member git
      obtain ⟨group, within, admitted⟩ := git_of_accepted accepted member git
      obtain ⟨repository, checked, decided⟩ := admitRepository_ok admitted
      refine ⟨repository, repositoryOf_ok checked, fun decision listed => ?_⟩
      obtain ⟨result, inside, passed⟩ := forall₂_left decided listed
      obtain ⟨file, contents, verdict, own, key, recorded⟩ := admitFile_ok passed
      exact ⟨file, contents, verdict, result, within inside, own, key, recorded⟩
    · intro other reordered
      have alike := @Reordered.verify screens store manifest other reordered
      rw [accepted] at alike
      cases verified : verifyRecordAdmission screens store other with
      | error failure =>
        rw [verified] at alike
        cases alike
      | ok others =>
        rw [verified] at alike
        exact ⟨others, rfl, alike⟩

end

section

def sampleRow : List (Text × Json) :=
  [(text "id", .str (text "84")),
    (text "metadata", .dict
      [(text "license", .str (text "Public Domain")), (text "provenance", .str (text "a.gz:1")),
        (text "title", .str (text "Frankenstein")),
        (text "url", .str (text "https://www.gutenberg.org/ebooks/84"))]),
    (text "text", .str (text "All rights reserved."))]

def sampleRowSha256 : Text := text "68af70d81017986b28f3096aaf07cb58bcd40d02f23eddac34057b01c2a7af7f"

def sampleShardSha256 : Text :=
  text "e3b0c44298fc1c149afbf4c8996fb92427ae41e4649b934ca495991b7852b855"

def sampleLine : Bytes :=
  text "\x7b\"_sparselab_source\":\x7b\"dataset_revision\":\"r1\",\"id\":\"84\"," ++
    text "\"source_row_index\":0,\"source_row_sha256\":\"" ++ sampleRowSha256 ++
    text "\",\"source_shard_path\":\"a.gz\",\"source_shard_sha256\":\"" ++ sampleShardSha256 ++
    text "\"\x7d,\"id\":\"84\",\"metadata\":\x7b\"license\":\"Public Domain\"," ++
    text "\"provenance\":\"a.gz:1\",\"title\":\"Frankenstein\"," ++
    text "\"url\":\"https://www.gutenberg.org/ebooks/84\"\x7d," ++
    text "\"text\":\"All rights reserved.\"\x7d\n"

def sampleRecord : Json :=
  .dict ((text "_sparselab_source", .dict
    [(text "dataset_revision", .str (text "r1")), (text "id", .str (text "84")),
      (text "source_row_index", .int 0), (text "source_row_sha256", .str sampleRowSha256),
      (text "source_shard_path", .str (text "a.gz")),
      (text "source_shard_sha256", .str sampleShardSha256)]) :: sampleRow)

def sampleSha256 : String := "178162b0ece418b9f8ad8ed7f198e8e073ac606be8f3b7a022d9488d94c50c40"

def samplePolicy : RightsPolicy where
  trainingEligibility := .eligibleWithObligations
  redistributionMode := .metadataReconstructionOnly
  spdxExpression := none
  licenseReferences := [text "https://www.gutenberg.org/policy/license.html"]
  notices := []
  trainingRestriction := none
  allowedBoundaryPaths := []
  nonblank_spdx _ member := by cases member
  nonblank_entries value member := by
    rw [List.mem_singleton.mp member]
    decide +kernel
  safe_allowlist _ member := by cases member
  consistent_restriction _ member := by cases member

def sampleRights : Json :=
  .dict
    [(text "training_eligibility", .str (text "eligible_with_obligations")),
      (text "redistribution_mode", .str (text "metadata_reconstruction_only")),
      (text "license_references",
        .list [.str (text "https://www.gutenberg.org/policy/license.html")])]

def sampleScreens : Screens where
  routines :=
    { unicode := ⟨id, List.map fun code => if 0x41 ≤ code ∧ code ≤ 0x5a then code + 0x20 else code,
        fun code => 0x30 ≤ code && code ≤ 0x39, fun _ => false⟩
      sha256 := fun _ => sampleSha256
      encode := id
      decode := some
      loads := fun line =>
        if line = sampleLine then .ok sampleRecord else .error (.malformed "Expecting value")
      canonical := fun _ => .ok []
      digest := fun _ => []
      validate := .ok
      secretOrPrivate := fun _ => false
      urlHost := fun _ => none
      provenance := fun _ => .error (.raised .valueError) }
  patterns := ⟨id, fun _ => none, fun _ => false⟩
  rightsPolicy _ := some samplePolicy
  rowUsePolicy _ := none
  canonicalDigest _ := some sampleRowSha256
  same _ _ := false
  useEvidence _ _ _ := none
  rowExceptions _ _ _ _ := some (none, [text "gutenberg_rights_notice_context"])
  fileExceptions _ _ := (false, false)

def sampleSource : Source where
  kind := .huggingfaceDataset
  schemaVersion := 2
  revision := text "r1"
  canonicalUri := gutenbergUri
  licenseUrl := text "https://www.gutenberg.org/policy/license.html"
  rights := sampleRights
  qualification := none
  textField := text "text"

def sampleSnapshot : Snapshot where
  snapshotSha256 := text "snapshot"
  declarationId := text "books"
  declarationRevision := text "r1"
  shards :=
    [{ outputPath := text "a.jsonl", sourceShardPath := text "a.gz"
       sourceShardSha256 := sampleShardSha256
       selectedRows := [⟨0, sampleRowSha256⟩] }]
  files := [⟨text "a.jsonl", text sampleSha256⟩]

def sampleStore : Store where
  sources := ⟨[(text "books", sampleSource)], List.nodup_singleton _⟩
  snapshots := ⟨[(text "books", sampleSnapshot)], List.nodup_singleton _⟩
  node _ _ _ := some (.file sampleLine)
  maxRecordBytes := none

def sampleDecision (review : Json) : Json :=
  .dict
    [(text "source_row_index", .int 0), (text "source_row_sha256", .str sampleRowSha256),
      (text "decision", .str (text "qualify")), (text "reason", .str (text "public domain")),
      (text "issues", .list []), (text "manual_review", review)]

def sampleEntry (review : Json) : Json :=
  .dict
    [(text "source_id", .str (text "books")), (text "snapshot_sha256", .str (text "snapshot")),
      (text "source_revision", .str (text "r1")), (text "sample_path", .str (text "a.jsonl")),
      (text "sample_sha256", .str (text sampleSha256)),
      (text "source_shard_path", .str (text "a.gz")),
      (text "source_shard_sha256", .str sampleShardSha256),
      (text "license_label", .str (text "Public Domain")), (text "rights", sampleRights),
      (text "records", .list [sampleDecision review])]

def sampleManifest (review : Json) : Json :=
  .dict
    [(text "schema_version", .int 1), (text "policy_id", .str (text "policy")),
      (text "policy_sha256", .str sampleShardSha256),
      (text "sources", .list [sampleEntry review])]

def sampleReview : Json :=
  .dict
    [(text "reviewer", .str (text "reviewer")), (text "reviewed_on", .str (text "2026-07-01")),
      (text "evidence_url", .str (text "https://www.gutenberg.org/ebooks/84")),
      (text "finding", .str (text "transcriber's notice"))]

theorem sampleManifest_accepted {review : Json} (known : review = .null ∨ review = sampleReview) :
    ∃ results,
      verifyRecordAdmission sampleScreens sampleStore (sampleManifest review) = .ok results := by
  have passes : (verifyRecordAdmission sampleScreens sampleStore
      (sampleManifest review)).toOption.isSome = true := by
    rcases known with rfl | rfl <;> decide +kernel
  cases verified : verifyRecordAdmission sampleScreens sampleStore (sampleManifest review) with
  | error failure =>
    rw [verified] at passes
    cases passes
  | ok results => exact ⟨results, rfl⟩

theorem sampleManifest_proper : ∃ results,
    verifyRecordAdmission sampleScreens sampleStore (sampleManifest sampleReview) = .ok results ∧
      ProperAdmission sampleScreens sampleStore (sampleManifest sampleReview) results := by
  obtain ⟨results, accepted⟩ := sampleManifest_accepted (Or.inr rfl)
  refine ⟨results, accepted, (record_admission accepted).mpr ?_⟩
  intro item member entry decision flagged null
  obtain rfl : item = sampleEntry sampleReview := List.mem_singleton.mp member
  obtain ⟨⟨values, listed, checked⟩, -⟩ := hubDecisions_ok entry.decisions_eq
  cases listed
  obtain ⟨value, inside, passed⟩ := forall₂_right checked flagged.1
  rw [List.mem_singleton.mp inside] at passed
  rw [passed.manual] at null
  cases null

set_option maxRecDepth 20000 in
theorem sampleEntry_flagged : ∃ (entry : HubEntry sampleScreens sampleStore (sampleEntry .null))
    (decision : RowDecision), entry.FlaggedQualified decision ∧
      decision.manualReview = some .null := by
  refine ⟨⟨_, _, _, _, rfl, rfl, rfl, rfl⟩, _, ⟨List.mem_cons_self, rfl, _, _, _, _,
    List.mem_cons_self, rfl, rfl, ?_⟩, rfl⟩
  exact List.cons_ne_nil _ _

theorem null_review_passes : ¬ ∀ (screens : Screens) (store : Store) (manifest : Json)
    (results : Results), verifyRecordAdmission screens store manifest = .ok results →
      ProperAdmission screens store manifest results := by
  intro proper
  obtain ⟨results, accepted⟩ := sampleManifest_accepted (Or.inl rfl)
  obtain ⟨entry, decision, flagged, null⟩ := sampleEntry_flagged
  obtain ⟨review, written, complete⟩ := (proper _ _ _ _ accepted).reviewed _
    (List.mem_singleton.mpr rfl) entry decision flagged
  rw [null] at written
  rw [← Option.some.inj written] at complete
  cases complete

end

end SparseLab.Corpus.Admission
