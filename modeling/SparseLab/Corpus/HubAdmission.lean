import SparseLab.Corpus.RecordAdmission

/-! What an admitted entry of selected rows has in its decisions, its sample and its snapshot. -/

namespace SparseLab.Corpus.Admission

open Library Cleaning Rights
open Records (Bytes Routines Reading ReadFailure recordsFromPath maxRecordBytes sha256Hex)

@[simp] theorem orRaise_ok {α : Type} {value : Option α} {failure : AdmissionFailure} {result : α} :
    orRaise value failure = .ok result ↔ value = some result := by
  cases value <;> simp [orRaise]

section

structure RowDecision.Checked (value : Json) (decision : RowDecision) : Prop where
  record : decision.record = value
  index : value.get (text "source_row_index") = some (.int decision.index)
  sha256 : textField value "source_row_sha256" = some decision.sha256
  hex : sha256Hex decision.sha256 = true
  verdict : verdictOf value = some decision.verdict
  manual : decision.manualReview = value.get (text "manual_review")
  evidence : decision.rowEvidence = value.get (text "row_evidence")
  reviewed : reviewOk decision.manualReview = true

theorem readRowDecision_ok {indexed : List RowDecision} {value : Json} {decision : RowDecision}
    (read : readRowDecision indexed value = .ok decision) :
    decision.Checked value ∧ decision.index ∉ indexed.map RowDecision.index := by
  obtain ⟨-, read⟩ := refuseIf_bind_eq_ok.mp read
  cases index : value.get (text "source_row_index") with
  | none =>
    rw [index] at read
    cases read
  | some number =>
    rw [index] at read
    cases number with
    | int number =>
      obtain ⟨fresh, read⟩ := refuseIf_bind_eq_ok.mp read
      cases digest : (textField value "source_row_sha256").filter sha256Hex with
      | none =>
        rw [digest] at read
        cases read
      | some sha256 =>
        cases decided : verdictOf value with
        | none =>
          rw [digest, decided] at read
          cases read
        | some verdict =>
          rw [digest, decided] at read
          obtain ⟨-, read⟩ := refuseIf_bind_eq_ok.mp read
          obtain ⟨reviewed, read⟩ := refuseIf_bind_eq_ok.mp read
          cases read
          obtain ⟨field, hex⟩ := Option.filter_eq_some_iff.mp digest
          refine ⟨⟨rfl, index, field, hex, decided, rfl, rfl, by simpa using reviewed⟩, ?_⟩
          exact fun member => fresh (Or.inr member)
    | _ => cases read

theorem readRowDecisions_ok {values : List Json} {decisions : List RowDecision}
    (read : readRowDecisions values = .ok decisions) :
    List.Forall₂ (fun value decision => RowDecision.Checked value decision) values decisions ∧
      (decisions.map RowDecision.index).Nodup := by
  have loop : ∀ (values : List Json) (indexed : List RowDecision),
      values.foldlM (fun indexed value => do
        let decision ← readRowDecision indexed value
        .ok (indexed ++ [decision])) indexed = .ok decisions →
      (indexed.map RowDecision.index).Nodup →
      ∃ later, decisions = indexed ++ later ∧
        List.Forall₂ (fun value decision => RowDecision.Checked value decision) values later ∧
          (decisions.map RowDecision.index).Nodup := by
    intro values
    induction values with
    | nil =>
      intro indexed folded distinct
      cases folded
      exact ⟨[], (List.append_nil _).symm, List.Forall₂.nil, distinct⟩
    | cons value values ih =>
      intro indexed folded distinct
      obtain ⟨next, step, folded⟩ := bind_eq_ok folded
      obtain ⟨decision, read, step⟩ := bind_eq_ok step
      cases step
      obtain ⟨checked, fresh⟩ := readRowDecision_ok read
      have onward : ((indexed ++ [decision]).map RowDecision.index).Nodup := by
        rw [List.map_append, List.map_singleton]
        exact List.nodup_append.mpr ⟨distinct, List.nodup_singleton _, fun index old other new => by
          rw [List.mem_singleton.mp new]
          exact fun same => fresh (same ▸ old)⟩
      obtain ⟨later, rfl, each, distinct⟩ := ih _ folded onward
      exact ⟨decision :: later, by simp, List.Forall₂.cons checked each, distinct⟩
  obtain ⟨later, rfl, each, distinct⟩ := loop values [] read List.nodup_nil
  exact ⟨each, distinct⟩

theorem coversRows_perm {decisions : List RowDecision} {selected : List Receipt}
    (covers : coversRows decisions selected = true) :
    (decisions.map RowDecision.index).Perm (selected.map Receipt.sourceRowIndex) := by
  simp only [coversRows, Bool.and_eq_true, decide_eq_true_eq, List.all_eq_true,
    List.contains_iff_mem] at covers
  obtain ⟨⟨length, known⟩, distinct⟩ := covers
  have within : selected.map Receipt.sourceRowIndex ⊆ decisions.map RowDecision.index := by
    intro index member
    obtain ⟨receipt, inside, rfl⟩ := List.mem_map.mp member
    exact known receipt inside
  have shorter := distinct.subperm within
  exact (shorter.perm_of_length_le (by simp [length])).symm

variable {item : Json} {shard : SelectedShard} {decisions : List RowDecision}

theorem hubDecisions_ok (read : hubDecisions item shard = .ok decisions) :
    (∃ values, item.get (text "records") = some (.list values) ∧
      List.Forall₂ (fun value decision => RowDecision.Checked value decision) values decisions) ∧
    (decisions.map RowDecision.index).Nodup ∧
      (decisions.map RowDecision.index).Perm (shard.selectedRows.map Receipt.sourceRowIndex) := by
  obtain ⟨values, listed, read⟩ := bind_eq_ok read
  obtain ⟨found, each, read⟩ := bind_eq_ok read
  obtain ⟨covers, same⟩ := refuseIf_bind_eq_ok.mp read
  cases same
  obtain ⟨checked, distinct⟩ := readRowDecisions_ok each
  refine ⟨⟨values, ?_, checked⟩, distinct, coversRows_perm (by simpa using covers)⟩
  have listed := orRaise_ok.mp listed
  cases field : item.get (text "records") with
  | none =>
    rw [field] at listed
    cases listed
  | some value =>
    rw [field] at listed
    cases value with
    | list others =>
      cases listed
      rfl
    | _ => cases listed

end

section

variable {screens : Screens} {store : Store} {item : Json} {hub : HubSource} {opened : HubShard}

structure HubSource.Declared (screens : Screens) (store : Store) (item : Json) (hub : HubSource) :
    Prop where
  named : textField item "source_id" = some hub.sourceId
  source : store.sources.get hub.sourceId = some hub.source
  snapshot : store.snapshots.get hub.sourceId = some hub.snapshot
  kind : hub.source.kind = .huggingfaceDataset
  sha256 : textField item "snapshot_sha256" = some hub.snapshot.snapshotSha256
  profile : admissionProfile hub.source = .ok hub.profile

theorem hubSource_ok (checked : hubSource screens store item = .ok hub) :
    keysBetween item hubKeys ["row_use_policy"] = true ∧ hub.Declared screens store item := by
  obtain ⟨keys, rest⟩ := refuseIf_bind_eq_ok.mp checked
  obtain ⟨sourceId, named, rest⟩ := bind_eq_ok rest
  obtain ⟨source, declared, rest⟩ := bind_eq_ok rest
  obtain ⟨snapshot, pinned, rest⟩ := bind_eq_ok rest
  obtain ⟨bounded, rest⟩ := refuseIf_bind_eq_ok.mp rest
  obtain ⟨profile, profiled, rest⟩ := bind_eq_ok rest
  obtain ⟨rowUse, used, rest⟩ := bind_eq_ok rest
  obtain ⟨-, rest⟩ := refuseIf_bind_eq_ok.mp rest
  obtain ⟨same, rest⟩ := refuseIf_bind_eq_ok.mp rest
  obtain ⟨-, rest⟩ := refuseIf_bind_eq_ok.mp rest
  obtain ⟨-, rest⟩ := refuseIf_bind_eq_ok.mp rest
  cases rest
  refine ⟨by simpa using keys, orRaise_ok.mp named, orRaise_ok.mp declared, orRaise_ok.mp pinned,
    ?_, ?_, profiled⟩
  · exact not_not.mp fun other => bounded (Or.inl other)
  · exact not_not.mp fun other => same (Or.inl other)

structure HubShard.Eligible (screens : Screens) (item : Json) (hub : HubSource)
    (opened : HubShard) : Prop where
  oneShard : hub.snapshot.shards = [opened.shard]
  oneFile : hub.snapshot.files = [opened.file]
  output : opened.shard.outputPath = opened.file.path
  policy : screens.rightsPolicy ((item.get (text "rights")).getD .null) = some opened.policy
  policyTrains : opened.policy.trainingEligibility.trains = true
  rights : resolveFileRights screens.patterns opened.policy opened.file.path [] true =
    some opened.rights
  trains : opened.rights.trainingEligibility.trains = true

theorem hubShard_ok (checked : hubShard screens item hub = .ok opened) :
    opened.Eligible screens item hub := by
  unfold hubShard at checked
  split at checked
  · rename_i shard file shards files
    obtain ⟨same, rest⟩ := refuseIf_bind_eq_ok.mp checked
    obtain ⟨policy, validated, rest⟩ := bind_eq_ok rest
    obtain ⟨scope, rest⟩ := refuseIf_bind_eq_ok.mp rest
    obtain ⟨rights, resolved, rest⟩ := bind_eq_ok rest
    obtain ⟨eligible, rest⟩ := refuseIf_bind_eq_ok.mp rest
    cases rest
    have path : textField item "sample_path" = some file.path :=
      not_not.mp fun other => same (Or.inl other)
    have output : textField item "sample_path" = some shard.outputPath :=
      not_not.mp fun other => same (Or.inr (Or.inl other))
    refine ⟨shards, files, ?_, orRaise_ok.mp validated, ?_, orRaise_ok.mp resolved,
      by simpa using eligible⟩
    · exact Option.some.inj (output.symm.trans path)
    · by_contra other
      exact scope (Or.inl (by simpa using other))
  · cases checked

end

section

variable {screens : Screens} {item : Json} {hub : HubSource} {decisions : List RowDecision}

def screening (screens : Screens) (hub : HubSource) (value : Json) :
    Option (Option Text × List Text) :=
  match value with
  | .dict row => screens.rowExceptions (originalRow row) hub.profile hub.source hub.rowUse
  | _ => none

def rowDigest (screens : Screens) (value : Json) : Option Text :=
  match value with
  | .dict row => screens.canonicalDigest (originalRow row)
  | _ => none

def material (conflict : Option Text) : Option Text := conflict.filter fun reason => reason ≠ []

structure RowAdmitted (screens : Screens) (hub : HubSource) (decisions : List RowDecision)
    (value : Json) (receipt : Receipt) (decision : RowDecision) : Prop where
  decided : decision ∈ decisions
  index : decision.index = receipt.sourceRowIndex
  digest : rowDigest screens value = some decision.sha256
  receipt : receipt.sourceRowSha256 = decision.sha256
  screened : ∃ conflict flags, screening screens hub value = some (conflict, flags) ∧
    (decision.verdict = .qualify →
      material conflict = none ∧ (flags ≠ [] → decision.manualReview ≠ none))

theorem judge_ok {decision : RowDecision} {conflict : Option Text} {flags : List Text}
    (judged : judge decision conflict flags = .ok ⟨⟩) (qualified : decision.verdict = .qualify) :
    material conflict = none ∧ (flags ≠ [] → decision.manualReview ≠ none) := by
  unfold judge at judged
  rw [qualified] at judged
  unfold material
  cases reason : conflict.filter fun reason => reason ≠ [] with
  | some reason =>
    rw [reason] at judged
    cases judged
  | none =>
    rw [reason] at judged
    have passes := refuseIf_ok.mp judged
    exact ⟨rfl, fun some none => passes ⟨some, none⟩⟩

theorem checkRow_ok {value : Json} {receipt : Receipt}
    (checked : checkRow screens item hub decisions value receipt = .ok ⟨⟩) :
    ∃ decision, RowAdmitted screens hub decisions value receipt decision := by
  unfold checkRow at checked
  split at checked
  · rename_i row
    split at checked
    · rename_i members labelled
      obtain ⟨digest, canonical, rest⟩ := bind_eq_ok checked
      split at rest
      · rename_i index placed
        split at rest
        · rename_i decision found
          obtain ⟨same, rest⟩ := refuseIf_bind_eq_ok.mp rest
          obtain ⟨⟨conflict, flags⟩, screened, rest⟩ := bind_eq_ok rest
          obtain ⟨-, -, judged⟩ := bind_eq_ok rest
          have number : decision.index = index := by simpa using List.find?_some found
          have receiptIndex : index = receipt.sourceRowIndex :=
            not_not.mp fun other => same (Or.inl other)
          have receiptDigest : digest = receipt.sourceRowSha256 :=
            not_not.mp fun other => same (Or.inr (Or.inl other))
          have own : digest = decision.sha256 :=
            not_not.mp fun other => same (Or.inr (Or.inr (Or.inr (Or.inl other))))
          refine ⟨decision, List.mem_of_find?_eq_some found, number.trans receiptIndex, ?_, ?_,
            conflict, flags, orRaise_ok.mp screened, judge_ok judged⟩
          · rw [← own]
            exact orRaise_ok.mp canonical
          · rw [← receiptDigest, own]
        · cases rest
      · cases rest
    · cases checked
  · cases checked

theorem checkRows_ok {failure : Option ReadFailure} {values : List Json} {receipts : List Receipt}
    (checked : checkRows screens item hub decisions failure values receipts = .ok ⟨⟩) :
    failure = none ∧ List.Forall₂ (fun value receipt =>
      ∃ decision, RowAdmitted screens hub decisions value receipt decision) values receipts := by
  induction values generalizing receipts with
  | nil =>
    cases receipts with
    | nil =>
      cases failure with
      | none => exact ⟨rfl, List.Forall₂.nil⟩
      | some failure => cases checked
    | cons receipt receipts => cases failure <;> cases checked
  | cons value values ih =>
    cases receipts with
    | nil => cases checked
    | cons receipt receipts =>
      obtain ⟨⟨⟩, first, rest⟩ := bind_eq_ok checked
      obtain ⟨complete, each⟩ := ih rest
      exact ⟨complete, List.Forall₂.cons (checkRow_ok first) each⟩

end

section

variable {screens : Screens} {store : Store} {item : Json} {policyId policySha256 : Text}

structure HubEntry (screens : Screens) (store : Store) (item : Json) where
  hub : HubSource
  opened : HubShard
  decisions : List RowDecision
  contents : Bytes
  hub_eq : hubSource screens store item = .ok hub
  opened_eq : hubShard screens item hub = .ok opened
  decisions_eq : hubDecisions item opened.shard = .ok decisions
  contents_eq : store.node hub.sourceId hub.snapshot.snapshotSha256 opened.file.path =
    some (.file contents)

namespace HubEntry

def sample (entry : HubEntry screens store item) : Reading :=
  recordsFromPath screens.routines (cap store) entry.opened.file.sha256 entry.contents

def resolved (entry : HubEntry screens store item) (policyId policySha256 : Text) :
    (Text × Text) × Resolved :=
  ((entry.hub.sourceId, entry.opened.file.path),
    { rights := entry.opened.rights
      licenseLabel := entry.hub.licenseLabel
      policySpdxExpression := entry.opened.policy.spdxExpression
      decided := .rows entry.decisions
      policyId := policyId
      policySha256 := policySha256 })

end HubEntry

theorem snapshotFile_ok {sourceId snapshotSha256 path : Text} {failure : AdmissionFailure}
    {contents : Bytes} : snapshotFile store sourceId snapshotSha256 path failure = .ok contents ↔
      store.node sourceId snapshotSha256 path = some (.file contents) := by
  unfold snapshotFile
  cases store.node sourceId snapshotSha256 path with
  | none => simp
  | some node => cases node <;> simp

theorem admitShard_opens {result : (Text × Text) × Resolved}
    (admitted : admitShard screens store policyId policySha256 item = .ok result) :
    ∃ entry : HubEntry screens store item, result = entry.resolved policyId policySha256 := by
  obtain ⟨hub, source, rest⟩ := bind_eq_ok admitted
  obtain ⟨opened, shard, rest⟩ := bind_eq_ok rest
  obtain ⟨decisions, decided, rest⟩ := bind_eq_ok rest
  obtain ⟨contents, stored, rest⟩ := bind_eq_ok rest
  obtain ⟨-, checked, rest⟩ := bind_eq_ok rest
  obtain ⟨-, rest⟩ := refuseIf_bind_eq_ok.mp rest
  cases rest
  exact ⟨⟨hub, opened, decisions, contents, source, shard, decided, snapshotFile_ok.mp stored⟩, rfl⟩

theorem admitShard_rows {result : (Text × Text) × Resolved}
    (admitted : admitShard screens store policyId policySha256 item = .ok result)
    (entry : HubEntry screens store item) :
    entry.sample.failure = none ∧ List.Forall₂ (fun value receipt => ∃ decision,
      RowAdmitted screens entry.hub entry.decisions value receipt decision) entry.sample.values
        entry.opened.shard.selectedRows := by
  obtain ⟨hub, source, rest⟩ := bind_eq_ok admitted
  rw [entry.hub_eq] at source
  cases source
  obtain ⟨opened, shard, rest⟩ := bind_eq_ok rest
  rw [entry.opened_eq] at shard
  cases shard
  obtain ⟨decisions, decided, rest⟩ := bind_eq_ok rest
  rw [entry.decisions_eq] at decided
  cases decided
  obtain ⟨contents, read, rest⟩ := bind_eq_ok rest
  have stored := snapshotFile_ok.mp read
  rw [entry.contents_eq] at stored
  cases stored
  obtain ⟨⟨⟩, checked, -⟩ := bind_eq_ok rest
  exact checkRows_ok checked

end

end SparseLab.Corpus.Admission
