import SparseLab.Corpus.HubAdmission
import SparseLab.Library.Rearrangements

/-! What an admitted Git entry has in its decisions, its pinned files and its policy. -/

namespace SparseLab.Corpus.Admission

open Library Cleaning Rights
open Records (Bytes Routines Reading ReadFailure recordsFromPath maxRecordBytes sha256Hex)

section

theorem namesAre_perm {key : String} {items : List Json} {names : List Text}
    (same : namesAre key items names = true) (distinct : names.Nodup)
    (length : items.length = names.length) :
    (items.map fun item => textField item key).Perm (names.map some) := by
  simp only [namesAre, Bool.and_eq_true, List.all_eq_true, List.any_eq_true,
    decide_eq_true_eq] at same
  have within : names.map some ⊆ items.map fun item => textField item key := by
    intro name member
    obtain ⟨written, inside, rfl⟩ := List.mem_map.mp member
    obtain ⟨item, listed, found⟩ := same.2 written inside
    exact List.mem_map.mpr ⟨item, listed, found⟩
  have shorter := (distinct.map (Option.some_injective _)).subperm within
  exact (shorter.perm_of_length_le (by simp [length])).symm

end

section

variable {screens : Screens} {store : Store} {item : Json} {repository : Repository}
  {policyId policySha256 : Text}

structure Repository.Declared (screens : Screens) (store : Store) (item : Json)
    (repository : Repository) : Prop where
  named : textField item "source_id" = some repository.sourceId
  source : store.sources.get repository.sourceId = some repository.source
  snapshot : store.snapshots.get repository.sourceId = some repository.snapshot
  sha256 : textField item "snapshot_sha256" = some repository.snapshot.snapshotSha256
  files : item.get (text "files") = some (.list repository.decisions)
  policy : screens.rightsPolicy ((item.get (text "rights")).getD .null) = some repository.policy
  spdx : repository.policy.spdxExpression = some repository.spdx
  policyTrains : repository.policy.trainingEligibility.trains = true
  distinct : (repository.snapshot.files.map PinnedFile.path).Nodup
  covers : (repository.decisions.map fun decision => textField decision "path").Perm
    ((repository.snapshot.files.map PinnedFile.path).map some)

theorem listed_of_orRaise {value : Json} {key : Text} {failure : AdmissionFailure}
    {values : List Json}
    (listed : orRaise ((value.get key).bind Json.list?) failure = .ok values) :
    value.get key = some (.list values) := by
  have listed := orRaise_ok.mp listed
  cases field : value.get key with
  | none =>
    rw [field] at listed
    cases listed
  | some found =>
    rw [field] at listed
    cases found with
    | list others =>
      cases listed
      rfl
    | _ => cases listed

theorem repositoryOf_ok (checked : repositoryOf screens store item = .ok repository) :
    repository.Declared screens store item := by
  obtain ⟨-, rest⟩ := refuseIf_bind_eq_ok.mp checked
  obtain ⟨sourceId, named, rest⟩ := bind_eq_ok rest
  obtain ⟨source, declared, rest⟩ := bind_eq_ok rest
  obtain ⟨snapshot, pinned, rest⟩ := bind_eq_ok rest
  obtain ⟨same, rest⟩ := refuseIf_bind_eq_ok.mp rest
  obtain ⟨decisions, listed, rest⟩ := bind_eq_ok rest
  obtain ⟨policy, validated, rest⟩ := bind_eq_ok rest
  obtain ⟨scope, rest⟩ := refuseIf_bind_eq_ok.mp rest
  obtain ⟨covers, rest⟩ := refuseIf_bind_eq_ok.mp rest
  cases rest
  have distinct : (snapshot.files.map PinnedFile.path).Nodup :=
    not_not.mp fun other => covers (Or.inl other)
  have length : decisions.length = snapshot.files.length :=
    not_not.mp fun other => covers (Or.inr (Or.inl other))
  have names : namesAre "path" decisions (snapshot.files.map PinnedFile.path) = true := by
    by_contra other
    exact covers (Or.inr (Or.inr (Or.inr (by simpa using other))))
  refine ⟨orRaise_ok.mp named, orRaise_ok.mp declared, orRaise_ok.mp pinned, ?_,
    listed_of_orRaise listed, orRaise_ok.mp validated, ?_, ?_, distinct,
    namesAre_perm names distinct (by simpa using length)⟩
  · exact not_not.mp fun other => same (Or.inr (Or.inl other))
  · have nonempty : policy.spdxExpression.getD [] ≠ [] := fun empty =>
      scope (Or.inr (Or.inr (Or.inl empty)))
    cases expression : policy.spdxExpression with
    | none =>
      rw [expression] at nonempty
      exact absurd rfl nonempty
    | some written => rfl
  · by_contra other
    exact scope (Or.inl (by simpa using other))

theorem reviewed_of_ok {manual : Option Json} (checked : reviewOk manual = true)
    (present : unreviewed manual = false) :
    ∃ review, manual = some review ∧ completeReview review = true := by
  unfold reviewOk at checked
  unfold unreviewed at present
  split at checked
  · cases present
  · cases present
  · rename_i review _
    exact ⟨review, rfl, checked⟩

structure FileAdmitted (screens : Screens) (store : Store) (repository : Repository)
    (decision : Json) (file : PinnedFile) (contents : Bytes) (decided : Verdict)
    (rights : FileRights) : Prop where
  pinned : file ∈ repository.snapshot.files
  path : textField decision "path" = some file.path
  sha256 : textField decision "sha256" = some file.sha256
  stored : store.node repository.sourceId repository.snapshot.snapshotSha256 file.path =
    some (.file contents)
  digest : text (screens.routines.sha256 contents) = file.sha256
  verdict : verdictOf decision = some decided
  qualified : decided = .qualify →
    resolveFileRights screens.patterns repository.policy file.path (fileHeader contents) true =
        some rights ∧
      rights.trainingEligibility.trains = true ∧
      (screens.fileExceptions contents repository.spdx).1 = false ∧
      ((screens.fileExceptions contents repository.spdx).2 = true →
        ∃ review, decision.get (text "manual_review") = some review ∧
          completeReview review = true)
  excluded : decided ≠ .qualify → rights.trainingEligibility.trains = false

theorem admitFile_ok {decision : Json} {result : (Text × Text) × Resolved}
    (admitted : admitFile screens store policyId policySha256 repository decision = .ok result) :
    ∃ file contents decided,
      FileAdmitted screens store repository decision file contents decided result.2.rights ∧
        result.1 = (repository.sourceId, file.path) ∧ result.2.decided = .file decided := by
  obtain ⟨-, rest⟩ := refuseIf_bind_eq_ok.mp admitted
  obtain ⟨decided, verdict, rest⟩ := bind_eq_ok rest
  obtain ⟨-, rest⟩ := refuseIf_bind_eq_ok.mp rest
  obtain ⟨path, named, rest⟩ := bind_eq_ok rest
  obtain ⟨file, found, rest⟩ := bind_eq_ok rest
  obtain ⟨sha256, rest⟩ := refuseIf_bind_eq_ok.mp rest
  obtain ⟨contents, stored, rest⟩ := bind_eq_ok rest
  obtain ⟨digest, rest⟩ := refuseIf_bind_eq_ok.mp rest
  obtain ⟨checked, resolved, rest⟩ := bind_eq_ok rest
  obtain ⟨reviewed, rest⟩ := refuseIf_bind_eq_ok.mp rest
  obtain ⟨rights, judged, rest⟩ := bind_eq_ok rest
  cases rest
  have found := orRaise_ok.mp found
  have same : file.path = path := by simpa using List.find?_some found
  subst same
  refine ⟨file, contents, decided, ?_, rfl, rfl⟩
  refine ⟨List.mem_of_find?_eq_some found, orRaise_ok.mp named, not_not.mp sha256,
    snapshotFile_ok.mp stored, not_not.mp digest, orRaise_ok.mp verdict, ?_, ?_⟩
  · rintro rfl
    obtain ⟨clean, judged⟩ := refuseIf_bind_eq_ok.mp judged
    obtain ⟨flags, judged⟩ := refuseIf_bind_eq_ok.mp judged
    cases judged
    refine ⟨orRaise_ok.mp resolved, ?_, ?_, ?_⟩
    · by_contra other
      exact clean (Or.inl (by simpa using other))
    · by_contra other
      exact clean (Or.inr (Or.inr (Or.inr (by simpa using other))))
    · intro flagged
      apply reviewed_of_ok (by simpa using reviewed)
      by_contra missing
      exact flags ⟨flagged, by simpa using missing⟩
  · intro other
    cases decided with
    | qualify => exact absurd rfl other
    | exclude =>
      obtain ⟨policy, -, judged⟩ := bind_eq_ok judged
      obtain ⟨own, -, judged⟩ := bind_eq_ok judged
      obtain ⟨barred, same⟩ := refuseIf_bind_eq_ok.mp judged
      cases same
      simpa using barred
    | quarantine =>
      obtain ⟨policy, -, judged⟩ := bind_eq_ok judged
      obtain ⟨own, -, judged⟩ := bind_eq_ok judged
      obtain ⟨barred, same⟩ := refuseIf_bind_eq_ok.mp judged
      cases same
      simpa using barred

theorem admitRepository_ok {results : Results}
    (admitted : admitRepository screens store policyId policySha256 item = .ok results) :
    ∃ repository, repositoryOf screens store item = .ok repository ∧
      List.Forall₂ (fun decision result =>
        admitFile screens store policyId policySha256 repository decision = .ok result)
        repository.decisions results := by
  obtain ⟨repository, checked, rest⟩ := bind_eq_ok admitted
  exact ⟨repository, checked, mapM_eq_ok.mp rest⟩

end

end SparseLab.Corpus.Admission
