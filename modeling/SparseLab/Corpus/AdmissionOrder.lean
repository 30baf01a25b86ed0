import SparseLab.Corpus.RepositoryAdmission

/-! Admission results by source, whatever the order of the entries and of their decisions. -/

namespace SparseLab.Corpus.Admission

open Library Cleaning Rights
open Records (Bytes Routines Reading ReadFailure recordsFromPath maxRecordBytes sha256Hex)

section

theorem foldl_put {entries results : Results}
    (distinct : ((results ++ entries).map Prod.fst).Nodup) :
    entries.foldl put results = results ++ entries := by
  induction entries generalizing results with
  | nil => exact (List.append_nil results).symm
  | cons entry entries ih =>
    have fresh : (results.any fun other => decide (other.1 = entry.1)) = false := by
      rw [List.any_eq_false]
      intro other member same
      rw [List.map_append, List.nodup_append] at distinct
      exact distinct.2.2 other.1 (List.mem_map_of_mem member) entry.1
        (List.mem_map_of_mem List.mem_cons_self) (by simpa using same)
    have next : put results entry = results ++ [entry] := by
      rw [put, if_neg (by simp [fresh])]
    rw [List.foldl_cons, next, ih (by simpa using distinct), List.append_assoc]
    rfl

theorem nodup_groups {labels : List Text} {groups : List Results} (distinct : labels.Nodup)
    (each : List.Forall₂ (fun label group => (group.map Prod.fst).Nodup ∧
      ∀ entry ∈ group, entry.1.1 = label) labels groups) :
    (groups.flatten.map Prod.fst).Nodup ∧
      ∀ entry ∈ groups.flatten, entry.1.1 ∈ labels := by
  induction each with
  | nil => exact ⟨List.nodup_nil, fun entry member => by cases member⟩
  | @cons label group labels groups head _ ih =>
    obtain ⟨own, rest⟩ := List.nodup_cons.mp distinct
    obtain ⟨later, labelled⟩ := ih rest
    rw [List.flatten_cons]
    refine ⟨?_, ?_⟩
    · rw [List.map_append, List.nodup_append]
      refine ⟨head.1, later, ?_⟩
      intro key here other there same
      obtain ⟨entry, inside, rfl⟩ := List.mem_map.mp here
      obtain ⟨another, beyond, rfl⟩ := List.mem_map.mp there
      have elsewhere := labelled another beyond
      rw [← same, head.2 entry inside] at elsewhere
      exact own elsewhere
    · intro entry member
      rcases List.mem_append.mp member with here | there
      · rw [head.2 entry here]
        exact List.mem_cons_self
      · exact List.mem_cons_of_mem _ (labelled entry there)

variable {screens : Screens} {store : Store} {policyId policySha256 : Text} {item : Json}

def Admits (screens : Screens) (store : Store) (policyId policySha256 : Text) (item : Json)
    (group : Results) : Prop :=
  (∃ result, admitShard screens store policyId policySha256 item = .ok result ∧
    group = [result]) ∨ admitRepository screens store policyId policySha256 item = .ok group

def pinnedFiles (store : Store) (sourceId : Text) : List (Text × Text) :=
  ((store.snapshots.get sourceId).map fun snapshot =>
    snapshot.files.map fun file => (sourceId, file.path)).getD []

theorem fileKeys {repository : Repository} {decisions : List Json} {results : Results}
    (each : List.Forall₂ (fun decision result =>
      admitFile screens store policyId policySha256 repository decision = .ok result)
      decisions results) :
    (results.map Prod.fst).map some =
      (decisions.map fun decision => textField decision "path").map fun path =>
        path.map fun path => (repository.sourceId, path) := by
  induction each with
  | nil => rfl
  | cons head _ ih =>
    obtain ⟨file, contents, decided, admitted, key, -⟩ := admitFile_ok head
    rw [List.map_cons, List.map_cons, List.map_cons, List.map_cons, ih, key, admitted.path]
    rfl

theorem Admits.keys {group : Results} (admits : Admits screens store policyId policySha256 item group) :
    ∃ sourceId, textField item "source_id" = some sourceId ∧
      (group.map Prod.fst).Perm (pinnedFiles store sourceId) ∧ (group.map Prod.fst).Nodup ∧
        ∀ entry ∈ group, entry.1.1 = sourceId := by
  rcases admits with ⟨result, admitted, rfl⟩ | admitted
  · obtain ⟨entry, rfl⟩ := admitShard_opens admitted
    obtain ⟨-, declared⟩ := hubSource_ok entry.hub_eq
    have eligible := hubShard_ok entry.opened_eq
    refine ⟨entry.hub.sourceId, declared.named, ?_, List.nodup_singleton _, ?_⟩
    · rw [pinnedFiles, declared.snapshot, Option.map_some, eligible.oneFile]
      exact List.Perm.refl _
    · intro other member
      rw [List.mem_singleton.mp member]
      rfl
  · obtain ⟨repository, checked, each⟩ := admitRepository_ok admitted
    have declared := repositoryOf_ok checked
    have names := fileKeys each
    have perm : (group.map Prod.fst).Perm (pinnedFiles store repository.sourceId) := by
      have moved := declared.covers.map fun path =>
        path.map fun path => (repository.sourceId, path)
      rw [← names] at moved
      have wrapped : ((group.map Prod.fst).map some).Perm
          ((pinnedFiles store repository.sourceId).map some) := by
        rw [pinnedFiles, declared.snapshot, Option.map_some, Option.getD_some]
        have paths : ((repository.snapshot.files.map PinnedFile.path).map some).map
            (Option.map fun path => (repository.sourceId, path)) =
              (repository.snapshot.files.map fun file => (repository.sourceId, file.path)).map
                some := by
          rw [List.map_map, List.map_map, List.map_map]
          rfl
        rw [← paths]
        exact moved
      exact (List.map_perm_map_iff (Option.some_injective _)).mp wrapped
    refine ⟨repository.sourceId, declared.named, perm, ?_, ?_⟩
    · rw [perm.nodup_iff, pinnedFiles, declared.snapshot, Option.map_some, Option.getD_some]
      have paired := declared.distinct.map (fun first second same =>
        (Prod.mk.inj same).2 : Function.Injective fun path => (repository.sourceId, path))
      rwa [List.map_map] at paired
    · intro entry member
      have inside := perm.subset (List.mem_map_of_mem member)
      rw [pinnedFiles, declared.snapshot, Option.map_some, Option.getD_some] at inside
      obtain ⟨file, -, same⟩ := List.mem_map.mp inside
      rw [← same]

theorem admitted_labels {items : List Json} {groups : List Results}
    (each : List.Forall₂ (Admits screens store policyId policySha256) items groups) :
    ∃ labels : List Text, items.map (fun item => textField item "source_id") = labels.map some ∧
      List.Forall₂ (fun label group => (group.map Prod.fst).Nodup ∧
        ∀ entry ∈ group, entry.1.1 = label) labels groups ∧
      (groups.flatten.map Prod.fst).Perm (labels.flatMap (pinnedFiles store)) := by
  induction each with
  | nil => exact ⟨[], rfl, List.Forall₂.nil, List.Perm.nil⟩
  | cons head _ ih =>
    obtain ⟨labels, names, labelled, perm⟩ := ih
    obtain ⟨sourceId, named, keys, distinct, own⟩ := head.keys
    refine ⟨sourceId :: labels, ?_, List.Forall₂.cons ⟨distinct, own⟩ labelled, ?_⟩
    · rw [List.map_cons, List.map_cons, named, names]
    · rw [List.flatten_cons, List.map_append, List.flatMap_cons]
      exact keys.append perm

theorem admitted_distinct {items : List Json} {groups : List Results} {names : List Text}
    (each : List.Forall₂ (Admits screens store policyId policySha256) items groups)
    (sources : (items.map fun item => textField item "source_id").Perm (names.map some))
    (distinct : names.Nodup) :
    (groups.flatten.map Prod.fst).Nodup ∧
      (groups.flatten.map Prod.fst).Perm (names.flatMap (pinnedFiles store)) := by
  obtain ⟨labels, same, labelled, perm⟩ := admitted_labels each
  rw [same] at sources
  have labelsPerm := (List.map_perm_map_iff (Option.some_injective _)).mp sources
  obtain ⟨nodup, -⟩ := nodup_groups (labelsPerm.nodup_iff.mpr distinct) labelled
  exact ⟨nodup, perm.trans (labelsPerm.flatMap_right _)⟩

theorem admits_shards {items : List Json} {results : Results}
    (each : List.Forall₂ (fun item result =>
      admitShard screens store policyId policySha256 item = .ok result) items results) :
    List.Forall₂ (Admits screens store policyId policySha256) items
      (results.map fun result => [result]) := by
  induction each with
  | nil => exact List.Forall₂.nil
  | cons head _ ih => exact List.Forall₂.cons (Or.inl ⟨_, head, rfl⟩) ih

theorem flatten_singletons (results : Results) :
    (results.map fun result => [result]).flatten = results := by
  induction results with
  | nil => rfl
  | cons result results ih => rw [List.map_cons, List.flatten_cons, ih]; rfl

end

section

variable {screens : Screens} {store : Store} {manifest : Json} {results : Results}

def policyId (manifest : Json) : Text := (textField manifest "policy_id").getD []

def policySha256 (manifest : Json) : Text := (textField manifest "policy_sha256").getD []

structure FirstSchema (store : Store) (manifest : Json) : Prop where
  valid : manifestOk manifest 1 = true
  names : namesAre "source_id" (entriesOf manifest) store.sources.keys = true
  length : (entriesOf manifest).length = store.sources.keys.length

theorem verifyV1_ok : verifyV1 screens store manifest = .ok results ↔
    FirstSchema store manifest ∧ (entriesOf manifest).mapM
      (admitShard screens store (policyId manifest) (policySha256 manifest)) = .ok results := by
  have distinct : ∀ entries, FirstSchema store manifest → (entriesOf manifest).mapM
      (admitShard screens store (policyId manifest) (policySha256 manifest)) = .ok entries →
        entries.foldl put [] = entries := by
    intro entries schema admitted
    have groups := admits_shards (mapM_eq_ok.mp admitted)
    obtain ⟨nodup, -⟩ := admitted_distinct groups
      (namesAre_perm schema.names store.sources.distinct schema.length) store.sources.distinct
    rw [flatten_singletons] at nodup
    exact foldl_put nodup
  constructor
  · intro verified
    obtain ⟨manifestOk, rest⟩ := refuseIf_bind_eq_ok.mp verified
    obtain ⟨inventory, rest⟩ := refuseIf_bind_eq_ok.mp rest
    obtain ⟨entries, admitted, same⟩ := bind_eq_ok rest
    have schema : FirstSchema store manifest := by
      refine ⟨by simpa using manifestOk, ?_, not_not.mp fun other => inventory (Or.inr other)⟩
      by_contra other
      exact inventory (Or.inl (by simpa using other))
    refine ⟨schema, ?_⟩
    rw [← Except.ok.inj same, distinct entries schema admitted]
    exact admitted
  · rintro ⟨schema, admitted⟩
    have passes : ¬ (namesAre "source_id" (entriesOf manifest) store.sources.keys = false ∨
        (entriesOf manifest).length ≠ store.sources.keys.length) := by
      simp [schema.names, schema.length]
    rw [verifyV1, refuseIf_bind (by simp [schema.valid]), refuseIf_bind passes]
    change ((entriesOf manifest).mapM
      (admitShard screens store (policyId manifest) (policySha256 manifest)) >>= fun _ => _) = _
    rw [admitted]
    exact congrArg Except.ok (distinct results schema admitted)

theorem Table.get_only {α : Type} (table : Table α) {names : List Text} {key : Text}
    (member : key ∈ names) : (table.only names).get key = table.get key := by
  obtain ⟨entries, distinct⟩ := table
  unfold Table.get Table.only
  dsimp only
  rw [List.find?_filter]
  congr 1
  refine congrArg (entries.find? ·) (funext fun entry => ?_)
  by_cases same : entry.1 = key
  · simp [same, member]
  · simp [same]

theorem Table.keys_only {α : Type} (table : Table α) (names : List Text) :
    (table.only names).keys = table.keys.filter names.contains := by
  unfold Table.keys Table.only
  rw [List.filter_map]
  rfl

theorem hubSource_only {item : Json} {names : List Text} {sourceId : Text}
    (named : textField item "source_id" = some sourceId) (member : sourceId ∈ names) :
    hubSource screens (store.only names) item = hubSource screens store item := by
  unfold hubSource
  rw [named]
  have source : (store.only names).sources.get sourceId = store.sources.get sourceId :=
    Table.get_only _ member
  have snapshot : (store.only names).snapshots.get sourceId = store.snapshots.get sourceId :=
    Table.get_only _ member
  change (refuseIf _ _ >>= fun _ => orRaise ((store.only names).sources.get sourceId) _ >>= fun _ =>
    orRaise ((store.only names).snapshots.get sourceId) _ >>= fun _ => _) = _
  rw [source, snapshot]
  rfl

theorem admitShard_only {item : Json} {names : List Text} {sourceId policyId policySha256 : Text}
    (named : textField item "source_id" = some sourceId) (member : sourceId ∈ names) :
    admitShard screens (store.only names) policyId policySha256 item =
      admitShard screens store policyId policySha256 item := by
  rw [admitShard, hubSource_only named member]
  rfl

theorem hubManifest_get (manifest : Json) (items : List Json) :
    (hubManifest manifest items).get (text "schema_version") = some (.int 1) ∧
      (hubManifest manifest items).get (text "policy_id") =
        some ((manifest.get (text "policy_id")).getD .null) ∧
      (hubManifest manifest items).get (text "policy_sha256") =
        some ((manifest.get (text "policy_sha256")).getD .null) ∧
      (hubManifest manifest items).get (text "sources") = some (.list items) :=
  ⟨rfl, rfl, rfl, rfl⟩

theorem hubManifest_textField {manifest : Json} {items : List Json} {key : String}
    (same : (hubManifest manifest items).get (text key) =
      some ((manifest.get (text key)).getD .null)) :
    textField (hubManifest manifest items) key = textField manifest key := by
  unfold textField
  rw [same]
  cases manifest.get (text key) <;> rfl

theorem hubManifest_policy (manifest : Json) (items : List Json) :
    policyId (hubManifest manifest items) = policyId manifest ∧
      policySha256 (hubManifest manifest items) = policySha256 manifest := by
  obtain ⟨-, identifier, digest, -⟩ := hubManifest_get manifest items
  unfold policyId policySha256
  rw [hubManifest_textField identifier, hubManifest_textField digest]
  exact ⟨rfl, rfl⟩

theorem hubManifest_entries (manifest : Json) (items : List Json) :
    entriesOf (hubManifest manifest items) = items := by
  obtain ⟨-, -, -, sources⟩ := hubManifest_get manifest items
  rw [entriesOf, sources]
  rfl

theorem hubManifest_ok {manifest : Json} (items : List Json) {version : Nat}
    (valid : manifestOk manifest version = true) :
    manifestOk (hubManifest manifest items) 1 = true := by
  obtain ⟨version, identifier, digest, sources⟩ := hubManifest_get manifest items
  have keys : keysAre (hubManifest manifest items) manifestKeys = true := rfl
  simp only [manifestOk, Bool.and_eq_true] at valid
  obtain ⟨⟨⟨-, named⟩, hex⟩, -⟩ := valid
  have written' : written ((hubManifest manifest items).get (text "policy_id")) = true := by
    rw [identifier]
    cases field : manifest.get (text "policy_id") with
    | none =>
      rw [field] at named
      cases named
    | some value =>
      rw [field] at named
      exact named
  rw [manifestOk, keys, version, written', hubManifest_textField digest, hex, sources]
  rfl

def hubItems (store : Store) (manifest : Json) : List Json :=
  (entriesOf manifest).filter fun item => kindOf store item = some .huggingfaceDataset

def gitItems (store : Store) (manifest : Json) : List Json :=
  (entriesOf manifest).filter fun item => kindOf store item = some .git

structure SecondSchema (store : Store) (manifest : Json) : Prop where
  valid : manifestOk manifest 2 = true
  pinned : store.sources.keys ⊆ store.snapshots.keys ∧ store.snapshots.keys ⊆ store.sources.keys
  length : (entriesOf manifest).length = store.sources.keys.length
  dicts : (entriesOf manifest).all Json.isDict = true
  names : namesAre "source_id" (entriesOf manifest) store.sources.keys = true
  kinds : (hubItems store manifest).length + (gitItems store manifest).length =
    (entriesOf manifest).length

theorem SecondSchema.perm (schema : SecondSchema store manifest) :
    (hubItems store manifest ++ gitItems store manifest).Perm (entriesOf manifest) := by
  have halves := List.filter_append_perm
    (fun item => decide (kindOf store item = some .huggingfaceDataset)) (entriesOf manifest)
  have git : gitItems store manifest = (entriesOf manifest).filter
      fun item => !decide (kindOf store item = some .huggingfaceDataset) := by
    have within : (gitItems store manifest).Sublist ((entriesOf manifest).filter
        fun item => !decide (kindOf store item = some .huggingfaceDataset)) := by
      apply List.monotone_filter_right
      intro item isGit
      have isGit : kindOf store item = some .git := by simpa using isGit
      simp [isGit]
    apply within.eq_of_length
    have kinds := schema.kinds
    have total := halves.length_eq
    rw [List.length_append] at total
    unfold hubItems at kinds
    omega
  rw [git]
  exact halves

theorem SecondSchema.first (schema : SecondSchema store manifest) {names : List Text}
    (named : names = (hubItems store manifest).filterMap fun item => textField item "source_id") :
    FirstSchema (store.only names) (hubManifest manifest (hubItems store manifest)) := by
  have sources := namesAre_perm schema.names store.sources.distinct schema.length
  have dict : ∀ item ∈ hubItems store manifest, ∃ name, textField item "source_id" = some name ∧
      name ∈ store.sources.keys ∧ name ∈ names := by
    intro item member
    have inside : item ∈ entriesOf manifest := (List.mem_filter.mp member).1
    have field := sources.subset (List.mem_map_of_mem inside)
    obtain ⟨name, known, same⟩ := List.mem_map.mp field
    refine ⟨name, same.symm, known, ?_⟩
    rw [named]
    exact List.mem_filterMap.mpr ⟨item, member, same.symm⟩
  have keys : ((store.only names).sources.keys) = store.sources.keys.filter names.contains :=
    Table.keys_only _ _
  have hubNames : ((hubItems store manifest).map fun item => textField item "source_id").Perm
      ((store.only names).sources.keys.map some) := by
    rw [keys]
    apply (List.perm_ext_iff_of_nodup ?_ ?_).mpr
    · intro name
      constructor
      · intro member
        obtain ⟨item, inside, same⟩ := List.mem_map.mp member
        obtain ⟨own, field, known, listed⟩ := dict item inside
        rw [← same, field]
        exact List.mem_map_of_mem (List.mem_filter.mpr ⟨known, by simpa using listed⟩)
      · intro member
        obtain ⟨own, inside, rfl⟩ := List.mem_map.mp member
        have listed : own ∈ names := by simpa using (List.mem_filter.mp inside).2
        rw [named] at listed
        obtain ⟨item, there, field⟩ := List.mem_filterMap.mp listed
        exact List.mem_map.mpr ⟨item, there, field⟩
    · have all := sources.nodup_iff.mpr (store.sources.distinct.map (Option.some_injective _))
      exact all.sublist (List.filter_sublist.map _)
    · exact (store.sources.distinct.filter _).map (Option.some_injective _)
  refine ⟨hubManifest_ok _ schema.valid, ?_, ?_⟩
  · rw [hubManifest_entries]
    simp only [namesAre, Bool.and_eq_true, List.all_eq_true, List.any_eq_true, decide_eq_true_eq]
    constructor
    · intro item member
      obtain ⟨name, field, known, listed⟩ := dict item (List.mem_filter.mp member).1
      rw [field, keys]
      simp [known, listed]
    · intro name member
      have field := hubNames.mem_iff.mpr (List.mem_map_of_mem member)
      obtain ⟨item, inside, same⟩ := List.mem_map.mp field
      exact ⟨item, inside, same⟩
  · rw [hubManifest_entries]
    simpa using hubNames.length_eq

theorem admitShards_only {items : List Json} {names : List Text} {policyId policySha256 : Text}
    (named : ∀ item ∈ items, ∃ name, textField item "source_id" = some name ∧ name ∈ names) :
    items.mapM (admitShard screens (store.only names) policyId policySha256) =
      items.mapM (admitShard screens store policyId policySha256) := by
  induction items with
  | nil => rfl
  | cons item items ih =>
    obtain ⟨name, field, member⟩ := named item List.mem_cons_self
    rw [List.mapM_cons, List.mapM_cons, admitShard_only field member,
      ih fun other inside => named other (List.mem_cons_of_mem _ inside)]

theorem admits_entries {policyId policySha256 : Text} {hub git : List Json} {hubs : Results}
    {files : List Results}
    (shards : hub.mapM (admitShard screens store policyId policySha256) = .ok hubs)
    (repositories : git.mapM (admitRepository screens store policyId policySha256) = .ok files) :
    List.Forall₂ (Admits screens store policyId policySha256) (hub ++ git)
      ((hubs.map fun result => [result]) ++ files) :=
  List.rel_append (admits_shards (mapM_eq_ok.mp shards))
    ((mapM_eq_ok.mp repositories).imp fun _ _ admitted => Or.inr admitted)

theorem verifyV2_ok : verifyV2 screens store manifest = .ok results ↔
    SecondSchema store manifest ∧ ∃ hubs files,
      (hubItems store manifest).mapM
        (admitShard screens store (policyId manifest) (policySha256 manifest)) = .ok hubs ∧
      (gitItems store manifest).mapM
        (admitRepository screens store (policyId manifest) (policySha256 manifest)) = .ok files ∧
      results = hubs ++ files.flatten := by
  let names := (hubItems store manifest).filterMap fun item => textField item "source_id"
  have listed : SecondSchema store manifest → ∀ item ∈ hubItems store manifest,
      ∃ name, textField item "source_id" = some name ∧ name ∈ names := by
    intro schema item member
    have sources := namesAre_perm schema.names store.sources.distinct schema.length
    have field := sources.subset (List.mem_map_of_mem (List.mem_filter.mp member).1)
    obtain ⟨name, -, same⟩ := List.mem_map.mp field
    exact ⟨name, same.symm, List.mem_filterMap.mpr ⟨item, member, same.symm⟩⟩
  have first : SecondSchema store manifest → ∀ hubs,
      verifyV1 screens (store.only names) (hubManifest manifest (hubItems store manifest)) =
          .ok hubs ↔
        (hubItems store manifest).mapM
          (admitShard screens store (policyId manifest) (policySha256 manifest)) = .ok hubs := by
    intro schema hubs
    obtain ⟨identifier, digest⟩ := hubManifest_policy manifest (hubItems store manifest)
    rw [verifyV1_ok, hubManifest_entries, identifier, digest, admitShards_only (listed schema)]
    exact ⟨And.right, fun admitted => ⟨schema.first rfl, admitted⟩⟩
  have whole : SecondSchema store manifest → ∀ hubs files,
      (hubItems store manifest).mapM
        (admitShard screens store (policyId manifest) (policySha256 manifest)) = .ok hubs →
      (gitItems store manifest).mapM
        (admitRepository screens store (policyId manifest) (policySha256 manifest)) = .ok files →
      files.flatten.foldl put hubs = hubs ++ files.flatten := by
    intro schema hubs files shards repositories
    have sources := namesAre_perm schema.names store.sources.distinct schema.length
    obtain ⟨nodup, -⟩ := admitted_distinct (admits_entries shards repositories)
      ((schema.perm.map _).trans sources) store.sources.distinct
    rw [List.flatten_append, flatten_singletons] at nodup
    exact foldl_put nodup
  constructor
  · intro verified
    obtain ⟨valid, rest⟩ := refuseIf_bind_eq_ok.mp verified
    obtain ⟨inventory, rest⟩ := refuseIf_bind_eq_ok.mp rest
    obtain ⟨kinds, rest⟩ := refuseIf_bind_eq_ok.mp rest
    obtain ⟨hubs, admitted, rest⟩ := bind_eq_ok rest
    obtain ⟨files, repositories, same⟩ := bind_eq_ok rest
    have schema : SecondSchema store manifest := by
      refine ⟨?_, not_not.mp fun other => valid (Or.inr other),
        not_not.mp fun other => inventory (Or.inl other), ?_, ?_, not_not.mp kinds⟩
      · by_contra other
        exact valid (Or.inl (by simpa using other))
      · by_contra other
        exact inventory (Or.inr (Or.inl (by simpa using other)))
      · by_contra other
        exact inventory (Or.inr (Or.inr (by simpa using other)))
    have shards := (first schema hubs).mp admitted
    refine ⟨schema, hubs, files, shards, repositories, ?_⟩
    rw [← Except.ok.inj same, whole schema hubs files shards repositories]
  · rintro ⟨schema, hubs, files, shards, repositories, rfl⟩
    have valid : ¬ (manifestOk manifest 2 = false ∨ ¬ (store.sources.keys ⊆ store.snapshots.keys ∧
        store.snapshots.keys ⊆ store.sources.keys)) := by
      rintro (other | other)
      · rw [schema.valid] at other
        cases other
      · exact other schema.pinned
    have inventory : ¬ ((entriesOf manifest).length ≠ store.sources.keys.length ∨
        (entriesOf manifest).all Json.isDict = false ∨
        namesAre "source_id" (entriesOf manifest) store.sources.keys = false) := by
      rintro (other | other | other)
      · exact other schema.length
      · rw [schema.dicts] at other
        cases other
      · rw [schema.names] at other
        cases other
    have kinds : ¬ ((hubItems store manifest).length + (gitItems store manifest).length ≠
        (entriesOf manifest).length) := not_not.mpr schema.kinds
    rw [verifyV2, refuseIf_bind valid, refuseIf_bind inventory]
    change (refuseIf ((hubItems store manifest).length + (gitItems store manifest).length ≠
      (entriesOf manifest).length) _ >>= fun _ =>
        verifyV1 screens (store.only names) (hubManifest manifest (hubItems store manifest)) >>=
          fun hubs => (gitItems store manifest).mapM
            (admitRepository screens store (policyId manifest) (policySha256 manifest)) >>= _) = _
    rw [refuseIf_bind kinds, (first schema hubs).mpr shards, repositories]
    exact congrArg Except.ok (whole schema hubs files shards repositories)

end

end SparseLab.Corpus.Admission
