import SparseLab.Corpus.AdmissionOrder

/-! Manifests that differ in the order of their entries, and of the decisions about Git files. -/

namespace SparseLab.Corpus.Admission

open Library Cleaning Rights
open Records (Bytes Routines Reading ReadFailure recordsFromPath maxRecordBytes sha256Hex)

section

def Swapped (key : Text) (related : List Json → List Json → Prop) (first second : Json) : Prop :=
  ∃ before after values others, first = .dict (before ++ (key, .list values) :: after) ∧
    second = .dict (before ++ (key, .list others) :: after) ∧ related values others

theorem lookup_middle (before after : List (Text × Json)) (key name : Text) (value : Json) :
    Json.lookup (before ++ (key, value) :: after) name =
      (Json.lookup before name).or (if key = name then some value else Json.lookup after name) := by
  unfold Json.lookup
  rw [List.find?_append, Option.map_or]
  by_cases same : key = name
  · rw [List.find?_cons_of_pos (by simpa using same), if_pos same]
    rfl
  · rw [List.find?_cons_of_neg (by simpa using same), if_neg same]

theorem keysWithin_middle {before after : List (Text × Json)} {key : Text} {value : Json}
    {keys : List Text} (unknown : key ∉ keys) :
    (Json.dict (before ++ (key, value) :: after)).keysWithin keys = false := by
  rw [Json.keysWithin, List.all_eq_false]
  exact ⟨(key, value), by simp, by simpa using unknown⟩

namespace Swapped

variable {key : Text} {related : List Json → List Json → Prop} {first second : Json}

section

variable (swapped : Swapped key related first second)

include swapped

theorem get_eq {name : Text} (other : name ≠ key) :
    first.get name = second.get name := by
  obtain ⟨before, after, values, others, rfl, rfl, -⟩ := swapped
  change Json.lookup _ name = Json.lookup _ name
  rw [lookup_middle, lookup_middle, if_neg other.symm, if_neg other.symm]

theorem get_key :
    first.get key = second.get key ∨ ∃ values others, first.get key = some (.list values) ∧
      second.get key = some (.list others) ∧ related values others := by
  obtain ⟨before, after, values, others, rfl, rfl, same⟩ := swapped
  change Json.lookup _ key = Json.lookup _ key ∨ ∃ values others,
    Json.lookup _ key = some (.list values) ∧ Json.lookup _ key = some (.list others) ∧ _
  rw [lookup_middle, lookup_middle, if_pos rfl, if_pos rfl]
  cases Json.lookup before key with
  | some value => exact Or.inl rfl
  | none => exact Or.inr ⟨values, others, rfl, rfl, same⟩

theorem isSome_eq (name : Text) : (first.get name).isSome = (second.get name).isSome := by
  by_cases same : name = key
  · subst same
    rcases swapped.get_key with equal | ⟨values, others, one, other, -⟩
    · rw [equal]
    · rw [one, other]
      rfl
  · rw [swapped.get_eq same]

theorem keysWithin_eq (keys : List Text) :
    first.keysWithin keys = second.keysWithin keys := by
  obtain ⟨before, after, values, others, rfl, rfl, -⟩ := swapped
  simp [Json.keysWithin]

theorem keysAre_eq (keys : List String) :
    keysAre first keys = keysAre second keys := by
  have within := swapped.keysWithin_eq (keys.map text)
  have present := swapped.isSome_eq
  obtain ⟨before, after, values, others, rfl, rfl, -⟩ := swapped
  change (_ && _) = (_ && _)
  have each : ((keys.map text).all fun name =>
      (Json.lookup (before ++ (key, .list values) :: after) name).isSome) =
        (keys.map text).all fun name =>
          (Json.lookup (before ++ (key, .list others) :: after) name).isSome :=
    congrArg (List.all (keys.map text)) (funext present)
  rw [each]
  exact congrArg (· && _) within

theorem textField_eq {name : String}
    (other : text name ≠ key) : textField first name = textField second name := by
  rw [textField, swapped.get_eq other, textField]

end

end Swapped

end

section

def SameEntry (first second : Json) : Prop :=
  first = second ∨ Swapped (text "files") List.Perm first second

def Reordered (first second : Json) : Prop :=
  Swapped (text "sources") (Rearranged SameEntry) first second

theorem SameEntry.textField_eq {first second : Json} (same : SameEntry first second)
    {name : String} (other : text name ≠ text "files") :
    textField first name = textField second name := by
  rcases same with rfl | swapped
  · rfl
  · exact swapped.textField_eq other

theorem SameEntry.isDict_eq {first second : Json} (same : SameEntry first second) :
    first.isDict = second.isDict := by
  rcases same with rfl | ⟨before, after, values, others, rfl, rfl, -⟩ <;> rfl

variable {screens : Screens} {store : Store} {policyId policySha256 : Text} {first second : Json}

theorem SameEntry.kindOf_eq (same : SameEntry first second) :
    kindOf store first = kindOf store second := by
  rw [kindOf, same.textField_eq (by decide), kindOf]

theorem SameEntry.admitShard (same : SameEntry first second) :
    Matched Eq (admitShard screens store policyId policySha256 first)
      (admitShard screens store policyId policySha256 second) := by
  rcases same with rfl | swapped
  · exact Matched.of_eq (fun _ => rfl) rfl
  · have fails : ∀ before after files, ∃ failure,
        Admission.admitShard screens store policyId policySha256
          (.dict (before ++ (text "files", files) :: after)) = .error failure := by
      intro before after files
      have unknown : text "files" ∉ (hubKeys ++ ["row_use_policy"]).map text := by decide
      have outside : keysBetween (.dict (before ++ (text "files", files) :: after)) hubKeys
          ["row_use_policy"] = false := by
        rw [keysBetween, keysWithin_middle unknown]
        rfl
      rw [Admission.admitShard, hubSource, refuseIf_raises outside]
      exact ⟨_, rfl⟩
    obtain ⟨before, after, values, others, rfl, rfl, -⟩ := swapped
    obtain ⟨failure, one⟩ := fails before after (.list values)
    obtain ⟨failed, other⟩ := fails before after (.list others)
    rw [one, other]
    trivial

theorem namesAre_perm_eq {key : String} {items others : List Json} {related : Json → Json → Prop}
    (same : Rearranged related items others) (dicts : ∀ item other, related item other →
      item.isDict = other.isDict) (fields : ∀ item other, related item other →
      textField item key = textField other key) (names : List Text) :
    namesAre key items names = namesAre key others names := by
  unfold namesAre
  have within : ((items.filter Json.isDict).all fun item =>
        (textField item key).any fun name => names.contains name) =
      (others.filter Json.isDict).all fun item =>
        (textField item key).any fun name => names.contains name :=
    (same.filter dicts).all_eq fun item other related => by rw [fields item other related]
  have present : (fun name => items.any fun item => decide (textField item key = some name)) =
      fun name => others.any fun item => decide (textField item key = some name) := by
    funext name
    exact same.any_eq fun item other related => by rw [fields item other related]
  rw [within, present]

def SameRepository (first second : Repository) : Prop :=
  ∃ decisions, second = { first with decisions := decisions } ∧ first.decisions.Perm decisions

theorem Matched.orRaise_bind {α β γ : Type} {related : β → γ → Prop} {one : Option α}
    {failure : AdmissionFailure} {continuation : α → Except AdmissionFailure β}
    {another : α → Except AdmissionFailure γ}
    (each : ∀ value, one = some value → Matched related (continuation value) (another value)) :
    Matched related (Admission.orRaise one failure >>= continuation)
      (Admission.orRaise one failure >>= another) := by
  cases found : one with
  | none => trivial
  | some value => exact each value found

theorem repositoryOf_same (swapped : Swapped (text "files") List.Perm first second) :
    Matched SameRepository (repositoryOf screens store first) (repositoryOf screens store second) := by
  have field : ∀ {name : String}, text name ≠ text "files" →
      textField first name = textField second name := swapped.textField_eq
  have rights : first.get (text "rights") = second.get (text "rights") :=
    swapped.get_eq (by decide)
  have label : first.get (text "license_label") = second.get (text "license_label") :=
    swapped.get_eq (by decide)
  unfold repositoryOf
  rw [swapped.keysAre_eq, @field "source_id" (by decide)]
  refine Matched.refuseIf Iff.rfl fun _ => Matched.orRaise_bind fun sourceId _ =>
    Matched.orRaise_bind fun source _ => Matched.orRaise_bind fun snapshot _ => ?_
  rw [@field "snapshot_sha256" (by decide), @field "source_revision" (by decide),
    label]
  refine Matched.refuseIf Iff.rfl fun _ => ?_
  have lists : Matched List.Perm
      (orRaise ((first.get (text "files")).bind Json.list?) .gitProvenance)
      (orRaise ((second.get (text "files")).bind Json.list?) .gitProvenance) := by
    rcases swapped.get_key with equal | ⟨values, others, one, other, perm⟩
    · rw [equal]
      exact Matched.of_eq (fun _ => List.Perm.refl _) rfl
    · rw [one, other]
      exact perm
  refine lists.bind fun decisions others perm => ?_
  rw [rights, @field "license_label" (by decide)]
  refine Matched.orRaise_bind fun policy _ => Matched.refuseIf Iff.rfl fun _ =>
    Matched.refuseIf ?_ fun _ => ⟨others, rfl, perm⟩
  have names : namesAre "path" decisions (snapshot.files.map PinnedFile.path) =
      namesAre "path" others (snapshot.files.map PinnedFile.path) :=
    namesAre_perm_eq (Rearranged.of_perm perm) (fun _ _ same => by rw [same])
      (fun _ _ same => by rw [same]) _
  rw [perm.length_eq, perm.all_eq, names]

theorem SameEntry.admitRepository (same : SameEntry first second) :
    Matched List.Perm (admitRepository screens store policyId policySha256 first)
      (admitRepository screens store policyId policySha256 second) := by
  rcases same with rfl | swapped
  · exact Matched.of_eq (fun _ => List.Perm.refl _) rfl
  · unfold Admission.admitRepository
    refine (repositoryOf_same swapped).bind ?_
    rintro repository _ ⟨decisions, rfl, perm⟩
    exact Rearranged.mapM_perm perm

end

section

variable {screens : Screens} {store : Store} {manifest other : Json}

theorem SameEntry.refl (item : Json) : SameEntry item item := Or.inl rfl

section

variable (reordered : Reordered manifest other)

include reordered

theorem Reordered.entries :
    Rearranged SameEntry (entriesOf manifest) (entriesOf other) := by
  unfold entriesOf
  rcases reordered.get_key with equal | ⟨values, others, one, second, same⟩
  · rw [equal]
    exact ⟨_, List.Perm.refl _, List.forall₂_same.mpr fun item _ => SameEntry.refl item⟩
  · rw [one, second]
    exact same

theorem Reordered.manifestOk_eq (version : Nat) :
    manifestOk manifest version = manifestOk other version := by
  have listed : (((manifest.get (text "sources")).bind Json.list?).isSome) =
      ((other.get (text "sources")).bind Json.list?).isSome := by
    rcases reordered.get_key with equal | ⟨values, others, one, second, -⟩
    · rw [equal]
    · rw [one, second]
      rfl
  unfold manifestOk
  rw [reordered.keysAre_eq, reordered.get_eq (by decide : text "schema_version" ≠ text "sources"),
    reordered.get_eq (by decide : text "policy_id" ≠ text "sources"),
    reordered.textField_eq (by decide : text "policy_sha256" ≠ text "sources"), listed]

theorem Reordered.policy_eq :
    policyId manifest = policyId other ∧ policySha256 manifest = policySha256 other := by
  unfold policyId policySha256
  rw [reordered.textField_eq (by decide : text "policy_id" ≠ text "sources"),
    reordered.textField_eq (by decide : text "policy_sha256" ≠ text "sources")]
  exact ⟨rfl, rfl⟩

theorem Reordered.namesAre_eq (names : List Text) :
    namesAre "source_id" (entriesOf manifest) names =
      namesAre "source_id" (entriesOf other) names :=
  namesAre_perm_eq reordered.entries (fun _ _ same => same.isDict_eq)
    (fun _ _ same => same.textField_eq (by decide)) names

theorem Reordered.first_iff :
    FirstSchema store manifest ↔ FirstSchema store other := by
  have valid := reordered.manifestOk_eq 1
  have names := reordered.namesAre_eq store.sources.keys
  have length := reordered.entries.length_eq
  constructor
  · rintro ⟨one, two, three⟩
    exact ⟨valid ▸ one, names ▸ two, length ▸ three⟩
  · rintro ⟨one, two, three⟩
    exact ⟨valid ▸ one, names ▸ two, length ▸ three⟩

theorem Reordered.ofKind (kind : SourceKind) :
    Rearranged SameEntry
      ((entriesOf manifest).filter fun item => kindOf store item = some kind)
      ((entriesOf other).filter fun item => kindOf store item = some kind) :=
  reordered.entries.filter fun _ _ same => by rw [same.kindOf_eq]

theorem Reordered.second_iff :
    SecondSchema store manifest ↔ SecondSchema store other := by
  have valid := reordered.manifestOk_eq 2
  have names := reordered.namesAre_eq store.sources.keys
  have length := reordered.entries.length_eq
  have dicts : (entriesOf manifest).all Json.isDict = (entriesOf other).all Json.isDict :=
    reordered.entries.all_eq fun _ _ same => same.isDict_eq
  have hub : (hubItems store manifest).length = (hubItems store other).length :=
    (reordered.ofKind .huggingfaceDataset).length_eq
  have git : (gitItems store manifest).length = (gitItems store other).length :=
    (reordered.ofKind .git).length_eq
  constructor
  · rintro ⟨one, two, three, four, five, six⟩
    exact ⟨valid ▸ one, two, length ▸ three, dicts ▸ four, names ▸ five, hub ▸ git ▸ length ▸ six⟩
  · rintro ⟨one, two, three, four, five, six⟩
    refine ⟨valid ▸ one, two, length ▸ three, dicts ▸ four, names ▸ five, ?_⟩
    rw [hub, git, length]
    exact six

end

theorem Matched.congr {ε α β : Type} {related : α → β → Prop} {one again : Except ε α}
    {other another : Except ε β} (alike : Matched related one other)
    (first : ∀ value, again = .ok value ↔ one = .ok value)
    (second : ∀ value, another = .ok value ↔ other = .ok value) : Matched related again another := by
  cases returned : again with
  | ok value =>
    rw [(first value).mp returned] at alike
    cases other with
    | error failure => cases alike
    | ok result =>
      rw [(second result).mpr rfl]
      exact alike
  | error failure =>
    cases returns : another with
    | error failed => trivial
    | ok result =>
      rw [(second result).mp returns] at alike
      cases one with
      | error failed => cases alike
      | ok value =>
        rw [(first value).mpr rfl] at returned
        cases returned

theorem Matched.of_fails {ε α β : Type} {related : α → β → Prop} {one : Except ε α}
    {other : Except ε β} (first : ∀ value, one ≠ .ok value) (second : ∀ value, other ≠ .ok value) :
    Matched related one other := by
  cases one with
  | ok value => exact absurd rfl (first value)
  | error failure =>
    cases other with
    | ok value => exact absurd rfl (second value)
    | error failed => trivial

theorem whole_iff {hubs : Except AdmissionFailure Results}
    {files : Except AdmissionFailure (List Results)} {results : Results} :
    (∃ one groups, hubs = .ok one ∧ files = .ok groups ∧ results = one ++ groups.flatten) ↔
      (hubs >>= fun one => files >>= fun groups => .ok (one ++ groups.flatten)) = .ok results := by
  constructor
  · rintro ⟨one, groups, rfl, rfl, rfl⟩
    rfl
  · intro returned
    obtain ⟨one, first, rest⟩ := bind_eq_ok returned
    obtain ⟨groups, second, rest⟩ := bind_eq_ok rest
    exact ⟨one, groups, first, second, (Except.ok.inj rest).symm⟩

theorem Reordered.verify (reordered : Reordered manifest other) :
    Matched List.Perm (verifyRecordAdmission screens store manifest)
      (verifyRecordAdmission screens store other) := by
  obtain ⟨identifier, digest⟩ := reordered.policy_eq
  have shards : ∀ {items others : List Json}, Rearranged SameEntry items others →
      Matched List.Perm
        (items.mapM (admitShard screens store (policyId manifest) (policySha256 manifest)))
        (others.mapM (admitShard screens store (policyId other) (policySha256 other))) := by
    intro items others same
    rw [← identifier, ← digest]
    exact (Rearranged.mapM (fun _ _ same => same.admitShard) same).mono fun _ _ same => same.perm
  unfold verifyRecordAdmission
  rw [reordered.get_eq (by decide : text "schema_version" ≠ text "sources")]
  by_cases version : numbered (other.get (text "schema_version")) 1 = true
  · rw [if_pos version, if_pos version]
    by_cases schema : FirstSchema store manifest
    · have schema' := reordered.first_iff.mp schema
      refine Matched.congr (shards reordered.entries) (fun results => ?_) fun results => ?_
      · rw [verifyV1_ok]
        exact and_iff_right schema
      · rw [verifyV1_ok]
        exact and_iff_right schema'
    · have schema' := mt reordered.first_iff.mpr schema
      exact Matched.of_fails (fun results verified => schema (verifyV1_ok.mp verified).1)
        fun results verified => schema' (verifyV1_ok.mp verified).1
  · rw [if_neg version, if_neg version]
    by_cases schema : SecondSchema store manifest
    · have schema' := reordered.second_iff.mp schema
      have hubs := shards (@Reordered.ofKind store _ _ reordered .huggingfaceDataset)
      have files : Matched (Rearranged List.Perm)
          ((gitItems store manifest).mapM
            (admitRepository screens store (policyId manifest) (policySha256 manifest)))
          ((gitItems store other).mapM
            (admitRepository screens store (policyId other) (policySha256 other))) := by
        rw [← identifier, ← digest]
        exact Rearranged.mapM (fun _ _ same => same.admitRepository) (reordered.ofKind .git)
      have both := hubs.bind fun one another perm =>
        files.bind fun groups others same =>
          (show Matched List.Perm (.ok (one ++ groups.flatten) : Except AdmissionFailure Results)
            (.ok (another ++ others.flatten)) from perm.append same.flatten)
      refine Matched.congr both (fun results => ?_) fun results => ?_
      · rw [verifyV2_ok, and_iff_right schema]
        exact whole_iff
      · rw [verifyV2_ok, and_iff_right schema']
        exact whole_iff
    · have schema' := mt reordered.second_iff.mpr schema
      exact Matched.of_fails (fun results verified => schema (verifyV2_ok.mp verified).1)
        fun results verified => schema' (verifyV2_ok.mp verified).1

end

end SparseLab.Corpus.Admission
