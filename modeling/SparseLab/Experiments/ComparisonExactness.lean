import SparseLab.Experiments.ConfigComparison

/-! Which differences between two configurations are told, and which are hidden. -/

namespace SparseLab.Experiments

open Library Library.Mapping

section

variable {α : Type} {fields config artifacts : Mapping Text α} {above name : Text} {value : α}

theorem mem_visit : (name, value) ∈ visit fields above ↔
    ∃ path, (path, Node.value value) ∈ fields.leaves ∧ path.foldl fieldUnder above = name := by
  induction fields generalizing above with
  | empty => simp [visit, leaves]
  | leaf key held rest ih =>
    rw [visit, leaves, List.mem_cons, ih]
    constructor
    · rintro (same | ⟨path, member, rfl⟩)
      · obtain ⟨rfl, rfl⟩ := Prod.mk.inj same
        exact ⟨[key], List.mem_cons_self .., rfl⟩
      · exact ⟨path, List.mem_cons_of_mem _ member, rfl⟩
    · rintro ⟨path, member, rfl⟩
      rcases List.mem_cons.mp member with same | member
      · obtain ⟨rfl, held⟩ := Prod.mk.inj same
        cases held
        exact Or.inl rfl
      · exact Or.inr ⟨path, member, rfl⟩
  | nested key inner rest ihInner ih =>
    rw [visit, leaves, List.mem_append, ihInner, ih]
    constructor
    · rintro (⟨path, member, rfl⟩ | ⟨path, member, rfl⟩)
      · exact ⟨key :: path, List.mem_append_left _
          (mem_nestedLeaves.mpr (Or.inr ⟨path, member, rfl⟩)), rfl⟩
      · exact ⟨path, List.mem_append_right _ member, rfl⟩
    · rintro ⟨path, member, rfl⟩
      rcases List.mem_append.mp member with below | member
      · rcases mem_nestedLeaves.mp below with ⟨-, -, same⟩ | ⟨later, inside, rfl⟩
        · cases same
        · exact Or.inl ⟨later, inside, rfl⟩
      · exact Or.inr ⟨path, member, rfl⟩

theorem lookup_of_agree {fields : List (Text × α)} (member : (name, value) ∈ fields)
    (agree : ∀ other, (name, other) ∈ fields → other = value) : fields.lookup name = some value := by
  induction fields with
  | nil => cases member
  | cons field fields ih =>
    obtain ⟨key, held⟩ := field
    by_cases here : name = key
    · subst here
      rw [List.lookup_cons_self, agree held (List.mem_cons_self ..)]
    · have later : (name, value) ∈ fields := by
        rcases List.mem_cons.mp member with same | later
        · exact absurd (Prod.mk.inj same).1 here
        · exact later
      rw [List.lookup_cons, beq_false_of_ne here]
      exact ih later fun other inside => agree other (List.mem_cons_of_mem _ inside)

theorem fieldValue_of_agree {null : α} {fields : List (Text × α)} (member : (name, value) ∈ fields)
    (agree : ∀ other, (name, other) ∈ fields → other = value) :
    fieldValue null fields name = value := by
  have found : fields.reverse.lookup name = some value :=
    lookup_of_agree (List.mem_reverse.mpr member) fun other inside =>
      agree other (List.mem_reverse.mp inside)
  rw [fieldValue, found]
  rfl

theorem fieldValue_of_absent {null : α} {fields : List (Text × α)}
    (absent : ∀ other, (name, other) ∉ fields) : fieldValue null fields name = null := by
  have found : fields.reverse.lookup name = none := by
    rw [List.lookup_eq_none_iff]
    rintro ⟨key, held⟩ inside
    refine bne_iff_ne.mpr ?_
    rintro rfl
    exact absent held (List.mem_reverse.mp inside)
  rw [fieldValue, found]
  rfl

end

section

variable {α : Type} [DecidableEq α] {null : α} {base variant baseArtifacts variantArtifacts : Mapping Text α}
  {expected invariants : List Text} {artifacts : Option (Mapping Text α)}

theorem mem_sortedFields {fields : List Text} {field : Text} :
    field ∈ sortedFields fields ↔ field ∈ fields := by
  rw [sortedFields, List.mem_insertionSort, List.mem_dedup]

theorem mem_changedFields {left right : List (Text × α)} {field : Text} :
    field ∈ changedFields null left right ↔
      (field ∈ left.map Prod.fst ∨ field ∈ right.map Prod.fst) ∧
        fieldValue null left field ≠ fieldValue null right field := by
  rw [changedFields, List.mem_filter, mem_sortedFields, List.mem_append, decide_eq_true_eq]

theorem compareConfigs_returns (left : inventory artifacts (text "base") = .ok baseArtifacts)
    (right : inventory artifacts (text "variant") = .ok variantArtifacts) :
    (∃ differences, compareConfigs null base variant expected invariants artifacts true =
      .ok differences) ↔
    (∀ field ∈ expected, field ≠ [] ∧ (field ∈ (sideFields base baseArtifacts).map Prod.fst ∨
      field ∈ (sideFields variant variantArtifacts).map Prod.fst)) ∧
    (∀ field ∈ invariants, field ≠ [] ∧ (field ∈ (sideFields base baseArtifacts).map Prod.fst ∨
      field ∈ (sideFields variant variantArtifacts).map Prod.fst)) ∧
    (∀ field ∈ expected, ∀ invariant ∈ invariants, ¬ pathsOverlap field invariant) ∧
    (∀ field ∈ invariants, field ∉ changedFields null (sideFields base baseArtifacts)
      (sideFields variant variantArtifacts)) ∧
    ∀ field, field ∈ expected ↔ field ∈ changedFields null (sideFields base baseArtifacts)
      (sideFields variant variantArtifacts) := by
  have known : ∀ (fields : List Text) (kind : String), (∀ field ∈ fields,
      checkKnown ((sideFields base baseArtifacts).map Prod.fst ++
        (sideFields variant variantArtifacts).map Prod.fst) kind field = .ok ⟨⟩) ↔
      ∀ field ∈ fields, field ≠ [] ∧ (field ∈ (sideFields base baseArtifacts).map Prod.fst ∨
        field ∈ (sideFields variant variantArtifacts).map Prod.fst) := by
    intro fields kind
    refine forall₂_congr fun field _ => ?_
    rw [checkKnown, refuseIf_ok, not_or, not_not, List.mem_append]
  have apart : (∀ field ∈ expected, checkApart invariants field = .ok ⟨⟩) ↔
      ∀ field ∈ expected, ∀ invariant ∈ invariants, ¬ pathsOverlap field invariant := by
    refine forall₂_congr fun field _ => ?_
    rw [checkApart, forM_eq_ok]
    exact forall₂_congr fun invariant _ => refuseIf_ok
  have nothing : ∀ (fields : List Text) (condition : Text → Prop) [DecidablePred condition],
      ¬ (fields.filter condition ≠ []) ↔ ∀ field ∈ fields, ¬ condition field := by
    intro fields condition _
    rw [not_not, List.filter_eq_nil_iff]
    simp
  constructor
  · rintro ⟨differences, returned⟩
    rw [compareConfigs, left, right] at returned
    obtain ⟨declared, returned⟩ := forM_bind_eq_ok.mp returned
    obtain ⟨kept, returned⟩ := forM_bind_eq_ok.mp returned
    obtain ⟨separate, returned⟩ := forM_bind_eq_ok.mp returned
    obtain ⟨violations, returned⟩ := refuseIf_bind_eq_ok.mp returned
    obtain ⟨hidden, returned⟩ := refuseIf_bind_eq_ok.mp returned
    obtain ⟨missing, -⟩ := refuseIf_bind_eq_ok.mp returned
    rw [nothing] at violations hidden
    simp only [true_and] at missing
    rw [nothing] at missing
    refine ⟨(known _ _).mp declared, (known _ _).mp kept, apart.mp separate, ?_, ?_⟩
    · intro field member
      exact violations field (mem_sortedFields.mpr member)
    · intro field
      constructor
      · intro member
        exact not_not.mp (missing field (mem_sortedFields.mpr member))
      · intro member
        exact not_not.mp (hidden field member)
  · rintro ⟨declared, kept, separate, violations, same⟩
    refine ⟨(changedFields null (sideFields base baseArtifacts)
      (sideFields variant variantArtifacts)).map fun path =>
        (path, fieldValue null (sideFields base baseArtifacts) path,
          fieldValue null (sideFields variant variantArtifacts) path), ?_⟩
    rw [compareConfigs, left, right]
    refine forM_bind_eq_ok.mpr ⟨(known _ _).mpr declared, ?_⟩
    refine forM_bind_eq_ok.mpr ⟨(known _ _).mpr kept, ?_⟩
    refine forM_bind_eq_ok.mpr ⟨apart.mpr separate, ?_⟩
    refine refuseIf_bind_eq_ok.mpr ⟨?_, ?_⟩
    · rw [nothing]
      intro field member
      exact violations field (mem_sortedFields.mp member)
    refine refuseIf_bind_eq_ok.mpr ⟨?_, ?_⟩
    · rw [nothing]
      intro field member
      exact not_not.mpr ((same field).mpr member)
    refine refuseIf_bind_eq_ok.mpr ⟨?_, rfl⟩
    simp only [true_and]
    rw [nothing]
    intro field member
    exact not_not.mpr ((same field).mp (mem_sortedFields.mp member))

end

section

variable {α : Type}

structure Side (α : Type) where
  config : Mapping Text α
  artifacts : Mapping Text α
  configDistinct : config.Distinct
  artifactsDistinct : artifacts.Distinct

inductive Source
  | config | artifacts
deriving DecidableEq

namespace Source

def above : Source → Text
  | config => []
  | artifacts => text "artifacts"

def field (source : Source) (path : List Text) : Text := path.foldl fieldUnder source.above

end Source

namespace Side

def part (side : Side α) : Source → Mapping Text α
  | .config => side.config
  | .artifacts => side.artifacts

theorem distinct (side : Side α) (source : Source) : (side.part source).Distinct := by
  cases source with
  | config => exact side.configDistinct
  | artifacts => exact side.artifactsDistinct

def Leaf (side : Side α) (source : Source) (path : List Text) : Prop :=
  ∃ node, (path, node) ∈ (side.part source).leaves

def fields (side : Side α) : List (Text × α) := sideFields side.config side.artifacts

end Side

variable (left right : Side α)

def LeafPath (source : Source) (path : List Text) : Prop :=
  left.Leaf source path ∨ right.Leaf source path

def DiffersAt (source : Source) (path : List Text) : Prop :=
  LeafPath left right source path ∧ (left.part source).fetch path ≠ (right.part source).fetch path

def Differs (field : Text) : Prop :=
  ∃ source path, DiffersAt left right source path ∧ source.field path = field

def HasValue (field : Text) : Prop :=
  ∃ source path value, (path, Node.value value) ∈ (left.part source).leaves ++
    (right.part source).leaves ∧ source.field path = field

structure Separate : Prop where
  named : ∀ source path, LeafPath left right source path → source.field path ≠ []
  apart : ∀ source path source' path', LeafPath left right source path →
    LeafPath left right source' path' → pathsOverlap (source.field path) (source'.field path') →
    source = source' ∧ (path <+: path' ∨ path' <+: path)

def Told (null : α) (side : Side α) (source : Source) (path : List Text) : Prop :=
  ∃ value, value ≠ null ∧ (side.part source).fetch path = some (.value value)

def NothingHidden (null : α) : Prop :=
  ∀ source path, DiffersAt left right source path →
    Told null left source path ∨ Told null right source path

end

section

variable {α : Type} {left right side : Side α} {source source' : Source} {path path' : List Text}
  {name : Text} {value : α} {node : Node Text α}

theorem Side.mem_leaves : (path, node) ∈ (side.part source).leaves ↔
    path ≠ [] ∧ (side.part source).fetch path = some node ∧ node.Ends :=
  Mapping.mem_leaves (side.distinct source)

theorem Side.mem_values : (path, Node.value value) ∈ (side.part source).leaves ↔
    (side.part source).fetch path = some (.value value) := by
  rw [mem_leaves]
  constructor
  · exact fun found => found.2.1
  · intro found
    refine ⟨?_, found, trivial⟩
    rintro rfl
    cases found

theorem Side.mem_fields : (name, value) ∈ side.fields ↔
    ∃ source path, (side.part source).fetch path = some (.value value) ∧
      Source.field source path = name := by
  have split : side.fields = visit side.config [] ++ visit side.artifacts (text "artifacts") := by
    rw [fields, sideFields, flattenConfig, flattenConfig, visit, visit, List.append_nil]
    rfl
  rw [split, List.mem_append, mem_visit, mem_visit]
  constructor
  · rintro (⟨path, member, rfl⟩ | ⟨path, member, rfl⟩)
    · exact ⟨.config, path, mem_values.mp member, rfl⟩
    · exact ⟨.artifacts, path, mem_values.mp member, rfl⟩
  · rintro ⟨source, path, found, rfl⟩
    cases source with
    | config => exact Or.inl ⟨path, mem_values.mpr found, rfl⟩
    | artifacts => exact Or.inr ⟨path, mem_values.mpr found, rfl⟩

theorem Side.leaf_of_value (found : (side.part source).fetch path = some (.value value)) :
    side.Leaf source path :=
  ⟨.value value, mem_values.mpr found⟩

theorem Side.Leaf.fetch_below (leaf : side.Leaf source path) {later : List Text} (more : later ≠ []) :
    (side.part source).fetch (path ++ later) = none := by
  obtain ⟨node, member⟩ := leaf
  obtain ⟨-, found, ends⟩ := mem_leaves.mp member
  rw [fetch_append, found]
  cases node with
  | value held => simp [Node.fetch, more]
  | mapping fields =>
    cases ends
    cases later with
    | nil => exact absurd rfl more
    | cons key later => simp [Node.fetch, fetch, find]

theorem length_fieldUnder {above : Text} (named : above ≠ []) (later : List Text) :
    above.length + later.length ≤ (later.foldl fieldUnder above).length := by
  induction later generalizing above with
  | nil => simp
  | cons key later ih =>
    have longer : (fieldUnder above key).length = above.length + key.length + 1 := by
      rw [fieldUnder, if_neg named, List.length_append, List.length_cons]
      omega
    have named : fieldUnder above key ≠ [] := by
      intro empty
      rw [empty, List.length_nil] at longer
      omega
    have rest := ih named
    rw [List.foldl_cons, List.length_cons]
    omega

theorem Separate.eq_of_prefix (separate : Separate left right)
    (leaf : LeafPath left right source path) (extends_ : path <+: path')
    (alike : source.field path = source.field path') : path = path' := by
  obtain ⟨later, rfl⟩ := extends_
  have length := length_fieldUnder (separate.named source path leaf) later
  have whole : later.foldl fieldUnder (source.field path) = source.field (path ++ later) := by
    rw [Source.field, Source.field, List.foldl_append]
  rw [whole, ← alike] at length
  have none : later = [] := List.eq_nil_of_length_eq_zero (by omega)
  rw [none, List.append_nil]

theorem Separate.same (separate : Separate left right) (leaf : LeafPath left right source path)
    (leaf' : LeafPath left right source' path')
    (alike : source.field path = source'.field path') : source = source' ∧ path = path' := by
  obtain ⟨rfl, comparable⟩ := separate.apart _ _ _ _ leaf leaf' (Or.inl alike)
  refine ⟨rfl, ?_⟩
  rcases comparable with first | second
  · exact separate.eq_of_prefix leaf first alike
  · exact (separate.eq_of_prefix leaf' second alike.symm).symm

def Node.read (null : α) : Option (Node Text α) → α
  | some (.value value) => value
  | _ => null

theorem Separate.read (separate : Separate left right)
    (leaf : LeafPath left right source path) (null : α)
    (here : ∀ source path, side.Leaf source path → LeafPath left right source path) :
    fieldValue null side.fields (source.field path) = Node.read null ((side.part source).fetch path) := by
  have unique : ∀ other, (source.field path, other) ∈ side.fields →
      (side.part source).fetch path = some (.value other) := by
    intro other member
    obtain ⟨source', path', found, alike⟩ := Side.mem_fields.mp member
    obtain ⟨rfl, rfl⟩ := separate.same leaf (here _ _ (Side.leaf_of_value found)) alike.symm
    exact found
  by_cases valued : ∃ value, (side.part source).fetch path = some (.value value)
  · obtain ⟨value, found⟩ := valued
    rw [found]
    refine fieldValue_of_agree (Side.mem_fields.mpr ⟨source, path, found, rfl⟩) ?_
    intro other member
    have again := unique other member
    rw [found] at again
    cases again
    rfl
  · rw [fieldValue_of_absent fun other member => valued ⟨other, unique other member⟩]
    cases found : (side.part source).fetch path with
    | none => rfl
    | some node =>
      cases node with
      | value value => exact absurd ⟨value, found⟩ valued
      | mapping fields => rfl

variable [DecidableEq α] {null : α}

theorem Separate.mem_changed (separate : Separate left right) :
    name ∈ changedFields null left.fields right.fields ↔
      ∃ source path, DiffersAt left right source path ∧ source.field path = name ∧
        (Told null left source path ∨ Told null right source path) := by
  have readLeft : ∀ source path, LeafPath left right source path →
      fieldValue null left.fields (source.field path) =
        Node.read null ((left.part source).fetch path) :=
    fun source path leaf => separate.read leaf null fun _ _ => Or.inl
  have readRight : ∀ source path, LeafPath left right source path →
      fieldValue null right.fields (source.field path) =
        Node.read null ((right.part source).fetch path) :=
    fun source path leaf => separate.read leaf null fun _ _ => Or.inr
  rw [mem_changedFields]
  constructor
  · rintro ⟨member, differ⟩
    have place : ∃ source path, LeafPath left right source path ∧ source.field path = name := by
      rcases member with member | member
      · obtain ⟨⟨_, value⟩, inside, rfl⟩ := List.mem_map.mp member
        obtain ⟨source, path, found, alike⟩ := Side.mem_fields.mp inside
        exact ⟨source, path, Or.inl (Side.leaf_of_value found), alike⟩
      · obtain ⟨⟨_, value⟩, inside, rfl⟩ := List.mem_map.mp member
        obtain ⟨source, path, found, alike⟩ := Side.mem_fields.mp inside
        exact ⟨source, path, Or.inr (Side.leaf_of_value found), alike⟩
    obtain ⟨source, path, leaf, rfl⟩ := place
    rw [readLeft _ _ leaf, readRight _ _ leaf] at differ
    refine ⟨source, path, ⟨leaf, fun same => differ (congrArg _ same)⟩, rfl, ?_⟩
    -- Two values that are not the same are not both null.
    have told : ∀ side : Side α, Node.read null ((side.part source).fetch path) ≠ null →
        Told null side source path := by
      intro side some
      cases found : (side.part source).fetch path with
      | none => exact absurd (by rw [found]; rfl) some
      | some node =>
        cases node with
        | mapping fields => exact absurd (by rw [found]; rfl) some
        | value value =>
          rw [found] at some
          exact ⟨value, some, found⟩
    by_cases none : Node.read null ((left.part source).fetch path) = null
    · exact Or.inr (told right fun same => differ (none.trans same.symm))
    · exact Or.inl (told left none)
  · rintro ⟨source, path, ⟨leaf, differ⟩, rfl, told⟩
    rw [readLeft _ _ leaf, readRight _ _ leaf]
    have listed : ∀ side : Side α, Told null side source path →
        source.field path ∈ side.fields.map Prod.fst := by
      rintro side ⟨value, -, found⟩
      exact List.mem_map.mpr ⟨(_, value), Side.mem_fields.mpr ⟨source, path, found, rfl⟩, rfl⟩
    -- A value that is not null is read as nothing else.
    have apart : ∀ (node node' : Option (Node Text α)) (value : α), value ≠ null →
        node = some (.value value) → node ≠ node' → Node.read null node ≠ Node.read null node' := by
      rintro node node' value some rfl differ same
      cases node' with
      | none => exact some same
      | some other =>
        cases other with
        | value held => exact differ (congrArg (fun value => Option.some (Node.value value)) same)
        | mapping fields => exact some same
    rcases told with told | told
    · refine ⟨Or.inl (listed left told), ?_⟩
      obtain ⟨value, some, found⟩ := told
      exact apart _ _ value some found differ
    · refine ⟨Or.inr (listed right told), ?_⟩
      obtain ⟨value, some, found⟩ := told
      exact (apart _ _ value some found (Ne.symm differ)).symm

omit [DecidableEq α] in
theorem hasValue_iff : HasValue left right name ↔
    name ∈ left.fields.map Prod.fst ∨ name ∈ right.fields.map Prod.fst := by
  constructor
  · rintro ⟨source, path, value, member, rfl⟩
    rcases List.mem_append.mp member with member | member
    · exact Or.inl (List.mem_map.mpr ⟨(_, value),
        Side.mem_fields.mpr ⟨source, path, Side.mem_values.mp member, rfl⟩, rfl⟩)
    · exact Or.inr (List.mem_map.mpr ⟨(_, value),
        Side.mem_fields.mpr ⟨source, path, Side.mem_values.mp member, rfl⟩, rfl⟩)
  · rintro (member | member)
    · obtain ⟨⟨_, value⟩, inside, rfl⟩ := List.mem_map.mp member
      obtain ⟨source, path, found, alike⟩ := Side.mem_fields.mp inside
      exact ⟨source, path, value, List.mem_append_left _ (Side.mem_values.mpr found), alike⟩
    · obtain ⟨⟨_, value⟩, inside, rfl⟩ := List.mem_map.mp member
      obtain ⟨source, path, found, alike⟩ := Side.mem_fields.mp inside
      exact ⟨source, path, value, List.mem_append_right _ (Side.mem_values.mpr found), alike⟩

omit [DecidableEq α] in
theorem Separate.not_overlap (separate : Separate left right) {changed kept : Text}
    (differs : Differs left right changed) (value : HasValue left right kept)
    (same : ¬ Differs left right kept) : ¬ pathsOverlap changed kept := by
  intro overlap
  obtain ⟨source, path, ⟨leaf, differ⟩, rfl⟩ := differs
  obtain ⟨source', path', value, member, rfl⟩ := value
  have leaf' : LeafPath left right source' path' := by
    rcases List.mem_append.mp member with member | member
    · exact Or.inl ⟨_, member⟩
    · exact Or.inr ⟨_, member⟩
  have alike : (left.part source').fetch path' = (right.part source').fetch path' := by
    by_contra differ
    exact same ⟨source', path', ⟨leaf', differ⟩, rfl⟩
  have held : (left.part source').fetch path' = some (.value value) := by
    rcases List.mem_append.mp member with member | member
    · exact Side.mem_values.mp member
    · exact alike.trans (Side.mem_values.mp member)
  obtain ⟨rfl, comparable⟩ := separate.apart _ _ _ _ leaf leaf' overlap
  rcases comparable with ⟨later, rfl⟩ | ⟨later, rfl⟩
  · by_cases more : later = []
    · rw [more, List.append_nil] at alike
      exact differ alike
    · rcases leaf with leaf | leaf
      · rw [leaf.fetch_below more] at held
        cases held
      · rw [alike, leaf.fetch_below more] at held
        cases held
  · by_cases more : later = []
    · rw [more, List.append_nil] at differ
      exact differ alike
    · have left_none := (Side.leaf_of_value held).fetch_below more
      have right_none := (Side.leaf_of_value (alike.symm.trans held)).fetch_below more
      exact differ (left_none.trans right_none.symm)

omit [DecidableEq α] in
theorem exists_differing (left right : Side α) :
    ∃ fields : List Text, ∀ field, field ∈ fields ↔ Differs left right field := by
  classical
  refine ⟨((([Source.config, .artifacts].flatMap fun source =>
    ((left.part source).leaves ++ (right.part source).leaves).map fun entry =>
      (source, entry.1)).filter fun place => DiffersAt left right place.1 place.2).map fun place =>
        place.1.field place.2), fun field => ?_⟩
  simp only [List.mem_map, List.mem_filter, decide_eq_true_eq, List.mem_flatMap]
  constructor
  · rintro ⟨⟨source, path⟩, ⟨-, differs⟩, rfl⟩
    exact ⟨source, path, differs, rfl⟩
  · rintro ⟨source, path, differs, rfl⟩
    refine ⟨(source, path), ⟨⟨source, ?_, ?_⟩, differs⟩, rfl⟩
    · cases source with
      | config => exact List.mem_cons_self ..
      | artifacts => exact List.mem_cons_of_mem _ (List.mem_cons_self ..)
    · rcases differs.1 with ⟨node, member⟩ | ⟨node, member⟩
      · exact ⟨(path, node), List.mem_append_left _ member, rfl⟩
      · exact ⟨(path, node), List.mem_append_right _ member, rfl⟩

end

section

variable {α : Type} {left right : Side α} {fields : Mapping Text α} {parts path : List Text}

def Plain (path : List Text) : Prop := ∀ key ∈ path, key ≠ [] ∧ 0x2e ∉ key

instance : Decidable (Plain path) := inferInstanceAs (Decidable (∀ key ∈ path, _))

def PlainFields (fields : Mapping Text α) : Prop := ∀ entry ∈ fields.leaves, Plain entry.1

instance : Decidable (PlainFields fields) := inferInstanceAs (Decidable (∀ entry ∈ _, Plain _))

theorem foldl_fieldUnder (plain : Plain (parts ++ path)) :
    path.foldl fieldUnder ([0x2e].intercalate parts) = [0x2e].intercalate (parts ++ path) := by
  induction path generalizing parts with
  | nil => rw [List.append_nil, List.foldl_nil]
  | cons key path ih =>
    have step : fieldUnder ([0x2e].intercalate parts) key = [0x2e].intercalate (parts ++ [key]) := by
      cases parts with
      | nil => simp [fieldUnder]
      | cons part parts =>
        have named : [0x2e].intercalate (part :: parts) ≠ [] := by
          intro empty
          have some := (plain part (by simp)).1
          cases parts with
          | nil => exact some (by simpa using empty)
          | cons next parts => simp [List.intercalate_cons_cons, some] at empty
        rw [fieldUnder, if_neg named, intercalate_append (by simp) (by simp),
          List.intercalate_singleton]
    rw [List.foldl_cons, step, ih (by simpa using plain), List.append_assoc]
    rfl

def Source.root : Source → List Text
  | .config => []
  | .artifacts => [text "artifacts"]

theorem components_field (source : Source) (nonempty : path ≠ []) (plain : Plain path) :
    components (source.field path) = source.root ++ path := by
  have whole : Plain (source.root ++ path) := by
    cases source with
    | config => exact plain
    | artifacts =>
      intro key member
      rcases List.mem_cons.mp member with rfl | member
      · decide
      · exact plain key member
  have joined : source.field path = [0x2e].intercalate (source.root ++ path) := by
    rw [← foldl_fieldUnder whole]
    cases source <;> rfl
  rw [joined, components, List.splitOn_intercalate _ (fun key member => (whole key member).2)]
  cases source with
  | config => exact nonempty
  | artifacts => exact List.cons_ne_nil _ _

theorem separate_of_plain (plainLeft : ∀ source, PlainFields (left.part source))
    (plainRight : ∀ source, PlainFields (right.part source))
    (reservedLeft : text "artifacts" ∉ left.config.keys)
    (reservedRight : text "artifacts" ∉ right.config.keys) : Separate left right := by
  have plain : ∀ source path, LeafPath left right source path → path ≠ [] ∧ Plain path := by
    rintro source path (⟨node, member⟩ | ⟨node, member⟩)
    · exact ⟨(Side.mem_leaves.mp member).1, plainLeft source _ member⟩
    · exact ⟨(Side.mem_leaves.mp member).1, plainRight source _ member⟩
  have reserved : ∀ path later, LeafPath left right .config path → path ≠ text "artifacts" :: later := by
    rintro path later (⟨node, member⟩ | ⟨node, member⟩) rfl
    · obtain ⟨_, _, same, known⟩ := head_of_mem_leaves member
      cases same
      exact reservedLeft known
    · obtain ⟨_, _, same, known⟩ := head_of_mem_leaves member
      cases same
      exact reservedRight known
  constructor
  · intro source path leaf empty
    obtain ⟨nonempty, plain⟩ := plain source path leaf
    have parts := components_field source nonempty plain
    rw [empty] at parts
    have one : source.root ++ path = [[]] := parts.symm
    cases source with
    | config =>
      have inside : [] ∈ path := by
        change path = [[]] at one
        simp [one]
      exact (plain [] inside).1 rfl
    | artifacts => cases one
  · intro source path source' path' leaf leaf' overlap
    obtain ⟨nonempty, plain_⟩ := plain source path leaf
    obtain ⟨nonempty', plain'⟩ := plain source' path' leaf'
    rw [pathsOverlap_iff, components_field source nonempty plain_,
      components_field source' nonempty' plain'] at overlap
    cases source with
    | config =>
      cases source' with
      | config => exact ⟨rfl, overlap⟩
      | artifacts =>
        exfalso
        obtain ⟨key, rest, rfl⟩ := List.exists_cons_of_ne_nil nonempty
        rcases overlap with first | second
        · obtain ⟨rfl, -⟩ := List.cons_prefix_cons.mp first
          exact reserved _ rest leaf rfl
        · obtain ⟨rfl, -⟩ := List.cons_prefix_cons.mp second
          exact reserved _ rest leaf rfl
    | artifacts =>
      cases source' with
      | config =>
        exfalso
        obtain ⟨key, rest, rfl⟩ := List.exists_cons_of_ne_nil nonempty'
        rcases overlap with first | second
        · obtain ⟨rfl, -⟩ := List.cons_prefix_cons.mp first
          exact reserved _ rest leaf' rfl
        · obtain ⟨rfl, -⟩ := List.cons_prefix_cons.mp second
          exact reserved _ rest leaf' rfl
      | artifacts =>
        refine ⟨rfl, ?_⟩
        rcases overlap with first | second
        · exact Or.inl (List.cons_prefix_cons.mp first).2
        · exact Or.inr (List.cons_prefix_cons.mp second).2

end

section

def bareSide {α : Type} (config : Mapping Text α) (distinct : config.Distinct) : Side α where
  config := config
  artifacts := .empty
  configDistinct := distinct
  artifactsDistinct := trivial

def withDecay : Mapping Text (Option Nat) :=
  .nested (text "optimizer") (.leaf (text "lr") (some 1) (.leaf (text "decay_steps") none .empty))
    (.nested (text "staging") .empty .empty)

def withoutDecay : Mapping Text (Option Nat) :=
  .nested (text "optimizer") (.leaf (text "lr") (some 1) .empty) .empty

def narrowModel : Mapping Text (Option Nat) :=
  .nested (text "model") (.leaf (text "hidden_dim") (some 16) .empty)
    (.leaf (text "seed") (some 0) .empty)

def wideModel : Mapping Text (Option Nat) :=
  .nested (text "model") (.leaf (text "hidden_dim") (some 32) .empty)
    (.leaf (text "seed") (some 0) .empty)

end

end SparseLab.Experiments
