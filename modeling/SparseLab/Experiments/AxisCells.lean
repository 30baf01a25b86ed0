import SparseLab.Experiments.AxisExpansion
import SparseLab.Library.Rearrangements

/-! The cells that accepted axes expand to. -/

namespace SparseLab.Experiments

open Library Library.Mapping

section

variable {α : Type} {config : Mapping Text α} {source : Text} {previous paths : List Text}
  {patch : Patch α}

def Known (config : Mapping Text α) (dotted : Text) : Prop :=
  isDottedPath dotted ∧ (config.fetch (components dotted)).isSome = true

structure Fits (config : Mapping Text α) (paths : List Text) : Prop where
  known : ∀ dotted ∈ paths, Known config dotted
  apart : paths.Pairwise fun first second => ¬ pathsOverlap first second

theorem pathsOverlap_comm {left right : Text} : pathsOverlap left right ↔ pathsOverlap right left := by
  rw [pathsOverlap_iff, pathsOverlap_iff, or_comm]

theorem apart_iff {left right : Text} :
    ¬ pathsOverlap left right ↔ Apart (components left) (components right) := by
  rw [pathsOverlap_iff, not_or, Apart]

theorem validatePath_ok {dotted : Text} :
    validatePath config source dotted = .ok ⟨⟩ ↔ Known config dotted := by
  rw [validatePath, refuseIf_bind_eq_ok, refuseIf_ok, not_not, Known, Option.isNone_iff_eq_none,
    Option.isSome_iff_ne_none]

theorem validatePaths_ok : validatePaths config source previous paths = .ok ⟨⟩ ↔
    Fits config paths ∧ ∀ dotted ∈ paths, ∀ other ∈ previous, ¬ pathsOverlap dotted other := by
  induction paths generalizing previous with
  | nil =>
    refine ⟨fun _ => ⟨⟨by simp, List.Pairwise.nil⟩, by simp⟩, fun _ => rfl⟩
  | cons dotted later ih =>
    constructor
    · intro returned
      obtain ⟨_, known, returned⟩ := bind_eq_ok returned
      obtain ⟨apart, returned⟩ := forM_bind_eq_ok.mp returned
      obtain ⟨fits, others⟩ := ih.mp returned
      refine ⟨⟨?_, ?_⟩, ?_⟩
      · rw [List.forall_mem_cons]
        exact ⟨validatePath_ok.mp known, fits.known⟩
      · refine List.pairwise_cons.mpr ⟨fun path member => ?_, fits.apart⟩
        rw [pathsOverlap_comm]
        exact others path member dotted (List.mem_append_right _ (List.mem_singleton_self _))
      · rw [List.forall_mem_cons]
        refine ⟨fun other member => refuseIf_ok.mp (apart other member), ?_⟩
        intro path member other inside
        exact others path member other (List.mem_append_left _ inside)
    · rintro ⟨fits, others⟩
      obtain ⟨known, knownLater⟩ := List.forall_mem_cons.mp fits.known
      obtain ⟨apart, apartLater⟩ := List.pairwise_cons.mp fits.apart
      obtain ⟨mine, others⟩ := List.forall_mem_cons.mp others
      rw [validatePaths, validatePath_ok.mpr known]
      refine forM_bind_eq_ok.mpr ⟨fun other member => refuseIf_ok.mpr (mine other member), ?_⟩
      refine ih.mpr ⟨⟨knownLater, apartLater⟩, fun path member other inside => ?_⟩
      rcases List.mem_append.mp inside with inside | inside
      · exact others path member other inside
      · rw [List.mem_singleton.mp inside, pathsOverlap_comm]
        exact apart path member

theorem validatePatch_ok :
    validatePatch config source patch = .ok ⟨⟩ ↔ Fits config (patch.map Prod.fst) := by
  rw [validatePatch, validatePaths_ok]
  exact and_iff_left fun _ _ _ none => absurd none List.not_mem_nil

def changesOf (patch : Patch α) : List (List Text × Node Text α) :=
  patch.map fun entry => (components entry.1, entry.2)

theorem components_ne_nil (dotted : Text) : components dotted ≠ [] := List.splitOn_ne_nil _ _

theorem assign_of_known {change : Text × Node Text α}
    (known : (config.fetch (components change.1)).isSome = true) :
    assign config change = .ok (config.amend (components change.1, change.2)) := by
  have whole := List.dropLast_append_getLast (components_ne_nil change.1)
  rw [amend, if_pos known, assign]
  rw [← whole, fetch_append] at known
  cases found : config.fetch (components change.1).dropLast with
  | none =>
    rw [found] at known
    cases known
  | some node =>
    cases node with
    | mapping fields => rfl
    | value value =>
      rw [found] at known
      simp [Node.fetch] at known

theorem foldlM_assign (fits : Fits config (patch.map Prod.fst)) :
    patch.foldlM assign config = .ok ((changesOf patch).foldl amend config) := by
  induction patch generalizing config with
  | nil => rfl
  | cons change later ih =>
    obtain ⟨known, knownLater⟩ := List.forall_mem_cons.mp fits.known
    obtain ⟨apart, apartLater⟩ := List.pairwise_cons.mp fits.apart
    rw [List.foldlM_cons, assign_of_known known.2]
    refine ih ⟨fun dotted member => ?_, apartLater⟩
    obtain ⟨valid, found⟩ := knownLater dotted member
    refine ⟨valid, ?_⟩
    rw [fetch_amend_apart (apart_iff.mp (apart dotted member))]
    exact found

theorem applyPatch_ok (fits : Fits config (patch.map Prod.fst)) :
    applyPatch config source patch = .ok ((changesOf patch).foldl amend config) := by
  rw [applyPatch, validatePatch_ok.mpr fits]
  exact foldlM_assign fits

theorem Fits.perm (fits : Fits config paths) {paths' : List Text} (perm : paths.Perm paths') :
    Fits config paths' :=
  ⟨fun dotted member => fits.known dotted (perm.mem_iff.mpr member),
    perm.pairwise fits.apart fun apart => mt pathsOverlap_comm.mp apart⟩

theorem Fits.pairwise (fits : Fits config (patch.map Prod.fst)) :
    (changesOf patch).Pairwise fun first second => Apart first.1 second.1 := by
  rw [changesOf, List.pairwise_map]
  exact (List.pairwise_map.mp fits.apart).imp fun apart => apart_iff.mp apart

end

section

variable {α : Type} {config : Mapping Text α} {source : Text} {maxRuns : Int}
  {declared next : Declared α} {axes done later : List (Axis α)} {axis : Axis α}

theorem mem_paths {dotted : Text} : dotted ∈ axis.paths ↔
    ∃ choice ∈ axis.choices, ∃ entry ∈ choice.set, entry.1 = dotted := by
  rw [Axis.paths, List.mem_insertionSort, List.mem_dedup, List.mem_flatMap]
  simp only [List.mem_map]

structure Accepted (config : Mapping Text α) (maxRuns : Int) (axes : List (Axis α))
    (declared : Declared α) : Prop where
  names : declared.names = axes.map Axis.name
  options : declared.options = axes.map Axis.choices
  pathsByAxis : declared.pathsByAxis = axes.map fun axis => (axis.name, axis.paths)
  count : declared.count = (axes.map fun axis => axis.choices.length).prod
  bound : (declared.count : Int) ≤ maxRuns
  distinct : declared.names.Nodup
  labels : ∀ axis ∈ axes, (axis.choices.map Choice.label).Nodup
  fits : ∀ axis ∈ axes, ∀ choice ∈ axis.choices, Fits config (choice.set.map Prod.fst)
  apart : axes.Pairwise fun first second => ∀ dotted ∈ first.paths, ∀ path ∈ second.paths,
    ¬ pathsOverlap dotted path

theorem checkChoices_ok {name : Text} {labels : List Text} {choices : List (Choice α)}
    (returned : checkChoices config source name labels choices = .ok ⟨⟩) :
    (choices.map Choice.label).Nodup ∧ (∀ choice ∈ choices, choice.label ∉ labels) ∧
      ∀ choice ∈ choices, Fits config (choice.set.map Prod.fst) := by
  induction choices generalizing labels with
  | nil => exact ⟨List.nodup_nil, by simp, by simp⟩
  | cons choice choices ih =>
    rw [checkChoices] at returned
    obtain ⟨fresh, returned⟩ := refuseIf_bind_eq_ok.mp returned
    obtain ⟨_, valid, returned⟩ := bind_eq_ok returned
    obtain ⟨distinct, others, fits⟩ := ih returned
    refine ⟨?_, ?_, ?_⟩
    · rw [List.map_cons, List.nodup_cons]
      refine ⟨fun member => ?_, distinct⟩
      obtain ⟨other, inside, same⟩ := List.mem_map.mp member
      refine others other inside ?_
      rw [same]
      exact List.mem_append_right _ (List.mem_singleton_self _)
    · rw [List.forall_mem_cons]
      refine ⟨(not_or.mp fresh).2, fun other inside known => ?_⟩
      exact others other inside (List.mem_append_left _ known)
    · rw [List.forall_mem_cons]
      exact ⟨validatePatch_ok.mp valid, fits⟩

theorem checkAcross_ok {name : Text} {paths : List Text} {pathsByAxis : List (Text × List Text)}
    (returned : checkAcross source name paths pathsByAxis = .ok ⟨⟩) :
    ∀ other ∈ pathsByAxis, ∀ dotted ∈ paths, ∀ path ∈ other.2, ¬ pathsOverlap dotted path := by
  intro other member dotted inside path known
  have first := forM_eq_ok.mp returned other member
  have second := forM_eq_ok.mp first dotted inside
  exact refuseIf_ok.mp (forM_eq_ok.mp second path known)

theorem axisOption_accepted (accepted : Accepted config maxRuns done declared)
    (returned : axisOption config source maxRuns declared axis = .ok next) :
    Accepted config maxRuns (done ++ [axis]) next := by
  rw [axisOption] at returned
  obtain ⟨fresh, returned⟩ := refuseIf_bind_eq_ok.mp returned
  obtain ⟨-, returned⟩ := refuseIf_bind_eq_ok.mp returned
  obtain ⟨bound, returned⟩ := refuseIf_bind_eq_ok.mp returned
  obtain ⟨_, choices, returned⟩ := bind_eq_ok returned
  obtain ⟨_, across, returned⟩ := bind_eq_ok returned
  cases returned
  obtain ⟨labels, -, fits⟩ := checkChoices_ok choices
  constructor
  · rw [List.map_append, accepted.names]
    rfl
  · rw [List.map_append, accepted.options]
    rfl
  · rw [List.map_append, accepted.pathsByAxis]
    rfl
  · rw [List.map_append, List.prod_append, accepted.count]
    simp
  · exact not_lt.mp bound
  · refine List.nodup_append.mpr ⟨accepted.distinct, List.nodup_singleton _, ?_⟩
    intro name member other last same
    rw [List.mem_singleton.mp last] at same
    exact (not_or.mp fresh).2 (same ▸ member)
  · intro other member
    rcases List.mem_append.mp member with member | member
    · exact accepted.labels other member
    · rw [List.mem_singleton.mp member]
      exact labels
  · intro other member
    rcases List.mem_append.mp member with member | member
    · exact accepted.fits other member
    · rw [List.mem_singleton.mp member]
      exact fits
  · refine List.pairwise_append.mpr ⟨accepted.apart, List.pairwise_singleton _ _, ?_⟩
    intro first member second last dotted inside path known
    rw [List.mem_singleton.mp last] at known
    rw [pathsOverlap_comm]
    refine checkAcross_ok across (first.name, first.paths) ?_ path known dotted inside
    rw [accepted.pathsByAxis]
    exact List.mem_map.mpr ⟨first, member, rfl⟩

theorem foldlM_accepted (accepted : Accepted config maxRuns done declared)
    (returned : later.foldlM (axisOption config source maxRuns) declared = .ok next) :
    Accepted config maxRuns (done ++ later) next := by
  induction later generalizing done declared with
  | nil =>
    cases returned
    rwa [List.append_nil]
  | cons axis later ih =>
    rw [List.foldlM_cons] at returned
    obtain ⟨middle, first, rest⟩ := bind_eq_ok returned
    have whole := ih (axisOption_accepted accepted first) rest
    rwa [List.append_assoc] at whole

theorem axisOptions_accepted {names : List Text} {options : List (List (Choice α))}
    (returned : axisOptions config source axes maxRuns = .ok (names, options)) :
    ∃ declared, Accepted config maxRuns axes declared ∧ declared.names = names ∧
      declared.options = options := by
  rw [axisOptions] at returned
  obtain ⟨positive, returned⟩ := refuseIf_bind_eq_ok.mp returned
  obtain ⟨declared, loop, returned⟩ := bind_eq_ok returned
  cases returned
  refine ⟨declared, ?_, rfl, rfl⟩
  have start : Accepted config maxRuns [] ⟨[], [], [], 1⟩ :=
    { names := rfl
      options := rfl
      pathsByAxis := rfl
      count := rfl
      bound := by
        change (1 : Int) ≤ maxRuns
        omega
      distinct := List.nodup_nil
      labels := by simp
      fits := by simp
      apart := List.Pairwise.nil }
  exact foldlM_accepted start loop

end

section

variable {α : Type} {config : Mapping Text α} {axes : List (Axis α)} {selected : List (Choice α)}

theorem mem_paths_of_choice {axis : Axis α} {choice : Choice α} {dotted : Text}
    (member : choice ∈ axis.choices) (inside : dotted ∈ choice.set.map Prod.fst) :
    dotted ∈ axis.paths := by
  obtain ⟨entry, found, rfl⟩ := List.mem_map.mp inside
  exact mem_paths.mpr ⟨choice, member, entry, found, rfl⟩

theorem selected_fits
    (chosen : List.Forall₂ (fun choice axis => choice ∈ Axis.choices axis) selected axes)
    (fits : ∀ axis ∈ axes, ∀ choice ∈ axis.choices, Fits config (choice.set.map Prod.fst))
    (apart : axes.Pairwise fun first second => ∀ dotted ∈ first.paths, ∀ path ∈ second.paths,
      ¬ pathsOverlap dotted path) :
    Fits config ((selected.flatMap Choice.set).map Prod.fst) := by
  induction chosen with
  | nil => exact ⟨by simp, List.Pairwise.nil⟩
  | @cons choice axis selected axes member chosen ih =>
    obtain ⟨fit, fits⟩ := List.forall_mem_cons.mp fits
    obtain ⟨first, apart⟩ := List.pairwise_cons.mp apart
    obtain ⟨known, separate⟩ := ih fits apart
    have mine := fit choice member
    rw [List.flatMap_cons, List.map_append]
    constructor
    · intro dotted inside
      rcases List.mem_append.mp inside with inside | inside
      · exact mine.known dotted inside
      · exact known dotted inside
    · refine List.pairwise_append.mpr ⟨mine.apart, separate, ?_⟩
      intro dotted inside path below
      have later : ∃ other ∈ axes, path ∈ other.paths := by
        obtain ⟨entry, found, rfl⟩ := List.mem_map.mp below
        obtain ⟨choice', among, found⟩ := List.mem_flatMap.mp found
        obtain ⟨other, member', chosen'⟩ := forall₂_left chosen among
        exact ⟨other, member', mem_paths_of_choice chosen' (List.mem_map.mpr ⟨entry, found, rfl⟩)⟩
      obtain ⟨other, member', known⟩ := later
      exact first other member' dotted (mem_paths_of_choice member inside) path known

end

section

variable {α γ : Type} {rules : PathValues α} {config : Mapping Text α} {selected : List (Choice α)}

@[simp] theorem cellValue_fst (entry : Text × Node Text α) : (cellValue rules entry).1 = entry.1 := by
  obtain ⟨dotted, node⟩ := entry
  cases node with
  | mapping fields => rfl
  | value value =>
    rw [cellValue]
    by_cases resolved : rules.isText value = true ∧
        (components dotted).getLast?.getD [] ∈ pathKeys
    · simp only [if_pos resolved]
    · simp only [if_neg resolved]

theorem foldl_setEntry {entries patch : Patch α}
    (distinct : ((patch ++ entries).map Prod.fst).Nodup) :
    entries.foldl setEntry patch = patch ++ entries := by
  induction entries generalizing patch with
  | nil => rw [List.foldl_nil, List.append_nil]
  | cons entry entries ih =>
    have fresh : entry.1 ∉ patch.map Prod.fst := by
      intro member
      rw [List.map_append, List.map_cons] at distinct
      exact (List.nodup_append.mp distinct).2.2 _ member _ (List.mem_cons_self ..) rfl
    have step : setEntry patch entry = patch ++ [entry] := by
      rw [setEntry, if_neg fresh]
    rw [List.foldl_cons, step, ih (by simpa using distinct), List.append_assoc]
    rfl

theorem Fits.nodup {paths : List Text} (fits : Fits config paths) : paths.Nodup :=
  fits.apart.imp fun apart same => apart (Or.inl same)

theorem cellPatch_eq (fits : Fits config ((selected.flatMap Choice.set).map Prod.fst)) :
    cellPatch rules selected = (selected.flatMap Choice.set).map (cellValue rules) := by
  rw [cellPatch, foldl_setEntry]
  · rfl
  · rw [List.nil_append, List.map_map]
    exact (List.map_congr_left fun entry _ => cellValue_fst entry) ▸ fits.nodup

theorem cellPatch_paths (fits : Fits config ((selected.flatMap Choice.set).map Prod.fst)) :
    (cellPatch rules selected).map Prod.fst = (selected.flatMap Choice.set).map Prod.fst := by
  rw [cellPatch_eq fits, List.map_map]
  exact List.map_congr_left fun entry _ => cellValue_fst entry

structure CellTree (config : Mapping Text α) (rules : PathValues α) (selected : List (Choice α))
    (tree : Mapping Text α) : Prop where
  patched : ∀ patch, patch.Perm (cellPatch rules selected) →
    applyPatch config (text "config") patch = .ok tree
  outside : ∀ path, (∀ choice ∈ selected, ∀ entry ∈ choice.set, ¬ components entry.1 <+: path) →
    (tree.fetch path).map Node.seen = (config.fetch path).map Node.seen
  aside : ∀ path, (∀ choice ∈ selected, ∀ entry ∈ choice.set, Apart (components entry.1) path) →
    tree.fetch path = config.fetch path

theorem exists_cellTree (fits : Fits config ((selected.flatMap Choice.set).map Prod.fst)) :
    ∃ tree, CellTree config rules selected tree := by
  have whole : Fits config ((cellPatch rules selected).map Prod.fst) := by
    rwa [cellPatch_paths fits]
  have set : ∀ change ∈ changesOf (cellPatch rules selected),
      ∃ choice ∈ selected, ∃ entry ∈ choice.set, components entry.1 = change.1 := by
    intro change member
    obtain ⟨entry, found, rfl⟩ := List.mem_map.mp member
    rw [cellPatch_eq fits] at found
    obtain ⟨original, among, rfl⟩ := List.mem_map.mp found
    obtain ⟨choice, chosen, inside⟩ := List.mem_flatMap.mp among
    exact ⟨choice, chosen, original, inside, by rw [cellValue_fst]⟩
  refine ⟨(changesOf (cellPatch rules selected)).foldl amend config, ?_, ?_, ?_⟩
  · intro patch perm
    have same := perm.map Prod.fst
    rw [applyPatch_ok (whole.perm same.symm)]
    exact congrArg Except.ok (foldl_amend_perm (perm.map _) (whole.perm same.symm).pairwise)
  · intro path outside
    refine seen_foldl_amend fun change member => ?_
    obtain ⟨choice, member, entry, inside, same⟩ := set change member
    rw [← same]
    exact outside choice member entry inside
  · intro path aside
    refine fetch_foldl_amend fun change member => ?_
    obtain ⟨choice, member, entry, inside, same⟩ := set change member
    rw [← same]
    exact aside choice member entry inside

theorem inCell_ok {β : Type} {coordinate : List (Text × Text)} {attempt : Except ExpandFailure β}
    {value : β} (returned : inCell coordinate attempt = .ok value) : attempt = .ok value := by
  unfold inCell at returned
  cases attempt with
  | ok result => exact returned
  | error failure => cases failure <;> cases returned

theorem cellConfig_ok {modelValidate : Mapping Text α → Except String γ}
    {coordinate : List (Text × Text)} {tree : Mapping Text α} {concrete : γ}
    (returned : cellConfig modelValidate coordinate tree = .ok concrete) :
    modelValidate tree = .ok concrete := by
  rw [cellConfig] at returned
  cases validated : modelValidate tree with
  | ok value =>
    rw [validated] at returned
    cases returned
    rfl
  | error message =>
    rw [validated] at returned
    cases returned

theorem expandCell_ok {modelValidate : Mapping Text α → Except String γ} {names : List Text}
    {cell : γ × List (Text × Text)}
    (returned : expandCell rules config modelValidate names selected = .ok cell) :
    cell.2 = coordinate names selected ∧
      ∃ tree, applyPatch config (text "config") (cellPatch rules selected) = .ok tree ∧
        modelValidate tree = .ok cell.1 := by
  obtain ⟨tree, applied, returned⟩ := bind_eq_ok returned
  obtain ⟨concrete, validated, returned⟩ := bind_eq_ok returned
  cases returned
  exact ⟨rfl, tree, inCell_ok applied, cellConfig_ok validated⟩

theorem nodup_coordinates {names : List Text} {axes : List (Axis α)}
    (length : names.length = axes.length)
    (labels : ∀ axis ∈ axes, (axis.choices.map Choice.label).Nodup) :
    ((product (axes.map Axis.choices)).map (coordinate names)).Nodup := by
  have split : (product (axes.map Axis.choices)).map (coordinate names) =
      (product ((axes.map Axis.choices).map (List.map Choice.label))).map (names.zip ·) := by
    rw [← map_product, List.map_map]
    rfl
  rw [split]
  refine List.Nodup.map_on ?_ (nodup_product ?_)
  · intro first member second member' same
    have lengths : ∀ labels ∈ product ((axes.map Axis.choices).map (List.map Choice.label)),
        labels.length = names.length := by
      intro labels member
      rw [(mem_product.mp member).length_eq, List.length_map, List.length_map, length]
    have back : ∀ labels : List Text, labels.length = names.length →
        (names.zip labels).map Prod.snd = labels := by
      intro labels length
      exact List.map_snd_zip (by omega)
    rw [← back first (lengths first member), ← back second (lengths second member'), same]
  · intro choices member
    rw [List.map_map] at member
    obtain ⟨axis, inside, rfl⟩ := List.mem_map.mp member
    exact labels axis inside

end

/-- What accepted axes expand to: patches that can be applied in any order, one cell for each
element of the product in the order of nested loops, and the base outside of what a cell sets. -/
theorem expandAxes_cells {α γ : Type} (rules : PathValues α) (project : γ → Mapping Text α)
    (modelValidate : Mapping Text α → Except String γ) (base : γ) (axes : List (Axis α))
    (maxRuns : Int) {names : List Text} {options : List (List (Choice α))}
    (accepted : axisOptions (project base) (text "plan") axes maxRuns = .ok (names, options)) :
    (names = axes.map Axis.name ∧ options = axes.map Axis.choices) ∧
    (∀ axis ∈ axes, ∀ choice ∈ axis.choices, choice.set.Pairwise fun first second =>
      Apart (components first.1) (components second.1)) ∧
    (axes.Pairwise fun first second => ∀ choice ∈ first.choices, ∀ other ∈ second.choices,
      ∀ entry ∈ choice.set, ∀ entry' ∈ other.set, Apart (components entry.1) (components entry'.1)) ∧
    (∀ selected ∈ product options, ∃ tree, CellTree (project base) rules selected tree) ∧
    ∀ cells, expandAxes rules project modelValidate base axes maxRuns = .ok cells →
      cells.map Prod.snd = (product options).map (coordinate names) ∧
      (cells.map Prod.snd).Nodup ∧ (cells.length : Int) ≤ maxRuns ∧
      if axes = [] then cells = [(base, [])]
      else List.Forall₂ (fun cell selected => ∃ tree, CellTree (project base) rules selected tree ∧
        modelValidate tree = .ok cell.1) cells (product options) := by
  obtain ⟨declared, checks, rfl, rfl⟩ := axisOptions_accepted accepted
  have trees : ∀ selected ∈ product declared.options,
      ∃ tree, CellTree (project base) rules selected tree := by
    intro selected member
    rw [checks.options] at member
    have chosen := List.forall₂_map_right_iff.mp (mem_product.mp member)
    exact exists_cellTree (selected_fits chosen checks.fits checks.apart)
  refine ⟨⟨checks.names, checks.options⟩, ?_, ?_, trees, ?_⟩
  · intro axis member choice inside
    exact (List.pairwise_map.mp (checks.fits axis member choice inside).apart).imp apart_iff.mp
  · refine checks.apart.imp fun apart choice member other member' entry inside entry' inside' => ?_
    exact apart_iff.mp (apart _ (mem_paths.mpr ⟨choice, member, entry, inside, rfl⟩) _
      (mem_paths.mpr ⟨other, member', entry', inside', rfl⟩))
  · intro cells returned
    rw [expandAxes, accepted] at returned
    change (if declared.options = [] then _ else _) = _ at returned
    have length : (product declared.options).length = declared.count := by
      rw [length_product, checks.options, checks.count, List.map_map]
      rfl
    have distinct : ((product declared.options).map (coordinate declared.names)).Nodup := by
      rw [checks.options]
      exact nodup_coordinates (by rw [checks.names, List.length_map]) checks.labels
    by_cases none : axes = []
    · subst none
      have options : declared.options = [] := checks.options
      rw [if_pos options] at returned
      cases returned
      have bound := checks.bound
      rw [checks.count] at bound
      have single : [([] : List (Text × Text))] =
          (product declared.options).map (coordinate declared.names) := by
        rw [options]
        change _ = [declared.names.zip []]
        rw [List.zip_nil_right]
      exact ⟨single, List.nodup_singleton _, bound, by rw [if_pos rfl]⟩
    · have some : declared.options ≠ [] := by
        rw [checks.options]
        exact mt List.map_eq_nil_iff.mp none
      rw [if_neg some] at returned
      have each := mapM_eq_ok.mp returned
      have coordinates : cells.map Prod.snd =
          (product declared.options).map (coordinate declared.names) := by
        rw [← List.forall₂_eq_eq_eq, List.forall₂_map_left_iff, List.forall₂_map_right_iff]
        exact each.flip.imp fun cell selected returned => (expandCell_ok returned).1
      refine ⟨coordinates, coordinates ▸ distinct, ?_, ?_⟩
      · rw [← each.length_eq, length]
        exact checks.bound
      · rw [if_neg none]
        have known : ∀ selected ∈ product declared.options, selected ∈ product declared.options :=
          fun _ member => member
        refine List.forall₂_iff_zip.mpr ⟨each.length_eq.symm, fun {cell selected} member => ?_⟩
        have returned := (List.forall₂_iff_zip.mp each.flip).2 member
        obtain ⟨-, tree, applied, validated⟩ := expandCell_ok returned
        obtain ⟨tree', cell_tree⟩ := trees selected (List.of_mem_zip member).2
        have same := cell_tree.patched _ (List.Perm.refl _)
        rw [applied] at same
        cases same
        exact ⟨tree, cell_tree, validated⟩

section

def smallConfig : Mapping Text Nat :=
  .nested (text "model") (.leaf (text "hidden_dim") 16 (.leaf (text "layers") 2 .empty))
    (.leaf (text "seed") 0 .empty)

def widthAxis : Axis Nat where
  name := text "width"
  choices :=
    [⟨text "narrow", [(text "model.hidden_dim", .value 8)]⟩,
      ⟨text "wide", [(text "model.hidden_dim", .value 32), (text "model.layers", .value 4)]⟩]

def seedAxis : Axis Nat where
  name := text "seed"
  choices := [⟨text "first", [(text "seed", .value 1)]⟩, ⟨text "second", [(text "seed", .value 2)]⟩]

def noPathValues : PathValues Nat where
  isText _ := false
  resolve value := value

theorem expandAxes_cells_of_four : ∃ cells, expandAxes noPathValues id .ok smallConfig
    [widthAxis, seedAxis] 4 = .ok cells ∧ cells.map Prod.snd =
      [[(text "width", text "narrow"), (text "seed", text "first")],
        [(text "width", text "narrow"), (text "seed", text "second")],
        [(text "width", text "wide"), (text "seed", text "first")],
        [(text "width", text "wide"), (text "seed", text "second")]] ∧
    (cells.map Prod.snd).Nodup ∧ (cells.length : Int) ≤ 4 := by
  have accepted : axisOptions (id smallConfig) (text "plan") [widthAxis, seedAxis] 4 =
      .ok ([text "width", text "seed"], [widthAxis.choices, seedAxis.choices]) := by
    rfl
  have coordinates : (expandAxes noPathValues id .ok smallConfig [widthAxis, seedAxis] 4).toOption.map
      (List.map Prod.snd) =
      some [[(text "width", text "narrow"), (text "seed", text "first")],
        [(text "width", text "narrow"), (text "seed", text "second")],
        [(text "width", text "wide"), (text "seed", text "first")],
        [(text "width", text "wide"), (text "seed", text "second")]] := by
    decide +kernel
  cases returned : expandAxes noPathValues id .ok smallConfig [widthAxis, seedAxis] 4 with
  | error failure =>
    rw [returned] at coordinates
    cases coordinates
  | ok cells =>
    rw [returned] at coordinates
    obtain ⟨-, -, -, -, each⟩ := expandAxes_cells noPathValues id .ok smallConfig
      [widthAxis, seedAxis] 4 accepted
    obtain ⟨-, distinct, bound, -⟩ := each cells returned
    exact ⟨cells, rfl, Option.some.inj coordinates, distinct, bound⟩

end

end SparseLab.Experiments
