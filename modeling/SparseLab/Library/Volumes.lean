import Mathlib.Data.List.AList
import Mathlib.Data.List.Induction

/-! A volume of files, the atomic actions on it, and runs that are cut short. -/

namespace SparseLab.Library

abbrev Volume (ρ φ : Type) : Type := AList fun _ : ρ => φ

inductive Action (ρ φ : Type)
  | write (path : ρ) (file : φ)
  | rename (source target : ρ)
  | unlink (path : ρ)

variable {ρ φ : Type}

namespace Action

def paths : Action ρ φ → List ρ
  | write path _ => [path]
  | rename source target => [source, target]
  | unlink path => [path]

def targets : Action ρ φ → List ρ
  | write path _ => [path]
  | rename _ target => [target]
  | unlink _ => []

end Action

variable [DecidableEq ρ]

namespace Volume

def read (volume : Volume ρ φ) (path : ρ) : Option φ :=
  volume.lookup path

def perform (volume : Volume ρ φ) : Action ρ φ → Volume ρ φ
  | .write path file => volume.insert path file
  | .rename source target =>
    match volume.lookup source with
    | none => volume
    | some file => (volume.erase source).insert target file
  | .unlink path => volume.erase path

def performAll (volume : Volume ρ φ) (actions : List (Action ρ φ)) : Volume ρ φ :=
  actions.foldl perform volume

variable (volume : Volume ρ φ)

@[simp] theorem performAll_nil : volume.performAll [] = volume := rfl

@[simp] theorem performAll_cons (action : Action ρ φ) (actions : List (Action ρ φ)) :
    volume.performAll (action :: actions) = (volume.perform action).performAll actions := rfl

theorem performAll_append (first second : List (Action ρ φ)) :
    volume.performAll (first ++ second) = (volume.performAll first).performAll second :=
  List.foldl_append

@[simp] theorem read_write_self (path : ρ) (file : φ) :
    (volume.perform (.write path file)).read path = some file :=
  AList.lookup_insert volume

@[simp] theorem read_unlink_self (path : ρ) : (volume.perform (.unlink path)).read path = none :=
  AList.lookup_erase path volume

theorem read_rename_target {source : ρ} {file : φ} (present : volume.read source = some file)
    (target : ρ) : (volume.perform (.rename source target)).read target = some file := by
  rw [read] at present
  simp only [perform, present]
  exact AList.lookup_insert _

theorem read_rename_source {source target : ρ} (moved : source ≠ target) :
    (volume.perform (.rename source target)).read source = none := by
  simp only [perform, read]
  cases present : volume.lookup source with
  | none => exact present
  | some file =>
    rw [AList.lookup_insert_ne moved]
    exact AList.lookup_erase _ _

theorem read_perform_other {path : ρ} {action : Action ρ φ} (untouched : path ∉ action.paths) :
    (volume.perform action).read path = volume.read path := by
  cases action with
  | write written file =>
    simp only [Action.paths, List.mem_singleton] at untouched
    exact AList.lookup_insert_ne untouched
  | rename source target =>
    simp only [Action.paths, List.mem_cons, List.not_mem_nil, or_false, not_or] at untouched
    simp only [perform, read]
    cases volume.lookup source with
    | none => rfl
    | some file =>
      rw [AList.lookup_insert_ne untouched.2, AList.lookup_erase_ne untouched.1]
  | unlink removed =>
    simp only [Action.paths, List.mem_singleton] at untouched
    exact AList.lookup_erase_ne untouched

theorem present_perform {path : ρ} {action : Action ρ φ}
    (present : (volume.perform action).read path ≠ none) :
    volume.read path ≠ none ∨ path ∈ action.targets := by
  cases action with
  | write written file =>
    by_cases same : path = written
    · exact .inr (by simp [Action.targets, same])
    · rw [read_perform_other volume (by simpa [Action.paths] using same)] at present
      exact .inl present
  | rename source target =>
    by_cases same : path = target
    · exact .inr (by simp [Action.targets, same])
    · by_cases moved : path = source
      · subst moved
        rw [read_rename_source volume same] at present
        exact absurd rfl present
      · rw [read_perform_other volume (by simp [Action.paths, same, moved])] at present
        exact .inl present
  | unlink removed =>
    by_cases same : path = removed
    · subst same
      exact absurd (read_unlink_self volume path) present
    · rw [read_perform_other volume (by simpa [Action.paths] using same)] at present
      exact .inl present

theorem read_performAll_other {path : ρ} {actions : List (Action ρ φ)}
    (untouched : ∀ action ∈ actions, path ∉ action.paths) :
    (volume.performAll actions).read path = volume.read path := by
  induction actions generalizing volume with
  | nil => rfl
  | cons action actions ih =>
    rw [performAll_cons, ih _ fun later member => untouched later (List.mem_cons_of_mem _ member)]
    exact read_perform_other volume (untouched action List.mem_cons_self)

theorem present_performAll {path : ρ} {actions : List (Action ρ φ)}
    (present : (volume.performAll actions).read path ≠ none) :
    volume.read path ≠ none ∨ ∃ action ∈ actions, path ∈ action.targets := by
  induction actions generalizing volume with
  | nil => exact .inl present
  | cons action actions ih =>
    rcases ih _ present with earlier | ⟨later, member, target⟩
    · rcases present_perform volume earlier with before | target
      · exact .inl before
      · exact .inr ⟨action, List.mem_cons_self, target⟩
    · exact .inr ⟨later, List.mem_cons_of_mem _ member, target⟩

theorem cut_invariant {invariant : Volume ρ φ → Prop} {actions : List (Action ρ φ)}
    (preserved : ∀ action ∈ actions, ∀ volume, invariant volume → invariant (volume.perform action))
    (holds : invariant volume) (cut : Nat) : invariant (volume.performAll (actions.take cut)) := by
  induction actions generalizing volume cut with
  | nil => simpa using holds
  | cons action actions ih =>
    cases cut with
    | zero => exact holds
    | succ cut =>
      exact ih _ (fun later member => preserved later (List.mem_cons_of_mem _ member))
        (preserved action List.mem_cons_self volume holds) cut

theorem cut_append (first second : List (Action ρ φ)) (cut : Nat) :
    volume.performAll ((first ++ second).take cut) = volume.performAll (first.take cut) ∨
      ∃ rest, volume.performAll ((first ++ second).take cut) =
        (volume.performAll first).performAll (second.take rest) := by
  rw [List.take_append]
  by_cases inside : cut ≤ first.length
  · refine .inl ?_
    rw [Nat.sub_eq_zero_of_le inside, List.take_zero, List.append_nil]
  · refine .inr ⟨cut - first.length, ?_⟩
    rw [List.take_of_length_le (by omega), performAll_append]

omit [DecidableEq ρ] in
theorem targets_subset_paths {path : ρ} {action : Action ρ φ} (target : path ∈ action.targets) :
    path ∈ action.paths := by
  cases action <;> simp_all [Action.targets, Action.paths]

theorem read_unlinkAll {path : ρ} {paths : List ρ}
    (gone : path ∈ paths ∨ volume.read path = none) :
    (volume.performAll (paths.map fun path => .unlink path)).read path = none := by
  induction paths generalizing volume with
  | nil => exact gone.resolve_left List.not_mem_nil
  | cons first rest ih =>
    rw [List.map_cons, performAll_cons]
    apply ih
    by_cases same : path = first
    · subst same
      exact .inr (read_unlink_self volume path)
    · rcases gone with member | absent
      · exact .inl ((List.mem_cons.mp member).resolve_left same)
      · refine .inr ?_
        rw [read_perform_other volume (by simpa [Action.paths] using same)]
        exact absent

theorem read_unlinkAll_or (path : ρ) (paths : List ρ) :
    (volume.performAll (paths.map fun path => .unlink path)).read path = none ∨
      (volume.performAll (paths.map fun path => .unlink path)).read path = volume.read path := by
  by_cases member : path ∈ paths
  · exact .inl (read_unlinkAll volume (.inl member))
  · refine .inr (read_performAll_other volume ?_)
    intro action inside touched
    obtain ⟨removed, found, rfl⟩ := List.mem_map.mp inside
    exact member (List.mem_singleton.mp touched ▸ found)

theorem read_writeAll {entries : List (ρ × φ)}
    (agree : ∀ first ∈ entries, ∀ second ∈ entries, first.1 = second.1 → first.2 = second.2)
    {entry : ρ × φ} (member : entry ∈ entries) :
    (volume.performAll (entries.map fun entry => .write entry.1 entry.2)).read entry.1 =
      some entry.2 := by
  induction entries using List.reverseRecOn with
  | nil => cases member
  | append_singleton entries last ih =>
    rw [List.map_append, performAll_append]
    by_cases same : entry.1 = last.1
    · rw [agree entry member last (by simp) same, same]
      exact read_write_self _ _ _
    · have earlier : entry ∈ entries := by
        rcases List.mem_append.mp member with earlier | here
        · exact earlier
        · exact absurd (congrArg Prod.fst (List.mem_singleton.mp here)) same
      rw [List.map_singleton, performAll_cons, performAll_nil,
        read_perform_other _ (by simpa [Action.paths] using same)]
      exact ih (fun first inside second inside' => agree first (List.mem_append_left _ inside)
        second (List.mem_append_left _ inside')) earlier

section

variable {κ : Type}

theorem read_blocks {block : κ → List (Action ρ φ)} {path : κ → ρ} {content : κ → Option φ}
    (leaves : ∀ key (volume : Volume ρ φ),
      (volume.performAll (block key)).read (path key) = content key)
    (apart : ∀ key other, key ≠ other → ∀ action ∈ block other, path key ∉ action.paths)
    {keys : List κ} (distinct : keys.Nodup) {key : κ} (member : key ∈ keys) :
    (volume.performAll (keys.flatMap block)).read (path key) = content key := by
  induction keys generalizing volume with
  | nil => simp at member
  | cons first rest ih =>
    obtain ⟨absent, distinct⟩ := List.nodup_cons.mp distinct
    rw [List.flatMap_cons, performAll_append]
    rcases List.mem_cons.mp member with same | later
    · subst same
      rw [read_performAll_other]
      · exact leaves key volume
      · intro action inside
        obtain ⟨other, otherMember, found⟩ := List.mem_flatMap.mp inside
        have different : key ≠ other := fun same => absent (same ▸ otherMember)
        exact apart key other different action found
    · exact ih _ distinct later

variable {temporary target : κ → ρ}

def publish (temporary target : ρ) (content : φ) : List (Action ρ φ) :=
  [.write temporary content, .rename temporary target]

def publishAll (temporary target : κ → ρ) (content : κ → φ) (keys : List κ) :
    List (Action ρ φ) :=
  keys.flatMap fun key => publish (temporary key) (target key) (content key)

omit [DecidableEq ρ] in
theorem paths_publish {temporary target : ρ} {content : φ} {action : Action ρ φ} {path : ρ}
    (member : action ∈ publish temporary target content) (touched : path ∈ action.paths) :
    path = temporary ∨ path = target := by
  rcases List.mem_cons.mp member with written | renamed
  · subst written
    exact .inl (List.mem_singleton.mp touched)
  · rw [List.mem_singleton.mp renamed] at touched
    simpa [Action.paths] using touched

omit [DecidableEq ρ] in
theorem paths_publishAll {content : κ → φ} {keys : List κ} {action : Action ρ φ} {path : ρ}
    (member : action ∈ publishAll temporary target content keys) (touched : path ∈ action.paths) :
    ∃ key ∈ keys, path = temporary key ∨ path = target key := by
  obtain ⟨key, inside, found⟩ := List.mem_flatMap.mp member
  exact ⟨key, inside, paths_publish found touched⟩

theorem read_publishAll (targets : Function.Injective target)
    (temporaries : Function.Injective temporary) (apart : ∀ key other, temporary key ≠ target other)
    (content : κ → φ) {keys : List κ} (distinct : keys.Nodup) {key : κ} (member : key ∈ keys) :
    (volume.performAll (publishAll temporary target content keys)).read (target key) =
        some (content key) ∧
      (volume.performAll (publishAll temporary target content keys)).read (temporary key) = none := by
  have published : ∀ key (volume : Volume ρ φ),
      (volume.performAll (publish (temporary key) (target key) (content key))).read (target key) =
        some (content key) := by
    intro key volume
    exact read_rename_target _ (read_write_self _ _ _) _
  have moved : ∀ key (volume : Volume ρ φ),
      (volume.performAll (publish (temporary key) (target key) (content key))).read
        (temporary key) = none := by
    intro key volume
    exact read_rename_source _ (apart _ _)
  constructor
  · apply read_blocks volume published _ distinct member
    intro key other different action inside touched
    rcases paths_publish inside touched with same | same
    · exact apart _ _ same.symm
    · exact different (targets same)
  · apply read_blocks volume moved _ distinct member
    intro key other different action inside touched
    rcases paths_publish inside touched with same | same
    · exact different (temporaries same)
    · exact apart _ _ same

variable {source : κ → ρ}

theorem read_renameAll (targets : Function.Injective target) (sources : Function.Injective source)
    (apart : ∀ key other, source key ≠ target other) {content : κ → φ} {keys : List κ}
    (distinct : keys.Nodup) (present : ∀ key ∈ keys, volume.read (source key) = some (content key))
    {key : κ} (member : key ∈ keys) :
    (volume.performAll (keys.map fun key => .rename (source key) (target key))).read (target key) =
      some (content key) := by
  induction keys generalizing volume with
  | nil => simp at member
  | cons first rest ih =>
    obtain ⟨absent, distinct⟩ := List.nodup_cons.mp distinct
    rw [List.map_cons, performAll_cons]
    rcases List.mem_cons.mp member with same | later
    · subst same
      rw [read_performAll_other]
      · exact read_rename_target _ (present _ List.mem_cons_self) _
      · intro action inside touched
        obtain ⟨other, otherMember, rfl⟩ := List.mem_map.mp inside
        simp only [Action.paths, List.mem_cons, List.not_mem_nil, or_false] at touched
        rcases touched with same | same
        · exact apart _ _ same.symm
        · exact absent (targets same ▸ otherMember)
    · refine ih _ distinct (fun other otherMember => ?_) later
      rw [read_perform_other]
      · exact present other (List.mem_cons_of_mem _ otherMember)
      · simp only [Action.paths, List.mem_cons, List.not_mem_nil, or_false, not_or]
        exact ⟨fun same => absent (sources same ▸ otherMember), apart _ _⟩

end

end Volume

end SparseLab.Library
