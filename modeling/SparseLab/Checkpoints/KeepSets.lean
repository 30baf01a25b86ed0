import SparseLab.Checkpoints.Retention
import SparseLab.Library.Outcomes

/-! What `plan` selects depends only on what it selected before. -/

namespace SparseLab.Checkpoints

open Library

variable (inherited : List Row) (policy : CheckpointRetention)

def Selects (records : List CheckpointRecord) (record : CheckpointRecord) : Role → Prop
  | .latest => records.getLast? = some record
  | .previous => records.dropLast.getLast? = some record
  | .best => best records = some record
  | .milestone name => ∃ milestone ∈ ownMilestones inherited policy,
      milestone.name = name ∧ firstReached milestone records = some record
  | .terminal => terminal policy records = some record

theorem mem_chosen {records : List CheckpointRecord} {role : Role} {record : CheckpointRecord} :
    (role, record) ∈ chosen inherited policy records ↔
      Selects inherited policy records record role := by
  cases role with
  | milestone name =>
    simp only [chosen, Selects, List.mem_append, List.mem_filterMap, Option.map_eq_some_iff,
      Option.mem_toList, Prod.mk.injEq, reduceCtorEq, false_and, and_false, exists_false,
      or_false, false_or, Role.milestone.injEq]
    constructor
    · rintro ⟨milestone, own, first, found, named, rfl⟩
      exact ⟨milestone, own, named, found⟩
    · rintro ⟨milestone, own, named, found⟩
      exact ⟨milestone, own, record, found, named, rfl⟩
  | _ => simp [chosen, Selects]

def Distinct (records : List CheckpointRecord) : Prop :=
  (records.map (·.generationId)).Nodup

variable {inherited policy}

namespace Distinct

variable {records shorter : List CheckpointRecord}

section

variable (distinct : Distinct records)

include distinct

theorem nodup : records.Nodup :=
  List.Nodup.of_map _ distinct

theorem eq {first second : CheckpointRecord} (member : first ∈ records) (member' : second ∈ records)
    (same : first.generationId = second.generationId) : first = second :=
  List.inj_on_of_nodup_map distinct member member' same

theorem path_eq {first second : CheckpointRecord}
    (member : first ∈ records) (member' : second ∈ records)
    (same : first.relativePath = second.relativePath) : first = second :=
  distinct.eq member member' (congrArg Prod.snd same)

theorem sublist (sublist : shorter.Sublist records) :
    Distinct shorter :=
  List.Nodup.sublist (sublist.map _) distinct

theorem rank_injective :
    ∀ first ∈ records.filter (·.validationLoss.isSome),
      ∀ second ∈ records.filter (·.validationLoss.isSome),
        first.rank = second.rank → first = second := by
  intro first member second member' same
  refine distinct.eq (List.mem_of_mem_filter member) (List.mem_of_mem_filter member') ?_
  exact congrArg (fun place => (ofLex place).2) same

end

end Distinct

section

variable {shorter longer : List CheckpointRecord} (sublist : shorter.Sublist longer)
  (distinct : Distinct longer)
  (kept : ∀ role record, Selects inherited policy longer record role → record ∈ shorter)

include sublist distinct kept

theorem getLast?_kept : shorter.getLast? = longer.getLast? := by
  cases last : longer.getLast? with
  | none =>
    rw [List.getLast?_eq_none_iff] at last ⊢
    rw [last] at sublist
    exact List.sublist_nil.mp sublist
  | some final => exact getLast?_sublist sublist distinct.nodup last (kept .latest final last)

theorem dropLast_kept : shorter.dropLast.getLast? = longer.dropLast.getLast? := by
  cases before : longer.dropLast.getLast? with
  | none =>
    have short : longer.length - 1 = 0 := by
      rw [← List.length_dropLast, List.getLast?_eq_none_iff.mp before, List.length_nil]
    have shorterStill := sublist.length_le
    rw [List.getLast?_eq_none_iff, ← List.length_eq_zero_iff, List.length_dropLast]
    omega
  | some previous =>
    cases last : longer.getLast? with
    | none =>
      rw [List.getLast?_eq_none_iff] at last
      simp [last] at before
    | some final =>
      exact dropLast_getLast?_sublist sublist distinct.nodup last before
        (kept .latest final last) (kept .previous previous before)

theorem best_kept : best shorter = best longer := by
  cases found : best longer with
  | none =>
    simp only [best, List.argmin_eq_none] at found ⊢
    have fewer := sublist.filter (fun record => record.validationLoss.isSome)
    rw [found] at fewer
    exact List.sublist_nil.mp fewer
  | some record =>
    have evaluated : record.validationLoss.isSome = true :=
      (List.mem_filter.mp (List.argmin_mem found)).2
    exact argmin_sublist (sublist.filter _) distinct.rank_injective found
      (List.mem_filter.mpr ⟨kept .best record found, evaluated⟩)

theorem terminal_kept : terminal policy shorter = terminal policy longer := by
  cases found : terminal policy longer with
  | none => exact find?_none_sublist sublist found
  | some record =>
    exact find?_sublist sublist distinct.nodup found (kept .terminal record found)

theorem firstReached_kept {milestone : Milestone} (own : milestone ∈ ownMilestones inherited policy) :
    firstReached milestone shorter = firstReached milestone longer := by
  cases found : firstReached milestone longer with
  | none => exact find?_none_sublist sublist found
  | some record =>
    exact find?_sublist sublist distinct.nodup found
      (kept (.milestone milestone.name) record ⟨milestone, own, rfl, found⟩)

theorem chosen_kept : chosen inherited policy shorter = chosen inherited policy longer := by
  unfold chosen
  rw [getLast?_kept sublist distinct kept, dropLast_kept sublist distinct kept,
    best_kept sublist distinct kept, terminal_kept sublist distinct kept]
  congr 2
  refine List.filterMap_congr ?_
  intro milestone own
  rw [firstReached_kept sublist distinct kept own]

end

theorem find?_concat {records : List CheckpointRecord} {new record : CheckpointRecord}
    {test : CheckpointRecord → Bool} (found : (records ++ [new]).find? test = some record) :
    records.find? test = some record ∨ records.find? test = none ∧ record = new := by
  rw [List.find?_append] at found
  cases before : records.find? test with
  | none =>
    rw [before, Option.none_or] at found
    exact .inr ⟨rfl, List.mem_singleton.mp (List.mem_of_find?_eq_some found)⟩
  | some earlier =>
    rw [before] at found
    exact .inl found

theorem Selects.append {records : List CheckpointRecord} {new record : CheckpointRecord}
    {role : Role} (selects : Selects inherited policy (records ++ [new]) record role) :
    record = new ∨ ∃ earlier, Selects inherited policy records record earlier := by
  cases role with
  | latest =>
    simp only [Selects, List.getLast?_concat, Option.some.injEq] at selects
    exact .inl selects.symm
  | previous =>
    simp only [Selects, List.dropLast_concat] at selects
    exact .inr ⟨.latest, selects⟩
  | best =>
    simp only [Selects, best, List.filter_append] at selects
    by_cases evaluated : new.validationLoss.isSome = true
    · rw [List.filter_cons_of_pos (by simpa using evaluated), List.filter_nil,
        List.argmin_concat] at selects
      cases before : (records.filter (·.validationLoss.isSome)).argmin CheckpointRecord.rank with
      | none =>
        rw [before] at selects
        exact .inl (Option.some.inj selects).symm
      | some earlier =>
        rw [before] at selects
        simp only at selects
        split at selects
        · exact .inl (Option.some.inj selects).symm
        · exact .inr ⟨.best, before.trans selects⟩
    · rw [List.filter_cons_of_neg (by simpa using evaluated), List.filter_nil,
        List.append_nil] at selects
      exact .inr ⟨.best, selects⟩
  | milestone name =>
    obtain ⟨milestone, own, named, found⟩ := selects
    obtain before | ⟨_, after⟩ := find?_concat found
    · exact .inr ⟨.milestone name, milestone, own, named, before⟩
    · exact .inl after
  | terminal =>
    obtain before | ⟨_, after⟩ := find?_concat selects
    · exact .inr ⟨.terminal, before⟩
    · exact .inl after

theorem Selects.mem {records : List CheckpointRecord} {record : CheckpointRecord} {role : Role}
    (selects : Selects inherited policy records record role) : record ∈ records := by
  cases role with
  | latest => exact List.mem_of_getLast? selects
  | previous => exact (List.dropLast_sublist _).subset (List.mem_of_getLast? selects)
  | best => exact List.mem_of_mem_filter (List.argmin_mem selects)
  | milestone name =>
    obtain ⟨_, _, _, found⟩ := selects
    exact List.mem_of_find?_eq_some found
  | terminal => exact List.mem_of_find?_eq_some selects

theorem mem_rolesOf {records : List CheckpointRecord} {path : RelativePath} {role : Role} :
    role ∈ rolesOf inherited policy records path ↔
      ∃ record, Selects inherited policy records record role ∧ record.relativePath = path := by
  simp only [rolesOf, List.mem_map, List.mem_filter, decide_eq_true_eq]
  constructor
  · rintro ⟨⟨_, record⟩, ⟨member, same⟩, rfl⟩
    exact ⟨record, (mem_chosen inherited policy).mp member, same⟩
  · rintro ⟨record, selects, same⟩
    exact ⟨(role, record), ⟨(mem_chosen inherited policy).mpr selects, same⟩, rfl⟩

theorem mem_keepSet {records : List CheckpointRecord} (distinct : Distinct records)
    {record : CheckpointRecord} :
    record ∈ keepSet inherited policy records ↔
      ∃ role, Selects inherited policy records record role := by
  simp only [keepSet, List.mem_filter, decide_eq_true_eq, ne_eq, List.eq_nil_iff_forall_not_mem,
    mem_rolesOf, not_forall, not_not]
  constructor
  · rintro ⟨member, role, other, selects, same⟩
    rw [← distinct.path_eq selects.mem member same]
    exact ⟨role, selects⟩
  · rintro ⟨role, selects⟩
    exact ⟨selects.mem, role, record, selects, rfl⟩

theorem chosen_length (records : List CheckpointRecord) :
    (chosen inherited policy records).length ≤ (ownMilestones inherited policy).length + 4 := by
  have short : ∀ (role : Role) (found : Option CheckpointRecord),
      (found.map (role, ·)).toList.length ≤ 1 := by
    intro role found
    cases found <;> simp
  have latest := short .latest records.getLast?
  have previous := short .previous records.dropLast.getLast?
  have best := short .best (best records)
  have terminal := short .terminal (terminal policy records)
  have milestones := List.length_filterMap_le (fun milestone : Milestone =>
    (firstReached milestone records).map (Role.milestone milestone.name, ·))
    (ownMilestones inherited policy)
  simp only [chosen, List.length_append]
  omega

theorem keepSet_length {records : List CheckpointRecord} (distinct : Distinct records) :
    (keepSet inherited policy records).length ≤ (ownMilestones inherited policy).length + 4 := by
  refine Nat.le_trans ?_ (chosen_length records)
  have inside : keepSet inherited policy records ⊆
      (chosen inherited policy records).map Prod.snd := by
    intro record member
    obtain ⟨role, selects⟩ := (mem_keepSet distinct).mp member
    exact List.mem_map.mpr ⟨(role, record), (mem_chosen inherited policy).mpr selects, rfl⟩
  have nodup : (keepSet inherited policy records).Nodup := distinct.nodup.filter _
  simpa using (List.subperm_of_subset nodup inside).length_le

/-- The rows that `inheritedMilestones` binds for the milestones it went through. -/
structure Binds (milestones : List Milestone) (rows : List Row) : Prop where
  count : rows.length ≤ milestones.length
  roles : ∀ role, (∃ row ∈ rows, role ∈ row.roles) ↔
    ∃ milestone ∈ milestones, role = .milestone milestone.name
  foreign : ∀ row ∈ rows, row.isLocal = false
  apart : rows.Pairwise fun first second =>
    first.verifiedLocation ≠ second.verifiedLocation ∧ ∀ role ∈ first.roles, role ∉ second.roles

theorem Binds.select {milestones : List Milestone} {rows : List Row}
    (binds : Binds milestones rows) (row : Row) (milestone : Milestone)
    (fresh : ∀ earlier ∈ milestones, earlier.name ≠ milestone.name) :
    Binds (milestones ++ [milestone]) (selectRow rows row (.milestone milestone.name)) := by
  have unused : ∀ target ∈ rows, .milestone milestone.name ∉ target.roles := by
    intro target member used
    obtain ⟨earlier, before, same⟩ := (binds.roles _).mp ⟨target, member, used⟩
    exact fresh earlier before (Role.milestone.inj same).symm
  unfold selectRow
  split
  · rename_i present
    simp only [List.any_eq_true, decide_eq_true_eq] at present
    obtain ⟨target, member, located⟩ := present
    refine ⟨?_, ?_, ?_, ?_⟩
    · have fewer := binds.count
      simp only [List.length_map, List.length_append, List.length_singleton]
      omega
    · intro role
      have before := binds.roles role
      simp only [List.mem_map, List.mem_append, List.mem_singleton, or_and_right, exists_or,
        exists_eq_left, ← before]
      constructor
      · rintro ⟨_, ⟨other, inside, rfl⟩, used⟩
        split at used
        · simp only [List.mem_append, List.mem_singleton] at used
          exact used.imp (fun used => ⟨other, inside, used⟩) id
        · exact .inl ⟨other, inside, used⟩
      · rintro (⟨other, inside, used⟩ | rfl)
        · refine ⟨_, ⟨other, inside, rfl⟩, ?_⟩
          split
          · exact List.mem_append_left _ used
          · exact used
        · refine ⟨_, ⟨target, member, rfl⟩, ?_⟩
          rw [if_pos located]
          exact List.mem_append_right _ (List.mem_singleton.mpr rfl)
    · intro updated inside
      obtain ⟨other, before, rfl⟩ := List.mem_map.mp inside
      split <;> exact binds.foreign other before
    · rw [List.pairwise_map]
      refine binds.apart.imp_of_mem ?_
      rintro first second inFirst inSecond ⟨different, disjoint⟩
      constructor
      · split <;> split <;> exact different
      · intro role used
        split at used <;> split
        · rename_i here there
          exact absurd (here.trans there.symm) different
        · simp only [List.mem_append, List.mem_singleton] at used
          obtain used | rfl := used
          · exact disjoint role used
          · exact unused second inSecond
        · simp only [List.mem_append, List.mem_singleton, not_or]
          refine ⟨disjoint role used, ?_⟩
          rintro rfl
          exact unused first inFirst used
        · exact disjoint role used
  · rename_i other
    simp only [List.any_eq_true, decide_eq_true_eq, not_exists, not_and] at other
    refine ⟨?_, ?_, ?_, ?_⟩
    · simpa using binds.count
    · intro role
      simp only [List.mem_append, List.mem_singleton, or_and_right, exists_or, exists_eq_left,
        binds.roles role]
    · intro target member
      obtain before | same := List.mem_append.mp member
      · exact binds.foreign target before
      · rw [List.mem_singleton.mp same]
    · rw [List.pairwise_append]
      refine ⟨binds.apart, by simp, ?_⟩
      intro target member new same
      rw [List.mem_singleton] at same
      subst same
      refine ⟨other target member, ?_⟩
      intro role used
      simp only [List.mem_singleton]
      rintro rfl
      exact unused target member used

theorem Binds.inherit {evidence : Report} {step tokens : Nat} {todo done : List Milestone}
    {rows bound : List Row} (binds : Binds done rows)
    (names : ((done ++ todo).map (·.name)).Nodup)
    (selected : todo.foldlM (inheritOne evidence step tokens) rows = .ok bound) :
    Binds (done ++ todo) bound := by
  induction todo generalizing done rows with
  | nil =>
    cases selected
    simpa using binds
  | cons milestone todo ih =>
    rw [List.foldlM_cons] at selected
    obtain ⟨rows', one, rest⟩ := bind_eq_ok selected
    unfold inheritOne at one
    split at one
    · cases one
    · split at one
      · cases one
        have fresh : ∀ earlier ∈ done, earlier.name ≠ milestone.name := by
          intro earlier member same
          rw [List.map_append, List.nodup_append] at names
          exact names.2.2 _ (List.mem_map_of_mem member) _ (List.mem_map_of_mem List.mem_cons_self)
            same
        have next := ih (binds.select _ milestone fresh) (by simpa using names) rest
        simpa using next
      · cases one

theorem inheritedMilestones_binds {report : Option Report} {step tokens : Nat} {bound : List Row}
    (selected : inheritedMilestones report policy step tokens = .ok bound) :
    Binds (policy.milestones.filter (·.Reached step tokens)) bound := by
  have nothing : Binds [] [] := ⟨Nat.le_refl _, by simp, by simp, .nil⟩
  unfold inheritedMilestones at selected
  dsimp only at selected
  split at selected
  · rename_i unreached
    cases selected
    rwa [unreached]
  · split at selected
    · cases selected
    · have names : ((policy.milestones.filter fun milestone : Milestone =>
          decide (milestone.Reached step tokens)).map (·.name)).Nodup :=
        policy.names.sublist (List.filter_sublist.map _)
      simpa using nothing.inherit (by simpa using names) selected

theorem Binds.own_length {reached : List Milestone} (binds : Binds reached inherited)
    (sublist : reached.Sublist policy.milestones) :
    inherited.length + (ownMilestones inherited policy).length ≤ policy.milestones.length := by
  have taken : reached.Sublist (policy.milestones.filter fun milestone =>
      .milestone milestone.name ∈ inheritedRoles inherited) := by
    have kept := sublist.filter fun milestone =>
      decide (.milestone milestone.name ∈ inheritedRoles inherited)
    rwa [List.filter_eq_self.mpr] at kept
    intro milestone member
    obtain ⟨row, inside, role⟩ := (binds.roles (.milestone milestone.name)).mpr
      ⟨milestone, member, rfl⟩
    exact decide_eq_true (List.mem_flatMap.mpr ⟨row, inside, role⟩)
  have split := List.length_eq_length_filter_add (l := policy.milestones) fun milestone =>
    decide (.milestone milestone.name ∈ inheritedRoles inherited)
  have fewer := taken.length_le
  have count := binds.count
  have own : (ownMilestones inherited policy).length =
      (policy.milestones.filter fun milestone =>
        !decide (.milestone milestone.name ∈ inheritedRoles inherited)).length := by
    simp [ownMilestones]
  omega

end SparseLab.Checkpoints
