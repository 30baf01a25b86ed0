import Mathlib.Data.List.Sort

/-! Stable sorting by a key, and the merge of several sorted lists. -/

namespace SparseLab.Library

variable {α κ : Type*} [LinearOrder κ] (key : α → κ)

structure StableSort (values sorted : List α) : Prop where
  perm : sorted.Perm values
  ordered : sorted.Pairwise fun first second => key first ≤ key second
  stable : ∀ wanted, (sorted.filter fun value => key value = wanted) =
    values.filter fun value => key value = wanted

section

/-- `list.sort` -/
def sortedBy (values : List α) : List α :=
  values.insertionSort fun first second => key first ≤ key second

variable {key}

theorem filter_orderedInsert (value : α) (values : List α) (wanted : κ) :
    ((values.orderedInsert (fun first second => key first ≤ key second) value).filter
      fun other => key other = wanted) =
      (value :: values).filter fun other => key other = wanted := by
  induction values with
  | nil => rfl
  | cons other values ih =>
    by_cases before : key value ≤ key other
    · rw [List.orderedInsert, if_pos before]
    · have apart : ¬ (key value = wanted ∧ key other = wanted) := by
        rintro ⟨rfl, same⟩
        exact before same.ge
      rw [List.orderedInsert, if_neg before, List.filter_cons, ih]
      by_cases here : key value = wanted
      · have there : key other ≠ wanted := fun same => apart ⟨here, same⟩
        simp [here, there]
      · simp [here, List.filter_cons]

theorem sortedBy_stable (values : List α) : StableSort key values (sortedBy key values) := by
  refine ⟨List.perm_insertionSort _ values, ?_, fun wanted => ?_⟩
  · exact List.pairwise_insertionSort (fun first second : α => key first ≤ key second) values
  · induction values with
    | nil => rfl
    | cons value values ih =>
      rw [sortedBy, List.insertionSort_cons, filter_orderedInsert, List.filter_cons,
        List.filter_cons]
      exact congrArg (fun rest => if decide (key value = wanted) then value :: rest else rest) ih

namespace StableSort

variable {values sorted other : List α}

theorem unique (first : StableSort key values sorted) (second : StableSort key values other) :
    sorted = other := by
  obtain ⟨-, ordered, stable⟩ := first
  obtain ⟨-, ordered', stable'⟩ := second
  have same : ∀ wanted, (sorted.filter fun value => key value = wanted) =
      other.filter fun value => key value = wanted :=
    fun wanted => (stable wanted).trans (stable' wanted).symm
  clear stable stable'
  induction sorted generalizing other with
  | nil =>
    cases other with
    | nil => rfl
    | cons value other =>
      have here := same (key value)
      simp at here
  | cons value sorted ih =>
    obtain ⟨least, ordered⟩ := List.pairwise_cons.mp ordered
    cases other with
    | nil =>
      have here := same (key value)
      simp at here
    | cons value' other =>
      obtain ⟨least', later'⟩ := List.pairwise_cons.mp ordered'
      have below : ∀ {head another : α} {tail rest : List α},
          (∀ later ∈ rest, key another ≤ key later) →
          ((head :: tail).filter fun value => key value = key head) =
            ((another :: rest).filter fun value => key value = key head) →
          key another ≤ key head := by
        intro head another tail rest least same
        have inside : head ∈ (another :: rest).filter fun value => key value = key head := by
          rw [← same]
          simp
        rcases List.mem_cons.mp (List.mem_filter.mp inside).1 with rfl | later
        · exact le_refl _
        · exact least head later
      have keys : key value = key value' :=
        le_antisymm (below least (same (key value')).symm) (below least' (same (key value)))
      have heads := same (key value)
      rw [List.filter_cons_of_pos (by simp), List.filter_cons_of_pos (by simp [keys])] at heads
      obtain ⟨rfl, -⟩ := List.cons.inj heads
      refine congrArg (value :: ·) (ih ordered later' fun wanted => ?_)
      have both := same wanted
      by_cases here : key value = wanted
      · rw [List.filter_cons_of_pos (by simpa using here),
          List.filter_cons_of_pos (by simpa using here)] at both
        exact (List.cons.inj both).2
      · rw [List.filter_cons_of_neg (by simpa using here),
          List.filter_cons_of_neg (by simpa using here)] at both
        exact both

theorem flatten {groups parts : List (List α)}
    (each : List.Forall₂ (StableSort key) groups parts)
    (whole : StableSort key parts.flatten sorted) : StableSort key groups.flatten sorted := by
  have same : parts.flatten.Perm groups.flatten ∧ ∀ wanted,
      (parts.flatten.filter fun value => key value = wanted) =
        groups.flatten.filter fun value => key value = wanted := by
    clear whole
    induction each with
    | nil => exact ⟨List.Perm.refl _, fun _ => rfl⟩
    | cons head _ ih =>
      refine ⟨head.perm.append ih.1, fun wanted => ?_⟩
      rw [List.flatten_cons, List.flatten_cons, List.filter_append, List.filter_append,
        head.stable, ih.2]
  exact ⟨whole.perm.trans same.1, whole.ordered,
    fun wanted => (whole.stable wanted).trans (same.2 wanted)⟩

theorem map {β : Type*} {label : β → κ} {image : α → β}
    (labels : ∀ value, label (image value) = key value)
    (sort : StableSort key values sorted) :
    StableSort label (values.map image) (sorted.map image) := by
  refine ⟨sort.perm.map image, ?_, fun wanted => ?_⟩
  · rw [List.pairwise_map]
    exact sort.ordered.imp fun before => by rwa [labels, labels]
  · rw [List.filter_map, List.filter_map]
    have same : (fun other => decide (label other = wanted)) ∘ image =
        fun value => decide (key value = wanted) := by
      funext value
      simp [labels]
    rw [same, sort.stable]

end StableSort

theorem sortedBy_map {β : Type*} {label : β → κ} {image : α → β}
    (labels : ∀ value, label (image value) = key value) (values : List α) :
    sortedBy label (values.map image) = (sortedBy key values).map image :=
  (sortedBy_stable (values.map image)).unique ((sortedBy_stable values).map labels)

end

section

def popLeast : List (List α) → Option (α × List (List α))
  | [] => none
  | [] :: rest => (popLeast rest).map fun found => (found.1, [] :: found.2)
  | (value :: values) :: rest =>
    match popLeast rest with
    | some (least, left) =>
      if key value ≤ key least then some (value, values :: rest)
      else some (least, (value :: values) :: left)
    | none => some (value, values :: rest)

def mergeHeads : (count : Nat) → List (List α) → List α
  | 0, _ => []
  | count + 1, lists =>
    match popLeast key lists with
    | some (least, left) => least :: mergeHeads count left
    | none => []

/-- `heapq.merge` -/
def heapMerge (lists : List (List α)) : List α := mergeHeads key lists.flatten.length lists

def SortedLists (lists : List (List α)) : Prop :=
  ∀ values ∈ lists, values.Pairwise fun first second => key first ≤ key second

variable {key}

theorem popLeast_eq_none {lists : List (List α)} :
    popLeast key lists = none ↔ lists.flatten = [] := by
  induction lists with
  | nil => simp [popLeast]
  | cons values rest ih =>
    cases values with
    | nil => simpa [popLeast] using ih
    | cons value values =>
      cases popped : popLeast key rest with
      | none => simp [popLeast, popped]
      | some found =>
        by_cases before : key value ≤ key found.1 <;> simp [popLeast, popped, before]

theorem popLeast_spec {lists left : List (List α)} {least : α} (sorted : SortedLists key lists)
    (popped : popLeast key lists = some (least, left)) :
    (∀ value ∈ lists.flatten, key least ≤ key value) ∧ SortedLists key left ∧
      lists.flatten.Perm (least :: left.flatten) ∧ ∀ wanted,
        (lists.flatten.filter fun value => key value = wanted) =
          (least :: left.flatten).filter fun value => key value = wanted := by
  induction lists generalizing left least with
  | nil => cases popped
  | cons values rest ih =>
    obtain ⟨ordered, others⟩ := List.forall_mem_cons.mp sorted
    cases values with
    | nil =>
      rw [popLeast, Option.map_eq_some_iff] at popped
      obtain ⟨⟨found, after⟩, popped, same⟩ := popped
      cases same
      obtain ⟨below, after', perm, stable⟩ := ih others popped
      exact ⟨by simpa using below, List.forall_mem_cons.mpr ⟨List.Pairwise.nil, after'⟩,
        by simpa using perm, by simpa using stable⟩
    | cons value values =>
      obtain ⟨first, ordered'⟩ := List.pairwise_cons.mp ordered
      have own : ∀ other ∈ value :: values, key value ≤ key other :=
        List.forall_mem_cons.mpr ⟨le_refl _, first⟩
      have head : (∀ other ∈ rest.flatten, key value ≤ key other) →
          least = value → left = values :: rest →
          (∀ other ∈ ((value :: values) :: rest).flatten, key least ≤ key other) ∧
            SortedLists key left ∧
            ((value :: values) :: rest).flatten.Perm (least :: left.flatten) ∧ ∀ wanted,
              (((value :: values) :: rest).flatten.filter fun other => key other = wanted) =
                (least :: left.flatten).filter fun other => key other = wanted := by
        rintro below rfl rfl
        refine ⟨?_, List.forall_mem_cons.mpr ⟨ordered', others⟩, List.Perm.refl _, fun _ => rfl⟩
        intro other inside
        rcases List.mem_append.mp inside with here | there
        · exact own other here
        · exact below other there
      cases found : popLeast key rest with
      | none =>
        rw [popLeast, found] at popped
        obtain ⟨rfl, rfl⟩ := Prod.mk.inj (Option.some.inj popped)
        apply head _ rfl rfl
        rw [popLeast_eq_none.mp found]
        exact List.forall_mem_nil _
      | some pair =>
        obtain ⟨other, after⟩ := pair
        obtain ⟨below, sorted', perm, stable⟩ := ih others found
        by_cases before : key value ≤ key other
        · rw [popLeast, found] at popped
          simp only [if_pos before] at popped
          obtain ⟨rfl, rfl⟩ := Prod.mk.inj (Option.some.inj popped)
          exact head (fun later inside => before.trans (below later inside)) rfl rfl
        · rw [popLeast, found] at popped
          simp only [if_neg before] at popped
          obtain ⟨rfl, rfl⟩ := Prod.mk.inj (Option.some.inj popped)
          have less : ∀ later ∈ value :: values, key other < key later :=
            fun later inside => (not_le.mp before).trans_le (own later inside)
          refine ⟨?_, List.forall_mem_cons.mpr ⟨ordered, sorted'⟩, ?_, fun wanted => ?_⟩
          · intro later inside
            rcases List.mem_append.mp inside with here | there
            · exact (less later here).le
            · exact below later there
          · rw [List.flatten_cons, List.flatten_cons]
            exact (perm.append_left _).trans List.perm_middle
          · rw [List.flatten_cons, List.flatten_cons, List.filter_append, stable wanted]
            by_cases here : key other = wanted
            · have none :
                  ((value :: values).filter fun later => key later = wanted) = [] := by
                rw [List.filter_eq_nil_iff]
                intro later inside same
                have same : key later = wanted := by simpa using same
                exact absurd (same.trans here.symm) (less later inside).ne'
              rw [none, List.nil_append, List.filter_cons_of_pos (by simpa using here),
                List.filter_cons_of_pos (by simpa using here), List.filter_append, none,
                List.nil_append]
            · have skip : ∀ tail : List α,
                  ((other :: tail).filter fun later => key later = wanted) =
                    tail.filter fun later => key later = wanted :=
                fun tail => List.filter_cons_of_neg (by simpa using here)
              rw [skip, skip, List.filter_append]

theorem mergeHeads_stable {count : Nat} {lists : List (List α)} (sorted : SortedLists key lists)
    (length : lists.flatten.length = count) :
    StableSort key lists.flatten (mergeHeads key count lists) := by
  induction count generalizing lists with
  | zero =>
    rw [List.eq_nil_of_length_eq_zero length, mergeHeads]
    exact ⟨List.Perm.nil, List.Pairwise.nil, fun _ => rfl⟩
  | succ count ih =>
    cases popped : popLeast key lists with
    | none =>
      rw [popLeast_eq_none.mp popped] at length
      cases length
    | some pair =>
      obtain ⟨least, left⟩ := pair
      obtain ⟨below, sorted, perm, stable⟩ := popLeast_spec sorted popped
      have shorter : left.flatten.length = count := by
        have both := perm.length_eq
        rw [length, List.length_cons] at both
        omega
      have rest := ih sorted shorter
      rw [mergeHeads, popped]
      refine ⟨(rest.perm.cons least).trans perm.symm, ?_, fun wanted => ?_⟩
      · refine List.pairwise_cons.mpr ⟨fun value inside => ?_, rest.ordered⟩
        apply below
        exact perm.symm.subset (List.mem_cons_of_mem _ (rest.perm.subset inside))
      · rw [stable wanted]
        simp only [List.filter_cons, rest.stable wanted]

theorem heapMerge_stable {lists : List (List α)} (sorted : SortedLists key lists) :
    StableSort key lists.flatten (heapMerge key lists) :=
  mergeHeads_stable sorted rfl

end

end SparseLab.Library
