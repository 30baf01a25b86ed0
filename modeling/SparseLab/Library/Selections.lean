import Mathlib.Data.List.MinMax
import Mathlib.Data.List.Sort

/-! Selections that a growing list makes: last, first and least elements. -/

namespace SparseLab.Library

universe u v

variable {α : Type u}

theorem nodup_map_concat {β : Type v} {image : α → β} {values : List α} {value : α}
    (distinct : (values.map image).Nodup) (fresh : ∀ earlier ∈ values, image earlier ≠ image value) :
    ((values ++ [value]).map image).Nodup := by
  rw [List.map_append, List.nodup_append]
  refine ⟨distinct, List.nodup_singleton _, ?_⟩
  intro name member name' last same
  obtain ⟨earlier, present, rfl⟩ := List.mem_map.mp member
  exact fresh earlier present (same.trans (List.mem_singleton.mp last))

theorem sublist_with_last {shorter front : List α} {last : α}
    (sublist : shorter.Sublist (front ++ [last])) (distinct : (front ++ [last]).Nodup)
    (kept : last ∈ shorter) : ∃ rest, rest.Sublist front ∧ shorter = rest ++ [last] := by
  obtain ⟨left, right, rfl, inFront, inLast⟩ := List.sublist_append_iff.mp sublist
  refine ⟨left, inFront, ?_⟩
  have absent : last ∉ left := by
    intro member
    exact (List.nodup_append.mp distinct).2.2 last (inFront.subset member) last (by simp) rfl
  have present : last ∈ right := by
    simpa [absent] using kept
  rw [List.sublist_singleton] at inLast
  obtain rfl | rfl := inLast
  · cases present
  · rfl

section

variable {shorter longer : List α} (sublist : shorter.Sublist longer)

include sublist

theorem getLast?_sublist {last : α}
    (distinct : longer.Nodup) (found : longer.getLast? = some last) (kept : last ∈ shorter) :
    shorter.getLast? = some last := by
  obtain ⟨front, rfl⟩ := List.getLast?_eq_some_iff.mp found
  obtain ⟨rest, _, rfl⟩ := sublist_with_last sublist distinct kept
  simp

theorem dropLast_getLast?_sublist {last previous : α} (distinct : longer.Nodup)
    (found : longer.getLast? = some last) (before : longer.dropLast.getLast? = some previous)
    (kept : last ∈ shorter) (keptBefore : previous ∈ shorter) :
    shorter.dropLast.getLast? = some previous := by
  obtain ⟨front, rfl⟩ := List.getLast?_eq_some_iff.mp found
  obtain ⟨rest, inFront, rfl⟩ := sublist_with_last sublist distinct kept
  rw [List.dropLast_concat] at before ⊢
  have distinctFront := (List.nodup_append.mp distinct).1
  refine getLast?_sublist inFront distinctFront before ?_
  obtain member | member := List.mem_append.mp keptBefore
  · exact member
  · rw [List.mem_singleton.mp member] at before
    have inside := List.mem_of_getLast? before
    exact absurd rfl ((List.nodup_append.mp distinct).2.2 last inside last (by simp))

theorem find?_sublist {test : α → Bool} {first : α} (distinct : longer.Nodup)
    (found : longer.find? test = some first) (kept : first ∈ shorter) :
    shorter.find? test = some first := by
  induction sublist with
  | slnil => cases kept
  | cons skipped later ih =>
    rw [List.find?_cons] at found
    split at found
    · cases found
      exact absurd (later.subset kept) (List.nodup_cons.mp distinct).1
    · exact ih (List.nodup_cons.mp distinct).2 found kept
  | cons_cons head later ih =>
    rw [List.find?_cons] at found ⊢
    split at found
    · exact found
    · rename_i fails
      refine ih (List.nodup_cons.mp distinct).2 found ?_
      obtain rfl | member := List.mem_cons.mp kept
      · rw [List.find?_some found] at fails
        cases fails
      · exact member

theorem find?_none_sublist {test : α → Bool} (found : longer.find? test = none) :
    shorter.find? test = none := by
  rw [List.find?_eq_none] at found ⊢
  intro element member
  exact found element (sublist.subset member)

theorem filter_sublist_eq {test : α → Bool} (nodup : longer.Nodup)
    (kept : ∀ element ∈ longer.filter test, element ∈ shorter) :
    shorter.filter test = longer.filter test := by
  refine (sublist.filter test).eq_of_length_le ?_
  refine (List.subperm_of_subset (nodup.filter test) ?_).length_le
  intro element member
  exact List.mem_filter.mpr ⟨kept element member, (List.mem_filter.mp member).2⟩

end

theorem filter_eq_singleton {list : List α} {test : α → Bool} {element : α}
    (apart : list.Pairwise fun first second => test first = true → ¬ test second = true)
    (member : element ∈ list) (passes : test element = true) : list.filter test = [element] := by
  have short : (list.filter test).Pairwise fun _ _ => False := by
    refine (apart.filter test).imp_of_mem ?_
    intro first second inFirst inSecond different
    exact different (List.mem_filter.mp inFirst).2 (List.mem_filter.mp inSecond).2
  have inside : element ∈ list.filter test := List.mem_filter.mpr ⟨member, passes⟩
  match found : list.filter test with
  | [] =>
    rw [found] at inside
    cases inside
  | [only] =>
    rw [found] at inside
    rw [List.mem_singleton.mp inside]
  | first :: second :: rest =>
    rw [found, List.pairwise_cons] at short
    exact (short.1 second List.mem_cons_self).elim

variable {β : Type v} [LinearOrder β] {key : α → β}

theorem argmin_eq_some_of {list : List α} {least : α}
    (injective : ∀ first ∈ list, ∀ second ∈ list, key first = key second → first = second)
    (member : least ∈ list) (below : ∀ other ∈ list, key least ≤ key other) :
    list.argmin key = some least := by
  cases found : list.argmin key with
  | none =>
    rw [List.argmin_eq_none] at found
    rw [found] at member
    cases member
  | some other =>
    have present := List.argmin_mem found
    have lower := List.le_of_mem_argmin member found
    rw [injective other present least member (le_antisymm lower (below other present))]

theorem argmin_sublist {shorter longer : List α} {least : α} (sublist : shorter.Sublist longer)
    (injective : ∀ first ∈ longer, ∀ second ∈ longer, key first = key second → first = second)
    (found : longer.argmin key = some least) (kept : least ∈ shorter) :
    shorter.argmin key = some least := by
  refine argmin_eq_some_of ?_ kept ?_
  · intro first member second member'
    exact injective first (sublist.subset member) second (sublist.subset member')
  · intro other member
    exact List.le_of_mem_argmin (sublist.subset member) found

end SparseLab.Library
