import Mathlib.Data.List.Infix
import Mathlib.Data.List.Nodup

/-! Mappings nested to any depth, with values at their leaves. -/

namespace SparseLab.Library

/-- The entries of a mapping in order, where `nested` is a mapping inside the mapping. -/
inductive Mapping (κ α : Type)
  | empty
  | leaf (key : κ) (value : α) (rest : Mapping κ α)
  | nested (key : κ) (inner rest : Mapping κ α)
deriving DecidableEq

namespace Mapping

variable {κ α : Type}

inductive Node (κ α : Type)
  | value (value : α)
  | mapping (fields : Mapping κ α)
deriving DecidableEq

def keys : Mapping κ α → List κ
  | empty => []
  | leaf key _ rest | nested key _ rest => key :: rest.keys

def Distinct : Mapping κ α → Prop
  | empty => True
  | leaf key _ rest => key ∉ rest.keys ∧ rest.Distinct
  | nested key inner rest => key ∉ rest.keys ∧ inner.Distinct ∧ rest.Distinct

def Node.seen : Node κ α → α ⊕ List κ
  | .value held => .inl held
  | .mapping fields => .inr fields.keys

def entry (key : κ) : Node κ α → Mapping κ α → Mapping κ α
  | .value value => leaf key value
  | .mapping fields => nested key fields

@[simp] theorem keys_entry (key : κ) (node : Node κ α) (fields : Mapping κ α) :
    (entry key node fields).keys = key :: fields.keys := by
  cases node <;> rfl

def Node.Ends : Node κ α → Prop
  | .value _ => True
  | .mapping fields => fields = empty

def nestedLeaves (key : κ) : List (List κ × Node κ α) → List (List κ × Node κ α)
  | [] => [([key], .mapping empty)]
  | leaves => leaves.map fun entry => (key :: entry.1, entry.2)

def leaves : Mapping κ α → List (List κ × Node κ α)
  | empty => []
  | leaf key value rest => ([key], .value value) :: rest.leaves
  | nested key inner rest => nestedLeaves key inner.leaves ++ rest.leaves

variable [DecidableEq κ]

def find (wanted : κ) : Mapping κ α → Option (Node κ α)
  | empty => none
  | leaf key value rest => if key = wanted then some (.value value) else rest.find wanted
  | nested key inner rest => if key = wanted then some (.mapping inner) else rest.find wanted

def fetch (fields : Mapping κ α) : List κ → Option (Node κ α)
  | [] => some (.mapping fields)
  | key :: rest =>
    match fields.find key with
    | none => none
    | some (.value value) => if rest = [] then some (.value value) else none
    | some (.mapping inner) => inner.fetch rest

/-- `fields[key] = node`: a new key comes last. -/
def set (key : κ) (node : Node κ α) : Mapping κ α → Mapping κ α
  | empty => entry key node empty
  | leaf first value rest =>
    if first = key then entry key node rest else leaf first value (rest.set key node)
  | nested first inner rest =>
    if first = key then entry key node rest else nested first inner (rest.set key node)

def put (fields : Mapping κ α) : List κ → Node κ α → Mapping κ α
  | [], _ => fields
  | [key], node => fields.set key node
  | key :: rest, node =>
    match fields.find key with
    | some (.mapping inner) => fields.set key (.mapping (inner.put rest node))
    | _ => fields

section

variable {fields : Mapping κ α} {key other : κ} {node : Node κ α}

@[simp] theorem find_entry : (entry key node fields).find other =
    if key = other then some node else fields.find other := by
  cases node <;> rfl

theorem find_isSome : (fields.find key).isSome = true ↔ key ∈ fields.keys := by
  induction fields with
  | empty => simp [find, keys]
  | leaf first value rest ih =>
    by_cases here : first = key
    · simp [find, keys, here]
    · simp [find, keys, here, ih, Ne.symm here]
  | nested first inner rest _ ih =>
    by_cases here : first = key
    · simp [find, keys, here]
    · simp [find, keys, here, ih, Ne.symm here]

theorem find_set : (fields.set key node).find other =
    if key = other then some node else fields.find other := by
  induction fields with
  | empty => simp [set, find]
  | leaf first value rest ih =>
    by_cases here : first = key
    · subst here
      by_cases same : first = other
      · simp [set, same]
      · simp [set, same, find]
    · by_cases same : first = other
      · subst same
        simp [set, here, find, Ne.symm here]
      · simp [set, here, find, same, ih]
  | nested first inner rest _ ih =>
    by_cases here : first = key
    · subst here
      by_cases same : first = other
      · simp [set, same]
      · simp [set, same, find]
    · by_cases same : first = other
      · subst same
        simp [set, here, find, Ne.symm here]
      · simp [set, here, find, same, ih]

theorem keys_set (known : key ∈ fields.keys) : (fields.set key node).keys = fields.keys := by
  induction fields with
  | empty => cases known
  | leaf first value rest ih =>
    by_cases here : first = key
    · simp [set, here, keys]
    · have later := (List.mem_cons.mp known).resolve_left (Ne.symm here)
      simp [set, here, keys, ih later]
  | nested first inner rest _ ih =>
    by_cases here : first = key
    · simp [set, here, keys]
    · have later := (List.mem_cons.mp known).resolve_left (Ne.symm here)
      simp [set, here, keys, ih later]

theorem set_entry (node' : Node κ α) :
    (entry other node' fields).set key node =
      if other = key then entry key node fields else entry other node' (fields.set key node) := by
  cases node' <;> rfl

theorem set_set (node' : Node κ α) : (fields.set key node).set key node' = fields.set key node' := by
  induction fields with
  | empty => simp [set, set_entry]
  | leaf first value rest ih =>
    by_cases here : first = key
    · simp [set, here, set_entry]
    · simp [set, here, ih]
  | nested first inner rest _ ih =>
    by_cases here : first = key
    · simp [set, here, set_entry]
    · simp [set, here, ih]

theorem set_comm {node' : Node κ α} (different : key ≠ other) (known : key ∈ fields.keys)
    (known' : other ∈ fields.keys) :
    (fields.set key node).set other node' = (fields.set other node').set key node := by
  induction fields with
  | empty => cases known
  | leaf first value rest ih =>
    by_cases here : first = key
    · subst here
      simp [set, set_entry, different]
    · by_cases there : first = other
      · subst there
        simp [set, set_entry, here]
      · have later := (List.mem_cons.mp known).resolve_left (Ne.symm here)
        have later' := (List.mem_cons.mp known').resolve_left (Ne.symm there)
        simp [set, here, there, ih later later']
  | nested first inner rest _ ih =>
    by_cases here : first = key
    · subst here
      simp [set, set_entry, different]
    · by_cases there : first = other
      · subst there
        simp [set, set_entry, here]
      · have later := (List.mem_cons.mp known).resolve_left (Ne.symm here)
        have later' := (List.mem_cons.mp known').resolve_left (Ne.symm there)
        simp [set, here, there, ih later later']

end

section

variable {fields inner : Mapping κ α} {key : κ} {path other : List κ} {node node' : Node κ α}

def Node.fetch : Node κ α → List κ → Option (Node κ α)
  | .value held, path => if path = [] then some (.value held) else none
  | .mapping fields, path => fields.fetch path

@[simp] theorem fetch_nil : fields.fetch [] = some (.mapping fields) := rfl

theorem fetch_cons : fields.fetch (key :: path) =
    (fields.find key).bind fun node => node.fetch path := by
  rw [fetch]
  cases fields.find key with
  | none => rfl
  | some node => cases node <;> rfl

theorem Node.fetch_append : node.fetch (path ++ other) =
    (node.fetch path).bind fun found => found.fetch other := by
  induction path generalizing node with
  | nil =>
    cases node with
    | value held => rfl
    | mapping fields => rfl
  | cons key path ih =>
    cases node with
    | value held => rfl
    | mapping fields =>
      change fields.fetch (key :: (path ++ other)) = (fields.fetch (key :: path)).bind _
      rw [fetch_cons, fetch_cons]
      cases fields.find key with
      | none => rfl
      | some next => exact ih

theorem fetch_append : fields.fetch (path ++ other) =
    (fields.fetch path).bind fun found => found.fetch other :=
  @Node.fetch_append κ α _ path other (.mapping fields)

theorem put_cons (more : path ≠ []) (found : fields.find key = some (.mapping inner)) :
    fields.put (key :: path) node = fields.set key (.mapping (inner.put path node)) := by
  cases path with
  | nil => exact absurd rfl more
  | cons next path => simp only [put, found]

theorem mapping_of_fetch (more : path ≠ []) (known : (fields.fetch (key :: path)).isSome = true) :
    ∃ inner, fields.find key = some (.mapping inner) ∧ (inner.fetch path).isSome = true := by
  rw [fetch_cons] at known
  cases found : fields.find key with
  | none =>
    rw [found] at known
    cases known
  | some next =>
    rw [found] at known
    cases next with
    | value held => simp [Node.fetch, more] at known
    | mapping inner => exact ⟨inner, rfl, known⟩

theorem mem_keys_of_fetch (known : (fields.fetch (key :: path)).isSome = true) :
    key ∈ fields.keys := by
  rw [← find_isSome]
  rw [fetch_cons] at known
  exact Option.isSome_of_isSome_bind known

theorem fetch_put_apart (below : ¬ path <+: other) (above : ¬ other <+: path) :
    (fields.put path node).fetch other = fields.fetch other := by
  induction path generalizing fields other with
  | nil => exact absurd List.nil_prefix below
  | cons key path ih =>
    cases other with
    | nil => exact absurd List.nil_prefix above
    | cons key' other =>
      by_cases same : key = key'
      · subst same
        rw [List.cons_prefix_cons] at below above
        have below := fun inside => below ⟨rfl, inside⟩
        have above := fun inside => above ⟨rfl, inside⟩
        have more : path ≠ [] := by
          rintro rfl
          exact below List.nil_prefix
        cases found : fields.find key with
        | none => cases path <;> simp_all [put]
        | some next =>
          cases next with
          | value held => cases path <;> simp_all [put]
          | mapping inner =>
            rw [put_cons more found, fetch_cons, fetch_cons, find_set, if_pos rfl, found]
            exact ih below above
      · have unchanged : (fields.put (key :: path) node).find key' = fields.find key' := by
          cases path with
          | nil => rw [put, find_set, if_neg same]
          | cons next path =>
            cases found : fields.find key with
            | none => simp only [put, found]
            | some step =>
              cases step with
              | value held => simp only [put, found]
              | mapping inner => rw [put_cons (by simp) found, find_set, if_neg same]
        rw [fetch_cons, fetch_cons, unchanged]

theorem seen_put_above (known : (fields.fetch path).isSome = true) (above : other <+: path)
    (strictly : other ≠ path) : ((fields.put path node).fetch other).map Node.seen =
      (fields.fetch other).map Node.seen := by
  induction path generalizing fields other with
  | nil => exact absurd (List.prefix_nil.mp above) strictly
  | cons key path ih =>
    cases other with
    | nil =>
      have inside := mem_keys_of_fetch known
      by_cases more : path = []
      · subst more
        simp [put, Node.seen, keys_set inside]
      · obtain ⟨inner, found, -⟩ := mapping_of_fetch more known
        simp [put_cons more found, Node.seen, keys_set inside]
    | cons key' other =>
      obtain ⟨rfl, higher⟩ := List.cons_prefix_cons.mp above
      have strictly : other ≠ path := fun same => strictly (congrArg _ same)
      have more : path ≠ [] := by
        rintro rfl
        exact strictly (List.prefix_nil.mp higher)
      obtain ⟨inner, found, inside⟩ := mapping_of_fetch more known
      rw [put_cons more found, fetch_cons, fetch_cons, find_set, if_pos rfl, found]
      exact ih inside higher strictly

theorem put_comm (known : (fields.fetch path).isSome = true)
    (known' : (fields.fetch other).isSome = true) (below : ¬ path <+: other)
    (above : ¬ other <+: path) :
    (fields.put path node).put other node' = (fields.put other node').put path node := by
  induction path generalizing fields other with
  | nil => exact absurd List.nil_prefix below
  | cons key path ih =>
    cases other with
    | nil => exact absurd List.nil_prefix above
    | cons key' other =>
      have inside := mem_keys_of_fetch known
      have inside' := mem_keys_of_fetch known'
      by_cases same : key = key'
      · subst same
        rw [List.cons_prefix_cons] at below above
        have below := fun inside => below ⟨rfl, inside⟩
        have above := fun inside => above ⟨rfl, inside⟩
        have more : path ≠ [] := by
          rintro rfl
          exact below List.nil_prefix
        have more' : other ≠ [] := by
          rintro rfl
          exact above List.nil_prefix
        obtain ⟨inner, found, known⟩ := mapping_of_fetch more known
        obtain ⟨inner', found', known'⟩ := mapping_of_fetch more' known'
        have same : inner' = inner := by simpa [found] using found'.symm
        subst same
        have after : ∀ fields' : Mapping κ α,
            (fields.set key (.mapping fields')).find key = some (.mapping fields') := by
          intro fields'
          rw [find_set, if_pos rfl]
        rw [put_cons more found, put_cons more' found, put_cons more' (after _),
          put_cons more (after _), set_set, set_set, ih known known' below above]
      · have sets : ∀ (key : κ) (path : List κ) (node : Node κ α) (fields : Mapping κ α),
            (fields.fetch (key :: path)).isSome = true →
            ∃ node', ∀ fields' : Mapping κ α, fields'.find key = fields.find key →
              fields'.put (key :: path) node = fields'.set key node' := by
          intro key path node fields known
          by_cases more : path = []
          · subst more
            exact ⟨node, fun _ _ => rfl⟩
          · obtain ⟨inner, found, -⟩ := mapping_of_fetch more known
            exact ⟨_, fun fields' same => put_cons more (same.trans found)⟩
        obtain ⟨set, first⟩ := sets key path node fields known
        obtain ⟨set', second⟩ := sets key' other node' fields known'
        rw [first fields rfl, second fields rfl,
          second _ (by rw [find_set, if_neg same]),
          first _ (by rw [find_set, if_neg (Ne.symm same)])]
        exact set_comm same inside inside'

end

section

variable {fields : Mapping κ α} {path : List κ} {changes changes' : List (List κ × Node κ α)}

def Apart (first second : List κ) : Prop := ¬ first <+: second ∧ ¬ second <+: first

def amend (fields : Mapping κ α) (change : List κ × Node κ α) : Mapping κ α :=
  if (fields.fetch change.1).isSome then fields.put change.1 change.2 else fields

theorem fetch_amend_apart {change : List κ × Node κ α} (apart : Apart change.1 path) :
    (fields.amend change).fetch path = fields.fetch path := by
  rw [amend]
  by_cases known : (fields.fetch change.1).isSome = true
  · rw [if_pos known]
    exact fetch_put_apart apart.1 apart.2
  · rw [if_neg known]

theorem seen_amend {change : List κ × Node κ α} (outside : ¬ change.1 <+: path) :
    ((fields.amend change).fetch path).map Node.seen = (fields.fetch path).map Node.seen := by
  by_cases above : path <+: change.1
  · rw [amend]
    by_cases known : (fields.fetch change.1).isSome = true
    · rw [if_pos known]
      refine seen_put_above known above ?_
      rintro rfl
      exact outside (List.prefix_refl _)
    · rw [if_neg known]
  · rw [fetch_amend_apart ⟨outside, above⟩]

theorem amend_comm {first second : List κ × Node κ α} (apart : Apart first.1 second.1) :
    (fields.amend first).amend second = (fields.amend second).amend first := by
  by_cases known : (fields.fetch first.1).isSome = true
  · by_cases known' : (fields.fetch second.1).isSome = true
    · have after : ((fields.amend first).fetch second.1).isSome = true := by
        rwa [fetch_amend_apart apart]
      have after' : ((fields.amend second).fetch first.1).isSome = true := by
        rwa [fetch_amend_apart ⟨apart.2, apart.1⟩]
      rw [amend, if_pos after, amend, if_pos known, amend.eq_def (fields.amend second), if_pos after',
        amend, if_pos known']
      exact put_comm known known' apart.1 apart.2
    · have after : ¬ ((fields.amend first).fetch second.1).isSome = true := by
        rwa [fetch_amend_apart apart]
      rw [amend, if_neg after, amend.eq_def fields second, if_neg known']
  · have after : ¬ ((fields.amend second).fetch first.1).isSome = true := by
      rwa [fetch_amend_apart ⟨apart.2, apart.1⟩]
    rw [amend.eq_def (fields.amend second), if_neg after, amend.eq_def fields first, if_neg known]

theorem foldl_amend_perm (perm : changes.Perm changes')
    (apart : changes.Pairwise fun first second => Apart first.1 second.1) :
    changes.foldl amend fields = changes'.foldl amend fields := by
  induction perm generalizing fields with
  | nil => rfl
  | cons change _ ih =>
    rw [List.foldl_cons, List.foldl_cons]
    exact ih (List.pairwise_cons.mp apart).2
  | swap first second later =>
    obtain ⟨others, -⟩ := List.pairwise_cons.mp apart
    have swapped := others _ (List.mem_cons_self ..)
    rw [List.foldl_cons, List.foldl_cons, List.foldl_cons, List.foldl_cons, amend_comm swapped]
  | trans perm _ ih ih' =>
    exact (ih apart).trans (ih' (perm.pairwise apart fun both => ⟨both.2, both.1⟩))

theorem seen_foldl_amend (outside : ∀ change ∈ changes, ¬ change.1 <+: path) :
    ((changes.foldl amend fields).fetch path).map Node.seen =
      (fields.fetch path).map Node.seen := by
  induction changes generalizing fields with
  | nil => rfl
  | cons change changes ih =>
    rw [List.forall_mem_cons] at outside
    rw [List.foldl_cons, ih outside.2, seen_amend outside.1]

theorem fetch_foldl_amend (apart : ∀ change ∈ changes, Apart change.1 path) :
    (changes.foldl amend fields).fetch path = fields.fetch path := by
  induction changes generalizing fields with
  | nil => rfl
  | cons change changes ih =>
    rw [List.forall_mem_cons] at apart
    rw [List.foldl_cons, ih apart.2, fetch_amend_apart apart.1]

end

section

variable {fields inner : Mapping κ α} {key : κ} {path : List κ} {node : Node κ α}

omit [DecidableEq κ] in
theorem leaves_eq_nil : fields.leaves = [] ↔ fields = empty := by
  cases fields with
  | empty => simp [leaves]
  | leaf key value rest => simp [leaves]
  | nested key inner rest =>
    cases below : inner.leaves with
    | nil => simp [leaves, nestedLeaves, below]
    | cons entry entries => simp [leaves, nestedLeaves, below]

omit [DecidableEq κ] in
theorem mem_nestedLeaves {entries : List (List κ × Node κ α)} :
    (path, node) ∈ nestedLeaves key entries ↔
      (entries = [] ∧ path = [key] ∧ node = .mapping empty) ∨
        ∃ later, (later, node) ∈ entries ∧ path = key :: later := by
  cases entries with
  | nil => simp [nestedLeaves]
  | cons entry entries =>
    simp only [nestedLeaves, List.mem_map, reduceCtorEq, false_and, false_or]
    constructor
    · rintro ⟨⟨later, found⟩, member, same⟩
      obtain ⟨rfl, rfl⟩ := Prod.mk.inj same
      exact ⟨later, member, rfl⟩
    · rintro ⟨later, member, rfl⟩
      exact ⟨(later, node), member, rfl⟩

omit [DecidableEq κ] in
theorem head_of_mem_leaves (member : (path, node) ∈ fields.leaves) :
    ∃ key later, path = key :: later ∧ key ∈ fields.keys := by
  induction fields with
  | empty => cases member
  | leaf key value rest ih =>
    rcases List.mem_cons.mp member with same | member
    · obtain ⟨rfl, rfl⟩ := Prod.mk.inj same
      exact ⟨key, [], rfl, List.mem_cons_self ..⟩
    · obtain ⟨first, later, rfl, known⟩ := ih member
      exact ⟨first, later, rfl, List.mem_cons_of_mem _ known⟩
  | nested key inner rest _ ih =>
    rcases List.mem_append.mp member with below | member
    · rcases mem_nestedLeaves.mp below with ⟨-, rfl, -⟩ | ⟨later, -, rfl⟩
      · exact ⟨key, [], rfl, List.mem_cons_self ..⟩
      · exact ⟨key, later, rfl, List.mem_cons_self ..⟩
    · obtain ⟨first, later, rfl, known⟩ := ih member
      exact ⟨first, later, rfl, List.mem_cons_of_mem _ known⟩

theorem mem_leaves (distinct : fields.Distinct) : (path, node) ∈ fields.leaves ↔
    path ≠ [] ∧ fields.fetch path = some node ∧ node.Ends := by
  induction fields generalizing path with
  | empty =>
    cases path with
    | nil => simp [leaves]
    | cons key path => simp [leaves, fetch, find]
  | leaf key value rest ih =>
    obtain ⟨fresh, distinct⟩ := distinct
    cases path with
    | nil =>
      simp only [ne_eq, not_true_eq_false, false_and, iff_false]
      intro member
      obtain ⟨_, _, same, -⟩ := head_of_mem_leaves member
      cases same
    | cons first path =>
      rw [fetch_cons, find]
      by_cases here : key = first
      · subst here
        have absent : (key :: path, node) ∉ rest.leaves := by
          intro member
          obtain ⟨_, _, same, known⟩ := head_of_mem_leaves member
          cases same
          exact fresh known
        rw [leaves, List.mem_cons, if_pos rfl]
        constructor
        · rintro (same | member)
          · obtain ⟨same, rfl⟩ := Prod.mk.inj same
            cases same
            exact ⟨by simp, rfl, trivial⟩
          · exact absurd member absent
        · rintro ⟨-, found, -⟩
          by_cases last : path = []
          · subst last
            cases found
            exact Or.inl rfl
          · simp [Node.fetch, last] at found
      · rw [if_neg here, leaves, List.mem_cons, ih distinct, fetch_cons]
        simp [Ne.symm here]
  | nested key inner rest ihInner ih =>
    obtain ⟨fresh, distinctInner, distinct⟩ := distinct
    cases path with
    | nil =>
      simp only [ne_eq, not_true_eq_false, false_and, iff_false]
      intro member
      obtain ⟨_, _, same, -⟩ := head_of_mem_leaves member
      cases same
    | cons first path =>
      rw [fetch_cons, find]
      by_cases here : key = first
      · subst here
        have absent : (key :: path, node) ∉ rest.leaves := by
          intro member
          obtain ⟨_, _, same, known⟩ := head_of_mem_leaves member
          cases same
          exact fresh known
        rw [leaves, List.mem_append, if_pos rfl, mem_nestedLeaves, leaves_eq_nil]
        constructor
        · rintro ((⟨rfl, same, rfl⟩ | ⟨later, member, same⟩) | member)
          · cases same
            exact ⟨by simp, rfl, rfl⟩
          · cases same
            obtain ⟨-, found, ends⟩ := (ihInner distinctInner).mp member
            exact ⟨by simp, found, ends⟩
          · exact absurd member absent
        · rintro ⟨-, found, ends⟩
          cases path with
          | nil =>
            cases found
            exact Or.inl (Or.inl ⟨ends, rfl, congrArg _ ends⟩)
          | cons second path =>
            exact Or.inl (Or.inr ⟨second :: path,
              (ihInner distinctInner).mpr ⟨by simp, found, ends⟩, rfl⟩)
      · have apart : (first :: path, node) ∉ nestedLeaves key inner.leaves := by
          intro member
          rcases mem_nestedLeaves.mp member with ⟨-, same, -⟩ | ⟨_, -, same⟩
          · cases same
            exact here rfl
          · cases same
            exact here rfl
        rw [if_neg here, leaves, List.mem_append, ih distinct, fetch_cons]
        simp [apart]

end

end Mapping

end SparseLab.Library
