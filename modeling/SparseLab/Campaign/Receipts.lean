import SparseLab.Campaign.Store

/-! Receipt files, and the rows in memory and in the index that relate to them. -/

namespace SparseLab.Campaign

open Library

section

variable {first second third : Data} {key : String}

theorem lookup_eq_none {fields : Data} : fields.lookup key = none ↔ key ∉ fields.map Prod.fst := by
  rw [List.lookup_eq_none_iff]
  constructor
  · intro absent member
    obtain ⟨field, listed, named⟩ := List.mem_map.mp member
    exact absurd named.symm (by simpa using absent field listed)
  · intro absent field listed
    have differs : key ≠ field.1 := fun named => absent (named ▸ List.mem_map_of_mem listed)
    simpa using differs

theorem Data.same_iff : first.Same second ↔ ∀ key, first.lookup key = second.lookup key := by
  constructor
  · intro same key
    by_cases listed : key ∈ (first ++ second).map Prod.fst
    · exact same key listed
    · rw [List.map_append, List.mem_append, not_or] at listed
      rw [lookup_eq_none.mpr listed.1, lookup_eq_none.mpr listed.2]
  · exact fun same key _ => same key

theorem Data.Same.refl (fields : Data) : fields.Same fields := fun _ _ => rfl

theorem Data.Same.keys (same : first.Same second) :
    key ∈ first.map Prod.fst ↔ key ∈ second.map Prod.fst := by
  rw [← not_iff_not, ← lookup_eq_none, ← lookup_eq_none, Data.same_iff.mp same key]

theorem Data.same_append (named : ∀ key ∈ second.map Prod.fst, key ∈ first.map Prod.fst) :
    Data.Same (first ++ second) first := by
  refine Data.same_iff.mpr fun key => ?_
  rw [List.lookup_append]
  cases found : first.lookup key with
  | some value => rfl
  | none =>
    have absent := lookup_eq_none.mp found
    rw [lookup_eq_none.mpr fun later => absurd (named key later) absent]
    rfl

theorem filter_reserved {fields : Data} (clean : ∀ key ∈ fields.map Prod.fst, key ∉ reserved) :
    fields.filter (fun field => field.1 ∉ reserved) = fields := by
  refine List.filter_eq_self.mpr fun field member => ?_
  exact decide_eq_true (clean field.1 (List.mem_map_of_mem member))

end

section

variable (formats : Formats) (plan : Plan) {disk disk' : Disk}

abbrev Disk.files (disk : Disk) : List File := disk.receipts.getD []

def Has (disk : Disk) (id : String) (receipt : Receipt) : Prop :=
  ⟨id, .receipt receipt.stageInput receipt⟩ ∈ disk.files

def Completes (disk : Disk) (name : String) (requirement : Requirement) : Prop :=
  ∃ receipt, Has disk name receipt ∧ receipt.state = .complete ∧
    requirement = ⟨name, receipt.stageInput, receipt.outputs⟩

def InputOf (disk : Disk) (stage : Stage) (input : String) : Prop :=
  ∃ requirements, List.Forall₂ (Completes disk) (stage.requires.insertionSort (· ≤ ·)) requirements ∧
    input = (plan.digest stage requirements).text

structure Published (disk : Disk) : Prop where
  receipts : ∀ file ∈ disk.files, ∃ stage ∈ plan.stages, ∃ receipt,
    file = ⟨stage.id, .receipt receipt.stageInput receipt⟩ ∧
      readReceipt formats stage receipt.stageInput receipt =
        .ok (receiptRow stage receipt.stageInput receipt)
  single : (disk.files.map (·.stage)).Nodup
  bound : ∀ stage ∈ plan.stages, ∀ receipt, Has disk stage.id receipt →
    InputOf plan disk stage receipt.stageInput

variable {formats plan}

theorem Plan.same (stage : Stage) (member : stage ∈ plan.stages) {other : Stage}
    (listed : other ∈ plan.stages) (same : other.id = stage.id) : other = stage :=
  List.inj_on_of_nodup_map plan.unique listed member same

theorem Plan.found {stage : Stage} (member : stage ∈ plan.stages) :
    plan.stage stage.id = some stage := by
  cases found : plan.stage stage.id with
  | none => exact absurd (decide_eq_true rfl) (List.find?_eq_none.mp found stage member)
  | some other =>
    have same : other.id = stage.id := by simpa using List.find?_some found
    rw [Plan.same stage member (List.mem_of_find?_eq_some found) same]

section

variable (published : Published formats plan disk)

include published

theorem Published.unique {id : String}
    {receipt receipt' : Receipt} (has : Has disk id receipt) (has' : Has disk id receipt') :
    receipt' = receipt := by
  have same := List.inj_on_of_nodup_map published.single has has' rfl
  exact (Content.receipt.inj (File.mk.inj same).2).2.symm

theorem Published.read {stage : Stage}
    (member : stage ∈ plan.stages) {receipt : Receipt} (has : Has disk stage.id receipt) :
    readReceipt formats stage receipt.stageInput receipt =
      .ok (receiptRow stage receipt.stageInput receipt) := by
  obtain ⟨other, listed, receipt', same, read⟩ := published.receipts _ has
  obtain rfl := Plan.same stage member listed (congrArg File.stage same).symm
  obtain rfl := (Content.receipt.inj (File.mk.inj same).2).2
  exact read

theorem Completes.unique {name : String}
    {first second : Requirement} (completes : Completes disk name first)
    (completes' : Completes disk name second) : first = second := by
  obtain ⟨receipt, has, _, rfl⟩ := completes
  obtain ⟨receipt', has', _, rfl⟩ := completes'
  rw [published.unique has has']

theorem InputOf.unique {stage : Stage} {input input' : String} (is : InputOf plan disk stage input)
    (is' : InputOf plan disk stage input') : input = input' := by
  obtain ⟨requirements, each, rfl⟩ := is
  obtain ⟨requirements', each', rfl⟩ := is'
  have unique : Relator.RightUnique (Completes disk) := fun _ _ _ => Completes.unique published
  rw [List.right_unique_forall₂' unique each each']

end

theorem InputOf.mono (more : ∀ id receipt, Has disk id receipt → Has disk' id receipt)
    {stage : Stage} {input : String} (is : InputOf plan disk stage input) :
    InputOf plan disk' stage input := by
  obtain ⟨requirements, each, same⟩ := is
  refine ⟨requirements, each.imp fun name requirement completes => ?_, same⟩
  obtain ⟨receipt, has, rest⟩ := completes
  exact ⟨receipt, more name receipt has, rest⟩

end

section

variable (formats : Formats) (plan : Plan) (disk : Disk) (stage : Stage) (row : Row)

structure Fit : Prop where
  valid : validateRow formats row stage.toEntry = .ok ()
  clean : ∀ key ∈ row.data.map Prod.fst, key ∉ reserved

structure Agrees (receipt : Receipt) : Prop where
  compared : compareCommitted row (receiptRow stage receipt.stageInput receipt) = .ok ()
  stageInput : row.stageInput = some receipt.stageInput
  verifiedAt : row.verifiedAt = some receipt.verifiedAt
  receipt : row.receipt = some (receiptPath stage.id receipt.stageInput)

structure Unreceipted : Prop where
  receipt : row.receipt = none
  incomplete : row.state ≠ .complete
  failed : row.state ∈ [StageState.failed, .inconclusive] → row.stageInput = none
  input : ∀ input, row.stageInput = some input → InputOf plan disk stage input ∧
    (stage.kind = .approval ∨
      row.state ∈ [StageState.running, .interrupted, .awaitingApproval])

structure Lagging (receipt : Receipt) : Prop where
  unmarked : row.receipt = none
  state : row.state ∉ [StageState.complete, .blocked, .failed, .inconclusive]
  input : ∀ input, row.stageInput = some input → input = receipt.stageInput
  data : ∀ key ∈ row.data.map Prod.fst, key ∈ receipt.data.map Prod.fst

/-- A row in memory, after `reconcile`. -/
structure Merged : Prop extends Fit formats stage row where
  agrees : ∀ receipt, Has disk stage.id receipt → Agrees stage row receipt
  unreceipted : (∀ receipt, ¬ Has disk stage.id receipt) → Unreceipted plan disk stage row

structure Current : Prop extends Fit formats stage row where
  agrees : ∀ receipt, Has disk stage.id receipt → Agrees stage row receipt ∨ Lagging row receipt
  unreceipted : (∀ receipt, ¬ Has disk stage.id receipt) → Unreceipted plan disk stage row

end

section

variable {formats : Formats} {plan : Plan} {disk : Disk} {rows : Rows} {stage : Stage}

theorem sha_some {input : String} {field : String} (valid : isSha input = true) :
    sha (some input) field = .ok input := by
  rw [sha, if_pos valid]

theorem sha_ok {value : Option String} {field input : String}
    (passed : sha value field = .ok input) : value = some input ∧ isSha input = true := by
  unfold sha at passed
  split at passed
  next text =>
    split at passed
    next valid =>
      cases passed
      exact ⟨rfl, valid⟩
    next => cases passed
  next => cases passed

theorem validateRow_ok {row : Row} {expected : Entry} :
    validateRow formats row expected = .ok () ↔ row.entry = expected ∧
      row.outputs.forM (validateOutput formats expected.id) = .ok () ∧
        (¬ ∃ input ∈ row.stageInput, isSha input = false) ∧
          ¬ (row.receipt.isSome ∧
            row.receipt ≠ some (receiptPath expected.id (row.stageInput.getD "None"))) ∧
            (¬ ∃ verifiedAt ∈ row.verifiedAt, formats.utc verifiedAt = false) ∧
              ¬ (row.verifiedAt.isSome ∧ row.verification = false) ∧
                ¬ (row.verification ∧ row.verifiedAt = none) := by
  unfold validateRow
  rw [refuseIf_bind_eq_ok, ne_eq, not_not]
  refine and_congr_right fun _ => ⟨fun valid => ?_, fun ⟨outputs, valid⟩ => ?_⟩
  · obtain ⟨_, outputs, valid⟩ := bind_eq_ok valid
    exact ⟨outputs, by simpa only [refuseIf_bind_eq_ok, refuseIf_ok] using valid⟩
  · rw [outputs]
    change (do
      refuseIf _ _
      refuseIf _ _
      refuseIf _ _
      refuseIf _ _
      refuseIf _ _) = _
    simpa only [refuseIf_bind_eq_ok, refuseIf_ok] using valid

theorem Fit.sha {row : Row} (fit : Fit formats stage row) {input : String}
    (given : row.stageInput = some input) : isSha input = true := by
  obtain ⟨_, _, sound, _⟩ := validateRow_ok.mp fit.valid
  cases checked : isSha input with
  | true => rfl
  | false => exact absurd ⟨input, given, checked⟩ sound

theorem compareCommitted_ok {row previous : Row} :
    compareCommitted row previous = .ok () ↔
      row.state = previous.state ∧ row.outcome = previous.outcome ∧
        row.reason.getD "" = previous.reason.getD "" ∧
          row.deficits.getD [] = previous.deficits.getD [] ∧ row.outputs = previous.outputs ∧
            row.availability.Same previous.availability ∧
              row.observations = previous.observations ∧ row.data.Same previous.data := by
  simp only [compareCommitted, refuseIf_bind_eq_ok, refuseIf_ok, ne_eq, not_not]

theorem requirement_iff {name : String} {dependency : Stage} (listed : dependency ∈ plan.stages)
    (named : dependency.id = name) (merged : Merged formats plan disk dependency (rows name))
    {requirement' : Requirement} :
    requirement formats plan rows name = .ok requirement' ↔ Completes disk name requirement' := by
  subst named
  unfold requirement
  rw [Plan.found listed]
  dsimp only [Option.elim]
  constructor
  · intro returned
    obtain ⟨input, hashed, returned⟩ := bind_eq_ok returned
    obtain ⟨_, _, returned⟩ := bind_eq_ok returned
    obtain ⟨complete, returned⟩ := refuseIf_bind_eq_ok.mp returned
    have complete := not_not.mp complete
    by_cases absent : ∀ receipt, ¬ Has disk dependency.id receipt
    · exact absurd complete (merged.unreceipted absent).incomplete
    · obtain ⟨receipt, has⟩ := not_forall_not.mp absent
      have agrees := merged.agrees receipt has
      have compared := compareCommitted_ok.mp agrees.compared
      refine ⟨receipt, has, compared.1.symm.trans complete, ?_⟩
      have same := (sha_ok hashed).1
      rw [agrees.stageInput] at same
      rw [← Except.ok.inj returned, ← Option.some.inj same, compared.2.2.2.2.1]
      rfl
  · rintro ⟨receipt, has, complete, rfl⟩
    have agrees := merged.agrees receipt has
    have compared := compareCommitted_ok.mp agrees.compared
    rw [agrees.stageInput, sha_some (merged.toFit.sha agrees.stageInput)]
    change (validateRow formats (rows dependency.id) dependency.toEntry >>= _) = _
    rw [merged.valid]
    have passes : ¬ (rows dependency.id).state ≠ .complete :=
      not_not.mpr (compared.1.trans complete)
    refine (refuseIf_bind passes).trans ?_
    rw [compared.2.2.2.2.1]
    rfl

theorem inputSha_iff (merged : ∀ name ∈ stage.requires, ∃ dependency ∈ plan.stages,
      dependency.id = name ∧ Merged formats plan disk dependency (rows name)) {input : String} :
    inputSha formats plan stage rows = .ok input ↔ InputOf plan disk stage input := by
  have each : ∀ requirements, List.Forall₂ (fun name found =>
        requirement formats plan rows name = .ok found)
      (stage.requires.insertionSort (· ≤ ·)) requirements ↔
        List.Forall₂ (Completes disk) (stage.requires.insertionSort (· ≤ ·)) requirements := by
    intro requirements
    have listed : ∀ name ∈ stage.requires.insertionSort (· ≤ ·), ∃ dependency ∈ plan.stages,
        dependency.id = name ∧ Merged formats plan disk dependency (rows name) :=
      fun name member => merged name ((List.mem_insertionSort _).mp member)
    generalize stage.requires.insertionSort (· ≤ ·) = names at listed ⊢
    induction names generalizing requirements with
    | nil => rw [List.forall₂_nil_left_iff, List.forall₂_nil_left_iff]
    | cons name names ih =>
      obtain ⟨dependency, known, named, row⟩ := listed name List.mem_cons_self
      rw [List.forall₂_cons_left_iff, List.forall₂_cons_left_iff]
      simp only [requirement_iff known named row,
        ih _ fun other later => listed other (List.mem_cons_of_mem _ later)]
  unfold inputSha
  constructor
  · intro returned
    obtain ⟨requirements, found, returned⟩ := bind_eq_ok returned
    exact ⟨requirements, (each requirements).mp (mapM_eq_ok.mp found),
      (Except.ok.inj returned).symm⟩
  · rintro ⟨requirements, complete, rfl⟩
    rw [mapM_eq_ok.mpr ((each requirements).mpr complete)]
    rfl

end

section

variable {formats : Formats} {plan : Plan} {disk : Disk}

/-- A file and the record that `reconcile` makes of it. -/
def Records (plan : Plan) (file : File) (record : String × Row) : Prop :=
  ∃ stage ∈ plan.stages, ∃ receipt, file = ⟨stage.id, .receipt receipt.stageInput receipt⟩ ∧
    record = (stage.id, receiptRow stage receipt.stageInput receipt)

theorem discover_records {files : List File} {found : List (String × Row)}
    (receipts : ∀ file ∈ files, ∃ stage ∈ plan.stages, ∃ receipt,
      file = ⟨stage.id, .receipt receipt.stageInput receipt⟩ ∧
        readReceipt formats stage receipt.stageInput receipt =
          .ok (receiptRow stage receipt.stageInput receipt))
    (single : (found.map (·.1) ++ files.map (·.stage)).Nodup) :
    ∃ records, discover formats plan files found = .ok (found ++ records) ∧
      List.Forall₂ (Records plan) files records := by
  induction files generalizing found with
  | nil => exact ⟨[], by rw [discover, List.append_nil], .nil⟩
  | cons file files ih =>
    obtain ⟨stage, listed, receipt, rfl, read⟩ := receipts _ List.mem_cons_self
    have apart : stage.id ∉ found.map (·.1) := by
      intro member
      exact (List.nodup_append.mp single).2.2 _ member _ List.mem_cons_self rfl
    have later : ((found ++ [(stage.id, receiptRow stage receipt.stageInput receipt)]).map (·.1) ++
        files.map (·.stage)).Nodup := by
      simpa using single
    obtain ⟨records, returned, each⟩ :=
      ih (fun file member => receipts file (List.mem_cons_of_mem _ member)) later
    refine ⟨_ :: records, ?_, .cons ⟨stage, listed, receipt, rfl, rfl⟩ each⟩
    rw [discover]
    dsimp only
    rw [Plan.found listed]
    dsimp only
    rw [read]
    refine (refuseIf_bind apart).trans ?_
    rw [returned, List.append_assoc]
    rfl

theorem records_lookup {files : List File} {records : List (String × Row)}
    (each : List.Forall₂ (Records plan) files records) (single : (files.map (·.stage)).Nodup)
    {stage : Stage} (listed : stage ∈ plan.stages) {receipt : Receipt}
    (member : ⟨stage.id, .receipt receipt.stageInput receipt⟩ ∈ files) :
    records.lookup stage.id = some (receiptRow stage receipt.stageInput receipt) := by
  induction each with
  | nil => cases member
  | @cons file record files records makes _ ih =>
    obtain ⟨other, known, receipt', rfl, rfl⟩ := makes
    rw [List.map_cons, List.nodup_cons] at single
    obtain same | later := List.mem_cons.mp member
    · obtain ⟨named, content⟩ := File.mk.inj same
      obtain rfl := Plan.same other known listed named
      obtain rfl := (Content.receipt.inj content).2
      rw [List.lookup_cons, beq_self_eq_true]
    · have differs : stage.id ≠ other.id := by
        intro named
        exact single.1 (List.mem_map.mpr ⟨_, later, named⟩)
      rw [List.lookup_cons, beq_false_of_ne differs]
      exact ih single.2 later

theorem records_lookup_none {files : List File} {records : List (String × Row)}
    (each : List.Forall₂ (Records plan) files records) {id : String}
    (absent : ∀ file ∈ files, file.stage ≠ id) : records.lookup id = none := by
  induction each with
  | nil => rfl
  | @cons file record files records makes _ ih =>
    obtain ⟨other, _, receipt, rfl, rfl⟩ := makes
    have differs := (absent _ List.mem_cons_self).symm
    rw [List.lookup_cons, beq_false_of_ne differs]
    exact ih fun file member => absent file (List.mem_cons_of_mem _ member)

theorem discover_published (published : Published formats plan disk) :
    ∃ records, discover formats plan disk.files [] = .ok records ∧
      (∀ stage ∈ plan.stages, ∀ receipt, Has disk stage.id receipt →
        records.lookup stage.id = some (receiptRow stage receipt.stageInput receipt)) ∧
      ∀ stage ∈ plan.stages, (∀ receipt, ¬ Has disk stage.id receipt) →
        records.lookup stage.id = none := by
  obtain ⟨records, returned, each⟩ : ∃ records, discover formats plan disk.files [] =
      .ok ([] ++ records) ∧ List.Forall₂ (Records plan) disk.files records :=
    discover_records published.receipts published.single
  refine ⟨records, returned, fun stage listed receipt => records_lookup each published.single listed,
    fun stage listed absent => records_lookup_none each fun file member named => ?_⟩
  obtain ⟨other, known, receipt, rfl, _⟩ := published.receipts file member
  obtain rfl := Plan.same stage listed known named
  exact absent receipt member

theorem validateRow_congr {row row' : Row} (entry : row'.entry = row.entry)
    (outputs : row'.outputs = row.outputs) (input : row'.stageInput = row.stageInput)
    (receipt : row'.receipt = row.receipt) (verifiedAt : row'.verifiedAt = row.verifiedAt)
    (verification : row'.verification = row.verification) (expected : Entry) :
    validateRow formats row' expected = validateRow formats row expected := by
  unfold validateRow
  rw [entry, outputs, input, receipt, verifiedAt, verification]

theorem read_valid {stage : Stage} {input : String} {receipt : Receipt} {row : Row}
    (read : readReceipt formats stage input receipt = .ok row) :
    Fit formats stage (receiptRow stage input receipt) ∧ receipt.state.Committed := by
  unfold readReceipt at read
  simp only [refuseIf_bind_eq_ok] at read
  obtain ⟨_, state, _, apart, read⟩ := read
  obtain ⟨_, valid, _⟩ := bind_eq_ok read
  refine ⟨⟨valid, fun key member => ?_⟩, not_not.mp state⟩
  exact fun named => apart ⟨key, member, named⟩

theorem merge_agrees {stage : Stage} {receipt : Receipt} {existing : Row}
    (fit : Fit formats stage (receiptRow stage receipt.stageInput receipt))
    (clean : ∀ key ∈ existing.data.map Prod.fst, key ∉ reserved)
    (data : ∀ key ∈ existing.data.map Prod.fst, key ∈ receipt.data.map Prod.fst) :
    Fit formats stage (mergeRow existing (receiptRow stage receipt.stageInput receipt)) ∧
      Agrees stage (mergeRow existing (receiptRow stage receipt.stageInput receipt)) receipt := by
  refine ⟨⟨?_, fun key member => ?_⟩, ?_, rfl, rfl, rfl⟩
  · rw [← fit.valid]
    exact validateRow_congr rfl rfl rfl rfl rfl rfl _
  · rw [mergeRow, List.map_append, List.mem_append] at member
    exact member.elim (fit.clean key) (clean key)
  · exact compareCommitted_ok.mpr ⟨rfl, rfl, rfl, rfl, rfl, Data.Same.refl _, rfl,
      Data.same_append data⟩

theorem lagging_claims {stage : Stage} {row : Row} (row' : Unreceipted plan disk stage row) :
    ¬ claimsReceipt row := by
  rintro (receipt | complete | ⟨failed, given⟩)
  · rw [row'.receipt] at receipt
    cases receipt
  · exact row'.incomplete complete
  · rw [row'.failed failed] at given
    cases given

theorem reconcileStage_merges (published : Published formats plan disk) {stage : Stage}
    (listed : stage ∈ plan.stages) {rows : Rows} (current : Current formats plan disk stage (rows stage.id))
    (merged : ∀ name ∈ stage.requires, ∃ dependency ∈ plan.stages, dependency.id = name ∧
      Merged formats plan disk dependency (rows name)) {records : List (String × Row)}
    (found : ∀ receipt, Has disk stage.id receipt →
      records.lookup stage.id = some (receiptRow stage receipt.stageInput receipt))
    (missing : (∀ receipt, ¬ Has disk stage.id receipt) → records.lookup stage.id = none) :
    ∃ row, reconcileStage formats plan records rows stage = .ok (Function.update rows stage.id row) ∧
      Merged formats plan disk stage row ∧
        ((∀ receipt, ¬ Has disk stage.id receipt) → row = rows stage.id) := by
  unfold reconcileStage
  by_cases absent : ∀ receipt, ¬ Has disk stage.id receipt
  · refine ⟨rows stage.id, ?_, ⟨current.toFit, fun receipt has => absurd has (absent receipt),
      current.unreceipted⟩, fun _ => rfl⟩
    rw [missing absent, Function.update_eq_self]
    exact refuseIf_bind (lagging_claims (current.unreceipted absent))
  · obtain ⟨receipt, has⟩ := not_forall_not.mp absent
    have single : ∀ receipt', Has disk stage.id receipt' → receipt' = receipt :=
      fun _ => published.unique has
    have bound := (inputSha_iff merged).mpr (published.bound stage listed receipt has)
    obtain ⟨fit, _⟩ := read_valid (published.read listed has)
    have agrees := current.agrees receipt has
    have named : ∀ key ∈ (rows stage.id).data.map Prod.fst, key ∈ receipt.data.map Prod.fst := by
      intro key member
      obtain agrees | lagging := agrees
      · exact (compareCommitted_ok.mp agrees.compared).2.2.2.2.2.2.2.keys.mp member
      · exact lagging.data key member
    obtain ⟨fit', agrees'⟩ := merge_agrees fit current.clean named
    refine ⟨_, ?_, ⟨fit', fun receipt' has' => single receipt' has' ▸ agrees',
      fun none => absurd has (none receipt)⟩, fun none => absurd has (none receipt)⟩
    rw [found receipt has]
    dsimp only
    rw [bound]
    have input : ¬ ((rows stage.id).stageInput.isSome ∧
        (rows stage.id).stageInput ≠ (receiptRow stage receipt.stageInput receipt).stageInput) := by
      rintro ⟨given, differs⟩
      obtain agrees | lagging := agrees
      · exact differs agrees.stageInput
      · obtain ⟨input, same⟩ := Option.isSome_iff_exists.mp given
        exact differs (same.trans (congrArg some (lagging.input input same)))
    refine (refuseIf_bind (not_not.mpr rfl)).trans ((refuseIf_bind input).trans ?_)
    obtain agrees | lagging := agrees
    · rw [agrees.receipt, agrees.verifiedAt, agrees.compared]
      rw [if_pos (by simp)]
      exact refuseIf_bind (by simp [receiptRow])
    · rw [lagging.unmarked, if_neg (by simp), if_neg lagging.state]
      rfl

theorem validateIndex_ok {rows : Rows} (fit : ∀ stage ∈ plan.stages, Fit formats stage (rows stage.id)) :
    validateIndex formats plan rows = .ok () :=
  forM_ok fun stage listed => (fit stage listed).valid

theorem reconcile_rest (published : Published formats plan disk) {records : List (String × Row)}
    (found : ∀ stage ∈ plan.stages, ∀ receipt, Has disk stage.id receipt →
      records.lookup stage.id = some (receiptRow stage receipt.stageInput receipt))
    (missing : ∀ stage ∈ plan.stages, (∀ receipt, ¬ Has disk stage.id receipt) →
      records.lookup stage.id = none) (later earlier : List Stage)
    (split : plan.stages = earlier ++ later) (rows : Rows)
    (merged : ∀ stage ∈ earlier, Merged formats plan disk stage (rows stage.id))
    (current : ∀ stage ∈ later, Current formats plan disk stage (rows stage.id)) :
    ∃ rows', later.foldlM (reconcileStage formats plan records) rows = .ok rows' ∧
      ∀ stage ∈ plan.stages, Merged formats plan disk stage (rows' stage.id) ∧
        ((∀ receipt, ¬ Has disk stage.id receipt) → rows' stage.id = rows stage.id) := by
  induction later generalizing earlier rows with
  | nil =>
    rw [List.append_nil] at split
    exact ⟨rows, rfl, fun stage listed => ⟨merged stage (split ▸ listed), fun _ => rfl⟩⟩
  | cons stage later ih =>
    have listed : stage ∈ plan.stages := split ▸ List.mem_append_right _ List.mem_cons_self
    have dependencies : ∀ name ∈ stage.requires, ∃ dependency ∈ plan.stages,
        dependency.id = name ∧ Merged formats plan disk dependency (rows name) := by
      intro name required
      obtain ⟨dependency, before, rfl⟩ :=
        List.mem_map.mp (plan.ordered earlier stage later split name required)
      exact ⟨dependency, split ▸ List.mem_append_left _ before, rfl, merged dependency before⟩
    obtain ⟨row, returned, row', same⟩ := reconcileStage_merges published listed
      (current stage List.mem_cons_self) dependencies (found stage listed) (missing stage listed)
    have apart : ∀ other ∈ plan.stages, other ≠ stage → other.id ≠ stage.id :=
      fun other known differs named => differs (Plan.same stage listed known named)
    have single := plan.unique
    rw [split, List.map_append, List.nodup_append, List.map_cons, List.nodup_cons] at single
    obtain ⟨_, ⟨last, _⟩, first⟩ := single
    have before : ∀ other ∈ earlier, other.id ≠ stage.id := fun other member named =>
      first _ (List.mem_map_of_mem member) _ List.mem_cons_self named
    have after : ∀ other ∈ later, other.id ≠ stage.id := fun other member named =>
      last (named ▸ List.mem_map_of_mem member)
    have merged' : ∀ other ∈ earlier ++ [stage], Merged formats plan disk other
        (Function.update rows stage.id row other.id) := by
      intro other member
      obtain member | member := List.mem_append.mp member
      · rw [Function.update_of_ne (before other member)]
        exact merged other member
      · rw [List.mem_singleton.mp member, Function.update_self]
        exact row'
    have current' : ∀ other ∈ later, Current formats plan disk other
        (Function.update rows stage.id row other.id) := by
      intro other member
      rw [Function.update_of_ne (after other member)]
      exact current other (List.mem_cons_of_mem _ member)
    obtain ⟨rows', returned', each⟩ := ih (earlier ++ [stage])
      (by rw [split, List.append_assoc]; rfl) (Function.update rows stage.id row) merged' current'
    refine ⟨rows', ?_, fun other known => ⟨(each other known).1, fun absent => ?_⟩⟩
    · rw [List.foldlM_cons, returned]
      exact returned'
    · rw [(each other known).2 absent]
      by_cases named : other = stage
      · subst named
        rw [Function.update_self]
        exact same absent
      · rw [Function.update_of_ne (apart other known named)]

theorem reconcile_merges (published : Published formats plan disk) {rows : Rows}
    (current : ∀ stage ∈ plan.stages, Current formats plan disk stage (rows stage.id)) :
    ∃ rows', reconcile formats plan disk rows = .ok rows' ∧
      ∀ stage ∈ plan.stages, Merged formats plan disk stage (rows' stage.id) ∧
        ((∀ receipt, ¬ Has disk stage.id receipt) → rows' stage.id = rows stage.id) := by
  unfold reconcile
  rw [validateIndex_ok fun stage listed => (current stage listed).toFit]
  change ∃ rows', reconcileReceipts formats plan disk rows = _ ∧ _
  unfold reconcileReceipts
  cases stored : disk.receipts with
  | none =>
    have absent : ∀ id receipt, ¬ Has disk id receipt := by
      intro id receipt has
      rw [Has, Disk.files, stored] at has
      cases has
    refine ⟨rows, ?_, fun stage listed => ⟨⟨(current stage listed).toFit,
      fun receipt has => absurd has (absent _ receipt), (current stage listed).unreceipted⟩,
        fun _ => rfl⟩⟩
    have unclaimed : ∀ stage ∈ plan.stages, ¬ ((rows stage.id).receipt.isSome ∨
        (rows stage.id).state ∈ [StageState.complete, .failed, .inconclusive] ∧
          (rows stage.id).stageInput.isSome) := by
      intro stage listed claims
      have row := (current stage listed).unreceipted (absent stage.id)
      obtain receipt | ⟨state, given⟩ := claims
      · rw [row.receipt] at receipt
        cases receipt
      · obtain complete | failed := List.mem_cons.mp state
        · exact row.incomplete complete
        · rw [row.failed failed] at given
          cases given
    dsimp only
    rw [forM_ok fun stage listed => refuseIf_ok.mpr (unclaimed stage listed)]
    rfl
  | some files =>
    have same : disk.files = files := by rw [Disk.files, stored]; rfl
    obtain ⟨records, returned, found, missing⟩ := discover_published published
    rw [same] at returned
    obtain ⟨rows', folded, each⟩ := reconcile_rest published found missing plan.stages []
      (List.nil_append _).symm rows (fun _ member => by cases member) current
    exact ⟨rows', by dsimp only; rw [returned]; exact folded, each⟩

end

end SparseLab.Campaign
