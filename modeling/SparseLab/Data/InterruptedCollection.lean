import SparseLab.Data.ParallelCollection
import SparseLab.Data.Recoverability

/-! Collections that are interrupted and resumed return what the reference does. -/

namespace SparseLab.Data

open Library

namespace Preparation

variable {preparation : Preparation} {disk : Disk} {opening : Actions} {session reached : Session}
  {start journal : Journal} {groups : Split → List (List Record)} {pending : Split → List Record}
  {shape : Shape}

def appendable (preparation : Preparation) (split : Split) : List Record :=
  match preparation.eos with
  | none => []
  | some eos => preparation.selectable split eos true

theorem appendable_eq {eos : Int} (token : preparation.eos = some eos) :
    preparation.appendable = (preparation.selectable · eos true) := by
  funext split
  rw [appendable, token]

def referenceSplits (preparation : Preparation) : Except String (Split → SplitChunks.Finished) := do
  let train ← preparation.reference .train true
  let validation ← preparation.reference .validation true
  pure fun
    | .train => train
    | .validation => validation

section

variable {settings : Settings} {operations works : List Operation} {split : Split}

theorem performEach_live (live : Live settings session start groups pending)
    (performed : session.performEach settings operations = .ok reached) :
    ∃ groups pending, Live settings reached (start.afterAll operations) groups pending := by
  induction operations generalizing session start groups pending with
  | nil =>
    obtain rfl := Except.ok.inj performed
    exact ⟨groups, pending, live⟩
  | cons operation operations ih =>
    obtain ⟨⟨actions, next⟩, first, rest⟩ := bind_eq_ok performed
    obtain ⟨_, _, advanced, _⟩ := live.perform first
    exact ih advanced rest

structure Spares (before after : Session) (start journal : Journal) : Prop where
  records : journal.records = start.records
  works : ∀ split sequence work, before.works split sequence = some work →
    after.works split sequence = some work ∧
      journal.batches split sequence = start.batches split sequence

section

variable (live : Live settings session start groups pending)

include live

theorem writeWork_apart {sequence other : Nat}
    {batch : List Record} {result : Actions × SplitChunks} {also : Split} {work : SplitChunks}
    (written : SplitChunks.writeWork settings session.disk split sequence batch = .ok result)
    (present : session.works also other = some work) : (also, other) ≠ (split, sequence) := by
  intro same
  obtain ⟨rfl, rfl⟩ := Prod.mk.inj same
  have marker := (live.works also other work present).marker
  rw [read_of_not_occupied (writeWork_ok written).1 rfl] at marker
  cases marker

theorem scratch_spares {operation : Operation}
    {actions : Actions} (alone : scratch operation = true)
    (performed : session.perform settings operation = .ok (actions, reached)) :
    Spares session reached start (start.after operation) := by
  cases operation with
  | work split sequence batch =>
    obtain ⟨result, written, same⟩ := bind_eq_ok performed
    obtain ⟨_, rfl⟩ := Prod.mk.inj (Except.ok.inj same)
    refine ⟨rfl, fun also other work present => ?_⟩
    have different := writeWork_apart live written present
    exact ⟨(works_withWork different).trans present, batches_work start split sequence batch
      different⟩
  | abandon split sequence batch progress =>
    obtain ⟨result, written, same⟩ := bind_eq_ok performed
    obtain ⟨_, rfl⟩ := Prod.mk.inj (Except.ok.inj same)
    refine ⟨rfl, fun also other work present => ⟨?_, rfl⟩⟩
    exact (works_withWork (writeWork_apart live written present)).trans present
  | append | sealChunk | finish | adopt => cases alone

theorem works_spare (alone : ∀ work ∈ works, scratch work = true)
    (performed : session.performEach settings works = .ok reached) :
    Spares session reached start (start.afterAll works) := by
  induction works generalizing session start groups pending with
  | nil =>
    obtain rfl := Except.ok.inj performed
    exact ⟨rfl, fun _ _ _ present => ⟨present, rfl⟩⟩
  | cons work works ih =>
    obtain ⟨⟨actions, next⟩, first, rest⟩ := bind_eq_ok performed
    obtain ⟨_, _, advanced, _⟩ := live.perform first
    have here := scratch_spares live (alone work List.mem_cons_self) first
    have later := ih advanced (fun other member => alone other (List.mem_cons_of_mem _ member)) rest
    refine ⟨later.records.trans here.records, fun split sequence done present => ?_⟩
    obtain ⟨kept, batch⟩ := here.works split sequence done present
    obtain ⟨still, same⟩ := later.works split sequence done kept
    exact ⟨still, same.trans batch⟩

end

theorem Spares.after {before : Session} (spares : Spares before reached start journal)
    {operation : Operation} {performed : Actions × Session}
    (possible : before.perform settings operation = .ok performed) :
    (journal.after operation).records = (start.after operation).records := by
  cases operation with
  | adopt split sequence index =>
    rw [Session.perform] at possible
    cases present : before.works split sequence with
    | none =>
      rw [present] at possible
      cases possible
    | some work =>
      have same := (spares.works split sequence work present).2
      simp only [Journal.after, Journal.append, spares.records, same]
  | append split index record => simp only [Journal.after, Journal.append, spares.records]
  | work | abandon | sealChunk | finish => exact spares.records

theorem performEach_take {after : Session}
    (performed : session.performEach settings operations = .ok after) (count : Nat) :
    ∃ middle, session.performEach settings (operations.take count) = .ok middle ∧
      ∀ operation, operations[count]? = some operation →
        ∃ next, middle.perform settings operation = .ok next := by
  have whole := performed
  rw [← List.take_append_drop count operations, Session.performEach_append] at whole
  obtain ⟨middle, first, rest⟩ := bind_eq_ok whole
  refine ⟨middle, first, fun operation found => ?_⟩
  obtain ⟨inside, rfl⟩ := List.getElem?_eq_some_iff.mp found
  rw [List.drop_eq_getElem_cons inside] at rest
  obtain ⟨next, possible, _⟩ := bind_eq_ok rest
  exact ⟨next, possible⟩

end

theorem opened_ready (sound : Sound preparation.settings (.stopped disk false)
      { records := preparation.appendable })
    (opened : Session.openAt preparation.settings disk = .ok (opening, session)) :
    ∃ start, (∀ split, Ready session split) ∧
      Kept preparation.settings preparation.appendable session start { session } start := by
  obtain ⟨groups, live, empty⟩ := sound.begins opened
  refine ⟨_, fun split => ⟨?_, ?_⟩, Kept.begin live fun split => List.take_prefix _ _⟩
  · rw [Settled, (live.tracks split).counted]
    rfl
  · intro number path inside
    apply empty
    rw [inside]
    exact fun root => by cases root

theorem operations_kept (shape : Shape) (ready : ∀ split, Ready session split)
    (kept : Kept preparation.settings preparation.appendable session start { session } start) :
    ∃ ledger journal, operations (preparation.collectSplits shape { session }) = ledger.log ∧
      Kept preparation.settings preparation.appendable session start ledger journal := by
  cases token : preparation.eos with
  | none =>
    refine ⟨{ session }, start, ?_, kept⟩
    rw [collectSplits, collectSplit]
    cases shape.workers <;> simp only [collectStreaming, collectParallelStream, token] <;> rfl
  | some eos =>
    rw [appendable_eq token] at kept ⊢
    have collects : Outcome _ _ (preparation.collectSplits shape { session }) :=
      collectSplits_collects kept token ready
    cases collected : preparation.collectSplits shape { session } with
    | error failure =>
      rw [collected] at collects
      obtain ⟨_, journal, keeps⟩ := collects
      exact ⟨failure.2, journal, rfl, keeps⟩
    | ok result =>
      rw [collected] at collects
      obtain ⟨journal, keeps, _⟩ := collects
      exact ⟨result.1, journal, rfl, keeps⟩

theorem Interrupted.sound (interrupted : preparation.Interrupted disk) :
    Sound preparation.settings (.stopped disk false) { records := preparation.appendable } := by
  induction interrupted with
  | absent => exact .inl fun path => AList.lookup_empty path
  | opening cut _ constructed ih => exact ih.openingCrash constructed cut
  | collecting shape count works cut _ opened alone performed source stopped ih =>
    obtain ⟨start, ready, begun⟩ := opened_ready ih opened
    obtain ⟨ledger, journal, log, kept⟩ := operations_kept shape ready begun
    obtain ⟨groups, pending, live⟩ := begun.live
    rw [log] at performed source
    rw [Session.performEach_append] at performed
    obtain ⟨middle, first, batches⟩ := bind_eq_ok performed
    obtain ⟨again, same, possible⟩ := performEach_take kept.performed count
    obtain rfl : middle = again := Except.ok.inj (first.symm.trans same)
    obtain ⟨_, _, middleLive⟩ := performEach_live live first
    have spares := works_spare middleLive alone batches
    obtain ⟨groups', pending', reachedLive⟩ := performEach_live middleLive batches
    obtain ⟨after, unsealed, advanced, _, cuts⟩ := reachedLive.perform stopped
    obtain ⟨sealed', between, holds⟩ := cuts cut
    refine .inr (.inr ⟨sealed', holds, fun split => (prefix_flatten (between split).2).trans ?_⟩)
    have part := List.prefix_append (after split).flatten (unsealed split)
    rw [← advanced.records split] at part
    apply part.trans
    rcases source with found | scratched
    · obtain ⟨inside, rfl⟩ := List.getElem?_eq_some_iff.mp found
      obtain ⟨next, could⟩ := possible _ found
      rw [spares.after could, ← Journal.afterAll_append, List.take_append_getElem]
      exact kept.within (count + 1) split
    · rw [(scratch_spares reachedLive scratched stopped).records, spares.records]
      exact kept.within count split

theorem referenceSplits_iff {results : Split → SplitChunks.Finished} :
    preparation.referenceSplits = .ok results ↔ ∃ (eos : Int) (records : Split → List Record),
      preparation.eos = some eos ∧
      (∀ split, preparation.selected split eos true = .ok (records split)) ∧
        results = fun split => finishedOf preparation.settings (records split) := by
  cases token : preparation.eos with
  | none =>
    simp only [referenceSplits, reference, token, reduceCtorEq, false_and, exists_false, iff_false]
    exact fun returned => by cases returned
  | some eos =>
    rw [referenceSplits]
    constructor
    · intro returned
      obtain ⟨train, first, rest⟩ := bind_eq_ok returned
      obtain ⟨validation, second, same⟩ := bind_eq_ok rest
      obtain ⟨trained, trainEq, rfl⟩ := (reference_ok token).mp first
      obtain ⟨validated, validationEq, rfl⟩ := (reference_ok token).mp second
      refine ⟨eos, fun | .train => trained | .validation => validated, rfl, ?_, ?_⟩
      · intro split
        cases split <;> assumption
      · rw [← Except.ok.inj same]
        funext split
        cases split <;> rfl
    · rintro ⟨other, records, same, selected, rfl⟩
      cases same
      rw [(reference_ok token).mpr ⟨_, selected .train, rfl⟩,
        (reference_ok token).mpr ⟨_, selected .validation, rfl⟩]
      apply congrArg Except.ok
      funext split
      cases split <;> rfl

theorem opened_resumes (interrupted : preparation.Interrupted disk)
    (opened : Session.openAt preparation.settings disk = .ok (opening, session)) :
    Outcome (fun results => preparation.referenceSplits = .ok results)
      (fun _ => Sure preparation shape → preparation.referenceSplits.toOption = none)
      (preparation.resume shape disk) := by
  obtain ⟨start, ready, kept⟩ := opened_ready interrupted.sound opened
  simp only [resume, opened, bind, Except.bind]
  cases token : preparation.eos with
  | none =>
    have nothing : preparation.referenceSplits.toOption = none := by
      simp only [referenceSplits, reference, token]
      rfl
    simp only [collectSplits, collectSplit]
    cases shape.workers with
    | none =>
      simp only [collectStreaming, token]
      exact fun _ => nothing
    | some workers =>
      simp only [collectParallelStream, token]
      exact fun _ => nothing
  | some eos =>
    rw [appendable_eq token] at kept
    have collects : Outcome _ _ (preparation.collectSplits shape { session }) :=
      collectSplits_collects kept token ready
    cases collected : preparation.collectSplits shape { session } with
    | error failure =>
      rw [collected] at collects
      intro sure
      obtain ⟨split, failure, refused⟩ := collects.1 sure
      cases succeeded : preparation.referenceSplits with
      | error _ => rfl
      | ok results =>
        obtain ⟨other, records, same, selected, _⟩ := referenceSplits_iff.mp succeeded
        cases token.symm.trans same
        cases refused.symm.trans (selected split)
    | ok result =>
      rw [collected] at collects
      obtain ⟨journal, _, same⟩ := collects
      exact referenceSplits_iff.mpr ⟨eos, journal.records, token, fun split => (same split).1,
        funext fun split => (same split).2⟩

theorem opened_agrees (interrupted : preparation.Interrupted disk) (sure : Sure preparation shape)
    (opened : Session.openAt preparation.settings disk = .ok (opening, session)) :
    (preparation.resume shape disk).toOption = preparation.referenceSplits.toOption := by
  have outcome : Outcome _ _ (preparation.resume shape disk) := opened_resumes interrupted opened
  cases returned : preparation.resume shape disk with
  | error failure =>
    rw [returned] at outcome
    exact (outcome sure).symm
  | ok results =>
    rw [returned] at outcome
    rw [outcome]

theorem construct_refuses_resume {failure : String} (shape : Shape)
    (refused : construct preparation.settings disk = .error failure) :
    (preparation.resume shape disk).toOption = none := by
  simp only [resume, Session.openAt, refused, bind, Except.bind]
  rfl

section

def singlePreparation : Preparation where
  settings := tokenSettings
  encode := fun _ => [1]
  idToToken := fun _ => none
  eos := some 0
  byteTable := none
  byteTokenBound := true
  source := fun _ => .document "a" .finished
  selectedDocuments := fun _ => 1
  maxTokens := fun _ => 2
  batchSourceBytes := 1
  arrays := rfl
  batchSourceBytesBounds := by decide

def singleShape : Shape where
  batchDocuments := 1
  workers := none
  batchDocumentsBounds := by decide

theorem singlePreparation_reference :
    ∃ results, singlePreparation.referenceSplits = .ok results := by
  have returned (split : Split) :
      ∃ records, singlePreparation.selected split 0 true = .ok records := by
    cases split <;> exact ⟨_, rfl⟩
  choose records selected using returned
  exact ⟨_, referenceSplits_iff.mpr ⟨0, records, rfl, selected, rfl⟩⟩

end

end Preparation

end SparseLab.Data
