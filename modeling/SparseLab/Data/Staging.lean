import Mathlib.Data.List.Dedup
import Mathlib.Data.String.Basic
import SparseLab.Library.Numerals
import SparseLab.Library.Volumes

/-!
The files of a staging directory, from `data/preparation_chunks.py`. An interrupted write leaves
`torn`. Symbolic links and foreign file kinds are left out.
-/

namespace SparseLab.Data

open Library

inductive Split
  | train | validation
  deriving DecidableEq

inductive ArrayName
  | ids | byteAddresses | supervision
  deriving DecidableEq

inductive Part
  | receipt | receiptTmp | raw (array : ArrayName) | rawTmp (array : ArrayName)
  deriving DecidableEq

inductive Name
  | staging | stagingTmp | manifest | manifestTmp
  | chunk (split : Split) (index : Nat) (part : Part)
  | final (split : Split) (array : ArrayName)
  | finalTmp (split : Split) (array : ArrayName)
  | other (text : List Char)
  deriving DecidableEq

inductive Place
  | root | work (split : Split) (sequence : Nat)
  deriving DecidableEq

inductive Path
  | directory (place : Place)
  | entry (place : Place) (name : Name)
  deriving DecidableEq

def Split.chars : Split → List Char
  | train => "train".toList
  | validation => "validation".toList

def ArrayName.chars : ArrayName → List Char
  | ids => "ids".toList
  | byteAddresses => "byte_addresses".toList
  | supervision => "supervision".toList

def Part.chars : Part → List Char
  | receipt => "receipt.json".toList
  | receiptTmp => "receipt.json.tmp".toList
  | raw array => array.chars ++ ".raw".toList
  | rawTmp array => array.chars ++ ".raw.tmp".toList

/-- `'' if name == 'ids' else '_' + name` after the split's name. -/
def finalStem (split : Split) (array : ArrayName) : List Char :=
  if array = .ids then split.chars else split.chars ++ ['_'] ++ array.chars

namespace Name

def chars : Name → List Char
  | staging => "staging.json".toList
  | stagingTmp => "staging.json.tmp".toList
  | manifest => "manifest.json".toList
  | manifestTmp => "manifest.json.tmp".toList
  | chunk split index part =>
    (split.chars ++ ['-']) ++ (zeroPadded 6 index ++ '.' :: part.chars)
  | final split array => finalStem split array ++ ".npy".toList
  | finalTmp split array => finalStem split array ++ ".tmp.npy".toList
  | other text => text

theorem chars_chunk (split : Split) (index : Nat) (part : Part) :
    (chunk split index part).chars =
      (split.chars ++ ['-']) ++ (zeroPadded 6 index ++ '.' :: part.chars) := rfl

def text (name : Name) : String :=
  String.ofList name.chars

end Name

structure Counters where
  acquiredDocuments : Nat := 0
  retainedDocuments : Nat := 0
  skippedDocuments : Nat := 0
  truncatedDocuments : Nat := 0
  outputTokens : Nat := 0
  deriving DecidableEq

namespace Counters

def add (first second : Counters) : Counters where
  acquiredDocuments := first.acquiredDocuments + second.acquiredDocuments
  retainedDocuments := first.retainedDocuments + second.retainedDocuments
  skippedDocuments := first.skippedDocuments + second.skippedDocuments
  truncatedDocuments := first.truncatedDocuments + second.truncatedDocuments
  outputTokens := first.outputTokens + second.outputTokens

end Counters

abbrev Sha256 := { text : String // text.length = 64 }

structure RawMetadata where
  length : Nat
  sha256 : Sha256
  deriving DecidableEq

structure Receipt where
  split : Split
  index : Nat
  firstAcquiredIndex : Nat
  counters : Counters
  arrays : List (ArrayName × RawMetadata)
  deriving DecidableEq

inductive Owner
  | preparation (cacheIdentity binding : String)
  | work (parent : Owner) (split : Split) (sequence : Nat)
  deriving DecidableEq

structure FileProof where
  sizeBytes : Nat
  sha256 : Sha256
  deriving DecidableEq

structure Cleanup where
  manifestSha256 : Sha256
  files : List (Name × FileProof)
  deriving DecidableEq

structure ArrayMetadata where
  split : Split
  array : ArrayName
  tokens : Nat
  sizeBytes : Nat
  sha256 : Sha256
  deriving DecidableEq

structure Manifest where
  cacheIdentity : String
  counters : Split → Counters
  arrays : List ArrayMetadata

inductive File
  | directory | torn
  | owner (owner : Owner) (cleanup : Option Cleanup)
  | receipt (payload : Receipt)
  | raw (array : ArrayName) (values : List Int)
  | array (array : ArrayName) (values : List Int)
  | manifest (manifest : Manifest) (manifestSha256 : Sha256)

abbrev Disk := Volume Path File

structure Settings where
  cacheIdentity : String
  binding : String
  arrays : List ArrayName
  itemsize : ArrayName → Nat
  recordLimit : Nat := 4096
  rawByteLimit : Nat := 16777216
  sha256 : File → Sha256
  signManifest : Manifest → Sha256
  documentSize : File → Nat
  arraysNodup : arrays.Nodup
  idsMem : .ids ∈ arrays
  itemsizePos : ∀ array, 0 < itemsize array
  recordLimitPos : 0 < recordLimit
  rawByteLimitPos : 0 < rawByteLimit

def Settings.owner (settings : Settings) : Owner :=
  .preparation settings.cacheIdentity settings.binding

abbrev Record := Option (ArrayName → List Int)

def names (disk : Disk) (place : Place) : List Name :=
  disk.keys.filterMap fun
    | .entry parent name => if parent = place then some name else none
    | .directory _ => none

theorem mem_names {disk : Disk} {place : Place} {name : Name} :
    name ∈ names disk place ↔ disk.read (.entry place name) ≠ none := by
  have present : disk.read (.entry place name) ≠ none ↔ Path.entry place name ∈ disk.keys := by
    rw [← AList.mem_keys, ← AList.lookup_isSome, Option.isSome_iff_ne_none]
    rfl
  rw [present, names, List.mem_filterMap]
  constructor
  · rintro ⟨path, member, matched⟩
    cases path with
    | directory parent => simp at matched
    | entry parent found =>
      simp only [Option.ite_none_right_eq_some, Option.some.injEq] at matched
      obtain ⟨rfl, rfl⟩ := matched
      exact member
  · intro member
    exact ⟨_, member, by simp⟩

theorem nodup_names (disk : Disk) (place : Place) : (names disk place).Nodup := by
  apply List.Nodup.filterMap _ disk.keys_nodup
  intro first second name inFirst inSecond
  cases first <;> cases second <;> simp at inFirst inSecond
  obtain ⟨rfl, rfl⟩ := inFirst
  obtain ⟨rfl, rfl⟩ := inSecond
  rfl

def Path.place : Path → Place
  | .directory place => place
  | .entry place _ => place

def occupied (disk : Disk) (place : Place) : Bool :=
  disk.keys.any fun path => path.place = place

theorem read_of_not_occupied {disk : Disk} {place : Place} (free : occupied disk place = false)
    {path : Path} (inside : path.place = place) : disk.read path = none := by
  by_contra present
  have member : path ∈ disk.keys := by
    rw [← AList.mem_keys, ← AList.lookup_isSome]
    exact Option.isSome_iff_ne_none.mpr present
  have found : occupied disk place = true := by
    rw [occupied, List.any_eq_true]
    exact ⟨path, member, by simpa using inside⟩
  rw [free] at found
  exact Bool.false_ne_true found

def works (disk : Disk) : List Place :=
  ((disk.keys.map Path.place).filter (· ≠ .root)).dedup

theorem mem_works {disk : Disk} {place : Place} :
    place ∈ works disk ↔ place ≠ .root ∧ ∃ path, path.place = place ∧ disk.read path ≠ none := by
  have present : ∀ path : Path, path ∈ disk.keys ↔ disk.read path ≠ none := by
    intro path
    rw [← AList.mem_keys, ← AList.lookup_isSome, Option.isSome_iff_ne_none]
    rfl
  rw [works, List.mem_dedup, List.mem_filter, List.mem_map]
  constructor
  · rintro ⟨⟨path, member, rfl⟩, notRoot⟩
    exact ⟨by simpa using notRoot, path, rfl, (present path).mp member⟩
  · rintro ⟨notRoot, path, rfl, found⟩
    exact ⟨⟨path, (present path).mpr found, rfl⟩, by simpa using notRoot⟩

theorem works_eq_nil {disk : Disk} :
    works disk = [] ↔ ∀ path : Path, path.place ≠ .root → disk.read path = none := by
  rw [List.eq_nil_iff_forall_not_mem]
  constructor
  · intro none path outside
    by_contra present
    exact none path.place (mem_works.mpr ⟨outside, path, rfl, present⟩)
  · intro none place member
    obtain ⟨outside, path, rfl, present⟩ := mem_works.mp member
    exact present (none path outside)

end SparseLab.Data
