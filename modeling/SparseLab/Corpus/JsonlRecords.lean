import SparseLab.Corpus.SourceRecords

/-! JSONL files with a declared digest, from `corpus/jsonl_records.py`. -/

namespace SparseLab.Corpus.Records

open Library Cleaning

inductive ReadFailure
  | record (failure : Failure) | digestMismatch
deriving DecidableEq

def ReadFailure.text (source : String) : ReadFailure → Option String
  | record failure => failure.text source
  | digestMismatch => "JSONL source SHA-256 mismatch"

structure Reading where
  values : List Json
  failure : Option ReadFailure

def maxRecordBytes : Nat := 8 * 1024 ^ 2

section

variable (routines : Routines)

def readLines (cap : Nat) (expectedSha256 : Text) (contents : Bytes) : Nat → List Bytes → Reading
  | _, [] =>
    { values := []
      failure :=
        if text (routines.sha256 contents) = expectedSha256 then none else some .digestMismatch }
  | physicalLine, raw :: lines =>
    if cap < raw.length then { values := [], failure := some (.record .capExceeded) }
    else if blankBytes raw then readLines cap expectedSha256 contents (physicalLine + 1) lines
    else
      match parseRow routines { raw := raw, physicalLine := physicalLine, ordinal := 0 } with
      | .error failure => { values := [], failure := some (.record failure) }
      | .ok value =>
        let later := readLines cap expectedSha256 contents (physicalLine + 1) lines
        { later with values := value :: later.values }

def recordsFromPath (cap : Nat) (expectedSha256 : Text) (contents : Bytes) : Reading :=
  readLines routines cap expectedSha256 contents 1 (physicalLines contents)

theorem readLines_sha256 {cap : Nat} {expectedSha256 : Text} {contents : Bytes}
    {physicalLine : Nat} {lines : List Bytes}
    (complete : (readLines routines cap expectedSha256 contents physicalLine lines).failure = none) :
    text (routines.sha256 contents) = expectedSha256 := by
  induction lines generalizing physicalLine with
  | nil =>
    by_contra differs
    rw [readLines, if_neg differs] at complete
    cases complete
  | cons raw lines ih =>
    rw [readLines] at complete
    by_cases long : cap < raw.length
    · rw [if_pos long] at complete
      cases complete
    · rw [if_neg long] at complete
      by_cases empty : blankBytes raw = true
      · rw [if_pos empty] at complete
        exact ih complete
      · rw [if_neg empty] at complete
        cases parsed : parseRow routines
            { raw := raw, physicalLine := physicalLine, ordinal := 0 } with
        | error failure =>
          rw [parsed] at complete
          cases complete
        | ok value =>
          rw [parsed] at complete
          exact ih complete

end

section

def lowerHex (code : Nat) : Bool := (0x30 ≤ code && code ≤ 0x39) || (0x61 ≤ code && code ≤ 0x66)

/-- `re.fullmatch(r"[0-9a-f]{64}", value)` -/
def sha256Hex (value : Text) : Bool := value.length = 64 && value.all lowerHex

end

end SparseLab.Corpus.Records
