import SparseLab.Library.Json
import SparseLab.Library.Outcomes
import SparseLab.Library.Selections

/-! The transfer of one artifact in chunks, from `workers/artifacts.py`. -/

namespace SparseLab.Workers.Transfer

open Library

abbrev Bytes := List UInt8

structure ArtifactIdentity where
  relativePath : Text
  sha256 : Text
  sizeBytes : Nat
deriving DecidableEq

structure Reply where
  result : List (Text × Json)
  attachments : List (Text × Bytes)

def Reply.get (reply : Reply) (key : String) : Option Json := Json.lookup reply.result (text key)

def maxChunk : Nat := 4 * 1024 * 1024

def stream : Nat := 1024 * 1024

def maxAttachmentBytes : Nat := 256 * 1024 ^ 3

def maxAttachments : Nat := 4096

def maxTotalAttachmentBytes : Nat := 1024 ^ 4

structure Floats where
  equals : Text → Int → Bool
  gap : (size : Nat) → (written : Text) → (offset : Nat) → Bool
  truth : Text → Bool

variable (floats : Floats) (sha256 : Bytes → Text)

/-- `value == number` -/
def equalsNumber (value : Option Json) (number : Int) : Bool :=
  match value with
  | some (.bool value) => (if value then 1 else 0) = number
  | some (.int value) => value = number
  | some (.float written) => floats.equals written number
  | _ => false

/-- `size != value - offset` -/
def sizeDiffers (size : Nat) (value : Json) (offset : Nat) : Except String Bool :=
  match value with
  | .bool value => .ok ((size : Int) ≠ (if value then 1 else 0) - offset)
  | .int value => .ok ((size : Int) ≠ value - offset)
  | .float written => .ok !floats.gap size written offset
  | .nonfinite => .ok true
  | _ => .error "unsupported operand type(s) for -"

/-- `bool(value)` -/
def truth (value : Option Json) : Bool :=
  match value with
  | none => false
  | some .null => false
  | some (.bool value) => value
  | some (.int value) => value ≠ 0
  | some (.float written) => floats.truth written
  | some .nonfinite => true
  | some (.str value) => !value.isEmpty
  | some (.list values) => !values.isEmpty
  | some (.dict members) => !members.isEmpty

def present (value : Option Json) : Bool :=
  match value with
  | none => false
  | some .null => false
  | some _ => true

def chunkMismatch : String := "artifact chunk metadata or digest mismatch"

def receive (item : ArtifactIdentity) (offset : Nat) (reply : Reply) :
    Except String (Bytes × Nat) := do
  match reply.attachments with
  | [] => .error "artifact response omitted chunk attachment"
  | (_, attachment) :: _ =>
    refuseIf ((reply.get "file_sha256").bind Json.str? ≠ some item.sha256 ∨
      equalsNumber floats (reply.get "total_length") item.sizeBytes = false ∨
      equalsNumber floats (reply.get "offset") offset = false ∨
      present (reply.get "next_offset") = false ∨
      ((reply.get "chunk_sha256").bind Json.str?).isNone = true) chunkMismatch
    let next := (reply.get "next_offset").getD .null
    let differs ← sizeDiffers floats attachment.length next offset
    refuseIf (differs = true ∨
      (reply.get "chunk_sha256").bind Json.str? ≠ some (sha256 attachment)) chunkMismatch
    match next with
    | .int nextOffset =>
      refuseIf (nextOffset ≤ offset ∨ nextOffset > item.sizeBytes)
        "invalid artifact chunk progress"
      refuseIf (truth floats (reply.get "eof") ≠ decide (nextOffset = item.sizeBytes))
        "artifact EOF marker mismatch"
      .ok (attachment, nextOffset.toNat)
    | _ => .error "invalid artifact chunk progress"

section

variable {floats sha256} {item : ArtifactIdentity} {offset : Nat} {reply : Reply} {chunk : Bytes}
  {next : Nat}

theorem receive_ok (received : receive floats sha256 item offset reply = .ok (chunk, next)) :
    offset < next ∧ next ≤ item.sizeBytes ∧ chunk.length = next - offset := by
  unfold receive at received
  cases attached : reply.attachments with
  | nil =>
    rw [attached] at received
    cases received
  | cons first others =>
    simp only [attached, refuseIf_bind_eq_ok] at received
    obtain ⟨_, received⟩ := received
    obtain ⟨differs, sizes, received⟩ := bind_eq_ok received
    simp only [refuseIf_bind_eq_ok] at received
    obtain ⟨agree, received⟩ := received
    cases answered : (reply.get "next_offset").getD .null with
    | int nextOffset =>
      simp only [answered, refuseIf_bind_eq_ok] at received
      obtain ⟨advances, _, received⟩ := received
      cases received
      simp only [answered, sizeDiffers, Except.ok.injEq] at sizes
      have sameSize : ¬ (first.2.length : Int) ≠ nextOffset - offset := by
        intro different
        rw [decide_eq_true different] at sizes
        exact agree (.inl sizes.symm)
      omega
    | _ =>
      simp only [answered] at received
      cases received

end

/-- The loop of `_download` against a server that answers call by call: the number of calls made,
and what was written. -/
def downloadFrom (server : Nat → Nat → Except String Reply) (item : ArtifactIdentity)
    (calls offset : Nat) (outgoing : Bytes) : Nat × Except String Bytes :=
  if offset < item.sizeBytes then
    match server calls offset with
    | .error failure => (calls + 1, .error failure)
    | .ok reply =>
      match received : receive floats sha256 item offset reply with
      | .error failure => (calls + 1, .error failure)
      | .ok (chunk, next) => downloadFrom server item (calls + 1) next (outgoing ++ chunk)
  else (calls, .ok outgoing)
termination_by item.sizeBytes - offset
decreasing_by
  have advances := receive_ok received
  omega

/-- `_download`: the file it leaves. -/
def download (server : Nat → Nat → Except String Reply) (item : ArtifactIdentity) :
    Except String Bytes := do
  let outgoing ← (downloadFrom floats sha256 server item 0 0 []).2
  refuseIf (sha256 outgoing ≠ item.sha256 ∨ outgoing.length ≠ item.sizeBytes)
    "whole artifact digest mismatch"
  .ok outgoing

/-- `_receipt_items`, after the items that were accepted. -/
def receiptItemsAfter (items : List ArtifactIdentity) (totalBytes : Nat) :
    List ArtifactIdentity → Except String (List ArtifactIdentity)
  | [] => .ok items
  | item :: artifacts => do
      refuseIf (item.sizeBytes > maxAttachmentBytes)
        "receipt artifact size exceeds transfer bounds"
      refuseIf (items.length ≥ maxAttachments ∨
          totalBytes + item.sizeBytes > maxTotalAttachmentBytes)
        "receipt inventory exceeds aggregate transfer bounds"
      refuseIf ((items.any fun other => other.relativePath = item.relativePath) = true)
        "duplicate receipt artifact"
      receiptItemsAfter (items ++ [item]) (totalBytes + item.sizeBytes) artifacts

def receiptItems (artifacts : List ArtifactIdentity) : Except String (List ArtifactIdentity) :=
  receiptItemsAfter [] 0 artifacts

/-- `incoming.read(min(_STREAM, remaining))` -/
def readBlock (content : Bytes) (position remaining : Nat) : Bytes :=
  (content.drop position).take (min stream remaining)

/-- The blocks that `read_artifact_chunk` copies, from a position of the file on. -/
def copyBlocks (content : Bytes) (position remaining : Nat) : Except String Bytes :=
  if remaining = 0 then .ok []
  else if _ : readBlock content position remaining = [] then
    .error "artifact changed or truncated while reading"
  else do
    let rest ← copyBlocks content (position + (readBlock content position remaining).length)
      (remaining - (readBlock content position remaining).length)
    .ok (readBlock content position remaining ++ rest)
termination_by remaining
decreasing_by
  have some := List.length_pos_iff.mpr ‹_›
  omega

/-- `read_artifact_chunk`, where `source` is the file that `_source_for` finds. -/
def readArtifactChunk (receipt : List ArtifactIdentity) (source : Text → Except String Bytes)
    (relativePath : Text) (offset maxBytes : Int) : Except String Reply := do
  refuseIf (offset < 0 ∨ ¬ (1 ≤ maxBytes ∧ maxBytes ≤ maxChunk)) "invalid artifact offset or max_bytes"
  let items ← receiptItems receipt
  match items.find? fun item => item.relativePath = relativePath with
  | none => .error "artifact is not in receipt inventory"
  | some item =>
    refuseIf (offset > item.sizeBytes) "artifact offset is beyond EOF"
    let content ← source relativePath
    refuseIf (content.length ≠ item.sizeBytes) "artifact changed or truncated before reading"
    let chunk ← copyBlocks content offset.toNat
      (min maxBytes.toNat (item.sizeBytes - offset.toNat))
    .ok {
      result := [(text "file_sha256", .str item.sha256), (text "total_length", .int item.sizeBytes),
        (text "offset", .int offset), (text "chunk_sha256", .str (sha256 chunk)),
        (text "next_offset", .int (offset + chunk.length)),
        (text "eof", .bool (offset + chunk.length = item.sizeBytes))]
      attachments := [(text "content", chunk)] }

/-- A chunk size that `read_artifact_chunk` admits. -/
abbrev ChunkSize := { size : Nat // 1 ≤ size ∧ size ≤ maxChunk }

def serve (receipt : List ArtifactIdentity) (source : Text → Except String Bytes)
    (choose : Nat → ChunkSize) (relativePath : Text) (calls offset : Nat) : Except String Reply :=
  readArtifactChunk sha256 receipt source relativePath offset (choose calls).val

section

variable {sha256} {receipt items : List ArtifactIdentity} {item : ArtifactIdentity}
  {content : Bytes} {source : Text → Except String Bytes}

theorem copyBlocks_eq (content : Bytes) (position remaining : Nat)
    (inside : position + remaining ≤ content.length) :
    copyBlocks content position remaining = .ok ((content.drop position).take remaining) := by
  induction remaining using Nat.strongRecOn generalizing position with
  | ind remaining ih =>
    rw [copyBlocks]
    by_cases finished : remaining = 0
    · simp [finished]
    · have length : (readBlock content position remaining).length = min stream remaining := by
        rw [readBlock, List.length_take, List.length_drop]
        omega
      have positive : 0 < min stream remaining := by
        simp only [stream]
        omega
      have some : readBlock content position remaining ≠ [] := by
        rw [← List.length_pos_iff, length]
        exact positive
      rw [if_neg finished, dif_neg some, length, ih (remaining - min stream remaining) (by omega)
        _ (by omega)]
      change Except.ok _ = _
      congr 1
      have split := List.take_append_drop (min stream remaining)
        ((content.drop position).take remaining)
      rw [List.take_take, List.drop_take, List.drop_drop,
        Nat.min_eq_left (Nat.min_le_right _ _)] at split
      exact split

theorem receiptItemsAfter_ok {accepted artifacts : List ArtifactIdentity} {totalBytes : Nat}
    (checked : receiptItemsAfter accepted totalBytes artifacts = .ok items)
    (distinct : (accepted.map ArtifactIdentity.relativePath).Nodup) :
    items = accepted ++ artifacts ∧ (items.map ArtifactIdentity.relativePath).Nodup := by
  induction artifacts generalizing accepted totalBytes with
  | nil =>
    cases checked
    exact ⟨(List.append_nil _).symm, distinct⟩
  | cons next artifacts ih =>
    simp only [receiptItemsAfter, refuseIf_bind_eq_ok] at checked
    obtain ⟨_, _, fresh, checked⟩ := checked
    obtain ⟨same, unique⟩ := ih checked (nodup_map_concat distinct fun other member same =>
      fresh (List.any_eq_true.mpr ⟨other, member, by simpa using same⟩))
    rw [List.append_assoc, List.singleton_append] at same
    exact ⟨same, unique⟩

theorem find_item (checked : receiptItems receipt = .ok items) (member : item ∈ items) :
    (items.find? fun other => other.relativePath = item.relativePath) = some item := by
  have unique := (receiptItemsAfter_ok checked List.nodup_nil).2
  have found : (items.find? fun other => other.relativePath = item.relativePath).isSome = true := by
    rw [List.find?_isSome]
    exact ⟨item, member, decide_eq_true rfl⟩
  obtain ⟨other, same⟩ := Option.isSome_iff_exists.mp found
  have name := List.find?_some same
  have otherMember := List.mem_of_find?_eq_some same
  rw [same, List.inj_on_of_nodup_map unique otherMember member (of_decide_eq_true name)]

def chunkReply (sha256 : Bytes → Text) (item : ArtifactIdentity) (content : Bytes)
    (offset size : Nat) : Reply :=
  let chunk := (content.drop offset).take (min size (item.sizeBytes - offset))
  { result := [(text "file_sha256", .str item.sha256), (text "total_length", .int item.sizeBytes),
      (text "offset", .int offset), (text "chunk_sha256", .str (sha256 chunk)),
      (text "next_offset", .int ((offset : Int) + chunk.length)),
      (text "eof", .bool ((offset : Int) + chunk.length = item.sizeBytes))]
    attachments := [(text "content", chunk)] }

theorem serve_eq (checked : receiptItems receipt = .ok items) (member : item ∈ items)
    (stored : source item.relativePath = .ok content) (sameSize : content.length = item.sizeBytes)
    (choose : Nat → ChunkSize) (calls offset : Nat) (inside : offset ≤ item.sizeBytes) :
    serve sha256 receipt source choose item.relativePath calls offset =
      .ok (chunkReply sha256 item content offset (choose calls).val) := by
  have valid := (choose calls).property
  have admitted : ¬ ((offset : Int) < 0 ∨
      ¬ (1 ≤ ((choose calls).val : Int) ∧ ((choose calls).val : Int) ≤ maxChunk)) := by
    omega
  have reachable : ¬ ((offset : Int) > item.sizeBytes) := by omega
  have whole : ¬ content.length ≠ item.sizeBytes := not_not_intro sameSize
  have copied := copyBlocks_eq content offset (min (choose calls).val (item.sizeBytes - offset))
    (by omega)
  rw [serve, readArtifactChunk, refuseIf_bind admitted, checked]
  change (match items.find? fun other => other.relativePath = item.relativePath with
    | none => _
    | some item => _) = _
  rw [find_item checked member]
  simp only [refuseIf_bind reachable, stored]
  change refuseIf _ _ >>= _ = _
  rw [refuseIf_bind whole, Int.toNat_natCast, Int.toNat_natCast, copied]
  rfl

end

section

variable {item : ArtifactIdentity} {content : Bytes}

theorem receive_chunkReply (sameSize : content.length = item.sizeBytes) {offset : Nat}
    (left : offset < item.sizeBytes) (size : ChunkSize) :
    receive floats sha256 item offset (chunkReply sha256 item content offset size.val) =
      .ok ((content.drop offset).take (min size.val (item.sizeBytes - offset)),
        offset + min size.val (item.sizeBytes - offset)) := by
  have length : ((content.drop offset).take (min size.val (item.sizeBytes - offset))).length =
      min size.val (item.sizeBytes - offset) := by
    rw [List.length_take, List.length_drop]
    omega
  have positive := size.property.1
  generalize taken : (content.drop offset).take (min size.val (item.sizeBytes - offset)) = chunk
    at length
  have next : ((chunkReply sha256 item content offset size.val).get "next_offset") =
      some (.int ((offset : Int) + chunk.length)) := by
    simp only [chunkReply, taken]
    rfl
  have eof : truth floats ((chunkReply sha256 item content offset size.val).get "eof") =
      decide ((offset : Int) + chunk.length = item.sizeBytes) := by
    simp only [chunkReply, taken]
    rfl
  have digest : ((chunkReply sha256 item content offset size.val).get "chunk_sha256").bind
      Json.str? = some (sha256 chunk) := by
    simp only [chunkReply, taken]
    rfl
  have total : equalsNumber floats
      ((chunkReply sha256 item content offset size.val).get "total_length") item.sizeBytes =
        true := decide_eq_true rfl
  have same : equalsNumber floats
      ((chunkReply sha256 item content offset size.val).get "offset") offset = true :=
    decide_eq_true rfl
  have identity : ((chunkReply sha256 item content offset size.val).get "file_sha256").bind
      Json.str? = some item.sha256 := rfl
  have attached : (chunkReply sha256 item content offset size.val).attachments =
      [(text "content", chunk)] := by
    simp only [chunkReply, taken]
  have differs : sizeDiffers floats chunk.length (.int ((offset : Int) + chunk.length)) offset =
      .ok false := by
    rw [sizeDiffers]
    congr 1
    rw [decide_eq_false_iff_not]
    omega
  have advances : ¬ ((offset : Int) + chunk.length ≤ offset ∨
      (offset : Int) + chunk.length > item.sizeBytes) := by
    omega
  unfold receive
  have result : ((offset : Int) + chunk.length).toNat =
      offset + min size.val (item.sizeBytes - offset) := by
    omega
  simp only [attached, identity, total, same, next, digest, eof, Option.getD_some]
  rw [refuseIf_bind (by simp [present]), differs]
  change refuseIf _ _ >>= _ = _
  rw [refuseIf_bind (by simp)]
  change refuseIf _ _ >>= _ = _
  rw [refuseIf_bind advances, refuseIf_bind (not_not_intro rfl), result]

theorem downloadFrom_serve {receipt items : List ArtifactIdentity}
    {source : Text → Except String Bytes} (checked : receiptItems receipt = .ok items)
    (member : item ∈ items) (stored : source item.relativePath = .ok content)
    (sameSize : content.length = item.sizeBytes) (choose : Nat → ChunkSize) (calls offset : Nat)
    (inside : offset ≤ item.sizeBytes) :
    (downloadFrom floats sha256 (serve sha256 receipt source choose item.relativePath) item calls
      offset (content.take offset)).2 = .ok content := by
  induction left : item.sizeBytes - offset using Nat.strongRecOn generalizing calls offset with
  | ind left ih =>
    rw [downloadFrom]
    by_cases more : offset < item.sizeBytes
    · have positive := (choose calls).property.1
      have received := receive_chunkReply floats sha256 sameSize more
        (choose calls)
      rw [if_pos more, serve_eq checked member stored sameSize choose calls offset inside]
      simp only
      split
      next failure refused =>
        rw [received] at refused
        cases refused
      next chunk next accepted =>
        rw [received, Except.ok.injEq, Prod.mk.injEq] at accepted
        obtain ⟨rfl, rfl⟩ := accepted
        rw [← List.take_add]
        exact ih _ (by omega) _ _ (by omega) rfl
    · rw [if_neg more, List.take_of_length_le (by omega)]

theorem calls_le (item : ArtifactIdentity) (server : Nat → Nat → Except String Reply) (calls offset : Nat)
    (outgoing : Bytes) :
    (downloadFrom floats sha256 server item calls offset outgoing).1 ≤
      calls + (item.sizeBytes - offset) := by
  induction left : item.sizeBytes - offset using Nat.strongRecOn
    generalizing calls offset outgoing with
  | ind left ih =>
    rw [downloadFrom]
    by_cases more : offset < item.sizeBytes
    · rw [if_pos more]
      cases server calls offset with
      | error failure =>
        simp only
        omega
      | ok reply =>
        simp only
        split
        next failure refused =>
          simp only
          omega
        next chunk next accepted =>
          have advances := receive_ok accepted
          have later := ih (item.sizeBytes - next) (by omega) (calls + 1) next
            (outgoing ++ chunk) rfl
          omega
    · rw [if_neg more]
      simp only
      omega

theorem download_ok {server : Nat → Nat → Except String Reply} {destination : Bytes}
    (returned : download floats sha256 server item = .ok destination) :
    sha256 destination = item.sha256 ∧ destination.length = item.sizeBytes := by
  obtain ⟨outgoing, _, returned⟩ := bind_eq_ok returned
  rw [refuseIf_bind_eq_ok] at returned
  obtain ⟨agree, returned⟩ := returned
  cases returned
  rw [not_or, not_not, not_not] at agree
  exact agree

end

/-- Whatever a server answers, the loop makes no more calls than the file has bytes, and only a
file of the listed digest and size is left; the worker's answers for an unchanged file leave that
file. -/
theorem artifact_transfer (item : ArtifactIdentity) :
    (∀ server, (downloadFrom floats sha256 server item 0 0 []).1 ≤ item.sizeBytes) ∧
    (∀ server destination, download floats sha256 server item = .ok destination →
      sha256 destination = item.sha256 ∧ destination.length = item.sizeBytes ∧
        (Function.Injective sha256 → ∀ content, sha256 content = item.sha256 →
          destination = content)) ∧
    (∀ receipt items source content choose, receiptItems receipt = .ok items → item ∈ items →
      source item.relativePath = .ok content → content.length = item.sizeBytes →
      sha256 content = item.sha256 →
      download floats sha256 (serve sha256 receipt source choose item.relativePath) item =
        .ok content) := by
  refine ⟨?_, ?_, ?_⟩
  · intro server
    have bound := calls_le floats sha256 item server 0 0 []
    omega
  · intro server destination returned
    obtain ⟨digest, size⟩ := download_ok floats sha256 returned
    exact ⟨digest, size, fun injective content same => injective (digest.trans same.symm)⟩
  · intro receipt items source content choose checked member stored sameSize digest
    have written := downloadFrom_serve floats sha256 checked member stored sameSize choose 0 0
      (Nat.zero_le _)
    rw [List.take_zero] at written
    rw [download, written]
    change refuseIf _ _ >>= _ = _
    rw [refuseIf_bind]
    rw [not_or, not_not, not_not]
    exact ⟨digest, sameSize⟩

def threeBytes : ArtifactIdentity := ⟨text "run/metrics", [7, 8, 9], 3⟩

theorem artifact_transfer_of_three_bytes :
    let floats : Floats := ⟨fun _ _ => false, fun _ _ _ => false, fun _ => true⟩
    let digest : Bytes → Text := List.map UInt8.toNat
    let server := serve digest [threeBytes] (fun _ => .ok [7, 8, 9]) (fun _ => ⟨2, by decide⟩)
      threeBytes.relativePath
    download floats digest server threeBytes = .ok [7, 8, 9] ∧ digest [7, 8, 9] = threeBytes.sha256 ∧
      ∀ content, digest content = threeBytes.sha256 → [7, 8, 9] = content := by
  intro floats digest server
  obtain ⟨_, sound, complete⟩ := artifact_transfer floats digest threeBytes
  have sent : download floats digest server threeBytes = .ok [7, 8, 9] :=
    complete [threeBytes] [threeBytes] _ [7, 8, 9] _ rfl List.mem_cons_self rfl rfl rfl
  obtain ⟨same, _, unique⟩ := sound server [7, 8, 9] sent
  exact ⟨sent, same, unique (List.map_injective_iff.mpr fun _ _ => UInt8.toNat_inj.mp)⟩

end SparseLab.Workers.Transfer
