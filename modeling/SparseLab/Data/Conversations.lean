import SparseLab.Library.Json
import SparseLab.Library.Outcomes

/-! The chat records of `data/conversations.py` and the documents they are rendered to. -/

namespace SparseLab.Data

open Library

inductive ChatFailure
  | value (message : String)
  | assertion (message : String)
deriving DecidableEq

inductive ChatRole | user | assistant
deriving DecidableEq

def ChatRole.title : ChatRole → Text
  | user => text "User"
  | assistant => text "Assistant"

structure ChatMessage where
  role : ChatRole
  content : Text
  spoken : role = .user → blank content = false
deriving DecidableEq

def userMessage (content : Text) (spoken : blank content = false) : ChatMessage :=
  ⟨.user, content, fun _ => spoken⟩

def assistantMessage (content : Text) : ChatMessage := ⟨.assistant, content, nofun⟩

/-- `ChatMessage(role, content)` -/
def chatMessage (role content : Text) : Except ChatFailure ChatMessage :=
  if role = text "user" then
    if spoken : blank content = false then .ok (userMessage content spoken)
    else .error (.value "user chat messages must not be blank")
  else if role = text "assistant" then .ok (assistantMessage content)
  else .error (.value "unsupported chat role")

def systemLines : Option Text → List Text
  | none => []
  | some system =>
    if system.isEmpty then [] else [text "System: " ++ strip whiteSpace system, []]

def ChatMessage.lines (item : ChatMessage) : List Text :=
  [item.role.title ++ text ": " ++ strip whiteSpace item.content, []]

def formatChatPrompt (history : List ChatMessage) (message : Text) (system : Option Text) :
    Except ChatFailure Text := do
  refuseIf (blank message) (.value "chat message must not be blank")
  let lines := systemLines system ++ history.flatMap ChatMessage.lines ++
    [text "User: " ++ strip whiteSpace message, [], text "Assistant:"]
  .ok (joined (text "\n") lines)

/-- The loop of `_validate_complete_turns`. -/
def alternates : List ChatMessage → Bool
  | user :: assistant :: rest =>
    user.role = .user && assistant.role = .assistant && alternates rest
  | _ => true

def validateCompleteTurns (history : List ChatMessage) : Except ChatFailure Unit := do
  refuseIf (history.length % 2 ≠ 0)
    (.value "chat history must contain complete user/assistant turns")
  refuseIf (alternates history = false)
    (.value "chat history must alternate user and assistant turns")

/-- The loop of `prepare_chat_prompt`, with `remaining` turns still to drop. -/
def fitPrompt (encode : Text → List Nat) (budget : Int) (turns : List ChatMessage)
    (message : Text) (system : Option Text) (dropped : Nat) :
    (remaining : Nat) → Except ChatFailure (Text × Nat)
  | 0 => do
      let prompt ← formatChatPrompt (turns.drop (dropped * 2)) message system
      if (encode prompt).length ≤ budget then .ok (prompt, dropped)
      else .error (.value "current chat turn and completion budget exceed max_seq_len")
  | remaining + 1 => do
      let prompt ← formatChatPrompt (turns.drop (dropped * 2)) message system
      if (encode prompt).length ≤ budget then .ok (prompt, dropped)
      else fitPrompt encode budget turns message system (dropped + 1) remaining

/-- `encode` stands for `tokenizer.encode(prompt, add_special_tokens=False).ids`. -/
def prepareChatPrompt (history : List ChatMessage) (message : Text) (encode : Text → List Nat)
    (maxSeqLen maxNewTokens : Int) (system : Option Text) : Except ChatFailure (Text × Nat) := do
  refuseIf (maxSeqLen ≤ 0) (.value "max_seq_len must be positive")
  refuseIf (maxNewTokens < 0) (.value "max_new_tokens must not be negative")
  let budget := maxSeqLen - maxNewTokens
  refuseIf (budget < 0) (.value "max_new_tokens exceeds max_seq_len")
  validateCompleteTurns history
  fitPrompt encode budget history message system 0 (history.length / 2)

def roleBoundaries : List Text := [text "\nUser:", text "\nSystem:", text "\nAssistant:"]

def assistantReply (completion prompt : Text) : Except ChatFailure Text := do
  refuseIf (prompt.isPrefixOf completion = false)
    (.value "completion does not begin with its chat prompt")
  let reply := roleBoundaries.foldl (fun reply marker => cut marker reply)
    (completion.drop prompt.length)
  .ok (strip whiteSpace reply)

inductive LossMode | assistantOnly | allTokens
deriving DecidableEq

structure RenderedConversation where
  text : Text
  supervisionSpans : List (Nat × Nat)
  lossMode : LossMode
deriving DecidableEq

section

variable (path : String) (lineNumber : Nat)

/-- `_error(path, line_number, detail)` -/
def lineError (detail : String) : ChatFailure := .value s!"{path}:{lineNumber}: {detail}"

def messageError (index : Nat) (detail : String) : ChatFailure :=
  lineError path lineNumber s!"message {index} {detail}"

def required {α : Type} (found : Option α) (failure : ChatFailure) : Except ChatFailure α :=
  match found with
  | some value => .ok value
  | none => .error failure

end

/-- The string `value` where `_nonblank_string(value)`. -/
def nonblankString (value : Option Json) : Option Text :=
  (value.bind Json.str?).filter fun content => !blank content

def messageKeys : List Text := [text "role", text "content"]

section

variable (path : String) (lineNumber index : Nat)

/-- The check of one call in `_canonical_tool_calls`. Calls come out of `json.loads`, so their
keys are strings and reading the encoded text back gives the call again. -/
def checkToolCall (callIndex : Nat) (call : Json) : Except ChatFailure Unit := do
  refuseIf (call.hasKeys [text "id", text "name", text "arguments"] = false)
    (messageError path lineNumber index s!"tool call {callIndex} has invalid keys")
  refuseIf (nonblankString (call.get (text "id")) = none ∨
      nonblankString (call.get (text "name")) = none)
    (messageError path lineNumber index s!"tool call {callIndex} needs id and name")
  refuseIf ((call.get (text "arguments")).any Json.isDict = false)
    (messageError path lineNumber index s!"tool call {callIndex} arguments must be an object")
  match call.dumps with
  | .ok _ => .ok ()
  | .error failure =>
    .error (messageError path lineNumber index
      s!"tool call {callIndex} is not canonical JSON: {failure}")

def checkToolCalls : (callIndex : Nat) → List Json → Except ChatFailure Unit
  | _, [] => .ok ()
  | callIndex, call :: calls => do
      checkToolCall path lineNumber index callIndex call
      checkToolCalls (callIndex + 1) calls

def callId (call : Json) : Text := ((call.get (text "id")).bind Json.str?).getD []

/-- A `ValueError` that `json.dumps` raises. -/
def encoded (written : Except String Text) : Except ChatFailure Text :=
  match written with
  | .ok value => .ok value
  | .error failure => .error (.value failure)

/-- The encoded calls of `_canonical_tool_calls`, with the calls themselves. -/
def canonicalToolCalls (value : Json) : Except ChatFailure (Text × List Json) := do
  let calls ← required ((value.list?).filter fun calls => !calls.isEmpty)
    (messageError path lineNumber index "tool_calls must be nonempty")
  checkToolCalls path lineNumber index 0 calls
  refuseIf (¬ (calls.map callId).Nodup)
    (messageError path lineNumber index "has duplicate tool call IDs")
  let written ← encoded (Json.list calls).dumps
  .ok (written, calls)

end

section

variable (path : String) (lineNumber : Nat)

def v1Message (index : Nat) (message : Json) (system : Option Text)
    (parsed : List ChatMessage) : Except ChatFailure (Option Text × List ChatMessage) := do
  refuseIf (message.hasKeys messageKeys = false)
    (messageError path lineNumber index "must contain only role and content")
  let role ← required (((message.get (text "role")).bind Json.str?).filter fun role =>
      [text "system", text "user", text "assistant"].contains role)
    (messageError path lineNumber index "has unsupported role")
  let content ← required (nonblankString (message.get (text "content")))
    (messageError path lineNumber index "content must not be blank")
  if role = text "system" then
    refuseIf (index ≠ 0) (lineError path lineNumber "system message is allowed only first")
    .ok (some content, parsed)
  else
    let spoken ← chatMessage role content
    .ok (system, parsed ++ [spoken])

def v1Messages : (index : Nat) → Option Text → List ChatMessage → List Json →
    Except ChatFailure (Option Text × List ChatMessage)
  | _, system, parsed, [] => .ok (system, parsed)
  | index, system, parsed, message :: messages => do
      let (system, parsed) ← v1Message path lineNumber index message system parsed
      v1Messages (index + 1) system parsed messages

def v1Render (system : Option Text) (history : List ChatMessage) (document : Text) :
    List ChatMessage → Except ChatFailure Text
  | user :: assistant :: rest => do
      let prompt ← formatChatPrompt history user.content system
      refuseIf (document.isEmpty = false ∧ document.isPrefixOf prompt = false)
        (.assertion "chat transcript rendering is not append-only")
      v1Render system (history ++ [user, assistant])
        (prompt ++ text " " ++ strip whiteSpace assistant.content) rest
  | _ => .ok document

def v1Document (record : Json) : Except ChatFailure RenderedConversation := do
  refuseIf (record.hasKeys [text "messages"] = false)
    (lineError path lineNumber "record must contain only messages")
  let messages ← required ((record.get (text "messages")).bind Json.list?)
    (lineError path lineNumber "messages must be an array")
  let (system, parsed) ← v1Messages path lineNumber 0 none [] messages
  refuseIf (parsed.length < 2 ∨ parsed.length % 2 ≠ 0)
    (lineError path lineNumber "conversation requires complete user/assistant pairs")
  refuseIf (alternates parsed = false)
    (lineError path lineNumber "messages must alternate user then assistant")
  let document ← v1Render system [] [] parsed
  .ok ⟨document, [(0, document.length)], .allTokens⟩

end

/-- The variables of the loop of `_v2_document`. -/
structure Transcript where
  system : Option Text := none
  rendered : Text := []
  spans : List (Nat × Nat) := []
  pending : List Text := []
  seenCallIds : List Text := []
  expectUser : Bool := true
deriving DecidableEq

/-- `start = len(rendered); rendered += piece; spans.append((start, len(rendered)))` -/
def Transcript.supervise (transcript : Transcript) (piece : Text) : Transcript :=
  { transcript with
    rendered := transcript.rendered ++ piece
    spans := transcript.spans ++
      [(transcript.rendered.length, (transcript.rendered ++ piece).length)] }

section

variable (path : String) (lineNumber index : Nat) (transcript : Transcript)

def v2System (message : Json) : Except ChatFailure Transcript := do
  refuseIf (index ≠ 0 ∨ message.hasKeys messageKeys = false ∨
      nonblankString (message.get (text "content")) = none)
    (lineError path lineNumber "system message is allowed only first with nonblank content")
  .ok { transcript with system := (message.get (text "content")).bind Json.str? }

def v2Opening (content : Text) : Except ChatFailure Text :=
  if transcript.rendered.isEmpty then formatChatPrompt [] content transcript.system
  else .ok (text "\n\nUser: " ++ strip whiteSpace content ++ text "\n\nAssistant:")

def v2User (message : Json) : Except ChatFailure Transcript := do
  let failure := messageError path lineNumber index "is not a complete user turn"
  refuseIf (transcript.pending.isEmpty = false ∨ transcript.expectUser = false ∨
    message.hasKeys messageKeys = false) failure
  let content ← required (nonblankString (message.get (text "content"))) failure
  let opening ← v2Opening transcript content
  .ok { transcript with rendered := transcript.rendered ++ opening, expectUser := false }

def v2Answer (message : Json) : Except ChatFailure Transcript := do
  let failure := messageError path lineNumber index "final assistant answer must have nonblank content"
  refuseIf (message.hasKeys messageKeys = false) failure
  let content ← required (nonblankString (message.get (text "content"))) failure
  .ok { transcript.supervise (text " " ++ strip whiteSpace content) with expectUser := true }

/-- `value is None or isinstance(value, str)` of a key that is there. -/
def textOrNull : Option Json → Bool
  | some .null => true
  | some (.str _) => true
  | _ => false

def v2Calls (message calls : Json) : Except ChatFailure Transcript := do
  let content := message.get (text "content")
  refuseIf (message.hasKeys (messageKeys ++ [text "tool_calls"]) = false ∨
      textOrNull content = false)
    (messageError path lineNumber index "tool-call assistant has invalid content")
  let (written, calls) ← canonicalToolCalls path lineNumber index calls
  let callIds := calls.map callId
  refuseIf (callIds.any transcript.seenCallIds.contains)
    (messageError path lineNumber index "reuses a tool call ID")
  let seen := { transcript with seenCallIds := transcript.seenCallIds ++ callIds }
  let spoken :=
    match (content.bind Json.str?).filter fun content => !content.isEmpty with
    | some content => seen.supervise (text " " ++ content)
    | none => seen
  let opened := { spoken with rendered := spoken.rendered ++ text "\nToolCalls[v1]:" }
  .ok { opened.supervise (text " " ++ written) with pending := callIds }

def v2Assistant (message : Json) : Except ChatFailure Transcript := do
  refuseIf (transcript.expectUser = true ∨ transcript.pending.isEmpty = false ∨
      message.keysWithin (messageKeys ++ [text "tool_calls"]) = false)
    (messageError path lineNumber index "is not an expected assistant turn")
  match message.get (text "tool_calls") with
  | none | some .null => v2Answer path lineNumber index transcript message
  | some calls => v2Calls path lineNumber index transcript message calls

def v2Tool (message : Json) : Except ChatFailure Transcript := do
  let failure := messageError path lineNumber index "is not a valid pending tool result"
  refuseIf (transcript.pending.isEmpty = true ∨
    message.hasKeys [text "role", text "tool_call_id", text "content"] = false) failure
  let callId ← required (nonblankString (message.get (text "tool_call_id"))) failure
  let content ← required (nonblankString (message.get (text "content"))) failure
  refuseIf (transcript.pending.head? ≠ some callId)
    (messageError path lineNumber index "tool results must match pending calls in order")
  let pending := transcript.pending.tail
  let result ← encoded (Json.dumps (.dict [(text "tool_call_id", .str callId),
    (text "content", .str (strip whiteSpace content))]))
  .ok { transcript with
    pending := pending
    rendered := transcript.rendered ++ text "\nToolResult[v1]: " ++ result ++
      (if pending.isEmpty then text "\n\nAssistant:" else []) }

def v2Message (message : Json) : Except ChatFailure Transcript := do
  let role ← required ((message.get (text "role")).bind Json.str?)
    (messageError path lineNumber index "must be an object with a role")
  if role = text "system" then v2System path lineNumber index transcript message
  else if role = text "user" then v2User path lineNumber index transcript message
  else if role = text "assistant" then v2Assistant path lineNumber index transcript message
  else if role = text "tool" then v2Tool path lineNumber index transcript message
  else .error (messageError path lineNumber index "has unsupported role")

end

section

variable (path : String) (lineNumber : Nat)

def v2Messages : (index : Nat) → Transcript → List Json → Except ChatFailure Transcript
  | _, transcript, [] => .ok transcript
  | index, transcript, message :: messages => do
      let transcript ← v2Message path lineNumber index transcript message
      v2Messages (index + 1) transcript messages

def lossMode (value : Option Json) : Option LossMode :=
  (value.bind Json.str?).bind fun mode =>
    if mode = text "assistant_only" then some .assistantOnly
    else if mode = text "all_tokens" then some .allTokens
    else none

/-- `type(value) is int and value == 2` -/
def isTwo : Option Json → Bool
  | some (.int number) => number = 2
  | _ => false

def v2Document (record : Json) : Except ChatFailure RenderedConversation := do
  refuseIf (record.hasKeys [text "format_version", text "loss_mode", text "messages"] = false ∨
      isTwo (record.get (text "format_version")) = false)
    (lineError path lineNumber
      "v2 record must contain exactly format_version=2, loss_mode, and messages")
  let mode ← required (lossMode (record.get (text "loss_mode")))
    (lineError path lineNumber "v2 loss_mode must be assistant_only or all_tokens")
  let messages ← required ((record.get (text "messages")).bind Json.list?)
    (lineError path lineNumber "messages must be an array")
  let transcript ← v2Messages path lineNumber 0 {} messages
  refuseIf (transcript.pending.isEmpty = false ∨ transcript.expectUser = false)
    (lineError path lineNumber "conversation must end with a complete assistant final answer")
  refuseIf (transcript.rendered.isEmpty = true)
    (lineError path lineNumber "conversation requires at least one user/assistant exchange")
  .ok ⟨transcript.rendered,
    if mode = .assistantOnly then transcript.spans else [(0, transcript.rendered.length)], mode⟩

/-- `_conversation_document(record, path, line_number)` -/
def conversationDocument (record : Json) : Except ChatFailure RenderedConversation :=
  if (record.get (text "format_version")).isSome then v2Document path lineNumber record
  else v1Document path lineNumber record

end

end SparseLab.Data
