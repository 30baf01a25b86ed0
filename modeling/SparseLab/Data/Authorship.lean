import SparseLab.Data.ConversationRecords

/-! Who wrote which characters of a rendered conversation, piece by piece. -/

namespace SparseLab.Data

open Library

inductive Author | system | user | marker | separator | assistant | toolResult
deriving DecidableEq

inductive Piece
  | told (author : Author) (words : Text)
  | said (words : Text)
deriving DecidableEq

namespace Piece

def text : Piece → Text
  | told _ words => words
  | said words => 0x20 :: words

def authors : Piece → List Author
  | told author words => words.map fun _ => author
  | said words => .separator :: words.map fun _ => .assistant

@[simp] theorem length_authors (piece : Piece) : piece.authors.length = piece.text.length := by
  cases piece <;> simp [authors, text]

end Piece

/-- The places of what the assistant says, in a transcript that goes on at `offset`. -/
def saidSpans (offset : Nat) : List Piece → List (Nat × Nat)
  | [] => []
  | .told _ words :: pieces => saidSpans (offset + words.length) pieces
  | .said words :: pieces =>
    (offset, offset + (words.length + 1)) :: saidSpans (offset + (words.length + 1)) pieces

def piecesText (pieces : List Piece) : Text := pieces.flatMap Piece.text

@[simp] theorem piecesText_nil : piecesText [] = [] := rfl

@[simp] theorem piecesText_told (author : Author) (words : Text) (pieces : List Piece) :
    piecesText (.told author words :: pieces) = words ++ piecesText pieces := rfl

@[simp] theorem piecesText_said (words : Text) (pieces : List Piece) :
    piecesText (.said words :: pieces) = 0x20 :: (words ++ piecesText pieces) := rfl

@[simp] theorem piecesText_append (first second : List Piece) :
    piecesText (first ++ second) = piecesText first ++ piecesText second := by
  simp [piecesText]

theorem saidSpans_append (offset : Nat) (first second : List Piece) :
    saidSpans offset (first ++ second) =
      saidSpans offset first ++ saidSpans (offset + (piecesText first).length) second := by
  induction first generalizing offset with
  | nil => rfl
  | cons piece pieces ih =>
    cases piece with
    | told author words =>
      rw [List.cons_append, saidSpans, saidSpans, ih, piecesText_told, List.length_append,
        Nat.add_assoc]
    | said words =>
      have place : offset + (words.length + 1) + (piecesText pieces).length =
          offset + (words.length + (piecesText pieces).length + 1) := by omega
      rw [List.cons_append, saidSpans, saidSpans, ih, piecesText_said, List.length_cons,
        List.length_append, List.cons_append, place]

theorem mem_saidSpans {pieces : List Piece} {span : Nat × Nat} :
    span ∈ saidSpans 0 pieces ↔ ∃ before words after,
      pieces = before ++ .said words :: after ∧
      span = ((piecesText before).length, (piecesText before).length + (words.length + 1)) := by
  constructor
  · intro member
    induction pieces using List.reverseRecOn with
    | nil => exact absurd member List.not_mem_nil
    | append_singleton pieces piece ih =>
      rw [saidSpans_append, List.mem_append] at member
      rcases member with earlier | last
      · obtain ⟨before, words, after, rfl, place⟩ := ih earlier
        exact ⟨before, words, after ++ [piece], by simp, place⟩
      · cases piece with
        | told author words => exact absurd last List.not_mem_nil
        | said words =>
          rw [saidSpans, saidSpans, List.mem_singleton, Nat.zero_add] at last
          exact ⟨pieces, words, [], rfl, last⟩
  · rintro ⟨before, words, after, rfl, rfl⟩
    rw [saidSpans_append, saidSpans, Nat.zero_add]
    exact List.mem_append.mpr (.inr List.mem_cons_self)

section

def openingPieces (system : Option Text) (first : Bool) (content : Text) : List Piece :=
  let question := [Piece.told .user (strip whiteSpace content),
    .told .marker (text "\n\nAssistant:")]
  if first then
    match system with
    | none => .told .marker (text "User: ") :: question
    | some words =>
      if words.isEmpty then .told .marker (text "User: ") :: question
      else .told .marker (text "System: ") :: .told .system (strip whiteSpace words) ::
        .told .marker (text "\n\nUser: ") :: question
  else .told .marker (text "\n\nUser: ") :: question

def remarkPieces (content : Text) : List Piece := if content.isEmpty then [] else [.said content]

def callPieces (content written : Text) : List Piece :=
  remarkPieces content ++ [.told .marker (text "\nToolCalls[v1]:"), .said written]

def resultPieces (result : Text) (last : Bool) : List Piece :=
  [.told .marker (text "\nToolResult[v1]: "), .told .toolResult result] ++
    if last then [.told .marker (text "\n\nAssistant:")] else []

def contentText (message : Json) : Text := ((message.get (text "content")).bind Json.str?).getD []

def callsText (calls : Json) : Text := calls.dumps.toOption.getD []

def resultText (message : Json) : Text :=
  (Json.dumps (.dict [(text "tool_call_id", .str
      (((message.get (text "tool_call_id")).bind Json.str?).getD [])),
    (text "content", .str (strip whiteSpace (contentText message)))])).toOption.getD []

def messagePieces (transcript : Transcript) (message : Json) : List Piece :=
  let role := ((message.get (text "role")).bind Json.str?).getD []
  if role = text "system" then []
  else if role = text "user" then
    openingPieces transcript.system transcript.rendered.isEmpty (contentText message)
  else if role = text "assistant" then
    match message.get (text "tool_calls") with
    | none | some .null => [.said (strip whiteSpace (contentText message))]
    | some calls => callPieces (contentText message) (callsText calls)
  else resultPieces (resultText message) transcript.pending.tail.isEmpty

variable {path : String} {lineNumber index : Nat} {message : Json} {transcript result : Transcript}

def Adds (transcript result : Transcript) (pieces : List Piece) : Prop :=
  result.rendered = transcript.rendered ++ piecesText pieces ∧
    result.spans = transcript.spans ++ saidSpans transcript.rendered.length pieces

theorem formatChatPrompt_opening {content opening : Text} {system : Option Text}
    (made : formatChatPrompt [] content system = .ok opening) :
    opening = piecesText (openingPieces system true content) := by
  rw [formatChatPrompt, refuseIf_bind_eq_ok] at made
  rw [← Except.ok.inj made.2]
  cases system with
  | none => simp [systemLines, joined, openingPieces, text]
  | some words =>
    cases nonempty : words.isEmpty with
    | true => simp [systemLines, nonempty, joined, openingPieces, text]
    | false => simp [systemLines, nonempty, joined, openingPieces, text]

theorem v2Opening_pieces {content opening : Text}
    (made : v2Opening transcript content = .ok opening) :
    opening = piecesText (openingPieces transcript.system transcript.rendered.isEmpty content) := by
  unfold v2Opening at made
  split at made
  next begins =>
    rw [begins]
    exact formatChatPrompt_opening made
  next begun =>
    rw [Bool.not_eq_true] at begun
    rw [begun, ← Except.ok.inj made]
    simp [openingPieces]

theorem Adds.supervise {middle : Transcript} {pieces : List Piece}
    (adds : Adds transcript middle pieces) (words : Text) :
    Adds transcript (middle.supervise (0x20 :: words)) (pieces ++ [.said words]) := by
  obtain ⟨rendered, spans⟩ := adds
  constructor
  · simp [Transcript.supervise, rendered]
  · have place : middle.rendered.length =
        transcript.rendered.length + (piecesText pieces).length := by
      rw [rendered, List.length_append]
    rw [Transcript.supervise, spans, saidSpans_append, saidSpans, saidSpans, List.append_assoc,
      List.length_append, List.length_cons, place]

theorem adds_nil (transcript : Transcript) : Adds transcript transcript [] := by
  simp [Adds, saidSpans]

theorem Adds.told {middle result : Transcript} {pieces : List Piece}
    (adds : Adds transcript middle pieces) (author : Author) (words : Text)
    (rendered : result.rendered = middle.rendered ++ words) (spans : result.spans = middle.spans) :
    Adds transcript result (pieces ++ [.told author words]) := by
  rw [Adds, rendered, spans, adds.1, adds.2]
  simp [saidSpans_append, saidSpans]

theorem contentText_of {content : Text}
    (written : nonblankString (message.get (text "content")) = some content) :
    contentText message = content := by
  rw [contentText, (nonblankString_iff.mp written).1, Option.getD_some]

theorem saidSpans_opening (offset : Nat) (system : Option Text) (first : Bool) (content : Text) :
    saidSpans offset (openingPieces system first content) = [] := by
  unfold openingPieces
  cases first with
  | false => rfl
  | true =>
    cases system with
    | none => rfl
    | some words =>
      cases nonempty : words.isEmpty with
      | true => simp [nonempty, saidSpans]
      | false => simp [nonempty, saidSpans]

theorem v2User_pieces (accepted : v2User path lineNumber index transcript message = .ok result) :
    Adds transcript result
      (openingPieces transcript.system transcript.rendered.isEmpty (contentText message)) := by
  unfold v2User at accepted
  obtain ⟨-, accepted⟩ := refuseIf_bind_eq_ok.mp accepted
  obtain ⟨content, written, accepted⟩ := bind_eq_ok accepted
  obtain ⟨opening, opened, accepted⟩ := bind_eq_ok accepted
  rw [required_ok] at written
  rw [← Except.ok.inj accepted, Adds, saidSpans_opening, List.append_nil, contentText_of written,
    v2Opening_pieces opened]
  exact ⟨rfl, rfl⟩

theorem v2Answer_pieces
    (accepted : v2Answer path lineNumber index transcript message = .ok result) :
    Adds transcript result [.said (strip whiteSpace (contentText message))] := by
  unfold v2Answer at accepted
  obtain ⟨-, accepted⟩ := refuseIf_bind_eq_ok.mp accepted
  obtain ⟨content, written, accepted⟩ := bind_eq_ok accepted
  rw [required_ok] at written
  rw [← Except.ok.inj accepted, contentText_of written]
  exact (adds_nil transcript).supervise (strip whiteSpace content)

theorem encoded_ok {attempt : Except String Text} {written : Text}
    (made : encoded attempt = .ok written) : attempt = .ok written := by
  cases attempt with
  | ok value => exact congrArg Except.ok (Except.ok.inj made)
  | error failure => cases made

theorem canonicalToolCalls_text {value : Json} {written : Text} {calls : List Json}
    (made : canonicalToolCalls path lineNumber index value = .ok (written, calls)) :
    callsText value = written := by
  unfold canonicalToolCalls at made
  obtain ⟨listed, found, made⟩ := bind_eq_ok made
  obtain ⟨-, -, made⟩ := bind_eq_ok made
  obtain ⟨-, made⟩ := refuseIf_bind_eq_ok.mp made
  obtain ⟨text, dumped, made⟩ := bind_eq_ok made
  rw [required_ok, Option.filter_eq_some_iff] at found
  rw [Except.ok.injEq, Prod.mk.injEq] at made
  have same : value = .list listed := by
    cases value
    all_goals first
      | exact congrArg Json.list (Option.some.inj found.1)
      | cases found.1
  rw [same, callsText, encoded_ok dumped, ← made.1]
  rfl

theorem adds_remark {seen : Transcript} (adds : Adds transcript seen []) (content : Option Text) :
    Adds transcript
      (match content.filter fun content => !content.isEmpty with
      | some content => seen.supervise (text " " ++ content)
      | none => seen)
      (remarkPieces (content.getD [])) := by
  cases content with
  | none => exact adds
  | some content =>
    cases content with
    | nil => exact adds
    | cons letter content => exact adds.supervise (letter :: content)

theorem adds_calls {spoken : Transcript} {pieces : List Piece}
    (adds : Adds transcript spoken pieces) (written : Text) :
    Adds transcript
      ({ spoken with rendered := spoken.rendered ++ text "\nToolCalls[v1]:" }.supervise
        (text " " ++ written))
      (pieces ++ [.told .marker (text "\nToolCalls[v1]:"), .said written]) := by
  have marked : Adds transcript
      { spoken with rendered := spoken.rendered ++ text "\nToolCalls[v1]:" }
      (pieces ++ [.told .marker (text "\nToolCalls[v1]:")]) := adds.told _ _ rfl rfl
  have said := marked.supervise written
  rw [List.append_assoc] at said
  exact said

theorem v2Calls_pieces {calls : Json}
    (accepted : v2Calls path lineNumber index transcript message calls = .ok result) :
    Adds transcript result (callPieces (contentText message) (callsText calls)) := by
  unfold v2Calls at accepted
  obtain ⟨-, accepted⟩ := refuseIf_bind_eq_ok.mp accepted
  obtain ⟨⟨written, listed⟩, made, accepted⟩ := bind_eq_ok accepted
  obtain ⟨-, accepted⟩ := refuseIf_bind_eq_ok.mp accepted
  have seen : Adds transcript { transcript with
      seenCallIds := transcript.seenCallIds ++ listed.map callId } [] := adds_nil transcript
  rw [← Except.ok.inj accepted, canonicalToolCalls_text made, callPieces]
  exact adds_calls (adds_remark seen _) written

theorem v2Tool_pieces (accepted : v2Tool path lineNumber index transcript message = .ok result) :
    Adds transcript result
      (resultPieces (resultText message) transcript.pending.tail.isEmpty) := by
  unfold v2Tool at accepted
  obtain ⟨-, accepted⟩ := refuseIf_bind_eq_ok.mp accepted
  obtain ⟨callId, named, accepted⟩ := bind_eq_ok accepted
  obtain ⟨content, written, accepted⟩ := bind_eq_ok accepted
  obtain ⟨-, accepted⟩ := refuseIf_bind_eq_ok.mp accepted
  obtain ⟨encodedResult, dumped, accepted⟩ := bind_eq_ok accepted
  rw [required_ok] at named written
  have result_eq : resultText message = encodedResult := by
    rw [resultText, contentText_of written, (nonblankString_iff.mp named).1, Option.getD_some,
      encoded_ok dumped]
    rfl
  rw [← Except.ok.inj accepted, result_eq, resultPieces]
  cases transcript.pending.tail.isEmpty with
  | true => constructor <;> simp [saidSpans]
  | false => constructor <;> simp [saidSpans]

theorem v2Message_pieces
    (accepted : v2Message path lineNumber index transcript message = .ok result) :
    Adds transcript result (messagePieces transcript message) := by
  unfold v2Message at accepted
  obtain ⟨role, known, accepted⟩ := bind_eq_ok accepted
  rw [required_ok] at known
  unfold messagePieces
  rw [known, Option.getD_some]
  by_cases system : role = text "system"
  · rw [if_pos system] at accepted ⊢
    unfold v2System at accepted
    rw [refuseIf_bind_eq_ok] at accepted
    rw [← Except.ok.inj accepted.2]
    exact adds_nil transcript
  rw [if_neg system] at accepted ⊢
  by_cases user : role = text "user"
  · rw [if_pos user] at accepted ⊢
    exact v2User_pieces accepted
  rw [if_neg user] at accepted ⊢
  by_cases assistant : role = text "assistant"
  · rw [if_pos assistant] at accepted ⊢
    unfold v2Assistant at accepted
    obtain ⟨-, accepted⟩ := refuseIf_bind_eq_ok.mp accepted
    cases stated : message.get (text "tool_calls") with
    | none =>
      rw [stated] at accepted
      exact v2Answer_pieces accepted
    | some calls =>
      rw [stated] at accepted
      cases calls with
      | null => exact v2Answer_pieces accepted
      | _ => exact v2Calls_pieces accepted
  rw [if_neg assistant] at accepted ⊢
  by_cases tool : role = text "tool"
  · rw [if_pos tool] at accepted
    exact v2Tool_pieces accepted
  · rw [if_neg tool] at accepted
    cases accepted

def Unanswered (transcript : Transcript) : Prop :=
  transcript.spans = [] →
    transcript.pending = [] ∧ (transcript.rendered = [] ∨ transcript.expectUser = false)

theorem supervise_spans (words : Text) : (transcript.supervise words).spans ≠ [] := by
  simp [Transcript.supervise]

theorem v2Assistant_spans
    (accepted : v2Assistant path lineNumber index transcript message = .ok result) :
    result.spans ≠ [] := by
  unfold v2Assistant at accepted
  obtain ⟨-, accepted⟩ := refuseIf_bind_eq_ok.mp accepted
  have answered : ∀ {result}, v2Answer path lineNumber index transcript message = .ok result →
      result.spans ≠ [] := by
    intro result accepted
    obtain ⟨-, accepted⟩ := refuseIf_bind_eq_ok.mp accepted
    obtain ⟨content, -, accepted⟩ := bind_eq_ok accepted
    rw [← Except.ok.inj accepted]
    exact supervise_spans _
  split at accepted
  · exact answered accepted
  · exact answered accepted
  · unfold v2Calls at accepted
    obtain ⟨-, accepted⟩ := refuseIf_bind_eq_ok.mp accepted
    obtain ⟨⟨written, listed⟩, -, accepted⟩ := bind_eq_ok accepted
    obtain ⟨-, accepted⟩ := refuseIf_bind_eq_ok.mp accepted
    rw [← Except.ok.inj accepted]
    exact supervise_spans _

theorem v2Message_unanswered (unanswered : Unanswered transcript)
    (accepted : v2Message path lineNumber index transcript message = .ok result) :
    Unanswered result := by
  unfold v2Message at accepted
  obtain ⟨role, -, accepted⟩ := bind_eq_ok accepted
  split at accepted
  next =>
    unfold v2System at accepted
    rw [refuseIf_bind_eq_ok] at accepted
    rw [← Except.ok.inj accepted.2]
    exact unanswered
  next =>
    split at accepted
    next =>
      unfold v2User at accepted
      obtain ⟨admitted, accepted⟩ := refuseIf_bind_eq_ok.mp accepted
      obtain ⟨content, -, accepted⟩ := bind_eq_ok accepted
      obtain ⟨opening, -, accepted⟩ := bind_eq_ok accepted
      rw [← Except.ok.inj accepted]
      exact fun silent => ⟨(unanswered silent).1, .inr rfl⟩
    next =>
      split at accepted
      next => exact fun silent => absurd silent (v2Assistant_spans accepted)
      next =>
        split at accepted
        next =>
          unfold v2Tool at accepted
          obtain ⟨admitted, accepted⟩ := refuseIf_bind_eq_ok.mp accepted
          obtain ⟨callId, -, accepted⟩ := bind_eq_ok accepted
          obtain ⟨content, -, accepted⟩ := bind_eq_ok accepted
          obtain ⟨-, accepted⟩ := refuseIf_bind_eq_ok.mp accepted
          obtain ⟨written, -, accepted⟩ := bind_eq_ok accepted
          rw [← Except.ok.inj accepted]
          intro silent
          refine absurd (Or.inl ?_) admitted
          rw [(unanswered silent).1]
          rfl
        next => cases accepted

end

section

variable (path : String) (lineNumber : Nat)

def scriptPieces : (index : Nat) → Transcript → List Json → List Piece
  | _, _, [] => []
  | index, transcript, message :: messages =>
    messagePieces transcript message ++
      match v2Message path lineNumber index transcript message with
      | .ok transcript => scriptPieces (index + 1) transcript messages
      | .error _ => []

variable {path lineNumber}

theorem v2Messages_pieces {messages : List Json} : ∀ {index : Nat} {transcript result : Transcript},
    v2Messages path lineNumber index transcript messages = .ok result →
    Adds transcript result (scriptPieces path lineNumber index transcript messages) ∧
      (Unanswered transcript → Unanswered result) := by
  induction messages with
  | nil =>
    intro index transcript result accepted
    rw [← Except.ok.inj accepted]
    exact ⟨adds_nil transcript, id⟩
  | cons message messages ih =>
    intro index transcript result accepted
    obtain ⟨between, first, rest⟩ := bind_eq_ok accepted
    have here := v2Message_pieces first
    obtain ⟨later, answers⟩ := ih rest
    refine ⟨?_, fun unanswered => answers (v2Message_unanswered unanswered first)⟩
    rw [scriptPieces, first]
    constructor
    · rw [later.1, here.1, piecesText_append, List.append_assoc]
    · rw [later.2, here.2, here.1, saidSpans_append, List.append_assoc, List.length_append]

def recordPieces (path : String) (lineNumber : Nat) (record : Json) : List Piece :=
  scriptPieces path lineNumber 0 {} (((record.get (text "messages")).bind Json.list?).getD [])

theorem v2Document_pieces {record : Json} {rendered : RenderedConversation}
    (accepted : v2Document path lineNumber record = .ok rendered) :
    rendered.text = piecesText (recordPieces path lineNumber record) ∧
      (rendered.lossMode = .assistantOnly → rendered.supervisionSpans ≠ [] ∧
        rendered.supervisionSpans = saidSpans 0 (recordPieces path lineNumber record)) := by
  unfold v2Document at accepted
  obtain ⟨-, accepted⟩ := refuseIf_bind_eq_ok.mp accepted
  obtain ⟨mode, -, accepted⟩ := bind_eq_ok accepted
  obtain ⟨messages, listed, accepted⟩ := bind_eq_ok accepted
  obtain ⟨transcript, read, accepted⟩ := bind_eq_ok accepted
  obtain ⟨complete, accepted⟩ := refuseIf_bind_eq_ok.mp accepted
  obtain ⟨nonempty, accepted⟩ := refuseIf_bind_eq_ok.mp accepted
  rw [required_ok] at listed
  obtain ⟨adds, answers⟩ := v2Messages_pieces read
  have pieces : recordPieces path lineNumber record =
      scriptPieces path lineNumber 0 {} messages := by
    rw [recordPieces, listed, Option.getD_some]
  rw [← Except.ok.inj accepted, pieces]
  refine ⟨adds.1, fun only => ?_⟩
  have only : mode = .assistantOnly := only
  dsimp only
  rw [if_pos only]
  refine ⟨fun silent => ?_, adds.2⟩
  have asked := (answers (fun _ => ⟨rfl, .inl rfl⟩) silent).2
  simp only [not_or, Bool.not_eq_false, Bool.not_eq_true] at complete nonempty
  rcases asked with empty | waiting
  · rw [empty] at nonempty
    cases nonempty
  · rw [waiting] at complete
    cases complete.2

end

end SparseLab.Data
