import SparseLab.Data.ConversationRecords

/-! Training text and serving prompts of a conversation agree, answer by answer. -/

namespace SparseLab.Data

open Library

section

variable (system : Option Text)

theorem pastText_concat (earlier : List Turn) (turn : Turn) :
    pastText system (earlier ++ [turn]) =
      promptText system earlier turn ++ turn.reply ++ text "\n\n" := by
  simp [pastText, promptText, Turn.speech]

theorem answerSpans_start (earlier turns : List Turn) :
    ∀ span ∈ answerSpans system earlier turns, (pastText system earlier).length ≤ span.1 := by
  induction turns generalizing earlier with
  | nil => exact List.forall_mem_nil _
  | cons turn turns ih =>
    intro span member
    rcases List.mem_cons.mp member with rfl | later
    · simp [answerSpan, promptText]
    · have bound := ih (earlier ++ [turn]) span later
      rw [pastText_concat, promptText] at bound
      simp only [List.length_append] at bound
      omega

theorem answerSpans_disjoint (earlier turns : List Turn) :
    (answerSpans system earlier turns).Pairwise fun first second => first.2 ≤ second.1 := by
  induction turns generalizing earlier with
  | nil => exact List.Pairwise.nil
  | cons turn turns ih =>
    refine List.Pairwise.cons ?_ (ih _)
    intro span later
    have bound := answerSpans_start system (earlier ++ [turn]) turns span later
    rw [pastText_concat] at bound
    simp only [List.length_append] at bound
    simp only [answerSpan]
    omega

theorem answerSpans_nonempty (earlier turns : List Turn) :
    ∀ span ∈ answerSpans system earlier turns, span.1 < span.2 := by
  induction turns generalizing earlier with
  | nil => exact List.forall_mem_nil _
  | cons turn turns ih =>
    intro span member
    rcases List.mem_cons.mp member with rfl | later
    · simp [answerSpan, Turn.reply, text]
    · exact ih _ span later

theorem slice_answer (earlier later : List Turn) (turn : Turn) :
    slice (documentText system (earlier ++ turn :: later))
      (answerSpan system earlier turn).1 (answerSpan system earlier turn).2 = turn.reply := by
  rw [documentText_split, List.append_assoc]
  simp [slice, answerSpan, List.take_append]

theorem answerSpans_cover (earlier turns : List Turn) :
    (answerSpans system earlier turns).map (fun span =>
      slice (documentText system (earlier ++ turns)) span.1 span.2) = turns.map Turn.reply := by
  induction turns generalizing earlier with
  | nil => rfl
  | cons turn turns ih =>
    have rest := ih (earlier ++ [turn])
    rw [List.append_assoc] at rest
    rw [answerSpans, List.map_cons, slice_answer, List.map_cons]
    exact congrArg _ rest

theorem answerSpans_get (earlier before after : List Turn) (turn : Turn) :
    (answerSpans system earlier (before ++ turn :: after))[before.length]? =
      some (answerSpan system (earlier ++ before) turn) := by
  induction before generalizing earlier with
  | nil => simp [answerSpans]
  | cons first before ih =>
    simpa [answerSpans] using ih (earlier ++ [first])

end

section

def NoBoundary (answer : Text) : Prop := ∀ marker ∈ roleBoundaries, ¬ marker <:+: answer

instance (answer : Text) : Decidable (NoBoundary answer) :=
  inferInstanceAs (Decidable (∀ marker ∈ roleBoundaries, ¬ marker <:+: answer))

theorem marker_form {marker : Text} (known : marker ∈ roleBoundaries) :
    ∃ words, marker = 10 :: words ∧ 10 ∉ words ∧ words ≠ [] := by
  simp only [roleBoundaries, List.mem_cons, List.not_mem_nil, or_false] at known
  rcases known with rfl | rfl | rfl
  · exact ⟨text "User:", rfl, by decide, by decide⟩
  · exact ⟨text "System:", rfl, by decide, by decide⟩
  · exact ⟨text "Assistant:", rfl, by decide, by decide⟩

section

variable {turn : Turn} (single : NoBoundary (strip whiteSpace turn.answer))

include single

theorem reply_without_marker
    {marker : Text} (known : marker ∈ roleBoundaries) : ¬ marker <:+: turn.reply := by
  intro inside
  obtain ⟨words, rfl, -, -⟩ := marker_form known
  change _ <:+: 32 :: strip whiteSpace turn.answer at inside
  rcases List.infix_cons_iff.mp inside with starts | inside
  · have first := (List.cons_prefix_cons.mp starts).1
    omega
  · exact single _ known inside

theorem cut_line {marker : Text} (known : marker ∈ roleBoundaries) :
    cut marker (turn.reply ++ [10]) = turn.reply ++ [10] := by
  have absent := reply_without_marker single known
  obtain ⟨words, rfl, once, nonempty⟩ := marker_form known
  rw [cut_append once absent]
  cases words with
  | nil => exact absurd rfl nonempty
  | cons letter words => rfl

theorem cut_next
    (rest : Text) : cut (text "\nUser:") (turn.reply ++ 10 :: (text "\nUser:" ++ rest)) =
      turn.reply ++ [10] := by
  have known : text "\nUser:" ∈ roleBoundaries := List.mem_cons_self
  have absent := reply_without_marker single known
  have once : 10 ∉ text "User:" := by decide
  have marker : text "\nUser:" = 10 :: text "User:" := rfl
  have next : cut (text "\nUser:") (10 :: (text "\nUser:" ++ rest)) =
      10 :: cut (text "\nUser:") (text "\nUser:" ++ rest) := rfl
  rw [marker] at absent ⊢
  rw [cut_append once absent, ← marker, next, cut_at _ _ (by decide)]

end

theorem strip_reply (turn : Turn) (after : Text) (blanks : ∀ letter ∈ after, whiteSpace letter) :
    strip whiteSpace (turn.reply ++ after) = strip whiteSpace turn.answer :=
  strip_pad turn.answer (by decide) blanks

theorem assistantReply_document (system : Option Text) (earlier later : List Turn) {turn : Turn}
    (single : NoBoundary (strip whiteSpace turn.answer)) :
    assistantReply (documentText system (earlier ++ turn :: later))
      (promptText system earlier turn) = .ok (strip whiteSpace turn.answer) := by
  have starts : promptText system earlier turn <+:
      documentText system (earlier ++ turn :: later) := by
    rw [documentText_split, List.append_assoc]
    exact List.prefix_append _ _
  have reply : (documentText system (earlier ++ turn :: later)).drop
      (promptText system earlier turn).length = turn.reply ++ laterText later := by
    rw [documentText_split, List.append_assoc, List.drop_left]
  unfold assistantReply
  rw [refuseIf_bind (by rw [List.isPrefixOf_iff_prefix.mpr starts]; decide), reply]
  dsimp only
  cases later with
  | nil =>
    have whole : ∀ marker ∈ roleBoundaries, cut marker turn.reply = turn.reply :=
      fun marker known => cut_eq_self (reply_without_marker single known)
    have kept : roleBoundaries.foldl (fun reply marker => cut marker reply) turn.reply =
        turn.reply := by
      simp only [roleBoundaries, List.foldl_cons, List.foldl_nil]
      rw [whole _ (by decide), whole _ (by decide), whole _ (by decide)]
    rw [laterText, List.flatMap_nil, List.append_nil, kept]
    exact congrArg _ (by simpa using strip_reply turn [] (List.forall_mem_nil _))
  | cons next later =>
    obtain ⟨rest, tail⟩ : ∃ rest, laterText (next :: later) = 10 :: (text "\nUser:" ++ rest) :=
      ⟨text " " ++ strip whiteSpace next.user ++ text "\n\nAssistant:" ++ next.reply ++
        laterText later, by simp [laterText, Turn.speech, Turn.question, text]⟩
    have kept : roleBoundaries.foldl (fun reply marker => cut marker reply)
        (turn.reply ++ laterText (next :: later)) = turn.reply ++ [10] := by
      rw [tail]
      simp only [roleBoundaries, List.foldl_cons, List.foldl_nil]
      rw [cut_next single, cut_line single (by decide), cut_line single (by decide)]
    rw [kept, strip_reply turn [10] (by decide)]

end

section

theorem prepareChatPrompt_history {system : Option Text} (spoken : Spoken system)
    (earlier : List Turn) (turn : Turn) (encode : Text → List Nat) (maxSeqLen maxNewTokens : Int)
    (positive : 0 < maxSeqLen) (nonnegative : 0 ≤ maxNewTokens)
    (enough : (encode (promptText system earlier turn)).length ≤ maxSeqLen - maxNewTokens) :
    prepareChatPrompt (history earlier) turn.user encode maxSeqLen maxNewTokens system =
      .ok (promptText system earlier turn, 0) := by
  have complete : validateCompleteTurns (history earlier) = .ok () := by
    unfold validateCompleteTurns
    rw [refuseIf_bind (by rw [length_history]; omega), alternates_history]
    rfl
  have prompt := formatChatPrompt_history spoken earlier turn
  unfold prepareChatPrompt
  rw [refuseIf_bind (by omega), refuseIf_bind (by omega), refuseIf_bind (by omega), complete]
  change fitPrompt encode _ _ _ _ 0 _ = _
  cases (history earlier).length / 2 with
  | zero =>
    change (formatChatPrompt (history earlier) turn.user system >>= _) = _
    rw [prompt]
    exact if_pos enough
  | succ remaining =>
    change (formatChatPrompt (history earlier) turn.user system >>= _) = _
    rw [prompt]
    exact if_pos enough

end

section

def WithoutToolCalls (record : Json) : Prop :=
  ∀ messages, (record.get (text "messages")).bind Json.list? = some messages →
    ∀ message ∈ messages, message.get (text "tool_calls") = none

structure Renders (rendered : RenderedConversation) (conversation : Conversation) : Prop where
  text_eq : rendered.text = conversation.document
  spans_eq : rendered.lossMode = .assistantOnly →
    rendered.supervisionSpans = answerSpans conversation.system [] conversation.turns

variable {path : String} {lineNumber : Nat} {record : Json} {rendered : RenderedConversation}

theorem conversationDocument_renders
    (accepted : conversationDocument path lineNumber record = .ok rendered)
    (plain : WithoutToolCalls record) :
    ∃ messages conversation, (record.get (text "messages")).bind Json.list? = some messages ∧
      Conversation.Records conversation messages ∧ Renders rendered conversation := by
  unfold conversationDocument at accepted
  by_cases second : (record.get (text "format_version")).isSome = true
  · rw [if_pos second] at accepted
    obtain ⟨messages, conversation, listed, records⟩ := v2Document_ok plain accepted
    refine ⟨messages, conversation, listed, records, ?_⟩
    have checked := accepted
    unfold v2Document at checked
    rw [refuseIf_bind_eq_ok] at checked
    obtain ⟨header, checked⟩ := checked
    obtain ⟨mode, loss, -⟩ := bind_eq_ok checked
    simp only [not_or, Bool.not_eq_false] at header
    rw [v2Document_records path lineNumber records header.1 header.2 (required_ok.mp loss) listed]
      at accepted
    rw [← Except.ok.inj accepted]
    exact ⟨rfl, fun only => if_pos only⟩
  · rw [if_neg second] at accepted
    obtain ⟨messages, conversation, listed, records⟩ := v1Document_ok accepted
    refine ⟨messages, conversation, listed, records, ?_⟩
    have checked := accepted
    unfold v1Document at checked
    rw [refuseIf_bind_eq_ok] at checked
    rw [v1Document_records path lineNumber records (by simpa using checked.1) listed] at accepted
    rw [← Except.ok.inj accepted]
    refine ⟨rfl, ?_⟩
    intro only
    cases only

/-- The training text of a conversation without tool calls, read answer by answer. -/
theorem training_text_agrees_with_prompts
    (accepted : conversationDocument path lineNumber record = .ok rendered)
    (plain : WithoutToolCalls record) :
    ∃ messages conversation, (record.get (text "messages")).bind Json.list? = some messages ∧
      Conversation.Records conversation messages ∧
      (∀ first : Json, first.hasKeys [text "messages"] = true →
        (first.get (text "messages")).bind Json.list? = some messages →
        v1Document path lineNumber first =
          .ok ⟨rendered.text, [(0, rendered.text.length)], .allTokens⟩) ∧
      (∀ (second : Json) (mode : LossMode),
        second.hasKeys [text "format_version", text "loss_mode", text "messages"] = true →
        isTwo (second.get (text "format_version")) = true →
        lossMode (second.get (text "loss_mode")) = some mode →
        (second.get (text "messages")).bind Json.list? = some messages →
        ∃ spans, v2Document path lineNumber second = .ok ⟨rendered.text, spans, mode⟩) ∧
      (rendered.lossMode = .assistantOnly →
        rendered.supervisionSpans.Pairwise (fun first second => first.2 ≤ second.1) ∧
        (∀ span ∈ rendered.supervisionSpans, span.1 < span.2) ∧
        rendered.supervisionSpans.map (fun span => slice rendered.text span.1 span.2) =
          conversation.turns.map fun turn => text " " ++ strip whiteSpace turn.answer) ∧
      ∀ earlier turn later, conversation.turns = earlier ++ turn :: later →
        ∃ prompt, formatChatPrompt (history earlier) turn.user conversation.system = .ok prompt ∧
          prompt ++ (text " " ++ strip whiteSpace turn.answer) <+: rendered.text ∧
          (rendered.lossMode = .assistantOnly →
            rendered.supervisionSpans[earlier.length]?.map Prod.fst = some prompt.length) ∧
          (NoBoundary (strip whiteSpace turn.answer) →
            assistantReply rendered.text prompt = .ok (strip whiteSpace turn.answer)) ∧
          ∀ (encode : Text → List Nat) (maxSeqLen maxNewTokens : Int), 0 < maxSeqLen →
            0 ≤ maxNewTokens → (encode prompt).length ≤ maxSeqLen - maxNewTokens →
            prepareChatPrompt (history earlier) turn.user encode maxSeqLen maxNewTokens
              conversation.system = .ok (prompt, 0) := by
  obtain ⟨messages, conversation, listed, records, text_eq, spans_eq⟩ :=
    conversationDocument_renders accepted plain
  refine ⟨messages, conversation, listed, records, ?_, ?_, ?_, ?_⟩
  · intro first keys same
    rw [text_eq]
    exact v1Document_records path lineNumber records keys same
  · intro second mode keys version loss same
    rw [text_eq]
    exact ⟨_, v2Document_records path lineNumber records keys version loss same⟩
  · intro only
    rw [spans_eq only, text_eq]
    exact ⟨answerSpans_disjoint _ _ _, answerSpans_nonempty _ _ _,
      answerSpans_cover conversation.system [] conversation.turns⟩
  · intro earlier turn later turns_eq
    have document : rendered.text =
        documentText conversation.system (earlier ++ turn :: later) := by
      rw [text_eq, Conversation.document, turns_eq]
    refine ⟨promptText conversation.system earlier turn,
      formatChatPrompt_history conversation.spoken earlier turn, ?_, ?_, ?_, ?_⟩
    · rw [document, documentText_split]
      exact List.prefix_append _ _
    · intro only
      rw [spans_eq only, turns_eq, answerSpans_get]
      rfl
    · intro single
      rw [document]
      exact assistantReply_document conversation.system earlier later single
    · exact prepareChatPrompt_history conversation.spoken earlier turn

def paddedRecord : Json := .dict [
  (text "format_version", .int 2), (text "loss_mode", .str (text "assistant_only")),
  (text "messages", .list [
    .dict [(text "role", .str (text "system")), (text "content", .str (text " Be brief. "))],
    .dict [(text "role", .str (text "user")), (text "content", .str (text "\nHi "))],
    .dict [(text "content", .str (text "Hello.\n\n")), (text "role", .str (text "assistant"))],
    .dict [(text "role", .str (text "user")), (text "content", .str (text "More?"))],
    .dict [(text "role", .str (text "assistant")), (text "content", .str (text " a\nb"))]])]

def paddedDocument : RenderedConversation :=
  ⟨text ("System: Be brief.\n\nUser: Hi\n\nAssistant: Hello.\n\n" ++
    "User: More?\n\nAssistant: a\nb"),
    [(39, 46), (71, 75)], .assistantOnly⟩

theorem padded_training_text_agrees :
    ∃ messages conversation,
      (paddedRecord.get (text "messages")).bind Json.list? = some messages ∧
      Conversation.Records conversation messages ∧
      paddedDocument.supervisionSpans.map
        (fun span => slice paddedDocument.text span.1 span.2) =
          conversation.turns.map fun turn => text " " ++ strip whiteSpace turn.answer := by
  have accepted : conversationDocument "chat.jsonl" 1 paddedRecord = .ok paddedDocument := by
    decide +kernel
  have plain : WithoutToolCalls paddedRecord := by
    intro messages same
    cases same
    decide +kernel
  obtain ⟨messages, conversation, listed, records, -, -, spans, -⟩ :=
    training_text_agrees_with_prompts accepted plain
  exact ⟨messages, conversation, listed, records, (spans rfl).2.2⟩

end

end SparseLab.Data
