import SparseLab.Data.ChatTranscripts

/-! Which conversations the two record versions accept, and the text each of them renders. -/

namespace SparseLab.Data

open Library

def said (message : Json) : Option (Text × Text) :=
  if message.hasKeys messageKeys then
    ((message.get (text "role")).bind Json.str?).bind fun role =>
      ((message.get (text "content")).bind Json.str?).map fun content => (role, content)
  else none

structure Conversation where
  system : Option Text
  spoken : Spoken system
  turns : List Turn
  begun : turns ≠ []

def Conversation.script (conversation : Conversation) : List (Text × Text) :=
  (conversation.system.toList.map fun words => (text "system", words)) ++
    conversation.turns.flatMap Turn.script

def Conversation.Records (conversation : Conversation) (messages : List Json) : Prop :=
  messages.map said = conversation.script.map some

section

variable {message : Json} {role content : Text}

theorem said_iff : said message = some (role, content) ↔
    message.hasKeys messageKeys = true ∧ (message.get (text "role")).bind Json.str? = some role ∧
      (message.get (text "content")).bind Json.str? = some content := by
  unfold said
  by_cases keys : message.hasKeys messageKeys = true
  · simp [keys, Option.bind_eq_some_iff, Option.map_eq_some_iff]
  · simp [keys]

theorem nonblankString_iff {value : Option Json} : nonblankString value = some content ↔
    value.bind Json.str? = some content ∧ blank content = false := by
  simp [nonblankString, Option.filter_eq_some_iff]

@[simp] theorem required_ok {α : Type} {found : Option α} {failure : ChatFailure} {value : α} :
    required found failure = .ok value ↔ found = some value := by
  cases found <;> simp [required]

end

section

variable {path : String} {lineNumber index : Nat} {system : Option Text}
  {parsed : List ChatMessage} {message : Json}

def ChatRole.word : ChatRole → Text
  | user => text "user"
  | assistant => text "assistant"

def heard (spoken : ChatMessage) : Text × Text := (spoken.role.word, spoken.content)

theorem chatMessage_ok {role content : Text} {spoken : ChatMessage}
    (made : chatMessage role content = .ok spoken) : heard spoken = (role, content) := by
  unfold chatMessage at made
  split at made
  next user =>
    split at made
    next asked =>
      rw [← Except.ok.inj made, user]
      rfl
    next => cases made
  next =>
    split at made
    next assistant =>
      rw [← Except.ok.inj made, assistant]
      rfl
    next => cases made

theorem v1Message_ok {result : Option Text × List ChatMessage}
    (accepted : v1Message path lineNumber index message system parsed = .ok result) :
    ∃ role content, said message = some (role, content) ∧ blank content = false ∧
      ((role = text "system" ∧ index = 0 ∧ result = (some content, parsed)) ∨
        ∃ spoken : ChatMessage, heard spoken = (role, content) ∧
          result = (system, parsed ++ [spoken])) := by
  unfold v1Message at accepted
  rw [refuseIf_bind_eq_ok] at accepted
  obtain ⟨keys, accepted⟩ := accepted
  obtain ⟨role, known, accepted⟩ := bind_eq_ok accepted
  obtain ⟨content, written, accepted⟩ := bind_eq_ok accepted
  rw [required_ok, Option.filter_eq_some_iff] at known
  rw [required_ok, nonblankString_iff] at written
  refine ⟨role, content, said_iff.mpr ⟨by simpa using keys, known.1, written.1⟩, written.2, ?_⟩
  by_cases first : role = text "system"
  · rw [if_pos first, refuseIf_bind_eq_ok] at accepted
    exact Or.inl ⟨first, by simpa using accepted.1, (Except.ok.inj accepted.2).symm⟩
  · rw [if_neg first] at accepted
    obtain ⟨spoken, made, accepted⟩ := bind_eq_ok accepted
    exact Or.inr ⟨spoken, chatMessage_ok made, (Except.ok.inj accepted).symm⟩

theorem v1Messages_ok {messages : List Json} {result : Option Text × List ChatMessage}
    (started : index ≠ 0)
    (accepted : v1Messages path lineNumber index system parsed messages = .ok result) :
    ∃ spoken : List ChatMessage, result = (system, parsed ++ spoken) ∧
      messages.map said = (spoken.map heard).map some ∧
      ∀ one ∈ spoken, blank one.content = false := by
  induction messages generalizing index parsed with
  | nil => exact ⟨[], by rw [← Except.ok.inj accepted, List.append_nil], rfl, List.forall_mem_nil _⟩
  | cons message messages ih =>
    obtain ⟨between, first, rest⟩ := bind_eq_ok accepted
    obtain ⟨role, content, heardHere, full, system_first | ⟨one, same, rfl⟩⟩ := v1Message_ok first
    · exact absurd system_first.2.1 started
    · obtain ⟨spoken, result_eq, texts, nonblank⟩ := ih (Nat.succ_ne_zero index) rest
      refine ⟨one :: spoken, by rw [result_eq, List.append_assoc]; rfl, ?_, ?_⟩
      · rw [List.map_cons, heardHere, texts, List.map_cons, List.map_cons, same]
      · intro other member
        rcases List.mem_cons.mp member with rfl | later
        · rw [show other.content = content from congrArg Prod.snd same]
          exact full
        · exact nonblank other later

theorem turns_of_alternates {spoken : List ChatMessage} (paired : spoken.length % 2 = 0)
    (alternate : alternates spoken = true)
    (nonblank : ∀ one ∈ spoken, blank one.content = false) :
    ∃ turns : List Turn, spoken = history turns := by
  induction spoken using alternates.induct with
  | case1 user assistant rest ih =>
    simp only [alternates, Bool.and_eq_true, decide_eq_true_eq] at alternate
    simp only [List.length_cons] at paired
    obtain ⟨turns, same⟩ := ih (by omega) alternate.2
      fun one member => nonblank one (by simp [member])
    refine ⟨⟨user.content, assistant.content, nonblank user (by simp),
      nonblank assistant (by simp)⟩ :: turns, ?_⟩
    rw [history, List.flatMap_cons, ← history, ← same]
    obtain ⟨userRole, userContent, asked⟩ := user
    obtain ⟨assistantRole, assistantContent, answered⟩ := assistant
    obtain ⟨⟨rfl, rfl⟩, -⟩ := alternate
    rfl
  | case2 spoken short =>
    cases spoken with
    | nil => exact ⟨[], rfl⟩
    | cons user rest =>
      cases rest with
      | nil => simp at paired
      | cons assistant rest => exact absurd rfl (short user assistant rest)

theorem heard_history (turns : List Turn) :
    (history turns).map heard = turns.flatMap Turn.script := by
  induction turns with
  | nil => rfl
  | cons turn turns ih =>
    rw [history, List.flatMap_cons, List.map_append, ← history, ih]
    rfl

theorem v1Document_ok {record : Json} {rendered : RenderedConversation}
    (accepted : v1Document path lineNumber record = .ok rendered) :
    ∃ messages conversation, (record.get (text "messages")).bind Json.list? = some messages ∧
      Conversation.Records conversation messages := by
  unfold v1Document at accepted
  rw [refuseIf_bind_eq_ok] at accepted
  obtain ⟨messages, listed, accepted⟩ := bind_eq_ok accepted.2
  obtain ⟨⟨system, parsed⟩, read, accepted⟩ := bind_eq_ok accepted
  simp only [refuseIf_bind_eq_ok] at accepted
  obtain ⟨long, alternate, -⟩ := accepted
  refine ⟨messages, ?_⟩
  cases messages with
  | nil =>
    have empty := Except.ok.inj read
    simp only [Prod.mk.injEq] at empty
    simp [← empty.2] at long
  | cons message messages =>
    obtain ⟨between, first, rest⟩ := bind_eq_ok read
    obtain ⟨spoken, result_eq, texts, nonblank⟩ := v1Messages_ok Nat.one_ne_zero rest
    simp only [Prod.mk.injEq] at result_eq
    obtain ⟨rfl, rfl⟩ := result_eq
    obtain ⟨role, content, heardHere, full, ⟨role_system, -, rfl⟩ | ⟨one, same, rfl⟩⟩ :=
      v1Message_ok first
    · rw [List.nil_append] at long alternate
      obtain ⟨turns, rfl⟩ := turns_of_alternates (by omega) (by simpa using alternate) nonblank
      have begun : turns ≠ [] := by
        rintro rfl
        simp [history] at long
      refine ⟨⟨some content, spoken_some full, turns, begun⟩, required_ok.mp listed, ?_⟩
      rw [Conversation.Records, List.map_cons, heardHere, texts, heard_history, role_system]
      rfl
    · dsimp only [List.nil_append] at long alternate
      have nonblank : ∀ other ∈ [one] ++ spoken, blank other.content = false := by
        intro other member
        rcases List.mem_cons.mp member with rfl | later
        · rw [show other.content = content from congrArg Prod.snd same]
          exact full
        · exact nonblank other later
      have paired : ([one] ++ spoken).length % 2 = 0 := by omega
      obtain ⟨turns, parsed_eq⟩ := turns_of_alternates paired (by simpa using alternate) nonblank
      have begun : turns ≠ [] := by
        rintro rfl
        rw [parsed_eq] at long
        simp [history] at long
      refine ⟨⟨none, spoken_none, turns, begun⟩, required_ok.mp listed, ?_⟩
      rw [Conversation.Records, List.map_cons, heardHere, texts, ← same, ← List.map_cons,
        ← List.map_cons, ← List.singleton_append, parsed_eq, heard_history]
      rfl

/-! What the first version renders. -/

theorem v1Message_said {role content : Text} {spoken : ChatMessage}
    (words : said message = some (role, content)) (same : heard spoken = (role, content))
    (full : blank content = false) :
    v1Message path lineNumber index message system parsed = .ok (system, parsed ++ [spoken]) := by
  obtain ⟨keys, roleRead, contentRead⟩ := said_iff.mp words
  obtain ⟨speaker, written, asked⟩ := spoken
  obtain ⟨rfl, rfl⟩ := Prod.mk.inj same
  have read : nonblankString (message.get (text "content")) = some written :=
    nonblankString_iff.mpr ⟨contentRead, full⟩
  unfold v1Message
  rw [refuseIf_bind (by simp [keys]), roleRead, read]
  cases speaker with
  | user =>
    change (do
      let one ← chatMessage (text "user") written
      .ok (system, parsed ++ [one])) = _
    rw [chatMessage, if_pos rfl, dif_pos full]
    rfl
  | assistant => rfl

theorem v1Messages_said {messages : List Json} (turns : List Turn)
    (words : messages.map said = (turns.flatMap Turn.script).map some) :
    v1Messages path lineNumber index system parsed messages =
      .ok (system, parsed ++ history turns) := by
  induction turns generalizing messages index parsed with
  | nil =>
    rw [List.map_eq_nil_iff.mp words, v1Messages]
    simp [history]
  | cons turn turns ih =>
    rw [List.flatMap_cons, List.map_append] at words
    obtain ⟨user, rest, rfl, userSaid, words⟩ := List.map_eq_cons_iff.mp words
    obtain ⟨answer, rest, rfl, answerSaid, words⟩ := List.map_eq_cons_iff.mp words
    have asked : heard (userMessage turn.user turn.asked) = (text "user", turn.user) := rfl
    have answered : heard (assistantMessage turn.answer) = (text "assistant", turn.answer) := rfl
    rw [v1Messages, v1Message_said userSaid asked turn.asked]
    change v1Messages path lineNumber (index + 1) system _ (answer :: rest) = _
    rw [v1Messages, v1Message_said answerSaid answered turn.answered]
    change v1Messages path lineNumber (index + 1 + 1) system _ rest = _
    rw [ih words, history_cons, List.append_assoc, List.append_assoc]
    rfl

theorem v1Messages_records {conversation : Conversation} {messages : List Json}
    (records : conversation.Records messages) :
    v1Messages path lineNumber 0 none [] messages =
      .ok (conversation.system, history conversation.turns) := by
  obtain ⟨system, spoken, turns, begun⟩ := conversation
  cases system with
  | none => exact v1Messages_said turns records
  | some words =>
    obtain ⟨message, rest, rfl, systemSaid, texts⟩ := List.map_eq_cons_iff.mp records
    obtain ⟨keys, roleRead, contentRead⟩ := said_iff.mp systemSaid
    have read : nonblankString (message.get (text "content")) = some words :=
      nonblankString_iff.mpr ⟨contentRead, spoken words rfl⟩
    have first : v1Message path lineNumber 0 message none [] = .ok (some words, []) := by
      unfold v1Message
      rw [refuseIf_bind (by simp [keys]), roleRead, read]
      rfl
    rw [v1Messages, first]
    exact v1Messages_said turns texts

theorem length_history (turns : List Turn) : (history turns).length = 2 * turns.length := by
  induction turns with
  | nil => rfl
  | cons turn turns ih =>
    rw [history_cons, List.length_cons, List.length_cons, ih, List.length_cons]
    omega

theorem alternates_history (turns : List Turn) : alternates (history turns) = true := by
  induction turns with
  | nil => rfl
  | cons turn turns ih =>
    rw [history_cons, alternates, ih]
    rfl

theorem v1Render_turns (spoken : Spoken system) (done rest : List Turn) :
    v1Render system (history done) (documentText system done) (history rest) =
      .ok (documentText system (done ++ rest)) := by
  induction rest generalizing done with
  | nil => rw [List.append_nil]; rfl
  | cons turn rest ih =>
    have prompt := formatChatPrompt_history spoken done turn
    have goesOn : ¬ ((documentText system done).isEmpty = false ∧
        (documentText system done).isPrefixOf (promptText system done turn) = false) := by
      rintro ⟨written, unlike⟩
      have begun : done ≠ [] := by
        rintro rfl
        cases written
      have starts : documentText system done <+: promptText system done turn := by
        rw [promptText_eq system begun, List.append_assoc]
        exact List.prefix_append _ _
      rw [List.isPrefixOf_iff_prefix.mpr starts] at unlike
      cases unlike
    have document : promptText system done turn ++ text " " ++
        strip whiteSpace turn.answer = documentText system (done ++ [turn]) := by
      rw [documentText_concat, Turn.reply, List.append_assoc]
    have step : v1Render system (history done) (documentText system done)
        (history (turn :: rest)) = v1Render system (history (done ++ [turn]))
          (documentText system (done ++ [turn])) (history rest) := by
      rw [history_cons, v1Render, history_concat, ← document]
      change (formatChatPrompt (history done) turn.user system >>= _) = _
      rw [prompt]
      exact refuseIf_bind goesOn
    rw [step, ih, List.append_assoc]
    rfl

end

section

variable {path : String} {lineNumber index : Nat} {message : Json} {transcript result : Transcript}

theorem v2Message_question (waiting : transcript.pending = [])
    (expects : transcript.expectUser = true)
    (accepted : v2Message path lineNumber index transcript message = .ok result) :
    (index = 0 ∧ ∃ words, said message = some (text "system", words) ∧ blank words = false ∧
      result = { transcript with system := some words }) ∨
    ∃ user, said message = some (text "user", user) ∧ blank user = false ∧
      result.pending = [] ∧ result.expectUser = false := by
  unfold v2Message at accepted
  obtain ⟨role, known, accepted⟩ := bind_eq_ok accepted
  rw [required_ok] at known
  split at accepted
  next system =>
    unfold v2System at accepted
    rw [refuseIf_bind_eq_ok] at accepted
    obtain ⟨admitted, accepted⟩ := accepted
    simp only [not_or, not_not, Bool.not_eq_false] at admitted
    obtain ⟨first, keys, written⟩ := admitted
    obtain ⟨words, written⟩ := Option.ne_none_iff_exists'.mp written
    rw [nonblankString_iff] at written
    refine Or.inl ⟨first, words, said_iff.mpr ⟨keys, by rw [known, system], written.1⟩,
      written.2, ?_⟩
    rw [← Except.ok.inj accepted, written.1]
  next =>
    split at accepted
    next user =>
      unfold v2User at accepted
      rw [refuseIf_bind_eq_ok] at accepted
      obtain ⟨admitted, accepted⟩ := accepted
      obtain ⟨content, written, accepted⟩ := bind_eq_ok accepted
      obtain ⟨opening, -, accepted⟩ := bind_eq_ok accepted
      rw [required_ok, nonblankString_iff] at written
      have keys : message.hasKeys messageKeys = true := by
        simp only [not_or] at admitted
        simpa using admitted.2.2
      refine Or.inr ⟨content, said_iff.mpr ⟨keys, by rw [known, user], written.1⟩,
        written.2, ?_⟩
      rw [← Except.ok.inj accepted]
      exact ⟨waiting, rfl⟩
    next =>
      split at accepted
      next =>
        unfold v2Assistant at accepted
        rw [refuseIf_bind_eq_ok] at accepted
        exact absurd (Or.inl expects) accepted.1
      next =>
        split at accepted
        next =>
          unfold v2Tool at accepted
          rw [refuseIf_bind_eq_ok] at accepted
          exact absurd (Or.inl (by rw [waiting]; rfl)) accepted.1
        next => cases accepted

theorem v2Message_answer (started : index ≠ 0) (waiting : transcript.pending = [])
    (expects : transcript.expectUser = false) (plain : message.get (text "tool_calls") = none)
    (accepted : v2Message path lineNumber index transcript message = .ok result) :
    ∃ answer, said message = some (text "assistant", answer) ∧ blank answer = false ∧
      result.pending = [] ∧ result.expectUser = true := by
  unfold v2Message at accepted
  obtain ⟨role, known, accepted⟩ := bind_eq_ok accepted
  rw [required_ok] at known
  split at accepted
  next =>
    unfold v2System at accepted
    rw [refuseIf_bind_eq_ok] at accepted
    exact absurd (Or.inl started) accepted.1
  next =>
    split at accepted
    next =>
      unfold v2User at accepted
      rw [refuseIf_bind_eq_ok] at accepted
      exact absurd (Or.inr (Or.inl expects)) accepted.1
    next =>
      split at accepted
      next assistant =>
        unfold v2Assistant at accepted
        rw [refuseIf_bind_eq_ok, plain] at accepted
        have accepted := accepted.2
        unfold v2Answer at accepted
        rw [refuseIf_bind_eq_ok] at accepted
        obtain ⟨keys, accepted⟩ := accepted
        obtain ⟨content, written, accepted⟩ := bind_eq_ok accepted
        rw [required_ok, nonblankString_iff] at written
        refine ⟨content, said_iff.mpr ⟨by simpa using keys, by rw [known, assistant], written.1⟩,
          written.2, ?_⟩
        rw [← Except.ok.inj accepted]
        exact ⟨waiting, rfl⟩
      next =>
        split at accepted
        next =>
          unfold v2Tool at accepted
          rw [refuseIf_bind_eq_ok] at accepted
          exact absurd (Or.inl (by rw [waiting]; rfl)) accepted.1
        next => cases accepted

theorem v2Messages_turns (messages : List Json) (started : index ≠ 0)
    (waiting : transcript.pending = []) (expects : transcript.expectUser = true)
    (plain : ∀ message ∈ messages, message.get (text "tool_calls") = none)
    (accepted : v2Messages path lineNumber index transcript messages = .ok result)
    (complete : result.expectUser = true) :
    ∃ turns : List Turn, messages.map said = (turns.flatMap Turn.script).map some := by
  induction count : messages.length using Nat.strongRecOn generalizing messages index transcript with
  | ind count ih =>
    cases messages with
    | nil => exact ⟨[], rfl⟩
    | cons question messages =>
      obtain ⟨asked, first, accepted⟩ := bind_eq_ok accepted
      obtain ⟨first, -⟩ | ⟨user, userSaid, userFull, waiting, expects⟩ :=
        v2Message_question waiting expects first
      · exact absurd first started
      · cases messages with
        | nil =>
          rw [Except.ok.inj accepted, complete] at expects
          cases expects
        | cons answer messages =>
          obtain ⟨answered, second, accepted⟩ := bind_eq_ok accepted
          obtain ⟨words, answerSaid, answerFull, waiting, expects⟩ :=
            v2Message_answer (Nat.succ_ne_zero index) waiting expects
              (plain answer (by simp)) second
          obtain ⟨turns, same⟩ := ih messages.length (by rw [← count, List.length_cons, List.length_cons]; omega) messages
            (Nat.succ_ne_zero (index + 1)) waiting expects
            (fun later member => plain later (by simp [member])) accepted rfl
          refine ⟨⟨user, words, userFull, answerFull⟩ :: turns, ?_⟩
          rw [List.map_cons, List.map_cons, userSaid, answerSaid, same]
          rfl

theorem v2Messages_script {messages : List Json}
    (plain : ∀ message ∈ messages, message.get (text "tool_calls") = none)
    (accepted : v2Messages path lineNumber 0 {} messages = .ok result)
    (complete : result.expectUser = true) :
    ∃ (system : Option Text) (turns : List Turn), Spoken system ∧ messages.map said =
      ((system.toList.map fun words => (text "system", words)) ++
        turns.flatMap Turn.script).map some := by
  cases messages with
  | nil => exact ⟨none, [], spoken_none, rfl⟩
  | cons message messages =>
    obtain ⟨between, first, rest⟩ := bind_eq_ok accepted
    obtain ⟨-, words, systemSaid, full, rfl⟩ | ⟨user, userSaid, userFull, waiting, expects⟩ :=
      v2Message_question rfl rfl first
    · have later : ∀ other ∈ messages, other.get (text "tool_calls") = none :=
        fun other member => plain other (List.mem_cons_of_mem _ member)
      obtain ⟨turns, same⟩ := v2Messages_turns messages Nat.one_ne_zero rfl rfl later rest complete
      refine ⟨some words, turns, spoken_some full, ?_⟩
      rw [List.map_cons, systemSaid, same]
      rfl
    · cases messages with
      | nil =>
        rw [Except.ok.inj rest, complete] at expects
        cases expects
      | cons answer messages =>
        obtain ⟨answered, second, rest⟩ := bind_eq_ok rest
        obtain ⟨words, answerSaid, answerFull, waiting, expects⟩ :=
          v2Message_answer Nat.one_ne_zero waiting expects (plain answer (by simp)) second
        obtain ⟨turns, same⟩ := v2Messages_turns messages (Nat.succ_ne_zero 1) waiting expects
          (fun other member => plain other (by simp [member])) rest complete
        refine ⟨none, ⟨user, words, userFull, answerFull⟩ :: turns, spoken_none, ?_⟩
        rw [List.map_cons, List.map_cons, userSaid, answerSaid, same]
        rfl

/-! What the second version renders. -/

/-- The variables of the loop after the turns `done`. -/
def told (system : Option Text) (done : List Turn) : Transcript :=
  { system := system
    rendered := documentText system done
    spans := answerSpans system [] done }

/-- The variables of the loop after a question that follows `done`. -/
def questioned (system : Option Text) (done : List Turn) (turn : Turn) : Transcript :=
  { told system done with rendered := promptText system done turn, expectUser := false }

variable {system : Option Text}

theorem v2Message_system {words : Text} (systemSaid : said message = some (text "system", words))
    (full : blank words = false) :
    v2Message path lineNumber 0 {} message = .ok (told (some words) []) := by
  obtain ⟨keys, roleRead, contentRead⟩ := said_iff.mp systemSaid
  have read : nonblankString (message.get (text "content")) = some words :=
    nonblankString_iff.mpr ⟨contentRead, full⟩
  unfold v2Message
  rw [roleRead]
  change v2System path lineNumber 0 {} message = _
  unfold v2System
  rw [refuseIf_bind (by simp [keys, read]), contentRead]
  rfl

theorem v2Opening_turn (spoken : Spoken system) (done : List Turn) (turn : Turn) :
    ∃ opening, v2Opening (told system done) turn.user = .ok opening ∧
      documentText system done ++ opening = promptText system done turn := by
  unfold v2Opening
  by_cases begun : done = []
  · subst begun
    exact ⟨promptText system [] turn, formatChatPrompt_history spoken [] turn, rfl⟩
  · rw [promptText_eq system begun]
    refine ⟨text "\n\nUser: " ++ strip whiteSpace turn.user ++ text "\n\nAssistant:", ?_, ?_⟩
    · rw [if_neg]
      simpa [told] using documentText_nonempty system begun
    · simp [Turn.question, text]

theorem v2Message_user (spoken : Spoken system) (done : List Turn) (turn : Turn)
    (userSaid : said message = some (text "user", turn.user)) :
    v2Message path lineNumber index (told system done) message =
      .ok (questioned system done turn) := by
  obtain ⟨keys, roleRead, contentRead⟩ := said_iff.mp userSaid
  have read : nonblankString (message.get (text "content")) = some turn.user :=
    nonblankString_iff.mpr ⟨contentRead, turn.asked⟩
  obtain ⟨opening, opened, same⟩ := v2Opening_turn spoken done turn
  unfold v2Message
  rw [roleRead]
  change v2User path lineNumber index (told system done) message = _
  unfold v2User
  rw [refuseIf_bind (by simp [keys, told]), read]
  change (v2Opening (told system done) turn.user >>= _) = _
  rw [opened, questioned, ← same]
  rfl

theorem v2Message_assistant (done : List Turn) (turn : Turn)
    (answerSaid : said message = some (text "assistant", turn.answer)) :
    v2Message path lineNumber index (questioned system done turn) message =
      .ok (told system (done ++ [turn])) := by
  obtain ⟨keys, roleRead, contentRead⟩ := said_iff.mp answerSaid
  have read : nonblankString (message.get (text "content")) = some turn.answer :=
    nonblankString_iff.mpr ⟨contentRead, turn.answered⟩
  have within : message.keysWithin (messageKeys ++ [text "tool_calls"]) = true :=
    Json.keysWithin_of_hasKeys keys (List.subset_append_left _ _)
  have plain : message.get (text "tool_calls") = none := Json.get_eq_none keys (by decide)
  unfold v2Message
  rw [roleRead]
  change v2Assistant path lineNumber index (questioned system done turn) message = _
  unfold v2Assistant
  rw [refuseIf_bind (by simp [within, questioned, told]), plain]
  change v2Answer path lineNumber index (questioned system done turn) message = _
  unfold v2Answer
  rw [refuseIf_bind (by simp [keys]), read]
  rw [told, documentText_concat, answerSpans_concat]
  simp only [questioned, told, Transcript.supervise, Turn.reply, answerSpan, required,
    List.nil_append, List.length_append]
  rfl

theorem v2Messages_told (spoken : Spoken system) (done turns : List Turn) {messages : List Json}
    (words : messages.map said = (turns.flatMap Turn.script).map some) :
    v2Messages path lineNumber index (told system done) messages =
      .ok (told system (done ++ turns)) := by
  induction turns generalizing messages index done with
  | nil =>
    rw [List.map_eq_nil_iff.mp words, v2Messages, List.append_nil]
  | cons turn turns ih =>
    rw [List.flatMap_cons, List.map_append] at words
    obtain ⟨user, rest, rfl, userSaid, words⟩ := List.map_eq_cons_iff.mp words
    obtain ⟨answer, rest, rfl, answerSaid, words⟩ := List.map_eq_cons_iff.mp words
    rw [v2Messages, v2Message_user spoken done turn userSaid]
    change v2Messages path lineNumber (index + 1) (questioned system done turn) (answer :: rest) = _
    rw [v2Messages, v2Message_assistant done turn answerSaid]
    change v2Messages path lineNumber (index + 1 + 1) (told system (done ++ [turn])) rest = _
    rw [ih (done ++ [turn]) words, List.append_assoc]
    rfl

theorem v2Messages_records (spoken : Spoken system) (turns : List Turn) {messages : List Json}
    (words : messages.map said = ((system.toList.map fun words => (text "system", words)) ++
      turns.flatMap Turn.script).map some) :
    v2Messages path lineNumber 0 {} messages = .ok (told system turns) := by
  cases system with
  | none => exact v2Messages_told spoken_none [] turns words
  | some system =>
    obtain ⟨message, rest, rfl, systemSaid, words⟩ := List.map_eq_cons_iff.mp words
    rw [v2Messages, v2Message_system systemSaid (spoken system rfl)]
    exact v2Messages_told spoken [] turns words

theorem v2Document_ok {record : Json} {rendered : RenderedConversation}
    (plain : ∀ messages, (record.get (text "messages")).bind Json.list? = some messages →
      ∀ message ∈ messages, message.get (text "tool_calls") = none)
    (accepted : v2Document path lineNumber record = .ok rendered) :
    ∃ messages conversation, (record.get (text "messages")).bind Json.list? = some messages ∧
      Conversation.Records conversation messages := by
  unfold v2Document at accepted
  rw [refuseIf_bind_eq_ok] at accepted
  obtain ⟨mode, -, accepted⟩ := bind_eq_ok accepted.2
  obtain ⟨messages, listed, accepted⟩ := bind_eq_ok accepted
  obtain ⟨transcript, read, accepted⟩ := bind_eq_ok accepted
  simp only [refuseIf_bind_eq_ok, not_or, Bool.not_eq_false] at accepted
  obtain ⟨⟨-, complete⟩, written, -⟩ := accepted
  rw [required_ok] at listed
  obtain ⟨system, turns, spoken, words⟩ := v2Messages_script (plain messages listed) read complete
  rw [v2Messages_records spoken turns words] at read
  have begun : turns ≠ [] := by
    rintro rfl
    rw [← Except.ok.inj read] at written
    exact written rfl
  exact ⟨messages, ⟨system, spoken, turns, begun⟩, listed, words⟩

end

section

variable (path : String) (lineNumber : Nat) {record : Json} {messages : List Json}
  {conversation : Conversation}

def Conversation.document (conversation : Conversation) : Text :=
  documentText conversation.system conversation.turns

theorem v1Document_records (records : conversation.Records messages)
    (keys : record.hasKeys [text "messages"] = true)
    (listed : (record.get (text "messages")).bind Json.list? = some messages) :
    v1Document path lineNumber record = .ok
      ⟨conversation.document, [(0, conversation.document.length)], .allTokens⟩ := by
  have read : v1Messages path lineNumber 0 none [] messages = _ := v1Messages_records records
  have render := v1Render_turns conversation.spoken [] conversation.turns
  unfold v1Document
  rw [refuseIf_bind (by simp [keys]), listed]
  change (v1Messages path lineNumber 0 none [] messages >>= _) = _
  rw [read]
  change (refuseIf _ _ >>= _) = _
  rw [refuseIf_bind, refuseIf_bind (by simp [alternates_history])]
  · change (v1Render conversation.system (history []) (documentText conversation.system [])
      (history conversation.turns) >>= _) = _
    rw [render]
    rfl
  · rw [length_history]
    have some_turn := List.length_pos_iff.mpr conversation.begun
    omega

theorem v2Document_records (records : conversation.Records messages)
    (keys : record.hasKeys [text "format_version", text "loss_mode", text "messages"] = true)
    (version : isTwo (record.get (text "format_version")) = true) {mode : LossMode}
    (loss : lossMode (record.get (text "loss_mode")) = some mode)
    (listed : (record.get (text "messages")).bind Json.list? = some messages) :
    v2Document path lineNumber record = .ok
      ⟨conversation.document,
        if mode = .assistantOnly then answerSpans conversation.system [] conversation.turns
        else [(0, conversation.document.length)], mode⟩ := by
  unfold v2Document
  rw [refuseIf_bind (by simp [keys, version]), loss, listed]
  change (v2Messages path lineNumber 0 {} messages >>= _) = _
  rw [v2Messages_records conversation.spoken conversation.turns records]
  have written : ¬ (told conversation.system conversation.turns).rendered.isEmpty = true := by
    rw [told, documentText_nonempty conversation.system conversation.begun]
    decide
  exact refuseIf_bind written

end

end SparseLab.Data
