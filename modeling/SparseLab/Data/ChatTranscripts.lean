import SparseLab.Data.Conversations
import SparseLab.Library.Slices

/-! A conversation as both record versions and the serving prompt see it. -/

namespace SparseLab.Data

open Library

structure Turn where
  user : Text
  answer : Text
  asked : blank user = false
  answered : blank answer = false
deriving DecidableEq

namespace Turn

def messages (turn : Turn) : List ChatMessage :=
  [userMessage turn.user turn.asked, assistantMessage turn.answer]

def question (turn : Turn) : Text :=
  text "User: " ++ strip whiteSpace turn.user ++ text "\n\nAssistant:"

def reply (turn : Turn) : Text := text " " ++ strip whiteSpace turn.answer

def speech (turn : Turn) : Text := turn.question ++ turn.reply

def script (turn : Turn) : List (Text × Text) :=
  [(text "user", turn.user), (text "assistant", turn.answer)]

end Turn

/-- The messages of `turns` as a chat history. -/
def history (turns : List Turn) : List ChatMessage := turns.flatMap Turn.messages

theorem history_cons (turn : Turn) (turns : List Turn) :
    history (turn :: turns) = userMessage turn.user turn.asked ::
      assistantMessage turn.answer :: history turns := rfl

theorem history_concat (turns : List Turn) (turn : Turn) :
    history (turns ++ [turn]) =
      history turns ++ [userMessage turn.user turn.asked, assistantMessage turn.answer] := by
  simp [history, Turn.messages]

def preamble : Option Text → Text
  | none => []
  | some system => text "System: " ++ strip whiteSpace system ++ text "\n\n"

/-- What stands before the question that follows `turns`. -/
def pastText (system : Option Text) (turns : List Turn) : Text :=
  preamble system ++ turns.flatMap fun turn => turn.speech ++ text "\n\n"

def promptText (system : Option Text) (turns : List Turn) (turn : Turn) : Text :=
  pastText system turns ++ turn.question

def documentText (system : Option Text) : List Turn → Text
  | [] => []
  | turns => preamble system ++ joined (text "\n\n") (turns.map Turn.speech)

section

variable {system : Option Text} {turns : List Turn}

def Spoken (system : Option Text) : Prop := ∀ words, system = some words → blank words = false

theorem spoken_none : Spoken none := by
  intro words same
  cases same

theorem spoken_some {words : Text} (full : blank words = false) : Spoken (some words) := by
  intro other same
  rw [← Option.some.inj same]
  exact full

theorem isEmpty_of_spoken {words : Text} (spoken : blank words = false) : words.isEmpty = false := by
  cases words with
  | nil => exact spoken
  | cons letter words => rfl

theorem systemLines_text (spoken : Spoken system) :
    (systemLines system).flatMap (fun line => line ++ text "\n") = preamble system := by
  cases system with
  | none => rfl
  | some words =>
    have words_nonempty := isEmpty_of_spoken (spoken words rfl)
    simp only [systemLines, words_nonempty, preamble]
    simp [text]

theorem history_text (turns : List Turn) :
    ((history turns).flatMap ChatMessage.lines).flatMap (fun line => line ++ text "\n") =
      turns.flatMap fun turn => turn.speech ++ text "\n\n" := by
  induction turns with
  | nil => rfl
  | cons turn turns ih =>
    rw [history, List.flatMap_cons, ← history, List.flatMap_append, List.flatMap_append, ih,
      List.flatMap_cons]
    congr 1
    simp [Turn.messages, ChatMessage.lines, userMessage, assistantMessage, ChatRole.title,
      Turn.speech, Turn.question, Turn.reply, text]

theorem formatChatPrompt_history (spoken : Spoken system) (turns : List Turn) (turn : Turn) :
    formatChatPrompt (history turns) turn.user system = .ok (promptText system turns turn) := by
  rw [formatChatPrompt, refuseIf_bind (by rw [turn.asked]; decide)]
  dsimp only
  rw [List.append_assoc, joined_append _ _ (by simp), joined_append _ _ (by simp)]
  rw [systemLines_text spoken, history_text]
  simp [promptText, pastText, Turn.question, joined, text]

def laterText (turns : List Turn) : Text := turns.flatMap fun turn => text "\n\n" ++ turn.speech

theorem documentText_split (system : Option Text) (earlier later : List Turn) (turn : Turn) :
    documentText system (earlier ++ turn :: later) =
      promptText system earlier turn ++ turn.reply ++ laterText later := by
  have whole : documentText system (earlier ++ turn :: later) = preamble system ++
      joined (text "\n\n") ((earlier ++ turn :: later).map Turn.speech) := by
    cases earlier <;> rfl
  rw [whole, List.map_append, joined_append _ _ (by simp), List.map_cons, joined_eq]
  simp [promptText, pastText, laterText, Turn.speech, List.flatMap_map]

theorem documentText_concat (system : Option Text) (turns : List Turn) (turn : Turn) :
    documentText system (turns ++ [turn]) = promptText system turns turn ++ turn.reply := by
  rw [documentText_split, laterText, List.flatMap_nil, List.append_nil]

theorem promptText_eq (system : Option Text) {turns : List Turn} (begun : turns ≠ [])
    (turn : Turn) : promptText system turns turn =
      documentText system turns ++ text "\n\n" ++ turn.question := by
  obtain ⟨earlier, last, rfl⟩ := List.eq_nil_or_concat turns |>.resolve_left begun
  rw [List.concat_eq_append, documentText_concat]
  simp [promptText, pastText, Turn.speech]

theorem documentText_nonempty (system : Option Text) {turns : List Turn} (begun : turns ≠ []) :
    (documentText system turns).isEmpty = false := by
  obtain ⟨earlier, last, rfl⟩ := List.eq_nil_or_concat turns |>.resolve_left begun
  rw [List.concat_eq_append, documentText_concat, List.isEmpty_eq_false_iff]
  simp [Turn.reply, text]

/-- The place of the answer that follows `earlier`. -/
def answerSpan (system : Option Text) (earlier : List Turn) (turn : Turn) : Nat × Nat :=
  ((promptText system earlier turn).length,
    (promptText system earlier turn).length + turn.reply.length)

def answerSpans (system : Option Text) (earlier : List Turn) : List Turn → List (Nat × Nat)
  | [] => []
  | turn :: later =>
    answerSpan system earlier turn :: answerSpans system (earlier ++ [turn]) later

theorem answerSpans_concat (system : Option Text) (earlier turns : List Turn) (turn : Turn) :
    answerSpans system earlier (turns ++ [turn]) =
      answerSpans system earlier turns ++ [answerSpan system (earlier ++ turns) turn] := by
  induction turns generalizing earlier with
  | nil => simp [answerSpans]
  | cons next turns ih => simp [answerSpans, ih]

end

end SparseLab.Data
