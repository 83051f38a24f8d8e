import MiniCloud.Llm.Engine

/-!
# Streams and answers

The loops of `Chat` and `Stream` generate the same words from the same numbers.  The
numbers differ when there is more than one message: `Chat` then builds its generator from
all messages, `Stream` always from the last one.
-/

namespace MiniCloud.Llm

open MiniCloud.Library
open MiniCloud.State (Time)

/-- The words received from `Stream`, joined with spaces, are the content of the first
choice of `Chat`. -/
def Agree (newRand : Generator) (req : ChatRequest) : Prop :=
  ∀ (randID : String) (created : Time), ∃ resp choice tokens,
    chat newRand background randID created req = some (.ok resp) ∧
      resp.choices.head? = some choice ∧
      stream newRand background req = some (.ok tokens) ∧
      " ".intercalate tokens = choice.message.content

/-! ## The loops -/

theorem isWord_vocab : ∀ w ∈ vocab, Text.isWord w = true := by
  have all : vocab.all Text.isWord = true := by decide +kernel
  exact List.all_eq_true.mp all

theorem wordAt_mem_vocab (n : UInt64) : wordAt n ∈ vocab := by
  have inside : (n % UInt64.ofNat vocab.length).toNat < vocab.length := by
    rw [UInt64.toNat_mod]
    exact Nat.mod_lt _ (by decide)
  unfold wordAt
  rw [List.getD_eq_getElem?_getD, List.getElem?_eq_getElem inside, Option.getD_some]
  exact List.getElem_mem inside

section Loops

variable (draw : Nat → UInt64)

/-- The text of `Chat` is made of the words of `Stream`. -/
theorem chatLoop_eq (left i : Nat) (out : String) :
    chatLoop draw background left i out =
      .ok ((streamLoop draw background left i out).foldl (fun out w => out ++ w ++ " ") out) := by
  induction left generalizing i out with
  | zero => rfl
  | succ left ih =>
      simp only [chatLoop, streamLoop, background, Bool.false_eq_true, if_false]
      by_cases stops : shouldStop (out ++ wordAt (draw i) ++ " ") = true
      · rw [if_pos stops, if_pos stops]
        rfl
      · rw [if_neg stops, if_neg stops]
        exact ih (i + 1) (out ++ wordAt (draw i) ++ " ")

theorem mem_vocab_of_mem_streamLoop {left i : Nat} {out w : String}
    (member : w ∈ streamLoop draw background left i out) : w ∈ vocab := by
  induction left generalizing i out with
  | zero => cases member
  | succ left ih =>
      simp only [streamLoop, background, Bool.false_eq_true, if_false] at member
      split at member
      · rw [List.mem_singleton.mp member]
        exact wordAt_mem_vocab _
      · rcases List.mem_cons.mp member with rfl | later
        · exact wordAt_mem_vocab _
        · exact ih later

theorem streamLoop_ne_nil (left i : Nat) (out : String) :
    streamLoop draw background (left + 1) i out ≠ [] := by
  simp only [streamLoop, background, Bool.false_eq_true, if_false]
  split
  · exact List.cons_ne_nil _ _
  · exact List.cons_ne_nil _ _

end Loops

theorem limit_pos (req : ChatRequest) : ∃ left, (limit req).toInt.toNat = left + 1 := by
  have positive : 0 < (limit req).toInt := by
    unfold limit
    split
    · decide
    · rename_i notLow
      have above : 0 < req.maxTokens := Int64.not_le.mp notLow
      exact Int64.lt_iff_toInt_lt.mp above
  exact ⟨(limit req).toInt.toNat - 1, by omega⟩

/-! ## Answers -/

/-- The words generated for a prompt. -/
def wordsFor (newRand : Generator) (req : ChatRequest) (prompt : String) : List String :=
  streamLoop (newRand (req.model ++ ":" ++ prompt)) background (limit req).toInt.toNat 0 ""

section Answers

variable (newRand : Generator) {req : ChatRequest} {last : Message}

theorem wordsFor_ne_nil (prompt : String) : wordsFor newRand req prompt ≠ [] := by
  obtain ⟨left, isLimit⟩ := limit_pos req
  unfold wordsFor
  rw [isLimit]
  exact streamLoop_ne_nil _ left 0 ""

theorem trimSpace_wordsFor (prompt : String) :
    Text.trimSpace (Text.spaced (wordsFor newRand req prompt)) =
      " ".intercalate (wordsFor newRand req prompt) :=
  Text.trimSpace_spaced (wordsFor_ne_nil newRand prompt)
    fun w member => isWord_vocab w (mem_vocab_of_mem_streamLoop _ member)

theorem chat_eq (named : req.model ≠ "") (isLast : req.messages.getLast? = some last)
    (randID : String) (created : Time) :
    chat newRand background randID created req =
      some (.ok (respond randID created req (chatPrompt req.messages last)
        (Text.spaced (wordsFor newRand req (chatPrompt req.messages last))))) := by
  simp only [chat, if_neg named, isLast, Option.map_some, chatLoop_eq]
  rfl

theorem stream_eq (named : req.model ≠ "") (isLast : req.messages.getLast? = some last) :
    stream newRand background req = some (.ok (wordsFor newRand req last.content)) := by
  rw [stream, if_neg named, isLast, Option.map_some]
  rfl

/-- The two agree exactly when the two prompts lead to the same text. -/
theorem agree_iff_same_words (named : req.model ≠ "")
    (isLast : req.messages.getLast? = some last) :
    Agree newRand req ↔
      " ".intercalate (wordsFor newRand req last.content) =
        " ".intercalate (wordsFor newRand req (chatPrompt req.messages last)) := by
  constructor
  · intro agree
    obtain ⟨resp, choice, tokens, answered, first, streamed, same⟩ := agree "" ⟨0⟩
    rw [chat_eq newRand named isLast] at answered
    rw [stream_eq newRand named isLast] at streamed
    cases answered
    cases streamed
    cases first
    rw [same]
    exact trimSpace_wordsFor newRand _
  · intro same randID created
    refine ⟨_, _, _, chat_eq newRand named isLast randID created, rfl,
      stream_eq newRand named isLast, ?_⟩
    rw [same]
    exact (trimSpace_wordsFor newRand _).symm

end Answers

/-! ## Prompts -/

theorem transcript_concat (init : List Message) (last : Message) :
    transcript (init ++ [last]) =
      transcript init ++ last.role ++ ":" ++ last.content ++ "\n" :=
  List.foldl_concat ..

/-- A transcript is longer than its last message. -/
theorem transcript_ne_content {messages : List Message} {last : Message}
    (isLast : messages.getLast? = some last) : transcript messages ≠ last.content := by
  obtain ⟨init, rfl⟩ := List.getLast?_eq_some_iff.mp isLast
  intro same
  have lengths := congrArg String.length same
  rw [transcript_concat] at lengths
  have mark : ":".length = 1 := by decide
  simp only [String.length_append, mark] at lengths
  omega

/-- The first word decides when it is a stop word. -/
theorem wordsFor_stop {newRand : Generator} {req : ChatRequest} {prompt : String}
    (stops : shouldStop ("" ++ wordAt (newRand (req.model ++ ":" ++ prompt) 0) ++ " ") = true) :
    wordsFor newRand req prompt = [wordAt (newRand (req.model ++ ":" ++ prompt) 0)] := by
  obtain ⟨left, isLimit⟩ := limit_pos req
  unfold wordsFor
  rw [isLimit]
  simp only [streamLoop, background, Bool.false_eq_true, if_false]
  rw [if_pos stops]

/-- Whatever the generator, a stream agrees with the answer exactly when there is one
message. -/
theorem stream_agrees_iff (req : ChatRequest) (named : req.model ≠ "")
    (given : req.messages ≠ []) :
    (∀ newRand : Generator, Agree newRand req) ↔ req.messages.length = 1 := by
  have isLast := List.getLast?_eq_some_getLast given
  constructor
  · intro agrees
    by_contra notOne
    have many : 1 < req.messages.length := by
      have some : 0 < req.messages.length := List.length_pos_of_ne_nil given
      omega
    -- a generator that stops with different words on the two prompts
    let newRand : Generator := fun seed _ =>
      if seed = req.model ++ ":" ++ transcript req.messages then 28 else 31
    have sameWords := (agree_iff_same_words newRand named isLast).mp (agrees newRand)
    have other : req.model ++ ":" ++ (req.messages.getLast given).content ≠
        req.model ++ ":" ++ transcript req.messages := by
      intro same
      exact transcript_ne_content isLast ((String.append_right_inj _).mp same).symm
    have answered : newRand (req.model ++ ":" ++ transcript req.messages) 0 = 28 := if_pos rfl
    have streamed : newRand (req.model ++ ":" ++ (req.messages.getLast given).content) 0 = 31 :=
      if_neg other
    rw [chatPrompt, if_pos many, wordsFor_stop (by rw [streamed]; decide +kernel),
      wordsFor_stop (by rw [answered]; decide +kernel), streamed, answered] at sameWords
    exact absurd sameWords (by decide +kernel)
  · intro one newRand
    rw [agree_iff_same_words newRand named isLast, chatPrompt, if_neg (by omega)]

theorem single_message_agrees : Agree newRand ⟨"tiny", [⟨"user", "hello"⟩], 8⟩ :=
  (stream_agrees_iff ⟨"tiny", [⟨"user", "hello"⟩], 8⟩ (by decide) (by decide)).mpr rfl newRand

/-- An instruction and a question. -/
def briefHello : ChatRequest := ⟨"tiny", [⟨"system", "be brief"⟩, ⟨"user", "hello"⟩], 5⟩

/-- The stream of two messages sends other words than the answer has. -/
theorem second_message_streams_alone :
    stream newRand background briefHello = some (.ok ["running", "of", "an", "this", "ack"]) ∧
      ∃ resp, chat newRand background "aaaaaaaaaaaa" ⟨0⟩ briefHello = some (.ok resp) ∧
        resp.choices = [⟨0, ⟨"assistant", "hello for yes network welcome"⟩, "stop"⟩] := by
  have isLast : briefHello.messages.getLast? = some ⟨"user", "hello"⟩ := rfl
  refine ⟨?_, _, chat_eq newRand (by decide) isLast _ _, by decide +kernel⟩
  have words : wordsFor newRand briefHello "hello" = ["running", "of", "an", "this", "ack"] := by
    decide +kernel
  rw [stream_eq newRand (by decide) isLast, words]

end MiniCloud.Llm
