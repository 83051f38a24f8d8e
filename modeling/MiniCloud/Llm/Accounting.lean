import MiniCloud.Llm.Agreement

/-!
# What an answer says of itself

`Chat` counts the words of its answer after it has been generated, and finds the reason for
which the loop ended from the length of the text.  The words are counted right.  The reason
is the right one if the words have about five bytes each, spaces included: fewer than five
for each word of the limit when the limit is reached, and at least as many when a stop word
has come up.
-/

namespace MiniCloud.Llm

open MiniCloud.Library
open MiniCloud.State (Time)

/-! ## How the loop ends -/

/-- The loop of `Chat`, by the number of its turns and whether `shouldStop` ended it. -/
def chatTurns (draw : Nat → UInt64) : Nat → Nat → String → Nat × Bool
  | 0, _, _ => (0, false)
  | left + 1, i, out =>
      let out := out ++ wordAt (draw i) ++ " "
      if shouldStop out then (1, true)
      else
        let rest := chatTurns draw left (i + 1) out
        (rest.1 + 1, rest.2)

/-- The words that are drawn from turn `i` on. -/
def drawn (draw : Nat → UInt64) : Nat → Nat → List String
  | 0, _ => []
  | left + 1, i => wordAt (draw i) :: drawn draw left (i + 1)

/-- The words up to the first stop word. -/
def upToStop : List String → List String
  | [] => []
  | w :: rest => if shouldStop w then [w] else w :: upToStop rest

theorem shouldStop_append (s t : String) :
    shouldStop (s ++ " " ++ t) = (shouldStop s || shouldStop t) := by
  unfold shouldStop
  rw [Text.contains_append_space (by decide), Text.contains_append_space (by decide),
    Text.contains_append_space (by decide), Text.contains_append_space (by decide)]
  simp only [Bool.or_assoc, Bool.or_left_comm]

/-- A text of words is to stop if one of the words is a stop word. -/
theorem shouldStop_spaced (words : List String) :
    shouldStop (Text.spaced words) = words.any shouldStop := by
  induction words with
  | nil => decide
  | cons w words ih => rw [Text.spaced_cons, shouldStop_append, ih, List.any_cons]

section Loop

variable (draw : Nat → UInt64) {before : List String}

theorem shouldStop_next (unstopped : before.any shouldStop = false) (w : String) :
    shouldStop (Text.spaced before ++ w ++ " ") = shouldStop w := by
  rw [← Text.spaced_concat, shouldStop_spaced, List.any_append, unstopped, List.any_cons,
    List.any_nil, Bool.or_false, Bool.false_or]

theorem unstopped_concat (unstopped : before.any shouldStop = false) {w : String}
    (goesOn : ¬ shouldStop w = true) : (before ++ [w]).any shouldStop = false := by
  rw [List.any_append, unstopped, List.any_cons, Bool.eq_false_iff.mpr goesOn]
  rfl

/-- The loop generates the words up to the first stop word. -/
theorem streamLoop_spaced (unstopped : before.any shouldStop = false) (left i : Nat) :
    streamLoop draw background left i (Text.spaced before) = upToStop (drawn draw left i) := by
  induction left generalizing i before with
  | zero => rfl
  | succ left ih =>
      simp only [streamLoop, background, Bool.false_eq_true, if_false, drawn, upToStop,
        shouldStop_next unstopped]
      by_cases stops : shouldStop (wordAt (draw i)) = true
      · rw [if_pos stops, if_pos stops]
      · rw [if_neg stops, if_neg stops, ← Text.spaced_concat]
        exact congrArg _ (ih (unstopped_concat unstopped stops) (i + 1))

/-- Each of those words is one turn, and the loop is ended by a stop word if there is one. -/
theorem chatTurns_spaced (unstopped : before.any shouldStop = false) (left i : Nat) :
    chatTurns draw left i (Text.spaced before) =
      ((upToStop (drawn draw left i)).length, (drawn draw left i).any shouldStop) := by
  induction left generalizing i before with
  | zero => rfl
  | succ left ih =>
      simp only [chatTurns, drawn, upToStop, shouldStop_next unstopped, List.any_cons]
      by_cases stops : shouldStop (wordAt (draw i)) = true
      · rw [if_pos stops, if_pos stops, stops]
        rfl
      · rw [if_neg stops, if_neg stops, ← Text.spaced_concat,
          ih (unstopped_concat unstopped stops) (i + 1), Bool.eq_false_iff.mpr stops]
        rfl

theorem length_upToStop_le (words : List String) : (upToStop words).length ≤ words.length := by
  induction words with
  | nil => exact Nat.le_refl _
  | cons w words ih =>
      unfold upToStop
      split
      · exact Nat.succ_le_succ (Nat.zero_le _)
      · exact Nat.succ_le_succ ih

theorem length_drawn (left i : Nat) : (drawn draw left i).length = left := by
  induction left generalizing i with
  | zero => rfl
  | succ left ih => rw [drawn, List.length_cons, ih]

end Loop

/-! ## Answers -/

/-- The words that the limit allows for a request with this last message. -/
def offered (newRand : Generator) (req : ChatRequest) (last : Message) : List String :=
  drawn (newRand (req.model ++ ":" ++ chatPrompt req.messages last)) (limit req).toInt.toNat 0

/-- The turns of the loop for a request, and whether `shouldStop` ended it. -/
def turns (newRand : Generator) (req : ChatRequest) (last : Message) : Nat × Bool :=
  chatTurns (newRand (req.model ++ ":" ++ chatPrompt req.messages last)) (limit req).toInt.toNat 0 ""

/-- The words are one for each turn, no more than the limit, and are part of the total. -/
structure Counted (usage : Usage) (turns : Nat) (limit : Int64) : Prop where
  completion : usage.completionTokens = turns
  atMost : (usage.completionTokens : Int) ≤ limit.toInt
  total : usage.totalTokens = usage.promptTokens + usage.completionTokens

/-- The reason is the one for which the loop ended. -/
structure Explained (reason : String) (stopped : Bool) : Prop where
  stop : reason = "stop" ↔ stopped = true
  length : reason = "length" ↔ stopped = false

/-- The bytes of the words, with a space behind each. -/
def bytes (words : List String) : Nat := (words.map fun w => w.toList.length + 1).sum

/-- There is a stop word exactly if the words up to it, or all words if there is none, have
at least five bytes for each word of the limit; the product is one of 64 bits. -/
def Telling (words : List String) (limit : Int64) : Prop :=
  (∃ w ∈ words, shouldStop w = true) ↔ limit * 5 ≤ Int64.ofNat (bytes (upToStop words))

theorem isPlainWord_vocab : ∀ w ∈ vocab, Text.isPlainWord w = true := by
  have all : vocab.all Text.isPlainWord = true := by decide +kernel
  exact List.all_eq_true.mp all

section Answers

variable (newRand : Generator) (req : ChatRequest) (last : Message)

theorem wordsFor_eq_upToStop :
    wordsFor newRand req (chatPrompt req.messages last) = upToStop (offered newRand req last) :=
  streamLoop_spaced _ List.any_nil _ 0

theorem turns_eq :
    turns newRand req last =
      ((upToStop (offered newRand req last)).length, (offered newRand req last).any shouldStop) :=
  chatTurns_spaced _ List.any_nil _ 0

theorem length_upToStop_offered :
    ((upToStop (offered newRand req last)).length : Int) ≤ (limit req).toInt := by
  have atMost := length_upToStop_le (offered newRand req last)
  have length : (offered newRand req last).length = (limit req).toInt.toNat := length_drawn _ _ 0
  obtain ⟨left, isLimit⟩ := limit_pos req
  omega

theorem counted (randID : String) (created : Time) :
    Counted
      (respond randID created req (chatPrompt req.messages last)
        (Text.spaced (wordsFor newRand req (chatPrompt req.messages last)))).usage
      (turns newRand req last).1 (limit req) := by
  have counts : Text.countFields (Text.trimSpace
      (Text.spaced (wordsFor newRand req (chatPrompt req.messages last)))) =
        (upToStop (offered newRand req last)).length := by
    rw [trimSpace_wordsFor, Text.countFields_intercalate (wordsFor_ne_nil newRand _)
      fun w member => isPlainWord_vocab w (mem_vocab_of_mem_streamLoop _ member),
      wordsFor_eq_upToStop]
  refine ⟨?_, ?_, ?_⟩
  · simp only [respond, counts, turns_eq]
  · simp only [respond, counts]
    exact length_upToStop_offered newRand req last
  · simp only [respond]

end Answers

/-- A reason that is found from a comparison is right exactly if the comparison fails when
the loop was stopped. -/
theorem explained_iff (short : Prop) [Decidable short] (stopped : Bool) :
    Explained (if short then "length" else "stop") stopped ↔ (stopped = true ↔ ¬ short) := by
  have isStop : (if short then "length" else "stop") = "stop" ↔ ¬ short := by
    by_cases isShort : short
    · rw [if_pos isShort]
      exact iff_of_false (by decide) (not_not.mpr isShort)
    · rw [if_neg isShort]
      exact iff_of_true rfl isShort
  have isLength : (if short then "length" else "stop") = "length" ↔ short := by
    by_cases isShort : short
    · rw [if_pos isShort]
      exact iff_of_true rfl isShort
    · rw [if_neg isShort]
      exact iff_of_false (by decide) isShort
  constructor
  · intro explained
    exact explained.stop.symm.trans isStop
  · intro tells
    refine ⟨isStop.trans tells.symm, isLength.trans ?_⟩
    rw [← Bool.not_eq_true, tells, not_not]

theorem telling_iff (words : List String) (limit : Int64) :
    (words.any shouldStop = true ↔
      ¬ Int64.ofNat (Text.spaced (upToStop words)).toList.length < limit * 5) ↔
      Telling words limit := by
  rw [Telling, List.any_eq_true, Int64.not_lt, Text.length_spaced, bytes]

/-- Whatever words the generator gives, an answer counts them right, and it explains its end
exactly if the length of the words tells it. -/
theorem chat_accounts_iff (newRand : Generator) (req : ChatRequest) (named : req.model ≠ "")
    {last : Message} (isLast : req.messages.getLast? = some last) (randID : String)
    (created : Time) :
    ∃ resp choice, chat newRand background randID created req = some (.ok resp) ∧
      resp.choices = [choice] ∧
      Counted resp.usage (turns newRand req last).1 (limit req) ∧
      (Explained choice.finishReason (turns newRand req last).2 ↔
        Telling (offered newRand req last) (limit req)) := by
  refine ⟨_, _, chat_eq newRand named isLast randID created, rfl,
    counted newRand req last randID created, ?_⟩
  rw [← telling_iff, turns_eq, ← wordsFor_eq_upToStop]
  exact explained_iff _ _

/-- Three short words and no stop word: the limit is reached, and the answer says so. -/
theorem short_words_account :
    ∃ resp choice,
      chat newRand background "aaaaaaaaaaaa" ⟨0⟩ ⟨"tiny", [⟨"user", "ok"⟩], 3⟩ = some (.ok resp) ∧
        resp.choices = [choice] ∧ Counted resp.usage 3 3 ∧
        Explained choice.finishReason false := by
  have isTurns : turns newRand ⟨"tiny", [⟨"user", "ok"⟩], 3⟩ ⟨"user", "ok"⟩ = (3, false) := by
    decide +kernel
  have tells : Telling (offered newRand ⟨"tiny", [⟨"user", "ok"⟩], 3⟩ ⟨"user", "ok"⟩) 3 := by
    unfold Telling
    decide +kernel
  have isLast : [⟨"user", "ok"⟩].getLast? = some (⟨"user", "ok"⟩ : Message) := rfl
  obtain ⟨resp, choice, answered, only, counts, explained⟩ := chat_accounts_iff newRand
    ⟨"tiny", [⟨"user", "ok"⟩], 3⟩ (by decide) isLast "aaaaaaaaaaaa" ⟨0⟩
  rw [isTurns] at counts explained
  exact ⟨resp, choice, answered, only, counts, explained.mpr tells⟩

/-- Five words of which the last is `ack` are said to have reached the limit, and three words
without a stop word to have been stopped. -/
theorem reason_misread :
    (∃ resp, chat newRand background "aaaaaaaaaaaa" ⟨0⟩ ⟨"tiny", [⟨"user", "hello"⟩], 5⟩ =
          some (.ok resp) ∧
        resp.choices = [⟨0, ⟨"assistant", "running of an this ack"⟩, "length"⟩] ∧
        turns newRand ⟨"tiny", [⟨"user", "hello"⟩], 5⟩ ⟨"user", "hello"⟩ = (5, true)) ∧
      ∃ resp, chat newRand background "aaaaaaaaaaaa" ⟨0⟩ ⟨"tiny", [⟨"user", "test"⟩], 3⟩ =
          some (.ok resp) ∧
        resp.choices = [⟨0, ⟨"assistant", "yes node hello"⟩, "stop"⟩] ∧
        turns newRand ⟨"tiny", [⟨"user", "test"⟩], 3⟩ ⟨"user", "test"⟩ = (3, false) := by
  refine ⟨⟨_, chat_eq newRand (by decide) rfl _ _, by decide +kernel, by decide +kernel⟩, _,
    chat_eq newRand (by decide) rfl _ _, by decide +kernel, by decide +kernel⟩

end MiniCloud.Llm
