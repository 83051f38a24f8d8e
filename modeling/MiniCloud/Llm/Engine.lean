import MiniCloud.Library.Pcg
import MiniCloud.Library.Words
import MiniCloud.State.Methods

/-!
# The tiny engine

`Chat` and `Stream` draw words from a small vocabulary until a stop word has come up or
the limit is reached.  The numbers that choose the words come from a generator that is
built from the model and the prompt.  `Chat` returns the words as one text, `Stream`
sends them one by one.
-/

namespace MiniCloud.Llm

open MiniCloud.Library
open MiniCloud.State (Time)

structure Message where
  role : String
  content : String
  deriving DecidableEq, Repr

/-- A request; `Temperature` and `Stream` make no difference to the engine. -/
structure ChatRequest where
  model : String
  messages : List Message
  maxTokens : Int64

structure Choice where
  index : Nat
  message : Message
  finishReason : String
  deriving DecidableEq, Repr

structure Usage where
  promptTokens : Nat
  completionTokens : Nat
  totalTokens : Nat
  deriving DecidableEq, Repr

structure Response where
  id : String
  model : String
  created : Time
  choices : List Choice
  usage : Usage

def vocab : List String :=
  ["the", "a", "an", "of", "to", "and", "in", "on", "for", "with",
    "cloud", "model", "workload", "node", "service", "deployment",
    "hello", "world", "this", "that", "is", "are", "be", "or", "not",
    "yes", "no", "ok", "ack", "running", "scheduled", "ready", "complete",
    "data", "compute", "storage", "network", "policy", "role", "key",
    "happy", "thanks", "welcome"]

/-- The word that a number chooses. -/
def wordAt (n : UInt64) : String := vocab.getD (n % UInt64.ofNat vocab.length).toNat ""

def shouldStop (s : String) : Bool :=
  Text.contains s "ack" || Text.contains s "complete" || Text.contains s "ready" ||
    Text.contains s "thanks"

/-- The numbers drawn one after the other from the generator built from a text. -/
abbrev Generator := String → Nat → UInt64

def newRand : Generator := fun seed => Pcg.draw (Pcg.seeded (fnv1a seed) (fnv1a seed))

/-- What the loops see of the context: its error when turn `i` begins, and whether it is
done while the word of turn `i` waits to be received. -/
structure Context where
  err : Nat → Option String
  doneSending : Nat → Bool

/-- A context that is never cancelled. -/
def background : Context := ⟨fun _ => none, fun _ => false⟩

/-- All messages with their roles. -/
def transcript (messages : List Message) : String :=
  messages.foldl (fun b m => b ++ m.role ++ ":" ++ m.content ++ "\n") ""

/-- The greatest number of words. -/
def limit (req : ChatRequest) : Int64 := if req.maxTokens ≤ 0 then 64 else req.maxTokens

/-! ## Chat -/

/-- The loop of `Chat`: turns left, the number of the turn, and the text so far. -/
def chatLoop (draw : Nat → UInt64) (ctx : Context) : Nat → Nat → String → Except String String
  | 0, _, out => .ok out
  | left + 1, i, out =>
      match ctx.err i with
      | some err => .error err
      | none =>
          let out := out ++ wordAt (draw i) ++ " "
          if shouldStop out then .ok out else chatLoop draw ctx left (i + 1) out

/-- The prompt of `Chat`: the last message if it is the only one, else all of them. -/
def chatPrompt (messages : List Message) (last : Message) : String :=
  if 1 < messages.length then transcript messages else last.content

/-- The answer for the generated text, with the product of the limit wrapping around. -/
def respond (randID : String) (created : Time) (req : ChatRequest) (prompt out : String) :
    Response :=
  let finish := if Int64.ofNat out.toList.length < limit req * 5 then "length" else "stop"
  let content := Text.trimSpace out
  { id := "chatcmpl-" ++ randID
    model := req.model
    created := created
    choices := [⟨0, ⟨"assistant", content⟩, finish⟩]
    usage := ⟨Text.countFields prompt, Text.countFields content,
      Text.countFields prompt + Text.countFields content⟩ }

/-- The last message of an empty list is an index out of range, and panics. -/
def chat (newRand : Generator) (ctx : Context) (randID : String) (created : Time)
    (req : ChatRequest) : Option (Except String Response) :=
  if req.model = "" then some (.error "llm: model required")
  else
    req.messages.getLast?.map fun last =>
      let prompt := chatPrompt req.messages last
      let draw := newRand (req.model ++ ":" ++ prompt)
      (chatLoop draw ctx (limit req).toInt.toNat 0 "").map (respond randID created req prompt)

/-! ## Stream -/

/-- The loop of `Stream`, with the words that are received. -/
def streamLoop (draw : Nat → UInt64) (ctx : Context) : Nat → Nat → String → List String
  | 0, _, _ => []
  | left + 1, i, out =>
      match ctx.err i with
      | some _ => []
      | none =>
          let tok := wordAt (draw i)
          let out := out ++ tok ++ " "
          if ctx.doneSending i then []
          else if shouldStop out then [tok]
          else tok :: streamLoop draw ctx left (i + 1) out

/-- The words that a reader receives before the channel is closed. -/
def stream (newRand : Generator) (ctx : Context) (req : ChatRequest) :
    Option (Except String (List String)) :=
  if req.model = "" then some (.error "llm: model required")
  else
    req.messages.getLast?.map fun last =>
      .ok (streamLoop (newRand (req.model ++ ":" ++ last.content)) ctx (limit req).toInt.toNat 0 "")

end MiniCloud.Llm
