import MiniCloud.Library.JsonText
import MiniCloud.Library.Text
import MiniCloud.Llm.Registry

/-!
# The chat router

`ServeHTTP` answers chat requests with the engine of the model.  An answer is one JSON
object, or a stream of server-sent events with one event for each token and a last one
that says `[DONE]`.  A request whose context is done while tokens arrive gets no further
events.  The decoding of the request and the quoting of `%q` are parameters; the events
are given byte by byte.
-/

namespace MiniCloud.Inference

open MiniCloud.Library
open MiniCloud.Library.Codec
open MiniCloud.Library.JsonText (ascii)
open MiniCloud.Library.Text (hasSuffix)
open MiniCloud.Llm (Context Engine Registry)

structure ChatMessage where
  role : String
  content : String
  deriving DecidableEq, Repr

/-- The body of a chat request; no engine of the platform reads `Temperature`. -/
structure ChatRequestBody where
  model : String
  messages : List ChatMessage
  maxTokens : Int64
  stream : Bool
  deriving DecidableEq

structure Choice where
  index : Nat
  message : ChatMessage
  finishReason : String
  deriving DecidableEq, Repr

structure Usage where
  promptTokens : Nat
  completionTokens : Nat
  totalTokens : Nat
  deriving DecidableEq, Repr

structure ChatResponseBody where
  id : String
  object : String
  created : Nat
  model : String
  choices : List Choice
  usage : Usage
  deriving DecidableEq, Repr

structure Model where
  id : String
  object : String
  created : Nat
  ownedBy : String
  deriving DecidableEq, Repr

structure ModelsResponse where
  object : String
  data : List Model
  deriving DecidableEq, Repr

/-- A body of an answer: a text, a JSON value, or the bytes of the events. -/
inductive Body where
  | text (text : String)
  | chat (value : ChatResponseBody)
  | models (value : ModelsResponse)
  | events (bytes : List UInt8)
  deriving DecidableEq, Repr

structure Answer where
  status : Nat
  contentType : String
  body : Body
  deriving DecidableEq, Repr

def httpError (text : String) (code : Nat) : Answer :=
  ⟨code, "text/plain; charset=utf-8", .text (text ++ "\n")⟩

def notFound : Answer := httpError "404 page not found" 404

structure Request where
  method : String
  path : String
  header : String → String
  body : String
  /-- What the engine sees of the context. -/
  ctx : Context
  /-- Whether the context is done when token `i` has been received. -/
  done : Nat → Bool
  /-- Whether the writer of the answer is an `http.Flusher`. -/
  flushes : Bool

/-- The clock in turn `i` of a loop, or in turn 0 outside of one, as seconds and as
nanoseconds. -/
structure Clock where
  unix : Nat → Nat
  unixNano : Nat → Nat

structure Router where
  registry : Registry
  /-- The engine that `Resolve` makes for a model without one. -/
  fresh : Engine
  decode : String → Except String ChatRequestBody
  /-- The verb `%q`. -/
  quoted : String → List UInt8

/-! ## Events -/

/-- An event of a stream, with the values of its JSON object that vary. -/
inductive Event where
  | chunk (content : String) (created id : Nat) (model : String)
  | done
  deriving DecidableEq, Repr

namespace Event

/-- A number ends at a comma and at a quotation mark. -/
theorem not_digit_comma : JsonText.isDigit 44 = false := rfl

theorem not_digit_quote : JsonText.isDigit 34 = false := rfl

/-- The JSON object of a chunk, with the keys in increasing order, and the newline. -/
def chunkCodec : Codec UInt8 (String × Nat × Nat × String) :=
  (after (ascii "\x7b\"choices\":[\x7b\"delta\":\x7b\"content\":\"") (pair JsonText.string
    (after (ascii "\x7d,\"index\":0\x7d],\"created\":") (pair (JsonText.number 44 not_digit_comma)
      (after (ascii "\"id\":\"chatcmpl-") (pair (JsonText.number 34 not_digit_quote)
        (after (ascii ",\"model\":\"") (pair JsonText.string
          (literal (ascii ",\"object\":\"chat.completion.chunk\"\x7d\n")))))))))).map
    (fun (content, created, id, model) => (content, created, id, model, ()))
    (fun (content, created, id, model, _) => some (content, created, id, model))
    fun _ => rfl

/-- The line of an event. -/
def codec : Codec UInt8 Event :=
  (after (ascii "data: ") (either chunkCodec (literal (ascii "[DONE]\n")) (fun b => b == 123)
    (fun _ => ⟨123, _, rfl, rfl⟩) fun _ => ⟨91, _, rfl, rfl⟩)).map
    (fun
      | .chunk content created id model => .inl (content, created, id, model)
      | .done => .inr ())
    (fun
      | .inl (content, created, id, model) => some (.chunk content created id model)
      | .inr _ => some .done)
    fun event => by cases event <;> rfl

def newline : UInt8 := 10

/-- The events as they are written, each with an empty line behind it. -/
def bytes (events : List Event) : List UInt8 :=
  events.flatMap fun event => codec.encode event ++ [newline]

example : bytes [.chunk "a<b" 5 70 "tiny", .done] = ascii
    ("data: \x7b\"choices\":[\x7b\"delta\":\x7b\"content\":\"a\\u003cb\"\x7d,\"index\":0\x7d]," ++
      "\"created\":5,\"id\":\"chatcmpl-70\",\"model\":\"tiny\"," ++
      "\"object\":\"chat.completion.chunk\"\x7d\n\ndata: [DONE]\n\n") := by
  decide +kernel

/-- What a reader of the stream makes of its bytes, skipping empty lines. -/
def read (bytes : List UInt8) : List Event × Ending := codec.readStream (fun b => b == newline) bytes

def content? : Event → Option String
  | .chunk content _ _ _ => some content
  | .done => none

/-- The tokens of some events. -/
def tokens (events : List Event) : List String := events.filterMap content?

end Event

/-! ## Handlers -/

namespace Router

variable (router : Router) (clock : Clock)

def chatRequest (body : ChatRequestBody) : Llm.ChatRequest :=
  { model := body.model
    messages := body.messages.map fun m => ⟨m.role, m.content⟩
    maxTokens := body.maxTokens }

/-- The loop over the tokens, from turn `i` on. -/
def streamEvents (model : String) (done : Nat → Bool) : Nat → List String → List Event
  | _, [] => [.done]
  | i, tok :: tokens =>
      if done i then []
      else .chunk tok (clock.unix i) (clock.unixNano i) model ::
        streamEvents model done (i + 1) tokens

def streamChat (req : Request) (eng : Engine) (llmReq : Llm.ChatRequest) : Option Answer :=
  if req.flushes then
    (eng.stream req.ctx llmReq).map fun
      | .error err =>
          ⟨200, "text/event-stream",
            .events (ascii "event: error\ndata: " ++ router.quoted err ++ ascii "\n\n")⟩
      | .ok tokens =>
          ⟨200, "text/event-stream",
            .events (Event.bytes (streamEvents clock llmReq.model req.done 0 tokens))⟩
  else some (httpError "streaming unsupported" 500)

/-- The body of an answer for the first choice of an engine. -/
def chatBody (req : Request) (model : String) (resp : Llm.Response) (choice : Llm.Choice) :
    ChatResponseBody :=
  let id := "chatcmpl-" ++ req.header "X-Request-Id"
  { id := if id = "chatcmpl-" then "chatcmpl-" ++ toString (clock.unixNano 0) else id
    object := "chat.completion"
    created := clock.unix 0
    model := model
    choices := [⟨0, ⟨choice.message.role, choice.message.content⟩, choice.finishReason⟩]
    usage := ⟨resp.usage.promptTokens, resp.usage.completionTokens, resp.usage.totalTokens⟩ }

/-- Without a choice the index panics. -/
def chatAnswer (req : Request) (model : String) (resp : Llm.Response) : Option Answer :=
  resp.choices.head?.map fun choice =>
    ⟨200, "application/json", .chat (chatBody clock req model resp choice)⟩

/-- `Resolve` never returns `nil`, so that the answer `model not found` is not given. -/
def handleChat (req : Request) : Option Answer :=
  match router.decode req.body with
  | .error err => some (httpError err 400)
  | .ok body =>
      if body.model = "" ∨ body.messages.length = 0 then
        some (httpError "model and messages required" 400)
      else
        let eng := router.registry.resolve router.fresh body.model
        if body.stream then router.streamChat clock req eng (chatRequest body)
        else
          match eng.chat req.ctx (chatRequest body) with
          | none => none
          | some (.error err) => some (httpError err 500)
          | some (.ok resp) => chatAnswer clock req body.model resp

def handleModels : Answer :=
  ⟨200, "application/json", .models
    { object := "list"
      data := router.registry.names.mapIdx fun i n => ⟨n, "model", clock.unix i, "minicloud"⟩ }⟩

/-- `ServeHTTP`; no answer is a panic, after which the connection is closed. -/
def serveHTTP (req : Request) : Option Answer :=
  if req.path = "/v1/models" ∧ req.method = "GET" then some (router.handleModels clock)
  else if hasSuffix req.path "/chat/completions" = true ∧ req.method = "POST" then
    router.handleChat clock req
  else some notFound

end Router

end MiniCloud.Inference
