import MiniCloud.Inference.Router
import MiniCloud.Llm.Agreement

/-!
# Answers and streams

The router has an answer for every request, since it turns away what the engines would
panic on.  A client that has read any part of a stream holds the first tokens of the
engine, and all of them once it has seen `[DONE]`.
-/

namespace MiniCloud.Inference

open MiniCloud.Library
open MiniCloud.Library.Codec
open MiniCloud.Library.Text (hasSuffix)
open MiniCloud.Llm (Context Engine Generator Registration Registry)
open MiniCloud.State (Time)

/-! ## Requests that reach an engine -/

/-- A chat request whose body is decoded and has a model and a message. -/
structure Accepted (router : Router) (req : Request) (body : ChatRequestBody) : Prop where
  isPost : req.method = "POST"
  isChat : hasSuffix req.path "/chat/completions" = true
  decoded : router.decode req.body = .ok body
  named : body.model ≠ ""
  given : body.messages ≠ []

namespace Accepted

variable {router : Router} {clock : Clock} {req : Request} {body : ChatRequestBody}

theorem handled (accepted : Accepted router req body) :
    router.serveHTTP clock req =
      let eng := router.registry.resolve router.fresh body.model
      if body.stream then router.streamChat clock req eng (Router.chatRequest body)
      else
        match eng.chat req.ctx (Router.chatRequest body) with
        | none => none
        | some (.error err) => some (httpError err 500)
        | some (.ok resp) => Router.chatAnswer clock req body.model resp := by
  have notModels : ¬(req.path = "/v1/models" ∧ req.method = "GET") := by
    rintro ⟨-, isGet⟩
    rw [accepted.isPost] at isGet
    exact absurd isGet (by decide)
  have complete : ¬(body.model = "" ∨ body.messages.length = 0) := by
    rintro (unnamed | empty)
    · exact accepted.named unnamed
    · exact accepted.given (List.eq_nil_of_length_eq_zero empty)
  rw [Router.serveHTTP, if_neg notModels, if_pos ⟨accepted.isChat, accepted.isPost⟩,
    Router.handleChat, accepted.decoded]
  exact if_neg complete

/-- The bytes of the stream, when the engine has begun one. -/
theorem streamed (accepted : Accepted router req body) (asked : body.stream = true)
    (flushes : req.flushes = true) {tokens : List String}
    (begun : (router.registry.resolve router.fresh body.model).stream req.ctx
      (Router.chatRequest body) = some (.ok tokens)) :
    router.serveHTTP clock req = some ⟨200, "text/event-stream",
      .events (Event.bytes (Router.streamEvents clock body.model req.done 0 tokens))⟩ := by
  rw [accepted.handled]
  simp only [asked, if_true, Router.streamChat, flushes, begun, Option.map_some]
  rfl

/-- The answer without a stream, when the engine has one. -/
theorem answered (accepted : Accepted router req body) (notAsked : body.stream = false)
    {resp : Llm.Response} {choice : Llm.Choice}
    (chatted : (router.registry.resolve router.fresh body.model).chat req.ctx
      (Router.chatRequest body) = some (.ok resp)) (first : resp.choices.head? = some choice) :
    router.serveHTTP clock req = some ⟨200, "application/json",
      .chat (Router.chatBody clock req body.model resp choice)⟩ := by
  rw [accepted.handled]
  simp only [notAsked, Bool.false_eq_true, if_false, chatted, Router.chatAnswer, first,
    Option.map_some]

end Accepted

/-! ## Every request is answered -/

/-- An engine that panics on no request with a model and a message, and whose answers have a
choice. -/
structure Sound (eng : Engine) : Prop where
  chat : ∀ ctx req, req.model ≠ "" → req.messages ≠ [] →
    ∃ result, eng.chat ctx req = some result ∧ ∀ resp, result = .ok resp → resp.choices ≠ []
  stream : ∀ ctx req, req.model ≠ "" → req.messages ≠ [] → eng.stream ctx req ≠ none

theorem sound_tinyEngine (newRand : Generator) (randID : String) (created : Time) :
    Sound (Llm.tinyEngine newRand randID created) where
  chat ctx req named given := by
    have isLast := List.getLast?_eq_some_getLast given
    simp only [Llm.tinyEngine, Llm.chat, if_neg named, isLast, Option.map_some]
    refine ⟨_, rfl, ?_⟩
    intro resp answered
    cases looped : Llm.chatLoop (newRand (req.model ++ ":" ++
        Llm.chatPrompt req.messages (req.messages.getLast given))) ctx
        (Llm.limit req).toInt.toNat 0 "" with
    | error err =>
        rw [looped] at answered
        cases answered
    | ok out =>
        rw [looped] at answered
        cases answered
        exact List.cons_ne_nil _ _
  stream ctx req named given := by
    have isLast := List.getLast?_eq_some_getLast given
    simp only [Llm.tinyEngine, Llm.stream, if_neg named, isLast, Option.map_some]
    exact Option.some_ne_none _

/-- The engines that were registered, and the fresh one, are all that is resolved. -/
theorem sound_resolve {calls : List Registration} {fresh : Engine}
    (sound : ∀ call ∈ calls, ∀ eng, call.engine = some eng → Sound eng) (soundFresh : Sound fresh)
    (name : String) : Sound ((Registry.after calls).resolve fresh name) := by
  unfold Registry.resolve
  rw [Registry.engines_after]
  cases last : ((Registry.registered calls name).filterMap Registration.engine).getLast? with
  | none => exact soundFresh
  | some eng =>
      obtain ⟨call, stored, given⟩ := List.mem_filterMap.mp (List.mem_of_getLast? last)
      exact sound call (List.mem_of_mem_filter stored) eng given

/-- The codes of the router's answers. -/
def codes : List Nat := [200, 400, 404, 500]

/-- There is an answer, with one of the codes. -/
def Answered (result : Option Answer) : Prop := ∃ answer, result = some answer ∧ answer.status ∈ codes

theorem answered_of_status {answer : Answer} (code : Nat) (isCode : answer.status = code)
    (listed : code ∈ codes) : Answered (some answer) :=
  ⟨answer, rfl, isCode ▸ listed⟩

theorem answered_streamChat {router : Router} {clock : Clock} {req : Request} {eng : Engine}
    {llmReq : Llm.ChatRequest} (streams : eng.stream req.ctx llmReq ≠ none) :
    Answered (router.streamChat clock req eng llmReq) := by
  unfold Router.streamChat
  split
  · obtain ⟨result, begun⟩ := Option.ne_none_iff_exists'.mp streams
    rw [begun]
    cases result with
    | error err => exact answered_of_status 200 rfl (by decide)
    | ok tokens => exact answered_of_status 200 rfl (by decide)
  · exact answered_of_status 500 rfl (by decide)

def helloEngine : Engine := Llm.tinyEngine Llm.newRand "aaaaaaaaaaaa" ⟨0⟩

/-- A request with one message, as a stream or not. -/
def helloBody (stream : Bool) : String :=
  "\x7b\"model\":\"tiny\",\"messages\":[\x7b\"role\":\"user\",\"content\":\"hello\"\x7d]," ++
    "\"max_tokens\":8,\"stream\":" ++ (if stream then "true" else "false") ++ "\x7d"

/-- A router with a registered engine; no other body is decoded and no error quoted below. -/
def helloRouter : Router where
  registry := .after [⟨⟨0⟩, ⟨"tiny", "1", "tiny", ⟨0⟩⟩, some helloEngine⟩]
  fresh := Llm.tinyEngine Llm.newRand "bbbbbbbbbbbb" ⟨0⟩
  decode text :=
    if text = helloBody true then .ok ⟨"tiny", [⟨"user", "hello"⟩], 8, true⟩
    else if text = helloBody false then .ok ⟨"tiny", [⟨"user", "hello"⟩], 8, false⟩
    else .error "EOF"
  quoted _ := []

def helloRequest (stream : Bool) : Request :=
  { method := "POST"
    path := "/v1/chat/completions"
    header := fun _ => ""
    body := helloBody stream
    ctx := Llm.background
    done := fun _ => false
    flushes := true }

section Streams

variable (clock : Clock) (model : String) (done : Nat → Bool)

theorem tokens_streamEvents_isPrefix (i : Nat) (tokens : List String) :
    Event.tokens (Router.streamEvents clock model done i tokens) <+: tokens := by
  induction tokens generalizing i with
  | nil => exact List.nil_prefix
  | cons tok tokens ih =>
      unfold Router.streamEvents
      split
      · exact List.nil_prefix
      · exact (List.prefix_cons_inj tok).mpr (ih (i + 1))

/-- The events up to `[DONE]` hold every token. -/
theorem tokens_of_done_mem {i : Nat} {tokens : List String} {seen : List Event}
    (isPart : seen <+: Router.streamEvents clock model done i tokens)
    (finished : Event.done ∈ seen) : Event.tokens seen = tokens := by
  induction tokens generalizing i seen with
  | nil =>
      rcases List.prefix_cons_iff.mp isPart with rfl | ⟨rest, rfl, isRest⟩
      · cases finished
      · rw [List.prefix_nil.mp isRest]
        rfl
  | cons tok tokens ih =>
      unfold Router.streamEvents at isPart
      split at isPart
      · rw [List.prefix_nil.mp isPart] at finished
        cases finished
      · rcases List.prefix_cons_iff.mp isPart with rfl | ⟨rest, rfl, isRest⟩
        · cases finished
        · have later : Event.done ∈ rest := by simpa using finished
          exact congrArg (tok :: ·) (ih isRest later)

theorem done_mem_streamEvents {i : Nat} {tokens : List String}
    (open' : ∀ k, k < tokens.length → done (i + k) = false) :
    Event.done ∈ Router.streamEvents clock model done i tokens := by
  induction tokens generalizing i with
  | nil => exact List.mem_singleton.mpr rfl
  | cons tok tokens ih =>
      have first : done i = false := open' 0 (Nat.zero_lt_succ _)
      rw [Router.streamEvents, first, if_neg Bool.false_ne_true]
      refine List.mem_cons_of_mem _ (ih ?_)
      intro k below
      rw [Nat.add_assoc, Nat.add_comm 1 k]
      exact open' (k + 1) (Nat.succ_lt_succ below)

end Streams

theorem Event.codec_begins : codec.Begins fun b => !(b == newline) := fun _ => ⟨100, _, rfl, rfl⟩

theorem Event.read_bytes (events : List Event) : read (bytes events) = (events, .clean) := by
  obtain ⟨fuel, enough, stream⟩ := readStream_lines codec_begins newline rfl events []
  obtain ⟨fuel, rfl⟩ := Nat.exists_eq_succ_of_ne_zero (Nat.ne_of_gt enough)
  rw [List.append_nil] at stream
  refine stream.trans ?_
  rw [readAll]
  simp

theorem Event.read_part {events : List Event} {part missing : List UInt8}
    (split : bytes events = part ++ missing) :
    (read part).1 <+: events ∧ (read part).2 ≠ .malformed := by
  have isBlank : (newline == newline) = true := rfl
  exact readStream_cut codec_begins isBlank split

/-- A client that has read any part of the bytes of a stream holds the first tokens of the
engine, and nothing malformed; once it has seen `[DONE]` it holds all of them.  The whole
bytes are read as all tokens, with `[DONE]`, if the context was never done. -/
theorem streamed_tokens (router : Router) (clock : Clock) {req : Request} {body : ChatRequestBody}
    (accepted : Accepted router req body) (asked : body.stream = true)
    (flushes : req.flushes = true) {tokens : List String}
    (begun : (router.registry.resolve router.fresh body.model).stream req.ctx
      (Router.chatRequest body) = some (.ok tokens)) :
    ∃ bytes, router.serveHTTP clock req = some ⟨200, "text/event-stream", .events bytes⟩ ∧
      (∀ part missing, bytes = part ++ missing →
        Event.tokens (Event.read part).1 <+: tokens ∧ (Event.read part).2 ≠ .malformed ∧
          (Event.done ∈ (Event.read part).1 → Event.tokens (Event.read part).1 = tokens)) ∧
      ((∀ k, k < tokens.length → req.done k = false) →
        Event.tokens (Event.read bytes).1 = tokens ∧ Event.done ∈ (Event.read bytes).1) := by
  refine ⟨_, accepted.streamed asked flushes begun, ?_, ?_⟩
  · intro part missing split
    obtain ⟨isPart, wellFormed⟩ := Event.read_part split
    refine ⟨?_, wellFormed, tokens_of_done_mem clock body.model req.done isPart⟩
    exact (isPart.filterMap _).trans (tokens_streamEvents_isPrefix clock body.model req.done 0 tokens)
  · intro running
    have finished : Event.done ∈ Router.streamEvents clock body.model req.done 0 tokens :=
      done_mem_streamEvents clock body.model req.done
        (by intro k below; rw [Nat.zero_add]; exact running k below)
    rw [Event.read_bytes]
    exact ⟨tokens_of_done_mem clock body.model req.done (List.prefix_refl _) finished, finished⟩

theorem accepted_hello (stream : Bool) :
    Accepted helloRouter (helloRequest stream) ⟨"tiny", [⟨"user", "hello"⟩], 8, stream⟩ where
  isPost := rfl
  isChat := show hasSuffix "/v1/chat/completions" "/chat/completions" = true by decide
  decoded := by
    have differ : helloBody false ≠ helloBody true := by decide
    cases stream with
    | true => simp [helloRouter, helloRequest]
    | false => simp [helloRouter, helloRequest, differ]
  named := show "tiny" ≠ "" by decide
  given := List.cons_ne_nil _ _

theorem streamed_tokens_hello :
    ∃ bytes, helloRouter.serveHTTP ⟨id, id⟩ (helloRequest true) =
        some ⟨200, "text/event-stream", .events bytes⟩ ∧
      Event.tokens (Event.read bytes).1 =
        Llm.wordsFor Llm.newRand ⟨"tiny", [⟨"user", "hello"⟩], 8⟩ "hello" := by
  have isLast : (Llm.ChatRequest.mk "tiny" [⟨"user", "hello"⟩] 8).messages.getLast? =
      some ⟨"user", "hello"⟩ := rfl
  have begun := Llm.stream_eq Llm.newRand (show "tiny" ≠ "" by decide) isLast
  obtain ⟨bytes, answered, -, whole⟩ := streamed_tokens helloRouter ⟨id, id⟩
    (accepted_hello true) rfl rfl begun
  exact ⟨bytes, answered, (whole fun _ _ => rfl).1⟩

/-! ## The same request as a stream and as one answer -/

/-- Take one message for a model that the tiny engine serves, once as a stream and once not.
The tokens that a client reads from the stream, joined with spaces, are the content of the
one choice of the other answer. -/
theorem stream_joins_to_answer (router : Router) (clock : Clock) {newRand : Generator}
    {randID : String} {created : Time} {message : ChatMessage} (body : ChatRequestBody)
    (tiny : router.registry.resolve router.fresh body.model =
      Llm.tinyEngine newRand randID created)
    (one : body.messages = [message]) {streaming plain : Request}
    (asStream : Accepted router streaming { body with stream := true })
    (asOne : Accepted router plain { body with stream := false })
    (streamCtx : streaming.ctx = Llm.background) (plainCtx : plain.ctx = Llm.background)
    (running : ∀ k, streaming.done k = false) (flushes : streaming.flushes = true) :
    ∃ bytes value,
      router.serveHTTP clock streaming = some ⟨200, "text/event-stream", .events bytes⟩ ∧
      router.serveHTTP clock plain = some ⟨200, "application/json", .chat value⟩ ∧
      value.choices.map (fun choice => choice.message.content) =
        [" ".intercalate (Event.tokens (Event.read bytes).1)] := by
  have isLast : (Router.chatRequest body).messages.getLast? = some ⟨message.role, message.content⟩ := by
    simp [Router.chatRequest, one]
  have alone : Llm.chatPrompt (Router.chatRequest body).messages ⟨message.role, message.content⟩ =
      message.content := by
    simp [Llm.chatPrompt, Router.chatRequest, one]
  let words := Llm.wordsFor newRand (Router.chatRequest body) message.content
  have begun : (router.registry.resolve router.fresh body.model).stream streaming.ctx
      (Router.chatRequest { body with stream := true }) = some (.ok words) := by
    rw [tiny, streamCtx]
    exact Llm.stream_eq newRand asStream.named isLast
  have chatted : (router.registry.resolve router.fresh body.model).chat plain.ctx
      (Router.chatRequest { body with stream := false }) =
        some (.ok (Llm.respond randID created (Router.chatRequest body) message.content
          (Text.spaced words))) := by
    rw [tiny, plainCtx]
    refine (Llm.chat_eq newRand asOne.named isLast randID created).trans ?_
    rw [alone]
  refine ⟨_, _, asStream.streamed rfl flushes begun, asOne.answered rfl chatted rfl, ?_⟩
  have finished : Event.done ∈ Router.streamEvents clock body.model streaming.done 0 words :=
    done_mem_streamEvents clock body.model streaming.done fun k _ => running _
  rw [Event.read_bytes, tokens_of_done_mem clock body.model streaming.done (List.prefix_refl _) finished]
  exact congrArg (fun content => [content]) (Llm.trimSpace_wordsFor newRand _)

theorem stream_joins_to_answer_hello :
    ∃ bytes value,
      helloRouter.serveHTTP ⟨id, id⟩ (helloRequest true) =
        some ⟨200, "text/event-stream", .events bytes⟩ ∧
      helloRouter.serveHTTP ⟨id, id⟩ (helloRequest false) =
        some ⟨200, "application/json", .chat value⟩ ∧
      value.choices.map (fun choice => choice.message.content) =
        [" ".intercalate (Event.tokens (Event.read bytes).1)] :=
  stream_joins_to_answer helloRouter ⟨id, id⟩ ⟨"tiny", [⟨"user", "hello"⟩], 8, false⟩
    rfl rfl (accepted_hello true) (accepted_hello false) rfl rfl (fun _ => rfl) rfl

end MiniCloud.Inference
