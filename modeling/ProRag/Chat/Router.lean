import ProRag.Llm.Pipeline
import ProRag.Operations.Chat

/-!
# `POST /chat` and `POST /chat/stream`
-/

namespace ProRag

open Framework

structure ChatRequest where
  message : String
  chatId : Option Uuid

structure ChatResponse where
  answer : String
  sources : List Source
  messageId : Uuid
  budgetWarning : Option String
deriving DecidableEq

/-- `SYSTEM_PROMPT`. -/
def systemPrompt : String :=
  "You are a helpful assistant that answers strictly from the numbered context " ++
  "blocks below. Cite every claim inline immediately after the sentence it " ++
  "supports using bracketed numbers like [S1], [S2] — never a separate " ++
  "'Sources' section, never markdown links. If the context does not contain " ++
  "the answer, say so plainly."

/-- What `/chat` meets. -/
structure ChatEnv where
  budget : Except PyError (Option String)
  retrieval : RetrievalEnv
  answer : LlmOutcome (Option String)
  persist : PersistEnv

/-- The normalized answer and the sources it cites; a message without content is `None`. -/
def citeAnswer (rawAnswer : Option String) (hits : List Hit) : Except PyError (Text × List Source) :=
  match rawAnswer with
  | none => .error ⟨"TypeError", "expected string or bytes-like object, got 'NoneType'"⟩
  | some rawAnswer =>
    let normalized := normalizeCitations rawAnswer.toList
    resolveCitations normalized hits >>= fun resolved => .ok (normalized, resolved.map fun r => toSource r.1 r.2)

/-- What `/chat/stream` meets.  `gone` says for the frames sent whether the client has gone by then. -/
structure StreamEnv where
  budget : Except PyError (Option String)
  retrieval : RetrievalEnv
  chunks : List ProviderChunk
  waits : Nat → ℚ
  ending : StreamEnd
  gone : List Frame → Bool
  estimateTokens : String → String → Nat
  persist : PersistEnv

section

variable (settings : Settings) (completionCost : CompletionCost) (req : ChatRequest) (user : Option User)

/-- `chat(req, session, user)`. -/
def chat (env : ChatEnv) : RequestTx ChatResponse :=
  Tx.await env.budget >>= fun budgetWarning =>
    retrieve settings completionCost env.retrieval req.message user >>= fun r =>
      answer settings completionCost (idOf user) env.answer >>= fun rawAnswer =>
        Tx.await (citeAnswer rawAnswer r.1) >>= fun cited =>
          persistExchange env.persist req.chatId req.message (String.ofList cited.1) cited.2 >>= fun ids =>
            pure ⟨String.ofList cited.1, cited.2, ids.2, budgetWarning⟩

/-- Frames are yielded, behind those sent before. -/
def send (gone : List Frame → Bool) (before frames : List Frame) : RequestTx Unit :=
  Tx.recordAll (frames.map .sent) >>= fun _ =>
    Tx.await (if gone (before ++ frames) then .error disconnected else .ok ())

/-- `[to_source(i, h) for i, h in enumerate(hits, start=1)]`. -/
def allSources (hits : List Hit) : List Source := hits.zipIdx.map fun p => toSource (p.2 + 1) p.1

def openingFrames (warning : Option String) (r : List Hit × String) : List Frame :=
  .sources (allSources r.1) :: (if r.2 ≠ req.message then [.prefill r.2] else []) ++ warning.toList.map .budget

variable (env : StreamEnv)

/-- The loop over the answer, behind some frames. -/
def StreamEnv.read (before : List Frame) : StreamState × StreamStop :=
  readStream env.waits env.gone env.ending 0 (env.chunks.flatMap ProviderChunk.items) { frames := before }

/-- The usage of the streamed completion: the provider's, or an estimate. -/
def StreamEnv.completion (r : List Hit × String) (st : StreamState) : Completion :=
  let tokens := st.usage.getD (env.estimateTokens settings.answerModel (systemPrompt ++ buildPrompt r.2 r.1),
    env.estimateTokens settings.answerModel (String.ofList st.rawAnswer))
  ⟨settings.answerModel, tokens.1, tokens.2, idOf user⟩

/-- The streamed completion has returned when its stream has ended or the guard has enough of it; a
wait that runs into the heartbeat has cancelled it. -/
def StreamStop.returns : StreamStop → Bool
  | .exhausted | .guarded => true
  | .silent | .raised _ => false

def StreamStop.result : StreamStop → Except PyError Unit
  | .raised exc => .error exc
  | _ => .ok ()

def tailFrames (st : StreamState) : List Frame :=
  if st.guard.flush.1 = [] then [] else [.token st.guard.flush.1]

/-- What happens while the answer is read: its frames, and its call. -/
def StreamEnv.events (r : List Hit × String) (before : List Frame) : List RequestEvent :=
  let read := env.read before
  (read.1.frames.drop before.length).map .sent ++
    [.call ⟨.answer, if read.2.returns then some (env.completion settings user r read.1) else none⟩]

/-- `_stream_frames` behind the answer: its last token, its cost, and its exchange. -/
def finishStream (r : List Hit × String) (st : StreamState) : RequestTx Unit :=
  send env.gone st.frames (tailFrames st) >>= fun _ =>
    trackUsage settings completionCost (env.completion settings user r st) >>= fun _ =>
      persistExchange env.persist req.chatId req.message (String.ofList (normalizeCitations st.rawAnswer))
          ((allSources r.1).filter fun s => s.n ∈ st.citedSeen) >>= fun ids =>
        send env.gone (st.frames ++ tailFrames st) [.metaInfo ids.2 ids.1 st.citedSeen, .done]

/-- `_stream_frames()`. -/
def streamFrames (warning : Option String) : RequestTx Unit :=
  retrieve settings completionCost env.retrieval req.message user >>= fun r =>
    send env.gone [.retry] (openingFrames req warning r) >>= fun _ =>
      let before := .retry :: openingFrames req warning r
      Tx.recordAll (env.events settings user r before) >>= fun _ =>
        Tx.await (env.read before).2.result >>= fun _ =>
          finishStream settings completionCost req user env r (env.read before).1

/-- The `error` frame's message. -/
def streamError : String :=
  "The answer could not be generated. Check the server logs (is an LLM API key configured?)."

/-- `chat_stream(req, session, user)`, with the generator it answers with. -/
def chatStream : RequestTx Unit :=
  Tx.await env.budget >>= fun warning =>
    send env.gone [] [.retry] >>= fun _ =>
      Tx.tryCatch PyError.isException (streamFrames settings completionCost req user env warning) fun _ =>
        Tx.recordAll [.sent (.error streamError), .sent .done]

end

end ProRag
