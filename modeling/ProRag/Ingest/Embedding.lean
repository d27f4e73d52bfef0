import ProRag.Ingest.Router
import ProRag.Llm.Calls

/-!
# Embedding an upload

`embed_texts_batched`, its retries, and `ingest_bytes` as a user of its session: where the costs of
the batches are committed, rolled back or left.  When a batch fails, the others of its attempt go on and
may return at any later point of the request.
-/

namespace ProRag

open Framework

/-- `_TRANSIENT_ERROR_MARKERS`. -/
def transientErrorMarkers : List String :=
  ["timeout", "timed out", "rate limit", "ratelimit", "429", "422", "unprocessable", "500", "502", "503", "504",
    "connection", "temporarily", "overloaded", "unavailable"]

/-- `_is_transient(exc)`.  No character outside ASCII lowers into a marker. -/
def isTransient (exc : PyError) : Bool :=
  transientErrorMarkers.any fun m => decide (m.toList <:+: (exc.name ++ " " ++ exc.text).toList.map Char.toLower)

/-- One call of `embed_texts_batched`: how its batches end, by index and in the order they do; responses
of batches that an earlier attempt has left behind; and whether it is cancelled at last. -/
structure EmbedAttempt where
  batches : List (Nat × LlmOutcome (List Embedding))
  stragglers : List (LlmResponse (List Embedding))
  interrupted : Except PyError Unit

/-- The stretches of `ingest_bytes` in which a batch that was left behind may return. -/
inductive IngestStretch
  | committing | rollingBack | rechecking | recording | closing
deriving DecidableEq

/-- What `POST /ingest` meets.  `opening` is everything up to the flush of the document row: an exception, an
answer, or `none`.  `aborted` says that a failed rule check has aborted the transaction, which the
server then ends with a rollback. -/
structure IngestEnv where
  opening : Except PyError (Option IngestResponse)
  docId : Uuid
  storeTables : Except PyError Unit
  texts : List String
  attempts : Nat → EmbedAttempt
  slept : Nat → Except PyError Unit
  timedOut : Bool
  stragglers : IngestStretch → List (LlmResponse (List Embedding))
  storing : Except PyError Unit
  aborted : Bool
  commit : CommitOutcome PyError
  recheck : Except PyError (Option Uuid)
  failureCommit : CommitOutcome PyError

section

variable (settings : Settings) (completionCost : CompletionCost)

/-- Batches that were left behind return. -/
def late : List (LlmResponse (List Embedding)) → RequestTx Unit
  | [] => pure ()
  | resp :: rest =>
    Tx.tryCatch (fun _ => true) (embedTexts settings completionCost none (.ok resp) >>= fun _ => pure ())
      (fun _ => pure ()) >>= fun _ => late rest

/-- `asyncio.gather(…)` over the batches: the first that fails ends it. -/
def gatherBatches : List (Nat × LlmOutcome (List Embedding)) → RequestTx (List (Nat × List Embedding))
  | [] => pure []
  | (i, out) :: rest =>
    embedTexts settings completionCost none out >>= fun vecs =>
      gatherBatches rest >>= fun results => pure ((i, vecs) :: results)

/-- How many batches the texts make. -/
def batchCount (texts : List String) : Nat :=
  let size := max 1 settings.embedBatchSize
  (texts.length + size - 1) / size

/-- `embed_texts_batched(texts, session)`. -/
def embedTextsBatched (texts : List String) (attempt : EmbedAttempt) : RequestTx (List Embedding) :=
  if texts = [] then pure []
  else
    late settings completionCost attempt.stragglers >>= fun _ =>
      gatherBatches settings completionCost attempt.batches >>= fun results =>
        Tx.await (attempt.interrupted >>= fun _ =>
          .ok ((List.range (batchCount settings texts)).flatMap fun i => (results.lookup i).getD []))

/-- `_embed_with_retry(texts, session, attempts)`, with the attempts left and those made. -/
def embedWithRetry (env : IngestEnv) : Nat → Nat → RequestTx (List Embedding)
  | 0, _ => Tx.await (.error ⟨"AssertionError", "unreachable"⟩)
  | left + 1, attempt =>
    Tx.tryCatch PyError.isException (embedTextsBatched settings completionCost env.texts (env.attempts attempt)) fun exc =>
      if left = 0 ∨ isTransient exc = false then Tx.await (.error exc)
      else Tx.await (env.slept attempt) >>= fun _ => embedWithRetry env left (attempt + 1)

/-- `asyncio.wait_for(…)`: a cancellation by its own timeout is a `TimeoutError`. -/
def waitFor {α : Type} (timedOut : Bool) (t : RequestTx α) : RequestTx α :=
  Tx.tryCatch (fun exc => timedOut && !exc.isException) t fun _ => Tx.await (.error ⟨"TimeoutError", ""⟩)

/-- The body of the `try` up to its commit. -/
def embedAndStore (env : IngestEnv) : RequestTx Unit :=
  Tx.await env.storeTables >>= fun _ =>
    waitFor env.timedOut (embedWithRetry settings completionCost env 3 0) >>= fun _ =>
      late settings completionCost (env.stragglers .committing) >>= fun _ => Tx.await env.storing

def commitIngest (env : IngestEnv) : RequestTx IngestResponse :=
  (if env.aborted then Tx.rollback else Tx.commit env.commit) >>= fun _ => pure ⟨env.docId, .ready, none⟩

/-- The handler: it rolls back, and marks the row of the digest where it finds one. -/
def recordFailure (env : IngestEnv) : RequestTx IngestResponse :=
  late settings completionCost (env.stragglers .rollingBack) >>= fun _ =>
    Tx.rollback >>= fun _ =>
      late settings completionCost (env.stragglers .rechecking) >>= fun _ =>
        Tx.await env.recheck >>= fun row => match row with
          | none => Tx.await (.error (httpException 500 "ingestion failed"))
          | some id =>
            late settings completionCost (env.stragglers .recording) >>= fun _ =>
              Tx.commit env.failureCommit >>= fun _ => pure ⟨id, .failed, none⟩

/-- `ingest(file, collection, session)`. -/
def ingestUpload (env : IngestEnv) : RequestTx IngestResponse :=
  Tx.await env.opening >>= fun answered => match answered with
    | some resp => pure resp
    | none =>
      Tx.ensuring
        (Tx.tryCatch PyError.isException
          (embedAndStore settings completionCost env >>= fun _ => commitIngest env)
          fun _ => recordFailure settings completionCost env)
        (late settings completionCost (env.stragglers .closing))

def lateEvents (resps : List (LlmResponse (List Embedding))) : List RequestEvent :=
  resps.map fun resp => embedCall settings none (.ok resp)

/-- What the batches come to. -/
def batchResults : List (Nat × LlmOutcome (List Embedding)) → Except PyError (List (Nat × List Embedding))
  | [] => .ok []
  | (i, out) :: rest => out >>= LlmResponse.content >>= fun vecs => batchResults rest >>= fun results =>
      .ok ((i, vecs) :: results)

/-- The calls of the batches, up to the first that fails. -/
def batchEvents : List (Nat × LlmOutcome (List Embedding)) → List RequestEvent
  | [] => []
  | (_, out) :: rest => embedCall settings none out ::
      logAfter (out >>= LlmResponse.content) fun _ => batchEvents rest

/-- What an attempt comes to. -/
def EmbedAttempt.result (attempt : EmbedAttempt) (texts : List String) : Except PyError (List Embedding) :=
  if texts = [] then .ok []
  else batchResults attempt.batches >>= fun results => attempt.interrupted >>= fun _ =>
    .ok ((List.range (batchCount settings texts)).flatMap fun i => (results.lookup i).getD [])

def EmbedAttempt.events (attempt : EmbedAttempt) (texts : List String) : List RequestEvent :=
  if texts = [] then []
  else lateEvents settings attempt.stragglers ++ batchEvents settings attempt.batches

variable (env : IngestEnv)

/-- What the attempts come to. -/
def IngestEnv.embedResult : Nat → Nat → Except PyError (List Embedding)
  | 0, _ => .error ⟨"AssertionError", "unreachable"⟩
  | left + 1, attempt =>
    recovering PyError.isException ((env.attempts attempt).result settings env.texts) fun exc =>
      if left = 0 ∨ isTransient exc = false then .error exc
      else env.slept attempt >>= fun _ => IngestEnv.embedResult left (attempt + 1)

def IngestEnv.embedEvents : Nat → Nat → List RequestEvent
  | 0, _ => []
  | left + 1, attempt =>
    (env.attempts attempt).events settings env.texts ++
      logCaught PyError.isException ((env.attempts attempt).result settings env.texts) fun exc =>
        if left = 0 ∨ isTransient exc = false then []
        else logAfter (env.slept attempt) fun _ => IngestEnv.embedEvents left (attempt + 1)

/-- The embeddings, or the exception that reaches the handler. -/
def IngestEnv.embedded : Except PyError (List Embedding) :=
  recovering (fun exc => env.timedOut && !exc.isException) (env.embedResult settings 3 0)
    fun _ => .error ⟨"TimeoutError", ""⟩

/-- How the body of the `try` ends in front of its commit. -/
def IngestEnv.stored : Except PyError Unit :=
  env.storeTables >>= fun _ => env.embedded settings >>= fun _ => env.storing

/-- The calls of the body of the `try`. -/
def IngestEnv.storeEvents : List RequestEvent :=
  logAfter env.storeTables fun _ => env.embedEvents settings 3 0 ++
    logAfter (env.embedded settings) fun _ => lateEvents settings (env.stragglers .committing)

end

section

variable {settings : Settings} {completionCost : CompletionCost}

theorem late_stages (resps : List (LlmResponse (List Embedding))) :
    Stages (usageRows settings completionCost) (late settings completionCost resps) (.ok ()) (lateEvents settings resps) := by
  induction resps with
  | nil => exact Stages.pure ()
  | cons resp rest ih =>
    have hone : Stages (usageRows settings completionCost)
        (embedTexts settings completionCost none (.ok resp) >>= fun _ => pure ())
        ((.ok resp : LlmOutcome (List Embedding)) >>= LlmResponse.content >>= fun _ => .ok ())
        [embedCall settings none (.ok resp)] :=
      (embedTexts_stages none (.ok resp)).bind_quiet fun _ => Stages.pure ()
    have hcaught := hone.tryCatch_quiet (fun _ => true) fun _ => Stages.pure ()
    have hall := hcaught.bind fun _ => ih
    have hok : ∀ r : Except PyError Unit, recovering (fun _ => true) r (fun _ => .ok ()) = .ok () := by
      intro r
      cases r with
      | _ => rfl
    rw [hok] at hall
    exact hall

theorem gatherBatches_stages (batches : List (Nat × LlmOutcome (List Embedding))) :
    Stages (usageRows settings completionCost) (gatherBatches settings completionCost batches) (batchResults batches)
      (batchEvents settings batches) := by
  induction batches with
  | nil => exact Stages.pure []
  | cons b rest ih =>
    have hrest : ∀ vecs, Stages (usageRows settings completionCost)
        (gatherBatches settings completionCost rest >>= fun results => pure ((b.1, vecs) :: results))
        (batchResults rest >>= fun results => .ok ((b.1, vecs) :: results)) (batchEvents settings rest) := by
      intro vecs
      exact ih.bind_quiet fun results => Stages.pure _
    exact (embedTexts_stages none b.2).bind hrest

theorem embedTextsBatched_stages (texts : List String) (attempt : EmbedAttempt) :
    Stages (usageRows settings completionCost) (embedTextsBatched settings completionCost texts attempt)
      (attempt.result settings texts) (attempt.events settings texts) := by
  unfold embedTextsBatched EmbedAttempt.result EmbedAttempt.events
  split
  · exact Stages.pure []
  · exact (late_stages attempt.stragglers).bind fun _ =>
      (gatherBatches_stages attempt.batches).bind_quiet fun results => Stages.await _

theorem embedWithRetry_stages (env : IngestEnv) (left attempt : Nat) :
    Stages (usageRows settings completionCost) (embedWithRetry settings completionCost env left attempt)
      (env.embedResult settings left attempt) (env.embedEvents settings left attempt) := by
  induction left generalizing attempt with
  | zero => exact Stages.await _
  | succ left ih =>
    refine (embedTextsBatched_stages env.texts (env.attempts attempt)).tryCatch PyError.isException fun exc => ?_
    by_cases hstop : left = 0 ∨ isTransient exc = false
    · simp only [hstop, ↓reduceIte]
      exact Stages.await _
    · simp only [hstop, ↓reduceIte]
      exact Stages.await_bind fun _ => ih (attempt + 1)

theorem embedAndStore_stages (env : IngestEnv) :
    Stages (usageRows settings completionCost) (embedAndStore settings completionCost env) (env.stored settings)
      (env.storeEvents settings) := by
  have hwait : Stages (usageRows settings completionCost)
      (waitFor env.timedOut (embedWithRetry settings completionCost env 3 0)) (env.embedded settings)
      (env.embedEvents settings 3 0) :=
    (embedWithRetry_stages env 3 0).tryCatch_quiet _ fun _ => Stages.await _
  have hlate : ∀ _ : List Embedding, Stages (usageRows settings completionCost)
      (late settings completionCost (env.stragglers .committing) >>= fun _ => Tx.await env.storing)
      env.storing (lateEvents settings (env.stragglers .committing)) := by
    intro _
    exact (late_stages (env.stragglers .committing)).bind_quiet fun _ => Stages.await env.storing
  exact Stages.await_bind fun _ => hwait.bind hlate

end

end ProRag
