import ProRag.Chat.Stream
import ProRag.Framework.UnitOfWork

/-!
# Calls of the language models and their cost

Every call that returns adds a row to `usage`; the caller commits.  What a provider answers, or
that it fails, is an input.
-/

namespace ProRag

open Framework

/-- A completion that returned. -/
structure Completion where
  model : String
  promptTokens : Nat
  completionTokens : Nat
  userId : Option Uuid
deriving DecidableEq

structure Usage where
  messageId : Option Uuid
  model : String
  promptTokens : Nat
  completionTokens : Nat
  costUsd : ℚ
  userId : Option Uuid
deriving DecidableEq

/-- `litellm.completion_cost`, by model and token counts. -/
abbrev CompletionCost := String → Nat → Nat → Except PyError (Option ℚ)

/-- `compute_cost(model, prompt_tokens, completion_tokens)`. -/
def computeCost (settings : Settings) (completionCost : CompletionCost) (model : String)
    (promptTokens completionTokens : Nat) : ℚ :=
  match completionCost model promptTokens completionTokens with
  | .ok (some cost) => cost
  | _ => (promptTokens + completionTokens) / 1000 * settings.fallbackPricePer1kUsd

/-- The row `track_usage` adds; none of the modelled calls gives a `message_id`. -/
def usageRow (settings : Settings) (completionCost : CompletionCost) (c : Completion) : Usage where
  messageId := none
  model := c.model
  promptTokens := c.promptTokens
  completionTokens := c.completionTokens
  costUsd := computeCost settings completionCost c.model c.promptTokens c.completionTokens
  userId := c.userId

/-- A response: its `usage`, and what reading its content gives; the content of a message may be `None`. -/
structure LlmResponse (α : Type) where
  usage : Option (Nat × Nat)
  content : Except PyError α

abbrev LlmOutcome (α : Type) := Except PyError (LlmResponse α)

/-- `_usage_tokens(resp)`. -/
def usageTokens {α : Type} (resp : LlmResponse α) : Nat × Nat :=
  resp.usage.getD (0, 0)

/-- The calls of `prorag/llm.py`. -/
inductive CallKind
  | planner | prefill | answer | embedding
deriving DecidableEq, Repr

/-- A call that has ended, with its completion where one that is tracked has returned. -/
structure LlmCall where
  kind : CallKind
  completion : Option Completion
deriving DecidableEq

/-- The rows of one exchange: the chat where it is new, its two messages and the citations. -/
structure Exchange where
  newChat : Option Uuid
  messages : List Message
  citations : List Citation
deriving DecidableEq

/-- What others see of a request: its calls, the frames it sends, and the exchange it stores. -/
inductive RequestEvent
  | call (c : LlmCall)
  | sent (f : Frame)
  | stored (e : Exchange)
deriving DecidableEq

/-- A computation of one request over its session. -/
abbrev RequestTx := Tx Usage RequestEvent PyError

def completionOf {α : Type} (model : String) (userId : Option Uuid) (resp : LlmResponse α) : Completion :=
  ⟨model, (usageTokens resp).1, (usageTokens resp).2, userId⟩

def callOf {α : Type} (kind : CallKind) (model : String) (userId : Option Uuid) : LlmOutcome α → RequestEvent
  | .ok resp => .call ⟨kind, some (completionOf model userId resp)⟩
  | .error _ => .call ⟨kind, none⟩

def RequestEvent.completions : RequestEvent → List Completion
  | .call c => c.completion.toList
  | _ => []

variable (settings : Settings) (completionCost : CompletionCost)

def usageRows (event : RequestEvent) : List Usage := event.completions.map (usageRow settings completionCost)

/-- `track_usage(session, …)`. -/
def trackUsage (c : Completion) : RequestTx Unit :=
  Tx.add (usageRow settings completionCost c)

/-- The shape of the four tracked calls: await the provider, track, read the content. -/
def trackedCall {α : Type} (kind : CallKind) (model : String) (userId : Option Uuid) (out : LlmOutcome α) : RequestTx α :=
  (Tx.record (callOf kind model userId out) >>= fun _ => Tx.await out) >>= fun resp =>
    trackUsage settings completionCost (completionOf model userId resp) >>= fun _ => Tx.await resp.content

/-- `plan_completion`. -/
def planCompletion (userId : Option Uuid) (out : LlmOutcome (Option String)) : RequestTx (Option String) :=
  trackedCall settings completionCost .planner settings.plannerModel userId out

/-- `prefill_completion`. -/
def prefillCompletion (userId : Option Uuid) (out : LlmOutcome (Option String)) : RequestTx (Option String) :=
  trackedCall settings completionCost .prefill settings.prefillModel userId out

/-- `answer`. -/
def answer (userId : Option Uuid) (out : LlmOutcome (Option String)) : RequestTx (Option String) :=
  trackedCall settings completionCost .answer settings.answerModel userId out

/-- An `openrouter-embed/` model is called directly and not tracked. -/
def Settings.embedsDirectly : Bool :=
  "openrouter-embed/".toList.isPrefixOf settings.embedModel.toList

def embedCall (userId : Option Uuid) (out : LlmOutcome (List Embedding)) : RequestEvent :=
  if settings.embedsDirectly then .call ⟨.embedding, none⟩ else callOf .embedding settings.embedModel userId out

/-- `embed_texts`, for texts that are not empty. -/
def embedTexts (userId : Option Uuid) (out : LlmOutcome (List Embedding)) : RequestTx (List Embedding) :=
  if settings.embedsDirectly then
    Tx.record (.call ⟨.embedding, none⟩) >>= fun _ => Tx.await (out >>= LlmResponse.content)
  else trackedCall settings completionCost .embedding settings.embedModel userId out

variable {settings completionCost}

theorem trackedCall_stages {α : Type} (kind : CallKind) (model : String) (userId : Option Uuid) (out : LlmOutcome α) :
    Stages (usageRows settings completionCost) (trackedCall settings completionCost kind model userId out)
      (out >>= LlmResponse.content) [callOf kind model userId out] := by
  intro u
  cases out with
  | error e =>
    have hrun : trackedCall settings completionCost kind model userId (.error e : LlmOutcome α) u =
        (.error e, { u with log := u.log ++ [.call ⟨kind, none⟩] }) := rfl
    have hstage : u.stage (usageRows settings completionCost) [.call ⟨kind, none⟩] =
        { u with log := u.log ++ [.call ⟨kind, none⟩] } := by
      simp [Uow.stage, usageRows, RequestEvent.completions]
    show _ = (Except.error e, u.stage _ [.call ⟨kind, none⟩])
    rw [hrun, hstage]
  | ok resp => rfl

theorem embedTexts_stages (userId : Option Uuid) (out : LlmOutcome (List Embedding)) :
    Stages (usageRows settings completionCost) (embedTexts settings completionCost userId out)
      (out >>= LlmResponse.content) [embedCall settings userId out] := by
  unfold embedTexts embedCall
  split
  · intro u
    have hstage : u.stage (usageRows settings completionCost) [.call ⟨.embedding, none⟩] =
        { u with log := u.log ++ [.call ⟨.embedding, none⟩] } := by
      simp [Uow.stage, usageRows, RequestEvent.completions]
    rw [hstage]
    rfl
  · exact trackedCall_stages .embedding _ userId out

end ProRag
