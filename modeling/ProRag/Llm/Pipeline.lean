import ProRag.Llm.Calls
import ProRag.Retrieve.Plan

/-!
# The retrieval pipeline over a session

`prefill`, `plan` and `retrieve` with what they add to the session.  The environment says what the
providers and the database answer, or that they fail.
-/

namespace ProRag

open Framework

/-- The answers a planned search meets: the planner's, the embeddings, the database as the arms read it,
the reranker, and whether the task is cancelled while it waits for that. -/
structure QueryEnv where
  planner : LlmOutcome (Option String)
  json : PyJson
  embed : LlmOutcome (List Embedding)
  database : Except PyError (Scorer × Db)
  rerankApi : RerankApi
  normalizeTitle : String → String
  reranking : Except PyError Unit

/-- What `retrieve` meets beside these. -/
structure RetrievalEnv extends QueryEnv where
  prefill : LlmOutcome (Option String)
  commit : CommitOutcome PyError

section

variable (settings : Settings) (completionCost : CompletionCost) (env : QueryEnv) (query : String) (user : Option User)
  (userId : Option Uuid)

/-- The plan from an answer of the planner, or from none. -/
def QueryEnv.readPlan : Option (Option String) → Except PyError QueryPlan
  | none => .ok (.fallback query)
  | some raw => ProRag.readPlan env.json query raw

/-- `plan(query, session, user_id)`. -/
def plan : RequestTx QueryPlan :=
  Tx.tryCatch PyError.isException
      (planCompletion settings completionCost userId env.planner >>= fun raw => pure (some raw)) (fun _ => pure none) >>=
    fun raw => Tx.await (env.readPlan query raw)

/-- `gather_hits` in this environment. -/
def QueryEnv.gather (p : QueryPlan) (embeddings : List Embedding) : Except PyError Gathered :=
  env.database >>= fun d => gatherHits settings d.1 d.2 p embeddings user

/-- The plan, the embeddings of its queries, the hits of the arms, and the wait for the reranker. -/
def planAndGather : RequestTx (QueryPlan × Gathered) :=
  plan settings completionCost env query userId >>= fun p =>
    embedTexts settings completionCost userId env.embed >>= fun embeddings =>
      Tx.await (env.gather settings user p embeddings) >>= fun gathered =>
        Tx.await env.reranking >>= fun _ => pure (p, gathered)

def QueryEnv.planned : Except PyError QueryPlan :=
  recovering PyError.isException (env.planner >>= LlmResponse.content >>= fun raw => .ok (some raw))
    (fun _ => .ok none) >>= env.readPlan query

/-- What `planAndGather` ends with. -/
def QueryEnv.gathered : Except PyError (QueryPlan × Gathered) :=
  env.planned query >>= fun p => env.embed >>= LlmResponse.content >>= fun embeddings =>
    env.gather settings user p embeddings >>= fun gathered => env.reranking >>= fun _ => .ok (p, gathered)

def QueryEnv.events : List RequestEvent :=
  callOf .planner settings.plannerModel userId env.planner ::
    logAfter (env.planned query) fun _ => [embedCall settings userId env.embed]

variable {settings completionCost env query user userId}

theorem plan_stages : Stages (usageRows settings completionCost) (plan settings completionCost env query userId)
    (env.planned query) [callOf .planner settings.plannerModel userId env.planner] := by
  have hcall : Stages (usageRows settings completionCost)
      (planCompletion settings completionCost userId env.planner >>= fun raw => pure (some raw))
      (env.planner >>= LlmResponse.content >>= fun raw => .ok (some raw))
      [callOf .planner settings.plannerModel userId env.planner] :=
    (trackedCall_stages .planner settings.plannerModel userId env.planner).bind_quiet fun raw => Stages.pure (some raw)
  have hcaught := hcall.tryCatch_quiet PyError.isException fun _ => Stages.pure none
  exact hcaught.bind_quiet fun raw => Stages.await _

theorem planAndGather_stages : Stages (usageRows settings completionCost)
    (planAndGather settings completionCost env query user userId) (env.gathered settings query user)
    (env.events settings query userId) := by
  have hgather : ∀ p, Stages (usageRows settings completionCost)
      (embedTexts settings completionCost userId env.embed >>= fun embeddings =>
        Tx.await (env.gather settings user p embeddings) >>= fun gathered =>
          Tx.await env.reranking >>= fun _ => pure (p, gathered))
      (env.embed >>= LlmResponse.content >>= fun embeddings =>
        env.gather settings user p embeddings >>= fun gathered => env.reranking >>= fun _ => .ok (p, gathered))
      [embedCall settings userId env.embed] := by
    intro p
    refine (embedTexts_stages userId env.embed).bind_quiet fun embeddings => ?_
    refine (Stages.await _).bind_quiet fun gathered => ?_
    exact (Stages.await _).bind_quiet fun _ => Stages.pure _
  exact plan_stages.bind hgather

end

section

variable (settings : Settings) (completionCost : CompletionCost) (env : RetrievalEnv) (message : String) (user : Option User)

/-- `user.id if user is not None else None`. -/
def idOf (user : Option User) : Option Uuid := user.map User.id

/-- `prefill(query, session, user_id)`. -/
def prefill : RequestTx String :=
  if isBlank message then pure message
  else Tx.tryCatch PyError.isException
    (prefillCompletion settings completionCost (idOf user) env.prefill >>= fun raw =>
      Tx.await (readPrefill env.json message raw))
    fun _ => pure message

/-- The message of the later steps, refined where the setting says so. -/
def refine : RequestTx String :=
  if settings.prefillEnabled then prefill settings completionCost env message user else pure message

/-- `retrieve(session, message, user)`: the hits and the refined message. -/
def retrieve : RequestTx (List Hit × String) :=
  (refine settings completionCost env message user >>= fun cleaned =>
    planAndGather settings completionCost env.toQueryEnv cleaned user (idOf user) >>= fun g => pure (g, cleaned)) >>= fun r =>
      Tx.commit env.commit >>= fun _ =>
        pure (rankHits settings env.rerankApi env.normalizeTitle r.1.1 r.1.2, r.2)

/-- No prefill call is made. -/
def skipsPrefill : Bool := !settings.prefillEnabled || isBlank message

def RetrievalEnv.refined : Except PyError String :=
  if skipsPrefill settings message then .ok message
  else recovering PyError.isException (env.prefill >>= LlmResponse.content >>= readPrefill env.json message)
    fun _ => .ok message

/-- What `retrieve` has when it gets to its commit. -/
def RetrievalEnv.found : Except PyError ((QueryPlan × Gathered) × String) :=
  env.refined settings message >>= fun cleaned =>
    env.toQueryEnv.gathered settings cleaned user >>= fun g => .ok (g, cleaned)

def RetrievalEnv.prefillEvents : List RequestEvent :=
  if skipsPrefill settings message then []
  else [callOf .prefill settings.prefillModel (idOf user) env.prefill]

/-- The calls of `retrieve`. -/
def RetrievalEnv.events : List RequestEvent :=
  env.prefillEvents settings message user ++
    logAfter (env.refined settings message) fun cleaned => env.toQueryEnv.events settings cleaned (idOf user)

/-- `retrieve` gets to its commit, which lands. -/
def RetrievalEnv.lands : Bool :=
  (env.found settings message user).isOk && env.commit.lands

/-- What `retrieve` returns. -/
def RetrievalEnv.retrieved : Except PyError (List Hit × String) :=
  env.found settings message user >>= fun r => env.commit.answer >>= fun _ =>
    .ok (rankHits settings env.rerankApi env.normalizeTitle r.1.1 r.1.2, r.2)

variable {settings completionCost env message user}

theorem refine_stages : Stages (usageRows settings completionCost) (refine settings completionCost env message user)
    (env.refined settings message) (env.prefillEvents settings message user) := by
  unfold refine RetrievalEnv.refined RetrievalEnv.prefillEvents prefill skipsPrefill
  cases hon : settings.prefillEnabled with
  | false => exact Stages.pure message
  | true =>
    cases hblank : isBlank message with
    | true => exact Stages.pure message
    | false =>
      have hcall : Stages (usageRows settings completionCost)
          (prefillCompletion settings completionCost (idOf user) env.prefill >>= fun raw =>
            Tx.await (readPrefill env.json message raw))
          (env.prefill >>= LlmResponse.content >>= readPrefill env.json message)
          [callOf .prefill settings.prefillModel (idOf user) env.prefill] :=
        (trackedCall_stages .prefill settings.prefillModel (idOf user) env.prefill).bind_quiet fun raw => Stages.await _
      exact hcall.tryCatch_quiet PyError.isException fun _ => Stages.pure message

theorem found_stages : Stages (usageRows settings completionCost)
    (refine settings completionCost env message user >>= fun cleaned =>
      planAndGather settings completionCost env.toQueryEnv cleaned user (idOf user) >>= fun g => pure (g, cleaned))
    (env.found settings message user) (env.events settings message user) := by
  have hplan : ∀ cleaned, Stages (usageRows settings completionCost)
      (planAndGather settings completionCost env.toQueryEnv cleaned user (idOf user) >>= fun g => pure (g, cleaned))
      (env.toQueryEnv.gathered settings cleaned user >>= fun g => .ok (g, cleaned))
      (env.toQueryEnv.events settings cleaned (idOf user)) := by
    intro cleaned
    exact planAndGather_stages.bind_quiet fun g => Stages.pure (g, cleaned)
  exact refine_stages.bind hplan

theorem retrieve_spec (u : Uow Usage RequestEvent) :
    retrieve settings completionCost env message user u = (env.retrieved settings message user,
      if env.lands settings message user then
        (u.stage (usageRows settings completionCost) (env.events settings message user)).flush
      else u.stage (usageRows settings completionCost) (env.events settings message user)) := by
  unfold retrieve
  rw [Tx.bind_apply, found_stages u]
  unfold RetrievalEnv.lands RetrievalEnv.retrieved
  cases env.found settings message user with
  | error e => rfl
  | ok r =>
    simp only [Tx.bind_apply, Tx.commit, Except.isOk, Except.toBool, Bool.true_and]
    cases env.commit with
    | _ => rfl

theorem retrieved_lands {r : List Hit × String} (h : env.retrieved settings message user = .ok r) : env.lands settings message user = true := by
  unfold RetrievalEnv.retrieved at h
  unfold RetrievalEnv.lands
  obtain ⟨found, hfound, h⟩ := bind_eq_ok.mp h
  obtain ⟨_, hcommit, _⟩ := bind_eq_ok.mp h
  rw [hfound]
  cases hc : env.commit with
  | durable => rfl
  | unacknowledged e => rfl
  | raised e =>
    rw [hc] at hcommit
    cases hcommit

end

end ProRag
