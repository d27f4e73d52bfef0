import ProRag.Eval.Runner
import ProRag.Llm.Accounting

/-!
# The gate over a day

Requests one after another over the stored usage.  A request that the gate refuses makes no call and leaves
no row, so a total that has reached its cap stays there; `search` never asks.
-/

namespace ProRag

open Framework

/-- A request to one of the four endpoints; an evaluation is nobody's. -/
inductive SpendRequest
  | chat (env : ChatEnv) (req : ChatRequest) (user : Option User)
  | chatStream (env : StreamEnv) (req : ChatRequest) (user : Option User)
  | search (env : QueryEnv) (q : String) (k : Int) (user : Option User)
  | evalRun (env : EvalEnv)

def SpendRequest.user : SpendRequest → Option User
  | .chat _ _ user | .chatStream _ _ user | .search _ _ _ user => user
  | .evalRun _ => none

def SpendRequest.isSearch : SpendRequest → Bool
  | .search .. => true
  | _ => false

/-- A request with its instant, and the instants of the rows it leaves. -/
structure Arrival where
  request : SpendRequest
  now : Timestamp
  stamps : Nat → Timestamp

def callsOf (events : List RequestEvent) : List LlmCall := events.filterMap fun e => match e with
  | .call c => some c
  | _ => none

section

variable (settings : Settings) (completionCost : CompletionCost) (usd : ℚ → String)

/-- A request served over the stored usage; its own rows are the committed ones. -/
def Arrival.serve (usage : List StoredUsage) (a : Arrival) : Uow Usage RequestEvent :=
  let gate := fun user => checkDailyCap settings usd usage a.now user
  match a.request with
  | .chat env req user => (chat settings completionCost req user { env with budget := gate user }).request []
  | .chatStream env req user => (chatStream settings completionCost req user { env with budget := gate user }).request []
  | .search env q k user => (search settings completionCost env q k user).request []
  | .evalRun env => (evalRun settings completionCost (gate none) env).request []

def spendStep (usage : List StoredUsage) (a : Arrival) : List StoredUsage :=
  usage ++ (a.serve settings completionCost usd usage).committed.zipIdx.map fun p => ⟨p.1, a.stamps p.2⟩

def spendAll (usage : List StoredUsage) (arrivals : List Arrival) : List StoredUsage :=
  arrivals.foldl (spendStep settings completionCost usd) usage

/-- The recorded total has reached the cap, of the installation or of the user. -/
def CapReached (usage : List StoredUsage) (now : Timestamp) (user : Option User) : Prop :=
  settings.dailyCostCapUsd ≤ todayCostUsd usage now ∨
    ∃ u, user = some u ∧ effectiveCap settings u * settings.userHardCapMultiplier ≤ todayUserCostUsd usage now u.id

/-- `a` comes, at `usage'`, on a day on which its cap was reached before.  Nobody's record changes in between. -/
def CappedBefore (usage : List StoredUsage) (arrivals : List Arrival) (a : Arrival) (usage' : List StoredUsage) : Prop :=
  ∃ before mid rest now, arrivals = before ++ mid ++ a :: rest ∧
    (∀ b ∈ mid ++ [a], utcDayStart b.now = utcDayStart now) ∧
    (∀ b ∈ mid, ∀ u v, a.request.user = some u → b.request.user = some v → v.id = u.id → v = u) ∧
    CapReached settings (spendAll settings completionCost usd usage before) now a.request.user ∧
    usage' = spendAll settings completionCost usd usage (before ++ mid)

/-- A request whose cap was reached before makes no call. -/
def GateComplete (usage : List StoredUsage) (arrivals : List Arrival) : Prop :=
  ∀ a usage', CappedBefore settings completionCost usd usage arrivals a usage' →
    callsOf (a.serve settings completionCost usd usage').log = []

end

section

variable {settings : Settings} {completionCost : CompletionCost} {usd : ℚ → String} {usage : List StoredUsage}
  {user : Option User}

theorem todayCostUsd_congr {now now' : Timestamp} (h : utcDayStart now = utcDayStart now') :
    todayCostUsd usage now = todayCostUsd usage now' := by
  unfold todayCostUsd
  rw [h]

theorem todayUserCostUsd_congr {now now' : Timestamp} (h : utcDayStart now = utcDayStart now') (userId : Uuid) :
    todayUserCostUsd usage now userId = todayUserCostUsd usage now' userId := by
  unfold todayUserCostUsd
  rw [h]

theorem CapReached.congr {now now' : Timestamp} (h : CapReached settings usage now user)
    (hday : utcDayStart now = utcDayStart now') : CapReached settings usage now' user := by
  rcases h with h | ⟨u, hu, h⟩
  · left
    rwa [← todayCostUsd_congr hday]
  · right
    refine ⟨u, hu, ?_⟩
    rwa [← todayUserCostUsd_congr hday]

theorem checkDailyCap_refuses {now : Timestamp} (h : CapReached settings usage now user) :
    ∃ exc, checkDailyCap settings usd usage now user = .error exc := by
  unfold checkDailyCap
  by_cases hall : overDailyCap (todayCostUsd usage now) settings.dailyCostCapUsd = true
  · simp [hall]
  · rcases h with h | ⟨u, rfl, h⟩
    · exact absurd (decide_eq_true h) hall
    · have hblock : budgetDecision (todayUserCostUsd usage now u.id) (effectiveCap settings u)
          settings.userHardCapMultiplier = .block := if_pos h
      simp [hall, hblock]

theorem serve_refused {a : Arrival} (h : CapReached settings usage a.now a.request.user)
    (hgated : a.request.isSearch = false) : a.serve settings completionCost usd usage = ⟨[], [], []⟩ := by
  obtain ⟨exc, hexc⟩ := @checkDailyCap_refuses settings usd usage _ _ h
  unfold Arrival.serve
  cases hreq : a.request with
  | chat env req user =>
    rw [hreq] at hexc
    simp only [SpendRequest.user] at hexc
    simp only [Tx.request, chat, hexc]
    rfl
  | chatStream env req user =>
    rw [hreq] at hexc
    simp only [SpendRequest.user] at hexc
    simp only [Tx.request, chatStream, hexc]
    rfl
  | search env q k user =>
    rw [hreq] at hgated
    cases hgated
  | evalRun env =>
    rw [hreq] at hexc
    simp only [SpendRequest.user] at hexc
    simp only [Tx.request, evalRun, hexc]
    rfl

theorem search_request (env : QueryEnv) (q : String) (k : Int) (user : Option User) :
    (search settings completionCost env q k user).request [] = ⟨[], [], env.events settings q none⟩ := by
  have hplan : Stages (usageRows settings completionCost) (planAndGather settings completionCost env q user none)
      (env.gathered settings q user) (env.events settings q none) := planAndGather_stages
  have hstages : Stages (usageRows settings completionCost) (search settings completionCost env q k user) _
      (env.events settings q none) := hplan.bind_quiet fun g => Stages.pure (searchResponse settings env k g.1 g.2)
  unfold Tx.request
  rw [hstages]
  simp [Uow.stage]

theorem search_calls {a : Arrival} (h : a.request.isSearch = true) :
    callsOf (a.serve settings completionCost usd usage).log ≠ [] := by
  unfold Arrival.serve
  cases hreq : a.request with
  | search env q k user =>
    simp only [search_request]
    cases henv : env.planner with
    | ok resp => simp [QueryEnv.events, callsOf, callOf, henv]
    | error e => simp [QueryEnv.events, callsOf, callOf, henv]
  | _ =>
    rw [hreq] at h
    cases h

theorem callOf_rows {α : Type} (kind : CallKind) (model : String) (userId : Option Uuid) (out : LlmOutcome α) :
    ∀ row ∈ usageRows settings completionCost (callOf kind model userId out), row.userId = userId := by
  intro row hrow
  cases out with
  | error e => cases hrow
  | ok resp =>
    obtain rfl := List.mem_singleton.mp hrow
    rfl

theorem trackedCall_rows {α : Type} (kind : CallKind) (model : String) (userId : Option Uuid) (out : LlmOutcome α) :
    AddsOnly (fun row : Usage => row.userId = userId) (trackedCall settings completionCost kind model userId out) := by
  refine AddsOnly.of_stages (trackedCall_stages kind model userId out) ?_
  simpa using callOf_rows kind model userId out

theorem retrieve_rows (env : RetrievalEnv) (message : String) (user : Option User) :
    AddsOnly (fun row : Usage => row.userId = idOf user) (retrieve settings completionCost env message user) := by
  have hprefill : AddsOnly (fun row : Usage => row.userId = idOf user)
      (refine settings completionCost env message user) := by
    refine AddsOnly.of_stages refine_stages ?_
    unfold RetrievalEnv.prefillEvents
    by_cases hskip : skipsPrefill settings message = true
    · simp [hskip]
    · simp only [hskip]
      simpa using callOf_rows .prefill settings.prefillModel (idOf user) env.prefill
  have hplan : ∀ cleaned, AddsOnly (fun row : Usage => row.userId = idOf user)
      (planAndGather settings completionCost env.toQueryEnv cleaned user (idOf user)) := by
    intro cleaned
    have hquery : AddsOnly (fun row : Usage => row.userId = idOf user)
        (plan settings completionCost env.toQueryEnv cleaned (idOf user)) := by
      refine AddsOnly.of_stages plan_stages ?_
      simpa using callOf_rows .planner settings.plannerModel (idOf user) env.planner
    have hembed : AddsOnly (fun row : Usage => row.userId = idOf user)
        (embedTexts settings completionCost (idOf user) env.embed) := by
      refine AddsOnly.of_stages (embedTexts_stages (idOf user) env.embed) ?_
      unfold embedCall
      by_cases hdirect : settings.embedsDirectly = true
      · simp [hdirect, usageRows, RequestEvent.completions]
      · simp only [hdirect]
        simpa using callOf_rows .embedding settings.embedModel (idOf user) env.embed
    exact hquery.bind fun p => hembed.bind fun embeddings => (AddsOnly.await _).bind fun gathered =>
      (AddsOnly.await _).bind fun _ => AddsOnly.pure _
  exact (hprefill.bind fun cleaned => (hplan cleaned).bind fun g => AddsOnly.pure _).bind fun r =>
    (AddsOnly.commit _).bind fun _ => AddsOnly.pure _

theorem persistExchange_rows {kind : Usage → Prop} (env : PersistEnv) (given : Option Uuid) (message text : String)
    (sources : List Source) : AddsOnly kind (persistExchange env given message text sources) :=
  (AddsOnly.await _).bind fun _ => (AddsOnly.recordAll _).bind fun _ => (AddsOnly.commit _).bind fun _ => AddsOnly.pure _

theorem send_rows {kind : Usage → Prop} (gone : List Frame → Bool) (before frames : List Frame) :
    AddsOnly kind (send gone before frames) :=
  (AddsOnly.recordAll _).bind fun _ => AddsOnly.await _

theorem chat_rows (env : ChatEnv) (req : ChatRequest) (user : Option User) :
    AddsOnly (fun row : Usage => row.userId = idOf user) (chat settings completionCost req user env) :=
  (AddsOnly.await _).bind fun _ => (retrieve_rows env.retrieval req.message user).bind fun _ =>
    (trackedCall_rows .answer settings.answerModel (idOf user) env.answer).bind fun _ =>
      (AddsOnly.await _).bind fun _ => AddsOnly.bind (persistExchange_rows _ _ _ _ _) fun _ => AddsOnly.pure _

theorem chatStream_rows (env : StreamEnv) (req : ChatRequest) (user : Option User) :
    AddsOnly (fun row : Usage => row.userId = idOf user) (chatStream settings completionCost req user env) := by
  have hfinish : ∀ r st, AddsOnly (fun row : Usage => row.userId = idOf user)
      (finishStream settings completionCost req user env r st) := by
    intro r st
    refine AddsOnly.bind (send_rows _ _ _) fun _ => ?_
    refine AddsOnly.bind (AddsOnly.add rfl) fun _ => ?_
    exact AddsOnly.bind (persistExchange_rows _ _ _ _ _) fun _ => send_rows _ _ _
  have hframes : ∀ warning, AddsOnly (fun row : Usage => row.userId = idOf user)
      (streamFrames settings completionCost req user env warning) := by
    intro warning
    refine (retrieve_rows env.retrieval req.message user).bind fun r => ?_
    refine AddsOnly.bind (send_rows _ _ _) fun _ => ?_
    exact (AddsOnly.recordAll _).bind fun _ => (AddsOnly.await _).bind fun _ => hfinish r _
  exact (AddsOnly.await _).bind fun warning => AddsOnly.bind (send_rows _ _ _) fun _ =>
    (hframes warning).tryCatch fun _ => AddsOnly.recordAll _

theorem evalRun_rows (budget : Except PyError (Option String)) (env : EvalEnv) :
    AddsOnly (fun row : Usage => row.userId = none) (evalRun settings completionCost budget env) := by
  have hturns : ∀ turns, AddsOnly (fun row : Usage => row.userId = none)
      (evalTurns settings completionCost env.lower turns) := by
    intro turns
    induction turns with
    | nil => exact AddsOnly.pure _
    | cons turn turns ih =>
      have hretrieve : AddsOnly (fun row : Usage => row.userId = none)
          (retrieve settings completionCost turn.retrieval turn.entry.question none) := retrieve_rows _ _ none
      refine hretrieve.bind fun r => ?_
      refine (trackedCall_rows .answer settings.answerModel none turn.answer).bind fun raw => ?_
      exact (AddsOnly.await _).bind fun _ => ih.bind fun _ => AddsOnly.pure _
  have hrun : AddsOnly (fun row : Usage => row.userId = none) (runEval settings completionCost env) :=
    (AddsOnly.await _).bind fun turns => (hturns turns).bind fun _ => (AddsOnly.await _).bind fun _ =>
      (AddsOnly.commit _).bind fun _ => (AddsOnly.await _).bind fun _ => AddsOnly.pure _
  exact (AddsOnly.await _).bind fun _ => hrun.tryCatch fun _ => AddsOnly.await _

theorem serve_rows (a : Arrival) : ∀ row ∈ (a.serve settings completionCost usd usage).committed,
    row.userId = idOf a.request.user := by
  unfold Arrival.serve
  cases a.request with
  | chat env req user => exact (chat_rows _ req user).request
  | chatStream env req user => exact (chatStream_rows _ req user).request
  | search env q k user =>
    simp only [search_request]
    intro row hrow
    cases hrow
  | evalRun env => exact (evalRun_rows _ env).request

theorem spendStep_keeps {user : Option User} {now : Timestamp} (h : CapReached settings usage now user) {b : Arrival}
    (hday : utcDayStart b.now = utcDayStart now)
    (hrecord : ∀ u v, user = some u → b.request.user = some v → v.id = u.id → v = u) :
    CapReached settings (spendStep settings completionCost usd usage b) now user := by
  have hquiet : CapReached settings usage b.now b.request.user →
      (b.serve settings completionCost usd usage).committed = [] := by
    intro hb
    cases hsearch : b.request.isSearch with
    | false => rw [serve_refused hb hsearch]
    | true =>
      unfold Arrival.serve
      cases hreq : b.request with
      | search env q k user => simp only [search_request]
      | _ =>
        rw [hreq] at hsearch
        cases hsearch
  have hsame : (b.serve settings completionCost usd usage).committed = [] →
      spendStep settings completionCost usd usage b = usage := by
    intro hnone
    unfold spendStep
    rw [hnone]
    exact List.append_nil usage
  rcases h with h | ⟨u, hu, h⟩
  · have hnone := hquiet (Or.inl (by rwa [todayCostUsd_congr hday]))
    rw [hsame hnone]
    exact Or.inl h
  · by_cases hown : idOf b.request.user = some u.id
    · obtain ⟨v, hv, hid⟩ := Option.map_eq_some_iff.mp hown
      obtain rfl := hrecord u v hu hv hid
      have hnone := hquiet (Or.inr ⟨v, hv, by rwa [todayUserCostUsd_congr hday]⟩)
      rw [hsame hnone]
      exact Or.inr ⟨v, hu, h⟩
    · right
      refine ⟨u, hu, ?_⟩
      have hothers : todayUserCostUsd (spendStep settings completionCost usd usage b) now u.id =
          todayUserCostUsd usage now u.id := by
        unfold todayUserCostUsd spendStep
        rw [List.filter_append, List.map_append, List.sum_append]
        have hnone : ((b.serve settings completionCost usd usage).committed.zipIdx.map fun p =>
            (⟨p.1, b.stamps p.2⟩ : StoredUsage)).filter
              (fun r => r.userId = some u.id ∧ utcDayStart now ≤ r.createdAt) = [] := by
          apply List.filter_eq_nil_iff.mpr
          intro row hrow hkept
          obtain ⟨p, hp, rfl⟩ := List.mem_map.mp hrow
          have huser : p.1.userId = some u.id := (of_decide_eq_true hkept).1
          rw [serve_rows b p.1 (List.fst_mem_of_mem_zipIdx hp)] at huser
          exact hown huser
        rw [hnone]
        simp
      rwa [hothers]

theorem spendAll_keeps {user : Option User} {now : Timestamp} (h : CapReached settings usage now user)
    {mid : List Arrival} (hday : ∀ b ∈ mid, utcDayStart b.now = utcDayStart now)
    (hrecord : ∀ b ∈ mid, ∀ u v, user = some u → b.request.user = some v → v.id = u.id → v = u) :
    CapReached settings (spendAll settings completionCost usd usage mid) now user := by
  induction mid generalizing usage with
  | nil => exact h
  | cons b mid ih =>
    have hstep : CapReached settings (spendStep settings completionCost usd usage b) now user :=
      spendStep_keeps h (hday b List.mem_cons_self) (hrecord b List.mem_cons_self)
    exact ih hstep (fun c hc => hday c (List.mem_cons_of_mem _ hc)) fun c hc => hrecord c (List.mem_cons_of_mem _ hc)

end

/-- In every sequence of requests, the gate is complete just where no search comes behind a cap. -/
theorem gate_complete_iff (settings : Settings) (completionCost : CompletionCost) (usd : ℚ → String)
    (usage : List StoredUsage) (arrivals : List Arrival) :
    GateComplete settings completionCost usd usage arrivals ↔
      ∀ a usage', CappedBefore settings completionCost usd usage arrivals a usage' → a.request.isSearch = false := by
  constructor
  · intro h a usage' hcapped
    by_contra hsearch
    exact search_calls (Bool.not_eq_false _ ▸ hsearch) (h a usage' hcapped)
  · intro h a usage' hcapped
    have hgated := h a usage' hcapped
    obtain ⟨before, mid, rest, now, _, hday, hrecord, hreached, rfl⟩ := hcapped
    have hkept := @spendAll_keeps settings completionCost usd _ _ _ hreached mid
      (fun b hb => hday b (List.mem_append_left _ hb)) hrecord
    have hnow : utcDayStart now = utcDayStart a.now :=
      (hday a (List.mem_append_right _ (List.mem_singleton_self a))).symm
    have hall : spendAll settings completionCost usd usage (before ++ mid) =
        spendAll settings completionCost usd (spendAll settings completionCost usd usage before) mid :=
      List.foldl_append
    rw [hall, serve_refused (hkept.congr hnow) hgated]
    rfl

/-- A day whose cap is spent, and a search. -/
def spentUsage : List StoredUsage := [⟨⟨none, "gpt-4o-mini", 900, 100, 5, none⟩, 10⟩]

def searchArrival : Arrival := ⟨.search answeredSearch "totals" 5 none, 20, fun _ => 20⟩

theorem search_passes_gate : ¬ GateComplete {} (fun _ _ _ => .ok none) toString spentUsage [searchArrival] := by
  intro h
  have hcapped : CappedBefore {} (fun _ _ _ => .ok none) toString spentUsage [searchArrival] searchArrival spentUsage := by
    refine ⟨[], [], [], 15, rfl, ?_, ?_, ?_, rfl⟩
    · intro b hb
      obtain rfl := List.mem_singleton.mp hb
      decide
    · intro b hb
      cases hb
    · left
      decide +kernel
  exact absurd (h _ _ hcapped) (by decide)

end ProRag
