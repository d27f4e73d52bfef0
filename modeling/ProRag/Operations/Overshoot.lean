import ProRag.Chat.Agreement
import ProRag.Framework.Overshoot
import ProRag.Operations.Gate

/-!
# Overshooting the caps

The gate reads what is committed when a request comes, and the request commits its rows afterwards, while others come and
pass.  So a cap is overshot by the rows of the requests at work when it is reached; what ingestion and rule previews
spend is not gated at all.
-/

namespace ProRag

open Framework

/-- What a cap is about: the installation, or a user. -/
inductive SpendScope
  | installation
  | user (u : User)

def SpendScope.spent (usage : List StoredUsage) (now : Timestamp) : SpendScope → ℚ
  | .installation => todayCostUsd usage now
  | .user u => todayUserCostUsd usage now u.id

/-- Where the gate refuses. -/
def SpendScope.limit (settings : Settings) : SpendScope → ℚ
  | .installation => settings.dailyCostCapUsd
  | .user u => effectiveCap settings u * settings.userHardCapMultiplier

def SpendScope.weight (now : Timestamp) : SpendScope → StoredUsage → ℚ
  | .installation, r => if utcDayStart now ≤ r.createdAt then r.costUsd else 0
  | .user u, r => if r.userId = some u.id ∧ utcDayStart now ≤ r.createdAt then r.costUsd else 0

def Priced (r : StoredUsage) : Prop := 0 ≤ r.costUsd

section

variable (settings : Settings) (completionCost : CompletionCost) (usd : ℚ → String)

/-- The rows of a request whose gate has read `usage`. -/
def Arrival.bill (usage : List StoredUsage) (a : Arrival) : List StoredUsage :=
  (a.serve settings completionCost usd usage).committed.zipIdx.map fun p => ⟨p.1, a.stamps p.2⟩

/-- A request that comes by the end of the day of `now`, and whose user has the record that the cap is about. -/
def SpendScope.Admits (now : Timestamp) (scope : SpendScope) (a : Arrival) : Prop :=
  utcDayStart a.now ≤ utcDayStart now ∧
    match scope with
    | .installation => True
    | .user u => ∀ v, a.request.user = some v → v.id = u.id → v = u

/-- A request moves between its gate, its commits and its end, among others; at most `k` requests that count are at work
at a time, and none of them costs more than `c`. -/
def spendingStep : Pool (Ledger StoredUsage) (Spender Arrival StoredUsage) →
    PoolOp (Arrival ⊕ List StoredUsage) SpendMove → Option (Pool (Ledger StoredUsage) (Spender Arrival StoredUsage)) :=
  poolStep spendEnter (spendAct fun usage a => a.bill settings completionCost usd usage)

def SpendingGuard (scope : SpendScope) (now : Timestamp) (k : Nat) (c : ℚ) :
    Pool (Ledger StoredUsage) (Spender Arrival StoredUsage) → PoolOp (Arrival ⊕ List StoredUsage) SpendMove → Prop :=
  poolGuard (spendGuard (scope.weight now) Priced (fun usage a => a.bill settings completionCost usd usage)
    (scope.Admits now) k c)

end

section

variable {settings : Settings} {completionCost : CompletionCost} {usd : ℚ → String} {usage : List StoredUsage}

theorem spent_eq_worth (scope : SpendScope) (now : Timestamp) (usage : List StoredUsage) :
    scope.spent usage now = worth (scope.weight now) usage := by
  have hsum : ∀ (p : StoredUsage → Prop) [DecidablePred p],
      ((usage.filter fun r => p r).map fun r => r.costUsd).sum = worth (fun r => if p r then r.costUsd else 0) usage := by
    intro p _
    induction usage with
    | nil => rfl
    | cons r usage ih =>
      simp only [worth, List.map_cons, List.sum_cons] at ih ⊢
      by_cases hp : p r
      · simp [hp, ← ih]
      · simp [hp, ← ih]
  cases scope with
  | _ => exact hsum _

theorem weight_nonneg (scope : SpendScope) (now : Timestamp) (r : StoredUsage) (h : Priced r) : 0 ≤ scope.weight now r := by
  cases scope with
  | _ =>
    simp only [SpendScope.weight]
    split
    · exact h
    · exact le_rfl

theorem weight_anti (scope : SpendScope) {now now' : Timestamp} (h : utcDayStart now' ≤ utcDayStart now)
    {r : StoredUsage} (hr : Priced r) : scope.weight now r ≤ scope.weight now' r := by
  have hlater : utcDayStart now ≤ r.createdAt → utcDayStart now' ≤ r.createdAt := h.trans
  cases scope with
  | installation =>
    by_cases hcounts : utcDayStart now ≤ r.createdAt
    · simp [SpendScope.weight, hcounts, hlater hcounts]
    · simpa [SpendScope.weight, hcounts] using weight_nonneg .installation now' r hr
  | user u =>
    by_cases hcounts : r.userId = some u.id ∧ utcDayStart now ≤ r.createdAt
    · simp [SpendScope.weight, hcounts.1, hcounts.2, hlater hcounts.2]
    · simpa [SpendScope.weight, hcounts] using weight_nonneg (.user u) now' r hr

theorem spent_anti (scope : SpendScope) {now now' : Timestamp} (h : utcDayStart now' ≤ utcDayStart now)
    (hpriced : ∀ r ∈ usage, Priced r) : scope.spent usage now ≤ scope.spent usage now' := by
  rw [spent_eq_worth, spent_eq_worth]
  exact List.sum_le_sum fun r hr => weight_anti scope h (hpriced r hr)

/-- No completion has a negative price. -/
def NonnegPrices (settings : Settings) (completionCost : CompletionCost) : Prop :=
  0 ≤ settings.fallbackPricePer1kUsd ∧ ∀ model prompt completion cost,
    completionCost model prompt completion = .ok (some cost) → 0 ≤ cost

theorem usageRow_priced (h : NonnegPrices settings completionCost) (c : Completion) :
    0 ≤ (usageRow settings completionCost c).costUsd := by
  simp only [usageRow, computeCost]
  split
  · exact h.2 _ _ _ _ ‹_›
  · exact mul_nonneg (by positivity) h.1

section

variable {kind : Usage → Prop} (hkind : ∀ c, kind (usageRow settings completionCost c))
include hkind

theorem stages_kind {α : Type} {t : RequestTx α} {r : Except PyError α} {l : List RequestEvent}
    (ht : Stages (usageRows settings completionCost) t r l) : AddsOnly kind t := by
  refine AddsOnly.of_stages ht ?_
  simp only [usageRows, List.mem_flatMap, List.mem_map, forall_exists_index, and_imp]
  rintro _ e _ c _ rfl
  exact hkind c

theorem retrieve_kind (env : RetrievalEnv) (message : String) (user : Option User) :
    AddsOnly kind (retrieve settings completionCost env message user) :=
  (stages_kind hkind found_stages).bind fun _ => (AddsOnly.commit _).bind fun _ => AddsOnly.pure _

theorem answer_kind (userId : Option Uuid) (out : LlmOutcome (Option String)) :
    AddsOnly kind (answer settings completionCost userId out) :=
  stages_kind hkind (trackedCall_stages .answer settings.answerModel userId out)

theorem evalTurns_kind (lower : String → String) (turns : List EvalTurn) :
    AddsOnly kind (evalTurns settings completionCost lower turns) := by
  induction turns with
  | nil => exact AddsOnly.pure _
  | cons turn turns ih =>
    exact (retrieve_kind hkind _ _ _).bind fun r => (answer_kind hkind _ _).bind fun _ => (AddsOnly.await _).bind fun _ =>
      ih.bind fun _ => AddsOnly.pure _

theorem serve_kind (a : Arrival) : ∀ row ∈ (a.serve settings completionCost usd usage).committed, kind row := by
  rw [Arrival.serve]
  cases a.request with
  | chat env req user =>
    apply AddsOnly.request
    exact (AddsOnly.await _).bind fun _ => (retrieve_kind hkind _ _ _).bind fun _ => (answer_kind hkind _ _).bind fun _ =>
      (AddsOnly.await _).bind fun _ => AddsOnly.bind (persistExchange_rows _ _ _ _ _) fun _ => AddsOnly.pure _
  | chatStream env req user =>
    have hfinish : ∀ r st, AddsOnly kind (finishStream settings completionCost req user
        { env with budget := checkDailyCap settings usd usage a.now user } r st) := fun r st =>
      AddsOnly.bind (send_rows _ _ _) fun _ => AddsOnly.bind (AddsOnly.add (hkind _)) fun _ =>
        AddsOnly.bind (persistExchange_rows _ _ _ _ _) fun _ => send_rows _ _ _
    have hframes : ∀ warning, AddsOnly kind (streamFrames settings completionCost req user
        { env with budget := checkDailyCap settings usd usage a.now user } warning) := fun warning =>
      (retrieve_kind hkind _ _ _).bind fun r => AddsOnly.bind (send_rows _ _ _) fun _ =>
        (AddsOnly.recordAll _).bind fun _ => (AddsOnly.await _).bind fun _ => hfinish r _
    apply AddsOnly.request
    exact (AddsOnly.await _).bind fun warning => AddsOnly.bind (send_rows _ _ _) fun _ =>
      (hframes warning).tryCatch fun _ => AddsOnly.recordAll _
  | search env q k user =>
    simp only [search_request]
    intro row hrow
    cases hrow
  | evalRun env =>
    have hrun : AddsOnly kind (runEval settings completionCost env) :=
      (AddsOnly.await _).bind fun _ => (evalTurns_kind hkind _ _).bind fun _ => (AddsOnly.await _).bind fun _ =>
        (AddsOnly.commit _).bind fun _ => (AddsOnly.await _).bind fun _ => AddsOnly.pure _
    apply AddsOnly.request
    exact (AddsOnly.await _).bind fun _ => hrun.tryCatch fun _ => AddsOnly.await _

end

theorem bill_priced (hprices : NonnegPrices settings completionCost) (usage : List StoredUsage) (a : Arrival) :
    ∀ r ∈ a.bill settings completionCost usd usage, Priced r := by
  intro r hr
  obtain ⟨p, hp, rfl⟩ := List.mem_map.mp hr
  have hnonneg : ∀ row ∈ (a.serve settings completionCost usd usage).committed, 0 ≤ row.costUsd :=
    serve_kind (usageRow_priced hprices) a
  exact hnonneg p.1 (List.fst_mem_of_mem_zipIdx hp)

theorem bill_user {a : Arrival} {r : StoredUsage} (h : r ∈ a.bill settings completionCost usd usage) :
    r.userId = idOf a.request.user := by
  obtain ⟨p, hp, rfl⟩ := List.mem_map.mp h
  exact serve_rows a p.1 (List.fst_mem_of_mem_zipIdx hp)

/-- Behind a reached cap, the gate refuses, or the request is a search, which commits nothing. -/
theorem bill_capped {a : Arrival} (h : CapReached settings usage a.now a.request.user) :
    a.bill settings completionCost usd usage = [] := by
  have hnone : (a.serve settings completionCost usd usage).committed = [] := by
    cases hsearch : a.request.isSearch with
    | false => rw [serve_refused h hsearch]
    | true =>
      rw [Arrival.serve]
      cases hreq : a.request with
      | search env q k user => simp only [search_request]
      | _ => simp [hreq, SpendRequest.isSearch] at hsearch
  simp [Arrival.bill, hnone]

theorem spent_lt_limit {scope : SpendScope} {now : Timestamp} {a : Arrival} (hadmits : scope.Admits now a)
    (hpriced : ∀ r ∈ usage, Priced r) (hspends : 0 < worth (scope.weight now) (a.bill settings completionCost usd usage)) :
    scope.spent usage now < scope.limit settings := by
  by_contra hreached
  have hearlier : scope.limit settings ≤ scope.spent usage a.now :=
    (not_lt.mp hreached).trans (spent_anti scope hadmits.1 hpriced)
  cases scope with
  | installation => simp [bill_capped (Or.inl hearlier)] at hspends
  | user u =>
    by_cases howner : idOf a.request.user = some u.id
    · obtain ⟨v, hv, hid⟩ := Option.map_eq_some_iff.mp howner
      obtain rfl := hadmits.2 v hv hid
      simp [bill_capped (Or.inr ⟨v, hv, hearlier⟩)] at hspends
    · apply hspends.ne'
      apply List.sum_eq_zero
      intro w hw
      obtain ⟨r, hr, rfl⟩ := List.mem_map.mp hw
      have hother : r.userId ≠ some u.id := fun h => howner ((bill_user hr).symm.trans h)
      simp [SpendScope.weight, hother]

/-- In every interleaving of requests up to the end of a day, a cap is overshot by at most the rows of `k` requests, when
no more than `k` that count are at work at a time and none costs more than `c`; what is not gated comes on top. -/
theorem cap_overshoot (hprices : NonnegPrices settings completionCost) (hpriced : ∀ r ∈ usage, Priced r)
    (scope : SpendScope) (now : Timestamp) {k : Nat} {c : ℚ} {s : Pool (Ledger StoredUsage) (Spender Arrival StoredUsage)}
    (h : Reaches (spendingStep settings completionCost usd) (SpendingGuard settings completionCost usd scope now k c)
      (· = ⟨⟨usage, []⟩, []⟩) s) :
    scope.spent s.shared.rows now ≤
      max (scope.spent usage now) (scope.limit settings + k * c) + scope.spent s.shared.ungated now := by
  rw [spent_eq_worth, spent_eq_worth, spent_eq_worth, ← nsmul_eq_mul]
  refine h.overshoot (weight_nonneg scope now) (bill_priced hprices) ?_ hpriced
  intro usage a hadmits hpriced hspends
  rw [← spent_eq_worth]
  exact (spent_lt_limit hadmits hpriced hspends).le

end

/-- A day on which four dollars of the five are spent, and a stream that costs two. -/
def nearlySpent : List StoredUsage := [⟨⟨none, "gpt-4o-mini", 900, 100, 4, none⟩, 10⟩]

def dollarEach : CompletionCost := fun _ _ _ => .ok (some 1)

def fiveDollars : Settings := {}

def noteArrival : Arrival := ⟨.chatStream noteStream noteRequest none, 20, fun _ => 20⟩

def noteBill : List StoredUsage :=
  [⟨⟨none, "text-embedding-3-small", 8, 0, 1, none⟩, 20⟩, ⟨⟨none, "gpt-4o-mini", 40, 9, 1, none⟩, 20⟩]

theorem noteArrival_bill : noteArrival.bill fiveDollars dollarEach toString nearlySpent = noteBill := by
  decide +kernel

/-- Both streams look before either has committed. -/
def twoNotes : List (PoolOp (Arrival ⊕ List StoredUsage) SpendMove) :=
  [.spawn (.inl noteArrival), .spawn (.inl noteArrival), .move 0 .check, .move 1 .check, .move 0 (.charge 2),
    .move 1 (.charge 1), .move 1 (.charge 1)]

theorem twoNotes_run : runSteps (spendingStep fiveDollars dollarEach toString) ⟨⟨nearlySpent, []⟩, []⟩ twoNotes =
    some ⟨⟨nearlySpent ++ noteBill ++ noteBill, []⟩, [.owing [], .owing []]⟩ := by
  simp [twoNotes, runSteps, spendingStep, poolStep, spendAct, spendEnter, noteArrival_bill, noteBill]

theorem twoNotes_guarded : Guarded (spendingStep fiveDollars dollarEach toString)
    (SpendingGuard fiveDollars dollarEach toString .installation 20 2 2) ⟨⟨nearlySpent, []⟩, []⟩ twoNotes := by
  have hadmits : SpendScope.installation.Admits 20 noteArrival := ⟨le_rfl, trivial⟩
  have hcost : worth (SpendScope.installation.weight 20) noteBill = 2 := by decide +kernel
  simp [twoNotes, Guarded, SpendingGuard, poolGuard, spendGuard, spendingStep, poolStep, spendAct, spendEnter,
    noteArrival_bill, hadmits, hcost, Spender.owes]

theorem cap_overshoot_twoNotes :
    SpendScope.installation.spent (nearlySpent ++ noteBill ++ noteBill) 20 ≤
      max (SpendScope.installation.spent nearlySpent 20) (SpendScope.installation.limit fiveDollars + (2 : ℕ) * 2) +
        SpendScope.installation.spent [] 20 := by
  have hprices : NonnegPrices fiveDollars dollarEach := by
    refine ⟨by decide +kernel, ?_⟩
    rintro _ _ _ cost h
    obtain rfl : 1 = cost := by simpa [dollarEach] using h
    exact zero_le_one
  have hpriced : ∀ r ∈ nearlySpent, Priced r := by
    simp [nearlySpent, Priced]
  have hstart : Reaches (spendingStep fiveDollars dollarEach toString)
      (SpendingGuard fiveDollars dollarEach toString .installation 20 2 2) (· = ⟨⟨nearlySpent, []⟩, []⟩)
      ⟨⟨nearlySpent, []⟩, []⟩ := .start rfl
  have hbound := cap_overshoot hprices hpriced .installation 20 (hstart.runSteps twoNotes_guarded twoNotes_run)
  exact hbound

end ProRag
