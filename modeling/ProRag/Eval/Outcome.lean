import ProRag.Chat.Agreement
import ProRag.Eval.Runner
import ProRag.Framework.Arrears
import ProRag.Llm.Accounting

/-!
# How an evaluation ends

An evaluation commits behind each retrieval, so its costs are on record while it runs: one that is refused, timed out or
broken off loses only what the last answer and the next retrieval have added.  One that returns has scored every entry.
-/

namespace ProRag

open Framework

variable {settings : Settings} {completionCost : CompletionCost}

theorem callOf_rows_length {α : Type} (kind : CallKind) (model : String) (userId : Option Uuid) (out : LlmOutcome α) :
    ([callOf kind model userId out].flatMap (usageRows settings completionCost)).length ≤ 1 := by
  cases out with
  | _ => simp [callOf, usageRows, RequestEvent.completions]

theorem embedCall_rows_length (userId : Option Uuid) (out : LlmOutcome (List Embedding)) :
    ([embedCall settings userId out].flatMap (usageRows settings completionCost)).length ≤ 1 := by
  rw [embedCall]
  split
  · simp [usageRows, RequestEvent.completions]
  · exact callOf_rows_length _ _ _ _

theorem logAfter_rows_length {α : Type} {r : Except PyError α} {l : α → List RequestEvent} {n : Nat}
    (h : ∀ a, ((l a).flatMap (usageRows settings completionCost)).length ≤ n) :
    ((logAfter r l).flatMap (usageRows settings completionCost)).length ≤ n := by
  cases r with
  | ok a => exact h a
  | error e => simp [logAfter]

theorem retrieval_rows_length (env : RetrievalEnv) (message : String) (user : Option User) :
    ((env.events settings message user).flatMap (usageRows settings completionCost)).length ≤ 3 := by
  have hprefill : ((env.prefillEvents settings message user).flatMap (usageRows settings completionCost)).length ≤ 1 := by
    rw [RetrievalEnv.prefillEvents]
    split
    · simp
    · exact callOf_rows_length _ _ _ _
  have hplan : ∀ cleaned, ((env.toQueryEnv.events settings cleaned (idOf user)).flatMap
      (usageRows settings completionCost)).length ≤ 2 := by
    intro cleaned
    rw [QueryEnv.events, ← List.singleton_append, List.flatMap_append, List.length_append]
    have hcall := @callOf_rows_length settings completionCost _ .planner settings.plannerModel (idOf user) env.planner
    have hembed : ((logAfter (env.planned cleaned) fun _ => [embedCall settings (idOf user) env.embed]).flatMap
        (usageRows settings completionCost)).length ≤ 1 := logAfter_rows_length fun _ => embedCall_rows_length _ _
    omega
  have hrest := @logAfter_rows_length settings completionCost _ (env.refined settings message) _ 2 hplan
  rw [RetrievalEnv.events, List.flatMap_append, List.length_append]
  omega

theorem retrieve_arrears (env : RetrievalEnv) (message : String) (user : Option User) :
    Arrears (usageRows settings completionCost) 1 0 4 (retrieve settings completionCost env message user) :=
  (Arrears.of_stages found_stages (retrieval_rows_length env message user) le_rfl).bind fun _ =>
    (Arrears.commit _ le_rfl).bind fun _ => Arrears.pure _

theorem answer_arrears (userId : Option Uuid) (out : LlmOutcome (Option String)) :
    Arrears (usageRows settings completionCost) 0 1 4 (answer settings completionCost userId out) :=
  Arrears.of_stages (trackedCall_stages .answer settings.answerModel userId out) (callOf_rows_length _ _ _ _) (by decide)

/-- From one turn to the next, the row of the answer is all that is uncommitted. -/
theorem evalTurns_arrears (lower : String → String) (turns : List EvalTurn) :
    Arrears (usageRows settings completionCost) 1 1 4 (evalTurns settings completionCost lower turns) := by
  induction turns with
  | nil => exact Arrears.pure _
  | cons turn turns ih =>
    exact (retrieve_arrears _ _ _).bind fun r => (answer_arrears _ _).bind fun raw =>
      (Arrears.await _ (by decide)).bind fun score => ih.bind fun scores => Arrears.pure _

theorem evalRun_arrears (budget : Except PyError (Option String)) (env : EvalEnv) :
    Arrears (usageRows settings completionCost) 0 0 4 (evalRun settings completionCost budget env) := by
  have hturns : ∀ turns, Arrears (usageRows settings completionCost) 0 1 4
      (evalTurns settings completionCost env.lower turns) := fun turns =>
    (evalTurns_arrears env.lower turns).mono zero_le_one le_rfl le_rfl
  have hrun : Arrears (usageRows settings completionCost) 0 0 4 (runEval settings completionCost env) :=
    (Arrears.await _ (by decide)).bind fun turns => (hturns turns).bind fun _ => (Arrears.await _ (by decide)).bind fun _ =>
      (Arrears.commit _ (by decide)).bind fun _ => (Arrears.await _ (by decide)).bind fun _ => Arrears.pure _
  have htimeout : ∀ e : PyError, Arrears (usageRows settings completionCost) 4 0 4 (Tx.await (.error e) : RequestTx (Nat × Aggregate)) :=
    fun e u hu hle => ⟨hu, hle⟩
  exact (Arrears.await _ (by decide)).bind fun _ => hrun.tryCatch fun _ => htimeout _

/-- However an evaluation ends, the rows of all but its last four completions are committed, and those of all of them when
it returns its scores. -/
theorem evalRun_books (settings : Settings) (completionCost : CompletionCost) (budget : Except PyError (Option String))
    (env : EvalEnv) : ∃ lost, lost.length ≤ 4 ∧
      ((evalRun settings completionCost budget env).request []).committed ++ lost =
        ((evalRun settings completionCost budget env).request []).log.flatMap (usageRows settings completionCost) ∧
      ∀ a, (evalRun settings completionCost budget env ⟨[], [], []⟩).1 = .ok a → lost = [] :=
  (evalRun_arrears budget env).request

/-- A golden entry that was run: the hits, the answer and the scores. -/
structure ScoredTurn where
  turn : EvalTurn
  hits : List Hit
  answer : Option String
  score : QuestionScore

structure ScoredTurn.Ran (settings : Settings) (lower : String → String) (x : ScoredTurn) : Prop where
  retrieved : ∃ cleaned, x.turn.retrieval.retrieved settings x.turn.entry.question none = .ok (x.hits, cleaned)
  answered : ∃ resp, x.turn.answer = .ok resp ∧ resp.content = .ok x.answer
  scored : scoreTurn lower x.turn.entry x.hits x.answer = .ok x.score

/-- An expected document or title is among the hits, where any is expected. -/
def ScoredTurn.FindsExpected (lower : String → String) (x : ScoredTurn) : Prop :=
  (x.turn.entry.expectedDocIds = [] ∧ x.turn.entry.expectedSourceTitles = []) ∨
    ∃ h ∈ x.hits, toString h.docId ∈ x.turn.entry.expectedDocIds ∨
      (lower h.title ≠ "" ∧ ∃ t ∈ x.turn.entry.expectedSourceTitles, (lower t).toList <:+: (lower h.title).toList)

def ScoredTurn.HasKeywords (lower : String → String) (x : ScoredTurn) : Prop :=
  ∀ kw ∈ x.turn.entry.expectedAnswerContains, ∃ answer, x.answer = some answer ∧
    (lower kw).toList <:+: (lower answer).toList

/-- The answer cites only sources that it was given. -/
def ScoredTurn.CitesGiven (x : ScoredTurn) : Prop :=
  ∃ answer cited, x.answer = some answer ∧ extractCitedIndices (normalizeCitations answer.toList) = .ok cited ∧
    ∀ n ∈ cited, 1 ≤ n ∧ n ≤ x.hits.length

/-- A mark out of one, full just when `full`. -/
def MarkOf (full : Prop) (mark : ℚ) : Prop := 0 ≤ mark ∧ mark ≤ 1 ∧ (mark = 1 ↔ full)

theorem markOf_one {full : Prop} (h : full) : MarkOf full 1 := ⟨zero_le_one, le_rfl, iff_of_true rfl h⟩

theorem markOf_fraction {α : Type} {l : List α} (p : α → Bool) (hl : l ≠ []) :
    MarkOf (∀ a ∈ l, p a) ((l.filter p).length / l.length : ℚ) := by
  have hpos : (0 : ℚ) < l.length := by exact_mod_cast List.length_pos_of_ne_nil hl
  refine ⟨by positivity, ?_, ?_⟩
  · rw [div_le_one hpos]
    exact_mod_cast List.length_filter_le p l
  · rw [div_eq_one_iff_eq hpos.ne', Nat.cast_inj]
    exact List.length_filter_eq_length_iff

theorem markOf_mean {α : Type} {l : List α} {mark : α → ℚ} {full : α → Prop} (hl : l ≠ [])
    (h : ∀ a ∈ l, MarkOf (full a) (mark a)) : MarkOf (∀ a ∈ l, full a) ((l.map mark).sum / l.length) := by
  have hpos : (0 : ℚ) < l.length := by exact_mod_cast List.length_pos_of_ne_nil hl
  have hsum : ∀ l' : List α, (∀ a ∈ l', MarkOf (full a) (mark a)) → 0 ≤ (l'.map mark).sum ∧
      (l'.map mark).sum ≤ l'.length ∧ ((l'.map mark).sum = l'.length ↔ ∀ a ∈ l', full a) := by
    intro l' h'
    induction l' with
    | nil => simp
    | cons a l' ih =>
      obtain ⟨hlo, hhi, hfull⟩ := h' a List.mem_cons_self
      obtain ⟨hlo', hhi', hfull'⟩ := ih fun b hb => h' b (List.mem_cons_of_mem a hb)
      simp only [List.map_cons, List.sum_cons, List.length_cons, Nat.cast_add, Nat.cast_one, List.forall_mem_cons,
        ← hfull, ← hfull']
      refine ⟨by linarith, by linarith, ?_, ?_⟩
      · intro heq
        constructor
        · linarith
        · linarith
      · rintro ⟨hone, hrest⟩
        linarith
  obtain ⟨hlo, hhi, hfull⟩ := hsum l h
  refine ⟨by positivity, ?_, ?_⟩
  · rwa [div_le_one hpos]
  · rw [div_eq_one_iff_eq hpos.ne']
    exact hfull

section

variable {lower : String → String} {x : ScoredTurn}

theorem ScoredTurn.Ran.score_eq (h : x.Ran settings lower) : ∃ coverage validity,
    keywordCoverage lower x.answer x.turn.entry.expectedAnswerContains = .ok coverage ∧
      citationValidity x.answer x.hits.length = .ok validity ∧
      x.score = ⟨x.turn.entry.question, x.answer, retrievalHitRate lower x.turn.entry x.hits, coverage, validity⟩ := by
  obtain ⟨coverage, hcoverage, hscore⟩ := bind_eq_ok.mp h.scored
  obtain ⟨validity, hvalidity, hscore⟩ := bind_eq_ok.mp hscore
  exact ⟨coverage, validity, hcoverage, hvalidity, (Except.ok.inj hscore).symm⟩

theorem ScoredTurn.Ran.hitRate (h : x.Ran settings lower) : MarkOf (x.FindsExpected lower) x.score.hitRate := by
  obtain ⟨coverage, validity, -, -, hscore⟩ := h.score_eq
  have hfind : x.FindsExpected lower ↔
      (x.turn.entry.expectedDocIds = [] ∧ x.turn.entry.expectedSourceTitles.map lower = []) ∨
        (x.hits.any fun h => toString h.docId ∈ x.turn.entry.expectedDocIds ∨ (lower h.title ≠ "" ∧
          (x.turn.entry.expectedSourceTitles.map lower).any fun t => containsText t (lower h.title))) = true := by
    simp [ScoredTurn.FindsExpected, containsText]
  simp only [hscore, retrievalHitRate]
  split
  · exact markOf_one (hfind.mpr (Or.inl ‹_›))
  split
  · exact markOf_one (hfind.mpr (Or.inr ‹_›))
  · refine ⟨le_rfl, zero_le_one, ?_⟩
    simp_all

theorem ScoredTurn.Ran.keywords (h : x.Ran settings lower) : MarkOf (x.HasKeywords lower) x.score.keywordCoverage := by
  obtain ⟨coverage, validity, hcoverage, -, hscore⟩ := h.score_eq
  simp only [hscore]
  unfold keywordCoverage at hcoverage
  split at hcoverage
  · rename_i hnone
    obtain rfl := Except.ok.inj hcoverage
    exact markOf_one (by simp [ScoredTurn.HasKeywords, hnone])
  · rename_i hsome
    cases hanswer : x.answer with
    | none => simp [hanswer] at hcoverage
    | some answer =>
      rw [hanswer] at hcoverage
      obtain rfl := Except.ok.inj hcoverage
      have hmark := markOf_fraction (fun kw => containsText (lower kw) (lower answer)) hsome
      simpa [ScoredTurn.HasKeywords, hanswer, containsText] using hmark

theorem ScoredTurn.Ran.citations (h : x.Ran settings lower) : MarkOf x.CitesGiven x.score.citationValidity := by
  obtain ⟨coverage, validity, -, hvalidity, hscore⟩ := h.score_eq
  simp only [hscore]
  cases hanswer : x.answer with
  | none => simp [hanswer, citationValidity] at hvalidity
  | some answer =>
    rw [hanswer, citationValidity] at hvalidity
    obtain ⟨cited, hcited, hvalidity⟩ := bind_eq_ok.mp hvalidity
    have hgiven : x.CitesGiven ↔ ∀ n ∈ cited, 1 ≤ n ∧ n ≤ x.hits.length := by
      simp [ScoredTurn.CitesGiven, hanswer, hcited]
    rw [hgiven]
    split at hvalidity
    · rename_i hnone
      obtain rfl := Except.ok.inj hvalidity
      exact markOf_one (by simp [hnone])
    · rename_i hsome
      obtain rfl := Except.ok.inj hvalidity
      simpa using markOf_fraction (fun n => decide (1 ≤ n ∧ n ≤ x.hits.length)) hsome

theorem evalTurns_ran {turns : List EvalTurn} {scores : List QuestionScore} {u u' : Uow Usage RequestEvent}
    (h : evalTurns settings completionCost lower turns u = (.ok scores, u')) : ∃ scored : List ScoredTurn,
      scored.map ScoredTurn.turn = turns ∧ scored.map ScoredTurn.score = scores ∧ ∀ x ∈ scored, x.Ran settings lower := by
  induction turns generalizing u u' scores with
  | nil =>
    obtain ⟨hscores, -⟩ := Prod.mk.inj h
    exact ⟨[], rfl, Except.ok.inj hscores, by simp⟩
  | cons turn turns ih =>
    obtain ⟨r, v, hr, h⟩ := Tx.bind_eq_ok.mp h
    obtain ⟨raw, w, hraw, h⟩ := Tx.bind_eq_ok.mp h
    obtain ⟨score, _, hscore, h⟩ := Tx.bind_eq_ok.mp h
    obtain ⟨rest, _, hrest, h⟩ := Tx.bind_eq_ok.mp h
    obtain ⟨scored, rfl, rfl, hran⟩ := ih hrest
    obtain rfl : score :: scored.map ScoredTurn.score = scores := Except.ok.inj (Prod.mk.inj h).1
    rw [retrieve_spec] at hr
    have hanswer : Stages (usageRows settings completionCost) (answer settings completionCost none turn.answer)
      (turn.answer >>= LlmResponse.content) _ := trackedCall_stages .answer settings.answerModel none turn.answer
    rw [hanswer] at hraw
    obtain ⟨resp, hresp, hcontent⟩ := bind_eq_ok.mp (Prod.mk.inj hraw).1
    refine ⟨⟨turn, r.1, raw, score⟩ :: scored, rfl, rfl, ?_⟩
    intro x hx
    rcases List.mem_cons.mp hx with rfl | hx
    · exact ⟨⟨r.2, (Prod.mk.inj hr).1⟩, ⟨resp, hresp, hcontent⟩, (Prod.mk.inj hscore).1⟩
    · exact hran x hx

/-- The marks of an evaluation that returns are the means over the golden entries, each run in its turn; each is out of
one, and full just when every entry deserves it. -/
theorem evalRun_scores {budget : Except PyError (Option String)} {env : EvalEnv} {u u' : Uow Usage RequestEvent}
    {runId : Nat} {agg : Aggregate}
    (h : evalRun settings completionCost budget env u = (.ok (runId, agg), u')) : ∃ scored : List ScoredTurn,
      env.golden = .ok (scored.map ScoredTurn.turn) ∧ (∀ x ∈ scored, x.Ran settings env.lower) ∧
      agg.nQuestions = scored.length ∧ (scored ≠ [] →
        MarkOf (∀ x ∈ scored, x.FindsExpected env.lower) agg.hitRate ∧
        MarkOf (∀ x ∈ scored, x.HasKeywords env.lower) agg.keywordCoverage ∧
        MarkOf (∀ x ∈ scored, x.CitesGiven) agg.citationValidity) := by
  obtain ⟨warning, v, hbudget, h⟩ := Tx.bind_eq_ok.mp h
  have hrun : runEval settings completionCost env v = (.ok (runId, agg), u') := by
    rw [Tx.tryCatch] at h
    cases hbody : runEval settings completionCost env v with
    | mk result w =>
      rw [hbody] at h
      cases result with
      | ok a => exact h
      | error e =>
        simp only [Tx.await] at h
        split at h
        · cases h
        · cases h
  obtain ⟨turns, _, hgolden, hrun⟩ := Tx.bind_eq_ok.mp hrun
  obtain ⟨scores, _, hturns, hrun⟩ := Tx.bind_eq_ok.mp hrun
  obtain ⟨_, _, _, hrun⟩ := Tx.bind_eq_ok.mp hrun
  obtain ⟨_, _, _, hrun⟩ := Tx.bind_eq_ok.mp hrun
  obtain ⟨_, _, _, hrun⟩ := Tx.bind_eq_ok.mp hrun
  obtain ⟨-, rfl⟩ := Prod.mk.inj (Except.ok.inj (Prod.mk.inj hrun).1)
  obtain ⟨scored, rfl, rfl, hran⟩ := evalTurns_ran hturns
  refine ⟨scored, (Prod.mk.inj hgolden).1, hran, ?_, ?_⟩
  · rw [aggregateMetrics]
    split
    · simp_all
    · simp
  · intro hsome
    have hscores : scored.map ScoredTurn.score ≠ [] := by simpa using hsome
    have hhits := markOf_mean hsome fun x hx => (hran x hx).hitRate
    have hkeywords := markOf_mean hsome fun x hx => (hran x hx).keywords
    have hcites := markOf_mean hsome fun x hx => (hran x hx).citations
    simp only [aggregateMetrics, hscores, ↓reduceIte, List.map_map, List.length_map]
    exact ⟨hhits, hkeywords, hcites⟩

end

/-- One entry over the public note; the answer cites the note and one source too many. -/
def noteTurn : EvalTurn where
  entry := ⟨"fire drill", ["noon"], ["3"], []⟩
  retrieval := noteStream.retrieval
  answer := .ok ⟨some (40, 9), .ok (some "At noon [s1], not [s7].")⟩

def noteEval : EvalEnv := ⟨.ok [noteTurn], id, .ok (), .durable, .ok 4, false⟩

theorem evalRun_scores_note : ∃ agg u',
    evalRun {} (fun _ _ _ => .ok none) (.ok none) noteEval ⟨[], [], []⟩ = (.ok (4, agg), u') ∧
    ∃ scored : List ScoredTurn, noteEval.golden = .ok (scored.map ScoredTurn.turn) ∧ (∀ x ∈ scored, x.Ran {} id) ∧
      agg.nQuestions = scored.length ∧ (scored ≠ [] →
        MarkOf (∀ x ∈ scored, x.FindsExpected id) agg.hitRate ∧
        MarkOf (∀ x ∈ scored, x.HasKeywords id) agg.keywordCoverage ∧
        MarkOf (∀ x ∈ scored, x.CitesGiven) agg.citationValidity) := by
  have hrun : (evalRun {} (fun _ _ _ => .ok none) (.ok none) noteEval ⟨[], [], []⟩).1.toOption.map Prod.fst = some 4 := by
    decide +kernel
  cases hend : evalRun {} (fun _ _ _ => .ok none) (.ok none) noteEval ⟨[], [], []⟩ with
  | mk result u' =>
    rw [hend] at hrun
    cases result with
    | error e => cases hrun
    | ok r =>
      obtain ⟨runId, agg⟩ := r
      obtain rfl : runId = 4 := Option.some.inj hrun
      exact ⟨agg, u', rfl, evalRun_scores hend⟩

end ProRag
