import Mathlib.Data.List.Infix
import ProRag.Operations.Budget
import ProRag.Chat.Router

/-!
# `POST /eval/run`

The golden set, one retrieval and one answer for each entry, with its deterministic scores.
-/

namespace ProRag

open Framework

/-- A line of the golden set. -/
structure GoldenEntry where
  question : String
  expectedAnswerContains : List String
  expectedDocIds : List String
  expectedSourceTitles : List String

/-- `needle in text`. -/
def containsText (needle text : String) : Bool := decide (needle.toList <:+: text.toList)

/-- `retrieval_hit_rate(entry, hits)`; `lower` is `str.lower`. -/
def retrievalHitRate (lower : String → String) (entry : GoldenEntry) (hits : List Hit) : ℚ :=
  let titles := entry.expectedSourceTitles.map lower
  if entry.expectedDocIds = [] ∧ titles = [] then 1
  else if hits.any fun h => toString h.docId ∈ entry.expectedDocIds ∨
      (lower h.title ≠ "" ∧ titles.any fun t => containsText t (lower h.title)) then 1
  else 0

/-- `keyword_coverage(answer, expected_answer_contains)`. -/
def keywordCoverage (lower : String → String) (answer : Option String) (expected : List String) : Except PyError ℚ :=
  if expected = [] then .ok 1
  else match answer with
    | none => .error ⟨"AttributeError", "'NoneType' object has no attribute 'lower'"⟩
    | some answer =>
      .ok ((expected.filter fun kw => containsText (lower kw) (lower answer)).length / expected.length)

/-- `citation_validity(answer, num_sources)`. -/
def citationValidity (answer : Option String) (numSources : Nat) : Except PyError ℚ :=
  match answer with
  | none => .error ⟨"TypeError", "expected string or bytes-like object, got 'NoneType'"⟩
  | some answer =>
    extractCitedIndices (normalizeCitations answer.toList) >>= fun cited =>
      if cited = [] then .ok 1
      else .ok ((cited.filter fun n => 1 ≤ n ∧ n ≤ numSources).length / cited.length)

structure QuestionScore where
  question : String
  answer : Option String
  hitRate : ℚ
  keywordCoverage : ℚ
  citationValidity : ℚ

structure Aggregate where
  hitRate : ℚ
  keywordCoverage : ℚ
  citationValidity : ℚ
  nQuestions : Nat

/-- `aggregate_metrics(per_question)`. -/
def aggregateMetrics (perQuestion : List QuestionScore) : Aggregate :=
  if perQuestion = [] then ⟨0, 0, 0, 0⟩
  else
    let n := perQuestion.length
    ⟨(perQuestion.map QuestionScore.hitRate).sum / n, (perQuestion.map QuestionScore.keywordCoverage).sum / n,
      (perQuestion.map QuestionScore.citationValidity).sum / n, n⟩

/-- What one golden entry meets. -/
structure EvalTurn where
  entry : GoldenEntry
  retrieval : RetrievalEnv
  answer : LlmOutcome (Option String)

/-- What `/eval/run` meets: the golden file, its turns, the optional metrics, and how the run is stored. -/
structure EvalEnv where
  golden : Except PyError (List EvalTurn)
  lower : String → String
  ragas : Except PyError Unit
  commit : CommitOutcome PyError
  refresh : Except PyError Nat
  timedOut : Bool

section

variable (settings : Settings) (completionCost : CompletionCost)

def scoreTurn (lower : String → String) (entry : GoldenEntry) (hits : List Hit) (rawAnswer : Option String) :
    Except PyError QuestionScore :=
  keywordCoverage lower rawAnswer entry.expectedAnswerContains >>= fun coverage =>
    citationValidity rawAnswer hits.length >>= fun validity =>
      .ok ⟨entry.question, rawAnswer, retrievalHitRate lower entry hits, coverage, validity⟩

/-- The loop of `run_eval`. -/
def evalTurns (lower : String → String) : List EvalTurn → RequestTx (List QuestionScore)
  | [] => pure []
  | turn :: turns =>
    retrieve settings completionCost turn.retrieval turn.entry.question none >>= fun r =>
      answer settings completionCost none turn.answer >>= fun rawAnswer =>
        Tx.await (scoreTurn lower turn.entry r.1 rawAnswer) >>= fun score =>
          evalTurns lower turns >>= fun scores => pure (score :: scores)

/-- `run_eval(session)`. -/
def runEval (env : EvalEnv) : RequestTx (Nat × Aggregate) :=
  Tx.await env.golden >>= fun turns =>
    evalTurns settings completionCost env.lower turns >>= fun perQuestion =>
      Tx.await env.ragas >>= fun _ =>
        Tx.commit env.commit >>= fun _ =>
          Tx.await env.refresh >>= fun runId => pure (runId, aggregateMetrics perQuestion)

/-- `eval_run(session)`; the timeout cancels what it waits for. -/
def evalRun (budget : Except PyError (Option String)) (env : EvalEnv) : RequestTx (Nat × Aggregate) :=
  Tx.await budget >>= fun _ =>
    Tx.tryCatch (fun exc => exc.name = "TimeoutError" || (env.timedOut && !exc.isException))
      (runEval settings completionCost env) fun _ =>
        Tx.await (.error (httpException 504 "eval run timed out — shrink golden.jsonl or raise eval_timeout_seconds"))

end

end ProRag
