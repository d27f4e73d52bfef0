import ProRag.Llm.Calls

/-!
# `POST /admin/rules/{rule_id}/preview`
-/

namespace ProRag

open Framework

/-- A row of `_rule_candidates`. -/
structure RuleCandidate where
  docId : Uuid
  filename : String
  title : Option String
  bestSimilarity : ℚ
deriving DecidableEq

/-- What a preview meets: the rule, its embedding, and the candidates of an embedding. -/
structure PreviewEnv where
  rule : Except PyError (Option AccessRule)
  embed : LlmOutcome (List Embedding)
  candidates : Embedding → Except PyError (List RuleCandidate)

structure RulePreview where
  count : Nat
  sample : List RuleCandidate
  similarityFloor : ℚ
deriving DecidableEq

/-- `_get_rule_or_404`. -/
def PreviewEnv.found (env : PreviewEnv) : Except PyError AccessRule :=
  env.rule >>= fun rule => match rule with
    | none => .error (httpException 404 "rule not found")
    | some rule => .ok rule

/-- `[embedding] = …`. -/
def single (embeddings : List Embedding) : Except PyError Embedding :=
  match embeddings with
  | [embedding] => .ok embedding
  | [] => .error ⟨"ValueError", "not enough values to unpack (expected 1, got 0)"⟩
  | _ => .error ⟨"ValueError", "too many values to unpack (expected 1)"⟩

/-- `preview_rule(rule_id, session)`. -/
def previewRule (settings : Settings) (completionCost : CompletionCost) (env : PreviewEnv) : RequestTx RulePreview :=
  Tx.await env.found >>= fun _ =>
    embedTexts settings completionCost none env.embed >>= fun embeddings =>
      Tx.await (single embeddings >>= env.candidates) >>= fun rows =>
        pure ⟨rows.length, rows.take 10, settings.ruleSimilarityFloor⟩

def PreviewEnv.events (settings : Settings) (env : PreviewEnv) : List RequestEvent :=
  logAfter env.found fun _ => [embedCall settings none env.embed]

theorem previewRule_stages {settings : Settings} {completionCost : CompletionCost} (env : PreviewEnv) :
    ∃ r, Stages (usageRows settings completionCost) (previewRule settings completionCost env) r (env.events settings) := by
  have hsearch : ∀ _ : AccessRule, Stages (usageRows settings completionCost)
      (embedTexts settings completionCost none env.embed >>= fun embeddings =>
        Tx.await (single embeddings >>= env.candidates) >>= fun rows =>
          (pure ⟨rows.length, rows.take 10, settings.ruleSimilarityFloor⟩ : RequestTx RulePreview))
      (env.embed >>= LlmResponse.content >>= fun embeddings => (single embeddings >>= env.candidates) >>= fun rows =>
        .ok ⟨rows.length, rows.take 10, settings.ruleSimilarityFloor⟩)
      [embedCall settings none env.embed] := by
    intro _
    refine (embedTexts_stages none env.embed).bind_quiet fun embeddings => ?_
    exact (Stages.await _).bind_quiet fun rows => Stages.pure _
  exact ⟨_, Stages.await_bind hsearch⟩

end ProRag
