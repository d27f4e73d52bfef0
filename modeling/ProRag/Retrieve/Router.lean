import ProRag.Llm.Pipeline

/-!
# `GET /search`
-/

namespace ProRag

open Framework

structure SearchResponse where
  plan : QueryPlan
  vector : List (List Hit)
  fts : List (List Hit)
  structured : List (List Hit)
  fused : List Hit
  reranked : List Hit
  cropped : List Hit

/-- `l[:k]`. -/
def pySliceTo {α : Type} (k : Int) (l : List α) : List α :=
  if 0 ≤ k then l.take k.toNat else l.take (l.length - k.natAbs)

variable (settings : Settings)

/-- The crop's arguments in `search`: those of `retrieve`, without `max_chunks_per_doc`. -/
def Settings.searchCropParams : CropParams where
  minDocs := settings.cropMinDocs
  maxDocs := settings.cropMaxDocs
  scoreFloor := settings.cropScoreFloor
  tokenBudget := settings.cropTokenBudget

/-- The response from a plan and the gathered hits. -/
def searchResponse (env : QueryEnv) (k : Int) (plan : QueryPlan) (gathered : Gathered) : SearchResponse :=
  let reranked := rerank settings env.rerankApi plan.queries.1 (gathered.fused.take settings.rerankTopN)
  { plan := plan
    vector := gathered.vectorLists
    fts := gathered.ftsLists
    structured := gathered.structuredLists
    fused := pySliceTo k gathered.fused
    reranked := pySliceTo k reranked
    cropped := cropContext env.normalizeTitle settings.searchCropParams reranked }

/-- `search(q, k, session, user)`; the plan and the embeddings are nobody's. -/
def search (completionCost : CompletionCost) (env : QueryEnv) (q : String) (k : Int) (user : Option User) :
    RequestTx SearchResponse :=
  planAndGather settings completionCost env q user none >>= fun g => pure (searchResponse settings env k g.1 g.2)

end ProRag
