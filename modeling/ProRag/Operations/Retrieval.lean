import ProRag.Framework.Results
import ProRag.Retrieve.Crop
import ProRag.Retrieve.Rerank

/-!
# The retrieval operation

`gather_hits` and the part of `retrieve` behind the planner and the embeddings.
-/

namespace ProRag

/-- The plan's `mode`. -/
inductive PlanMode
  | default | table
deriving DecidableEq, Repr

/-- What `plan` returns: exactly two queries. -/
structure QueryPlan where
  searchNeeded : Bool
  queries : String × String
  mode : PlanMode
deriving DecidableEq, Repr

/-- The five values of `gather_hits`. -/
structure Gathered where
  queries : List String
  vectorLists : List (List Hit)
  ftsLists : List (List Hit)
  structuredLists : List (List Hit)
  fused : List Hit

variable (settings : Settings) (scorer : Scorer) (db : Db)

/-- `gather_hits(session, plan_result, embeddings, user)`. -/
def gatherHits (plan : QueryPlan) (embeddings : List Embedding) (user : Option User) : Except PyError Gathered :=
  let queries := [plan.queries.1, plan.queries.2]
  let vectorLists := embeddings.map fun e => vectorSearch scorer db e settings.rerankTopN user
  (queries.mapM fun q => keywordSearch scorer db q settings.rerankTopN user) >>= fun ftsLists =>
    let structuredLists :=
      if plan.mode = .table then queries.map fun q => structuredSearch scorer db q settings.rerankTopN [] user else []
    let weights := List.replicate vectorLists.length 1 ++ List.replicate ftsLists.length 1 ++
      List.replicate structuredLists.length settings.structuredWeight
    rrfFuse (vectorLists ++ ftsLists ++ structuredLists) weights >>= fun fused =>
      .ok ⟨queries, vectorLists, ftsLists, structuredLists, fused⟩

/-- The crop's arguments in `retrieve`. -/
def Settings.cropParams : CropParams where
  minDocs := settings.cropMinDocs
  maxDocs := settings.cropMaxDocs
  maxChunksPerDoc := settings.cropMaxChunksPerDoc
  scoreFloor := settings.cropScoreFloor
  tokenBudget := settings.cropTokenBudget

/-- `retrieve` from the gathered hits on. -/
def rankHits (api : RerankApi) (normalizeTitle : String → String) (plan : QueryPlan) (gathered : Gathered) : List Hit :=
  let reranked := rerank settings api plan.queries.1 (gathered.fused.take settings.rerankTopN)
  cropContext normalizeTitle settings.cropParams reranked

/-- The hits of `retrieve(session, message, user)` under a plan and its embeddings. -/
def retrieveHits (api : RerankApi) (normalizeTitle : String → String) (plan : QueryPlan) (embeddings : List Embedding)
    (user : Option User) : Except PyError (List Hit) :=
  gatherHits settings scorer db plan embeddings user >>= fun gathered =>
    .ok (rankHits settings api normalizeTitle plan gathered)

/-- A source of an answer; `n` is its marker. -/
structure Source where
  n : Nat
  docId : Uuid
  page : Option Nat
  fileUrl : String
  snippet : String
  score : ℚ
  title : String
  kind : Option ChunkKind
  bbox : Option (List ℚ)
deriving DecidableEq

/-- `to_source(n, hit)`. -/
def toSource (n : Nat) (hit : Hit) : Source where
  n := n
  docId := hit.docId
  page := hit.page
  fileUrl := "/files/" ++ toString hit.docId ++ "/original" ++
    match hit.page with
    | none | some 0 => ""
    | some page => "#page=" ++ toString page
  snippet := String.ofList (hit.text.toList.take 300)
  score := hit.score
  title := hit.title
  kind := hit.kind
  bbox := hit.bbox

end ProRag
