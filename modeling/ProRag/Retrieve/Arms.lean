import Mathlib.Algebra.Order.Ring.Rat
import ProRag.Http
import ProRag.Retrieve.Visibility
import ProRag.Settings

/-!
# Retrieval arms

The vector, keyword and structured searches, each a selection over ready documents with the
visibility predicate inside.
-/

namespace ProRag

open Framework

/-- A hit of an arm.  The structured arm gives no `bbox` and no `kind`, and no arm gives the last three. -/
structure Hit where
  chunkId : Nat
  docId : Uuid
  text : String
  page : Option Nat
  bbox : Option (List ℚ)
  kind : Option ChunkKind
  title : String
  score : ℚ
  titleNorm : Option String := none
  docDate : Option Timestamp := none
  tokenCount : Option Nat := none
deriving DecidableEq

/-- How a BM25 query fails: in the server, which aborts the transaction, or before it gets there. -/
inductive Bm25Failure
  | server | client

/-- What the database computes from a query and one row: the cosine distance, the BM25 score and the
`ts_rank_cd` of the chunks that match, and the `ILIKE` on the text of a table row. -/
structure Scorer where
  distance : Embedding → Chunk → ℚ
  bm25Available : Bool
  bm25 : String → Chunk → Option ℚ
  bm25Fails : String → Option Bm25Failure
  tsRank : String → Chunk → Option ℚ
  ilike : String → TableRow → Bool

/-- `title or filename`. -/
def Document.titleOrFilename (d : Document) : String :=
  match d.title with
  | none => d.filename
  | some t => if t = "" then d.filename else t

/-- `chunks JOIN documents ON doc_id = documents.id WHERE status = 'ready'`. -/
def joinReady (db : Db) : List (Chunk × Document) :=
  db.chunks.flatMap fun c => (db.documents.filter fun d => d.id = c.docId ∧ d.status = .ready).map fun d => (c, d)

def hitOf (p : Chunk × Document) (score : ℚ) : Hit where
  chunkId := p.1.id
  docId := p.1.docId
  text := p.1.text
  page := p.1.pageStart
  bbox := p.1.bbox
  kind := some p.1.kind
  title := p.2.titleOrFilename
  score := score

variable (scorer : Scorer) (db : Db)

/-- `vector_search(session, query_embedding, k, user)`. -/
def vectorSearch (queryEmbedding : Embedding) (k : Nat) (user : Option User) : List Hit :=
  let rows := (joinReady db).filter fun p => passes (visibilityClause db user) p.2.id
  ((orderByDesc (fun p : Chunk × Document => -scorer.distance queryEmbedding p.1) (fun p => p.1.id) rows).take k).map fun p =>
    hitOf p (1 - scorer.distance queryEmbedding p.1)

/-- `bm25_search(session, query, k, user)`, where it does not fail. -/
def bm25Search (query : String) (k : Nat) (user : Option User) : List Hit :=
  let rows := (joinReady db).filter fun p =>
    (scorer.bm25 query p.1).isSome ∧ passes (visibilitySql db user) p.1.docId
  ((orderByDesc (fun p : Chunk × Document => (scorer.bm25 query p.1).getD 0) (fun p => p.1.id) rows).take k).map fun p =>
    hitOf p ((scorer.bm25 query p.1).getD 0)

/-- `fts_search(session, query, k, user)`. -/
def ftsSearch (query : String) (k : Nat) (user : Option User) : List Hit :=
  let rows := (joinReady db).filter fun p =>
    (scorer.tsRank query p.1).isSome ∧ passes (visibilityClause db user) p.2.id
  ((orderByDesc (fun p : Chunk × Document => (scorer.tsRank query p.1).getD 0) (fun p => p.1.id) rows).take k).map fun p =>
    hitOf p ((scorer.tsRank query p.1).getD 0)

/-- `keyword_search(session, query, k, user)`: a failure in the server leaves an aborted transaction
to the fallback. -/
def keywordSearch (query : String) (k : Nat) (user : Option User) : Except PyError (List Hit) :=
  if scorer.bm25Available then
    match scorer.bm25Fails query with
    | none => .ok (bm25Search scorer db query k user)
    | some .client => .ok (ftsSearch scorer db query k user)
    | some .server => .error ⟨"InFailedSQLTransactionError", "current transaction is aborted"⟩
  else .ok (ftsSearch scorer db query k user)

/-- The rows of `build_structured_query`: a chunk of a table once for every matching row of it. -/
def structuredRows (query : String) (fieldFilters : List (String × String)) (user : Option User) :
    List (Chunk × Document) :=
  ((joinReady db).filter fun p => p.1.kind ≠ .prose ∧ passes (visibilityClause db user) p.2.id).flatMap fun p =>
    (db.tableRows.filter fun r => some r.tableId = p.1.tableId ∧ scorer.ilike query r ∧
      fieldFilters.all fun f => r.data.lookup f.1 = some f.2).map fun _ => p

/-- `structured_search(session, query, k, field_filters, user)`: `DISTINCT`, without an `ORDER BY`. -/
def structuredSearch (query : String) (k : Nat) (fieldFilters : List (String × String)) (user : Option User) : List Hit :=
  let rows := (structuredRows scorer db query fieldFilters user).dedup
  ((orderByDesc (fun _ : Chunk × Document => (0 : ℚ)) (fun p => p.1.id) rows).take k).map fun p =>
    { hitOf p 1 with bbox := none, kind := none }

end ProRag
