import ProRag.Framework.Cosine
import ProRag.Http
import ProRag.Ingest.Store

/-!
# The ingest core

`ingest_bytes` run alone: deduplication by content hash, the storage of what parsing and
embedding produced, and the auto-admission of the new document into the confirmed rules.
Parsing and embedding are outside; their outcome is an input.
-/

namespace ProRag

open Framework

structure IngestResponse where
  docId : Uuid
  status : DocStatus
  duplicateOf : Option Uuid
deriving DecidableEq, Repr

/-- The rows an ingest is about to store: a fresh `uuid4`, the MIME type of the file, and the
chunks and tables with their embeddings.  Their `doc_id` is set when they are stored. -/
structure IngestRows where
  id : Uuid
  mime : String
  chunks : List Chunk
  tables : List Table
  tableRows : List TableRow

/-- The outcome of the MIME check, the parse and the embedding of one upload. -/
abbrev IngestWork := Except PyError IngestRows

/-- What the handler of a failed ingest writes to `documents.error`. -/
def failureText (exc : PyError) : String :=
  if exc.isTimeout then "embedding timed out" else safeError exc

/-- `_cosine_similarity(a, b) >= floor`, with cosine `0` for a zero vector;
`none` is the `ValueError` of `zip(a, b, strict=True)`. -/
def cosineSimilarityGe (floor : ℚ) (a b : Embedding) : Option Bool :=
  if a.length ≠ b.length then none
  else if dot a a = 0 ∨ dot b b = 0 then some (decide (floor ≤ 0))
  else some (leDivSqrt floor (dot a b) (dot a a * dot b b))

/-- `any(_cosine_similarity(c.embedding, query_embedding) >= floor for c in chunks)`. -/
def anyChunkClears (floor : ℚ) (query : Embedding) : List Chunk → Option Bool
  | [] => some false
  | c :: cs =>
    match cosineSimilarityGe floor c.embedding query with
    | none => none
    | some true => some true
    | some false => anyChunkClears floor query cs

/-- `SELECT … FROM access_rules WHERE state = 'confirmed' AND query_embedding IS NOT NULL`. -/
def Db.confirmedRules (db : Db) : List AccessRule :=
  db.accessRules.filter fun r => r.state = .confirmed ∧ r.queryEmbedding.isSome

/-- The rules whose grant the loop of `_apply_confirmed_rules` inserts: those that match, up to the
first comparison that raises. -/
def matchedRules (floor : ℚ) (chunks : List Chunk) : List AccessRule → List AccessRule
  | [] => []
  | r :: rs =>
    match r.queryEmbedding.map fun q => anyChunkClears floor q chunks with
    | some none => []
    | some (some true) => r :: matchedRules floor chunks rs
    | _ => matchedRules floor chunks rs

/-- The `EXISTS` subquery of both grant statements. -/
def Db.hasRuleGrant (docId groupId ruleId : Uuid) (db : Db) : Bool :=
  db.documentAcl.any fun a =>
    a.docId = docId ∧ a.principalType = .group ∧ a.principalId = some groupId ∧ a.source = .rule ruleId

/-- `INSERT INTO document_acl … WHERE NOT EXISTS …` for one document and one rule. -/
def Db.grantRule (docId : Uuid) (r : AccessRule) (db : Db) : Db :=
  if db.hasRuleGrant docId r.groupId r.id then db
  else db.insertAcl docId .group (some r.groupId) (.rule r.id)

/-- `_apply_confirmed_rules(session, doc, chunks)`. -/
def applyConfirmedRules (floor : ℚ) (docId : Uuid) (chunks : List Chunk) (db : Db) : Db :=
  (matchedRules floor chunks db.confirmedRules).foldl (fun db r => db.grantRule docId r) db

def Db.storeDocument (doc : Document) (rows : IngestRows) (db : Db) : Db :=
  { db with
    documents := db.documents ++ [doc]
    chunks := db.chunks ++ rows.chunks.map fun c => { c with docId := doc.id }
    tables := db.tables ++ rows.tables.map fun t => { t with docId := doc.id }
    tableRows := db.tableRows ++ rows.tableRows }

/-- The `documents` row of a finished ingest. -/
def newDocument (digest filename collection : String) (rows : IngestRows) : Document where
  id := rows.id
  sha256 := digest
  filename := filename
  mime := rows.mime
  blobPath := blobPathFor digest filename
  title := some filename
  collection := collection
  status := .ready
  error := none

/-- `ingest_bytes(session, data, filename, collection)`: the answer and the committed database.
A failing ingest is rolled back before it raises, so it leaves the database as it was. -/
def ingestBytes (sha256Hex : Bytes → String) (floor : ℚ) (work : IngestWork) (data : Bytes)
    (filename collection : String) (db : Db) : Except PyError IngestResponse × Db :=
  match db.documentBySha? (sha256Hex data) with
  | some existing => (.ok ⟨existing.id, existing.status, some existing.id⟩, db)
  | none =>
    match work with
    | .error exc => (.error exc, db)
    | .ok rows =>
      match db.document? rows.id with
      | some _ => (.error ⟨"IntegrityError", "documents_pkey"⟩, db)
      | none =>
        (.ok ⟨rows.id, .ready, none⟩,
          applyConfirmedRules floor rows.id rows.chunks
            (db.storeDocument (newDocument (sha256Hex data) filename collection rows) rows))

theorem cosineSimilarityGe_iff (floor : ℚ) {a b : Embedding} (hlen : a.length = b.length) :
    cosineSimilarityGe floor a b = some true ↔ (floor : ℝ) ≤ cosine a b := by
  by_cases hzero : dot a a = 0 ∨ dot b b = 0
  · rw [cosine_of_zero hzero]
    simp [cosineSimilarityGe, hlen, hzero]
  · obtain ⟨ha, hb⟩ := not_or.mp hzero
    rw [← leDivSqrt_cosine floor ha hb]
    simp [cosineSimilarityGe, hlen, ha, hb]

theorem anyChunkClears_eq {floor : ℚ} {query : Embedding} {chunks : List Chunk}
    (hdim : ∀ c ∈ chunks, c.embedding.length = query.length) :
    anyChunkClears floor query chunks =
      some (chunks.any fun c => cosineSimilarityGe floor c.embedding query = some true) := by
  induction chunks with
  | nil => rfl
  | cons c cs ih =>
    have hrest := ih fun c' hc' => hdim c' (List.mem_cons_of_mem _ hc')
    have hlen : c.embedding.length = query.length := hdim c List.mem_cons_self
    unfold anyChunkClears
    cases hc : cosineSimilarityGe floor c.embedding query with
    | none =>
      unfold cosineSimilarityGe at hc
      simp only [hlen, ne_eq, not_true_eq_false, ↓reduceIte] at hc
      split at hc <;> cases hc
    | some b =>
      cases b with
      | true => simp [hc]
      | false => simp [hc, hrest]

theorem anyChunkClears_iff {floor : ℚ} {query : Embedding} {chunks : List Chunk}
    (hdim : ∀ c ∈ chunks, c.embedding.length = query.length) :
    anyChunkClears floor query chunks = some true ↔ ∃ c ∈ chunks, (floor : ℝ) ≤ cosine c.embedding query := by
  rw [anyChunkClears_eq hdim]
  simp only [Option.some.injEq, List.any_eq_true, decide_eq_true_eq]
  constructor
  · rintro ⟨c, hc, hclear⟩
    exact ⟨c, hc, (cosineSimilarityGe_iff floor (hdim c hc)).mp hclear⟩
  · rintro ⟨c, hc, hclear⟩
    exact ⟨c, hc, (cosineSimilarityGe_iff floor (hdim c hc)).mpr hclear⟩

theorem matchedRules_sublist (floor : ℚ) (chunks : List Chunk) (rules : List AccessRule) :
    (matchedRules floor chunks rules).Sublist rules := by
  induction rules with
  | nil => exact List.Sublist.slnil
  | cons r rs ih =>
    unfold matchedRules
    split
    · exact List.nil_sublist _
    · exact ih.cons_cons r
    · exact ih.cons r

theorem of_mem_matchedRules {floor : ℚ} {chunks : List Chunk} {rules : List AccessRule} {r : AccessRule}
    (h : r ∈ matchedRules floor chunks rules) :
    r ∈ rules ∧ ∃ q, r.queryEmbedding = some q ∧ anyChunkClears floor q chunks = some true := by
  induction rules with
  | nil => cases h
  | cons r' rs ih =>
    have hrest : r ∈ matchedRules floor chunks rs →
        r ∈ r' :: rs ∧ ∃ q, r.queryEmbedding = some q ∧ anyChunkClears floor q chunks = some true :=
      fun hr => ⟨List.mem_cons_of_mem _ (ih hr).1, (ih hr).2⟩
    unfold matchedRules at h
    split at h
    · cases h
    · rename_i hmatch
      rcases List.mem_cons.mp h with rfl | h
      · exact ⟨List.mem_cons_self, Option.map_eq_some_iff.mp hmatch⟩
      · exact hrest h
    · exact hrest h

theorem mem_matchedRules {floor : ℚ} {chunks : List Chunk} {rules : List AccessRule} {r : AccessRule} {q : Embedding}
    (hdim : ∀ r' ∈ rules, ∀ q', r'.queryEmbedding = some q' → ∀ c ∈ chunks, c.embedding.length = q'.length)
    (hr : r ∈ rules) (hq : r.queryEmbedding = some q) (hclear : anyChunkClears floor q chunks = some true) :
    r ∈ matchedRules floor chunks rules := by
  induction rules with
  | nil => cases hr
  | cons r' rs ih =>
    have hrest : r ∈ rs → r ∈ matchedRules floor chunks rs :=
      ih fun r'' hr'' => hdim r'' (List.mem_cons_of_mem _ hr'')
    unfold matchedRules
    split
    · rename_i hraise
      obtain ⟨q', hq', hnone⟩ := Option.map_eq_some_iff.mp hraise
      rw [anyChunkClears_eq (hdim r' List.mem_cons_self q' hq')] at hnone
      cases hnone
    · rcases List.mem_cons.mp hr with rfl | hr
      · exact List.mem_cons_self
      · exact List.mem_cons_of_mem _ (hrest hr)
    · rename_i hother
      rcases List.mem_cons.mp hr with rfl | hr
      · rw [hq] at hother
        exact absurd (by rw [Option.map_some, hclear]) hother
      · exact hrest hr

theorem grantRule_frame (docId : Uuid) (r : AccessRule) (db : Db) :
    db.grantRule docId r = { db with
      documentAcl := (db.grantRule docId r).documentAcl, aclSeq := (db.grantRule docId r).aclSeq } := by
  unfold Db.grantRule
  split <;> rfl

theorem grantRules_frame (docId : Uuid) (rules : List AccessRule) (db : Db) :
    rules.foldl (fun db r => db.grantRule docId r) db = { db with
      documentAcl := (rules.foldl (fun db r => db.grantRule docId r) db).documentAcl
      aclSeq := (rules.foldl (fun db r => db.grantRule docId r) db).aclSeq } := by
  induction rules generalizing db with
  | nil => rfl
  | cons r rs ih =>
    simp only [List.foldl_cons]
    rw [ih (db.grantRule docId r)]
    rw [grantRule_frame docId r db]

theorem applyConfirmedRules_frame (floor : ℚ) (docId : Uuid) (chunks : List Chunk) (db : Db) :
    applyConfirmedRules floor docId chunks db = { db with
      documentAcl := (applyConfirmedRules floor docId chunks db).documentAcl
      aclSeq := (applyConfirmedRules floor docId chunks db).aclSeq } :=
  grantRules_frame docId _ db

/-- The three ways `ingest_bytes` ends. -/
theorem ingestBytes_cases (sha256Hex : Bytes → String) (floor : ℚ) (work : IngestWork) (data : Bytes)
    (filename collection : String) (db : Db) :
    (∃ existing, db.documentBySha? (sha256Hex data) = some existing ∧
      ingestBytes sha256Hex floor work data filename collection db =
        (.ok ⟨existing.id, existing.status, some existing.id⟩, db)) ∨
    (db.documentBySha? (sha256Hex data) = none ∧
      ∃ exc, ingestBytes sha256Hex floor work data filename collection db = (.error exc, db)) ∨
    (db.documentBySha? (sha256Hex data) = none ∧ ∃ rows, work = .ok rows ∧ db.document? rows.id = none ∧
      ∃ db', ingestBytes sha256Hex floor work data filename collection db =
          (.ok ⟨rows.id, .ready, none⟩, db') ∧
        db'.documents = db.documents ++ [newDocument (sha256Hex data) filename collection rows] ∧
        db'.connectorItems = db.connectorItems ∧ db'.connectors = db.connectors) := by
  unfold ingestBytes
  cases hsha : db.documentBySha? (sha256Hex data) with
  | some existing => exact Or.inl ⟨existing, rfl, rfl⟩
  | none =>
    cases work with
    | error exc => exact Or.inr (Or.inl ⟨rfl, exc, rfl⟩)
    | ok rows =>
      cases hid : db.document? rows.id with
      | some doc => exact Or.inr (Or.inl ⟨rfl, ⟨"IntegrityError", "documents_pkey"⟩, by simp only [hid]⟩)
      | none =>
        refine Or.inr (Or.inr ⟨rfl, rows, rfl, hid, _, by simp only [hid]; rfl, ?_, ?_, ?_⟩) <;>
          rw [applyConfirmedRules_frame] <;> rfl

end ProRag
