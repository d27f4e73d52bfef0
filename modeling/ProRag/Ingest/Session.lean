import ProRag.Framework.Transaction
import ProRag.Ingest.Concurrent

/-!
# `ingest_bytes` and its session

`ingest_bytes` statement by statement, with every point at which it may fail.  Where nothing fails it is
`ingestBytes`.
-/

namespace ProRag

open Framework

/-- What parsing makes of one table: its row, its data rows, and its artifacts as chunks. -/
structure ParsedTable where
  table : Table
  rows : List TableRow
  chunks : List Chunk

/-- What the MIME check and the parsing block come to. -/
inductive Parsed
  | refused (detail : String)
  | raised (exc : PyError)
  | imageUnreadable
  | reraised (exc : PyError)
  | contents (id : Uuid) (mime : String) (prose : List Chunk) (tables : List ParsedTable)

/-- How each step ends; `others` is what other requests commit before a failed ingest rolls back. -/
structure IngestFaults where
  lookup : Option PyError
  flush : Option PyError
  lookupAgain : Option PyError
  table : Nat → Option PyError
  embedded : Except PyError (List Embedding)
  rows : Option PyError
  rules : Option PyError
  grant : Nat → Option PyError
  commit : CommitOutcome PyError
  others : Db → Db
  recheck : Option PyError
  failureCommit : CommitOutcome PyError

/-- A document whose row is flushed, and what is still to store. -/
structure FlushedIngest where
  doc : Document
  prose : List Chunk
  tables : List ParsedTable

abbrev IngestTx := Sql Db Blobs PyError

def sessionRefusal : TxState → PyError
  | .aborted => ⟨"DBAPIError", "InFailedSQLTransactionError"⟩
  | _ => ⟨"PendingRollbackError", "This Session's transaction has been rolled back"⟩

def execute {α : Type} (fails : Option PyError) (f : Db → Except PyError (α × Db)) : IngestTx α :=
  Sql.statement sessionRefusal .aborted fails f

def flush {α : Type} (fails : Option PyError) (f : Db → Except PyError (α × Db)) : IngestTx α :=
  Sql.statement sessionRefusal .unusable fails f

/-- `SELECT … FROM documents WHERE sha256 = digest`. -/
def lookupDigest (fails : Option PyError) (digest : String) : IngestTx (Option Document) :=
  execute fails fun db => .ok (db.documentBySha? digest, db)

/-- The INSERT of a document, under its constraints. -/
def insertDocument (doc : Document) (db : Db) : Except PyError (Unit × Db) :=
  if (db.document? doc.id).isSome then .error ⟨"IntegrityError", "documents_pkey"⟩
  else if (db.documentBySha? doc.sha256).isSome then .error ⟨"IntegrityError", "documents_sha256_key"⟩
  else .ok ((), { db with documents := db.documents ++ [doc] })

/-- The INSERTs of a table and its rows.  The rows are flushed with what comes next. -/
def insertTable (docId : Uuid) (t : ParsedTable) (db : Db) : Except PyError (Unit × Db) :=
  .ok ((), { db with
    tables := db.tables ++ [{ t.table with docId := docId }]
    tableRows := db.tableRows ++ t.rows })

/-- The INSERTs of the chunks, and the status of their document. -/
def insertChunks (docId : Uuid) (chunks : List Chunk) (db : Db) : Except PyError (Unit × Db) :=
  .ok ((), { db with
    chunks := db.chunks ++ chunks
    documents := updateWhere (fun d => d.id = docId) (fun d => { d with status := .ready }) db.documents })

/-- `zip(chunks, embeddings, strict=True)`. -/
def zipStrict (chunks : List Chunk) (embeddings : List Embedding) : Except PyError (List (Chunk × Embedding)) :=
  if embeddings.length < chunks.length then .error ⟨"ValueError", "zip() argument 2 is shorter than argument 1"⟩
  else if chunks.length < embeddings.length then .error ⟨"ValueError", "zip() argument 2 is longer than argument 1"⟩
  else .ok (chunks.zip embeddings)

/-- The chunks in order, from `ord` on. -/
def embedChunks (docId : Uuid) (ord : Nat) (pairs : List (Chunk × Embedding)) : List Chunk :=
  pairs.zipIdx.map fun p => { p.1.1 with docId := docId, ord := ord + p.2, embedding := p.1.2 }

/-- `new_chunks`: the prose and then the tables, each with its part of the embeddings. -/
def newChunks (docId : Uuid) (prose tables : List Chunk) (embeddings : List Embedding) : Except PyError (List Chunk) :=
  zipStrict prose (embeddings.take prose.length) >>= fun proseChunks =>
    zipStrict tables (embeddings.drop prose.length) >>= fun tableChunks =>
      .ok (embedChunks docId 0 proseChunks ++ embedChunks docId prose.length tableChunks)

section

variable (sha256Hex : Bytes → String) (settings : Settings) (faults : IngestFaults)

/-- `delete_blob(path)` and the exception. -/
def discard {α : Type} (path : BlobPath) (exc : PyError) : IngestTx α :=
  Sql.effect (deleteBlob path) >>= fun _ => Sql.await (.error exc)

/-- `session.add(doc)` and its flush; a lost race resolves to the winner. -/
def flushDocument (work : FlushedIngest) : IngestTx (IngestResponse ⊕ FlushedIngest) :=
  Sql.tryCatch (fun exc => exc.name = "IntegrityError")
    (flush faults.flush (insertDocument work.doc) >>= fun _ => pure (.inr work))
    fun exc => Sql.rollback >>= fun _ =>
      lookupDigest faults.lookupAgain work.doc.sha256 >>= fun existing => match existing with
        | some e => Sql.await (duplicateOf e) >>= fun resp => pure (.inl resp)
        | none => Sql.await (.error exc)

/-- `ingest_bytes` up to the flush of its row. -/
def openIngest (u : Upload) (parsed : Parsed) : IngestTx (IngestResponse ⊕ FlushedIngest) :=
  lookupDigest faults.lookup (sha256Hex u.data) >>= fun existing => match existing with
    | some e => Sql.await (duplicateOf e) >>= fun resp => pure (.inl resp)
    | none => match parsed with
      | .refused detail => Sql.await (.error (httpException 400 detail))
      | .raised exc => Sql.effect (writeBlob u.data (u.path sha256Hex)) >>= fun _ =>
        discard (u.path sha256Hex) (httpException 422 ("could not parse this file (" ++ safeError exc ++ ")"))
      | .imageUnreadable => Sql.effect (writeBlob u.data (u.path sha256Hex)) >>= fun _ =>
        discard (u.path sha256Hex) (httpException 422 "could not extract text from this image (OCR unavailable?)")
      | .reraised exc => Sql.effect (writeBlob u.data (u.path sha256Hex)) >>= fun _ => Sql.await (.error exc)
      | .contents id mime prose tables => Sql.effect (writeBlob u.data (u.path sha256Hex)) >>= fun _ =>
        if prose.isEmpty && tables.isEmpty then
          discard (u.path sha256Hex) (httpException 422 "no extractable text found (scanned image PDF or empty file?)")
        else if settings.maxChunksPerDocument < prose.length then
          discard (u.path sha256Hex)
            (httpException 413 ("document produced more than " ++ toString settings.maxChunksPerDocument ++ " chunks"))
        else flushDocument faults ⟨u.document sha256Hex id mime, prose, tables⟩

/-- `_store_table` for each parsed table. -/
def storeTables (docId : Uuid) : Nat → List ParsedTable → IngestTx Unit
  | _, [] => pure ()
  | i, t :: ts => flush (faults.table i) (insertTable docId t) >>= fun _ => storeTables docId (i + 1) ts

/-- The loop over the confirmed rules, from the `i`-th on. -/
def grantRules (docId : Uuid) (chunks : List Chunk) : Nat → List AccessRule → IngestTx Unit
  | _, [] => pure ()
  | i, r :: rs =>
    match r.queryEmbedding.map fun q => anyChunkClears settings.ruleSimilarityFloor q chunks with
    | some none => Sql.await (.error ⟨"ValueError", "zip() argument 2 is not as long as argument 1"⟩)
    | some (some true) => execute (faults.grant i) (fun db => .ok ((), db.grantRule docId r)) >>= fun _ =>
      grantRules docId chunks (i + 1) rs
    | _ => grantRules docId chunks (i + 1) rs

/-- `_apply_confirmed_rules(session, doc, chunks)`.  Its SELECT flushes the chunks and the status. -/
def applyRules (docId : Uuid) (chunks : List Chunk) : IngestTx Unit :=
  Sql.tryCatch PyError.isException
    (flush faults.rows (insertChunks docId chunks) >>= fun _ =>
      execute faults.rules (fun db => .ok (db.confirmedRules, db)) >>= fun rules =>
        grantRules settings faults docId chunks 0 rules)
    fun _ => pure ()

/-- What the `try` stores before it commits. -/
def storeContents (work : FlushedIngest) : IngestTx Unit :=
  storeTables faults work.doc.id 0 work.tables >>= fun _ =>
    Sql.await faults.embedded >>= fun embeddings =>
      Sql.await (newChunks work.doc.id work.prose (work.tables.flatMap ParsedTable.chunks) embeddings) >>= fun chunks =>
        applyRules settings faults work.doc.id chunks

/-- The `try` behind the flush of the row. -/
def ingestTry (work : FlushedIngest) : IngestTx IngestResponse :=
  storeContents settings faults work >>= fun _ =>
    Sql.commit sessionRefusal faults.commit >>= fun _ => pure ⟨work.doc.id, .ready, none⟩

/-- The handler of the `try`. -/
def ingestExcept (u : Upload) (exc : PyError) : IngestTx IngestResponse :=
  Sql.elsewhere faults.others >>= fun _ =>
    Sql.rollback >>= fun _ =>
      lookupDigest faults.recheck (sha256Hex u.data) >>= fun row => match row with
        | none => discard (u.path sha256Hex) (httpException 500 "ingestion failed")
        | some e =>
          execute none (fun db => .ok ((), { db with
            documents := updateWhere (fun d => d.id = e.id)
              (fun d => { d with status := .failed, error := some (failureText exc) }) db.documents })) >>= fun _ =>
            Sql.commit sessionRefusal faults.failureCommit >>= fun _ => pure ⟨e.id, .failed, none⟩

/-- `ingest_bytes(session, data, filename, collection)`. -/
def ingestSession (u : Upload) (parsed : Parsed) : IngestTx IngestResponse :=
  openIngest sha256Hex settings faults u parsed >>= fun opened => match opened with
    | .inl resp => pure resp
    | .inr work => Sql.tryCatch PyError.isException (ingestTry settings faults work) (ingestExcept sha256Hex faults u)

end

/-- Nothing fails and nobody else is about. -/
structure Faultless (faults : IngestFaults) : Prop where
  lookup : faults.lookup = none
  flush : faults.flush = none
  lookupAgain : faults.lookupAgain = none
  table : ∀ i, faults.table i = none
  rows : faults.rows = none
  rules : faults.rules = none
  grant : ∀ i, faults.grant i = none
  commit : faults.commit = .durable

/-- The positions of the rules whose INSERT the loop comes to. -/
def insertsOf (floor : ℚ) (chunks : List Chunk) : Nat → List AccessRule → List Nat
  | _, [] => []
  | i, r :: rs =>
    match r.queryEmbedding.map fun q => anyChunkClears floor q chunks with
    | some none => []
    | some (some true) => i :: insertsOf floor chunks (i + 1) rs
    | _ => insertsOf floor chunks (i + 1) rs

/-- No statement of the rule check fails: the flush of the chunks, the SELECT and each INSERT. -/
structure RuleCheckRuns (settings : Settings) (faults : IngestFaults) (chunks : List Chunk) (rules : List AccessRule) :
    Prop where
  flushed : faults.rows = none
  selected : faults.rules = none
  inserted : ∀ i ∈ insertsOf settings.ruleSimilarityFloor chunks 0 rules, faults.grant i = none

/-- The statements outside of the rule check go through. -/
structure OnlyRuleFaults (faults : IngestFaults) : Prop where
  lookup : faults.lookup = none
  flush : faults.flush = none
  table : ∀ i, faults.table i = none
  commit : faults.commit = .durable

variable {sha256Hex : Bytes → String} {settings : Settings} {faults : IngestFaults} {c c' : Conn Db Blobs}

theorem Faultless.ruleCheck (h : Faultless faults) (settings : Settings) (chunks : List Chunk) (rules : List AccessRule) :
    RuleCheckRuns settings faults chunks rules :=
  ⟨h.rows, h.rules, fun i _ => h.grant i⟩

theorem Faultless.only (h : Faultless faults) : OnlyRuleFaults faults := ⟨h.lookup, h.flush, h.table, h.commit⟩

theorem lookupDigest_eq_ok {fails : Option PyError} {digest : String} {row : Option Document} :
    lookupDigest fails digest c = (.ok row, c') ↔
      c.state = .live ∧ fails = none ∧ row = c.view.documentBySha? digest ∧ c' = c := by
  unfold lookupDigest execute
  rw [Sql.statement_eq_ok]
  constructor
  · intro h
    obtain ⟨hlive, hfails, view, hview, hc⟩ := h
    obtain ⟨hrow, rfl⟩ := Prod.mk.inj (Except.ok.inj hview)
    exact ⟨hlive, hfails, hrow.symm, hc⟩
  · intro h
    obtain ⟨hlive, hfails, hrow, hc⟩ := h
    exact ⟨hlive, hfails, c.view, by rw [hrow], hc⟩

/-- The tables of a document and their rows, flushed. -/
def Db.storeParsed (docId : Uuid) (ts : List ParsedTable) (db : Db) : Db :=
  { db with
    tables := db.tables ++ ts.map fun t : ParsedTable => { t.table with docId := docId }
    tableRows := db.tableRows ++ ts.flatMap ParsedTable.rows }

/-- The chunks and the status of a document, flushed. -/
def Db.storeChunks (docId : Uuid) (chunks : List Chunk) (db : Db) : Db :=
  { db with
    chunks := db.chunks ++ chunks
    documents := updateWhere (fun d => d.id = docId) (fun d => { d with status := .ready }) db.documents }

theorem storeTables_eq (htable : ∀ i, faults.table i = none) (hlive : c.state = .live) (docId : Uuid) (i : Nat)
    (ts : List ParsedTable) :
    storeTables faults docId i ts c = (.ok (), { c with view := c.view.storeParsed docId ts }) := by
  induction ts generalizing i c with
  | nil => simp [storeTables, Db.storeParsed, pure]
  | cons t ts ih =>
    have hstep : (flush (faults.table i) (insertTable docId t) : IngestTx Unit) c =
        (.ok (), { c with view := c.view.storeParsed docId [t] }) := by
      rw [htable i]
      apply Sql.statement_of_ok hlive
      simp [insertTable, Db.storeParsed]
    unfold storeTables
    rw [Sql.bind_of_ok hstep]
    refine (ih ?_ (i + 1)).trans ?_
    · exact hlive
    · simp [Db.storeParsed]

theorem grantRules_eq (settings : Settings) (hlive : c.state = .live) (docId : Uuid) (chunks : List Chunk) (i : Nat)
    (rules : List AccessRule) (view : Db)
    (hgrant : ∀ j ∈ insertsOf settings.ruleSimilarityFloor chunks i rules, faults.grant j = none) :
    ∃ r, grantRules settings faults docId chunks i rules { c with view := view } = (r, { c with
      view := (matchedRules settings.ruleSimilarityFloor chunks rules).foldl (fun db r => db.grantRule docId r) view }) ∧
      ∀ exc, r = .error exc → exc.isException = true := by
  induction rules generalizing i view with
  | nil => exact ⟨.ok (), rfl, nofun⟩
  | cons r rs ih =>
    unfold grantRules matchedRules
    unfold insertsOf at hgrant
    cases hmatch : r.queryEmbedding.map fun q => anyChunkClears settings.ruleSimilarityFloor q chunks with
    | none =>
      simp only [hmatch] at hgrant
      exact ih (i + 1) view hgrant
    | some raised =>
      cases raised with
      | none =>
        refine ⟨_, rfl, fun exc hexc => ?_⟩
        obtain rfl := Except.error.inj hexc
        rfl
      | some clears =>
        cases clears with
        | false =>
          simp only [hmatch] at hgrant
          exact ih (i + 1) view hgrant
        | true =>
          simp only [hmatch, List.mem_cons, forall_eq_or_imp] at hgrant
          have hstep : (execute (faults.grant i) fun db => .ok ((), db.grantRule docId r) : IngestTx Unit)
              { c with view := view } = (.ok (), { c with view := view.grantRule docId r }) := by
            rw [hgrant.1]
            exact Sql.statement_of_ok hlive rfl
          simp only [Sql.bind_of_ok hstep]
          exact ih (i + 1) (view.grantRule docId r) hgrant.2

theorem applyRules_eq {chunks : List Chunk} (h : RuleCheckRuns settings faults chunks c.view.confirmedRules)
    (hlive : c.state = .live) (docId : Uuid) :
    applyRules settings faults docId chunks c = (.ok (), { c with
      view := applyConfirmedRules settings.ruleSimilarityFloor docId chunks (c.view.storeChunks docId chunks) }) := by
  have hflush : (flush faults.rows (insertChunks docId chunks) : IngestTx Unit) c =
      (.ok (), { c with view := c.view.storeChunks docId chunks }) := by
    rw [h.flushed]
    exact Sql.statement_of_ok hlive rfl
  have hselect : (execute faults.rules (fun db => .ok (db.confirmedRules, db)) : IngestTx (List AccessRule))
      { c with view := c.view.storeChunks docId chunks } =
        (.ok (c.view.storeChunks docId chunks).confirmedRules, { c with view := c.view.storeChunks docId chunks }) := by
    rw [h.selected]
    exact Sql.statement_of_ok hlive rfl
  obtain ⟨r, hgrants, hraised⟩ := grantRules_eq settings hlive docId chunks 0
    (c.view.storeChunks docId chunks).confirmedRules (c.view.storeChunks docId chunks) h.inserted
  unfold applyRules Sql.tryCatch
  rw [Sql.bind_of_ok hflush, Sql.bind_of_ok hselect, hgrants]
  cases r with
  | ok a => rfl
  | error exc =>
    simp only [hraised exc rfl, ↓reduceIte]
    rfl

theorem ingestTry_eq (h : OnlyRuleFaults faults) (hlive : c.state = .live) {work : FlushedIngest}
    {embeddings : List Embedding} {chunks : List Chunk}
    (hruns : RuleCheckRuns settings faults chunks c.view.confirmedRules) (hembedded : faults.embedded = .ok embeddings)
    (hchunks : newChunks work.doc.id work.prose (work.tables.flatMap ParsedTable.chunks) embeddings = .ok chunks) :
    ∃ c', ingestTry settings faults work c = (.ok ⟨work.doc.id, .ready, none⟩, c') ∧
      c'.committed = applyConfirmedRules settings.ruleSimilarityFloor work.doc.id chunks
        ((c.view.storeParsed work.doc.id work.tables).storeChunks work.doc.id chunks) := by
  have htables := storeTables_eq h.table hlive work.doc.id 0 work.tables
  have hstore : storeContents settings faults work c = (.ok (), { c with
      view := applyConfirmedRules settings.ruleSimilarityFloor work.doc.id chunks
        ((c.view.storeParsed work.doc.id work.tables).storeChunks work.doc.id chunks) }) := by
    unfold storeContents
    rw [Sql.bind_of_ok htables, hembedded, Sql.await_ok_bind, hchunks, Sql.await_ok_bind]
    apply applyRules_eq
    · exact hruns
    · exact hlive
  generalize applyConfirmedRules settings.ruleSimilarityFloor work.doc.id chunks
    ((c.view.storeParsed work.doc.id work.tables).storeChunks work.doc.id chunks) = stored at hstore ⊢
  have hcommitted : (Sql.commit sessionRefusal faults.commit : IngestTx Unit) { c with view := stored } =
      (.ok (), { c with view := stored, committed := stored }) := by
    rw [h.commit]
    exact Sql.commit_durable hlive
  refine ⟨{ c with view := stored, committed := stored }, ?_, rfl⟩
  unfold ingestTry
  rw [Sql.bind_of_ok hstore, Sql.bind_of_ok hcommitted]
  rfl

theorem grantRules_live {docId : Uuid} {chunks : List Chunk} {i : Nat} {rules : List AccessRule} {r : Except PyError Unit}
    (h : grantRules settings faults docId chunks i rules c = (r, c')) (hlive : c'.state = .live) :
    (∀ j ∈ insertsOf settings.ruleSimilarityFloor chunks i rules, faults.grant j = none) ∧
      c' = { c with view := c'.view } ∧ c'.view =
        (matchedRules settings.ruleSimilarityFloor chunks rules).foldl (fun db r => db.grantRule docId r) c.view := by
  induction rules generalizing i c with
  | nil =>
    cases h
    exact ⟨by simp [insertsOf], rfl, rfl⟩
  | cons rule rs ih =>
    unfold grantRules at h
    unfold matchedRules insertsOf
    cases hmatch : rule.queryEmbedding.map fun q => anyChunkClears settings.ruleSimilarityFloor q chunks with
    | none =>
      simp only [hmatch] at h
      exact ih h
    | some raised =>
      cases raised with
      | none =>
        simp only [hmatch] at h
        cases h
        exact ⟨by simp, rfl, rfl⟩
      | some clears =>
        cases clears with
        | false =>
          simp only [hmatch] at h
          exact ih h
        | true =>
          simp only [hmatch] at h
          cases hexec : (execute (faults.grant i) fun db => .ok ((), db.grantRule docId rule) : IngestTx Unit) c with
          | mk r1 c1 =>
            cases r1 with
            | error exc =>
              rw [Sql.bind_of_error hexec] at h
              cases h
              exact absurd hlive (Sql.statement_raised (by decide) hexec)
            | ok a =>
              rw [Sql.bind_of_ok hexec] at h
              obtain ⟨_, hgrant, view, hview, rfl⟩ := Sql.statement_eq_ok.mp hexec
              obtain rfl := (Prod.mk.inj (Except.ok.inj hview)).2
              obtain ⟨hgrants, hends⟩ := ih h
              refine ⟨?_, hends⟩
              simp only [List.mem_cons, forall_eq_or_imp]
              exact ⟨hgrant, hgrants⟩

theorem applyRules_granted {docId : Uuid} {chunks : List Chunk} (h : applyRules settings faults docId chunks c = (.ok (), c'))
    (hlive : c'.state = .live) : RuleCheckRuns settings faults chunks c.view.confirmedRules ∧ c' = { c with view := c'.view } ∧
      c'.view = applyConfirmedRules settings.ruleSimilarityFloor docId chunks (c.view.storeChunks docId chunks) := by
  have hend : ∃ r, (flush faults.rows (insertChunks docId chunks) >>= fun _ =>
      execute faults.rules (fun db => .ok (db.confirmedRules, db)) >>= fun rules =>
        grantRules settings faults docId chunks 0 rules : IngestTx Unit) c = (r, c') := by
    unfold applyRules Sql.tryCatch at h
    split at h
    · rename_i hok
      cases h
      exact ⟨_, hok⟩
    · rename_i herror
      split at h
      · cases h
        exact ⟨_, herror⟩
      · cases h
  obtain ⟨r, hend⟩ := hend
  cases hflush : (flush faults.rows (insertChunks docId chunks) : IngestTx Unit) c with
  | mk r1 c1 =>
    cases r1 with
    | error exc =>
      rw [Sql.bind_of_error hflush] at hend
      cases hend
      exact absurd hlive (Sql.statement_raised (by decide) hflush)
    | ok a =>
      rw [Sql.bind_of_ok hflush] at hend
      obtain ⟨_, hflushed, view, hview, rfl⟩ := Sql.statement_eq_ok.mp hflush
      obtain rfl : c.view.storeChunks docId chunks = view := (Prod.mk.inj (Except.ok.inj hview)).2
      cases hselect : (execute faults.rules (fun db => .ok (db.confirmedRules, db)) : IngestTx (List AccessRule))
          { c with view := c.view.storeChunks docId chunks } with
      | mk r2 c2 =>
        cases r2 with
        | error exc =>
          rw [Sql.bind_of_error hselect] at hend
          cases hend
          exact absurd hlive (Sql.statement_raised (by decide) hselect)
        | ok rules =>
          rw [Sql.bind_of_ok hselect] at hend
          obtain ⟨_, hselected, view, hview, rfl⟩ := Sql.statement_eq_ok.mp hselect
          obtain ⟨hrules, hsame⟩ := Prod.mk.inj (Except.ok.inj hview)
          subst hrules hsame
          obtain ⟨hinserted, hends⟩ := grantRules_live hend hlive
          exact ⟨⟨hflushed, hselected, hinserted⟩, hends⟩

theorem storeTables_stored {docId : Uuid} {i : Nat} {ts : List ParsedTable}
    (h : storeTables faults docId i ts c = (.ok (), c')) : c' = { c with view := c.view.storeParsed docId ts } := by
  induction ts generalizing i c with
  | nil =>
    cases h
    simp [Db.storeParsed]
  | cons t ts ih =>
    obtain ⟨_, c1, h1, hrest⟩ := Sql.bind_eq_ok.mp h
    obtain ⟨_, _, view, hview, rfl⟩ := Sql.statement_eq_ok.mp h1
    obtain rfl := (Prod.mk.inj (Except.ok.inj hview)).2
    rw [ih hrest]
    simp [Db.storeParsed]

theorem storeContents_stored {work : FlushedIngest} (h : storeContents settings faults work c = (.ok (), c')) (hlive : c'.state = .live) :
    ∃ embeddings chunks, faults.embedded = .ok embeddings ∧
      newChunks work.doc.id work.prose (work.tables.flatMap ParsedTable.chunks) embeddings = .ok chunks ∧
      RuleCheckRuns settings faults chunks c.view.confirmedRules ∧ c' = { c with view := c'.view } ∧
      c'.view = applyConfirmedRules settings.ruleSimilarityFloor work.doc.id chunks
        ((c.view.storeParsed work.doc.id work.tables).storeChunks work.doc.id chunks) := by
  obtain ⟨_, c1, htables, h⟩ := Sql.bind_eq_ok.mp h
  obtain ⟨embeddings, c2, hembed, h⟩ := Sql.bind_eq_ok.mp h
  obtain ⟨chunks, c3, hchunks, hrules⟩ := Sql.bind_eq_ok.mp h
  obtain ⟨hembedded, rfl⟩ := Prod.mk.inj hembed
  obtain ⟨hnew, rfl⟩ := Prod.mk.inj hchunks
  obtain ⟨hruns, hconn, hview⟩ := applyRules_granted hrules hlive
  rw [storeTables_stored htables] at hruns hconn hview
  exact ⟨embeddings, chunks, hembedded, hnew, hruns, hconn, hview⟩

theorem embedChunks_docId {docId : Uuid} {ord : Nat} {pairs : List (Chunk × Embedding)} :
    ∀ ch ∈ embedChunks docId ord pairs, ch.docId = docId := by
  intro ch hch
  obtain ⟨p, _, rfl⟩ := List.mem_map.mp hch
  rfl

theorem newChunks_docId {docId : Uuid} {prose tables chunks : List Chunk} {embeddings : List Embedding}
    (h : newChunks docId prose tables embeddings = .ok chunks) : ∀ ch ∈ chunks, ch.docId = docId := by
  obtain ⟨ps, _, h⟩ := bind_eq_ok.mp h
  obtain ⟨ts, _, h⟩ := bind_eq_ok.mp h
  obtain rfl := Except.ok.inj h
  intro ch hch
  rcases List.mem_append.mp hch with hch | hch
  · exact embedChunks_docId ch hch
  · exact embedChunks_docId ch hch

theorem storeDocument_eq {doc : Document} {db : Db} {rows : IngestRows} {ts : List ParsedTable}
    (hnew : db.document? doc.id = none) (hchunks : ∀ ch ∈ rows.chunks, ch.docId = doc.id)
    (htables : rows.tables = ts.map ParsedTable.table) (hrows : rows.tableRows = ts.flatMap ParsedTable.rows) :
    ({ db with documents := db.documents ++ [doc] }.storeParsed doc.id ts).storeChunks doc.id rows.chunks =
      db.storeDocument { doc with status := .ready } rows := by
  have hothers : ∀ d ∈ db.documents, d.id ≠ doc.id := selectOne_eq_none.mp hnew
  have hready : updateWhere (fun d => d.id = doc.id) (fun d => { d with status := .ready }) (db.documents ++ [doc]) =
      db.documents ++ [{ doc with status := .ready }] := by
    apply updateWhere_last
    · simpa using hothers
    · simp
  have hsame : (rows.chunks.map fun ch => { ch with docId := doc.id }) = rows.chunks := by
    refine (List.map_congr_left fun ch hch => ?_).trans (List.map_id _)
    rw [← hchunks ch hch]
    rfl
  unfold Db.storeParsed Db.storeChunks Db.storeDocument
  simp only [hready, hsame, htables, hrows, List.map_map]
  rfl

theorem flushDocument_eq (h : OnlyRuleFaults faults) (hlive : c.state = .live) {work : FlushedIngest}
    (hid : c.view.document? work.doc.id = none) (hsha : c.view.documentBySha? work.doc.sha256 = none) :
    flushDocument faults work c =
      (.ok (.inr work), { c with view := { c.view with documents := c.view.documents ++ [work.doc] } }) := by
  have hflush : (flush faults.flush (insertDocument work.doc) : IngestTx Unit) c =
      (.ok (), { c with view := { c.view with documents := c.view.documents ++ [work.doc] } }) := by
    rw [h.flush]
    apply Sql.statement_of_ok hlive
    simp [insertDocument, hid, hsha]
  unfold flushDocument Sql.tryCatch
  rw [Sql.bind_of_ok hflush]
  rfl

theorem flushDocument_clash (h : Faultless faults) (hlive : c.state = .live) {work : FlushedIngest}
    (hid : (c.view.document? work.doc.id).isSome) (hsha : c.committed.documentBySha? work.doc.sha256 = none) :
    ∃ c', flushDocument faults work c = (.error ⟨"IntegrityError", "documents_pkey"⟩, c') ∧
      c'.committed = c.committed := by
  have hflush : (flush faults.flush (insertDocument work.doc) : IngestTx Unit) c =
      (.error ⟨"IntegrityError", "documents_pkey"⟩, { c with state := .unusable }) := by
    rw [h.flush]
    unfold flush Sql.statement
    simp [hlive, insertDocument, hid]
  have hlookup : lookupDigest faults.lookupAgain work.doc.sha256 { c with view := c.committed, state := .live } =
      (.ok none, { c with view := c.committed, state := .live }) :=
    lookupDigest_eq_ok.mpr ⟨rfl, h.lookupAgain, hsha.symm, rfl⟩
  refine ⟨{ c with view := c.committed, state := .live }, ?_, rfl⟩
  unfold flushDocument Sql.tryCatch
  rw [Sql.bind_of_error hflush]
  exact Sql.bind_of_ok hlookup

theorem openIngest_contents (h : OnlyRuleFaults faults) {u : Upload} {id : Uuid} {mime : String} {prose : List Chunk}
    {tables : List ParsedTable} {db : Db} {blobs : Blobs} (hcontent : prose ≠ [] ∨ tables ≠ [])
    (hsize : prose.length ≤ settings.maxChunksPerDocument) (hsha : db.documentBySha? (sha256Hex u.data) = none) :
    openIngest sha256Hex settings faults u (.contents id mime prose tables) (Conn.fresh db blobs) =
      flushDocument faults ⟨u.document sha256Hex id mime, prose, tables⟩
        ⟨db, db, .live, writeBlob u.data (u.path sha256Hex) blobs⟩ := by
  have hlookup : lookupDigest faults.lookup (sha256Hex u.data) (Conn.fresh db blobs) = (.ok none, Conn.fresh db blobs) :=
    lookupDigest_eq_ok.mpr ⟨rfl, h.lookup, hsha.symm, rfl⟩
  have hnonempty : (prose.isEmpty && tables.isEmpty) = false := by
    rcases hcontent with hprose | htables
    · simp [hprose]
    · simp [htables]
  refine (Sql.bind_of_ok hlookup).trans ?_
  simp only [hnonempty, Nat.not_lt.mpr hsize]
  rfl

theorem openIngest_new (h : OnlyRuleFaults faults) {u : Upload} {id : Uuid} {mime : String} {prose : List Chunk}
    {tables : List ParsedTable} {db : Db} {blobs : Blobs} (hcontent : prose ≠ [] ∨ tables ≠ [])
    (hsize : prose.length ≤ settings.maxChunksPerDocument) (hsha : db.documentBySha? (sha256Hex u.data) = none)
    (hid : db.document? id = none) :
    openIngest sha256Hex settings faults u (.contents id mime prose tables) (Conn.fresh db blobs) =
      (.ok (.inr ⟨u.document sha256Hex id mime, prose, tables⟩),
        ⟨db, { db with documents := db.documents ++ [u.document sha256Hex id mime] }, .live,
          writeBlob u.data (u.path sha256Hex) blobs⟩) := by
  rw [openIngest_contents h hcontent hsize hsha]
  exact flushDocument_eq h rfl hid hsha

theorem ingestSession_stored (h : OnlyRuleFaults faults) {u : Upload} {id : Uuid} {mime : String}
    {prose chunks : List Chunk} {tables : List ParsedTable} {embeddings : List Embedding} {db : Db} {blobs : Blobs}
    (hcontent : prose ≠ [] ∨ tables ≠ []) (hsize : prose.length ≤ settings.maxChunksPerDocument)
    (hsha : db.documentBySha? (sha256Hex u.data) = none) (hid : db.document? id = none)
    (hruns : RuleCheckRuns settings faults chunks db.confirmedRules) (hembedded : faults.embedded = .ok embeddings)
    (hchunks : newChunks id prose (tables.flatMap ParsedTable.chunks) embeddings = .ok chunks) :
    ∃ c, ingestSession sha256Hex settings faults u (.contents id mime prose tables) (Conn.fresh db blobs) =
        (.ok ⟨id, .ready, none⟩, c) ∧
      c.committed = applyConfirmedRules settings.ruleSimilarityFloor id chunks
        (db.storeDocument { u.document sha256Hex id mime with status := .ready }
          ⟨id, mime, chunks, tables.map ParsedTable.table, tables.flatMap ParsedTable.rows⟩) := by
  have hopen := @openIngest_new sha256Hex settings faults h u id mime prose tables db blobs hcontent hsize hsha hid
  obtain ⟨c', htry, hcommitted⟩ := @ingestTry_eq settings faults
    ⟨db, { db with documents := db.documents ++ [u.document sha256Hex id mime] }, .live,
      writeBlob u.data (u.path sha256Hex) blobs⟩
    h rfl ⟨u.document sha256Hex id mime, prose, tables⟩ embeddings chunks hruns hembedded hchunks
  have hstored := @storeDocument_eq (u.document sha256Hex id mime) db
    ⟨id, mime, chunks, tables.map ParsedTable.table, tables.flatMap ParsedTable.rows⟩ tables hid
    (newChunks_docId hchunks) rfl rfl
  refine ⟨c', ?_, ?_⟩
  · refine (Sql.bind_of_ok hopen).trans ?_
    simp only [Sql.tryCatch]
    rw [htry]
    rfl
  · rw [hcommitted]
    exact congrArg (applyConfirmedRules settings.ruleSimilarityFloor id chunks) hstored

/-- Where nothing fails, the session answers and commits as `ingestBytes` does. -/
theorem ingestSession_eq_ingestBytes (h : Faultless faults) {u : Upload} {id : Uuid} {mime : String}
    {prose chunks : List Chunk} {tables : List ParsedTable} {embeddings : List Embedding} {db : Db} {blobs : Blobs}
    (hcontent : prose ≠ [] ∨ tables ≠ []) (hsize : prose.length ≤ settings.maxChunksPerDocument)
    (hembedded : faults.embedded = .ok embeddings)
    (hchunks : newChunks id prose (tables.flatMap ParsedTable.chunks) embeddings = .ok chunks) :
    ∃ c, ingestSession sha256Hex settings faults u (.contents id mime prose tables) (Conn.fresh db blobs) =
        ((ingestBytes sha256Hex settings.ruleSimilarityFloor
          (.ok ⟨id, mime, chunks, tables.map ParsedTable.table, tables.flatMap ParsedTable.rows⟩) u.data u.filename
          u.collection db).1, c) ∧
      c.committed = (ingestBytes sha256Hex settings.ruleSimilarityFloor
        (.ok ⟨id, mime, chunks, tables.map ParsedTable.table, tables.flatMap ParsedTable.rows⟩) u.data u.filename
        u.collection db).2 := by
  have hlookup : lookupDigest faults.lookup (sha256Hex u.data) (Conn.fresh db blobs) =
      (.ok (db.documentBySha? (sha256Hex u.data)), Conn.fresh db blobs) :=
    lookupDigest_eq_ok.mpr ⟨rfl, h.lookup, rfl, rfl⟩
  unfold ingestBytes
  cases hsha : db.documentBySha? (sha256Hex u.data) with
  | some e =>
    rw [hsha] at hlookup
    have hopen : openIngest sha256Hex settings faults u (.contents id mime prose tables) (Conn.fresh db blobs) =
        (.ok (.inl ⟨e.id, e.status, some e.id⟩), Conn.fresh db blobs) := Sql.bind_of_ok hlookup
    exact ⟨Conn.fresh db blobs, Sql.bind_of_ok hopen, rfl⟩
  | none =>
    cases hid : db.document? id with
    | some d =>
      obtain ⟨c, hclash, hcommitted⟩ := @flushDocument_clash faults ⟨db, db, .live, writeBlob u.data (u.path sha256Hex) blobs⟩
        h rfl ⟨u.document sha256Hex id mime, prose, tables⟩ (by rw [show Document.id _ = id from rfl, hid]; rfl) hsha
      have hopen := @openIngest_contents sha256Hex settings faults h.only u id mime prose tables db blobs hcontent hsize hsha
      refine ⟨c, ?_, ?_⟩
      · simp only [hid]
        exact Sql.bind_of_error (hopen.trans hclash)
      · simp only [hid]
        exact hcommitted
    | none =>
      obtain ⟨c, hrun, hcommitted⟩ := @ingestSession_stored sha256Hex settings faults h.only u id mime prose chunks tables
        embeddings db blobs hcontent hsize hsha hid (h.ruleCheck settings chunks _) hembedded hchunks
      refine ⟨c, ?_, ?_⟩
      · simp only [hid]
        exact hrun
      · simp only [hid]
        exact hcommitted

end ProRag
