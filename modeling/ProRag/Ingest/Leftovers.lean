import ProRag.Ingest.Ending

/-!
# What an ingest that raises leaves behind

The file of an upload is written before its row, outside of the transaction, and each exit has to delete it by hand.
Here the disk fails too: a write leaves a part of the file or nothing, and a file stays that cannot be deleted.
-/

namespace ProRag

open Framework

/-- How the disk fails: what the making of the directory raises, what a write raises and what it has written by then,
and what a delete raises. -/
structure DiskFaults where
  mkdir : Option PyError
  write : Option (PyError × Option Bytes)
  delete : Option PyError

section

variable (sha256Hex : Bytes → String) (settings : Settings) (disk : DiskFaults) (faults : IngestFaults)

/-- `write_blob(data, path)`; a path that exists is not opened. -/
def writeBlobOn (data : Bytes) (path : BlobPath) : IngestTx Unit :=
  match disk.mkdir, disk.write with
  | some exc, _ => Sql.await (.error exc)
  | none, none => Sql.effect (writeBlob data path)
  | none, some (exc, written) => fun c =>
    if (c.outside path).isSome then (.ok (), c)
    else (.error exc, { c with outside := written.elim c.outside fun part => writeBlob part path c.outside })

/-- `delete_blob(path)`. -/
def deleteBlobOn (path : BlobPath) : IngestTx Unit :=
  match disk.delete with
  | none => Sql.effect (deleteBlob path)
  | some exc => Sql.await (.error exc)

/-- `delete_blob(path)` and the exception. -/
def discardOn {α : Type} (path : BlobPath) (exc : PyError) : IngestTx α :=
  deleteBlobOn disk path >>= fun _ => Sql.await (.error exc)

/-- `ingest_bytes` up to the flush of its row. -/
def openIngestOn (u : Upload) (parsed : Parsed) : IngestTx (IngestResponse ⊕ FlushedIngest) :=
  lookupDigest faults.lookup (sha256Hex u.data) >>= fun existing => match existing with
    | some e => Sql.await (duplicateOf e) >>= fun resp => pure (.inl resp)
    | none => match parsed with
      | .refused detail => Sql.await (.error (httpException 400 detail))
      | .raised exc => writeBlobOn disk u.data (u.path sha256Hex) >>= fun _ =>
        discardOn disk (u.path sha256Hex) (httpException 422 ("could not parse this file (" ++ safeError exc ++ ")"))
      | .imageUnreadable => writeBlobOn disk u.data (u.path sha256Hex) >>= fun _ =>
        discardOn disk (u.path sha256Hex) (httpException 422 "could not extract text from this image (OCR unavailable?)")
      | .reraised exc => writeBlobOn disk u.data (u.path sha256Hex) >>= fun _ => Sql.await (.error exc)
      | .contents id mime prose tables => writeBlobOn disk u.data (u.path sha256Hex) >>= fun _ =>
        if prose.isEmpty && tables.isEmpty then
          discardOn disk (u.path sha256Hex) (httpException 422 "no extractable text found (scanned image PDF or empty file?)")
        else if settings.maxChunksPerDocument < prose.length then
          discardOn disk (u.path sha256Hex)
            (httpException 413 ("document produced more than " ++ toString settings.maxChunksPerDocument ++ " chunks"))
        else flushDocument faults ⟨u.document sha256Hex id mime, prose, tables⟩

/-- The handler behind the flush. -/
def ingestExceptOn (u : Upload) (exc : PyError) : IngestTx IngestResponse :=
  Sql.elsewhere faults.others >>= fun _ =>
    Sql.rollback >>= fun _ =>
      lookupDigest faults.recheck (sha256Hex u.data) >>= fun row => match row with
        | none => discardOn disk (u.path sha256Hex) (httpException 500 "ingestion failed")
        | some e =>
          execute none (fun db => .ok ((), db.recordFailure e.id exc)) >>= fun _ =>
            Sql.commit sessionRefusal faults.failureCommit >>= fun _ => pure ⟨e.id, .failed, none⟩

/-- `ingest_bytes(session, data, filename, collection)` on this disk. -/
def ingestSessionOn (u : Upload) (parsed : Parsed) : IngestTx IngestResponse :=
  openIngestOn sha256Hex settings disk faults u parsed >>= fun opened => match opened with
    | .inl resp => pure resp
    | .inr work =>
      Sql.tryCatch PyError.isException (ingestTry settings faults work) (ingestExceptOn sha256Hex disk faults u)

end

theorem ingestSessionOn_working (sha256Hex : Bytes → String) (settings : Settings) (faults : IngestFaults) (u : Upload)
    (parsed : Parsed) :
    ingestSessionOn sha256Hex settings ⟨none, none, none⟩ faults u parsed = ingestSession sha256Hex settings faults u parsed := rfl

/-! ## The exits of the `try` -/

section

variable (settings : Settings) (faults : IngestFaults)

/-- A handler that goes on with a transaction in some state. -/
def caughtAs (state : TxState) (exc : PyError) : Except PyError TxState :=
  if exc.isException = true then .ok state else .error exc

/-- What `_apply_confirmed_rules` comes to: an exception that it does not catch, or the state of the transaction. -/
def ruleCheckEnd (chunks : List Chunk) (rules : List AccessRule) : Except PyError TxState :=
  match faults.rows with
  | some exc => caughtAs .unusable exc
  | none =>
    match faults.rules.or ((insertsOf settings.ruleSimilarityFloor chunks 0 rules).findSome? faults.grant) with
    | some exc => caughtAs .aborted exc
    | none => .ok .live

/-- What the statements in front of the commit come to. -/
def storeEnd (work : FlushedIngest) (rules : List AccessRule) : Except PyError TxState :=
  match (List.range' 0 work.tables.length).findSome? faults.table with
  | some exc => .error exc
  | none => do
    let embeddings ← faults.embedded
    let chunks ← newChunks work.doc.id work.prose (work.tables.flatMap ParsedTable.chunks) embeddings
    ruleCheckEnd settings faults chunks rules

/-- The exception that leaves the `try`. -/
def tryError (work : FlushedIngest) (rules : List AccessRule) : Option PyError :=
  match storeEnd settings faults work rules with
  | .error exc => some exc
  | .ok .unusable => some (sessionRefusal .unusable)
  | .ok _ =>
    match faults.commit with
    | .durable => none
    | .unacknowledged exc | .raised exc => some exc

/-- The commit makes the row durable, acknowledged or not. -/
def RowLands (work : FlushedIngest) (rules : List AccessRule) : Prop :=
  storeEnd settings faults work rules = .ok .live ∧ faults.commit.lands = true

end

/-- No row of the digest is committed, and no file is there that was not there before. -/
structure LeavesNothing (digest : String) (blobs : Blobs) (c : Conn Db Blobs) : Prop where
  row : ∀ d ∈ c.committed.documents, d.sha256 ≠ digest
  files : ∀ p, blobs p = none → c.outside p = none

section

variable (sha256Hex : Bytes → String) (settings : Settings) (disk : DiskFaults) (faults : IngestFaults) (u : Upload)

/-- An exit of the `try` behind the flush: no row is durable, and the handler comes to its `delete_blob`. -/
def CleanTry (existed : Prop) (work : FlushedIngest) (rules : List AccessRule) : Prop :=
  ¬ RowLands settings faults work rules ∧
    (existed ∨ (∃ exc, tryError settings faults work rules = some exc ∧ exc.isException = true) ∧
      faults.recheck = none ∧ disk.delete = none)

/-- An exit behind the write of the file. -/
def CleanWritten (existed : Prop) (db : Db) : Parsed → Prop
  | .refused _ => True
  | .raised _ | .imageUnreadable => existed ∨ disk.delete = none
  | .reraised _ => existed
  | .contents id mime prose tables =>
    if (prose = [] ∧ tables = []) ∨ settings.maxChunksPerDocument < prose.length then existed ∨ disk.delete = none
    else if faults.flush.isSome ∨ (db.document? id).isSome then existed
    else CleanTry settings disk faults existed ⟨u.document sha256Hex id mime, prose, tables⟩ db.confirmedRules

/-- The exits that leave nothing: those in front of the write; a write that has written nothing; and the exits that
come to a `delete_blob` that works, or find that the file was there before the call. -/
def CleanExit (parsed : Parsed) (db : Db) (blobs : Blobs) : Prop :=
  match faults.lookup with
  | some _ => db.documentBySha? (sha256Hex u.data) = none
  | none => (∃ detail, parsed = .refused detail) ∨ disk.mkdir.isSome ∨
    if blobs (u.path sha256Hex) = none ∧ disk.write.isSome then disk.write.map Prod.snd = some none
    else CleanWritten sha256Hex settings disk faults u (blobs (u.path sha256Hex) ≠ none) db parsed

end

variable {sha256Hex : Bytes → String} {settings : Settings} {disk : DiskFaults} {faults : IngestFaults} {u : Upload}
  {parsed : Parsed} {work : FlushedIngest} {db : Db} {blobs : Blobs} {c c' : Conn Db Blobs}

theorem flush_refused {α : Type} {f : Db → Except PyError (α × Db)} {exc : PyError} (hlive : c.state = .live) :
    (flush (some exc) f : IngestTx α) c = (.error exc, { c with state := .unusable }) := by
  simp [flush, Sql.statement, hlive]

theorem execute_refused {α : Type} {f : Db → Except PyError (α × Db)} {exc : PyError} (hlive : c.state = .live) :
    (execute (some exc) f : IngestTx α) c = (.error exc, { c with state := .aborted }) := by
  simp [execute, Sql.statement, hlive]

theorem storeTables_end (hlive : c.state = .live) (docId : Uuid) (i : Nat) (ts : List ParsedTable) :
    (∀ exc, (List.range' i ts.length).findSome? faults.table = some exc → (storeTables faults docId i ts c).1 = .error exc) ∧
      ((List.range' i ts.length).findSome? faults.table = none →
        storeTables faults docId i ts c = (.ok (), { c with view := c.view.storeParsed docId ts })) := by
  induction ts generalizing i c with
  | nil => simp [storeTables, Db.storeParsed, pure]
  | cons t ts ih =>
    rw [List.length_cons, List.range'_succ, List.findSome?_cons, storeTables]
    cases hfault : faults.table i with
    | some exc =>
      rw [Sql.bind_of_error (flush_refused hlive)]
      simp
    | none =>
      have hstep : (flush none (insertTable docId t) : IngestTx Unit) c =
          (.ok (), { c with view := c.view.storeParsed docId [t] }) := by
        apply Sql.statement_of_ok hlive
        simp [insertTable, Db.storeParsed]
      rw [Sql.bind_of_ok hstep]
      have hrest := @ih { c with view := c.view.storeParsed docId [t] } hlive (i + 1)
      refine ⟨hrest.1, ?_⟩
      intro hnone
      rw [hrest.2 hnone]
      simp [Db.storeParsed]

/-- The first INSERT that fails ends the loop over the rules and aborts the transaction; otherwise it stays alive, and
what the loop still raises is caught. -/
theorem grantRules_end (hlive : c.state = .live) (docId : Uuid) (chunks : List Chunk) (i : Nat) (rules : List AccessRule) :
    (∀ exc, (insertsOf settings.ruleSimilarityFloor chunks i rules).findSome? faults.grant = some exc →
        ∃ c', grantRules settings faults docId chunks i rules c = (.error exc, c') ∧ c'.state = .aborted) ∧
      ((insertsOf settings.ruleSimilarityFloor chunks i rules).findSome? faults.grant = none →
        ∃ r c', grantRules settings faults docId chunks i rules c = (r, c') ∧ c'.state = .live ∧
          ∀ exc, r = .error exc → exc.isException = true) := by
  induction rules generalizing i c with
  | nil =>
    constructor
    · intro exc h
      cases h
    · intro _
      refine ⟨.ok (), c, rfl, hlive, ?_⟩
      intro exc h
      cases h
  | cons r rs ih =>
    unfold grantRules insertsOf
    cases hmatch : r.queryEmbedding.map fun q => anyChunkClears settings.ruleSimilarityFloor q chunks with
    | none => exact ih hlive (i + 1)
    | some raised =>
      cases raised with
      | none =>
        constructor
        · intro exc h
          cases h
        · intro _
          refine ⟨_, c, rfl, hlive, ?_⟩
          intro exc h
          obtain rfl := Except.error.inj h
          rfl
      | some clears =>
        cases clears with
        | false => exact ih hlive (i + 1)
        | true =>
          simp only [List.findSome?_cons]
          cases hgrant : faults.grant i with
          | some exc =>
            rw [Sql.bind_of_error (execute_refused hlive)]
            simp
          | none =>
            have hstep : (execute none (fun db => .ok ((), db.grantRule docId r)) : IngestTx Unit) c =
                (.ok (), { c with view := c.view.grantRule docId r }) := Sql.statement_of_ok hlive rfl
            rw [Sql.bind_of_ok hstep]
            exact @ih { c with view := c.view.grantRule docId r } hlive (i + 1)

theorem applyRules_end (hlive : c.state = .live) (docId : Uuid) (chunks : List Chunk) :
    (applyRules settings faults docId chunks c).1.map (fun _ => (applyRules settings faults docId chunks c).2.state) =
      ruleCheckEnd settings faults chunks c.view.confirmedRules := by
  unfold applyRules Sql.tryCatch ruleCheckEnd
  cases hrows : faults.rows with
  | some exc =>
    rw [Sql.bind_of_error (flush_refused hlive)]
    by_cases hcaught : exc.isException = true
    · simp [caughtAs, hcaught, pure, Except.map]
    · simp [caughtAs, hcaught, Except.map]
  | none =>
    have hflush : (flush none (insertChunks docId chunks) : IngestTx Unit) c =
        (.ok (), { c with view := c.view.storeChunks docId chunks }) := Sql.statement_of_ok hlive rfl
    rw [Sql.bind_of_ok hflush]
    cases hrules : faults.rules with
    | some exc =>
      have hselect := @execute_refused { c with view := c.view.storeChunks docId chunks } (List AccessRule)
        (fun db => .ok (db.confirmedRules, db)) exc hlive
      rw [Sql.bind_of_error hselect]
      by_cases hcaught : exc.isException = true
      · simp [caughtAs, hcaught, pure, Except.map]
      · simp [caughtAs, hcaught, Except.map]
    | none =>
      have hselect : (execute none (fun db => .ok (db.confirmedRules, db)) : IngestTx (List AccessRule))
          { c with view := c.view.storeChunks docId chunks } =
            (.ok c.view.confirmedRules, { c with view := c.view.storeChunks docId chunks }) := Sql.statement_of_ok hlive rfl
      have hgrants := @grantRules_end settings faults { c with view := c.view.storeChunks docId chunks } hlive docId chunks 0
        c.view.confirmedRules
      rw [Sql.bind_of_ok hselect]
      cases hfault : (insertsOf settings.ruleSimilarityFloor chunks 0 c.view.confirmedRules).findSome? faults.grant with
      | some exc =>
        obtain ⟨c', hrun, haborted⟩ := hgrants.1 exc hfault
        rw [hrun]
        by_cases hcaught : exc.isException = true
        · simp [caughtAs, hcaught, pure, Except.map, haborted]
        · simp [caughtAs, hcaught, Except.map]
      | none =>
        obtain ⟨r, c', hrun, halive, hcaught⟩ := hgrants.2 hfault
        rw [hrun]
        cases r with
        | ok a => simp [Except.map, halive]
        | error exc => simp [hcaught exc rfl, pure, Except.map, halive]

theorem storeContents_end (hlive : c.state = .live) (work : FlushedIngest) :
    (storeContents settings faults work c).1.map (fun _ => (storeContents settings faults work c).2.state) =
      storeEnd settings faults work c.view.confirmedRules := by
  obtain ⟨hraised, hstored⟩ := @storeTables_end faults c hlive work.doc.id 0 work.tables
  unfold storeContents storeEnd
  cases hfault : (List.range' 0 work.tables.length).findSome? faults.table with
  | some exc =>
    have hrun : storeTables faults work.doc.id 0 work.tables c =
        (.error exc, (storeTables faults work.doc.id 0 work.tables c).2) := Prod.ext (hraised exc hfault) rfl
    rw [Sql.bind_of_error hrun]
    rfl
  | none =>
    rw [Sql.bind_of_ok (hstored hfault)]
    cases faults.embedded with
    | error exc => rfl
    | ok embeddings =>
      rw [Sql.await_ok_bind]
      change _ = newChunks work.doc.id work.prose (work.tables.flatMap ParsedTable.chunks) embeddings >>= fun chunks =>
        ruleCheckEnd settings faults chunks c.view.confirmedRules
      cases newChunks work.doc.id work.prose (work.tables.flatMap ParsedTable.chunks) embeddings with
      | error exc => rfl
      | ok chunks =>
        exact @applyRules_end settings faults { c with view := c.view.storeParsed work.doc.id work.tables } hlive work.doc.id
          chunks

theorem ingestTry_error (hlive : c.state = .live) (work : FlushedIngest) {exc : PyError} :
    (ingestTry settings faults work c).1 = .error exc ↔ tryError settings faults work c.view.confirmedRules = some exc := by
  have hend := @storeContents_end settings faults c hlive work
  unfold tryError ingestTry
  rw [← hend]
  cases hstore : storeContents settings faults work c with
  | mk r c1 =>
    cases r with
    | error raised =>
      rw [Sql.bind_of_error hstore]
      simp [Except.map]
    | ok a =>
      rw [Sql.bind_of_ok hstore]
      simp only [Except.map]
      cases hstate : c1.state with
      | live =>
        cases hout : faults.commit with
        | durable => simp [bind, Sql.bind, Sql.commit, hstate, CommitOutcome.lands, CommitOutcome.answer, pure]
        | unacknowledged raised => simp [bind, Sql.bind, Sql.commit, hstate, CommitOutcome.lands, CommitOutcome.answer]
        | raised raised => simp [bind, Sql.bind, Sql.commit, hstate, CommitOutcome.lands, CommitOutcome.answer]
      | aborted =>
        cases hout : faults.commit with
        | durable => simp [bind, Sql.bind, Sql.commit, hstate, CommitOutcome.answer, pure]
        | unacknowledged raised => simp [bind, Sql.bind, Sql.commit, hstate, CommitOutcome.answer]
        | raised raised => simp [bind, Sql.bind, Sql.commit, hstate, CommitOutcome.answer]
      | unusable => simp [bind, Sql.bind, Sql.commit, hstate]

theorem rowLands_iff (hlive : c.state = .live) (work : FlushedIngest) :
    RowLands settings faults work c.view.confirmedRules ↔
      ∃ c1, storeContents settings faults work c = (.ok (), c1) ∧ c1.state = .live ∧ faults.commit.lands = true := by
  have hend := @storeContents_end settings faults c hlive work
  unfold RowLands
  rw [← hend]
  cases storeContents settings faults work c with
  | mk r c1 =>
    cases r with
    | error exc => simp [Except.map]
    | ok a => simp [Except.map]

/-- Behind the flush of a new row the `try` touches no file, and commits the row or nothing. -/
theorem ingestTry_row (hnew : db.document? work.doc.id = none)
    (hc : c = ⟨db, { db with documents := db.documents ++ [work.doc] }, .live, blobs⟩) :
    (ingestTry settings faults work c).2.outside = blobs ∧
      (RowLands settings faults work db.confirmedRules →
        (ingestTry settings faults work c).2.committed.documentBySha? work.doc.sha256 ≠ none) ∧
      (¬ RowLands settings faults work db.confirmedRules → (ingestTry settings faults work c).2.committed = db) := by
  have hrules : c.view.confirmedRules = db.confirmedRules := by rw [hc]; rfl
  have hlive : c.state = .live := by rw [hc]
  have hlands := @rowLands_iff settings faults c hlive work
  obtain ⟨hends, houtside, _⟩ := ingestTry_ends settings faults work c
  rw [hrules] at hlands
  rw [hlands, houtside]
  refine ⟨by rw [hc], ?_, ?_⟩
  · intro h
    obtain ⟨c1, hstore, halive, hcommit⟩ := h
    obtain ⟨_, chunks, _, _, _, _, hview⟩ := storeContents_stored hstore halive
    have hcommitted : (ingestTry settings faults work c).2.committed = c1.view := by
      rcases hends with hstored | huntouched
      · obtain ⟨c2, hstore2, _, _, hcommitted⟩ := hstored
        rw [hstore] at hstore2
        cases hstore2
        exact hcommitted
      · have hnever := huntouched.1 c1 hstore halive
        rw [hcommit] at hnever
        cases hnever
    have hdb : StoredIn work.doc (matchedRules settings.ruleSimilarityFloor chunks db.confirmedRules) db c1.view := by
      rw [hview, hc]
      exact StoredIn.of_view hnew
    rw [hcommitted]
    exact hdb.found
  · intro h
    rcases hends with hstored | huntouched
    · obtain ⟨c1, hstore, halive, hcommit, _⟩ := hstored
      exact absurd ⟨c1, hstore, halive, hcommit⟩ h
    · rw [huntouched.2, hc]

theorem recordFailure_found {id : Uuid} {exc : PyError} {digest : String} (h : db.documentBySha? digest ≠ none) :
    (db.recordFailure id exc).documentBySha? digest ≠ none := by
  intro hnone
  apply h
  unfold Db.documentBySha? at hnone ⊢
  rw [selectOne_eq_none] at hnone ⊢
  intro d hd hdigest
  have hmarked := hnone _ (mem_updateWhere.mpr ⟨d, hd, rfl⟩)
  apply hmarked
  split
  · exact hdigest
  · exact hdigest

theorem discardOn_eq {α : Type} (path : BlobPath) (exc : PyError) (c : Conn Db Blobs) :
    ∃ raised, (discardOn disk path exc : IngestTx α) c =
      (.error raised, { c with outside := if disk.delete = none then deleteBlob path c.outside else c.outside }) := by
  unfold discardOn deleteBlobOn
  cases disk.delete with
  | none => exact ⟨exc, rfl⟩
  | some failed => exact ⟨failed, rfl⟩

theorem ingestExceptOn_ends (halone : faults.others = id) (u : Upload) (exc : PyError) (c : Conn Db Blobs) :
    (c.committed.documentBySha? (sha256Hex u.data) = none →
        (ingestExceptOn sha256Hex disk faults u exc c).2.committed = c.committed ∧
          (ingestExceptOn sha256Hex disk faults u exc c).2.outside =
            if faults.recheck = none ∧ disk.delete = none then deleteBlob (u.path sha256Hex) c.outside else c.outside) ∧
      (c.committed.documentBySha? (sha256Hex u.data) ≠ none →
        (ingestExceptOn sha256Hex disk faults u exc c).2.committed.documentBySha? (sha256Hex u.data) ≠ none) := by
  have helse : (Sql.elsewhere faults.others : IngestTx Unit) c = (.ok (), c) := by
    rw [halone]
    rfl
  have hroll : (Sql.rollback : IngestTx Unit) c = (.ok (), Conn.fresh c.committed c.outside) := rfl
  unfold ingestExceptOn
  rw [Sql.bind_of_ok helse, Sql.bind_of_ok hroll]
  cases hfault : faults.recheck with
  | some raised =>
    have hlookup : lookupDigest (some raised) (sha256Hex u.data) (Conn.fresh c.committed c.outside) =
        (.error raised, { Conn.fresh c.committed c.outside with state := .aborted }) := rfl
    rw [Sql.bind_of_error hlookup]
    simp [Conn.fresh]
  | none =>
    have hlookup : lookupDigest none (sha256Hex u.data) (Conn.fresh c.committed c.outside) =
        (.ok (c.committed.documentBySha? (sha256Hex u.data)), Conn.fresh c.committed c.outside) :=
      lookupDigest_eq_ok.mpr ⟨rfl, rfl, rfl, rfl⟩
    rw [Sql.bind_of_ok hlookup]
    cases hrow : c.committed.documentBySha? (sha256Hex u.data) with
    | none =>
      obtain ⟨raised, hrun⟩ := @discardOn_eq disk IngestResponse (u.path sha256Hex) (httpException 500 "ingestion failed")
        (Conn.fresh c.committed c.outside)
      simp only [hrun]
      simp [Conn.fresh]
    | some e =>
      have hmark : (execute none (fun db => .ok ((), db.recordFailure e.id exc)) : IngestTx Unit)
          (Conn.fresh c.committed c.outside) =
            (.ok (), ⟨c.committed, c.committed.recordFailure e.id exc, .live, c.outside⟩) := Sql.statement_of_ok rfl rfl
      have hfound : c.committed.documentBySha? (sha256Hex u.data) ≠ none := by simp [hrow]
      constructor
      · intro h
        cases h
      · intro _
        simp only [Sql.bind_of_ok hmark]
        rw [(Sql.commit_pure sessionRefusal faults.failureCommit _ _).1, Sql.commit_committed]
        split
        · exact recordFailure_found hfound
        · exact hfound

theorem writeBlob_new {data : Bytes} {path : BlobPath} :
    (∀ p, blobs p = none → writeBlob data path blobs p = none) ↔ blobs path ≠ none := by
  constructor
  · intro h hnone
    obtain ⟨b, hb⟩ := writeBlob_exists data path blobs
    rw [h path hnone] at hb
    cases hb
  · intro hexisted p hp
    cases hpath : blobs path with
    | none => exact absurd hpath hexisted
    | some b => simpa [writeBlob, hpath] using hp

theorem deleteBlob_new {data : Bytes} {path : BlobPath} (p : BlobPath) (hp : blobs p = none) :
    deleteBlob path (writeBlob data path blobs) p = none := by
  by_cases hsame : p = path
  · simp [deleteBlob, hsame]
  · rw [deleteBlob_ne hsame]
    unfold writeBlob
    cases blobs path with
    | none => simpa [hsame] using hp
    | some b => exact hp

/-- With no row of the digest, what counts is the file: it was there before, or it is deleted. -/
theorem leavesNothing_iff {digest : String} {data : Bytes} {path : BlobPath} {deleted : Prop} [Decidable deleted]
    (hrow : c.committed.documentBySha? digest = none)
    (hfile : c.outside = if deleted then deleteBlob path (writeBlob data path blobs) else writeBlob data path blobs) :
    LeavesNothing digest blobs c ↔ blobs path ≠ none ∨ deleted := by
  constructor
  · intro h
    by_cases hdeleted : deleted
    · exact Or.inr hdeleted
    · rw [if_neg hdeleted] at hfile
      left
      rw [← @writeBlob_new blobs data path, ← hfile]
      exact h.files
  · intro h
    refine ⟨selectOne_eq_none.mp hrow, ?_⟩
    rw [hfile]
    split
    · exact deleteBlob_new
    · rename_i hkept
      exact writeBlob_new.mpr (h.resolve_right hkept)

theorem leavesNothing_found {digest : String} (hrow : c.committed.documentBySha? digest ≠ none) :
    ¬ LeavesNothing digest blobs c := fun h => hrow (selectOne_eq_none.mpr h.row)

theorem tryCatch_leavesNothing (halone : faults.others = id) (hnew : db.document? work.doc.id = none)
    (hnone : db.documentBySha? (sha256Hex u.data) = none) (hsha : work.doc.sha256 = sha256Hex u.data)
    (hc : c = ⟨db, { db with documents := db.documents ++ [work.doc] }, .live, writeBlob u.data (u.path sha256Hex) blobs⟩)
    {exc : PyError}
    (hraises : (Sql.tryCatch PyError.isException (ingestTry settings faults work) (ingestExceptOn sha256Hex disk faults u) c).1 =
      .error exc) :
    LeavesNothing (sha256Hex u.data) blobs
        (Sql.tryCatch PyError.isException (ingestTry settings faults work) (ingestExceptOn sha256Hex disk faults u) c).2 ↔
      CleanTry settings disk faults (blobs (u.path sha256Hex) ≠ none) work db.confirmedRules := by
  have hrules : c.view.confirmedRules = db.confirmedRules := by rw [hc]; rfl
  have hlive : c.state = .live := by rw [hc]
  obtain ⟨houtside, hlands, hlost⟩ := @ingestTry_row settings faults work db _ c hnew hc
  rw [hsha] at hlands
  unfold Sql.tryCatch at hraises ⊢
  unfold CleanTry
  cases htry : ingestTry settings faults work c with
  | mk r c' =>
    rw [htry] at houtside hlands hlost hraises
    cases r with
    | ok resp => cases hraises
    | error raised =>
      have herror : tryError settings faults work db.confirmedRules = some raised := by
        rw [← hrules, ← @ingestTry_error settings faults c hlive work raised, htry]
      obtain ⟨hhandled, hkept⟩ := @ingestExceptOn_ends sha256Hex disk faults halone u raised c'
      simp only at houtside hlands hlost ⊢
      by_cases hrow : RowLands settings faults work db.confirmedRules
      · simp only [hrow, not_true, false_and, iff_false]
        split
        · exact leavesNothing_found (hkept (hlands hrow))
        · exact leavesNothing_found (hlands hrow)
      · have hdb : c'.committed.documentBySha? (sha256Hex u.data) = none := by rw [hlost hrow, hnone]
        simp only [hrow, not_false_eq_true, true_and, herror, Option.some.injEq, exists_eq_left']
        by_cases hcaught : raised.isException = true
        · obtain ⟨hcommitted, hfile⟩ := hhandled hdb
          simp only [hcaught, ↓reduceIte, true_and]
          rw [houtside] at hfile
          rw [← hcommitted] at hdb
          exact leavesNothing_iff hdb hfile
        · simp only [hcaught, Bool.false_eq_true, ↓reduceIte, false_and]
          refine @leavesNothing_iff blobs c' _ u.data _ False _ hdb ?_
          simp [houtside]

theorem opening_leavesNothing {failed : PyError}
    (hopen : openIngestOn sha256Hex settings disk faults u parsed (Conn.fresh db blobs) = (.error failed, c'))
    (hcommitted : c'.committed = db) :
    LeavesNothing (sha256Hex u.data) blobs
        (ingestSessionOn sha256Hex settings disk faults u parsed (Conn.fresh db blobs)).2 ↔
      db.documentBySha? (sha256Hex u.data) = none ∧ ∀ p, blobs p = none → c'.outside p = none := by
  unfold ingestSessionOn
  rw [Sql.bind_of_error hopen, ← hcommitted]
  constructor
  · intro h
    exact ⟨selectOne_eq_none.mpr h.row, h.files⟩
  · intro h
    exact ⟨selectOne_eq_none.mp h.1, h.2⟩

theorem stay_leavesNothing (hnone : db.documentBySha? (sha256Hex u.data) = none) {failed : PyError}
    (hopen : openIngestOn sha256Hex settings disk faults u parsed (Conn.fresh db blobs) = (.error failed, c'))
    (hcommitted : c'.committed = db) (houtside : c'.outside = writeBlob u.data (u.path sha256Hex) blobs) :
    LeavesNothing (sha256Hex u.data) blobs
        (ingestSessionOn sha256Hex settings disk faults u parsed (Conn.fresh db blobs)).2 ↔
      blobs (u.path sha256Hex) ≠ none := by
  rw [opening_leavesNothing hopen hcommitted, houtside, writeBlob_new]
  exact and_iff_right hnone

theorem discard_leavesNothing (hnone : db.documentBySha? (sha256Hex u.data) = none) {failed : PyError}
    (hopen : openIngestOn sha256Hex settings disk faults u parsed (Conn.fresh db blobs) =
      discardOn disk (u.path sha256Hex) failed ⟨db, db, .live, writeBlob u.data (u.path sha256Hex) blobs⟩) :
    LeavesNothing (sha256Hex u.data) blobs
        (ingestSessionOn sha256Hex settings disk faults u parsed (Conn.fresh db blobs)).2 ↔
      blobs (u.path sha256Hex) ≠ none ∨ disk.delete = none := by
  obtain ⟨raised, hrun⟩ := @discardOn_eq disk (IngestResponse ⊕ FlushedIngest) (u.path sha256Hex) failed
    ⟨db, db, .live, writeBlob u.data (u.path sha256Hex) blobs⟩
  unfold ingestSessionOn
  rw [Sql.bind_of_error (hopen.trans hrun)]
  apply leavesNothing_iff
  · exact hnone
  · rfl

theorem written_leavesNothing (halone : faults.others = id) (hnone : db.documentBySha? (sha256Hex u.data) = none)
    (hlookup : faults.lookup = none) (hparsed : ∀ detail, parsed ≠ .refused detail)
    (hwrite : writeBlobOn disk u.data (u.path sha256Hex) (Conn.fresh db blobs) =
      (.ok (), ⟨db, db, .live, writeBlob u.data (u.path sha256Hex) blobs⟩)) {exc : PyError}
    (hraises : (ingestSessionOn sha256Hex settings disk faults u parsed (Conn.fresh db blobs)).1 = .error exc) :
    LeavesNothing (sha256Hex u.data) blobs
        (ingestSessionOn sha256Hex settings disk faults u parsed (Conn.fresh db blobs)).2 ↔
      CleanWritten sha256Hex settings disk faults u (blobs (u.path sha256Hex) ≠ none) db parsed := by
  have hnew : lookupDigest faults.lookup (sha256Hex u.data) (Conn.fresh db blobs) = (.ok none, Conn.fresh db blobs) :=
    lookupDigest_eq_ok.mpr ⟨rfl, hlookup, hnone.symm, rfl⟩
  cases parsed with
  | refused detail => exact absurd rfl (hparsed detail)
  | raised failed => exact discard_leavesNothing hnone ((Sql.bind_of_ok hnew).trans (Sql.bind_of_ok hwrite))
  | imageUnreadable => exact discard_leavesNothing hnone ((Sql.bind_of_ok hnew).trans (Sql.bind_of_ok hwrite))
  | reraised failed => exact stay_leavesNothing hnone ((Sql.bind_of_ok hnew).trans (Sql.bind_of_ok hwrite)) rfl rfl
  | contents id mime prose tables =>
    have hopen : openIngestOn sha256Hex settings disk faults u (.contents id mime prose tables) (Conn.fresh db blobs) =
        (if prose.isEmpty && tables.isEmpty then
          discardOn disk (u.path sha256Hex) (httpException 422 "no extractable text found (scanned image PDF or empty file?)")
        else if settings.maxChunksPerDocument < prose.length then
          discardOn disk (u.path sha256Hex)
            (httpException 413 ("document produced more than " ++ toString settings.maxChunksPerDocument ++ " chunks"))
        else flushDocument faults ⟨u.document sha256Hex id mime, prose, tables⟩)
          ⟨db, db, .live, writeBlob u.data (u.path sha256Hex) blobs⟩ := by
      unfold openIngestOn
      rw [Sql.bind_of_ok hnew]
      exact Sql.bind_of_ok hwrite
    simp only [CleanWritten]
    by_cases hempty : prose = [] ∧ tables = []
    · rw [if_pos (Or.inl hempty)]
      obtain ⟨rfl, rfl⟩ := hempty
      exact discard_leavesNothing hnone hopen
    · have hcontent : (prose.isEmpty && tables.isEmpty) = false := by simpa using hempty
      simp only [hcontent, Bool.false_eq_true, ↓reduceIte] at hopen
      by_cases hmany : settings.maxChunksPerDocument < prose.length
      · simp only [hmany, or_true, ↓reduceIte] at hopen ⊢
        exact discard_leavesNothing hnone hopen
      · simp only [hempty, hmany, or_self, ↓reduceIte] at hopen ⊢
        rcases flushDocument_ends faults ⟨u.document sha256Hex id mime, prose, tables⟩
          (writeBlob u.data (u.path sha256Hex) blobs) hnone with hflushed | hfailed
        · obtain ⟨⟨hflush, hid⟩, hrun⟩ := hflushed
          have hid : db.document? id = none := hid
          have hsession : ingestSessionOn sha256Hex settings disk faults u (.contents id mime prose tables) (Conn.fresh db blobs) =
              Sql.tryCatch PyError.isException (ingestTry settings faults ⟨u.document sha256Hex id mime, prose, tables⟩)
                (ingestExceptOn sha256Hex disk faults u)
                ⟨db, { db with documents := db.documents ++ [u.document sha256Hex id mime] }, .live,
                  writeBlob u.data (u.path sha256Hex) blobs⟩ := Sql.bind_of_ok (hopen.trans hrun)
          rw [hsession] at hraises ⊢
          simp only [hflush, hid, Option.isSome_none, Bool.false_eq_true, or_self, ↓reduceIte]
          exact tryCatch_leavesNothing halone hid hnone rfl rfl hraises
        · obtain ⟨hfault, failed, c', hrun, hcommitted, houtside⟩ := hfailed
          have hfault : faults.flush.isSome ∨ (db.document? id).isSome := by
            rw [not_and_or] at hfault
            simpa [Option.isSome_iff_ne_none, Upload.document] using hfault
          rw [if_pos hfault]
          exact stay_leavesNothing hnone (hopen.trans hrun) hcommitted houtside

theorem writeBlobOn_mkdir {failed : PyError} (hmkdir : disk.mkdir = some failed) (data : Bytes) (path : BlobPath)
    (c : Conn Db Blobs) : writeBlobOn disk data path c = (.error failed, c) := by
  unfold writeBlobOn
  rw [hmkdir]
  rfl

theorem writeBlobOn_broken {failed : PyError} {written : Option Bytes} {path : BlobPath} (hmkdir : disk.mkdir = none)
    (hfault : disk.write = some (failed, written)) (hpath : blobs path = none) (data : Bytes) :
    writeBlobOn disk data path (Conn.fresh db blobs) = (.error failed,
      { Conn.fresh db blobs with outside := written.elim blobs fun part => writeBlob part path blobs }) := by
  simp [writeBlobOn, hmkdir, hfault, Conn.fresh, hpath]

theorem writeBlobOn_written {path : BlobPath} (hmkdir : disk.mkdir = none)
    (hwrites : ¬ (blobs path = none ∧ disk.write.isSome = true)) (data : Bytes) :
    writeBlobOn disk data path (Conn.fresh db blobs) = (.ok (), ⟨db, db, .live, writeBlob data path blobs⟩) := by
  unfold writeBlobOn
  rw [hmkdir]
  cases hfault : disk.write with
  | none => rfl
  | some failure =>
    cases hpath : blobs path with
    | none => simp [hpath, hfault] at hwrites
    | some b => simp [Conn.fresh, writeBlob, hpath]

theorem unwritten_leavesNothing (hnone : db.documentBySha? (sha256Hex u.data) = none) (hlookup : faults.lookup = none)
    (hparsed : ∀ detail, parsed ≠ .refused detail) {failed : PyError} {left : Blobs}
    (hwrite : writeBlobOn disk u.data (u.path sha256Hex) (Conn.fresh db blobs) =
      (.error failed, { Conn.fresh db blobs with outside := left })) :
    LeavesNothing (sha256Hex u.data) blobs
        (ingestSessionOn sha256Hex settings disk faults u parsed (Conn.fresh db blobs)).2 ↔
      ∀ p, blobs p = none → left p = none := by
  have hnew : lookupDigest faults.lookup (sha256Hex u.data) (Conn.fresh db blobs) = (.ok none, Conn.fresh db blobs) :=
    lookupDigest_eq_ok.mpr ⟨rfl, hlookup, hnone.symm, rfl⟩
  have hopen : openIngestOn sha256Hex settings disk faults u parsed (Conn.fresh db blobs) =
      (.error failed, { Conn.fresh db blobs with outside := left }) := by
    unfold openIngestOn
    rw [Sql.bind_of_ok hnew]
    cases parsed with
    | refused detail => exact absurd rfl (hparsed detail)
    | raised exc => exact Sql.bind_of_error hwrite
    | imageUnreadable => exact Sql.bind_of_error hwrite
    | reraised exc => exact Sql.bind_of_error hwrite
    | contents id mime prose tables => exact Sql.bind_of_error hwrite
  rw [opening_leavesNothing hopen rfl]
  exact and_iff_right hnone

/-- A call that runs alone and raises leaves nothing exactly on its clean exits. -/
theorem raised_ingest_leaves_nothing_iff (halone : faults.others = id) {exc : PyError}
    (hraises : (ingestSessionOn sha256Hex settings disk faults u parsed (Conn.fresh db blobs)).1 = .error exc) :
    LeavesNothing (sha256Hex u.data) blobs
        (ingestSessionOn sha256Hex settings disk faults u parsed (Conn.fresh db blobs)).2 ↔
      CleanExit sha256Hex settings disk faults u parsed db blobs := by
  unfold CleanExit
  cases hlookup : faults.lookup with
  | some failed =>
    have hopen : openIngestOn sha256Hex settings disk faults u parsed (Conn.fresh db blobs) =
        (.error failed, { Conn.fresh db blobs with state := .aborted }) := by
      unfold openIngestOn
      rw [hlookup]
      rfl
    rw [opening_leavesNothing hopen rfl]
    exact and_iff_left fun p hp => hp
  | none =>
    cases hrow : db.documentBySha? (sha256Hex u.data) with
    | some e =>
      have hfound : lookupDigest faults.lookup (sha256Hex u.data) (Conn.fresh db blobs) = (.ok (some e), Conn.fresh db blobs) :=
        lookupDigest_eq_ok.mpr ⟨rfl, hlookup, hrow.symm, rfl⟩
      have hopen : openIngestOn sha256Hex settings disk faults u parsed (Conn.fresh db blobs) =
          (.ok (.inl ⟨e.id, e.status, some e.id⟩), Conn.fresh db blobs) := Sql.bind_of_ok hfound
      unfold ingestSessionOn at hraises
      rw [Sql.bind_of_ok hopen] at hraises
      cases hraises
    | none =>
      by_cases hrefused : ∃ detail, parsed = .refused detail
      · obtain ⟨detail, rfl⟩ := hrefused
        have hopen : openIngestOn sha256Hex settings disk faults u (.refused detail) (Conn.fresh db blobs) =
            (.error (httpException 400 detail), Conn.fresh db blobs) := by
          unfold openIngestOn
          rw [Sql.bind_of_ok (lookupDigest_eq_ok.mpr ⟨rfl, hlookup, hrow.symm, rfl⟩)]
          rfl
        rw [opening_leavesNothing hopen rfl]
        simp only [Parsed.refused.injEq, exists_eq', true_or, iff_true]
        exact ⟨hrow, fun p hp => hp⟩
      · have hparsed : ∀ detail, parsed ≠ .refused detail := by simpa using hrefused
        simp only [hrefused, false_or]
        cases hmkdir : disk.mkdir with
        | some failed =>
          rw [unwritten_leavesNothing hrow hlookup hparsed (writeBlobOn_mkdir hmkdir _ _ _)]
          simp
        | none =>
          by_cases hwrites : blobs (u.path sha256Hex) = none ∧ disk.write.isSome = true
          · obtain ⟨hpath, hsome⟩ := hwrites
            obtain ⟨⟨failed, written⟩, hfault⟩ := Option.isSome_iff_exists.mp hsome
            rw [unwritten_leavesNothing hrow hlookup hparsed (writeBlobOn_broken hmkdir hfault hpath u.data)]
            cases written with
            | none => simp [hfault, hpath]
            | some part => simp [hfault, hpath, writeBlob_new]
          · have hwrite := @writeBlobOn_written disk db blobs (u.path sha256Hex) hmkdir hwrites u.data
            simp only [hwrites, ↓reduceIte, Option.isSome_none, Bool.false_eq_true, false_or]
            exact written_leavesNothing halone hrow hlookup hparsed hwrite hraises

/-- An embedding that times out: the handler deletes the file. -/
theorem timeout_leaves_nothing :
    LeavesNothing (pngDigest pngUpload.data) (fun _ => none)
        (ingestSessionOn pngDigest {} ⟨none, none, none⟩ timedOutFaults pngUpload pngPassage
          (Conn.fresh Db.empty fun _ => none)).2 ↔
      CleanExit pngDigest {} ⟨none, none, none⟩ timedOutFaults pngUpload pngPassage Db.empty fun _ => none :=
  raised_ingest_leaves_nothing_iff rfl (rfl : (ingestSessionOn pngDigest {} ⟨none, none, none⟩ timedOutFaults pngUpload
    pngPassage (Conn.fresh Db.empty fun _ => none)).1 = .error (httpException 500 "ingestion failed"))

/-- The flush of the row meets a lost connection. -/
def unflushedFaults : IngestFaults :=
  { timedOutFaults with flush := some ⟨"DBAPIError", "connection was closed in the middle of operation"⟩ }

/-- A flush that fails with something else than an `IntegrityError` leaves the file. -/
theorem failed_flush_leaves_file :
    (ingestSessionOn pngDigest {} ⟨none, none, none⟩ unflushedFaults pngUpload pngPassage
        (Conn.fresh Db.empty fun _ => none)).1 =
      .error ⟨"DBAPIError", "connection was closed in the middle of operation"⟩ ∧
    (ingestSessionOn pngDigest {} ⟨none, none, none⟩ unflushedFaults pngUpload pngPassage
        (Conn.fresh Db.empty fun _ => none)).2.outside (pngUpload.path pngDigest) = some pngUpload.data ∧
    ¬ LeavesNothing (pngDigest pngUpload.data) (fun _ => none)
      (ingestSessionOn pngDigest {} ⟨none, none, none⟩ unflushedFaults pngUpload pngPassage
        (Conn.fresh Db.empty fun _ => none)).2 := by
  have hfile : (ingestSessionOn pngDigest {} ⟨none, none, none⟩ unflushedFaults pngUpload pngPassage
      (Conn.fresh Db.empty fun _ => none)).2.outside (pngUpload.path pngDigest) = some pngUpload.data := by decide
  refine ⟨rfl, hfile, ?_⟩
  intro h
  have hgone := h.files (pngUpload.path pngDigest) rfl
  rw [hfile] at hgone
  cases hgone

end ProRag
