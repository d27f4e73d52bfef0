import ProRag.Ingest.Ending

/-!
# A failed rule check and the ingest that triggered it

`_apply_confirmed_rules` catches what it raises, but the transaction in which a statement has failed is
the one that holds the document: its COMMIT stores nothing, and the caller is told `ready`.
-/

namespace ProRag

open Framework

/-- The call answers `ready`, and the document and its chunks are committed. -/
structure EndsReady (doc : Document) (chunks : List Chunk) (db : Db)
    (run : Except PyError IngestResponse × Conn Db Blobs) : Prop where
  answer : run.1 = .ok ⟨doc.id, .ready, none⟩
  documents : run.2.committed.documents = db.documents ++ [{ doc with status := .ready }]
  chunks : run.2.committed.chunks = db.chunks ++ chunks

variable {sha256Hex : Bytes → String} {settings : Settings} {faults : IngestFaults} {u : Upload} {id : Uuid}
  {mime : String} {prose chunks : List Chunk} {tables : List ParsedTable} {embeddings : List Embedding} {db : Db}
  {blobs : Blobs}

theorem ingestExcept_failed {exc : PyError} {resp : IngestResponse} {c : Conn Db Blobs}
    (h : (ingestExcept sha256Hex faults u exc c).1 = .ok resp) : resp.status = .failed := by
  obtain ⟨_, c1, _, h⟩ := Sql.bind_eq_ok.mp (Prod.ext h rfl)
  obtain ⟨_, c2, _, h⟩ := Sql.bind_eq_ok.mp h
  obtain ⟨row, c3, _, h⟩ := Sql.bind_eq_ok.mp h
  cases row with
  | none =>
    obtain ⟨_, c4, _, h⟩ := Sql.bind_eq_ok.mp h
    cases h
  | some e =>
    obtain ⟨_, c4, _, h⟩ := Sql.bind_eq_ok.mp h
    obtain ⟨_, c5, _, h⟩ := Sql.bind_eq_ok.mp h
    cases h
    rfl

theorem ingestTry_of_ready {work : FlushedIngest} {flushed : Conn Db Blobs}
    (hopen : openIngest sha256Hex settings faults u (.contents id mime prose tables) (Conn.fresh db blobs) =
      (.ok (.inr work), flushed))
    (h : (ingestSession sha256Hex settings faults u (.contents id mime prose tables) (Conn.fresh db blobs)).1 =
      .ok ⟨id, .ready, none⟩) :
    ingestSession sha256Hex settings faults u (.contents id mime prose tables) (Conn.fresh db blobs) =
      ingestTry settings faults work flushed := by
  cases htry : ingestTry settings faults work flushed with
  | mk r c =>
    cases r with
    | ok resp => exact ingestSession_ok hopen htry
    | error exc =>
      rw [ingestSession_error hopen htry] at h
      by_cases hexc : exc.isException = true
      · rw [if_pos hexc] at h
        cases ingestExcept_failed h
      · rw [if_neg hexc] at h
        cases h

theorem EndsReady.of_runs (h : OnlyRuleFaults faults) (hcontent : prose ≠ [] ∨ tables ≠ [])
    (hsize : prose.length ≤ settings.maxChunksPerDocument) (hsha : db.documentBySha? (sha256Hex u.data) = none)
    (hid : db.document? id = none) (hembedded : faults.embedded = .ok embeddings)
    (hchunks : newChunks id prose (tables.flatMap ParsedTable.chunks) embeddings = .ok chunks)
    (hruns : RuleCheckRuns settings faults chunks db.confirmedRules) :
    EndsReady (u.document sha256Hex id mime) chunks db
      (ingestSession sha256Hex settings faults u (.contents id mime prose tables) (Conn.fresh db blobs)) := by
  obtain ⟨c, hrun, hcommitted⟩ := @ingestSession_stored sha256Hex settings faults h u id mime prose chunks tables
    embeddings db blobs hcontent hsize hsha hid hruns hembedded hchunks
  have hsame : (chunks.map fun ch => { ch with docId := id }) = chunks := by
    refine (List.map_congr_left fun ch hch => ?_).trans (List.map_id _)
    rw [← newChunks_docId hchunks ch hch]
    rfl
  rw [hrun]
  constructor
  · rfl
  · rw [hcommitted, applyConfirmedRules_frame]
    rfl
  · rw [hcommitted, applyConfirmedRules_frame]
    exact congrArg (db.chunks ++ ·) hsame

/-- An ingest is not failed by its rule check exactly when no statement of the check fails in the server. -/
theorem ruleCheck_harmless_iff (h : OnlyRuleFaults faults) (hcontent : prose ≠ [] ∨ tables ≠ [])
    (hsize : prose.length ≤ settings.maxChunksPerDocument) (hsha : db.documentBySha? (sha256Hex u.data) = none)
    (hid : db.document? id = none) (hembedded : faults.embedded = .ok embeddings)
    (hchunks : newChunks id prose (tables.flatMap ParsedTable.chunks) embeddings = .ok chunks) :
    EndsReady (u.document sha256Hex id mime) chunks db
        (ingestSession sha256Hex settings faults u (.contents id mime prose tables) (Conn.fresh db blobs)) ↔
      RuleCheckRuns settings faults chunks db.confirmedRules := by
  constructor
  · intro hready
    have hopen := @openIngest_new sha256Hex settings faults h u id mime prose tables db blobs hcontent hsize hsha hid
    have hdocs := hready.documents
    rw [ingestTry_of_ready hopen hready.answer] at hdocs
    rcases (ingestTry_ends settings faults ⟨u.document sha256Hex id mime, prose, tables⟩
      ⟨db, { db with documents := db.documents ++ [u.document sha256Hex id mime] }, .live,
        writeBlob u.data (u.path sha256Hex) blobs⟩).1 with hstored | hlost
    · obtain ⟨c1, hstore, hlive, _⟩ := hstored
      obtain ⟨embeddings', chunks', hembedded', hchunks', hruns, _⟩ := storeContents_stored hstore hlive
      obtain rfl : embeddings = embeddings' := Except.ok.inj (hembedded.symm.trans hembedded')
      obtain rfl : chunks = chunks' := Except.ok.inj (hchunks.symm.trans hchunks')
      exact hruns
    · rw [hlost.2] at hdocs
      simp at hdocs
  · exact EndsReady.of_runs h hcontent hsize hsha hid hembedded hchunks

/-- An upload of one passage whose embedding is at hand. -/
def embeddedFaults : IngestFaults :=
  { timedOutFaults with embedded := .ok [[1]] }

def stairsRule (query : Embedding) : AccessRule :=
  ⟨4, "Stairs", "where are the exits?", 7, .confirmed, some query, none⟩

/-- The rule was embedded in two dimensions. -/
theorem ruleCheck_harmless_mismatch :
    EndsReady (pngUpload.document pngDigest 9 "image/png")
      [⟨1, 9, 0, .prose, "Exits are on every floor.", some 1, none, none, [1], "Exits are on every floor."⟩]
      { Db.empty with accessRules := [stairsRule [1, 0]] }
      (ingestSession pngDigest {} embeddedFaults pngUpload pngPassage
        (Conn.fresh { Db.empty with accessRules := [stairsRule [1, 0]] } fun _ => none)) :=
  (@ruleCheck_harmless_iff pngDigest {} embeddedFaults pngUpload 9 "image/png"
    [⟨1, 0, 0, .prose, "Exits are on every floor.", some 1, none, none, [], "Exits are on every floor."⟩] _ [] [[1]] _ _ ⟨rfl, rfl, fun _ => rfl, rfl⟩
    (Or.inl (by simp)) (by decide) rfl rfl rfl rfl).mpr ⟨rfl, rfl, fun _ _ => rfl⟩

def selectFaults : IngestFaults :=
  { embeddedFaults with rules := some ⟨"DBAPIError", "QueryCanceledError"⟩ }

def insertFaults : IngestFaults :=
  { embeddedFaults with grant := fun _ => some ⟨"DBAPIError", "QueryCanceledError"⟩ }

def ruledDb : Db :=
  { Db.empty with accessRules := [stairsRule [1]] }

/-- The SELECT fails, or the INSERT for the one rule that matches. -/
theorem ruleCheck_loses_document :
    (ingestSession pngDigest {} selectFaults pngUpload pngPassage (Conn.fresh ruledDb fun _ => none)).1 =
        .ok ⟨9, .ready, none⟩ ∧
      (ingestSession pngDigest {} selectFaults pngUpload pngPassage (Conn.fresh ruledDb fun _ => none)).2.committed.documents =
        [] ∧
      (ingestSession pngDigest {} insertFaults pngUpload pngPassage (Conn.fresh ruledDb fun _ => none)).1 =
        .ok ⟨9, .ready, none⟩ ∧
      (ingestSession pngDigest {} insertFaults pngUpload pngPassage (Conn.fresh ruledDb fun _ => none)).2.committed.documents =
        [] := by
  refine ⟨rfl, rfl, ?_, ?_⟩
  · decide +kernel
  · decide +kernel

end ProRag
