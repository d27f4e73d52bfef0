import ProRag.Ingest.Alignment

/-!
# The ceiling on the chunks of a document

The check counts the chunks of prose; the artifacts of the tables are built behind it.
-/

namespace ProRag

open Framework

variable (floats : FloatText)

/-- How many chunks a table becomes: its summary, and its rows or their windows. -/
def TableRecords.chunkCount (t : TableRecords) : Nat :=
  1 + if wideTableColumns < t.columns.length then t.rows.length else (t.rows.length + defaultWindowSize - 1) / defaultWindowSize

def tableChunkCount : List TableRecords → Nat
  | [] => 0
  | t :: ts => t.chunkCount + tableChunkCount ts

/-- How many chunks a file becomes. -/
def ParsedFile.chunkCount (file : ParsedFile) : Nat := file.prose.length + tableChunkCount file.tables

/-- What `POST /ingest` meets up to the flush of the row. -/
def openingOf (r : Except PyError (IngestResponse ⊕ FlushedIngest)) : Except PyError (Option IngestResponse) :=
  r >>= fun opened => match opened with
    | .inl resp => .ok (some resp)
    | .inr _ => .ok none

/-- The 413 of `ingest_bytes`. -/
def tooManyChunks (settings : Settings) : PyError :=
  httpException 413 ("document produced more than " ++ toString settings.maxChunksPerDocument ++ " chunks")

/-- A document that becomes ready has at most as many chunks as allowed, and a new file that has more is refused
with 413, without a call of the embedding provider. -/
structure CeilingKept (sha256Hex : Bytes → String) (settings : Settings) (floats : FloatText) (file : ParsedFile) :
    Prop where
  ready : ∀ (faults : IngestFaults) (keys : RowKeys) (u : Upload) (docId : Uuid) (mime : String) (db : Db) (blobs : Blobs)
    (resp : IngestResponse) (c : Conn Db Blobs),
    ingestSession sha256Hex settings faults u (file.contents floats keys docId mime) (Conn.fresh db blobs) = (.ok resp, c) →
    resp.status = .ready → resp.duplicateOf = none →
    c.committed.chunks.length ≤ db.chunks.length + settings.maxChunksPerDocument
  refused : settings.maxChunksPerDocument < file.chunkCount →
    ∀ (faults : IngestFaults) (keys : RowKeys) (u : Upload) (docId : Uuid) (mime : String) (db : Db) (blobs : Blobs),
    faults.lookup = none → db.documentBySha? (sha256Hex u.data) = none →
    (openIngest sha256Hex settings faults u (file.contents floats keys docId mime) (Conn.fresh db blobs)).1 =
      .error (tooManyChunks settings) ∧
    ∀ (completionCost : CompletionCost) (env : IngestEnv),
      env.opening = openingOf (openIngest sha256Hex settings faults u (file.contents floats keys docId mime)
        (Conn.fresh db blobs)).1 →
      ∀ uow, ingestUpload settings completionCost env uow = (.error (tooManyChunks settings), uow)

variable {floats} {file : ParsedFile}

theorem artifacts_length (t : TableRecords) : (t.artifacts floats).length = t.chunkCount := by
  rw [TableRecords.artifacts, buildTableArtifacts, List.length_cons, TableRecords.chunkCount, Nat.add_comm]
  congr 1
  by_cases hwide : wideTableColumns < t.columns.length
  · rw [if_pos (isWideTable_iff.mpr hwide), if_pos hwide]
    simp [buildRowKvChunks]
  · rw [if_neg (mt isWideTable_iff.mp hwide), if_neg hwide]
    simp [buildRowWindows, windowStarts]

theorem ParsedFile.artifacts_length (file : ParsedFile) : (file.artifacts floats).length = tableChunkCount file.tables := by
  have hall : ∀ ts : List TableRecords, (ts.flatMap fun t => t.artifacts floats).length = tableChunkCount ts := by
    intro ts
    induction ts with
    | nil => rfl
    | cons t ts ih => rw [List.flatMap_cons, List.length_append, ProRag.artifacts_length, ih, tableChunkCount]
  exact hall file.tables

theorem tables_of_count (h : 0 < file.chunkCount) (keys : RowKeys) (docId : Uuid) :
    file.proseRows keys docId ≠ [] ∨ file.tableRows floats keys docId ≠ [] := by
  by_cases hprose : file.proseRows keys docId = []
  · right
    intro htables
    have hnoprose : file.prose.length = 0 := by
      rw [← @proseRows_length file keys docId, hprose]
      rfl
    have hnotables : file.tables = [] := by
      have hlength := congrArg List.length htables
      simpa [ParsedFile.tableRows] using hlength
    simp [ParsedFile.chunkCount, hnoprose, hnotables, tableChunkCount] at h
  · exact .inl hprose

theorem contents_length {keys : RowKeys} {docId : Uuid} {embeddings : List Embedding} {chunks : List Chunk}
    (h : newChunks docId (file.proseRows keys docId) ((file.tableRows floats keys docId).flatMap ParsedTable.chunks)
      embeddings = .ok chunks) : chunks.length = file.chunkCount := by
  rw [newChunks_length h, proseRows_length, tableRows_length, ParsedFile.artifacts_length, ParsedFile.chunkCount]

theorem ingestUpload_of_error {settings : Settings} {completionCost : CompletionCost} {env : IngestEnv} {exc : PyError}
    (h : env.opening = .error exc) (uow : Uow Usage RequestEvent) :
    ingestUpload settings completionCost env uow = (.error exc, uow) := by
  unfold ingestUpload
  rw [h]
  rfl

variable {sha256Hex : Bytes → String} {settings : Settings}

theorem openIngest_refuses {faults : IngestFaults} {u : Upload} {docId : Uuid} {mime : String} {prose : List Chunk}
    {tables : List ParsedTable} {db : Db} {blobs : Blobs} (hlookup : faults.lookup = none)
    (hnone : db.documentBySha? (sha256Hex u.data) = none) (hsize : settings.maxChunksPerDocument < prose.length) :
    (openIngest sha256Hex settings faults u (.contents docId mime prose tables) (Conn.fresh db blobs)).1 =
      .error (tooManyChunks settings) := by
  have hselect : lookupDigest faults.lookup (sha256Hex u.data) (Conn.fresh db blobs) = (.ok none, Conn.fresh db blobs) :=
    lookupDigest_eq_ok.mpr ⟨rfl, hlookup, hnone.symm, rfl⟩
  have hprose : prose.isEmpty = false := by
    cases prose with
    | nil => exact absurd hsize (Nat.not_lt_zero _)
    | cons c prose => rfl
  unfold openIngest
  rw [Sql.bind_of_ok hselect]
  simp only [hprose, hsize]
  rfl

/-- The ceiling holds exactly where the prose alone is above it, or the prose and the tables together are not. -/
theorem ceiling_kept_iff (sha256Hex : Bytes → String) (settings : Settings) (floats : FloatText) (file : ParsedFile) :
    CeilingKept sha256Hex settings floats file ↔
      settings.maxChunksPerDocument < file.prose.length ∨ file.chunkCount ≤ settings.maxChunksPerDocument := by
  constructor
  · intro h
    by_contra hover
    obtain ⟨hprose, hcount⟩ := not_or.mp hover
    have hopen := @openIngest_new sha256Hex settings timedOutFaults ⟨rfl, rfl, fun _ => rfl, rfl⟩ pngUpload 9 "text/csv"
      (file.proseRows ⟨id, id, id, id⟩ 9) (file.tableRows floats ⟨id, id, id, id⟩ 9) Db.empty (fun _ => none)
      (tables_of_count (by omega) _ 9) (by rw [proseRows_length]; omega) rfl rfl
    have hrefused := (h.refused (by omega) timedOutFaults ⟨id, id, id, id⟩ pngUpload 9 "text/csv" Db.empty (fun _ => none) rfl
      rfl).1
    rw [ParsedFile.contents, hopen] at hrefused
    cases hrefused
  · intro h
    constructor
    · intro faults keys u docId mime db blobs resp c hrun hstatus hnew
      obtain ⟨hprose, hstored⟩ := ready_stored hrun hstatus hnew
      rw [proseRows_length] at hprose
      rcases hstored with hlost | ⟨embeddings, chunks, _, hchunks, _, hcommitted⟩
      · rw [hlost]
        omega
      · have hcount := h.resolve_left (by omega)
        have hlength := contents_length hchunks
        rw [hcommitted, applyConfirmedRules_frame]
        change (db.chunks ++ chunks).length ≤ _
        rw [List.length_append]
        omega
    · intro hover faults keys u docId mime db blobs hlookup hnone
      have hsize : settings.maxChunksPerDocument < (file.proseRows keys docId).length := by
        rw [proseRows_length]
        exact h.resolve_right (by omega)
      have hrefused := @openIngest_refuses sha256Hex settings faults u docId mime (file.proseRows keys docId)
        (file.tableRows floats keys docId) db blobs hlookup hnone hsize
      refine ⟨hrefused, ?_⟩
      intro completionCost env hopening uow
      apply ingestUpload_of_error
      rw [hopening, ParsedFile.contents, hrefused]
      rfl

theorem contents_stored {faults : IngestFaults} {keys : RowKeys} {u : Upload} {docId : Uuid} {mime : String} {db : Db}
    {blobs : Blobs} {embeddings : List Embedding} (hfaults : OnlyRuleFaults faults)
    (hruns : ∀ chunks, RuleCheckRuns settings faults chunks db.confirmedRules)
    (hprose : file.prose.length ≤ settings.maxChunksPerDocument) (hpos : 0 < file.chunkCount)
    (hsha : db.documentBySha? (sha256Hex u.data) = none) (hid : db.document? docId = none)
    (hembedded : faults.embedded = .ok embeddings) (hlength : embeddings.length = file.chunkCount) :
    ∃ chunks c, ingestSession sha256Hex settings faults u (file.contents floats keys docId mime) (Conn.fresh db blobs) =
        (.ok ⟨docId, .ready, none⟩, c) ∧
      chunks.length = file.chunkCount ∧
      c.committed = applyConfirmedRules settings.ruleSimilarityFloor docId chunks
        (db.storeDocument { u.document sha256Hex docId mime with status := .ready }
          ⟨docId, mime, chunks, (file.tableRows floats keys docId).map ParsedTable.table,
            (file.tableRows floats keys docId).flatMap ParsedTable.rows⟩) := by
  obtain ⟨chunks, hchunks⟩ := @newChunks_of_length docId (file.proseRows keys docId)
    ((file.tableRows floats keys docId).flatMap ParsedTable.chunks) embeddings (by
      rw [proseRows_length, tableRows_length, ParsedFile.artifacts_length, hlength]
      rfl)
  have hsize : (file.proseRows keys docId).length ≤ settings.maxChunksPerDocument := by
    rw [proseRows_length]
    exact hprose
  obtain ⟨c, hrun, hcommitted⟩ := @ingestSession_stored sha256Hex settings faults hfaults u docId mime
    (file.proseRows keys docId) chunks (file.tableRows floats keys docId) embeddings db blobs (tables_of_count hpos keys docId)
    hsize hsha hid (hruns chunks) hembedded hchunks
  exact ⟨chunks, c, hrun, contents_length hchunks, hcommitted⟩

/-- Separated values in 13 columns and 20000 rows. -/
def longFrame : DataFrame where
  labels := (List.range 13).map fun n => .str (toString n)
  records := List.replicate 20000 (List.replicate 13 (.str "0"))
  distinct := by decide
  width := by
    intro r hr
    rw [List.eq_of_mem_replicate hr]
    rfl

def longFile : ParsedFile := { tables := parseStructured noFloats (.separated longFrame) }

def longUpload : Upload := ⟨[], "register.csv", "default"⟩

theorem separated_count (floats : FloatText) (df : DataFrame) :
    ({ tables := parseStructured floats (.separated df) } : ParsedFile).chunkCount =
      1 + if wideTableColumns < df.labels.length then df.records.length
        else (df.records.length + defaultWindowSize - 1) / defaultWindowSize := by
  simp [ParsedFile.chunkCount, parseStructured, tableChunkCount, TableRecords.chunkCount, DataFrame.parsed, DataFrame.columns,
    DataFrame.toDict]

theorem longFile_count : longFile.chunkCount = 20001 := by
  have hlabels : wideTableColumns < longFrame.labels.length := by decide
  have hrecords : longFrame.records.length = 20000 := List.length_replicate
  have h := separated_count noFloats longFrame
  rw [if_pos hlabels, hrecords] at h
  exact h

/-- With the default of 20000 chunks, a table of 20001 is stored. -/
theorem long_table_stored : ({} : Settings).maxChunksPerDocument = 20000 ∧
    ∃ c, ingestSession pngDigest {} { timedOutFaults with embedded := .ok (List.replicate 20001 [1]) } longUpload
        (longFile.contents noFloats ⟨id, id, id, id⟩ 9 "text/csv") (Conn.fresh Db.empty fun _ => none) =
          (.ok ⟨9, .ready, none⟩, c) ∧ c.committed.chunks.length = 20001 := by
  refine ⟨rfl, ?_⟩
  have hpos : 0 < longFile.chunkCount := by
    rw [longFile_count]
    decide
  have hlength : (List.replicate 20001 ([1] : Embedding)).length = longFile.chunkCount :=
    List.length_replicate.trans longFile_count.symm
  obtain ⟨chunks, c, hrun, hchunks, hcommitted⟩ := @contents_stored noFloats longFile pngDigest {}
    { timedOutFaults with embedded := .ok (List.replicate 20001 [1]) } ⟨id, id, id, id⟩ longUpload 9 "text/csv" Db.empty
    (fun _ => none) _ ⟨rfl, rfl, fun _ => rfl, rfl⟩ (fun _ => ⟨rfl, rfl, fun _ _ => rfl⟩) (Nat.zero_le _) hpos rfl rfl rfl
    hlength
  refine ⟨c, hrun, ?_⟩
  rw [hcommitted, applyConfirmedRules_frame, ← longFile_count, ← hchunks]
  change (([] : List Chunk) ++ chunks.map _).length = _
  rw [List.nil_append, List.length_map]

end ProRag
