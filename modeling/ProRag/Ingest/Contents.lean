import ProRag.Ingest.Frames
import ProRag.Ingest.RuleCheck
import ProRag.Retrieve.Structured

/-!
# What an upload is parsed into

The branches of the parsing block, from what the parsers find in the file, and the rows and texts that
`ingest_bytes` makes of it.
-/

namespace ProRag

/-- An entry of `prose_chunks`: `chunk_pages` and `chunk_elements` make different ones. -/
inductive ProseChunk
  | page (c : PagesChunk)
  | element (c : StructuredChunk)

namespace ProseChunk

def text : ProseChunk → String
  | .page c => String.ofList c.text
  | .element c => String.ofList c.text

/-- `getattr(c, "embed_text", None)`. -/
def embedText? : ProseChunk → Option String
  | .page _ => none
  | .element c => some (String.ofList c.embedText)

/-- `getattr(c, "embed_text", None) or c.text`. -/
def embedInput (c : ProseChunk) : String :=
  match c.embedText? with
  | some t => if t = "" then c.text else t
  | none => c.text

def pageStart : ProseChunk → Option Nat
  | .page c => some c.pageStart
  | .element c => some c.pageStart.toNat

/-- `getattr(c, "bbox", None)`. -/
def bbox : ProseChunk → Option (List ℚ)
  | .page _ => none
  | .element c => c.bbox

def row (usedStructuredChunking : Bool) (docId : Uuid) (id : Nat) (c : ProseChunk) : Chunk where
  id := id
  docId := docId
  ord := 0
  kind := .prose
  text := c.text
  pageStart := c.pageStart
  bbox := c.bbox
  tableId := none
  embedding := []
  embedText := if usedStructuredChunking then c.embedText?.getD "" else c.text

end ProseChunk

/-- What the parsers find in a file, by the branch of its MIME type; a document is missing where Docling is, or fails. -/
inductive FileContent
  | structured (file : StructuredFile)
  | ocr (pages : List Text)
  | docling (doc : Option DoclingDocument) (pages : List Text)
  | plain (pages : List Text)

structure ParsedFile where
  prose : List ProseChunk := []
  tables : List TableRecords := []
  usedStructuredChunking : Bool := false

structure RowKeys where
  prose : Nat → Nat
  table : Nat → Uuid
  firstRow : Nat → Nat
  firstChunk : Nat → Nat

section

variable (settings : Settings) (floats : FloatText)

def pagesOf (pages : List Text) : ParsedFile :=
  { prose := (chunkPages pages settings.chunkTargetTokens settings.chunkOverlapTokens).map .page }

/-- The parsing block of `ingest_bytes`, behind its parsers. -/
def parseFile : FileContent → Except PyError ParsedFile
  | .structured file => .ok { tables := parseStructured floats file }
  | .ocr pages => .ok (pagesOf settings pages)
  | .docling doc pages =>
    match doc.bind tryDoclingParse with
    | some parsed =>
      match chunkElements parsed.prose settings.chunkTargetTokens settings.chunkOverlapTokens with
      | some chunks => .ok { prose := chunks.map .element, tables := parsed.tables, usedStructuredChunking := true }
      | none => .error ⟨"IndexError", "list index out of range"⟩
    | none => .ok (pagesOf settings pages)
  | .plain pages => .ok (pagesOf settings pages)

def ParsedFile.artifacts (file : ParsedFile) : List TableArtifact := file.tables.flatMap fun t => t.artifacts floats

/-- `[*prose_texts, *table_texts]`. -/
def ParsedFile.texts (file : ParsedFile) : List String :=
  file.prose.map ProseChunk.embedInput ++ (file.artifacts floats).map TableArtifact.text

/-- What `_store_table` adds for the `i`-th table. -/
def RowKeys.parsedTable (keys : RowKeys) (docId : Uuid) (t : TableRecords) (i : Nat) : ParsedTable :=
  let stored := storeTable floats docId (keys.table i) t (keys.firstRow i) (keys.firstChunk i) 0 []
  ⟨stored.table, stored.rows.map Prod.fst, stored.chunks.map Prod.fst⟩

def ParsedFile.proseRows (file : ParsedFile) (keys : RowKeys) (docId : Uuid) : List Chunk :=
  file.prose.zipIdx.map fun p => p.1.row file.usedStructuredChunking docId (keys.prose p.2)

def ParsedFile.tableRows (file : ParsedFile) (keys : RowKeys) (docId : Uuid) : List ParsedTable :=
  file.tables.zipIdx.map fun p => keys.parsedTable floats docId p.1 p.2

/-- What the session gets to store. -/
def ParsedFile.contents (file : ParsedFile) (keys : RowKeys) (docId : Uuid) (mime : String) : Parsed :=
  .contents docId mime (file.proseRows keys docId) (file.tableRows floats keys docId)

/-- What the session gets of a file. -/
def parsedContents (content : FileContent) (keys : RowKeys) (docId : Uuid) (mime : String) : Parsed :=
  match parseFile settings floats content with
  | .ok file => file.contents floats keys docId mime
  | .error exc => .raised exc

end

variable {settings : Settings} {floats : FloatText} {file : ParsedFile} {keys : RowKeys} {docId : Uuid}

/-! ## The rows -/

theorem zipIdx_map_eq {α β : Type} {as : List α} {f : α × Nat → β} {g : α → β} (h : ∀ p ∈ as.zipIdx, f p = g p.1) :
    as.zipIdx.map f = as.map g := by
  calc as.zipIdx.map f = as.zipIdx.map (g ∘ Prod.fst) := List.map_congr_left h
    _ = as.map g := by rw [← List.map_map, List.zipIdx_map_fst]

theorem proseRows_length : (file.proseRows keys docId).length = file.prose.length := by
  simp [ParsedFile.proseRows]

theorem proseRows_shown : (file.proseRows keys docId).map (fun c => (c.kind, c.text)) =
    file.prose.map fun c => (ChunkKind.prose, c.text) := by
  rw [ParsedFile.proseRows, List.map_map]
  apply zipIdx_map_eq
  intro p _
  rfl

theorem parsedTable_chunks (t : TableRecords) (i : Nat) :
    ((keys.parsedTable floats docId t i).chunks.map fun c => (c.kind, c.text, c.embedText)) =
      (t.artifacts floats).map fun a => (a.kind, a.text, a.text) := by
  simp only [RowKeys.parsedTable, storeTable, List.map_map]
  apply zipIdx_map_eq
  intro p _
  rfl

variable (floats file keys docId) in
theorem tableRows_chunks : (((file.tableRows floats keys docId).flatMap ParsedTable.chunks).map
    fun c => (c.kind, c.text, c.embedText)) = (file.artifacts floats).map fun a => (a.kind, a.text, a.text) := by
  rw [ParsedFile.tableRows, ParsedFile.artifacts, List.map_flatMap, List.flatMap_map, List.map_flatMap]
  simp only [List.flatMap_def]
  apply congrArg List.flatten
  apply zipIdx_map_eq
  intro p _
  exact parsedTable_chunks p.1 p.2

theorem tableRows_length :
    ((file.tableRows floats keys docId).flatMap ParsedTable.chunks).length = (file.artifacts floats).length := by
  have h := congrArg List.length (tableRows_chunks floats file keys docId)
  rw [List.length_map, List.length_map] at h
  exact h

/-! ## The texts -/

/-- The text of a chunk of elements is not lost in its text to embed. -/
def EmbedsText (c : StructuredChunk) : Prop := c.embedText = [] → c.text = []

theorem structuredChunk_embeds (ord : Nat) (first : Text × Element) (rest : List (Text × Element)) :
    EmbedsText (structuredChunk ord first rest) := by
  intro h
  simp only [structuredChunk] at h ⊢
  split at h
  · exact h
  · simp at h

theorem chunkElements_embeds {targetTokens overlapTokens : Nat} {elements : List Element} {chunks : List StructuredChunk}
    (h : chunkElements elements targetTokens overlapTokens = some chunks) : ∀ c ∈ chunks, EmbedsText c := by
  intro c hc
  obtain ⟨ord, first, rest, rfl⟩ := chunkElements_made h c hc
  exact structuredChunk_embeds ord first rest

/-- Each chunk of prose comes from the branch that the flag names, and keeps its text in the text to embed. -/
def ParsedFile.Uniform (file : ParsedFile) : Prop :=
  ∀ c ∈ file.prose, if file.usedStructuredChunking then ∃ e, c = .element e ∧ EmbedsText e else ∃ p, c = .page p

theorem pagesOf_uniform (pages : List Text) : (pagesOf settings pages).Uniform := by
  intro c hc
  obtain ⟨p, _, rfl⟩ := List.mem_map.mp hc
  exact ⟨p, rfl⟩

theorem parseFile_uniform {content : FileContent} (h : parseFile settings floats content = .ok file) : file.Uniform := by
  cases content with
  | structured sheets =>
    cases h
    intro c hc
    cases hc
  | ocr pages =>
    cases h
    exact pagesOf_uniform pages
  | plain pages =>
    cases h
    exact pagesOf_uniform pages
  | docling doc pages =>
    simp only [parseFile] at h
    split at h
    · split at h
      · rename_i chunks hchunks
        cases h
        intro c hc
        obtain ⟨e, he, rfl⟩ := List.mem_map.mp hc
        exact ⟨e, rfl, chunkElements_embeds hchunks e he⟩
      · cases h
    · cases h
      exact pagesOf_uniform pages

theorem parseFile_docling {doc : Option DoclingDocument} {pages : List Text} {parsed : ParsedDocument}
    {chunks : List StructuredChunk} (hdoc : doc.bind tryDoclingParse = some parsed)
    (hchunks : chunkElements parsed.prose settings.chunkTargetTokens settings.chunkOverlapTokens = some chunks) :
    parseFile settings floats (.docling doc pages) =
      .ok { prose := chunks.map .element, tables := parsed.tables, usedStructuredChunking := true } := by
  simp only [parseFile, hdoc, hchunks]

theorem row_embedText (huniform : file.Uniform) {c : ProseChunk} (hc : c ∈ file.prose) (id : Nat) :
    (c.row file.usedStructuredChunking docId id).embedText = c.embedInput := by
  have hbranch := huniform c hc
  cases hflag : file.usedStructuredChunking with
  | false =>
    rw [hflag] at hbranch
    obtain ⟨p, rfl⟩ := hbranch
    rfl
  | true =>
    rw [hflag] at hbranch
    obtain ⟨e, rfl, hembeds⟩ := hbranch
    simp only [ProseChunk.row, ProseChunk.embedInput, ProseChunk.embedText?, ProseChunk.text, Option.getD_some, if_true]
    split
    · rename_i hempty
      have hnil : e.embedText = [] := by simpa using congrArg String.toList hempty
      rw [hnil, hembeds hnil]
    · rfl

theorem contents_embedText (huniform : file.Uniform) :
    (file.proseRows keys docId ++ (file.tableRows floats keys docId).flatMap ParsedTable.chunks).map Chunk.embedText =
      file.texts floats := by
  have hprose : (file.proseRows keys docId).map Chunk.embedText = file.prose.map ProseChunk.embedInput := by
    rw [ParsedFile.proseRows, List.map_map]
    apply zipIdx_map_eq
    intro p hp
    exact row_embedText huniform (List.fst_mem_of_mem_zipIdx hp) (keys.prose p.2)
  have htables := congrArg (List.map fun shown : ChunkKind × String × String => shown.2.2)
    (tableRows_chunks floats file keys docId)
  rw [List.map_map, List.map_map] at htables
  rw [List.map_append, hprose, ParsedFile.texts]
  congr 1

/-! ## Up to the flush of the row -/

section

open Framework

variable {sha256Hex : Bytes → String} {faults : IngestFaults} {u : Upload} {mime : String} {prose : List Chunk}
  {tables : List ParsedTable} {db : Db} {blobs : Blobs} {c c' : Conn Db Blobs}

theorem flushDocument_ok {work : FlushedIngest} {opened : IngestResponse ⊕ FlushedIngest}
    (h : flushDocument faults work c = (.ok opened, c')) :
    (∃ e : Document, opened = .inl ⟨e.id, e.status, some e.id⟩) ∨
      opened = .inr work ∧ c.state = .live ∧ c.view.document? work.doc.id = none ∧
        c.view.documentBySha? work.doc.sha256 = none ∧
        c' = { c with view := { c.view with documents := c.view.documents ++ [work.doc] } } := by
  unfold flushDocument Sql.tryCatch at h
  cases hflush : (flush faults.flush (insertDocument work.doc) : IngestTx Unit) c with
  | mk r c1 =>
    cases r with
    | ok a =>
      right
      rw [Sql.bind_of_ok hflush] at h
      obtain ⟨hlive, _, view, hview, rfl⟩ := Sql.statement_eq_ok.mp hflush
      cases h
      unfold insertDocument at hview
      split at hview
      · cases hview
      · rename_i hid
        split at hview
        · cases hview
        · rename_i hsha
          cases hview
          exact ⟨rfl, hlive, by simpa using hid, by simpa using hsha, rfl⟩
    | error exc =>
      left
      rw [Sql.bind_of_error hflush] at h
      simp only at h
      split at h
      · obtain ⟨_, c2, _, h⟩ := Sql.bind_eq_ok.mp h
        obtain ⟨existing, c3, _, h⟩ := Sql.bind_eq_ok.mp h
        cases existing with
        | none => cases (Prod.mk.inj h).1
        | some e =>
          obtain ⟨resp, c4, hresp, h⟩ := Sql.bind_eq_ok.mp h
          obtain rfl := Except.ok.inj (Prod.mk.inj hresp).1
          exact ⟨e, (Except.ok.inj (Prod.mk.inj h).1).symm⟩
      · cases (Prod.mk.inj h).1

theorem openIngest_ok {opened : IngestResponse ⊕ FlushedIngest}
    (h : openIngest sha256Hex settings faults u (.contents docId mime prose tables) (Conn.fresh db blobs) = (.ok opened, c)) :
    (∃ e : Document, opened = .inl ⟨e.id, e.status, some e.id⟩) ∨
      opened = .inr ⟨u.document sha256Hex docId mime, prose, tables⟩ ∧ (prose ≠ [] ∨ tables ≠ []) ∧
        prose.length ≤ settings.maxChunksPerDocument ∧ db.documentBySha? (sha256Hex u.data) = none ∧
        db.document? docId = none ∧
        c = ⟨db, { db with documents := db.documents ++ [u.document sha256Hex docId mime] }, .live,
          writeBlob u.data (u.path sha256Hex) blobs⟩ := by
  obtain ⟨existing, c1, hlookup, h⟩ := Sql.bind_eq_ok.mp h
  obtain ⟨_, _, _, rfl⟩ := lookupDigest_eq_ok.mp hlookup
  cases existing with
  | some e =>
    left
    obtain ⟨resp, c2, hresp, h⟩ := Sql.bind_eq_ok.mp h
    obtain rfl := Except.ok.inj (Prod.mk.inj hresp).1
    exact ⟨e, (Except.ok.inj (Prod.mk.inj h).1).symm⟩
  | none =>
    obtain ⟨_, c2, heffect, h⟩ := Sql.bind_eq_ok.mp h
    cases heffect
    split at h
    · obtain ⟨_, c3, _, h⟩ := Sql.bind_eq_ok.mp h
      cases (Prod.mk.inj h).1
    · rename_i hempty
      split at h
      · obtain ⟨_, c3, _, h⟩ := Sql.bind_eq_ok.mp h
        cases (Prod.mk.inj h).1
      · rename_i hsize
        rcases flushDocument_ok h with hduplicate | ⟨hopened, _, hid, hsha, hc⟩
        · exact .inl hduplicate
        · right
          refine ⟨hopened, ?_, by omega, hsha, hid, hc⟩
          by_cases hprose : prose = []
          · right
            simpa [hprose] using hempty
          · exact .inl hprose

theorem storeTables_unfailed {i : Nat} {ts : List ParsedTable} (h : storeTables faults docId i ts c = (.ok (), c')) :
    ∀ j < ts.length, faults.table (i + j) = none := by
  induction ts generalizing i c with
  | nil =>
    intro j hj
    exact absurd hj (Nat.not_lt_zero j)
  | cons t ts ih =>
    obtain ⟨_, c1, hfirst, hrest⟩ := Sql.bind_eq_ok.mp h
    obtain ⟨_, hnone, _⟩ := Sql.statement_eq_ok.mp hfirst
    intro j hj
    cases j with
    | zero => exact hnone
    | succ j =>
      have hlater := ih hrest j (Nat.lt_of_succ_lt_succ hj)
      rw [Nat.add_assoc, Nat.add_comm 1 j] at hlater
      exact hlater

/-- A call that answers `ready`, and not for a duplicate, has stored the contents of its file, unless the server has
rolled its transaction back at the commit. -/
theorem ready_stored {resp : IngestResponse}
    (h : ingestSession sha256Hex settings faults u (.contents docId mime prose tables) (Conn.fresh db blobs) = (.ok resp, c))
    (hstatus : resp.status = .ready) (hnew : resp.duplicateOf = none) :
    prose.length ≤ settings.maxChunksPerDocument ∧
    (c.committed = db ∨ ∃ embeddings chunks, faults.embedded = .ok embeddings ∧
      newChunks docId prose (tables.flatMap ParsedTable.chunks) embeddings = .ok chunks ∧
      ((∀ i < tables.length, faults.table i = none) ∧ faults.rows = none) ∧
      c.committed = applyConfirmedRules settings.ruleSimilarityFloor docId chunks
        (({ db with documents := db.documents ++ [u.document sha256Hex docId mime] }.storeParsed docId tables).storeChunks
          docId chunks)) := by
  unfold ingestSession at h
  obtain ⟨opened, c1, hopen, h⟩ := Sql.bind_eq_ok.mp h
  rcases openIngest_ok hopen with ⟨e, rfl⟩ | ⟨rfl, _, hsize, _, _, rfl⟩
  · cases h
    cases hnew
  · refine ⟨hsize, ?_⟩
    simp only [Sql.tryCatch] at h
    split at h
    · rename_i resp' c2 htry
      cases h
      have hends := (ingestTry_ends settings faults ⟨u.document sha256Hex docId mime, prose, tables⟩
        ⟨db, { db with documents := db.documents ++ [u.document sha256Hex docId mime] }, .live,
          writeBlob u.data (u.path sha256Hex) blobs⟩).1
      rw [htry] at hends
      rcases hends with ⟨c1, hstore, hlive, _, hcommitted⟩ | ⟨_, hcommitted⟩
      · right
        obtain ⟨embeddings, chunks, hembedded, hchunks, hruns, _, hview⟩ := storeContents_stored hstore hlive
        obtain ⟨_, c3, htables, _⟩ := Sql.bind_eq_ok.mp hstore
        have hunfailed := storeTables_unfailed htables
        simp only [Nat.zero_add] at hunfailed
        exact ⟨embeddings, chunks, hembedded, hchunks, ⟨hunfailed, hruns.flushed⟩, hcommitted.trans hview⟩
      · exact .inl hcommitted
    · split at h
      · have hfailed := ingestExcept_failed (congrArg Prod.fst h)
        rw [hstatus] at hfailed
        cases hfailed
      · cases h

end

end ProRag
