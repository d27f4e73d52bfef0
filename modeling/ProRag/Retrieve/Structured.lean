import ProRag.Chat.Sse
import ProRag.Framework.Like
import ProRag.Ingest.Tables
import ProRag.Retrieve.Noninterference

/-!
# Chunks of matching rows

The structured arm matches the text of a stored row and returns the chunks of the row's table.
-/

namespace ProRag

open Framework

/-- What the database's locale and the writing of floats decide. -/
structure TextTables where
  toLower : Char → Char
  floats : FloatText

/-- A character of a string in the text of a `jsonb`. -/
def escapeJsonb (c : Char) : List Char :=
  if c = '"' then ['\\', '"']
  else if c = '\\' then ['\\', '\\']
  else if c = '\n' then ['\\', 'n']
  else if c = '\r' then ['\\', 'r']
  else if c = '\t' then ['\\', 't']
  else if c = Char.ofNat 8 then ['\\', 'b']
  else if c = Char.ofNat 12 then ['\\', 'f']
  else if c.toNat < 0x20 then unicodeEscape c.toNat
  else [c]

def quoteJsonb (s : String) : List Char := '"' :: (s.toList.flatMap escapeJsonb ++ ['"'])

/-- The name under which `json.dumps` writes a key; it refuses a timestamp. -/
def PyScalar.jsonKey (floats : FloatText) : PyScalar → String
  | .null => "null"
  | .bool b => if b then "true" else "false"
  | .int n => toString n
  | .float x => floats.repr x
  | .str s => s
  | .nan => "NaN"
  | .infinity negative => if negative then "-Infinity" else "Infinity"
  | .timestamp text => text

/-- A value in the text of a `jsonb`, which holds neither a timestamp nor a float that is not finite. -/
def PyScalar.jsonb (floats : FloatText) : PyScalar → List Char
  | .null => "null".toList
  | .bool b => if b then "true".toList else "false".toList
  | .int n => (toString n).toList
  | .float x => (floats.numeric x).toList
  | .str s => quoteJsonb s
  | .nan => "NaN".toList
  | .infinity negative => (if negative then "-Infinity" else "Infinity").toList
  | .timestamp text => quoteJsonb text

/-- `value ->> key`, of a value that is not null. -/
def PyScalar.astext (floats : FloatText) : PyScalar → Option String
  | .null => none
  | .bool b => some (if b then "true" else "false")
  | .int n => some (toString n)
  | .float x => some (floats.numeric x)
  | .str s => some s
  | v => some (String.ofList (v.jsonb floats))

/-- Of equal names the last is stored. -/
def keepLast : List (String × PyScalar) → List (String × PyScalar)
  | [] => []
  | f :: fs => if fs.any fun g => g.1 = f.1 then keepLast fs else f :: keepLast fs

/-- The order of names in a `jsonb`: shorter ones first. -/
def keyLe (a b : String × PyScalar) : Prop :=
  a.1.utf8ByteSize < b.1.utf8ByteSize ∨ (a.1.utf8ByteSize = b.1.utf8ByteSize ∧ a.1 ≤ b.1)

instance keyLeDecidable : DecidableRel keyLe := fun a b =>
  inferInstanceAs (Decidable (a.1.utf8ByteSize < b.1.utf8ByteSize ∨ (a.1.utf8ByteSize = b.1.utf8ByteSize ∧ a.1 ≤ b.1)))

def jsonbFields (floats : FloatText) (row : PyRow) : List (String × PyScalar) :=
  (keepLast (row.map fun f => (f.1.jsonKey floats, f.2))).insertionSort keyLe

/-- `CAST(data AS text)`. -/
def jsonbText (floats : FloatText) (row : PyRow) : List Char :=
  '{' :: ((", ".toList).intercalate ((jsonbFields floats row).map fun f => quoteJsonb f.1 ++ ": ".toList ++ f.2.jsonb floats) ++ ['}'])

/-- `text ILIKE pattern`. -/
def ilike (tables : TextTables) (pattern text : List Char) : Bool :=
  like (pattern.map tables.toLower) (text.map tables.toLower)

/-- `cast(TableRow.data, Text).ilike(f"%{query}%")`. -/
def rowMatches (tables : TextTables) (query : String) (row : PyRow) : Bool :=
  ilike tables ('%' :: (query.toList ++ ['%'])) (jsonbText tables.floats row)

/-- A cell whose text contains the query, ignoring case. -/
def HasCell (tables : TextTables) (query : String) (row : PyRow) : Prop :=
  ∃ f ∈ row, query.toList.map tables.toLower <:+: (f.2.text tables.floats).toList.map tables.toLower

instance hasCellDecidable (tables : TextTables) (query : String) (row : PyRow) : Decidable (HasCell tables query row) :=
  inferInstanceAs (Decidable (∃ f ∈ row, query.toList.map tables.toLower <:+: (f.2.text tables.floats).toList.map tables.toLower))

/-- The columns of a stored object that are not null. -/
def rowData (floats : FloatText) (row : PyRow) : List (String × String) :=
  (jsonbFields floats row).filterMap fun f => (f.2.astext floats).map fun text => (f.1, text)

/-- A table as `_store_table` leaves it: a row for each record, and a chunk for each artifact. -/
structure StoredTable (floats : FloatText) where
  table : Table
  parsed : TableRecords
  rows : List (TableRow × PyRow)
  chunks : List (Chunk × TableArtifact)
  records : rows.map Prod.snd = parsed.rows
  artifacts : chunks.map Prod.snd = parsed.artifacts floats
  row_fields : ∀ p ∈ rows, p.1.tableId = table.id ∧ p.1.data = rowData floats p.2
  ids : UniqueOn (fun p => p.1.id) chunks
  chunk_fields : ∀ p ∈ chunks, p.1.docId = table.docId ∧ p.1.tableId = some table.id ∧ p.1.kind = p.2.kind ∧ p.1.text = p.2.text

/-- `_store_table(session, doc_id, parsed)`, with the ids, the places and the embeddings that the rows get later. -/
def storeTable (floats : FloatText) (docId tableId : Uuid) (parsed : TableRecords) (firstRow firstChunk firstOrd : Nat)
    (embeddings : List Embedding) : StoredTable floats where
  table := ⟨tableId, docId⟩
  parsed := parsed
  rows := parsed.rows.zipIdx.map fun p => (⟨firstRow + p.2, tableId, p.2, rowData floats p.1⟩, p.1)
  chunks := (parsed.artifacts floats).zipIdx.map fun p =>
    (⟨firstChunk + p.2, docId, firstOrd + p.2, p.1.kind, p.1.text, parsed.pageNo, parsed.bbox, some tableId,
      embeddings.getD p.2 [], p.1.text⟩, p.1)
  records := by simp [Function.comp_def]
  artifacts := by simp [Function.comp_def]
  ids := by
    have hids : ∀ (artifacts : List TableArtifact) (i : Nat), (artifacts.zipIdx i).map (fun p => firstChunk + p.2) =
        List.range' (firstChunk + i) artifacts.length := by
      intro artifacts
      induction artifacts with
      | nil => exact fun i => rfl
      | cons a artifacts ih => simp [ih, List.range'_succ, Nat.add_assoc]
    unfold UniqueOn
    rw [List.map_map]
    change ((parsed.artifacts floats).zipIdx.map fun p => firstChunk + p.2).Nodup
    rw [hids]
    exact List.nodup_range' 1
  row_fields := by
    intro p hp
    obtain ⟨record, _, rfl⟩ := List.mem_map.mp hp
    exact ⟨rfl, rfl⟩
  chunk_fields := by
    intro p hp
    obtain ⟨artifact, _, rfl⟩ := List.mem_map.mp hp
    exact ⟨rfl, rfl, rfl, rfl⟩

/-- The tables behind a database: its table rows and its chunks of tables are theirs, and the database matches a row
by the text of its object. -/
structure TableCorpus (tables : TextTables) (scorer : Scorer) (db : Db) where
  stored : List (StoredTable tables.floats)
  unique : UniqueOn (fun t : StoredTable tables.floats => t.table.id) stored
  chunks : ∀ c, (c ∈ db.chunks ∧ c.kind ≠ .prose) ↔ ∃ t ∈ stored, ∃ a, (c, a) ∈ t.chunks
  tableRows : ∀ r, r ∈ db.tableRows ↔ ∃ t ∈ stored, ∃ row, (r, row) ∈ t.rows
  ilike : ∀ t ∈ stored, ∀ p ∈ t.rows, ∀ query, scorer.ilike query p.1 = rowMatches tables query p.2

section

variable {tables : TextTables} {scorer : Scorer} {db : Db} {query : String} {user : Option User}

/-- A chunk of rows. -/
def OfRows (kind : ChunkKind) : Prop := kind = .row ∨ kind = .tableWindow

instance ofRowsDecidable (kind : ChunkKind) : Decidable (OfRows kind) :=
  inferInstanceAs (Decidable (kind = .row ∨ kind = .tableWindow))

/-- Among the rows of an artifact one has a cell with the query. -/
def ShowsCell (tables : TextTables) (query : String) (t : StoredTable tables.floats) (a : TableArtifact) : Prop :=
  ∃ row ∈ a.rowsOf t.parsed.rows, HasCell tables query row

instance showsCellDecidable (t : StoredTable tables.floats) (a : TableArtifact) : Decidable (ShowsCell tables query t a) :=
  inferInstanceAs (Decidable (∃ row ∈ a.rowsOf t.parsed.rows, HasCell tables query row))

/-- The structured arm searches the table: its document is ready and the user may see it. -/
def Searched (db : Db) (user : Option User) {floats : FloatText} (t : StoredTable floats) : Prop :=
  ∃ d ∈ db.documents, d.id = t.table.docId ∧ d.status = .ready ∧ passes (visibilityClause db user) d.id = true

theorem TableCorpus.stored_of_chunk (corpus : TableCorpus tables scorer db) {c : Chunk} (hc : c ∈ db.chunks) (hkind : OfRows c.kind) :
    ∃ t ∈ corpus.stored, ∃ a, (c, a) ∈ t.chunks := by
  apply (corpus.chunks c).mp
  refine ⟨hc, ?_⟩
  rcases hkind with h | h <;> simp [h]

theorem TableCorpus.artifact_unique (corpus : TableCorpus tables scorer db) {c : Chunk} {t t' : StoredTable tables.floats}
    {a a' : TableArtifact} (ht : t ∈ corpus.stored) (ht' : t' ∈ corpus.stored) (ha : (c, a) ∈ t.chunks) (ha' : (c, a') ∈ t'.chunks) :
    t' = t ∧ a' = a := by
  have hid := (t.chunk_fields _ ha).2.1
  have hid' := (t'.chunk_fields _ ha').2.1
  have hsame : t' = t := corpus.unique.eq_of_key ht' ht (Option.some.inj (hid'.symm.trans hid))
  subst hsame
  exact ⟨rfl, (Prod.mk.inj (t'.ids.eq_of_key ha' ha rfl)).2⟩

theorem TableCorpus.found (corpus : TableCorpus tables scorer db) {t : StoredTable tables.floats} (ht : t ∈ corpus.stored)
    (hsearched : Searched db user t) (hmatch : ∃ row ∈ t.parsed.rows, rowMatches tables query row) {c : Chunk} {a : TableArtifact}
    (ha : (c, a) ∈ t.chunks) : ∃ d, (c, d) ∈ structuredRows scorer db query [] user := by
  obtain ⟨d, hd, hdoc, hready, hpass⟩ := hsearched
  obtain ⟨row, hrow, hmatch⟩ := hmatch
  rw [← t.records] at hrow
  obtain ⟨⟨r, row'⟩, hr, rfl⟩ := List.mem_map.mp hrow
  obtain ⟨hcdoc, hctable, _, _⟩ := t.chunk_fields _ ha
  obtain ⟨hc, hkind⟩ := (corpus.chunks c).mpr ⟨t, ht, a, ha⟩
  have hrtable := (t.row_fields _ hr).1
  refine ⟨d, mem_rowsOfTables.mpr ⟨mem_joinReady.mpr ⟨hc, hd, hdoc.trans hcdoc.symm, hready⟩, hpass, hkind, r, ?_, ?_, ?_, rfl⟩⟩
  · exact (corpus.tableRows r).mpr ⟨t, ht, _, hr⟩
  · exact (congrArg some hrtable).trans hctable.symm
  · rw [corpus.ilike t ht _ hr]
    exact hmatch

theorem TableCorpus.of_found (corpus : TableCorpus tables scorer db) {p : Chunk × Document}
    (hp : p ∈ structuredRows scorer db query [] user) {t : StoredTable tables.floats} {a : TableArtifact} (ht : t ∈ corpus.stored)
    (ha : (p.1, a) ∈ t.chunks) : Searched db user t ∧ ∃ row ∈ t.parsed.rows, rowMatches tables query row := by
  obtain ⟨hjoin, hpass, _, r, hr, htable, hilike, _⟩ := mem_rowsOfTables.mp hp
  obtain ⟨_, hd, hdoc, hready⟩ := mem_joinReady.mp hjoin
  obtain ⟨hcdoc, hctable, _, _⟩ := t.chunk_fields _ ha
  obtain ⟨t', ht', row, hrow⟩ := (corpus.tableRows r).mp hr
  have hsame : t' = t := by
    apply corpus.unique.eq_of_key ht' ht
    have hrtable := (t'.row_fields _ hrow).1
    exact hrtable.symm.trans (Option.some.inj (htable.trans hctable))
  subst hsame
  refine ⟨⟨p.2, hd, hdoc.trans hcdoc, hready, hpass⟩, row, ?_, ?_⟩
  · rw [← t'.records]
    exact List.mem_map_of_mem hrow
  · rw [← corpus.ilike t' ht' _ hrow]
    exact hilike

/-- What the structured arm returns of chunks of rows shows the query in a cell, whatever the limit, exactly when every
searched table with a row whose text matches shows it in each of its chunks of rows. -/
theorem structuredSearch_shows_iff (tables : TextTables) (scorer : Scorer) (db : Db) (corpus : TableCorpus tables scorer db)
    (hdb : db.RetrievalOk) (query : String) (user : Option User) :
    (∀ k, ∀ h ∈ structuredSearch scorer db query k [] user, ∀ c ∈ db.chunks, c.id = h.chunkId → OfRows c.kind →
      ∃ t ∈ corpus.stored, ∃ a, (c, a) ∈ t.chunks ∧ ShowsCell tables query t a) ↔
    ∀ t ∈ corpus.stored, Searched db user t → (∃ row ∈ t.parsed.rows, rowMatches tables query row) →
      ∀ a ∈ t.parsed.artifacts tables.floats, OfRows a.kind → ShowsCell tables query t a := by
  constructor
  · intro h t ht hsearched hmatch a ha hkind
    rw [← t.artifacts] at ha
    obtain ⟨⟨c, a'⟩, hc, rfl⟩ := List.mem_map.mp ha
    obtain ⟨d, hfound⟩ := corpus.found ht hsearched hmatch hc
    obtain ⟨hchunk, _⟩ := (corpus.chunks c).mpr ⟨t, ht, _, hc⟩
    obtain ⟨_, _, hckind, _⟩ := t.chunk_fields _ hc
    have hreturned : { hitOf (c, d) 1 with bbox := none, kind := none } ∈ structuredSearch scorer db query
        (structuredRows scorer db query [] user).dedup.length [] user := by
      apply List.mem_map_of_mem
      rw [List.take_of_length_le (by simp [orderByDesc])]
      exact mem_orderByDesc.mpr (List.mem_dedup.mpr hfound)
    obtain ⟨t', ht', a'', ha'', hshows⟩ := h _ _ hreturned c hchunk rfl (hckind ▸ hkind)
    obtain ⟨rfl, rfl⟩ := corpus.artifact_unique ht ht' hc ha''
    exact hshows
  · intro h k hit hhit c hc hid hkind
    obtain ⟨p, hp, rfl⟩ := List.mem_map.mp hhit
    have hfound := List.mem_dedup.mp (mem_orderByDesc.mp (List.mem_of_mem_take hp))
    have hpc : p.1 = c :=
      hdb.chunks.eq_of_key (mem_joinReady.mp (mem_rowsOfTables.mp hfound).1).1 hc hid.symm
    obtain ⟨t, ht, a, ha⟩ := corpus.stored_of_chunk hc hkind
    obtain ⟨hsearched, hmatch⟩ := corpus.of_found hfound ht (hpc ▸ ha)
    obtain ⟨_, _, hckind, _⟩ := t.chunk_fields _ ha
    refine ⟨t, ht, a, ha, h t ht hsearched hmatch a ?_ (hckind ▸ hkind)⟩
    rw [← t.artifacts]
    exact List.mem_map_of_mem ha

end

/-- Characters of the first half of a byte, and no floats. -/
def plainText : TextTables := ⟨Char.toLower, fun x => toString x, fun x => toString x⟩

def inspections : TableRecords where
  caption := some "Inspections"
  columns := ["vessel", "result"]
  rows := [[(.str "vessel", .str "Aurora"), (.str "result", .str "pass")],
    [(.str "vessel", .str "Borealis"), (.str "result", .str "3")]]
  pageNo := none
  bbox := none

def register : StoredTable plainText.floats := storeTable plainText.floats 3 5 inspections 1 1 0 [[], []]

def registerDb : Db :=
  { Db.empty with
    documents := [newDocument "9c0a" "register.csv" "default" ⟨3, "text/csv", [], [], []⟩]
    tables := [register.table]
    chunks := register.chunks.map Prod.fst
    tableRows := register.rows.map Prod.fst }

def registerScorer : Scorer :=
  { lengthScorer with ilike := fun query r => rowMatches plainText query (inspections.rows.getD r.rowNo []) }

def registerCorpus : TableCorpus plainText registerScorer registerDb where
  stored := [register]
  unique := by decide
  chunks := by
    have hkinds : ∀ c ∈ registerDb.chunks, c.kind ≠ .prose := by decide
    intro c
    constructor
    · rintro ⟨hc, _⟩
      obtain ⟨⟨c, a⟩, ha, rfl⟩ := List.mem_map.mp hc
      exact ⟨register, List.mem_singleton_self _, a, ha⟩
    · rintro ⟨t, ht, a, ha⟩
      rw [List.mem_singleton.mp ht] at ha
      have hc : c ∈ registerDb.chunks := List.mem_map_of_mem (f := Prod.fst) ha
      exact ⟨hc, hkinds c hc⟩
  tableRows := by
    intro r
    constructor
    · intro hr
      obtain ⟨⟨r, row⟩, hrow, rfl⟩ := List.mem_map.mp hr
      exact ⟨register, List.mem_singleton_self _, row, hrow⟩
    · rintro ⟨t, ht, row, hrow⟩
      rw [List.mem_singleton.mp ht] at hrow
      exact List.mem_map_of_mem (f := Prod.fst) hrow
  ilike := by
    have hrows : ∀ p ∈ register.rows, inspections.rows.getD p.1.rowNo [] = p.2 := by decide
    intro t ht p hp query
    rw [List.mem_singleton.mp ht] at hp
    exact congrArg (rowMatches plainText query) (hrows p hp)

theorem registerDb_ok : registerDb.RetrievalOk :=
  ⟨by decide, by decide, by decide, by decide, by decide⟩

theorem structuredSearch_shows_aurora : registerDb.RetrievalOk ∧
    ∀ k, ∀ h ∈ structuredSearch registerScorer registerDb "aurora" k [] none, ∀ c ∈ registerDb.chunks, c.id = h.chunkId →
      OfRows c.kind → ∃ t ∈ registerCorpus.stored, ∃ a, (c, a) ∈ t.chunks ∧ ShowsCell plainText "aurora" t a := by
  refine ⟨registerDb_ok,
    (structuredSearch_shows_iff plainText registerScorer registerDb registerCorpus registerDb_ok "aurora" none).mpr ?_⟩
  have hshows : ∀ a ∈ register.parsed.artifacts plainText.floats, OfRows a.kind → ShowsCell plainText "aurora" register a := by
    decide +kernel
  intro t ht _ _
  rw [List.mem_singleton.mp ht]
  exact hshows

/-- The name of a column and a wildcard match every row, and neither is in a cell of the window that is returned. -/
theorem structuredSearch_shows_no_cell :
    (∃ h ∈ structuredSearch registerScorer registerDb "vessel" 10 [] none, ∃ c ∈ registerDb.chunks, c.id = h.chunkId ∧
      OfRows c.kind ∧ ¬∃ t ∈ registerCorpus.stored, ∃ a, (c, a) ∈ t.chunks ∧ ShowsCell plainText "vessel" t a) ∧
    ∃ h ∈ structuredSearch registerScorer registerDb "%" 10 [] none, ∃ c ∈ registerDb.chunks, c.id = h.chunkId ∧
      OfRows c.kind ∧ ¬∃ t ∈ registerCorpus.stored, ∃ a, (c, a) ∈ t.chunks ∧ ShowsCell plainText "%" t a := by
  have hreturned : ∀ query ∈ ["vessel", "%"], ∃ h ∈ structuredSearch registerScorer registerDb query 10 [] none,
      ∃ c ∈ registerDb.chunks, c.id = h.chunkId ∧ OfRows c.kind := by
    decide +kernel
  have hnone : ∀ query ∈ ["vessel", "%"], ∀ p ∈ register.chunks, ¬ShowsCell plainText query register p.2 := by
    decide +kernel
  have hstray : ∀ query ∈ ["vessel", "%"], ∃ h ∈ structuredSearch registerScorer registerDb query 10 [] none,
      ∃ c ∈ registerDb.chunks, c.id = h.chunkId ∧ OfRows c.kind ∧
        ¬∃ t ∈ registerCorpus.stored, ∃ a, (c, a) ∈ t.chunks ∧ ShowsCell plainText query t a := by
    intro query hquery
    obtain ⟨h, hh, c, hc, hid, hkind⟩ := hreturned query hquery
    refine ⟨h, hh, c, hc, hid, hkind, ?_⟩
    rintro ⟨t, ht, a, ha, hshows⟩
    rw [List.mem_singleton.mp ht] at ha hshows
    exact hnone query hquery _ ha hshows
  exact ⟨hstray "vessel" (by simp), hstray "%" (by simp)⟩

end ProRag
