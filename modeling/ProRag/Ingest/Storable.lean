import ProRag.Ingest.Ceiling

/-!
# Which tables can be stored

The cells of a data frame go into a `jsonb` column as they are.  A row that the serializer or the column refuses
fails the flush that takes it along: that of the next table, or the one of the rule check, whose handler
leaves the session without its transaction.  That flush takes the chunks along too, whose generated column `tsv`
holds texts of a limited length.
-/

namespace ProRag

open Framework

/-- What fits the columns: the size of a `jsonb` value, and the texts of which `to_tsvector` does not get too long. -/
structure ColumnLimits where
  jsonb : PyRow → Bool
  tsvector : String → Bool

/-- `json.dumps` writes the value, and the `jsonb` column takes it. -/
def PyScalar.isJsonb : PyScalar → Bool
  | .nan | .infinity _ | .timestamp _ => false
  | .str s => pgText s
  | _ => true

/-- The same for a key; a float that is not finite becomes a name. -/
def PyScalar.isJsonKey : PyScalar → Bool
  | .timestamp _ => false
  | .str s => pgText s
  | _ => true

def PyScalar.isTimestamp : PyScalar → Bool
  | .timestamp _ => true
  | _ => false

/-- What `json.dumps` raises at an item of a row. -/
def dumpsError? (item : PyScalar × PyScalar) : Option PyError :=
  if item.1.isTimestamp then
    some ⟨"StatementError", "(builtins.TypeError) keys must be str, int, float, bool or None, not Timestamp"⟩
  else if item.2.isTimestamp then
    some ⟨"StatementError", "(builtins.TypeError) Object of type Timestamp is not JSON serializable"⟩
  else none

section

variable (floats : FloatText) (limits : ColumnLimits)

/-- What the INSERT of a row raises. -/
def rowError? (row : PyRow) : Option PyError :=
  (row.findSome? dumpsError?).or
    (if (row.all fun p => p.1.isJsonKey && p.2.isJsonb) && limits.jsonb row then none
    else some ⟨"DBAPIError", "invalid input syntax for type json"⟩)

/-- What the INSERT of a table raises. -/
def tableError? (t : TableRecords) : Option PyError :=
  if t.caption.all pgText && t.columns.all pgText then none
  else some ⟨"DBAPIError", "invalid byte sequence for encoding UTF8: 0x00"⟩

def rowsError? (t : TableRecords) : Option PyError := t.rows.findSome? (rowError? limits)

/-- What the flush of the `i`-th table raises; it takes the rows of the one before along. -/
def tableFault (tables : List TableRecords) (i : Nat) : Option PyError :=
  (tables[i]?.bind tableError?).or (if i = 0 then none else tables[i - 1]?.bind (rowsError? limits))

/-- The texts of the table fit the generated column. -/
def TableRecords.indexed (t : TableRecords) : Bool := (t.artifacts floats).all fun a => limits.tsvector a.text

/-- What the INSERT of the chunks raises.  A chunk has no character that its table and rows do not have. -/
def chunksError? (tables : List TableRecords) : Option PyError :=
  if tables.all (TableRecords.indexed floats limits) then none
  else some ⟨"DBAPIError", "string is too long for tsvector"⟩

/-- The faults of an ingest of these tables, where nothing else fails. -/
def storing (tables : List TableRecords) (faults : IngestFaults) : IngestFaults :=
  { faults with
    table := tableFault limits tables
    rows := (tables.getLast?.bind (rowsError? limits)).or (chunksError? floats limits tables) }

end

/-- One row for each record, under its table and its number. -/
def dataRows (keys : RowKeys) (tables : List TableRecords) : List (Uuid × Nat) :=
  tables.zipIdx.flatMap fun p => (List.range p.1.rows.length).map fun n => (keys.table p.2, n)

/-- The call answers `ready`, and the document is stored with a row for each record. -/
structure TablesStored (keys : RowKeys) (doc : Document) (tables : List TableRecords) (db : Db)
    (run : Except PyError IngestResponse × Conn Db Blobs) : Prop where
  answer : run.1 = .ok ⟨doc.id, .ready, none⟩
  document : run.2.committed.documents = db.documents ++ [{ doc with status := .ready }]
  rows : ∃ rows, run.2.committed.tableRows = db.tableRows ++ rows ∧
    rows.map (fun r => (r.tableId, r.rowNo)) = dataRows keys tables

def StructuredFile.sheets : StructuredFile → List (Option String × DataFrame)
  | .workbook sheets _ => sheets.map fun s => (some s.1, s.2)
  | .separated df => [(none, df)]

/-- What the parsing block makes of a spreadsheet. -/
def StructuredFile.parsed (floats : FloatText) (file : StructuredFile) : ParsedFile :=
  { tables := parseStructured floats file }

/-- The names and labels are texts that the database holds, and where there are records, no label is a timestamp and
every cell is a finite number, a bool, a text or null.  The records and the texts made of the table fit their columns. -/
structure StorableSheet (floats : FloatText) (limits : ColumnLimits) (sheet : Option String × DataFrame) : Prop where
  caption : ∀ name, sheet.1 = some name → pgText name = true
  columns : ∀ label ∈ sheet.2.labels, pgText (label.text floats) = true
  cells : ∀ record ∈ sheet.2.records,
    (∀ label ∈ sheet.2.labels, label.isJsonKey = true) ∧ ∀ cell ∈ record, cell.isJsonb = true
  fits : ∀ row ∈ sheet.2.toDict, limits.jsonb row = true
  texts : ∀ a ∈ (sheet.2.parsed floats sheet.1 none none).artifacts floats, limits.tsvector a.text = true

variable {floats : FloatText} {limits : ColumnLimits}

theorem parseStructured_sheets (floats : FloatText) (file : StructuredFile) :
    parseStructured floats file = file.sheets.map fun s => s.2.parsed floats s.1 none none := by
  cases file with
  | workbook sheets hne => simp [parseStructured, StructuredFile.sheets]
  | separated df => rfl

theorem parseStructured_ne_nil (floats : FloatText) (file : StructuredFile) : parseStructured floats file ≠ [] := by
  cases file with
  | workbook sheets hne => simpa [parseStructured] using hne
  | separated df => simp [parseStructured]

/-! ## The rows -/

theorem isJsonb_of_timestamp {v : PyScalar} (h : v.isTimestamp = true) : v.isJsonKey = false ∧ v.isJsonb = false := by
  cases v with
  | timestamp text => exact ⟨rfl, rfl⟩
  | _ => cases h

theorem dumpsError?_eq_none {item : PyScalar × PyScalar} (hkey : item.1.isJsonKey = true) (hcell : item.2.isJsonb = true) :
    dumpsError? item = none := by
  have hstampedKey : ¬ item.1.isTimestamp = true := by
    intro h
    rw [(isJsonb_of_timestamp h).1] at hkey
    cases hkey
  have hstampedCell : ¬ item.2.isTimestamp = true := by
    intro h
    rw [(isJsonb_of_timestamp h).2] at hcell
    cases hcell
  rw [dumpsError?, if_neg hstampedKey, if_neg hstampedCell]

theorem rowError?_eq_none {row : PyRow} :
    rowError? limits row = none ↔ (∀ p ∈ row, p.1.isJsonKey = true ∧ p.2.isJsonb = true) ∧ limits.jsonb row = true := by
  have hall : ((row.all fun p => p.1.isJsonKey && p.2.isJsonb) && limits.jsonb row) = true ↔
      (∀ p ∈ row, p.1.isJsonKey = true ∧ p.2.isJsonb = true) ∧ limits.jsonb row = true := by
    simp [List.all_eq_true]
  rw [rowError?, Option.or_eq_none_iff, List.findSome?_eq_none_iff, ← hall]
  constructor
  · intro h
    by_contra hrefused
    rw [if_neg hrefused] at h
    cases h.2
  · intro h
    constructor
    · intro p hp
      exact dumpsError?_eq_none ((hall.mp h).1 p hp).1 ((hall.mp h).1 p hp).2
    · rw [if_pos h]

theorem toDict_items {df : DataFrame} : (∀ row ∈ df.toDict, ∀ p ∈ row, p.1.isJsonKey = true ∧ p.2.isJsonb = true) ↔
    ∀ record ∈ df.records, (∀ label ∈ df.labels, label.isJsonKey = true) ∧ ∀ cell ∈ record, cell.isJsonb = true := by
  simp only [DataFrame.toDict, List.forall_mem_map]
  apply forall₂_congr
  intro record hrecord
  have hwidth := df.width record hrecord
  have hlabels : (df.labels.zip record).map Prod.fst = df.labels := List.map_fst_zip (by omega)
  have hcells : (df.labels.zip record).map Prod.snd = record := List.map_snd_zip (by omega)
  constructor
  · intro h
    constructor
    · intro label hlabel
      rw [← hlabels] at hlabel
      obtain ⟨p, hp, rfl⟩ := List.mem_map.mp hlabel
      exact (h p hp).1
    · intro cell hcell
      rw [← hcells] at hcell
      obtain ⟨p, hp, rfl⟩ := List.mem_map.mp hcell
      exact (h p hp).2
  · intro h p hp
    exact ⟨h.1 p.1 (List.of_mem_zip hp).1, h.2 p.2 (List.of_mem_zip hp).2⟩

theorem rowsError?_eq_none {df : DataFrame} {caption : Option String} :
    rowsError? limits (df.parsed floats caption none none) = none ↔
      (∀ record ∈ df.records, (∀ label ∈ df.labels, label.isJsonKey = true) ∧ ∀ cell ∈ record, cell.isJsonb = true) ∧
        ∀ row ∈ df.toDict, limits.jsonb row = true := by
  unfold rowsError?
  rw [List.findSome?_eq_none_iff, ← toDict_items]
  simp only [DataFrame.parsed, rowError?_eq_none]
  exact forall₂_and

theorem tableError?_eq_none {t : TableRecords} :
    tableError? t = none ↔ t.caption.all pgText = true ∧ t.columns.all pgText = true := by
  rw [tableError?, ← Bool.and_eq_true_iff]
  constructor
  · intro h
    by_contra hrefused
    rw [if_neg hrefused] at h
    cases h
  · intro h
    rw [if_pos h]

theorem sheetError?_eq_none {df : DataFrame} {caption : Option String} :
    tableError? (df.parsed floats caption none none) = none ↔
      (∀ name, caption = some name → pgText name = true) ∧ ∀ label ∈ df.labels, pgText (label.text floats) = true := by
  rw [tableError?_eq_none]
  apply and_congr
  · cases caption with
    | none => simp [DataFrame.parsed]
    | some name => simp [DataFrame.parsed]
  · simp [DataFrame.parsed, DataFrame.columns, List.all_eq_true]

/-- Neither the table, nor its rows, nor its texts are refused. -/
def TableRecords.Storable (floats : FloatText) (limits : ColumnLimits) (t : TableRecords) : Prop :=
  tableError? t = none ∧ rowsError? limits t = none ∧ t.indexed floats limits = true

theorem storableSheet_iff {sheet : Option String × DataFrame} :
    StorableSheet floats limits sheet ↔ (sheet.2.parsed floats sheet.1 none none).Storable floats limits := by
  unfold TableRecords.Storable
  rw [sheetError?_eq_none, rowsError?_eq_none, TableRecords.indexed, List.all_eq_true]
  constructor
  · intro h
    exact ⟨⟨h.caption, h.columns⟩, ⟨h.cells, h.fits⟩, h.texts⟩
  · intro h
    exact ⟨h.1.1, h.1.2, h.2.1.1, h.2.1.2, h.2.2⟩

theorem tableFault_eq_none {tables : List TableRecords} {i : Nat} : tableFault limits tables i = none ↔
    (∀ t, tables[i]? = some t → tableError? t = none) ∧
      ∀ j t, i = j + 1 → tables[j]? = some t → rowsError? limits t = none := by
  rw [tableFault, Option.or_eq_none_iff, Option.bind_eq_none_iff]
  apply and_congr Iff.rfl
  cases i with
  | zero => simp
  | succ i =>
    simp only [Nat.succ_ne_zero, if_false, Nat.add_sub_cancel, Option.bind_eq_none_iff, Nat.add_right_cancel_iff]
    constructor
    · rintro h j t rfl ht
      exact h t ht
    · intro h t ht
      exact h i t rfl ht

theorem tableFault_storable {tables : List TableRecords} (h : ∀ t ∈ tables, t.Storable floats limits) (i : Nat) :
    tableFault limits tables i = none := by
  apply tableFault_eq_none.mpr
  constructor
  · intro t ht
    exact (h t (List.mem_of_getElem? ht)).1
  · intro j t _ ht
    exact (h t (List.mem_of_getElem? ht)).2.1

theorem chunksError?_eq_none {tables : List TableRecords} :
    chunksError? floats limits tables = none ↔ ∀ t ∈ tables, t.indexed floats limits = true := by
  rw [chunksError?, ← List.all_eq_true]
  constructor
  · intro h
    by_contra hrefused
    rw [if_neg hrefused] at h
    cases h
  · intro h
    rw [if_pos h]

/-- No flush fails exactly where every table can be stored with its rows and its texts. -/
theorem storing_unfailed_iff {tables : List TableRecords} {faults : IngestFaults} :
    ((∀ i < tables.length, (storing floats limits tables faults).table i = none) ∧
      (storing floats limits tables faults).rows = none) ↔ ∀ t ∈ tables, t.Storable floats limits := by
  simp only [storing, Option.or_eq_none_iff, chunksError?_eq_none]
  constructor
  · intro ⟨hfaults, hlastRows, hindexed⟩ t ht
    obtain ⟨i, hi⟩ := List.mem_iff_getElem?.mp ht
    have hlt := (List.getElem?_eq_some_iff.mp hi).1
    refine ⟨(tableFault_eq_none.mp (hfaults i hlt)).1 t hi, ?_, hindexed t ht⟩
    by_cases hlast : i + 1 < tables.length
    · exact (tableFault_eq_none.mp (hfaults (i + 1) hlast)).2 i t rfl hi
    · rw [List.getLast?_eq_getElem?, show tables.length - 1 = i by omega, hi] at hlastRows
      exact hlastRows
  · intro h
    refine ⟨fun i _ => tableFault_storable h i, ?_, fun t ht => (h t ht).2.2⟩
    cases hlast : tables.getLast? with
    | none => rfl
    | some t => exact (h t (List.mem_of_getLast? hlast)).2.1

/-! ## The call -/

section

variable {keys : RowKeys} {docId : Uuid}

theorem parsedTable_rows (t : TableRecords) (i : Nat) :
    ((keys.parsedTable floats docId t i).rows.map fun r => (r.tableId, r.rowNo)) =
      (List.range t.rows.length).map fun n => (keys.table i, n) := by
  simp only [RowKeys.parsedTable, storeTable, List.map_map]
  rw [List.range_eq_range', ← List.zipIdx_map_snd, List.map_map]
  apply List.map_congr_left
  intro p _
  rfl

theorem tableRows_rows (file : ParsedFile) : (((file.tableRows floats keys docId).flatMap ParsedTable.rows).map
    fun r => (r.tableId, r.rowNo)) = dataRows keys file.tables := by
  rw [ParsedFile.tableRows, List.map_flatMap, List.flatMap_map, dataRows]
  apply List.flatMap_congr
  intro p _
  exact parsedTable_rows p.1 p.2

end

theorem parsedContents_structured (settings : Settings) (floats : FloatText) (file : StructuredFile) (keys : RowKeys)
    (docId : Uuid) (mime : String) : parsedContents settings floats (.structured file) keys docId mime =
      .contents docId mime ((file.parsed floats).proseRows keys docId) ((file.parsed floats).tableRows floats keys docId) :=
  rfl

theorem structured_tables_length (floats : FloatText) (file : StructuredFile) (keys : RowKeys) (docId : Uuid) :
    ((file.parsed floats).tableRows floats keys docId).length = (parseStructured floats file).length := by
  simp [ParsedFile.tableRows, StructuredFile.parsed]

theorem structured_count_pos (floats : FloatText) (file : StructuredFile) : 0 < (file.parsed floats).chunkCount := by
  have hne := parseStructured_ne_nil floats file
  simp only [ParsedFile.chunkCount, StructuredFile.parsed]
  cases htables : parseStructured floats file with
  | nil => exact absurd htables hne
  | cons t ts =>
    simp only [tableChunkCount, TableRecords.chunkCount]
    omega

theorem sheets_storable_iff (file : StructuredFile) : (∀ sheet ∈ file.sheets, StorableSheet floats limits sheet) ↔
    ∀ t ∈ parseStructured floats file, t.Storable floats limits := by
  rw [parseStructured_sheets, List.forall_mem_map]
  apply forall₂_congr
  intro sheet _
  exact storableSheet_iff

/-- With a provider and a database that work, a new spreadsheet is stored exactly where all its sheets can be. -/
theorem tables_stored_iff (sha256Hex : Bytes → String) (settings : Settings) (floats : FloatText) (limits : ColumnLimits)
    (file : StructuredFile) (keys : RowKeys) (u : Upload) (docId : Uuid) (mime : String) (db : Db) (blobs : Blobs)
    (faults : IngestFaults) (embeddings : List Embedding) (hfaults : Faultless faults)
    (hembedded : faults.embedded = .ok embeddings) (hlength : embeddings.length = (file.parsed floats).chunkCount)
    (hnew : db.documentBySha? (sha256Hex u.data) = none) (hid : db.document? docId = none) :
    TablesStored keys (u.document sha256Hex docId mime) (parseStructured floats file) db
        (ingestSession sha256Hex settings (storing floats limits (parseStructured floats file) faults) u
          (parsedContents settings floats (.structured file) keys docId mime) (Conn.fresh db blobs)) ↔
      ∀ sheet ∈ file.sheets, StorableSheet floats limits sheet := by
  rw [sheets_storable_iff, parsedContents_structured]
  constructor
  · intro h
    rcases (ready_stored (Prod.ext h.answer rfl) rfl rfl).2 with hlost | ⟨_, _, _, _, ⟨hunfailed, hrows⟩, _⟩
    · have hdocuments := (congrArg Db.documents hlost).symm.trans h.document
      simp at hdocuments
    · rw [structured_tables_length] at hunfailed
      exact storing_unfailed_iff.mp ⟨hunfailed, hrows⟩
  · intro h
    have hrows : (storing floats limits (parseStructured floats file) faults).rows = none :=
      (storing_unfailed_iff.mpr h).2
    have honly : OnlyRuleFaults (storing floats limits (parseStructured floats file) faults) :=
      ⟨hfaults.lookup, hfaults.flush, tableFault_storable h, hfaults.commit⟩
    obtain ⟨chunks, c, hrun, _, hcommitted⟩ := @contents_stored floats (file.parsed floats) sha256Hex settings _ keys u docId
      mime db blobs embeddings honly (fun _ => ⟨hrows, hfaults.rules, fun i _ => hfaults.grant i⟩) (Nat.zero_le _)
      (structured_count_pos floats file) hnew hid hembedded hlength
    rw [ParsedFile.contents] at hrun
    rw [applyConfirmedRules_frame] at hcommitted
    rw [hrun]
    constructor
    · rfl
    · rw [hcommitted]
      rfl
    · have hstored := @tableRows_rows floats keys docId (file.parsed floats)
      refine ⟨_, ?_, hstored⟩
      rw [hcommitted]
      rfl

def inspectionsUpload : Upload := ⟨[], "inspections.csv", "default"⟩

/-- The records of these files are small, and their texts too short for their column `tsv` to get too long. -/
def smallFile : ColumnLimits := ⟨fun row => decide (row.length ≤ 100), fun text => decide (text.toList.length ≤ 100000)⟩

/-- The provider answers with a vector for the summary and one for the only window. -/
def twoVectors : IngestFaults := { timedOutFaults with embedded := .ok [[1], [1]] }

theorem tables_stored_strings :
    TablesStored ⟨id, id, id, id⟩ (inspectionsUpload.document pngDigest 9 "text/csv")
      (parseStructured noFloats (.separated stringYear)) Db.empty
      (ingestSession pngDigest {}
        (storing noFloats smallFile (parseStructured noFloats (.separated stringYear)) twoVectors) inspectionsUpload
        (parsedContents {} noFloats (.structured (.separated stringYear)) ⟨id, id, id, id⟩ 9 "text/csv")
        (Conn.fresh Db.empty fun _ => none)) := by
  refine (tables_stored_iff pngDigest {} noFloats smallFile (.separated stringYear) ⟨id, id, id, id⟩ inspectionsUpload 9
    "text/csv" Db.empty (fun _ => none) twoVectors [[1], [1]] ⟨rfl, rfl, rfl, fun _ => rfl, rfl, rfl, fun _ => rfl, rfl⟩ rfl
    (by decide) rfl rfl).mpr ?_
  intro sheet hsheet
  rw [List.mem_singleton.mp hsheet]
  constructor
  · intro name hname
    cases hname
  · decide
  · decide
  · decide
  · decide +kernel

def missingResult : DataFrame where
  labels := [.str "vessel", .str "result"]
  records := [[.str "Aurora", .nan]]
  distinct := by decide
  width := by decide

/-- An upload with a missing cell is answered with 500, and nothing of it is stored. -/
theorem missing_cell_not_stored :
    (({} : Settings).maxChunksPerDocument = 20000 ∧ missingResult.records.length = 1) ∧
    (ingestSession pngDigest {}
      (storing noFloats smallFile (parseStructured noFloats (.separated missingResult)) twoVectors) inspectionsUpload
      (parsedContents {} noFloats (.structured (.separated missingResult)) ⟨id, id, id, id⟩ 9 "text/csv")
      (Conn.fresh Db.empty fun _ => none)).1 = .error (httpException 500 "ingestion failed") ∧
    (ingestSession pngDigest {}
      (storing noFloats smallFile (parseStructured noFloats (.separated missingResult)) twoVectors) inspectionsUpload
      (parsedContents {} noFloats (.structured (.separated missingResult)) ⟨id, id, id, id⟩ 9 "text/csv")
      (Conn.fresh Db.empty fun _ => none)).2.committed.documents = [] := by
  refine ⟨⟨rfl, rfl⟩, ?_, ?_⟩
  · rfl
  · rfl

end ProRag
