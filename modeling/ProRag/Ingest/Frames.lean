import ProRag.Ingest.Docling

/-!
# Tables of data frames

Both parsers make a table of a data frame: its columns become strings, and its records keep the labels as their keys.
The artifacts look a cell up by its column.
-/

namespace ProRag

/-- What a label is as the key of a dict: a bool and a whole float are their integer. -/
def PyScalar.key : PyScalar → PyScalar
  | .bool b => .int (if b then 1 else 0)
  | .float x => if x.den = 1 then .int x.num else .float x
  | v => v

/-- A `DataFrame` with distinct labels. -/
structure DataFrame where
  labels : List PyScalar
  records : List (List PyScalar)
  distinct : (labels.map PyScalar.key).Nodup
  width : ∀ r ∈ records, r.length = labels.length

/-- `df.to_dict(orient="records")`. -/
def DataFrame.toDict (df : DataFrame) : List PyRow := df.records.map df.labels.zip

variable (floats : FloatText)

/-- `[str(c) for c in df.columns]`. -/
def DataFrame.columns (df : DataFrame) : List String := df.labels.map (PyScalar.text floats)

/-- The `ParsedTable` of a frame. -/
def DataFrame.parsed (df : DataFrame) (caption : Option String) (pageNo : Option Nat) (bbox : Option (List ℚ)) : TableRecords where
  caption := caption
  columns := df.columns floats
  rows := df.toDict
  pageNo := pageNo
  bbox := bbox

/-- What pandas reads: the sheets of a workbook with their names, or one file of separated values. -/
inductive StructuredFile
  | workbook (sheets : List (String × DataFrame)) (hne : sheets ≠ [])
  | separated (df : DataFrame)

/-- `parse_structured(data, mime)`. -/
def parseStructured : StructuredFile → List TableRecords
  | .workbook sheets _ => sheets.map fun s => s.2.parsed floats (some s.1) none none
  | .separated df => [df.parsed floats none none none]

/-- A table of a frame. -/
def FromFrame (t : TableRecords) : Prop := ∃ df : DataFrame, t = df.parsed floats t.caption t.pageNo t.bbox

/-- The rows of an artifact's range, by their numbers. -/
def TableArtifact.range (a : TableArtifact) : List Nat :=
  match a.rowStart, a.rowEnd with
  | some first, some last => List.range' first (last + 1 - first)
  | _, _ => []

/-- A summary, and artifacts over the `n` rows in order: single rows of a wide table, windows of another. -/
structure Partitioned (columns : List String) (n windowSize : Nat) (artifacts : List TableArtifact) : Prop where
  summary : ∃ s, artifacts.head? = some s ∧ s.kind = .tableSummary ∧ s.range = []
  ranges : artifacts.tail.flatMap TableArtifact.range = List.range n
  size : ∀ a ∈ artifacts.tail, 0 < a.range.length ∧
    if wideTableColumns < columns.length then a.range.length = 1 else a.range.length ≤ windowSize

/-- What stands in the columns of a row. -/
def rowFields (columns : List String) (row : PyRow) : List String := columns.map (cellText floats row)

/-- The text of rows with given fields: a line for each, or the pairs of one. -/
def fieldsText (columns : List String) (rows : List (List String)) : String :=
  if wideTableColumns < columns.length then
    joinWith "\n" (rows.map fun fields => joinWith " | " (List.zipWith (fun c f => c ++ ": " ++ f) columns fields))
  else
    "| " ++ joinWith " | " columns ++ " |\n| " ++ joinWith " | " (List.replicate columns.length "---") ++ " |\n" ++
      joinWith "\n" (rows.map fun fields => "| " ++ joinWith " | " fields ++ " |")

/-- The parts stand in the text, one behind the other. -/
def InOrder : List (List Char) → List Char → Prop
  | [], _ => True
  | part :: parts, text => ∃ before rest, text = before ++ part ++ rest ∧ InOrder parts rest

/-- A cell under a label that is no string reads like the one under the string of the same text, or is empty
where there is none. -/
def CellsFound (row : PyRow) : Prop :=
  ∀ p ∈ row, (∀ s, p.1 ≠ .str s) →
    (∃ q ∈ row, q.1 = .str (p.1.text floats) ∧ q.2.text floats = p.2.text floats) ∨
      (∀ q ∈ row, q.1 ≠ .str (p.1.text floats)) ∧ p.2.text floats = ""

variable {floats} {columns : List String} {rows : List PyRow} {windowSize : Nat}

/-! ## The ranges -/

theorem range_window {start : Nat} (hsize : 0 < windowSize) (hstart : start < rows.length) :
    List.range' start (start + ((rows.drop start).take windowSize).length - 1 + 1 - start) =
      ((List.range rows.length).drop start).take windowSize := by
  have hlength : start + ((rows.drop start).take windowSize).length - 1 + 1 - start = min windowSize (rows.length - start) := by
    rw [List.length_take, List.length_drop]
    omega
  rw [hlength, List.range_eq_range', List.drop_range', Nat.zero_add, Nat.mul_one]
  by_cases hle : windowSize ≤ rows.length - start
  · rw [min_eq_left hle, List.take_range'_of_length_ge hle]
  · rw [min_eq_right (by omega), List.take_range'_of_length_le (by omega)]

theorem buildRowWindows_ranges (hsize : 0 < windowSize) :
    (buildRowWindows floats columns rows windowSize).flatMap TableArtifact.range = List.range rows.length := by
  have hwindows : ∀ start ∈ windowStarts rows.length windowSize,
      List.range' start (start + ((rows.drop start).take windowSize).length - 1 + 1 - start) =
        ((List.range rows.length).drop start).take windowSize :=
    fun start hstart => range_window hsize (mem_windowStarts hsize hstart)
  have hcount : rows.length ≤ (rows.length + windowSize - 1) / windowSize * windowSize := by
    have hdiv := Nat.lt_div_mul_add hsize (a := rows.length + windowSize - 1)
    omega
  rw [buildRowWindows, List.flatMap_map]
  simp only [TableArtifact.range]
  rw [List.flatMap_congr hwindows, windowStarts, List.flatMap_map, take_windows, List.take_of_length_le]
  simpa using hcount

theorem buildRowKvChunks_ranges :
    (buildRowKvChunks floats columns rows).flatMap TableArtifact.range = List.range rows.length := by
  have hone : ∀ p ∈ rows.zipIdx, List.range' p.2 (p.2 + 1 - p.2) = [p.2] := by
    intro p _
    have hlength : p.2 + 1 - p.2 = 1 := by omega
    rw [hlength, List.range'_one]
  rw [buildRowKvChunks, List.flatMap_map]
  simp only [TableArtifact.range]
  have hmap : rows.zipIdx.flatMap (fun p => [p.2]) = rows.zipIdx.map Prod.snd := List.flatMap_pure_eq_map Prod.snd _
  rw [List.flatMap_congr hone, hmap, List.zipIdx_map_snd, List.range_eq_range']

theorem isWideTable_iff : isWideTable columns = true ↔ wideTableColumns < columns.length := by
  simp [isWideTable]

theorem buildTableArtifacts_partitioned (caption : Option String) (hsize : 0 < windowSize) :
    Partitioned columns rows.length windowSize (buildTableArtifacts floats caption columns rows windowSize) := by
  constructor
  · exact ⟨_, rfl, rfl, rfl⟩
  · rw [buildTableArtifacts, List.tail_cons]
    split
    · exact buildRowKvChunks_ranges
    · exact buildRowWindows_ranges hsize
  · intro a ha
    rw [buildTableArtifacts, List.tail_cons] at ha
    by_cases hwide : isWideTable columns = true
    · rw [if_pos hwide] at ha
      rw [if_pos (isWideTable_iff.mp hwide)]
      obtain ⟨p, _, rfl⟩ := List.mem_map.mp ha
      simp only [TableArtifact.range, List.length_range']
      omega
    · rw [if_neg hwide] at ha
      rw [if_neg (mt isWideTable_iff.mpr hwide)]
      obtain ⟨start, hstart, rfl⟩ := List.mem_map.mp ha
      have hlt := mem_windowStarts hsize hstart
      simp only [TableArtifact.range, List.length_range', List.length_take, List.length_drop]
      omega

/-! ## The cells -/

section Cells

variable {row : PyRow} {c : String}

theorem lookup_of_mem {α β : Type} [DecidableEq α] {d : List (α × β)} {p : α × β} (hkeys : (d.map Prod.fst).Nodup)
    (h : p ∈ d) : d.lookup p.1 = some p.2 := by
  induction d with
  | nil => cases h
  | cons q d ih =>
    rw [List.map_cons, List.nodup_cons] at hkeys
    rcases List.mem_cons.mp h with rfl | hmem
    · exact List.lookup_cons_self
    · have hne : p.1 ≠ q.1 := by
        intro heq
        exact hkeys.1 (heq ▸ List.mem_map_of_mem hmem)
      rw [List.lookup_cons, beq_eq_false_iff_ne.mpr hne]
      exact ih hkeys.2 hmem

theorem cellText_of_mem {p : PyScalar × PyScalar} (hkeys : (row.map Prod.fst).Nodup) (h : p ∈ row) (hc : p.1 = .str c) :
    cellText floats row c = p.2.text floats := by
  have hlookup := lookup_of_mem hkeys h
  rw [hc] at hlookup
  simp only [cellText, hlookup]

theorem cellText_of_none (h : ∀ p ∈ row, p.1 ≠ .str c) : cellText floats row c = "" := by
  have hlookup : row.lookup (.str c) = none := by
    rw [List.lookup_eq_none_iff]
    intro p hp
    exact bne_iff_ne.mpr fun heq => h p hp heq.symm
  simp only [cellText, hlookup]

theorem rowFields_eq_iff (hkeys : (row.map Prod.fst).Nodup) :
    rowFields floats (row.map fun p => p.1.text floats) row = row.map (fun p => p.2.text floats) ↔ CellsFound floats row := by
  unfold rowFields CellsFound
  rw [List.map_map, List.map_inj_left]
  apply forall₂_congr
  intro p hp
  simp only [Function.comp_apply]
  constructor
  · intro heq _
    by_cases hfound : ∃ q ∈ row, q.1 = .str (p.1.text floats)
    · obtain ⟨q, hq, hlabel⟩ := hfound
      left
      exact ⟨q, hq, hlabel, (cellText_of_mem hkeys hq hlabel).symm.trans heq⟩
    · right
      have hnone : ∀ q ∈ row, q.1 ≠ .str (p.1.text floats) := fun q hq hlabel => hfound ⟨q, hq, hlabel⟩
      exact ⟨hnone, heq.symm.trans (cellText_of_none hnone)⟩
  · intro hcell
    by_cases hstring : ∃ s, p.1 = .str s
    · obtain ⟨s, hs⟩ := hstring
      have htext : p.1 = .str (p.1.text floats) := by rw [hs, PyScalar.text]
      exact cellText_of_mem hkeys hp htext
    · rcases hcell fun s hs => hstring ⟨s, hs⟩ with hsame | hempty
      · obtain ⟨q, hq, hlabel, htext⟩ := hsame
        rw [cellText_of_mem hkeys hq hlabel, htext]
      · rw [cellText_of_none hempty.1, hempty.2]

theorem zip_fields {labels record : List PyScalar} (hwidth : record.length = labels.length) :
    ((labels.zip record).map fun p => p.1.text floats) = labels.map (PyScalar.text floats) ∧
      ((labels.zip record).map fun p => p.2.text floats) = record.map (PyScalar.text floats) := by
  have hlabels : (labels.zip record).map Prod.fst = labels := List.map_fst_zip (by omega)
  have hcells : (labels.zip record).map Prod.snd = record := List.map_snd_zip (by omega)
  constructor
  · have h := congrArg (List.map (PyScalar.text floats)) hlabels
    rw [List.map_map] at h
    exact h
  · have h := congrArg (List.map (PyScalar.text floats)) hcells
    rw [List.map_map] at h
    exact h

end Cells

/-! ## The texts -/

theorem InOrder.infix {parts : List (List Char)} {text longer : List Char} (h : InOrder parts text) (hin : text <:+: longer) :
    InOrder parts longer := by
  obtain ⟨front, back, hlonger⟩ := hin
  induction parts generalizing front text longer with
  | nil => trivial
  | cons part parts ih =>
    obtain ⟨before, rest, rfl, hrest⟩ := h
    refine ⟨front ++ before, rest ++ back, ?_, ?_⟩
    · rw [← hlonger]
      simp
    · exact ih hrest [] (by simp)

theorem InOrder.intercalate (sep : List Char) {parts lines : List (List Char)}
    (h : List.Forall₂ (fun part line => part <:+: line) parts lines) : InOrder parts (sep.intercalate lines) := by
  induction h with
  | nil => trivial
  | @cons part line parts lines hin _ ih =>
    obtain ⟨before, after, hline⟩ := hin
    cases lines with
    | nil =>
      refine ⟨before, after, ?_, ?_⟩
      · rw [List.intercalate_singleton, ← hline]
      · exact ih.infix (by simp)
    | cons next lines =>
      refine ⟨before, after ++ sep ++ sep.intercalate (next :: lines), ?_, ?_⟩
      · rw [List.intercalate_cons_cons, ← hline]
        simp
      · exact ih.infix (List.suffix_append _ _).isInfix

theorem infix_intercalate (sep : List Char) {line : List Char} {lines : List (List Char)} (h : line ∈ lines) :
    line <:+: sep.intercalate lines := by
  induction lines with
  | nil => cases h
  | cons first lines ih =>
    cases lines with
    | nil =>
      obtain rfl := List.mem_singleton.mp h
      simp [List.intercalate_singleton]
    | cons next lines =>
      rw [List.intercalate_cons_cons]
      rcases List.mem_cons.mp h with rfl | hmem
      · exact (List.prefix_append _ _).isInfix.trans (List.prefix_append _ _).isInfix
      · exact (ih hmem).trans (List.suffix_append _ _).isInfix

theorem toList_joinWith (sep : String) (parts : List String) :
    (joinWith sep parts).toList = sep.toList.intercalate (parts.map String.toList) := by
  rw [joinWith, String.toList_intercalate]

theorem forall₂_infix_self (parts : List (List Char)) : List.Forall₂ (fun part line => part <:+: line) parts parts := by
  induction parts with
  | nil => exact List.Forall₂.nil
  | cons part parts ih => exact List.Forall₂.cons (List.infix_refl part) ih

theorem fieldsText_inOrder {rows : List (List String)} {fields : List String} (hmem : fields ∈ rows)
    (hwidth : fields.length = columns.length) : InOrder (fields.map String.toList) (fieldsText columns rows).toList := by
  unfold fieldsText
  split
  · have hfields : List.Forall₂ (fun part line => part <:+: line) (fields.map String.toList)
        ((List.zipWith (fun c f => c ++ ": " ++ f) columns fields).map String.toList) := by
      clear hmem
      rename_i hwide
      clear hwide
      induction columns generalizing fields with
      | nil =>
        rw [List.length_eq_zero_iff.mp hwidth]
        exact List.Forall₂.nil
      | cons c columns ih =>
        cases fields with
        | nil => cases hwidth
        | cons f fields =>
          refine List.Forall₂.cons ?_ (ih (by simpa using hwidth))
          rw [String.toList_append]
          exact (List.suffix_append _ _).isInfix
    have hline := InOrder.intercalate " | ".toList hfields
    rw [← toList_joinWith] at hline
    rw [toList_joinWith]
    apply hline.infix
    apply infix_intercalate
    rw [List.map_map]
    exact List.mem_map_of_mem hmem
  · have hline := InOrder.intercalate " | ".toList (forall₂_infix_self (fields.map String.toList))
    rw [← toList_joinWith] at hline
    simp only [String.toList_append, toList_joinWith "\n"]
    apply hline.infix
    refine List.IsInfix.trans ?_ (List.suffix_append _ _).isInfix
    refine List.IsInfix.trans ?_ (infix_intercalate _ (List.mem_map_of_mem (List.mem_map_of_mem hmem)))
    simp only [String.toList_append]
    exact (List.suffix_append _ _).isInfix.trans (List.prefix_append _ _).isInfix

theorem buildTableArtifacts_text (caption : Option String) (hsize : 0 < windowSize) {a : TableArtifact}
    (h : a ∈ (buildTableArtifacts floats caption columns rows windowSize).tail) :
    a.text = fieldsText columns ((a.rowsOf rows).map (rowFields floats columns)) := by
  rw [buildTableArtifacts, List.tail_cons] at h
  by_cases hwide : isWideTable columns = true
  · rw [if_pos hwide] at h
    obtain ⟨row, hrows, htext⟩ := buildRowKvChunks_text h
    rw [htext, hrows, fieldsText, if_pos (isWideTable_iff.mp hwide)]
    simp only [rowText, rowFields, List.map_cons, List.map_nil, List.zipWith_map_right, List.zipWith_self]
    exact String.intercalate_singleton.symm
  · rw [if_neg hwide] at h
    rw [buildRowWindows_text hsize h, fieldsText, if_neg (mt isWideTable_iff.mpr hwide), windowText, List.map_map]
    rfl

theorem mem_rowsOf {a : TableArtifact} {i : Nat} {row : PyRow} (hi : i ∈ a.range) (hrow : rows[i]? = some row) :
    row ∈ a.rowsOf rows := by
  unfold TableArtifact.range at hi
  split at hi
  · rename_i first last hstart hend
    obtain ⟨hfirst, hlast⟩ := List.mem_range'_1.mp hi
    have hrows : a.rowsOf rows = (rows.drop first).take (last + 1 - first) := by
      rw [TableArtifact.rowsOf, hstart, hend]
    rw [hrows]
    apply List.mem_iff_getElem?.mpr
    refine ⟨i - first, ?_⟩
    rw [List.getElem?_take_of_lt (by omega), List.getElem?_drop, Nat.add_sub_cancel' hfirst]
    exact hrow
  · cases hi

/-! ## Both parsers -/

theorem parseStructured_frames {file : StructuredFile} {t : TableRecords} (h : t ∈ parseStructured floats file) :
    FromFrame floats t := by
  cases file with
  | workbook sheets hne =>
    obtain ⟨sheet, _, rfl⟩ := List.mem_map.mp h
    exact ⟨sheet.2, rfl⟩
  | separated df =>
    rw [parseStructured, List.mem_singleton] at h
    rw [h]
    exact ⟨df, rfl⟩

/-- `export_to_dataframe` gives a frame. -/
def FramesOf (floats : FloatText) (items : List DoclingItem) : Prop :=
  ∀ item ∈ items, ∀ frame, item.frame = some frame → ∃ df : DataFrame, frame = ⟨df.columns floats, df.toDict⟩

theorem doclingStep_frames {st : DoclingLoop} {item : DoclingItem} (hst : ∀ t ∈ st.tables, FromFrame floats t)
    (hitem : FramesOf floats [item]) : ∀ t ∈ (doclingStep st item).tables, FromFrame floats t := by
  unfold doclingStep
  simp only
  split
  · exact hst
  · split
    · split
      · exact hst
      · rename_i frame hframe
        obtain ⟨df, rfl⟩ := hitem item (List.mem_singleton_self item) frame hframe
        intro t ht
        rcases List.mem_append.mp ht with hmem | hlast
        · exact hst t hmem
        · rw [List.mem_singleton.mp hlast]
          exact ⟨df, rfl⟩
    · split
      · exact hst
      · exact hst

theorem tryDoclingParse_frames {doc : DoclingDocument} {parsed : ParsedDocument} (hframes : FramesOf floats doc.items)
    (h : tryDoclingParse doc = some parsed) : ∀ t ∈ parsed.tables, FromFrame floats t := by
  have hloop : ∀ (items : List DoclingItem) (st : DoclingLoop), FramesOf floats items →
      (∀ t ∈ st.tables, FromFrame floats t) → ∀ t ∈ (items.foldl doclingStep st).tables, FromFrame floats t := by
    intro items
    induction items with
    | nil => exact fun st _ hst => hst
    | cons item items ih =>
      intro st hitems hst
      apply ih (doclingStep st item)
      · exact fun i hi => hitems i (List.mem_cons_of_mem item hi)
      · apply doclingStep_frames hst
        intro i hi
        rw [List.mem_singleton.mp hi]
        exact hitems item List.mem_cons_self
  rw [(tryDoclingParse_loop h).2]
  exact hloop doc.items {} hframes fun t ht => absurd ht List.not_mem_nil

/-! ## All cells -/

/-- The artifacts of a frame partition its rows, and each shows the cells of its rows in the order of the columns. -/
structure KeepsCells (floats : FloatText) (df : DataFrame) (windowSize : Nat) (artifacts : List TableArtifact) : Prop where
  partitioned : Partitioned (df.columns floats) df.records.length windowSize artifacts
  text : ∀ a ∈ artifacts.tail,
    a.text = fieldsText (df.columns floats) ((a.rowsOf df.toDict).map (rowFields floats (df.columns floats)))
  fields : ∀ a ∈ artifacts.tail, ∀ i ∈ a.range, ∀ record, df.records[i]? = some record →
    rowFields floats (df.columns floats) (df.labels.zip record) = record.map (PyScalar.text floats)
  inOrder : ∀ a ∈ artifacts.tail, ∀ i ∈ a.range, ∀ record, df.records[i]? = some record →
    InOrder (record.map fun v => (v.text floats).toList) a.text.toList

theorem DataFrame.fields_iff {df : DataFrame} {record : List PyScalar} (h : record ∈ df.records) :
    rowFields floats (df.columns floats) (df.labels.zip record) = record.map (PyScalar.text floats) ↔
      CellsFound floats (df.labels.zip record) := by
  have hwidth := df.width record h
  have hkeys : ((df.labels.zip record).map Prod.fst).Nodup := by
    rw [List.map_fst_zip (by omega)]
    exact df.distinct.of_map _
  have hiff := @rowFields_eq_iff floats _ hkeys
  rw [(zip_fields hwidth).1, (zip_fields hwidth).2] at hiff
  exact hiff

/-- No cell is lost exactly where each cell under a label that is no string is found. -/
theorem table_cells_kept_iff (floats : FloatText) (df : DataFrame) (caption : Option String) {windowSize : Nat}
    (hsize : 1 ≤ windowSize) :
    KeepsCells floats df windowSize (buildTableArtifacts floats caption (df.columns floats) df.toDict windowSize) ↔
      ∀ record ∈ df.records, CellsFound floats (df.labels.zip record) := by
  have hrows : df.toDict.length = df.records.length := List.length_map _
  have hpart := @buildTableArtifacts_partitioned floats (df.columns floats) df.toDict windowSize caption hsize
  rw [hrows] at hpart
  constructor
  · intro h record hrecord
    obtain ⟨i, hi⟩ := List.mem_iff_getElem?.mp hrecord
    have hcovered : i ∈ List.range df.records.length := List.mem_range.mpr (List.getElem?_eq_some_iff.mp hi).1
    rw [← hpart.ranges] at hcovered
    obtain ⟨a, ha, hrange⟩ := List.mem_flatMap.mp hcovered
    exact (DataFrame.fields_iff hrecord).mp (h.fields a ha i hrange record hi)
  · intro hfound
    have hfields : ∀ record ∈ df.records,
        rowFields floats (df.columns floats) (df.labels.zip record) = record.map (PyScalar.text floats) :=
      fun record hrecord => (DataFrame.fields_iff hrecord).mpr (hfound record hrecord)
    have htext := fun a ha => @buildTableArtifacts_text floats (df.columns floats) df.toDict windowSize caption hsize a ha
    refine ⟨hpart, htext, ?_, ?_⟩
    · intro a ha i hi record hrecord
      exact hfields record (List.mem_of_getElem? hrecord)
    · intro a ha i hi record hrecord
      have hmem := List.mem_of_getElem? hrecord
      have hrow : df.toDict[i]? = some (df.labels.zip record) := by
        simp [DataFrame.toDict, hrecord]
      have hshown := List.mem_map_of_mem (f := rowFields floats (df.columns floats)) (mem_rowsOf hi hrow)
      rw [hfields record hmem] at hshown
      rw [htext a ha]
      have hwidth : (record.map (PyScalar.text floats)).length = (df.columns floats).length := by
        rw [List.length_map, DataFrame.columns, List.length_map, df.width record hmem]
      have h := fieldsText_inOrder hshown hwidth
      rw [List.map_map] at h
      exact h

def noFloats : FloatText := ⟨fun _ => "0.0", fun _ => "0.0"⟩

/-- A register with a year as a column. -/
def inspections2021 (year : PyScalar) (hyear : PyScalar.key year ≠ .str "vessel") : DataFrame where
  labels := [.str "vessel", year]
  records := [[.str "Aurora", .str "passed"], [.str "Boreas", .str "failed"]]
  distinct := by simpa [PyScalar.key] using hyear.symm
  width := by simp

def stringYear : DataFrame := inspections2021 (.str "2021") (by decide)

/-- A workbook gives the year as an integer. -/
def integerYear : DataFrame := inspections2021 (.int 2021) (by decide)

theorem table_cells_kept_strings :
    KeepsCells noFloats stringYear 1
      (buildTableArtifacts noFloats none (stringYear.columns noFloats) stringYear.toDict 1) := by
  refine (table_cells_kept_iff noFloats stringYear none (by decide)).mpr ?_
  intro record hrecord p hp hlabel
  have hstrings : ∀ label ∈ stringYear.labels, label = .str "vessel" ∨ label = .str "2021" := by decide
  rcases hstrings p.1 (List.of_mem_zip hp).1 with h | h
  · exact absurd h (hlabel "vessel")
  · exact absurd h (hlabel "2021")

/-- Under the column 2021 the row shows nothing. -/
theorem integer_label_loses_cell :
    integerYear.records[0]? = some [.str "Aurora", .str "passed"] ∧
      ∃ a ∈ (buildTableArtifacts noFloats none (integerYear.columns noFloats) integerYear.toDict 25).tail,
        0 ∈ a.range ∧ ¬"passed".toList <:+: a.text.toList := by
  decide +kernel

end ProRag
