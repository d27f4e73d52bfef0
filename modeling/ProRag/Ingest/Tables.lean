import Mathlib.Data.List.Forall2
import ProRag.Models

/-!
# Table artifacts

The chunks of a table are a summary and either windows of rows or, of a wide table, one chunk for each row.
-/

namespace ProRag

/-- The values and the keys of a record.  A `timestamp` is any object of dates or times, with its `str`. -/
inductive PyScalar
  | null
  | bool (b : Bool)
  | int (n : Int)
  | float (x : ℚ)
  | str (s : String)
  | nan
  | infinity (negative : Bool)
  | timestamp (text : String)
deriving DecidableEq

/-- How finite floats are written, by `repr` and as a `numeric` of the database. -/
structure FloatText where
  repr : ℚ → String
  numeric : ℚ → String

/-- A record in the order of its columns. -/
abbrev PyRow := List (PyScalar × PyScalar)

/-- A table as its parser found it. -/
structure TableRecords where
  caption : Option String
  columns : List String
  rows : List PyRow
  pageNo : Option Nat
  bbox : Option (List ℚ)

structure TableArtifact where
  kind : ChunkKind
  text : String
  rowStart : Option Nat := none
  rowEnd : Option Nat := none

def wideTableColumns : Nat := 12

def defaultWindowSize : Nat := 25

/-- `is_wide_table(columns)`. -/
def isWideTable (columns : List String) : Bool := wideTableColumns < columns.length

/-- `sep.join(parts)`. -/
def joinWith (sep : String) (parts : List String) : String := sep.intercalate parts

variable (floats : FloatText)

/-- `str(value)`. -/
def PyScalar.text : PyScalar → String
  | .null => "None"
  | .bool b => if b then "True" else "False"
  | .int n => toString n
  | .float x => floats.repr x
  | .str s => s
  | .nan => "nan"
  | .infinity negative => if negative then "-inf" else "inf"
  | .timestamp text => text

/-- `str(row.get(c, ""))`. -/
def cellText (row : PyRow) (c : String) : String :=
  match row.lookup (.str c) with
  | none => ""
  | some v => v.text floats

/-- `_row_to_markdown(row, columns)`. -/
def rowToMarkdown (columns : List String) (row : PyRow) : String :=
  "| " ++ joinWith " | " (columns.map (cellText floats row)) ++ " |"

/-- `build_table_summary(caption, columns, rows, sample_size)`. -/
def buildTableSummary (caption : Option String) (columns : List String) (rows : List PyRow) (sampleSize : Nat) : String :=
  let title := match caption with
    | none => "Untitled table"
    | some c => if c = "" then "Untitled table" else c
  let sampleMd := joinWith "\n" ((rows.take sampleSize).map (rowToMarkdown floats columns))
  "Table: " ++ title ++ ". Columns: " ++ joinWith ", " columns ++ ". " ++ toString rows.length ++ " rows.\nSample:\n| " ++
    joinWith " | " columns ++ " |\n" ++ sampleMd

/-- Header, rule and body of a window. -/
def windowText (columns : List String) (window : List PyRow) : String :=
  "| " ++ joinWith " | " columns ++ " |\n| " ++ joinWith " | " (List.replicate columns.length "---") ++ " |\n" ++
    joinWith "\n" (window.map (rowToMarkdown floats columns))

/-- `range(0, n, size)`. -/
def windowStarts (n size : Nat) : List Nat :=
  (List.range ((n + size - 1) / size)).map fun i => i * size

/-- `build_row_windows(columns, rows, window_size)`. -/
def buildRowWindows (columns : List String) (rows : List PyRow) (windowSize : Nat) : List TableArtifact :=
  (windowStarts rows.length windowSize).map fun start =>
    let window := (rows.drop start).take windowSize
    { kind := .tableWindow
      text := windowText floats columns window
      rowStart := some start
      rowEnd := some (start + window.length - 1) }

/-- One record as key-value pairs. -/
def rowText (columns : List String) (row : PyRow) : String :=
  joinWith " | " (columns.map fun c => c ++ ": " ++ cellText floats row c)

/-- `build_row_kv_chunks(columns, rows)`. -/
def buildRowKvChunks (columns : List String) (rows : List PyRow) : List TableArtifact :=
  rows.zipIdx.map fun p =>
    { kind := .row
      text := rowText floats columns p.1
      rowStart := some p.2
      rowEnd := some p.2 }

/-- `build_table_artifacts(caption, columns, rows, window_size)`. -/
def buildTableArtifacts (caption : Option String) (columns : List String) (rows : List PyRow) (windowSize : Nat) :
    List TableArtifact :=
  { kind := .tableSummary, text := buildTableSummary floats caption columns rows 3 } ::
    if isWideTable columns then buildRowKvChunks floats columns rows else buildRowWindows floats columns rows windowSize

/-- The artifacts that `_store_table` builds. -/
def TableRecords.artifacts (t : TableRecords) : List TableArtifact :=
  buildTableArtifacts floats t.caption t.columns t.rows defaultWindowSize

def TableArtifact.rowsOf (a : TableArtifact) (rows : List PyRow) : List PyRow :=
  match a.rowStart, a.rowEnd with
  | some first, some last => (rows.drop first).take (last + 1 - first)
  | _, _ => []

variable {floats} {columns : List String} {rows : List PyRow} {windowSize : Nat}

theorem mem_windowStarts {n start : Nat} (hsize : 0 < windowSize) (h : start ∈ windowStarts n windowSize) : start < n := by
  obtain ⟨i, hi, rfl⟩ := List.mem_map.mp h
  rw [List.mem_range, Nat.lt_div_iff_mul_lt hsize] at hi
  omega

theorem window_rowsOf {start : Nat} (hsize : 0 < windowSize) (hstart : start < rows.length) :
    (rows.drop start).take (start + ((rows.drop start).take windowSize).length - 1 + 1 - start) =
      (rows.drop start).take windowSize := by
  have hlength : start + ((rows.drop start).take windowSize).length - 1 + 1 - start = min windowSize (rows.length - start) := by
    rw [List.length_take, List.length_drop]
    omega
  rw [hlength]
  by_cases hle : windowSize ≤ rows.length - start
  · rw [min_eq_left hle]
  · rw [min_eq_right (by omega), List.take_of_length_le (by simp), List.take_of_length_le (by simp; omega)]

theorem buildRowWindows_text (hsize : 0 < windowSize) {a : TableArtifact} (h : a ∈ buildRowWindows floats columns rows windowSize) :
    a.text = windowText floats columns (a.rowsOf rows) := by
  obtain ⟨start, hstart, rfl⟩ := List.mem_map.mp h
  simp only [TableArtifact.rowsOf, window_rowsOf hsize (mem_windowStarts hsize hstart)]

theorem buildRowKvChunks_text {a : TableArtifact} (h : a ∈ buildRowKvChunks floats columns rows) :
    ∃ row, a.rowsOf rows = [row] ∧ a.text = rowText floats columns row := by
  obtain ⟨⟨row, i⟩, hrow, rfl⟩ := List.mem_map.mp h
  have hget := List.mem_zipIdx_iff_getElem?.mp hrow
  refine ⟨row, ?_, rfl⟩
  have hone : i + 1 - i = 1 := by omega
  simp only [TableArtifact.rowsOf, hone, List.take_one, List.head?_drop]
  rw [hget]
  rfl

theorem take_windows {α : Type} (rows : List α) (size k : Nat) :
    (List.range k).flatMap (fun i => (rows.drop (i * size)).take size) = rows.take (k * size) := by
  induction k with
  | zero => simp
  | succ k ih =>
    rw [List.range_succ, List.flatMap_append, ih, List.flatMap_singleton, Nat.succ_mul, List.take_add]

theorem buildTableArtifacts_rows (caption : Option String) (hsize : 0 < windowSize) :
    (buildTableArtifacts floats caption columns rows windowSize).flatMap (fun a => a.rowsOf rows) = rows := by
  rw [buildTableArtifacts, List.flatMap_cons]
  change (if isWideTable columns then buildRowKvChunks floats columns rows
    else buildRowWindows floats columns rows windowSize).flatMap (fun a => a.rowsOf rows) = rows
  split
  · have hrows : ∀ p ∈ rows.zipIdx, (rows.drop p.2).take (p.2 + 1 - p.2) = [p.1] := by
      intro p hp
      have hone : p.2 + 1 - p.2 = 1 := by omega
      rw [hone, List.take_one, List.head?_drop, List.mem_zipIdx_iff_getElem?.mp hp]
      rfl
    rw [buildRowKvChunks, List.flatMap_map]
    simp only [TableArtifact.rowsOf]
    have hmap : rows.zipIdx.flatMap (fun p => [p.1]) = rows.zipIdx.map Prod.fst := List.flatMap_pure_eq_map Prod.fst _
    rw [List.flatMap_congr hrows, hmap, List.zipIdx_map_fst]
  · have hwindows : ∀ start ∈ windowStarts rows.length windowSize,
        (rows.drop start).take (start + ((rows.drop start).take windowSize).length - 1 + 1 - start) =
          (rows.drop start).take windowSize :=
      fun start hstart => window_rowsOf hsize (mem_windowStarts hsize hstart)
    have hcount : rows.length ≤ (rows.length + windowSize - 1) / windowSize * windowSize := by
      have hdiv := Nat.lt_div_mul_add hsize (a := rows.length + windowSize - 1)
      omega
    rw [buildRowWindows, List.flatMap_map]
    simp only [TableArtifact.rowsOf]
    rw [List.flatMap_congr hwindows, windowStarts, List.flatMap_map, take_windows, List.take_of_length_le hcount]

end ProRag
