import ProRag.Ingest.Elements
import ProRag.Ingest.Tables

/-!
# The elements of a converted document

`try_docling_parse`, from the converted document on.
-/

namespace ProRag

open Framework

/-- A box of a document: the origin is at the bottom left. -/
structure DoclingBox where
  l : ℚ
  t : ℚ
  r : ℚ
  b : ℚ
  l_le : l ≤ r
  b_le : b ≤ t

/-- The first `prov` of an item. -/
structure DoclingProv where
  pageNo : Nat
  bbox : Option DoclingBox

/-- What `export_to_dataframe` returns, as its columns and records. -/
structure TableFrame where
  columns : List String
  rows : List PyRow

structure DoclingItem where
  label : Text
  typeName : Text
  text : Option Text
  prov : Option DoclingProv
  frame : Option TableFrame := none
  caption : Option String := none

structure DoclingDocument where
  items : List DoclingItem
  numPages : Option Nat

structure ParsedDocument where
  prose : List Element := []
  tables : List TableRecords := []
  pageCount : Option Nat := none

/-- `(b.l, b.t, b.r, b.b)`. -/
def doclingBbox (b : DoclingBox) : PyBox := (b.l, b.t, b.r, b.b)

/-- The variables of the loop over the items. -/
structure DoclingLoop where
  prose : List Element := []
  tables : List TableRecords := []
  headingStack : List Text := []

/-- `str(label).lower()`. -/
def DoclingItem.labelText (item : DoclingItem) : Text := (if item.label = [] then item.typeName else item.label).map Char.toLower

/-- One turn of the loop over the items. -/
def doclingStep (st : DoclingLoop) (item : DoclingItem) : DoclingLoop :=
  let pageNo := item.prov.map fun prov => prov.pageNo
  let bbox := (item.prov.bind fun prov => prov.bbox).map doclingBbox
  let text := item.text.getD []
  if item.labelText ∈ ["section_header".toList, "title".toList, "heading".toList] then { st with headingStack := [text] }
  else if item.labelText = "table".toList ∨ item.typeName = "TableItem".toList then
    match item.frame with
    | none => st
    | some frame =>
      { st with tables := st.tables ++ [
          { caption := item.caption
            columns := frame.columns
            rows := frame.rows
            pageNo := pageNo
            bbox := bbox.map fun b => [b.1, b.2.1, b.2.2.1, b.2.2.2] }] }
  else if text.any fun c => !isPySpace c then
    -- `page_no or 1`
    let page := if pageNo.getD 0 = 0 then 1 else pageNo.getD 0
    { st with prose := st.prose ++ [{ text := text, page := page, headingPath := st.headingStack, bbox := bbox }] }
  else st

def coveredPages (st : DoclingLoop) : List Int :=
  ((st.prose.map fun e => e.page) ++ (st.tables.filterMap fun t => t.pageNo.filter fun n => n ≠ 0).map fun n => (n : Int)).dedup

/-- `try_docling_parse`, where the conversion has succeeded; `none` is the completeness gate. -/
def tryDoclingParse (doc : DoclingDocument) : Option ParsedDocument :=
  let st := doc.items.foldl doclingStep {}
  let pageCount := doc.numPages.getD 0
  let covered := (coveredPages st).length
  if pageCount ≠ 0 ∧ covered ≠ 0 ∧ 2 * covered < pageCount then none
  else some { prose := st.prose, tables := st.tables, pageCount := doc.numPages }

section

variable {st : DoclingLoop} {item : DoclingItem} {items : List DoclingItem}

def FromBoxes (prose : List Element) : Prop := ∀ el ∈ prose, ∀ box, el.bbox = some box → ∃ b, box = doclingBbox b

theorem doclingStep_boxes (h : FromBoxes st.prose) (item : DoclingItem) : FromBoxes (doclingStep st item).prose := by
  unfold doclingStep
  simp only
  split
  · exact h
  · split
    · split
      · exact h
      · exact h
    · split
      · intro el hel box hbox
        rcases List.mem_append.mp hel with hmem | hlast
        · exact h el hmem box hbox
        · rw [List.mem_singleton.mp hlast] at hbox
          obtain ⟨b, _, rfl⟩ := Option.map_eq_some_iff.mp hbox
          exact ⟨b, rfl⟩
      · exact h

theorem foldl_doclingStep_boxes (h : FromBoxes st.prose) (items : List DoclingItem) :
    FromBoxes (items.foldl doclingStep st).prose := by
  induction items generalizing st with
  | nil => exact h
  | cons item items ih => exact ih (doclingStep_boxes h item)

theorem tryDoclingParse_loop {doc : DoclingDocument} {parsed : ParsedDocument} (h : tryDoclingParse doc = some parsed) :
    parsed.prose = (doc.items.foldl doclingStep {}).prose ∧ parsed.tables = (doc.items.foldl doclingStep {}).tables := by
  unfold tryDoclingParse at h
  simp only at h
  split at h
  · cases h
  · obtain rfl := Option.some.inj h
    exact ⟨rfl, rfl⟩

theorem tryDoclingParse_boxes {doc : DoclingDocument} {parsed : ParsedDocument} (h : tryDoclingParse doc = some parsed) :
    FromBoxes parsed.prose := by
  rw [(tryDoclingParse_loop h).1]
  exact foldl_doclingStep_boxes (fun el hel => absurd hel List.not_mem_nil) doc.items

end

end ProRag
