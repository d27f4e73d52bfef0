import Mathlib.Tactic.Linarith
import ProRag.Ingest.Docling
import ProRag.Operations.Retrieval

/-!
# The viewer's highlight

From the boxes of a document's items to the rectangles that the viewer marks.
-/

namespace ProRag

open Framework

/-- The page's canvas; pixels grow down. -/
structure Viewport where
  width : ℚ
  height : ℚ
  scale : ℚ

structure Rect where
  left : ℚ
  top : ℚ
  width : ℚ
  height : ℚ

/-- The rectangle of a `bbox`, which is marked if it has four numbers. -/
def highlightRect (viewport : Viewport) : List ℚ → Option Rect
  | [x0, y0, x1, y1] =>
    some
      { left := x0 * viewport.scale
        top := viewport.height - y1 * viewport.scale
        width := (x1 - x0) * viewport.scale
        height := (y1 - y0) * viewport.scale }
  | _ => none

/-- `boxes` of the render effect. -/
def highlightBoxes (viewport : Viewport) (page : Nat) (sources : List Source) : List Rect :=
  (sources.filter fun s => s.page.getD 1 = page).filterMap fun s => s.bbox.bind (highlightRect viewport)

/-- Where a box of the document stands on the canvas. -/
def canvasImage (viewport : Viewport) (box : DoclingBox) : Rect where
  left := box.l * viewport.scale
  top := viewport.height - box.t * viewport.scale
  width := (box.r - box.l) * viewport.scale
  height := (box.t - box.b) * viewport.scale

/-- A rectangle lies in another. -/
structure Rect.Covers (outer inner : Rect) : Prop where
  left : outer.left ≤ inner.left
  right : inner.left + inner.width ≤ outer.left + outer.width
  top : outer.top ≤ inner.top
  bottom : inner.top + inner.height ≤ outer.top + outer.height

/-- At every scale the highlight of a chunk is a rectangle around the images of the boxes. -/
def HighlightCovers (boxes : Set DoclingBox) (c : StructuredChunk) : Prop :=
  ∀ (viewport : Viewport) (page : Nat) (source : Source), 0 < viewport.scale → source.bbox = c.bbox →
    ∀ rect ∈ highlightBoxes viewport page [source],
      0 ≤ rect.width ∧ 0 ≤ rect.height ∧ ∀ box ∈ boxes, rect.Covers (canvasImage viewport box)

/-- The windows of all groups, in the order of their chunks. -/
def chunkWindows {targetTokens : Nat} (htarget : 1 ≤ targetTokens) (overlapTokens : Nat) (elements : List Element) :
    List (List (Text × Element)) :=
  (groupByPageAndHeading elements).flatMap fun group =>
    (chunkStride targetTokens overlapTokens htarget).windows (elementStream group)

def textAndBox (window : List (Text × Element)) : Text × Option (List ℚ) :=
  (joinWords (window.map Prod.fst), unionBbox (window.filterMap fun p => p.2.bbox))

/-- The boxes of the items whose words are in a window. -/
def doclingBoxesOf (window : List (Text × Element)) : Set DoclingBox :=
  {box | ∃ word el, (word, el) ∈ window ∧ el.bbox = some (doclingBbox box)}

/-- No top edge is above all bottom edges, and no bottom edge below all top edges. -/
def FlatAtEnds (boxes : Set DoclingBox) : Prop :=
  (∀ a ∈ boxes, ∃ b ∈ boxes, a.t ≤ b.b) ∧ ∀ a ∈ boxes, ∃ b ∈ boxes, b.t ≤ a.b

section

variable {targetTokens overlapTokens : Nat} {boxes : Set DoclingBox} {c : StructuredChunk} {box : List ℚ}

theorem chunkGroups_windows (htarget : 1 ≤ targetTokens) (overlapTokens : Nat) (groups : List (List Element)) (ord : Nat) :
    ∃ chunks, chunkGroups targetTokens overlapTokens groups ord = some chunks ∧
      chunks.map (fun c => (c.text, c.bbox)) =
        (groups.flatMap fun group => (chunkStride targetTokens overlapTokens htarget).windows (elementStream group)).map
          textAndBox := by
  induction groups generalizing ord with
  | nil => exact ⟨[], rfl, rfl⟩
  | cons group groups ih =>
    obtain ⟨chunks, hchunks, hcut⟩ := chunkGroupFrom_cut htarget overlapTokens (elementStream group) 0 ord
    obtain ⟨later, hlater, hwindows⟩ := ih (ord + chunks.length)
    apply Exists.intro (chunks ++ later)
    constructor
    · simp only [chunkGroups, hchunks, hlater, Option.bind_eq_bind, Option.bind_some, Option.pure_def]
    · have hgroup := hcut.map (f := fun c => (c.text, c.bbox)) (g := textAndBox) fun _ _ _ => rfl
      rw [List.map_append, hwindows, List.flatMap_cons, List.map_append, hgroup]

theorem chunkElements_windows (htarget : 1 ≤ targetTokens) {elements : List Element} {chunks : List StructuredChunk}
    (h : chunkElements elements targetTokens overlapTokens = some chunks) :
    chunks.map (fun c => (c.text, c.bbox)) = (chunkWindows htarget overlapTokens elements).map textAndBox := by
  obtain ⟨made, hmade, hwindows⟩ := chunkGroups_windows htarget overlapTokens (groupByPageAndHeading elements) 0
  unfold chunkElements at h
  split at h
  · rename_i hnil
    subst hnil
    obtain rfl := Option.some.inj h
    rfl
  · rw [hmade] at h
    obtain rfl := Option.some.inj h
    exact hwindows

theorem chunkWindows_elements (htarget : 1 ≤ targetTokens) {elements : List Element} {window : List (Text × Element)}
    (h : window ∈ chunkWindows htarget overlapTokens elements) : ∀ p ∈ window, p.2 ∈ elements := by
  intro p hp
  obtain ⟨group, hgroup, hwindow⟩ := List.mem_flatMap.mp h
  obtain ⟨i, _, rfl⟩ := List.mem_map.mp hwindow
  have hmem := (elementStream_word (List.mem_of_mem_drop (List.mem_of_mem_take hp))).1
  rw [← (groupByPageAndHeading_runs elements).joined]
  exact List.mem_flatten_of_mem hgroup hmem

theorem boxesOf_docling {prose : List Element} {window : List (Text × Element)} (hprose : FromBoxes prose)
    (hwindow : ∀ p ∈ window, p.2 ∈ prose) : boxesOf window = Set.image doclingBbox (doclingBoxesOf window) := by
  ext box
  constructor
  · rintro ⟨word, el, hmem, hbox⟩
    obtain ⟨b, rfl⟩ := hprose el (hwindow _ hmem) box hbox
    exact ⟨b, ⟨word, el, hmem, hbox⟩, rfl⟩
  · rintro ⟨b, ⟨word, el, hmem, hbox⟩, rfl⟩
    exact ⟨word, el, hmem, hbox⟩

theorem tightBox_docling (h : TightBox (Set.image doclingBbox boxes) (some box)) :
    ∃ x0 y0 x1 y1, box = [x0, y0, x1, y1] ∧ (∀ a ∈ boxes, x0 ≤ a.l ∧ y0 ≤ a.t ∧ a.r ≤ x1 ∧ a.b ≤ y1) ∧
      (∃ a ∈ boxes, a.t = y0) ∧ (∃ a ∈ boxes, a.b = y1) ∧ x0 ≤ x1 := by
  obtain ⟨x0, y0, x1, y1, rfl, hx0, hy0, hx1, hy1⟩ := h
  have hall : ∀ a ∈ boxes, x0 ≤ a.l ∧ y0 ≤ a.t ∧ a.r ≤ x1 ∧ a.b ≤ y1 := by
    intro a ha
    have hmem : doclingBbox a ∈ Set.image doclingBbox boxes := ⟨a, ha, rfl⟩
    exact ⟨hx0.2 ⟨_, hmem, rfl⟩, hy0.2 ⟨_, hmem, rfl⟩, hx1.2 ⟨_, hmem, rfl⟩, hy1.2 ⟨_, hmem, rfl⟩⟩
  obtain ⟨_, ⟨a, ha, rfl⟩, hlow⟩ := hy0.1
  obtain ⟨_, ⟨b, hb, rfl⟩, hhigh⟩ := hy1.1
  refine ⟨x0, y0, x1, y1, rfl, hall, ⟨a, ha, hlow⟩, ⟨b, hb, hhigh⟩, ?_⟩
  have hedges := hall a ha
  linarith [a.l_le]

theorem covers_canvasImage {viewport : Viewport} (hscale : 0 < viewport.scale) (a : DoclingBox) (x0 y0 x1 y1 : ℚ) {rect : Rect}
    (hrect : highlightRect viewport [x0, y0, x1, y1] = some rect) :
    rect.Covers (canvasImage viewport a) ↔ x0 ≤ a.l ∧ a.r ≤ x1 ∧ a.t ≤ y1 ∧ y0 ≤ a.b := by
  obtain rfl := Option.some.inj hrect
  have hle : ∀ x y : ℚ, x * viewport.scale ≤ y * viewport.scale ↔ x ≤ y := fun x y => mul_le_mul_iff_of_pos_right hscale
  constructor
  · rintro ⟨hleft, hright, htop, hbottom⟩
    simp only [canvasImage] at hleft hright htop hbottom
    refine ⟨(hle _ _).mp hleft, (hle _ _).mp ?_, (hle _ _).mp ?_, (hle _ _).mp ?_⟩
    · linarith
    · linarith
    · linarith
  · rintro ⟨hleft, hright, htop, hbottom⟩
    rw [← hle] at hleft hright htop hbottom
    constructor
    · exact hleft
    · simp only [canvasImage]
      linarith
    · simp only [canvasImage]
      linarith
    · simp only [canvasImage]
      linarith

theorem mem_highlightBoxes {viewport : Viewport} {page : Nat} {source : Source} {rect : Rect}
    (h : rect ∈ highlightBoxes viewport page [source]) : ∃ bbox, source.bbox = some bbox ∧ highlightRect viewport bbox = some rect := by
  obtain ⟨s, hs, hrect⟩ := List.mem_filterMap.mp h
  have hmem := List.mem_of_mem_filter hs
  rw [List.mem_singleton] at hmem
  subst hmem
  exact Option.bind_eq_some_iff.mp hrect

/-- The source that a chunk is cited as, on the page that is open. -/
def sourceOf (bbox : Option (List ℚ)) : Source where
  n := 1
  docId := 0
  page := some 1
  fileUrl := ""
  snippet := ""
  score := 0
  title := ""
  kind := none
  bbox := bbox

theorem highlightCovers_iff (htight : TightBox (Set.image doclingBbox boxes) c.bbox) : HighlightCovers boxes c ↔ FlatAtEnds boxes := by
  cases hbbox : c.bbox with
  | none =>
    rw [hbbox] at htight
    have hnone : ∀ a, a ∉ boxes := by
      intro a ha
      have hmem : doclingBbox a ∈ Set.image doclingBbox boxes := ⟨a, ha, rfl⟩
      rw [show Set.image doclingBbox boxes = ∅ from htight] at hmem
      exact hmem
    constructor
    · intro _
      exact ⟨fun a ha => absurd ha (hnone a), fun a ha => absurd ha (hnone a)⟩
    · intro _ viewport page source _ hsource rect hrect
      obtain ⟨bbox, hsome, _⟩ := mem_highlightBoxes hrect
      rw [hsource, hbbox] at hsome
      cases hsome
  | some box =>
    rw [hbbox] at htight
    obtain ⟨x0, y0, x1, y1, rfl, hall, ⟨low, hlow, hy0⟩, ⟨high, hhigh, hy1⟩, hx⟩ := tightBox_docling htight
    constructor
    · intro hcovers
      have hrect := hcovers ⟨0, 0, 1⟩ 1 (sourceOf c.bbox) one_pos rfl
        ⟨x0 * 1, 0 - y1 * 1, (x1 - x0) * 1, (y1 - y0) * 1⟩ (by simp [highlightBoxes, sourceOf, hbbox, highlightRect])
      have hedges : ∀ a ∈ boxes, a.t ≤ y1 ∧ y0 ≤ a.b := by
        intro a ha
        exact ((@covers_canvasImage ⟨0, 0, 1⟩ one_pos a x0 y0 x1 y1 _ rfl).mp (hrect.2.2 a ha)).2.2
      constructor
      · intro a ha
        exact ⟨high, hhigh, hy1 ▸ (hedges a ha).1⟩
      · intro a ha
        exact ⟨low, hlow, hy0 ▸ (hedges a ha).2⟩
    · intro hflat viewport page source hscale hsource rect hrect
      obtain ⟨bbox, hsome, hbox⟩ := mem_highlightBoxes hrect
      rw [hsource, hbbox, Option.some.injEq] at hsome
      subst hsome
      have htop : ∀ a ∈ boxes, a.t ≤ y1 := by
        intro a ha
        obtain ⟨b, hb, hle⟩ := hflat.1 a ha
        exact le_trans hle (hall b hb).2.2.2
      have hbottom : ∀ a ∈ boxes, y0 ≤ a.b := by
        intro a ha
        obtain ⟨b, hb, hle⟩ := hflat.2 a ha
        exact le_trans (hall b hb).2.1 hle
      have hy : y0 ≤ y1 := le_trans (hbottom high hhigh) (le_trans high.b_le (htop high hhigh))
      refine ⟨?_, ?_, ?_⟩
      · obtain rfl := Option.some.inj hbox
        exact mul_nonneg (sub_nonneg.mpr hx) hscale.le
      · obtain rfl := Option.some.inj hbox
        exact mul_nonneg (sub_nonneg.mpr hy) hscale.le
      · intro a ha
        have hedges := hall a ha
        exact (covers_canvasImage hscale a x0 y0 x1 y1 hbox).mpr ⟨hedges.1, hedges.2.2.1, htop a ha, hbottom a ha⟩

/-- The highlight of a chunk covers the boxes of its words just where these are flat at both ends. -/
theorem highlight_covers_iff {doc : DoclingDocument} {parsed : ParsedDocument} (hparse : tryDoclingParse doc = some parsed)
    {targetTokens : Nat} (htarget : 1 ≤ targetTokens) (overlapTokens : Nat) {chunks : List StructuredChunk}
    (hchunks : chunkElements parsed.prose targetTokens overlapTokens = some chunks) {k : Nat} {c : StructuredChunk}
    {window : List (Text × Element)} (hc : chunks[k]? = some c)
    (hwindow : (chunkWindows htarget overlapTokens parsed.prose)[k]? = some window) :
    c.text = joinWords (window.map Prod.fst) ∧ (HighlightCovers (doclingBoxesOf window) c ↔ FlatAtEnds (doclingBoxesOf window)) := by
  have hmade := congrArg (fun made => made[k]?) (chunkElements_windows htarget hchunks)
  simp only [List.getElem?_map, hc, hwindow, Option.map_some, Option.some.injEq, textAndBox, Prod.mk.injEq] at hmade
  constructor
  · exact hmade.1
  · apply highlightCovers_iff
    have hprose := boxesOf_docling (tryDoclingParse_boxes hparse)
      (chunkWindows_elements htarget (List.mem_of_getElem? hwindow))
    rw [← hprose, hmade.2, ← boxesOf_filterMap]
    exact unionBbox_tight _

/-- A passage one unit high. -/
def passageBox : DoclingBox := ⟨0, 2, 1, 1, by norm_num, by norm_num⟩

def passageElement : Element := { text := "a".toList, page := 1, bbox := some (doclingBbox passageBox) }

def passageDocument : DoclingDocument where
  items := [{ label := "text".toList, typeName := "TextItem".toList, text := some "a".toList, prov := some ⟨1, some passageBox⟩ }]
  numPages := some 1

theorem passage_parsed : tryDoclingParse passageDocument = some { prose := [passageElement], pageCount := some 1 } := rfl

theorem passage_chunks : chunkElements [passageElement] 700 100 = some [structuredChunk 0 ("a".toList, passageElement) []] := by
  have hgroups : groupByPageAndHeading [passageElement] = [[passageElement]] := rfl
  have hstream : elementStream [passageElement] = [("a".toList, passageElement)] := rfl
  simp [chunkElements, hgroups, chunkGroups, hstream, chunkGroupFrom]

theorem passage_windows : chunkWindows (by decide : 1 ≤ 700) 100 [passageElement] = [[("a".toList, passageElement)]] := by
  have hgroups : groupByPageAndHeading [passageElement] = [[passageElement]] := rfl
  have hstream : elementStream [passageElement] = [("a".toList, passageElement)] := rfl
  simp [chunkWindows, hgroups, hstream, Stride.windows, Stride.starts_last, chunkStride, Stride.windowAt]

theorem highlight_covers_iff_passage :
    HighlightCovers (doclingBoxesOf [("a".toList, passageElement)]) (structuredChunk 0 ("a".toList, passageElement) []) ↔
      FlatAtEnds (doclingBoxesOf [("a".toList, passageElement)]) :=
  (@highlight_covers_iff _ _ passage_parsed 700 (by decide) 100 _ passage_chunks 0 _ _ rfl (by rw [passage_windows]; rfl)).2

/-- Its highlight has a negative height. -/
theorem highlight_misses_passage : ∃ parsed c, tryDoclingParse passageDocument = some parsed ∧
    chunkElements parsed.prose 700 100 = some [c] ∧ ¬ HighlightCovers (doclingBoxesOf [("a".toList, passageElement)]) c := by
  refine ⟨_, _, passage_parsed, passage_chunks, fun hcovers => ?_⟩
  have hrect := hcovers ⟨0, 0, 1⟩ 1 (sourceOf (some [0, 2, 1, 1])) one_pos rfl ⟨0 * 1, 0 - 1 * 1, (1 - 0) * 1, (1 - 2) * 1⟩
    (by simp [highlightBoxes, sourceOf, highlightRect])
  have hheight := hrect.2.1
  norm_num at hheight

end

end ProRag
