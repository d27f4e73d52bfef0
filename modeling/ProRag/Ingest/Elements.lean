import Mathlib.Data.Rat.Lemmas
import Mathlib.Algebra.Order.Ring.Rat
import Mathlib.Order.Bounds.Basic
import Mathlib.Data.List.Forall2
import ProRag.Ingest.Chunk

/-!
# Chunking by elements

The elements of a document are cut where the page or the heading changes, and each run is chunked like pages are.
-/

namespace ProRag

open Framework

/-- A `bbox` tuple, by its positions. -/
abbrev PyBox := ℚ × ℚ × ℚ × ℚ

structure Element where
  text : Text
  page : Int
  headingPath : List Text := []
  bbox : Option PyBox := none
deriving DecidableEq

structure StructuredChunk where
  ord : Nat
  text : Text
  embedText : Text
  headingPath : List Text
  pageStart : Int
  pageEnd : Int
  bbox : Option (List ℚ)
  tokenCount : Nat

/-- `_heading_key(heading_path)`. -/
def headingKey (headingPath : List Text) : List Text := headingPath.take 2

/-- `_union_bbox(boxes)`; a minimum or maximum of nothing is not asked for. -/
def unionBbox (boxes : List PyBox) : Option (List ℚ) := do
  let x0 ← (boxes.map fun b => b.1).min?
  let y0 ← (boxes.map fun b => b.2.1).min?
  let x1 ← (boxes.map fun b => b.2.2.1).max?
  let y1 ← (boxes.map fun b => b.2.2.2).max?
  return [x0, y0, x1, y1]

/-- `breadcrumb(heading_path)`. -/
def breadcrumb (headingPath : List Text) : Text :=
  if headingPath = [] then [] else "# ".toList ++ " > ".toList.intercalate headingPath

/-- `(el.page, _heading_key(el.heading_path))`. -/
def groupKey (el : Element) : Int × List Text := (el.page, headingKey el.headingPath)

/-- The variables of `_group_by_page_and_heading`. -/
structure Grouping where
  groups : List (List Element) := []
  current : List Element := []
  currentKey : Option (Int × List Text) := none

/-- One turn of its loop. -/
def groupStep (g : Grouping) (el : Element) : Grouping :=
  let key := groupKey el
  let g := if g.current ≠ [] ∧ some key ≠ g.currentKey then { g with groups := g.groups ++ [g.current], current := [] } else g
  { g with current := g.current ++ [el], currentKey := some key }

/-- `_group_by_page_and_heading(elements)`. -/
def groupByPageAndHeading (elements : List Element) : List (List Element) :=
  let g := elements.foldl groupStep {}
  if g.current = [] then g.groups else g.groups ++ [g.current]

/-- The words of a group, each with its element. -/
def elementStream (group : List Element) : List (Text × Element) :=
  group.flatMap fun el => (pySplit el.text).map fun word => (word, el)

def structuredChunk (ord : Nat) (first : Text × Element) (rest : List (Text × Element)) : StructuredChunk :=
  let window := first :: rest
  let text := joinWords (window.map Prod.fst)
  let crumb := breadcrumb first.2.headingPath
  { ord := ord
    text := text
    embedText := if crumb = [] then text else crumb ++ '\n' :: text
    headingPath := first.2.headingPath
    pageStart := first.2.page
    pageEnd := first.2.page
    bbox := unionBbox (window.filterMap fun p => p.2.bbox)
    tokenCount := window.length }

/-- The `while` loop of `chunk_elements`, from `i` and `ord_` on; `none` is the `IndexError` of an empty window. -/
def chunkGroupFrom (targetTokens overlapTokens : Nat) (stream : List (Text × Element)) (i ord : Nat) :
    Option (List StructuredChunk) :=
  if i < stream.length then
    match (stream.drop i).take targetTokens with
    | [] => none
    | first :: rest =>
      let chunk := structuredChunk ord first rest
      if stream.length ≤ i + targetTokens then some [chunk]
      else (chunkGroupFrom targetTokens overlapTokens stream (i + chunkStep targetTokens overlapTokens) (ord + 1)).map
        fun chunks => chunk :: chunks
  else some []
termination_by stream.length - i
decreasing_by
  have hstep := chunkStep_pos targetTokens overlapTokens
  omega

/-- The `for` loop of `chunk_elements`, from `ord_` on. -/
def chunkGroups (targetTokens overlapTokens : Nat) : List (List Element) → Nat → Option (List StructuredChunk)
  | [], _ => some []
  | group :: groups, ord => do
    let chunks ← chunkGroupFrom targetTokens overlapTokens (elementStream group) 0 ord
    let later ← chunkGroups targetTokens overlapTokens groups (ord + chunks.length)
    return chunks ++ later

/-- `chunk_elements(elements, target_tokens, overlap_tokens)`. -/
def chunkElements (elements : List Element) (targetTokens overlapTokens : Nat) : Option (List StructuredChunk) :=
  if elements = [] then some [] else chunkGroups targetTokens overlapTokens (groupByPageAndHeading elements) 0

/-- The least box around the boxes of a set, if it has one. -/
def TightBox (boxes : Set PyBox) : Option (List ℚ) → Prop
  | none => boxes = ∅
  | some box => ∃ x0 y0 x1 y1, box = [x0, y0, x1, y1] ∧ IsLeast (Set.image (fun b => b.1) boxes) x0 ∧
      IsLeast (Set.image (fun b => b.2.1) boxes) y0 ∧ IsGreatest (Set.image (fun b => b.2.2.1) boxes) x1 ∧
      IsGreatest (Set.image (fun b => b.2.2.2) boxes) y1

/-- The boxes of the elements that give a word to a window. -/
def boxesOf (window : List (Text × Element)) : Set PyBox := {box | ∃ word el, (word, el) ∈ window ∧ el.bbox = some box}

structure RunChunkOf (run : List Element) (size step k : Nat) (c : StructuredChunk) : Prop where
  text : c.text = joinWords ((((elementStream run).drop (k * step)).take size).map Prod.fst)
  tokenCount : c.tokenCount = (pySplit c.text).length
  page : ∀ el ∈ run, c.pageStart = el.page ∧ c.pageEnd = el.page
  heading : ∀ el ∈ run, headingKey c.headingPath = headingKey el.headingPath
  bbox : TightBox (boxesOf (((elementStream run).drop (k * step)).take size)) c.bbox

structure RunChunks (size step : Nat) (run : List Element) (chunks : List StructuredChunk) : Prop where
  windows : WindowsOf size step (run.flatMap fun el => pySplit el.text) (chunks.map fun c => pySplit c.text)
  chunk : ∀ k c, chunks[k]? = some c → RunChunkOf run size step k c

section

variable {targetTokens overlapTokens : Nat} {elements : List Element} {g : Grouping}

/-! ## Groups -/

/-- The groups and the open one are the runs so far; the key is that of the open one. -/
structure GroupedSo (seen : List Element) (g : Grouping) : Prop where
  runs : MaximalRuns groupKey seen (g.groups ++ [g.current])
  key : ∀ el ∈ g.current, g.currentKey = some (groupKey el)

theorem GroupedSo.current {seen : List Element} (h : GroupedSo seen g) : ∃ el, el ∈ g.current := by
  apply List.exists_mem_of_ne_nil
  intro hnil
  apply h.runs.nonempty
  rw [hnil]
  simp

theorem groupStep_first (el : Element) : GroupedSo [el] (groupStep {} el) := by
  constructor
  · exact MaximalRuns.single el
  · intro other hother
    rw [List.mem_singleton.mp hother]
    rfl

theorem groupStep_grouped {seen : List Element} (h : GroupedSo seen g) (el : Element) : GroupedSo (seen ++ [el]) (groupStep g el) := by
  obtain ⟨other, hother⟩ := h.current
  have hkey := h.key other hother
  have hne : g.current ≠ [] := List.ne_nil_of_mem hother
  by_cases hsame : groupKey el = groupKey other
  · have hstep : groupStep g el = { g with current := g.current ++ [el], currentKey := some (groupKey el) } := by
      simp [groupStep, hkey, hsame]
    rw [hstep]
    constructor
    · exact h.runs.prolong hother hsame
    · intro e he
      rcases List.mem_append.mp he with hmem | hlast
      · rw [← h.key e hmem, hkey, hsame]
      · rw [List.mem_singleton.mp hlast]
  · have hstep : groupStep g el =
        { g with groups := g.groups ++ [g.current], current := [el], currentKey := some (groupKey el) } := by
      simp [groupStep, hkey, hsame, hne]
    rw [hstep]
    constructor
    · exact h.runs.start hother hsame
    · intro e he
      rw [List.mem_singleton.mp he]

theorem foldl_grouped {seen : List Element} (h : GroupedSo seen g) (elements : List Element) :
    GroupedSo (seen ++ elements) (elements.foldl groupStep g) := by
  induction elements generalizing seen g with
  | nil => simpa using h
  | cons el elements ih =>
    have hrest := ih (groupStep_grouped h el)
    rw [List.append_assoc, List.singleton_append] at hrest
    exact hrest

theorem groupByPageAndHeading_runs (elements : List Element) :
    MaximalRuns groupKey elements (groupByPageAndHeading elements) := by
  cases elements with
  | nil => exact MaximalRuns.nil groupKey
  | cons el elements =>
    have hgrouped := foldl_grouped (groupStep_first el) elements
    obtain ⟨other, hother⟩ := hgrouped.current
    have hne : ((el :: elements).foldl groupStep {}).current ≠ [] := List.ne_nil_of_mem hother
    simp only [groupByPageAndHeading]
    rw [if_neg hne]
    exact hgrouped.runs

/-! ## Boxes -/

theorem isLeast_min {boxes : List PyBox} {f : PyBox → ℚ} {x : ℚ} (h : (boxes.map f).min? = some x) :
    IsLeast (Set.image f {b | b ∈ boxes}) x := by
  obtain ⟨hmem, hle⟩ := List.min?_eq_some_iff.mp h
  obtain ⟨b, hb, rfl⟩ := List.mem_map.mp hmem
  constructor
  · exact ⟨b, hb, rfl⟩
  · rintro y ⟨c, hc, rfl⟩
    exact hle _ (List.mem_map_of_mem hc)

theorem isGreatest_max {boxes : List PyBox} {f : PyBox → ℚ} {x : ℚ} (h : (boxes.map f).max? = some x) :
    IsGreatest (Set.image f {b | b ∈ boxes}) x := by
  obtain ⟨hmem, hle⟩ := List.max?_eq_some_iff.mp h
  obtain ⟨b, hb, rfl⟩ := List.mem_map.mp hmem
  constructor
  · exact ⟨b, hb, rfl⟩
  · rintro y ⟨c, hc, rfl⟩
    exact hle _ (List.mem_map_of_mem hc)

theorem unionBbox_tight (boxes : List PyBox) : TightBox {b | b ∈ boxes} (unionBbox boxes) := by
  cases boxes with
  | nil => simp [unionBbox, TightBox]
  | cons box boxes =>
    have hmin : ∀ f : PyBox → ℚ, ∃ x, ((box :: boxes).map f).min? = some x := fun f => ⟨_, rfl⟩
    have hmax : ∀ f : PyBox → ℚ, ∃ x, ((box :: boxes).map f).max? = some x := fun f => ⟨_, rfl⟩
    obtain ⟨x0, hx0⟩ := hmin fun b => b.1
    obtain ⟨y0, hy0⟩ := hmin fun b => b.2.1
    obtain ⟨x1, hx1⟩ := hmax fun b => b.2.2.1
    obtain ⟨y1, hy1⟩ := hmax fun b => b.2.2.2
    have hunion : unionBbox (box :: boxes) = some [x0, y0, x1, y1] := by
      unfold unionBbox
      rw [hx0, hy0, hx1, hy1]
      rfl
    rw [hunion]
    exact ⟨x0, y0, x1, y1, rfl, isLeast_min hx0, isLeast_min hy0, isGreatest_max hx1, isGreatest_max hy1⟩

theorem boxesOf_filterMap (window : List (Text × Element)) : {b | b ∈ window.filterMap fun p => p.2.bbox} = boxesOf window := by
  ext box
  simp [boxesOf, List.mem_filterMap]

/-! ## Chunks of a group -/

theorem elementStream_word {group : List Element} {p : Text × Element} (h : p ∈ elementStream group) :
    p.2 ∈ group ∧ p.1 ≠ [] ∧ ∀ c ∈ p.1, isPySpace c = false := by
  obtain ⟨el, hel, hp⟩ := List.mem_flatMap.mp h
  obtain ⟨word, hword, rfl⟩ := List.mem_map.mp hp
  exact ⟨hel, pySplit_word hword⟩

theorem elementStream_words (group : List Element) :
    (elementStream group).map Prod.fst = group.flatMap fun el => pySplit el.text := by
  simp [elementStream, List.map_flatMap, Function.comp_def]

theorem chunkGroupFrom_cut (htarget : 1 ≤ targetTokens) (overlapTokens : Nat) (stream : List (Text × Element)) (i ord : Nat) :
    ∃ chunks, chunkGroupFrom targetTokens overlapTokens stream i ord = some chunks ∧
      IsCut (chunkStride targetTokens overlapTokens htarget) structuredChunk stream i ord chunks := by
  apply IsCut.of_loop fun i ord => chunkGroupFrom targetTokens overlapTokens stream i ord
  · intro i ord hend
    rw [chunkGroupFrom, if_neg (Nat.not_lt.mpr hend)]
  · intro i ord first rest hi hend hwindow
    have hsplit : (stream.drop i).take targetTokens = first :: rest := hwindow
    have hend' : stream.length ≤ i + targetTokens := hend
    rw [chunkGroupFrom, if_pos hi, hsplit]
    simp only [if_pos hend']
  · intro i ord first rest hmore hwindow
    have hsplit : (stream.drop i).take targetTokens = first :: rest := hwindow
    have hmore' : i + targetTokens < stream.length := hmore
    rw [chunkGroupFrom, if_pos (by omega), hsplit]
    simp only [if_neg (Nat.not_le.mpr hmore')]
    rfl

theorem chunkGroupFrom_made {stream : List (Text × Element)} {i ord : Nat} {chunks : List StructuredChunk}
    (h : chunkGroupFrom targetTokens overlapTokens stream i ord = some chunks) :
    ∀ c ∈ chunks, ∃ ord first rest, c = structuredChunk ord first rest := by
  fun_induction chunkGroupFrom targetTokens overlapTokens stream i ord generalizing chunks with
  | case1 => cases h
  | case2 i ord hlt first rest hwindow chunk =>
    cases h
    intro c hc
    exact ⟨ord, first, rest, List.mem_singleton.mp hc⟩
  | case3 i ord hlt first rest hwindow chunk hmore =>
    rename_i ih
    obtain ⟨later, hlater, rfl⟩ := Option.map_eq_some_iff.mp h
    intro c hc
    rcases List.mem_cons.mp hc with rfl | hmem
    · exact ⟨ord, first, rest, rfl⟩
    · exact ih hlater c hmem
  | case4 =>
    cases h
    intro c hc
    cases hc

theorem chunkGroups_made {groups : List (List Element)} {ord : Nat} {chunks : List StructuredChunk}
    (h : chunkGroups targetTokens overlapTokens groups ord = some chunks) :
    ∀ c ∈ chunks, ∃ ord first rest, c = structuredChunk ord first rest := by
  induction groups generalizing ord chunks with
  | nil =>
    cases h
    intro c hc
    cases hc
  | cons group groups ih =>
    simp only [chunkGroups, Option.bind_eq_bind, Option.pure_def, Option.bind_eq_some_iff, Option.some.injEq] at h
    obtain ⟨first, hfirst, later, hlater, rfl⟩ := h
    intro c hc
    rcases List.mem_append.mp hc with hmem | hmem
    · exact chunkGroupFrom_made hfirst c hmem
    · exact ih hlater c hmem

theorem chunkElements_made {chunks : List StructuredChunk} (h : chunkElements elements targetTokens overlapTokens = some chunks) :
    ∀ c ∈ chunks, ∃ ord first rest, c = structuredChunk ord first rest := by
  unfold chunkElements at h
  split at h
  · cases h
    intro c hc
    cases hc
  · exact chunkGroups_made h

theorem structuredChunk_of {run : List Element} {rest : List (Text × Element)} {first : Text × Element} {size step k ord : Nat}
    (halike : ∀ a ∈ run, ∀ b ∈ run, groupKey a = groupKey b)
    (hwindow : ((elementStream run).drop (k * step)).take size = first :: rest) :
    RunChunkOf run size step k (structuredChunk ord first rest) := by
  have hsub : ∀ p ∈ first :: rest, p ∈ elementStream run := by
    intro p hp
    rw [← hwindow] at hp
    exact List.mem_of_mem_drop (List.mem_of_mem_take hp)
  have hsplit : pySplit (structuredChunk ord first rest).text = (first :: rest).map Prod.fst := by
    apply pySplit_joinWords
    intro word hword
    obtain ⟨p, hp, rfl⟩ := List.mem_map.mp hword
    exact (elementStream_word (hsub p hp)).2
  have hfirst : first.2 ∈ run := (elementStream_word (hsub first List.mem_cons_self)).1
  have hkey : ∀ el ∈ run, first.2.page = el.page ∧ headingKey first.2.headingPath = headingKey el.headingPath := by
    intro el hel
    have h := halike first.2 hfirst el hel
    exact ⟨congrArg Prod.fst h, congrArg Prod.snd h⟩
  constructor
  · rw [hwindow]
    rfl
  · rw [hsplit, List.length_map]
    rfl
  · intro el hel
    exact ⟨(hkey el hel).1, (hkey el hel).1⟩
  · intro el hel
    exact (hkey el hel).2
  · rw [hwindow, ← boxesOf_filterMap]
    exact unionBbox_tight _

theorem runChunks_of_cut {run : List Element} {chunks : List StructuredChunk} {ord : Nat} (htarget : 1 ≤ targetTokens)
    (halike : ∀ a ∈ run, ∀ b ∈ run, groupKey a = groupKey b)
    (hcut : IsCut (chunkStride targetTokens overlapTokens htarget) structuredChunk (elementStream run) 0 ord chunks) :
    RunChunks targetTokens (max (targetTokens - overlapTokens) 1) run chunks := by
  constructor
  · rw [← elementStream_words]
    exact hcut.texts (fun _ _ _ => rfl) fun p hp => (elementStream_word hp).2
  · intro k c hc
    obtain ⟨first, rest, hwindow, rfl⟩ := hcut.chunk hc
    exact structuredChunk_of halike hwindow

theorem ord_of_cut {run : List Element} {chunks : List StructuredChunk} {ord : Nat} (htarget : 1 ≤ targetTokens)
    (hcut : IsCut (chunkStride targetTokens overlapTokens htarget) structuredChunk (elementStream run) 0 ord chunks)
    {k : Nat} {c : StructuredChunk} (hc : chunks[k]? = some c) : c.ord = ord + k := by
  obtain ⟨first, rest, _, rfl⟩ := hcut.chunk hc
  rfl

theorem chunkGroups_runs (htarget : 1 ≤ targetTokens) (overlapTokens : Nat) (groups : List (List Element)) (ord : Nat)
    (halike : ∀ group ∈ groups, ∀ a ∈ group, ∀ b ∈ group, groupKey a = groupKey b) :
    ∃ perRun : List (List StructuredChunk), chunkGroups targetTokens overlapTokens groups ord = some perRun.flatten ∧
      List.Forall₂ (RunChunks targetTokens (max (targetTokens - overlapTokens) 1)) groups perRun ∧
      ∀ (k : Nat) (c : StructuredChunk), perRun.flatten[k]? = some c → c.ord = ord + k := by
  induction groups generalizing ord with
  | nil => exact ⟨[], rfl, List.Forall₂.nil, fun k c hc => by simp at hc⟩
  | cons group groups ih =>
    obtain ⟨chunks, hchunks, hcut⟩ := chunkGroupFrom_cut htarget overlapTokens (elementStream group) 0 ord
    obtain ⟨perRun, hlater, hruns, hord⟩ :=
      ih (ord + chunks.length) fun g hg => halike g (List.mem_cons_of_mem _ hg)
    refine ⟨chunks :: perRun, ?_, ?_, ?_⟩
    · simp only [chunkGroups, hchunks, hlater, Option.bind_eq_bind, Option.bind_some, Option.pure_def, List.flatten_cons]
    · exact List.Forall₂.cons (runChunks_of_cut htarget (halike group List.mem_cons_self) hcut) hruns
    · intro k c hc
      rw [List.flatten_cons] at hc
      by_cases hk : k < chunks.length
      · rw [List.getElem?_append_left hk] at hc
        exact ord_of_cut htarget hcut hc
      · rw [List.getElem?_append_right (by omega)] at hc
        rw [hord _ c hc]
        omega

/-- The chunks of the elements cover them, run by run. -/
theorem chunkElements_runs (elements : List Element) (targetTokens overlapTokens : Nat) (htarget : 1 ≤ targetTokens) :
    ∃ (runs : List (List Element)) (perRun : List (List StructuredChunk)),
      chunkElements elements targetTokens overlapTokens = some perRun.flatten ∧
      MaximalRuns (fun el => (el.page, el.headingPath.take 2)) elements runs ∧
      List.Forall₂ (RunChunks targetTokens (max (targetTokens - overlapTokens) 1)) runs perRun ∧
      ∀ (k : Nat) (c : StructuredChunk), perRun.flatten[k]? = some c → c.ord = k := by
  have hruns := groupByPageAndHeading_runs elements
  obtain ⟨perRun, hchunks, hcover, hord⟩ :=
    chunkGroups_runs htarget overlapTokens (groupByPageAndHeading elements) 0 hruns.alike
  refine ⟨groupByPageAndHeading elements, perRun, ?_, hruns, hcover, ?_⟩
  · unfold chunkElements
    split
    · rename_i hnil
      subst hnil
      exact hchunks
    · exact hchunks
  · intro k c hc
    rw [hord k c hc, Nat.zero_add]

theorem chunkElements_runs_two : ∃ (runs : List (List Element)) (perRun : List (List StructuredChunk)),
    chunkElements [⟨"a b".toList, 1, [], some (0, 1, 2, 3)⟩, ⟨"c".toList, 2, [], none⟩] 1 3 = some perRun.flatten ∧
    MaximalRuns (fun el => (el.page, el.headingPath.take 2))
      [⟨"a b".toList, 1, [], some (0, 1, 2, 3)⟩, ⟨"c".toList, 2, [], none⟩] runs ∧
    List.Forall₂ (RunChunks 1 (max (1 - 3) 1)) runs perRun ∧
    ∀ (k : Nat) (c : StructuredChunk), perRun.flatten[k]? = some c → c.ord = k :=
  chunkElements_runs _ 1 3 (by decide)

end

end ProRag
