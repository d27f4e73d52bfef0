import ProRag.Ingest.Contents

/-!
# The completeness gate

Docling may drop pages, and `try_docling_parse` takes a parse of less than half of the pages for a failure.  The gate
counts the pages of the elements and tables, whatever their number, and it is skipped where there is none.
-/

namespace ProRag

open Framework

/-- The page that an item adds to the covered ones. -/
def DoclingItem.addsPage (item : DoclingItem) : Option Int :=
  let pageNo : Nat := (item.prov.map fun prov => prov.pageNo).getD 0
  if item.labelText = "section_header".toList ∨ item.labelText = "title".toList ∨ item.labelText = "heading".toList then none
  else if item.labelText = "table".toList ∨ item.typeName = "TableItem".toList then
    if item.frame.isSome ∧ pageNo ≠ 0 then some pageNo else none
  else if (item.text.getD []).any fun c => !isPySpace c then some (if pageNo = 0 then 1 else pageNo)
  else none

/-- All pages that the items of a document add, in the document or not. -/
def addedPages (items : List DoclingItem) : List Int := (items.filterMap DoclingItem.addsPage).dedup

/-- The pages of the document, from 1 to `p`, to which an item adds something. -/
def pagesReached (items : List DoclingItem) (p : Nat) : List Nat :=
  (List.range' 1 p).filter fun n => (n : Int) ∈ addedPages items

/-- The pages from 1 to `p` that carry prose or a table. -/
def pagesCarried (prose : List Element) (tables : List TableRecords) (p : Nat) : List Nat :=
  (List.range' 1 p).filter fun n => (∃ e ∈ prose, e.page = n) ∨ ∃ t ∈ tables, t.pageNo = some n

/-- A document is returned with half of its `p` pages, and with less there is none: the plain text is taken. -/
structure GateHolds (settings : Settings) (floats : FloatText) (doc : DoclingDocument) (p : Nat) : Prop where
  returned : ∀ parsed, tryDoclingParse doc = some parsed → p ≤ 2 * (pagesCarried parsed.prose parsed.tables p).length
  fallsBack : 2 * (pagesCarried (doc.items.foldl doclingStep {}).prose (doc.items.foldl doclingStep {}).tables p).length < p →
    tryDoclingParse doc = none ∧
      ∀ pages, parseFile settings floats (.docling (some doc) pages) = .ok (pagesOf settings pages)

variable {settings : Settings} {floats : FloatText} {st : DoclingLoop} {items : List DoclingItem} {doc : DoclingDocument}
  {p : Nat}

theorem mem_coveredPages {n : Int} :
    n ∈ coveredPages st ↔ (∃ e ∈ st.prose, e.page = n) ∨ ∃ t ∈ st.tables, ∃ k : Nat, t.pageNo = some k ∧ k ≠ 0 ∧ (k : Int) = n := by
  simp only [coveredPages, List.mem_dedup, List.mem_append, List.mem_map, List.mem_filterMap, Option.filter_eq_some_iff,
    Option.bind_eq_bind, Option.bind_eq_some_iff, Option.pure_def, Option.some.injEq, decide_eq_true_eq]
  apply or_congr_right
  constructor
  · intro h
    obtain ⟨_, ⟨t, ht, ⟨k, hk, rfl⟩, hne⟩, rfl⟩ := h
    exact ⟨t, ht, k, hk, Int.natCast_ne_zero.mp hne, rfl⟩
  · intro h
    obtain ⟨t, ht, k, hk, hne, rfl⟩ := h
    exact ⟨k, ⟨t, ht, ⟨k, hk, rfl⟩, Int.natCast_ne_zero.mpr hne⟩, rfl⟩

theorem mem_coveredPages_step (item : DoclingItem) {n : Int} :
    n ∈ coveredPages (doclingStep st item) ↔ n ∈ coveredPages st ∨ item.addsPage = some n := by
  unfold doclingStep DoclingItem.addsPage
  simp only [List.mem_cons, List.not_mem_nil, or_false]
  split
  · simp [mem_coveredPages]
  · split
    · cases item.frame with
      | none => simp
      | some frame =>
        simp only [mem_coveredPages, List.mem_append, List.mem_singleton, Option.isSome_some, true_and]
        cases item.prov with
        | none => simp
        | some prov =>
          by_cases hpage : prov.pageNo = 0
          · simp [hpage, or_and_right, exists_or]
          · simp [hpage, or_and_right, exists_or, or_assoc]
    · split
      · simp only [mem_coveredPages, List.mem_append, List.mem_singleton]
        simp [or_and_right, exists_or, or_right_comm]
      · simp

theorem mem_coveredPages_foldl {n : Int} :
    n ∈ coveredPages (items.foldl doclingStep st) ↔ n ∈ coveredPages st ∨ n ∈ addedPages items := by
  induction items generalizing st with
  | nil => simp [addedPages]
  | cons item items ih =>
    rw [List.foldl_cons, ih, mem_coveredPages_step, or_assoc]
    apply or_congr_right
    simp only [addedPages, List.mem_dedup, List.mem_filterMap, List.mem_cons, exists_eq_or_imp]

theorem coveredPages_length :
    (coveredPages (items.foldl doclingStep {})).length = (addedPages items).length := by
  apply List.Perm.length_eq
  apply (List.perm_ext_iff_of_nodup (List.nodup_dedup _) (List.nodup_dedup _)).mpr
  intro n
  change n ∈ coveredPages _ ↔ n ∈ addedPages items
  rw [mem_coveredPages_foldl]
  simp [mem_coveredPages]

theorem pagesCarried_eq (items : List DoclingItem) (p : Nat) :
    pagesCarried (items.foldl doclingStep {}).prose (items.foldl doclingStep {}).tables p = pagesReached items p := by
  apply List.filter_congr
  intro n hn
  have hpositive : n ≠ 0 := by
    have hrange := List.mem_range'_1.mp hn
    omega
  have hcovered := @mem_coveredPages (items.foldl doclingStep {}) n
  rw [mem_coveredPages_foldl] at hcovered
  have hadded : (n : Int) ∈ addedPages items ↔ (∃ e ∈ (items.foldl doclingStep {}).prose, e.page = n) ∨
      ∃ t ∈ (items.foldl doclingStep {}).tables, t.pageNo = some n := by
    refine Iff.trans ?_ (hcovered.trans (or_congr_right ?_))
    · simp [mem_coveredPages]
    · constructor
      · intro h
        obtain ⟨t, ht, k, hk, _, heq⟩ := h
        exact ⟨t, ht, by rw [hk, Int.ofNat_inj.mp heq]⟩
      · intro h
        obtain ⟨t, ht, hk⟩ := h
        exact ⟨t, ht, n, hk, hpositive, rfl⟩
  simp [hadded]

theorem pagesReached_le (items : List DoclingItem) (p : Nat) : (pagesReached items p).length ≤ (addedPages items).length := by
  have hnodup : ((pagesReached items p).map (Nat.cast : Nat → Int)).Nodup :=
    (List.Nodup.filter _ List.nodup_range').map Nat.cast_injective
  have hsubset : (pagesReached items p).map (Nat.cast : Nat → Int) ⊆ addedPages items := by
    intro n hn
    obtain ⟨k, hk, rfl⟩ := List.mem_map.mp hn
    simpa using (List.mem_filter.mp hk).2
  have hle := (hnodup.subperm hsubset).length_le
  rwa [List.length_map] at hle

/-- The gate holds of a document with some covered page, unless pages outside of the document hide that too few are
inside. -/
theorem gateHolds_iff (settings : Settings) (floats : FloatText) (hpages : doc.numPages = some p) (hp : 0 < p) :
    GateHolds settings floats doc p ↔ addedPages doc.items ≠ [] ∧
      (2 * (addedPages doc.items).length < p ∨ p ≤ 2 * (pagesReached doc.items p).length) := by
  have hle := pagesReached_le doc.items p
  have hgate : tryDoclingParse doc = if (addedPages doc.items).length ≠ 0 ∧ 2 * (addedPages doc.items).length < p then none
      else some ⟨(doc.items.foldl doclingStep {}).prose, (doc.items.foldl doclingStep {}).tables, doc.numPages⟩ := by
    simp only [tryDoclingParse, hpages, Option.getD_some, coveredPages_length, ne_eq, hp.ne', not_false_eq_true, true_and]
  rw [← List.length_pos_iff]
  by_cases hhollow : (addedPages doc.items).length ≠ 0 ∧ 2 * (addedPages doc.items).length < p
  · rw [if_pos hhollow] at hgate
    constructor
    · intro _
      exact ⟨Nat.pos_of_ne_zero hhollow.1, Or.inl hhollow.2⟩
    · intro _
      constructor
      · intro parsed h
        rw [hgate] at h
        cases h
      · intro _
        refine ⟨hgate, fun pages => ?_⟩
        simp only [parseFile, Option.bind_some, hgate]
  · rw [if_neg hhollow] at hgate
    constructor
    · intro h
      have hcarried := h.returned _ hgate
      simp only [pagesCarried_eq] at hcarried
      exact ⟨by omega, Or.inr hcarried⟩
    · intro h
      have hreached : p ≤ 2 * (pagesReached doc.items p).length := by omega
      constructor
      · intro parsed hparsed
        rw [hgate] at hparsed
        obtain rfl := Option.some.inj hparsed
        simpa only [pagesCarried_eq] using hreached
      · intro hfew
        rw [pagesCarried_eq] at hfew
        omega

/-- Two pages of four, one by a table. -/
def halfCovered : DoclingDocument :=
  ⟨[⟨"text".toList, "TextItem".toList, some "Exits are on every floor.".toList, none, none, none⟩,
    ⟨"table".toList, "TableItem".toList, none, some ⟨3, none⟩, some ⟨[], []⟩, none⟩], some 4⟩

theorem gateHolds_half : GateHolds {} noFloats halfCovered 4 ↔ addedPages halfCovered.items ≠ [] ∧
    (2 * (addedPages halfCovered.items).length < 4 ∨ 4 ≤ 2 * (pagesReached halfCovered.items 4).length) :=
  gateHolds_iff {} noFloats rfl (by decide)

/-- A document of four pages without a single item passes the gate, and its file is rejected although the plain text
has content. -/
theorem empty_parse_passes_gate :
    tryDoclingParse ⟨[], some 4⟩ = some ⟨[], [], some 4⟩ ∧
      (pagesOf {} ["Exits are on every floor.".toList]).prose ≠ [] ∧
      (ingestSession pngDigest {} embeddedFaults pngUpload (parsedContents {} noFloats
          (.docling (some ⟨[], some 4⟩) ["Exits are on every floor.".toList]) ⟨id, id, id, id⟩ 9 "application/pdf")
        (Conn.fresh Db.empty fun _ => none)).1 =
        .error (httpException 422 "no extractable text found (scanned image PDF or empty file?)") ∧
      ¬ GateHolds {} noFloats ⟨[], some 4⟩ 4 := by
  refine ⟨rfl, ?_, rfl, ?_⟩
  · have hstream : pageStream ["Exits are on every floor.".toList] ≠ [] := by decide
    have hchunks : chunkPages ["Exits are on every floor.".toList] 700 100 ≠ [] := by
      rw [chunkPages, if_neg hstream, chunkPagesFrom]
      cases hwords : pageStream ["Exits are on every floor.".toList] with
      | nil => exact absurd hwords hstream
      | cons word words => simp
    exact fun h => hchunks (List.map_eq_nil_iff.mp h)
  · intro h
    have hfew := h.returned ⟨[], [], some 4⟩ rfl
    simp [pagesCarried] at hfew

end ProRag
