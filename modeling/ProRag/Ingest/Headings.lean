import ProRag.Ingest.Docling

/-!
# The words of a converted document

A heading is no element of its own: its text is carried to the prose that follows it, and stands in the breadcrumb of
its chunks.
-/

namespace ProRag

open Framework

namespace DoclingItem

variable (item : DoclingItem)

def IsHeading : Prop := item.labelText ∈ ["section_header".toList, "title".toList, "heading".toList]

instance : Decidable item.IsHeading := inferInstanceAs (Decidable (_ ∈ _))

def IsTable : Prop := item.labelText = "table".toList ∨ item.typeName = "TableItem".toList

instance : Decidable item.IsTable := inferInstanceAs (Decidable (_ ∨ _))

/-- Text that becomes an element. -/
def IsProse : Prop := ¬ item.IsHeading ∧ ¬ item.IsTable ∧ ((item.text.getD []).any fun c => !isPySpace c) = true

instance : Decidable item.IsProse := inferInstanceAs (Decidable (_ ∧ _))

/-- Its element, with the headings that are carried to it. -/
def element (headings : List Text) : Element where
  text := item.text.getD []
  page := ((if (item.prov.map fun prov => prov.pageNo).getD 0 = 0 then 1 else (item.prov.map fun prov => prov.pageNo).getD 0 : Nat) : Int)
  headingPath := headings
  bbox := (item.prov.bind fun prov => prov.bbox).map doclingBbox

end DoclingItem

/-- The last heading of some items. -/
def lastHeading (items : List DoclingItem) : Option DoclingItem := (items.filter DoclingItem.IsHeading).getLast?

/-- The last heading in front of some prose. -/
def Carried (items : List DoclingItem) (heading : DoclingItem) : Prop :=
  ∃ before prose after, items = before ++ prose :: after ∧ prose.IsProse ∧ lastHeading before = some heading

/-- Every word of a heading is one of some prose or of a heading that is carried, or the `#` of a breadcrumb. -/
def HeadingWordsFound (items : List DoclingItem) : Prop :=
  ∀ heading ∈ items, heading.IsHeading → ∀ word ∈ pySplit (heading.text.getD []),
    (∃ prose ∈ items, prose.IsProse ∧ word ∈ pySplit (prose.text.getD [])) ∨
      ∃ carried, Carried items carried ∧ (word ∈ pySplit (carried.text.getD []) ∨ word = ['#'])

/-- Every word of the items that are no tables stands in the text or the text to embed of a chunk of these elements. -/
def WordsKept (items : List DoclingItem) (elements : List Element) (targetTokens overlapTokens : Nat) : Prop :=
  ∃ chunks, chunkElements elements targetTokens overlapTokens = some chunks ∧
    ∀ item ∈ items, (item.IsHeading ∨ ¬ item.IsTable) → ∀ word ∈ pySplit (item.text.getD []),
      ∃ c ∈ chunks, word ∈ pySplit c.text ∨ word ∈ pySplit c.embedText

variable {st : DoclingLoop} {items : List DoclingItem} {elements : List Element} {el : Element} {word : Text}
  {targetTokens overlapTokens : Nat}

/-! ## The loop over the items -/

theorem doclingStep_prose (st : DoclingLoop) (item : DoclingItem) :
    (doclingStep st item).headingStack = (if item.IsHeading then [item.text.getD []] else st.headingStack) ∧
      (doclingStep st item).prose = if item.IsProse then st.prose ++ [item.element st.headingStack] else st.prose := by
  unfold doclingStep DoclingItem.IsProse DoclingItem.IsHeading DoclingItem.IsTable DoclingItem.element
  simp only
  by_cases hheading : item.labelText ∈ ["section_header".toList, "title".toList, "heading".toList]
  · simp only [hheading, ↓reduceIte, not_true, false_and, and_self]
  · by_cases htable : item.labelText = "table".toList ∨ item.typeName = "TableItem".toList
    · simp only [hheading, htable, ↓reduceIte, not_true, false_and, and_false]
      cases item.frame with
      | none => exact ⟨rfl, rfl⟩
      | some frame => exact ⟨rfl, rfl⟩
    · by_cases htext : ((item.text.getD []).any fun c => !isPySpace c) = true
      · simp only [hheading, htable, htext, ↓reduceIte, not_false_eq_true, and_self]
      · simp only [hheading, htable, htext, ↓reduceIte, not_false_eq_true, and_false, Bool.false_eq_true, and_self]

theorem append_singleton_eq {α : Type} {xs before after : List α} {x a : α} (h : xs ++ [x] = before ++ a :: after) :
    (after = [] ∧ before = xs ∧ a = x) ∨ ∃ after', after = after' ++ [x] ∧ xs = before ++ a :: after' := by
  rcases List.eq_nil_or_concat after with rfl | ⟨after', b, rfl⟩
  · left
    obtain ⟨hbefore, hlast⟩ := List.append_inj' h rfl
    exact ⟨rfl, hbefore.symm, (List.cons.inj hlast).1.symm⟩
  · right
    have h' : xs ++ [x] = (before ++ a :: after') ++ [b] := by simpa using h
    obtain ⟨hxs, hlast⟩ := List.append_inj' h' rfl
    exact ⟨after', by rw [(List.cons.inj hlast).1, List.concat_eq_append], hxs⟩

/-- The stack holds the last heading, and the prose of the loop are the elements of the prose items, each with the last
heading in front of it. -/
theorem foldl_doclingStep_prose (items : List DoclingItem) :
    (items.foldl doclingStep {}).headingStack = (lastHeading items).toList.map (fun h => h.text.getD []) ∧
      ∀ el, el ∈ (items.foldl doclingStep {}).prose ↔ ∃ before prose after, items = before ++ prose :: after ∧
        prose.IsProse ∧ el = prose.element ((lastHeading before).toList.map fun h => h.text.getD []) := by
  induction items using List.reverseRecOn with
  | nil => simp [lastHeading]
  | append_singleton items item ih =>
    obtain ⟨hstack, hprose⟩ := ih
    obtain ⟨hstackStep, hproseStep⟩ := doclingStep_prose (items.foldl doclingStep {}) item
    rw [List.foldl_append, List.foldl_cons, List.foldl_nil]
    constructor
    · rw [hstackStep, hstack]
      unfold lastHeading
      rw [List.filter_append]
      by_cases hheading : item.IsHeading
      · simp [hheading]
      · simp [hheading]
    · intro el
      rw [hproseStep]
      constructor
      · intro hel
        split at hel
        · rename_i hitem
          rcases List.mem_append.mp hel with hmem | hlast
          · obtain ⟨before, prose, after, rfl, hrest⟩ := (hprose el).mp hmem
            exact ⟨before, prose, after ++ [item], by simp, hrest⟩
          · rw [List.mem_singleton.mp hlast, hstack]
            exact ⟨items, item, [], rfl, hitem, rfl⟩
        · obtain ⟨before, prose, after, rfl, hrest⟩ := (hprose el).mp hel
          exact ⟨before, prose, after ++ [item], by simp, hrest⟩
      · intro hel
        obtain ⟨before, prose, after, hsplit, hisprose, rfl⟩ := hel
        rcases append_singleton_eq hsplit with hlast | hinner
        · obtain ⟨_, rfl, rfl⟩ := hlast
          rw [if_pos hisprose, hstack]
          exact List.mem_append_right _ (List.mem_singleton_self _)
        · obtain ⟨after', _, hitems⟩ := hinner
          have hmem := (hprose _).mpr ⟨before, prose, after', hitems, hisprose, rfl⟩
          split
          · exact List.mem_append_left _ hmem
          · exact hmem

/-! ## The words of the chunks -/

theorem pySplit_breadcrumb (heading : Text) : pySplit (breadcrumb [heading]) = ['#'] :: pySplit heading := by
  have hcrumb : breadcrumb [heading] = "#".toList ++ ' ' :: heading := by simp [breadcrumb]
  rw [hcrumb, pySplit_space]
  rfl

theorem mem_embedText {chunks : List StructuredChunk} (h : chunkElements elements targetTokens overlapTokens = some chunks)
    {c : StructuredChunk} (hc : c ∈ chunks) :
    word ∈ pySplit c.embedText ↔ word ∈ pySplit (breadcrumb c.headingPath) ∨ word ∈ pySplit c.text := by
  obtain ⟨ord, first, rest, rfl⟩ := chunkElements_made h c hc
  simp only [structuredChunk]
  by_cases hcrumb : breadcrumb first.2.headingPath = []
  · rw [if_pos hcrumb, hcrumb]
    simp [pySplit]
  · rw [if_neg hcrumb, pySplit_break (by decide), List.mem_append]

theorem forall₂_exists {α β : Type} {R : α → β → Prop} {as : List α} {bs : List β} (h : List.Forall₂ R as bs) :
    (∀ a ∈ as, ∃ b ∈ bs, R a b) ∧ ∀ b ∈ bs, ∃ a ∈ as, R a b := by
  induction h with
  | nil => simp
  | cons hab _ ih =>
    simp only [List.mem_cons, forall_eq_or_imp, exists_eq_or_imp]
    exact ⟨⟨Or.inl hab, fun a ha => Or.inr (ih.1 a ha)⟩, Or.inl hab, fun b hb => Or.inr (ih.2 b hb)⟩

theorem runChunks_words {size step : Nat} {run : List Element} {chunks : List StructuredChunk} (h : RunChunks size step run chunks) :
    (∃ c ∈ chunks, word ∈ pySplit c.text) ↔ ∃ el ∈ run, word ∈ pySplit el.text := by
  have hwindows := h.windows.exists_mem_iff (x := word)
  simpa [List.mem_map, List.mem_flatMap] using hwindows

theorem runChunks_headingPath {size step : Nat} {run : List Element} {chunks : List StructuredChunk}
    (h : RunChunks size step run chunks) (hflat : ∀ el ∈ run, el.headingPath.length ≤ 1) :
    ∀ c ∈ chunks, ∀ el ∈ run, c.headingPath = el.headingPath := by
  intro c hc el hel
  obtain ⟨k, hk⟩ := List.mem_iff_getElem?.mp hc
  have hkey := (h.chunk k c hk).heading el hel
  have hshort := hflat el hel
  unfold headingKey at hkey
  rw [List.take_of_length_le (by omega : el.headingPath.length ≤ 2)] at hkey
  have hlength := congrArg List.length hkey
  rw [List.length_take] at hlength
  rwa [List.take_of_length_le (by omega)] at hkey

theorem chunkElements_words (htarget : 1 ≤ targetTokens) (overlapTokens : Nat)
    (hwords : ∀ el ∈ elements, pySplit el.text ≠ []) (hflat : ∀ el ∈ elements, el.headingPath.length ≤ 1) :
    ∃ chunks, chunkElements elements targetTokens overlapTokens = some chunks ∧ ∀ word,
      (∃ c ∈ chunks, word ∈ pySplit c.text ∨ word ∈ pySplit c.embedText) ↔
        ∃ el ∈ elements, word ∈ pySplit el.text ∨ word ∈ pySplit (breadcrumb el.headingPath) := by
  obtain ⟨runs, perRun, hchunks, hruns, hcover, _⟩ := chunkElements_runs elements targetTokens overlapTokens htarget
  obtain ⟨hforth, hback⟩ := forall₂_exists hcover
  have hsub : ∀ run ∈ runs, ∀ el ∈ run, el ∈ elements := by
    intro run hrun el hel
    rw [← hruns.joined]
    exact List.mem_flatten.mpr ⟨run, hrun, hel⟩
  refine ⟨perRun.flatten, hchunks, fun word => ?_⟩
  constructor
  · intro h
    obtain ⟨c, hc, hword⟩ := h
    obtain ⟨chunks, hmem, hcmem⟩ := List.mem_flatten.mp hc
    obtain ⟨run, hrun, hof⟩ := hback chunks hmem
    rw [mem_embedText hchunks hc, or_left_comm, or_self] at hword
    rcases hword with hcrumb | htext
    · have hne : run ≠ [] := fun hnil => hruns.nonempty (hnil ▸ hrun)
      obtain ⟨el, hel⟩ := List.exists_mem_of_ne_nil run hne
      have hpath := runChunks_headingPath hof (fun e he => hflat e (hsub run hrun e he)) c hcmem el hel
      rw [hpath] at hcrumb
      exact ⟨el, hsub run hrun el hel, Or.inr hcrumb⟩
    · obtain ⟨el, hel, hword⟩ := (runChunks_words hof).mp ⟨c, hcmem, htext⟩
      exact ⟨el, hsub run hrun el hel, Or.inl hword⟩
  · intro h
    obtain ⟨el, hel, hword⟩ := h
    have hjoined := hel
    rw [← hruns.joined] at hjoined
    obtain ⟨run, hrun, helrun⟩ := List.mem_flatten.mp hjoined
    obtain ⟨chunks, hmem, hof⟩ := hforth run hrun
    rcases hword with htext | hcrumb
    · obtain ⟨c, hc, hword⟩ := (runChunks_words hof).mpr ⟨el, helrun, htext⟩
      exact ⟨c, List.mem_flatten.mpr ⟨chunks, hmem, hc⟩, Or.inl hword⟩
    · obtain ⟨first, hfirst⟩ := List.exists_mem_of_ne_nil _ (hwords el hel)
      obtain ⟨c, hc, _⟩ := (runChunks_words hof).mpr ⟨el, helrun, hfirst⟩
      have hcmem : c ∈ perRun.flatten := List.mem_flatten.mpr ⟨chunks, hmem, hc⟩
      have hpath := runChunks_headingPath hof (fun e he => hflat e (hsub run hrun e he)) c hc el helrun
      refine ⟨c, hcmem, Or.inr ((mem_embedText hchunks hcmem).mpr (Or.inl ?_))⟩
      rwa [hpath]

theorem chunkElements_zero (overlapTokens : Nat) (hne : elements ≠ []) (hwords : ∀ el ∈ elements, pySplit el.text ≠ []) :
    chunkElements elements 0 overlapTokens = none := by
  have hruns := groupByPageAndHeading_runs elements
  unfold chunkElements
  rw [if_neg hne]
  cases hgroups : groupByPageAndHeading elements with
  | nil =>
    have hjoined := hruns.joined
    rw [hgroups] at hjoined
    exact absurd hjoined.symm hne
  | cons group groups =>
    have hgroup : group ∈ groupByPageAndHeading elements := by rw [hgroups]; exact List.mem_cons_self
    have hnonempty : group ≠ [] := fun hnil => hruns.nonempty (hnil ▸ hgroup)
    obtain ⟨el, hel⟩ := List.exists_mem_of_ne_nil group hnonempty
    have hmem : el ∈ elements := by
      rw [← hruns.joined]
      exact List.mem_flatten.mpr ⟨group, hgroup, hel⟩
    have hstream : elementStream group ≠ [] := by
      intro hnil
      have hflat := List.flatMap_eq_nil_iff.mp hnil el hel
      exact hwords el hmem (List.map_eq_nil_iff.mp hflat)
    have hfirst : chunkGroupFrom 0 overlapTokens (elementStream group) 0 0 = none := by
      rw [chunkGroupFrom, if_pos (List.length_pos_iff.mpr hstream)]
      rfl
    simp only [chunkGroups, hfirst, Option.bind_eq_bind, Option.bind_none]

/-! ## The words of the document -/

theorem DoclingItem.IsProse.words {item : DoclingItem} (h : item.IsProse) : pySplit (item.text.getD []) ≠ [] := by
  rw [pySplit_ne_nil]
  simpa using h.2.2

theorem foldl_doclingStep_words (items : List DoclingItem) (word : Text) :
    (∃ el ∈ (items.foldl doclingStep {}).prose, word ∈ pySplit el.text ∨ word ∈ pySplit (breadcrumb el.headingPath)) ↔
      (∃ prose ∈ items, prose.IsProse ∧ word ∈ pySplit (prose.text.getD [])) ∨
        ∃ carried, Carried items carried ∧ (word ∈ pySplit (carried.text.getD []) ∨ word = ['#']) := by
  have hprose := (foldl_doclingStep_prose items).2
  constructor
  · intro h
    obtain ⟨el, hel, hword⟩ := h
    obtain ⟨before, prose, after, hsplit, hisprose, rfl⟩ := (hprose el).mp hel
    rcases hword with htext | hcrumb
    · left
      refine ⟨prose, ?_, hisprose, htext⟩
      rw [hsplit]
      exact List.mem_append_right _ List.mem_cons_self
    · right
      cases hlast : lastHeading before with
      | none => simp [DoclingItem.element, hlast, breadcrumb, pySplit] at hcrumb
      | some carried =>
        refine ⟨carried, ⟨before, prose, after, hsplit, hisprose, hlast⟩, ?_⟩
        simp only [DoclingItem.element, hlast, Option.toList_some, List.map_cons, List.map_nil, pySplit_breadcrumb,
          List.mem_cons] at hcrumb
        exact hcrumb.symm
  · intro h
    rcases h with htext | hcrumb
    · obtain ⟨prose, hmem, hisprose, hword⟩ := htext
      obtain ⟨before, after, hsplit⟩ := List.append_of_mem hmem
      exact ⟨_, (hprose _).mpr ⟨before, prose, after, hsplit, hisprose, rfl⟩, Or.inl hword⟩
    · obtain ⟨carried, ⟨before, prose, after, hsplit, hisprose, hlast⟩, hword⟩ := hcrumb
      refine ⟨_, (hprose _).mpr ⟨before, prose, after, hsplit, hisprose, rfl⟩, Or.inr ?_⟩
      simp only [DoclingItem.element, hlast, Option.toList_some, List.map_cons, List.map_nil, pySplit_breadcrumb, List.mem_cons]
      exact hword.symm

theorem prose_nonblank (hel : el ∈ (items.foldl doclingStep {}).prose) : pySplit el.text ≠ [] := by
  obtain ⟨_, prose, _, _, hisprose, rfl⟩ := ((foldl_doclingStep_prose items).2 el).mp hel
  exact hisprose.words

theorem prose_flat (hel : el ∈ (items.foldl doclingStep {}).prose) : el.headingPath.length ≤ 1 := by
  obtain ⟨before, _, _, _, _, rfl⟩ := ((foldl_doclingStep_prose items).2 el).mp hel
  simp only [DoclingItem.element, List.length_map]
  cases lastHeading before with
  | none => simp
  | some heading => simp

theorem prose_eq_nil (items : List DoclingItem) :
    (∀ item ∈ items, ¬ item.IsProse) ↔ (items.foldl doclingStep {}).prose = [] := by
  have hprose := (foldl_doclingStep_prose items).2
  constructor
  · intro hnone
    apply List.eq_nil_iff_forall_not_mem.mpr
    intro el hel
    obtain ⟨before, prose, after, hsplit, hisprose, _⟩ := (hprose el).mp hel
    refine hnone prose ?_ hisprose
    rw [hsplit]
    exact List.mem_append_right _ List.mem_cons_self
  · intro hnil item hmem hisprose
    obtain ⟨before, after, hsplit⟩ := List.append_of_mem hmem
    have hel := (hprose _).mpr ⟨before, item, after, hsplit, hisprose, rfl⟩
    rw [hnil] at hel
    cases hel

/-- No word of an accepted document is lost, but for the words of headings that no prose carries. -/
theorem words_kept_iff {doc : DoclingDocument} {parsed : ParsedDocument} (h : tryDoclingParse doc = some parsed)
    (targetTokens overlapTokens : Nat) :
    WordsKept doc.items parsed.prose targetTokens overlapTokens ↔
      (0 < targetTokens ∨ ∀ item ∈ doc.items, ¬ item.IsProse) ∧ HeadingWordsFound doc.items := by
  have hnonblank : ∀ el ∈ parsed.prose, pySplit el.text ≠ [] := by
    intro el hel
    rw [(tryDoclingParse_loop h).1] at hel
    exact prose_nonblank hel
  have hflat : ∀ el ∈ parsed.prose, el.headingPath.length ≤ 1 := by
    intro el hel
    rw [(tryDoclingParse_loop h).1] at hel
    exact prose_flat hel
  have hwords := foldl_doclingStep_words doc.items
  have hnoprose := prose_eq_nil doc.items
  rw [← (tryDoclingParse_loop h).1] at hwords hnoprose
  generalize parsed.prose = elements at hnonblank hflat hwords hnoprose
  rw [hnoprose]
  by_cases hruns : 0 < targetTokens ∨ elements = []
  · obtain ⟨chunks, hchunks, hkept⟩ : ∃ chunks, chunkElements elements targetTokens overlapTokens = some chunks ∧ ∀ word,
        (∃ c ∈ chunks, word ∈ pySplit c.text ∨ word ∈ pySplit c.embedText) ↔
          ∃ el ∈ elements, word ∈ pySplit el.text ∨ word ∈ pySplit (breadcrumb el.headingPath) := by
      rcases hruns with htarget | hnil
      · exact chunkElements_words htarget overlapTokens hnonblank hflat
      · rw [hnil]
        exact ⟨[], rfl, by simp⟩
    constructor
    · intro hall
      obtain ⟨chunks', hchunks', hfound⟩ := hall
      obtain rfl := Option.some.inj (hchunks.symm.trans hchunks')
      refine ⟨hruns, fun heading hmem hheading word hword => ?_⟩
      exact (hwords word).mp ((hkept word).mp (hfound heading hmem (Or.inl hheading) word hword))
    · intro hall
      refine ⟨chunks, hchunks, fun item hmem htext word hword => ?_⟩
      apply (hkept word).mpr
      apply (hwords word).mpr
      by_cases hheading : item.IsHeading
      · exact hall.2 item hmem hheading word hword
      · left
        have hnotblank := pySplit_ne_nil.mp (List.ne_nil_of_mem hword)
        exact ⟨item, hmem, ⟨hheading, htext.resolve_left hheading, by simpa using hnotblank⟩, hword⟩
  · obtain ⟨htarget, hne⟩ := not_or.mp hruns
    obtain rfl : targetTokens = 0 := by omega
    have hnone := chunkElements_zero overlapTokens hne hnonblank
    constructor
    · intro hall
      obtain ⟨chunks, hchunks, _⟩ := hall
      rw [hnone] at hchunks
      cases hchunks
    · intro hall
      exact absurd hall.1 hruns

/-- A title, a section and its text. -/
def titledDocument : DoclingDocument :=
  ⟨[⟨"title".toList, "TitleItem".toList, some "Handbook".toList, none, none, none⟩,
    ⟨"section_header".toList, "SectionHeaderItem".toList, some "Exits".toList, none, none, none⟩,
    ⟨"text".toList, "TextItem".toList, some "Doors open.".toList, none, none, none⟩], some 1⟩

theorem words_kept_titled : WordsKept titledDocument.items [⟨"Doors open.".toList, 1, ["Exits".toList], none⟩] 700 100 ↔
    (0 < 700 ∨ ∀ item ∈ titledDocument.items, ¬ item.IsProse) ∧ HeadingWordsFound titledDocument.items :=
  words_kept_iff (rfl : tryDoclingParse titledDocument =
    some ⟨[⟨"Doors open.".toList, 1, ["Exits".toList], none⟩], [], some 1⟩) 700 100

/-- The title in front of a section is in no chunk. -/
theorem title_word_lost : tryDoclingParse titledDocument = some ⟨[⟨"Doors open.".toList, 1, ["Exits".toList], none⟩], [], some 1⟩ ∧
    ¬ WordsKept titledDocument.items [⟨"Doors open.".toList, 1, ["Exits".toList], none⟩] 700 100 := by
  refine ⟨rfl, ?_⟩
  intro h
  obtain ⟨chunks, hchunks, hfound⟩ := h
  obtain ⟨chunks', hchunks', hkept⟩ := @chunkElements_words [⟨"Doors open.".toList, 1, ["Exits".toList], none⟩] 700
    (by decide) 100 (by decide) (by decide)
  obtain rfl := Option.some.inj (hchunks.symm.trans hchunks')
  have hword := hfound ⟨"title".toList, "TitleItem".toList, some "Handbook".toList, none, none, none⟩ List.mem_cons_self
    (Or.inl (by decide)) "Handbook".toList (by decide)
  exact absurd ((hkept "Handbook".toList).mp hword) (by decide)

end ProRag
