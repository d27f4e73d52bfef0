import Mathlib.Data.List.DropRight
import ProRag.Operations.Retrieval

/-!
# Opening sources in the viewer

A click on a source opens its document, or adds the source to those of the open document; the viewer then follows the
first of its sources.
-/

namespace ProRag

structure ViewerTarget where
  docId : Uuid
  title : String
  sources : List Source
deriving DecidableEq

/-- `openViewer(sources)`, on the state `prev`. -/
def openViewer (sources : List Source) (prev : Option ViewerTarget) : Option ViewerTarget :=
  match sources.head? with
  | none => prev
  | some first =>
    match prev with
    | none => some { docId := first.docId, title := first.title, sources := sources }
    | some prev =>
      if prev.docId ≠ first.docId then some { docId := first.docId, title := first.title, sources := sources }
      else
        let seen := prev.sources.map fun s => s.n
        some { prev with sources := prev.sources ++ sources.filter fun s => s.n ∉ seen }

/-- The viewer as it is mounted: what it shows, its page, and what the page effect depended on. -/
structure MountedViewer where
  target : ViewerTarget
  page : Nat
  deps : Option Nat × Option Nat
deriving DecidableEq

/-- `target.sources[0]?.page`. -/
def ViewerTarget.firstPage (target : ViewerTarget) : Option Nat := target.sources.head?.bind fun s => s.page

/-- `[target.sources[0]?.n, target.sources[0]?.page]`. -/
def ViewerTarget.pageDeps (target : ViewerTarget) : Option Nat × Option Nat :=
  (target.sources.head?.map fun s => s.n, target.firstPage)

/-- The page effect: a page that is known and not zero is gone to. -/
def pageEffect (target : ViewerTarget) (page : Nat) : Nat :=
  if target.firstPage.getD 0 = 0 then page else target.firstPage.getD 0

def mountViewer (target : ViewerTarget) : MountedViewer where
  target := target
  page := pageEffect target (target.firstPage.getD 1)
  deps := target.pageDeps

/-- The next rendering, with the document for its key. -/
def renderViewer (mounted : Option MountedViewer) (target : ViewerTarget) : MountedViewer :=
  match mounted with
  | none => mountViewer target
  | some m =>
    if m.target.docId ≠ target.docId then mountViewer target
    else if m.deps = target.pageDeps then { m with target := target }
    else { target := target, page := pageEffect target m.page, deps := target.pageDeps }

/-- A click on one source, and the rendering after it. -/
def clickSource (mounted : Option MountedViewer) (source : Source) : Option MountedViewer :=
  (openViewer [source] (mounted.map fun m => m.target)).map (renderViewer mounted)

/-- The clicks since the document of the last was opened. -/
def sinceOpened (clicks : List Source) (last : Source) : List Source :=
  (clicks ++ [last]).rtakeWhile fun s => s.docId = last.docId

/-- The viewer shows the source that was clicked last, and all that were clicked since its document was opened. -/
structure ShowsClicked (opened : List Source) (last : Source) (m : MountedViewer) : Prop where
  document : m.target.docId = last.docId
  page : ∀ p, last.page = some p → m.page = p
  highlighted : ∀ s ∈ opened, s ∈ m.target.sources

/-- What the viewer keeps of the clicks on a document: the first source of each number. -/
structure MergedSo (opened : List Source) (m : MountedViewer) : Prop where
  document : ∀ s ∈ opened, s.docId = m.target.docId
  first : m.target.sources.head? = opened.head?
  page : m.page = (opened.head?.bind fun s => s.page).getD 1
  deps : m.deps = m.target.pageDeps
  clicked : ∀ s ∈ m.target.sources, s ∈ opened
  numbered : ∀ s ∈ opened, ∃ t ∈ m.target.sources, t.n = s.n
  distinct : ∀ s ∈ m.target.sources, ∀ t ∈ m.target.sources, s.n = t.n → s = t

section

variable {opened clicks : List Source} {source last : Source} {m : MountedViewer}

theorem mountViewer_merged (source : Source) :
    MergedSo [source] (mountViewer { docId := source.docId, title := source.title, sources := [source] }) := by
  constructor
  · intro s hs
    rw [List.mem_singleton.mp hs]
    rfl
  · rfl
  · rcases hpage : source.page with _ | _ | p
    · simp [mountViewer, pageEffect, ViewerTarget.firstPage, hpage]
    · simp [mountViewer, pageEffect, ViewerTarget.firstPage, hpage]
    · simp [mountViewer, pageEffect, ViewerTarget.firstPage, hpage]
  · rfl
  · exact fun s hs => hs
  · exact fun s hs => ⟨s, hs, rfl⟩
  · intro s hs t ht _
    rw [List.mem_singleton.mp hs, List.mem_singleton.mp ht]

theorem clickSource_other {mounted : Option MountedViewer} (h : ∀ m, mounted = some m → m.target.docId ≠ source.docId) :
    clickSource mounted source =
      some (mountViewer { docId := source.docId, title := source.title, sources := [source] }) := by
  cases mounted with
  | none => rfl
  | some m =>
    have hne := h m rfl
    simp [clickSource, openViewer, renderViewer, hne]

theorem mem_merged {sources : List Source} {source s : Source} :
    s ∈ sources ++ [source].filter (fun t => t.n ∉ sources.map fun t => t.n) ↔
      s ∈ sources ∨ s = source ∧ ∀ t ∈ sources, t.n ≠ source.n := by
  simp only [List.mem_append, List.mem_filter, List.mem_singleton, List.mem_map, decide_eq_true_eq, not_exists, not_and]
  constructor
  · rintro (hold | ⟨rfl, hnew⟩)
    · exact Or.inl hold
    · exact Or.inr ⟨rfl, hnew⟩
  · rintro (hold | ⟨rfl, hnew⟩)
    · exact Or.inl hold
    · exact Or.inr ⟨rfl, hnew⟩

theorem clickSource_same (h : MergedSo opened m) (hne : opened ≠ []) (hdoc : source.docId = m.target.docId) :
    ∃ m', clickSource (some m) source = some m' ∧ MergedSo (opened ++ [source]) m' := by
  have hsources : m.target.sources ≠ [] := by
    intro hnil
    have hfirst := h.first
    rw [hnil, List.head?_nil, eq_comm, List.head?_eq_none_iff] at hfirst
    exact hne hfirst
  let target : ViewerTarget := { m.target with
    sources := m.target.sources ++ [source].filter fun s => s.n ∉ m.target.sources.map fun s => s.n }
  have hhead : target.sources.head? = m.target.sources.head? := List.head?_append_of_ne_nil _ hsources
  have hdeps : m.deps = target.pageDeps := by
    rw [h.deps, ViewerTarget.pageDeps, ViewerTarget.pageDeps, ViewerTarget.firstPage, ViewerTarget.firstPage, hhead]
  have hopened : (opened ++ [source]).head? = opened.head? := List.head?_append_of_ne_nil _ hne
  have hmem : ∀ s, s ∈ target.sources ↔ s ∈ m.target.sources ∨ s = source ∧ ∀ t ∈ m.target.sources, t.n ≠ source.n :=
    fun s => mem_merged
  refine ⟨{ m with target := target }, ?_, ?_⟩
  · have hopen : openViewer [source] (some m.target) = some target := by simp [openViewer, hdoc, target]
    have hkey : m.target.docId = target.docId := rfl
    rw [clickSource, Option.map_some, hopen, Option.map_some, renderViewer, if_neg (not_not.mpr hkey), if_pos hdeps]
  · constructor
    · intro s hs
      rcases List.mem_append.mp hs with hold | hnew
      · exact h.document s hold
      · rw [List.mem_singleton.mp hnew]
        exact hdoc
    · rw [hopened, ← h.first]
      exact hhead
    · rw [hopened]
      exact h.page
    · exact hdeps
    · intro s hs
      rcases (hmem s).mp hs with hold | ⟨rfl, _⟩
      · exact List.mem_append_left _ (h.clicked s hold)
      · simp
    · intro s hs
      rcases List.mem_append.mp hs with hold | hnew
      · obtain ⟨t, ht, hn⟩ := h.numbered s hold
        exact ⟨t, (hmem t).mpr (Or.inl ht), hn⟩
      · rw [List.mem_singleton.mp hnew]
        by_cases hseen : ∃ t ∈ m.target.sources, t.n = source.n
        · obtain ⟨t, ht, hn⟩ := hseen
          exact ⟨t, (hmem t).mpr (Or.inl ht), hn⟩
        · exact ⟨source, (hmem source).mpr (Or.inr ⟨rfl, fun t ht hn => hseen ⟨t, ht, hn⟩⟩), rfl⟩
    · intro s hs t ht hn
      rcases (hmem s).mp hs with hold | ⟨rfl, hnew⟩
      · rcases (hmem t).mp ht with hold' | ⟨rfl, hnew⟩
        · exact h.distinct s hold t hold' hn
        · exact absurd hn (hnew s hold)
      · rcases (hmem t).mp ht with hold' | ⟨rfl, _⟩
        · exact absurd hn.symm (hnew t hold')
        · rfl

theorem sinceOpened_nil (last : Source) : sinceOpened [] last = [last] := by simp [sinceOpened]

theorem sinceOpened_append (clicks : List Source) (prev last : Source) : sinceOpened (clicks ++ [prev]) last =
    if prev.docId = last.docId then sinceOpened clicks prev ++ [last] else [last] := by
  unfold sinceOpened
  rw [List.rtakeWhile_concat_pos _ _ _ (by simp)]
  by_cases hdoc : prev.docId = last.docId
  · simp only [hdoc, if_true]
  · rw [List.rtakeWhile_concat_neg _ _ _ (by simpa using hdoc), if_neg hdoc]
    rfl

theorem sinceOpened_last (clicks : List Source) (last : Source) : last ∈ sinceOpened clicks last := by
  rw [sinceOpened, List.rtakeWhile_concat_pos _ _ _ (by simp)]
  simp

/-- After any clicks the viewer has merged those since the document was opened. -/
theorem foldl_clickSource_merged (clicks : List Source) (last : Source) :
    ∃ m, (clicks ++ [last]).foldl clickSource none = some m ∧ MergedSo (sinceOpened clicks last) m := by
  induction clicks using List.reverseRecOn generalizing last with
  | nil =>
    rw [sinceOpened_nil]
    exact ⟨_, rfl, mountViewer_merged last⟩
  | append_singleton clicks prev ih =>
    obtain ⟨m, hm, hmerged⟩ := ih prev
    have hprev := hmerged.document prev (sinceOpened_last clicks prev)
    rw [List.foldl_append, hm, sinceOpened_append]
    by_cases hdoc : prev.docId = last.docId
    · rw [if_pos hdoc]
      exact clickSource_same hmerged (List.ne_nil_of_mem (sinceOpened_last clicks prev)) (hdoc ▸ hprev)
    · rw [if_neg hdoc]
      have hother : ∀ m', some m = some m' → m'.target.docId ≠ last.docId := by
        intro m' hsame
        obtain rfl := Option.some.inj hsame
        rw [← hprev]
        exact hdoc
      exact ⟨_, clickSource_other hother, mountViewer_merged last⟩

/-- Where the clicks are merged, one that is shown had the first page and each number stands for one source. -/
theorem showsClicked_iff (h : MergedSo opened m) (hlast : last ∈ opened) : ShowsClicked opened last m ↔
    (∀ p, last.page = some p → p = (opened.head?.bind fun s => s.page).getD 1) ∧
      ∀ s ∈ opened, ∀ t ∈ opened, s.n = t.n → s = t := by
  constructor
  · intro hshows
    constructor
    · intro p hp
      rw [← h.page]
      exact (hshows.page p hp).symm
    · intro s hs t ht hn
      exact h.distinct s (hshows.highlighted s hs) t (hshows.highlighted t ht) hn
  · rintro ⟨hpage, hnumbers⟩
    constructor
    · exact (h.document last hlast).symm
    · intro p hp
      rw [h.page]
      exact (hpage p hp).symm
    · intro s hs
      obtain ⟨t, ht, hn⟩ := h.numbered s hs
      rw [← hnumbers t (h.clicked t ht) s hs hn]
      exact ht

/-- After any clicks the viewer shows the last just where it has the page of the first click on its document, and no
two sources clicked since then share their number. -/
theorem clicks_shown_iff (clicks : List Source) (last : Source) :
    ∃ m, (clicks ++ [last]).foldl clickSource none = some m ∧ (ShowsClicked (sinceOpened clicks last) last m ↔
      (∀ p, last.page = some p → p = ((sinceOpened clicks last).head?.bind fun s => s.page).getD 1) ∧
        ∀ s ∈ sinceOpened clicks last, ∀ t ∈ sinceOpened clicks last, s.n = t.n → s = t) := by
  obtain ⟨m, hm, hmerged⟩ := foldl_clickSource_merged clicks last
  exact ⟨m, hm, showsClicked_iff hmerged (sinceOpened_last clicks last)⟩

/-- A source on a page of one document. -/
def citedOn (n page : Nat) (snippet : String) : Source where
  n := n
  docId := 1
  page := some page
  fileUrl := "/files/1/original"
  snippet := snippet
  score := 1
  title := "a.pdf"
  kind := none
  bbox := none

/-- The second click on a document goes to no other page, and a number of another message is not highlighted again. -/
theorem second_click_not_shown :
    (∀ m, [citedOn 1 3 "", citedOn 2 7 ""].foldl clickSource none = some m →
      m.page = 3 ∧ ¬ ShowsClicked [citedOn 1 3 "", citedOn 2 7 ""] (citedOn 2 7 "") m) ∧
    ∀ m, [citedOn 1 3 "", citedOn 1 3 "later"].foldl clickSource none = some m →
      m.target.sources = [citedOn 1 3 ""] ∧ ¬ ShowsClicked [citedOn 1 3 "", citedOn 1 3 "later"] (citedOn 1 3 "later") m := by
  constructor
  · intro m hm
    obtain rfl := Option.some.inj hm
    refine ⟨rfl, fun hshows => ?_⟩
    have hpage := hshows.page 7 rfl
    cases hpage
  · intro m hm
    obtain rfl := Option.some.inj hm
    refine ⟨rfl, fun hshows => ?_⟩
    have hmem := hshows.highlighted (citedOn 1 3 "later") (by simp)
    have hone : citedOn 1 3 "later" ∈ [citedOn 1 3 ""] := hmem
    rw [List.mem_singleton] at hone
    have hsnippet : "later" = "" := congrArg Source.snippet hone
    simp at hsnippet

end

end ProRag
