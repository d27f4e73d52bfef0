import ProRag.Retrieve.Fusion
import ProRag.Retrieve.Reranking
import ProRag.Retrieve.Surfaces
import ProRag.Retrieve.TitleKeys

/-!
# The newest revision

The dedup of the crop goes by the date of a hit.  No arm gives one, so the best-ranked hit of a title
decides which printing is kept.
-/

namespace ProRag

open Framework

/-- What every arm hands over of a chunk: the title of its document, and neither the stored key nor a date. -/
structure FromArm (db : Db) (h : Hit) : Prop where
  undated : h.docDate = none
  unkeyed : h.titleNorm = none
  document : ∃ d ∈ db.documents, d.status = .ready ∧ d.id = h.docId ∧ h.title = d.titleOrFilename

/-- `older` and `newer` are ready documents with one stored key, and `newer` was created later. -/
structure Superseded (titleNorm : Uuid → Option String) (createdAt : Uuid → Timestamp) (db : Db) (older newer : Document) : Prop where
  older_ready : older ∈ db.documents ∧ older.status = .ready
  newer_ready : newer ∈ db.documents ∧ newer.status = .ready
  one_key : ∃ key, titleNorm older.id = some key ∧ titleNorm newer.id = some key
  later : createdAt older.id < createdAt newer.id

/-- The best-ranked hit that the crop counts among the printings of a document. -/
def leader (normalizeTitle : String → String) (reranked : List Hit) (d : Document) : Option Hit :=
  (sortByScore reranked).find? fun h => h.titleKey normalizeTitle = normalizeTitle d.titleOrFilename

variable {db : Db} {scorer : Scorer} {settings : Settings} {user : Option User}

theorem hitOf_fromArm {p : Chunk × Document} (hp : p ∈ joinReady db) (score : ℚ) : FromArm db (hitOf p score) := by
  obtain ⟨_, hdocument, hid, hready⟩ := mem_joinReady.mp hp
  exact ⟨rfl, rfl, p.2, hdocument, hready, hid, rfl⟩

theorem FromArm.rescored {h : Hit} (hh : FromArm db h) (score : ℚ) : FromArm db { h with score := score } :=
  ⟨hh.undated, hh.unkeyed, hh.document⟩

theorem mem_selected {f : Chunk × Document → ℚ} {rows : List (Chunk × Document)} {k : Nat} {g : Chunk × Document → Hit} {h : Hit}
    (hh : h ∈ ((orderByDesc f (fun p => p.1.id) rows).take k).map g) : ∃ p ∈ rows, h = g p := by
  obtain ⟨p, hp, rfl⟩ := List.mem_map.mp hh
  exact ⟨p, mem_orderByDesc.mp (List.mem_of_mem_take hp), rfl⟩

theorem vectorSearch_fromArm (e : Embedding) (k : Nat) : ∀ h ∈ vectorSearch scorer db e k user, FromArm db h := by
  intro h hh
  obtain ⟨p, hp, rfl⟩ := mem_selected hh
  exact hitOf_fromArm (List.mem_of_mem_filter hp) _

theorem bm25Search_fromArm (query : String) (k : Nat) : ∀ h ∈ bm25Search scorer db query k user, FromArm db h := by
  intro h hh
  obtain ⟨p, hp, rfl⟩ := mem_selected hh
  exact hitOf_fromArm (List.mem_of_mem_filter hp) _

theorem ftsSearch_fromArm (query : String) (k : Nat) : ∀ h ∈ ftsSearch scorer db query k user, FromArm db h := by
  intro h hh
  obtain ⟨p, hp, rfl⟩ := mem_selected hh
  exact hitOf_fromArm (List.mem_of_mem_filter hp) _

theorem keywordSearch_fromArm {query : String} {k : Nat} {hits : List Hit} (h : keywordSearch scorer db query k user = .ok hits) :
    ∀ h ∈ hits, FromArm db h := by
  unfold keywordSearch at h
  split at h
  · split at h
    · cases h
      exact bm25Search_fromArm query k
    · cases h
      exact ftsSearch_fromArm query k
    · cases h
  · cases h
    exact ftsSearch_fromArm query k

theorem structuredSearch_fromArm (query : String) (k : Nat) (filters : List (String × String)) :
    ∀ h ∈ structuredSearch scorer db query k filters user, FromArm db h := by
  intro h hh
  obtain ⟨p, hp, rfl⟩ := mem_selected hh
  obtain ⟨q, hq, hp⟩ := List.mem_flatMap.mp (List.mem_dedup.mp hp)
  obtain ⟨r, _, rfl⟩ := List.mem_map.mp hp
  exact ⟨rfl, rfl, (hitOf_fromArm (List.mem_of_mem_filter hq) 1).document⟩

theorem gatherHits_fromArm {plan : QueryPlan} {embeddings : List Embedding} {gathered : Gathered}
    (h : gatherHits settings scorer db plan embeddings user = .ok gathered) : ∀ h ∈ gathered.fused, FromArm db h := by
  have hfuses := gatherHits_fuses h
  have hlists : ∀ l ∈ gathered.vectorLists ++ gathered.ftsLists ++ gathered.structuredLists, ∀ h ∈ l, FromArm db h := by
    obtain ⟨ftsLists, hfts, h⟩ := bind_eq_ok.mp h
    obtain ⟨fused, _, h⟩ := bind_eq_ok.mp h
    cases h
    intro l hl
    rcases List.mem_append.mp hl with hl | hl
    · rcases List.mem_append.mp hl with hl | hl
      · obtain ⟨e, _, rfl⟩ := List.mem_map.mp hl
        exact vectorSearch_fromArm e _
      · obtain ⟨query, _, hquery⟩ := mem_of_mapM hfts hl
        exact keywordSearch_fromArm hquery
    · dsimp only at hl
      split at hl
      · obtain ⟨query, _, rfl⟩ := List.mem_map.mp hl
        exact structuredSearch_fromArm query _ _
      · cases hl
  intro x hx
  obtain ⟨first, hfirst, hfields⟩ := hfuses.fields x hx
  obtain ⟨l, hl, hmem⟩ := List.mem_flatten.mp (selectOne_mem hfirst).1
  rw [hfields]
  exact (hlists l hl first hmem).rescored x.score

theorem mem_rerankWith {api : RerankApi} {query : String} {hits : List Hit} {h : Hit} (hh : h ∈ rerankWith settings api query hits) :
    ∃ hit ∈ hits, h = { hit with score := h.score } := by
  unfold rerankWith at hh
  split at hh
  · exact ⟨h, hh, rfl⟩
  · dsimp only at hh
    split at hh
    · exact ⟨h, hh, rfl⟩
    · split at hh
      · rename_i hguard
        rw [flatGuard_eq_some hguard] at hh
        obtain ⟨p, hp, rfl⟩ := List.mem_map.mp hh
        exact ⟨p.1, (List.of_mem_zip hp).1, rfl⟩
      · rw [sortByScore, List.mem_insertionSort] at hh
        obtain ⟨r, _, hr⟩ := List.mem_filterMap.mp hh
        obtain ⟨hit, hhit, rfl⟩ := Option.map_eq_some_iff.mp hr
        exact ⟨hit, List.mem_of_getElem? hhit, rfl⟩

theorem rerank_fromArm {api : RerankApi} {query : String} {hits : List Hit} (hhits : ∀ h ∈ hits, FromArm db h) :
    ∀ h ∈ rerank settings api query hits, FromArm db h := by
  intro h hh
  unfold rerank at hh
  split at hh
  · exact hhits h hh
  · obtain ⟨hit, hhit, hfields⟩ := mem_rerankWith hh
    rw [hfields]
    exact (hhits hit hhit).rescored h.score

section

variable {normalizeTitle : String → String}

theorem FromArm.titleKey {h : Hit} {d : Document} (hunique : UniqueOn Document.id db.documents) (hh : FromArm db h)
    (hd : d ∈ db.documents) (hid : h.docId = d.id) : h.titleKey normalizeTitle = normalizeTitle d.titleOrFilename := by
  obtain ⟨d', hd', _, hid', htitle⟩ := hh.document
  have hsame : d' = d := hunique.eq_of_key hd' hd (hid'.trans hid)
  rw [hsame] at htitle
  simp [Hit.titleKey, hh.unkeyed, htitle]

theorem deduped_undated {hits : List Hit} (hundated : ∀ h ∈ hits, h.docDate = none) (cap : Nat) {h : Hit}
    (hh : h ∈ (hitKeys normalizeTitle).deduped cap hits) : ∃ first,
      (sortByScore hits).find? (fun x => x.titleKey normalizeTitle = h.titleKey normalizeTitle) = some first ∧ h.docId = first.docId := by
  have hkept := (CropKeys.scan_keeps (hitKeys normalizeTitle) cap (sortByScore hits)).kept (h.titleKey normalizeTitle)
  have hmem : h ∈ (hitKeys normalizeTitle).ofTitle (h.titleKey normalizeTitle)
      ((hitKeys normalizeTitle).scan cap (sortByScore hits)).deduped := CropKeys.mem_ofTitle.mpr ⟨hh, rfl⟩
  rw [hkept] at hmem
  have hprinting := List.mem_of_mem_take hmem
  have hnone : ∀ x ∈ (hitKeys normalizeTitle).ofTitle (h.titleKey normalizeTitle) (sortByScore hits),
      (hitKeys normalizeTitle).docDate x = none := by
    intro x hx
    exact hundated x ((List.mem_insertionSort _).mp (CropKeys.mem_ofTitle.mp hx).1)
  have hhead : ((hitKeys normalizeTitle).ofTitle (h.titleKey normalizeTitle) (sortByScore hits)).head? =
      (sortByScore hits).find? fun x => x.titleKey normalizeTitle = h.titleKey normalizeTitle := List.head?_filter ..
  unfold CropKeys.printing at hprinting
  rw [CropKeys.held_undated hnone] at hprinting
  cases htitle : (hitKeys normalizeTitle).ofTitle (h.titleKey normalizeTitle) (sortByScore hits) with
  | nil =>
    rw [htitle] at hprinting
    cases hprinting
  | cons first rest =>
    rw [htitle] at hprinting hhead
    refine ⟨first, hhead.symm, ?_⟩
    rcases List.mem_cons.mp hprinting with rfl | hrest
    · rfl
    · have hsame := (List.mem_filter.mp hrest).2
      simpa [CropKeys.samePrinting, hitKeys] using hsame

theorem leader_deduped {hits : List Hit} (hundated : ∀ h ∈ hits, h.docDate = none) (cap : Nat) {key : String} {first : Hit}
    (hfirst : (sortByScore hits).find? (fun x => x.titleKey normalizeTitle = key) = some first) :
    first ∈ (hitKeys normalizeTitle).deduped cap hits := by
  have hkept := (CropKeys.scan_keeps (hitKeys normalizeTitle) cap (sortByScore hits)).kept key
  have hnone : ∀ x ∈ (hitKeys normalizeTitle).ofTitle key (sortByScore hits), (hitKeys normalizeTitle).docDate x = none := by
    intro x hx
    exact hundated x ((List.mem_insertionSort _).mp (CropKeys.mem_ofTitle.mp hx).1)
  have hhead : ((hitKeys normalizeTitle).ofTitle key (sortByScore hits)).head? = some first :=
    (List.head?_filter ..).trans hfirst
  have hadmitted : first ∈ (hitKeys normalizeTitle).admitted cap ((hitKeys normalizeTitle).ofTitle key (sortByScore hits)) := by
    unfold CropKeys.admitted CropKeys.printing
    rw [CropKeys.held_undated hnone]
    cases htitle : (hitKeys normalizeTitle).ofTitle key (sortByScore hits) with
    | nil =>
      rw [htitle] at hhead
      cases hhead
    | cons x rest =>
      rw [htitle] at hhead
      obtain rfl : x = first := Option.some.inj hhead
      have hpos : 0 < max 1 cap := by omega
      obtain ⟨n, hn⟩ := Nat.exists_eq_add_of_lt hpos
      rw [hn, Nat.zero_add]
      exact List.mem_cons_self
  rw [← hkept] at hadmitted
  exact (CropKeys.mem_ofTitle.mp hadmitted).1

end

/-- The crop leaves out a document, whatever the other arguments, exactly when another leads its title. -/
theorem crop_leaves_out_iff (settings : Settings) {normalizeTitle : String → String} {reranked : List Hit} {d : Document}
    (hunique : UniqueOn Document.id db.documents) (hfrom : ∀ h ∈ reranked, FromArm db h) (hd : d ∈ db.documents) :
    (∀ minDocs maxDocs scoreFloor tokenBudget, ∀ h ∈ cropContext normalizeTitle
      (settings.withCrop minDocs maxDocs scoreFloor tokenBudget).cropParams reranked, h.docId ≠ d.id) ↔
      ∀ first, leader normalizeTitle reranked d = some first → first.docId ≠ d.id := by
  have hundated : ∀ h ∈ reranked, h.docDate = none := fun h hh => (hfrom h hh).undated
  constructor
  · intro h first hfirst
    apply h (reranked.length + 1) 0 0 0 first
    rw [cropContext_eq_crop, CropKeys.crop_deduped _ _ (Nat.lt_succ_self _)]
    exact leader_deduped hundated _ hfirst
  · intro h minDocs maxDocs scoreFloor tokenBudget x hx hid
    rw [cropContext_eq_crop] at hx
    have hkept := (CropKeys.crop_sublist _ _ _).subset hx
    have hmem := (CropKeys.scan_sublist _ _ _).subset hkept
    have hkey : x.titleKey normalizeTitle = normalizeTitle d.titleOrFilename :=
      (hfrom x ((List.mem_insertionSort _).mp hmem)).titleKey hunique hd hid
    obtain ⟨first, hfirst, hsame⟩ := deduped_undated hundated _ hkept
    rw [hkey] at hfirst
    exact h first hfirst (hsame ▸ hid)

/-- A document of which a chunk is among the hits. -/
def Among (hits : List Hit) (d : Document) : Prop := ∃ h ∈ hits, h.docId = d.id

section

variable {titleNorm : Uuid → Option String} {createdAt : Uuid → Timestamp}

/-- Of two documents with one stored key that are both among the reranked hits, the context leaves out the older one,
whatever the other arguments of the crop, exactly when its title is led by a chunk of another. -/
theorem newest_wins_iff (settings : Settings) (completionCost : CompletionCost) (env : RetrievalEnv) (message q : String)
    (user : Option User) (u : Uow Usage RequestEvent) (titleNorm : Uuid → Option String) (createdAt : Uuid → Timestamp)
    {scorer : Scorer} {db : Db} {plan : QueryPlan} {gathered : Gathered} (hunique : UniqueOn Document.id db.documents)
    (hdatabase : env.database = .ok (scorer, db)) (hrefined : env.refined settings message = .ok q)
    (hgathered : env.toQueryEnv.gathered settings q user = .ok (plan, gathered)) (hcommit : env.commit.answer = .ok ()) :
    (∀ older newer, Superseded titleNorm createdAt db older newer →
      Among (rerankedHits settings env.toQueryEnv plan gathered) older →
      Among (rerankedHits settings env.toQueryEnv plan gathered) newer →
      ∀ minDocs maxDocs scoreFloor tokenBudget, ∃ hits,
        (retrieve (settings.withCrop minDocs maxDocs scoreFloor tokenBudget) completionCost env message user u).1 = .ok (hits, q) ∧
          ∀ h ∈ hits, h.docId ≠ older.id) ↔
      ∀ older newer, Superseded titleNorm createdAt db older newer →
        Among (rerankedHits settings env.toQueryEnv plan gathered) older →
        Among (rerankedHits settings env.toQueryEnv plan gathered) newer →
        ∀ first, leader env.normalizeTitle (rerankedHits settings env.toQueryEnv plan gathered) older = some first →
          first.docId ≠ older.id := by
  have hfrom : ∀ h ∈ rerankedHits settings env.toQueryEnv plan gathered, FromArm db h := by
    obtain ⟨p, _, h⟩ := bind_eq_ok.mp hgathered
    obtain ⟨embeddings, _, h⟩ := bind_eq_ok.mp h
    obtain ⟨found, hfound, h⟩ := bind_eq_ok.mp h
    obtain ⟨_, _, h⟩ := bind_eq_ok.mp h
    cases h
    unfold QueryEnv.gather at hfound
    rw [hdatabase, ok_bind] at hfound
    exact rerank_fromArm fun h hh => gatherHits_fromArm hfound h (List.mem_of_mem_take hh)
  have hretrieve : ∀ minDocs maxDocs scoreFloor tokenBudget,
      (retrieve (settings.withCrop minDocs maxDocs scoreFloor tokenBudget) completionCost env message user u).1 =
        .ok (cropContext env.normalizeTitle (settings.withCrop minDocs maxDocs scoreFloor tokenBudget).cropParams
          (rerankedHits settings env.toQueryEnv plan gathered), q) := by
    intro minDocs maxDocs scoreFloor tokenBudget
    have hrefined' : env.refined (settings.withCrop minDocs maxDocs scoreFloor tokenBudget) message = .ok q := hrefined
    have hgathered' : env.toQueryEnv.gathered (settings.withCrop minDocs maxDocs scoreFloor tokenBudget) q user =
        .ok (plan, gathered) := hgathered
    exact retrieve_answer hrefined' hgathered' hcommit u
  constructor
  · intro h older newer hpair holder hnewer
    apply (crop_leaves_out_iff settings hunique hfrom hpair.older_ready.1).mp
    intro minDocs maxDocs scoreFloor tokenBudget x hx
    obtain ⟨hits, hanswer, hnone⟩ := h older newer hpair holder hnewer minDocs maxDocs scoreFloor tokenBudget
    rw [hretrieve] at hanswer
    obtain ⟨rfl, _⟩ := Prod.mk.inj (Except.ok.inj hanswer)
    exact hnone x hx
  · intro h older newer hpair holder hnewer minDocs maxDocs scoreFloor tokenBudget
    have hleaves := (crop_leaves_out_iff settings hunique hfrom hpair.older_ready.1).mpr
      (h older newer hpair holder hnewer)
    exact ⟨_, hretrieve minDocs maxDocs scoreFloor tokenBudget, hleaves minDocs maxDocs scoreFloor tokenBudget⟩

end

def oldRevision (text : String) : Document := newDocument "a2" "Safety Manual Rev 2.txt" "default" (noteRows 2 1 text)

def newRevision (text : String) : Document := newDocument "a3" "Safety Manual Rev 3.txt" "default" (noteRows 3 2 text)

/-- Two revisions of a manual, of one paragraph each; the ids are given in the order of creation. -/
def revisions (second third : String) : Db :=
  (Db.empty.storeDocument (oldRevision second) (noteRows 2 1 second)).storeDocument (newRevision third) (noteRows 3 2 third)

/-- Planner and prefill time out, the reranker is down, and the titles are normalised as they are stored. -/
def revisionSearch (second third : String) : RetrievalEnv :=
  { manualSearch with
    database := .ok (lengthScorer, revisions second third)
    normalizeTitle := normalizeTitle latinTables }

/-- The key that the ingest stores. -/
def storedNorm (db : Db) (id : Uuid) : Option String :=
  (db.documents.find? fun d => d.id = id).map fun d => normalizeTitle latinTables d.filename

/-- The documents of the hits of both stages, best hit of the manual first. -/
def revisionRanks (env : RetrievalEnv) : Option (List Uuid × List Uuid) :=
  match env.toQueryEnv.gathered {} "muster" none, (retrieve {} (fun _ _ _ => .ok none) env "muster" none emptyUow).1 with
  | .ok g, .ok r => some ((rerankedHits {} env.toQueryEnv g.1 g.2).map Hit.docId, r.1.map Hit.docId)
  | _, _ => none

/-- The newer revision ranks first, and the older one is left out. -/
theorem newest_wins_longer : ∃ plan gathered,
    (revisionSearch "muster" "muster at noon").toQueryEnv.gathered {} "muster" none = .ok (plan, gathered) ∧
      ∀ older newer, Superseded (storedNorm (revisions "muster" "muster at noon")) Int.ofNat (revisions "muster" "muster at noon")
          older newer →
        Among (rerankedHits {} (revisionSearch "muster" "muster at noon").toQueryEnv plan gathered) older →
        Among (rerankedHits {} (revisionSearch "muster" "muster at noon").toQueryEnv plan gathered) newer →
        ∀ minDocs maxDocs scoreFloor tokenBudget, ∃ hits,
          (retrieve (Settings.withCrop {} minDocs maxDocs scoreFloor tokenBudget) (fun _ _ _ => .ok none)
            (revisionSearch "muster" "muster at noon") "muster" none emptyUow).1 = .ok (hits, "muster") ∧
              ∀ h ∈ hits, h.docId ≠ older.id := by
  have hleader : ((revisionSearch "muster" "muster at noon").toQueryEnv.gathered {} "muster" none).toOption.map (fun g =>
      (leader (normalizeTitle latinTables) (rerankedHits {} (revisionSearch "muster" "muster at noon").toQueryEnv g.1 g.2)
        (oldRevision "muster")).map Hit.docId) = some (some 3) := by
    decide +kernel
  cases hgathered : (revisionSearch "muster" "muster at noon").toQueryEnv.gathered {} "muster" none with
  | error exc =>
    rw [hgathered] at hleader
    cases hleader
  | ok g =>
    obtain ⟨plan, gathered⟩ := g
    rw [hgathered] at hleader
    have hfirst := Option.some.inj hleader
    refine ⟨plan, gathered, rfl, (newest_wins_iff {} _ (revisionSearch "muster" "muster at noon") "muster" "muster" none emptyUow
      (storedNorm (revisions "muster" "muster at noon")) Int.ofNat (by decide) rfl rfl hgathered rfl).mpr ?_⟩
    intro older newer hpair _ _ first hlead
    have hdocs : (revisions "muster" "muster at noon").documents = [oldRevision "muster", newRevision "muster at noon"] := rfl
    have holder := hpair.older_ready.1
    have hnewer := hpair.newer_ready.1
    have hlater := hpair.later
    rw [hdocs, List.mem_pair] at holder hnewer
    rcases holder with rfl | rfl
    · have hlead' : (leader (normalizeTitle latinTables) (rerankedHits {} (revisionSearch "muster" "muster at noon").toQueryEnv
          plan gathered) (oldRevision "muster")).map Hit.docId = some first.docId := congrArg (Option.map Hit.docId) hlead
      have hdoc : first.docId = 3 := Option.some.inj (hlead'.symm.trans hfirst)
      rw [hdoc]
      decide
    · exfalso
      rcases hnewer with rfl | rfl
      · exact absurd hlater (by decide)
      · exact absurd hlater (by decide)

/-- The older revision ranks first, and it alone is handed to the answer. -/
theorem newest_loses : Superseded (storedNorm (revisions "muster at noon" "muster")) Int.ofNat (revisions "muster at noon" "muster")
      (oldRevision "muster at noon") (newRevision "muster") ∧
    revisionRanks (revisionSearch "muster at noon" "muster") = some ([2, 3], [2]) := by
  refine ⟨⟨⟨by decide, rfl⟩, ⟨by decide, rfl⟩, ⟨"safety manual .txt", ?_⟩, by decide⟩, by decide +kernel⟩
  decide +kernel

end ProRag
