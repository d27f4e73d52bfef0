import ProRag.Files.Router
import ProRag.Ingest.Core
import ProRag.Operations.Retrieval

/-!
# Noninterference of retrieval

What a user who is no admin gets back is determined by the documents the user may see: every arm
filters before it orders and cuts, and everything behind the arms is a function of their hits.
-/

namespace ProRag

open Framework

/-- Primary keys, and a chunk's table is a table of the chunk's document. -/
structure Db.RetrievalOk (db : Db) : Prop where
  documents : UniqueOn Document.id db.documents
  chunks : UniqueOn Chunk.id db.chunks
  tables : UniqueOn Table.id db.tables
  tableRows : UniqueOn TableRow.id db.tableRows
  chunkTable : ∀ c ∈ db.chunks, ∀ t, c.tableId = some t → ∃ table ∈ db.tables, table.id = t ∧ table.docId = c.docId

/-- A document with one of the given statuses that the user may see. -/
def Seen (statuses : DocStatus → Bool) (user : User) (db : Db) (d : Document) : Prop :=
  d ∈ db.documents ∧ statuses d.status = true ∧ VisibleTo db user d.id

/-- The same group memberships, the same seen documents, and the same chunks, tables and rows of these. -/
structure AgreeOn (statuses : DocStatus → Bool) (user : User) (db db' : Db) : Prop where
  groups : ∀ g, (⟨user.id, g⟩ : UserGroup) ∈ db.userGroups ↔ (⟨user.id, g⟩ : UserGroup) ∈ db'.userGroups
  documents : ∀ d, Seen statuses user db d ↔ Seen statuses user db' d
  chunks : ∀ d, Seen statuses user db d → ∀ c, c.docId = d.id → (c ∈ db.chunks ↔ c ∈ db'.chunks)
  tables : ∀ d, Seen statuses user db d → ∀ t, t.docId = d.id → (t ∈ db.tables ↔ t ∈ db'.tables)
  rows : ∀ d, Seen statuses user db d → ∀ t ∈ db.tables, t.docId = d.id → ∀ r, r.tableId = t.id →
    (r ∈ db.tableRows ↔ r ∈ db'.tableRows)

def isReady (s : DocStatus) : Bool := s = .ready

def anyStatus (_ : DocStatus) : Bool := true

variable {statuses : DocStatus → Bool} {user : User} {db db' : Db}

theorem AgreeOn.symm (h : AgreeOn statuses user db db') : AgreeOn statuses user db' db where
  groups g := (h.groups g).symm
  documents d := (h.documents d).symm
  chunks d hd c hc := (h.chunks d ((h.documents d).mpr hd) c hc).symm
  tables d hd t ht := (h.tables d ((h.documents d).mpr hd) t ht).symm
  rows d hd t ht hdoc r hr := by
    have hd' := (h.documents d).mpr hd
    exact (h.rows d hd' t ((h.tables d hd' t hdoc).mpr ht) hdoc r hr).symm

/-- The rows the arms choose from: chunks of ready documents that pass the clause. -/
def seenRows (user : User) (db : Db) : List (Chunk × Document) :=
  (joinReady db).filter fun p => passes (visibilityClause db (some user)) p.2.id

theorem mem_joinReady {p : Chunk × Document} :
    p ∈ joinReady db ↔ p.1 ∈ db.chunks ∧ p.2 ∈ db.documents ∧ p.2.id = p.1.docId ∧ p.2.status = .ready := by
  obtain ⟨c, d⟩ := p
  simp [joinReady]

theorem mem_rowsOfTables {scorer : Scorer} {db : Db} {query : String} {filters : List (String × String)} {user : Option User}
    {p : Chunk × Document} : p ∈ structuredRows scorer db query filters user ↔
      p ∈ joinReady db ∧ passes (visibilityClause db user) p.2.id = true ∧ p.1.kind ≠ .prose ∧
        ∃ r ∈ db.tableRows, some r.tableId = p.1.tableId ∧ scorer.ilike query r = true ∧
          (filters.all fun f => r.data.lookup f.1 = some f.2) = true := by
  simp only [structuredRows, List.mem_flatMap, List.mem_filter, List.mem_map, decide_eq_true_eq]
  constructor
  · rintro ⟨p', ⟨hjoin, hkind, hpass⟩, r, ⟨hr, hcond⟩, rfl⟩
    exact ⟨hjoin, hpass, hkind, r, hr, hcond⟩
  · rintro ⟨hjoin, hpass, hkind, r, hr, hcond⟩
    exact ⟨p, ⟨hjoin, hkind, hpass⟩, r, ⟨hr, hcond⟩, rfl⟩

theorem mem_seenRows (hadmin : user.isAdmin = false) {p : Chunk × Document} :
    p ∈ seenRows user db ↔ p.1 ∈ db.chunks ∧ Seen isReady user db p.2 ∧ p.2.id = p.1.docId := by
  have hpass : p ∈ seenRows user db ↔ p ∈ joinReady db ∧ passes (visibilityClause db (some user)) p.2.id = true :=
    List.mem_filter
  rw [hpass, mem_joinReady, passes_clause_iff hadmin]
  simp only [Seen, isReady, decide_eq_true_eq]
  tauto

theorem joinReady_nodup (hdb : db.RetrievalOk) : (joinReady db).Nodup := by
  have hchunks : db.chunks.Nodup := List.Nodup.of_map _ hdb.chunks
  have hdocs : db.documents.Nodup := List.Nodup.of_map _ hdb.documents
  unfold joinReady
  rw [List.nodup_flatMap]
  constructor
  · intro c _
    refine (hdocs.filter _).map ?_
    intro d d' h
    exact (Prod.mk.inj h).2
  · refine hchunks.imp ?_
    intro c c' hne p hp hp'
    obtain ⟨d, _, rfl⟩ := List.mem_map.mp hp
    obtain ⟨d', _, heq⟩ := List.mem_map.mp hp'
    exact hne (Prod.mk.inj heq).1.symm

theorem AgreeOn.seenRows_subset (h : AgreeOn isReady user db db') (hadmin : user.isAdmin = false) {p : Chunk × Document}
    (hp : p ∈ seenRows user db) : p ∈ seenRows user db' := by
  obtain ⟨hc, hseen, hid⟩ := (mem_seenRows hadmin).mp hp
  exact (mem_seenRows hadmin).mpr ⟨(h.chunks p.2 hseen p.1 hid.symm).mp hc, (h.documents p.2).mp hseen, hid⟩

theorem seenRows_nodup (user : User) (hdb : db.RetrievalOk) : (seenRows user db).Nodup :=
  (joinReady_nodup hdb).filter _

/-- Both states offer the arms the same rows, perhaps stored in another order. -/
theorem AgreeOn.seenRows_perm (h : AgreeOn isReady user db db') (hadmin : user.isAdmin = false)
    (hdb : db.RetrievalOk) (hdb' : db'.RetrievalOk) : (seenRows user db).Perm (seenRows user db') :=
  (List.perm_ext_iff_of_nodup (seenRows_nodup user hdb) (seenRows_nodup user hdb')).mpr fun _ =>
    ⟨h.seenRows_subset hadmin, h.symm.seenRows_subset hadmin⟩

theorem seenRows_key (hadmin : user.isAdmin = false) (hdb : db.RetrievalOk) {p q : Chunk × Document}
    (hp : p ∈ seenRows user db) (hq : q ∈ seenRows user db) (hkey : p.1.id = q.1.id) : p = q := by
  obtain ⟨hpc, ⟨hpd, _⟩, hpid⟩ := (mem_seenRows hadmin).mp hp
  obtain ⟨hqc, ⟨hqd, _⟩, hqid⟩ := (mem_seenRows hadmin).mp hq
  have hchunk : p.1 = q.1 := hdb.chunks.eq_of_key hpc hqc hkey
  have hdoc : p.2 = q.2 := hdb.documents.eq_of_key hpd hqd (by rw [hpid, hqid, hchunk])
  exact Prod.ext hchunk hdoc

theorem AgreeOn.ordered (h : AgreeOn isReady user db db') (hadmin : user.isAdmin = false) (hdb : db.RetrievalOk)
    (hdb' : db'.RetrievalOk) (score : Chunk × Document → ℚ) (keep : Chunk × Document → Bool) :
    orderByDesc score (fun p => p.1.id) ((seenRows user db).filter keep) =
      orderByDesc score (fun p => p.1.id) ((seenRows user db').filter keep) := by
  refine orderByDesc_congr ?_ ((h.seenRows_perm hadmin hdb hdb').filter keep)
  intro p hp q hq hkey
  exact seenRows_key hadmin hdb (List.mem_filter.mp hp).1 (List.mem_filter.mp hq).1 hkey

section Arms

variable (h : AgreeOn isReady user db db') (hadmin : user.isAdmin = false) (hdb : db.RetrievalOk)
  (hdb' : db'.RetrievalOk) (scorer : Scorer) (k : Nat)

include h hadmin hdb hdb'

theorem vectorSearch_agree (e : Embedding) :
    vectorSearch scorer db e k (some user) = vectorSearch scorer db' e k (some user) := by
  have hrows := h.ordered hadmin hdb hdb' (fun p => -scorer.distance e p.1) fun _ => true
  simp only [List.filter_true] at hrows
  simp only [vectorSearch]
  rw [show (joinReady db).filter (fun p => passes (visibilityClause db (some user)) p.2.id) = seenRows user db from rfl,
    show (joinReady db').filter (fun p => passes (visibilityClause db' (some user)) p.2.id) = seenRows user db' from rfl,
    hrows]

omit h hadmin hdb hdb' in
theorem keyword_rows (db : Db) (user : User) (hit : Chunk → Bool) :
    (joinReady db).filter (fun p => hit p.1 ∧ passes (visibilityClause db (some user)) p.2.id) =
      (seenRows user db).filter fun p => hit p.1 := by
  unfold seenRows
  rw [List.filter_filter]
  apply List.filter_congr
  intro p _
  simp

omit h hadmin hdb hdb' in
theorem bm25_rows (db : Db) (user : User) (hit : Chunk → Bool) :
    (joinReady db).filter (fun p => hit p.1 ∧ passes (visibilitySql db (some user)) p.1.docId) =
      (seenRows user db).filter fun p => hit p.1 := by
  rw [← keyword_rows]
  apply List.filter_congr
  intro p hp
  obtain ⟨_, _, hid, _⟩ := mem_joinReady.mp hp
  rw [visibilitySql_eq, hid]

theorem bm25Search_agree (query : String) :
    bm25Search scorer db query k (some user) = bm25Search scorer db' query k (some user) := by
  have hrows := h.ordered hadmin hdb hdb' (fun p => (scorer.bm25 query p.1).getD 0) fun p => (scorer.bm25 query p.1).isSome
  simp only [bm25Search]
  rw [bm25_rows db user fun c => (scorer.bm25 query c).isSome, bm25_rows db' user fun c => (scorer.bm25 query c).isSome,
    hrows]

theorem ftsSearch_agree (query : String) :
    ftsSearch scorer db query k (some user) = ftsSearch scorer db' query k (some user) := by
  have hrows := h.ordered hadmin hdb hdb' (fun p => (scorer.tsRank query p.1).getD 0) fun p => (scorer.tsRank query p.1).isSome
  simp only [ftsSearch]
  rw [keyword_rows db user fun c => (scorer.tsRank query c).isSome,
    keyword_rows db' user fun c => (scorer.tsRank query c).isSome, hrows]

theorem keywordSearch_agree (query : String) :
    keywordSearch scorer db query k (some user) = keywordSearch scorer db' query k (some user) := by
  simp only [keywordSearch]
  rw [bm25Search_agree h hadmin hdb hdb', ftsSearch_agree h hadmin hdb hdb']

omit h hadmin hdb hdb' in
theorem mem_structuredRows {query : String} {filters : List (String × String)} {p : Chunk × Document} :
    p ∈ structuredRows scorer db query filters (some user) ↔ p ∈ seenRows user db ∧ p.1.kind ≠ .prose ∧
      ∃ r ∈ db.tableRows, some r.tableId = p.1.tableId ∧ scorer.ilike query r = true ∧
        (filters.all fun f => r.data.lookup f.1 = some f.2) = true := by
  have hseen : p ∈ seenRows user db ↔ p ∈ joinReady db ∧ passes (visibilityClause db (some user)) p.2.id = true :=
    List.mem_filter
  rw [hseen, mem_rowsOfTables, and_assoc]

omit hdb' in
theorem structuredRows_subset {query : String} {filters : List (String × String)} {p : Chunk × Document}
    (hp : p ∈ structuredRows scorer db query filters (some user)) :
    p ∈ structuredRows scorer db' query filters (some user) := by
  obtain ⟨hseen, hkind, r, hr, htable, hcond⟩ := (mem_structuredRows scorer).mp hp
  obtain ⟨hc, hdoc, hid⟩ := (mem_seenRows hadmin).mp hseen
  obtain ⟨t, ht, htid, htdoc⟩ := hdb.chunkTable p.1 hc r.tableId htable.symm
  have hr' : r ∈ db'.tableRows := (h.rows p.2 hdoc t ht (htdoc.trans hid.symm) r htid.symm).mp hr
  exact (mem_structuredRows scorer).mpr ⟨h.seenRows_subset hadmin hseen, hkind, r, hr', htable, hcond⟩

theorem structuredSearch_agree (query : String) (filters : List (String × String)) :
    structuredSearch scorer db query k filters (some user) = structuredSearch scorer db' query k filters (some user) := by
  have hperm : (structuredRows scorer db query filters (some user)).dedup.Perm
      (structuredRows scorer db' query filters (some user)).dedup := by
    refine (List.perm_ext_iff_of_nodup (List.nodup_dedup _) (List.nodup_dedup _)).mpr fun p => ?_
    rw [List.mem_dedup, List.mem_dedup]
    exact ⟨structuredRows_subset h hadmin hdb scorer, structuredRows_subset h.symm hadmin hdb' scorer⟩
  simp only [structuredSearch]
  rw [orderByDesc_congr ?_ hperm]
  intro p hp q hq hkey
  obtain ⟨hp, _⟩ := (mem_structuredRows scorer).mp (List.mem_dedup.mp hp)
  obtain ⟨hq, _⟩ := (mem_structuredRows scorer).mp (List.mem_dedup.mp hq)
  exact seenRows_key hadmin hdb hp hq hkey

theorem gatherHits_agree (settings : Settings) (plan : QueryPlan) (embeddings : List Embedding) :
    gatherHits settings scorer db plan embeddings (some user) =
      gatherHits settings scorer db' plan embeddings (some user) := by
  have hvector : ∀ e, vectorSearch scorer db e settings.rerankTopN (some user) =
      vectorSearch scorer db' e settings.rerankTopN (some user) :=
    vectorSearch_agree h hadmin hdb hdb' scorer _
  have hkeyword : ∀ q, keywordSearch scorer db q settings.rerankTopN (some user) =
      keywordSearch scorer db' q settings.rerankTopN (some user) :=
    keywordSearch_agree h hadmin hdb hdb' scorer _
  have hstructured : ∀ q, structuredSearch scorer db q settings.rerankTopN [] (some user) =
      structuredSearch scorer db' q settings.rerankTopN [] (some user) :=
    fun q => structuredSearch_agree h hadmin hdb hdb' scorer _ q []
  simp only [gatherHits, hvector, hkeyword, hstructured]

end Arms

/-! The two endpoints look at every status. -/

theorem AgreeOn.guard_subset (h : AgreeOn anyStatus user db db') (hadmin : user.isAdmin = false) {docId : Uuid}
    (hguard : visibleDocGuard db (some user) docId = true) : ∃ d, d.id = docId ∧ Seen anyStatus user db d ∧
      visibleDocGuard db' (some user) docId = true := by
  obtain ⟨⟨d, hd, rfl⟩, hvisible⟩ := (visibleDocGuard_iff hadmin).mp hguard
  have hseen : Seen anyStatus user db d := ⟨hd, rfl, hvisible⟩
  obtain ⟨hd', _, hvisible'⟩ := (h.documents d).mp hseen
  exact ⟨d, rfl, hseen, (visibleDocGuard_iff hadmin).mpr ⟨⟨d, hd', rfl⟩, hvisible'⟩⟩

theorem AgreeOn.guard (h : AgreeOn anyStatus user db db') (hadmin : user.isAdmin = false) (docId : Uuid) :
    visibleDocGuard db (some user) docId = visibleDocGuard db' (some user) docId := by
  rw [Bool.eq_iff_iff]
  constructor
  · intro hg
    obtain ⟨_, _, _, hg'⟩ := h.guard_subset hadmin hg
    exact hg'
  · intro hg
    obtain ⟨_, _, _, hg'⟩ := h.symm.guard_subset hadmin hg
    exact hg'

theorem getOriginal_agree (h : AgreeOn anyStatus user db db') (hadmin : user.isAdmin = false) (hdb : db.RetrievalOk)
    (hdb' : db'.RetrievalOk) (docId : Uuid) (download : Bool) :
    getOriginal db (some user) docId download = getOriginal db' (some user) docId download := by
  unfold getOriginal
  rw [h.guard hadmin docId]
  cases hguard : visibleDocGuard db' (some user) docId with
  | false => rfl
  | true =>
    obtain ⟨d, rfl, hseen, _⟩ := h.guard_subset hadmin (by rw [h.guard hadmin docId]; exact hguard)
    have hd : db.document? d.id = some d := (selectOne_eq_some hdb.documents).mpr ⟨hseen.1, rfl⟩
    have hd' : db'.document? d.id = some d :=
      (selectOne_eq_some hdb'.documents).mpr ⟨((h.documents d).mp hseen).1, rfl⟩
    rw [hd, hd']

theorem rowsOf_agree (h : AgreeOn anyStatus user db db') (hdb : db.RetrievalOk) (hdb' : db'.RetrievalOk) {d : Document}
    (hd : Seen anyStatus user db d) {t : Table} (ht : t ∈ db.tables) (hdoc : t.docId = d.id) :
    rowsOf db t.id = rowsOf db' t.id := by
  have hnodup : db.tableRows.Nodup := List.Nodup.of_map _ hdb.tableRows
  have hnodup' : db'.tableRows.Nodup := List.Nodup.of_map _ hdb'.tableRows
  refine orderByDesc_congr ?_ ((List.perm_ext_iff_of_nodup (hnodup.filter _) (hnodup'.filter _)).mpr fun r => ?_)
  · intro r hr r' hr' hkey
    exact hdb.tableRows.eq_of_key (List.mem_filter.mp hr).1 (List.mem_filter.mp hr').1 hkey
  · simp only [List.mem_filter, decide_eq_true_eq]
    exact and_congr_left fun htable => h.rows d hd t ht hdoc r htable

theorem getTableRows_seen (h : AgreeOn anyStatus user db db') (hadmin : user.isAdmin = false) (hdb : db.RetrievalOk)
    (hdb' : db'.RetrievalOk) {tableId : Uuid} {t : Table} (ht : selectOne Table.id tableId db.tables = some t)
    (hguard : visibleDocGuard db (some user) t.docId = true) (limit offset : ℤ) :
    getTableRows db (some user) tableId limit offset = getTableRows db' (some user) tableId limit offset := by
  obtain ⟨hmem, rfl⟩ := selectOne_mem ht
  obtain ⟨d, hid, hseen, hguard'⟩ := h.guard_subset hadmin hguard
  have hmem' : t ∈ db'.tables := (h.tables d hseen t hid.symm).mp hmem
  have ht' : selectOne Table.id t.id db'.tables = some t := (selectOne_eq_some hdb'.tables).mpr ⟨hmem', rfl⟩
  unfold getTableRows
  rw [ht, ht']
  simp only [hguard, hguard', rowsOf_agree h hdb hdb' hseen hmem hid.symm]

theorem getTableRows_unseen {tableId : Uuid}
    (hunseen : ∀ t, selectOne Table.id tableId db.tables = some t → visibleDocGuard db (some user) t.docId = false)
    (limit offset : ℤ) :
    getTableRows db (some user) tableId limit offset = .error (httpException 404 "table not found") := by
  unfold getTableRows
  cases ht : selectOne Table.id tableId db.tables with
  | none => rfl
  | some t => simp only [hunseen t ht, ↓reduceIte]

theorem getTableRows_agree (h : AgreeOn anyStatus user db db') (hadmin : user.isAdmin = false) (hdb : db.RetrievalOk)
    (hdb' : db'.RetrievalOk) (tableId : Uuid) (limit offset : ℤ) :
    getTableRows db (some user) tableId limit offset = getTableRows db' (some user) tableId limit offset := by
  by_cases hseen : ∃ t, selectOne Table.id tableId db.tables = some t ∧ visibleDocGuard db (some user) t.docId = true
  · obtain ⟨t, ht, hguard⟩ := hseen
    exact getTableRows_seen h hadmin hdb hdb' ht hguard limit offset
  · by_cases hseen' : ∃ t, selectOne Table.id tableId db'.tables = some t ∧ visibleDocGuard db' (some user) t.docId = true
    · obtain ⟨t, ht, hguard⟩ := hseen'
      exact (getTableRows_seen h.symm hadmin hdb' hdb ht hguard limit offset).symm
    · rw [getTableRows_unseen fun t ht => Bool.eq_false_iff.mpr fun hg => hseen ⟨t, ht, hg⟩,
        getTableRows_unseen fun t ht => Bool.eq_false_iff.mpr fun hg => hseen' ⟨t, ht, hg⟩]

/-- Retrieval is determined by the ready documents a user sees, and the two endpoints by the seen
documents of every status. -/
theorem retrieval_noninterference (settings : Settings) (scorer : Scorer) (api : RerankApi)
    (normalizeTitle : String → String) (hadmin : user.isAdmin = false) (hdb : db.RetrievalOk) (hdb' : db'.RetrievalOk) :
    (AgreeOn isReady user db db' → ∀ plan embeddings,
      retrieveHits settings scorer db api normalizeTitle plan embeddings (some user) =
        retrieveHits settings scorer db' api normalizeTitle plan embeddings (some user)) ∧
    (AgreeOn anyStatus user db db' →
      (∀ docId download, getOriginal db (some user) docId download = getOriginal db' (some user) docId download) ∧
      ∀ tableId limit offset, getTableRows db (some user) tableId limit offset =
        getTableRows db' (some user) tableId limit offset) := by
  refine ⟨fun h plan embeddings => ?_, fun h => ⟨?_, ?_⟩⟩
  · unfold retrieveHits
    rw [gatherHits_agree h hadmin hdb hdb' scorer settings plan embeddings]
  · exact getOriginal_agree h hadmin hdb hdb'
  · exact getTableRows_agree h hadmin hdb hdb'

theorem AgreeOn.storeHidden {doc : Document} {rows : IngestRows} (hhidden : ¬ VisibleTo db user doc.id)
    (hrows : ∀ r ∈ rows.tableRows, ∀ t ∈ db.tables, r.tableId ≠ t.id) :
    AgreeOn statuses user db (db.storeDocument doc rows) where
  groups _ := Iff.rfl
  documents d := by
    constructor
    · rintro ⟨hd, hs, hv⟩
      exact ⟨List.mem_append_left _ hd, hs, hv⟩
    · rintro ⟨hd, hs, hv⟩
      rcases List.mem_append.mp hd with hd | hd
      · exact ⟨hd, hs, hv⟩
      · obtain rfl := List.mem_singleton.mp hd
        exact absurd hv hhidden
  chunks := by
    rintro d ⟨_, _, hv⟩ c hc
    refine ⟨List.mem_append_left _, fun hmem => ?_⟩
    rcases List.mem_append.mp hmem with hmem | hmem
    · exact hmem
    · obtain ⟨c0, _, rfl⟩ := List.mem_map.mp hmem
      rw [← hc] at hv
      exact absurd hv hhidden
  tables := by
    rintro d ⟨_, _, hv⟩ t ht
    refine ⟨List.mem_append_left _, fun hmem => ?_⟩
    rcases List.mem_append.mp hmem with hmem | hmem
    · exact hmem
    · obtain ⟨t0, _, rfl⟩ := List.mem_map.mp hmem
      rw [← ht] at hv
      exact absurd hv hhidden
  rows := by
    intro d _ t ht _ r hr
    refine ⟨List.mem_append_left _, fun hmem => ?_⟩
    rcases List.mem_append.mp hmem with hmem | hmem
    · exact hmem
    · exact absurd hr (hrows r hmem t ht)

def reader : User := ⟨1, none, "reader@example.com", none, false, none, none, none⟩

def paragraph (id : Nat) (text : String) : Chunk := ⟨id, 0, 0, .prose, text, none, none, none, [], text⟩

/-- A document with one paragraph. -/
def noteRows (id chunkId : Nat) (text : String) : IngestRows := ⟨id, "text/plain", [paragraph chunkId text], [], []⟩

/-- One document that everyone may see. -/
def publicNote : Db :=
  { Db.empty with documentAcl := [⟨0, 3, .everyone, none, .local⟩], aclSeq := 1 }.storeDocument
    (newDocument "5e1f" "note.txt" "default" (noteRows 3 1 "fire drill")) (noteRows 3 1 "fire drill")

/-- The same with a better match that only others may see. -/
def hiddenNote : Db :=
  publicNote.storeDocument (newDocument "77aa" "secret.txt" "default" (noteRows 4 2 "fire drill fire drill"))
    (noteRows 4 2 "fire drill fire drill")

/-- Longer texts are closer, and keywords match everywhere. -/
def lengthScorer : Scorer where
  distance _ c := 1 / (c.text.length + 1)
  bm25Available := false
  bm25 _ _ := none
  bm25Fails _ := none
  tsRank _ c := some c.text.length
  ilike _ _ := true

def drillPlan : QueryPlan := ⟨true, ("fire drill", "muster"), .default⟩

theorem publicNote_ok : publicNote.RetrievalOk :=
  ⟨by decide, by decide, by decide, by decide, by decide⟩

theorem hiddenNote_ok : hiddenNote.RetrievalOk :=
  ⟨by decide, by decide, by decide, by decide, by decide⟩

theorem hiddenNote_agrees : AgreeOn statuses reader publicNote hiddenNote := by
  refine AgreeOn.storeHidden ?_ (by decide)
  intro hvisible
  have hpass : passes (visibilityClause publicNote (some reader)) 4 = true := (passes_clause_iff rfl).mpr hvisible
  exact absurd hpass (by decide)

/-- The reader finds the public note and no trace of the hidden one, which others get first. -/
theorem retrieval_noninterference_hidden :
    (retrieveHits {} lengthScorer publicNote (fun _ _ => none) id drillPlan [[]] (some reader)).toOption.map
      (List.map Hit.chunkId) = some [1] ∧
    (retrieveHits {} lengthScorer hiddenNote (fun _ _ => none) id drillPlan [[]] none).toOption.map
      (List.map Hit.chunkId) = some [2, 1] ∧
    retrieveHits {} lengthScorer publicNote (fun _ _ => none) id drillPlan [[]] (some reader) =
      retrieveHits {} lengthScorer hiddenNote (fun _ _ => none) id drillPlan [[]] (some reader) ∧
    getOriginal publicNote (some reader) 4 false = getOriginal hiddenNote (some reader) 4 false := by
  have hadmin : reader.isAdmin = false := rfl
  obtain ⟨hretrieve, hendpoints⟩ :=
    retrieval_noninterference {} lengthScorer (fun _ _ => none) id hadmin publicNote_ok hiddenNote_ok
  exact ⟨by decide +kernel, by decide +kernel, hretrieve hiddenNote_agrees drillPlan [[]],
    (hendpoints hiddenNote_agrees).1 4 false⟩

/-- A failed document that everyone may see. -/
def failedNote : Db :=
  { Db.empty with
    documents := [{ newDocument "5e1f" "note.txt" "default" (noteRows 3 1 "fire drill") with status := .failed }]
    documentAcl := [⟨0, 3, .everyone, none, .local⟩]
    aclSeq := 1 }

/-- The two states agree on the ready documents, of which there are none, and the file tells them apart. -/
theorem failedNote_differs :
    Db.empty.RetrievalOk ∧ failedNote.RetrievalOk ∧ reader.isAdmin = false ∧ AgreeOn isReady reader Db.empty failedNote ∧
      getOriginal Db.empty (some reader) 3 false ≠ getOriginal failedNote (some reader) 3 false := by
  have hunseen : ∀ db d, db = Db.empty ∨ db = failedNote → ¬ Seen isReady reader db d := by
    rintro db d (rfl | rfl) ⟨hd, hs, _⟩
    · cases hd
    · obtain rfl := List.mem_singleton.mp hd
      cases hs
  refine ⟨⟨by decide, by decide, by decide, by decide, by decide⟩, ⟨by decide, by decide, by decide, by decide, by decide⟩,
    rfl, ⟨fun _ => Iff.rfl, fun d => ?_, fun d hd => ?_, fun d hd => ?_, fun d hd => ?_⟩, ?_⟩
  · exact iff_of_false (hunseen _ d (Or.inl rfl)) (hunseen _ d (Or.inr rfl))
  · exact absurd hd (hunseen _ d (Or.inl rfl))
  · exact absurd hd (hunseen _ d (Or.inl rfl))
  · exact absurd hd (hunseen _ d (Or.inl rfl))
  · have hmissing : getOriginal Db.empty (some reader) 3 false = .error (httpException 404 "document not found") := rfl
    intro heq
    rw [hmissing] at heq
    cases heq

end ProRag
