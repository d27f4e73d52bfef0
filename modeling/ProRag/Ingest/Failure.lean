import ProRag.Ingest.Session

/-!
# A failed ingest leaves no row

The row is flushed and not committed when a later step fails, and the handler rolls back before it looks
for the row.
-/

namespace ProRag

open Framework

/-- One failed row for the digest, with its reason and no content, and an answer that says so. -/
def FailureRecorded (digest : String) (r : Except PyError IngestResponse) (db : Db) : Prop :=
  ∃ doc resp, db.documents.filter (fun d => d.sha256 = digest) = [doc] ∧ doc.status = .failed ∧ doc.error ≠ none ∧
    (∀ c ∈ db.chunks, c.docId ≠ doc.id) ∧ (∀ t ∈ db.tables, t.docId ≠ doc.id) ∧
    (∀ a ∈ db.documentAcl, a.docId ≠ doc.id) ∧ r = .ok resp ∧ resp.status = .failed

/-- Other requests neither upload the bytes of the digest nor touch its document. -/
structure LeavesAlone (digest : String) (others : Db → Db) : Prop where
  documents : ∀ db, (others db).documents.filter (fun d => d.sha256 = digest) =
    db.documents.filter fun d => d.sha256 = digest
  chunks : ∀ db, ∀ d ∈ db.documents, d.sha256 = digest → ∀ c ∈ db.chunks, c.docId = d.id → c ∈ (others db).chunks
  tables : ∀ db, ∀ d ∈ db.documents, d.sha256 = digest → ∀ t ∈ db.tables, t.docId = d.id → t ∈ (others db).tables

def HasContent (doc : Document) (db : Db) : Prop :=
  (∃ d ∈ db.documents, d.id = doc.id ∧ d.sha256 = doc.sha256) ∧
    ((∃ c ∈ db.chunks, c.docId = doc.id) ∨ ∃ t ∈ db.tables, t.docId = doc.id)

variable {sha256Hex : Bytes → String} {settings : Settings} {faults : IngestFaults} {u : Upload} {parsed : Parsed}
  {work : FlushedIngest} {c c' : Conn Db Blobs}

theorem storeTables_pending (docId : Uuid) (i : Nat) (ts : List ParsedTable) :
    Pending (storeTables faults docId i ts) := by
  induction ts generalizing i with
  | nil => exact Pending.pure ()
  | cons t ts ih => exact Pending.bind Pending.statement fun _ => ih (i + 1)

theorem grantRules_pending (docId : Uuid) (chunks : List Chunk) (i : Nat) (rules : List AccessRule) :
    Pending (grantRules settings faults docId chunks i rules) := by
  induction rules generalizing i with
  | nil => exact Pending.pure ()
  | cons r rs ih =>
    unfold grantRules
    split
    · exact Pending.await _
    · exact Pending.bind Pending.statement fun _ => ih (i + 1)
    · exact ih (i + 1)

theorem applyRules_pending (docId : Uuid) (chunks : List Chunk) :
    Pending (applyRules settings faults docId chunks) := by
  apply Pending.tryCatch
  · apply Pending.bind Pending.statement
    intro _
    exact Pending.bind Pending.statement fun rules => grantRules_pending docId chunks 0 rules
  · exact fun _ => Pending.pure ()

theorem storeContents_pending (work : FlushedIngest) : Pending (storeContents settings faults work) := by
  apply Pending.bind (storeTables_pending _ _ _)
  intro _
  apply Pending.bind (Pending.await _)
  intro _
  exact Pending.bind (Pending.await _) fun chunks => applyRules_pending work.doc.id chunks

theorem newChunks_nonempty {docId : Uuid} {prose tables chunks : List Chunk} {embeddings : List Embedding}
    (h : newChunks docId prose tables embeddings = .ok chunks) (hne : prose ≠ []) : ∃ ch ∈ chunks, ch.docId = docId := by
  obtain ⟨ps, hps, h⟩ := bind_eq_ok.mp h
  obtain ⟨ts, _, h⟩ := bind_eq_ok.mp h
  obtain rfl := Except.ok.inj h
  have hlen : ps.length = prose.length := by
    unfold zipStrict at hps
    split at hps
    · cases hps
    · split at hps
      · cases hps
      · obtain rfl := Except.ok.inj hps
        rw [List.length_zip]
        omega
  cases ps with
  | nil => exact absurd (List.length_eq_zero_iff.mp hlen.symm) hne
  | cons p ps => exact ⟨_, List.mem_append_left _ List.mem_cons_self, rfl⟩

theorem storeContents_live (h : storeContents settings faults work c = (.ok (), c')) (hlive : c'.state = .live)
    (hdoc : work.doc ∈ c.view.documents) (hne : work.prose ≠ [] ∨ work.tables ≠ []) : HasContent work.doc c'.view := by
  obtain ⟨embeddings, chunks, _, hchunks, _, _, hview⟩ := storeContents_stored h hlive
  rw [hview, applyConfirmedRules_frame]
  constructor
  · refine ⟨_, mem_updateWhere.mpr ⟨work.doc, hdoc, rfl⟩, ?_⟩
    split
    · exact ⟨rfl, rfl⟩
    · exact ⟨rfl, rfl⟩
  · rcases hne with hprose | htab
    · obtain ⟨ch, hch, hid⟩ := newChunks_nonempty hchunks hprose
      exact Or.inl ⟨ch, List.mem_append_right _ hch, hid⟩
    · obtain ⟨t, ht⟩ := List.exists_mem_of_ne_nil work.tables htab
      exact Or.inr ⟨_, List.mem_append_right _ (List.mem_map_of_mem ht), rfl⟩

theorem flushDocument_flushed {opened : FlushedIngest} (h : flushDocument faults work c = (.ok (.inr opened), c')) :
    opened = work ∧ c'.committed = c.committed ∧ c'.state = .live ∧ work.doc ∈ c'.view.documents := by
  unfold flushDocument Sql.tryCatch at h
  cases hflush : (flush faults.flush (insertDocument work.doc) : IngestTx Unit) c with
  | mk r c1 =>
    cases r with
    | ok a =>
      rw [Sql.bind_of_ok hflush] at h
      obtain ⟨hlive, _, view, hview, rfl⟩ := Sql.statement_eq_ok.mp hflush
      obtain ⟨hinr, rfl⟩ := Prod.mk.inj h
      have hdoc : work.doc ∈ view.documents := by
        unfold insertDocument at hview
        split at hview
        · cases hview
        · split at hview
          · cases hview
          · obtain rfl := (Prod.mk.inj (Except.ok.inj hview)).2
            exact List.mem_append_right _ List.mem_cons_self
      exact ⟨(Sum.inr.inj (Except.ok.inj hinr)).symm, rfl, hlive, hdoc⟩
    | error exc =>
      rw [Sql.bind_of_error hflush] at h
      simp only at h
      split at h
      · obtain ⟨_, c2, _, h⟩ := Sql.bind_eq_ok.mp h
        obtain ⟨existing, c3, _, h⟩ := Sql.bind_eq_ok.mp h
        cases existing with
        | none => cases (Prod.mk.inj h).1
        | some e =>
          obtain ⟨resp, c4, _, h⟩ := Sql.bind_eq_ok.mp h
          cases Except.ok.inj (Prod.mk.inj h).1
      · cases (Prod.mk.inj h).1

theorem openIngest_flushed {db : Db} {blobs : Blobs}
    (h : openIngest sha256Hex settings faults u parsed (Conn.fresh db blobs) = (.ok (.inr work), c)) :
    db.documentBySha? (sha256Hex u.data) = none ∧ c.committed = db ∧ c.state = .live ∧
      work.doc ∈ c.view.documents ∧ work.doc.sha256 = sha256Hex u.data ∧ (work.prose ≠ [] ∨ work.tables ≠ []) := by
  obtain ⟨existing, c1, hlookup, h⟩ := Sql.bind_eq_ok.mp h
  obtain ⟨_, _, hexisting, rfl⟩ := lookupDigest_eq_ok.mp hlookup
  have hraises : ∀ {path : BlobPath} {exc : PyError} {c c' : Conn Db Blobs},
      (discard path exc : IngestTx (IngestResponse ⊕ FlushedIngest)) c ≠ (.ok (.inr work), c') := by
    intro path exc c c' hd
    obtain ⟨_, c2, _, hd⟩ := Sql.bind_eq_ok.mp hd
    cases (Prod.mk.inj hd).1
  cases existing with
  | some e =>
    obtain ⟨resp, c2, _, h⟩ := Sql.bind_eq_ok.mp h
    cases Except.ok.inj (Prod.mk.inj h).1
  | none =>
    cases parsed with
    | refused detail => cases (Prod.mk.inj h).1
    | raised exc =>
      obtain ⟨_, c2, _, h⟩ := Sql.bind_eq_ok.mp h
      exact absurd h hraises
    | imageUnreadable =>
      obtain ⟨_, c2, _, h⟩ := Sql.bind_eq_ok.mp h
      exact absurd h hraises
    | reraised exc =>
      obtain ⟨_, c2, _, h⟩ := Sql.bind_eq_ok.mp h
      cases (Prod.mk.inj h).1
    | contents id mime prose tables =>
      obtain ⟨_, c2, heffect, h⟩ := Sql.bind_eq_ok.mp h
      obtain rfl := (Prod.mk.inj heffect).2
      split at h
      · exact absurd h hraises
      · rename_i hcontent
        split at h
        · exact absurd h hraises
        · obtain ⟨rfl, hcommitted, hlive, hdoc⟩ := flushDocument_flushed h
          refine ⟨hexisting.symm, hcommitted, hlive, hdoc, rfl, ?_⟩
          by_cases hprose : prose = []
          · refine Or.inr fun htables => hcontent ?_
            simp [hprose, show tables = [] from htables]
          · exact Or.inl hprose

theorem ingestTry_raised {exc : PyError} (h : ingestTry settings faults work c = (.error exc, c'))
    (hdoc : work.doc ∈ c.view.documents) (hne : work.prose ≠ [] ∨ work.tables ≠ []) :
    c'.committed = c.committed ∨ HasContent work.doc c'.committed := by
  have hpending : (storeContents settings faults work c).2.committed = c.committed := (storeContents_pending work c).1
  rcases Sql.bind_eq_error.mp h with hstore | ⟨_, c1, hstore, hcommit⟩
  · rw [hstore] at hpending
    exact Or.inl hpending
  · rw [hstore] at hpending
    rcases Sql.bind_eq_error.mp hcommit with hraised | ⟨_, c2, _, hpure⟩
    · rcases Sql.commit_raised hraised with hsame | ⟨hlive, hdurable⟩
      · exact Or.inl (hsame.trans hpending)
      · rw [hdurable]
        exact Or.inr (storeContents_live hstore hlive hdoc hne)
    · cases (Prod.mk.inj hpure).1

theorem ingestExcept_lost {exc : PyError} (h : (faults.others c.committed).documentBySha? (sha256Hex u.data) = none)
    (resp : IngestResponse) : (ingestExcept sha256Hex faults u exc c).1 ≠ .ok resp := by
  intro hok
  have hrun : ingestExcept sha256Hex faults u exc c = (.ok resp, (ingestExcept sha256Hex faults u exc c).2) :=
    Prod.ext hok rfl
  obtain ⟨_, c1, helse, hrun⟩ := Sql.bind_eq_ok.mp hrun
  obtain ⟨_, c2, hroll, hrun⟩ := Sql.bind_eq_ok.mp hrun
  obtain rfl := (Prod.mk.inj helse).2
  obtain rfl := (Prod.mk.inj hroll).2
  obtain ⟨row, c3, hlookup, hrun⟩ := Sql.bind_eq_ok.mp hrun
  obtain ⟨_, _, hrow, rfl⟩ := lookupDigest_eq_ok.mp hlookup
  obtain rfl : row = none := hrow.trans h
  obtain ⟨_, c4, _, hrun⟩ := Sql.bind_eq_ok.mp hrun
  cases (Prod.mk.inj hrun).1

theorem HasContent.others {digest : String} {others : Db → Db} (halone : LeavesAlone digest others) {doc : Document}
    {db : Db} (h : HasContent doc db) (hdigest : doc.sha256 = digest) : HasContent doc (others db) := by
  obtain ⟨⟨d, hd, hid, hsha⟩, hcontent⟩ := h
  have hsha' : d.sha256 = digest := hsha.trans hdigest
  constructor
  · have hmem : d ∈ (others db).documents.filter fun d => d.sha256 = digest := by
      rw [halone.documents]
      exact List.mem_filter.mpr ⟨hd, by simpa using hsha'⟩
    exact ⟨d, (List.mem_filter.mp hmem).1, hid, hsha⟩
  · rcases hcontent with ⟨ch, hch, hchunk⟩ | ⟨t, ht, htable⟩
    · exact Or.inl ⟨ch, halone.chunks db d hd hsha' ch hch (hchunk.trans hid.symm), hchunk⟩
    · exact Or.inr ⟨t, halone.tables db d hd hsha' t ht (htable.trans hid.symm), htable⟩

theorem HasContent.not_recorded {doc : Document} {db : Db} (h : HasContent doc db) (r : Except PyError IngestResponse) :
    ¬ FailureRecorded doc.sha256 r db := by
  intro hrecorded
  obtain ⟨doc', resp, hone, _, _, hchunks, htables, _⟩ := hrecorded
  obtain ⟨⟨d, hd, hid, hsha⟩, hcontent⟩ := h
  have hmem : d ∈ db.documents.filter fun d => d.sha256 = doc.sha256 :=
    List.mem_filter.mpr ⟨hd, by simpa using hsha⟩
  rw [hone] at hmem
  obtain rfl := List.mem_singleton.mp hmem
  rcases hcontent with ⟨ch, hch, hchunk⟩ | ⟨t, ht, htable⟩
  · exact hchunks ch hch (hchunk.trans hid.symm)
  · exact htables t ht (htable.trans hid.symm)

theorem ingestExcept_marks {exc : PyError} {doc : Document} {resp : IngestResponse}
    (hcontent : HasContent doc (faults.others c.committed)) (h : ingestExcept sha256Hex faults u exc c = (.ok resp, c')) :
    HasContent doc c'.committed := by
  obtain ⟨_, c1, helse, h⟩ := Sql.bind_eq_ok.mp h
  obtain ⟨_, c2, hroll, h⟩ := Sql.bind_eq_ok.mp h
  obtain rfl := (Prod.mk.inj helse).2
  obtain rfl := (Prod.mk.inj hroll).2
  obtain ⟨row, c3, hlookup, h⟩ := Sql.bind_eq_ok.mp h
  obtain ⟨_, _, _, rfl⟩ := lookupDigest_eq_ok.mp hlookup
  cases row with
  | none =>
    obtain ⟨_, c4, _, h⟩ := Sql.bind_eq_ok.mp h
    cases (Prod.mk.inj h).1
  | some e =>
    obtain ⟨_, c4, hmark, h⟩ := Sql.bind_eq_ok.mp h
    obtain ⟨_, _, view, hview, rfl⟩ := Sql.statement_eq_ok.mp hmark
    obtain rfl := (Prod.mk.inj (Except.ok.inj hview)).2
    obtain ⟨_, c5, hcommit, h⟩ := Sql.bind_eq_ok.mp h
    obtain rfl := (Prod.mk.inj h).2
    rw [Sql.commit_live rfl hcommit]
    obtain ⟨⟨d, hd, hrow⟩, hrest⟩ := hcontent
    refine ⟨⟨_, mem_updateWhere.mpr ⟨d, hd, rfl⟩, ?_⟩, hrest⟩
    split
    · exact hrow
    · exact hrow

/-- However an ingest fails behind the flush of its row, the failure is not recorded as it should be. -/
theorem failure_never_recorded {db : Db} {blobs : Blobs} (halone : LeavesAlone (sha256Hex u.data) faults.others)
    (hopen : openIngest sha256Hex settings faults u parsed (Conn.fresh db blobs) = (.ok (.inr work), c))
    {exc : PyError} (hfails : (ingestTry settings faults work c).1 = .error exc) :
    ¬ FailureRecorded (sha256Hex u.data) (ingestSession sha256Hex settings faults u parsed (Conn.fresh db blobs)).1
      (ingestSession sha256Hex settings faults u parsed (Conn.fresh db blobs)).2.committed := by
  obtain ⟨hnone, hcommitted, _, hdoc, hsha, hne⟩ := openIngest_flushed hopen
  have htry : ingestTry settings faults work c = (.error exc, (ingestTry settings faults work c).2) := Prod.ext hfails rfl
  have hsession : ingestSession sha256Hex settings faults u parsed (Conn.fresh db blobs) =
      Sql.tryCatch PyError.isException (ingestTry settings faults work) (ingestExcept sha256Hex faults u) c := by
    unfold ingestSession
    rw [Sql.bind_of_ok hopen]
  rw [hsession]
  unfold Sql.tryCatch
  rw [htry]
  by_cases hcaught : exc.isException = true
  · simp only [hcaught, ↓reduceIte]
    intro hrecorded
    obtain ⟨doc', resp, _, _, _, _, _, _, hok, _⟩ := id hrecorded
    rcases ingestTry_raised htry hdoc hne with hsame | hlanded
    · -- nothing was committed: the row is gone with the rollback
      refine ingestExcept_lost ?_ resp hok
      rw [hsame, hcommitted]
      unfold Db.documentBySha? at hnone ⊢
      rw [selectOne_eq_none] at hnone ⊢
      intro d hd hd'
      have hmem : d ∈ (faults.others db).documents.filter fun d => d.sha256 = sha256Hex u.data :=
        List.mem_filter.mpr ⟨hd, by simpa using hd'⟩
      rw [halone.documents] at hmem
      exact hnone d (List.mem_filter.mp hmem).1 hd'
    · have hkept := ingestExcept_marks (hlanded.others halone hsha) (Prod.ext hok rfl)
      rw [← hsha] at hrecorded
      exact hkept.not_recorded _ hrecorded
  · simp only [hcaught]
    intro hrecorded
    obtain ⟨doc', resp, _, _, _, _, _, _, hok, _⟩ := hrecorded
    cases hok

/-- An upload of one passage whose embedding times out, with nobody else about. -/
def timedOutFaults : IngestFaults where
  lookup := none
  flush := none
  lookupAgain := none
  table := fun _ => none
  embedded := .error ⟨"TimeoutError", ""⟩
  rows := none
  rules := none
  grant := fun _ => none
  commit := .durable
  others := id
  recheck := none
  failureCommit := .durable

def pngPassage : Parsed :=
  .contents 9 "image/png" [⟨1, 0, 0, .prose, "Exits are on every floor.", some 1, none, none, [], "Exits are on every floor."⟩] []

def pngFlushed : FlushedIngest :=
  ⟨pngUpload.document pngDigest 9 "image/png", [⟨1, 0, 0, .prose, "Exits are on every floor.", some 1, none, none, [], "Exits are on every floor."⟩], []⟩

theorem failure_never_recorded_timeout :
    ¬ FailureRecorded (pngDigest pngUpload.data)
      (ingestSession pngDigest {} timedOutFaults pngUpload pngPassage (Conn.fresh Db.empty fun _ => none)).1
      (ingestSession pngDigest {} timedOutFaults pngUpload pngPassage (Conn.fresh Db.empty fun _ => none)).2.committed := by
  have hopen : ∃ c, openIngest pngDigest {} timedOutFaults pngUpload pngPassage (Conn.fresh Db.empty fun _ => none) =
      (.ok (.inr pngFlushed), c) := ⟨_, rfl⟩
  obtain ⟨c, hopen⟩ := hopen
  exact failure_never_recorded ⟨fun _ => rfl, fun _ _ _ _ _ h _ => h, fun _ _ _ _ _ h _ => h⟩ hopen rfl

theorem timeout_leaves_no_row :
    ∃ c, openIngest pngDigest {} timedOutFaults pngUpload pngPassage (Conn.fresh Db.empty fun _ => none) =
        (.ok (.inr pngFlushed), c) ∧
      (ingestTry {} timedOutFaults pngFlushed c).1 = .error ⟨"TimeoutError", ""⟩ ∧
      (ingestSession pngDigest {} timedOutFaults pngUpload pngPassage (Conn.fresh Db.empty fun _ => none)).1 =
        .error (httpException 500 "ingestion failed") ∧
      (ingestSession pngDigest {} timedOutFaults pngUpload pngPassage (Conn.fresh Db.empty fun _ => none)).2.committed.documents = [] ∧
      ¬ FailureRecorded (pngDigest pngUpload.data)
        (ingestSession pngDigest {} timedOutFaults pngUpload pngPassage (Conn.fresh Db.empty fun _ => none)).1
        (ingestSession pngDigest {} timedOutFaults pngUpload pngPassage (Conn.fresh Db.empty fun _ => none)).2.committed := by
  refine ⟨_, rfl, rfl, rfl, rfl, fun hrecorded => ?_⟩
  obtain ⟨doc, resp, _, _, _, _, _, _, hok, _⟩ := hrecorded
  cases hok

end ProRag
