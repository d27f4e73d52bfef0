import ProRag.Connectors.Corpus

/-!
# What a clean run leaves behind

With an object store whose bytes are determined by key, etag and size, every synced item that
links a document links one with the bytes of its object.  A run that reports no error therefore
syncs what it attempts; what it passes over is as synced as it was before.
-/

namespace ProRag

open Framework

/-- The bytes of an object, by connector, key, etag and size. -/
abbrev StoreContent := Uuid → String → String → Nat → Bytes

def StoreContent.bytes (content : StoreContent) (c : Uuid) (obj : RemoteObject) : Bytes :=
  content c obj.key obj.etag obj.size

/-- What the store hands out for the listed objects is what their key, etag and size stand for. -/
def HonestFetch (content : StoreContent) (c : Uuid) (env : SyncEnv) (bucket : BucketListing) : Prop :=
  ∀ obj ∈ bucket.objects, ∀ data, env.fetch obj = .ok data → data = content.bytes c obj

/-- Runs of connectors over an honest store. -/
def HonestStore (content : StoreContent) : Corpus → CorpusOp → Prop
  | _, .sync c env bucket => HonestFetch content c env bucket
  | _, .sweep c env bucket => HonestFetch content c env bucket
  | _, _ => True

/-- `i` is synced and links a document with the bytes that its key, etag and size stand for. -/
def HonestLink (sha256Hex : Bytes → String) (content : StoreContent) (documents : List Document)
    (i : ConnectorItem) : Prop :=
  i.status = .synced → ∀ d, i.docId = some d → ∃ doc ∈ documents, doc.id = d ∧
    ∃ etag size, i.etag = some etag ∧ i.size = some size ∧
      doc.sha256 = sha256Hex (content i.connectorId i.externalId etag size)

/-- The invariant of the runs over an honest store. -/
def HonestItems (sha256Hex : Bytes → String) (content : StoreContent) (db : Db) : Prop :=
  ∀ i ∈ db.connectorItems, HonestLink sha256Hex content db.documents i

/-- Every eligible object of the listing has a synced item whose document has the object's bytes. -/
def SyncedAll (sha256Hex : Bytes → String) (content : StoreContent) (settings : Settings) (c : Uuid)
    (remote : List RemoteObject) (db : Db) : Prop :=
  ∀ obj ∈ remote, eligible settings obj = true → ∃ i ∈ db.connectorItems, i.key = (c, obj.key) ∧
    i.status = .synced ∧ ∃ doc ∈ db.documents, i.docId = some doc.id ∧
      doc.sha256 = sha256Hex (content.bytes c obj)

/-- Every eligible object the run passes over has a synced item that still links a document. -/
def PassedOverSynced (settings : Settings) (c : Uuid) (remote : List RemoteObject) (db : Db) : Prop :=
  ∀ obj, PassedOver c db remote obj → eligible settings obj = true →
    ∃ i ∈ db.connectorItems, i.key = (c, obj.key) ∧ i.status = .synced ∧ i.docId.isSome

section

variable {sha256Hex : Bytes → String} {content : StoreContent} {env : SyncEnv} {c : Uuid} {collection : String}

theorem HonestLink.mono {docs docs' : List Document} {i : ConnectorItem}
    (h : HonestLink sha256Hex content docs i) (hsub : ∀ doc ∈ docs, doc ∈ docs') :
    HonestLink sha256Hex content docs' i := by
  intro hst d hd
  obtain ⟨doc, hdoc, hrest⟩ := h hst d hd
  exact ⟨doc, hsub doc hdoc, hrest⟩

theorem HonestItems.frame {touched : ConnectorItem → Prop} {db db' : Db}
    (h : HonestItems sha256Hex content db) (hframe : CorpusFrame touched db db')
    (htouched : ∀ i ∈ db'.connectorItems, touched i → HonestLink sha256Hex content db'.documents i) :
    HonestItems sha256Hex content db' := by
  intro i hi
  by_cases ht : touched i
  · exact htouched i hi ht
  · exact (h i ((hframe.items i ht).mp hi)).mono hframe.documents

theorem HonestItems.shrink {db db' : Db} (h : HonestItems sha256Hex content db)
    (hitems : ∀ i ∈ db'.connectorItems, ∃ j ∈ db.connectorItems, SameObject j i ∧
      (i.status = .synced → j.status = .synced) ∧
      ∀ d, i.docId = some d → j.docId = some d ∧ ∀ doc ∈ db.documents, doc.id = d → doc ∈ db'.documents) :
    HonestItems sha256Hex content db' := by
  intro i hi hst d hd
  obtain ⟨j, hj, hsame, hjst, hjd⟩ := hitems i hi
  obtain ⟨hd', hkeep⟩ := hjd d hd
  obtain ⟨doc, hdoc, hid, etag, size, he, hs, hsha⟩ := h j hj (hjst hst) d hd'
  refine ⟨doc, hkeep doc hdoc hid, hid, etag, size, ?_⟩
  rw [hsame]
  exact ⟨he, hs, hsha⟩

theorem settled_honest {obj : RemoteObject} {db db' : Db} {o : ObjectOutcome} {seenAt : Timestamp}
    (hfetch : ∀ data, env.fetch obj = .ok data → data = content.bytes c obj)
    (hholds : o.Holds sha256Hex env obj db db') :
    HonestLink sha256Hex content db'.documents (settledItem c obj seenAt o) := by
  intro hst d hd
  cases o with
  | skipped why => cases hst
  | error exc => cases hst
  | synced e =>
    obtain rfl : e = d := Option.some.inj hd
    obtain ⟨_, data, hf, doc, hdoc, hid, hsha⟩ := hholds
    exact ⟨doc, hdoc, hid, obj.etag, obj.size, rfl, rfl, by rw [hsha, hfetch data hf]; rfl⟩

theorem processLoop_honest {as : List (RemoteObject × Bool)} {report : SyncReport} {db db' : Db}
    {r : Except PyError SyncReport} (hok : db.CorpusOk) (h : HonestItems sha256Hex content db)
    (hfetch : ∀ a ∈ as, ∀ data, env.fetch a.1 = .ok data → data = content.bytes c a.1)
    (he : processLoop sha256Hex env c collection as report db = (r, db')) :
    HonestItems sha256Hex content db' := by
  induction as generalizing report db with
  | nil =>
    obtain ⟨_, rfl⟩ := Prod.mk.inj he
    exact h
  | cons a rest ih =>
    obtain ⟨obj, isNew⟩ := a
    simp only [processLoop] at he
    split at he
    · rename_i exc db1 hobj
      obtain ⟨_, rfl⟩ := Prod.mk.inj he
      exact h.frame (processObject_error hok hobj) fun _ _ => False.elim
    · rename_i o db1 hobj
      obtain ⟨hframe, hset⟩ := processObject_ok hok hobj
      have h1 : HonestItems sha256Hex content db1 := by
        apply h.frame hframe
        rintro i hi ⟨hc, hkey⟩
        have hobjkey : i.externalId = obj.key := by simpa using hkey
        have hik : i.key = (settledItem c obj (env.seenAt obj.key) o).key := Prod.ext hc hobjkey
        rw [hframe.ok.itemKey.eq_of_key hi hset.item hik]
        exact settled_honest (hfetch (obj, isNew) List.mem_cons_self) hset.holds
      exact ih hframe.ok h1 (fun a ha => hfetch a (List.mem_cons_of_mem _ ha)) he

theorem processObjects_honest {remote : List RemoteObject} {db db' : Db} {r : Except PyError SyncReport}
    (hok : db.CorpusOk) (h : HonestItems sha256Hex content db)
    (hfetch : ∀ obj ∈ remote, ∀ data, env.fetch obj = .ok data → data = content.bytes c obj)
    (he : processObjects sha256Hex env c collection remote db = (r, db')) :
    HonestItems sha256Hex content db' := by
  have hattempts : ∀ a ∈ attempts c remote db, ∀ data, env.fetch a.1 = .ok data → data = content.bytes c a.1 :=
    fun a ha => hfetch a.1 (mem_attempts.mp ⟨a, ha, rfl⟩).1
  unfold processObjects at he
  split at he
  · rename_i exc db1 hloop
    obtain ⟨_, rfl⟩ := Prod.mk.inj he
    exact processLoop_honest hok h hattempts hloop
  · rename_i report db1 hloop
    obtain ⟨_, rfl⟩ := Prod.mk.inj he
    have h1 := processLoop_honest hok h hattempts hloop
    intro i hi
    obtain ⟨j, hj, rfl⟩ := mem_updateWhere.mp hi
    have hj1 := h1 j hj
    split
    · exact hj1
    · exact hj1

theorem sweepDeleted_honest {remote : List RemoteObject} {db : Db} (hok : db.CorpusOk)
    (h : HonestItems sha256Hex content db) : HonestItems sha256Hex content (sweepDeleted env c remote db) := by
  obtain ⟨_, hitems, hdocs⟩ := sweepKeys_spec c (db.docIdByKey c) hok (deletedKeys env c remote db)
  apply h.shrink
  intro i hi
  rw [sweepDeleted, hitems] at hi
  obtain ⟨j, hj, rfl⟩ := List.mem_map.mp hi
  refine ⟨j, hj, rfl, ?_, ?_⟩
  · intro hst
    by_cases hk : j.connectorId = c ∧ j.externalId ∈ deletedKeys env c remote db
    · simp [sweptItem, hk] at hst
    · simpa [sweptItem, hk] using hst
  · intro d hd
    obtain ⟨hjd, _, hfree⟩ := (sweptItem_docId _ _ _).mp hd
    refine ⟨hjd, fun doc hdoc hid => (hdocs doc).mpr ⟨hdoc, ?_⟩⟩
    rw [hid]
    exact hfree

theorem deleteDocument_honest {db : Db} (h : HonestItems sha256Hex content db) (d : Uuid) :
    HonestItems sha256Hex content (db.deleteDocument d) := by
  apply h.shrink
  intro i hi
  obtain ⟨j, hj, rfl⟩ := List.mem_map.mp hi
  obtain ⟨hsame, hst⟩ := unlink_same d j
  refine ⟨j, hj, hsame, fun h => hst ▸ h, ?_⟩
  intro e he
  obtain ⟨hje, hne⟩ := (ConnectorItem.unlink_docId d e j).mp he
  refine ⟨hje, fun doc hdoc hid => Db.mem_deleteDocument.mpr ⟨hdoc, ?_⟩⟩
  rw [hid]
  exact hne

theorem HonestItems.congr {db db' : Db} (h : HonestItems sha256Hex content db)
    (hdocs : db'.documents = db.documents) (hitems : db'.connectorItems = db.connectorItems) :
    HonestItems sha256Hex content db' := by
  unfold HonestItems
  rw [hdocs, hitems]
  exact h

theorem ingestBytes_honest {floor : ℚ} {work : IngestWork} {data : Bytes} {filename : String} {db : Db}
    (hok : db.CorpusOk) (h : HonestItems sha256Hex content db) :
    HonestItems sha256Hex content (ingestBytes sha256Hex floor work data filename collection db).2 :=
  h.frame (ingestBytes_frame sha256Hex floor work data filename collection (fun _ => False) hok)
    fun _ _ => False.elim

theorem corpusStep_honest {s s' : Corpus} {op : CorpusOp} (hok : s.db.CorpusOk)
    (h : HonestItems sha256Hex content s.db) (hg : HonestStore content s op)
    (hs : corpusStep sha256Hex s op = some s') : HonestItems sha256Hex content s'.db := by
  cases op with
  | upload settings work filename data collection =>
    have hin : HonestItems sha256Hex content
        (ingest sha256Hex settings work filename data collection s.db).2 := by
      rcases ingest_cases sha256Hex settings work filename data collection s.db with ⟨exc, he⟩ | ⟨name, he⟩
      · rw [he]
        exact h
      · rw [he]
        exact ingestBytes_honest hok h
    obtain ⟨res, db1, he, rfl, _⟩ := corpusStep_upload hs
    rw [he] at hin
    exact hin
  | sync c env bucket =>
    obtain ⟨row, hrow, rfl⟩ := Option.map_eq_some_iff.mp hs
    obtain ⟨_, rfl⟩ := selectOne_mem hrow
    obtain ⟨remote, r, db1, hsub, hp, hdocs, hitems⟩ := syncIncremental_db sha256Hex env row bucket s.db
    exact (processObjects_honest hok h (fun obj hobj => hg obj (hsub.subset hobj)) hp).congr hdocs hitems
  | sweep c env bucket =>
    obtain ⟨row, hrow, rfl⟩ := Option.map_eq_some_iff.mp hs
    obtain ⟨_, rfl⟩ := selectOne_mem hrow
    generalize hp : processObjects sha256Hex env row.id row.collection bucket.objects s.db = r
    obtain ⟨res, db1⟩ := r
    have hok1 := (processObjects_frame hok hp).ok
    have h1 := processObjects_honest hok h hg hp
    cases res with
    | error exc =>
      rw [fullSweep_error hp]
      exact h1
    | ok report =>
      obtain ⟨hdocs, hitems⟩ := fullSweep_ok hp
      exact (sweepDeleted_honest hok1 h1).congr hdocs hitems
  | reingest settings work d data =>
    obtain ⟨doc, _, rfl⟩ := Option.map_eq_some_iff.mp hs
    exact ingestBytes_honest (hok.deleteDocument doc.id) (deleteDocument_honest h doc.id)
  | createConnector c collection =>
    obtain ⟨_, rfl⟩ := corpusStep_create hs
    exact h
  | updateConnector c collection =>
    obtain rfl := Option.some.inj hs
    exact h
  | deleteConnector c =>
    obtain rfl := Option.some.inj hs
    intro i hi
    exact h i (mem_deleteWhere.mp hi).1

theorem CorpusReachable.honest {s : Corpus} (hs : CorpusReachable sha256Hex (HonestStore content) s) :
    s.db.CorpusOk ∧ HonestItems sha256Hex content s.db := by
  refine Reaches.invariant (fun s => s.db.CorpusOk ∧ HonestItems sha256Hex content s.db) ?_ ?_ hs
  · rintro _ rfl
    exact ⟨Db.empty_corpusOk, fun i hi => by cases hi⟩
  · intro s op s' ⟨hok, h⟩ hg hstep
    exact ⟨corpusStep_ok hok hstep, corpusStep_honest hok h hg hstep⟩

theorem ListingSettled.attempted_synced {remote : List RemoteObject} {report : SyncReport} {db db1 : Db}
    (hl : ListingSettled sha256Hex env c remote report db db1) (herr : report.errors = 0)
    {obj : RemoteObject} (hatt : Attempted c db remote obj) (hel : eligible env.settings obj = true)
    (hfetch : ∀ data, env.fetch obj = .ok data → data = content.bytes c obj) :
    ∃ i ∈ db1.connectorItems, i.key = (c, obj.key) ∧ i.status = .synced ∧
      ∃ doc ∈ db1.documents, i.docId = some doc.id ∧ doc.sha256 = sha256Hex (content.bytes c obj) := by
  obtain ⟨o, hset, hpos⟩ := hl.attempted obj hatt
  have hholds := hset.holds
  cases o with
  | skipped why => simp [ObjectOutcome.Holds, hel] at hholds
  | error exc =>
    have := hpos ⟨exc, rfl⟩
    omega
  | synced d =>
    obtain ⟨_, data, hf, doc, hdoc, rfl, hsha⟩ := hholds
    exact ⟨_, hset.item, rfl, rfl, doc, hdoc, rfl, by rw [hsha, hfetch data hf]⟩

/-- A run that returns without errors syncs the whole listing exactly when what it passes over was
synced. -/
theorem processObjects_syncsAll_iff {s : Corpus} (hs : CorpusReachable sha256Hex (HonestStore content) s)
    {bucket : BucketListing} (hfetch : HonestFetch content c env bucket) {report : SyncReport} {db1 : Db}
    (hrun : processObjects sha256Hex env c collection bucket.objects s.db = (.ok report, db1))
    (herr : report.errors = 0) :
    SyncedAll sha256Hex content env.settings c bucket.objects db1 ↔
      PassedOverSynced env.settings c bucket.objects s.db := by
  obtain ⟨hok, hhonest⟩ := hs.honest
  have hl := processObjects_ok hok bucket.distinct hrun
  constructor
  · intro hall obj hp hel
    obtain ⟨i, hi, hik, hst, doc, _, hd, _⟩ := hall obj hp.1 hel
    obtain ⟨j, hj, hjk, _, _, hj1⟩ := hl.passedOver obj hp
    have hij := hl.frame.ok.itemKey.eq_of_key hi hj1 (hik.trans hjk.symm)
    refine ⟨j, hj, hjk, ?_, ?_⟩
    · rw [hij] at hst
      exact hst
    · rw [hij] at hd
      simp only at hd
      simp [hd]
  · intro hpassed obj hobj hel
    by_cases hcls : classify (s.db.knownIdentity c) obj = .unchanged
    · obtain ⟨i, hi, hik, hst, hsome⟩ := hpassed obj ⟨hobj, hcls⟩ hel
      obtain ⟨d, hd⟩ := Option.isSome_iff_exists.mp hsome
      obtain ⟨j, hj, hjk, hetag, hsize, hj1⟩ := hl.passedOver obj ⟨hobj, hcls⟩
      obtain rfl := hok.itemKey.eq_of_key hi hj (hik.trans hjk.symm)
      obtain ⟨doc, hdoc, rfl, etag, size, he, hz, hsha⟩ := hhonest i hi hst d hd
      obtain rfl : obj.etag = etag := Option.some.inj (hetag.symm.trans he)
      obtain rfl : obj.size = size := Option.some.inj (hsize.symm.trans hz)
      obtain ⟨hc, hkey⟩ := Prod.mk.inj hik
      rw [hc, hkey] at hsha
      exact ⟨_, hj1, hik, hst, doc, hl.frame.documents doc hdoc, hd, hsha⟩
    · exact hl.attempted_synced herr ⟨hobj, hcls⟩ hel (hfetch obj hobj)

end

/-- The store of the runs on fixed inputs holds `abc` only. -/
def abcContent : StoreContent := fun _ _ _ _ => [97, 98, 99]

/-- `abcEnv` while the store does not answer. -/
def downEnv : SyncEnv := { abcEnv with fetch := fun _ => .error ⟨"EndpointConnectionError", "timed out"⟩ }

/-- One connector, polled once while the store was down. -/
def failedOnce : Corpus :=
  (runSteps (corpusStep abcDigest) Corpus.empty
    [.createConnector 1 "default", .sync 1 downEnv (abcBucket "a.txt")]).getD Corpus.empty

theorem failedOnce_reachable : CorpusReachable abcDigest (HonestStore abcContent) failedOnce := by
  have hrun : runSteps (corpusStep abcDigest) Corpus.empty
      [.createConnector 1 "default", .sync 1 downEnv (abcBucket "a.txt")] = some failedOnce := rfl
  have hguard : Guarded (corpusStep abcDigest) (HonestStore abcContent) Corpus.empty
      [.createConnector 1 "default", .sync 1 downEnv (abcBucket "a.txt")] := by
    refine ⟨trivial, fun s' _ => ⟨?_, fun s'' _ => trivial⟩⟩
    intro obj _ data hf
    cases hf
  have hstart : CorpusReachable abcDigest (HonestStore abcContent) Corpus.empty := .start rfl
  exact hstart.runSteps hguard hrun

theorem abcEnv_honest (key : String) : HonestFetch abcContent 1 abcEnv (abcBucket key) := by
  intro obj _ data hf
  exact (Except.ok.inj hf).symm

theorem processObjects_syncsAll_iff_failed :
    SyncedAll abcDigest abcContent {} 1 (abcBucket "a.txt").objects
        (processObjects abcDigest abcEnv 1 "default" (abcBucket "a.txt").objects failedOnce.db).2 ↔
      PassedOverSynced {} 1 (abcBucket "a.txt").objects failedOnce.db :=
  processObjects_syncsAll_iff failedOnce_reachable (abcEnv_honest "a.txt")
    (show processObjects abcDigest abcEnv 1 "default" (abcBucket "a.txt").objects failedOnce.db = (.ok {}, _) from rfl)
    rfl

/-- The store answers again and the object is as it was listed; the run passes over it. -/
theorem processObjects_never_retries :
    CorpusReachable abcDigest (HonestStore abcContent) failedOnce ∧
      HonestFetch abcContent 1 abcEnv (abcBucket "a.txt") ∧
      (processObjects abcDigest abcEnv 1 "default" (abcBucket "a.txt").objects failedOnce.db).1 = .ok {} ∧
      ¬ SyncedAll abcDigest abcContent {} 1 (abcBucket "a.txt").objects
        (processObjects abcDigest abcEnv 1 "default" (abcBucket "a.txt").objects failedOnce.db).2 := by
  refine ⟨failedOnce_reachable, abcEnv_honest "a.txt", rfl, ?_⟩
  intro hall
  have hnone : ∀ i ∈ (processObjects abcDigest abcEnv 1 "default" (abcBucket "a.txt").objects
      failedOnce.db).2.connectorItems, i.status ≠ .synced := by decide
  obtain ⟨i, hi, _, hst, _⟩ := hall _ List.mem_cons_self (by decide)
  exact hnone i hi hst

end ProRag
