import ProRag.Connectors.Completeness
import ProRag.Connectors.Sweep

/-!
# What a sweep withdraws

A sweep deletes the documents that are linked by the items of keys that are gone, and nothing else.  An overwrite, a
failure or a skip of an object rewrites the link of its item, and the document behind the old link stays.
-/

namespace ProRag

open Framework

/-- The histories of one bucket: polls and sweeps of the connector `c`, and direct uploads beside them.  The documents
that no upload has returned came through the connector alone. -/
def OneBucket (c : Uuid) : Corpus → CorpusOp → Prop
  | _, .sync c' _ _ => c' = c
  | _, .sweep c' _ _ => c' = c
  | _, .createConnector c' _ => c' = c
  | _, .updateConnector c' _ => c' = c
  | _, .upload .. => True
  | _, .reingest .. => False
  | _, .deleteConnector _ => False

section

variable (sha256Hex : Bytes → String) (content : StoreContent) (c : Uuid) (remote : List RemoteObject)

/-- The document holds the bytes of a listed object. -/
def HoldsListed (doc : Document) : Prop :=
  ∃ obj ∈ remote, doc.sha256 = sha256Hex (content.bytes c obj)

/-- Every ready document of the connector holds the bytes of a listed object. -/
def StaleWithdrawn (uploads : List Uuid) (db : Db) : Prop :=
  ∀ doc ∈ db.documents, doc.status = .ready → doc.id ∉ uploads → HoldsListed sha256Hex content c remote doc

/-- Every ready document of the connector that holds other bytes is linked by the item of a key that is gone. -/
def StaleLinked (uploads : List Uuid) (db : Db) : Prop :=
  ∀ doc ∈ db.documents, doc.status = .ready → doc.id ∉ uploads → HoldsListed sha256Hex content c remote doc ∨
    ∃ i ∈ db.connectorItems, i.connectorId = c ∧ i.externalId ∉ remote.map RemoteObject.key ∧ i.status ≠ .deleted ∧
      i.docId = some doc.id

end

/-- A synced item of the connector links the document. -/
def LinkedBy (c : Uuid) (db : Db) (d : Uuid) : Prop :=
  ∃ i ∈ db.connectorItems, i.connectorId = c ∧ i.status = .synced ∧ i.docId = some d

section

variable {sha256Hex : Bytes → String} {content : StoreContent} {env : SyncEnv} {c : Uuid} {collection : String}
  {remote : List RemoteObject} {db db' : Db}

theorem attemptObject_newDocument {obj : RemoteObject} {doc : Document}
    (hdoc : doc ∈ (attemptObject sha256Hex env collection obj db).2.documents) :
    doc ∈ db.documents ∨ ((attemptObject sha256Hex env collection obj db).1 = .synced doc.id ∧
      ∃ data, env.fetch obj = .ok data ∧ doc.sha256 = sha256Hex data) := by
  unfold attemptObject at hdoc ⊢
  split
  · rename_i hsuffix
    rw [if_pos hsuffix] at hdoc
    exact Or.inl hdoc
  · rename_i hsuffix
    rw [if_neg hsuffix] at hdoc
    split
    · rename_i hsize
      rw [if_pos hsize] at hdoc
      exact Or.inl hdoc
    · rename_i hsize
      rw [if_neg hsize] at hdoc
      cases hfetch : env.fetch obj with
      | error exc =>
        rw [hfetch] at hdoc
        exact Or.inl hdoc
      | ok data =>
        simp only [hfetch] at hdoc ⊢
        rcases ingestObject_cases sha256Hex env collection obj data db with hrun | ⟨hdb, _, _, rows, _, _, hresp⟩
        · rw [hrun] at hdoc ⊢
          rcases ingestBytes_cases sha256Hex env.settings.ruleSimilarityFloor (env.work obj) data (keyFilename obj.key)
            collection db with ⟨e, _, he⟩ | ⟨_, exc, he⟩ | ⟨_, rows, _, _, db1, he, hdocs, _⟩
          · rw [he] at hdoc
            exact Or.inl hdoc
          · rw [he] at hdoc
            exact Or.inl hdoc
          · simp only [he] at hdoc ⊢
            rw [hdocs] at hdoc
            rcases List.mem_append.mp hdoc with hold | hnew
            · exact Or.inl hold
            · obtain rfl := List.mem_singleton.mp hnew
              exact Or.inr ⟨rfl, data, rfl, rfl⟩
        · have hrun : ingestObject sha256Hex env collection obj data db = (.ok ⟨rows.id, .ready, none⟩, db) :=
            Prod.ext hresp hdb
          rw [hrun] at hdoc
          exact Or.inl hdoc

theorem processLoop_newDocument {as : List (RemoteObject × Bool)} {report report' : SyncReport} (h : db.CorpusOk)
    (hkeys : (as.map fun a => a.1.key).Nodup)
    (he : processLoop sha256Hex env c collection as report db = (.ok report', db')) {doc : Document}
    (hdoc : doc ∈ db'.documents) :
    doc ∈ db.documents ∨ ∃ a ∈ as, settledItem c a.1 (env.seenAt a.1.key) (.synced doc.id) ∈ db'.connectorItems ∧
      ∃ data, env.fetch a.1 = .ok data ∧ doc.sha256 = sha256Hex data := by
  induction as generalizing report db with
  | nil =>
    obtain ⟨_, rfl⟩ := Prod.mk.inj he
    exact Or.inl hdoc
  | cons a rest ih =>
    obtain ⟨obj, isNew⟩ := a
    obtain ⟨o, db1, hobj, hframe, hset, hnodup, hrest⟩ := processLoop_head h hkeys he
    rcases ih hframe.ok hnodup hrest with hold | ⟨a, ha, hadded⟩
    · have hitem := hset.item
      obtain ⟨_, rfl, hup⟩ := processObject_eq_ok.mp hobj
      have hdocs : db1.documents = (attemptObject sha256Hex env collection obj db).2.documents := by
        obtain ⟨_, rfl⟩ := upsertItem_eq_ok.mp hup
        rfl
      rw [hdocs] at hold
      rcases attemptObject_newDocument hold with hold | ⟨houtcome, hbytes⟩
      · exact Or.inl hold
      · rw [houtcome] at hitem
        exact Or.inr ⟨(obj, isNew), List.mem_cons_self, hitem, hbytes⟩
    · exact Or.inr ⟨a, List.mem_cons_of_mem _ ha, hadded⟩

theorem processObjects_newDocument {report : SyncReport} (h : db.CorpusOk) (hkeys : (remote.map RemoteObject.key).Nodup)
    (he : processObjects sha256Hex env c collection remote db = (.ok report, db')) {doc : Document}
    (hdoc : doc ∈ db'.documents) :
    doc ∈ db.documents ∨ (LinkedBy c db' doc.id ∧
      ∃ obj ∈ remote, ∃ data, env.fetch obj = .ok data ∧ doc.sha256 = sha256Hex data) := by
  obtain ⟨db1, hloop, rfl⟩ := processObjects_eq_ok.mp he
  rcases processLoop_newDocument h (nodup_attempts hkeys) hloop hdoc with hold | ⟨a, ha, hitem, hbytes⟩
  · exact Or.inl hold
  · refine Or.inr ⟨⟨_, mem_updateWhere.mpr ⟨_, hitem, rfl⟩, ?_⟩, a.1, (mem_attempts.mp ⟨a, ha, rfl⟩).1, hbytes⟩
    split
    · exact ⟨rfl, rfl, rfl⟩
    · exact ⟨rfl, rfl, rfl⟩

theorem fullSweep_documents {row : Connector} {bucket : BucketListing} {report : SyncReport} (h : db.CorpusOk)
    (hrun : fullSweep sha256Hex env row bucket db = (.ok report, db')) :
    ∃ report1 db1, processObjects sha256Hex env row.id row.collection bucket.objects db = (.ok report1, db1) ∧
      db'.connectorItems = (sweepDeleted env row.id bucket.objects db1).connectorItems ∧
      ∀ doc, doc ∈ db'.documents ↔ doc ∈ db1.documents ∧
        ¬ ∃ i ∈ db.connectorItems, i.connectorId = row.id ∧ i.externalId ∉ bucket.objects.map RemoteObject.key ∧
          i.status ≠ .deleted ∧ i.docId = some doc.id := by
  generalize hp : processObjects sha256Hex env row.id row.collection bucket.objects db = r
  obtain ⟨res, db1⟩ := r
  cases res with
  | error exc => simp [fullSweep, listChanged, hp] at hrun
  | ok report1 =>
    have hl := processObjects_ok h bucket.distinct hp
    obtain ⟨hdocs, hitems⟩ := fullSweep_ok hp
    rw [hrun] at hdocs hitems
    obtain ⟨_, _, hswept⟩ := sweepKeys_spec row.id (db1.docIdByKey row.id) hl.frame.ok
      (deletedKeys env row.id bucket.objects db1)
    refine ⟨report1, db1, rfl, hitems, fun doc => ?_⟩
    rw [hdocs, sweepDeleted, hswept, ← hl.doomed_iff]
    push Not
    rfl

/-- A completed sweep withdraws what is stale exactly when every stale document is linked by a missing key. -/
theorem fullSweep_stale_iff {row : Connector} {bucket : BucketListing} {uploads : List Uuid} {report : SyncReport}
    (h : db.CorpusOk) (hfetch : HonestFetch content row.id env bucket)
    (hrun : fullSweep sha256Hex env row bucket db = (.ok report, db')) :
    StaleWithdrawn sha256Hex content row.id bucket.objects uploads db' ↔
      StaleLinked sha256Hex content row.id bucket.objects uploads db := by
  obtain ⟨report1, db1, hp, _, hdocs⟩ := fullSweep_documents h hrun
  have hl := processObjects_ok h bucket.distinct hp
  constructor
  · intro hwithdrawn doc hdoc hready hown
    by_cases hmissing : ∃ i ∈ db.connectorItems, i.connectorId = row.id ∧
        i.externalId ∉ bucket.objects.map RemoteObject.key ∧ i.status ≠ .deleted ∧ i.docId = some doc.id
    · exact Or.inr hmissing
    · have hkept := (hdocs doc).mpr ⟨hl.frame.documents doc hdoc, hmissing⟩
      exact Or.inl (hwithdrawn doc hkept hready hown)
  · intro hlinked doc hdoc hready hown
    obtain ⟨hdoc1, hnotMissing⟩ := (hdocs doc).mp hdoc
    rcases processObjects_newDocument h bucket.distinct hp hdoc1 with hold | ⟨_, obj, hobj, data, hdata, hsha⟩
    · rcases hlinked doc hold hready hown with hlisted | hmissing
      · exact hlisted
      · exact absurd hmissing hnotMissing
    · exact ⟨obj, hobj, hfetch obj hobj data hdata ▸ hsha⟩

end

/-- A run that records every attempted object and, where its item links a document, fetches the bytes of that document
again. -/
def KeepsLinks (sha256Hex : Bytes → String) (env : SyncEnv) (c : Uuid) (remote : List RemoteObject) (db : Db) : Prop :=
  ItemWritesSucceed sha256Hex env c remote db ∧ ∀ obj, Attempted c db remote obj →
    ∀ i ∈ db.connectorItems, i.key = (c, obj.key) → ∀ doc ∈ db.documents, i.docId = some doc.id →
      eligible env.settings obj = true ∧ ∃ data, env.fetch obj = .ok data ∧ doc.sha256 = sha256Hex data

/-- No run of the connector rewrites a link. -/
def LinksKept (sha256Hex : Bytes → String) (c : Uuid) : Corpus → CorpusOp → Prop
  | s, .sync _ env bucket => ∀ row, selectOne Connector.id c s.db.connectors = some row →
      KeepsLinks sha256Hex env c (listChanged bucket (row.lastSyncAt.map fun t => t - sinceSafetyBuffer)) s.db
  | s, .sweep _ env bucket => KeepsLinks sha256Hex env c bucket.objects s.db
  | _, _ => True

/-- The histories of one bucket over an honest store in which no link is rewritten. -/
def KeptHistory (sha256Hex : Bytes → String) (content : StoreContent) (c : Uuid) (s : Corpus) (op : CorpusOp) : Prop :=
  OneBucket c s op ∧ HonestStore content s op ∧ LinksKept sha256Hex c s op

/-- Every document that no upload has returned is linked. -/
def AllLinked (c : Uuid) (uploads : List Uuid) (db : Db) : Prop :=
  ∀ doc ∈ db.documents, doc.id ∉ uploads → LinkedBy c db doc.id

section

variable {sha256Hex : Bytes → String} {content : StoreContent} {env : SyncEnv} {c : Uuid} {collection : String}
  {remote : List RemoteObject} {uploads : List Uuid} {db db' : Db}

theorem processObjects_linked {report : SyncReport} (h : db.CorpusOk) (hkeys : (remote.map RemoteObject.key).Nodup)
    (hkeeps : KeepsLinks sha256Hex env c remote db)
    (hp : processObjects sha256Hex env c collection remote db = (.ok report, db')) (hall : AllLinked c uploads db) :
    AllLinked c uploads db' := by
  have hl := processObjects_ok h hkeys hp
  intro doc hdoc hown
  rcases processObjects_newDocument h hkeys hp hdoc with hold | ⟨hlinked, _⟩
  · obtain ⟨i, hi, hc, hstatus, hlink⟩ := hall doc hold hown
    by_cases hlisted : i.externalId ∈ remote.map RemoteObject.key
    · obtain ⟨obj, hobj, hkey⟩ := List.mem_map.mp hlisted
      have hik : i.key = (c, obj.key) := Prod.ext hc hkey.symm
      by_cases hcls : classify (db.knownIdentity c) obj = .unchanged
      · obtain ⟨j, hj, hjk, _, _, hj1⟩ := hl.passedOver obj ⟨hobj, hcls⟩
        obtain rfl := h.itemKey.eq_of_key hi hj (hik.trans hjk.symm)
        exact ⟨_, hj1, hc, hstatus, hlink⟩
      · obtain ⟨hel, data, hdata, hsha⟩ := hkeeps.2 obj ⟨hobj, hcls⟩ i hi hik doc hold hlink
        obtain ⟨o, hset, _⟩ := hl.attempted obj ⟨hobj, hcls⟩
        have hholds := hset.holds
        cases o with
        | skipped why => simp [ObjectOutcome.Holds, hel] at hholds
        | error exc => exact absurd hsha (hholds.2 data hdata doc hold)
        | synced d =>
          obtain ⟨_, data', hdata', doc', hdoc', hid, hsha'⟩ := hholds
          obtain rfl : data = data' := Except.ok.inj (hdata.symm.trans hdata')
          obtain rfl := hl.frame.ok.docSha.eq_of_key hdoc' hdoc (hsha'.trans hsha.symm)
          exact ⟨_, hset.item, rfl, rfl, congrArg some hid.symm⟩
    · exact ⟨i, (hl.other_items fun hat => hlisted hat.2).mpr hi, hc, hstatus, hlink⟩
  · exact hlinked

theorem sweepDeleted_linked (h : db.CorpusOk) (hall : AllLinked c uploads db) :
    AllLinked c uploads (sweepDeleted env c remote db) := by
  obtain ⟨_, hitems, hdocs⟩ := sweepKeys_spec c (db.docIdByKey c) h (deletedKeys env c remote db)
  intro doc hdoc hown
  obtain ⟨hdoc, hfree⟩ := (hdocs doc).mp hdoc
  obtain ⟨i, hi, hc, hstatus, hlink⟩ := hall doc hdoc hown
  have hkept : ¬ (i.connectorId = c ∧ i.externalId ∈ deletedKeys env c remote db) := by
    rintro ⟨hconnector, hk⟩
    have hik : i.key = (c, i.externalId) := Prod.ext hconnector rfl
    apply hfree i.externalId hk
    rw [docIdByKey_eq h hi hik, hlink]
  refine ⟨sweptItem c (db.docIdByKey c) (deletedKeys env c remote db) i, ?_, hc, ?_, ?_⟩
  · unfold sweepDeleted
    rw [hitems]
    exact List.mem_map_of_mem hi
  · simp [sweptItem, hkept, hstatus]
  · exact (sweptItem_docId _ _ _).mpr ⟨hlink, hkept, hfree⟩

theorem AllLinked.congr (hall : AllLinked c uploads db) (hdocs : db'.documents = db.documents)
    (hitems : db'.connectorItems = db.connectorItems) : AllLinked c uploads db' := by
  unfold AllLinked LinkedBy
  rw [hdocs, hitems]
  exact hall

theorem ingest_linked {settings : Settings} {work : IngestWork} {filename : Option String} {data : Bytes}
    {result : Except PyError IngestResponse} (hall : AllLinked c uploads db)
    (he : ingest sha256Hex settings work filename data collection db = (result, db')) :
    ∀ doc ∈ db'.documents, doc.id ∉ uploads → (∀ resp, result = .ok resp → doc.id ≠ resp.docId) → LinkedBy c db' doc.id := by
  intro doc hdoc hown hother
  rcases ingest_cases sha256Hex settings work filename data collection db with ⟨exc, hingest⟩ | ⟨name, hingest⟩
  · rw [hingest] at he
    obtain ⟨_, rfl⟩ := Prod.mk.inj he
    exact hall doc hdoc hown
  · rw [hingest] at he
    rcases ingestBytes_cases sha256Hex settings.ruleSimilarityFloor work data name collection db with
      ⟨e, _, hcase⟩ | ⟨_, exc, hcase⟩ | ⟨_, rows, _, _, db1, hcase, hdocs, hitems, _⟩
    · obtain ⟨_, rfl⟩ := Prod.mk.inj (hcase.symm.trans he)
      exact hall doc hdoc hown
    · obtain ⟨_, rfl⟩ := Prod.mk.inj (hcase.symm.trans he)
      exact hall doc hdoc hown
    · obtain ⟨rfl, rfl⟩ := Prod.mk.inj (hcase.symm.trans he)
      rw [hdocs] at hdoc
      rcases List.mem_append.mp hdoc with hold | hnew
      · obtain ⟨i, hi, hlink⟩ := hall doc hold hown
        exact ⟨i, hitems ▸ hi, hlink⟩
      · obtain rfl := List.mem_singleton.mp hnew
        exact absurd rfl (hother _ rfl)

theorem corpusStep_linked {s s' : Corpus} {op : CorpusOp} (hok : s.db.CorpusOk)
    (hguard : KeptHistory sha256Hex content c s op) (hs : corpusStep sha256Hex s op = some s')
    (hall : AllLinked c s.uploads s.db) : AllLinked c s'.uploads s'.db := by
  obtain ⟨hbucket, _, hkept⟩ := hguard
  cases op with
  | upload settings work filename data collection =>
    obtain ⟨res, db1, he, rfl, huploads⟩ := corpusStep_upload hs
    intro doc hdoc hown
    obtain ⟨hne, hown⟩ := not_or.mp (mt (huploads doc.id).mpr hown)
    apply ingest_linked hall he doc hdoc hown
    intro resp hresp hid
    exact hne ⟨resp, hresp, hid⟩
  | sync c' env bucket =>
    obtain rfl : c' = c := hbucket
    obtain ⟨row, hrow, rfl⟩ := Option.map_eq_some_iff.mp hs
    obtain ⟨_, rfl⟩ := selectOne_mem hrow
    have hkeeps := hkept row hrow
    have hdistinct := bucket.distinct.sublist
      ((listChanged_sublist bucket (row.lastSyncAt.map fun t => t - sinceSafetyBuffer)).map RemoteObject.key)
    obtain ⟨report, db1, hp⟩ := (processObjects_returns_iff sha256Hex env row.id row.collection _ s.db).mpr hkeeps.1
    obtain ⟨hdocs, hitems⟩ := syncIncremental_ok hp
    exact (processObjects_linked hok hdistinct hkeeps hp hall).congr hdocs hitems
  | sweep c' env bucket =>
    obtain rfl : c' = c := hbucket
    obtain ⟨row, hrow, rfl⟩ := Option.map_eq_some_iff.mp hs
    obtain ⟨_, rfl⟩ := selectOne_mem hrow
    obtain ⟨report, db1, hp⟩ := (processObjects_returns_iff sha256Hex env row.id row.collection _ s.db).mpr hkept.1
    have hlisted := processObjects_linked hok bucket.distinct hkept hp hall
    obtain ⟨hdocs, hitems⟩ := fullSweep_ok hp
    exact (sweepDeleted_linked (processObjects_frame hok hp).ok hlisted).congr hdocs hitems
  | reingest settings work d data => exact hbucket.elim
  | createConnector c' collection =>
    obtain ⟨_, rfl⟩ := corpusStep_create hs
    exact hall
  | updateConnector c' collection =>
    obtain rfl := Option.some.inj hs
    exact hall
  | deleteConnector c' => exact hbucket.elim

theorem AllLinked.staleLinked (hall : AllLinked c uploads db) (h : db.CorpusOk) (hhonest : HonestItems sha256Hex content db)
    {bucket : BucketListing} (hfetch : HonestFetch content c env bucket)
    (hkeeps : KeepsLinks sha256Hex env c bucket.objects db) :
    StaleLinked sha256Hex content c bucket.objects uploads db := by
  intro doc hdoc _ hown
  obtain ⟨i, hi, hc, hstatus, hlink⟩ := hall doc hdoc hown
  by_cases hlisted : i.externalId ∈ bucket.objects.map RemoteObject.key
  · obtain ⟨obj, hobj, hkey⟩ := List.mem_map.mp hlisted
    have hik : i.key = (c, obj.key) := Prod.ext hc hkey.symm
    refine Or.inl ⟨obj, hobj, ?_⟩
    by_cases hcls : classify (db.knownIdentity c) obj = .unchanged
    · obtain ⟨j, hj, hjk, hetag, hsize⟩ := passedOver_item ⟨hobj, hcls⟩
      obtain rfl := h.itemKey.eq_of_key hi hj (hik.trans hjk.symm)
      obtain ⟨doc', hdoc', hid, etag, size, he, hz, hsha⟩ := hhonest i hi hstatus doc.id hlink
      obtain rfl := h.docId.eq_of_key hdoc' hdoc hid
      obtain rfl : obj.etag = etag := Option.some.inj (hetag.symm.trans he)
      obtain rfl : obj.size = size := Option.some.inj (hsize.symm.trans hz)
      rw [hsha, hc, ← hkey]
      rfl
    · obtain ⟨_, data, hdata, hsha⟩ := hkeeps.2 obj ⟨hobj, hcls⟩ i hi hik doc hdoc hlink
      rw [hsha, hfetch obj hobj data hdata]
  · refine Or.inr ⟨i, hi, hc, hlisted, ?_, hlink⟩
    rw [hstatus]
    decide

theorem keptHistory_reached {s : Corpus} (hs : CorpusReachable sha256Hex (KeptHistory sha256Hex content c) s) :
    s.db.CorpusOk ∧ HonestItems sha256Hex content s.db ∧ AllLinked c s.uploads s.db := by
  have hhonest : CorpusReachable sha256Hex (HonestStore content) s := hs.mono (fun _ h => h) fun _ _ hguard => hguard.2.1
  obtain ⟨hok, hitems⟩ := hhonest.honest
  refine ⟨hok, hitems, ?_⟩
  have hinv : s.db.CorpusOk ∧ AllLinked c s.uploads s.db := by
    apply hs.invariant (fun s => s.db.CorpusOk ∧ AllLinked c s.uploads s.db)
    · rintro _ rfl
      exact ⟨Db.empty_corpusOk, fun doc hdoc => by cases hdoc⟩
    · intro s op s' hinv hguard hstep
      exact ⟨corpusStep_ok hinv.1 hstep, corpusStep_linked hinv.1 hguard hstep hinv.2⟩
  exact hinv.2

/-- A completed sweep withdraws what is stale exactly when a missing key links each stale document; in a history that
rewrites no link it always does. -/
theorem sweep_withdraws_stale {s : Corpus} (hs : CorpusReachable sha256Hex (OneBucket c) s) {row : Connector}
    (hrow : selectOne Connector.id c s.db.connectors = some row) {bucket : BucketListing}
    (hfetch : HonestFetch content c env bucket) {report : SyncReport}
    (hrun : fullSweep sha256Hex env row bucket s.db = (.ok report, db')) :
    (StaleWithdrawn sha256Hex content c bucket.objects s.uploads db' ↔
      StaleLinked sha256Hex content c bucket.objects s.uploads s.db) ∧
    (CorpusReachable sha256Hex (KeptHistory sha256Hex content c) s → KeepsLinks sha256Hex env c bucket.objects s.db →
      StaleWithdrawn sha256Hex content c bucket.objects s.uploads db') := by
  obtain ⟨_, rfl⟩ := selectOne_mem hrow
  have hiff := @fullSweep_stale_iff sha256Hex content env s.db db' row bucket s.uploads report hs.ok hfetch hrun
  refine ⟨hiff, fun hkept hkeeps => ?_⟩
  obtain ⟨hok, hhonest, hall⟩ := keptHistory_reached hkept
  exact hiff.mpr (hall.staleLinked hok hhonest hfetch hkeeps)

end

/-! An object of the bytes `abc` that is overwritten with `d`. -/

def versionDigest (data : Bytes) : String :=
  if data = [97, 98, 99] then "ba7816bf8f01cfea414140de5dae2223b00361a396177a9cb410ff61f20015ad"
  else "18ac3e7343f016890c510e93f935261169d9e3f565436429830faf0934f4f8e4"

def versionContent : StoreContent := fun _ _ etag _ =>
  if etag = "900150983cd24fb0d6963f7d28e17f72" then [97, 98, 99] else [100]

def versionEnv : SyncEnv :=
  { abcEnv with
    fetch := fun obj => .ok (versionContent 1 obj.key obj.etag obj.size)
    work := fun obj => .ok ⟨if obj.size = 3 then 7 else 8, "text/plain", [], [], []⟩ }

def overwrittenBucket : BucketListing where
  objects := [⟨"a.txt", "8277e0910d750195b448797616e091ad", 1, 60000000⟩]
  distinct := List.nodup_singleton "a.txt"

/-- The first version, swept once. -/
def firstVersion : Corpus :=
  (runSteps (corpusStep versionDigest) Corpus.empty
    [.createConnector 1 "default", .sweep 1 versionEnv (abcBucket "a.txt")]).getD Corpus.empty

theorem versionEnv_honest (bucket : BucketListing) : HonestFetch versionContent 1 versionEnv bucket := by
  intro obj _ data hdata
  exact (Except.ok.inj hdata).symm

theorem firstVersion_reached : CorpusReachable versionDigest (OneBucket 1) firstVersion ∧
    CorpusReachable versionDigest (KeptHistory versionDigest versionContent 1) firstVersion := by
  have hrun : runSteps (corpusStep versionDigest) Corpus.empty
      [.createConnector 1 "default", .sweep 1 versionEnv (abcBucket "a.txt")] = some firstVersion := rfl
  have hkept : CorpusReachable versionDigest (KeptHistory versionDigest versionContent 1) firstVersion := by
    have hstart : CorpusReachable versionDigest (KeptHistory versionDigest versionContent 1) Corpus.empty := .start rfl
    apply hstart.runSteps ?_ hrun
    refine Guarded.cons ⟨rfl, trivial, trivial⟩ rfl (Guarded.cons ⟨rfl, versionEnv_honest _, ?_⟩ rfl trivial)
    refine ⟨by decide, fun obj _ i hi => ?_⟩
    cases hi
  exact ⟨hkept.mono (fun _ h => h) fun _ _ hguard => hguard.1, hkept⟩

theorem sweep_withdraws_stale_unchanged : ∃ report db',
    fullSweep versionDigest versionEnv ⟨1, "default", some 0, some 0⟩ (abcBucket "a.txt") firstVersion.db = (.ok report, db') ∧
      report.errors = 0 ∧ db'.documents ≠ [] ∧
      StaleWithdrawn versionDigest versionContent 1 (abcBucket "a.txt").objects firstVersion.uploads db' := by
  obtain ⟨report, db', hrun, hfacts⟩ : ∃ report db', fullSweep versionDigest versionEnv ⟨1, "default", some 0, some 0⟩
      (abcBucket "a.txt") firstVersion.db = (.ok report, db') ∧ report.errors = 0 ∧ db'.documents ≠ [] :=
    ⟨_, _, rfl, rfl, by decide⟩
  have hkeeps : KeepsLinks versionDigest versionEnv 1 (abcBucket "a.txt").objects firstVersion.db := by
    refine ⟨by decide, ?_⟩
    rintro obj ⟨hobj, hcls⟩
    obtain rfl := List.mem_singleton.mp hobj
    exact absurd (by decide) hcls
  have hwithdrawn := (sweep_withdraws_stale firstVersion_reached.1 rfl (versionEnv_honest _) hrun).2
    firstVersion_reached.2 hkeeps
  exact ⟨report, db', hrun, hfacts.1, hfacts.2, hwithdrawn⟩

/-- The object is overwritten; the next sweep reports no error and leaves the first version ready. -/
theorem overwritten_stays_ready : CorpusReachable versionDigest (OneBucket 1) firstVersion ∧
    HonestFetch versionContent 1 versionEnv overwrittenBucket ∧
    ∃ report db', fullSweep versionDigest versionEnv ⟨1, "default", some 0, some 0⟩ overwrittenBucket firstVersion.db =
        (.ok report, db') ∧ report.errors = 0 ∧
      ¬ StaleWithdrawn versionDigest versionContent 1 overwrittenBucket.objects firstVersion.uploads db' := by
  obtain ⟨report, db', hrun, herrors, hstale⟩ : ∃ report db', fullSweep versionDigest versionEnv
      ⟨1, "default", some 0, some 0⟩ overwrittenBucket firstVersion.db = (.ok report, db') ∧ report.errors = 0 ∧
      ∃ doc ∈ db'.documents, doc.status = .ready ∧ doc.id ∉ firstVersion.uploads ∧
        ∀ obj ∈ overwrittenBucket.objects, doc.sha256 ≠ versionDigest (versionContent.bytes 1 obj) :=
    ⟨_, _, rfl, rfl, by decide⟩
  refine ⟨firstVersion_reached.1, versionEnv_honest _, report, db', hrun, herrors, fun hwithdrawn => ?_⟩
  obtain ⟨doc, hdoc, hready, hown, hother⟩ := hstale
  obtain ⟨obj, hobj, hsha⟩ := hwithdrawn doc hdoc hready hown
  exact hother obj hobj hsha

end ProRag
