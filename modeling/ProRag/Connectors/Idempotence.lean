import ProRag.Connectors.Corpus

/-!
# Sync accounting and idempotence

The report of a run accounts for every listed object.  A sweep leaves every listed object known under its current
identity and every missing one deleted, so a second sweep of the same listing has nothing to do.
-/

namespace ProRag

open Framework

def SyncReport.settled (report : SyncReport) : Nat :=
  report.new + report.changed + report.skipped + report.errors

/-- Every listed object is known under its current identity. -/
def ListingKnown (c : Uuid) (remote : List RemoteObject) (db : Db) : Prop :=
  ∀ obj ∈ remote, classify (db.knownIdentity c) obj = .unchanged

theorem settled_count (report : SyncReport) (isNew : Bool) (o : ObjectOutcome) :
    (report.count isNew o).settled = report.settled + 1 := by
  cases o with
  | skipped why =>
    simp only [SyncReport.count, SyncReport.settled]
    omega
  | error exc =>
    simp only [SyncReport.count, SyncReport.settled]
    omega
  | synced d =>
    cases isNew with
    | true =>
      simp only [SyncReport.count, SyncReport.settled, if_true]
      omega
    | false =>
      simp only [SyncReport.count, SyncReport.settled, Bool.false_eq_true, if_false]
      omega

theorem attempts_length (c : Uuid) (remote : List RemoteObject) (db : Db) :
    (attempts c remote db).length + (diffObjects remote (db.knownIdentity c)).unchanged.length = remote.length := by
  simp only [attempts, diffObjects, List.length_append, List.length_map]
  induction remote with
  | nil => rfl
  | cons obj remote ih =>
    cases hcls : classify (db.knownIdentity c) obj with
    | new =>
      simp only [List.filter_cons, hcls, reduceCtorEq, decide_true, decide_false, if_true, Bool.false_eq_true, if_false,
        List.length_cons]
      omega
    | changed =>
      simp only [List.filter_cons, hcls, reduceCtorEq, decide_true, decide_false, if_true, Bool.false_eq_true, if_false,
        List.length_cons]
      omega
    | unchanged =>
      simp only [List.filter_cons, hcls, reduceCtorEq, decide_true, decide_false, if_true, Bool.false_eq_true, if_false,
        List.length_cons]
      omega

section

variable {sha256Hex : Bytes → String} {env : SyncEnv} {c : Uuid} {collection : String}

theorem processLoop_settled {as : List (RemoteObject × Bool)} {report report' : SyncReport} {db db' : Db}
    (he : processLoop sha256Hex env c collection as report db = (.ok report', db')) :
    report'.settled = report.settled + as.length := by
  induction as generalizing report db with
  | nil =>
    obtain ⟨hr, -⟩ := Prod.mk.inj he
    simp [Except.ok.inj hr]
  | cons a as ih =>
    simp only [processLoop] at he
    split at he
    · cases (Prod.mk.inj he).1
    · rename_i o db1 _
      have hrest := ih he
      rw [settled_count] at hrest
      simp only [List.length_cons]
      omega

theorem processObjects_accounts {remote : List RemoteObject} {report : SyncReport} {db db' : Db}
    (he : processObjects sha256Hex env c collection remote db = (.ok report, db')) :
    report.settled + (diffObjects remote (db.knownIdentity c)).unchanged.length = remote.length := by
  obtain ⟨db1, hloop, -⟩ := processObjects_eq_ok.mp he
  have hcount := processLoop_settled hloop
  have hlength := attempts_length c remote db
  simp only [SyncReport.settled, Nat.add_zero, Nat.zero_add] at hcount ⊢
  omega

end

theorem classify_unchanged {c : Uuid} {db : Db} {obj : RemoteObject} {i : ConnectorItem} (h : db.CorpusOk)
    (hi : i ∈ db.connectorItems) (hkey : i.key = (c, obj.key)) (hetag : i.etag = some obj.etag)
    (hsize : i.size = some obj.size) : classify (db.knownIdentity c) obj = .unchanged := by
  have hsel : selectOne ConnectorItem.key (c, obj.key) db.connectorItems = some i :=
    (selectOne_eq_some h.itemKey).mpr ⟨hi, hkey⟩
  simp [classify, Db.knownIdentity, hsel, hetag, hsize]

section Known

variable (sha256Hex : Bytes → String) {env : SyncEnv} {c : Uuid} {remote : List RemoteObject} {db : Db}

theorem diffObjects_known (h : ListingKnown c remote db) :
    (diffObjects remote (db.knownIdentity c)).unchanged = remote.map RemoteObject.key ∧
      attempts c remote db = [] := by
  have hfilter : ∀ cls, (remote.filter fun o => classify (db.knownIdentity c) o = cls) =
      if cls = .unchanged then remote else [] := by
    intro cls
    by_cases hcls : cls = .unchanged
    · rw [if_pos hcls, List.filter_eq_self]
      intro o ho
      simpa [hcls] using h o ho
    · rw [if_neg hcls, List.filter_eq_nil_iff]
      intro o ho
      simpa [h o ho] using Ne.symm hcls
  simp [attempts, diffObjects, hfilter]

theorem processObjects_known (collection : String) (h : ListingKnown c remote db) :
    processObjects sha256Hex env c collection remote db =
      (.ok {}, touchUnchanged env c (remote.map RemoteObject.key) db) := by
  obtain ⟨hunchanged, hattempts⟩ := diffObjects_known h
  simp [processObjects, hattempts, processLoop, hunchanged]

/-- The whole effect of a sweep that has nothing to do. -/
def reseen (env : SyncEnv) (c : Uuid) (remote : List RemoteObject) (db : Db) : Db :=
  { db with
    connectorItems := updateWhere (fun i => i.connectorId = c ∧ i.externalId ∈ remote.map RemoteObject.key)
      (fun i => { i with lastSeenAt := some env.touchedAt }) db.connectorItems
    connectors := updateWhere (fun r => r.id = c)
      (fun r => { r with lastSyncAt := some env.finishedAt, lastFullSweepAt := some env.sweptAt }) db.connectors }

/-- No item of a missing key is left undeleted. -/
def MissingDeleted (c : Uuid) (remote : List RemoteObject) (db : Db) : Prop :=
  ∀ i ∈ db.connectorItems, i.connectorId = c → i.externalId ∉ remote.map RemoteObject.key → i.status = .deleted

theorem deletedKeys_missingDeleted (h : MissingDeleted c remote db) : deletedKeys env c remote db = [] := by
  apply List.eq_nil_iff_forall_not_mem.mpr
  intro k hk
  obtain ⟨i, hi, hkey, hnot, hstatus⟩ := mem_deletedKeys.mp hk
  obtain ⟨hc, rfl⟩ := Prod.mk.inj hkey
  exact hstatus (h i hi hc hnot)

theorem MissingDeleted.touch (h : MissingDeleted c remote db) (keys : List String) :
    MissingDeleted c remote (touchUnchanged env c keys db) := by
  intro i hi hc hnot
  obtain ⟨j, hj, rfl⟩ := mem_updateWhere.mp hi
  split at hc <;> split at hnot <;> split <;> exact h j hj hc hnot

theorem fullSweep_known {row : Connector} {bucket : BucketListing} (hknown : ListingKnown row.id bucket.objects db)
    (hmissing : MissingDeleted row.id bucket.objects db) :
    fullSweep sha256Hex env row bucket db = (.ok {}, reseen env row.id bucket.objects db) := by
  have hprocess : processObjects sha256Hex env row.id row.collection bucket.objects db =
      (.ok {}, touchUnchanged env row.id (bucket.objects.map RemoteObject.key) db) :=
    processObjects_known sha256Hex row.collection hknown
  have hdeleted : deletedKeys env row.id bucket.objects
      (touchUnchanged env row.id (bucket.objects.map RemoteObject.key) db) = [] :=
    deletedKeys_missingDeleted (hmissing.touch _)
  simp only [fullSweep, listChanged, hprocess, sweepDeleted, hdeleted, List.length_nil, List.foldl_nil]
  rfl

end Known

section Swept

variable {sha256Hex : Bytes → String} {env : SyncEnv} {c : Uuid} {remote : List RemoteObject} {report : SyncReport}
  {db db1 : Db}

theorem ListingSettled.item (hl : ListingSettled sha256Hex env c remote report db db1) {obj : RemoteObject}
    (hobj : obj ∈ remote) :
    ∃ i ∈ db1.connectorItems, i.key = (c, obj.key) ∧ i.etag = some obj.etag ∧ i.size = some obj.size := by
  by_cases hcls : classify (db.knownIdentity c) obj = .unchanged
  · obtain ⟨i, -, hkey, hetag, hsize, hi⟩ := hl.passedOver obj ⟨hobj, hcls⟩
    exact ⟨_, hi, hkey, hetag, hsize⟩
  · obtain ⟨o, hsettled, -⟩ := hl.attempted obj ⟨hobj, hcls⟩
    exact ⟨_, hsettled.item, rfl, rfl, rfl⟩

theorem ListingSettled.swept (hl : ListingSettled sha256Hex env c remote report db db1) :
    ListingKnown c remote (sweepDeleted env c remote db1) ∧ MissingDeleted c remote (sweepDeleted env c remote db1) := by
  obtain ⟨hok, hitems, -⟩ := sweepKeys_spec c (db1.docIdByKey c) hl.frame.ok (deletedKeys env c remote db1)
  constructor
  · intro obj hobj
    obtain ⟨i, hi, hkey, hetag, hsize⟩ := hl.item hobj
    have hmem : sweptItem c (db1.docIdByKey c) (deletedKeys env c remote db1) i ∈
        (sweepDeleted env c remote db1).connectorItems := by
      rw [sweepDeleted, hitems]
      exact List.mem_map_of_mem hi
    exact classify_unchanged hok hmem hkey hetag hsize
  · intro i hi hc hnot
    rw [sweepDeleted, hitems] at hi
    obtain ⟨j, hj, rfl⟩ := List.mem_map.mp hi
    by_cases hstatus : j.status = .deleted
    · simp [sweptItem, hstatus]
    · have hkeys : j.externalId ∈ deletedKeys env c remote db1 :=
        mem_deletedKeys.mpr ⟨j, hj, Prod.ext hc rfl, hnot, hstatus⟩
      have hc' : j.connectorId = c := hc
      simp [sweptItem, hc', hkeys]

end Swept

/-- The state after a sweep whose listing phase ended in `listed`. -/
def afterSweep (env : SyncEnv) (c : Uuid) (remote : List RemoteObject) (listed : Db) : Db :=
  (sweepDeleted env c remote listed).stampConnector c fun r =>
    { r with lastSyncAt := some env.finishedAt, lastFullSweepAt := some env.sweptAt }

theorem fullSweep_of_listed {sha256Hex : Bytes → String} {env : SyncEnv} {row : Connector} {bucket : BucketListing}
    {report : SyncReport} {db listed : Db}
    (h : processObjects sha256Hex env row.id row.collection bucket.objects db = (.ok report, listed)) :
    fullSweep sha256Hex env row bucket db =
      (.ok { report with deleted := (deletedKeys env row.id bucket.objects listed).length },
        afterSweep env row.id bucket.objects listed) := by
  simp only [fullSweep, listChanged, h]
  rfl

/-- The accounts of a run, and a second sweep of the listing of a first one. -/
theorem sync_accounts_and_settles (sha256Hex : Bytes → String) (env : SyncEnv) (row : Connector) {db : Db}
    (h : db.CorpusOk) :
    (∀ remote, ItemWritesSucceed sha256Hex env row.id remote db → ∃ report db',
      processObjects sha256Hex env row.id row.collection remote db = (.ok report, db') ∧
      report.new + report.changed + report.skipped + report.errors +
        (diffObjects remote (db.knownIdentity row.id)).unchanged.length = remote.length) ∧
    ∀ bucket, ItemWritesSucceed sha256Hex env row.id bucket.objects db → ∃ report db',
      fullSweep sha256Hex env row bucket db = (.ok report, db') ∧
      report.new + report.changed + report.skipped + report.errors +
        (diffObjects bucket.objects (db.knownIdentity row.id)).unchanged.length = bucket.objects.length ∧
      ∀ env' lastSyncAt lastFullSweepAt,
        fullSweep sha256Hex env' { row with lastSyncAt, lastFullSweepAt } bucket db' =
          (.ok {}, reseen env' row.id bucket.objects db') := by
  constructor
  · intro remote hwrites
    obtain ⟨report, db', hrun⟩ := (processObjects_returns_iff sha256Hex env row.id row.collection remote db).mpr hwrites
    exact ⟨report, db', hrun, processObjects_accounts hrun⟩
  · intro bucket hwrites
    have hcompletes : ∃ report listed,
        processObjects sha256Hex env row.id row.collection bucket.objects db = (.ok report, listed) :=
      (processObjects_returns_iff sha256Hex env row.id row.collection bucket.objects db).mpr hwrites
    obtain ⟨report, listed, hrun⟩ := hcompletes
    obtain ⟨hknown, hmissing⟩ := (processObjects_ok h bucket.distinct hrun).swept
    have haccounts := processObjects_accounts hrun
    refine ⟨_, afterSweep env row.id bucket.objects listed, fullSweep_of_listed hrun, haccounts, ?_⟩
    intro env' lastSyncAt lastFullSweepAt
    exact fullSweep_known sha256Hex hknown hmissing

theorem abcBucket_writes : ItemWritesSucceed abcDigest abcEnv 1 (abcBucket "a.txt").objects Db.empty := by decide

theorem sync_accounts_and_settles_abc :
    ∃ report db', fullSweep abcDigest abcEnv ⟨1, "default", none, none⟩ (abcBucket "a.txt") Db.empty =
        (.ok report, db') ∧
      report.new + report.changed + report.skipped + report.errors +
        (diffObjects (abcBucket "a.txt").objects (Db.empty.knownIdentity 1)).unchanged.length = 1 ∧
      ∀ env' lastSyncAt lastFullSweepAt,
        fullSweep abcDigest env' ⟨1, "default", lastSyncAt, lastFullSweepAt⟩ (abcBucket "a.txt") db' =
          (.ok {}, reseen env' 1 (abcBucket "a.txt").objects db') :=
  (sync_accounts_and_settles abcDigest abcEnv ⟨1, "default", none, none⟩ Db.empty_corpusOk).2 (abcBucket "a.txt")
    abcBucket_writes

end ProRag
