import ProRag.Ingest.Router

/-!
# The connector sync engine

`sync_incremental` and `full_sweep` over one connector: the listing is diffed against
`connector_items`, new and changed objects are ingested one by one, and the sweep then deletes
the documents of the keys that are gone.  A run commits item by item, so a run that raises
leaves the work done so far.
-/

namespace ProRag

open Framework

/-- One object of a bucket listing. -/
structure RemoteObject where
  key : String
  etag : String
  size : Nat
  lastModified : Timestamp
deriving DecidableEq, Repr

/-- The full listing of a bucket and prefix.  A bucket holds one object per key. -/
structure BucketListing where
  objects : List RemoteObject
  distinct : (objects.map RemoteObject.key).Nodup

/-- `list_changed(since)`. -/
def listChanged (bucket : BucketListing) (since : Option Timestamp) : List RemoteObject :=
  match since with
  | none => bucket.objects
  | some t => bucket.objects.filter fun o => t < o.lastModified

theorem listChanged_sublist (bucket : BucketListing) (since : Option Timestamp) :
    (listChanged bucket since).Sublist bucket.objects := by
  cases since with
  | none => exact List.Sublist.refl _
  | some t => exact List.filter_sublist

inductive ObjectClass
  | new | changed | unchanged
deriving DecidableEq, Repr

/-- One turn of the loop of `diff_objects`. -/
def classify (known : String → Option (Option String × Option Nat)) (obj : RemoteObject) : ObjectClass :=
  match known obj.key with
  | none => .new
  | some prior => if prior ≠ (some obj.etag, some obj.size) then .changed else .unchanged

structure Diff where
  new : List RemoteObject
  changed : List RemoteObject
  unchanged : List String

/-- `diff_objects(remote, known)`. -/
def diffObjects (remote : List RemoteObject) (known : String → Option (Option String × Option Nat)) : Diff where
  new := remote.filter fun o => classify known o = .new
  changed := remote.filter fun o => classify known o = .changed
  unchanged := (remote.filter fun o => classify known o = .unchanged).map RemoteObject.key

/-- `find_deleted(remote_keys, known)`. -/
def findDeleted (remoteKeys : List String) (known : List (String × ItemStatus)) : List String :=
  (known.filter fun p => p.1 ∉ remoteKeys ∧ p.2 ≠ .deleted).map Prod.fst

structure SyncReport where
  new : Nat := 0
  changed : Nat := 0
  skipped : Nat := 0
  errors : Nat := 0
  deleted : Nat := 0
deriving DecidableEq, Repr

/-- Where the server refuses a statement of an object's turn and nothing rolls back before its row is written: one of
`ingest_bytes` outside its `try`, which has stored nothing, or one of `_upsert_item`. -/
inductive TurnRefusal
  | ingest | item
deriving DecidableEq

/-- What a run meets outside its tables: the settings, the object store, the parser and the
embedding provider, the clock, and the order in which Python iterates a set.  While an object is
ingested, the server may refuse a statement of the rule check, or another one of its turn. -/
structure SyncEnv where
  settings : Settings
  fetch : RemoteObject → Except PyError Bytes
  work : RemoteObject → IngestWork
  checkFails : RemoteObject → Bool := fun _ => false
  refused : RemoteObject → Option TurnRefusal := fun _ => none
  seenAt : String → Timestamp
  touchedAt : Timestamp
  finishedAt : Timestamp
  sweptAt : Timestamp
  setOrder : List String → List String
  setOrder_perm : ∀ keys, (setOrder keys).Perm keys

/-- `connector_items` as `{external_id: (etag, size)}` for one connector. -/
def Db.knownIdentity (c : Uuid) (db : Db) (key : String) : Option (Option String × Option Nat) :=
  (selectOne ConnectorItem.key (c, key) db.connectorItems).map fun i => (i.etag, i.size)

/-- `{external_id: status}` for one connector. -/
def Db.knownStatus (c : Uuid) (db : Db) : List (String × ItemStatus) :=
  (db.connectorItems.filter fun i => i.connectorId = c).map fun i => (i.externalId, i.status)

/-- `{external_id: doc_id}` for one connector. -/
def Db.docIdByKey (c : Uuid) (db : Db) (key : String) : Option Uuid :=
  (selectOne ConnectorItem.key (c, key) db.connectorItems).bind ConnectorItem.docId

/-- `key.rsplit("/", 1)[-1] or key`. -/
def keyFilename (key : String) : String :=
  let last := String.ofList (key.toList.reverse.takeWhile (· ≠ '/')).reverse
  if last = "" then key else last

/-- How the loop body of `_process_objects` settles one object. -/
inductive ObjectOutcome
  | skipped (why : String)
  | error (exc : PyError)
  | synced (docId : Uuid)
deriving DecidableEq, Repr

def ObjectOutcome.status : ObjectOutcome → ItemStatus
  | skipped _ => .skipped
  | error _ => .error
  | synced _ => .synced

def ObjectOutcome.docId : ObjectOutcome → Option Uuid
  | synced d => some d
  | _ => none

def ObjectOutcome.errorText : ObjectOutcome → Option String
  | skipped why => some why
  | error exc => some (safeError exc)
  | synced _ => none

def SyncReport.count (report : SyncReport) (isNew : Bool) : ObjectOutcome → SyncReport
  | .skipped _ => { report with skipped := report.skipped + 1 }
  | .error _ => { report with errors := report.errors + 1 }
  | .synced _ =>
    if isNew then { report with new := report.new + 1 } else { report with changed := report.changed + 1 }

/-- Allowed suffix and `size <= max_upload_bytes`. -/
def eligible (settings : Settings) (obj : RemoteObject) : Bool :=
  hasAllowedSuffix obj.key && decide (obj.size ≤ settings.maxUploadBytes)

/-- The columns take the key, the ETag and the size of the object: texts without NUL, and a 32-bit integer. -/
def recordable (obj : RemoteObject) : Bool := pgText obj.key && pgText obj.etag && decide (obj.size < 2 ^ 31)

/-- `_upsert_item(…)`.  `doc_id` is a foreign key, and `error` a text too. -/
def upsertItem (c : Uuid) (key : String) (obj : RemoteObject) (seenAt : Timestamp) (status : ItemStatus)
    (docId : Option Uuid) (error : Option String) (db : Db) : Except PyError Db :=
  if (recordable obj && error.all pgText) = false then .error ⟨"DBAPIError", "invalid input for query argument"⟩
  else if (docId.any fun d => (db.document? d).isNone) then
    .error ⟨"IntegrityError", "connector_items_doc_id_fkey"⟩
  else
    .ok { db with
      connectorItems := upsert ConnectorItem.key
        ⟨c, key, some obj.etag, some obj.size, some obj.lastModified, docId, some seenAt, status, error⟩
        db.connectorItems }

/-- The row `upsertItem` leaves for an object settled with outcome `o`. -/
def settledItem (c : Uuid) (obj : RemoteObject) (seenAt : Timestamp) (o : ObjectOutcome) : ConnectorItem :=
  ⟨c, obj.key, some obj.etag, some obj.size, some obj.lastModified, o.docId, some seenAt, o.status, o.errorText⟩

section Run

variable (sha256Hex : Bytes → String) (env : SyncEnv) (c : Uuid) (collection : String)

/-- `ingest_bytes` for an object.  Where the server refuses a statement of the rule check, the commit rolls back and
the call still answers `ready`. -/
def ingestObject (obj : RemoteObject) (data : Bytes) (db : Db) : Except PyError IngestResponse × Db :=
  let run := ingestBytes sha256Hex env.settings.ruleSimilarityFloor (env.work obj) data (keyFilename obj.key) collection db
  if env.checkFails obj then (run.1, db) else run

/-- The fetch and the ingest of one object, with the checks before them. -/
def attemptObject (obj : RemoteObject) (db : Db) : ObjectOutcome × Db :=
  if !hasAllowedSuffix obj.key then (.skipped "unsupported file type", db)
  else if env.settings.maxUploadBytes < obj.size then (.skipped "exceeds max_upload_bytes", db)
  else
    match env.fetch obj with
    | .error exc => (.error exc, db)
    | .ok data =>
      match ingestObject sha256Hex env collection obj data db with
      | (.error exc, db') => (.error exc, db')
      | (.ok resp, db') => (.synced resp.docId, db')

/-- One turn of the loop of `_process_objects`. -/
def processObject (obj : RemoteObject) (db : Db) : Except PyError ObjectOutcome × Db :=
  let attempt := attemptObject sha256Hex env collection obj db
  match env.refused obj with
  | some .ingest => (.error ⟨"DBAPIError", "current transaction is aborted"⟩, db)
  | some .item => (.error ⟨"DBAPIError", "canceling statement due to statement timeout"⟩, attempt.2)
  | none =>
    match upsertItem c obj.key obj (env.seenAt obj.key) attempt.1.status attempt.1.docId
        attempt.1.errorText attempt.2 with
    | .error exc => (.error exc, attempt.2)
    | .ok db' => (.ok attempt.1, db')

/-- The loop of `_process_objects`; the flag of an object says that it is new. -/
def processLoop : List (RemoteObject × Bool) → SyncReport → Db → Except PyError SyncReport × Db
  | [], report, db => (.ok report, db)
  | (obj, isNew) :: rest, report, db =>
    match processObject sha256Hex env c collection obj db with
    | (.error exc, db') => (.error exc, db')
    | (.ok o, db') => processLoop rest (report.count isNew o) db'

def attempts (remote : List RemoteObject) (db : Db) : List (RemoteObject × Bool) :=
  let diff := diffObjects remote (db.knownIdentity c)
  diff.new.map (·, true) ++ diff.changed.map (·, false)

/-- The final `UPDATE` of `_process_objects`. -/
def touchUnchanged (keys : List String) (db : Db) : Db :=
  { db with
    connectorItems := updateWhere (fun i => i.connectorId = c ∧ i.externalId ∈ keys)
      (fun i => { i with lastSeenAt := some env.touchedAt }) db.connectorItems }

/-- `_process_objects(session, connector, connector_id, collection, remote)`. -/
def processObjects (remote : List RemoteObject) (db : Db) : Except PyError SyncReport × Db :=
  match processLoop sha256Hex env c collection (attempts c remote db) {} db with
  | (.error exc, db') => (.error exc, db')
  | (.ok report, db') =>
    (.ok report, touchUnchanged env c (diffObjects remote (db.knownIdentity c)).unchanged db')

end Run

/-- `_SINCE_SAFETY_BUFFER`, in microseconds. -/
def sinceSafetyBuffer : Int := 5000000

/-- The `UPDATE` of the connector row at the end of a run. -/
def Db.stampConnector (c : Uuid) (stamp : Connector → Connector) (db : Db) : Db :=
  { db with connectors := updateWhere (fun r => r.id = c) stamp db.connectors }

/-- `sync_incremental(connector_row, session)`. -/
def syncIncremental (sha256Hex : Bytes → String) (env : SyncEnv) (row : Connector) (bucket : BucketListing)
    (db : Db) : Except PyError SyncReport × Db :=
  let since := row.lastSyncAt.map fun t => t - sinceSafetyBuffer
  match processObjects sha256Hex env row.id row.collection (listChanged bucket since) db with
  | (.error exc, db') => (.error exc, db')
  | (.ok report, db') =>
    (.ok { report with deleted := 0 },
      db'.stampConnector row.id fun r => { r with lastSyncAt := some env.finishedAt })

/-- One turn of the deletion loop of `full_sweep`; `docIdByKey` was read before the loop. -/
def sweepKey (c : Uuid) (docIdByKey : String → Option Uuid) (db : Db) (key : String) : Db :=
  let db := match (docIdByKey key).bind db.document? with
    | some doc => db.deleteDocument doc.id
    | none => db
  { db with
    connectorItems := updateWhere (fun i => i.key = (c, key))
      (fun i => { i with status := .deleted, docId := none }) db.connectorItems }

/-- The keys the sweep finds missing from the listing. -/
def deletedKeys (env : SyncEnv) (c : Uuid) (remote : List RemoteObject) (db : Db) : List String :=
  env.setOrder (findDeleted (remote.map RemoteObject.key) (db.knownStatus c))

/-- The deletion loop of `full_sweep`. -/
def sweepDeleted (env : SyncEnv) (c : Uuid) (remote : List RemoteObject) (db : Db) : Db :=
  (deletedKeys env c remote db).foldl (sweepKey c (db.docIdByKey c)) db

/-- `full_sweep(connector_row, session)`. -/
def fullSweep (sha256Hex : Bytes → String) (env : SyncEnv) (row : Connector) (bucket : BucketListing)
    (db : Db) : Except PyError SyncReport × Db :=
  let remote := listChanged bucket none
  match processObjects sha256Hex env row.id row.collection remote db with
  | (.error exc, db') => (.error exc, db')
  | (.ok report, db') =>
    (.ok { report with deleted := (deletedKeys env row.id remote db').length },
      (sweepDeleted env row.id remote db').stampConnector row.id fun r =>
        { r with lastSyncAt := some env.finishedAt, lastFullSweepAt := some env.sweptAt })

end ProRag
