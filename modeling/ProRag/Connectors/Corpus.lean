import ProRag.Connectors.Deletion
import ProRag.Framework.Runs

/-!
# Runs over the corpus

Every operation that writes documents or connector items: uploads, the runs of a connector,
the re-ingest script and the connector routes.  Buckets change between runs as they like, so
each run brings its own listing and its own object store.
-/

namespace ProRag

open Framework

/-- The database, and the documents that were returned to direct uploads so far. -/
structure Corpus where
  db : Db
  uploads : List Uuid

def Corpus.empty : Corpus := ⟨Db.empty, []⟩

inductive CorpusOp
  | upload (settings : Settings) (work : IngestWork) (filename : Option String) (data : Bytes)
      (collection : String)
  | sync (c : Uuid) (env : SyncEnv) (bucket : BucketListing)
  | sweep (c : Uuid) (env : SyncEnv) (bucket : BucketListing)
  | reingest (settings : Settings) (work : IngestWork) (d : Uuid) (data : Bytes)
  | createConnector (c : Uuid) (collection : String)
  | updateConnector (c : Uuid) (collection : String)
  | deleteConnector (c : Uuid)

/-- `DELETE FROM connectors WHERE id = c`; its items go with it. -/
def Db.deleteConnector (c : Uuid) (db : Db) : Db :=
  { db with
    connectors := deleteWhere (fun r => r.id = c) db.connectors
    connectorItems := deleteWhere (fun i => i.connectorId = c) db.connectorItems }

/-- One turn of the loop of `scripts/reingest.py`: the row goes first, so that the same bytes
are ingested again. -/
def reingest (sha256Hex : Bytes → String) (settings : Settings) (work : IngestWork) (doc : Document)
    (data : Bytes) (db : Db) : Db :=
  (ingestBytes sha256Hex settings.ruleSimilarityFloor work data doc.filename doc.collection
    (db.deleteDocument doc.id)).2

def corpusStep (sha256Hex : Bytes → String) (s : Corpus) : CorpusOp → Option Corpus
  | .upload settings work filename data collection =>
    match ingest sha256Hex settings work filename data collection s.db with
    | (.ok resp, db') => some ⟨db', resp.docId :: s.uploads⟩
    | (.error _, db') => some ⟨db', s.uploads⟩
  | .sync c env bucket =>
    (selectOne Connector.id c s.db.connectors).map fun row =>
      ⟨(syncIncremental sha256Hex env row bucket s.db).2, s.uploads⟩
  | .sweep c env bucket =>
    (selectOne Connector.id c s.db.connectors).map fun row =>
      ⟨(fullSweep sha256Hex env row bucket s.db).2, s.uploads⟩
  | .reingest settings work d data =>
    (s.db.document? d).map fun doc => ⟨reingest sha256Hex settings work doc data s.db, s.uploads⟩
  | .createConnector c collection =>
    match selectOne Connector.id c s.db.connectors with
    | some _ => none
    | none => some ⟨{ s.db with connectors := s.db.connectors ++ [⟨c, collection, none, none⟩] }, s.uploads⟩
  | .updateConnector c collection =>
    some ⟨s.db.stampConnector c fun r => { r with collection := collection }, s.uploads⟩
  | .deleteConnector c => some ⟨s.db.deleteConnector c, s.uploads⟩

/-- The states the operations reach from the empty database. -/
abbrev CorpusReachable (sha256Hex : Bytes → String) (guard : Corpus → CorpusOp → Prop) : Corpus → Prop :=
  Reaches (corpusStep sha256Hex) guard (· = Corpus.empty)

theorem corpusStep_upload {sha256Hex : Bytes → String} {s s' : Corpus} {settings : Settings} {work : IngestWork}
    {filename : Option String} {data : Bytes} {collection : String}
    (hs : corpusStep sha256Hex s (.upload settings work filename data collection) = some s') :
    ∃ res db1, ingest sha256Hex settings work filename data collection s.db = (res, db1) ∧ s'.db = db1 ∧
      ∀ d, d ∈ s'.uploads ↔ (∃ resp, res = .ok resp ∧ d = resp.docId) ∨ d ∈ s.uploads := by
  unfold corpusStep at hs
  dsimp only at hs
  generalize ingest sha256Hex settings work filename data collection s.db = r at hs
  obtain ⟨res, db1⟩ := r
  refine ⟨res, db1, rfl, ?_⟩
  cases res with
  | ok resp =>
    dsimp only at hs
    obtain rfl := Option.some.inj hs
    simp
  | error exc =>
    dsimp only at hs
    obtain rfl := Option.some.inj hs
    simp

theorem corpusStep_create {sha256Hex : Bytes → String} {s s' : Corpus} {c : Uuid} {collection : String}
    (hs : corpusStep sha256Hex s (.createConnector c collection) = some s') :
    selectOne Connector.id c s.db.connectors = none ∧
      s' = ⟨{ s.db with connectors := s.db.connectors ++ [⟨c, collection, none, none⟩] }, s.uploads⟩ := by
  unfold corpusStep at hs
  dsimp only at hs
  cases hrow : selectOne Connector.id c s.db.connectors with
  | none =>
    rw [hrow] at hs
    exact ⟨rfl, (Option.some.inj hs).symm⟩
  | some row =>
    rw [hrow] at hs
    cases hs

theorem syncIncremental_error {sha256Hex : Bytes → String} {env : SyncEnv} {row : Connector}
    {bucket : BucketListing} {db db1 : Db} {exc : PyError}
    (h : processObjects sha256Hex env row.id row.collection
      (listChanged bucket (row.lastSyncAt.map fun t => t - sinceSafetyBuffer)) db = (.error exc, db1)) :
    (syncIncremental sha256Hex env row bucket db).2 = db1 := by
  simp [syncIncremental, h]

theorem syncIncremental_ok {sha256Hex : Bytes → String} {env : SyncEnv} {row : Connector}
    {bucket : BucketListing} {db db1 : Db} {report : SyncReport}
    (h : processObjects sha256Hex env row.id row.collection
      (listChanged bucket (row.lastSyncAt.map fun t => t - sinceSafetyBuffer)) db = (.ok report, db1)) :
    (syncIncremental sha256Hex env row bucket db).2.documents = db1.documents ∧
      (syncIncremental sha256Hex env row bucket db).2.connectorItems = db1.connectorItems := by
  simp [syncIncremental, h, Db.stampConnector]

theorem syncIncremental_db (sha256Hex : Bytes → String) (env : SyncEnv) (row : Connector)
    (bucket : BucketListing) (db : Db) :
    ∃ remote r db1, remote.Sublist bucket.objects ∧
      processObjects sha256Hex env row.id row.collection remote db = (r, db1) ∧
      (syncIncremental sha256Hex env row bucket db).2.documents = db1.documents ∧
      (syncIncremental sha256Hex env row bucket db).2.connectorItems = db1.connectorItems := by
  generalize hr : processObjects sha256Hex env row.id row.collection
    (listChanged bucket (row.lastSyncAt.map fun t => t - sinceSafetyBuffer)) db = res
  obtain ⟨r, db1⟩ := res
  have hlisted := listChanged_sublist bucket (row.lastSyncAt.map fun t => t - sinceSafetyBuffer)
  cases r with
  | error exc =>
    have hend := syncIncremental_error hr
    exact ⟨_, _, db1, hlisted, hr, hend ▸ rfl, hend ▸ rfl⟩
  | ok report =>
    obtain ⟨hdocs, hitems⟩ := syncIncremental_ok hr
    exact ⟨_, _, db1, hlisted, hr, hdocs, hitems⟩

theorem fullSweep_error {sha256Hex : Bytes → String} {env : SyncEnv} {row : Connector}
    {bucket : BucketListing} {db db1 : Db} {exc : PyError}
    (h : processObjects sha256Hex env row.id row.collection bucket.objects db = (.error exc, db1)) :
    (fullSweep sha256Hex env row bucket db).2 = db1 := by
  simp [fullSweep, listChanged, h]

theorem fullSweep_ok {sha256Hex : Bytes → String} {env : SyncEnv} {row : Connector}
    {bucket : BucketListing} {db db1 : Db} {report : SyncReport}
    (h : processObjects sha256Hex env row.id row.collection bucket.objects db = (.ok report, db1)) :
    (fullSweep sha256Hex env row bucket db).2.documents =
        (sweepDeleted env row.id bucket.objects db1).documents ∧
      (fullSweep sha256Hex env row bucket db).2.connectorItems =
        (sweepDeleted env row.id bucket.objects db1).connectorItems := by
  simp [fullSweep, listChanged, h, Db.stampConnector]

theorem sweepDeleted_ok {env : SyncEnv} {c : Uuid} {remote : List RemoteObject} {db : Db} (h : db.CorpusOk) :
    (sweepDeleted env c remote db).CorpusOk :=
  (sweepKeys_spec _ _ h _).1

theorem Db.CorpusOk.deleteConnector {db : Db} (h : db.CorpusOk) (c : Uuid) : (db.deleteConnector c).CorpusOk := by
  refine ⟨h.docId, h.docSha, h.itemKey.deleteWhere _, ?_⟩
  intro i hi d hd
  exact h.itemDoc i (mem_deleteWhere.mp hi).1 d hd

theorem corpusStep_ok {sha256Hex : Bytes → String} {s s' : Corpus} {op : CorpusOp} (h : s.db.CorpusOk)
    (hs : corpusStep sha256Hex s op = some s') : s'.db.CorpusOk := by
  cases op with
  | upload settings work filename data collection =>
    have hframe : (ingest sha256Hex settings work filename data collection s.db).2.CorpusOk := by
      rcases ingest_cases sha256Hex settings work filename data collection s.db with ⟨exc, he⟩ | ⟨name, he⟩
      · rw [he]
        exact h
      · rw [he]
        exact (ingestBytes_frame _ _ _ _ _ _ (fun _ => True) h).ok
    obtain ⟨res, db1, he, rfl, _⟩ := corpusStep_upload hs
    rw [he] at hframe
    exact hframe
  | sync c env bucket =>
    obtain ⟨row, _, rfl⟩ := Option.map_eq_some_iff.mp hs
    obtain ⟨remote, r, db1, _, hp, hdocs, hitems⟩ := syncIncremental_db sha256Hex env row bucket s.db
    exact (processObjects_frame h hp).ok.congr hdocs hitems
  | sweep c env bucket =>
    obtain ⟨row, _, rfl⟩ := Option.map_eq_some_iff.mp hs
    generalize hp : processObjects sha256Hex env row.id row.collection bucket.objects s.db = r
    obtain ⟨res, db1⟩ := r
    have h1 := (processObjects_frame h hp).ok
    cases res with
    | error exc =>
      rw [fullSweep_error hp]
      exact h1
    | ok report =>
      obtain ⟨hdocs, hitems⟩ := fullSweep_ok hp
      exact (sweepDeleted_ok h1).congr hdocs hitems
  | reingest settings work d data =>
    obtain ⟨doc, _, rfl⟩ := Option.map_eq_some_iff.mp hs
    exact (ingestBytes_frame _ _ _ _ _ _ (fun _ => True) (h.deleteDocument doc.id)).ok
  | createConnector c collection =>
    obtain ⟨_, rfl⟩ := corpusStep_create hs
    exact h.congr rfl rfl
  | updateConnector c collection =>
    obtain rfl := Option.some.inj hs
    exact h.congr rfl rfl
  | deleteConnector c =>
    obtain rfl := Option.some.inj hs
    exact h.deleteConnector c

theorem Db.empty_corpusOk : Db.empty.CorpusOk := by
  refine ⟨List.nodup_nil, List.nodup_nil, List.nodup_nil, ?_⟩
  intro i hi
  cases hi

theorem CorpusReachable.ok {sha256Hex : Bytes → String} {guard : Corpus → CorpusOp → Prop} {s : Corpus}
    (h : CorpusReachable sha256Hex guard s) : s.db.CorpusOk := by
  refine Reaches.invariant (fun s => s.db.CorpusOk) ?_ ?_ h
  · rintro _ rfl
    exact Db.empty_corpusOk
  · intro s op s' hok _ hs
    exact corpusStep_ok hok hs

/-- The digest of the three bytes `abc`, the only ones in the runs on fixed inputs. -/
def abcDigest (_ : Bytes) : String :=
  "ba7816bf8f01cfea414140de5dae2223b00361a396177a9cb410ff61f20015ad"

def abcEnv : SyncEnv where
  settings := {}
  fetch _ := .ok [97, 98, 99]
  work _ := .ok ⟨7, "text/plain", [⟨1, 7, 0, .prose, "abc", some 1, none, none, [1, 0], "abc"⟩], [], []⟩
  seenAt _ := 0
  touchedAt := 0
  finishedAt := 0
  sweptAt := 0
  setOrder := id
  setOrder_perm _ := List.Perm.refl _

/-- A bucket whose only object is `abc` under the given key. -/
def abcBucket (key : String) : BucketListing where
  objects := [⟨key, "900150983cd24fb0d6963f7d28e17f72", 3, 0⟩]
  distinct := List.nodup_singleton key

end ProRag
