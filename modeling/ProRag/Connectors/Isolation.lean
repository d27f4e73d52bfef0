import ProRag.Connectors.Corpus

/-!
# Failing objects do not disturb the others

An object that is skipped or fails leaves its own item row and nothing else, so the run over the listing
without it does the same for every other object.
-/

namespace ProRag

open Framework

/-- The database without the items under the keys `p`. -/
def Db.others (p : Uuid × String → Bool) (db : Db) : Db :=
  { db with connectorItems := deleteWhere (fun i => p i.key) db.connectorItems }

/-- The keys of the objects of a listing that are left out. -/
def keysOf (c : Uuid) (absent : RemoteObject → Bool) (remote : List RemoteObject) (key : Uuid × String) : Bool :=
  remote.any fun obj => absent obj ∧ key = (c, obj.key)

/-- An attempted object whose row says that it was skipped or went wrong. -/
def FailedObject (c : Uuid) (remote : List RemoteObject) (db db' : Db) (obj : RemoteObject) : Prop :=
  Attempted c db remote obj ∧ ∃ i ∈ db'.connectorItems, i.key = (c, obj.key) ∧ i.status ≠ .synced

/-- The run over `remote` completes, records every attempted object, and does the same for the others as a run
from which failing objects are absent. -/
def IsolatesFailures (sha256Hex : Bytes → String) (env : SyncEnv) (c : Uuid) (collection : String)
    (remote : List RemoteObject) (db : Db) : Prop :=
  ∃ report db', processObjects sha256Hex env c collection remote db = (.ok report, db') ∧
    (∀ obj, Attempted c db remote obj → ∃ o, Settled sha256Hex env c obj db db' o) ∧
    ∀ absent : RemoteObject → Bool, (∀ obj ∈ remote, absent obj = true → FailedObject c remote db db' obj) →
      ∃ report1 db1, processObjects sha256Hex env c collection (remote.filter fun obj => !absent obj) db =
        (.ok report1, db1) ∧ db1.others (keysOf c absent remote) = db'.others (keysOf c absent remote)

section

variable {sha256Hex : Bytes → String} {env : SyncEnv} {c : Uuid} {collection : String} {p : Uuid × String → Bool}
  {obj : RemoteObject}

theorem grantRules_others (docId : Uuid) (rules : List AccessRule) (db : Db) :
    rules.foldl (fun db r => db.grantRule docId r) (db.others p) =
      (rules.foldl (fun db r => db.grantRule docId r) db).others p := by
  induction rules generalizing db with
  | nil => rfl
  | cons r rs ih =>
    have hgrant : (db.others p).grantRule docId r = (db.grantRule docId r).others p := by
      unfold Db.grantRule
      by_cases hold : db.hasRuleGrant docId r.groupId r.id = true
      · rw [if_pos hold]
        exact if_pos hold
      · rw [if_neg hold]
        exact if_neg hold
    rw [List.foldl_cons, List.foldl_cons, hgrant]
    exact ih _

theorem ingestBytes_others (floor : ℚ) (work : IngestWork) (data : Bytes) (filename : String) (db : Db) :
    ingestBytes sha256Hex floor work data filename collection (db.others p) =
      ((ingestBytes sha256Hex floor work data filename collection db).1,
        (ingestBytes sha256Hex floor work data filename collection db).2.others p) := by
  have hsha : (db.others p).documentBySha? (sha256Hex data) = db.documentBySha? (sha256Hex data) := rfl
  unfold ingestBytes
  rw [hsha]
  cases db.documentBySha? (sha256Hex data) with
  | some existing => rfl
  | none =>
    cases work with
    | error exc => rfl
    | ok rows =>
      have hid : (db.others p).document? rows.id = db.document? rows.id := rfl
      simp only [hid]
      cases db.document? rows.id with
      | some doc => rfl
      | none =>
        have hgrants := grantRules_others (p := p) rows.id
          (matchedRules floor rows.chunks (db.storeDocument (newDocument (sha256Hex data) filename collection rows) rows).confirmedRules)
          (db.storeDocument (newDocument (sha256Hex data) filename collection rows) rows)
        exact Prod.ext rfl hgrants

theorem ingestObject_others (data : Bytes) (db : Db) :
    ingestObject sha256Hex env collection obj data (db.others p) =
      ((ingestObject sha256Hex env collection obj data db).1,
        (ingestObject sha256Hex env collection obj data db).2.others p) := by
  simp only [ingestObject, ingestBytes_others]
  cases env.checkFails obj with
  | true => rfl
  | false => rfl

theorem attemptObject_others (db : Db) :
    attemptObject sha256Hex env collection obj (db.others p) =
      ((attemptObject sha256Hex env collection obj db).1, (attemptObject sha256Hex env collection obj db).2.others p) := by
  unfold attemptObject
  split
  · rfl
  · split
    · rfl
    · cases env.fetch obj with
      | error exc => rfl
      | ok data =>
        simp only [ingestObject_others]
        generalize ingestObject sha256Hex env collection obj data db = r
        obtain ⟨res, db'⟩ := r
        cases res with
        | error exc => rfl
        | ok resp => rfl

theorem attemptObject_failed {db : Db} (h : (attemptObject sha256Hex env collection obj db).1.status ≠ .synced) :
    (attemptObject sha256Hex env collection obj db).2 = db := by
  unfold attemptObject at h ⊢
  split
  · rfl
  · rename_i hsuffix
    rw [if_neg hsuffix] at h
    split
    · rfl
    · rename_i hsize
      rw [if_neg hsize] at h
      cases hfetch : env.fetch obj with
      | error exc => rfl
      | ok data =>
        simp only [hfetch] at h ⊢
        cases hsha : db.documentBySha? (sha256Hex data) with
        | some e => rw [ingestObject_known hsha]
        | none =>
          cases hwork : env.work obj with
          | error exc => rw [ingestObject_error hsha hwork]
          | ok rows =>
            cases hid : db.document? rows.id with
            | some doc => rw [ingestObject_taken hsha hwork hid]
            | none =>
              obtain ⟨db1, hrun, _⟩ := @ingestObject_new sha256Hex env collection obj data db rows hsha hwork hid
              rw [hrun] at h
              exact absurd rfl h

theorem upsertItem_others (hkey : p (c, obj.key) = false) (seenAt : Timestamp) (status : ItemStatus)
    (docId : Option Uuid) (error : Option String) (db : Db) :
    upsertItem c obj.key obj seenAt status docId error (db.others p) =
      (upsertItem c obj.key obj seenAt status docId error db).map (·.others p) := by
  have hitems := @upsert_without _ _ _ ConnectorItem.key p
    ⟨c, obj.key, some obj.etag, some obj.size, some obj.lastModified, docId, some seenAt, status, error⟩
    db.connectorItems hkey
  have hdocument : ∀ d, (db.others p).document? d = db.document? d := fun _ => rfl
  simp only [upsertItem, hdocument]
  split
  · rfl
  · split
    · rfl
    · exact congrArg (fun items => Except.ok { db with connectorItems := items }) hitems.symm

theorem upsertItem_dropped {seenAt : Timestamp} {status : ItemStatus} {docId : Option Uuid} {error : Option String}
    {db db' : Db} (hkey : p (c, obj.key) = true)
    (he : upsertItem c obj.key obj seenAt status docId error db = .ok db') : db'.others p = db.others p := by
  obtain ⟨_, rfl⟩ := upsertItem_eq_ok.mp he
  have hitems := @upsert_dropped _ _ _ ConnectorItem.key p
    ⟨c, obj.key, some obj.etag, some obj.size, some obj.lastModified, docId, some seenAt, status, error⟩
    db.connectorItems hkey
  exact congrArg (fun items => { db with connectorItems := items }) hitems

theorem processObject_others (hkey : p (c, obj.key) = false) (db : Db) :
    processObject sha256Hex env c collection obj (db.others p) =
      ((processObject sha256Hex env c collection obj db).1,
        (processObject sha256Hex env c collection obj db).2.others p) := by
  unfold processObject
  simp only [attemptObject_others, upsertItem_others hkey]
  generalize attemptObject sha256Hex env collection obj db = attempt
  cases env.refused obj with
  | some refusal => cases refusal <;> rfl
  | none =>
    cases upsertItem c obj.key obj (env.seenAt obj.key) attempt.1.status attempt.1.docId attempt.1.errorText
        attempt.2 with
    | error exc => rfl
    | ok db' => rfl

theorem processObject_dropped {o : ObjectOutcome} {db db' : Db} (hkey : p (c, obj.key) = true)
    (hfailed : o.status ≠ .synced) (he : processObject sha256Hex env c collection obj db = (.ok o, db')) :
    db'.others p = db.others p := by
  obtain ⟨_, rfl, hup⟩ := processObject_eq_ok.mp he
  rw [upsertItem_dropped hkey hup, attemptObject_failed hfailed]

theorem processLoop_others {as : List (RemoteObject × Bool)} (hkeys : ∀ a ∈ as, p (c, a.1.key) = false)
    (report : SyncReport) (db : Db) :
    processLoop sha256Hex env c collection as report (db.others p) =
      ((processLoop sha256Hex env c collection as report db).1,
        (processLoop sha256Hex env c collection as report db).2.others p) := by
  induction as generalizing report db with
  | nil => rfl
  | cons a rest ih =>
    obtain ⟨obj, isNew⟩ := a
    have hobj := hkeys (obj, isNew) List.mem_cons_self
    have hrest : ∀ a ∈ rest, p (c, a.1.key) = false := fun a ha => hkeys a (List.mem_cons_of_mem _ ha)
    simp only [processLoop, processObject_others hobj]
    generalize processObject sha256Hex env c collection obj db = r
    obtain ⟨res, db1⟩ := r
    cases res with
    | error exc => rfl
    | ok o => exact ih hrest _ _

/-- The loop without the failing objects ends like the loop with them, for the others. -/
theorem processLoop_without {absent : RemoteObject → Bool} {as : List (RemoteObject × Bool)} {report report' : SyncReport}
    {db db' : Db} (hp : ∀ a ∈ as, p (c, a.1.key) = absent a.1)
    (hfailed : ∀ a ∈ as, absent a.1 = true → ∀ o, settledItem c a.1 (env.seenAt a.1.key) o ∈ db'.connectorItems →
      o.status ≠ .synced)
    (hok : db.CorpusOk) (hnodup : (as.map fun a => a.1.key).Nodup)
    (he : processLoop sha256Hex env c collection as report db = (.ok report', db')) (start : SyncReport) :
    ∃ report1, processLoop sha256Hex env c collection (as.filter fun a => !absent a.1) start (db.others p) =
      (.ok report1, db'.others p) := by
  induction as generalizing report db start with
  | nil =>
    obtain ⟨_, rfl⟩ := Prod.mk.inj he
    exact ⟨start, rfl⟩
  | cons a rest ih =>
    obtain ⟨obj, isNew⟩ := a
    obtain ⟨o, db1, hobj, hframe, hset, hrestKeys, hrest⟩ := processLoop_head hok hnodup he
    have hnext := ih (fun a ha => hp a (List.mem_cons_of_mem _ ha))
      (fun a ha => hfailed a (List.mem_cons_of_mem _ ha)) hframe.ok hrestKeys hrest
    cases habsent : absent obj with
    | true =>
      have hpkey : p (c, obj.key) = true := (hp (obj, isNew) List.mem_cons_self).trans habsent
      have hstatus := hfailed (obj, isNew) List.mem_cons_self habsent o hset.item
      rw [List.filter_cons_of_neg (by simp [habsent]), ← processObject_dropped hpkey hstatus hobj]
      exact hnext start
    | false =>
      have hpkey : p (c, obj.key) = false := (hp (obj, isNew) List.mem_cons_self).trans habsent
      rw [List.filter_cons_of_pos (by simp [habsent])]
      simp only [processLoop, processObject_others hpkey, hobj]
      exact hnext _

variable {remote : List RemoteObject} {absent : RemoteObject → Bool}

theorem keysOf_eq (hkeys : (remote.map RemoteObject.key).Nodup) (hobj : obj ∈ remote) :
    keysOf c absent remote (c, obj.key) = absent obj := by
  cases habsent : absent obj with
  | true => exact List.any_eq_true.mpr ⟨obj, hobj, by simp [habsent]⟩
  | false =>
    apply List.any_eq_false.mpr
    intro other hother
    rw [decide_eq_true_eq]
    rintro ⟨hleft, hkey⟩
    obtain rfl : obj = other := List.inj_on_of_nodup_map hkeys hobj hother (congrArg Prod.snd hkey)
    rw [habsent] at hleft
    cases hleft

theorem attempts_without (db : Db) :
    attempts c (remote.filter fun obj => !absent obj) db = (attempts c remote db).filter fun a => !absent a.1 := by
  simp only [attempts, diffObjects, List.filter_append, List.filter_map, List.filter_filter]
  congr 2 <;>
    · apply List.filter_congr
      intro obj _
      simp [Bool.and_comm]

theorem unchanged_without {db : Db} (hattempted : ∀ obj ∈ remote, absent obj = true → Attempted c db remote obj) :
    (diffObjects (remote.filter fun obj => !absent obj) (db.knownIdentity c)).unchanged =
      (diffObjects remote (db.knownIdentity c)).unchanged := by
  simp only [diffObjects, List.filter_filter]
  congr 1
  apply List.filter_congr
  intro obj hobj
  cases habsent : absent obj with
  | true => simp [(hattempted obj hobj habsent).2]
  | false => simp

theorem touchUnchanged_others (keys : List String) (db : Db) :
    (touchUnchanged env c keys db).others p = touchUnchanged env c keys (db.others p) := by
  have hitems := @updateWhere_without _ _ ConnectorItem.key p db.connectorItems
    (fun i => decide (i.connectorId = c ∧ i.externalId ∈ keys)) (fun i => { i with lastSeenAt := some env.touchedAt })
    (fun _ _ => rfl)
  exact congrArg (fun items => { db with connectorItems := items }) hitems

theorem processObjects_without {report : SyncReport} {db db' : Db} (hok : db.CorpusOk)
    (hkeys : (remote.map RemoteObject.key).Nodup)
    (he : processObjects sha256Hex env c collection remote db = (.ok report, db'))
    (hfailed : ∀ obj ∈ remote, absent obj = true → FailedObject c remote db db' obj) :
    ∃ report1 db1, processObjects sha256Hex env c collection (remote.filter fun obj => !absent obj) db =
      (.ok report1, db1) ∧ db1.others (keysOf c absent remote) = db'.others (keysOf c absent remote) := by
  obtain ⟨db0, hloop, rfl⟩ := processObjects_eq_ok.mp he
  have hmem : ∀ a ∈ attempts c remote db, a.1 ∈ remote := fun a ha => (mem_attempts.mp ⟨a, ha, rfl⟩).1
  have hstatus : ∀ a ∈ attempts c remote db, absent a.1 = true → ∀ o,
      settledItem c a.1 (env.seenAt a.1.key) o ∈ db0.connectorItems → o.status ≠ .synced := by
    intro a ha habsent o hitem hsynced
    obtain ⟨_, i, hi, hkey, hi'⟩ := hfailed a.1 (hmem a ha) habsent
    obtain ⟨j, hj, rfl⟩ := mem_updateWhere.mp hi
    have hjkey : j.key = (c, a.1.key) := by
      split at hkey
      · exact hkey
      · exact hkey
    have hjstatus : j.status ≠ .synced := by
      split at hi'
      · exact hi'
      · exact hi'
    obtain rfl := (processLoop_frame hok hloop).ok.itemKey.eq_of_key hj hitem hjkey
    exact hjstatus hsynced
  have hp : ∀ a ∈ attempts c remote db, keysOf c absent remote (c, a.1.key) = absent a.1 := fun a ha =>
    keysOf_eq hkeys (hmem a ha)
  have hkept : ∀ a ∈ (attempts c remote db).filter fun a => !absent a.1, keysOf c absent remote (c, a.1.key) = false := by
    intro a ha
    obtain ⟨ha, hpresent⟩ := List.mem_filter.mp ha
    rw [hp a ha]
    simpa using hpresent
  obtain ⟨report1, hwithout⟩ := processLoop_without hp hstatus hok (nodup_attempts hkeys) hloop {}
  rw [processLoop_others hkept] at hwithout
  generalize hloop1 : processLoop sha256Hex env c collection ((attempts c remote db).filter fun a => !absent a.1) {} db = r
    at hwithout
  obtain ⟨res, db1⟩ := r
  obtain ⟨rfl, hdb⟩ := Prod.mk.inj hwithout
  refine ⟨report1, touchUnchanged env c (diffObjects remote (db.knownIdentity c)).unchanged db1, ?_, ?_⟩
  · rw [processObjects_eq_ok, attempts_without, unchanged_without fun obj hobj habsent => (hfailed obj hobj habsent).1]
    exact ⟨db1, hloop1, rfl⟩
  · rw [touchUnchanged_others, touchUnchanged_others]
    exact congrArg _ hdb

/-- A run isolates its failing objects exactly when the item rows of the attempted ones can be written. -/
theorem run_isolates_failures {db : Db} (hok : db.CorpusOk) (hkeys : (remote.map RemoteObject.key).Nodup) :
    IsolatesFailures sha256Hex env c collection remote db ↔ ItemWritesSucceed sha256Hex env c remote db := by
  rw [← processObjects_returns_iff sha256Hex env c collection]
  constructor
  · rintro ⟨report, db', he, _⟩
    exact ⟨report, db', he⟩
  · rintro ⟨report, db', he⟩
    refine ⟨report, db', he, fun obj hattempted => ?_, fun absent hfailed => ?_⟩
    · obtain ⟨o, hset, _⟩ := (processObjects_ok hok hkeys he).attempted obj hattempted
      exact ⟨o, hset⟩
    · exact processObjects_without hok hkeys he hfailed

end

/-- An archive of the given size, listed before a document. -/
def archiveFirst (size : Nat) : List RemoteObject :=
  [⟨"archive.tar", "d41d8cd98f00b204e9800998ecf8427e", size, 0⟩,
    ⟨"notes.txt", "900150983cd24fb0d6963f7d28e17f72", 3, 0⟩]

theorem run_isolates_failures_archive :
    IsolatesFailures abcDigest abcEnv 1 "default" (archiveFirst 4096) Db.empty ∧
      (processObjects abcDigest abcEnv 1 "default" (archiveFirst 4096) Db.empty).2.documents ≠ [] := by
  have hkeys : ((archiveFirst 4096).map RemoteObject.key).Nodup := by decide
  exact ⟨(run_isolates_failures Db.empty_corpusOk hkeys).mpr (by decide), by decide⟩

/-- An archive of 2 GiB ends the run, with the document behind it. -/
theorem large_archive_ends_run :
    ¬ IsolatesFailures abcDigest abcEnv 1 "default" (archiveFirst (2 ^ 31)) Db.empty ∧
      (processObjects abcDigest abcEnv 1 "default" (archiveFirst (2 ^ 31)) Db.empty).2.documents = [] := by
  refine ⟨?_, by decide⟩
  rintro ⟨report, db', he, _⟩
  have hwrites : ItemWritesSucceed abcDigest abcEnv 1 (archiveFirst (2 ^ 31)) Db.empty :=
    (processObjects_returns_iff abcDigest abcEnv 1 "default" _ _).mp ⟨report, db', he⟩
  exact absurd hwrites (by decide)

end ProRag
