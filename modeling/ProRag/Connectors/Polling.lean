import ProRag.Connectors.Corpus

/-!
# What a poll sees of the writes before it

A run lists the bucket when it starts and stamps its connector when it ends.  The next poll asks for what was
modified since that stamp, less a buffer, so the writes made while the run was working count as seen.
-/

namespace ProRag

open Framework

/-- A `PUT` of an object. -/
def BucketListing.put (bucket : BucketListing) (version : RemoteObject) : BucketListing where
  objects := upsert RemoteObject.key version bucket.objects
  distinct := UniqueOn.upsert bucket.distinct version

/-- A `DELETE` of an object. -/
def BucketListing.remove (bucket : BucketListing) (key : String) : BucketListing where
  objects := deleteWhere (fun o => o.key = key) bucket.objects
  distinct := UniqueOn.deleteWhere bucket.distinct _

/-- A version, and the instant of the server clock at which it was written. -/
structure BucketWrite where
  version : RemoteObject
  writtenAt : Timestamp

/-- A run between its listing and its end: the connector as it was loaded, the bucket as it was listed, and what
`list_changed` returned. -/
structure PollRun where
  full : Bool
  row : Connector
  bucket : BucketListing
  listed : List RemoteObject

/-- One connector and its bucket: the run in flight, the end of the last one, and the writes since the last
listing. -/
structure PollWorld where
  clock : Timestamp
  bucket : BucketListing
  db : Db
  run : Option PollRun
  ended : Option Timestamp
  writes : List BucketWrite

inductive PollOp
  | wait (duration : Nat)
  | put (version : RemoteObject)
  | remove (key : String)
  | list (full : Bool)
  | finish (env : SyncEnv)

/-- The `since` of a run. -/
def pollSince (full : Bool) (row : Connector) : Option Timestamp :=
  if full then none else row.lastSyncAt.map fun t => t - sinceSafetyBuffer

def PollRun.result (sha256Hex : Bytes → String) (env : SyncEnv) (run : PollRun) (db : Db) : Except PyError SyncReport × Db :=
  if run.full then fullSweep sha256Hex env run.row run.bucket db
  else syncIncremental sha256Hex env run.row run.bucket db

/-- The lock of the connector admits one run at a time; only runs that succeed end. -/
def pollStep (sha256Hex : Bytes → String) (c : Uuid) (w : PollWorld) : PollOp → Option PollWorld
  | .wait duration => some { w with clock := w.clock + duration }
  | .put version => some { w with bucket := w.bucket.put version, writes := w.writes ++ [⟨version, w.clock⟩] }
  | .remove key => some { w with bucket := w.bucket.remove key }
  | .list full =>
    match w.run, selectOne Connector.id c w.db.connectors with
    | none, some row =>
      some { w with run := some ⟨full, row, w.bucket, listChanged w.bucket (pollSince full row)⟩, writes := [] }
    | _, _ => none
  | .finish env =>
    match w.run with
    | none => none
    | some run =>
      if env.finishedAt = w.clock then
        match run.result sha256Hex env w.db with
        | (.error _, _) => none
        | (.ok _, db') => some { w with db := db', run := none, ended := some w.clock }
      else none

/-- The store stamps a version within five seconds of the server clock. -/
def StampsClose (w : PollWorld) : PollOp → Prop
  | .put version => w.clock - 5000000 ≤ version.lastModified ∧ version.lastModified ≤ w.clock + 5000000
  | _ => True

/-- No run is in flight, and the connector carries the end of its last run. -/
def PollStart (c : Uuid) (w : PollWorld) : Prop :=
  w.run = none ∧ w.writes = [] ∧ ∃ row, selectOne Connector.id c w.db.connectors = some row ∧ row.lastSyncAt = w.ended

/-- A version that is still there, and that was stamped after the end of the last run, less the buffer, unless the
next run lists everything. -/
def Covered (w : PollWorld) (full : Bool) (x : BucketWrite) : Prop :=
  x.version ∈ w.bucket.objects ∧
    (full = true ∨ ∀ e, w.ended = some e → e - sinceSafetyBuffer < x.version.lastModified)

instance : ∀ (w : PollWorld) (op : PollOp), Decidable (StampsClose w op)
  | w, .put version =>
    inferInstanceAs (Decidable (w.clock - 5000000 ≤ version.lastModified ∧ version.lastModified ≤ w.clock + 5000000))
  | _, .wait _ => isTrue trivial
  | _, .remove _ => isTrue trivial
  | _, .list _ => isTrue trivial
  | _, .finish _ => isTrue trivial

section

variable (sha256Hex : Bytes → String) (env : SyncEnv) (c : Uuid) (collection : String)

theorem attemptObject_connectors (obj : RemoteObject) (db : Db) :
    (attemptObject sha256Hex env collection obj db).2.connectors = db.connectors := by
  unfold attemptObject
  split
  · rfl
  · split
    · rfl
    · split
      · rfl
      · rename_i data _
        have hingest : (ingestObject sha256Hex env collection obj data db).2.connectors = db.connectors := by
          rcases ingestObject_cases sha256Hex env collection obj data db with hrun | ⟨hdb, _⟩
          · rw [hrun]
            rcases ingestBytes_cases sha256Hex env.settings.ruleSimilarityFloor (env.work obj) data
              (keyFilename obj.key) collection db with ⟨e, _, he⟩ | ⟨_, exc, he⟩ | ⟨_, rows, _, _, db', he, _, _, hconnectors⟩
            · simp [he]
            · simp [he]
            · simp [he, hconnectors]
          · rw [hdb]
        split
        · rename_i he
          rwa [he] at hingest
        · rename_i he
          rwa [he] at hingest

theorem processObject_connectors (obj : RemoteObject) (db : Db) :
    (processObject sha256Hex env c collection obj db).2.connectors = db.connectors := by
  have hattempt := attemptObject_connectors sha256Hex env collection obj db
  unfold processObject
  dsimp only
  split
  · rfl
  · exact hattempt
  · split
    · exact hattempt
    · rename_i db' hup
      obtain ⟨_, rfl⟩ := upsertItem_eq_ok.mp hup
      exact hattempt

theorem processLoop_connectors (as : List (RemoteObject × Bool)) (report : SyncReport) (db : Db) :
    (processLoop sha256Hex env c collection as report db).2.connectors = db.connectors := by
  induction as generalizing report db with
  | nil => rfl
  | cons a rest ih =>
    have hobj := processObject_connectors sha256Hex env c collection a.1 db
    simp only [processLoop]
    split
    · rename_i exc db1 he
      rw [he] at hobj
      exact hobj
    · rename_i o db1 he
      rw [he] at hobj
      rw [ih, hobj]

theorem processObjects_connectors (remote : List RemoteObject) (db : Db) :
    (processObjects sha256Hex env c collection remote db).2.connectors = db.connectors := by
  have hloop := processLoop_connectors sha256Hex env c collection (attempts c remote db) {} db
  unfold processObjects
  split
  · rename_i exc db1 he
    rw [he] at hloop
    exact hloop
  · rename_i report db1 he
    rw [he] at hloop
    exact hloop

theorem sweepDeleted_connectors (remote : List RemoteObject) (db : Db) :
    (sweepDeleted env c remote db).connectors = db.connectors := by
  have hfold : ∀ (link : String → Option Uuid) (keys : List String) (db0 : Db),
      (keys.foldl (sweepKey c link) db0).connectors = db0.connectors := by
    intro link keys
    induction keys with
    | nil => exact fun _ => rfl
    | cons k ks ih =>
      intro db0
      rw [List.foldl_cons, ih]
      unfold sweepKey
      dsimp only
      split <;> rfl
  exact hfold _ _ db

end

section

variable {sha256Hex : Bytes → String} {c : Uuid} {w w' : PollWorld}

theorem run_stamps {env : SyncEnv} {run : PollRun} {db db' : Db} {report : SyncReport}
    (hrow : selectOne Connector.id c db.connectors = some run.row)
    (he : run.result sha256Hex env db = (.ok report, db')) :
    ∃ row, selectOne Connector.id c db'.connectors = some row ∧ row.lastSyncAt = some env.finishedAt := by
  obtain ⟨_, hid⟩ := selectOne_mem hrow
  have hstamp : ∀ (stamp : Connector → Connector) (db1 : Db), (∀ r, (stamp r).id = r.id) →
      (∀ r, (stamp r).lastSyncAt = some env.finishedAt) → db1.connectors = db.connectors →
      ∃ row, selectOne Connector.id c (db1.stampConnector run.row.id stamp).connectors = some row ∧
        row.lastSyncAt = some env.finishedAt := by
    intro stamp db1 hkey hlast hconnectors
    refine ⟨stamp run.row, ?_, hlast run.row⟩
    have hselect := @selectOne_updateWhere _ _ _ Connector.id c stamp (fun r hr => (hkey r).trans hr) db1.connectors
    rw [hconnectors, hrow] at hselect
    unfold Db.stampConnector
    rw [hid, hconnectors]
    exact hselect
  unfold PollRun.result at he
  split at he
  · have hlisted := processObjects_connectors sha256Hex env run.row.id run.row.collection run.bucket.objects db
    simp only [fullSweep, listChanged] at he
    split at he
    · cases he
    · rename_i report1 db1 hp
      obtain ⟨_, rfl⟩ := Prod.mk.inj he
      rw [hp] at hlisted
      apply hstamp
      · exact fun _ => rfl
      · exact fun _ => rfl
      · rw [sweepDeleted_connectors, hlisted]
  · have hlisted := processObjects_connectors sha256Hex env run.row.id run.row.collection
      (listChanged run.bucket (run.row.lastSyncAt.map fun t => t - sinceSafetyBuffer)) db
    simp only [syncIncremental] at he
    split at he
    · cases he
    · rename_i report1 db1 hp
      obtain ⟨_, rfl⟩ := Prod.mk.inj he
      rw [hp] at hlisted
      apply hstamp
      · exact fun _ => rfl
      · exact fun _ => rfl
      · exact hlisted

/-- What the histories keep: the connector carries the end of its last run, the run in flight has loaded it, and the
writes are stamped near the instant at which they were made. -/
structure PollOk (c : Uuid) (w : PollWorld) : Prop where
  row : ∃ row, selectOne Connector.id c w.db.connectors = some row ∧ row.lastSyncAt = w.ended ∧
    ∀ run, w.run = some run → run.row = row
  stamps : ∀ x ∈ w.writes, x.writtenAt - 5000000 ≤ x.version.lastModified

theorem pollStep_ok (h : PollOk c w) {op : PollOp} (hclose : StampsClose w op) (hs : pollStep sha256Hex c w op = some w') :
    PollOk c w' := by
  obtain ⟨row, hrow, hlast, hloaded⟩ := h.row
  cases op with
  | wait duration =>
    obtain rfl := Option.some.inj hs
    exact ⟨⟨row, hrow, hlast, hloaded⟩, h.stamps⟩
  | put version =>
    obtain rfl := Option.some.inj hs
    refine ⟨⟨row, hrow, hlast, hloaded⟩, fun x hx => ?_⟩
    rcases List.mem_append.mp hx with hx | hx
    · exact h.stamps x hx
    · obtain rfl := List.mem_singleton.mp hx
      exact hclose.1
  | remove key =>
    obtain rfl := Option.some.inj hs
    exact ⟨⟨row, hrow, hlast, hloaded⟩, h.stamps⟩
  | list full =>
    simp only [pollStep] at hs
    split at hs
    · rename_i row1 _ hrow1
      obtain rfl := Option.some.inj hs
      obtain rfl : row1 = row := Option.some.inj (hrow1.symm.trans hrow)
      refine ⟨⟨row1, hrow, hlast, fun run hrun => ?_⟩, fun x hx => by cases hx⟩
      obtain rfl := Option.some.inj hrun
      rfl
    · cases hs
  | finish env =>
    simp only [pollStep] at hs
    split at hs
    · cases hs
    · rename_i run hrun
      split at hs
      · rename_i hnow
        split at hs
        · cases hs
        · rename_i report db' hresult
          obtain rfl := Option.some.inj hs
          obtain rfl := hloaded run hrun
          obtain ⟨row', hrow', hlast'⟩ := run_stamps hrow hresult
          refine ⟨⟨row', hrow', hlast'.trans (congrArg some hnow), fun run' hrun' => ?_⟩, h.stamps⟩
          cases hrun'
      · cases hs

theorem pollOk_reached (hs : Reaches (pollStep sha256Hex c) StampsClose (PollStart c) w) : PollOk c w := by
  apply hs.invariant (PollOk c)
  · rintro w ⟨hrun, hwrites, row, hrow, hlast⟩
    refine ⟨⟨row, hrow, hlast, fun run h => ?_⟩, fun x hx => ?_⟩
    · rw [hrun] at h
      cases h
    · rw [hwrites] at hx
      cases hx
  · intro w op w' h hclose hstep
    exact pollStep_ok h hclose hstep

theorem mem_listing (h : PollOk c w) {full : Bool} (hs : pollStep sha256Hex c w (.list full) = some w') :
    ∃ run, w'.run = some run ∧ ∀ x : BucketWrite, x.version ∈ run.listed ↔ Covered w full x := by
  obtain ⟨row, hrow, hlast, _⟩ := h.row
  simp only [pollStep] at hs
  split at hs
  · rename_i row1 _ hrow1
    obtain rfl := Option.some.inj hs
    obtain rfl : row1 = row := Option.some.inj (hrow1.symm.trans hrow)
    refine ⟨_, rfl, fun x => ?_⟩
    unfold pollSince Covered
    rw [hlast]
    cases full with
    | true => simp [listChanged]
    | false =>
      cases w.ended with
      | none => simp [listChanged]
      | some e => simp [listChanged]
  · cases hs

/-- The buffer makes up for the distance of the clocks. -/
theorem buffer_covers {e written stamp : Int} (hclose : written - 5000000 ≤ stamp) (hbehind : e < written) :
    e - sinceSafetyBuffer < stamp := by
  unfold sinceSafetyBuffer
  omega

/-- A version written between two listings is returned by the second exactly when it is covered, and it is when it
is still there and was written after the first run had ended. -/
theorem listing_returns_covered (hs : Reaches (pollStep sha256Hex c) StampsClose (PollStart c) w) {full : Bool}
    (hlist : pollStep sha256Hex c w (.list full) = some w') :
    ∃ run, w'.run = some run ∧ ∀ x ∈ w.writes, (x.version ∈ run.listed ↔ Covered w full x) ∧
      (x.version ∈ w.bucket.objects → (∀ e, w.ended = some e → e < x.writtenAt) → x.version ∈ run.listed) := by
  have hok := pollOk_reached hs
  obtain ⟨run, hrun, hlisted⟩ := mem_listing hok hlist
  refine ⟨run, hrun, fun x hx => ⟨hlisted x, fun hthere hbehind => ?_⟩⟩
  apply (hlisted x).mpr
  refine ⟨hthere, Or.inr fun e he => ?_⟩
  exact buffer_covers (hok.stamps x hx) (hbehind e he)

end

/-! An object is written 10 s after the first poll has listed; the poll ends with the listing, or a minute later. -/

def lateObject : RemoteObject :=
  ⟨"notes.txt", "900150983cd24fb0d6963f7d28e17f72", 3, 10000000⟩

def idlePoll : PollWorld :=
  ⟨0, abcBucket "a.txt", { Db.empty with connectors := [⟨1, "default", none, none⟩] }, none, none, []⟩

theorem idlePoll_start : PollStart 1 idlePoll :=
  ⟨rfl, rfl, ⟨1, "default", none, none⟩, rfl, rfl⟩

def instantPoll : List PollOp :=
  [.list false, .finish abcEnv, .wait 10000000, .put lateObject, .wait 350000000]

def minutePoll : List PollOp :=
  [.list false, .wait 10000000, .put lateObject, .wait 50000000, .finish { abcEnv with finishedAt := 60000000 },
    .wait 300000000]

abbrev abcPollStep : PollWorld → PollOp → Option PollWorld := pollStep abcDigest 1

theorem instantPoll_covers : ∃ w w', runSteps abcPollStep idlePoll instantPoll = some w ∧
    abcPollStep w (.list false) = some w' ∧ ∃ run, w'.run = some run ∧ lateObject ∈ run.listed := by
  have hclose : Guarded abcPollStep StampsClose idlePoll instantPoll := by decide +kernel
  have hfacts : (runSteps abcPollStep idlePoll instantPoll).any (fun w =>
      (abcPollStep w (.list false)).isSome ∧ w.ended = some 0 ∧
        w.writes.map (fun x => (x.version, x.writtenAt)) = [(lateObject, 10000000)] ∧
        lateObject ∈ w.bucket.objects) = true := by decide +kernel
  obtain ⟨w, hrun, hw⟩ := (Option.any_eq_true _ _).mp hfacts
  obtain ⟨hsome, hended, hwrites, hthere⟩ := of_decide_eq_true hw
  obtain ⟨w', hlist⟩ := Option.isSome_iff_exists.mp hsome
  have hstart : Reaches abcPollStep StampsClose (PollStart 1) idlePoll := .start idlePoll_start
  obtain ⟨run, hrun', hall⟩ := listing_returns_covered (hstart.runSteps hclose hrun) hlist
  have hmem : (lateObject, (10000000 : Timestamp)) ∈ w.writes.map fun x => (x.version, x.writtenAt) := by
    rw [hwrites]
    exact List.mem_singleton_self _
  obtain ⟨x, hx, heq⟩ := List.mem_map.mp hmem
  obtain ⟨hversion, hat⟩ := Prod.mk.inj heq
  refine ⟨w, w', hrun, hlist, run, hrun', ?_⟩
  rw [← hversion]
  apply (hall x hx).2
  · rw [hversion]
    exact hthere
  · intro e he
    obtain rfl : 0 = e := Option.some.inj (hended.symm.trans he)
    rw [hat]
    decide

/-- The next poll does not return what was written while the last one was working, though it is still there. -/
theorem minutePoll_misses : ∃ w w' run, Reaches abcPollStep StampsClose (PollStart 1) w ∧
    abcPollStep w (.list false) = some w' ∧ w'.run = some run ∧
    ∃ x ∈ w.writes, x.version ∈ w.bucket.objects ∧ x.version ∉ run.listed := by
  have hclose : Guarded abcPollStep StampsClose idlePoll minutePoll := by decide +kernel
  have hfacts : (runSteps abcPollStep idlePoll minutePoll).any (fun w =>
      (abcPollStep w (.list false)).any (fun w' => w'.run.any fun run =>
        ∃ x ∈ w.writes, x.version ∈ w.bucket.objects ∧ x.version ∉ run.listed)) = true := by decide +kernel
  obtain ⟨w, hrun, hw⟩ := (Option.any_eq_true _ _).mp hfacts
  obtain ⟨w', hlist, hw'⟩ := (Option.any_eq_true _ _).mp hw
  obtain ⟨run, hrun', hmiss⟩ := (Option.any_eq_true _ _).mp hw'
  have hstart : Reaches abcPollStep StampsClose (PollStart 1) idlePoll := .start idlePoll_start
  exact ⟨w, w', run, hstart.runSteps hclose hrun, hlist, hrun', of_decide_eq_true hmiss⟩

end ProRag
