import ProRag.Connectors.Sync

/-!
# What a run over a listing settles

Each attempted object ends with one outcome and one item row that says so.  A run only appends
documents, and it touches no item of another connector or of another key.
-/

namespace ProRag

open Framework

/-- Documents are only added, and items outside `touched` are the same. -/
structure CorpusFrame (touched : ConnectorItem → Prop) (db db' : Db) : Prop where
  ok : db'.CorpusOk
  documents : ∀ doc ∈ db.documents, doc ∈ db'.documents
  items : ∀ i, ¬ touched i → (i ∈ db'.connectorItems ↔ i ∈ db.connectorItems)

theorem CorpusFrame.refl {touched : ConnectorItem → Prop} {db : Db} (h : db.CorpusOk) :
    CorpusFrame touched db db :=
  ⟨h, fun _ hdoc => hdoc, fun _ _ => Iff.rfl⟩

theorem CorpusFrame.mono {t t' : ConnectorItem → Prop} {a b : Db} (h : CorpusFrame t a b)
    (ht : ∀ i, t i → t' i) : CorpusFrame t' a b :=
  ⟨h.ok, h.documents, fun i hi => h.items i fun hti => hi (ht i hti)⟩

theorem CorpusFrame.trans {t : ConnectorItem → Prop} {a b e : Db} (hab : CorpusFrame t a b)
    (hbe : CorpusFrame t b e) : CorpusFrame t a e := by
  refine ⟨hbe.ok, fun doc hdoc => hbe.documents doc (hab.documents doc hdoc), ?_⟩
  intro i hi
  rw [hbe.items i hi, hab.items i hi]

section Ingest

variable {sha256Hex : Bytes → String} {floor : ℚ} {work : IngestWork} {data : Bytes}
  {filename collection : String} {db db' : Db} {resp : IngestResponse}

variable (sha256Hex floor work data filename collection) in
theorem ingestBytes_frame (touched : ConnectorItem → Prop) (h : db.CorpusOk) :
    CorpusFrame touched db (ingestBytes sha256Hex floor work data filename collection db).2 := by
  rcases ingestBytes_cases sha256Hex floor work data filename collection db with
    ⟨e, _, he⟩ | ⟨_, exc, he⟩ | ⟨hsha, rows, _, hid, db', he, hdocs, hitems, _⟩
  · rw [he]
    exact .refl h
  · rw [he]
    exact .refl h
  · rw [he]
    refine ⟨h.insertDocument hid hsha hdocs hitems, ?_, ?_⟩
    · intro doc hdoc
      rw [hdocs]
      exact List.mem_append_left _ hdoc
    · intro i _
      rw [hitems]

theorem ingestBytes_ok (he : ingestBytes sha256Hex floor work data filename collection db = (.ok resp, db')) :
    ∃ doc ∈ db'.documents, doc.id = resp.docId ∧ doc.sha256 = sha256Hex data := by
  rcases ingestBytes_cases sha256Hex floor work data filename collection db with
    ⟨e, hsha, h⟩ | ⟨_, exc, h⟩ | ⟨hsha, rows, _, hid, db'', h, hdocs, _, _⟩
  · obtain ⟨rfl, rfl⟩ : (⟨e.id, e.status, some e.id⟩ : IngestResponse) = resp ∧ db = db' := by
      simpa using h.symm.trans he
    obtain ⟨hmem, hk⟩ := selectOne_mem hsha
    exact ⟨e, hmem, rfl, hk⟩
  · simp [h] at he
  · obtain ⟨rfl, rfl⟩ : (⟨rows.id, .ready, none⟩ : IngestResponse) = resp ∧ db'' = db' := by
      simpa using h.symm.trans he
    refine ⟨newDocument (sha256Hex data) filename collection rows, ?_, rfl, rfl⟩
    rw [hdocs]
    exact List.mem_append_right _ (List.mem_singleton.mpr rfl)

theorem ingestBytes_error {exc : PyError}
    (he : ingestBytes sha256Hex floor work data filename collection db = (.error exc, db')) :
    ∀ doc ∈ db.documents, doc.sha256 ≠ sha256Hex data := by
  rcases ingestBytes_cases sha256Hex floor work data filename collection db with
    ⟨e, hsha, h⟩ | ⟨hsha, _⟩ | ⟨hsha, _⟩
  · simp [h] at he
  · exact selectOne_eq_none.mp hsha
  · exact selectOne_eq_none.mp hsha

end Ingest

/-- What an outcome says, between the states `db` and `db'`. -/
def ObjectOutcome.Holds (sha256Hex : Bytes → String) (env : SyncEnv) (obj : RemoteObject) (db db' : Db) :
    ObjectOutcome → Prop
  | .skipped _ => eligible env.settings obj = false
  | .error _ => eligible env.settings obj = true ∧
      ∀ data, env.fetch obj = .ok data → ∀ doc ∈ db.documents, doc.sha256 ≠ sha256Hex data
  | .synced d => eligible env.settings obj = true ∧ ∃ data, env.fetch obj = .ok data ∧
      ∃ doc ∈ db'.documents, doc.id = d ∧ doc.sha256 = sha256Hex data

theorem ObjectOutcome.Holds.mono {sha256Hex : Bytes → String} {env : SyncEnv} {obj : RemoteObject}
    {a b b' e : Db} {o : ObjectOutcome} (h : o.Holds sha256Hex env obj b b')
    (hab : ∀ doc ∈ a.documents, doc ∈ b.documents) (hbe : ∀ doc ∈ b'.documents, doc ∈ e.documents) :
    o.Holds sha256Hex env obj a e := by
  cases o with
  | skipped why => exact h
  | error exc =>
    obtain ⟨hel, hall⟩ := h
    exact ⟨hel, fun data hf doc hdoc => hall data hf doc (hab doc hdoc)⟩
  | synced d =>
    obtain ⟨hel, data, hf, doc, hdoc, hid⟩ := h
    exact ⟨hel, data, hf, doc, hbe doc hdoc, hid⟩

section Run

variable {sha256Hex : Bytes → String} {env : SyncEnv} {c : Uuid} {collection : String}

variable (sha256Hex env collection) in
theorem ingestObject_cases (obj : RemoteObject) (data : Bytes) (db : Db) :
    ingestObject sha256Hex env collection obj data db = ingestBytes sha256Hex env.settings.ruleSimilarityFloor
      (env.work obj) data (keyFilename obj.key) collection db ∨
    (ingestObject sha256Hex env collection obj data db).2 = db ∧ env.checkFails obj = true ∧
      db.documentBySha? (sha256Hex data) = none ∧ ∃ rows, env.work obj = .ok rows ∧ db.document? rows.id = none ∧
      (ingestObject sha256Hex env collection obj data db).1 = .ok ⟨rows.id, .ready, none⟩ := by
  unfold ingestObject
  cases hfails : env.checkFails obj with
  | false => exact Or.inl rfl
  | true =>
    rcases ingestBytes_cases sha256Hex env.settings.ruleSimilarityFloor (env.work obj) data (keyFilename obj.key)
      collection db with ⟨e, _, he⟩ | ⟨_, exc, he⟩ | ⟨hsha, rows, hwork, hid, db', he, _⟩
    · simp [he]
    · simp [he]
    · exact Or.inr ⟨by simp [he], rfl, hsha, rows, hwork, hid, by simp [he]⟩

variable (sha256Hex env collection) in
theorem attemptObject_frame (touched : ConnectorItem → Prop) (obj : RemoteObject) {db : Db} (h : db.CorpusOk) :
    CorpusFrame touched db (attemptObject sha256Hex env collection obj db).2 := by
  unfold attemptObject
  split
  · exact .refl h
  · split
    · exact .refl h
    · split
      · exact .refl h
      · rename_i data _
        have hframe : CorpusFrame touched db (ingestObject sha256Hex env collection obj data db).2 := by
          rcases ingestObject_cases sha256Hex env collection obj data db with he | ⟨he, _⟩
          · rw [he]
            exact ingestBytes_frame sha256Hex env.settings.ruleSimilarityFloor (env.work obj) data
              (keyFilename obj.key) collection touched h
          · rw [he]
            exact .refl h
        split
        · rename_i he
          rwa [he] at hframe
        · rename_i he
          rwa [he] at hframe

theorem attemptObject_holds {obj : RemoteObject} {db : Db}
    (hlinked : ∀ d, (attemptObject sha256Hex env collection obj db).1.docId = some d →
      ∃ doc ∈ (attemptObject sha256Hex env collection obj db).2.documents, doc.id = d) :
    (attemptObject sha256Hex env collection obj db).1.Holds sha256Hex env obj db
      (attemptObject sha256Hex env collection obj db).2 := by
  unfold attemptObject at hlinked ⊢
  cases hsuf : hasAllowedSuffix obj.key with
  | false => simp [ObjectOutcome.Holds, eligible, hsuf]
  | true =>
    by_cases hsize : env.settings.maxUploadBytes < obj.size
    · simp [ObjectOutcome.Holds, eligible, hsize]
    · have hel : eligible env.settings obj = true := by simp [eligible, hsuf]; omega
      simp only [hsuf, Bool.not_true, Bool.false_eq_true, ↓reduceIte, hsize] at hlinked ⊢
      cases hf : env.fetch obj with
      | error exc => simp [ObjectOutcome.Holds, hel, hf]
      | ok data =>
        simp only [hf] at hlinked ⊢
        rcases ingestObject_cases sha256Hex env collection obj data db with he | ⟨hdb, _, _, rows, _, hid, hresp⟩
        · rw [he]
          generalize hrun : ingestBytes sha256Hex env.settings.ruleSimilarityFloor (env.work obj) data
            (keyFilename obj.key) collection db = r
          obtain ⟨res, db'⟩ := r
          cases res with
          | error exc =>
            refine ⟨hel, ?_⟩
            intro data' hf' doc hdoc
            obtain rfl : data = data' := by simpa [hf] using hf'
            exact ingestBytes_error hrun doc hdoc
          | ok resp => exact ⟨hel, data, hf, ingestBytes_ok hrun⟩
        · -- the row of a lost document would have no document to link
          have hrun : ingestObject sha256Hex env collection obj data db = (.ok ⟨rows.id, .ready, none⟩, db) :=
            Prod.ext hresp hdb
          rw [hrun] at hlinked
          obtain ⟨doc, hdoc, hdocId⟩ := hlinked rows.id rfl
          exact absurd hdocId (selectOne_eq_none.mp hid doc hdoc)

theorem processObject_eq_ok {obj : RemoteObject} {db db' : Db} {o : ObjectOutcome} :
    processObject sha256Hex env c collection obj db = (.ok o, db') ↔
      env.refused obj = none ∧ (attemptObject sha256Hex env collection obj db).1 = o ∧
        upsertItem c obj.key obj (env.seenAt obj.key) o.status o.docId o.errorText
          (attemptObject sha256Hex env collection obj db).2 = .ok db' := by
  unfold processObject
  constructor
  · intro he
    dsimp only at he
    split at he
    · cases he
    · cases he
    · rename_i hrefused
      split at he
      · cases he
      · rename_i db1 hup
        obtain ⟨ho, rfl⟩ := Prod.mk.inj he
        obtain rfl := Except.ok.inj ho
        exact ⟨hrefused, rfl, hup⟩
  · rintro ⟨hrefused, rfl, hup⟩
    simp only [hrefused, hup]

theorem processObjects_eq_ok {remote : List RemoteObject} {db db' : Db} {report : SyncReport} :
    processObjects sha256Hex env c collection remote db = (.ok report, db') ↔
      ∃ db1, processLoop sha256Hex env c collection (attempts c remote db) {} db = (.ok report, db1) ∧
        db' = touchUnchanged env c (diffObjects remote (db.knownIdentity c)).unchanged db1 := by
  unfold processObjects
  constructor
  · intro he
    split at he
    · cases he
    · rename_i report1 db1 hloop
      obtain ⟨hr, rfl⟩ := Prod.mk.inj he
      obtain rfl := Except.ok.inj hr
      exact ⟨db1, hloop, rfl⟩
  · rintro ⟨db1, hloop, rfl⟩
    rw [hloop]

/-- The items one connector has under the keys of the given objects. -/
def itemsAt (c : Uuid) (objs : List RemoteObject) (i : ConnectorItem) : Prop :=
  i.connectorId = c ∧ i.externalId ∈ objs.map RemoteObject.key

theorem upsertItem_eq_ok {key : String} {obj : RemoteObject} {seenAt : Timestamp} {status : ItemStatus}
    {docId : Option Uuid} {error : Option String} {db db' : Db} :
    upsertItem c key obj seenAt status docId error db = .ok db' ↔
      (recordable obj = true ∧ error.all pgText = true ∧ ∀ d, docId = some d → ∃ doc ∈ db.documents, doc.id = d) ∧
      db' = { db with
        connectorItems := upsert ConnectorItem.key
          ⟨c, key, some obj.etag, some obj.size, some obj.lastModified, docId, some seenAt, status, error⟩
          db.connectorItems } := by
  have hlinked : (docId.any fun d => (db.document? d).isNone) = false ↔
      ∀ d, docId = some d → ∃ doc ∈ db.documents, doc.id = d := by
    cases docId with
    | none => simp
    | some d =>
      have hnone : db.document? d = none ↔ ∀ doc ∈ db.documents, doc.id ≠ d := selectOne_eq_none
      rw [Option.any_some, ← Bool.not_eq_true, Option.isNone_iff_eq_none, hnone]
      simp
  unfold upsertItem
  rw [← hlinked]
  cases hrecordable : recordable obj && error.all pgText with
  | false =>
    simp only [Bool.and_eq_false_iff] at hrecordable
    simp only [if_true, reduceCtorEq, false_iff]
    rintro ⟨⟨hobj, herror, _⟩, _⟩
    simp [hobj, herror] at hrecordable
  | true =>
    rw [Bool.and_eq_true] at hrecordable
    cases hany : docId.any fun d => (db.document? d).isNone with
    | false => simp [hrecordable, eq_comm]
    | true => simp

theorem upsertItem_ok {obj : RemoteObject} {seenAt : Timestamp} {o : ObjectOutcome} {db db' : Db}
    (h : db.CorpusOk) (he : upsertItem c obj.key obj seenAt o.status o.docId o.errorText db = .ok db') :
    CorpusFrame (itemsAt c [obj]) db db' ∧ settledItem c obj seenAt o ∈ db'.connectorItems := by
  obtain ⟨⟨_, _, hdoc⟩, rfl⟩ := upsertItem_eq_ok.mp he
  have hmem : ∀ i, i ∈ upsert ConnectorItem.key (settledItem c obj seenAt o) db.connectorItems ↔
      i = settledItem c obj seenAt o ∨ (i ∈ db.connectorItems ∧ i.key ≠ (settledItem c obj seenAt o).key) :=
    fun i => mem_upsert
  refine ⟨⟨⟨h.docId, h.docSha, h.itemKey.upsert _, ?_⟩, fun _ hmemdoc => hmemdoc, ?_⟩, (hmem _).mpr (Or.inl rfl)⟩
  · intro i hi d hd
    rcases (hmem i).mp hi with rfl | ⟨hi, _⟩
    · exact hdoc d hd
    · exact h.itemDoc i hi d hd
  · intro i hi
    have hk : i.key ≠ (settledItem c obj seenAt o).key := by
      intro hk
      apply hi
      have h1 : i.connectorId = c := congrArg Prod.fst hk
      have h2 : i.externalId = obj.key := congrArg Prod.snd hk
      exact ⟨h1, by simp [h2]⟩
    constructor
    · intro hi'
      rcases (hmem i).mp hi' with rfl | ⟨hi', _⟩
      · exact absurd rfl hk
      · exact hi'
    · exact fun hi' => (hmem i).mpr (Or.inr ⟨hi', hk⟩)

/-- An object settled with outcome `o` somewhere between `db` and `db'`, and its item in `db'`. -/
structure Settled (sha256Hex : Bytes → String) (env : SyncEnv) (c : Uuid) (obj : RemoteObject) (db db' : Db)
    (o : ObjectOutcome) : Prop where
  holds : o.Holds sha256Hex env obj db db'
  item : settledItem c obj (env.seenAt obj.key) o ∈ db'.connectorItems

theorem processObject_error {obj : RemoteObject} {db db' : Db} {exc : PyError} (h : db.CorpusOk)
    (he : processObject sha256Hex env c collection obj db = (.error exc, db')) :
    CorpusFrame (fun _ => False) db db' := by
  have hframe := attemptObject_frame sha256Hex env collection (fun _ => False) obj h
  simp only [processObject] at he
  split at he
  · obtain ⟨_, rfl⟩ := Prod.mk.inj he
    exact .refl h
  · obtain ⟨_, rfl⟩ := Prod.mk.inj he
    exact hframe
  · split at he
    · obtain ⟨_, rfl⟩ := Prod.mk.inj he
      exact hframe
    · cases he

theorem processObject_ok {obj : RemoteObject} {db db' : Db} {o : ObjectOutcome} (h : db.CorpusOk)
    (he : processObject sha256Hex env c collection obj db = (.ok o, db')) :
    CorpusFrame (itemsAt c [obj]) db db' ∧ Settled sha256Hex env c obj db db' o := by
  have hframe := attemptObject_frame sha256Hex env collection (itemsAt c [obj]) obj h
  obtain ⟨_, rfl, hup⟩ := processObject_eq_ok.mp he
  have hholds := attemptObject_holds (upsertItem_eq_ok.mp hup).1.2.2
  obtain ⟨hframe', hitem⟩ := upsertItem_ok hframe.ok hup
  refine ⟨hframe.trans hframe', ?_, hitem⟩
  exact hholds.mono (fun _ hd => hd) hframe'.documents

theorem Settled.before {obj : RemoteObject} {touched : ConnectorItem → Prop} {a b e : Db}
    {o : ObjectOutcome} (h : Settled sha256Hex env c obj b e o) (hab : CorpusFrame touched a b) :
    Settled sha256Hex env c obj a e o :=
  ⟨h.holds.mono hab.documents fun _ hd => hd, h.item⟩

theorem Settled.after {obj : RemoteObject} {objs : List RemoteObject} {a b e : Db} {o : ObjectOutcome}
    (h : Settled sha256Hex env c obj a b o) (hbe : CorpusFrame (itemsAt c objs) b e)
    (hkey : obj.key ∉ objs.map RemoteObject.key) : Settled sha256Hex env c obj a e o := by
  refine ⟨h.holds.mono (fun _ hd => hd) hbe.documents, (hbe.items _ ?_).mpr h.item⟩
  intro hi
  exact hkey hi.2

theorem count_errors_le (report : SyncReport) (isNew : Bool) (o : ObjectOutcome) :
    report.errors ≤ (report.count isNew o).errors := by
  cases o with
  | skipped why => exact Nat.le_refl _
  | error exc => exact Nat.le_succ _
  | synced d => cases isNew <;> exact Nat.le_refl _

theorem processLoop_frame {as : List (RemoteObject × Bool)} {report : SyncReport} {db db' : Db}
    {r : Except PyError SyncReport} (h : db.CorpusOk)
    (he : processLoop sha256Hex env c collection as report db = (r, db')) :
    CorpusFrame (itemsAt c (as.map Prod.fst)) db db' := by
  induction as generalizing report db with
  | nil =>
    obtain ⟨_, rfl⟩ := Prod.mk.inj he
    exact .refl h
  | cons a rest ih =>
    obtain ⟨obj, isNew⟩ := a
    have hhead : ∀ i, itemsAt c [obj] i → itemsAt c (((obj, isNew) :: rest).map Prod.fst) i := by
      intro i hi
      exact ⟨hi.1, by simpa using Or.inl (by simpa using hi.2)⟩
    have htail : ∀ i, itemsAt c (rest.map Prod.fst) i →
        itemsAt c (((obj, isNew) :: rest).map Prod.fst) i := by
      intro i hi
      exact ⟨hi.1, List.mem_cons_of_mem _ hi.2⟩
    simp only [processLoop] at he
    split at he
    · rename_i exc db1 hobj
      obtain ⟨_, rfl⟩ := Prod.mk.inj he
      exact (processObject_error h hobj).mono fun _ => False.elim
    · rename_i o db1 hobj
      obtain ⟨hframe, _⟩ := processObject_ok h hobj
      exact (hframe.mono hhead).trans ((ih hframe.ok he).mono htail)

theorem processLoop_head {obj : RemoteObject} {isNew : Bool} {rest : List (RemoteObject × Bool)}
    {report report' : SyncReport} {db db' : Db} (h : db.CorpusOk)
    (hkeys : (((obj, isNew) :: rest).map fun a => a.1.key).Nodup)
    (he : processLoop sha256Hex env c collection ((obj, isNew) :: rest) report db = (.ok report', db')) :
    ∃ o db1, processObject sha256Hex env c collection obj db = (.ok o, db1) ∧ CorpusFrame (itemsAt c [obj]) db db1 ∧
      Settled sha256Hex env c obj db db' o ∧ (rest.map fun a => a.1.key).Nodup ∧
      processLoop sha256Hex env c collection rest (report.count isNew o) db1 = (.ok report', db') := by
  obtain ⟨hnotin, hnodup⟩ := List.nodup_cons.mp hkeys
  simp only [processLoop] at he
  split at he
  · cases he
  · rename_i o db1 hobj
    obtain ⟨hframe, hset⟩ := processObject_ok h hobj
    have hkey : obj.key ∉ (rest.map Prod.fst).map RemoteObject.key := by
      simpa [List.map_map, Function.comp_def] using hnotin
    exact ⟨o, db1, hobj, hframe, hset.after (processLoop_frame hframe.ok he) hkey, hnodup, he⟩

theorem processLoop_ok {as : List (RemoteObject × Bool)} {report report' : SyncReport} {db db' : Db}
    (h : db.CorpusOk) (hkeys : (as.map fun a => a.1.key).Nodup)
    (he : processLoop sha256Hex env c collection as report db = (.ok report', db')) :
    report.errors ≤ report'.errors ∧ ∀ a ∈ as, ∃ o, Settled sha256Hex env c a.1 db db' o ∧
      ((∃ exc, o = .error exc) → report.errors < report'.errors) := by
  induction as generalizing report db with
  | nil =>
    obtain ⟨hr, rfl⟩ := Prod.mk.inj he
    obtain rfl := Except.ok.inj hr
    simp
  | cons a rest ih =>
    obtain ⟨obj, isNew⟩ := a
    obtain ⟨o, db1, _, hframe, hset, hnodup, hrest⟩ := processLoop_head h hkeys he
    obtain ⟨hle, hall⟩ := ih hframe.ok hnodup hrest
    have hcount := count_errors_le report isNew o
    refine ⟨by omega, ?_⟩
    intro a ha
    rcases List.mem_cons.mp ha with rfl | ha
    · refine ⟨o, hset, ?_⟩
      rintro ⟨exc, rfl⟩
      have : (report.count isNew (.error exc)).errors = report.errors + 1 := rfl
      omega
    · obtain ⟨o', hset', herr⟩ := hall a ha
      refine ⟨o', hset'.before hframe, ?_⟩
      intro hexc
      have := herr hexc
      omega

def Db.docKeys (db : Db) : List (String × Uuid) := db.documents.map fun d => (d.sha256, d.id)

def digestKnown (known : List (String × Uuid)) (digest : String) : Bool := known.any fun k => k.1 = digest

def idKnown (known : List (String × Uuid)) (d : Uuid) : Bool := known.any fun k => k.2 = d

variable (sha256Hex env) in
/-- The digest and the id of the document that an object's turn stores, by those of the documents before it. -/
def storedKey? (obj : RemoteObject) (known : List (String × Uuid)) : Option (String × Uuid) :=
  if eligible env.settings obj then
    match env.fetch obj, env.work obj with
    | .ok data, .ok rows =>
      if digestKnown known (sha256Hex data) || idKnown known rows.id || env.checkFails obj then none
      else some (sha256Hex data, rows.id)
    | _, _ => none
  else none

variable (sha256Hex env) in
/-- The row of an object can be written in its turn: no refused statement aborts the transaction, its columns take it, the
text of an exception has no NUL, and no rule check is refused for bytes that are new. -/
def turnRecorded (obj : RemoteObject) (known : List (String × Uuid)) : Bool :=
  (env.refused obj).isNone && (recordable obj && (!eligible env.settings obj ||
    match env.fetch obj with
    | .error exc => pgText (safeError exc)
    | .ok data => digestKnown known (sha256Hex data) ||
      match env.work obj with
      | .error exc => pgText (safeError exc)
      | .ok rows => idKnown known rows.id || !env.checkFails obj))

variable (sha256Hex env) in
/-- The objects of a loop, each with the digests and the ids of the documents in its turn. -/
def turns : List RemoteObject → List (String × Uuid) → List (RemoteObject × List (String × Uuid))
  | [], _ => []
  | obj :: rest, known => (obj, known) :: turns rest (known ++ (storedKey? sha256Hex env obj known).toList)

theorem digestKnown_docKeys {db : Db} {digest : String} :
    digestKnown db.docKeys digest = (db.documentBySha? digest).isSome := by
  rw [Bool.eq_iff_iff, Option.isSome_iff_ne_none, Ne, Db.documentBySha?, selectOne_eq_none]
  simp [digestKnown, Db.docKeys, List.any_eq_true]

theorem idKnown_docKeys {db : Db} {d : Uuid} : idKnown db.docKeys d = (db.document? d).isSome := by
  rw [Bool.eq_iff_iff, Option.isSome_iff_ne_none, Ne, Db.document?, selectOne_eq_none]
  simp [idKnown, Db.docKeys, List.any_eq_true]

def ObjectOutcome.recorded (o : ObjectOutcome) (obj : RemoteObject) (db : Db) : Bool :=
  recordable obj && o.errorText.all pgText && o.docId.all fun d => idKnown db.docKeys d

section Recorded

variable {obj : RemoteObject} {db : Db}

@[simp] theorem recorded_skipped {why : String} :
    (ObjectOutcome.skipped why).recorded obj db = (recordable obj && pgText why) := by
  simp [ObjectOutcome.recorded, ObjectOutcome.errorText, ObjectOutcome.docId]

@[simp] theorem recorded_error {exc : PyError} :
    (ObjectOutcome.error exc).recorded obj db = (recordable obj && pgText (safeError exc)) := by
  simp [ObjectOutcome.recorded, ObjectOutcome.errorText, ObjectOutcome.docId]

@[simp] theorem recorded_synced {d : Uuid} :
    (ObjectOutcome.synced d).recorded obj db = (recordable obj && idKnown db.docKeys d) := by
  simp [ObjectOutcome.recorded, ObjectOutcome.errorText, ObjectOutcome.docId]

end Recorded

theorem upsertItem_recorded {obj : RemoteObject} {seenAt : Timestamp} {o : ObjectOutcome} {db : Db} :
    (∃ db', upsertItem c obj.key obj seenAt o.status o.docId o.errorText db = .ok db') ↔ o.recorded obj db = true := by
  simp only [upsertItem_eq_ok, ObjectOutcome.recorded, Bool.and_eq_true, and_assoc]
  cases o.docId with
  | none => simp
  | some d => simp [idKnown, Db.docKeys]

section Turn

variable {obj : RemoteObject} {data : Bytes} {db : Db}

theorem ingestObject_known {e : Document} (hsha : db.documentBySha? (sha256Hex data) = some e) :
    ingestObject sha256Hex env collection obj data db = (.ok ⟨e.id, e.status, some e.id⟩, db) := by
  simp [ingestObject, ingestBytes, hsha]

theorem ingestObject_error {exc : PyError} (hsha : db.documentBySha? (sha256Hex data) = none)
    (hwork : env.work obj = .error exc) : ingestObject sha256Hex env collection obj data db = (.error exc, db) := by
  simp [ingestObject, ingestBytes, hsha, hwork]

theorem ingestObject_taken {rows : IngestRows} {doc : Document} (hsha : db.documentBySha? (sha256Hex data) = none)
    (hwork : env.work obj = .ok rows) (hid : db.document? rows.id = some doc) :
    ingestObject sha256Hex env collection obj data db = (.error ⟨"IntegrityError", "documents_pkey"⟩, db) := by
  simp [ingestObject, ingestBytes, hsha, hwork, hid]

/-- New bytes are answered `ready`, and stored unless the rule check is refused. -/
theorem ingestObject_new {rows : IngestRows} (hsha : db.documentBySha? (sha256Hex data) = none)
    (hwork : env.work obj = .ok rows) (hid : db.document? rows.id = none) :
    ∃ db1, ingestObject sha256Hex env collection obj data db = (.ok ⟨rows.id, .ready, none⟩, db1) ∧
      db1.docKeys = db.docKeys ++ if env.checkFails obj then [] else [(sha256Hex data, rows.id)] := by
  cases hfails : env.checkFails obj with
  | true => exact ⟨db, by simp [ingestObject, ingestBytes, hsha, hwork, hid, hfails], by simp⟩
  | false =>
    refine ⟨_, by simp only [ingestObject, ingestBytes, hsha, hwork, hid, hfails]; rfl, ?_⟩
    rw [applyConfirmedRules_frame]
    simp [Db.docKeys, Db.storeDocument, newDocument]

variable (sha256Hex env collection obj db) in
theorem attemptObject_turn : ∃ o db1, attemptObject sha256Hex env collection obj db = (o, db1) ∧
    ((env.refused obj).isNone && o.recorded obj db1) = turnRecorded sha256Hex env obj db.docKeys ∧
    db1.docKeys = db.docKeys ++ (storedKey? sha256Hex env obj db.docKeys).toList := by
  unfold attemptObject turnRecorded storedKey?
  cases hsuffix : hasAllowedSuffix obj.key with
  | false =>
    have htext : pgText "unsupported file type" = true := by decide
    simp [eligible, hsuffix, htext]
  | true =>
    by_cases hsize : env.settings.maxUploadBytes < obj.size
    · have htext : pgText "exceeds max_upload_bytes" = true := by decide
      have hbig : ¬ obj.size ≤ env.settings.maxUploadBytes := by omega
      simp [eligible, hsuffix, hsize, hbig, htext]
    · have heligible : eligible env.settings obj = true := by
        simp [eligible, hsuffix]
        omega
      cases hfetch : env.fetch obj with
      | error exc =>
        simp [heligible, hsize]
      | ok data =>
        simp only [heligible, hsize, Bool.not_true, Bool.false_eq_true, if_true, if_false, Bool.false_or]
        cases hsha : db.documentBySha? (sha256Hex data) with
        | some e =>
          have hid : (db.document? e.id).isSome = true := by
            rw [← idKnown_docKeys, idKnown, Db.docKeys, List.any_map, List.any_eq_true]
            exact ⟨e, (selectOne_mem hsha).1, by simp⟩
          rw [ingestObject_known hsha]
          refine ⟨_, _, rfl, ?_, ?_⟩
          · simp [digestKnown_docKeys, hsha, idKnown_docKeys, hid]
          · cases env.work obj with
            | error exc => simp
            | ok rows => simp [digestKnown_docKeys, hsha]
        | none =>
          cases hwork : env.work obj with
          | error exc =>
            rw [ingestObject_error hsha hwork]
            simp [digestKnown_docKeys, hsha]
          | ok rows =>
            cases hid : db.document? rows.id with
            | some doc =>
              have htext : pgText (safeError ⟨"IntegrityError", "documents_pkey"⟩) = true := by decide
              rw [ingestObject_taken hsha hwork hid]
              simp [digestKnown_docKeys, idKnown_docKeys, hsha, hid, htext]
            | none =>
              obtain ⟨db1, hrun, hkeys⟩ := @ingestObject_new sha256Hex env collection obj data db rows hsha hwork hid
              have hold : idKnown db.docKeys rows.id = false := by rw [idKnown_docKeys, hid]; rfl
              have hnew : digestKnown db.docKeys (sha256Hex data) = false := by rw [digestKnown_docKeys, hsha]; rfl
              have hknown : idKnown db1.docKeys rows.id = !env.checkFails obj := by
                rw [hkeys, idKnown, List.any_append, ← idKnown, hold]
                cases env.checkFails obj <;> simp
              rw [hrun]
              refine ⟨_, _, rfl, ?_, ?_⟩
              · simp [hnew, hold, hknown]
              · rw [hkeys]
                cases env.checkFails obj <;> simp [hnew, hold]

variable (sha256Hex env c collection obj db) in
theorem processObject_turn :
    (turnRecorded sha256Hex env obj db.docKeys = true ∧ ∃ o db', processObject sha256Hex env c collection obj db = (.ok o, db') ∧
      db'.docKeys = db.docKeys ++ (storedKey? sha256Hex env obj db.docKeys).toList) ∨
    (turnRecorded sha256Hex env obj db.docKeys = false ∧
      ∃ exc db', processObject sha256Hex env c collection obj db = (.error exc, db')) := by
  obtain ⟨o, db1, ha, hrecorded, hkeys⟩ := attemptObject_turn sha256Hex env collection obj db
  unfold processObject
  simp only [ha]
  rw [← hrecorded, ← hkeys]
  cases hrefused : env.refused obj with
  | some refusal => cases refusal <;> simp
  | none =>
    simp only [Option.isNone_none, Bool.true_and]
    cases hup : upsertItem c obj.key obj (env.seenAt obj.key) o.status o.docId o.errorText db1 with
    | ok db' =>
      obtain ⟨_, hdb'⟩ := upsertItem_eq_ok.mp hup
      refine Or.inl ⟨upsertItem_recorded.mp ⟨db', hup⟩, o, db', rfl, ?_⟩
      rw [hdb']
      rfl
    | error exc =>
      refine Or.inr ⟨?_, exc, db1, rfl⟩
      by_contra hwrites
      obtain ⟨db', hok⟩ := upsertItem_recorded.mpr (Bool.not_eq_false _ ▸ hwrites)
      cases hup.symm.trans hok

end Turn

variable (sha256Hex env c collection) in
/-- The loop ends exactly when the row of every turn can be written. -/
theorem processLoop_returns_iff (as : List (RemoteObject × Bool)) (report : SyncReport) (db : Db) :
    (∃ report' db', processLoop sha256Hex env c collection as report db = (.ok report', db')) ↔
      ∀ t ∈ turns sha256Hex env (as.map Prod.fst) db.docKeys, turnRecorded sha256Hex env t.1 t.2 = true := by
  induction as generalizing report db with
  | nil => simp [processLoop, turns]
  | cons a rest ih =>
    obtain ⟨obj, isNew⟩ := a
    simp only [processLoop, List.map_cons, turns, List.forall_mem_cons]
    rcases processObject_turn sha256Hex env c collection obj db with ⟨hrow, o, db', hobj, hkeys⟩ | ⟨hrow, exc, db', hobj⟩
    · rw [hobj, ← hkeys, ← ih (report.count isNew o) db']
      simp [hrow]
    · simp [hobj, hrow]

/-- The objects a run tries to fetch or skips: the new and the changed ones. -/
def Attempted (c : Uuid) (db : Db) (remote : List RemoteObject) (obj : RemoteObject) : Prop :=
  obj ∈ remote ∧ classify (db.knownIdentity c) obj ≠ .unchanged

def PassedOver (c : Uuid) (db : Db) (remote : List RemoteObject) (obj : RemoteObject) : Prop :=
  obj ∈ remote ∧ classify (db.knownIdentity c) obj = .unchanged

theorem mem_attempts {db : Db} {remote : List RemoteObject} {obj : RemoteObject} :
    (∃ a ∈ attempts c remote db, a.1 = obj) ↔ Attempted c db remote obj := by
  constructor
  · rintro ⟨a, ha, rfl⟩
    rcases List.mem_append.mp ha with ha | ha
    · obtain ⟨o, ho, rfl⟩ := List.mem_map.mp ha
      have hcls := (List.mem_filter.mp ho).2
      exact ⟨(List.mem_filter.mp ho).1, by simp only [decide_eq_true_eq] at hcls; simp [hcls]⟩
    · obtain ⟨o, ho, rfl⟩ := List.mem_map.mp ha
      have hcls := (List.mem_filter.mp ho).2
      exact ⟨(List.mem_filter.mp ho).1, by simp only [decide_eq_true_eq] at hcls; simp [hcls]⟩
  · rintro ⟨hmem, hcls⟩
    cases h : classify (db.knownIdentity c) obj with
    | new => exact ⟨(obj, true), by simp [attempts, diffObjects, hmem, h], rfl⟩
    | changed => exact ⟨(obj, false), by simp [attempts, diffObjects, hmem, h], rfl⟩
    | unchanged => exact absurd h hcls

theorem nodup_attempts {db : Db} {remote : List RemoteObject} (hkeys : (remote.map RemoteObject.key).Nodup) :
    ((attempts c remote db).map fun a => a.1.key).Nodup := by
  have hsub : ∀ p : RemoteObject → Bool, ((remote.filter p).map RemoteObject.key).Nodup := fun p =>
    hkeys.sublist (List.filter_sublist.map _)
  simp only [attempts, diffObjects, List.map_append, List.map_map, Function.comp_def]
  rw [List.nodup_append]
  refine ⟨hsub _, hsub _, ?_⟩
  intro k hk k' hk' heq
  obtain ⟨o, ho, rfl⟩ := List.mem_map.mp hk
  obtain ⟨o', ho', rfl⟩ := List.mem_map.mp hk'
  obtain ⟨ho, hnew⟩ := List.mem_filter.mp ho
  obtain ⟨ho', hchanged⟩ := List.mem_filter.mp ho'
  obtain rfl : o = o' := List.inj_on_of_nodup_map hkeys ho ho' heq
  simp only [decide_eq_true_eq] at hnew hchanged
  rw [hnew] at hchanged
  cases hchanged

theorem passedOver_item {db : Db} {remote : List RemoteObject} {obj : RemoteObject}
    (hp : PassedOver c db remote obj) :
    ∃ i ∈ db.connectorItems, i.key = (c, obj.key) ∧ i.etag = some obj.etag ∧ i.size = some obj.size := by
  obtain ⟨_, hcls⟩ := hp
  unfold classify Db.knownIdentity at hcls
  cases hsel : selectOne ConnectorItem.key (c, obj.key) db.connectorItems with
  | none => simp [hsel] at hcls
  | some i =>
    obtain ⟨hi, hk⟩ := selectOne_mem hsel
    have hid : (i.etag, i.size) = (some obj.etag, some obj.size) := by
      by_contra hne
      simp [hsel, hne] at hcls
    exact ⟨i, hi, hk, congrArg Prod.fst hid, congrArg Prod.snd hid⟩

theorem touchUnchanged_ok {keys : List String} {db : Db} (h : db.CorpusOk) :
    (touchUnchanged env c keys db).CorpusOk := by
  refine ⟨h.docId, h.docSha, h.itemKey.updateWhere fun i _ => rfl, ?_⟩
  intro i hi d hd
  obtain ⟨j, hj, rfl⟩ := mem_updateWhere.mp hi
  refine h.itemDoc j hj d ?_
  split at hd <;> exact hd

/-- The result of a run over a listing that did not raise. -/
structure ListingSettled (sha256Hex : Bytes → String) (env : SyncEnv) (c : Uuid) (remote : List RemoteObject)
    (report : SyncReport) (db db' : Db) : Prop where
  frame : CorpusFrame (itemsAt c remote) db db'
  attempted : ∀ obj, Attempted c db remote obj → ∃ o, Settled sha256Hex env c obj db db' o ∧
    ((∃ exc, o = .error exc) → 0 < report.errors)
  passedOver : ∀ obj, PassedOver c db remote obj → ∃ i ∈ db.connectorItems, i.key = (c, obj.key) ∧
    i.etag = some obj.etag ∧ i.size = some obj.size ∧
    { i with lastSeenAt := some env.touchedAt } ∈ db'.connectorItems

theorem itemsAt_attempts {remote : List RemoteObject} {db : Db} {i : ConnectorItem}
    (hi : itemsAt c ((attempts c remote db).map Prod.fst) i) : itemsAt c remote i := by
  obtain ⟨hc, hkey⟩ := hi
  obtain ⟨o, ho, hok⟩ := List.mem_map.mp hkey
  obtain ⟨a, ha, rfl⟩ := List.mem_map.mp ho
  exact ⟨hc, List.mem_map.mpr ⟨a.1, (mem_attempts.mp ⟨a, ha, rfl⟩).1, hok⟩⟩

theorem processObjects_frame {remote : List RemoteObject} {db db' : Db} {r : Except PyError SyncReport}
    (h : db.CorpusOk) (he : processObjects sha256Hex env c collection remote db = (r, db')) :
    CorpusFrame (itemsAt c remote) db db' := by
  unfold processObjects at he
  split at he
  · rename_i exc db1 hloop
    obtain ⟨_, rfl⟩ := Prod.mk.inj he
    exact (processLoop_frame h hloop).mono fun i hi => itemsAt_attempts hi
  · rename_i report db1 hloop
    obtain ⟨_, rfl⟩ := Prod.mk.inj he
    have hframe := processLoop_frame h hloop
    have htouch : CorpusFrame (itemsAt c remote) db1
        (touchUnchanged env c (diffObjects remote (db.knownIdentity c)).unchanged db1) := by
      refine ⟨touchUnchanged_ok hframe.ok, fun _ hd => hd, ?_⟩
      intro i hi
      have hkey : ∀ j : ConnectorItem, j.connectorId = c →
          j.externalId ∈ (diffObjects remote (db.knownIdentity c)).unchanged → itemsAt c remote j := by
        intro j hc hk
        obtain ⟨o, ho, hok⟩ := List.mem_map.mp hk
        exact ⟨hc, List.mem_map.mpr ⟨o, (List.mem_filter.mp ho).1, hok⟩⟩
      simp only [touchUnchanged, mem_updateWhere, decide_eq_true_eq]
      constructor
      · rintro ⟨j, hj, rfl⟩
        split at hi
        · rename_i hcond
          exact absurd (hkey j hcond.1 hcond.2) hi
        · rename_i hcond
          rw [if_neg hcond]
          exact hj
      · intro hmem
        refine ⟨i, hmem, if_neg ?_⟩
        rintro ⟨hc, hk⟩
        exact hi (hkey i hc hk)
    exact (hframe.mono fun i hi => itemsAt_attempts hi).trans htouch

theorem processObjects_ok {remote : List RemoteObject} {db db' : Db} {report : SyncReport} (h : db.CorpusOk)
    (hkeys : (remote.map RemoteObject.key).Nodup)
    (he : processObjects sha256Hex env c collection remote db = (.ok report, db')) :
    ListingSettled sha256Hex env c remote report db db' := by
  have hframe := processObjects_frame h he
  obtain ⟨db1, hloop, rfl⟩ := processObjects_eq_ok.mp he
  refine ⟨hframe, ?_, ?_⟩
  · intro obj hatt
    obtain ⟨a, ha, rfl⟩ := mem_attempts.mpr hatt
    obtain ⟨_, hall⟩ := processLoop_ok h (nodup_attempts hkeys) hloop
    obtain ⟨o, hset, herr⟩ := hall a ha
    refine ⟨o, ⟨hset.holds.mono (fun _ hd => hd) fun _ hd => hd, ?_⟩, fun hexc => herr hexc⟩
    refine mem_updateWhere.mpr ⟨_, hset.item, if_neg ?_⟩
    simp only [decide_eq_true_eq]
    rintro ⟨_, hk⟩
    obtain ⟨o', ho', hok⟩ := List.mem_map.mp hk
    obtain ⟨hmem', hcls'⟩ := List.mem_filter.mp ho'
    obtain rfl : o' = a.1 := List.inj_on_of_nodup_map hkeys hmem' hatt.1 hok
    exact hatt.2 (by simpa using hcls')
  · intro obj hp
    obtain ⟨i, hi, hk, hetag, hsize⟩ := passedOver_item hp
    refine ⟨i, hi, hk, hetag, hsize, mem_updateWhere.mpr ⟨i, ?_, if_pos ?_⟩⟩
    · refine ((processLoop_frame h hloop).items i ?_).mpr hi
      rintro ⟨_, hkey⟩
      obtain ⟨o, ho, hok⟩ := List.mem_map.mp hkey
      obtain ⟨a, ha, rfl⟩ := List.mem_map.mp ho
      have hatt := mem_attempts.mp ⟨a, ha, rfl⟩
      have hke : i.externalId = obj.key := congrArg Prod.snd hk
      obtain rfl : a.1 = obj := List.inj_on_of_nodup_map hkeys hatt.1 hp.1 (hok.trans hke)
      exact hatt.2 hp.2
    · have hc : i.connectorId = c := congrArg Prod.fst hk
      have hke : i.externalId = obj.key := congrArg Prod.snd hk
      simp only [decide_eq_true_eq]
      refine ⟨hc, ?_⟩
      rw [hke]
      exact List.mem_map.mpr ⟨obj, List.mem_filter.mpr ⟨hp.1, by simp [hp.2]⟩, rfl⟩

variable (sha256Hex env c) in
/-- Every `_upsert_item` of a run over the listing succeeds. -/
def ItemWritesSucceed (remote : List RemoteObject) (db : Db) : Prop :=
  ∀ t ∈ turns sha256Hex env ((attempts c remote db).map Prod.fst) db.docKeys, turnRecorded sha256Hex env t.1 t.2 = true

instance (remote : List RemoteObject) (db : Db) : Decidable (ItemWritesSucceed sha256Hex env c remote db) :=
  inferInstanceAs (Decidable (∀ t ∈ turns sha256Hex env ((attempts c remote db).map Prod.fst) db.docKeys,
    turnRecorded sha256Hex env t.1 t.2 = true))

variable (sha256Hex env c collection) in
theorem processObjects_returns_iff (remote : List RemoteObject) (db : Db) :
    (∃ report db', processObjects sha256Hex env c collection remote db = (.ok report, db')) ↔
      ItemWritesSucceed sha256Hex env c remote db := by
  unfold ItemWritesSucceed
  rw [← processLoop_returns_iff sha256Hex env c collection _ {}]
  simp only [processObjects_eq_ok]
  constructor
  · intro ⟨report, _, db1, hloop, _⟩
    exact ⟨report, db1, hloop⟩
  · intro ⟨report, db1, hloop⟩
    exact ⟨report, _, db1, hloop, rfl⟩

end Run

end ProRag
