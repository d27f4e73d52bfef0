import ProRag.Admin.Rules
import ProRag.Ingest.Failure

/-!
# How an ingest ends

With nobody else about and the file of the digest in place: the new row is committed, the file is deleted, or all is
as it was.
-/

namespace ProRag

open Framework

def Parsed.discards (settings : Settings) : Parsed → Prop
  | .raised _ | .imageUnreadable => True
  | .contents _ _ prose tables => (prose = [] ∧ tables = []) ∨ settings.maxChunksPerDocument < prose.length
  | _ => False

section

variable (sha256Hex : Bytes → String) (settings : Settings) (faults : IngestFaults) (u : Upload) (parsed : Parsed)
  (db : Db) (blobs : Blobs)

/-- The `try` behind the flush raises what its handler catches, and no row is committed. -/
def StoreFails : Prop :=
  ∃ work c exc c', openIngest sha256Hex settings faults u parsed (Conn.fresh db blobs) = (.ok (.inr work), c) ∧
    ingestTry settings faults work c = (.error exc, c') ∧ exc.isException = true ∧
    c'.committed.documentBySha? (sha256Hex u.data) = none

/-- The call comes to one of its `delete_blob`. -/
def Discards : Prop :=
  faults.lookup = none ∧ (parsed.discards settings ∨
    StoreFails sha256Hex settings faults u parsed db blobs ∧ faults.recheck = none)

/-- Every statement of the `try` goes through, with these chunks, and its commit lands. -/
def Stores (chunks : List Chunk) : Prop :=
  ∃ work c c' embeddings, openIngest sha256Hex settings faults u parsed (Conn.fresh db blobs) = (.ok (.inr work), c) ∧
    storeContents settings faults work c = (.ok (), c') ∧ c'.state = .live ∧ faults.commit.lands = true ∧
    faults.embedded = .ok embeddings ∧
    newChunks work.doc.id work.prose (work.tables.flatMap ParsedTable.chunks) embeddings = .ok chunks

end

/-- One new row, with the grants of some rules. -/
structure StoredIn (doc : Document) (rules : List AccessRule) (db db' : Db) : Prop where
  new : db.document? doc.id = none
  documents : ∃ row, db'.documents = db.documents ++ [row] ∧ row.id = doc.id ∧ row.sha256 = doc.sha256 ∧
    row.blobPath = doc.blobPath
  kept : ∀ a ∈ db.documentAcl, a ∈ db'.documentAcl
  grants : ∀ a ∈ db'.documentAcl, a ∈ db.documentAcl ∨ ∃ r ∈ rules, a.docId = doc.id ∧ a.principalType = .group ∧
    a.principalId = some r.groupId ∧ a.source = .rule r.id
  granted : ∀ r ∈ rules, db'.hasRuleGrant doc.id r.groupId r.id = true
  connectorItems : db'.connectorItems = db.connectorItems
  userGroups : db'.userGroups = db.userGroups

variable {sha256Hex : Bytes → String} {settings : Settings} {faults : IngestFaults} {u : Upload} {parsed : Parsed}
  {work : FlushedIngest} {db db' : Db} {blobs : Blobs} {c c' : Conn Db Blobs}

theorem StoredIn.of_grants {chunks : List Chunk} {floor : ℚ} {doc row : Document} {base : Db}
    (hnew : db.document? doc.id = none) (hdocs : base.documents = db.documents ++ [row])
    (hrow : row.id = doc.id ∧ row.sha256 = doc.sha256 ∧ row.blobPath = doc.blobPath)
    (hacl : base.documentAcl = db.documentAcl) (hrules : base.confirmedRules = db.confirmedRules)
    (hitems : base.connectorItems = db.connectorItems) (hgroups : base.userGroups = db.userGroups) :
    StoredIn doc (matchedRules floor chunks db.confirmedRules) db (applyConfirmedRules floor doc.id chunks base) where
  new := hnew
  documents := ⟨row, by rw [applyConfirmedRules_frame]; exact hdocs, hrow⟩
  kept := by
    intro a ha
    rw [← hacl] at ha
    exact (AclGrown.grantRules doc.id _ base).keeps a ha
  grants := by
    intro a ha
    rw [← hacl, ← hrules]
    exact mem_grantRules ha
  granted := by
    intro r hr
    rw [← hrules] at hr
    exact grantRules_hasRuleGrant hr
  connectorItems := by rw [applyConfirmedRules_frame]; exact hitems
  userGroups := by rw [applyConfirmedRules_frame]; exact hgroups

theorem StoredIn.of_view {chunks : List Chunk} {row : Document} {floor : ℚ} {ts : List ParsedTable}
    (hnew : db.document? row.id = none) :
    StoredIn row (matchedRules floor chunks db.confirmedRules) db
      (applyConfirmedRules floor row.id chunks
        (({ db with documents := db.documents ++ [row] }.storeParsed row.id ts).storeChunks row.id chunks)) := by
  have hothers : ∀ d ∈ db.documents, d.id ≠ row.id := selectOne_eq_none.mp hnew
  have hready : updateWhere (fun d => d.id = row.id) (fun d => { d with status := .ready }) (db.documents ++ [row]) =
      db.documents ++ [{ row with status := .ready }] := by
    apply updateWhere_last
    · simpa using hothers
    · simp
  exact StoredIn.of_grants hnew hready ⟨rfl, rfl, rfl⟩ rfl rfl rfl rfl

theorem flush_pending {α : Type} (fails : Option PyError) (f : Db → Except PyError (α × Db)) :
    Pending (flush fails f : IngestTx α) := Pending.statement

theorem lookupDigest_pending (fails : Option PyError) (digest : String) : Pending (lookupDigest fails digest) :=
  Pending.statement

theorem insertDocument_ok {doc : Document} {db' : Db} (h : insertDocument doc db = .ok ((), db')) :
    db.document? doc.id = none ∧ db' = { db with documents := db.documents ++ [doc] } := by
  unfold insertDocument at h
  split at h
  · cases h
  · rename_i hid
    split at h
    · cases h
    · cases h
      exact ⟨by simpa using hid, rfl⟩

theorem flushDocument_ends (faults : IngestFaults) (work : FlushedIngest) (blobs : Blobs)
    (hnone : db.documentBySha? work.doc.sha256 = none) :
    ((faults.flush = none ∧ db.document? work.doc.id = none) ∧ flushDocument faults work ⟨db, db, .live, blobs⟩ =
        (.ok (.inr work), ⟨db, { db with documents := db.documents ++ [work.doc] }, .live, blobs⟩)) ∨
    (¬ (faults.flush = none ∧ db.document? work.doc.id = none) ∧
      ∃ exc c, flushDocument faults work ⟨db, db, .live, blobs⟩ = (.error exc, c) ∧ c.committed = db ∧ c.outside = blobs) := by
  have hpending := flush_pending faults.flush (insertDocument work.doc) ⟨db, db, .live, blobs⟩
  unfold flushDocument Sql.tryCatch
  cases hflush : (flush faults.flush (insertDocument work.doc) : IngestTx Unit) ⟨db, db, .live, blobs⟩ with
  | mk r c1 =>
    rw [hflush] at hpending
    cases r with
    | ok a =>
      left
      rw [Sql.bind_of_ok hflush]
      obtain ⟨_, hfault, view, hview, rfl⟩ := Sql.statement_eq_ok.mp hflush
      obtain ⟨hid, rfl⟩ := insertDocument_ok hview
      exact ⟨⟨hfault, hid⟩, rfl⟩
    | error exc =>
      right
      constructor
      · intro h
        have hinsert : insertDocument work.doc db = .ok ((), { db with documents := db.documents ++ [work.doc] }) := by
          simp [insertDocument, h.2, hnone]
        have hok : (flush none (insertDocument work.doc) : IngestTx Unit) ⟨db, db, .live, blobs⟩ = _ :=
          Sql.statement_of_ok rfl hinsert
        rw [h.1, hok] at hflush
        cases (Prod.mk.inj hflush).1
      rw [Sql.bind_of_error hflush]
      by_cases hrace : exc.name = "IntegrityError"
      · have hroll : (Sql.rollback : IngestTx Unit) c1 = (.ok (), { c1 with view := c1.committed, state := .live }) := rfl
        simp only [hrace, decide_true, ↓reduceIte]
        rw [Sql.bind_of_ok hroll]
        have hagain := lookupDigest_pending faults.lookupAgain work.doc.sha256 { c1 with view := c1.committed, state := .live }
        cases hlookup : lookupDigest faults.lookupAgain work.doc.sha256 { c1 with view := c1.committed, state := .live } with
        | mk r2 c2 =>
          rw [hlookup] at hagain
          cases r2 with
          | error exc2 =>
            rw [Sql.bind_of_error hlookup]
            exact ⟨exc2, c2, rfl, hagain.1.trans hpending.1, hagain.2.trans hpending.2⟩
          | ok row =>
            rw [Sql.bind_of_ok hlookup]
            obtain ⟨_, _, hrow, hsame⟩ := lookupDigest_eq_ok.mp hlookup
            obtain rfl : row = none := by rw [hrow, show c1.committed = db from hpending.1, hnone]
            exact ⟨exc, c2, rfl, hagain.1.trans hpending.1, hagain.2.trans hpending.2⟩
      · simp only [hrace, decide_false, Bool.false_eq_true, ↓reduceIte]
        exact ⟨exc, c1, rfl, hpending⟩

theorem openIngest_ends (hnone : db.documentBySha? (sha256Hex u.data) = none)
    (hblob : (blobs (u.path sha256Hex)).isSome) :
    (∃ work, openIngest sha256Hex settings faults u parsed (Conn.fresh db blobs) =
        (.ok (.inr work), ⟨db, { db with documents := db.documents ++ [work.doc] }, .live, blobs⟩) ∧
      db.document? work.doc.id = none ∧ work.doc.sha256 = sha256Hex u.data ∧ work.doc.blobPath = u.path sha256Hex ∧
      faults.lookup = none ∧ ¬ parsed.discards settings) ∨
    ∃ exc c, openIngest sha256Hex settings faults u parsed (Conn.fresh db blobs) = (.error exc, c) ∧ c.committed = db ∧
      (((faults.lookup = none ∧ parsed.discards settings) ∧ c.outside = deleteBlob (u.path sha256Hex) blobs) ∨
        (¬ (faults.lookup = none ∧ parsed.discards settings) ∧ c.outside = blobs)) := by
  have hwrite : writeBlob u.data (u.path sha256Hex) blobs = blobs := by
    obtain ⟨data, hdata⟩ := Option.isSome_iff_exists.mp hblob
    simp [writeBlob, hdata]
  unfold openIngest
  cases hfault : faults.lookup with
  | some exc =>
    have hlookup : lookupDigest (some exc) (sha256Hex u.data) (Conn.fresh db blobs) =
        (.error exc, { Conn.fresh db blobs with state := .aborted }) := rfl
    rw [Sql.bind_of_error hlookup]
    exact Or.inr ⟨exc, _, rfl, rfl, Or.inr ⟨by simp, rfl⟩⟩
  | none =>
    have hlookup : lookupDigest none (sha256Hex u.data) (Conn.fresh db blobs) = (.ok none, Conn.fresh db blobs) :=
      lookupDigest_eq_ok.mpr ⟨rfl, rfl, hnone.symm, rfl⟩
    have heffect : (Sql.effect (writeBlob u.data (u.path sha256Hex)) : IngestTx Unit) (Conn.fresh db blobs) =
        (.ok (), ⟨db, db, .live, blobs⟩) := by
      unfold Sql.effect Conn.fresh
      rw [hwrite]
    rw [Sql.bind_of_ok hlookup]
    cases parsed with
    | refused detail => exact Or.inr ⟨_, _, rfl, rfl, Or.inr ⟨by simp [Parsed.discards], rfl⟩⟩
    | raised exc =>
      simp only [Sql.bind_of_ok heffect]
      exact Or.inr ⟨_, _, rfl, rfl, Or.inl ⟨⟨trivial, trivial⟩, rfl⟩⟩
    | imageUnreadable =>
      simp only [Sql.bind_of_ok heffect]
      exact Or.inr ⟨_, _, rfl, rfl, Or.inl ⟨⟨trivial, trivial⟩, rfl⟩⟩
    | reraised exc =>
      simp only [Sql.bind_of_ok heffect]
      exact Or.inr ⟨_, _, rfl, rfl, Or.inr ⟨by simp [Parsed.discards], rfl⟩⟩
    | contents id mime prose tables =>
      simp only [Sql.bind_of_ok heffect]
      by_cases hempty : (prose.isEmpty && tables.isEmpty) = true
      · have hdiscards : (Parsed.contents id mime prose tables).discards settings := Or.inl (by simpa using hempty)
        simp only [hempty, ↓reduceIte]
        exact Or.inr ⟨_, _, rfl, rfl, Or.inl ⟨⟨trivial, hdiscards⟩, rfl⟩⟩
      · by_cases hmany : settings.maxChunksPerDocument < prose.length
        · have hdiscards : (Parsed.contents id mime prose tables).discards settings := Or.inr hmany
          simp only [hempty, hmany, ↓reduceIte]
          exact Or.inr ⟨_, _, rfl, rfl, Or.inl ⟨⟨trivial, hdiscards⟩, rfl⟩⟩
        · have hkeeps : ¬ (Parsed.contents id mime prose tables).discards settings := by
            simp only [Parsed.discards, not_or]
            exact ⟨by simpa using hempty, hmany⟩
          simp only [hempty, hmany, ↓reduceIte]
          rcases flushDocument_ends faults ⟨u.document sha256Hex id mime, prose, tables⟩ blobs hnone with h | h
          · exact Or.inl ⟨_, h.2, h.1.2, rfl, rfl, trivial, hkeeps⟩
          · obtain ⟨exc, c, hrun, hcommitted, houtside⟩ := h.2
            exact Or.inr ⟨exc, c, hrun, hcommitted, Or.inr ⟨fun h => hkeeps h.2, houtside⟩⟩

theorem ingestTry_ends (settings : Settings) (faults : IngestFaults) (work : FlushedIngest) (c : Conn Db Blobs) :
    ((∃ c1, storeContents settings faults work c = (.ok (), c1) ∧ c1.state = .live ∧ faults.commit.lands = true ∧
        (ingestTry settings faults work c).2.committed = c1.view) ∨
      ((∀ c1, storeContents settings faults work c = (.ok (), c1) → c1.state = .live → faults.commit.lands = false) ∧
        (ingestTry settings faults work c).2.committed = c.committed)) ∧
    (ingestTry settings faults work c).2.outside = c.outside ∧
    ∀ resp, (ingestTry settings faults work c).1 = .ok resp → (ingestTry settings faults work c).2.AtRest := by
  have hpending : (storeContents settings faults work c).2.committed = c.committed ∧
      (storeContents settings faults work c).2.outside = c.outside := storeContents_pending work c
  cases hstore : storeContents settings faults work c with
  | mk r c1 =>
    rw [hstore] at hpending
    cases r with
    | error exc =>
      have htry : ingestTry settings faults work c = (.error exc, c1) := Sql.bind_of_error hstore
      rw [htry]
      refine ⟨Or.inr ⟨fun c2 h => ?_, hpending.1⟩, hpending.2, fun resp h => ?_⟩
      · cases h
      · cases h
    | ok a =>
      have hcommitted := Sql.commit_committed sessionRefusal faults.commit c1
      have houtside := Sql.commit_outside sessionRefusal faults.commit c1
      have htry : (ingestTry settings faults work c).2 = (Sql.commit sessionRefusal faults.commit c1).2 ∧
          ∀ resp, (ingestTry settings faults work c).1 = .ok resp →
            (Sql.commit sessionRefusal faults.commit c1).1 = .ok () := by
        unfold ingestTry
        rw [Sql.bind_of_ok hstore]
        exact Sql.commit_pure sessionRefusal faults.commit _ c1
      rw [htry.1]
      refine ⟨?_, houtside.trans hpending.2, fun resp h => Sql.commit_atRest (htry.2 resp h)⟩
      by_cases hlands : c1.state = .live ∧ faults.commit.lands = true
      · rw [if_pos hlands] at hcommitted
        exact Or.inl ⟨c1, rfl, hlands.1, hlands.2, hcommitted⟩
      · rw [if_neg hlands] at hcommitted
        refine Or.inr ⟨fun c2 h hlive => ?_, hcommitted.trans hpending.1⟩
        cases h
        exact Bool.eq_false_iff.mpr fun hc => hlands ⟨hlive, hc⟩

/-- `UPDATE documents SET status = 'failed', error = … WHERE id = …`. -/
def Db.recordFailure (id : Uuid) (exc : PyError) (db : Db) : Db :=
  { db with
    documents := updateWhere (fun d => d.id = id)
      (fun d => { d with status := .failed, error := some (failureText exc) }) db.documents }

theorem StoredIn.recordFailure {doc e : Document} {rules : List AccessRule} (h : StoredIn doc rules db db')
    (hnone : db.documentBySha? doc.sha256 = none) (he : db'.documentBySha? doc.sha256 = some e) (exc : PyError) :
    StoredIn doc rules db (db'.recordFailure e.id exc) := by
  obtain ⟨row, hdocs, hid, hsha, hpath⟩ := h.documents
  obtain ⟨hmem, hdigest⟩ := selectOne_mem he
  have hrow : e = row := by
    rw [hdocs] at hmem
    rcases List.mem_append.mp hmem with hold | hnew
    · exact absurd hdigest (selectOne_eq_none.mp hnone e hold)
    · exact List.mem_singleton.mp hnew
  have hothers : ∀ d ∈ db.documents, d.id ≠ row.id := by
    rw [hid]
    exact selectOne_eq_none.mp h.new
  have hupdate : (db'.recordFailure e.id exc).documents =
      db.documents ++ [{ row with status := .failed, error := some (failureText exc) }] := by
    unfold Db.recordFailure
    rw [hdocs, hrow]
    apply updateWhere_last
    · simpa using hothers
    · simp
  exact ⟨h.new, ⟨_, hupdate, hid, hsha, hpath⟩, h.kept, h.grants, h.granted, h.connectorItems, h.userGroups⟩

theorem ingestExcept_ends (halone : faults.others = id) (u : Upload) (exc : PyError) (c : Conn Db Blobs) :
    ((faults.recheck = none ∧ c.committed.documentBySha? (sha256Hex u.data) = none ∧
        (ingestExcept sha256Hex faults u exc c).2.committed = c.committed ∧
        (ingestExcept sha256Hex faults u exc c).2.outside = deleteBlob (u.path sha256Hex) c.outside) ∨
      (¬ (faults.recheck = none ∧ c.committed.documentBySha? (sha256Hex u.data) = none) ∧
        ((ingestExcept sha256Hex faults u exc c).2.committed = c.committed ∨
          ∃ e, c.committed.documentBySha? (sha256Hex u.data) = some e ∧
            (ingestExcept sha256Hex faults u exc c).2.committed = c.committed.recordFailure e.id exc) ∧
        (ingestExcept sha256Hex faults u exc c).2.outside = c.outside)) ∧
    ∀ resp, (ingestExcept sha256Hex faults u exc c).1 = .ok resp → (ingestExcept sha256Hex faults u exc c).2.AtRest := by
  have helse : (Sql.elsewhere faults.others : IngestTx Unit) c = (.ok (), c) := by
    rw [halone]
    rfl
  have hroll : (Sql.rollback : IngestTx Unit) c = (.ok (), Conn.fresh c.committed c.outside) := rfl
  cases hfault : faults.recheck with
  | some raised =>
    have hlookup : lookupDigest faults.recheck (sha256Hex u.data) (Conn.fresh c.committed c.outside) =
        (.error raised, { Conn.fresh c.committed c.outside with state := .aborted }) := by
      rw [hfault]
      rfl
    have hrun : ingestExcept sha256Hex faults u exc c =
        (.error raised, { Conn.fresh c.committed c.outside with state := .aborted }) := by
      unfold ingestExcept
      rw [Sql.bind_of_ok helse, Sql.bind_of_ok hroll, Sql.bind_of_error hlookup]
    rw [hrun]
    refine ⟨Or.inr ⟨by simp, Or.inl rfl, rfl⟩, fun resp h => ?_⟩
    cases h
  | none =>
    have hlookup : lookupDigest faults.recheck (sha256Hex u.data) (Conn.fresh c.committed c.outside) =
        (.ok (c.committed.documentBySha? (sha256Hex u.data)), Conn.fresh c.committed c.outside) :=
      lookupDigest_eq_ok.mpr ⟨rfl, hfault, rfl, rfl⟩
    cases hrow : c.committed.documentBySha? (sha256Hex u.data) with
    | none =>
      rw [hrow] at hlookup
      have hrun : ingestExcept sha256Hex faults u exc c = (.error (httpException 500 "ingestion failed"),
          ⟨c.committed, c.committed, .live, deleteBlob (u.path sha256Hex) c.outside⟩) := by
        unfold ingestExcept
        rw [Sql.bind_of_ok helse, Sql.bind_of_ok hroll, Sql.bind_of_ok hlookup]
        rfl
      rw [hrun]
      refine ⟨Or.inl ⟨rfl, rfl, rfl, rfl⟩, fun resp h => ?_⟩
      cases h
    | some e =>
      rw [hrow] at hlookup
      have hmark : (execute none (fun db => .ok ((), db.recordFailure e.id exc)) : IngestTx Unit)
          (Conn.fresh c.committed c.outside) =
            (.ok (), ⟨c.committed, c.committed.recordFailure e.id exc, .live, c.outside⟩) := Sql.statement_of_ok rfl rfl
      have hrun : ingestExcept sha256Hex faults u exc c =
          (Sql.commit sessionRefusal faults.failureCommit >>= fun _ => pure ⟨e.id, .failed, none⟩ : IngestTx IngestResponse)
            ⟨c.committed, c.committed.recordFailure e.id exc, .live, c.outside⟩ := by
        unfold ingestExcept
        rw [Sql.bind_of_ok helse, Sql.bind_of_ok hroll, Sql.bind_of_ok hlookup]
        exact Sql.bind_of_ok hmark
      have hpure := Sql.commit_pure sessionRefusal faults.failureCommit (⟨e.id, .failed, none⟩ : IngestResponse)
        (⟨c.committed, c.committed.recordFailure e.id exc, .live, c.outside⟩ : Conn Db Blobs)
      rw [hrun, hpure.1]
      refine ⟨Or.inr ⟨by simp, ?_, Sql.commit_outside _ _ _⟩, fun resp h => Sql.commit_atRest (hpure.2 resp h)⟩
      rw [Sql.commit_committed]
      split
      · exact Or.inr ⟨e, rfl, rfl⟩
      · exact Or.inl rfl

theorem StoredIn.found {doc : Document} {rules : List AccessRule} (h : StoredIn doc rules db db') :
    db'.documentBySha? doc.sha256 ≠ none := by
  obtain ⟨row, hdocs, _, hsha, _⟩ := h.documents
  intro hnone
  refine selectOne_eq_none.mp hnone row ?_ hsha
  rw [hdocs]
  exact List.mem_append_right _ (List.mem_singleton_self row)

inductive IngestEnds (sha256Hex : Bytes → String) (settings : Settings) (faults : IngestFaults) (u : Upload)
    (parsed : Parsed) (db : Db) (blobs : Blobs) : Db → Blobs → Prop
  | discarded (h : Discards sha256Hex settings faults u parsed db blobs) :
    IngestEnds sha256Hex settings faults u parsed db blobs db (deleteBlob (u.path sha256Hex) blobs)
  | stored {chunks : List Chunk} {doc : Document} {db' : Db} (h : ¬ Discards sha256Hex settings faults u parsed db blobs)
    (hstores : Stores sha256Hex settings faults u parsed db blobs chunks) (hsha : doc.sha256 = sha256Hex u.data)
    (hpath : doc.blobPath = u.path sha256Hex)
    (hdb : StoredIn doc (matchedRules settings.ruleSimilarityFloor chunks db.confirmedRules) db db') :
    IngestEnds sha256Hex settings faults u parsed db blobs db' blobs
  | untouched (h : ¬ Discards sha256Hex settings faults u parsed db blobs)
    (hstores : ∀ chunks, ¬ Stores sha256Hex settings faults u parsed db blobs chunks) :
    IngestEnds sha256Hex settings faults u parsed db blobs db blobs

/-! With the row flushed, both outcomes are those of the `try`. -/

section Flushed

variable {flushed : Conn Db Blobs}
  (hopen : openIngest sha256Hex settings faults u parsed (Conn.fresh db blobs) = (.ok (.inr work), flushed))

include hopen

theorem storeFails_iff : StoreFails sha256Hex settings faults u parsed db blobs ↔
    ∃ exc c', ingestTry settings faults work flushed = (.error exc, c') ∧ exc.isException = true ∧
      c'.committed.documentBySha? (sha256Hex u.data) = none := by
  constructor
  · intro h
    obtain ⟨work', c, exc, c', hopen', htry⟩ := h
    rw [hopen] at hopen'
    cases hopen'
    exact ⟨exc, c', htry⟩
  · intro h
    obtain ⟨exc, c', htry⟩ := h
    exact ⟨work, flushed, exc, c', hopen, htry⟩

theorem stores_iff {chunks : List Chunk} : Stores sha256Hex settings faults u parsed db blobs chunks ↔
    ∃ c' embeddings, storeContents settings faults work flushed = (.ok (), c') ∧ c'.state = .live ∧
      faults.commit.lands = true ∧ faults.embedded = .ok embeddings ∧
      newChunks work.doc.id work.prose (work.tables.flatMap ParsedTable.chunks) embeddings = .ok chunks := by
  constructor
  · intro h
    obtain ⟨work', c, c', embeddings, hopen', hstore⟩ := h
    rw [hopen] at hopen'
    cases hopen'
    exact ⟨c', embeddings, hstore⟩
  · intro h
    obtain ⟨c', embeddings, hstore⟩ := h
    exact ⟨work, flushed, c', embeddings, hopen, hstore⟩

theorem ingestSession_ok {resp : IngestResponse} (htry : ingestTry settings faults work flushed = (.ok resp, c')) :
    ingestSession sha256Hex settings faults u parsed (Conn.fresh db blobs) = (.ok resp, c') := by
  unfold ingestSession
  rw [Sql.bind_of_ok hopen]
  simp only [Sql.tryCatch, htry]

theorem ingestSession_error {exc : PyError} (htry : ingestTry settings faults work flushed = (.error exc, c')) :
    ingestSession sha256Hex settings faults u parsed (Conn.fresh db blobs) =
      if exc.isException = true then ingestExcept sha256Hex faults u exc c' else (.error exc, c') := by
  unfold ingestSession
  rw [Sql.bind_of_ok hopen]
  simp only [Sql.tryCatch, htry]

theorem discards_iff {r : Except PyError IngestResponse} (hlookup : faults.lookup = none) (hkeeps : ¬ parsed.discards settings)
    (htry : ingestTry settings faults work flushed = (r, c')) : Discards sha256Hex settings faults u parsed db blobs ↔
      (∃ exc, r = .error exc ∧ exc.isException = true) ∧ c'.committed.documentBySha? (sha256Hex u.data) = none ∧
        faults.recheck = none := by
  unfold Discards
  rw [storeFails_iff hopen, htry]
  constructor
  · intro h
    obtain ⟨⟨exc, c2, hraised, hexc, hlost⟩, hrecheck⟩ := h.2.resolve_left hkeeps
    cases hraised
    exact ⟨⟨exc, rfl, hexc⟩, hlost, hrecheck⟩
  · intro h
    obtain ⟨⟨exc, rfl, hexc⟩, hlost, hrecheck⟩ := h
    exact ⟨hlookup, Or.inr ⟨⟨exc, c', rfl, hexc, hlost⟩, hrecheck⟩⟩

end Flushed

theorem ingestSession_flushed (halone : faults.others = id) (hnone : db.documentBySha? (sha256Hex u.data) = none)
    (hopen : openIngest sha256Hex settings faults u parsed (Conn.fresh db blobs) =
      (.ok (.inr work), ⟨db, { db with documents := db.documents ++ [work.doc] }, .live, blobs⟩))
    (hnew : db.document? work.doc.id = none) (hsha : work.doc.sha256 = sha256Hex u.data)
    (hpath : work.doc.blobPath = u.path sha256Hex) (hlookup : faults.lookup = none) (hkeeps : ¬ parsed.discards settings) :
    IngestEnds sha256Hex settings faults u parsed db blobs
        (ingestSession sha256Hex settings faults u parsed (Conn.fresh db blobs)).2.committed
        (ingestSession sha256Hex settings faults u parsed (Conn.fresh db blobs)).2.outside ∧
      ∀ resp, (ingestSession sha256Hex settings faults u parsed (Conn.fresh db blobs)).1 = .ok resp →
        (ingestSession sha256Hex settings faults u parsed (Conn.fresh db blobs)).2.AtRest := by
  obtain ⟨hends, houtside, hrest⟩ := ingestTry_ends settings faults work
    (⟨db, { db with documents := db.documents ++ [work.doc] }, .live, blobs⟩ : Conn Db Blobs)
  cases htry : ingestTry settings faults work ⟨db, { db with documents := db.documents ++ [work.doc] }, .live, blobs⟩ with
  | mk r c' =>
    have hdiscards := discards_iff hopen hlookup hkeeps htry
    rw [htry] at hends houtside hrest
    obtain rfl : c'.outside = blobs := houtside
    rcases hends with hstored | huntouched
    · obtain ⟨c1, hstore, hlive, hlands, hcommitted⟩ := hstored
      obtain ⟨embeddings, chunks, hembedded, hchunks, _, hconn, hview⟩ := storeContents_stored hstore hlive
      have hstores := (stores_iff hopen).mpr ⟨c1, embeddings, hstore, hlive, hlands, hembedded, hchunks⟩
      have hdb : StoredIn work.doc (matchedRules settings.ruleSimilarityFloor chunks db.confirmedRules) db c'.committed := by
        rw [hcommitted, hview]
        exact StoredIn.of_view hnew
      have hfound : c'.committed.documentBySha? (sha256Hex u.data) ≠ none := hsha ▸ hdb.found
      have hkept : ¬ Discards sha256Hex settings faults u parsed db c'.outside := fun h => hfound (hdiscards.mp h).2.1
      cases r with
      | ok resp =>
        rw [ingestSession_ok hopen htry]
        exact ⟨.stored hkept hstores hsha hpath hdb, fun resp' h => hrest resp rfl⟩
      | error exc =>
        rw [ingestSession_error hopen htry]
        by_cases hexc : exc.isException = true
        · obtain ⟨hhandled, hfresh⟩ := @ingestExcept_ends sha256Hex faults halone u exc c'
          rw [if_pos hexc]
          refine ⟨?_, hfresh⟩
          rcases hhandled with hlost | hmarked
          · exact absurd hlost.2.1 hfound
          · rw [hmarked.2.2]
            rcases hmarked.2.1 with hsame | hrow
            · rw [hsame]
              exact .stored hkept hstores hsha hpath hdb
            · obtain ⟨e, he, hrecorded⟩ := hrow
              rw [hrecorded]
              rw [← hsha] at hnone he
              exact .stored hkept hstores hsha hpath (hdb.recordFailure hnone he exc)
        · rw [if_neg hexc]
          exact ⟨.stored hkept hstores hsha hpath hdb, fun _ h => by cases h⟩
    · obtain ⟨hnever, hcommitted⟩ := huntouched
      obtain rfl : c'.committed = db := hcommitted
      have hnotstored : ∀ chunks, ¬ Stores sha256Hex settings faults u parsed c'.committed c'.outside chunks := by
        intro chunks h
        obtain ⟨c1, _, hstore, hlive, hlands, _⟩ := (stores_iff hopen).mp h
        rw [hnever c1 hstore hlive] at hlands
        cases hlands
      cases r with
      | ok resp =>
        rw [ingestSession_ok hopen htry]
        exact ⟨.untouched (by simp [hdiscards]) hnotstored, fun resp' h => hrest resp rfl⟩
      | error exc =>
        rw [ingestSession_error hopen htry]
        by_cases hexc : exc.isException = true
        · obtain ⟨hhandled, hfresh⟩ := @ingestExcept_ends sha256Hex faults halone u exc c'
          rw [if_pos hexc]
          refine ⟨?_, hfresh⟩
          rcases hhandled with hdeleted | hkept
          · rw [hdeleted.2.2.1, hdeleted.2.2.2]
            exact .discarded (hdiscards.mpr ⟨⟨exc, rfl, hexc⟩, hnone, hdeleted.1⟩)
          · rw [hkept.2.2]
            rcases hkept.2.1 with hsame | hrow
            · rw [hsame]
              exact .untouched (fun h => hkept.1 ⟨(hdiscards.mp h).2.2, hnone⟩) hnotstored
            · obtain ⟨e, he, _⟩ := hrow
              rw [hnone] at he
              cases he
        · rw [if_neg hexc]
          exact ⟨.untouched (by simp [hdiscards, hexc]) hnotstored, fun _ h => by cases h⟩

/-- How `ingest_bytes` alone ends. -/
theorem ingestSession_ends (halone : faults.others = id) (hnone : db.documentBySha? (sha256Hex u.data) = none)
    (hblob : (blobs (u.path sha256Hex)).isSome) :
    IngestEnds sha256Hex settings faults u parsed db blobs
        (ingestSession sha256Hex settings faults u parsed (Conn.fresh db blobs)).2.committed
        (ingestSession sha256Hex settings faults u parsed (Conn.fresh db blobs)).2.outside ∧
      ∀ resp, (ingestSession sha256Hex settings faults u parsed (Conn.fresh db blobs)).1 = .ok resp →
        (ingestSession sha256Hex settings faults u parsed (Conn.fresh db blobs)).2.AtRest := by
  rcases @openIngest_ends sha256Hex settings faults u parsed db blobs hnone hblob with hopened | hraised
  · obtain ⟨work, hopen, hnew, hsha, hpath, hlookup, hkeeps⟩ := hopened
    exact ingestSession_flushed halone hnone hopen hnew hsha hpath hlookup hkeeps
  · obtain ⟨exc, c, hopen, hcommitted, hends⟩ := hraised
    have hrun : ingestSession sha256Hex settings faults u parsed (Conn.fresh db blobs) = (.error exc, c) :=
      Sql.bind_of_error hopen
    have hstores : ∀ chunks, ¬ Stores sha256Hex settings faults u parsed db blobs chunks := by
      intro chunks h
      obtain ⟨work, c1, _, _, hok, _⟩ := h
      rw [hopen] at hok
      cases hok
    have hfails : ¬ StoreFails sha256Hex settings faults u parsed db blobs := by
      intro h
      obtain ⟨work, c1, _, _, hok, _⟩ := h
      rw [hopen] at hok
      cases hok
    rw [hrun]
    refine ⟨?_, fun resp h => ?_⟩
    · rcases hends with hdiscards | hkeeps
      · rw [hcommitted, hdiscards.2]
        exact .discarded ⟨hdiscards.1.1, Or.inl hdiscards.1.2⟩
      · rw [hcommitted, hkeeps.2]
        refine .untouched (fun h => hkeeps.1 ⟨h.1, ?_⟩) hstores
        exact h.2.resolve_right fun hf => hfails hf.1
    · cases h

end ProRag
