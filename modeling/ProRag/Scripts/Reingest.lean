import ProRag.Ingest.Ending
import ProRag.Retrieve.Visibility

/-!
# `scripts/reingest.py`

Each selected document is deleted, committed, and ingested again from its file.  What is kept of it depends on how the
ingest ends and on what hung on the deleted row.
-/

namespace ProRag

open Framework

/-- How the steps of one document go.  A rollback expires the loaded rows, so `load` may also be the attempt to read the
columns of the next one. -/
structure ReingestFaults where
  load : Option PyError
  delete : Option PyError
  deleted : CommitOutcome PyError
  parsed : Parsed
  ingest : IngestFaults
  commit : CommitOutcome PyError

def ReingestFaults.alone (e : ReingestFaults) : IngestFaults :=
  { e.ingest with others := id }

/-- `Path(d.blob_path).read_bytes()`. -/
def readBlob (load : Option PyError) (path : BlobPath) : IngestTx Bytes := fun c =>
  match load with
  | some exc => (.error exc, c)
  | none =>
    match c.outside path with
    | none => (.error ⟨"FileNotFoundError", "[Errno 2] No such file or directory"⟩, c)
    | some data => (.ok data, c)

section

variable (sha256Hex : Bytes → String) (settings : Settings)

/-- The body of the loop. -/
def reingestDocument (d : Document) (e : ReingestFaults) : IngestTx Unit :=
  readBlob e.load d.blobPath >>= fun data =>
    flush e.delete (fun db => .ok ((), db.deleteDocument d.id)) >>= fun _ =>
      Sql.commit sessionRefusal e.deleted >>= fun _ =>
        ingestSession sha256Hex settings e.alone ⟨data, d.filename, d.collection⟩ e.parsed >>= fun _ =>
          Sql.commit sessionRefusal e.commit

/-- The loop over the selected documents.  An exception ends the script. -/
def reingestAll : List (Document × ReingestFaults) → IngestTx Unit
  | [] => pure ()
  | (d, e) :: rest => reingestDocument sha256Hex settings d e >>= fun _ => reingestAll rest

end

/-- What the script is to keep of a document: its bytes, who may see it, its grants and its connector links. -/
structure Preserved (d : Document) (db : Db) (blobs : Blobs) (db' : Db) (blobs' : Blobs) : Prop where
  bytes : (blobs d.blobPath).isSome →
    (∃ r ∈ db'.documents, r.sha256 = d.sha256 ∧ (blobs' r.blobPath).isSome) ∨ (blobs' d.blobPath).isSome
  visible : ∀ user, VisibleTo db user d.id → ∃ r ∈ db'.documents, r.sha256 = d.sha256 ∧ VisibleTo db' user r.id
  grants : ∀ a ∈ db.documentAcl, a.docId = d.id → ∃ r ∈ db'.documents, r.sha256 = d.sha256 ∧
    ∃ a' ∈ db'.documentAcl, a'.docId = r.id ∧ a'.principalType = a.principalType ∧ a'.principalId = a.principalId ∧
      a'.source = a.source
  links : ∀ i ∈ db.connectorItems, i.docId = some d.id → ∃ r ∈ db'.documents, r.sha256 = d.sha256 ∧
    ∃ i' ∈ db'.connectorItems, i'.key = i.key ∧ i'.docId = some r.id

/-- What holds in every state: the constraints on documents, the foreign key of the grants, and files named by the
digest of their row. -/
structure Db.Sound (db : Db) : Prop where
  corpus : db.CorpusOk
  acl : ∀ a ∈ db.documentAcl, ∃ doc ∈ db.documents, doc.id = a.docId
  paths : ∀ doc ∈ db.documents, doc.blobPath.sha256 = doc.sha256

/-- A row as `ingest_bytes` has written it, over a file with the bytes of its digest. -/
structure Selected (sha256Hex : Bytes → String) (d : Document) (db : Db) (blobs : Blobs) : Prop where
  mem : d ∈ db.documents
  path : d.blobPath = blobPathFor d.sha256 d.filename
  content : ∀ data, blobs d.blobPath = some data → sha256Hex data = d.sha256

/-- The row is deleted, and the deletion is committed. -/
def ReingestFaults.deletes (e : ReingestFaults) (d : Document) (blobs : Blobs) : Prop :=
  e.load = none ∧ (blobs d.blobPath).isSome ∧ e.delete = none ∧ e.deleted.lands = true

def Document.reupload (d : Document) (blobs : Blobs) : Upload :=
  ⟨(blobs d.blobPath).getD [], d.filename, d.collection⟩

/-- A grant that an ingest with these rules writes. -/
def RegrantedBy (rules : List AccessRule) (a : DocumentAcl) : Prop :=
  ∃ r ∈ rules, a.principalType = .group ∧ a.principalId = some r.groupId ∧ a.source = .rule r.id

/-- When the deletion is committed, no connector item links to the document, the ingest does not come to a `delete_blob`,
and every grant is one that the ingest writes again and commits. -/
structure Harmless (sha256Hex : Bytes → String) (settings : Settings) (d : Document) (e : ReingestFaults) (db : Db)
    (blobs : Blobs) : Prop where
  links : ∀ i ∈ db.connectorItems, i.docId ≠ some d.id
  file : e.deleted = .durable →
    ¬ Discards sha256Hex settings e.alone (d.reupload blobs) e.parsed (db.deleteDocument d.id) blobs
  grants : ∀ a ∈ db.documentAcl, a.docId = d.id → e.deleted = .durable ∧ ∃ chunks,
    Stores sha256Hex settings e.alone (d.reupload blobs) e.parsed (db.deleteDocument d.id) blobs chunks ∧
      RegrantedBy (matchedRules settings.ruleSimilarityFloor chunks db.confirmedRules) a

variable {sha256Hex : Bytes → String} {settings : Settings} {d : Document} {e : ReingestFaults} {db db' db1 : Db}
  {blobs blobs' blobs1 : Blobs} {c c' : Conn Db Blobs} {digest : String}

/-! What one step does. -/

theorem readBlob_ok {load : Option PyError} {path : BlobPath} {data : Bytes} (hload : load = none)
    (hdata : c.outside path = some data) : readBlob load path c = (.ok data, c) := by
  simp [readBlob, hload, hdata]

theorem readBlob_error {load : Option PyError} {path : BlobPath} (h : ¬ (load = none ∧ (c.outside path).isSome)) :
    ∃ exc, readBlob load path c = (.error exc, c) := by
  cases load with
  | some exc => exact ⟨exc, rfl⟩
  | none =>
    cases hdata : c.outside path with
    | none => exact ⟨_, by simp [readBlob, hdata]; rfl⟩
    | some data => exact absurd ⟨rfl, by simp [hdata]⟩ h

/-- Nothing is deleted; or the deletion is committed, and the script ends or ingests again. -/
inductive StepEnds (sha256Hex : Bytes → String) (settings : Settings) (d : Document) (e : ReingestFaults) (db : Db)
    (blobs : Blobs) : Db → Blobs → Prop
  | unchanged (h : ¬ e.deletes d blobs) : StepEnds sha256Hex settings d e db blobs db blobs
  | deleted (h : e.deletes d blobs) (hraised : e.deleted ≠ .durable) :
    StepEnds sha256Hex settings d e db blobs (db.deleteDocument d.id) blobs
  | ingested {db' : Db} {blobs' : Blobs} (h : e.deletes d blobs) (hdurable : e.deleted = .durable)
    (hends : IngestEnds sha256Hex settings e.alone (d.reupload blobs) e.parsed (db.deleteDocument d.id) blobs db' blobs') :
    StepEnds sha256Hex settings d e db blobs db' blobs'

theorem deleteDocument_noDigest (hdb : db.Sound) (hd : d ∈ db.documents) :
    (db.deleteDocument d.id).documentBySha? d.sha256 = none := by
  apply selectOne_eq_none.mpr
  intro r hr hsha
  obtain ⟨hmem, hid⟩ := Db.mem_deleteDocument.mp hr
  exact hid (congrArg Document.id (hdb.corpus.docSha.eq_of_key hmem hd hsha))

theorem reupload_path (h : Selected sha256Hex d db blobs) (hblob : (blobs d.blobPath).isSome) :
    (d.reupload blobs).path sha256Hex = d.blobPath ∧ sha256Hex (d.reupload blobs).data = d.sha256 := by
  obtain ⟨data, hdata⟩ := Option.isSome_iff_exists.mp hblob
  have hsha : sha256Hex (d.reupload blobs).data = d.sha256 := by
    simp [Document.reupload, hdata, h.content data hdata]
  refine ⟨?_, hsha⟩
  unfold Upload.path
  rw [hsha, h.path]
  rfl

theorem reingestDocument_flushed {e : ReingestFaults} (hload : e.load = none) {data : Bytes}
    (hdata : blobs d.blobPath = some data) (hdelete : e.delete = none) :
    reingestDocument sha256Hex settings d e (Conn.fresh db blobs) =
      (Sql.commit sessionRefusal e.deleted >>= fun _ =>
        ingestSession sha256Hex settings e.alone (d.reupload blobs) e.parsed >>= fun _ =>
          Sql.commit sessionRefusal e.commit : IngestTx Unit) ⟨db, db.deleteDocument d.id, .live, blobs⟩ := by
  have hread : readBlob e.load d.blobPath (Conn.fresh db blobs) = (.ok data, Conn.fresh db blobs) := readBlob_ok hload hdata
  have hflush : (flush e.delete (fun db => .ok ((), db.deleteDocument d.id)) : IngestTx Unit) (Conn.fresh db blobs) =
      (.ok (), ⟨db, db.deleteDocument d.id, .live, blobs⟩) := by
    rw [hdelete]
    exact Sql.statement_of_ok rfl rfl
  have hupload : d.reupload blobs = ⟨data, d.filename, d.collection⟩ := by
    simp [Document.reupload, hdata]
  unfold reingestDocument
  rw [Sql.bind_of_ok hread, Sql.bind_of_ok hflush, hupload]

theorem reingestDocument_committed (hdb : db.Sound) (hsel : Selected sha256Hex d db blobs) {e : ReingestFaults}
    (hdeletes : e.deletes d blobs) (hdeleted : e.deleted = .durable) :
    StepEnds sha256Hex settings d e db blobs
        (reingestDocument sha256Hex settings d e (Conn.fresh db blobs)).2.committed
        (reingestDocument sha256Hex settings d e (Conn.fresh db blobs)).2.outside ∧
      ∀ u, (reingestDocument sha256Hex settings d e (Conn.fresh db blobs)).1 = .ok u →
        (reingestDocument sha256Hex settings d e (Conn.fresh db blobs)).2.AtRest := by
  obtain ⟨hload, hblob, hdelete, _⟩ := id hdeletes
  obtain ⟨data, hdata⟩ := Option.isSome_iff_exists.mp hblob
  have hcommit : (Sql.commit sessionRefusal e.deleted : IngestTx Unit) ⟨db, db.deleteDocument d.id, .live, blobs⟩ =
      (.ok (), Conn.fresh (db.deleteDocument d.id) blobs) := by
    rw [hdeleted]
    exact Sql.commit_durable rfl
  obtain ⟨hpath, hsha⟩ := reupload_path hsel hblob
  have hnone : (db.deleteDocument d.id).documentBySha? (sha256Hex (d.reupload blobs).data) = none := by
    rw [hsha]
    exact deleteDocument_noDigest hdb hsel.mem
  obtain ⟨hends, hrest⟩ := @ingestSession_ends sha256Hex settings e.alone (d.reupload blobs) e.parsed
    (db.deleteDocument d.id) blobs rfl hnone (by rw [hpath]; exact hblob)
  rw [reingestDocument_flushed hload hdata hdelete, Sql.bind_of_ok hcommit]
  cases hingest : ingestSession sha256Hex settings e.alone (d.reupload blobs) e.parsed
      (Conn.fresh (db.deleteDocument d.id) blobs) with
  | mk r c1 =>
    rw [hingest] at hends hrest
    cases r with
    | error exc =>
      rw [Sql.bind_of_error hingest]
      refine ⟨.ingested hdeletes hdeleted hends, fun u h => ?_⟩
      cases h
    | ok resp =>
      rw [Sql.bind_of_ok hingest, Sql.commit_idle sessionRefusal e.commit (hrest resp rfl), Sql.commit_outside]
      exact ⟨.ingested hdeletes hdeleted hends, fun u h => Sql.commit_atRest h⟩

theorem reingestDocument_ends (hdb : db.Sound) (hsel : Selected sha256Hex d db blobs) (e : ReingestFaults) :
    StepEnds sha256Hex settings d e db blobs
        (reingestDocument sha256Hex settings d e (Conn.fresh db blobs)).2.committed
        (reingestDocument sha256Hex settings d e (Conn.fresh db blobs)).2.outside ∧
      ∀ u, (reingestDocument sha256Hex settings d e (Conn.fresh db blobs)).1 = .ok u →
        (reingestDocument sha256Hex settings d e (Conn.fresh db blobs)).2.AtRest := by
  by_cases hread : e.load = none ∧ (blobs d.blobPath).isSome
  · obtain ⟨hload, hblob⟩ := hread
    obtain ⟨data, hdata⟩ := Option.isSome_iff_exists.mp hblob
    cases hdelete : e.delete with
    | some exc =>
      have hflush : (flush e.delete (fun db => .ok ((), db.deleteDocument d.id)) : IngestTx Unit) (Conn.fresh db blobs) =
          (.error exc, { Conn.fresh db blobs with state := .unusable }) := by
        rw [hdelete]
        rfl
      have hrun : reingestDocument sha256Hex settings d e (Conn.fresh db blobs) =
          (.error exc, { Conn.fresh db blobs with state := .unusable }) := by
        unfold reingestDocument
        rw [Sql.bind_of_ok (readBlob_ok hload hdata), Sql.bind_of_error hflush]
      rw [hrun]
      refine ⟨.unchanged fun h => ?_, fun u h => ?_⟩
      · rw [h.2.2.1] at hdelete
        cases hdelete
      · cases h
    | none =>
      cases hdeleted : e.deleted with
      | raised exc =>
        have hcommit : (Sql.commit sessionRefusal e.deleted : IngestTx Unit) ⟨db, db.deleteDocument d.id, .live, blobs⟩ =
            (.error exc, ⟨db, db.deleteDocument d.id, .aborted, blobs⟩) := by
          rw [hdeleted]
          rfl
        rw [reingestDocument_flushed hload hdata hdelete, Sql.bind_of_error hcommit]
        refine ⟨.unchanged fun h => ?_, fun u h => ?_⟩
        · have hlands := h.2.2.2
          rw [hdeleted] at hlands
          cases hlands
        · cases h
      | unacknowledged exc =>
        have hcommit : (Sql.commit sessionRefusal e.deleted : IngestTx Unit) ⟨db, db.deleteDocument d.id, .live, blobs⟩ =
            (.error exc, ⟨db.deleteDocument d.id, db.deleteDocument d.id, .live, blobs⟩) := by
          rw [hdeleted]
          rfl
        rw [reingestDocument_flushed hload hdata hdelete, Sql.bind_of_error hcommit]
        refine ⟨.deleted ⟨hload, hblob, hdelete, by rw [hdeleted]; rfl⟩ (by simp [hdeleted]), fun u h => ?_⟩
        cases h
      | durable => exact reingestDocument_committed hdb hsel ⟨hload, hblob, hdelete, by rw [hdeleted]; rfl⟩ hdeleted
  · obtain ⟨exc, hraised⟩ := @readBlob_error (Conn.fresh db blobs) e.load d.blobPath hread
    have hrun : reingestDocument sha256Hex settings d e (Conn.fresh db blobs) = (.error exc, Conn.fresh db blobs) :=
      Sql.bind_of_error hraised
    rw [hrun]
    refine ⟨.unchanged fun h => hread ⟨h.1, h.2.1⟩, fun u h => ?_⟩
    cases h

/-! What a step leaves sound, and what it leaves alone. -/

theorem Db.Sound.deleteDocument (h : db.Sound) (id : Uuid) : (db.deleteDocument id).Sound where
  corpus := h.corpus.deleteDocument id
  acl := by
    intro a ha
    obtain ⟨hmem, hne⟩ := mem_deleteWhere.mp ha
    obtain ⟨doc, hdoc, hid⟩ := h.acl a hmem
    refine ⟨doc, Db.mem_deleteDocument.mpr ⟨hdoc, ?_⟩, hid⟩
    rw [hid]
    simpa using hne
  paths := by
    intro doc hdoc
    exact h.paths doc (Db.mem_deleteDocument.mp hdoc).1

theorem StoredIn.sound {doc : Document} {rules : List AccessRule} (h : StoredIn doc rules db db') (hdb : db.Sound)
    (hnone : db.documentBySha? doc.sha256 = none) (hpath : doc.blobPath.sha256 = doc.sha256) : db'.Sound := by
  obtain ⟨row, hdocs, hid, hsha, hblob⟩ := h.documents
  have hrow : row ∈ db'.documents := by
    rw [hdocs]
    exact List.mem_append_right _ (List.mem_singleton_self row)
  refine ⟨hdb.corpus.insertDocument (hid ▸ h.new) (hsha ▸ hnone) hdocs h.connectorItems, fun a ha => ?_, fun r hr => ?_⟩
  · rcases h.grants a ha with hold | hnew
    · obtain ⟨doc', hdoc', hdocId⟩ := hdb.acl a hold
      refine ⟨doc', ?_, hdocId⟩
      rw [hdocs]
      exact List.mem_append_left _ hdoc'
    · obtain ⟨_, _, hdocId, _⟩ := hnew
      exact ⟨row, hrow, hid.trans hdocId.symm⟩
  · rw [hdocs] at hr
    rcases List.mem_append.mp hr with hold | hnew
    · exact hdb.paths r hold
    · obtain rfl := List.mem_singleton.mp hnew
      rw [hblob, hpath, hsha]

/-- A digest has the same row, file, grants and links in both. -/
structure SameAt (digest : String) (db : Db) (blobs : Blobs) (db' : Db) (blobs' : Blobs) : Prop where
  documents : ∀ r : Document, r.sha256 = digest → (r ∈ db'.documents ↔ r ∈ db.documents)
  blobs : ∀ p : BlobPath, p.sha256 = digest → blobs' p = blobs p
  grants : ∀ r ∈ db.documents, r.sha256 = digest → ∀ a, a.docId = r.id → (a ∈ db'.documentAcl ↔ a ∈ db.documentAcl)
  links : ∀ r ∈ db.documents, r.sha256 = digest → ∀ i, i.docId = some r.id → (i ∈ db'.connectorItems ↔ i ∈ db.connectorItems)
  userGroups : db'.userGroups = db.userGroups

theorem SameAt.refl (digest : String) (db : Db) (blobs : Blobs) : SameAt digest db blobs db blobs :=
  ⟨fun _ _ => Iff.rfl, fun _ _ => rfl, fun _ _ _ _ _ => Iff.rfl, fun _ _ _ _ _ => Iff.rfl, rfl⟩

theorem SameAt.trans (h : SameAt digest db blobs db1 blobs1) (h1 : SameAt digest db1 blobs1 db' blobs') :
    SameAt digest db blobs db' blobs' where
  documents r hr := (h1.documents r hr).trans (h.documents r hr)
  blobs p hp := (h1.blobs p hp).trans (h.blobs p hp)
  grants r hr hsha a ha := (h1.grants r ((h.documents r hsha).mpr hr) hsha a ha).trans (h.grants r hr hsha a ha)
  links r hr hsha i hi := (h1.links r ((h.documents r hsha).mpr hr) hsha i hi).trans (h.links r hr hsha i hi)
  userGroups := h1.userGroups.trans h.userGroups

theorem mem_unlink {id : Uuid} {i : ConnectorItem} {e : Uuid} (hi : i.docId = some e) (hne : e ≠ id) :
    i ∈ db.connectorItems.map (ConnectorItem.unlink id) ↔ i ∈ db.connectorItems := by
  constructor
  · intro h
    obtain ⟨j, hj, rfl⟩ := List.mem_map.mp h
    obtain ⟨hje, _⟩ := (ConnectorItem.unlink_docId id e j).mp hi
    have hsame : j.unlink id = j := by
      unfold ConnectorItem.unlink
      rw [if_neg]
      rw [hje]
      simpa using hne
    rw [hsame]
    exact hj
  · intro h
    refine List.mem_map.mpr ⟨i, h, ?_⟩
    unfold ConnectorItem.unlink
    rw [if_neg]
    rw [hi]
    simpa using hne

theorem sameAt_deleteDocument (hdb : db.Sound) (hd : d ∈ db.documents) (hne : digest ≠ d.sha256) (blobs : Blobs) :
    SameAt digest db blobs (db.deleteDocument d.id) blobs := by
  have hother : ∀ r ∈ db.documents, r.sha256 = digest → r.id ≠ d.id := by
    intro r hr hsha hid
    have hsame : r = d := hdb.corpus.docId.eq_of_key hr hd hid
    rw [hsame] at hsha
    exact hne hsha.symm
  refine ⟨fun r hsha => ?_, fun _ _ => rfl, fun r hr hsha a ha => ?_, fun r hr hsha i hi => ?_, rfl⟩
  · rw [Db.mem_deleteDocument]
    exact ⟨And.left, fun hr => ⟨hr, hother r hr hsha⟩⟩
  · have hkept : a.docId ≠ d.id := ha ▸ hother r hr hsha
    change a ∈ deleteWhere (fun r => r.docId = d.id) db.documentAcl ↔ _
    rw [mem_deleteWhere]
    simp [hkept]
  · exact mem_unlink hi (hother r hr hsha)

theorem StoredIn.sameAt {doc : Document} {rules : List AccessRule} (h : StoredIn doc rules db db')
    (hne : digest ≠ doc.sha256) (blobs : Blobs) : SameAt digest db blobs db' blobs := by
  obtain ⟨row, hdocs, hid, hsha, _⟩ := h.documents
  have hnew : ∀ r ∈ db.documents, r.id ≠ doc.id := selectOne_eq_none.mp h.new
  refine ⟨fun r hr => ?_, fun _ _ => rfl, fun r hr _ a ha => ⟨fun ha' => ?_, h.kept a⟩, fun r hr _ i hi => ?_, h.userGroups⟩
  · rw [hdocs, List.mem_append, List.mem_singleton]
    refine ⟨fun hmem => hmem.resolve_right fun hrow => hne ?_, Or.inl⟩
    rw [← hr, hrow, hsha]
  · rcases h.grants a ha' with hold | hgrant
    · exact hold
    · obtain ⟨_, _, hdocId, _⟩ := hgrant
      exact absurd (ha.symm.trans hdocId) (hnew r hr)
  · rw [h.connectorItems]

theorem IngestEnds.sound {faults : IngestFaults} {u : Upload} {parsed : Parsed}
    (h : IngestEnds sha256Hex settings faults u parsed db blobs db' blobs') (hdb : db.Sound)
    (hnone : db.documentBySha? (sha256Hex u.data) = none) : db'.Sound := by
  cases h with
  | discarded => exact hdb
  | stored _ _ hsha hpath hstored => exact hstored.sound hdb (hsha ▸ hnone) (by rw [hpath, hsha]; rfl)
  | untouched => exact hdb

theorem IngestEnds.sameAt {faults : IngestFaults} {u : Upload} {parsed : Parsed}
    (h : IngestEnds sha256Hex settings faults u parsed db blobs db' blobs') (hne : digest ≠ sha256Hex u.data) :
    SameAt digest db blobs db' blobs' := by
  cases h with
  | discarded =>
    refine ⟨fun _ _ => Iff.rfl, fun p hp => deleteBlob_ne (fun hpath => hne ?_) blobs, fun _ _ _ _ _ => Iff.rfl,
      fun _ _ _ _ _ => Iff.rfl, rfl⟩
    rw [← hp, hpath]
    rfl
  | stored _ _ hsha _ hstored => exact hstored.sameAt (hsha ▸ hne) blobs
  | untouched => exact .refl _ _ _

theorem StepEnds.sound (h : StepEnds sha256Hex settings d e db blobs db' blobs') (hdb : db.Sound)
    (hsel : Selected sha256Hex d db blobs) : db'.Sound := by
  cases h with
  | unchanged => exact hdb
  | deleted => exact hdb.deleteDocument d.id
  | ingested hdeletes _ hends =>
    refine hends.sound (hdb.deleteDocument d.id) ?_
    rw [(reupload_path hsel hdeletes.2.1).2]
    exact deleteDocument_noDigest hdb hsel.mem

theorem StepEnds.sameAt (h : StepEnds sha256Hex settings d e db blobs db' blobs') (hdb : db.Sound)
    (hsel : Selected sha256Hex d db blobs) (hne : digest ≠ d.sha256) : SameAt digest db blobs db' blobs' := by
  cases h with
  | unchanged => exact .refl _ _ _
  | deleted => exact sameAt_deleteDocument hdb hsel.mem hne blobs
  | ingested hdeletes _ hends =>
    refine (sameAt_deleteDocument hdb hsel.mem hne blobs).trans (hends.sameAt ?_)
    rw [(reupload_path hsel hdeletes.2.1).2]
    exact hne

/-! What a step preserves of its own document. -/

theorem preserved_unchanged (hd : d ∈ db.documents) (blobs : Blobs) : Preserved d db blobs db blobs :=
  ⟨fun h => Or.inr h, fun _ hv => ⟨d, hd, rfl, hv⟩, fun a ha hdoc => ⟨d, hd, rfl, a, ha, hdoc, rfl, rfl, rfl⟩,
    fun i hi hdoc => ⟨d, hd, rfl, i, hi, rfl, hdoc⟩⟩

theorem visible_of_grants (hgroups : db'.userGroups = db.userGroups)
    (hgrants : ∀ a ∈ db.documentAcl, a.docId = d.id → ∃ r ∈ db'.documents, r.sha256 = d.sha256 ∧
      ∃ a' ∈ db'.documentAcl, a'.docId = r.id ∧ a'.principalType = a.principalType ∧ a'.principalId = a.principalId ∧
        a'.source = a.source) (user : User) (h : VisibleTo db user d.id) :
    ∃ r ∈ db'.documents, r.sha256 = d.sha256 ∧ VisibleTo db' user r.id := by
  obtain ⟨a, ha, hdoc, hprincipal⟩ := h
  obtain ⟨r, hr, hsha, a', ha', hdoc', htype, hid, _⟩ := hgrants a ha hdoc
  refine ⟨r, hr, hsha, a', ha', hdoc', ?_⟩
  rw [htype, hid, hgroups]
  exact hprincipal

/-- A deleted document without a new row: the file must be there, and nothing may have hung on the row. -/
theorem preserved_deleted_iff (hdb : db.Sound) (hd : d ∈ db.documents) (hblob : (blobs d.blobPath).isSome) :
    Preserved d db blobs (db.deleteDocument d.id) blobs' ↔ (blobs' d.blobPath).isSome ∧
      (∀ i ∈ db.connectorItems, i.docId ≠ some d.id) ∧ ∀ a ∈ db.documentAcl, a.docId ≠ d.id := by
  have hgone : ∀ r ∈ (db.deleteDocument d.id).documents, r.sha256 ≠ d.sha256 :=
    selectOne_eq_none.mp (deleteDocument_noDigest hdb hd)
  constructor
  · intro h
    refine ⟨?_, fun i hi hdoc => ?_, fun a ha hdoc => ?_⟩
    · rcases h.bytes hblob with hrow | hfile
      · obtain ⟨r, hr, hsha, _⟩ := hrow
        exact absurd hsha (hgone r hr)
      · exact hfile
    · obtain ⟨r, hr, hsha, _⟩ := h.links i hi hdoc
      exact hgone r hr hsha
    · obtain ⟨r, hr, hsha, _⟩ := h.grants a ha hdoc
      exact hgone r hr hsha
  · intro h
    obtain ⟨hfile, hlinks, hgrants⟩ := h
    refine ⟨fun _ => Or.inr hfile, fun user hv => ?_, fun a ha hdoc => absurd hdoc (hgrants a ha),
      fun i hi hdoc => absurd hdoc (hlinks i hi)⟩
    obtain ⟨a, ha, hdoc, _⟩ := hv
    exact absurd hdoc (hgrants a ha)

/-- A document with a new row: its links are gone with the old one, and its grants are those of the matched rules. -/
theorem preserved_stored_iff {doc : Document} {rules : List AccessRule} (hdb : db.Sound) (hd : d ∈ db.documents)
    (h : StoredIn doc rules (db.deleteDocument d.id) db') (hsha : doc.sha256 = d.sha256)
    (hblob : (blobs d.blobPath).isSome) : Preserved d db blobs db' blobs ↔
      (∀ i ∈ db.connectorItems, i.docId ≠ some d.id) ∧ ∀ a ∈ db.documentAcl, a.docId = d.id → RegrantedBy rules a := by
  obtain ⟨row, hdocs, hid, hrowSha, hrowPath⟩ := h.documents
  have hgone : ∀ r ∈ (db.deleteDocument d.id).documents, r.sha256 ≠ d.sha256 :=
    selectOne_eq_none.mp (deleteDocument_noDigest hdb hd)
  have hrow : row ∈ db'.documents := by
    rw [hdocs]
    exact List.mem_append_right _ (List.mem_singleton_self row)
  have hfresh : ∀ r ∈ (db.deleteDocument d.id).documents, r.id ≠ doc.id := selectOne_eq_none.mp h.new
  have honly : ∀ r ∈ db'.documents, r.sha256 = d.sha256 → r.id = doc.id := by
    intro r hr hr'
    rw [hdocs] at hr
    rcases List.mem_append.mp hr with hold | hnew
    · exact absurd hr' (hgone r hold)
    · rw [List.mem_singleton.mp hnew, hid]
  constructor
  · intro hkept
    refine ⟨fun i hi hdoc => ?_, fun a ha hdoc => ?_⟩
    · obtain ⟨r, hr, hr', i', hi', _, hlink⟩ := hkept.links i hi hdoc
      rw [h.connectorItems] at hi'
      obtain ⟨doc', hdoc', hdocId⟩ := (hdb.deleteDocument d.id).corpus.itemDoc i' hi' r.id hlink
      exact hfresh doc' hdoc' (hdocId.trans (honly r hr hr'))
    · obtain ⟨r, hr, hr', a', ha', hdoc', htype, hprincipal, hsource⟩ := hkept.grants a ha hdoc
      rcases h.grants a' ha' with hold | hnew
      · obtain ⟨doc', hmem, hdocId⟩ := (hdb.deleteDocument d.id).acl a' hold
        exact absurd (hdocId.trans (hdoc'.trans (honly r hr hr'))) (hfresh doc' hmem)
      · obtain ⟨rule, hrule, _, hgroup, hgroupId, hrulesource⟩ := hnew
        exact ⟨rule, hrule, htype ▸ hgroup, hprincipal ▸ hgroupId, hsource ▸ hrulesource⟩
  · intro hkept
    obtain ⟨hlinks, hgrants⟩ := hkept
    have hregranted : ∀ a ∈ db.documentAcl, a.docId = d.id → ∃ r ∈ db'.documents, r.sha256 = d.sha256 ∧
        ∃ a' ∈ db'.documentAcl, a'.docId = r.id ∧ a'.principalType = a.principalType ∧
          a'.principalId = a.principalId ∧ a'.source = a.source := by
      intro a ha hdoc
      obtain ⟨rule, hrule, htype, hprincipal, hsource⟩ := hgrants a ha hdoc
      obtain ⟨a', ha', hdoc', htype', hprincipal', hsource'⟩ := hasRuleGrant_iff.mp (h.granted rule hrule)
      exact ⟨row, hrow, hrowSha.trans hsha, a', ha', hdoc'.trans hid.symm, htype'.trans htype.symm,
        hprincipal'.trans hprincipal.symm, hsource'.trans hsource.symm⟩
    exact ⟨fun _ => Or.inr hblob, visible_of_grants h.userGroups hregranted, hregranted,
      fun i hi hdoc => absurd hdoc (hlinks i hi)⟩

theorem Stores.unique {faults : IngestFaults} {u : Upload} {parsed : Parsed} {chunks chunks' : List Chunk}
    (h : Stores sha256Hex settings faults u parsed db blobs chunks)
    (h' : Stores sha256Hex settings faults u parsed db blobs chunks') : chunks = chunks' := by
  obtain ⟨work, c, _, embeddings, hopen, _, _, _, hembedded, hchunks⟩ := h
  obtain ⟨_, _, _, _, _, hembedded', hchunks'⟩ := (stores_iff hopen).mp h'
  rw [hembedded] at hembedded'
  obtain rfl := Except.ok.inj hembedded'
  rw [hchunks] at hchunks'
  exact Except.ok.inj hchunks'

theorem StepEnds.preserved_iff (h : StepEnds sha256Hex settings d e db blobs db' blobs') (hdb : db.Sound)
    (hsel : Selected sha256Hex d db blobs) : Preserved d db blobs db' blobs' ↔
      (e.deletes d blobs → Harmless sha256Hex settings d e db blobs) := by
  cases h with
  | unchanged hkept => exact iff_of_true (preserved_unchanged hsel.mem blobs) fun hdeletes => absurd hdeletes hkept
  | deleted hdeletes hraised =>
    rw [preserved_deleted_iff hdb hsel.mem hdeletes.2.1]
    constructor
    · intro hkept _
      obtain ⟨_, hlinks, hgrants⟩ := hkept
      exact ⟨hlinks, fun hdurable => absurd hdurable hraised, fun a ha hdoc => absurd hdoc (hgrants a ha)⟩
    · intro hharmless
      have hs := hharmless hdeletes
      exact ⟨hdeletes.2.1, hs.links, fun a ha hdoc => hraised (hs.grants a ha hdoc).1⟩
  | ingested hdeletes hdurable hends =>
    obtain ⟨hpath, hsha⟩ := reupload_path hsel hdeletes.2.1
    cases hends with
    | discarded hdiscards =>
      rw [preserved_deleted_iff hdb hsel.mem hdeletes.2.1]
      refine iff_of_false (fun hkept => ?_) fun hharmless => (hharmless hdeletes).file hdurable hdiscards
      have hfile := hkept.1
      rw [hpath] at hfile
      simp [deleteBlob] at hfile
    | untouched hkeeps hnever =>
      rw [preserved_deleted_iff hdb hsel.mem hdeletes.2.1]
      constructor
      · intro hkept _
        obtain ⟨_, hlinks, hgrants⟩ := hkept
        exact ⟨hlinks, fun _ => hkeeps, fun a ha hdoc => absurd hdoc (hgrants a ha)⟩
      · intro hharmless
        have hs := hharmless hdeletes
        refine ⟨hdeletes.2.1, hs.links, fun a ha hdoc => ?_⟩
        obtain ⟨_, chunks, hstores, _⟩ := hs.grants a ha hdoc
        exact hnever chunks hstores
    | stored hkeeps hstores hdocSha hdocPath hdb' =>
      rw [preserved_stored_iff hdb hsel.mem hdb' (hdocSha.trans hsha) hdeletes.2.1]
      constructor
      · intro hkept _
        exact ⟨hkept.1, fun _ => hkeeps, fun a ha hdoc => ⟨hdurable, _, hstores, hkept.2 a ha hdoc⟩⟩
      · intro hharmless
        have hs := hharmless hdeletes
        refine ⟨hs.links, fun a ha hdoc => ?_⟩
        obtain ⟨_, chunks, hstores', hregranted⟩ := hs.grants a ha hdoc
        rw [hstores'.unique hstores] at hregranted
        exact hregranted

/-! What is the same for a digest is preserved alike. -/

theorem SameAt.symm (h : SameAt digest db blobs db' blobs') : SameAt digest db' blobs' db blobs where
  documents r hr := (h.documents r hr).symm
  blobs p hp := (h.blobs p hp).symm
  grants r hr hsha a ha := (h.grants r ((h.documents r hsha).mp hr) hsha a ha).symm
  links r hr hsha i hi := (h.links r ((h.documents r hsha).mp hr) hsha i hi).symm
  userGroups := h.userGroups.symm

theorem SameAt.visible (h : SameAt digest db blobs db' blobs') {r : Document} (hr : r ∈ db.documents) (hsha : r.sha256 = digest)
    {user : User} (hv : VisibleTo db user r.id) : VisibleTo db' user r.id := by
  obtain ⟨a, ha, hdoc, hprincipal⟩ := hv
  refine ⟨a, (h.grants r hr hsha a hdoc).mpr ha, hdoc, ?_⟩
  rw [h.userGroups]
  exact hprincipal

theorem Selected.blobDigest (h : Selected sha256Hex d db blobs) : d.blobPath.sha256 = d.sha256 := by
  rw [h.path]
  rfl

theorem Selected.sameAt (h : Selected sha256Hex d db blobs) (hsame : SameAt d.sha256 db blobs db' blobs') :
    Selected sha256Hex d db' blobs' where
  mem := (hsame.documents d rfl).mpr h.mem
  path := h.path
  content := by
    rw [hsame.blobs d.blobPath h.blobDigest]
    exact h.content

theorem Preserved.later (h : Preserved d db blobs db1 blobs1) (hsame : SameAt d.sha256 db1 blobs1 db' blobs')
    (hdb1 : db1.Sound) (hdigest : d.blobPath.sha256 = d.sha256) : Preserved d db blobs db' blobs' where
  bytes := by
    intro hblob
    rw [hsame.blobs d.blobPath hdigest]
    refine (h.bytes hblob).imp_left fun hrow => ?_
    obtain ⟨r, hr, hsha, hfile⟩ := hrow
    refine ⟨r, (hsame.documents r hsha).mpr hr, hsha, ?_⟩
    rw [hsame.blobs r.blobPath ((hdb1.paths r hr).trans hsha)]
    exact hfile
  visible := by
    intro user hv
    obtain ⟨r, hr, hsha, hv'⟩ := h.visible user hv
    exact ⟨r, (hsame.documents r hsha).mpr hr, hsha, hsame.visible hr hsha hv'⟩
  grants := by
    intro a ha hdoc
    obtain ⟨r, hr, hsha, a', ha', hdoc', hcols⟩ := h.grants a ha hdoc
    exact ⟨r, (hsame.documents r hsha).mpr hr, hsha, a', (hsame.grants r hr hsha a' hdoc').mpr ha', hdoc', hcols⟩
  links := by
    intro i hi hdoc
    obtain ⟨r, hr, hsha, i', hi', hkey, hdoc'⟩ := h.links i hi hdoc
    exact ⟨r, (hsame.documents r hsha).mpr hr, hsha, i', (hsame.links r hr hsha i' hdoc').mpr hi', hkey, hdoc'⟩

theorem Preserved.earlier (h : Preserved d db1 blobs1 db' blobs') (hsame : SameAt d.sha256 db blobs db1 blobs1)
    (hd : d ∈ db.documents) (hdigest : d.blobPath.sha256 = d.sha256) : Preserved d db blobs db' blobs' where
  bytes := by
    rw [← hsame.blobs d.blobPath hdigest]
    exact h.bytes
  visible user hv := h.visible user (hsame.visible hd rfl hv)
  grants a ha hdoc := h.grants a ((hsame.grants d hd rfl a hdoc).mpr ha) hdoc
  links i hi hdoc := h.links i ((hsame.links d hd rfl i hdoc).mpr hi) hdoc

/-! The whole script. -/

/-- Every step that the script comes to and that deletes is harmless. -/
def AllHarmless (sha256Hex : Bytes → String) (settings : Settings) : List (Document × ReingestFaults) → Db → Blobs → Prop
  | [], _, _ => True
  | (d, e) :: rest, db, blobs => (e.deletes d blobs → Harmless sha256Hex settings d e db blobs) ∧
    ∀ c, reingestDocument sha256Hex settings d e (Conn.fresh db blobs) = (.ok (), c) →
      AllHarmless sha256Hex settings rest c.committed c.outside

theorem selected_distinct {selected : List (Document × ReingestFaults)} (hdb : db.Sound)
    (hsel : Selected sha256Hex d db blobs) (hrest : ∀ p ∈ selected, Selected sha256Hex p.1 db blobs)
    (honce : d ∉ selected.map Prod.fst) : ∀ p ∈ selected, p.1.sha256 ≠ d.sha256 := by
  intro p hp hsha
  have hsame : p.1 = d := hdb.corpus.docSha.eq_of_key (hrest p hp).mem hsel.mem hsha
  exact honce (hsame ▸ List.mem_map_of_mem hp)

theorem StepEnds.selected {selected : List (Document × ReingestFaults)}
    (h : StepEnds sha256Hex settings d e db blobs db' blobs') (hdb : db.Sound) (hsel : Selected sha256Hex d db blobs)
    (hrest : ∀ p ∈ selected, Selected sha256Hex p.1 db blobs) (honce : d ∉ selected.map Prod.fst) :
    ∀ p ∈ selected, SameAt p.1.sha256 db blobs db' blobs' ∧ Selected sha256Hex p.1 db' blobs' := by
  intro p hp
  have hsame := h.sameAt hdb hsel (selected_distinct hdb hsel hrest honce p hp)
  exact ⟨hsame, (hrest p hp).sameAt hsame⟩

theorem reingestAll_ok {rest : List (Document × ReingestFaults)} {u : Unit}
    (h : reingestDocument sha256Hex settings d e c = (.ok u, c')) (hrest : c'.AtRest) :
    reingestAll sha256Hex settings ((d, e) :: rest) c =
      reingestAll sha256Hex settings rest (Conn.fresh c'.committed c'.outside) := by
  have hrun : reingestAll sha256Hex settings ((d, e) :: rest) c = reingestAll sha256Hex settings rest c' := Sql.bind_of_ok h
  rw [hrun]
  exact congrArg _ hrest

theorem reingestAll_sameAt {selected : List (Document × ReingestFaults)} (hdb : db.Sound)
    (hsel : ∀ p ∈ selected, Selected sha256Hex p.1 db blobs) (honce : (selected.map Prod.fst).Nodup)
    (hother : ∀ p ∈ selected, digest ≠ p.1.sha256) :
    SameAt digest db blobs (reingestAll sha256Hex settings selected (Conn.fresh db blobs)).2.committed
      (reingestAll sha256Hex settings selected (Conn.fresh db blobs)).2.outside ∧
    (reingestAll sha256Hex settings selected (Conn.fresh db blobs)).2.committed.Sound := by
  induction selected generalizing db blobs with
  | nil => exact ⟨.refl _ _ _, hdb⟩
  | cons p rest ih =>
    obtain ⟨d, e⟩ := p
    have hd := hsel (d, e) List.mem_cons_self
    obtain ⟨honce, hnodup⟩ := List.nodup_cons.mp honce
    obtain ⟨hends, hrest⟩ := @reingestDocument_ends sha256Hex settings d db blobs hdb hd e
    have hstep := hends.sameAt hdb hd (hother (d, e) List.mem_cons_self)
    have hsound := hends.sound hdb hd
    have hothers := hends.selected hdb hd (fun p hp => hsel p (List.mem_cons_of_mem _ hp)) honce
    cases hrun : reingestDocument sha256Hex settings d e (Conn.fresh db blobs) with
    | mk r c1 =>
      rw [hrun] at hstep hsound hothers hrest
      cases r with
      | error exc =>
        have hall : reingestAll sha256Hex settings ((d, e) :: rest) (Conn.fresh db blobs) = (.error exc, c1) :=
          Sql.bind_of_error hrun
        rw [hall]
        exact ⟨hstep, hsound⟩
      | ok u =>
        rw [reingestAll_ok hrun (hrest u rfl)]
        obtain ⟨hlater, hsound'⟩ := ih hsound (fun p hp => (hothers p hp).2) hnodup
          fun p hp => hother p (List.mem_cons_of_mem _ hp)
        exact ⟨hstep.trans hlater, hsound'⟩

/-- The script preserves the selected documents exactly when every step that it comes to is harmless. -/
theorem reingest_preserves_iff {selected : List (Document × ReingestFaults)} (hdb : db.Sound)
    (hsel : ∀ p ∈ selected, Selected sha256Hex p.1 db blobs) (honce : (selected.map Prod.fst).Nodup) :
    (∀ p ∈ selected, Preserved p.1 db blobs
      (reingestAll sha256Hex settings selected (Conn.fresh db blobs)).2.committed
      (reingestAll sha256Hex settings selected (Conn.fresh db blobs)).2.outside) ↔
    AllHarmless sha256Hex settings selected db blobs := by
  induction selected generalizing db blobs with
  | nil => simp [AllHarmless]
  | cons p rest ih =>
    obtain ⟨d, e⟩ := p
    have hd := hsel (d, e) List.mem_cons_self
    obtain ⟨hnotin, hnodup⟩ := List.nodup_cons.mp honce
    obtain ⟨hends, hrest⟩ := @reingestDocument_ends sha256Hex settings d db blobs hdb hd e
    have hiff := hends.preserved_iff hdb hd
    have hsound := hends.sound hdb hd
    have hothers := hends.selected hdb hd (fun p hp => hsel p (List.mem_cons_of_mem _ hp)) hnotin
    unfold AllHarmless
    rw [List.forall_mem_cons, ← hiff]
    cases hrun : reingestDocument sha256Hex settings d e (Conn.fresh db blobs) with
    | mk r c1 =>
      rw [hrun] at hsound hothers hrest
      cases r with
      | error exc =>
        have hall : reingestAll sha256Hex settings ((d, e) :: rest) (Conn.fresh db blobs) = (.error exc, c1) :=
          Sql.bind_of_error hrun
        rw [hall]
        refine and_congr_right fun _ => iff_of_true (fun p hp => ?_) fun c h => ?_
        · have hp' := hsel p (List.mem_cons_of_mem _ hp)
          exact (preserved_unchanged hp'.mem blobs).later (hothers p hp).1 hdb hp'.blobDigest
        · cases h
      | ok u =>
        have hall : reingestAll sha256Hex settings ((d, e) :: rest) (Conn.fresh db blobs) =
            reingestAll sha256Hex settings rest (Conn.fresh c1.committed c1.outside) := reingestAll_ok hrun (hrest u rfl)
        have hdistinct := selected_distinct hdb hd (fun p hp => hsel p (List.mem_cons_of_mem _ hp)) hnotin
        obtain ⟨hlater, hsound'⟩ := @reingestAll_sameAt sha256Hex settings c1.committed c1.outside d.sha256 rest hsound
          (fun p hp => (hothers p hp).2) hnodup fun p hp => (hdistinct p hp).symm
        have hstep := ih hsound (fun p hp => (hothers p hp).2) hnodup
        rw [hall]
        refine and_congr ⟨fun h => h.later hlater.symm hsound' hd.blobDigest, fun h => h.later hlater hsound hd.blobDigest⟩ ?_
        constructor
        · intro h c hc
          obtain rfl := (Prod.mk.inj hc).2
          refine hstep.mp fun p hp => ?_
          have hp' := hsel p (List.mem_cons_of_mem _ hp)
          exact (h p hp).earlier (hothers p hp).1.symm (hothers p hp).2.mem hp'.blobDigest
        · intro h p hp
          have hp' := hsel p (List.mem_cons_of_mem _ hp)
          exact (hstep.mpr (h c1 rfl) p hp).earlier (hothers p hp).1 hp'.mem hp'.blobDigest

/-- The image as an earlier ingest has stored it. -/
def scan : Document := { pngUpload.document pngDigest 4 "image/png" with status := .ready }

def scanDb (grants : List DocumentAcl) : Db :=
  { Db.empty with documents := [scan], documentAcl := grants }

def scanBlobs : Blobs := fun p => if p = scan.blobPath then some pngUpload.data else none

/-- A step that nothing disturbs up to the parsing. -/
def scanFaults (parsed : Parsed) : ReingestFaults :=
  ⟨none, none, .durable, parsed, { timedOutFaults with embedded := .ok [[]] }, .durable⟩

theorem scanDb_sound {grants : List DocumentAcl} (h : ∀ a ∈ grants, a.docId = 4) : (scanDb grants).Sound where
  corpus := ⟨by simp [scanDb, UniqueOn], by simp [scanDb, UniqueOn], by simp [scanDb, UniqueOn, Db.empty],
    by simp [scanDb, Db.empty]⟩
  acl a ha := ⟨scan, List.mem_singleton_self scan, (h a ha).symm⟩
  paths := by
    intro doc hdoc
    rw [List.mem_singleton.mp hdoc]
    rfl

theorem scan_selected (grants : List DocumentAcl) : Selected pngDigest scan (scanDb grants) scanBlobs :=
  ⟨List.mem_singleton_self scan, rfl, fun _ _ => rfl⟩

/-- The image without grants and links is ingested again. -/
theorem reingest_preserves_scan :
    Preserved scan (scanDb []) scanBlobs
      (reingestAll pngDigest {} [(scan, scanFaults pngPassage)] (Conn.fresh (scanDb []) scanBlobs)).2.committed
      (reingestAll pngDigest {} [(scan, scanFaults pngPassage)] (Conn.fresh (scanDb []) scanBlobs)).2.outside := by
  have hsel : ∀ p ∈ [(scan, scanFaults pngPassage)], Selected pngDigest p.1 (scanDb []) scanBlobs := by
    intro p hp
    rw [List.mem_singleton.mp hp]
    exact scan_selected []
  apply (reingest_preserves_iff (scanDb_sound (by simp)) hsel (by simp)).mpr ?_ _ (List.mem_singleton_self _)
  refine ⟨fun _ => ⟨fun i hi => ?_, fun _ h => ?_, fun a ha => ?_⟩, fun c _ => trivial⟩
  · cases hi
  · obtain ⟨_, hparse | hstore⟩ := h
    · simp [scanFaults, pngPassage, Parsed.discards] at hparse
    · have hopen : ∃ c, openIngest pngDigest {} (scanFaults pngPassage).alone (scan.reupload scanBlobs) pngPassage
          (Conn.fresh ((scanDb []).deleteDocument scan.id) scanBlobs) = (.ok (.inr pngFlushed), c) ∧
          ∃ resp c', ingestTry {} (scanFaults pngPassage).alone pngFlushed c = (.ok resp, c') := ⟨_, rfl, _, _, rfl⟩
      obtain ⟨c, hopen, resp, c', htry⟩ := hopen
      obtain ⟨exc, c2, hraised, _⟩ := (storeFails_iff hopen).mp hstore.1
      rw [htry] at hraised
      cases hraised
  · cases ha

/-- The script over the image, which everyone may see. -/
def reingestScan (parsed : Parsed) : Except PyError Unit × Conn Db Blobs :=
  reingestAll pngDigest {} [(scan, scanFaults parsed)]
    (Conn.fresh (scanDb [⟨0, 4, .everyone, none, .local⟩]) scanBlobs)

/-- Where its parsing fails now, the row and the file are gone; where all goes well, nobody but an admin sees it. -/
theorem reingest_loses_scan :
    (scanDb [⟨0, 4, .everyone, none, .local⟩]).Sound ∧
    Selected pngDigest scan (scanDb [⟨0, 4, .everyone, none, .local⟩]) scanBlobs ∧
    (reingestScan (.raised ⟨"ReadTimeout", ""⟩)).2.committed.documents = [] ∧
    (reingestScan (.raised ⟨"ReadTimeout", ""⟩)).2.outside scan.blobPath = none ∧
    ¬ Preserved scan (scanDb [⟨0, 4, .everyone, none, .local⟩]) scanBlobs
      (reingestScan (.raised ⟨"ReadTimeout", ""⟩)).2.committed (reingestScan (.raised ⟨"ReadTimeout", ""⟩)).2.outside ∧
    (reingestScan pngPassage).1.toOption = some () ∧
    (reingestScan pngPassage).2.committed.documents.map Document.status = [.ready] ∧
    (reingestScan pngPassage).2.committed.documentAcl = [] ∧
    ¬ Preserved scan (scanDb [⟨0, 4, .everyone, none, .local⟩]) scanBlobs (reingestScan pngPassage).2.committed
      (reingestScan pngPassage).2.outside := by
  have hgone : (reingestScan (.raised ⟨"ReadTimeout", ""⟩)).2.committed.documents = [] := by decide +kernel
  have hunseen : (reingestScan pngPassage).2.committed.documentAcl = [] := by decide +kernel
  refine ⟨scanDb_sound (by simp), scan_selected _, hgone, by decide +kernel, fun h => ?_, by decide +kernel,
    by decide +kernel, hunseen, fun h => ?_⟩
  · obtain ⟨r, hr, _⟩ := h.grants _ (List.mem_singleton_self _) rfl
    rw [hgone] at hr
    cases hr
  · obtain ⟨r, _, _, a, ha, _⟩ := h.grants _ (List.mem_singleton_self _) rfl
    rw [hunseen] at ha
    cases ha

end ProRag
