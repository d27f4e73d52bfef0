import Mathlib.Data.Rat.Defs
import ProRag.Framework.Rows

/-!
# The persistence layer

The tables of `models.py` and the migrations that the modelled operations read or write,
each row with the columns they use, and the database as one record of tables.  Identifiers
are the `uuid4` values, timestamps are instants in microseconds.
-/

namespace ProRag

open Framework

abbrev Uuid := Nat
abbrev Timestamp := Int
abbrev Bytes := List UInt8
abbrev Embedding := List ℚ

/-- A text that Postgres can hold: without the character NUL. -/
def pgText (s : String) : Bool := s.toList.all fun c => c.toNat ≠ 0

/-- `{blob_dir}/{sha256}{ext}`.  A hex digest has no dot, so the file name determines both parts. -/
structure BlobPath where
  sha256 : String
  ext : String
deriving DecidableEq, Repr

/-- `documents.status`. -/
inductive DocStatus
  | pending | processing | ready | failed
deriving DecidableEq, Repr

structure Document where
  id : Uuid
  sha256 : String
  filename : String
  mime : String
  blobPath : BlobPath
  title : Option String
  collection : String
  status : DocStatus
  error : Option String
deriving DecidableEq, Repr

/-- `chunks.kind`. -/
inductive ChunkKind
  | prose | row | tableWindow | tableSummary
deriving DecidableEq, Repr

structure Chunk where
  id : Nat
  docId : Uuid
  ord : Nat
  kind : ChunkKind
  text : String
  pageStart : Option Nat
  bbox : Option (List ℚ)
  tableId : Option Uuid
  embedding : Embedding
  embedText : String
deriving DecidableEq

structure Table where
  id : Uuid
  docId : Uuid
deriving DecidableEq, Repr

/-- `table_rows`; `data` is the JSONB object, column by column. -/
structure TableRow where
  id : Nat
  tableId : Uuid
  rowNo : Nat
  data : List (String × String)
deriving DecidableEq, Repr

/-- `document_acl.principal_type`, as the check constraint allows. -/
inductive PrincipalType
  | user | group | everyone
deriving DecidableEq, Repr

/-- `document_acl.source`: `'local'` or the tag `'rule:{id}'` of the rule that wrote the row. -/
inductive AclSource
  | local
  | rule (id : Uuid)
deriving DecidableEq, Repr

structure DocumentAcl where
  id : Nat
  docId : Uuid
  principalType : PrincipalType
  principalId : Option Uuid
  source : AclSource
deriving DecidableEq, Repr

/-- `access_rules.state`. -/
inductive RuleState
  | draft | confirmed
deriving DecidableEq, Repr

structure AccessRule where
  id : Uuid
  name : String
  nlQuery : String
  groupId : Uuid
  state : RuleState
  queryEmbedding : Option Embedding
  confirmedAt : Option Timestamp
deriving DecidableEq

structure User where
  id : Uuid
  externalSubject : Option String
  email : String
  displayName : Option String
  isAdmin : Bool
  passwordHash : Option String
  dailyCapUsdOverride : Option ℚ
  disabledAt : Option Timestamp
deriving DecidableEq

inductive Role
  | user | assistant
deriving DecidableEq, Repr

structure Message where
  id : Uuid
  chatId : Uuid
  role : Role
  content : String
deriving DecidableEq

/-- A marker the answer cited. -/
structure Citation where
  messageId : Uuid
  n : Nat
  docId : Uuid
  page : Option Nat
  bbox : Option (List ℚ)
deriving DecidableEq

/-- `groups.source`. -/
inductive GroupSource
  | local | idp
deriving DecidableEq, Repr

structure Group where
  id : Uuid
  name : String
  source : GroupSource
  externalId : Option String
deriving DecidableEq, Repr

structure UserGroup where
  userId : Uuid
  groupId : Uuid
deriving DecidableEq, Repr

/-- `sessions`; only the hash of the cookie token is stored. -/
structure Session where
  tokenHash : String
  userId : Uuid
  expiresAt : Timestamp
  revokedAt : Option Timestamp
deriving DecidableEq, Repr

/-- `api_keys`; a null `user_id` is the legacy unscoped key. -/
structure ApiKey where
  keyHash : String
  collection : Option String
  userId : Option Uuid
deriving DecidableEq, Repr

structure Connector where
  id : Uuid
  collection : String
  lastSyncAt : Option Timestamp
  lastFullSweepAt : Option Timestamp
deriving DecidableEq, Repr

/-- `connector_items.status`. -/
inductive ItemStatus
  | pending | synced | skipped | error | deleted
deriving DecidableEq, Repr

structure ConnectorItem where
  connectorId : Uuid
  externalId : String
  etag : Option String
  size : Option Nat
  lastModified : Option Timestamp
  docId : Option Uuid
  lastSeenAt : Option Timestamp
  status : ItemStatus
  error : Option String
deriving DecidableEq, Repr

/-- The unique column pair `(connector_id, external_id)`. -/
def ConnectorItem.key (i : ConnectorItem) : Uuid × String :=
  (i.connectorId, i.externalId)

/-- The committed database.  `aclSeq` is the sequence behind `document_acl.id`. -/
structure Db where
  documents : List Document
  chunks : List Chunk
  tables : List Table
  tableRows : List TableRow
  documentAcl : List DocumentAcl
  aclSeq : Nat
  accessRules : List AccessRule
  users : List User
  groups : List Group
  userGroups : List UserGroup
  sessions : List Session
  apiKeys : List ApiKey
  connectors : List Connector
  connectorItems : List ConnectorItem

/-- The database right after the migrations. -/
def Db.empty : Db :=
  ⟨[], [], [], [], [], 0, [], [], [], [], [], [], [], []⟩

/-- `SELECT … FROM documents WHERE id = d`. -/
def Db.document? (db : Db) (d : Uuid) : Option Document :=
  selectOne Document.id d db.documents

/-- `SELECT … FROM documents WHERE sha256 = digest`. -/
def Db.documentBySha? (db : Db) (digest : String) : Option Document :=
  selectOne Document.sha256 digest db.documents

/-- `ON DELETE SET NULL` of `connector_items.doc_id`. -/
def ConnectorItem.unlink (d : Uuid) (i : ConnectorItem) : ConnectorItem :=
  if i.docId = some d then { i with docId := none } else i

/-- `DELETE FROM documents WHERE id = d` with what the foreign keys do: chunks, tables, their rows
and the grants go with the document, connector items lose their link. -/
def Db.deleteDocument (d : Uuid) (db : Db) : Db :=
  { db with
    documents := deleteWhere (fun r => r.id = d) db.documents
    chunks := deleteWhere (fun r => r.docId = d) db.chunks
    tables := deleteWhere (fun r => r.docId = d) db.tables
    tableRows := deleteWhere (fun r => db.tables.any fun t => t.id = r.tableId ∧ t.docId = d) db.tableRows
    documentAcl := deleteWhere (fun r => r.docId = d) db.documentAcl
    connectorItems := db.connectorItems.map (ConnectorItem.unlink d) }

/-- One `INSERT INTO document_acl`. -/
def Db.insertAcl (docId : Uuid) (ptype : PrincipalType) (principal : Option Uuid) (source : AclSource)
    (db : Db) : Db :=
  { db with
    documentAcl := db.documentAcl ++ [⟨db.aclSeq, docId, ptype, principal, source⟩]
    aclSeq := db.aclSeq + 1 }

/-- What Postgres enforces on documents and connector items in every state: the primary key, the
unique constraints on `sha256` and on `(connector_id, external_id)`, and the foreign key. -/
structure Db.CorpusOk (db : Db) : Prop where
  docId : UniqueOn Document.id db.documents
  docSha : UniqueOn Document.sha256 db.documents
  itemKey : UniqueOn ConnectorItem.key db.connectorItems
  itemDoc : ∀ i ∈ db.connectorItems, ∀ d, i.docId = some d → ∃ doc ∈ db.documents, doc.id = d

@[simp] theorem ConnectorItem.unlink_key (d : Uuid) (i : ConnectorItem) : (i.unlink d).key = i.key := by
  unfold ConnectorItem.unlink
  split <;> rfl

theorem ConnectorItem.unlink_docId (d e : Uuid) (i : ConnectorItem) :
    (i.unlink d).docId = some e ↔ i.docId = some e ∧ e ≠ d := by
  unfold ConnectorItem.unlink
  split
  · rename_i h
    simp only [reduceCtorEq, false_iff, not_and, not_not]
    intro he
    exact (Option.some.inj (h.symm.trans he)).symm
  · rename_i h
    constructor
    · intro he
      exact ⟨he, fun hed => h (hed ▸ he)⟩
    · exact And.left

@[simp] theorem Db.deleteDocument_documents (d : Uuid) (db : Db) :
    (db.deleteDocument d).documents = deleteWhere (fun r => r.id = d) db.documents := rfl

@[simp] theorem Db.deleteDocument_connectorItems (d : Uuid) (db : Db) :
    (db.deleteDocument d).connectorItems = db.connectorItems.map (ConnectorItem.unlink d) := rfl

theorem Db.mem_deleteDocument {d : Uuid} {db : Db} {doc : Document} :
    doc ∈ (db.deleteDocument d).documents ↔ doc ∈ db.documents ∧ doc.id ≠ d := by
  simp [mem_deleteWhere]

theorem Db.CorpusOk.deleteDocument {db : Db} (h : db.CorpusOk) (d : Uuid) :
    (db.deleteDocument d).CorpusOk where
  docId := h.docId.deleteWhere _
  docSha := h.docSha.deleteWhere _
  itemKey := by
    have hk : (db.connectorItems.map (ConnectorItem.unlink d)).map ConnectorItem.key =
        db.connectorItems.map ConnectorItem.key := by
      simp [List.map_map, Function.comp_def]
    rw [UniqueOn, Db.deleteDocument_connectorItems, hk]
    exact h.itemKey
  itemDoc := by
    intro i hi e he
    obtain ⟨j, hj, rfl⟩ := List.mem_map.mp hi
    obtain ⟨hje, hed⟩ := (ConnectorItem.unlink_docId d e j).mp he
    obtain ⟨doc, hdoc, hid⟩ := h.itemDoc j hj e hje
    exact ⟨doc, Db.mem_deleteDocument.mpr ⟨hdoc, by rw [hid]; exact hed⟩, hid⟩

theorem Db.CorpusOk.congr {db db' : Db} (h : db.CorpusOk) (hdocs : db'.documents = db.documents)
    (hitems : db'.connectorItems = db.connectorItems) : db'.CorpusOk := by
  refine ⟨?_, ?_, ?_, ?_⟩
  · rw [hdocs]; exact h.docId
  · rw [hdocs]; exact h.docSha
  · rw [hitems]; exact h.itemKey
  · rw [hitems, hdocs]; exact h.itemDoc

theorem Db.CorpusOk.insertDocument {db : Db} (h : db.CorpusOk) {doc : Document}
    (hid : db.document? doc.id = none) (hsha : db.documentBySha? doc.sha256 = none) {db' : Db}
    (hdocs : db'.documents = db.documents ++ [doc]) (hitems : db'.connectorItems = db.connectorItems) :
    db'.CorpusOk := by
  refine ⟨?_, ?_, ?_, ?_⟩
  · rw [hdocs]
    exact h.docId.insert (selectOne_eq_none.mp hid)
  · rw [hdocs]
    exact h.docSha.insert (selectOne_eq_none.mp hsha)
  · rw [hitems]
    exact h.itemKey
  · intro i hi d hd
    rw [hitems] at hi
    obtain ⟨e, he, hed⟩ := h.itemDoc i hi d hd
    exact ⟨e, by rw [hdocs]; exact List.mem_append_left _ he, hed⟩

theorem Db.CorpusOk.updateDocuments {db : Db} (h : db.CorpusOk) (p : Document → Bool) {f : Document → Document}
    (hid : ∀ d, (f d).id = d.id) (hsha : ∀ d, (f d).sha256 = d.sha256) :
    ({ db with documents := updateWhere p f db.documents } : Db).CorpusOk where
  docId := h.docId.updateWhere fun d _ => hid d
  docSha := h.docSha.updateWhere fun d _ => hsha d
  itemKey := h.itemKey
  itemDoc := by
    intro i hi e he
    obtain ⟨d, hd, rfl⟩ := h.itemDoc i hi e he
    refine ⟨if p d then f d else d, mem_updateWhere.mpr ⟨d, hd, rfl⟩, ?_⟩
    split
    · exact hid d
    · rfl

end ProRag
