import ProRag.Framework.Pool
import ProRag.Ingest.Router

/-!
# Concurrent ingests and the blob directory

Any number of `ingest_bytes` calls, interleaved at their await points.  A row is visible to the
others when its transaction commits, and an insert waits for an open transaction that holds the
same digest.  Blob writes and deletes take effect at once and are not undone by a rollback.
-/

namespace ProRag

open Framework

structure Upload where
  data : Bytes
  filename : String
  collection : String

/-- Where a call waits. -/
inductive IngestCall
  | selecting (u : Upload)
  | selected (u : Upload) (existing : Option Document)
  | parsing (u : Upload)
  | flushing (u : Upload) (doc : Document)
  | conflicted (u : Upload)
  | storing (u : Upload) (doc : Document)
  | failed (u : Upload) (exc : PyError)
  | rechecked (u : Upload) (exc : PyError) (existing : Option Document)
  | done (result : Except PyError IngestResponse)

/-- How the parsing block ends, or that it awaits the OCR provider. -/
inductive ParseOutcome
  | awaitsOcr
  | parsed (id : Uuid) (mime : String)
  | raised (exc : PyError)
  | imageUnreadable
  | reraised (exc : PyError)
  | noText
  | tooManyChunks (limit : Nat)

/-- What the environment decides when a call moves on. -/
inductive IngestMove
  | read
  | refuseMime (detail : String)
  | parse (outcome : ParseOutcome)
  | flush
  | flushRaises (exc : PyError)
  | commit
  | commitRolledBack
  | fail (exc : PyError)
  | finish
  | finishRaises (exc : PyError)

structure BlobWorld where
  documents : List Document
  blobs : Blobs

variable (sha256Hex : Bytes → String)

def Upload.path (u : Upload) : BlobPath :=
  blobPathFor (sha256Hex u.data) u.filename

/-- The row of the call, as it is added to the session. -/
def Upload.document (u : Upload) (id : Uuid) (mime : String) : Document where
  id := id
  sha256 := sha256Hex u.data
  filename := u.filename
  mime := mime
  blobPath := u.path sha256Hex
  title := some u.filename
  collection := u.collection
  status := .processing
  error := none

/-- The answer to bytes that a committed row already has. -/
def duplicateOf (doc : Document) : Except PyError IngestResponse :=
  .ok ⟨doc.id, doc.status, some doc.id⟩

/-- The parsing block from an outcome on, and the checks behind it. -/
def parseBlock (w : BlobWorld) (u : Upload) : ParseOutcome → BlobWorld × IngestCall
  | .awaitsOcr => (w, .parsing u)
  | .parsed id mime => (w, .flushing u (u.document sha256Hex id mime))
  | .raised exc =>
    ({ w with blobs := deleteBlob (u.path sha256Hex) w.blobs },
      .done (.error (httpException 422 ("could not parse this file (" ++ safeError exc ++ ")"))))
  | .imageUnreadable =>
    ({ w with blobs := deleteBlob (u.path sha256Hex) w.blobs },
      .done (.error (httpException 422 "could not extract text from this image (OCR unavailable?)")))
  | .reraised exc => (w, .done (.error exc))
  | .noText =>
    ({ w with blobs := deleteBlob (u.path sha256Hex) w.blobs },
      .done (.error (httpException 422 "no extractable text found (scanned image PDF or empty file?)")))
  | .tooManyChunks limit =>
    ({ w with blobs := deleteBlob (u.path sha256Hex) w.blobs },
      .done (.error (httpException 413 ("document produced more than " ++ toString limit ++ " chunks"))))

/-- `k` holds an open transaction with an uncommitted row of the digest or the id of this one. -/
def IngestCall.holds (row : Document) : IngestCall → Bool
  | .storing _ doc => doc.sha256 = row.sha256 ∨ doc.id = row.id
  | _ => false

/-- `k` has written its blob and may still commit a row that names it. -/
def IngestCall.usesBlob (path : BlobPath) : IngestCall → Prop
  | .parsing u => u.path sha256Hex = path
  | .flushing _ doc => doc.blobPath = path
  | .storing _ doc => doc.blobPath = path
  | _ => False

def markFailed (id : Uuid) (exc : PyError) (w : BlobWorld) : BlobWorld :=
  { w with
    documents := updateWhere (fun d => d.id = id)
      (fun d => { d with status := .failed, error := some (failureText exc) }) w.documents }

/-- One call moves on to its next await point. -/
def ingestAct (w : BlobWorld) (others : List IngestCall) : IngestCall → IngestMove → Option (BlobWorld × IngestCall)
  | .selecting u, .read => some (w, .selected u (selectOne Document.sha256 (sha256Hex u.data) w.documents))
  | .selected _ (some e), .finish => some (w, .done (duplicateOf e))
  | .selected _ none, .refuseMime detail => some (w, .done (.error (httpException 400 detail)))
  | .selected u none, .parse outcome =>
    some (parseBlock sha256Hex { w with blobs := writeBlob u.data (u.path sha256Hex) w.blobs } u outcome)
  | .parsing u, .parse outcome => some (parseBlock sha256Hex w u outcome)
  | .flushing u doc, .flush =>
    if others.any (IngestCall.holds doc) then none
    else if w.documents.any fun d => d.sha256 = doc.sha256 ∨ d.id = doc.id then some (w, .conflicted u)
    else some (w, .storing u doc)
  | .flushing _ _, .flushRaises exc => some (w, .done (.error exc))
  | .conflicted u, .read =>
    match selectOne Document.sha256 (sha256Hex u.data) w.documents with
    | some e => some (w, .done (duplicateOf e))
    | none => some (w, .done (.error ⟨"IntegrityError", "documents_sha256_key"⟩))
  | .storing _ doc, .commit =>
    some ({ w with documents := w.documents ++ [{ doc with status := .ready }] }, .done (.ok ⟨doc.id, .ready, none⟩))
  | .storing _ doc, .commitRolledBack => some (w, .done (.ok ⟨doc.id, .ready, none⟩))
  | .storing u _, .fail exc => some (w, .failed u exc)
  | .failed u exc, .read => some (w, .rechecked u exc (selectOne Document.sha256 (sha256Hex u.data) w.documents))
  | .rechecked _ exc (some e), .finish =>
    some (markFailed e.id exc w, .done (.ok ⟨e.id, .failed, none⟩))
  | .rechecked _ _ (some _), .finishRaises exc => some (w, .done (.error exc))
  | .rechecked u _ none, .finish =>
    some ({ w with blobs := deleteBlob (u.path sha256Hex) w.blobs },
      .done (.error (httpException 500 "ingestion failed")))
  | _, _ => none

abbrev IngestPool := Pool BlobWorld IngestCall

def ingestStep (s : IngestPool) (op : PoolOp Upload IngestMove) : Option IngestPool :=
  poolStep IngestCall.selecting (ingestAct sha256Hex) s op

/-- Every committed row has its file, with the row's digest. -/
def BlobsPresent (w : BlobWorld) : Prop :=
  ∀ doc ∈ w.documents, ∃ data, w.blobs doc.blobPath = some data ∧ sha256Hex data = doc.sha256

def deletedBlob : IngestCall → IngestMove → Option BlobPath
  | .selected u none, .parse outcome => deletedByParse u outcome
  | .parsing u, .parse outcome => deletedByParse u outcome
  | .rechecked u _ none, .finish => some (u.path sha256Hex)
  | _, _ => none
where
  deletedByParse (u : Upload) : ParseOutcome → Option BlobPath
    | .raised _ | .imageUnreadable | .noText | .tooManyChunks _ => some (u.path sha256Hex)
    | _ => none

/-- A delete takes a file that no committed row names and no other call has written to commit. -/
def DeletesOwnBlob (w : BlobWorld) (others : List IngestCall) (k : IngestCall) (m : IngestMove) : Prop :=
  ∀ path, deletedBlob sha256Hex k m = some path →
    (∀ doc ∈ w.documents, doc.blobPath ≠ path) ∧ ∀ k0 ∈ others, ¬ k0.usesBlob sha256Hex path

/-- Committed rows whose files are there, named by the content digest, and no call in flight. -/
def IngestStart (s : IngestPool) : Prop :=
  s.procs = [] ∧ ContentAddressed sha256Hex s.shared.blobs ∧
    ∀ doc ∈ s.shared.documents, doc.blobPath.sha256 = doc.sha256 ∧ ∃ data, s.shared.blobs doc.blobPath = some data

/-- Files carry their digest, and committed rows have theirs. -/
structure WorldOk (w : BlobWorld) : Prop where
  content : ContentAddressed sha256Hex w.blobs
  rows : ∀ doc ∈ w.documents, doc.blobPath.sha256 = doc.sha256 ∧ ∃ data, w.blobs doc.blobPath = some data

def IngestCall.row : IngestCall → Option Document
  | .flushing _ doc => some doc
  | .storing _ doc => some doc
  | _ => none

/-- A call that may still commit has its file. -/
structure CallOk (w : BlobWorld) (k : IngestCall) : Prop where
  blob : ∀ path, k.usesBlob sha256Hex path → ∃ data, w.blobs path = some data
  row : ∀ doc, k.row = some doc → doc.blobPath.sha256 = doc.sha256

variable {sha256Hex} {w : BlobWorld} {u : Upload} {k : IngestCall}

theorem CallOk.of_idle (hblob : ∀ path, ¬ k.usesBlob sha256Hex path) (hrow : k.row = none) :
    CallOk sha256Hex w k := by
  refine ⟨fun path h => absurd h (hblob path), fun doc h => ?_⟩
  rw [hrow] at h
  cases h

theorem WorldOk.blobsPresent (h : WorldOk sha256Hex w) : BlobsPresent sha256Hex w := by
  intro doc hdoc
  obtain ⟨hpath, data, hdata⟩ := h.rows doc hdoc
  exact ⟨data, hdata, by rw [h.content _ _ hdata, hpath]⟩

theorem WorldOk.delete (h : WorldOk sha256Hex w) {path : BlobPath}
    (hfree : ∀ doc ∈ w.documents, doc.blobPath ≠ path) :
    WorldOk sha256Hex { w with blobs := deleteBlob path w.blobs } := by
  refine ⟨h.content.deleteBlob path, ?_⟩
  intro doc hdoc
  obtain ⟨hpath, data, hdata⟩ := h.rows doc hdoc
  exact ⟨hpath, data, (deleteBlob_ne (hfree doc hdoc) w.blobs).trans hdata⟩

theorem CallOk.delete (h : CallOk sha256Hex w k) {path : BlobPath} (hfree : ¬ k.usesBlob sha256Hex path) :
    CallOk sha256Hex { w with blobs := deleteBlob path w.blobs } k := by
  refine ⟨fun p hp => ?_, h.row⟩
  have hne : p ≠ path := by
    rintro rfl
    exact hfree hp
  obtain ⟨data, hdata⟩ := h.blob p hp
  exact ⟨data, (deleteBlob_ne hne w.blobs).trans hdata⟩

theorem WorldOk.write (h : WorldOk sha256Hex w) (u : Upload) :
    WorldOk sha256Hex { w with blobs := writeBlob u.data (u.path sha256Hex) w.blobs } := by
  refine ⟨h.content.writeBlob rfl, ?_⟩
  intro doc hdoc
  obtain ⟨hpath, data, hdata⟩ := h.rows doc hdoc
  exact ⟨hpath, data, writeBlob_keeps hdata⟩

theorem CallOk.write (h : CallOk sha256Hex w k) (u : Upload) :
    CallOk sha256Hex { w with blobs := writeBlob u.data (u.path sha256Hex) w.blobs } k := by
  refine ⟨fun p hp => ?_, h.row⟩
  obtain ⟨data, hdata⟩ := h.blob p hp
  exact ⟨data, writeBlob_keeps hdata⟩

theorem CallOk.congr {w' : BlobWorld} (h : CallOk sha256Hex w k) (hb : w'.blobs = w.blobs) : CallOk sha256Hex w' k := by
  refine ⟨fun p hp => ?_, h.row⟩
  rw [hb]
  exact h.blob p hp

/-- What one move must leave behind. -/
def Kept (sha256Hex : Bytes → String) (others : List IngestCall) (r : BlobWorld × IngestCall) : Prop :=
  WorldOk sha256Hex r.1 ∧ CallOk sha256Hex r.1 r.2 ∧ ∀ k0 ∈ others, CallOk sha256Hex r.1 k0

theorem deleting_kept {others : List IngestCall} {result : Except PyError IngestResponse} {path : BlobPath}
    (h : WorldOk sha256Hex w) (hothers : ∀ k0 ∈ others, CallOk sha256Hex w k0)
    (hdocs : ∀ doc ∈ w.documents, doc.blobPath ≠ path) (huses : ∀ k0 ∈ others, ¬ k0.usesBlob sha256Hex path) :
    Kept sha256Hex others ({ w with blobs := deleteBlob path w.blobs }, .done result) :=
  ⟨h.delete hdocs, .of_idle (fun _ hu => hu) rfl, fun k0 h0 => (hothers k0 h0).delete (huses k0 h0)⟩

theorem staying_kept {others : List IngestCall} (h : WorldOk sha256Hex w)
    (hothers : ∀ k0 ∈ others, CallOk sha256Hex w k0) (hblob : ∀ path, ¬ k.usesBlob sha256Hex path)
    (hrow : k.row = none) : Kept sha256Hex others (w, k) :=
  ⟨h, .of_idle hblob hrow, hothers⟩

theorem parseBlock_kept {others : List IngestCall} {outcome : ParseOutcome} (h : WorldOk sha256Hex w)
    (hothers : ∀ k0 ∈ others, CallOk sha256Hex w k0) (hblob : ∃ data, w.blobs (u.path sha256Hex) = some data)
    (hguard : ∀ path, deletedBlob.deletedByParse sha256Hex u outcome = some path →
      (∀ doc ∈ w.documents, doc.blobPath ≠ path) ∧ ∀ k0 ∈ others, ¬ k0.usesBlob sha256Hex path) :
    Kept sha256Hex others (parseBlock sha256Hex w u outcome) := by
  cases outcome with
  | awaitsOcr =>
    refine ⟨h, ⟨?_, fun doc hd => by cases hd⟩, hothers⟩
    rintro path rfl
    exact hblob
  | parsed id mime =>
    refine ⟨h, ⟨?_, ?_⟩, hothers⟩
    · rintro path rfl
      exact hblob
    · intro doc hd
      obtain rfl := Option.some.inj hd
      rfl
  | raised exc =>
    obtain ⟨hdocs, huses⟩ := hguard _ rfl
    exact deleting_kept h hothers hdocs huses
  | imageUnreadable =>
    obtain ⟨hdocs, huses⟩ := hguard _ rfl
    exact deleting_kept h hothers hdocs huses
  | reraised exc => exact staying_kept h hothers (fun _ hu => hu) rfl
  | noText =>
    obtain ⟨hdocs, huses⟩ := hguard _ rfl
    exact deleting_kept h hothers hdocs huses
  | tooManyChunks limit =>
    obtain ⟨hdocs, huses⟩ := hguard _ rfl
    exact deleting_kept h hothers hdocs huses

theorem ingestAct_kept {others : List IngestCall} {m : IngestMove} {r : BlobWorld × IngestCall}
    (h : WorldOk sha256Hex w) (hothers : ∀ k0 ∈ others, CallOk sha256Hex w k0) (hk : CallOk sha256Hex w k)
    (hguard : DeletesOwnBlob sha256Hex w others k m) (hs : ingestAct sha256Hex w others k m = some r) :
    Kept sha256Hex others r := by
  unfold ingestAct at hs
  split at hs
  case h_1 u =>
    obtain rfl := Option.some.inj hs
    exact staying_kept h hothers (fun _ hu => hu) rfl
  case h_2 e =>
    obtain rfl := Option.some.inj hs
    exact staying_kept h hothers (fun _ hu => hu) rfl
  case h_3 detail =>
    obtain rfl := Option.some.inj hs
    exact staying_kept h hothers (fun _ hu => hu) rfl
  case h_4 u outcome =>
    obtain rfl := Option.some.inj hs
    exact parseBlock_kept (h.write u) (fun k0 h0 => (hothers k0 h0).write u) (writeBlob_exists _ _ _) hguard
  case h_5 u outcome =>
    obtain rfl := Option.some.inj hs
    exact parseBlock_kept h hothers (hk.blob _ rfl) hguard
  case h_6 u doc =>
    split at hs
    · cases hs
    · split at hs
      · obtain rfl := Option.some.inj hs
        exact staying_kept h hothers (fun _ hu => hu) rfl
      · obtain rfl := Option.some.inj hs
        exact ⟨h, ⟨hk.blob, hk.row⟩, hothers⟩
  case h_7 exc =>
    obtain rfl := Option.some.inj hs
    exact staying_kept h hothers (fun _ hu => hu) rfl
  case h_8 u =>
    split at hs
    · obtain rfl := Option.some.inj hs
      exact staying_kept h hothers (fun _ hu => hu) rfl
    · obtain rfl := Option.some.inj hs
      exact staying_kept h hothers (fun _ hu => hu) rfl
  case h_9 u doc =>
    -- the only step that makes a row visible: its file is still there
    obtain rfl := Option.some.inj hs
    refine ⟨⟨h.content, ?_⟩, .of_idle (fun _ hu => hu) rfl, fun k0 h0 => (hothers k0 h0).congr rfl⟩
    intro d hd
    rcases List.mem_append.mp hd with hd | hd
    · exact h.rows d hd
    · obtain rfl := List.mem_singleton.mp hd
      exact ⟨hk.row doc rfl, hk.blob doc.blobPath rfl⟩
  case h_10 doc =>
    obtain rfl := Option.some.inj hs
    exact staying_kept h hothers (fun _ hu => hu) rfl
  case h_11 exc =>
    obtain rfl := Option.some.inj hs
    exact staying_kept h hothers (fun _ hu => hu) rfl
  case h_12 u exc =>
    obtain rfl := Option.some.inj hs
    exact staying_kept h hothers (fun _ hu => hu) rfl
  case h_13 exc e =>
    obtain rfl := Option.some.inj hs
    refine ⟨⟨h.content, ?_⟩, .of_idle (fun _ hu => hu) rfl, fun k0 h0 => (hothers k0 h0).congr rfl⟩
    intro d hd
    obtain ⟨d0, hd0, rfl⟩ := mem_updateWhere.mp hd
    have hrow := h.rows d0 hd0
    split
    · exact hrow
    · exact hrow
  case h_14 exc =>
    obtain rfl := Option.some.inj hs
    exact staying_kept h hothers (fun _ hu => hu) rfl
  case h_15 u exc =>
    obtain ⟨hdocs, huses⟩ := hguard _ rfl
    obtain rfl := Option.some.inj hs
    exact deleting_kept h hothers hdocs huses
  case h_16 => cases hs

/-- A run whose deletes take nobody else's file keeps the file of every committed row. -/
theorem ingests_keep_blobs {s : IngestPool}
    (hs : Reaches (ingestStep sha256Hex) (poolGuard (DeletesOwnBlob sha256Hex)) (IngestStart sha256Hex) s) :
    BlobsPresent sha256Hex s.shared := by
  have hinv : PoolInv (WorldOk sha256Hex) (CallOk sha256Hex) s := by
    refine Reaches.poolInv ?_ ?_ ?_ hs
    · rintro s ⟨hprocs, hcontent, hrows⟩
      refine ⟨⟨hcontent, hrows⟩, fun k hk => ?_⟩
      rw [hprocs] at hk
      cases hk
    · intro w u _
      exact .of_idle (fun _ hu => hu) rfl
    · intro w others k m w' k' hw hothers hk hguard hact
      exact ingestAct_kept hw hothers hk hguard hact
  exact hinv.shared.blobsPresent

/-- A delete of a file that a committed row names breaks the row. -/
theorem delete_breaks {others : List IngestCall} {m : IngestMove} {r : BlobWorld × IngestCall} {path : BlobPath}
    (hs : ingestAct sha256Hex w others k m = some r) (hdel : deletedBlob sha256Hex k m = some path)
    {doc : Document} (hdoc : doc ∈ w.documents) (hpath : doc.blobPath = path) : ¬ BlobsPresent sha256Hex r.1 := by
  have hgone : r.1.documents = w.documents ∧ r.1.blobs path = none := by
    have hparse : ∀ (w0 : BlobWorld) (u : Upload) (outcome : ParseOutcome),
        deletedBlob.deletedByParse sha256Hex u outcome = some path →
        (parseBlock sha256Hex w0 u outcome).1.documents = w0.documents ∧
          (parseBlock sha256Hex w0 u outcome).1.blobs path = none := by
      intro w0 u outcome hd
      cases outcome with
      | awaitsOcr => cases hd
      | parsed id mime => cases hd
      | reraised exc => cases hd
      | raised exc =>
        obtain rfl := Option.some.inj hd
        simp [parseBlock, deleteBlob]
      | imageUnreadable =>
        obtain rfl := Option.some.inj hd
        simp [parseBlock, deleteBlob]
      | noText =>
        obtain rfl := Option.some.inj hd
        simp [parseBlock, deleteBlob]
      | tooManyChunks limit =>
        obtain rfl := Option.some.inj hd
        simp [parseBlock, deleteBlob]
    unfold deletedBlob at hdel
    split at hdel
    · obtain rfl := Option.some.inj hs
      exact hparse _ _ _ hdel
    · obtain rfl := Option.some.inj hs
      exact hparse _ _ _ hdel
    · obtain rfl := Option.some.inj hs
      obtain rfl := Option.some.inj hdel
      exact ⟨rfl, by simp [deleteBlob]⟩
    · cases hdel
  intro hpresent
  obtain ⟨data, hdata, _⟩ := hpresent doc (by rw [hgone.1]; exact hdoc)
  rw [hpath, hgone.2] at hdata
  cases hdata

/-- The digest of the eight bytes of a PNG signature, the only ones in the runs below. -/
def pngDigest (_ : Bytes) : String :=
  "4c4b6a3be1314ab86138bef4314dde022e600960d8689a2c8f8631802d20dab6"

def pngUpload : Upload := ⟨[137, 80, 78, 71, 13, 10, 26, 10], "scan.png", "default"⟩

def emptyPool : IngestPool := ⟨⟨[], fun _ => none⟩, []⟩

theorem emptyPool_start : IngestStart pngDigest emptyPool := by
  refine ⟨rfl, ?_, ?_⟩
  · intro path data h
    cases h
  · intro doc h
    cases h

/-- One upload from start to commit. -/
def pngCommitted : List (PoolOp Upload IngestMove) :=
  [.spawn pngUpload, .move 0 .read, .move 0 (.parse (.parsed 9 "image/png")), .move 0 .flush, .move 0 .commit]

theorem ingests_keep_blobs_committed :
    ∃ s, runSteps (ingestStep pngDigest) emptyPool pngCommitted = some s ∧ s.shared.documents ≠ [] ∧
      BlobsPresent pngDigest s.shared := by
  have hnone : ∀ (s : IngestPool) (k : IngestCall) (m : IngestMove), s.procs[0]? = some k →
      deletedBlob pngDigest k m = none → poolGuard (ι := Upload) (DeletesOwnBlob pngDigest) s (.move 0 m) := by
    intro s k m hk hd k0 hk0 path hpath
    obtain rfl := Option.some.inj (hk.symm.trans hk0)
    rw [hd] at hpath
    cases hpath
  have hguard : Guarded (ingestStep pngDigest) (poolGuard (DeletesOwnBlob pngDigest)) emptyPool pngCommitted :=
    .cons trivial rfl (.cons (hnone _ _ _ rfl rfl) rfl (.cons (hnone _ _ _ rfl rfl) rfl
      (.cons (hnone _ _ _ rfl rfl) rfl (.cons (hnone _ _ _ rfl rfl) rfl trivial))))
  have hstart : Reaches (ingestStep pngDigest) (poolGuard (DeletesOwnBlob pngDigest)) (IngestStart pngDigest) emptyPool :=
    .start emptyPool_start
  exact ⟨_, rfl, by simp, ingests_keep_blobs (hstart.runSteps hguard rfl)⟩

/-- Two uploads of one image: the second commits while the first waits for OCR, which then fails. -/
def pngRace : List (PoolOp Upload IngestMove) :=
  [.spawn pngUpload, .spawn pngUpload, .move 0 .read, .move 1 .read, .move 0 (.parse .awaitsOcr),
    .move 1 (.parse .awaitsOcr), .move 1 (.parse (.parsed 9 "image/png")), .move 1 .flush, .move 1 .commit,
    .move 0 (.parse (.raised ⟨"ReadTimeout", ""⟩))]

theorem ingest_race_loses_blob :
    ∃ s, Reaches (ingestStep pngDigest) unguarded (IngestStart pngDigest) s ∧ ¬ BlobsPresent pngDigest s.shared := by
  have hrun : ∃ s, runSteps (ingestStep pngDigest) emptyPool pngRace = some s ∧
      s.shared.blobs (pngUpload.path pngDigest) = none ∧
      { pngUpload.document pngDigest 9 "image/png" with status := .ready } ∈ s.shared.documents :=
    ⟨_, rfl, rfl, List.mem_cons_self⟩
  obtain ⟨s, hrun, hblob, hdoc⟩ := hrun
  refine ⟨s, reaches_of_runSteps emptyPool_start hrun, fun hpresent => ?_⟩
  obtain ⟨data, hdata, _⟩ := hpresent _ hdoc
  have hnone : s.shared.blobs (pngUpload.path pngDigest) = some data := hdata
  rw [hblob] at hnone
  cases hnone

end ProRag
