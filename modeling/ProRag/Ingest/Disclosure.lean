import ProRag.Ingest.Concurrent
import ProRag.Retrieve.Noninterference

/-!
# What an upload tells

The answer of `POST /ingest` while other requests commit, and what it says about documents that the caller may not see.
-/

namespace ProRag

open Framework

/-- The checks of `ingest(file, collection)` in front of `ingest_bytes`. -/
def admitUpload (settings : Settings) (filename : Option String) (data : Bytes) (collection : String) :
    Except PyError Upload :=
  let given := match filename with
    | some name => if name = "" then "upload" else name
    | none => "upload"
  let name := String.ofList (given.toList.take 255)
  if !hasAllowedSuffix name then
    .error (httpException 400
      ("unsupported file type; allowed: (" ++
        ", ".intercalate (allowedSuffixes.map fun s => "'" ++ s ++ "'") ++ ")"))
  else if !collectionRe collection then
    .error (httpException 400 "invalid collection name (use letters, digits, _ or -, max 64 chars)")
  else if settings.maxUploadBytes < data.length then
    .error (httpException 413 ("file exceeds " ++ toString (settings.maxUploadBytes / (1024 * 1024)) ++ " MB limit"))
  else if data = [] then
    .error (httpException 400 "empty file")
  else .ok ⟨data, name, collection⟩

/-- How the parsing block ends, behind the OCR call where there is one. -/
inductive ParseEnd
  | parsed (mime : String)
  | raised (exc : PyError)
  | imageUnreadable
  | reraised (exc : PyError)
  | noText
  | tooManyChunks (limit : Nat)

def ParseEnd.outcome (id : Uuid) : ParseEnd → ParseOutcome
  | .parsed mime => .parsed id mime
  | .raised exc => .raised exc
  | .imageUnreadable => .imageUnreadable
  | .reraised exc => .reraised exc
  | .noText => .noText
  | .tooManyChunks limit => .tooManyChunks limit

/-- How the `try` behind the flush of the row ends. -/
inductive StoreEnd
  | committed
  | rolledBack
  | raised (exc : PyError)

def StoreEnd.move : StoreEnd → IngestMove
  | .committed => .commit
  | .rolledBack => .commitRolledBack
  | .raised exc => .fail exc

/-- How the steps of one call end that do not read `documents`. -/
structure IngestCourse where
  mime : Option String
  ocr : Bool
  parsed : ParseEnd
  flush : Option PyError
  stored : StoreEnd
  recorded : Option PyError

/-- The move of a call at each of its await points; `id` is its `uuid4`. -/
def IngestCourse.move (course : IngestCourse) (id : Uuid) : IngestCall → IngestMove
  | .selecting _ | .conflicted _ | .failed _ _ => .read
  | .selected _ (some _) => .finish
  | .selected _ none => course.mime.elim (.parse (if course.ocr then .awaitsOcr else course.parsed.outcome id)) .refuseMime
  | .parsing _ => .parse (course.parsed.outcome id)
  | .flushing _ _ => course.flush.elim .flush .flushRaises
  | .storing _ _ => course.stored.move
  | .rechecked _ _ (some _) => course.recorded.elim .finish .finishRaises
  | .rechecked _ _ none => .finish
  | .done _ => .finish

/-- One call among others: its course, and the committed database that each of its statements on `documents` meets.
The constraints hold in all of them, and the `uuid4` is new. -/
structure IngestRun where
  course : IngestCourse
  id : Uuid
  blobs : Blobs
  lookup : Db
  flush : Db
  lookupAgain : Db
  recheck : Db
  lookupOk : lookup.CorpusOk
  flushOk : flush.CorpusOk
  lookupAgainOk : lookupAgain.CorpusOk
  recheckOk : recheck.CorpusOk
  idNew : flush.document? id = none

def IngestRun.meets (run : IngestRun) : IngestCall → Db
  | .selecting _ | .selected _ _ | .parsing _ => run.lookup
  | .flushing _ _ => run.flush
  | .conflicted _ => run.lookupAgain
  | _ => run.recheck

variable (sha256Hex : Bytes → String)

/-- The call moves on, in at most `n` steps, until it has its answer. -/
def runIngest (run : IngestRun) : Nat → Blobs → IngestCall → Option (Except PyError IngestResponse)
  | _, _, .done result => some result
  | 0, _, _ => none
  | n + 1, blobs, k =>
    (ingestAct sha256Hex ⟨(run.meets k).documents, blobs⟩ [] k (run.course.move run.id k)).bind fun r =>
      runIngest run n r.1.blobs r.2

/-- `POST /ingest` in a run.  A call has seven steps at most. -/
def postIngest (settings : Settings) (filename : Option String) (data : Bytes) (collection : String)
    (run : IngestRun) : Option (Except PyError IngestResponse) :=
  match admitUpload settings filename data collection with
  | .error exc => some (.error exc)
  | .ok u => runIngest sha256Hex run 7 run.blobs (.selecting u)

/-- The status code an exception of a handler becomes. -/
def PyError.statusCode (exc : PyError) : Nat :=
  if exc.name = "HTTPException" then
    (exc.text.toList.takeWhile Char.isDigit).foldl (fun n c => 10 * n + (c.toNat - '0'.toNat)) 0
  else 500

/-- A response without its ids and texts. -/
structure Told where
  statusCode : Nat
  status : Option DocStatus
  duplicate : Bool
deriving DecidableEq, Repr

def tell : Except PyError IngestResponse → Told
  | .ok resp => ⟨202, some resp.status, resp.duplicateOf.isSome⟩
  | .error exc => ⟨exc.statusCode, none, false⟩

/-- The same course, and to the user the same documents at every statement. -/
structure SeenAlike (user : User) (run run' : IngestRun) : Prop where
  course : run.course = run'.course
  lookup : AgreeOn anyStatus user run.lookup run'.lookup
  flush : AgreeOn anyStatus user run.flush run'.flush
  lookupAgain : AgreeOn anyStatus user run.lookupAgain run'.lookupAgain
  recheck : AgreeOn anyStatus user run.recheck run'.recheck

/-- Why the parsing block raises, if it does. -/
def ParseEnd.refusal : ParseEnd → Option PyError
  | .parsed _ => none
  | .raised exc => some (httpException 422 ("could not parse this file (" ++ safeError exc ++ ")"))
  | .imageUnreadable => some (httpException 422 "could not extract text from this image (OCR unavailable?)")
  | .reraised exc => some exc
  | .noText => some (httpException 422 "no extractable text found (scanned image PDF or empty file?)")
  | .tooManyChunks limit => some (httpException 413 ("document produced more than " ++ toString limit ++ " chunks"))

/-- The answer of a call whose row is flushed, by what its handler finds. -/
def IngestCourse.storedAnswer (course : IngestCourse) (id : Uuid) (recheck : Option Document) :
    Except PyError IngestResponse :=
  match course.stored with
  | .committed | .rolledBack => .ok ⟨id, .ready, none⟩
  | .raised _ => recheck.elim (.error (httpException 500 "ingestion failed"))
      fun e => course.recorded.elim (.ok ⟨e.id, .failed, none⟩) .error

def IngestCourse.flushAnswer (course : IngestCourse) (id : Uuid) (flush lookupAgain recheck : Option Document) :
    Except PyError IngestResponse :=
  course.flush.elim
    (if flush.isSome then lookupAgain.elim (.error ⟨"IntegrityError", "documents_sha256_key"⟩) duplicateOf
      else course.storedAnswer id recheck)
    .error

/-- The answer of a call, by the row of the digest that each of its statements finds. -/
def IngestCourse.answer (course : IngestCourse) (id : Uuid) (lookup flush lookupAgain recheck : Option Document) :
    Except PyError IngestResponse :=
  lookup.elim
    (course.mime.elim
      (course.parsed.refusal.elim (course.flushAnswer id flush lookupAgain recheck) .error)
      fun detail => .error (httpException 400 detail))
    duplicateOf

def IngestRun.answer (run : IngestRun) (digest : String) : Except PyError IngestResponse :=
  run.course.answer run.id (run.lookup.documentBySha? digest) (run.flush.documentBySha? digest)
    (run.lookupAgain.documentBySha? digest) (run.recheck.documentBySha? digest)

variable {sha256Hex} {settings : Settings} {filename : Option String} {data : Bytes} {collection : String}
  {user : User} {run run' : IngestRun} {u : Upload} {db db' : Db} {digest : String}

theorem taken_eq {id : Uuid} (hnew : db.document? id = none) (digest : String) :
    (db.documents.any fun d => d.sha256 = digest ∨ d.id = id) = (db.documentBySha? digest).isSome := by
  have hid : ∀ d ∈ db.documents, d.id ≠ id := selectOne_eq_none.mp hnew
  rw [Bool.eq_iff_iff]
  simp only [List.any_eq_true, decide_eq_true_eq, Db.documentBySha?, selectOne, List.find?_isSome]
  constructor
  · intro h
    obtain ⟨d, hd, htaken⟩ := h
    exact ⟨d, hd, htaken.resolve_right (hid d hd)⟩
  · intro h
    obtain ⟨d, hd, hsha⟩ := h
    exact ⟨d, hd, Or.inl hsha⟩

theorem runIngest_step {n : Nat} {blobs : Blobs} {k k' : IngestCall} {w : BlobWorld}
    (hact : ingestAct sha256Hex ⟨(run.meets k).documents, blobs⟩ [] k (run.course.move run.id k) = some (w, k')) :
    runIngest sha256Hex run (n + 1) blobs k = runIngest sha256Hex run n w.blobs k' := by
  cases k with
  | done result => cases hact
  | _ => simp [runIngest, hact]

/-! A call is followed from its end back to its first statement. -/

theorem runIngest_done (n : Nat) (blobs : Blobs) (result : Except PyError IngestResponse) :
    runIngest sha256Hex run n blobs (.done result) = some result := by
  cases n with
  | zero => rfl
  | succ n => rfl

theorem runIngest_storing (doc : Document) (hdoc : doc.id = run.id) (n : Nat) (blobs : Blobs) :
    runIngest sha256Hex run (n + 3) blobs (.storing u doc) =
      some (run.course.storedAnswer run.id (run.recheck.documentBySha? (sha256Hex u.data))) := by
  unfold IngestCourse.storedAnswer
  cases hstored : run.course.stored with
  | committed => simp [runIngest, ingestAct, IngestCourse.move, StoreEnd.move, hstored, hdoc]
  | rolledBack => simp [runIngest, ingestAct, IngestCourse.move, StoreEnd.move, hstored, hdoc]
  | raised exc =>
    cases hrow : run.recheck.documentBySha? (sha256Hex u.data) with
    | none =>
      have hselect : selectOne Document.sha256 (sha256Hex u.data) run.recheck.documents = none := hrow
      simp [runIngest, ingestAct, IngestCourse.move, StoreEnd.move, IngestRun.meets, hstored, hselect]
    | some e =>
      have hselect : selectOne Document.sha256 (sha256Hex u.data) run.recheck.documents = some e := hrow
      cases hrecorded : run.course.recorded with
      | none => simp [runIngest, ingestAct, IngestCourse.move, StoreEnd.move, IngestRun.meets, hstored, hselect, hrecorded]
      | some raised =>
        simp [runIngest, ingestAct, IngestCourse.move, StoreEnd.move, IngestRun.meets, hstored, hselect, hrecorded]

theorem runIngest_conflicted (n : Nat) (blobs : Blobs) :
    runIngest sha256Hex run (n + 1) blobs (.conflicted u) =
      some ((run.lookupAgain.documentBySha? (sha256Hex u.data)).elim (.error ⟨"IntegrityError", "documents_sha256_key"⟩)
        duplicateOf) := by
  cases hrow : run.lookupAgain.documentBySha? (sha256Hex u.data) with
  | none =>
    have hselect : selectOne Document.sha256 (sha256Hex u.data) run.lookupAgain.documents = none := hrow
    simp [runIngest, ingestAct, IngestCourse.move, IngestRun.meets, hselect]
  | some e =>
    have hselect : selectOne Document.sha256 (sha256Hex u.data) run.lookupAgain.documents = some e := hrow
    simp [runIngest, ingestAct, IngestCourse.move, IngestRun.meets, hselect]

theorem runIngest_flushing (mime : String) (n : Nat) (blobs : Blobs) :
    runIngest sha256Hex run (n + 4) blobs (.flushing u (u.document sha256Hex run.id mime)) =
      some (run.course.flushAnswer run.id (run.flush.documentBySha? (sha256Hex u.data))
        (run.lookupAgain.documentBySha? (sha256Hex u.data)) (run.recheck.documentBySha? (sha256Hex u.data))) := by
  unfold IngestCourse.flushAnswer
  cases hflush : run.course.flush with
  | some exc => simp [runIngest, ingestAct, IngestCourse.move, hflush]
  | none =>
    have htaken : (run.flush.documents.any fun d => d.sha256 = sha256Hex u.data ∨ d.id = run.id) =
        (run.flush.documentBySha? (sha256Hex u.data)).isSome := taken_eq run.idNew (sha256Hex u.data)
    have hact : ingestAct sha256Hex ⟨run.flush.documents, blobs⟩ [] (.flushing u (u.document sha256Hex run.id mime)) .flush =
        if (run.flush.documentBySha? (sha256Hex u.data)).isSome then some (⟨run.flush.documents, blobs⟩, .conflicted u)
        else some (⟨run.flush.documents, blobs⟩, .storing u (u.document sha256Hex run.id mime)) := by
      rw [← htaken]
      rfl
    have hmove : run.course.move run.id (.flushing u (u.document sha256Hex run.id mime)) = .flush := by
      simp [IngestCourse.move, hflush]
    by_cases hrow : (run.flush.documentBySha? (sha256Hex u.data)).isSome
    · rw [if_pos hrow, ← hmove] at hact
      rw [runIngest_step hact, runIngest_conflicted]
      simp [hrow]
    · rw [if_neg hrow, ← hmove] at hact
      rw [runIngest_step hact, runIngest_storing _ rfl]
      simp [hrow]

theorem runIngest_parseBlock (w : BlobWorld) (n : Nat) :
    runIngest sha256Hex run (n + 4) (parseBlock sha256Hex w u (run.course.parsed.outcome run.id)).1.blobs
        (parseBlock sha256Hex w u (run.course.parsed.outcome run.id)).2 =
      some (run.course.parsed.refusal.elim
        (run.course.flushAnswer run.id (run.flush.documentBySha? (sha256Hex u.data))
          (run.lookupAgain.documentBySha? (sha256Hex u.data)) (run.recheck.documentBySha? (sha256Hex u.data)))
        .error) := by
  cases run.course.parsed with
  | parsed mime => exact runIngest_flushing mime n w.blobs
  | _ => exact runIngest_done _ _ _

theorem runIngest_selected (hmime : run.course.mime = none) (blobs : Blobs) :
    runIngest sha256Hex run 6 blobs (.selected u none) =
      some (run.course.parsed.refusal.elim
        (run.course.flushAnswer run.id (run.flush.documentBySha? (sha256Hex u.data))
          (run.lookupAgain.documentBySha? (sha256Hex u.data)) (run.recheck.documentBySha? (sha256Hex u.data)))
        .error) := by
  cases hocr : run.course.ocr with
  | false =>
    have hact : ingestAct sha256Hex ⟨run.lookup.documents, blobs⟩ [] (.selected u none)
        (run.course.move run.id (.selected u none)) =
          some (parseBlock sha256Hex ⟨run.lookup.documents, writeBlob u.data (u.path sha256Hex) blobs⟩ u
            (run.course.parsed.outcome run.id)) := by
      simp [IngestCourse.move, hmime, hocr, ingestAct]
    exact (runIngest_step hact).trans (runIngest_parseBlock _ 1)
  | true =>
    have hact : ingestAct sha256Hex ⟨run.lookup.documents, blobs⟩ [] (.selected u none)
        (run.course.move run.id (.selected u none)) =
          some (⟨run.lookup.documents, writeBlob u.data (u.path sha256Hex) blobs⟩, .parsing u) := by
      simp [IngestCourse.move, hmime, hocr, ingestAct, parseBlock]
    have hparse : ingestAct sha256Hex ⟨run.lookup.documents, writeBlob u.data (u.path sha256Hex) blobs⟩ [] (.parsing u)
        (run.course.move run.id (.parsing u)) =
          some (parseBlock sha256Hex ⟨run.lookup.documents, writeBlob u.data (u.path sha256Hex) blobs⟩ u
            (run.course.parsed.outcome run.id)) := by
      simp [IngestCourse.move, ingestAct]
    exact (runIngest_step hact).trans ((runIngest_step hparse).trans (runIngest_parseBlock _ 0))

theorem runIngest_eq (u : Upload) (blobs : Blobs) :
    runIngest sha256Hex run 7 blobs (.selecting u) = some (run.answer (sha256Hex u.data)) := by
  have hact : ingestAct sha256Hex ⟨run.lookup.documents, blobs⟩ [] (.selecting u) .read =
      some (⟨run.lookup.documents, blobs⟩, .selected u (run.lookup.documentBySha? (sha256Hex u.data))) := rfl
  refine (runIngest_step hact).trans ?_
  unfold IngestRun.answer IngestCourse.answer
  cases run.lookup.documentBySha? (sha256Hex u.data) with
  | some e => rfl
  | none =>
    cases hmime : run.course.mime with
    | some detail => simp [runIngest, ingestAct, IngestCourse.move, hmime]
    | none => exact runIngest_selected hmime blobs

theorem postIngest_refused {exc : PyError} (h : admitUpload settings filename data collection = .error exc) :
    postIngest sha256Hex settings filename data collection run = some (.error exc) := by
  unfold postIngest
  rw [h]

theorem admitUpload_data (h : admitUpload settings filename data collection = .ok u) : u.data = data := by
  unfold admitUpload at h
  extract_lets given name at h
  split_ifs at h
  cases h
  rfl

theorem postIngest_admitted (h : admitUpload settings filename data collection = .ok u) :
    postIngest sha256Hex settings filename data collection run = some (run.answer (sha256Hex data)) := by
  obtain rfl := admitUpload_data h
  unfold postIngest
  rw [h]
  exact runIngest_eq u run.blobs

/-! Where nobody else is about the handler answers as `ingest` does. -/

theorem ingest_checks (work : IngestWork) :
    (∃ exc, admitUpload settings filename data collection = .error exc ∧
      ingest sha256Hex settings work filename data collection db = (.error exc, db)) ∨
    ∃ u, admitUpload settings filename data collection = .ok u ∧
      ingest sha256Hex settings work filename data collection db =
        ingestBytes sha256Hex settings.ruleSimilarityFloor work u.data u.filename u.collection db := by
  unfold admitUpload ingest
  cases filename with
  | none =>
    split_ifs
    all_goals exact Or.inl ⟨_, rfl, rfl⟩
  | some given =>
    dsimp only
    split_ifs
    all_goals first | exact Or.inl ⟨_, rfl, rfl⟩ | exact Or.inr ⟨_, rfl, rfl⟩

theorem postIngest_undisturbed {rows : IngestRows} {mime : String} (hlookup : run.lookup = db) (hflush : run.flush = db)
    (hmime : run.course.mime = none) (hparsed : run.course.parsed = .parsed mime) (hraised : run.course.flush = none)
    (hstored : run.course.stored = .committed) (hid : rows.id = run.id) :
    postIngest sha256Hex settings filename data collection run =
      some (ingest sha256Hex settings (.ok rows) filename data collection db).1 := by
  have hnew : db.document? rows.id = none := by
    rw [hid, ← hflush]
    exact run.idNew
  rcases @ingest_checks sha256Hex settings filename data collection db (.ok rows) with h | h
  · obtain ⟨exc, hrefused, hingest⟩ := h
    rw [postIngest_refused hrefused, hingest]
  · obtain ⟨u, hadmitted, hingest⟩ := h
    rw [postIngest_admitted hadmitted, hingest, admitUpload_data hadmitted]
    unfold IngestRun.answer IngestCourse.answer IngestCourse.flushAnswer IngestCourse.storedAnswer ingestBytes
    rw [hlookup, hflush, hmime, hparsed, hraised, hstored]
    cases hrow : db.documentBySha? (sha256Hex data) with
    | some e => rfl
    | none =>
      simp only [hnew]
      simp [ParseEnd.refusal, hid]

/-! An answer tells the status of the rows that the call has found, and no more of them. -/

section Reads

variable {lookup flush lookupAgain recheck lookup' flush' lookupAgain' recheck' : Option Document}

theorem tell_duplicate {fallback fallback' : Except PyError IngestResponse}
    (hrow : lookup.map Document.status = lookup'.map Document.status) (hfallback : tell fallback = tell fallback') :
    tell (lookup.elim fallback duplicateOf) = tell (lookup'.elim fallback' duplicateOf) := by
  cases lookup with
  | none =>
    cases lookup' with
    | none => exact hfallback
    | some e' => cases hrow
  | some e =>
    cases lookup' with
    | none => cases hrow
    | some e' =>
      have hstatus : e.status = e'.status := Option.some.inj hrow
      simp [tell, duplicateOf, hstatus]

theorem tell_storedAnswer (course : IngestCourse) (id id' : Uuid)
    (hrow : recheck.map Document.status = recheck'.map Document.status) :
    tell (course.storedAnswer id recheck) = tell (course.storedAnswer id' recheck') := by
  unfold IngestCourse.storedAnswer
  cases course.stored with
  | committed => rfl
  | rolledBack => rfl
  | raised exc =>
    cases recheck with
    | none =>
      cases recheck' with
      | none => rfl
      | some e' => cases hrow
    | some e =>
      cases recheck' with
      | none => cases hrow
      | some e' =>
        cases course.recorded with
        | none => rfl
        | some raised => rfl

theorem tell_answer (course : IngestCourse) (id id' : Uuid)
    (hlookup : lookup.map Document.status = lookup'.map Document.status) (hflush : flush.isSome = flush'.isSome)
    (hagain : lookupAgain.map Document.status = lookupAgain'.map Document.status)
    (hrecheck : recheck.map Document.status = recheck'.map Document.status) :
    tell (course.answer id lookup flush lookupAgain recheck) = tell (course.answer id' lookup' flush' lookupAgain' recheck') := by
  unfold IngestCourse.answer
  apply tell_duplicate hlookup
  cases course.mime with
  | some detail => rfl
  | none =>
    cases course.parsed.refusal with
    | some exc => rfl
    | none =>
      unfold IngestCourse.flushAnswer
      cases course.flush with
      | some exc => rfl
      | none =>
        simp only [Option.elim_none, hflush]
        cases flush'.isSome with
        | true => exact tell_duplicate hagain rfl
        | false => exact tell_storedAnswer course id id' hrecheck

end Reads

/-- The status of the row of a digest, if there is one. -/
def Db.digestStatus (digest : String) (db : Db) : Option DocStatus :=
  (db.documentBySha? digest).map Document.status

theorem digestStatus_of_mem (hdb : db.CorpusOk) {d : Document} (hd : d ∈ db.documents) (hsha : d.sha256 = digest) :
    db.digestStatus digest = some d.status := by
  have hrow : db.documentBySha? digest = some d := (selectOne_eq_some hdb.docSha).mpr ⟨hd, hsha⟩
  simp [Db.digestStatus, hrow]

theorem postIngest_told (hcourse : run.course = run'.course)
    (hlookup : run.lookup.digestStatus (sha256Hex data) = run'.lookup.digestStatus (sha256Hex data))
    (hflush : run.flush.digestStatus (sha256Hex data) = run'.flush.digestStatus (sha256Hex data))
    (hagain : run.lookupAgain.digestStatus (sha256Hex data) = run'.lookupAgain.digestStatus (sha256Hex data))
    (hrecheck : run.recheck.digestStatus (sha256Hex data) = run'.recheck.digestStatus (sha256Hex data)) :
    (postIngest sha256Hex settings filename data collection run).map tell =
      (postIngest sha256Hex settings filename data collection run').map tell := by
  cases h : admitUpload settings filename data collection with
  | error exc => rw [postIngest_refused h, postIngest_refused h]
  | ok u =>
    have htaken : (run.flush.documentBySha? (sha256Hex data)).isSome = (run'.flush.documentBySha? (sha256Hex data)).isSome := by
      have hmap := congrArg Option.isSome hflush
      simpa [Db.digestStatus] using hmap
    rw [postIngest_admitted h, postIngest_admitted h]
    unfold IngestRun.answer
    rw [hcourse, Option.map_some, Option.map_some, tell_answer _ _ _ hlookup htaken hagain hrecheck]

/-! The digest is looked up for every caller alike. -/

theorem AgreeOn.refl (statuses : DocStatus → Bool) (user : User) (db : Db) : AgreeOn statuses user db db where
  groups _ := Iff.rfl
  documents _ := Iff.rfl
  chunks _ _ _ _ := Iff.rfl
  tables _ _ _ _ := Iff.rfl
  rows _ _ _ _ _ _ _ := Iff.rfl

/-- `UPDATE documents SET status = s WHERE id = …`. -/
def Db.restatus (id : Uuid) (s : DocStatus) (db : Db) : Db :=
  { db with documents := updateWhere (fun d => d.id = id) (fun d => { d with status := s }) db.documents }

theorem AgreeOn.restatus {e : Document} (hhidden : ¬ VisibleTo db user e.id) (s : DocStatus) :
    AgreeOn anyStatus user db (db.restatus e.id s) where
  groups _ := Iff.rfl
  documents d := by
    constructor
    · intro h
      obtain ⟨hd, _, hv⟩ := h
      refine ⟨mem_updateWhere.mpr ⟨d, hd, ?_⟩, rfl, hv⟩
      have hne : d.id ≠ e.id := fun hid => hhidden (hid ▸ hv)
      simp [hne]
    · intro h
      obtain ⟨hd, _, hv⟩ := h
      obtain ⟨d0, hd0, hupdate⟩ := mem_updateWhere.mp hd
      by_cases hid : d0.id = e.id
      · simp only [hid, decide_true, ↓reduceIte] at hupdate
        subst hupdate
        have hv' : VisibleTo db user e.id := hv
        exact absurd hv' hhidden
      · simp only [hid, decide_false, Bool.false_eq_true, ↓reduceIte] at hupdate
        subst hupdate
        exact ⟨hd0, rfl, hv⟩
  chunks _ _ _ _ := Iff.rfl
  tables _ _ _ _ := Iff.rfl
  rows _ _ _ _ _ _ _ := Iff.rfl

theorem exists_unused (db : Db) : ∃ id, db.document? id = none ∧ ∀ a ∈ db.documentAcl, a.docId ≠ id := by
  obtain ⟨id, hid⟩ := Infinite.exists_notMem_finset
    (db.documents.map Document.id ++ db.documentAcl.map DocumentAcl.docId).toFinset
  rw [List.mem_toFinset, List.mem_append, not_or] at hid
  refine ⟨id, selectOne_eq_none.mpr fun d hd heq => hid.1 ?_, fun a ha heq => hid.2 ?_⟩
  · rw [← heq]
    exact List.mem_map_of_mem hd
  · rw [← heq]
    exact List.mem_map_of_mem ha

/-- A document with no chunks and no grants. -/
def hiddenDocument (id : Uuid) (digest : String) (s : DocStatus) : Document :=
  { newDocument digest "hidden.txt" "default" ⟨id, "text/plain", [], [], []⟩ with status := s }

theorem exists_hidden (hdb : db.CorpusOk) (hunseen : ∀ d, Seen anyStatus user db d → d.sha256 ≠ digest) (s : DocStatus) :
    ∃ db', db'.CorpusOk ∧ AgreeOn anyStatus user db db' ∧ db'.digestStatus digest = some s := by
  cases hrow : db.documentBySha? digest with
  | some e =>
    obtain ⟨he, hsha⟩ := selectOne_mem hrow
    have hhidden : ¬ VisibleTo db user e.id := fun hv => hunseen e ⟨he, rfl, hv⟩ hsha
    have hok : (db.restatus e.id s).CorpusOk := hdb.updateDocuments _ (fun _ => rfl) fun _ => rfl
    have hmem : { e with status := s } ∈ (db.restatus e.id s).documents := mem_updateWhere.mpr ⟨e, he, by simp⟩
    refine ⟨_, hok, AgreeOn.restatus hhidden s, ?_⟩
    rw [digestStatus_of_mem hok hmem hsha]
  | none =>
    obtain ⟨id, hid, hacl⟩ := exists_unused db
    have hhidden : ¬ VisibleTo db user id := by
      intro h
      obtain ⟨a, ha, hdoc, _⟩ := h
      exact hacl a ha hdoc
    have hok : (db.storeDocument (hiddenDocument id digest s) ⟨id, "text/plain", [], [], []⟩).CorpusOk :=
      hdb.insertDocument hid hrow rfl rfl
    refine ⟨_, hok, AgreeOn.storeHidden hhidden ?_, ?_⟩
    · intro r hr
      cases hr
    · have hmem : hiddenDocument id digest s ∈ db.documents ++ [hiddenDocument id digest s] :=
        List.mem_append_right _ (List.mem_singleton_self _)
      exact digestStatus_of_mem hok hmem rfl

theorem postIngest_found (h : admitUpload settings filename data collection = .ok u) {s : DocStatus}
    (hfound : run.lookup.digestStatus (sha256Hex data) = some s) :
    (postIngest sha256Hex settings filename data collection run).map tell = some ⟨202, some s, true⟩ := by
  obtain ⟨e, he, rfl⟩ := Option.map_eq_some_iff.mp hfound
  rw [postIngest_admitted h]
  simp [IngestRun.answer, IngestCourse.answer, he, tell, duplicateOf]

theorem postIngest_reveals (h : admitUpload settings filename data collection = .ok u)
    (hunseen : ∀ d, Seen anyStatus user run.lookup d → d.sha256 ≠ sha256Hex data) :
    ∃ run', SeenAlike user run run' ∧ (postIngest sha256Hex settings filename data collection run').map tell ≠
      (postIngest sha256Hex settings filename data collection run).map tell := by
  obtain ⟨s, hs⟩ : ∃ s, (postIngest sha256Hex settings filename data collection run).map tell ≠ some ⟨202, some s, true⟩ := by
    by_cases hready : (postIngest sha256Hex settings filename data collection run).map tell = some ⟨202, some .ready, true⟩
    · refine ⟨.failed, ?_⟩
      rw [hready]
      decide
    · exact ⟨.ready, hready⟩
  obtain ⟨db', hok, hagree, hfound⟩ := exists_hidden run.lookupOk hunseen s
  let run' : IngestRun := { run with lookup := db', lookupOk := hok }
  have halike : SeenAlike user run run' :=
    ⟨rfl, hagree, AgreeOn.refl _ _ _, AgreeOn.refl _ _ _, AgreeOn.refl _ _ _⟩
  refine ⟨run', halike, ?_⟩
  rw [@postIngest_found sha256Hex settings filename data collection run' u h s hfound]
  exact hs.symm

/-- The answer keeps hidden documents secret when the upload is refused before its digest is looked up, or the caller
sees the document it duplicates, and in no other case. -/
theorem postIngest_secret_iff (hadmin : user.isAdmin = false) (run : IngestRun) :
    (∀ run', SeenAlike user run run' → (postIngest sha256Hex settings filename data collection run').map tell =
      (postIngest sha256Hex settings filename data collection run).map tell) ↔
    (∃ exc, admitUpload settings filename data collection = .error exc) ∨
    ∃ d ∈ run.lookup.documents, d.sha256 = sha256Hex data ∧ visibleDocGuard run.lookup (some user) d.id = true := by
  constructor
  · intro hsecret
    cases h : admitUpload settings filename data collection with
    | error exc => exact Or.inl ⟨exc, rfl⟩
    | ok u =>
      right
      by_contra hunseen
      have hunseen' : ∀ d, Seen anyStatus user run.lookup d → d.sha256 ≠ sha256Hex data := by
        intro d hd hsha
        obtain ⟨hmem, _, hvisible⟩ := hd
        exact hunseen ⟨d, hmem, hsha, (visibleDocGuard_iff hadmin).mpr ⟨⟨d, hmem, rfl⟩, hvisible⟩⟩
      obtain ⟨run', halike, hdiffer⟩ := postIngest_reveals h hunseen'
      exact hdiffer (hsecret run' halike)
  · intro h run' halike
    rcases h with hrefused | hseen
    · obtain ⟨exc, hrefused⟩ := hrefused
      rw [postIngest_refused hrefused, postIngest_refused hrefused]
    · obtain ⟨d, hd, hsha, hguard⟩ := hseen
      obtain ⟨_, hvisible⟩ := (visibleDocGuard_iff hadmin).mp hguard
      have hd' : d ∈ run'.lookup.documents := ((halike.lookup.documents d).mp ⟨hd, rfl, hvisible⟩).1
      have hstatus := digestStatus_of_mem run.lookupOk hd hsha
      have hstatus' := digestStatus_of_mem run'.lookupOk hd' hsha
      cases h : admitUpload settings filename data collection with
      | error exc => rw [postIngest_refused h, postIngest_refused h]
      | ok u => rw [postIngest_found h hstatus, postIngest_found h hstatus']

def drillText : Bytes := [102, 105, 114, 101, 32, 100, 114, 105, 108, 108]

/-- The digest of `drillText`, the only bytes in the runs below. -/
def drillDigest (_ : Bytes) : String :=
  "65bfd041f6e5fec9c61fdbf25dd1239991fb960581e324ac00313698e3a83c0f"

/-- One ready document with these bytes, and some grants. -/
def drillDb (grants : List DocumentAcl) : Db :=
  { Db.empty with documents := [hiddenDocument 4 (drillDigest drillText) .ready], documentAcl := grants }

theorem emptyDb_ok : Db.empty.CorpusOk :=
  ⟨by decide, by decide, by decide, by simp [Db.empty]⟩

theorem drillDb_ok (grants : List DocumentAcl) : (drillDb grants).CorpusOk :=
  ⟨by simp [drillDb, UniqueOn], by simp [drillDb, UniqueOn], by simp [drillDb, UniqueOn, Db.empty], by simp [drillDb, Db.empty]⟩

/-- A note that is parsed, flushed and committed. -/
def noteCourse : IngestCourse := ⟨none, false, .parsed "text/plain", none, .committed, none⟩

/-- A call in one database from its start to its end. -/
def undisturbed (db : Db) (hdb : db.CorpusOk) (hnew : db.document? 9 = none) : IngestRun :=
  ⟨noteCourse, 9, fun _ => none, db, db, db, db, hdb, hdb, hdb, hdb, hnew⟩

def emptyRun : IngestRun := undisturbed Db.empty emptyDb_ok (by decide)

def hiddenRun : IngestRun := undisturbed (drillDb []) (drillDb_ok []) (by decide)

/-- The hidden document is committed behind the first SELECT. -/
def racedRun : IngestRun :=
  { hiddenRun with lookup := Db.empty, lookupOk := emptyDb_ok }

theorem drillDb_hidden : AgreeOn anyStatus reader Db.empty (drillDb []) := by
  have hunseen : ∀ db, db = Db.empty ∨ db = drillDb [] → ∀ d, ¬ Seen anyStatus reader db d := by
    intro db hdb d hd
    obtain ⟨_, _, a, ha, _⟩ := hd
    rcases hdb with rfl | rfl
    · cases ha
    · cases ha
  refine ⟨fun _ => Iff.rfl, fun d => ?_, fun d hd => ?_, fun d hd => ?_, fun d hd => ?_⟩
  · exact iff_of_false (hunseen _ (Or.inl rfl) d) (hunseen _ (Or.inr rfl) d)
  · exact absurd hd (hunseen _ (Or.inl rfl) d)
  · exact absurd hd (hunseen _ (Or.inl rfl) d)
  · exact absurd hd (hunseen _ (Or.inl rfl) d)

/-- The reader's upload of the hidden bytes is a duplicate, at the first SELECT or behind a lost race, where it is a
new document if the hidden one is not there. -/
theorem upload_reveals_hidden :
    reader.isAdmin = false ∧ SeenAlike reader emptyRun hiddenRun ∧ SeenAlike reader emptyRun racedRun ∧
    (postIngest drillDigest {} (some "drill.txt") drillText "default" emptyRun).map tell = some ⟨202, some .ready, false⟩ ∧
    (postIngest drillDigest {} (some "drill.txt") drillText "default" hiddenRun).map tell = some ⟨202, some .ready, true⟩ ∧
    racedRun.lookup = emptyRun.lookup ∧
    (postIngest drillDigest {} (some "drill.txt") drillText "default" racedRun).map tell = some ⟨202, some .ready, true⟩ := by
  have hhidden := drillDb_hidden
  refine ⟨rfl, ⟨rfl, hhidden, hhidden, hhidden, hhidden⟩, ⟨rfl, AgreeOn.refl _ _ _, hhidden, hhidden, hhidden⟩, ?_, ?_, rfl, ?_⟩
  · decide +kernel
  · decide +kernel
  · decide +kernel

def sharedRun : IngestRun :=
  undisturbed (drillDb [⟨0, 4, .everyone, none, .local⟩]) (drillDb_ok _) (by decide)

theorem postIngest_secret_shared :
    reader.isAdmin = false ∧
      ∀ run', SeenAlike reader sharedRun run' →
        (postIngest drillDigest {} (some "drill.txt") drillText "default" run').map tell =
          (postIngest drillDigest {} (some "drill.txt") drillText "default" sharedRun).map tell := by
  have hadmin : reader.isAdmin = false := rfl
  constructor
  · exact hadmin
  · apply (postIngest_secret_iff hadmin sharedRun).mpr
    exact Or.inr ⟨hiddenDocument 4 (drillDigest drillText) .ready, List.mem_singleton_self _, rfl, by decide⟩

end ProRag
