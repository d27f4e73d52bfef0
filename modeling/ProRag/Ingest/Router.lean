import ProRag.Ingest.Core
import ProRag.Settings

/-!
# `POST /ingest`

The trust boundary of an upload: suffix allowlist, collection name, size ceiling.
-/

namespace ProRag

/-- `ALLOWED_SUFFIXES`. -/
def allowedSuffixes : List String :=
  [".pdf", ".txt", ".md", ".docx", ".pptx", ".csv", ".xlsx", ".tsv",
    ".png", ".jpg", ".jpeg", ".tiff", ".tif", ".webp"]

/-- `name.lower().endswith(ALLOWED_SUFFIXES)`.  No character outside ASCII lowers into a suffix. -/
def hasAllowedSuffix (name : String) : Bool :=
  allowedSuffixes.any fun s => s.toList.isSuffixOf (name.toList.map Char.toLower)

/-- `_COLLECTION_RE.match(collection)`; `$` also matches before a final line feed. -/
def collectionRe (collection : String) : Bool :=
  let cs := collection.toList
  let body := if cs.getLast? = some '\n' then cs.dropLast else cs
  decide (0 < body.length ∧ body.length ≤ 64) && body.all fun c => c.isAlphanum || c = '_' || c = '-'

/-- `ingest(file, collection)`. -/
def ingest (sha256Hex : Bytes → String) (settings : Settings) (work : IngestWork)
    (filename : Option String) (data : Bytes) (collection : String) (db : Db) :
    Except PyError IngestResponse × Db :=
  let given := match filename with
    | some name => if name = "" then "upload" else name
    | none => "upload"
  let name := String.ofList (given.toList.take 255)
  if !hasAllowedSuffix name then
    (.error (httpException 400
      ("unsupported file type; allowed: (" ++
        ", ".intercalate (allowedSuffixes.map fun s => "'" ++ s ++ "'") ++ ")")), db)
  else if !collectionRe collection then
    (.error (httpException 400
      "invalid collection name (use letters, digits, _ or -, max 64 chars)"), db)
  else if settings.maxUploadBytes < data.length then
    (.error (httpException 413
      ("file exceeds " ++ toString (settings.maxUploadBytes / (1024 * 1024)) ++ " MB limit")), db)
  else if data = [] then
    (.error (httpException 400 "empty file"), db)
  else
    ingestBytes sha256Hex settings.ruleSimilarityFloor work data name collection db

theorem ingest_cases (sha256Hex : Bytes → String) (settings : Settings) (work : IngestWork)
    (filename : Option String) (data : Bytes) (collection : String) (db : Db) :
    (∃ exc, ingest sha256Hex settings work filename data collection db = (.error exc, db)) ∨
    ∃ name, ingest sha256Hex settings work filename data collection db =
      ingestBytes sha256Hex settings.ruleSimilarityFloor work data name collection db := by
  unfold ingest
  extract_lets given name
  split
  · exact Or.inl ⟨_, rfl⟩
  · split
    · exact Or.inl ⟨_, rfl⟩
    · split
      · exact Or.inl ⟨_, rfl⟩
      · split
        · exact Or.inl ⟨_, rfl⟩
        · exact Or.inr ⟨name, rfl⟩

end ProRag
