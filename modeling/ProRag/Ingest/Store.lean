import ProRag.Models

/-!
# Blob persistence

Blobs are files keyed by the digest of their content and the extension of the uploaded name.
They live outside the database transaction: a write and a delete take effect at once.
-/

namespace ProRag

/-- `Path(filename).suffix`: from the last dot of the last path component, unless that dot is its
first or last character. -/
def pathSuffix (filename : String) : String :=
  let name := (filename.toList.reverse.takeWhile (· ≠ '/')).reverse
  let ext := name.reverse.takeWhile (· ≠ '.')
  if 0 < ext.length ∧ ext.length + 1 < name.length then String.ofList ('.' :: ext.reverse) else ""

/-- `blob_path_for(sha256, filename)`. -/
def blobPathFor (sha256 filename : String) : BlobPath :=
  ⟨sha256, if pathSuffix filename = "" then ".bin" else pathSuffix filename⟩

/-- The files under `blob_dir`. -/
abbrev Blobs := BlobPath → Option Bytes

/-- `write_blob(data, path)`: the write is skipped when the path exists. -/
def writeBlob (data : Bytes) (path : BlobPath) (blobs : Blobs) : Blobs :=
  match blobs path with
  | some _ => blobs
  | none => fun p => if p = path then some data else blobs p

/-- `delete_blob(path)`: a missing file is not an error. -/
def deleteBlob (path : BlobPath) (blobs : Blobs) : Blobs :=
  fun p => if p = path then none else blobs p

/-- Every file carries the digest its name says. -/
def ContentAddressed (sha256Hex : Bytes → String) (blobs : Blobs) : Prop :=
  ∀ p data, blobs p = some data → sha256Hex data = p.sha256

theorem writeBlob_exists (data : Bytes) (path : BlobPath) (blobs : Blobs) :
    ∃ b, writeBlob data path blobs path = some b := by
  unfold writeBlob
  cases h : blobs path with
  | some b => exact ⟨b, h⟩
  | none => exact ⟨data, by simp⟩

theorem writeBlob_keeps {data : Bytes} {path p : BlobPath} {blobs : Blobs} {b : Bytes}
    (h : blobs p = some b) : writeBlob data path blobs p = some b := by
  unfold writeBlob
  cases hp : blobs path with
  | some c => exact h
  | none =>
    have hne : p ≠ path := by
      rintro rfl
      rw [hp] at h
      cases h
    simp [hne, h]

theorem ContentAddressed.writeBlob {sha256Hex : Bytes → String} {blobs : Blobs}
    (h : ContentAddressed sha256Hex blobs) {data : Bytes} {path : BlobPath}
    (hd : sha256Hex data = path.sha256) : ContentAddressed sha256Hex (writeBlob data path blobs) := by
  intro p b hb
  unfold ProRag.writeBlob at hb
  cases hp : blobs path with
  | some c =>
    rw [hp] at hb
    exact h p b hb
  | none =>
    rw [hp] at hb
    by_cases he : p = path
    · subst he
      simp only [↓reduceIte, Option.some.injEq] at hb
      rw [← hb]
      exact hd
    · simp only [he, ↓reduceIte] at hb
      exact h p b hb

theorem deleteBlob_ne {path p : BlobPath} (hne : p ≠ path) (blobs : Blobs) :
    deleteBlob path blobs p = blobs p := by
  simp [deleteBlob, hne]

theorem ContentAddressed.deleteBlob {sha256Hex : Bytes → String} {blobs : Blobs}
    (h : ContentAddressed sha256Hex blobs) (path : BlobPath) :
    ContentAddressed sha256Hex (deleteBlob path blobs) := by
  intro p b hb
  by_cases he : p = path
  · subst he
    simp [ProRag.deleteBlob] at hb
  · rw [deleteBlob_ne he] at hb
    exact h p b hb

end ProRag
