import ProRag.Http
import ProRag.Retrieve.Visibility

/-!
# Files and table rows

The two endpoints that serve what hits refer to.
-/

namespace ProRag

open Framework

/-- `FileResponse(blob_path, media_type, headers)`. -/
structure FileResponse where
  blobPath : BlobPath
  mediaType : String
  cacheControl : String
  contentDisposition : Option String
deriving DecidableEq

variable (db : Db) (user : Option User)

/-- `GET /files/{doc_id}/original`. -/
def getOriginal (docId : Uuid) (download : Bool) : Except PyError FileResponse :=
  if visibleDocGuard db user docId = false then .error (httpException 404 "document not found")
  else
    match db.document? docId with
    | none => .error (httpException 404 "document not found")
    | some doc => .ok {
        blobPath := doc.blobPath
        mediaType := doc.mime
        cacheControl := "public, max-age=31536000, immutable"
        contentDisposition := if download then some ("attachment; filename=\"" ++ doc.filename ++ "\"") else none }

/-- `ORDER BY row_no`, equal numbers in the order of insertion. -/
def rowsOf (tableId : Uuid) : List TableRow :=
  orderByDesc (fun r : TableRow => -(r.rowNo : ℤ)) (fun r => r.id) (db.tableRows.filter fun r => r.tableId = tableId)

/-- `GET /tables/{table_id}/rows`: `row_no` and `data` of a page. -/
def getTableRows (tableId : Uuid) (limit offset : ℤ) : Except PyError (List (Nat × List (String × String))) :=
  match selectOne Table.id tableId db.tables with
  | none => .error (httpException 404 "table not found")
  | some table =>
    if visibleDocGuard db user table.docId = false then .error (httpException 404 "table not found")
    else if limit < 0 ∨ offset < 0 then .error ⟨"DataError", "LIMIT and OFFSET must not be negative"⟩
    else .ok ((((rowsOf db tableId).drop offset.toNat).take limit.toNat).map fun r => (r.rowNo, r.data))

end ProRag
