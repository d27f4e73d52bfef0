import ProRag.Framework.Query
import ProRag.Models

/-!
# Query-time visibility

The `document_acl` predicate in its two forms: the clause that the ORM statements add and its twin
in the text of the BM25 query.
-/

namespace ProRag

open Framework

/-- `SELECT group_id FROM user_groups WHERE user_id = …`. -/
def Db.groupIdsOf (userId : Uuid) (db : Db) : List Uuid :=
  (db.userGroups.filter fun m => m.userId = userId).map UserGroup.groupId

/-- The `WHERE` of the `EXISTS` in `visibility_clause`, for one row of `document_acl`. -/
def aclGrants (db : Db) (user : User) (a : DocumentAcl) : SqlBool :=
  SqlBool.or (some (a.principalType = .everyone))
    (SqlBool.or
      (SqlBool.and (some (a.principalType = .user)) (SqlBool.eq a.principalId user.id))
      (SqlBool.and (some (a.principalType = .group)) (SqlBool.isIn a.principalId (db.groupIdsOf user.id))))

/-- `visibility_clause(user)`, correlated to a document; `none` is no filtering. -/
def visibilityClause (db : Db) : Option User → Option (Uuid → Bool)
  | none => none
  | some user =>
    if user.isAdmin then none
    else some fun docId => db.documentAcl.any fun a => (SqlBool.and (some (a.docId = docId)) (aclGrants db user a)).holds

/-- `_visibility_sql(user)`: the conditions stand in another order and the correlation is to the chunk. -/
def visibilitySql (db : Db) : Option User → Option (Uuid → Bool)
  | none => none
  | some user =>
    if user.isAdmin then none
    else some fun chunkDocId => db.documentAcl.any fun a =>
      (SqlBool.and (some (a.docId = chunkDocId))
        (SqlBool.or
          (SqlBool.or (some (a.principalType = .everyone))
            (SqlBool.and (some (a.principalType = .user)) (SqlBool.eq a.principalId user.id)))
          (SqlBool.and (some (a.principalType = .group))
            (SqlBool.isIn a.principalId (db.groupIdsOf user.id))))).holds

/-- A statement with the clause added, if there is one. -/
def passes (clause : Option (Uuid → Bool)) (docId : Uuid) : Bool :=
  match clause with
  | none => true
  | some p => p docId

/-- `visible_doc_guard(session, user, doc_id)`. -/
def visibleDocGuard (db : Db) (user : Option User) (docId : Uuid) : Bool :=
  db.documents.any fun d => d.id = docId ∧ passes (visibilityClause db user) d.id

/-- A grant to everyone, to the user, or to one of the user's groups. -/
def VisibleTo (db : Db) (user : User) (docId : Uuid) : Prop :=
  ∃ a ∈ db.documentAcl, a.docId = docId ∧
    (a.principalType = .everyone ∨ (a.principalType = .user ∧ a.principalId = some user.id) ∨
      (a.principalType = .group ∧ ∃ g, (⟨user.id, g⟩ : UserGroup) ∈ db.userGroups ∧ a.principalId = some g))

variable {db : Db} {user : User} {docId : Uuid}

theorem mem_groupIdsOf {g : Uuid} : g ∈ db.groupIdsOf user.id ↔ (⟨user.id, g⟩ : UserGroup) ∈ db.userGroups := by
  unfold Db.groupIdsOf
  constructor
  · intro h
    obtain ⟨⟨u, g'⟩, hm, rfl⟩ := List.mem_map.mp h
    obtain ⟨hm, hu⟩ := List.mem_filter.mp hm
    obtain rfl : u = user.id := of_decide_eq_true hu
    exact hm
  · intro h
    exact List.mem_map.mpr ⟨_, List.mem_filter.mpr ⟨h, decide_eq_true rfl⟩, rfl⟩

/-- The raw text and the clause select the same documents. -/
theorem visibilitySql_eq (db : Db) (user : Option User) : visibilitySql db user = visibilityClause db user := by
  cases user with
  | none => rfl
  | some u =>
    cases hadmin : u.isAdmin with
    | true => simp only [visibilitySql, visibilityClause, hadmin, ↓reduceIte]
    | false =>
      simp only [visibilitySql, visibilityClause, hadmin, Bool.false_eq_true, ↓reduceIte, aclGrants,
        SqlBool.holds_and, SqlBool.holds_or, SqlBool.holds_some, Bool.or_assoc]

theorem passes_clause_iff (hadmin : user.isAdmin = false) :
    passes (visibilityClause db (some user)) docId = true ↔ VisibleTo db user docId := by
  simp only [visibilityClause, hadmin, Bool.false_eq_true, ↓reduceIte, passes, aclGrants, List.any_eq_true,
    SqlBool.holds_and, SqlBool.holds_or, SqlBool.holds_some, SqlBool.holds_eq, SqlBool.holds_isIn, Bool.and_eq_true,
    Bool.or_eq_true, decide_eq_true_eq, mem_groupIdsOf]
  exact Iff.rfl

theorem visibleDocGuard_iff (hadmin : user.isAdmin = false) :
    visibleDocGuard db (some user) docId = true ↔ (∃ d ∈ db.documents, d.id = docId) ∧ VisibleTo db user docId := by
  have hany : visibleDocGuard db (some user) docId = true ↔
      ∃ d ∈ db.documents, d.id = docId ∧ passes (visibilityClause db (some user)) d.id = true := by
    simp only [visibleDocGuard, List.any_eq_true, decide_eq_true_eq]
  rw [hany]
  constructor
  · rintro ⟨d, hd, rfl, hpass⟩
    exact ⟨⟨d, hd, rfl⟩, (passes_clause_iff hadmin).mp hpass⟩
  · rintro ⟨⟨d, hd, rfl⟩, hvisible⟩
    exact ⟨d, hd, rfl, (passes_clause_iff hadmin).mpr hvisible⟩

end ProRag
