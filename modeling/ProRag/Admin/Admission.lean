import ProRag.Admin.Access

/-!
# What the corpus operations do to grants

They insert grants of confirmed rules for documents that clear the floor, and they drop those of deleted
documents.
-/

namespace ProRag

open Framework

/-- A row that a confirmed rule has inserted for a document with a chunk that clears the floor. -/
def GrantedBy (operand : Embedding → Embedding) (floor : ℚ) (db : Db) (a : DocumentAcl) (r : AccessRule) : Prop :=
  a.principalType = .group ∧ a.principalId = some r.groupId ∧ a.source = .rule r.id ∧
    ∃ q, r.queryEmbedding = some q ∧ ∃ c ∈ db.chunks, c.docId = a.docId ∧ Cleared operand floor c.embedding q

theorem GrantedBy.keep {operand : Embedding → Embedding} {floor : ℚ} {db db' : Db} {a : DocumentAcl} {r : AccessRule}
    (h : GrantedBy operand floor db a r) (hkept : ∀ c ∈ db.chunks, c.docId = a.docId → c ∈ db'.chunks) :
    GrantedBy operand floor db' a r := by
  obtain ⟨htype, hprincipal, hsource, q, hq, c, hc, hdoc, hclear⟩ := h
  exact ⟨htype, hprincipal, hsource, q, hq, c, hkept c hc hdoc, hdoc, hclear⟩

/-- The rules and the memberships stay; a grant has been there before and its document keeps its chunks, or it
is new. -/
structure Admits (floor : ℚ) (db db' : Db) : Prop where
  rules : db'.accessRules = db.accessRules
  members : db'.userGroups = db.userGroups
  seq : db.aclSeq ≤ db'.aclSeq
  ok : db.AclOk → db'.AclOk
  grants : ∀ a ∈ db'.documentAcl,
    (a ∈ db.documentAcl ∧ ∀ c ∈ db.chunks, c.docId = a.docId → c ∈ db'.chunks) ∨
      (db.aclSeq ≤ a.id ∧ ∃ r ∈ db.accessRules, r.state = .confirmed ∧ ∀ operand, GrantedBy operand floor db' a r)

variable {sha256Hex : Bytes → String} {floor : ℚ} {db db' : Db}

theorem Admits.of_same (hrules : db'.accessRules = db.accessRules) (hmembers : db'.userGroups = db.userGroups) (hacl : db'.documentAcl = db.documentAcl)
    (hseq : db'.aclSeq = db.aclSeq) (hchunks : db'.chunks = db.chunks) : Admits floor db db' := by
  refine ⟨hrules, hmembers, hseq.ge, (AclGrown.of_eq hacl hseq).ok, fun a ha => Or.inl ⟨hacl ▸ ha, fun c hc _ => ?_⟩⟩
  rw [hchunks]
  exact hc

theorem Admits.refl (db : Db) : Admits floor db db := .of_same rfl rfl rfl rfl rfl

theorem Admits.trans {db1 : Db} (h : Admits floor db db1) (h1 : Admits floor db1 db') : Admits floor db db' := by
  refine ⟨h1.rules.trans h.rules, h1.members.trans h.members, h.seq.trans h1.seq, fun hok => h1.ok (h.ok hok), fun a ha => ?_⟩
  rcases h1.grants a ha with ⟨ha, hkept⟩ | ⟨hid, r, hr, hconfirmed, hgranted⟩
  · rcases h.grants a ha with ⟨ha, hkept0⟩ | ⟨hid, r, hr, hconfirmed, hgranted⟩
    · exact Or.inl ⟨ha, fun c hc hdoc => hkept c (hkept0 c hc hdoc) hdoc⟩
    · exact Or.inr ⟨hid, r, hr, hconfirmed, fun operand => (hgranted operand).keep hkept⟩
  · rw [h.rules] at hr
    exact Or.inr ⟨h.seq.trans hid, r, hr, hconfirmed, hgranted⟩

section Sync

variable (env : SyncEnv) (c : Uuid) (collection : String)

end Sync

end ProRag
