import ProRag.Framework.Pool
import ProRag.Ingest.Router

/-!
# Access rules under concurrency

The handlers that write rules and their grants, cut at their await points: an ingest from the
flush of its chunks on, `create_rule`, `update_rule`, `confirm_rule` and `delete_rule`.  Each
reads committed rows, keeps its own copies, and its writes become visible when it commits.
-/

namespace ProRag

open Framework

/-- `1 - (a <=> b) >= floor` in SQL, computed exactly, where the distance to a zero vector is `NaN` and
`NaN` is the greatest float. -/
def similarityGeSql (floor : ℚ) (a b : Embedding) : Bool :=
  if dot a a = 0 ∨ dot b b = 0 then true
  else leDivSqrt floor (dot a b) (dot a a * dot b b)

/-- What `_distance_expr` compares of a vector: above 2000 dimensions its cast to `halfvec`, which keeps `half` of
each component. -/
def distanceOperand (settings : Settings) (half : ℚ → ℚ) (v : Embedding) : Embedding :=
  if 2000 < settings.embedDim then v.map half else v

@[simp] theorem distanceOperand_id (settings : Settings) : distanceOperand settings id = id := by
  funext v
  simp [distanceOperand]

/-- The documents of `_rule_candidates(session, query_embedding)`; their order is not used. -/
def ruleCandidates (operand : Embedding → Embedding) (floor : ℚ) (query : Embedding) (db : Db) : List Uuid :=
  (db.documents.filter fun d => d.status = .ready ∧ db.chunks.any fun c =>
    c.docId = d.id ∧ similarityGeSql floor (operand c.embedding) (operand query)).map Document.id

/-- `AccessRuleUpdate`: a field is unset, null or a value. -/
structure AccessRuleUpdate where
  name : Option (Option String) := none
  nlQuery : Option (Option String) := none
  groupId : Option (Option Uuid) := none

/-- The columns an `UPDATE` writes: those set to another value than the loaded one. -/
structure RuleColumns where
  name : Option String
  nlQuery : Option String
  groupId : Option Uuid
deriving DecidableEq

/-- A set field that differs from the loaded value. -/
def changedColumn {α : Type} [DecidableEq α] (loaded : α) (field : Option (Option α)) : Option α :=
  field.join.filter fun v => v ≠ loaded

def changedColumns (loaded : AccessRule) (body : AccessRuleUpdate) : RuleColumns where
  name := changedColumn loaded.name body.name
  nlQuery := changedColumn loaded.nlQuery body.nlQuery
  groupId := changedColumn loaded.groupId body.groupId

/-- A field set to null, which the columns refuse. -/
def AccessRuleUpdate.setsNull (body : AccessRuleUpdate) : Bool :=
  body.name = some none || body.nlQuery = some none || body.groupId = some none

def RuleColumns.apply (cols : RuleColumns) (r : AccessRule) : AccessRule :=
  { r with
    name := cols.name.getD r.name
    nlQuery := cols.nlQuery.getD r.nlQuery
    groupId := cols.groupId.getD r.groupId }

/-- The columns `confirm_rule` writes. -/
def confirmColumns (query : Embedding) (now : Timestamp) (r : AccessRule) : AccessRule :=
  { r with queryEmbedding := some query, state := .confirmed, confirmedAt := some now }

/-- Where a handler waits, with the rows it has loaded. -/
inductive RuleCall
  | ingesting (doc : Document) (rows : IngestRows)
  | admitting (doc : Document) (rows : IngestRows) (rules : List AccessRule)
  | creating (id : Uuid) (name nlQuery : String) (groupId : Uuid)
  | patchLoading (r : Uuid) (body : AccessRuleUpdate)
  | patchChecking (rule : AccessRule) (body : AccessRuleUpdate)
  | patchWriting (rule : AccessRule) (body : AccessRuleUpdate)
  | confirmLoading (r : Uuid)
  | confirmEmbedding (rule : AccessRule)
  | confirmSearching (rule : AccessRule) (query : Embedding)
  | confirmInserting (rule : AccessRule) (query : Embedding) (docIds : List Uuid)
  | confirmCommitting (rule : AccessRule) (query : Embedding) (granted : List Uuid)
  | deleteLoading (r : Uuid)
  | deleteRevoking (rule : AccessRule)
  | deleteCommitting (rule : AccessRule) (victims : List Nat)
  | finished (result : Except PyError Unit)

/-- A request that starts. -/
inductive RuleRequest
  | ingest (doc : Document) (rows : IngestRows)
  | create (id : Uuid) (name nlQuery : String) (groupId : Uuid)
  | update (r : Uuid) (body : AccessRuleUpdate)
  | confirm (r : Uuid)
  | delete (r : Uuid)

def RuleRequest.call : RuleRequest → RuleCall
  | ingest doc rows => .ingesting doc rows
  | create id name nlQuery groupId => .creating id name nlQuery groupId
  | update r body => .patchLoading r body
  | confirm r => .confirmLoading r
  | delete r => .deleteLoading r

/-- A handler reaches its next await point, or it raises there. -/
inductive RuleMove
  | advance (now : Timestamp)
  | raise (exc : PyError)

/-- The committed database, the rule ids drawn so far and those whose deletion has committed. -/
structure RuleWorld where
  db : Db
  created : List Uuid
  revoked : List Uuid

def staleData : PyError := ⟨"StaleDataError", "UPDATE statement on table 'access_rules' expected to update 1 row(s)"⟩

/-- The committed writes of an ingest: the document, and its grants for the rules it has matched. -/
def admitDocument (floor : ℚ) (doc : Document) (rows : IngestRows) (rules : List AccessRule) (db : Db) : Db :=
  (matchedRules floor rows.chunks rules).foldl (fun db r => db.grantRule doc.id r)
    (db.storeDocument { doc with status := .ready } rows)

/-- The committed grants of `confirm_rule`. -/
def grantAll (rule : AccessRule) (docIds : List Uuid) (db : Db) : Db :=
  docIds.foldl (fun db d => db.insertAcl d .group (some rule.groupId) (.rule rule.id)) db

def Db.updateRule (r : Uuid) (f : AccessRule → AccessRule) (db : Db) : Db :=
  { db with accessRules := updateWhere (fun a => a.id = r) f db.accessRules }

/-- The committed writes of `delete_rule`: the grants its `DELETE` saw, and the rule. -/
def Db.deleteRule (r : Uuid) (victims : List Nat) (db : Db) : Db :=
  { db with
    documentAcl := deleteWhere (fun a => a.id ∈ victims) db.documentAcl
    accessRules := deleteWhere (fun a => a.id = r) db.accessRules }

variable (settings : Settings) (half : ℚ → ℚ) (embed : String → Embedding)

/-- One handler moves on.  Reads see the committed rows of the moment. -/
def ruleAct (w : RuleWorld) (_others : List RuleCall) : RuleCall → RuleMove → Option (RuleWorld × RuleCall)
  | .finished _, _ => none
  | _, .raise exc => some (w, .finished (.error exc))
  -- ingest_bytes: the flush of the chunks, then `_apply_confirmed_rules` and the commit
  | .ingesting doc rows, .advance _ =>
    if rows.chunks.all fun c => c.embedding.length = settings.embedDim then
      some (w, .admitting doc rows w.db.confirmedRules)
    else some (w, .finished (.error ⟨"DataError", "expected other dimensions"⟩))
  | .admitting doc rows rules, .advance _ =>
    if w.db.documents.any fun d => d.id = doc.id ∨ d.sha256 = doc.sha256 then
      some (w, .finished (.error ⟨"IntegrityError", "documents_sha256_key"⟩))
    else some ({ w with db := admitDocument settings.ruleSimilarityFloor doc rows rules w.db }, .finished (.ok ()))
  -- create_rule
  | .creating id name nlQuery groupId, .advance _ =>
    if (w.db.groups.all fun g => g.id ≠ groupId) then
      some (w, .finished (.error (httpException 404 "group not found")))
    else if id ∈ w.created then none
    else some ({ w with
        db := { w.db with
          accessRules := w.db.accessRules ++ [⟨id, name, nlQuery, groupId, .draft, none, none⟩] }
        created := id :: w.created }, .finished (.ok ()))
  -- update_rule
  | .patchLoading r body, .advance _ =>
    match selectOne AccessRule.id r w.db.accessRules with
    | none => some (w, .finished (.error (httpException 404 "rule not found")))
    | some rule =>
      if rule.state ≠ .draft then
        some (w, .finished (.error (httpException 400
          "rule is confirmed; delete and recreate it to change it")))
      else some (w, .patchChecking rule body)
  | .patchChecking rule body, .advance _ =>
    match body.groupId.join with
    | some g =>
      if w.db.groups.all fun a => a.id ≠ g then
        some (w, .finished (.error (httpException 404 "group not found")))
      else some (w, .patchWriting rule body)
    | none => some (w, .patchWriting rule body)
  | .patchWriting rule body, .advance _ =>
    if body.setsNull then some (w, .finished (.error ⟨"IntegrityError", "null value in column"⟩))
    else if changedColumns rule body = ⟨none, none, none⟩ then some (w, .finished (.ok ()))
    else
      match selectOne AccessRule.id rule.id w.db.accessRules with
      | none => some (w, .finished (.error staleData))
      | some _ => some ({ w with db := w.db.updateRule rule.id (changedColumns rule body).apply }, .finished (.ok ()))
  -- confirm_rule
  | .confirmLoading r, .advance _ =>
    match selectOne AccessRule.id r w.db.accessRules with
    | none => some (w, .finished (.error (httpException 404 "rule not found")))
    | some rule =>
      if rule.state = .confirmed then some (w, .finished (.error (httpException 400 "rule already confirmed")))
      else some (w, .confirmEmbedding rule)
  | .confirmEmbedding rule, .advance _ => some (w, .confirmSearching rule (embed rule.nlQuery))
  | .confirmSearching rule query, .advance _ =>
    if query.length = settings.embedDim then
      some (w, .confirmInserting rule query
        (ruleCandidates (distanceOperand settings half) settings.ruleSimilarityFloor query w.db))
    else some (w, .finished (.error ⟨"DataError", "different vector dimensions"⟩))
  | .confirmInserting rule query docIds, .advance _ =>
    some (w, .confirmCommitting rule query
      (docIds.filter fun d => !w.db.hasRuleGrant d rule.groupId rule.id))
  | .confirmCommitting rule query granted, .advance now =>
    match selectOne AccessRule.id rule.id w.db.accessRules with
    | none => some (w, .finished (.error staleData))
    | some _ =>
      some ({ w with db := grantAll rule granted (w.db.updateRule rule.id (confirmColumns query now)) },
        .finished (.ok ()))
  -- delete_rule
  | .deleteLoading r, .advance _ =>
    match selectOne AccessRule.id r w.db.accessRules with
    | none => some (w, .finished (.error (httpException 404 "rule not found")))
    | some rule => some (w, .deleteRevoking rule)
  | .deleteRevoking rule, .advance _ =>
    some (w, .deleteCommitting rule
      ((w.db.documentAcl.filter fun a => a.source = .rule rule.id).map DocumentAcl.id))
  | .deleteCommitting rule victims, .advance _ =>
    some ({ w with db := w.db.deleteRule rule.id victims, revoked := rule.id :: w.revoked }, .finished (.ok ()))

/-- What one move can do, branch by branch. -/
inductive RuleTransition (w : RuleWorld) : RuleCall → RuleMove → RuleWorld → RuleCall → Prop
  | ends (k : RuleCall) (m : RuleMove) (result : Except PyError Unit) : RuleTransition w k m w (.finished result)
  | readsRules {doc : Document} {rows : IngestRows} (t : Timestamp) :
      (∀ c ∈ rows.chunks, c.embedding.length = settings.embedDim) →
      RuleTransition w (.ingesting doc rows) (.advance t) w (.admitting doc rows w.db.confirmedRules)
  | admits {doc : Document} {rows : IngestRows} {rules : List AccessRule} (t : Timestamp) :
      (∀ d ∈ w.db.documents, d.id ≠ doc.id ∧ d.sha256 ≠ doc.sha256) →
      RuleTransition w (.admitting doc rows rules) (.advance t)
        { w with db := admitDocument settings.ruleSimilarityFloor doc rows rules w.db } (.finished (.ok ()))
  | creates {id : Uuid} {name nlQuery : String} {groupId : Uuid} (t : Timestamp) : id ∉ w.created →
      RuleTransition w (.creating id name nlQuery groupId) (.advance t)
        { w with
          db := { w.db with
            accessRules := w.db.accessRules ++ [⟨id, name, nlQuery, groupId, .draft, none, none⟩] }
          created := id :: w.created } (.finished (.ok ()))
  | patchLoads {rule : AccessRule} {body : AccessRuleUpdate} (t : Timestamp) : rule ∈ w.db.accessRules →
      rule.state = .draft → RuleTransition w (.patchLoading rule.id body) (.advance t) w (.patchChecking rule body)
  | patchChecks {rule : AccessRule} {body : AccessRuleUpdate} (t : Timestamp) :
      RuleTransition w (.patchChecking rule body) (.advance t) w (.patchWriting rule body)
  | patches {rule : AccessRule} {body : AccessRuleUpdate} (t : Timestamp) : body.setsNull = false →
      RuleTransition w (.patchWriting rule body) (.advance t)
        { w with db := w.db.updateRule rule.id (changedColumns rule body).apply } (.finished (.ok ()))
  | confirmLoads {rule : AccessRule} (t : Timestamp) : rule ∈ w.db.accessRules → rule.state = .draft →
      RuleTransition w (.confirmLoading rule.id) (.advance t) w (.confirmEmbedding rule)
  | embeds {rule : AccessRule} (t : Timestamp) :
      RuleTransition w (.confirmEmbedding rule) (.advance t) w (.confirmSearching rule (embed rule.nlQuery))
  | searches {rule : AccessRule} {query : Embedding} (t : Timestamp) : query.length = settings.embedDim →
      RuleTransition w (.confirmSearching rule query) (.advance t) w
        (.confirmInserting rule query
          (ruleCandidates (distanceOperand settings half) settings.ruleSimilarityFloor query w.db))
  | inserts {rule : AccessRule} {query : Embedding} {docIds : List Uuid} (t : Timestamp) :
      RuleTransition w (.confirmInserting rule query docIds) (.advance t) w
        (.confirmCommitting rule query (docIds.filter fun d => !w.db.hasRuleGrant d rule.groupId rule.id))
  | confirms {rule : AccessRule} {query : Embedding} {granted : List Uuid} (now : Timestamp) :
      (∃ r ∈ w.db.accessRules, r.id = rule.id) →
      RuleTransition w (.confirmCommitting rule query granted) (.advance now)
        { w with db := grantAll rule granted (w.db.updateRule rule.id (confirmColumns query now)) }
        (.finished (.ok ()))
  | deleteLoads {rule : AccessRule} (t : Timestamp) : rule ∈ w.db.accessRules →
      RuleTransition w (.deleteLoading rule.id) (.advance t) w (.deleteRevoking rule)
  | revokes {rule : AccessRule} (t : Timestamp) :
      RuleTransition w (.deleteRevoking rule) (.advance t) w (.deleteCommitting rule
        ((w.db.documentAcl.filter fun a => a.source = .rule rule.id).map DocumentAcl.id))
  | deletes {rule : AccessRule} {victims : List Nat} (t : Timestamp) :
      RuleTransition w (.deleteCommitting rule victims) (.advance t)
        { w with db := w.db.deleteRule rule.id victims, revoked := rule.id :: w.revoked } (.finished (.ok ()))

theorem ruleAct_transition {w : RuleWorld} {others : List RuleCall} {k : RuleCall} {m : RuleMove}
    {w' : RuleWorld} {k' : RuleCall} (hs : ruleAct settings half embed w others k m = some (w', k')) :
    RuleTransition settings half embed w k m w' k' := by
  unfold ruleAct at hs
  split at hs
  case h_1 => cases hs
  case h_2 =>
    cases hs
    exact .ends _ _ _
  case h_3 doc rows t =>
    split at hs
    · rename_i hdim
      cases hs
      exact .readsRules t (by simpa using hdim)
    · cases hs
      exact .ends _ _ _
  case h_4 doc rows rules t =>
    split at hs
    · cases hs
      exact .ends _ _ _
    · rename_i hfresh
      cases hs
      refine .admits t fun d hd => ?_
      have := fun h => hfresh (List.any_eq_true.mpr ⟨d, hd, decide_eq_true h⟩)
      exact ⟨fun h => this (Or.inl h), fun h => this (Or.inr h)⟩
  case h_5 id name nlQuery groupId t =>
    split at hs
    · cases hs
      exact .ends _ _ _
    · split at hs
      · cases hs
      · rename_i hid
        cases hs
        exact .creates t hid
  case h_6 r body t =>
    split at hs
    · cases hs
      exact .ends _ _ _
    · rename_i rule hsel
      obtain ⟨hmem, rfl⟩ := selectOne_mem hsel
      split at hs
      · cases hs
        exact .ends _ _ _
      · rename_i hstate
        cases hs
        exact .patchLoads t hmem (not_not.mp hstate)
  case h_7 rule body t =>
    split at hs
    · split at hs
      · cases hs
        exact .ends _ _ _
      · cases hs
        exact .patchChecks t
    · cases hs
      exact .patchChecks t
  case h_8 rule body t =>
    split at hs
    · cases hs
      exact .ends _ _ _
    · rename_i hnull
      split at hs
      · cases hs
        exact .ends _ _ _
      · split at hs
        · cases hs
          exact .ends _ _ _
        · cases hs
          exact .patches t (Bool.not_eq_true _ ▸ hnull)
  case h_9 r t =>
    split at hs
    · cases hs
      exact .ends _ _ _
    · rename_i rule hsel
      obtain ⟨hmem, rfl⟩ := selectOne_mem hsel
      split at hs
      · cases hs
        exact .ends _ _ _
      · rename_i hstate
        cases hs
        refine .confirmLoads t hmem ?_
        cases hrule : rule.state with
        | draft => rfl
        | confirmed => exact absurd hrule hstate
  case h_10 rule t =>
    cases hs
    exact .embeds t
  case h_11 rule query t =>
    split at hs
    · rename_i hdim
      cases hs
      exact .searches t hdim
    · cases hs
      exact .ends _ _ _
  case h_12 rule query docIds t =>
    cases hs
    exact .inserts t
  case h_13 rule query granted now =>
    split at hs
    · cases hs
      exact .ends _ _ _
    · rename_i r hsel
      cases hs
      exact .confirms now ⟨r, selectOne_mem hsel⟩
  case h_14 r t =>
    split at hs
    · cases hs
      exact .ends _ _ _
    · rename_i rule hsel
      obtain ⟨hmem, rfl⟩ := selectOne_mem hsel
      cases hs
      exact .deleteLoads t hmem
  case h_15 rule t =>
    cases hs
    exact .revokes t
  case h_16 rule victims t =>
    cases hs
    exact .deletes t

abbrev RulePool := Pool RuleWorld RuleCall

def ruleStep (s : RulePool) (op : PoolOp RuleRequest RuleMove) : Option RulePool :=
  poolStep RuleRequest.call (ruleAct settings half embed) s op

/-- The primary key of `document_acl`, drawn from its sequence. -/
structure Db.AclOk (db : Db) : Prop where
  unique : UniqueOn DocumentAcl.id db.documentAcl
  below : ∀ a ∈ db.documentAcl, a.id < db.aclSeq

/-- No handler in flight, no rule and no grant of a rule yet; chunks belong to documents and have
the configured dimension. -/
structure RulesStart (s : RulePool) : Prop where
  procs : s.procs = []
  rules : s.shared.db.accessRules = []
  grants : ∀ a ∈ s.shared.db.documentAcl, ∀ r, a.source ≠ .rule r
  revoked : s.shared.revoked = []
  acl : s.shared.db.AclOk
  chunks : ∀ c ∈ s.shared.db.chunks, c.embedding.length = settings.embedDim ∧ ∃ d ∈ s.shared.db.documents, d.id = c.docId

/-! The grants that the two publishing commits add. -/

theorem mem_insertAcl {docId : Uuid} {ptype : PrincipalType} {principal : Option Uuid} {source : AclSource} {db : Db}
    {a : DocumentAcl} : a ∈ (db.insertAcl docId ptype principal source).documentAcl ↔
      a ∈ db.documentAcl ∨ a = ⟨db.aclSeq, docId, ptype, principal, source⟩ := by
  simp [Db.insertAcl]

theorem mem_grantAll {rule : AccessRule} {docIds : List Uuid} {db : Db} {a : DocumentAcl}
    (h : a ∈ (grantAll rule docIds db).documentAcl) :
    a ∈ db.documentAcl ∨ (a.docId ∈ docIds ∧ a.principalType = .group ∧ a.principalId = some rule.groupId ∧
      a.source = .rule rule.id) := by
  induction docIds generalizing db with
  | nil => exact Or.inl h
  | cons d ds ih =>
    rcases ih h with h | ⟨hd, hrest⟩
    · rcases mem_insertAcl.mp h with h | rfl
      · exact Or.inl h
      · exact Or.inr ⟨List.mem_cons_self, rfl, rfl, rfl⟩
    · exact Or.inr ⟨List.mem_cons_of_mem _ hd, hrest⟩

theorem mem_grantRules {docId : Uuid} {rules : List AccessRule} {db : Db} {a : DocumentAcl}
    (h : a ∈ (rules.foldl (fun db r => db.grantRule docId r) db).documentAcl) :
    a ∈ db.documentAcl ∨ ∃ r ∈ rules, a.docId = docId ∧ a.principalType = .group ∧
      a.principalId = some r.groupId ∧ a.source = .rule r.id := by
  induction rules generalizing db with
  | nil => exact Or.inl h
  | cons r rs ih =>
    rcases ih h with h | ⟨r', hr', hrest⟩
    · have hstep : a ∈ (db.grantRule docId r).documentAcl := h
      unfold Db.grantRule at hstep
      split at hstep
      · exact Or.inl hstep
      · rcases mem_insertAcl.mp hstep with h | rfl
        · exact Or.inl h
        · exact Or.inr ⟨r, List.mem_cons_self, rfl, rfl, rfl, rfl⟩
    · exact Or.inr ⟨r', List.mem_cons_of_mem _ hr', hrest⟩

theorem mem_admitDocument {floor : ℚ} {doc : Document} {rows : IngestRows} {rules : List AccessRule} {db : Db}
    {a : DocumentAcl} (h : a ∈ (admitDocument floor doc rows rules db).documentAcl) :
    a ∈ db.documentAcl ∨ ∃ r ∈ matchedRules floor rows.chunks rules, a.docId = doc.id ∧ a.principalType = .group ∧
      a.principalId = some r.groupId ∧ a.source = .rule r.id := by
  have hgrants := mem_grantRules (show a ∈ ((matchedRules floor rows.chunks rules).foldl
    (fun db r => db.grantRule doc.id r) (db.storeDocument { doc with status := .ready } rows)).documentAcl from h)
  exact hgrants

theorem hasRuleGrant_iff {docId groupId ruleId : Uuid} {db : Db} :
    db.hasRuleGrant docId groupId ruleId = true ↔ ∃ a ∈ db.documentAcl, a.docId = docId ∧ a.principalType = .group ∧
      a.principalId = some groupId ∧ a.source = .rule ruleId := by
  simp [Db.hasRuleGrant]

theorem hasRuleGrant_mono {docId groupId ruleId : Uuid} {db db' : Db}
    (h : db.hasRuleGrant docId groupId ruleId = true) (hsub : ∀ a ∈ db.documentAcl, a ∈ db'.documentAcl) :
    db'.hasRuleGrant docId groupId ruleId = true := by
  obtain ⟨a, ha, hcols⟩ := hasRuleGrant_iff.mp h
  exact hasRuleGrant_iff.mpr ⟨a, hsub a ha, hcols⟩

/-- Inserts alone: the grants there are stay, and new ones are numbered on. -/
structure AclGrown (db db' : Db) : Prop where
  seq : db.aclSeq ≤ db'.aclSeq
  keeps : ∀ a ∈ db.documentAcl, a ∈ db'.documentAcl
  fresh : ∀ a ∈ db'.documentAcl, a ∈ db.documentAcl ∨ db.aclSeq ≤ a.id
  ok : db.AclOk → db'.AclOk

theorem AclGrown.of_eq {db db' : Db} (hacl : db'.documentAcl = db.documentAcl) (hseq : db'.aclSeq = db.aclSeq) :
    AclGrown db db' where
  seq := hseq.ge
  keeps := by
    rw [hacl]
    exact fun a ha => ha
  fresh := by
    rw [hacl]
    exact fun a ha => Or.inl ha
  ok := fun h => ⟨by rw [hacl]; exact h.unique, by rw [hacl, hseq]; exact h.below⟩

theorem AclGrown.trans {db db1 db2 : Db} (h : AclGrown db db1) (h1 : AclGrown db1 db2) : AclGrown db db2 where
  seq := h.seq.trans h1.seq
  keeps := fun a ha => h1.keeps a (h.keeps a ha)
  fresh := by
    intro a ha
    rcases h1.fresh a ha with ha | hid
    · exact h.fresh a ha
    · exact Or.inr (h.seq.trans hid)
  ok := fun hok => h1.ok (h.ok hok)

theorem AclGrown.insertAcl (docId : Uuid) (ptype : PrincipalType) (principal : Option Uuid) (source : AclSource)
    (db : Db) : AclGrown db (db.insertAcl docId ptype principal source) where
  seq := Nat.le_succ _
  keeps := fun a ha => mem_insertAcl.mpr (Or.inl ha)
  fresh := by
    intro a ha
    rcases mem_insertAcl.mp ha with ha | rfl
    · exact Or.inl ha
    · exact Or.inr le_rfl
  ok := by
    intro h
    refine ⟨h.unique.insert fun a ha => (h.below a ha).ne, ?_⟩
    intro a ha
    rcases mem_insertAcl.mp ha with ha | rfl
    · exact Nat.lt_succ_of_lt (h.below a ha)
    · exact Nat.lt_succ_self _

theorem AclGrown.grantRule (docId : Uuid) (r : AccessRule) (db : Db) : AclGrown db (db.grantRule docId r) := by
  unfold Db.grantRule
  split
  · exact .of_eq rfl rfl
  · exact .insertAcl ..

theorem AclGrown.grantRules (docId : Uuid) (rules : List AccessRule) (db : Db) :
    AclGrown db (rules.foldl (fun db r => db.grantRule docId r) db) := by
  induction rules generalizing db with
  | nil => exact .of_eq rfl rfl
  | cons r rs ih => exact (AclGrown.grantRule docId r db).trans (ih _)

theorem AclGrown.admitDocument (floor : ℚ) (doc : Document) (rows : IngestRows) (rules : List AccessRule) (db : Db) :
    AclGrown db (admitDocument floor doc rows rules db) := by
  have hstore : AclGrown db (db.storeDocument { doc with status := .ready } rows) := .of_eq rfl rfl
  exact hstore.trans (.grantRules ..)

theorem AclGrown.grantAll (rule : AccessRule) (docIds : List Uuid) (db : Db) :
    AclGrown db (grantAll rule docIds db) := by
  induction docIds generalizing db with
  | nil => exact .of_eq rfl rfl
  | cons d ds ih => exact (AclGrown.insertAcl ..).trans (ih _)

theorem AclGrown.confirm (rule : AccessRule) (granted : List Uuid) (f : AccessRule → AccessRule) (db : Db) :
    AclGrown db (ProRag.grantAll rule granted (db.updateRule rule.id f)) := by
  have hupdate : AclGrown db (db.updateRule rule.id f) := .of_eq rfl rfl
  exact hupdate.trans (.grantAll ..)

theorem AclGrown.hasRuleGrant {db db' : Db} (h : AclGrown db db') {docId groupId ruleId : Uuid}
    (hgrant : db.hasRuleGrant docId groupId ruleId = true) : db'.hasRuleGrant docId groupId ruleId = true :=
  hasRuleGrant_mono hgrant h.keeps

theorem grantRule_hasRuleGrant (docId : Uuid) (r : AccessRule) (db : Db) :
    (db.grantRule docId r).hasRuleGrant docId r.groupId r.id = true := by
  unfold Db.grantRule
  split
  · assumption
  · exact hasRuleGrant_iff.mpr ⟨_, mem_insertAcl.mpr (Or.inr rfl), rfl, rfl, rfl, rfl⟩

theorem grantRules_hasRuleGrant {docId : Uuid} {rules : List AccessRule} {db : Db} {r : AccessRule} (h : r ∈ rules) :
    (rules.foldl (fun db r => db.grantRule docId r) db).hasRuleGrant docId r.groupId r.id = true := by
  induction rules generalizing db with
  | nil => cases h
  | cons r' rs ih =>
    rcases List.mem_cons.mp h with rfl | h
    · exact (AclGrown.grantRules docId rs _).hasRuleGrant (grantRule_hasRuleGrant docId r db)
    · exact ih h

theorem admitDocument_hasRuleGrant {floor : ℚ} {doc : Document} {rows : IngestRows} {rules : List AccessRule} {db : Db}
    {r : AccessRule} (h : r ∈ matchedRules floor rows.chunks rules) :
    (admitDocument floor doc rows rules db).hasRuleGrant doc.id r.groupId r.id = true :=
  grantRules_hasRuleGrant h

theorem grantAll_hasRuleGrant {rule : AccessRule} {docIds : List Uuid} {db : Db} {d : Uuid} (h : d ∈ docIds) :
    (grantAll rule docIds db).hasRuleGrant d rule.groupId rule.id = true := by
  induction docIds generalizing db with
  | nil => cases h
  | cons d' ds ih =>
    rcases List.mem_cons.mp h with rfl | h
    · have hgrant : (db.insertAcl d .group (some rule.groupId) (.rule rule.id)).hasRuleGrant d rule.groupId rule.id :=
        hasRuleGrant_iff.mpr ⟨_, mem_insertAcl.mpr (Or.inr rfl), rfl, rfl, rfl, rfl⟩
      exact (AclGrown.grantAll rule ds _).hasRuleGrant hgrant
    · exact ih h

theorem grantAll_frame (rule : AccessRule) (docIds : List Uuid) (db : Db) :
    grantAll rule docIds db = { db with
      documentAcl := (grantAll rule docIds db).documentAcl, aclSeq := (grantAll rule docIds db).aclSeq } := by
  induction docIds generalizing db with
  | nil => rfl
  | cons d ds ih =>
    have h := ih (db.insertAcl d .group (some rule.groupId) (.rule rule.id))
    simp only [grantAll, List.foldl_cons] at h ⊢
    rw [h]
    rfl

theorem admitDocument_frame (floor : ℚ) (doc : Document) (rows : IngestRows) (rules : List AccessRule) (db : Db) :
    admitDocument floor doc rows rules db = { db.storeDocument { doc with status := .ready } rows with
      documentAcl := (admitDocument floor doc rows rules db).documentAcl
      aclSeq := (admitDocument floor doc rows rules db).aclSeq } :=
  grantRules_frame ..

@[simp] theorem grantAll_accessRules (rule : AccessRule) (docIds : List Uuid) (db : Db) :
    (grantAll rule docIds db).accessRules = db.accessRules := by
  rw [grantAll_frame]

@[simp] theorem grantAll_documents (rule : AccessRule) (docIds : List Uuid) (db : Db) :
    (grantAll rule docIds db).documents = db.documents := by
  rw [grantAll_frame]

@[simp] theorem grantAll_chunks (rule : AccessRule) (docIds : List Uuid) (db : Db) :
    (grantAll rule docIds db).chunks = db.chunks := by
  rw [grantAll_frame]

section

variable (floor : ℚ) (doc : Document) (rows : IngestRows) (rules : List AccessRule) (db : Db)

@[simp] theorem admitDocument_accessRules : (admitDocument floor doc rows rules db).accessRules = db.accessRules := by
  rw [admitDocument_frame]
  rfl

@[simp] theorem admitDocument_documents :
    (admitDocument floor doc rows rules db).documents = db.documents ++ [{ doc with status := .ready }] := by
  rw [admitDocument_frame]
  rfl

@[simp] theorem admitDocument_chunks :
    (admitDocument floor doc rows rules db).chunks = db.chunks ++ rows.chunks.map fun c => { c with docId := doc.id } := by
  rw [admitDocument_frame]
  rfl

end

/-! A small instance for the runs that show what can go wrong: two dimensions, one for payroll and
one for the rest, and two groups. -/

def planeSettings : Settings where
  embedDim := 2

def topicEmbed (text : String) : Embedding :=
  if text = "payroll" then [0, 1] else [1, 0]

def twoGroups : RulePool :=
  ⟨⟨{ Db.empty with groups := [⟨1, "finance", .local, none⟩, ⟨2, "staff", .local, none⟩] }, [], []⟩, []⟩

theorem twoGroups_start : RulesStart planeSettings twoGroups where
  procs := rfl
  rules := rfl
  grants := by
    intro a ha
    cases ha
  revoked := rfl
  acl := ⟨List.nodup_nil, fun a ha => by cases ha⟩
  chunks := by
    intro c hc
    cases hc

def reportDocument : Document :=
  newDocument "5e1f" "report.txt" "default" ⟨3, "text/plain", [], [], []⟩

def reportRows : IngestRows where
  id := 3
  mime := "text/plain"
  chunks := [⟨1, 3, 0, .prose, "Q3 revenue", none, none, none, [1, 0], "Q3 revenue"⟩]
  tables := []
  tableRows := []

end ProRag
