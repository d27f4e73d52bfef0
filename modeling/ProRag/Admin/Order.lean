import Mathlib.Data.Finset.Dedup
import ProRag.Admin.Access

/-!
# Rules before documents, and after

`confirm_rule` compares the stored documents with a rule in SQL, an ingest compares the confirmed rules with
its chunks in Python.  Whether both orders of one ingest and one confirmation grant the same is a matter of
the vectors of length zero.
-/

namespace ProRag

open Framework

abbrev Grant := Uuid × PrincipalType × Option Uuid × AclSource

def DocumentAcl.grant (a : DocumentAcl) : Grant :=
  (a.docId, a.principalType, a.principalId, a.source)

def Db.grants (db : Db) : Finset Grant :=
  (db.documentAcl.map DocumentAcl.grant).toFinset

def ruleGrant (docId : Uuid) (r : AccessRule) : Grant :=
  (docId, .group, some r.groupId, .rule r.id)

/-- `confirm_rule(rule_id, session)` run alone, `embed` being what `embed_texts` makes of one text.  The search compares
the vectors as they are. -/
def confirmRule (settings : Settings) (embed : String → Except PyError Embedding) (now : Timestamp) (r : Uuid) (db : Db) :
    Except PyError AccessRule × Db :=
  match selectOne AccessRule.id r db.accessRules with
  | none => (.error (httpException 404 "rule not found"), db)
  | some rule =>
    if rule.state = .confirmed then (.error (httpException 400 "rule already confirmed"), db)
    else
      match embed rule.nlQuery with
      | .error exc => (.error exc, db)
      | .ok query =>
        if query.length = settings.embedDim then
          (.ok (confirmColumns query now rule),
            grantAll rule ((ruleCandidates id settings.ruleSimilarityFloor query db).filter fun d =>
              !db.hasRuleGrant d rule.groupId rule.id) (db.updateRule rule.id (confirmColumns query now)))
        else (.error ⟨"DataError", "different vector dimensions"⟩, db)

/-- An upload with the outcome of its parse, its embedding and the flush of its chunks, whose vector column has one
dimension. -/
structure RuleUpload (settings : Settings) where
  data : Bytes
  filename : String
  collection : String
  work : IngestWork
  dims : ∀ rows, work = .ok rows → ∀ c ∈ rows.chunks, c.embedding.length = settings.embedDim

structure Confirmation where
  rule : Uuid
  embed : String → Except PyError Embedding
  now : Timestamp

section

variable (sha256Hex : Bytes → String) {settings : Settings}

def RuleUpload.ingest (u : RuleUpload settings) (db : Db) : Db :=
  (ingestBytes sha256Hex settings.ruleSimilarityFloor u.work u.data u.filename u.collection db).2

variable (settings) in
def Confirmation.confirm (k : Confirmation) (db : Db) : Db :=
  (confirmRule settings k.embed k.now k.rule db).2

inductive RuleOp (settings : Settings)
  | ingest (u : RuleUpload settings)
  | confirm (k : Confirmation)

def RuleOp.run (db : Db) : RuleOp settings → Db
  | .ingest u => u.ingest sha256Hex db
  | .confirm k => k.confirm settings db

/-- The upload is new, and `rows` are stored for it. -/
structure RuleUpload.Stores (u : RuleUpload settings) (db : Db) (rows : IngestRows) : Prop where
  work : u.work = .ok rows
  sha : db.documentBySha? (sha256Hex u.data) = none
  id : db.document? rows.id = none

/-- The draft `rule` is confirmed with the embedding `query`. -/
structure Confirmation.Confirms (settings : Settings) (k : Confirmation) (db : Db) (rule : AccessRule) (query : Embedding) :
    Prop where
  loaded : selectOne AccessRule.id k.rule db.accessRules = some rule
  draft : rule.state = .draft
  embedded : k.embed rule.nlQuery = .ok query
  dim : query.length = settings.embedDim

end

/-- The primary keys, the foreign keys to `documents` and the dimension of the vector column. -/
structure RuleTables (settings : Settings) (db : Db) : Prop where
  docs : UniqueOn Document.id db.documents
  rules : UniqueOn AccessRule.id db.accessRules
  chunkDoc : ∀ c ∈ db.chunks, ∃ d ∈ db.documents, d.id = c.docId
  grantDoc : ∀ a ∈ db.documentAcl, ∃ d ∈ db.documents, d.id = a.docId
  queryDim : ∀ r ∈ db.accessRules, ∀ query, r.queryEmbedding = some query → query.length = settings.embedDim

/-- The floor is not positive, or no vector is zero, or some chunk clears the floor anyway. -/
def OrderFree (floor : ℚ) (chunks : List Chunk) (query : Embedding) : Prop :=
  floor ≤ 0 ∨ (∀ c ∈ chunks, dot c.embedding c.embedding ≠ 0 ∧ dot query query ≠ 0) ∨
    ∃ c ∈ chunks, (floor : ℝ) ≤ cosine c.embedding query

/-- The grants of `db` stay, and those added are none of them and pairwise different. -/
def GrantsOnce (db db' : Db) : Prop :=
  ∃ added, db'.documentAcl = db.documentAcl ++ added ∧ (added.map DocumentAcl.grant).Nodup ∧
    ∀ a ∈ added, a.grant ∉ db.grants

theorem confirmRule_runs (settings : Settings) (embed : String → Embedding) (now : Timestamp) (w : RuleWorld) (r : Uuid) :
    runHandler settings id embed w (.confirmLoading r) (List.replicate 5 (.advance now)) =
      { w with db := (confirmRule settings (fun text => .ok (embed text)) now r w.db).2 } := by
  simp only [List.replicate, runHandler, confirmRule, ruleAct]
  cases hrule : selectOne AccessRule.id r w.db.accessRules with
  | none => rfl
  | some rule =>
    obtain ⟨hmem, rfl⟩ := selectOne_mem hrule
    by_cases hstate : rule.state = .confirmed
    · simp [hstate]
    · by_cases hdim : (embed rule.nlQuery).length = settings.embedDim
      · simp [hstate, hdim, hrule]
      · simp [hstate, hdim]

/-! What the grant statements add. -/

@[simp] theorem grants_insertAcl (docId : Uuid) (ptype : PrincipalType) (principal : Option Uuid) (source : AclSource)
    (db : Db) : (db.insertAcl docId ptype principal source).grants = insert (docId, ptype, principal, source) db.grants := by
  ext g
  simp [Db.grants, Db.insertAcl, DocumentAcl.grant, eq_comm]

theorem hasRuleGrant_grants {docId : Uuid} {r : AccessRule} {db : Db} :
    db.hasRuleGrant docId r.groupId r.id = true ↔ ruleGrant docId r ∈ db.grants := by
  simp [hasRuleGrant_iff, Db.grants, ruleGrant, DocumentAcl.grant]

theorem grants_grantRule (docId : Uuid) (r : AccessRule) (db : Db) :
    (db.grantRule docId r).grants = insert (ruleGrant docId r) db.grants := by
  unfold Db.grantRule
  split
  · rename_i hgrant
    rw [Finset.insert_eq_of_mem (hasRuleGrant_grants.mp hgrant)]
  · simp [ruleGrant]

theorem mem_grants_foldl {ι : Type} {step : Db → ι → Db} {row : ι → Grant}
    (hstep : ∀ db i, (step db i).grants = insert (row i) db.grants) (items : List ι) (db : Db) (g : Grant) :
    g ∈ (items.foldl step db).grants ↔ g ∈ db.grants ∨ ∃ i ∈ items, g = row i := by
  induction items generalizing db with
  | nil => simp
  | cons i items ih =>
    rw [List.foldl_cons, ih, hstep]
    simp [or_assoc, or_left_comm]

theorem mem_grants_admitDocument {floor : ℚ} {doc : Document} {rows : IngestRows} {rules : List AccessRule} {db : Db}
    {g : Grant} : g ∈ (admitDocument floor doc rows rules db).grants ↔
      g ∈ db.grants ∨ ∃ r ∈ matchedRules floor rows.chunks rules, g = ruleGrant doc.id r :=
  mem_grants_foldl (fun db r => grants_grantRule doc.id r db) _ _ g

theorem mem_grants_grantAll {rule : AccessRule} {docIds : List Uuid} {db : Db} {g : Grant} :
    g ∈ (grantAll rule docIds db).grants ↔ g ∈ db.grants ∨ ∃ d ∈ docIds, g = ruleGrant d rule :=
  mem_grants_foldl (fun db d => grants_insertAcl d _ _ _ db) _ _ g

theorem mem_matchedRules_iff {floor : ℚ} {chunks : List Chunk} {rules : List AccessRule} {r : AccessRule}
    (hdim : ∀ r' ∈ rules, ∀ q', r'.queryEmbedding = some q' → ∀ c ∈ chunks, c.embedding.length = q'.length) :
    r ∈ matchedRules floor chunks rules ↔
      r ∈ rules ∧ ∃ query, r.queryEmbedding = some query ∧ ∃ c ∈ chunks, (floor : ℝ) ≤ cosine c.embedding query := by
  constructor
  · intro h
    obtain ⟨hr, query, hquery, hclear⟩ := of_mem_matchedRules h
    exact ⟨hr, query, hquery, (anyChunkClears_iff (hdim r hr query hquery)).mp hclear⟩
  · rintro ⟨hr, query, hquery, hclear⟩
    exact mem_matchedRules hdim hr hquery ((anyChunkClears_iff (hdim r hr query hquery)).mpr hclear)

/-- The grants that a new document gets for the rules confirmed before. -/
def AdmittedGrant (floor : ℚ) (db : Db) (rows : IngestRows) (g : Grant) : Prop :=
  ∃ r ∈ db.confirmedRules, (∃ query, r.queryEmbedding = some query ∧
    ∃ c ∈ rows.chunks, (floor : ℝ) ≤ cosine c.embedding query) ∧ g = ruleGrant rows.id r

/-- The grants that a rule gets on the documents stored before. -/
def CandidateGrant (floor : ℚ) (db : Db) (rule : AccessRule) (query : Embedding) (g : Grant) : Prop :=
  ∃ d ∈ ruleCandidates id floor query db, g = ruleGrant d rule

/-! What an ingest and a confirmation do. -/

section

variable {sha256Hex : Bytes → String} {settings : Settings} {u : RuleUpload settings} {k : Confirmation} {db : Db}
  {rows : IngestRows} {rule : AccessRule} {query : Embedding}

theorem RuleUpload.Stores.ingest_eq (h : u.Stores sha256Hex db rows) : u.ingest sha256Hex db =
    admitDocument settings.ruleSimilarityFloor (newDocument (sha256Hex u.data) u.filename u.collection rows) rows
      db.confirmedRules db := by
  simp only [RuleUpload.ingest, ingestBytes, h.sha, h.work, h.id]
  rfl

theorem RuleUpload.ingest_cases (sha256Hex : Bytes → String) (u : RuleUpload settings) (db : Db) :
    u.ingest sha256Hex db = db ∧ (∀ rows, ¬u.Stores sha256Hex db rows) ∨ ∃ rows, u.Stores sha256Hex db rows := by
  cases hsha : db.documentBySha? (sha256Hex u.data) with
  | some existing =>
    refine Or.inl ⟨by simp [RuleUpload.ingest, ingestBytes, hsha], fun rows h => ?_⟩
    exact absurd h.sha (by simp [hsha])
  | none =>
    cases hwork : u.work with
    | error exc =>
      refine Or.inl ⟨by simp [RuleUpload.ingest, ingestBytes, hsha, hwork], fun rows h => ?_⟩
      exact absurd h.work (by simp [hwork])
    | ok rows =>
      cases hid : db.document? rows.id with
      | some doc =>
        refine Or.inl ⟨by simp [RuleUpload.ingest, ingestBytes, hsha, hwork, hid], fun rows' h => ?_⟩
        obtain rfl : rows = rows' := Except.ok.inj (hwork.symm.trans h.work)
        exact absurd h.id (by simp [hid])
      | none => exact Or.inr ⟨rows, hwork, hsha, hid⟩

theorem Confirmation.Confirms.confirm_eq (h : k.Confirms settings db rule query) : k.confirm settings db =
    grantAll rule ((ruleCandidates id settings.ruleSimilarityFloor query db).filter fun d =>
      !db.hasRuleGrant d rule.groupId rule.id) (db.updateRule rule.id (confirmColumns query k.now)) := by
  simp [Confirmation.confirm, confirmRule, h.loaded, h.draft, h.embedded, h.dim]

theorem Confirmation.confirm_cases (settings : Settings) (k : Confirmation) (db : Db) :
    k.confirm settings db = db ∧ (∀ rule query, ¬k.Confirms settings db rule query) ∨
      ∃ rule query, k.Confirms settings db rule query := by
  cases hrule : selectOne AccessRule.id k.rule db.accessRules with
  | none =>
    refine Or.inl ⟨by simp [Confirmation.confirm, confirmRule, hrule], fun rule query h => ?_⟩
    exact absurd h.loaded (by simp [hrule])
  | some rule =>
    cases hstate : rule.state with
    | confirmed =>
      refine Or.inl ⟨by simp [Confirmation.confirm, confirmRule, hrule, hstate], fun rule' query h => ?_⟩
      obtain rfl : rule = rule' := Option.some.inj (hrule.symm.trans h.loaded)
      exact absurd h.draft (by simp [hstate])
    | draft =>
      cases hquery : k.embed rule.nlQuery with
      | error exc =>
        refine Or.inl ⟨by simp [Confirmation.confirm, confirmRule, hrule, hstate, hquery], fun rule' query h => ?_⟩
        obtain rfl : rule = rule' := Option.some.inj (hrule.symm.trans h.loaded)
        exact absurd h.embedded (by simp [hquery])
      | ok query =>
        by_cases hdim : query.length = settings.embedDim
        · exact Or.inr ⟨rule, query, hrule, hstate, hquery, hdim⟩
        · refine Or.inl ⟨by simp [Confirmation.confirm, confirmRule, hrule, hstate, hquery, hdim], fun rule' query' h => ?_⟩
          obtain rfl : rule = rule' := Option.some.inj (hrule.symm.trans h.loaded)
          obtain rfl : query = query' := Except.ok.inj (hquery.symm.trans h.embedded)
          exact hdim h.dim

/-! Neither of the two touches what the other one looks at first. -/

theorem RuleUpload.ingest_accessRules (u : RuleUpload settings) (db : Db) :
    (u.ingest sha256Hex db).accessRules = db.accessRules := by
  rcases u.ingest_cases sha256Hex db with ⟨hsame, _⟩ | ⟨rows, h⟩
  · rw [hsame]
  · rw [h.ingest_eq, admitDocument_accessRules]

theorem Confirmation.confirm_documents (k : Confirmation) (db : Db) :
    (k.confirm settings db).documents = db.documents := by
  rcases k.confirm_cases settings db with ⟨hsame, _⟩ | ⟨rule, query, h⟩
  · rw [hsame]
  · rw [h.confirm_eq, grantAll_documents]
    rfl

theorem RuleUpload.stores_confirm : u.Stores sha256Hex (k.confirm settings db) rows ↔ u.Stores sha256Hex db rows := by
  have hdocs : (k.confirm settings db).documents = db.documents := k.confirm_documents db
  constructor
  · intro h
    have hsha := h.sha
    have hid := h.id
    simp only [Db.documentBySha?, Db.document?, hdocs] at hsha hid
    exact ⟨h.work, hsha, hid⟩
  · intro h
    refine ⟨h.work, ?_, ?_⟩
    · simpa only [Db.documentBySha?, hdocs] using h.sha
    · simpa only [Db.document?, hdocs] using h.id

theorem Confirmation.confirms_ingest :
    k.Confirms settings (u.ingest sha256Hex db) rule query ↔ k.Confirms settings db rule query := by
  have hrules : (u.ingest sha256Hex db).accessRules = db.accessRules := u.ingest_accessRules db
  constructor
  · intro h
    exact ⟨by simpa only [hrules] using h.loaded, h.draft, h.embedded, h.dim⟩
  · intro h
    exact ⟨by simpa only [hrules] using h.loaded, h.draft, h.embedded, h.dim⟩

/-! The grants that the two add. -/

theorem RuleUpload.Stores.mem_grants (h : u.Stores sha256Hex db rows)
    (hdim : ∀ r ∈ db.confirmedRules, ∀ query, r.queryEmbedding = some query → query.length = settings.embedDim)
    {g : Grant} :
    g ∈ (u.ingest sha256Hex db).grants ↔ g ∈ db.grants ∨ AdmittedGrant settings.ruleSimilarityFloor db rows g := by
  have hdims : ∀ r ∈ db.confirmedRules, ∀ query, r.queryEmbedding = some query →
      ∀ c ∈ rows.chunks, c.embedding.length = query.length := by
    intro r hr query hquery c hc
    rw [u.dims rows h.work c hc, hdim r hr query hquery]
  rw [h.ingest_eq, mem_grants_admitDocument]
  simp only [mem_matchedRules_iff hdims, and_assoc]
  rfl

theorem Confirmation.Confirms.mem_grants (h : k.Confirms settings db rule query) {g : Grant} :
    g ∈ (k.confirm settings db).grants ↔
      g ∈ db.grants ∨ CandidateGrant settings.ruleSimilarityFloor db rule query g := by
  have hsame : (db.updateRule rule.id (confirmColumns query k.now)).grants = db.grants := rfl
  rw [h.confirm_eq, mem_grants_grantAll, hsame]
  constructor
  · rintro (hold | ⟨d, hd, rfl⟩)
    · exact Or.inl hold
    · exact Or.inr ⟨d, (List.mem_filter.mp hd).1, rfl⟩
  · rintro (hold | ⟨d, hd, rfl⟩)
    · exact Or.inl hold
    · by_cases hgrant : db.hasRuleGrant d rule.groupId rule.id = true
      · exact Or.inl (hasRuleGrant_grants.mp hgrant)
      · exact Or.inr ⟨d, List.mem_filter.mpr ⟨hd, by simpa using hgrant⟩, rfl⟩

theorem Confirmation.Confirms.mem_confirmedRules (h : k.Confirms settings db rule query)
    (hunique : UniqueOn AccessRule.id db.accessRules) {r : AccessRule} :
    r ∈ (k.confirm settings db).confirmedRules ↔ r ∈ db.confirmedRules ∨ r = confirmColumns query k.now rule := by
  obtain ⟨hrule, _⟩ := selectOne_mem h.loaded
  have hrows : (k.confirm settings db).accessRules =
      updateWhere (fun a => a.id = rule.id) (confirmColumns query k.now) db.accessRules := by
    rw [h.confirm_eq, grantAll_accessRules]
    rfl
  simp only [Db.confirmedRules, hrows, List.mem_filter, mem_updateWhere]
  constructor
  · rintro ⟨⟨a, ha, rfl⟩, hconfirmed⟩
    by_cases hid : a.id = rule.id
    · obtain rfl := hunique.eq_of_key ha hrule hid
      simp
    · simp only [hid, decide_false, Bool.false_eq_true, ↓reduceIte] at hconfirmed ⊢
      exact Or.inl ⟨ha, hconfirmed⟩
  · rintro (⟨hr, hconfirmed⟩ | rfl)
    · refine ⟨⟨r, hr, ?_⟩, hconfirmed⟩
      have hne : r.id ≠ rule.id := by
        intro hid
        obtain rfl := hunique.eq_of_key hr hrule hid
        simp [h.draft] at hconfirmed
      simp [hne]
    · exact ⟨⟨rule, hrule, by simp⟩, by simp [confirmColumns]⟩

theorem mem_ruleCandidates {floor : ℚ} {d : Uuid} : d ∈ ruleCandidates id floor query db ↔
    ∃ doc ∈ db.documents, doc.id = d ∧ doc.status = .ready ∧
      ∃ c ∈ db.chunks, c.docId = d ∧ ClearsFloor floor c.embedding query := by
  simp only [ruleCandidates, List.mem_map, List.mem_filter, decide_eq_true_eq, List.any_eq_true, ← similarityGeSql_iff]
  constructor
  · rintro ⟨doc, ⟨hdoc, hready, hchunk⟩, rfl⟩
    exact ⟨doc, hdoc, rfl, hready, hchunk⟩
  · rintro ⟨doc, hdoc, rfl, hready, hchunk⟩
    exact ⟨doc, ⟨hdoc, hready, hchunk⟩, rfl⟩

theorem stored_mem_ruleCandidates (h : u.Stores sha256Hex db rows) (htables : RuleTables settings db)
    {floor : ℚ} {d : Uuid} : d ∈ ruleCandidates id floor query (u.ingest sha256Hex db) ↔
      d ∈ ruleCandidates id floor query db ∨ d = rows.id ∧ ∃ c ∈ rows.chunks, ClearsFloor floor c.embedding query := by
  have hfresh : ∀ doc ∈ db.documents, doc.id ≠ rows.id := selectOne_eq_none.mp h.id
  have hchunkFresh : ∀ c ∈ db.chunks, c.docId ≠ rows.id := by
    intro c hc
    obtain ⟨doc, hdoc, hid⟩ := htables.chunkDoc c hc
    rw [← hid]
    exact hfresh doc hdoc
  rw [mem_ruleCandidates, mem_ruleCandidates, h.ingest_eq, admitDocument_documents, admitDocument_chunks]
  simp only [List.mem_append, List.mem_singleton, List.mem_map]
  constructor
  · rintro ⟨doc, hdoc | rfl, rfl, hready, c, hc, hcdoc, hclear⟩
    · rcases hc with hc | ⟨c, _, rfl⟩
      · exact Or.inl ⟨doc, hdoc, rfl, hready, c, hc, hcdoc, hclear⟩
      · exact absurd hcdoc.symm (hfresh doc hdoc)
    · rcases hc with hc | ⟨c, hc, rfl⟩
      · exact absurd hcdoc (hchunkFresh c hc)
      · exact Or.inr ⟨rfl, c, hc, hclear⟩
  · rintro (⟨doc, hdoc, rfl, hready, c, hc, hcdoc, hclear⟩ | ⟨rfl, c, hc, hclear⟩)
    · exact ⟨doc, Or.inl hdoc, rfl, hready, c, Or.inl hc, hcdoc, hclear⟩
    · exact ⟨_, Or.inr rfl, rfl, rfl, _, Or.inr ⟨c, hc, rfl⟩, rfl, hclear⟩

/-! Both orders. -/

theorem RuleUpload.ingest_self (h : ∀ rows, ¬u.Stores sha256Hex db rows) : u.ingest sha256Hex db = db := by
  rcases u.ingest_cases sha256Hex db with ⟨hsame, _⟩ | ⟨rows, hstores⟩
  · exact hsame
  · exact absurd hstores (h rows)

theorem Confirmation.confirm_self (h : ∀ rule query, ¬k.Confirms settings db rule query) : k.confirm settings db = db := by
  rcases k.confirm_cases settings db with ⟨hsame, _⟩ | ⟨rule, query, hconfirms⟩
  · exact hsame
  · exact absurd hconfirms (h rule query)

theorem RuleUpload.Stores.candidateGrant (h : u.Stores sha256Hex db rows) (htables : RuleTables settings db)
    {floor : ℚ} {g : Grant} : CandidateGrant floor (u.ingest sha256Hex db) rule query g ↔
      CandidateGrant floor db rule query g ∨
        (∃ c ∈ rows.chunks, ClearsFloor floor c.embedding query) ∧ g = ruleGrant rows.id rule := by
  simp only [CandidateGrant, stored_mem_ruleCandidates h htables]
  constructor
  · rintro ⟨d, hd | ⟨rfl, hclear⟩, rfl⟩
    · exact Or.inl ⟨d, hd, rfl⟩
    · exact Or.inr ⟨hclear, rfl⟩
  · rintro (⟨d, hd, rfl⟩ | ⟨hclear, rfl⟩)
    · exact ⟨d, Or.inl hd, rfl⟩
    · exact ⟨rows.id, Or.inr ⟨rfl, hclear⟩, rfl⟩

theorem Confirmation.Confirms.admittedGrant (h : k.Confirms settings db rule query) (htables : RuleTables settings db)
    {floor : ℚ} {g : Grant} : AdmittedGrant floor (k.confirm settings db) rows g ↔
      AdmittedGrant floor db rows g ∨
        (∃ c ∈ rows.chunks, (floor : ℝ) ≤ cosine c.embedding query) ∧ g = ruleGrant rows.id rule := by
  simp only [AdmittedGrant, h.mem_confirmedRules htables.rules]
  constructor
  · rintro ⟨r, hr | rfl, ⟨q, hq, hclear⟩, rfl⟩
    · exact Or.inl ⟨r, hr, ⟨q, hq, hclear⟩, rfl⟩
    · obtain rfl : query = q := Option.some.inj hq
      exact Or.inr ⟨hclear, rfl⟩
  · rintro (⟨r, hr, hclear, rfl⟩ | ⟨hclear, rfl⟩)
    · exact ⟨r, Or.inl hr, hclear, rfl⟩
    · exact ⟨_, Or.inr rfl, ⟨query, rfl, hclear⟩, rfl⟩

def CommonGrant (floor : ℚ) (db : Db) (rows : IngestRows) (rule : AccessRule) (query : Embedding) (g : Grant) : Prop :=
  g ∈ db.grants ∨ AdmittedGrant floor db rows g ∨ CandidateGrant floor db rule query g

theorem mem_ingest_confirm (htables : RuleTables settings db) (hstores : u.Stores sha256Hex db rows)
    (hconfirms : k.Confirms settings db rule query) {g : Grant} :
    g ∈ (k.confirm settings (u.ingest sha256Hex db)).grants ↔
      CommonGrant settings.ruleSimilarityFloor db rows rule query g ∨
      (∃ c ∈ rows.chunks, ClearsFloor settings.ruleSimilarityFloor c.embedding query) ∧ g = ruleGrant rows.id rule := by
  have hdim : ∀ r ∈ db.confirmedRules, ∀ query, r.queryEmbedding = some query → query.length = settings.embedDim :=
    fun r hr => htables.queryDim r (List.mem_filter.mp hr).1
  have hlater : k.Confirms settings (u.ingest sha256Hex db) rule query := Confirmation.confirms_ingest.mpr hconfirms
  rw [hlater.mem_grants, hstores.mem_grants hdim, hstores.candidateGrant htables]
  simp only [CommonGrant, or_assoc]

theorem mem_confirm_ingest (htables : RuleTables settings db) (hstores : u.Stores sha256Hex db rows)
    (hconfirms : k.Confirms settings db rule query) {g : Grant} :
    g ∈ (u.ingest sha256Hex (k.confirm settings db)).grants ↔
      CommonGrant settings.ruleSimilarityFloor db rows rule query g ∨
      (∃ c ∈ rows.chunks, (settings.ruleSimilarityFloor : ℝ) ≤ cosine c.embedding query) ∧
        g = ruleGrant rows.id rule := by
  have hdim : ∀ r ∈ (k.confirm settings db).confirmedRules, ∀ query, r.queryEmbedding = some query →
      query.length = settings.embedDim := by
    intro r hr q hq
    rcases (hconfirms.mem_confirmedRules htables.rules).mp hr with hr | rfl
    · exact htables.queryDim r (List.mem_filter.mp hr).1 q hq
    · obtain rfl : query = q := Option.some.inj hq
      exact hconfirms.dim
  have hlater : u.Stores sha256Hex (k.confirm settings db) rows := RuleUpload.stores_confirm.mpr hstores
  rw [hlater.mem_grants hdim, hconfirms.mem_grants, hconfirms.admittedGrant htables]
  simp only [CommonGrant, or_assoc, or_left_comm]

theorem newGrant_other (htables : RuleTables settings db) (hstores : u.Stores sha256Hex db rows)
    (hconfirms : k.Confirms settings db rule query) {floor : ℚ} :
    ¬CommonGrant floor db rows rule query (ruleGrant rows.id rule) := by
  have hfresh : ∀ doc ∈ db.documents, doc.id ≠ rows.id := selectOne_eq_none.mp hstores.id
  rintro (hgrant | ⟨r, hr, _, hsame⟩ | ⟨d, hd, hsame⟩)
  · simp only [Db.grants, List.mem_toFinset, List.mem_map] at hgrant
    obtain ⟨a, ha, hsame⟩ := hgrant
    obtain ⟨doc, hdoc, hid⟩ := htables.grantDoc a ha
    have hdocId : a.docId = rows.id := congrArg Prod.fst hsame
    exact hfresh doc hdoc (hid.trans hdocId)
  · obtain ⟨hmem, hconfirmed⟩ := List.mem_filter.mp hr
    obtain ⟨hrule, _⟩ := selectOne_mem hconfirms.loaded
    have hid : rule.id = r.id := AclSource.rule.inj (congrArg (fun g => g.2.2.2) hsame)
    obtain rfl := htables.rules.eq_of_key hrule hmem hid
    simp [hconfirms.draft] at hconfirmed
  · obtain ⟨doc, hdoc, hid, _⟩ := mem_ruleCandidates.mp hd
    have hdocId : rows.id = d := congrArg Prod.fst hsame
    exact hfresh doc hdoc (hid.trans hdocId.symm)

theorem orderFree_iff {floor : ℚ} {chunks : List Chunk} : OrderFree floor chunks query ↔
    ((∃ c ∈ chunks, ClearsFloor floor c.embedding query) → ∃ c ∈ chunks, (floor : ℝ) ≤ cosine c.embedding query) := by
  constructor
  · rintro (hfloor | hnonzero | hclear) ⟨c, hc, hsql⟩
    · rcases or_assoc.mpr hsql with hzero | hle
      · refine ⟨c, hc, ?_⟩
        rw [cosine_of_zero hzero]
        exact_mod_cast hfloor
      · exact ⟨c, hc, hle⟩
    · obtain ⟨hchunk, hquery⟩ := hnonzero c hc
      exact ⟨c, hc, (hsql.resolve_left hchunk).resolve_left hquery⟩
    · exact hclear
  · intro h
    by_cases hnonzero : ∀ c ∈ chunks, dot c.embedding c.embedding ≠ 0 ∧ dot query query ≠ 0
    · exact Or.inr (Or.inl hnonzero)
    · push Not at hnonzero
      obtain ⟨c, hc, hzero⟩ := hnonzero
      have hsql : ClearsFloor floor c.embedding query := by
        unfold ClearsFloor
        tauto
      exact Or.inr (Or.inr (h ⟨c, hc, hsql⟩))

theorem order_iff (htables : RuleTables settings db) (hstores : u.Stores sha256Hex db rows)
    (hconfirms : k.Confirms settings db rule query) :
    (k.confirm settings (u.ingest sha256Hex db)).grants = (u.ingest sha256Hex (k.confirm settings db)).grants ↔
      OrderFree settings.ruleSimilarityFloor rows.chunks query := by
  rw [orderFree_iff, Finset.ext_iff]
  simp only [mem_ingest_confirm htables hstores hconfirms, mem_confirm_ingest htables hstores hconfirms]
  constructor
  · intro h hsql
    rcases (h (ruleGrant rows.id rule)).mp (Or.inr ⟨hsql, rfl⟩) with hcommon | ⟨hclear, _⟩
    · exact absurd hcommon (newGrant_other htables hstores hconfirms)
    · exact hclear
  · intro h g
    constructor
    · rintro (hcommon | ⟨hsql, rfl⟩)
      · exact Or.inl hcommon
      · exact Or.inr ⟨h hsql, rfl⟩
    · rintro (hcommon | ⟨⟨c, hc, hclear⟩, rfl⟩)
      · exact Or.inl hcommon
      · exact Or.inr ⟨⟨c, hc, Or.inr (Or.inr hclear)⟩, rfl⟩

end

/-! No grant is written twice. -/

theorem GrantsOnce.of_eq {db db' : Db} (h : db'.documentAcl = db.documentAcl) : GrantsOnce db db' :=
  ⟨[], by simp [h], by simp, by simp⟩

theorem GrantsOnce.insertAcl {db : Db} {docId : Uuid} {r : AccessRule} (h : ruleGrant docId r ∉ db.grants) :
    GrantsOnce db (db.insertAcl docId .group (some r.groupId) (.rule r.id)) :=
  ⟨[⟨db.aclSeq, docId, .group, some r.groupId, .rule r.id⟩], rfl, by simp,
    by simpa [DocumentAcl.grant, ruleGrant] using h⟩

theorem GrantsOnce.trans {db db1 db2 : Db} (h : GrantsOnce db db1) (h1 : GrantsOnce db1 db2) : GrantsOnce db db2 := by
  obtain ⟨added, hrows, hnodup, hfresh⟩ := h
  obtain ⟨added1, hrows1, hnodup1, hfresh1⟩ := h1
  have hgrants : ∀ g, g ∈ db1.grants ↔ g ∈ db.grants ∨ g ∈ added.map DocumentAcl.grant := by
    intro g
    simp only [Db.grants, hrows, List.map_append, List.mem_toFinset, List.mem_append]
  refine ⟨added ++ added1, by rw [hrows1, hrows, List.append_assoc], ?_, ?_⟩
  · rw [List.map_append, List.nodup_append]
    refine ⟨hnodup, hnodup1, ?_⟩
    intro g hg g1 hg1 hsame
    obtain ⟨a, ha, rfl⟩ := List.mem_map.mp hg1
    exact hfresh1 a ha ((hgrants _).mpr (Or.inr (hsame ▸ hg)))
  · intro a ha
    rcases List.mem_append.mp ha with ha | ha
    · exact hfresh a ha
    · exact fun hold => hfresh1 a ha ((hgrants _).mpr (Or.inl hold))

theorem GrantsOnce.grantRule (docId : Uuid) (r : AccessRule) (db : Db) : GrantsOnce db (db.grantRule docId r) := by
  unfold Db.grantRule
  split
  · exact .of_eq rfl
  · rename_i hgrant
    exact .insertAcl fun hmem => hgrant (hasRuleGrant_grants.mpr hmem)

theorem GrantsOnce.grantRules (docId : Uuid) (rules : List AccessRule) (db : Db) :
    GrantsOnce db (rules.foldl (fun db r => db.grantRule docId r) db) := by
  induction rules generalizing db with
  | nil => exact .of_eq rfl
  | cons r rules ih => exact (GrantsOnce.grantRule docId r db).trans (ih _)

theorem GrantsOnce.grantAll {rule : AccessRule} {docIds : List Uuid} {db : Db} (hnodup : docIds.Nodup)
    (hfresh : ∀ d ∈ docIds, ruleGrant d rule ∉ db.grants) : GrantsOnce db (grantAll rule docIds db) := by
  induction docIds generalizing db with
  | nil => exact .of_eq rfl
  | cons d docIds ih =>
    obtain ⟨hother, hnodup⟩ := List.nodup_cons.mp hnodup
    refine (GrantsOnce.insertAcl (hfresh d List.mem_cons_self)).trans (ih hnodup ?_)
    intro d' hd' hmem
    rw [grants_insertAcl, Finset.mem_insert] at hmem
    rcases hmem with hsame | hold
    · have hdoc : d' = d := congrArg Prod.fst hsame
      exact hother (hdoc ▸ hd')
    · exact hfresh d' (List.mem_cons_of_mem _ hd') hold

theorem ruleCandidates_nodup {db : Db} (h : UniqueOn Document.id db.documents) (floor : ℚ) (query : Embedding) :
    (ruleCandidates id floor query db).Nodup :=
  List.Nodup.sublist (List.Sublist.map Document.id List.filter_sublist) h

section

variable (sha256Hex : Bytes → String) {settings : Settings} {db : Db}

theorem RuleUpload.ingest_once (u : RuleUpload settings) (db : Db) : GrantsOnce db (u.ingest sha256Hex db) := by
  rcases u.ingest_cases sha256Hex db with ⟨hsame, _⟩ | ⟨rows, h⟩
  · rw [hsame]
    exact .of_eq rfl
  · rw [h.ingest_eq]
    have hstore : GrantsOnce db (db.storeDocument (newDocument (sha256Hex u.data) u.filename u.collection rows) rows) :=
      .of_eq rfl
    exact hstore.trans (.grantRules ..)

theorem Confirmation.confirm_once (k : Confirmation) (hdocs : UniqueOn Document.id db.documents) :
    GrantsOnce db (k.confirm settings db) := by
  rcases k.confirm_cases settings db with ⟨hsame, _⟩ | ⟨rule, query, h⟩
  · rw [hsame]
    exact .of_eq rfl
  · rw [h.confirm_eq]
    have hupdate : GrantsOnce db (db.updateRule rule.id (confirmColumns query k.now)) := .of_eq rfl
    refine hupdate.trans (.grantAll ((ruleCandidates_nodup hdocs _ _).filter _) ?_)
    intro d hd hmem
    have hgrant : db.hasRuleGrant d rule.groupId rule.id = true := hasRuleGrant_grants.mpr hmem
    simp [hgrant] at hd

theorem RuleUpload.ingest_tables (u : RuleUpload settings) (h : RuleTables settings db) :
    RuleTables settings (u.ingest sha256Hex db) := by
  rcases u.ingest_cases sha256Hex db with ⟨hsame, _⟩ | ⟨rows, hstores⟩
  · rw [hsame]
    exact h
  · rw [hstores.ingest_eq]
    constructor
    · rw [admitDocument_documents]
      exact h.docs.insert (selectOne_eq_none.mp hstores.id)
    · rw [admitDocument_accessRules]
      exact h.rules
    · intro c hc
      rw [admitDocument_documents]
      rw [admitDocument_chunks] at hc
      rcases List.mem_append.mp hc with hc | hc
      · obtain ⟨d, hd, hid⟩ := h.chunkDoc c hc
        exact ⟨d, List.mem_append_left _ hd, hid⟩
      · obtain ⟨c, _, rfl⟩ := List.mem_map.mp hc
        exact ⟨_, List.mem_append_right _ List.mem_cons_self, rfl⟩
    · intro a ha
      rw [admitDocument_documents]
      rcases mem_admitDocument ha with ha | ⟨r, _, hdoc, _⟩
      · obtain ⟨d, hd, hid⟩ := h.grantDoc a ha
        exact ⟨d, List.mem_append_left _ hd, hid⟩
      · exact ⟨_, List.mem_append_right _ List.mem_cons_self, hdoc.symm⟩
    · rw [admitDocument_accessRules]
      exact h.queryDim

theorem Confirmation.confirm_tables (k : Confirmation) (h : RuleTables settings db) :
    RuleTables settings (k.confirm settings db) := by
  rcases k.confirm_cases settings db with ⟨hsame, _⟩ | ⟨rule, query, hconfirms⟩
  · rw [hsame]
    exact h
  · rw [hconfirms.confirm_eq]
    constructor
    · rw [grantAll_documents]
      exact h.docs
    · rw [grantAll_accessRules]
      exact h.rules.updateWhere fun _ _ => rfl
    · rw [grantAll_chunks, grantAll_documents]
      exact h.chunkDoc
    · intro a ha
      rw [grantAll_documents]
      rcases mem_grantAll ha with ha | ⟨hd, _⟩
      · exact h.grantDoc a ha
      · obtain ⟨doc, hdoc, hid, _⟩ := mem_ruleCandidates.mp (List.mem_filter.mp hd).1
        exact ⟨doc, hdoc, hid⟩
    · intro r hr q hq
      rw [grantAll_accessRules] at hr
      obtain ⟨r0, hr0, rfl⟩ := mem_updateWhere.mp hr
      split at hq
      · obtain rfl : query = q := Option.some.inj hq
        exact hconfirms.dim
      · exact h.queryDim r0 hr0 q hq

theorem RuleOp.run_tables (op : RuleOp settings) (h : RuleTables settings db) : RuleTables settings (op.run sha256Hex db) := by
  cases op with
  | ingest u => exact u.ingest_tables sha256Hex h
  | confirm k => exact k.confirm_tables h

theorem RuleOp.run_once (op : RuleOp settings) (h : RuleTables settings db) : GrantsOnce db (op.run sha256Hex db) := by
  cases op with
  | ingest u => exact u.ingest_once sha256Hex db
  | confirm k => exact k.confirm_once h.docs

theorem runRuleOps_once (ops : List (RuleOp settings)) (h : RuleTables settings db) :
    GrantsOnce db (ops.foldl (RuleOp.run sha256Hex) db) := by
  induction ops generalizing db with
  | nil => exact .of_eq rfl
  | cons op ops ih => exact (op.run_once sha256Hex h).trans (ih (op.run_tables sha256Hex h))

/-- An ingest and a confirmation commute unless a vector of length zero makes the match, and neither in any
sequence writes a grant that is there. -/
theorem rules_documents_commute (htables : RuleTables settings db) (u : RuleUpload settings) (k : Confirmation) :
    ((k.confirm settings (u.ingest sha256Hex db)).grants = (u.ingest sha256Hex (k.confirm settings db)).grants ↔
      ∀ rows, u.Stores sha256Hex db rows → ∀ rule query, k.Confirms settings db rule query →
        OrderFree settings.ruleSimilarityFloor rows.chunks query) ∧
    ∀ ops : List (RuleOp settings), GrantsOnce db (ops.foldl (RuleOp.run sha256Hex) db) := by
  refine ⟨?_, fun ops => runRuleOps_once sha256Hex ops htables⟩
  by_cases hstores : ∃ rows, u.Stores sha256Hex db rows
  · obtain ⟨rows, hstores⟩ := hstores
    by_cases hconfirms : ∃ rule query, k.Confirms settings db rule query
    · obtain ⟨rule, query, hconfirms⟩ := hconfirms
      rw [order_iff htables hstores hconfirms]
      constructor
      · intro h rows' hstores' rule' query' hconfirms'
        obtain rfl : rows = rows' := Except.ok.inj (hstores.work.symm.trans hstores'.work)
        obtain rfl : rule = rule' := Option.some.inj (hconfirms.loaded.symm.trans hconfirms'.loaded)
        obtain rfl : query = query' := Except.ok.inj (hconfirms.embedded.symm.trans hconfirms'.embedded)
        exact h
      · intro h
        exact h rows hstores rule query hconfirms
    · have hself : ∀ rule query, ¬k.Confirms settings db rule query := fun rule query h => hconfirms ⟨rule, query, h⟩
      have hlater : ∀ rule query, ¬k.Confirms settings (u.ingest sha256Hex db) rule query :=
        fun rule query h => hself rule query (Confirmation.confirms_ingest.mp h)
      rw [Confirmation.confirm_self hself, Confirmation.confirm_self hlater]
      simp only [true_iff]
      exact fun _ _ rule query h => absurd h (hself rule query)
  · have hself : ∀ rows, ¬u.Stores sha256Hex db rows := fun rows h => hstores ⟨rows, h⟩
    have hlater : ∀ rows, ¬u.Stores sha256Hex (k.confirm settings db) rows :=
      fun rows h => hself rows (RuleUpload.stores_confirm.mp h)
    rw [RuleUpload.ingest_self hself, RuleUpload.ingest_self hlater]
    simp only [true_iff]
    exact fun rows h => absurd h (hself rows)

end

/-! A document with one chunk, which is embedded as the zero vector. -/

def zeroUpload : RuleUpload planeSettings where
  data := []
  filename := "report.txt"
  collection := "default"
  work := .ok { reportRows with chunks := [⟨1, 3, 0, .prose, "...", none, none, none, [0, 0], "..."⟩] }
  dims := by
    intro rows hrows c hc
    obtain rfl := Except.ok.inj hrows
    obtain rfl := List.mem_singleton.mp hc
    rfl

def revenueConfirmation : Confirmation :=
  ⟨7, fun text => .ok (topicEmbed text), 0⟩

def draftDb : Db :=
  { Db.empty with accessRules := [⟨7, "finance", "revenue", 1, .draft, none, none⟩] }

theorem draftDb_tables : RuleTables planeSettings draftDb where
  docs := List.nodup_nil
  rules := List.nodup_singleton _
  chunkDoc := by
    intro c hc
    cases hc
  grantDoc := by
    intro a ha
    cases ha
  queryDim := by
    intro r hr query hquery
    obtain rfl := List.mem_singleton.mp hr
    cases hquery

theorem rules_documents_commute_zero : RuleTables planeSettings draftDb ∧
    ((revenueConfirmation.confirm planeSettings (zeroUpload.ingest (fun _ => "5e1f") draftDb)).grants =
        (zeroUpload.ingest (fun _ => "5e1f") (revenueConfirmation.confirm planeSettings draftDb)).grants ↔
      ∀ rows, zeroUpload.Stores (fun _ => "5e1f") draftDb rows → ∀ rule query,
        revenueConfirmation.Confirms planeSettings draftDb rule query →
          OrderFree planeSettings.ruleSimilarityFloor rows.chunks query) ∧
    ∀ ops : List (RuleOp planeSettings), GrantsOnce draftDb (ops.foldl (RuleOp.run fun _ => "5e1f") draftDb) :=
  ⟨draftDb_tables, rules_documents_commute (fun _ => "5e1f") draftDb_tables zeroUpload revenueConfirmation⟩

/-- The candidate search takes the document, the ingest does not. -/
theorem zero_order_differs :
    (revenueConfirmation.confirm planeSettings (zeroUpload.ingest (fun _ => "5e1f") draftDb)).grants ≠
      (zeroUpload.ingest (fun _ => "5e1f") (revenueConfirmation.confirm planeSettings draftDb)).grants := by
  have hsearched : (revenueConfirmation.confirm planeSettings (zeroUpload.ingest (fun _ => "5e1f") draftDb)).grants =
      {(3, .group, some 1, .rule 7)} := by
    decide +kernel
  have hadmitted : (zeroUpload.ingest (fun _ => "5e1f") (revenueConfirmation.confirm planeSettings draftDb)).grants =
      ∅ := by
    decide +kernel
  rw [hsearched, hadmitted]
  simp

end ProRag
