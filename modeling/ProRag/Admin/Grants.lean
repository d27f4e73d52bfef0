import ProRag.Admin.Rules
import ProRag.Framework.Paging
import ProRag.Framework.Results

/-!
# The grants of a rule

`rule_grants`, the audit feed of the admin router, read page by page.
-/

namespace ProRag

open Framework

/-- An element of `items`. -/
structure GrantItem where
  docId : Uuid
  filename : String
  grantedAt : Timestamp
deriving DecidableEq, Repr

structure GrantsPage where
  items : List GrantItem
  total : Nat
deriving DecidableEq, Repr

/-- `Query(50, ge=1, le=200)`. -/
structure PageLimit where
  value : Nat
  pos : 1 ≤ value
  small : value ≤ 200

/-- `DocumentAcl.source == f"rule:{rule.id}"`. -/
def Db.grantsOf (ruleId : Uuid) (db : Db) : List DocumentAcl :=
  db.documentAcl.filter fun a => a.source = .rule ruleId

-- `document_acl.created_at`, by the primary key
variable (createdAt : Nat → Timestamp)

/-- A grant with its document. -/
def grantItem (db : Db) (a : DocumentAcl) : Option GrantItem :=
  (db.document? a.docId).map fun d => ⟨a.docId, d.filename, createdAt a.id⟩

/-- `rule_grants(rule_id, limit, offset, session)`; `query` is the order the database answers in. -/
def ruleGrants (query : Arrangement GrantItem.grantedAt) (limit : PageLimit) (offset : Nat) (ruleId : Uuid) (db : Db) :
    Except PyError GrantsPage :=
  match selectOne AccessRule.id ruleId db.accessRules with
  | none => .error (httpException 404 "rule not found")
  | some rule =>
    let grants := db.grantsOf rule.id
    .ok ⟨((query.order (grants.filterMap (grantItem createdAt db))).drop offset).take limit.value, grants.length⟩

/-- The offsets `0`, `limit`, `2 * limit`, … below `total`. -/
def pageOffsets (limit : PageLimit) (total : Nat) : List Nat :=
  (List.range ((total + limit.value - 1) / limit.value)).map fun k => k * limit.value

/-- All pages of the feed, the one at an offset answered by the query of that offset. -/
def grantFeed (queries : Nat → Arrangement GrantItem.grantedAt) (limit : PageLimit) (ruleId : Uuid) (db : Db) :
    Except PyError (List GrantItem) := do
  let pages ← (pageOffsets limit (db.grantsOf ruleId).length).mapM fun offset =>
    ruleGrants createdAt (queries offset) limit offset ruleId db
  .ok (pages.flatMap GrantsPage.items)

/-- The feed lists every grant of the rule exactly once. -/
def ListsGrants (ruleId : Uuid) (db : Db) (items : List GrantItem) : Prop :=
  (items.map some).Perm ((db.grantsOf ruleId).map (grantItem createdAt db))

variable {createdAt} {db : Db} {ruleId : Uuid} {rule : AccessRule} {limit : PageLimit}

/-- What the join gives for a grant whose document exists. -/
def joinedItem (createdAt : Nat → Timestamp) (db : Db) (a : DocumentAcl) : GrantItem :=
  ⟨a.docId, ((db.document? a.docId).map Document.filename).getD "", createdAt a.id⟩

/-- Every grant has its document, as the foreign key says, so the join drops none. -/
theorem grantItem_eq (hdocs : ∀ a ∈ db.documentAcl, ∃ d ∈ db.documents, d.id = a.docId) {a : DocumentAcl}
    (ha : a ∈ db.grantsOf ruleId) : grantItem createdAt db a = some (joinedItem createdAt db a) := by
  obtain ⟨d, hd, hid⟩ := hdocs a (List.mem_filter.mp ha).1
  cases hdoc : db.document? a.docId with
  | none => exact absurd hid (selectOne_eq_none.mp hdoc d hd)
  | some doc => simp [grantItem, joinedItem, hdoc]

theorem joined_eq_map (hdocs : ∀ a ∈ db.documentAcl, ∃ d ∈ db.documents, d.id = a.docId) :
    (db.grantsOf ruleId).filterMap (grantItem createdAt db) = (db.grantsOf ruleId).map (joinedItem createdAt db) := by
  rw [List.filterMap_congr fun a ha => grantItem_eq hdocs ha, List.filterMap_eq_map']

theorem joinedItem_inj {a b : DocumentAcl} (htime : createdAt a.id = createdAt b.id) :
    joinedItem createdAt db a = joinedItem createdAt db b ↔ a.docId = b.docId := by
  constructor
  · intro h
    exact congrArg GrantItem.docId h
  · intro h
    simp only [joinedItem, h, htime]

theorem grantFeed_eq (hrule : selectOne AccessRule.id ruleId db.accessRules = some rule)
    (queries : Nat → Arrangement GrantItem.grantedAt) : grantFeed createdAt queries limit ruleId db =
      .ok (pages limit.value
        (fun k => (queries (k * limit.value)).order ((db.grantsOf ruleId).filterMap (grantItem createdAt db)))
        (((db.grantsOf ruleId).length + limit.value - 1) / limit.value)) := by
  have hid : rule.id = ruleId := (selectOne_mem hrule).2
  have hpages : ∀ offsets : List Nat, (offsets.mapM fun offset => ruleGrants createdAt (queries offset) limit offset ruleId db) =
      .ok (offsets.map fun offset => (⟨(((queries offset).order ((db.grantsOf ruleId).filterMap
        (grantItem createdAt db))).drop offset).take limit.value, (db.grantsOf ruleId).length⟩ : GrantsPage)) := by
    intro offsets
    induction offsets with
    | nil => rfl
    | cons offset offsets ih =>
      rw [List.mapM_cons, ih, ruleGrants, hrule]
      simp only [hid]
      rfl
  rw [grantFeed, hpages, ok_bind, pages, pageOffsets, List.flatMap_map, List.flatMap_map]

theorem listsGrants_iff (hdocs : ∀ a ∈ db.documentAcl, ∃ d ∈ db.documents, d.id = a.docId) {items : List GrantItem} :
    ListsGrants createdAt ruleId db items ↔ items.Perm ((db.grantsOf ruleId).map (joinedItem createdAt db)) := by
  have hsome : (db.grantsOf ruleId).map (grantItem createdAt db) =
      ((db.grantsOf ruleId).map (joinedItem createdAt db)).map some := by
    rw [List.map_map]
    exact List.map_congr_left fun a ha => grantItem_eq hdocs ha
  rw [ListsGrants, hsome]
  exact List.map_perm_map_iff (Option.some_injective _)

theorem cutsTie_joined {t : Timestamp} {p : Nat} :
    CutsTie GrantItem.grantedAt ((db.grantsOf ruleId).map (joinedItem createdAt db)) t p ↔
      CutsTie (fun a : DocumentAcl => createdAt a.id) (db.grantsOf ruleId) t p := by
  rw [CutsTie, CutsTie, List.countP_map, List.countP_map]
  rfl

/-- The pages list every grant exactly once, whatever order each query puts the ties in, exactly when no page
boundary falls between two grants of one time on different documents. -/
theorem grant_pages_complete_iff (hrule : selectOne AccessRule.id ruleId db.accessRules = some rule)
    (hdocs : ∀ a ∈ db.documentAcl, ∃ d ∈ db.documents, d.id = a.docId) (limit : PageLimit) :
    (∀ queries, ∃ items, grantFeed createdAt queries limit ruleId db = .ok items ∧
      ListsGrants createdAt ruleId db items) ↔
    ∀ a ∈ db.grantsOf ruleId, ∀ b ∈ db.grantsOf ruleId, createdAt a.id = createdAt b.id → a.docId ≠ b.docId →
      ∀ k, ¬ CutsTie (fun a : DocumentAcl => createdAt a.id) (db.grantsOf ruleId) (createdAt a.id)
        (k * limit.value) := by
  have hpos := limit.pos
  have hn : ((db.grantsOf ruleId).map (joinedItem createdAt db)).length ≤
      ((db.grantsOf ruleId).length + limit.value - 1) / limit.value * limit.value := by
    have hdiv := Nat.div_add_mod ((db.grantsOf ruleId).length + limit.value - 1) limit.value
    have hmod := Nat.mod_lt ((db.grantsOf ruleId).length + limit.value - 1) hpos
    rw [Nat.mul_comm] at hdiv
    rw [List.length_map]
    omega
  have hpages := pages_perm_iff GrantItem.grantedAt hn
  simp only [List.forall_mem_map, cutsTie_joined] at hpages
  constructor
  · intro hall a ha b hb htime hdoc
    refine hpages.mp ?_ a ha b hb htime fun h => hdoc ((joinedItem_inj htime).mp h)
    intro queries
    obtain ⟨items, hfeed, hlists⟩ := hall fun offset => queries (offset / limit.value)
    rw [grantFeed_eq hrule, joined_eq_map hdocs] at hfeed
    rw [listsGrants_iff hdocs, ← Except.ok.inj hfeed] at hlists
    simpa only [Nat.mul_div_cancel _ hpos] using hlists
  · intro hcut queries
    refine ⟨_, grantFeed_eq hrule queries, ?_⟩
    rw [listsGrants_iff hdocs, joined_eq_map hdocs]
    apply hpages.mpr
    intro a ha b hb htime hne
    exact hcut a ha b hb htime fun h => hne ((joinedItem_inj htime).mpr h)

/-- A rule that has been confirmed over two documents. -/
def payRule : AccessRule := ⟨5, "pay", "payroll", 1, .confirmed, none, some 100⟩

def payDocument (id : Uuid) (filename : String) : Document :=
  ⟨id, filename, filename, "text/plain", ⟨filename, ".txt"⟩, none, "default", .ready, none⟩

def confirmedDb : Db :=
  grantAll payRule [1, 2]
    { Db.empty with documents := [payDocument 1 "march.txt", payDocument 2 "april.txt"], accessRules := [payRule] }

def oneRow : PageLimit := ⟨1, le_rfl, by decide⟩

theorem grant_pages_complete_iff_apart :
    (∀ queries, ∃ items, grantFeed (fun id => 100 + id) queries oneRow 5 confirmedDb = .ok items ∧
      ListsGrants (fun id => 100 + id) 5 confirmedDb items) ↔
    ∀ a ∈ confirmedDb.grantsOf 5, ∀ b ∈ confirmedDb.grantsOf 5, (100 + a.id : Timestamp) = 100 + b.id →
      a.docId ≠ b.docId →
      ∀ k, ¬ CutsTie (fun a : DocumentAcl => (100 + a.id : Timestamp)) (confirmedDb.grantsOf 5) (100 + a.id)
        (k * oneRow.value) := by
  have hrule : selectOne AccessRule.id 5 confirmedDb.accessRules = some payRule := rfl
  exact grant_pages_complete_iff hrule (by decide) oneRow

/-- The order that turns the ties around. -/
def reversedTies : Arrangement GrantItem.grantedAt where
  order rows := rankBy GrantItem.grantedAt rows.reverse
  arranged rows := ⟨(rankBy_stable _ rows.reverse).perm.trans (List.reverse_perm rows),
    (rankBy_stable _ rows.reverse).descending⟩

/-- The confirm has stamped both grants with one time; the second page turns the tie around and lists the first
grant again. -/
theorem confirmed_grants_missed :
    ¬ ∀ queries, ∃ items, grantFeed (fun _ => 100) queries oneRow 5 confirmedDb = .ok items ∧
      ListsGrants (fun _ => 100) 5 confirmedDb items := by
  intro h
  obtain ⟨items, hfeed, hlists⟩ := h fun offset => if offset = 0 then .stored _ else reversedTies
  have htwice : grantFeed (fun _ => 100) (fun offset => if offset = 0 then .stored _ else reversedTies) oneRow 5
      confirmedDb = .ok [⟨1, "march.txt", 100⟩, ⟨1, "march.txt", 100⟩] := by
    decide
  rw [← Except.ok.inj (htwice.symm.trans hfeed)] at hlists
  revert hlists
  rw [ListsGrants]
  decide

end ProRag
