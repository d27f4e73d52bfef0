import ProRag.Admin.Grants
import ProRag.Auth.Routes
import ProRag.Framework.Like
import ProRag.Operations.Budget
import ProRag.Retrieve.Visibility

/-!
# What the admin sees

The lists of documents and of users, the grants of a document and the documents of a user, as the dashboard shows them.
-/

namespace ProRag

open Framework

structure ViewColumns where
  documentCreatedAt : Uuid → Timestamp
  pageCount : Uuid → Option Nat
  connectorName : Uuid → String
  userCreatedAt : Uuid → Timestamp
  grantCreatedAt : Nat → Timestamp

/-- A page of a list, with the number of all its items. -/
structure ListPage (α : Type) where
  items : List α
  total : Nat

/-- `.order_by(key.desc()).limit(limit).offset(offset)`; `query` is the order the database answers in. -/
def pageOf {ρ α : Type} {key : ρ → Timestamp} (query : Arrangement key) (item : ρ → α) (limit offset : Nat) (rows : List ρ) :
    ListPage α :=
  ⟨(((query.order rows).drop offset).take limit).map item, rows.length⟩

def DocStatus.text : DocStatus → String
  | pending => "pending"
  | processing => "processing"
  | ready => "ready"
  | failed => "failed"

/-- The query parameters of `list_documents`. -/
structure DocumentFilters where
  status : Option String
  collection : Option String
  label : Option String
  source : Option String
  q : Option String

/-- An element of `items` of `list_documents`. -/
structure DocumentItem where
  id : Uuid
  filename : String
  status : DocStatus
  error : Option String
  collection : String
  pageCount : Option Nat
  createdAt : Timestamp
  labels : List String
  connector : Option String

/-- A row of `access`. -/
structure AccessItem where
  principalType : PrincipalType
  principalId : Option Uuid
  principalName : Option String
  source : AclSource
  ruleId : Option Uuid
  ruleName : Option String
  createdAt : Timestamp

/-- An element of `items` of `list_users`. -/
structure UserItem where
  id : Uuid
  email : String
  displayName : Option String
  isAdmin : Bool
  disabledAt : Option Timestamp
  dailyCapUsdOverride : Option ℚ
  groups : List String
  todaySpendUsd : ℚ

/-- An element of `items` of `user_visible_docs`. -/
structure VisibleItem where
  id : Uuid
  filename : String
  collection : String
deriving DecidableEq

def Db.groupName? (groupId : Uuid) (db : Db) : Option String := (selectOne Group.id groupId db.groups).map Group.name

variable (columns : ViewColumns) (lower : String → List Char)

/-- The names of the groups that a document is granted to. -/
def Db.labelsOf (docId : Uuid) (db : Db) : List String :=
  (db.documentAcl.filter fun a => a.docId = docId ∧ a.principalType = .group).filterMap fun a =>
    a.principalId.bind fun g => db.groupName? g

/-- The names of the connectors whose items are linked to a document. -/
def Db.sourcesOf (docId : Uuid) (db : Db) : List String :=
  (db.connectorItems.filter fun i => i.docId = some docId).filterMap fun i =>
    (selectOne Connector.id i.connectorId db.connectors).map fun c => columns.connectorName c.id

/-- `Document.filename.ilike(f"%{q}%")`; `lower` is how the database folds case. -/
def filenameLike (q filename : String) : Bool := like ('%' :: lower q ++ ['%']) (lower filename)

/-- The `EXISTS` over the grants and the groups. -/
def Db.hasLabel (label : String) (docId : Uuid) (db : Db) : Bool :=
  db.documentAcl.any fun a => a.docId = docId ∧ a.principalType = .group ∧
    db.groups.any fun g => a.principalId = some g.id ∧ g.name = label

/-- The `EXISTS` over the connector items and the connectors. -/
def Db.hasSource (source : String) (docId : Uuid) (db : Db) : Bool :=
  db.connectorItems.any fun i => i.docId = some docId ∧
    db.connectors.any fun c => c.id = i.connectorId ∧ columns.connectorName c.id = source

/-- The conditions of `list_documents`. -/
def DocumentFilters.selects (f : DocumentFilters) (db : Db) (d : Document) : Bool :=
  (truthy f.status).all (fun s => d.status.text = s) &&
  (truthy f.collection).all (fun c => d.collection = c) &&
  (truthy f.q).all (fun q => filenameLike lower q d.filename) &&
  (truthy f.label).all (fun label => db.hasLabel label d.id) &&
  (truthy f.source).all fun source => db.hasSource columns source d.id

/-- The dictionary of the connectors keeps the last one of a document. -/
def documentItem (db : Db) (d : Document) : DocumentItem where
  id := d.id
  filename := d.filename
  status := d.status
  error := d.error
  collection := d.collection
  pageCount := columns.pageCount d.id
  createdAt := columns.documentCreatedAt d.id
  labels := db.labelsOf d.id
  connector := (db.sourcesOf columns d.id).getLast?

/-- `list_documents(page, page_size, status, collection, label, source, q, session)`. -/
def listDocuments (query : Arrangement fun d : Document => columns.documentCreatedAt d.id) (page : Nat) (pageSize : PageLimit)
    (f : DocumentFilters) (db : Db) : ListPage DocumentItem :=
  pageOf query (documentItem columns db) pageSize.value ((page - 1) * pageSize.value)
    (db.documents.filter (f.selects columns lower db))

def accessItem (db : Db) (a : DocumentAcl) : AccessItem :=
  let ruleId := match a.source with
    | .local => none
    | .rule id => some id
  { principalType := a.principalType
    principalId := a.principalId
    principalName := match a.principalType with
      | .group => a.principalId.bind fun g => db.groupName? g
      | .user => a.principalId.bind fun u => (selectOne User.id u db.users).map User.email
      | .everyone => none
    source := a.source
    ruleId := ruleId
    ruleName := ruleId.bind fun r => (selectOne AccessRule.id r db.accessRules).map AccessRule.name
    createdAt := columns.grantCreatedAt a.id }

/-- `document_access(doc_id, session)`, oldest grant first. -/
def documentAccess (query : Arrangement fun a : DocumentAcl => -columns.grantCreatedAt a.id) (docId : Uuid) (db : Db) :
    Except PyError (List AccessItem) :=
  match db.document? docId with
  | none => .error (httpException 404 "document not found")
  | some doc => .ok ((query.order (db.documentAcl.filter fun a => a.docId = doc.id)).map (accessItem columns db))

def Db.groupsOf (userId : Uuid) (db : Db) : List String :=
  (db.userGroups.filter fun m => m.userId = userId).filterMap fun m => db.groupName? m.groupId

def userItem (usage : List StoredUsage) (now : Timestamp) (db : Db) (u : User) : UserItem where
  id := u.id
  email := u.email
  displayName := u.displayName
  isAdmin := u.isAdmin
  disabledAt := u.disabledAt
  dailyCapUsdOverride := u.dailyCapUsdOverride
  groups := db.groupsOf u.id
  todaySpendUsd := todayUserCostUsd usage now u.id

/-- `list_users(page, page_size, session)`. -/
def listUsers (query : Arrangement fun u : User => columns.userCreatedAt u.id) (page : Nat) (pageSize : PageLimit)
    (usage : List StoredUsage) (now : Timestamp) (db : Db) : ListPage UserItem :=
  pageOf query (userItem usage now db) pageSize.value ((page - 1) * pageSize.value) db.users

/-- What `user_visible_docs` selects. -/
def Db.visibleDocs (target : User) (db : Db) : List Document :=
  db.documents.filter fun d => d.status = .ready ∧ passes (visibilityClause db (some target)) d.id

/-- `user_visible_docs(user_id, limit, offset, session)`. -/
def userVisibleDocs (query : Arrangement fun d : Document => columns.documentCreatedAt d.id) (limit : PageLimit) (offset : Nat)
    (userId : Uuid) (db : Db) : Except PyError (ListPage VisibleItem) :=
  match selectOne User.id userId db.users with
  | none => .error (httpException 404 "user not found")
  | some target =>
    .ok (pageOf query (fun d => ⟨d.id, d.filename, d.collection⟩) limit.value offset (db.visibleDocs target))

/-- What the tables of users and groups enforce. -/
structure PeopleOk (db : Db) : Prop where
  userId : UniqueOn User.id db.users
  email : UniqueOn User.email db.users
  groupId : UniqueOn Group.id db.groups
  groupName : UniqueOn Group.name db.groups
  member : ∀ m ∈ db.userGroups, ∃ g ∈ db.groups, g.id = m.groupId

/-- A row of `access` lets in the user whom a row of `list_users` is about. -/
def AccessItem.LetsIn (u : UserItem) (i : AccessItem) : Prop :=
  match i.principalType with
  | .everyone => True
  | .user => i.principalName = some u.email
  | .group => ∃ name ∈ u.groups, i.principalName = some name

variable {columns lower} {db : Db} {u : User} {usage : List StoredUsage} {now : Timestamp}

theorem groupName_eq_some (hok : PeopleOk db) {groupId : Uuid} {name : String} :
    db.groupName? groupId = some name ↔ ∃ g ∈ db.groups, g.id = groupId ∧ g.name = name := by
  simp only [Db.groupName?, Option.map_eq_some_iff, selectOne_eq_some hok.groupId]
  constructor
  · rintro ⟨g, ⟨hg, hid⟩, hname⟩
    exact ⟨g, hg, hid, hname⟩
  · rintro ⟨g, hg, hid, hname⟩
    exact ⟨g, ⟨hg, hid⟩, hname⟩

/-- Different groups have different names. -/
theorem groupName_inj (hok : PeopleOk db) {a b : Uuid} {name : String} (ha : db.groupName? a = some name)
    (hb : db.groupName? b = some name) : a = b := by
  obtain ⟨g, hg, rfl, hname⟩ := (groupName_eq_some hok).mp ha
  obtain ⟨g', hg', rfl, hname'⟩ := (groupName_eq_some hok).mp hb
  rw [hok.groupName.eq_of_key hg hg' (hname.trans hname'.symm)]

theorem mem_groupsOf {name : String} : name ∈ db.groupsOf u.id ↔
    ∃ g, (⟨u.id, g⟩ : UserGroup) ∈ db.userGroups ∧ db.groupName? g = some name := by
  simp only [Db.groupsOf, List.mem_filterMap, List.mem_filter, decide_eq_true_eq]
  constructor
  · rintro ⟨⟨userId, g⟩, ⟨hm, rfl⟩, hname⟩
    exact ⟨g, hm, hname⟩
  · rintro ⟨g, hm, hname⟩
    exact ⟨⟨u.id, g⟩, ⟨hm, rfl⟩, hname⟩

theorem letsIn_accessItem (hok : PeopleOk db) (hu : u ∈ db.users) (a : DocumentAcl) :
    (accessItem columns db a).LetsIn (userItem usage now db u) ↔
      a.principalType = .everyone ∨ (a.principalType = .user ∧ a.principalId = some u.id) ∨
        (a.principalType = .group ∧ ∃ g, (⟨u.id, g⟩ : UserGroup) ∈ db.userGroups ∧ a.principalId = some g) := by
  cases htype : a.principalType with
  | everyone => simp [AccessItem.LetsIn, accessItem, htype]
  | user =>
    simp only [AccessItem.LetsIn, accessItem, htype, userItem, Option.bind_eq_some_iff, Option.map_eq_some_iff,
      selectOne_eq_some hok.userId]
    constructor
    · rintro ⟨uid, hid, v, ⟨hv, rfl⟩, hemail⟩
      obtain rfl := hok.email.eq_of_key hv hu hemail
      simp [hid]
    · intro h
      have hid : a.principalId = some u.id := by simpa using h
      exact ⟨u.id, hid, u, ⟨hu, rfl⟩, rfl⟩
  | group =>
    simp only [AccessItem.LetsIn, accessItem, htype, userItem, Option.bind_eq_some_iff, mem_groupsOf]
    constructor
    · rintro ⟨name, ⟨g, hm, hname⟩, g', hid, hname'⟩
      obtain rfl := groupName_inj hok hname hname'
      simpa using ⟨g, hm, hid⟩
    · intro h
      obtain ⟨g, hm, hid⟩ : ∃ g, (⟨u.id, g⟩ : UserGroup) ∈ db.userGroups ∧ a.principalId = some g := by simpa using h
      obtain ⟨group, hgroup, hgid⟩ := hok.member _ hm
      have hname : db.groupName? g = some group.name := (groupName_eq_some hok).mpr ⟨group, hgroup, hgid, rfl⟩
      exact ⟨group.name, ⟨g, hm, hname⟩, g, hid, hname⟩

theorem mem_listUsers {people : Arrangement fun u : User => columns.userCreatedAt u.id} {page : Nat} {pageSize : PageLimit}
    {row : UserItem} (h : row ∈ (listUsers columns people page pageSize usage now db).items) :
    ∃ v ∈ db.users, row = userItem usage now db v := by
  simp only [listUsers, pageOf, List.mem_map] at h
  obtain ⟨v, hv, rfl⟩ := h
  have horder : v ∈ people.order db.users := List.mem_of_mem_drop (List.mem_of_mem_take hv)
  exact ⟨v, (people.arranged db.users).perm.mem_iff.mp horder, rfl⟩

theorem listUsers_shows (people : Arrangement fun u : User => columns.userCreatedAt u.id) (pageSize : PageLimit)
    (hu : u ∈ db.users) : ∃ k, userItem usage now db u ∈ (listUsers columns people (k + 1) pageSize usage now db).items := by
  have horder : u ∈ people.order db.users := (people.arranged db.users).perm.mem_iff.mpr hu
  have hpages : u ∈ pages pageSize.value (fun _ => people.order db.users) (pageCount pageSize.value db.users.length) := by
    rw [pages_same, List.take_of_length_le]
    · exact horder
    · rw [(people.arranged db.users).perm.length_eq]
      exact le_pageCount pageSize.pos _
  simp only [pages, List.mem_flatMap, List.mem_range] at hpages
  obtain ⟨k, -, hk⟩ := hpages
  exact ⟨k, List.mem_map_of_mem hk⟩

theorem guard_iff_letsIn (hok : PeopleOk db) (hu : u ∈ db.users) (hadmin : u.isAdmin = false)
    {query : Arrangement fun a : DocumentAcl => -columns.grantCreatedAt a.id} {docId : Uuid} {items : List AccessItem}
    (h : documentAccess columns query docId db = .ok items) :
    visibleDocGuard db (some u) docId = true ↔ ∃ i ∈ items, i.LetsIn (userItem usage now db u) := by
  rw [documentAccess] at h
  cases hdoc : db.document? docId with
  | none => simp [hdoc] at h
  | some doc =>
    obtain ⟨hmem, hid⟩ := selectOne_mem hdoc
    rw [hdoc] at h
    obtain rfl := Except.ok.inj h
    rw [visibleDocGuard_iff hadmin]
    simp only [List.mem_map, exists_exists_and_eq_and, letsIn_accessItem hok hu]
    constructor
    · rintro ⟨-, a, ha, rfl, hgrant⟩
      refine ⟨a, ?_, hgrant⟩
      rw [(query.arranged _).perm.mem_iff]
      exact List.mem_filter.mpr ⟨ha, by simp [hid]⟩
    · rintro ⟨a, ha, hgrant⟩
      rw [(query.arranged _).perm.mem_iff] at ha
      obtain ⟨ha, hdocId⟩ := List.mem_filter.mp ha
      exact ⟨⟨doc, hmem, hid⟩, a, ha, (of_decide_eq_true hdocId).trans hid, hgrant⟩

/-- The two lists explain the access: the list of users has a row for every user, and a user who is no admin is let at a
document just when the list of its grants has one for everyone, one with the email of the user's row, or one with the name
of a group of that row. -/
theorem access_explained (hok : PeopleOk db) (hu : u ∈ db.users) (hadmin : u.isAdmin = false)
    {query : Arrangement fun a : DocumentAcl => -columns.grantCreatedAt a.id} {docId : Uuid} {items : List AccessItem}
    (h : documentAccess columns query docId db = .ok items) (people : Arrangement fun u : User => columns.userCreatedAt u.id)
    (pageSize : PageLimit) (usage : List StoredUsage) (now : Timestamp) :
    (∃ k, ∃ row ∈ (listUsers columns people (k + 1) pageSize usage now db).items, row.id = u.id) ∧
    ∀ page, ∀ row ∈ (listUsers columns people page pageSize usage now db).items, row.id = u.id →
      (visibleDocGuard db (some u) docId = true ↔ ∃ i ∈ items, i.LetsIn row) := by
  constructor
  · obtain ⟨k, hk⟩ := listUsers_shows people pageSize hu
    exact ⟨k, _, hk, rfl⟩
  · intro page row hrow hid
    obtain ⟨v, hv, rfl⟩ := mem_listUsers hrow
    rw [hok.userId.eq_of_key hv hu hid]
    exact guard_iff_letsIn hok hu hadmin h

/-! The lists, page by page. -/

variable (columns lower) in
/-- All pages of `user_visible_docs`, the one at an offset answered by the query of that offset. -/
def visibleFeed (queries : Nat → Arrangement fun d : Document => columns.documentCreatedAt d.id) (limit : PageLimit)
    (userId : Uuid) (db : Db) : Except PyError (List VisibleItem) := do
  let first ← userVisibleDocs columns (queries 0) limit 0 userId db
  let pages ← (List.range (pageCount limit.value first.total)).mapM fun k =>
    userVisibleDocs columns (queries k) limit (k * limit.value) userId db
  .ok (pages.flatMap ListPage.items)

variable (columns lower) in
/-- All pages of `list_documents`. -/
def documentFeed (queries : Nat → Arrangement fun d : Document => columns.documentCreatedAt d.id) (pageSize : PageLimit)
    (f : DocumentFilters) (db : Db) : List DocumentItem :=
  let total := (listDocuments columns lower (queries 0) 1 pageSize f db).total
  (List.range (pageCount pageSize.value total)).flatMap fun k =>
    (listDocuments columns lower (queries k) (k + 1) pageSize f db).items

/-- What the filters say of an item, by what the item shows. -/
def DocumentFilters.shows (lower : String → List Char) (f : DocumentFilters) (i : DocumentItem) : Bool :=
  (truthy f.status).all (fun s => i.status.text = s) &&
  (truthy f.collection).all (fun c => i.collection = c) &&
  (truthy f.q).all (fun q => decide (lower q <:+: lower i.filename)) &&
  (truthy f.label).all (fun label => label ∈ i.labels) &&
  (truthy f.source).all fun source => i.connector = some source

theorem pages_map {ρ α : Type} (item : ρ → α) (limit : Nat) (orders : Nat → List ρ) (n : Nat) :
    ((List.range n).flatMap fun k => (((orders k).drop (k * limit)).take limit).map item) =
      (pages limit orders n).map item := by
  rw [pages, List.map_flatMap]

theorem visibleFeed_eq {userId : Uuid} {target : User} (huser : selectOne User.id userId db.users = some target)
    (queries : Nat → Arrangement fun d : Document => columns.documentCreatedAt d.id) (limit : PageLimit) :
    visibleFeed columns queries limit userId db = .ok ((pages limit.value (fun k => (queries k).order (db.visibleDocs target))
      (pageCount limit.value (db.visibleDocs target).length)).map fun d => ⟨d.id, d.filename, d.collection⟩) := by
  have hpages : ∀ ks : List Nat, (ks.mapM fun k => userVisibleDocs columns (queries k) limit (k * limit.value) userId db) =
      .ok (ks.map fun k => pageOf (queries k) (fun d => (⟨d.id, d.filename, d.collection⟩ : VisibleItem)) limit.value
        (k * limit.value) (db.visibleDocs target)) := by
    intro ks
    induction ks with
    | nil => rfl
    | cons k ks ih =>
      rw [List.mapM_cons, ih, userVisibleDocs, huser]
      rfl
  rw [visibleFeed, userVisibleDocs, huser, ok_bind, hpages, ok_bind, List.flatMap_map, ← pages_map]
  rfl

theorem mem_visibleDocs {d : Document} (hd : d ∈ db.documents) {target : User} :
    d ∈ db.visibleDocs target ↔ d.status = .ready ∧ visibleDocGuard db (some target) d.id = true := by
  have hguard : visibleDocGuard db (some target) d.id = true ↔ passes (visibilityClause db (some target)) d.id = true := by
    simp only [visibleDocGuard, List.any_eq_true, decide_eq_true_eq]
    constructor
    · rintro ⟨d', _, hid, hpass⟩
      rwa [← hid]
    · intro hpass
      exact ⟨d, hd, rfl, hpass⟩
  simp [Db.visibleDocs, hd, hguard]

/-- The pages of `user_visible_docs` list every ready document that the files are served of, and each once, whatever order
the queries put the ties in, exactly when no page boundary falls between two of them of one time. -/
theorem visible_docs_complete_iff (hids : UniqueOn Document.id db.documents) {userId : Uuid} {target : User}
    (huser : selectOne User.id userId db.users = some target) (limit : PageLimit) :
    (∀ queries, ∃ items, visibleFeed columns queries limit userId db = .ok items ∧ (items.map VisibleItem.id).Nodup ∧
      ∀ d ∈ db.documents, d.id ∈ items.map VisibleItem.id ↔
        d.status = .ready ∧ visibleDocGuard db (some target) d.id = true) ↔
    ∀ a ∈ db.visibleDocs target, ∀ b ∈ db.visibleDocs target,
      columns.documentCreatedAt a.id = columns.documentCreatedAt b.id → a ≠ b →
        ∀ k, ¬ CutsTie (fun d : Document => columns.documentCreatedAt d.id) (db.visibleDocs target)
          (columns.documentCreatedAt a.id) (k * limit.value) := by
  have hrows : UniqueOn Document.id (db.visibleDocs target) :=
    List.Nodup.sublist (List.filter_sublist.map Document.id) hids
  have hsub : ∀ d ∈ db.visibleDocs target, d ∈ db.documents := fun d hd => (List.mem_filter.mp hd).1
  rw [← pages_perm_iff (fun d : Document => columns.documentCreatedAt d.id) (le_pageCount limit.pos _)]
  apply forall_congr'
  intro queries
  simp only [visibleFeed_eq huser, Except.ok.injEq, exists_eq_left', List.map_map]
  constructor
  · rintro ⟨hnodup, hmem⟩
    have hpages : UniqueOn Document.id (pages limit.value (fun k => (queries k).order (db.visibleDocs target))
      (pageCount limit.value (db.visibleDocs target).length)) := hnodup
    apply (List.perm_ext_iff_of_nodup (List.Nodup.of_map _ hpages) (List.Nodup.of_map _ hrows)).mpr
    intro d
    refine ⟨mem_of_mem_pages, fun hd => ?_⟩
    obtain ⟨d', hd', hid⟩ := List.mem_map.mp ((hmem d (hsub d hd)).mpr ((mem_visibleDocs (hsub d hd)).mp hd))
    rwa [← hids.eq_of_key (hsub d' (mem_of_mem_pages hd')) (hsub d hd) hid]
  · intro hperm
    have hids' := hperm.map Document.id
    refine ⟨hids'.nodup_iff.mpr hrows, ?_⟩
    intro d hd
    rw [← mem_visibleDocs hd]
    constructor
    · intro h
      obtain ⟨d', hd', hid⟩ := List.mem_map.mp (hids'.mem_iff.mp h)
      rwa [← hids.eq_of_key (hsub d' hd') hd hid]
    · intro h
      exact hids'.mem_iff.mpr (List.mem_map_of_mem h)

/-! What is filtered is what is shown. -/

theorem hasLabel_eq (hgroups : UniqueOn Group.id db.groups) (label : String) (docId : Uuid) :
    db.hasLabel label docId = decide (label ∈ db.labelsOf docId) := by
  rw [Bool.eq_iff_iff, decide_eq_true_eq]
  simp only [Db.hasLabel, Db.labelsOf, Db.groupName?, List.mem_filterMap, List.mem_filter, decide_eq_true_eq, Option.bind_eq_some_iff,
    Option.map_eq_some_iff, selectOne_eq_some hgroups, List.any_eq_true]
  constructor
  · rintro ⟨a, ha, hdoc, htype, group, hgroup, hprincipal, hname⟩
    exact ⟨a, ⟨ha, hdoc, htype⟩, group.id, hprincipal, group, ⟨hgroup, rfl⟩, hname⟩
  · rintro ⟨a, ⟨ha, hdoc, htype⟩, g, hprincipal, group, ⟨hgroup, rfl⟩, hname⟩
    exact ⟨a, ha, hdoc, htype, group, hgroup, hprincipal, hname⟩

theorem getLast?_eq_iff_mem {names : List String} (hone : ∀ a ∈ names, ∀ b ∈ names, a = b) (name : String) :
    names.getLast? = some name ↔ name ∈ names := by
  constructor
  · exact List.mem_of_getLast?
  · intro hname
    obtain ⟨last, hlast⟩ : ∃ last, names.getLast? = some last := by
      apply Option.isSome_iff_exists.mp
      simpa using List.ne_nil_of_mem hname
    rw [hlast, hone name hname last (List.mem_of_getLast? hlast)]

theorem hasSource_eq (hconnectors : UniqueOn Connector.id db.connectors) {docId : Uuid}
    (hone : ∀ a ∈ db.sourcesOf columns docId, ∀ b ∈ db.sourcesOf columns docId, a = b) (source : String) :
    db.hasSource columns source docId = decide ((db.sourcesOf columns docId).getLast? = some source) := by
  have hlast := getLast?_eq_iff_mem hone source
  rw [Bool.eq_iff_iff, decide_eq_true_eq, hlast]
  simp only [Db.hasSource, Db.sourcesOf, List.mem_filterMap, List.mem_filter, decide_eq_true_eq, Option.map_eq_some_iff,
    selectOne_eq_some hconnectors, List.any_eq_true]
  constructor
  · rintro ⟨i, hi, hdoc, c, hc, hid, hname⟩
    exact ⟨i, ⟨hi, hdoc⟩, c, ⟨hc, hid⟩, hname⟩
  · rintro ⟨i, ⟨hi, hdoc⟩, c, ⟨hc, hid⟩, hname⟩
    exact ⟨i, hi, hdoc, c, hc, hid, hname⟩

theorem selects_eq_shows (hgroups : UniqueOn Group.id db.groups) (hconnectors : UniqueOn Connector.id db.connectors)
    {f : DocumentFilters} (hplain : ∀ q, truthy f.q = some q → PlainPattern (lower q)) {d : Document}
    (hone : ∀ a ∈ db.sourcesOf columns d.id, ∀ b ∈ db.sourcesOf columns d.id, a = b) :
    f.selects columns lower db d = f.shows lower (documentItem columns db d) := by
  have hq : (truthy f.q).all (fun q => filenameLike lower q d.filename) =
      (truthy f.q).all fun q => decide (lower q <:+: lower d.filename) := by
    cases hsome : truthy f.q with
    | none => rfl
    | some q =>
      rw [Option.all_some, Option.all_some, Bool.eq_iff_iff, decide_eq_true_eq]
      exact like_infix (hplain q hsome)
  rw [DocumentFilters.selects, DocumentFilters.shows, hq]
  simp only [documentItem, hasLabel_eq hgroups, hasSource_eq hconnectors hone]
  rfl

theorem documentFeed_eq (htimes : ∀ a ∈ db.documents, ∀ b ∈ db.documents,
      columns.documentCreatedAt a.id = columns.documentCreatedAt b.id → a = b)
    (queries : Nat → Arrangement fun d : Document => columns.documentCreatedAt d.id) (pageSize : PageLimit)
    (f : DocumentFilters) : documentFeed columns lower queries pageSize f db =
      ((rankBy (fun d : Document => columns.documentCreatedAt d.id) db.documents).filter
        (f.selects columns lower db)).map (documentItem columns db) := by
  have hall := (Arrangement.stored fun d : Document => columns.documentCreatedAt d.id).arranged db.documents
  have hrows := (Arrangement.stored fun d : Document => columns.documentCreatedAt d.id).arranged
    (db.documents.filter (f.selects columns lower db))
  have hkey : ∀ a ∈ db.documents.filter (f.selects columns lower db), ∀ b ∈ db.documents.filter (f.selects columns lower db),
      columns.documentCreatedAt a.id = columns.documentCreatedAt b.id → a = b := fun a ha b hb =>
    htimes a (List.mem_filter.mp ha).1 b (List.mem_filter.mp hb).1
  have hunique := hrows.unique (hall.filter _) hkey
  have hpages := pages_map (documentItem columns db) pageSize.value
    (fun k => (queries k).order (db.documents.filter (f.selects columns lower db)))
    (pageCount pageSize.value (db.documents.filter (f.selects columns lower db)).length)
  rw [pages_eq_rankBy hkey (le_pageCount pageSize.pos _)] at hpages
  exact hpages.trans (congrArg _ hunique)

/-- The list under some filters is the list without them, less the items that do not show what the filters ask for. -/
theorem listing_filter_agrees (hgroups : UniqueOn Group.id db.groups) (hconnectors : UniqueOn Connector.id db.connectors)
    (htimes : ∀ a ∈ db.documents, ∀ b ∈ db.documents,
      columns.documentCreatedAt a.id = columns.documentCreatedAt b.id → a = b)
    (hone : ∀ d ∈ db.documents, ∀ a ∈ db.sourcesOf columns d.id, ∀ b ∈ db.sourcesOf columns d.id, a = b)
    {f : DocumentFilters} (hplain : ∀ q, truthy f.q = some q → PlainPattern (lower q))
    (queries queries' : Nat → Arrangement fun d : Document => columns.documentCreatedAt d.id) (pageSize pageSize' : PageLimit) :
    documentFeed columns lower queries pageSize f db =
      (documentFeed columns lower queries' pageSize' ⟨none, none, none, none, none⟩ db).filter (f.shows lower) := by
  rw [documentFeed_eq htimes, documentFeed_eq htimes, List.filter_map]
  have hnone : DocumentFilters.selects columns lower ⟨none, none, none, none, none⟩ db = fun _ => true := by
    funext d
    simp [DocumentFilters.selects, truthy]
  rw [hnone, List.filter_true]
  congr 1
  apply List.filter_congr
  intro d hd
  rw [Function.comp_apply]
  apply selects_eq_shows hgroups hconnectors hplain
  apply hone
  exact (rankBy_stable _ _).perm.mem_iff.mp hd

/-- A handbook for the staff, which two keys of the bucket hold, and a sheet for nobody; Ann is of the staff. -/
def officeDb : Db :=
  { Db.empty with
    documents := [payDocument 7 "handbook.pdf", payDocument 8 "sheet.pdf"]
    documentAcl := [⟨0, 7, .group, some 5, .local⟩]
    aclSeq := 1
    users := [⟨1, none, "ann@example.org", none, false, none, none, none⟩]
    groups := [⟨5, "staff", .local, none⟩]
    userGroups := [⟨1, 5⟩]
    connectors := [⟨1, "default", none, none⟩]
    connectorItems := ["a.pdf", "b.pdf"].map fun key => ⟨1, key, none, none, none, some 7, none, .synced, none⟩ }

def officeColumns : ViewColumns where
  documentCreatedAt d := d
  pageCount _ := none
  connectorName _ := "bucket"
  userCreatedAt u := u
  grantCreatedAt n := n

def ann : User := ⟨1, none, "ann@example.org", none, false, none, none, none⟩

theorem officeDb_people : PeopleOk officeDb where
  userId := by decide
  email := by decide
  groupId := by decide
  groupName := by decide
  member := by simp [officeDb]

theorem access_explained_ann : ∃ items, documentAccess officeColumns (.stored _) 7 officeDb = .ok items ∧
    (∃ k, ∃ row ∈ (listUsers officeColumns (.stored _) (k + 1) oneRow [] 0 officeDb).items, row.id = ann.id) ∧
    ∀ page, ∀ row ∈ (listUsers officeColumns (.stored _) page oneRow [] 0 officeDb).items, row.id = ann.id →
      (visibleDocGuard officeDb (some ann) 7 = true ↔ ∃ i ∈ items, i.LetsIn row) :=
  ⟨_, rfl, access_explained officeDb_people List.mem_cons_self rfl rfl (.stored _) oneRow [] 0⟩

theorem visible_docs_complete_iff_ann :
    (∀ queries, ∃ items, visibleFeed officeColumns queries oneRow 1 officeDb = .ok items ∧
      (items.map VisibleItem.id).Nodup ∧ ∀ d ∈ officeDb.documents, d.id ∈ items.map VisibleItem.id ↔
        d.status = .ready ∧ visibleDocGuard officeDb (some ann) d.id = true) ↔
    ∀ a ∈ officeDb.visibleDocs ann, ∀ b ∈ officeDb.visibleDocs ann,
      officeColumns.documentCreatedAt a.id = officeColumns.documentCreatedAt b.id → a ≠ b →
        ∀ k, ¬ CutsTie (fun d : Document => officeColumns.documentCreatedAt d.id) (officeDb.visibleDocs ann)
          (officeColumns.documentCreatedAt a.id) (k * oneRow.value) :=
  visible_docs_complete_iff (by decide) rfl oneRow

/-- The documents of the staff that come from the bucket. -/
def staffFilter : DocumentFilters := ⟨some "ready", none, some "staff", some "bucket", some "book"⟩

theorem listing_filter_agrees_staff :
    documentFeed officeColumns String.toList (fun _ => .stored _) oneRow staffFilter officeDb =
      (documentFeed officeColumns String.toList (fun _ => .stored _) oneRow ⟨none, none, none, none, none⟩ officeDb).filter
        (staffFilter.shows String.toList) := by
  have htimes : ∀ a ∈ officeDb.documents, ∀ b ∈ officeDb.documents,
      officeColumns.documentCreatedAt a.id = officeColumns.documentCreatedAt b.id → a = b := by decide
  have hplain : ∀ q, truthy staffFilter.q = some q → PlainPattern q.toList := by
    intro q hq
    obtain rfl : "book" = q := Option.some.inj hq
    simp [PlainPattern]
  exact listing_filter_agrees (by decide) (by decide) htimes (by decide) hplain _ _ oneRow oneRow

end ProRag
