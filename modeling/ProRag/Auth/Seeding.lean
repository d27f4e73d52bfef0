import Mathlib.Logic.Equiv.List
import ProRag.Auth.Routes
import ProRag.Framework.Results

/-!
# The groups of the identity provider

What the `groups` claim of a login leaves in `groups` and `user_groups`.
-/

namespace ProRag

open Framework

/-- The constraints on `groups` and `user_groups`. -/
structure Db.GroupsOk (db : Db) : Prop where
  id : UniqueOn Group.id db.groups
  external : ∀ g ∈ db.groups, ∀ g' ∈ db.groups, g.source = g'.source → g.externalId = g'.externalId →
    g.externalId.isSome → g = g'
  member : ∀ m ∈ db.userGroups, ∃ g ∈ db.groups, g.id = m.groupId

/-- The `uuid4` values of new groups are new. -/
structure FreshGroups (fresh : OidcFresh) (db : Db) : Prop where
  unused : ∀ g ∈ db.groups, ∀ x, g.id ≠ fresh.group x
  distinct : Function.Injective fresh.group

/-- `SELECT … FROM groups WHERE source = 'idp' AND external_id = x`. -/
def Db.idpGroup? (db : Db) (x : String) : Option Group :=
  db.groups.find? fun g => g.source = .idp ∧ g.externalId = some x

/-- A claim value whose group is there, or can be created under its name. -/
def Db.Seedable (db : Db) (x : String) : Prop :=
  pgText x = true ∧ ((∃ g ∈ db.groups, g.source = .idp ∧ g.externalId = some x) ∨
    ∀ g ∈ db.groups, g.name ≠ "idp:" ++ x)

/-- The memberships that the `DELETE` leaves. -/
def keptMembers (userId : Uuid) (db : Db) : List UserGroup :=
  deleteWhere (fun m => m.userId = userId ∧ db.groups.any fun g => g.id = m.groupId ∧ g.source = .idp) db.userGroups

def newIdpGroup (fresh : OidcFresh) (x : String) : Group :=
  ⟨fresh.group x, "idp:" ++ x, .idp, some x⟩

def claimedGroup (fresh : OidcFresh) (db : Db) (x : String) : Uuid :=
  match db.idpGroup? x with
  | some g => g.id
  | none => fresh.group x

/-- The tables after the turns of the loop for `done`. -/
def seededDb (fresh : OidcFresh) (userId : Uuid) (db : Db) (done : List String) : Db :=
  { db with
    groups := db.groups ++ (done.filter fun x => (db.idpGroup? x).isNone).map (newIdpGroup fresh)
    userGroups := keptMembers userId db ++ done.map fun x => ⟨userId, claimedGroup fresh db x⟩ }

variable {fresh : OidcFresh} {userId : Uuid} {db : Db} {done : List String} {x : String}

theorem idpGroup_eq_some (hok : db.GroupsOk) {g : Group} :
    db.idpGroup? x = some g ↔ g ∈ db.groups ∧ g.source = .idp ∧ g.externalId = some x := by
  constructor
  · intro h
    exact ⟨List.mem_of_find?_eq_some h, by simpa using List.find?_some h⟩
  · rintro ⟨hg, hsource, hext⟩
    cases h : db.idpGroup? x with
    | none => simpa [hsource, hext] using List.find?_eq_none.mp h g hg
    | some g' =>
      have hfound : g'.source = .idp ∧ g'.externalId = some x := by simpa using List.find?_some h
      rw [hok.external g' (List.mem_of_find?_eq_some h) g hg (hfound.1.trans hsource.symm)
        (hfound.2.trans hext.symm) (by simp [hfound.2])]

theorem idpGroup_eq_none : db.idpGroup? x = none ↔ ∀ g ∈ db.groups, ¬ (g.source = .idp ∧ g.externalId = some x) := by
  simp [Db.idpGroup?, List.find?_eq_none]

theorem seedable_iff : db.Seedable x ↔
    pgText x = true ∧ (db.idpGroup? x = none → ∀ g ∈ db.groups, g.name ≠ "idp:" ++ x) := by
  rw [idpGroup_eq_none, Db.Seedable]
  apply and_congr_right
  intro _
  constructor
  · rintro (⟨g, hg, hidp⟩ | hname) hnone
    · exact absurd hidp (hnone g hg)
    · exact hname
  · intro h
    by_cases hidp : ∃ g ∈ db.groups, g.source = .idp ∧ g.externalId = some x
    · exact Or.inl hidp
    · exact Or.inr (h fun g hg hg' => hidp ⟨g, hg, hg'⟩)

theorem idpGroup_seededDb (fresh : OidcFresh) (userId : Uuid) (db : Db) (done : List String) (x : String) :
    (seededDb fresh userId db done).idpGroup? x =
      (db.idpGroup? x).or (if x ∈ done then some (newIdpGroup fresh x) else none) := by
  have hnew : ((done.filter fun y => (db.idpGroup? y).isNone).map (newIdpGroup fresh)).find? (fun g =>
      g.source = .idp ∧ g.externalId = some x) =
      if x ∈ done ∧ (db.idpGroup? x).isNone then some (newIdpGroup fresh x) else none := by
    induction done with
    | nil => simp
    | cons y done ih =>
      by_cases hxy : y = x
      · subst hxy
        cases hy : db.idpGroup? y with
        | none => simp [hy, newIdpGroup]
        | some g => simpa [hy] using ih
      · have hyx : x ≠ y := fun h => hxy h.symm
        cases hy : db.idpGroup? y with
        | none => simpa [hy, newIdpGroup, hxy, hyx] using ih
        | some g => simpa [hy, hyx] using ih
  rw [Db.idpGroup?, seededDb, List.find?_append, hnew]
  change (db.idpGroup? x).or _ = _
  cases db.idpGroup? x with
  | none => simp
  | some g => simp

theorem claimedGroup_inj (hok : db.GroupsOk) (hfresh : FreshGroups fresh db) {y : String}
    (h : claimedGroup fresh db x = claimedGroup fresh db y) : x = y := by
  rw [claimedGroup, claimedGroup] at h
  cases hx : db.idpGroup? x with
  | some g =>
    obtain ⟨hg, _, hext⟩ := (idpGroup_eq_some hok).mp hx
    cases hy : db.idpGroup? y with
    | some g' =>
      obtain ⟨hg', _, hext'⟩ := (idpGroup_eq_some hok).mp hy
      have hid : g.id = g'.id := by simpa [hx, hy] using h
      rw [hok.id.eq_of_key hg hg' hid] at hext
      exact Option.some.inj (hext.symm.trans hext')
    | none => exact absurd (by simpa [hx, hy] using h) (hfresh.unused g hg y)
  | none =>
    cases hy : db.idpGroup? y with
    | some g' =>
      have hg' := ((idpGroup_eq_some hok).mp hy).1
      exact absurd (by simpa [hx, hy] using h.symm) (hfresh.unused g' hg' x)
    | none => exact hfresh.distinct (by simpa [hx, hy] using h)

theorem claimedGroup_not_kept (hok : db.GroupsOk) (hfresh : FreshGroups fresh db) :
    (⟨userId, claimedGroup fresh db x⟩ : UserGroup) ∉ keptMembers userId db := by
  intro hmem
  obtain ⟨hm, hkept⟩ := mem_deleteWhere.mp hmem
  rw [claimedGroup] at hm hkept
  cases hx : db.idpGroup? x with
  | some g =>
    obtain ⟨hg, hsource, _⟩ := (idpGroup_eq_some hok).mp hx
    have hnone : ∀ g' ∈ db.groups, g'.id = g.id → g'.source ≠ .idp := by simpa [hx] using hkept
    exact hnone g hg rfl hsource
  | none =>
    obtain ⟨g, hg, hid⟩ := hok.member _ hm
    exact hfresh.unused g hg x (by simpa [hx] using hid)

private theorem idp_name_inj {y : String} (h : "idp:" ++ x = "idp:" ++ y) : x = y := by
  have hchars := congrArg String.toList h
  rw [String.toList_append, String.toList_append] at hchars
  exact String.toList_injective (List.append_cancel_left hchars)

private theorem member_free (userId : Uuid) (hok : db.GroupsOk) (hfresh : FreshGroups fresh db) (hx : x ∉ done) :
    (⟨userId, claimedGroup fresh db x⟩ : UserGroup) ∉
      keptMembers userId db ++ done.map fun y => ⟨userId, claimedGroup fresh db y⟩ := by
  intro hmem
  rcases List.mem_append.mp hmem with hmem | hmem
  · exact claimedGroup_not_kept hok hfresh hmem
  · obtain ⟨y, hy, heq⟩ := List.mem_map.mp hmem
    have hgroup := congrArg UserGroup.groupId heq
    exact hx (claimedGroup_inj hok hfresh hgroup ▸ hy)

private theorem insertMember_eq {g : Uuid} {a : Db} (h : (⟨userId, g⟩ : UserGroup) ∉ a.userGroups) :
    insertMember userId g a = .ok { a with userGroups := a.userGroups ++ [⟨userId, g⟩] } := by
  rw [insertMember, if_neg (by simpa using h)]

private theorem insertMember_twice {g : Uuid} {a : Db} (h : (⟨userId, g⟩ : UserGroup) ∈ a.userGroups) :
    insertMember userId g a = .error ⟨"IntegrityError", "user_groups_pkey"⟩ := by
  rw [insertMember, if_pos (by simpa using h)]

private theorem group_free (hfresh : FreshGroups fresh db) (hx : x ∉ done) (hname : ∀ g ∈ db.groups, g.name ≠ "idp:" ++ x) :
    ((seededDb fresh userId db done).groups.any fun g => g.id = fresh.group x ∨ g.name = "idp:" ++ x) = false := by
  apply List.any_eq_false.mpr
  intro g hg
  simp only [decide_eq_true_eq, not_or]
  rcases List.mem_append.mp hg with hg | hg
  · exact ⟨hfresh.unused g hg x, hname g hg⟩
  · obtain ⟨y, hy, rfl⟩ := List.mem_map.mp hg
    have hyx : y ≠ x := fun h => hx (h ▸ (List.mem_filter.mp hy).1)
    exact ⟨fun h => hyx (hfresh.distinct h), fun h => hyx (idp_name_inj h)⟩

theorem seedIdpGroup_next (hok : db.GroupsOk) (hfresh : FreshGroups fresh db) (hx : x ∉ done) (hseed : db.Seedable x) :
    seedIdpGroup fresh userId x (seededDb fresh userId db done) = .ok (seededDb fresh userId db (done ++ [x])) := by
  obtain ⟨htext, hname⟩ := seedable_iff.mp hseed
  have hfree := member_free userId hok hfresh hx
  have hlookup := idpGroup_seededDb fresh userId db done x
  rw [Db.idpGroup?] at hlookup
  rw [seedIdpGroup, if_neg (by simp [htext]), hlookup]
  cases hgroup : db.idpGroup? x with
  | some g =>
    have hclaimed : claimedGroup fresh db x = g.id := by rw [claimedGroup, hgroup]
    rw [hclaimed] at hfree
    rw [Option.some_or]
    apply (insertMember_eq hfree).trans
    simp [seededDb, hgroup, hclaimed]
  | none =>
    have hclaimed : claimedGroup fresh db x = fresh.group x := by rw [claimedGroup, hgroup]
    rw [hclaimed] at hfree
    rw [if_neg hx, Option.none_or, group_free hfresh hx (hname hgroup), if_neg (by simp), insertMember_eq hfree]
    simp [seededDb, hgroup, hclaimed, newIdpGroup]

theorem seedIdpGroup_raises (fresh : OidcFresh) (userId : Uuid) (h : ¬ (x ∉ done ∧ db.Seedable x)) :
    ∃ exc, seedIdpGroup fresh userId x (seededDb fresh userId db done) = .error exc := by
  have hlookup := idpGroup_seededDb fresh userId db done x
  rw [Db.idpGroup?] at hlookup
  rw [seedIdpGroup]
  by_cases htext : pgText x = false
  · exact ⟨_, if_pos htext⟩
  · rw [if_neg htext, hlookup]
    by_cases hx : x ∈ done
    · have htwice : (⟨userId, claimedGroup fresh db x⟩ : UserGroup) ∈ (seededDb fresh userId db done).userGroups :=
        List.mem_append_right _ (List.mem_map.mpr ⟨x, hx, rfl⟩)
      rw [claimedGroup] at htwice
      cases hgroup : db.idpGroup? x with
      | some g =>
        rw [hgroup] at htwice
        exact ⟨_, insertMember_twice htwice⟩
      | none =>
        rw [hgroup] at htwice
        rw [if_pos hx, Option.none_or]
        exact ⟨_, insertMember_twice htwice⟩
    · have hclash : ¬ (db.idpGroup? x = none → ∀ g ∈ db.groups, g.name ≠ "idp:" ++ x) := by
        intro hname
        exact h ⟨hx, seedable_iff.mpr ⟨by simpa using htext, hname⟩⟩
      push Not at hclash
      obtain ⟨hgroup, g, hg, hname⟩ := hclash
      have hany : ((seededDb fresh userId db done).groups.any fun g => g.id = fresh.group x ∨ g.name = "idp:" ++ x) = true :=
        List.any_eq_true.mpr ⟨g, List.mem_append_left _ hg, by simp [hname]⟩
      simp only [hgroup, if_neg hx]
      rw [hany, if_pos rfl]
      exact ⟨_, rfl⟩

/-- The whole loop ends well when no value repeats and every group is there or can be created. -/
theorem foldlM_seed (hok : db.GroupsOk) (hfresh : FreshGroups fresh db) {xs : List String} (hnodup : (done ++ xs).Nodup)
    (hxs : ∀ x ∈ xs, db.Seedable x) :
    xs.foldlM (fun a x => seedIdpGroup fresh userId x a) (seededDb fresh userId db done) =
      .ok (seededDb fresh userId db (done ++ xs)) := by
  induction xs generalizing done with
  | nil => simp [pure, Except.pure]
  | cons x xs ih =>
    have hx : x ∉ done := by
      intro h
      exact (List.nodup_append.mp hnodup).2.2 x h x (by simp) rfl
    rw [List.foldlM_cons, seedIdpGroup_next hok hfresh hx (hxs x (by simp)), ok_bind,
      ih (by simpa using hnodup) fun y hy => hxs y (List.mem_cons_of_mem x hy)]
    simp

theorem foldlM_seed_raises (fresh : OidcFresh) (userId : Uuid) (hok : db.GroupsOk) (hfresh : FreshGroups fresh db)
    {xs : List String} (hdone : done.Nodup)
    (h : ¬ ((done ++ xs).Nodup ∧ ∀ x ∈ xs, db.Seedable x)) :
    ∃ exc, xs.foldlM (fun a x => seedIdpGroup fresh userId x a) (seededDb fresh userId db done) = .error exc := by
  induction xs generalizing done with
  | nil => simp [hdone] at h
  | cons x xs ih =>
    rw [List.foldlM_cons]
    by_cases hx : x ∉ done ∧ db.Seedable x
    · rw [seedIdpGroup_next hok hfresh hx.1 hx.2, ok_bind]
      apply ih
      · apply List.nodup_append.mpr
        refine ⟨hdone, by simp, ?_⟩
        intro a ha b hb hab
        rw [hab, List.mem_singleton.mp hb] at ha
        exact hx.1 ha
      · intro hrest
        apply h
        refine ⟨by simpa using hrest.1, ?_⟩
        intro y hy
        rcases List.mem_cons.mp hy with rfl | hy
        · exact hx.2
        · exact hrest.2 y hy
    · obtain ⟨exc, hexc⟩ := seedIdpGroup_raises fresh userId hx
      rw [hexc]
      exact ⟨exc, rfl⟩

/-! The memberships that the loop leaves. -/

theorem claimedGroup_eq_iff (hok : db.GroupsOk) (hfresh : FreshGroups fresh db) {g : Group}
    (hg : g ∈ (seededDb fresh userId db done).groups) (hx : x ∈ done) :
    claimedGroup fresh db x = g.id ↔ g.source = .idp ∧ g.externalId = some x := by
  rw [claimedGroup]
  rcases List.mem_append.mp hg with hg | hg
  · cases hgroup : db.idpGroup? x with
    | some g' =>
      obtain ⟨hg', hsource, hext⟩ := (idpGroup_eq_some hok).mp hgroup
      constructor
      · intro hid
        rw [← hok.id.eq_of_key hg' hg hid]
        exact ⟨hsource, hext⟩
      · rintro ⟨hs, he⟩
        have hsame := (idpGroup_eq_some hok).mpr ⟨hg, hs, he⟩
        rw [Option.some.inj (hgroup.symm.trans hsame)]
    | none =>
      constructor
      · intro hid
        exact absurd hid.symm (hfresh.unused g hg x)
      · intro hidp
        exact absurd hidp (idpGroup_eq_none.mp hgroup g hg)
  · obtain ⟨y, hy, rfl⟩ := List.mem_map.mp hg
    have hnone : db.idpGroup? y = none := by simpa using (List.mem_filter.mp hy).2
    constructor
    · intro hid
      cases hgroup : db.idpGroup? x with
      | some g' =>
        rw [hgroup] at hid
        exact absurd hid (hfresh.unused g' ((idpGroup_eq_some hok).mp hgroup).1 y)
      | none =>
        rw [hgroup] at hid
        exact ⟨rfl, by rw [hfresh.distinct hid]; rfl⟩
    · rintro ⟨_, hext⟩
      obtain rfl : y = x := Option.some.inj hext
      rw [hnone]
      rfl

theorem mem_seededDb (hok : db.GroupsOk) (hfresh : FreshGroups fresh db) {g : Group}
    (hg : g ∈ (seededDb fresh userId db done).groups) :
    (⟨userId, g.id⟩ : UserGroup) ∈ (seededDb fresh userId db done).userGroups ↔
      (g.source = .local ∧ ⟨userId, g.id⟩ ∈ db.userGroups) ∨ (g.source = .idp ∧ ∃ x ∈ done, g.externalId = some x) := by
  have hclaimed : (⟨userId, g.id⟩ : UserGroup) ∈ (done.map fun x => (⟨userId, claimedGroup fresh db x⟩ : UserGroup)) ↔
      g.source = .idp ∧ ∃ x ∈ done, g.externalId = some x := by
    simp only [List.mem_map, UserGroup.mk.injEq, true_and]
    constructor
    · rintro ⟨x, hx, hid⟩
      obtain ⟨hsource, hext⟩ := (claimedGroup_eq_iff hok hfresh hg hx).mp hid
      exact ⟨hsource, x, hx, hext⟩
    · rintro ⟨hsource, x, hx, hext⟩
      exact ⟨x, hx, (claimedGroup_eq_iff hok hfresh hg hx).mpr ⟨hsource, hext⟩⟩
  have hkept : (⟨userId, g.id⟩ : UserGroup) ∈ keptMembers userId db ↔
      g.source = .local ∧ ⟨userId, g.id⟩ ∈ db.userGroups := by
    rw [keptMembers, mem_deleteWhere]
    rcases List.mem_append.mp hg with hold | hnew
    · cases hsource : g.source with
      | «local» =>
        have hnone : ∀ g' ∈ db.groups, g'.id = g.id → ¬ g'.source = .idp := by
          intro g' hg' hid hidp
          rw [hok.id.eq_of_key hg' hold hid, hsource] at hidp
          cases hidp
        simpa using fun _ => hnone
      | idp =>
        have hsome : ∃ g' ∈ db.groups, g'.id = g.id ∧ g'.source = .idp := ⟨g, hold, rfl, hsource⟩
        simpa using fun _ => hsome
    · obtain ⟨y, hy, rfl⟩ := List.mem_map.mp hnew
      have hunused : (⟨userId, (newIdpGroup fresh y).id⟩ : UserGroup) ∉ db.userGroups := by
        intro hm
        obtain ⟨g', hg', hid⟩ := hok.member _ hm
        exact hfresh.unused g' hg' y hid
      simp [hunused]
  rw [← hclaimed, ← hkept]
  exact List.mem_append

theorem exists_seeded (userId : Uuid) (hx : x ∈ done) :
    ∃ g ∈ (seededDb fresh userId db done).groups, g.source = .idp ∧ g.externalId = some x := by
  by_cases hidp : ∃ g ∈ db.groups, g.source = .idp ∧ g.externalId = some x
  · obtain ⟨g, hg, hidp⟩ := hidp
    exact ⟨g, List.mem_append_left _ hg, hidp⟩
  · have hnone : db.idpGroup? x = none := idpGroup_eq_none.mpr fun g hg h => hidp ⟨g, hg, h⟩
    refine ⟨newIdpGroup fresh x, List.mem_append_right _ (List.mem_map.mpr ⟨x, ?_, rfl⟩), rfl, rfl⟩
    exact List.mem_filter.mpr ⟨hx, by simp [hnone]⟩

/-! The callback. -/

variable {hashKey : String → String} {settings : Settings} {query : OidcQuery} {claims : OidcClaims} {raw : String}
  {now : Timestamp}

theorem upsertOidcUser_groups {sub email : String} {name : Option String} {userId : Uuid} {db' : Db}
    (h : upsertOidcUser fresh sub email name db = .ok (userId, db')) :
    db'.groups = db.groups ∧ db'.userGroups = db.userGroups ∧
      ∃ user ∈ db'.users, user.id = userId ∧ user.externalSubject = some sub := by
  rw [upsertOidcUser] at h
  cases hsel : selectOne User.externalSubject (some sub) db.users with
  | none =>
    simp only [hsel] at h
    split at h
    · cases h
    · obtain ⟨rfl, rfl⟩ := Prod.mk.inj (Except.ok.inj h)
      exact ⟨rfl, rfl, _, List.mem_append_right _ (List.mem_singleton.mpr rfl), rfl, rfl⟩
  | some user =>
    simp only [hsel] at h
    split at h
    · cases h
    · obtain ⟨rfl, rfl⟩ := Prod.mk.inj (Except.ok.inj h)
      obtain ⟨hmem, hsub⟩ := selectOne_mem hsel
      exact ⟨rfl, rfl, _, mem_updateWhere.mpr ⟨user, hmem, rfl⟩, by simp, by simp [hsub]⟩

theorem seedIdpGroups_eq (groupClaim : List String) : seedIdpGroups fresh userId groupClaim db =
    groupClaim.foldlM (fun a x => seedIdpGroup fresh userId x a) (seededDb fresh userId db []) := by
  simp [seedIdpGroups, seededDb, keptMembers]

theorem Db.GroupsOk.congr {db' : Db} (h : db.GroupsOk) (hgroups : db'.groups = db.groups)
    (hmembers : db'.userGroups = db.userGroups) : db'.GroupsOk := by
  constructor
  · rw [hgroups]
    exact h.id
  · rw [hgroups]
    exact h.external
  · rw [hgroups, hmembers]
    exact h.member

theorem FreshGroups.congr {db' : Db} (h : FreshGroups fresh db) (hgroups : db'.groups = db.groups) :
    FreshGroups fresh db' := by
  constructor
  · rw [hgroups]
    exact h.unused
  · exact h.distinct

/-- A user in a local group and in one of the provider's. -/
def syncedDb : Db :=
  { Db.empty with
    users := [⟨1, some "sub-1", "ann@example.org", none, false, none, none, none⟩]
    groups := [⟨1, "staff", .local, none⟩, ⟨2, "idp:sales", .idp, some "sales"⟩]
    userGroups := [⟨1, 1⟩, ⟨1, 2⟩] }

def oidcSettings : Settings := { oidcIssuer := some "https://idp.example.org" }

def annQuery : OidcQuery := ⟨some "code", some "state", some "state:nonce"⟩

def annClaims (groups : Option (List String)) : OidcClaims := ⟨some "ann@example.org", some "sub-1", none, groups⟩

/-- Ids that are drawn by the text of the group. -/
def textFresh : OidcFresh := ⟨10, fun x => 10 + Encodable.encode (x.toList.map Char.toNat)⟩

theorem textFresh_fresh : FreshGroups textFresh syncedDb where
  unused := by
    intro g hg x hx
    have hsmall : ∀ g ∈ syncedDb.groups, g.id < 10 := by decide
    have hlt := hsmall g hg
    rw [hx] at hlt
    exact Nat.not_lt.mpr (Nat.le_add_right _ _) hlt
  distinct := by
    intro x y h
    have hcodes : x.toList.map Char.toNat = y.toList.map Char.toNat :=
      Encodable.encode_injective (Nat.add_left_cancel h)
    exact String.toList_injective (List.map_injective_iff.mpr (fun a b hab => Char.toNat_inj.mp hab) hcodes)

end ProRag
