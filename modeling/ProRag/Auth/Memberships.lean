import ProRag.Admin.Groups
import ProRag.Auth.Seeding
import ProRag.Auth.Sessions

/-!
# Who is in a group

Two writers share `user_groups`: the logins of the identity provider, and the group routes of the admin.  Each keeps to
the groups of its own source, so neither undoes what the other has done.
-/

namespace ProRag

open Framework

inductive MemberOp
  | account (op : AccountOp)
  | group (req : GroupRequest)

/-- A database, the groups of each user's last claim, and what the group routes alone have made of the memberships. -/
structure MemberWorld where
  db : Db
  claims : Uuid → List String
  locals : List UserGroup

variable (hashKey : String → String) (verifyPassword : String → String → Bool) (settings : Settings)

/-- The user that a callback has signed in, and its claim. -/
def claimedBy (db : Db) : AccountOp → Option (Uuid × List String)
  | .oidcCallback query exchanged fresh raw now =>
    let ended := oidcCallback hashKey settings query (fun _ _ => exchanged) fresh raw now db
    match ended.1, exchanged with
    | .ok _, .ok claims =>
      match selectOne User.externalSubject claims.sub ended.2.users, claims.groups with
      | some user, some groups => some (user.id, groups)
      | _, _ => none
    | _, _ => none
  | _ => none

/-- What a request that ends well makes of the memberships. -/
def localMembers (db : Db) (members : List UserGroup) : GroupRequest → List UserGroup
  | .addMember groupId userId =>
    match (addGroupMember groupId userId db).1 with
    | .ok _ => members ++ [⟨userId, groupId⟩]
    | .error _ => members
  | .removeMember groupId userId =>
    match (removeGroupMember groupId userId db).1 with
    | .ok _ => deleteWhere (fun m => m.userId = userId ∧ m.groupId = groupId) members
    | .error _ => members
  | .delete groupId =>
    match (deleteGroup groupId db).1 with
    | .ok _ => deleteWhere (fun m => m.groupId = groupId) members
    | .error _ => members
  | _ => members

def memberStep (w : MemberWorld) : MemberOp → Option MemberWorld
  | .account op => (accountStep hashKey verifyPassword settings w.db op).map fun db =>
    { w with
      db := db
      claims := match claimedBy hashKey settings w.db op with
        | some claim => Function.update w.claims claim.1 claim.2
        | none => w.claims }
  | .group req => some { w with db := req.run w.db, locals := localMembers w.db w.locals req }

/-- Any database without groups. -/
def MemberStart (w : MemberWorld) : Prop :=
  w.db.groups = [] ∧ w.db.userGroups = [] ∧ w.claims = (fun _ => []) ∧ w.locals = []

/-- A callback draws new ids. -/
def DrawsFresh (w : MemberWorld) : MemberOp → Prop
  | .account (.oidcCallback _ _ fresh _ _) => FreshGroups fresh w.db
  | _ => True

/-- What holds of groups and memberships along the runs. -/
structure MembersOk (w : MemberWorld) : Prop where
  ok : w.db.GroupsOk
  known : ∀ u, ∀ x ∈ w.claims u, ∃ g ∈ w.db.groups, g.source = .idp ∧ g.externalId = some x
  owned : ∀ m ∈ w.locals, ∃ g ∈ w.db.groups, g.source = .local ∧ g.id = m.groupId
  idp : ∀ u, ∀ g ∈ w.db.groups, g.source = .idp →
    ((⟨u, g.id⟩ : UserGroup) ∈ w.db.userGroups ↔ ∃ x ∈ w.claims u, g.externalId = some x)
  locals : ∀ u, ∀ g ∈ w.db.groups, g.source = .local →
    ((⟨u, g.id⟩ : UserGroup) ∈ w.db.userGroups ↔ ⟨u, g.id⟩ ∈ w.locals)

variable {hashKey verifyPassword settings} {db db' : Db} {fresh : OidcFresh} {w : MemberWorld}

/-! The logins. -/

theorem seedIdpGroups_seeded (hok : db.GroupsOk) (hfresh : FreshGroups fresh db) {d : Uuid} {groupClaim : List String}
    (h : seedIdpGroups fresh d groupClaim db = .ok db') :
    groupClaim.Nodup ∧ db' = seededDb fresh d db groupClaim := by
  rw [seedIdpGroups_eq] at h
  by_cases hclaim : ([] ++ groupClaim).Nodup ∧ ∀ x ∈ groupClaim, db.Seedable x
  · rw [foldlM_seed hok hfresh hclaim.1 hclaim.2, List.nil_append] at h
    exact ⟨by simpa using hclaim.1, (Except.ok.inj h).symm⟩
  · obtain ⟨exc, hexc⟩ := foldlM_seed_raises fresh d hok hfresh List.nodup_nil hclaim
    rw [hexc] at h
    cases h

private theorem mem_seededDb_groups {d : Uuid} {done : List String} {g : Group} :
    g ∈ (seededDb fresh d db done).groups ↔
      g ∈ db.groups ∨ ∃ x ∈ done, db.idpGroup? x = none ∧ newIdpGroup fresh x = g := by
  simp [seededDb, and_assoc]

theorem seededDb_groupsOk (hok : db.GroupsOk) (hfresh : FreshGroups fresh db) {d : Uuid} {done : List String}
    (hdone : done.Nodup) : (seededDb fresh d db done).GroupsOk where
  id := by
    rw [UniqueOn, seededDb, List.map_append, List.nodup_append]
    refine ⟨hok.id, ?_, ?_⟩
    · rw [List.map_map]
      exact (hdone.filter _).map hfresh.distinct
    · intro a ha b hb hab
      obtain ⟨g, hg, rfl⟩ := List.mem_map.mp ha
      obtain ⟨g', hg', rfl⟩ := List.mem_map.mp hb
      obtain ⟨x, _, rfl⟩ := List.mem_map.mp hg'
      exact hfresh.unused g hg x hab
  external := by
    have hnew : ∀ g ∈ db.groups, ∀ x, db.idpGroup? x = none → g.source = (newIdpGroup fresh x).source →
        g.externalId ≠ (newIdpGroup fresh x).externalId := fun g hg x hx hsource hext =>
      idpGroup_eq_none.mp hx g hg ⟨hsource, hext⟩
    intro g hg g' hg' hsource hext hsome
    rcases mem_seededDb_groups.mp hg with hg | ⟨x, _, hx, rfl⟩
    · rcases mem_seededDb_groups.mp hg' with hg' | ⟨y, _, hy, rfl⟩
      · exact hok.external g hg g' hg' hsource hext hsome
      · exact absurd hext (hnew g hg y hy hsource)
    · rcases mem_seededDb_groups.mp hg' with hg' | ⟨y, _, hy, rfl⟩
      · exact absurd hext.symm (hnew g' hg' x hx hsource.symm)
      · obtain rfl : x = y := Option.some.inj hext
        rfl
  member := by
    intro m hm
    rcases List.mem_append.mp hm with hm | hm
    · obtain ⟨g, hg, hid⟩ := hok.member m (mem_deleteWhere.mp hm).1
      exact ⟨g, mem_seededDb_groups.mpr (Or.inl hg), hid⟩
    · obtain ⟨x, hx, rfl⟩ := List.mem_map.mp hm
      have hseeded := @exists_seeded fresh db done x d hx
      obtain ⟨g, hg, hidp⟩ := hseeded
      exact ⟨g, hg, ((claimedGroup_eq_iff hok hfresh hg hx).mpr hidp).symm⟩

theorem mem_seededDb_other {d u : Uuid} (hu : u ≠ d) {done : List String} {groupId : Uuid} :
    (⟨u, groupId⟩ : UserGroup) ∈ (seededDb fresh d db done).userGroups ↔ ⟨u, groupId⟩ ∈ db.userGroups := by
  simp [seededDb, keptMembers, mem_deleteWhere, hu, Ne.symm hu]

theorem membersOk_seeded (h : MembersOk w) (hfresh : FreshGroups fresh w.db) {d : Uuid} {groupClaim : List String}
    (hclaim : groupClaim.Nodup) :
    MembersOk { w with
      db := seededDb fresh d w.db groupClaim
      claims := Function.update w.claims d groupClaim } where
  ok := seededDb_groupsOk h.ok hfresh hclaim
  known := by
    intro u x hx
    dsimp only at hx ⊢
    by_cases hu : u = d
    · subst hu
      rw [Function.update_self] at hx
      exact exists_seeded u hx
    · rw [Function.update_of_ne hu] at hx
      obtain ⟨g, hg, hidp⟩ := h.known u x hx
      exact ⟨g, mem_seededDb_groups.mpr (Or.inl hg), hidp⟩
  owned := by
    intro m hm
    obtain ⟨g, hg, hlocal⟩ := h.owned m hm
    exact ⟨g, mem_seededDb_groups.mpr (Or.inl hg), hlocal⟩
  idp := by
    intro u g hg hsource
    dsimp only at hg ⊢
    by_cases hu : u = d
    · subst hu
      rw [mem_seededDb h.ok hfresh hg, Function.update_self]
      simp [hsource]
    · rw [mem_seededDb_other hu, Function.update_of_ne hu]
      rcases mem_seededDb_groups.mp hg with hg | ⟨x, _, hx, rfl⟩
      · exact h.idp u g hg hsource
      · -- nobody's claim of before lists a group that was not there
        constructor
        · intro hm
          obtain ⟨g', hg', hid⟩ := h.ok.member _ hm
          exact absurd hid (hfresh.unused g' hg' x)
        · rintro ⟨y, hy, hext⟩
          obtain rfl : x = y := Option.some.inj hext
          obtain ⟨g', hg', hidp⟩ := h.known u x hy
          exact absurd hidp (idpGroup_eq_none.mp hx g' hg')
  locals := by
    intro u g hg hsource
    dsimp only at hg ⊢
    have hold : g ∈ w.db.groups := by
      rcases mem_seededDb_groups.mp hg with hg | ⟨x, _, _, rfl⟩
      · exact hg
      · cases hsource
    rw [← h.locals u g hold hsource]
    by_cases hu : u = d
    · subst hu
      rw [mem_seededDb h.ok hfresh hg]
      simp [hsource]
    · exact mem_seededDb_other hu

theorem MembersOk.congr (h : MembersOk w) (hgroups : db'.groups = w.db.groups) (hmembers : db'.userGroups = w.db.userGroups) :
    MembersOk { w with db := db' } where
  ok := h.ok.congr hgroups hmembers
  known := by
    dsimp only
    rw [hgroups]
    exact h.known
  owned := by
    dsimp only
    rw [hgroups]
    exact h.owned
  idp := by
    dsimp only
    rw [hgroups, hmembers]
    exact h.idp
  locals := by
    dsimp only
    rw [hgroups, hmembers]
    exact h.locals

theorem createSession_rest {d : Uuid} {raw : String} {now : Timestamp}
    (h : createSession hashKey settings d raw now db = .ok db') : db' = { db with sessions := db'.sessions } := by
  unfold createSession at h
  split at h
  · cases h
  · rw [← Except.ok.inj h]

theorem signInOidc_members {claims : OidcClaims} {sub email raw : String} {now : Timestamp} (h : MembersOk w)
    (hfresh : FreshGroups fresh w.db)
    (hsign : signInOidc hashKey settings fresh claims sub email raw now w.db = .ok db') :
    ∃ user, selectOne User.externalSubject (some sub) db'.users = some user ∧
      MembersOk { w with
        db := db'
        claims := match claims.groups with
          | some groups => Function.update w.claims user.id groups
          | none => w.claims } := by
  obtain ⟨⟨d, db1⟩, hup, hsign⟩ := bind_eq_ok.mp hsign
  obtain ⟨db2, hseed, hcreate⟩ := bind_eq_ok.mp hsign
  obtain ⟨_, user, huser, rfl⟩ := upsertOidcUser_found hup
  obtain ⟨hgroups1, hmembers1, _⟩ := upsertOidcUser_groups hup
  have hdb' := createSession_rest hcreate
  have h1 : MembersOk { w with db := db1 } := h.congr hgroups1 hmembers1
  have husers : db'.users = db1.users := by
    rw [hdb']
    unfold seedClaimedGroups at hseed
    split at hseed
    · rw [← Except.ok.inj hseed]
    · exact (seedIdpGroups_ok hseed).1
  refine ⟨user, by rw [husers, huser], ?_⟩
  unfold seedClaimedGroups at hseed
  cases hclaim : claims.groups with
  | none =>
    simp only [hclaim] at hseed
    obtain rfl := Except.ok.inj hseed
    exact h1.congr (by rw [hdb']) (by rw [hdb'])
  | some groupClaim =>
    simp only [hclaim] at hseed
    obtain ⟨hnodup, rfl⟩ := seedIdpGroups_seeded h1.ok (hfresh.congr hgroups1) hseed
    exact (membersOk_seeded h1 (hfresh.congr hgroups1) hnodup).congr (by rw [hdb']) (by rw [hdb'])

theorem oidcCallback_members (query : OidcQuery) (exchanged : Except PyError OidcClaims) (raw : String) (now : Timestamp)
    (h : MembersOk w) (hfresh : FreshGroups fresh w.db) :
    MembersOk { w with
      db := (oidcCallback hashKey settings query (fun _ _ => exchanged) fresh raw now w.db).2
      claims := match claimedBy hashKey settings w.db (.oidcCallback query exchanged fresh raw now) with
        | some claim => Function.update w.claims claim.1 claim.2
        | none => w.claims } := by
  simp only [claimedBy]
  rcases oidcCallback_cases hashKey settings query exchanged fresh raw now w.db with
    ⟨exc, hexc⟩ | ⟨claims, sub, email, db', rfl, hsub, hsign, hok⟩
  · simpa [hexc] using h
  · obtain ⟨user, huser, hmembers⟩ := signInOidc_members h hfresh hsign
    cases hgroups : claims.groups with
    | none => simpa [hok, hsub, huser, hgroups] using hmembers
    | some groupClaim => simpa [hok, hsub, huser, hgroups] using hmembers

/-! The group routes. -/

theorem getLocalGroup_eq_ok {groupId : Uuid} {g : Group} (h : getLocalGroup groupId db = .ok g) :
    g ∈ db.groups ∧ g.id = groupId ∧ g.source = .local := by
  unfold getLocalGroup at h
  split at h
  · cases h
  · rename_i group hsel
    split at h
    · cases h
    · rename_i hsource
      obtain rfl := Except.ok.inj h
      obtain ⟨hmem, hid⟩ := selectOne_mem hsel
      exact ⟨hmem, hid, by simpa using hsource⟩

theorem createGroup_members (fresh : Uuid) (body : GroupCreate) (h : MembersOk w) :
    MembersOk { w with db := (createGroup fresh body w.db).2 } := by
  unfold createGroup
  split
  · exact h
  · rename_i hfree
    have hnew : ∀ g ∈ w.db.groups, g.id ≠ fresh := by
      intro g hg hid
      exact hfree (List.any_eq_true.mpr ⟨g, hg, by simp [hid]⟩)
    have hempty : ∀ u, (⟨u, fresh⟩ : UserGroup) ∉ w.db.userGroups := by
      intro u hm
      obtain ⟨g, hg, hid⟩ := h.ok.member _ hm
      exact hnew g hg hid
    refine ⟨⟨h.ok.id.insert hnew, ?_, ?_⟩, ?_, ?_, ?_, ?_⟩
    · intro g hg g' hg' hsource hext hsome
      rcases List.mem_append.mp hg with hg | hg
      · rcases List.mem_append.mp hg' with hg' | hg'
        · exact h.ok.external g hg g' hg' hsource hext hsome
        · obtain rfl := List.mem_singleton.mp hg'
          simp [hext] at hsome
      · obtain rfl := List.mem_singleton.mp hg
        simp at hsome
    · intro m hm
      obtain ⟨g, hg, hid⟩ := h.ok.member m hm
      exact ⟨g, List.mem_append_left _ hg, hid⟩
    · intro u x hx
      obtain ⟨g, hg, hidp⟩ := h.known u x hx
      exact ⟨g, List.mem_append_left _ hg, hidp⟩
    · intro m hm
      obtain ⟨g, hg, hlocal⟩ := h.owned m hm
      exact ⟨g, List.mem_append_left _ hg, hlocal⟩
    · intro u g hg hsource
      rcases List.mem_append.mp hg with hg | hg
      · exact h.idp u g hg hsource
      · obtain rfl := List.mem_singleton.mp hg
        cases hsource
    · intro u g hg hsource
      rcases List.mem_append.mp hg with hg | hg
      · exact h.locals u g hg hsource
      · obtain rfl := List.mem_singleton.mp hg
        have hunowned : (⟨u, fresh⟩ : UserGroup) ∉ w.locals := by
          intro hm
          obtain ⟨g, hg, _, hid⟩ := h.owned _ hm
          exact hnew g hg hid
        simp [hempty u, hunowned]

theorem MembersOk.renamed (h : MembersOk w) {f : Group → Group}
    (hf : ∀ g, (f g).id = g.id ∧ (f g).source = g.source ∧ (f g).externalId = g.externalId)
    (hgroups : db'.groups = w.db.groups.map f) (hmembers : db'.userGroups = w.db.userGroups) :
    MembersOk { w with db := db' } := by
  have hmem : ∀ {g}, g ∈ db'.groups ↔ ∃ a ∈ w.db.groups, f a = g := by
    intro g
    rw [hgroups, List.mem_map]
  refine ⟨⟨?_, ?_, ?_⟩, ?_, ?_, ?_, ?_⟩
  · rw [UniqueOn, hgroups, List.map_map]
    have hid : Group.id ∘ f = Group.id := funext fun g => (hf g).1
    rw [hid]
    exact h.ok.id
  · intro g hg g' hg' hsource hext hsome
    obtain ⟨a, ha, rfl⟩ := hmem.mp hg
    obtain ⟨a', ha', rfl⟩ := hmem.mp hg'
    rw [(hf a).2.1, (hf a').2.1] at hsource
    rw [(hf a).2.2, (hf a').2.2] at hext
    rw [(hf a).2.2] at hsome
    rw [h.ok.external a ha a' ha' hsource hext hsome]
  · intro m hm
    rw [hmembers] at hm
    obtain ⟨g, hg, hid⟩ := h.ok.member m hm
    exact ⟨f g, hmem.mpr ⟨g, hg, rfl⟩, (hf g).1.trans hid⟩
  · intro u x hx
    obtain ⟨g, hg, hidp⟩ := h.known u x hx
    exact ⟨f g, hmem.mpr ⟨g, hg, rfl⟩, by rwa [(hf g).2.1, (hf g).2.2]⟩
  · intro m hm
    obtain ⟨g, hg, hlocal⟩ := h.owned m hm
    exact ⟨f g, hmem.mpr ⟨g, hg, rfl⟩, by rwa [(hf g).1, (hf g).2.1]⟩
  · intro u g hg hsource
    obtain ⟨a, ha, rfl⟩ := hmem.mp hg
    dsimp only
    rw [hmembers, (hf a).1, (hf a).2.2]
    exact h.idp u a ha ((hf a).2.1.symm.trans hsource)
  · intro u g hg hsource
    obtain ⟨a, ha, rfl⟩ := hmem.mp hg
    dsimp only
    rw [hmembers, (hf a).1]
    exact h.locals u a ha ((hf a).2.1.symm.trans hsource)

theorem MembersOk.changed (h : MembersOk w) {g0 : Group} (hg0 : g0 ∈ w.db.groups) (hlocal : g0.source = .local)
    {members locals : List UserGroup}
    (hother : ∀ m, m.groupId ≠ g0.id → (m ∈ members ↔ m ∈ w.db.userGroups) ∧ (m ∈ locals ↔ m ∈ w.locals))
    (hsame : ∀ m, m.groupId = g0.id → (m ∈ members ↔ m ∈ locals)) :
    MembersOk { w with db := { w.db with userGroups := members }, locals := locals } := by
  refine ⟨⟨h.ok.id, h.ok.external, ?_⟩, h.known, ?_, ?_, ?_⟩
  · intro m hm
    by_cases hid : m.groupId = g0.id
    · exact ⟨g0, hg0, hid.symm⟩
    · exact h.ok.member m ((hother m hid).1.mp hm)
  · intro m hm
    by_cases hid : m.groupId = g0.id
    · exact ⟨g0, hg0, hlocal, hid.symm⟩
    · exact h.owned m ((hother m hid).2.mp hm)
  · intro u g hg hsource
    have hne : g.id ≠ g0.id := by
      intro hid
      rw [h.ok.id.eq_of_key hg hg0 hid, hlocal] at hsource
      cases hsource
    exact (hother ⟨u, g.id⟩ hne).1.trans (h.idp u g hg hsource)
  · intro u g hg hsource
    by_cases hid : g.id = g0.id
    · exact hsame ⟨u, g.id⟩ hid
    · obtain ⟨hmembers, hlocals⟩ := hother ⟨u, g.id⟩ hid
      exact hmembers.trans ((h.locals u g hg hsource).trans hlocals.symm)

theorem updateGroup_members (groupId : Uuid) (body : GroupCreate) (h : MembersOk w) :
    MembersOk { w with db := (updateGroup groupId body w.db).2 } := by
  unfold updateGroup
  split
  · exact h
  split
  · exact h
  · refine h.renamed (f := fun g => if decide (g.id = groupId) then { g with name := body.name } else g) ?_ rfl rfl
    intro g
    split <;> exact ⟨rfl, rfl, rfl⟩

theorem addGroupMember_members (groupId userId : Uuid) (h : MembersOk w) :
    MembersOk { w with
      db := (addGroupMember groupId userId w.db).2
      locals := localMembers w.db w.locals (.addMember groupId userId) } := by
  simp only [localMembers, addGroupMember]
  split
  · exact h
  rename_i g0 hg0
  obtain ⟨hmem, rfl, hlocal⟩ := getLocalGroup_eq_ok hg0
  split
  · exact h
  split
  · rename_i hin
    have hlisted := (h.locals userId g0 hmem hlocal).mp hin
    have hother : ∀ m, m.groupId ≠ g0.id → (m ∈ w.db.userGroups ↔ m ∈ w.db.userGroups) ∧
        (m ∈ w.locals ++ [⟨userId, g0.id⟩] ↔ m ∈ w.locals) := by
      intro m hne
      refine ⟨Iff.rfl, ?_⟩
      rw [List.mem_append, List.mem_singleton]
      exact ⟨fun hm => hm.resolve_right fun heq => hne (by rw [heq]), Or.inl⟩
    apply h.changed hmem hlocal hother
    rintro ⟨u, groupId⟩ rfl
    rw [h.locals u g0 hmem hlocal, List.mem_append, List.mem_singleton]
    exact ⟨Or.inl, fun hm => hm.elim id fun heq => heq ▸ hlisted⟩
  · apply h.changed hmem hlocal
    · intro m hne
      simp only [List.mem_append, List.mem_singleton]
      have hm : m ≠ ⟨userId, g0.id⟩ := fun heq => hne (by rw [heq])
      simp [hm]
    · rintro ⟨u, groupId⟩ rfl
      simp only [List.mem_append, List.mem_singleton]
      rw [h.locals u g0 hmem hlocal]

theorem removeGroupMember_members (groupId userId : Uuid) (h : MembersOk w) :
    MembersOk { w with
      db := (removeGroupMember groupId userId w.db).2
      locals := localMembers w.db w.locals (.removeMember groupId userId) } := by
  simp only [localMembers, removeGroupMember]
  split
  · exact h
  rename_i g0 hg0
  obtain ⟨hmem, rfl, hlocal⟩ := getLocalGroup_eq_ok hg0
  apply h.changed hmem hlocal
  · intro m hne
    simp [mem_deleteWhere, hne]
  · rintro ⟨u, groupId⟩ rfl
    rw [mem_deleteWhere, mem_deleteWhere, h.locals u g0 hmem hlocal]

theorem deleteGroup_members (groupId : Uuid) (h : MembersOk w) :
    MembersOk { w with
      db := (deleteGroup groupId w.db).2
      locals := localMembers w.db w.locals (.delete groupId) } := by
  simp only [localMembers, deleteGroup]
  split
  · exact h
  rename_i g0 hg0
  obtain ⟨hmem, rfl, hlocal⟩ := getLocalGroup_eq_ok hg0
  split
  · exact h
  have hgroup : ∀ {g}, g ∈ deleteWhere (fun g => decide (g.id = g0.id)) w.db.groups ↔ g ∈ w.db.groups ∧ g.id ≠ g0.id := by
    intro g
    rw [mem_deleteWhere]
    simp
  have hmember : ∀ {l : List UserGroup} {m}, m ∈ deleteWhere (fun m => decide (m.groupId = g0.id)) l ↔
      m ∈ l ∧ m.groupId ≠ g0.id := by
    intro l m
    rw [mem_deleteWhere]
    simp
  refine ⟨⟨h.ok.id.deleteWhere _, ?_, ?_⟩, ?_, ?_, ?_, ?_⟩
  · intro g hg g' hg'
    exact h.ok.external g (hgroup.mp hg).1 g' (hgroup.mp hg').1
  · intro m hm
    obtain ⟨hm, hne⟩ := hmember.mp hm
    obtain ⟨g, hg, hid⟩ := h.ok.member m hm
    exact ⟨g, hgroup.mpr ⟨hg, by rwa [hid]⟩, hid⟩
  · intro u x hx
    obtain ⟨g, hg, hidp⟩ := h.known u x hx
    refine ⟨g, hgroup.mpr ⟨hg, ?_⟩, hidp⟩
    intro hid
    rw [h.ok.id.eq_of_key hg hmem hid, hlocal] at hidp
    cases hidp.1
  · intro m hm
    obtain ⟨hm, hne⟩ := hmember.mp hm
    obtain ⟨g, hg, hsource, hid⟩ := h.owned m hm
    exact ⟨g, hgroup.mpr ⟨hg, by rwa [hid]⟩, hsource, hid⟩
  · intro u g hg hsource
    obtain ⟨hg, hne⟩ := hgroup.mp hg
    rw [← h.idp u g hg hsource, hmember]
    simp [hne]
  · intro u g hg hsource
    obtain ⟨hg, hne⟩ := hgroup.mp hg
    rw [hmember, hmember, h.locals u g hg hsource]

/-! Runs. -/

theorem accountStep_groups {op : AccountOp} (hs : accountStep hashKey verifyPassword settings db op = some db')
    (hop : ∀ query exchanged fresh raw now, op ≠ .oidcCallback query exchanged fresh raw now) :
    db'.groups = db.groups ∧ db'.userGroups = db.userGroups := by
  cases op with
  | createAdmin fresh email passwordHash reset =>
    obtain rfl := Option.some.inj hs
    unfold createAdmin
    split
    · split <;> exact ⟨rfl, rfl⟩
    · split <;> exact ⟨rfl, rfl⟩
  | createApiKey key =>
    obtain rfl := Option.some.inj hs
    unfold createApiKey
    split <;> exact ⟨rfl, rfl⟩
  | login email password raw now =>
    obtain rfl := Option.some.inj hs
    unfold login
    dsimp only
    split
    · exact ⟨rfl, rfl⟩
    split
    · exact ⟨rfl, rfl⟩
    split
    · exact ⟨rfl, rfl⟩
    split
    · exact ⟨rfl, rfl⟩
    · rename_i db1 hcreate
      rw [createSession_rest hcreate]
      exact ⟨rfl, rfl⟩
  | logout cookie now =>
    obtain rfl := Option.some.inj hs
    unfold logout
    split <;> exact ⟨rfl, rfl⟩
  | oidcCallback query exchanged fresh raw now => exact absurd rfl (hop query exchanged fresh raw now)
  | updateUser userId body =>
    obtain rfl := Option.some.inj hs
    unfold updateUser
    split
    · exact ⟨rfl, rfl⟩
    · split <;> exact ⟨rfl, rfl⟩
  | request req now =>
    obtain rfl := Option.some.inj hs
    exact ⟨rfl, rfl⟩

theorem memberStep_ok {w' : MemberWorld} {op : MemberOp} (h : MembersOk w) (hfresh : DrawsFresh w op)
    (hs : memberStep hashKey verifyPassword settings w op = some w') : MembersOk w' := by
  cases op with
  | account op =>
    obtain ⟨db', hstep, rfl⟩ := Option.map_eq_some_iff.mp hs
    by_cases hop : ∃ query exchanged fresh raw now, op = .oidcCallback query exchanged fresh raw now
    · obtain ⟨query, exchanged, fresh, raw, now, rfl⟩ := hop
      obtain rfl := Option.some.inj hstep
      exact oidcCallback_members query exchanged raw now h hfresh
    · have hother : ∀ query exchanged fresh raw now, op ≠ .oidcCallback query exchanged fresh raw now :=
        fun query exchanged fresh raw now heq => hop ⟨query, exchanged, fresh, raw, now, heq⟩
      have hclaim : claimedBy hashKey settings w.db op = none := by
        cases op with
        | oidcCallback query exchanged fresh raw now => exact absurd rfl (hother query exchanged fresh raw now)
        | _ => rfl
      obtain ⟨hgroups, hmembers⟩ := accountStep_groups hstep hother
      rw [hclaim]
      exact h.congr hgroups hmembers
  | group req =>
    obtain rfl := Option.some.inj hs
    cases req with
    | create fresh body => exact createGroup_members fresh body h
    | update groupId body => exact updateGroup_members groupId body h
    | delete groupId => exact deleteGroup_members groupId h
    | addMember groupId userId => exact addGroupMember_members groupId userId h
    | removeMember groupId userId => exact removeGroupMember_members groupId userId h

/-- In every run of logins and of requests to the group routes, a user is in just those groups of the identity provider
that its last claim lists, and in just those local groups that the routes alone have put it in. -/
theorem memberships_follow {w : MemberWorld}
    (h : Reaches (memberStep hashKey verifyPassword settings) DrawsFresh MemberStart w) (u : Uuid) (g : Group)
    (hg : g ∈ w.db.groups) :
    (⟨u, g.id⟩ : UserGroup) ∈ w.db.userGroups ↔
      (g.source = .idp ∧ ∃ x ∈ w.claims u, g.externalId = some x) ∨ (g.source = .local ∧ ⟨u, g.id⟩ ∈ w.locals) := by
  have hinv : MembersOk w := by
    apply h.invariant MembersOk
    · rintro ⟨db, claims, locals⟩ ⟨hgroups, hmembers, hclaims, hlocals⟩
      dsimp only at hgroups hmembers hclaims hlocals
      subst hclaims hlocals
      constructor
      · constructor
        · simp [UniqueOn, hgroups]
        · simp [hgroups]
        · simp [hmembers]
      all_goals simp [hgroups]
    · intro w op w' hw hfresh hs
      exact memberStep_ok hw hfresh hs
  cases hsource : g.source with
  | «local» => simpa using hinv.locals u g hg hsource
  | idp => simpa using hinv.idp u g hg hsource

/-- A local group, and a login with one group in its claim. -/
def membershipRun : List MemberOp :=
  [.group (.create 5 ⟨"staff", by decide, by decide⟩),
    .account (.oidcCallback annQuery (.ok (annClaims (some ["sales"]))) textFresh "token" 0),
    .group (.addMember 5 10)]

def memberWorld : MemberWorld where
  db := { Db.empty with
    users := [⟨10, some "sub-1", "ann@example.org", none, false, none, none, none⟩]
    groups := [⟨5, "staff", .local, none⟩, ⟨textFresh.group "sales", "idp:sales", .idp, some "sales"⟩]
    userGroups := [⟨10, textFresh.group "sales"⟩, ⟨10, 5⟩]
    sessions := [⟨"token", 10, 604800000000, none⟩] }
  claims := Function.update (fun _ => []) 10 ["sales"]
  locals := [⟨10, 5⟩]

theorem memberWorld_reached :
    Reaches (memberStep id (fun _ _ => true) oidcSettings) DrawsFresh MemberStart memberWorld := by
  have hstart : Reaches (memberStep id (fun _ _ => true) oidcSettings) DrawsFresh MemberStart ⟨Db.empty, fun _ => [], []⟩ :=
    .start ⟨rfl, rfl, rfl, rfl⟩
  have hrun : runSteps (memberStep id (fun _ _ => true) oidcSettings) ⟨Db.empty, fun _ => [], []⟩ membershipRun =
      some memberWorld := rfl
  apply hstart.runSteps ?_ hrun
  · refine ⟨trivial, ?_⟩
    rintro w hw
    obtain rfl := Option.some.inj hw
    refine ⟨⟨?_, textFresh_fresh.distinct⟩, fun _ _ => ⟨trivial, fun _ _ => trivial⟩⟩
    intro g hg x hx
    obtain rfl := List.mem_singleton.mp hg
    have hlt : (5 : Uuid) < 10 := by decide
    rw [show (5 : Uuid) = textFresh.group x from hx] at hlt
    exact Nat.not_lt.mpr (Nat.le_add_right _ _) hlt

theorem memberships_follow_ann : (⟨10, 5⟩ : UserGroup) ∈ memberWorld.db.userGroups ↔
    (GroupSource.local = .idp ∧ ∃ x ∈ memberWorld.claims 10, (none : Option String) = some x) ∨
      (GroupSource.local = .local ∧ ⟨10, 5⟩ ∈ memberWorld.locals) :=
  memberships_follow memberWorld_reached 10 ⟨5, "staff", .local, none⟩ (List.mem_cons_self)

end ProRag
