import ProRag.Auth.Sessions

/-!
# Where admins come from

The admin routes ask `require_admin`, and `PATCH /admin/users/{id}` is one of them.  So every admin goes back, from one
promotion to the next, to an account that the script has set up.
-/

namespace ProRag

open Framework

/-- An operation on the accounts.  A patch comes in by a request, with the clock of its guard and that of its principal. -/
inductive PortalOp
  | account (op : AccountOp) (unpatched : ∀ userId body, op ≠ .updateUser userId body)
  | patchUser (req : Request) (t1 t2 : Timestamp) (userId : Uuid) (body : UserPatch)

/-- The script makes an account an admin's, or an admin makes another user one. -/
inductive AdminEvent
  | installed (who : Uuid)
  | promoted (promoter who : Uuid)

structure PortalWorld where
  db : Db
  log : List AdminEvent

/-- `who` is installed, or promoted by somebody who was an admin by what is logged before. -/
inductive AdminBy : List AdminEvent → Uuid → Prop
  | installed {log : List AdminEvent} {who : Uuid} : .installed who ∈ log → AdminBy log who
  | promoted {before after : List AdminEvent} {promoter who : Uuid} : AdminBy before promoter →
      AdminBy (before ++ .promoted promoter who :: after) who

variable (hashKey : String → String) (verifyPassword : String → String → Bool) (settings : Settings)

/-- The principal of a request to an admin route, or the error of one of its dependencies. -/
def admitted (req : Request) (db : Db) (t1 t2 : Timestamp) : Except PyError (Option User) :=
  servedAs hashKey settings req db t1 t2 >>= fun user => requireAdmin settings user >>= fun _ => .ok user

/-- What an operation does to the accounts; a request that is not let in does nothing. -/
def PortalOp.accountOp (db : Db) : PortalOp → AccountOp
  | .account op _ => op
  | .patchUser req t1 t2 userId body =>
    match admitted hashKey settings req db t1 t2 with
    | .ok _ => .updateUser userId body
    | .error _ => .request req t2

/-- What an operation that ends well is logged as. -/
def adminEvents (db : Db) : PortalOp → List AdminEvent
  | .account (.createAdmin fresh email _ reset) _ =>
    match selectOne User.email email db.users with
    | none => if db.users.any fun u => u.id = fresh then [] else [.installed fresh]
    | some user => if reset then [.installed user.id] else []
  | .account _ _ => []
  | .patchUser req t1 t2 userId body =>
    match admitted hashKey settings req db t1 t2, (updateUser userId body db).1 with
    | .ok (some promoter), .ok _ => if body.isAdmin = some (some true) then [.promoted promoter.id userId] else []
    | _, _ => []

def delegationStep (w : PortalWorld) (op : PortalOp) : Option PortalWorld :=
  (accountStep hashKey verifyPassword settings w.db (op.accountOp hashKey settings w.db)).map fun db =>
    ⟨db, w.log ++ adminEvents hashKey settings w.db op⟩

/-- Any database without an admin. -/
def PortalStart (w : PortalWorld) : Prop := (∀ u ∈ w.db.users, u.isAdmin = false) ∧ w.log = []

/-- Nobody is made an admin. -/
def AdminsKept (db db' : Db) : Prop :=
  ∀ u' ∈ db'.users, u'.isAdmin = true → ∃ u ∈ db.users, u.id = u'.id ∧ u.isAdmin = true

/-- Every admin of the database has been made one. -/
def AdminsDelegated (w : PortalWorld) : Prop := ∀ u ∈ w.db.users, u.isAdmin = true → AdminBy w.log u.id

variable {hashKey verifyPassword settings} {db db' : Db}

theorem AdminBy.append {log : List AdminEvent} {who : Uuid} (h : AdminBy log who) (more : List AdminEvent) :
    AdminBy (log ++ more) who := by
  cases h with
  | installed hmem => exact .installed (List.mem_append_left _ hmem)
  | promoted hpromoter =>
    rw [List.append_assoc, List.cons_append]
    exact .promoted hpromoter

theorem AdminsKept.of_users_eq (h : db'.users = db.users) : AdminsKept db db' := by
  intro u hu hadmin
  rw [h] at hu
  exact ⟨u, hu, rfl, hadmin⟩

theorem AdminsKept.insert {u : User} (h : db'.users = db.users ++ [u]) (hu : u.isAdmin = false) : AdminsKept db db' := by
  intro a ha hadmin
  rw [h] at ha
  rcases List.mem_append.mp ha with ha | ha
  · exact ⟨a, ha, rfl, hadmin⟩
  · obtain rfl := List.mem_singleton.mp ha
    rw [hu] at hadmin
    cases hadmin

theorem AdminsKept.update {p : User → Bool} {f : User → User} (h : db'.users = updateWhere p f db.users)
    (hid : ∀ u, (f u).id = u.id) (hadmin : ∀ u, (f u).isAdmin = u.isAdmin) : AdminsKept db db' := by
  intro a ha haa
  rw [h] at ha
  obtain ⟨u, hu, rfl⟩ := mem_updateWhere.mp ha
  by_cases hp : p u = true
  · rw [if_pos hp] at haa ⊢
    exact ⟨u, hu, (hid u).symm, by rw [← hadmin u, haa]⟩
  · rw [if_neg hp] at haa ⊢
    exact ⟨u, hu, rfl, haa⟩

theorem upsertOidcUser_admins {fresh : OidcFresh} {sub email : String} {name : Option String} {d : Uuid}
    (h : upsertOidcUser fresh sub email name db = .ok (d, db')) : AdminsKept db db' := by
  unfold upsertOidcUser at h
  split at h
  · split at h
    · cases h
    · obtain ⟨rfl, rfl⟩ := Prod.mk.inj (Except.ok.inj h)
      exact AdminsKept.insert rfl rfl
  · split at h
    · cases h
    · obtain ⟨rfl, rfl⟩ := Prod.mk.inj (Except.ok.inj h)
      exact AdminsKept.update rfl (by intro u; rfl) (by intro u; rfl)

theorem signInOidc_admins {fresh : OidcFresh} {claims : OidcClaims} {sub email raw : String} {now : Timestamp}
    (h : signInOidc hashKey settings fresh claims sub email raw now db = .ok db') : AdminsKept db db' := by
  obtain ⟨⟨d, db1⟩, hup, h⟩ := bind_eq_ok.mp h
  obtain ⟨db2, hseed, hcreate⟩ := bind_eq_ok.mp h
  have hseeded : db2.users = db1.users := by
    unfold seedClaimedGroups at hseed
    split at hseed
    · obtain rfl := Except.ok.inj hseed
      rfl
    · exact (seedIdpGroups_ok hseed).1
  intro u hu hadmin
  rw [(createSession_ok hcreate).1, hseeded] at hu
  exact upsertOidcUser_admins hup u hu hadmin

theorem oidcCallback_admins (query : OidcQuery) (exchanged : Except PyError OidcClaims) (fresh : OidcFresh) (raw : String)
    (now : Timestamp) : AdminsKept db (oidcCallback hashKey settings query (fun _ _ => exchanged) fresh raw now db).2 := by
  rcases oidcCallback_cases hashKey settings query exchanged fresh raw now db with
    ⟨exc, hexc⟩ | ⟨claims, sub, email, db', _, _, hsign, hok⟩
  · rw [hexc]
    exact .of_users_eq rfl
  · rw [hok]
    exact signInOidc_admins hsign

theorem login_users (email password raw : String) (now : Timestamp) :
    (login hashKey settings verifyPassword email password raw now db).2.users = db.users := by
  unfold login
  dsimp only
  split
  · rfl
  split
  · rfl
  split
  · rfl
  split
  · rfl
  · rename_i db1 hcreate
    exact (createSession_ok hcreate).1

/-- The script makes an admin of nobody but the account it sets up. -/
theorem createAdmin_admins {fresh : Uuid} {email passwordHash : String} {reset : Bool} {log : List AdminEvent}
    (h : AdminsDelegated ⟨db, log⟩) (hop : ∀ userId body, AccountOp.createAdmin fresh email passwordHash reset ≠ .updateUser userId body) :
    AdminsDelegated ⟨createAdmin fresh email passwordHash reset db,
      log ++ adminEvents hashKey settings db (.account (.createAdmin fresh email passwordHash reset) hop)⟩ := by
  intro u hu hadmin
  simp only [createAdmin, adminEvents] at hu ⊢
  cases huser : selectOne User.email email db.users with
  | none =>
    simp only [huser] at hu
    split at hu
    · exact (h u hu hadmin).append _
    · rename_i hfresh
      rcases List.mem_append.mp hu with hu | hu
      · exact (h u hu hadmin).append _
      · obtain rfl := List.mem_singleton.mp hu
        simp only [hfresh]
        exact .installed (by simp)
  | some user =>
    simp only [huser] at hu
    by_cases hreset : reset = true
    · simp only [hreset, if_true] at hu ⊢
      obtain ⟨a, ha, rfl⟩ := mem_updateWhere.mp hu
      by_cases hid : a.id = user.id
      · apply AdminBy.installed
        simp [hid]
      · simp only [hid, decide_false, Bool.false_eq_true, if_false] at hadmin ⊢
        exact (h a ha hadmin).append _
    · rw [if_neg hreset] at hu
      exact (h u hu hadmin).append _

/-- A patch makes an admin of nobody but the user it names, and of this one only when it says so and ends well. -/
theorem updateUser_admins (userId : Uuid) (body : UserPatch) {u : User} (hu : u ∈ (updateUser userId body db).2.users)
    (hadmin : u.isAdmin = true) :
    (∃ a ∈ db.users, a.id = u.id ∧ a.isAdmin = true) ∨ (u.id = userId ∧ body.isAdmin = some (some true) ∧
      ∃ user, (updateUser userId body db).1 = .ok user) := by
  unfold updateUser at hu ⊢
  split at hu
  · exact Or.inl ⟨u, hu, rfl, hadmin⟩
  rename_i user hsel
  obtain ⟨huser, rfl⟩ := selectOne_mem hsel
  split at hu
  · exact Or.inl ⟨u, hu, rfl, hadmin⟩
  · exact Or.inl ⟨u, hu, rfl, hadmin⟩
  · obtain ⟨a, ha, rfl⟩ := mem_updateWhere.mp hu
    by_cases hid : a.id = user.id
    · simp only [hid, decide_true, if_true] at hadmin ⊢
      rcases hflag : body.isAdmin with _ | _ | flag
      · simp only [hflag, Option.join_none, Option.getD_none] at hadmin
        exact Or.inl ⟨user, huser, rfl, hadmin⟩
      · simp only [hflag] at hadmin
        exact Or.inl ⟨user, huser, rfl, by simpa using hadmin⟩
      · simp only [hflag] at hadmin
        exact Or.inr ⟨trivial, by simpa using hadmin, _, rfl⟩
    · simp only [hid, decide_false, Bool.false_eq_true, if_false] at hadmin ⊢
      exact Or.inl ⟨a, ha, rfl, hadmin⟩

theorem currentUser_mem {req : Request} {now : Timestamp} {u : User} (h : currentUser hashKey req db now = some u) :
    u ∈ db.users := by
  unfold currentUser at h
  split at h
  · exact (selectOne_mem h).1
  · split at h
    · obtain ⟨d, _, hsel⟩ := Option.bind_eq_some_iff.mp h
      exact (selectOne_mem hsel).1
    · cases h

theorem admitted_admin (hauth : settings.authEnabled = true) {req : Request} {t1 t2 : Timestamp} {user : Option User}
    (h : admitted hashKey settings req db t1 t2 = .ok user) : ∃ u ∈ db.users, user = some u ∧ u.isAdmin = true := by
  obtain ⟨principal, hserved, h⟩ := bind_eq_ok.mp h
  obtain ⟨_, hadmin, h⟩ := bind_eq_ok.mp h
  obtain rfl := Except.ok.inj h
  unfold servedAs at hserved
  split at hserved
  · cases hserved
  · have hcurrent : currentUser hashKey req db t2 = principal := Except.ok.inj hserved
    cases principal with
    | none => simp [requireAdmin, hauth] at hadmin
    | some u =>
      refine ⟨u, currentUser_mem hcurrent, rfl, ?_⟩
      by_contra hu
      simp [requireAdmin, hauth, hu] at hadmin

theorem delegationStep_delegated (hauth : settings.authEnabled = true) {w w' : PortalWorld} {op : PortalOp}
    (h : AdminsDelegated w) (hs : delegationStep hashKey verifyPassword settings w op = some w') : AdminsDelegated w' := by
  obtain ⟨db', hstep, rfl⟩ := Option.map_eq_some_iff.mp hs
  have hkept : ∀ more, AdminsKept w.db db' → AdminsDelegated ⟨db', w.log ++ more⟩ := by
    intro more hk u hu hadmin
    obtain ⟨a, ha, hid, haa⟩ := hk u hu hadmin
    rw [← hid]
    exact (h a ha haa).append more
  cases op with
  | account op hop =>
    cases op with
    | createAdmin fresh email passwordHash reset =>
      obtain rfl := Option.some.inj hstep
      exact createAdmin_admins h hop
    | createApiKey key =>
      obtain rfl := Option.some.inj hstep
      exact hkept _ (.of_users_eq (createApiKey_same key).1)
    | login email password raw now =>
      obtain rfl := Option.some.inj hstep
      exact hkept _ (.of_users_eq (login_users email password raw now))
    | logout cookie now =>
      obtain rfl := Option.some.inj hstep
      exact hkept _ (.of_users_eq (logout_users cookie now))
    | oidcCallback query exchanged fresh raw now =>
      obtain rfl := Option.some.inj hstep
      exact hkept _ (oidcCallback_admins query exchanged fresh raw now)
    | updateUser userId body => exact absurd rfl (hop userId body)
    | request req now =>
      obtain rfl := Option.some.inj hstep
      exact hkept _ (.of_users_eq rfl)
  | patchUser req t1 t2 userId body =>
    cases hin : admitted hashKey settings req w.db t1 t2 with
    | error exc =>
      simp only [PortalOp.accountOp, hin] at hstep
      obtain rfl := Option.some.inj hstep
      exact hkept _ (.of_users_eq rfl)
    | ok user =>
      obtain ⟨promoter, hpromoter, rfl, hadmin⟩ := admitted_admin hauth hin
      simp only [PortalOp.accountOp, hin] at hstep
      obtain rfl := Option.some.inj hstep
      intro u hu hua
      simp only [adminEvents, hin]
      rcases updateUser_admins userId body hu hua with ⟨a, ha, hid, haa⟩ | ⟨hid, hflag, user, hok⟩
      · rw [← hid]
        exact (h a ha haa).append _
      · rw [hok, hid]
        simp only [if_pos hflag]
        exact .promoted (h promoter hpromoter hadmin)

/-- In every run with auth on, everybody for whom an admin route runs has been made an admin: by the script, or by a
patch of somebody who had been made one before. -/
theorem admins_delegated (hauth : settings.authEnabled = true) {w : PortalWorld}
    (h : Reaches (delegationStep hashKey verifyPassword settings) unguarded PortalStart w) (req : Request)
    (t1 t2 : Timestamp) (user : Option User) (hin : admitted hashKey settings req w.db t1 t2 = .ok user) :
    ∃ u, user = some u ∧ AdminBy w.log u.id := by
  have hinv : AdminsDelegated w := by
    apply h.invariant AdminsDelegated
    · intro w hw u hu hadmin
      rw [hw.1 u hu] at hadmin
      cases hadmin
    · intro w op w' hw _ hs
      exact delegationStep_delegated hauth hw hs
  obtain ⟨u, hu, rfl, hadmin⟩ := admitted_admin hauth hin
  exact ⟨u, rfl, hinv u hu hadmin⟩

/-- A user with a session. -/
def staffDb : Db :=
  { Db.empty with
    users := [⟨2, some "sub-2", "bob@example.com", none, false, none, none, none⟩]
    sessions := [⟨"bob", 2, 1000, none⟩] }

/-- The script sets up an admin, who signs in and promotes the user. -/
def promotionRun : List PortalOp :=
  [.account (.createAdmin 1 "a@example.com" "hash" false) (by intro _ _ h; cases h),
    .account (.login "a@example.com" "secret" "abc" 0) (by intro _ _ h; cases h),
    .patchUser ⟨some "abc", "", none⟩ 5 5 2 { isAdmin := some (some true) }]

def promotedWorld : PortalWorld where
  db := { staffDb with
    users := [⟨2, some "sub-2", "bob@example.com", none, true, none, none, none⟩,
      ⟨1, none, "a@example.com", some "Admin", true, some "hash", none, none⟩]
    sessions := [⟨"bob", 2, 1000, none⟩, ⟨"abc", 1, 604800000000, none⟩] }
  log := [.installed 1, .promoted 1 2]

theorem admins_delegated_promotion :
    ∃ u, some (⟨2, some "sub-2", "bob@example.com", none, true, none, none, none⟩ : User) = some u ∧
      AdminBy promotedWorld.log u.id :=
  have hrun : runSteps (delegationStep id (fun _ _ => true) { authEnabled := true }) ⟨staffDb, []⟩ promotionRun =
    some promotedWorld := rfl
  admins_delegated rfl (reaches_of_runSteps ⟨by simp [staffDb], rfl⟩ hrun) ⟨some "bob", "", none⟩ 6 6 _ rfl

end ProRag
