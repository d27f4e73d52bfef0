import ProRag.Auth.Routes
import ProRag.Framework.Results
import ProRag.Framework.Runs

/-!
# Disabled users

Runs of the account operations and of requests.  `disabled_at` is written by the admin's patch
alone, and of the four ways to become a user only the password login reads it.
-/

namespace ProRag

open Framework

inductive AccountOp
  | createAdmin (fresh : Uuid) (email passwordHash : String) (reset : Bool)
  | createApiKey (key : ApiKey)
  | login (email password raw : String) (now : Timestamp)
  | logout (cookie : Option String) (now : Timestamp)
  | oidcCallback (query : OidcQuery) (exchanged : Except PyError OidcClaims) (fresh : OidcFresh) (raw : String)
      (now : Timestamp)
  | updateUser (userId : Uuid) (body : UserPatch)
  | request (req : Request) (now : Timestamp)

variable (hashKey : String → String) (verifyPassword : String → String → Bool) (settings : Settings)

def accountStep (db : Db) : AccountOp → Option Db
  | .createAdmin fresh email passwordHash reset => some (createAdmin fresh email passwordHash reset db)
  | .createApiKey key => some (createApiKey key db)
  | .login email password raw now => some (login hashKey settings verifyPassword email password raw now db).2
  | .logout cookie now => some (logout hashKey cookie now db)
  | .oidcCallback query exchanged fresh raw now =>
    some (oidcCallback hashKey settings query (fun _ _ => exchanged) fresh raw now db).2
  | .updateUser userId body => some (updateUser userId body db).2
  | .request _ _ => some db

/-- `d` is a user whose `disabled_at` is set. -/
def DisabledUser (db : Db) (d : Uuid) : Prop :=
  ∃ u ∈ db.users, u.id = d ∧ u.disabledAt ≠ none

/-- A session with a new token appears for user `d`. -/
def MintsFor (db db' : Db) (d : Uuid) : Prop :=
  ∃ s ∈ db'.sessions, s.userId = d ∧ ∀ s0 ∈ db.sessions, s0.tokenHash ≠ s.tokenHash

/-- The step neither resolves a request to a disabled user nor mints a session for one. -/
def HonoursDisabled (db : Db) (op : AccountOp) : Prop :=
  (∀ db', accountStep hashKey verifyPassword settings db op = some db' → ∀ d, MintsFor db db' d → ¬ DisabledUser db d) ∧
    match op with
    | .request req now => ∀ u, currentUser hashKey req db now = some u → ¬ DisabledUser db u.id
    | _ => True

/-- The step presents no live session of a disabled user, without one no key bound to a disabled
user, and no id token of one. -/
def CredentialEnabled (db : Db) : AccountOp → Prop
  | .request req now =>
    (∀ sess, sessionFromCookie hashKey req db now = some sess → ¬ DisabledUser db sess.userId) ∧
      (sessionFromCookie hashKey req db now = none → ∀ key d, apiKeyFromHeader hashKey req db = some key →
        key.userId = some d → ¬ DisabledUser db d)
  | .oidcCallback _ exchanged _ _ _ => ∀ claims sub, exchanged = .ok claims → claims.sub = some sub →
      ∀ u ∈ db.users, u.externalSubject = some sub → u.disabledAt = none
  | _ => True

variable {hashKey verifyPassword settings} {db db' : Db}

/-- Users keep their id and their flag; new ones are not disabled. -/
structure AccountFrame (db db' : Db) : Prop where
  unique : UniqueOn User.id db'.users
  kept : ∀ u ∈ db.users, ∃ u' ∈ db'.users, u'.id = u.id ∧ u'.disabledAt = u.disabledAt
  known : ∀ u' ∈ db'.users, (∃ u ∈ db.users, u.id = u'.id ∧ u.disabledAt = u'.disabledAt) ∨
    ((∀ u ∈ db.users, u.id ≠ u'.id) ∧ u'.disabledAt = none)

theorem AccountFrame.of_users_eq (h : UniqueOn User.id db.users) (hu : db'.users = db.users) :
    AccountFrame db db' := by
  refine ⟨by rw [hu]; exact h, ?_, ?_⟩
  · intro u hmem
    exact ⟨u, by rw [hu]; exact hmem, rfl, rfl⟩
  · intro u' hmem
    rw [hu] at hmem
    exact Or.inl ⟨u', hmem, rfl, rfl⟩

theorem AccountFrame.insert (h : UniqueOn User.id db.users) {u : User} (hfresh : ∀ a ∈ db.users, a.id ≠ u.id)
    (hen : u.disabledAt = none) (hu : db'.users = db.users ++ [u]) : AccountFrame db db' := by
  refine ⟨by rw [hu]; exact h.insert hfresh, ?_, ?_⟩
  · intro a ha
    exact ⟨a, by rw [hu]; exact List.mem_append_left _ ha, rfl, rfl⟩
  · intro a ha
    rw [hu] at ha
    rcases List.mem_append.mp ha with ha | ha
    · exact Or.inl ⟨a, ha, rfl, rfl⟩
    · obtain rfl := List.mem_singleton.mp ha
      exact Or.inr ⟨hfresh, hen⟩

theorem AccountFrame.update (h : UniqueOn User.id db.users) {d : Uuid} (f : User → User)
    (hid : ∀ u, (f u).id = u.id) (hen : ∀ u, (f u).disabledAt = u.disabledAt)
    (hu : db'.users = updateWhere (fun u => u.id = d) f db.users) : AccountFrame db db' := by
  refine ⟨?_, ?_, ?_⟩
  · rw [hu]
    exact h.updateWhere fun u _ => hid u
  · intro u hmem
    refine ⟨if u.id = d then f u else u, ?_, ?_, ?_⟩
    · rw [hu]
      exact mem_updateWhere.mpr ⟨u, hmem, by simp⟩
    · split
      · exact hid u
      · rfl
    · split
      · exact hen u
      · rfl
  · intro u' hmem
    rw [hu] at hmem
    obtain ⟨u, hold, rfl⟩ := mem_updateWhere.mp hmem
    refine Or.inl ⟨u, hold, ?_, ?_⟩
    · split
      · exact (hid u).symm
      · rfl
    · split
      · exact (hen u).symm
      · rfl

theorem createSession_ok {d : Uuid} {raw : String} {now : Timestamp}
    (h : createSession hashKey settings d raw now db = .ok db') :
    db'.users = db.users ∧ ∀ e, MintsFor db db' e → e = d := by
  unfold createSession at h
  split at h
  · cases h
  · obtain rfl := Except.ok.inj h
    refine ⟨rfl, ?_⟩
    rintro e ⟨s, hs, rfl, hnew⟩
    rcases List.mem_append.mp hs with hs | hs
    · exact absurd rfl (hnew s hs)
    · obtain rfl := List.mem_singleton.mp hs
      rfl

theorem not_mintsFor_of_sessions_eq (h : db'.sessions = db.sessions) (d : Uuid) : ¬ MintsFor db db' d := by
  rintro ⟨s, hs, _, hnew⟩
  rw [h] at hs
  exact hnew s hs rfl

theorem upsertOidcUser_ok (h : UniqueOn User.id db.users) {fresh : OidcFresh} {sub email : String}
    {name : Option String} {d : Uuid} (he : upsertOidcUser fresh sub email name db = .ok (d, db')) :
    AccountFrame db db' ∧ db'.sessions = db.sessions ∧
      ((∀ u ∈ db.users, u.id ≠ d) ∨ ∃ u ∈ db.users, u.id = d ∧ u.externalSubject = some sub) := by
  unfold upsertOidcUser at he
  split at he
  · split at he
    · cases he
    · rename_i hfree
      obtain ⟨rfl, rfl⟩ := Prod.mk.inj (Except.ok.inj he)
      have hfresh : ∀ u ∈ db.users, u.id ≠ fresh.user := by
        intro u hu hid
        exact hfree (List.any_eq_true.mpr ⟨u, hu, by simp [hid]⟩)
      exact ⟨.insert h hfresh rfl rfl, rfl, Or.inl hfresh⟩
  · rename_i user hsel
    split at he
    · cases he
    · obtain ⟨rfl, rfl⟩ := Prod.mk.inj (Except.ok.inj he)
      obtain ⟨hmem, hsub⟩ := selectOne_mem hsel
      exact ⟨.update h _ (by intro u; rfl) (by intro u; rfl) rfl, rfl, Or.inr ⟨user, hmem, rfl, hsub⟩⟩

theorem seedIdpGroups_ok {fresh : OidcFresh} {d : Uuid} {groupClaim : List String}
    (h : seedIdpGroups fresh d groupClaim db = .ok db') :
    db'.users = db.users ∧ db'.sessions = db.sessions := by
  have hmember : ∀ (g : Uuid) (a b : Db), insertMember d g a = .ok b → b.users = a.users ∧ b.sessions = a.sessions := by
    intro g a b hins
    unfold insertMember at hins
    split at hins
    · cases hins
    · obtain rfl := Except.ok.inj hins
      exact ⟨rfl, rfl⟩
  have hgroup : ∀ (a : Db) (x : String) (b : Db), a.users = db.users ∧ a.sessions = db.sessions →
      seedIdpGroup fresh d x a = .ok b → b.users = db.users ∧ b.sessions = db.sessions := by
    intro a x b ⟨hu, hs⟩ hseed
    unfold seedIdpGroup at hseed
    split at hseed
    · cases hseed
    · split at hseed
      · obtain ⟨hu', hs'⟩ := hmember _ _ _ hseed
        exact ⟨hu'.trans hu, hs'.trans hs⟩
      · split at hseed
        · cases hseed
        · obtain ⟨hu', hs'⟩ := hmember _ _ _ hseed
          exact ⟨hu'.trans hu, hs'.trans hs⟩
  exact foldlM_keeps (fun a => a.users = db.users ∧ a.sessions = db.sessions)
    (fun a x => seedIdpGroup fresh d x a) hgroup ⟨rfl, rfl⟩ h

theorem signInOidc_ok (h : UniqueOn User.id db.users) {fresh : OidcFresh} {claims : OidcClaims}
    {sub email raw : String} {now : Timestamp}
    (he : signInOidc hashKey settings fresh claims sub email raw now db = .ok db') :
    AccountFrame db db' ∧ ∀ d, MintsFor db db' d →
      (∀ u ∈ db.users, u.id ≠ d) ∨ ∃ u ∈ db.users, u.id = d ∧ u.externalSubject = some sub := by
  unfold signInOidc at he
  obtain ⟨⟨d, db1⟩, hup, he⟩ := bind_eq_ok.mp he
  obtain ⟨hframe, hsess, hwho⟩ := upsertOidcUser_ok h hup
  obtain ⟨db2, hseed, he⟩ := bind_eq_ok.mp he
  have hseeded : db2.users = db1.users ∧ db2.sessions = db1.sessions := by
    unfold seedClaimedGroups at hseed
    split at hseed
    · obtain rfl := Except.ok.inj hseed
      exact ⟨rfl, rfl⟩
    · exact seedIdpGroups_ok hseed
  obtain ⟨husers, hmint⟩ := createSession_ok he
  have hu : db'.users = db1.users := husers.trans hseeded.1
  refine ⟨⟨by rw [hu]; exact hframe.unique, by rw [hu]; exact hframe.kept, by rw [hu]; exact hframe.known⟩, ?_⟩
  rintro e ⟨s, hs, hse, hnew⟩
  have hmints : MintsFor db2 db' e := ⟨s, hs, hse, by rw [hseeded.2, hsess]; exact hnew⟩
  rw [hmint e hmints]
  exact hwho

theorem oidcCallback_spec (h : UniqueOn User.id db.users) (query : OidcQuery) (exchanged : Except PyError OidcClaims)
    (fresh : OidcFresh) (raw : String) (now : Timestamp) :
    (oidcCallback hashKey settings query (fun _ _ => exchanged) fresh raw now db).2 = db ∨
      ∃ claims sub db1, exchanged = .ok claims ∧ claims.sub = some sub ∧
        (oidcCallback hashKey settings query (fun _ _ => exchanged) fresh raw now db).2 = db1 ∧
        AccountFrame db db1 ∧ ∀ d, MintsFor db db1 d →
          (∀ u ∈ db.users, u.id ≠ d) ∨ ∃ u ∈ db.users, u.id = d ∧ u.externalSubject = some sub := by
  unfold oidcCallback
  split
  · exact Or.inl rfl
  split
  case h_2 => exact Or.inl rfl
  split
  · exact Or.inl rfl
  split
  · exact Or.inl rfl
  split
  · exact Or.inl rfl
  rename_i claims hex
  split
  case h_2 => exact Or.inl rfl
  rename_i email sub _ hsub
  have hclaim : claims.sub = some sub := (Option.filter_eq_some_iff.mp hsub).1
  split
  · exact Or.inl rfl
  · rename_i db1 hsign
    obtain ⟨hframe, hmint⟩ := signInOidc_ok h hsign
    exact Or.inr ⟨claims, sub, db1, hex, hclaim, rfl, hframe, hmint⟩

theorem login_spec (h : UniqueOn User.id db.users) (email password raw : String) (now : Timestamp) :
    AccountFrame db (login hashKey settings verifyPassword email password raw now db).2 ∧
      ∀ d, MintsFor db (login hashKey settings verifyPassword email password raw now db).2 d →
        ∃ u ∈ db.users, u.id = d ∧ u.disabledAt = none := by
  have hsame : AccountFrame db db ∧ ∀ d, MintsFor db db d → ∃ u ∈ db.users, u.id = d ∧ u.disabledAt = none :=
    ⟨.of_users_eq h rfl, fun d hm => absurd hm (not_mintsFor_of_sessions_eq rfl d)⟩
  unfold login
  dsimp only
  split
  · exact hsame
  rename_i user hsel
  split
  · exact hsame
  split
  · exact hsame
  rename_i hopen
  split
  · exact hsame
  rename_i db1 hcreate
  obtain ⟨hu, hmint⟩ := createSession_ok hcreate
  refine ⟨.of_users_eq h hu, fun d hm => ?_⟩
  obtain ⟨hmem, _⟩ := selectOne_mem hsel
  refine ⟨user, hmem, (hmint d hm).symm, ?_⟩
  simpa using (not_or.mp hopen).1

theorem updateUser_spec (h : UniqueOn User.id db.users) (d : Uuid) (body : UserPatch) :
    UniqueOn User.id (updateUser d body db).2.users ∧ (updateUser d body db).2.sessions = db.sessions := by
  unfold updateUser
  split
  · exact ⟨h, rfl⟩
  rename_i user hsel
  obtain ⟨_, hid⟩ := selectOne_mem hsel
  split
  · exact ⟨h, rfl⟩
  · exact ⟨h, rfl⟩
  · refine ⟨h.updateWhere ?_, rfl⟩
    intro u hu
    exact hid.trans (of_decide_eq_true hu).symm

theorem createAdmin_frame (h : UniqueOn User.id db.users) (fresh : Uuid) (email passwordHash : String)
    (reset : Bool) : AccountFrame db (createAdmin fresh email passwordHash reset db) := by
  unfold createAdmin
  split
  · split
    · exact .of_users_eq h rfl
    · rename_i hfree
      refine .insert h ?_ rfl rfl
      intro u hu hid
      exact hfree (List.any_eq_true.mpr ⟨u, hu, by simpa using hid⟩)
  · split
    · exact .update h _ (by intro u; rfl) (by intro u; rfl) rfl
    · exact .of_users_eq h rfl

theorem createAdmin_sessions (fresh : Uuid) (email passwordHash : String) (reset : Bool) :
    (createAdmin fresh email passwordHash reset db).sessions = db.sessions := by
  unfold createAdmin
  split
  · split <;> rfl
  · split <;> rfl

theorem createApiKey_same (key : ApiKey) :
    (createApiKey key db).users = db.users ∧ (createApiKey key db).sessions = db.sessions := by
  unfold createApiKey
  split <;> exact ⟨rfl, rfl⟩

theorem logout_mints_none (cookie : Option String) (now : Timestamp) (d : Uuid) :
    ¬ MintsFor db (logout hashKey cookie now db) d := by
  unfold logout
  split
  · exact not_mintsFor_of_sessions_eq rfl d
  · rintro ⟨s, hs, _, hnew⟩
    obtain ⟨s0, hs0, rfl⟩ := mem_updateWhere.mp hs
    apply hnew s0 hs0
    split <;> rfl

theorem logout_users (cookie : Option String) (now : Timestamp) : (logout hashKey cookie now db).users = db.users := by
  unfold logout
  split <;> rfl

theorem accountStep_frame (h : UniqueOn User.id db.users) {op : AccountOp}
    (hs : accountStep hashKey verifyPassword settings db op = some db')
    (hop : ∀ d body, op ≠ .updateUser d body) : AccountFrame db db' := by
  cases op with
  | createAdmin fresh email passwordHash reset =>
    obtain rfl := Option.some.inj hs
    exact createAdmin_frame h fresh email passwordHash reset
  | createApiKey key =>
    obtain rfl := Option.some.inj hs
    exact .of_users_eq h (createApiKey_same key).1
  | login email password raw now =>
    obtain rfl := Option.some.inj hs
    exact (login_spec h email password raw now).1
  | logout cookie now =>
    obtain rfl := Option.some.inj hs
    exact .of_users_eq h (logout_users cookie now)
  | oidcCallback query exchanged fresh raw now =>
    obtain rfl := Option.some.inj hs
    rcases oidcCallback_spec h query exchanged fresh raw now with hsame | ⟨_, _, db1, _, _, hdb, hframe, _⟩
    · rw [hsame]
      exact .of_users_eq h rfl
    · rw [hdb]
      exact hframe
  | updateUser d body => exact absurd rfl (hop d body)
  | request req now =>
    obtain rfl := Option.some.inj hs
    exact .of_users_eq h rfl

theorem accountStep_unique (h : UniqueOn User.id db.users) {op : AccountOp}
    (hs : accountStep hashKey verifyPassword settings db op = some db') : UniqueOn User.id db'.users := by
  by_cases hop : ∃ d body, op = .updateUser d body
  · obtain ⟨d, body, rfl⟩ := hop
    obtain rfl := Option.some.inj hs
    exact (updateUser_spec h d body).1
  · have hne : ∀ d body, op ≠ .updateUser d body := fun d body he => hop ⟨d, body, he⟩
    exact (accountStep_frame h hs hne).unique

theorem not_disabledUser (h : UniqueOn User.id db.users) {u : User} (hu : u ∈ db.users) (hen : u.disabledAt = none) :
    ¬ DisabledUser db u.id := by
  rintro ⟨v, hv, hid, hdis⟩
  rw [h.eq_of_key hv hu hid] at hdis
  exact hdis hen

theorem currentUser_honours_iff {req : Request} {now : Timestamp} (hok : db.IdentityOk) :
    (∀ u, currentUser hashKey req db now = some u → ¬ DisabledUser db u.id) ↔
      CredentialEnabled hashKey db (.request req now) := by
  have hselect : ∀ d, (∃ u ∈ db.users, u.id = d) → ∃ u, selectOne User.id d db.users = some u ∧ u.id = d := by
    intro d hd
    obtain ⟨u, hu⟩ := Option.ne_none_iff_exists'.mp (Db.IdentityOk.user_isSome hd)
    exact ⟨u, hu, (selectOne_mem hu).2⟩
  unfold currentUser CredentialEnabled
  cases hsess : sessionFromCookie hashKey req db now with
  | some sess =>
    obtain ⟨u, hu, hid⟩ := hselect _ (hok.sessionUser sess (sessionFromCookie_mem hsess))
    simp [hsess, hu, hid]
  | none =>
    cases hkey : apiKeyFromHeader hashKey req db with
    | none => simp [hsess, hkey]
    | some key =>
      have hbound : (∀ key' d, some key = some key' → key'.userId = some d → ¬ DisabledUser db d) ↔
          ∀ d, key.userId = some d → ¬ DisabledUser db d := by
        constructor
        · intro h d
          exact h key d rfl
        · intro h key' d hk
          obtain rfl := Option.some.inj hk
          exact h d
      simp only [hsess, hkey, hbound]
      cases hd : key.userId with
      | none => simp
      | some d =>
        obtain ⟨u, hu, hid⟩ := hselect d (hok.keyUser key (apiKeyFromHeader_mem hkey) d hd)
        simp [hu, hid]

theorem honoursDisabled_step (h : UniqueOn User.id db.users) {op : AccountOp}
    (hg : CredentialEnabled hashKey db op) : HonoursDisabled hashKey verifyPassword settings db op := by
  have hnone : ∀ {db1 : Db}, db1.sessions = db.sessions → ∀ d, MintsFor db db1 d → ¬ DisabledUser db d :=
    fun hs d hm => absurd hm (not_mintsFor_of_sessions_eq hs d)
  cases op with
  | createAdmin fresh email passwordHash reset =>
    refine ⟨fun db' hs => ?_, trivial⟩
    obtain rfl := Option.some.inj hs
    exact hnone (createAdmin_sessions fresh email passwordHash reset)
  | createApiKey key =>
    refine ⟨fun db' hs => ?_, trivial⟩
    obtain rfl := Option.some.inj hs
    exact hnone (createApiKey_same key).2
  | login email password raw now =>
    refine ⟨fun db' hs d hm => ?_, trivial⟩
    obtain rfl := Option.some.inj hs
    obtain ⟨u, hu, rfl, hen⟩ := (login_spec h email password raw now).2 d hm
    exact not_disabledUser h hu hen
  | logout cookie now =>
    refine ⟨fun db' hs d hm => ?_, trivial⟩
    obtain rfl := Option.some.inj hs
    exact absurd hm (logout_mints_none cookie now d)
  | oidcCallback query exchanged fresh raw now =>
    refine ⟨fun db' hs d hm => ?_, trivial⟩
    obtain rfl := Option.some.inj hs
    rcases oidcCallback_spec h query exchanged fresh raw now with hsame | ⟨claims, sub, db1, hex, hsub, hdb, _, hmint⟩
    · rw [hsame] at hm
      exact absurd hm (not_mintsFor_of_sessions_eq rfl d)
    · rw [hdb] at hm
      rcases hmint d hm with hfresh | ⟨u, hu, rfl, hext⟩
      · rintro ⟨v, hv, hid, _⟩
        exact hfresh v hv hid
      · exact not_disabledUser h hu (hg claims sub hex hsub u hu hext)
  | updateUser d body =>
    refine ⟨fun db' hs => ?_, trivial⟩
    obtain rfl := Option.some.inj hs
    exact hnone (updateUser_spec h d body).2
  | request req now =>
    refine ⟨fun db' hs => ?_, fun u hu => ?_⟩
    · obtain rfl := Option.some.inj hs
      exact hnone rfl
    · unfold currentUser at hu
      split at hu
      · rename_i sess hsess
        obtain ⟨_, hid⟩ := selectOne_mem hu
        rw [hid]
        exact hg.1 sess hsess
      · rename_i hsess
        split at hu
        · rename_i key hkey
          obtain ⟨d, hd, hsel⟩ := Option.bind_eq_some_iff.mp hu
          obtain ⟨_, hid⟩ := selectOne_mem hsel
          rw [hid]
          exact hg.2 hsess key d hkey hd
        · cases hu

/-- In a run whose steps present no credential of a disabled user, every step honours the flag. -/
theorem accounts_honour_disabled {ops : List AccountOp}
    (hg : Guarded (accountStep hashKey verifyPassword settings) (CredentialEnabled hashKey) Db.empty ops) :
    Guarded (accountStep hashKey verifyPassword settings) (HonoursDisabled hashKey verifyPassword settings)
      Db.empty ops := by
  have hempty : UniqueOn User.id Db.empty.users := List.nodup_nil
  refine Guarded.imp (fun db => UniqueOn User.id db.users) ?_ ?_ hempty hg
  · intro db op h hop
    exact honoursDisabled_step h hop
  · intro db op db' h _ hs
    exact accountStep_unique h hs

/-- `a@example.com` signs in, and the admin disables the account. -/
def disabledRun : List AccountOp :=
  [.createAdmin 1 "a@example.com" "hash" false, .login "a@example.com" "secret" "abc" 0,
    .updateUser 1 { disabledAt := some (some (.naive 5)) }]

theorem accounts_honour_disabled_run :
    Guarded (accountStep abcHash (fun _ _ => true) {}) (HonoursDisabled abcHash (fun _ _ => true) {})
      Db.empty disabledRun :=
  accounts_honour_disabled (by simp [disabledRun, Guarded, CredentialEnabled])

/-- The session minted before the patch still names the disabled user. -/
theorem request_resolved_to_disabled :
    ∃ db, runSteps (accountStep abcHash (fun _ _ => true) {}) Db.empty disabledRun = some db ∧
      ¬ HonoursDisabled abcHash (fun _ _ => true) {} db (.request ⟨some "abc", "", none⟩ 6) := by
  refine ⟨_, rfl, fun h => ?_⟩
  refine h.2 _ rfl ⟨_, List.mem_cons_self, rfl, ?_⟩
  intro hnone
  cases hnone

end ProRag
