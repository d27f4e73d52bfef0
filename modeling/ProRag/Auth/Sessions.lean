import ProRag.Auth.Disabled
import ProRag.Framework.Tokens
import ProRag.Framework.Waiting

/-!
# The life of a session

A cookie is worth what the log of logins and logouts says of its digest, in every run of the account operations.
-/

namespace ProRag

open Framework

/-- A digest is issued for a user up to an instant, or revoked. -/
abbrev SessionEvent := TokenEvent String (Uuid × Timestamp)

/-- A database, and what has happened to its sessions. -/
structure SessionWorld where
  db : Db
  log : List SessionEvent

variable (hashKey : String → String) (verifyPassword : String → String → Bool) (settings : Settings)

def sessionExpiry (now : Timestamp) : Timestamp := now + settings.sessionTtlDays * 86400000000

/-- What an operation does to sessions: a login that ends well issues one, a logout with a cookie revokes one. -/
def sessionEvents (db : Db) : AccountOp → List SessionEvent
  | .login email password raw now =>
    match (login hashKey settings verifyPassword email password raw now db).1, selectOne User.email email db.users with
    | .ok _, some user => [.issued (hashKey raw) (user.id, sessionExpiry settings now)]
    | _, _ => []
  | .oidcCallback query exchanged fresh raw now =>
    let ended := oidcCallback hashKey settings query (fun _ _ => exchanged) fresh raw now db
    match ended.1, exchanged with
    | .ok _, .ok claims =>
      match selectOne User.externalSubject claims.sub ended.2.users with
      | some user => [.issued (hashKey raw) (user.id, sessionExpiry settings now)]
      | none => []
    | _, _ => []
  | .logout cookie _ =>
    match truthy cookie with
    | some raw => [.revoked (hashKey raw)]
    | none => []
  | _ => []

def sessionStep (w : SessionWorld) (op : AccountOp) : Option SessionWorld :=
  (accountStep hashKey verifyPassword settings w.db op).map fun db =>
    ⟨db, w.log ++ sessionEvents hashKey verifyPassword settings w.db op⟩

/-- Any database without sessions. -/
def SessionStart (w : SessionWorld) : Prop := w.db.sessions = [] ∧ w.log = []

def Session.active (s : Session) : Bool := s.revokedAt.isNone

def Session.grant (s : Session) : Uuid × Timestamp := (s.userId, s.expiresAt)

/-- The rows of the sessions are those of the log. -/
def SessionsRecorded (w : SessionWorld) : Prop :=
  Recorded Session.tokenHash Session.active Session.grant w.log w.db.sessions

variable {hashKey verifyPassword settings} {db db' : Db} {raw : String} {now : Timestamp} {log : List SessionEvent}

theorem createSession_recorded {d : Uuid} (h : SessionsRecorded ⟨db, log⟩)
    (hcreate : createSession hashKey settings d raw now db = .ok db') :
    SessionsRecorded ⟨db', log ++ [.issued (hashKey raw) (d, sessionExpiry settings now)]⟩ := by
  unfold createSession at hcreate
  split at hcreate
  · cases hcreate
  · rename_i hfree
    obtain rfl := Except.ok.inj hcreate
    apply Recorded.issue h (r := ⟨hashKey raw, d, now + settings.sessionTtlDays * 86400000000, none⟩)
    · intro s hs hkey
      exact hfree (List.any_eq_true.mpr ⟨s, hs, by simpa using hkey⟩)
    · rfl

theorem SessionsRecorded.of_sessions_eq (h : SessionsRecorded ⟨db, log⟩) (hs : db'.sessions = db.sessions) :
    SessionsRecorded ⟨db', log⟩ := by
  unfold SessionsRecorded at *
  rw [hs]
  exact h

theorem login_recorded (email password : String) (h : SessionsRecorded ⟨db, log⟩) :
    SessionsRecorded ⟨(login hashKey settings verifyPassword email password raw now db).2,
      log ++ sessionEvents hashKey verifyPassword settings db (.login email password raw now)⟩ := by
  have hnone : SessionsRecorded ⟨db, log ++ []⟩ := by simpa using h
  simp only [sessionEvents, login]
  cases huser : selectOne User.email email db.users with
  | none => exact hnone
  | some user =>
    cases hhash : user.passwordHash with
    | none => simpa [hhash] using h
    | some hash =>
      by_cases hbad : user.disabledAt.isSome ∨ verifyPassword hash password = false
      · simpa [hhash, hbad] using h
      · simp only [hhash, hbad, if_false]
        cases hcreate : createSession hashKey settings user.id raw now db with
        | error exc => exact hnone
        | ok db1 => exact createSession_recorded h hcreate

theorem upsertOidcUser_found {fresh : OidcFresh} {sub email : String} {name : Option String} {d : Uuid}
    (h : upsertOidcUser fresh sub email name db = .ok (d, db')) :
    db'.sessions = db.sessions ∧ ∃ user, selectOne User.externalSubject (some sub) db'.users = some user ∧ user.id = d := by
  unfold upsertOidcUser at h
  cases hsel : selectOne User.externalSubject (some sub) db.users with
  | none =>
    simp only [hsel] at h
    split at h
    · cases h
    · obtain ⟨rfl, rfl⟩ := Prod.mk.inj (Except.ok.inj h)
      rw [selectOne] at hsel
      exact ⟨rfl, ⟨fresh.user, some sub, email, name, false, none, none, none⟩, by simp [selectOne, List.find?_append, hsel], rfl⟩
  | some user =>
    simp only [hsel] at h
    split at h
    · cases h
    · obtain ⟨rfl, rfl⟩ := Prod.mk.inj (Except.ok.inj h)
      let updated : User → User := fun u =>
        { u with
          email := email
          displayName := match truthy name with
            | some n => some n
            | none => u.displayName }
      have hkey : ∀ u : User, decide (u.id = user.id) → (updated u).externalSubject = u.externalSubject := by
        intro u _
        rfl
      have hfound := selectOne_updateWhere_keep hkey (some sub) db.users
      rw [hsel] at hfound
      exact ⟨rfl, _, hfound, by simp [updated]⟩

theorem signInOidc_recorded {fresh : OidcFresh} {claims : OidcClaims} {sub email : String} (h : SessionsRecorded ⟨db, log⟩)
    (hsign : signInOidc hashKey settings fresh claims sub email raw now db = .ok db') :
    ∃ user, selectOne User.externalSubject (some sub) db'.users = some user ∧
      SessionsRecorded ⟨db', log ++ [.issued (hashKey raw) (user.id, sessionExpiry settings now)]⟩ := by
  obtain ⟨⟨d, db1⟩, hup, hsign⟩ := bind_eq_ok.mp hsign
  obtain ⟨db2, hseed, hcreate⟩ := bind_eq_ok.mp hsign
  obtain ⟨hsessions, user, huser, rfl⟩ := upsertOidcUser_found hup
  have hseeded : db2.users = db1.users ∧ db2.sessions = db1.sessions := by
    unfold seedClaimedGroups at hseed
    split at hseed
    · obtain rfl := Except.ok.inj hseed
      exact ⟨rfl, rfl⟩
    · exact seedIdpGroups_ok hseed
  have husers := (createSession_ok hcreate).1
  refine ⟨user, by rw [husers, hseeded.1, huser], ?_⟩
  exact createSession_recorded (h.of_sessions_eq (hseeded.2.trans hsessions)) hcreate

theorem oidcCallback_cases (hashKey : String → String) (settings : Settings) (query : OidcQuery) (exchanged : Except PyError OidcClaims) (fresh : OidcFresh) (raw : String)
    (now : Timestamp) (db : Db) :
    (∃ exc, oidcCallback hashKey settings query (fun _ _ => exchanged) fresh raw now db = (.error exc, db)) ∨
      ∃ claims sub email db', exchanged = .ok claims ∧ claims.sub = some sub ∧
        signInOidc hashKey settings fresh claims sub email raw now db = .ok db' ∧
        oidcCallback hashKey settings query (fun _ _ => exchanged) fresh raw now db = (.ok (), db') := by
  unfold oidcCallback
  split
  · exact Or.inl ⟨_, rfl⟩
  split
  case h_2 => exact Or.inl ⟨_, rfl⟩
  split
  · exact Or.inl ⟨_, rfl⟩
  split
  · exact Or.inl ⟨_, rfl⟩
  split
  · exact Or.inl ⟨_, rfl⟩
  rename_i claims hclaims
  split
  case h_2 => exact Or.inl ⟨_, rfl⟩
  rename_i email sub _ hsub
  have hclaim : claims.sub = some sub := (Option.filter_eq_some_iff.mp hsub).1
  split
  · exact Or.inl ⟨_, rfl⟩
  · rename_i db' hsign
    exact Or.inr ⟨claims, sub, email, db', hclaims, hclaim, hsign, rfl⟩

theorem oidcCallback_recorded (query : OidcQuery) (exchanged : Except PyError OidcClaims) (fresh : OidcFresh)
    (h : SessionsRecorded ⟨db, log⟩) :
    SessionsRecorded ⟨(oidcCallback hashKey settings query (fun _ _ => exchanged) fresh raw now db).2,
      log ++ sessionEvents hashKey verifyPassword settings db (.oidcCallback query exchanged fresh raw now)⟩ := by
  simp only [sessionEvents]
  rcases oidcCallback_cases hashKey settings query exchanged fresh raw now db with
    ⟨exc, hexc⟩ | ⟨claims, sub, email, db', rfl, hsub, hsign, hok⟩
  · simpa [hexc] using h
  · obtain ⟨user, huser, hrecorded⟩ := signInOidc_recorded h hsign
    simpa [hok, hsub, huser] using hrecorded

theorem logout_recorded (cookie : Option String) (h : SessionsRecorded ⟨db, log⟩) :
    SessionsRecorded ⟨logout hashKey cookie now db,
      log ++ sessionEvents hashKey verifyPassword settings db (.logout cookie now)⟩ := by
  simp only [sessionEvents, logout]
  cases hraw : truthy cookie with
  | none => simpa using h
  | some raw =>
    apply Recorded.revoke h
    · intro s
      simp [Session.active]
    · intro s
      rfl
    · intro s
      rfl

theorem updateUser_sessions (d : Uuid) (body : UserPatch) : (updateUser d body db).2.sessions = db.sessions := by
  unfold updateUser
  split
  · rfl
  · split <;> rfl

theorem sessionStep_recorded {w w' : SessionWorld} {op : AccountOp} (h : SessionsRecorded w)
    (hs : sessionStep hashKey verifyPassword settings w op = some w') : SessionsRecorded w' := by
  obtain ⟨db', hstep, rfl⟩ := Option.map_eq_some_iff.mp hs
  have hquiet : db'.sessions = w.db.sessions → SessionsRecorded ⟨db', w.log ++ []⟩ := by
    intro hsame
    rw [List.append_nil]
    exact SessionsRecorded.of_sessions_eq h hsame
  cases op with
  | createAdmin fresh email passwordHash reset =>
    obtain rfl := Option.some.inj hstep
    exact hquiet (createAdmin_sessions fresh email passwordHash reset)
  | createApiKey key =>
    obtain rfl := Option.some.inj hstep
    exact hquiet (createApiKey_same key).2
  | login email password raw now =>
    obtain rfl := Option.some.inj hstep
    exact login_recorded email password h
  | logout cookie now =>
    obtain rfl := Option.some.inj hstep
    exact logout_recorded cookie h
  | oidcCallback query exchanged fresh raw now =>
    obtain rfl := Option.some.inj hstep
    exact oidcCallback_recorded query exchanged fresh h
  | updateUser d body =>
    obtain rfl := Option.some.inj hstep
    exact hquiet (updateUser_sessions d body)
  | request req now =>
    obtain rfl := Option.some.inj hstep
    exact hquiet rfl

theorem sessions_recorded {w : SessionWorld}
    (h : Reaches (sessionStep hashKey verifyPassword settings) unguarded SessionStart w) : SessionsRecorded w := by
  apply h.invariant SessionsRecorded
  · rintro ⟨db, log⟩ ⟨hsessions, hlog⟩
    simp only [SessionsRecorded] at *
    rw [hsessions, hlog]
    exact Recorded.nil
  · intro w op w' hw _ hs
    exact sessionStep_recorded hw hs

/-- In every run, a cookie is resolved to a user just when its digest was issued for that user, has not been revoked
since, and has not run out. -/
theorem session_follows_log {w : SessionWorld}
    (h : Reaches (sessionStep hashKey verifyPassword settings) unguarded SessionStart w) (req : Request)
    (now : Timestamp) (d : Uuid) :
    (∃ s, sessionFromCookie hashKey req w.db now = some s ∧ s.userId = d) ↔
      ∃ raw expiry, truthy req.sessionCookie = some raw ∧ LiveToken w.log (hashKey raw) (d, expiry) ∧ now < expiry := by
  have hrecorded := sessions_recorded h
  have hcookie : ∀ s, sessionFromCookie hashKey req w.db now = some s ↔
      ∃ raw, truthy req.sessionCookie = some raw ∧ resolveSessionToken hashKey raw w.db now = some s := by
    intro s
    unfold sessionFromCookie truthy
    cases req.sessionCookie with
    | none => simp
    | some raw =>
      by_cases hraw : raw = ""
      · simp [hraw]
      · simp [hraw]
  constructor
  · rintro ⟨s, hs, rfl⟩
    obtain ⟨raw, hraw, hresolve⟩ := (hcookie s).mp hs
    obtain ⟨hsel, hrevoked, hlt⟩ := resolveSessionToken_eq_some.mp hresolve
    refine ⟨raw, s.expiresAt, hraw, hrecorded.find_iff.mp ⟨s, hsel, ?_, rfl⟩, hlt⟩
    simp [Session.active, hrevoked]
  · rintro ⟨raw, expiry, hraw, hlive, hlt⟩
    obtain ⟨s, hsel, hactive, hgrant⟩ := hrecorded.find_iff.mpr hlive
    obtain ⟨rfl, rfl⟩ := Prod.mk.inj hgrant
    refine ⟨s, (hcookie s).mpr ⟨raw, hraw, ?_⟩, rfl⟩
    exact resolveSessionToken_eq_some.mpr ⟨hsel, by simpa [Session.active] using hactive, hlt⟩

theorem runSteps_log {w w' : SessionWorld} {ops : List AccountOp}
    (h : runSteps (sessionStep hashKey verifyPassword settings) w ops = some w') : ∃ more, w'.log = w.log ++ more := by
  have hstep : ∀ v op v', (∃ more, v.log = w.log ++ more) →
      sessionStep hashKey verifyPassword settings v op = some v' → ∃ more, v'.log = w.log ++ more := by
    rintro v op v' ⟨more, hmore⟩ hs
    obtain ⟨db, _, rfl⟩ := Option.map_eq_some_iff.mp hs
    exact ⟨_, by rw [hmore, List.append_assoc]⟩
  exact runSteps_kept hstep ⟨[], by simp⟩ h

/-- A cookie that is logged out while it is worth something is worth nothing for good: no later operation, not even a
login that mints the same token, makes it a session again. -/
theorem logout_is_final {w w' : SessionWorld}
    (h : Reaches (sessionStep hashKey verifyPassword settings) unguarded SessionStart w) {req : Request}
    {t now later : Timestamp} {s : Session} (hlive : sessionFromCookie hashKey req w.db t = some s)
    {ops : List AccountOp}
    (hrun : runSteps (sessionStep hashKey verifyPassword settings) w (.logout req.sessionCookie now :: ops) = some w') :
    sessionFromCookie hashKey req w'.db later = none := by
  obtain ⟨raw, expiry, hraw, hissued, _⟩ := (session_follows_log h req t s.userId).mp ⟨s, hlive, rfl⟩
  have hw' := h.runSteps (guarded_unguarded w _) hrun
  obtain ⟨w1, hlogout, hrest⟩ := runSteps_cons.mp hrun
  obtain ⟨db1, _, rfl⟩ := Option.map_eq_some_iff.mp hlogout
  obtain ⟨more, hmore⟩ := runSteps_log hrest
  have hlog : w'.log = w.log ++ .revoked (hashKey raw) :: more := by
    rw [hmore]
    simp [sessionEvents, hraw]
  have honce := (sessions_recorded hw').issued_nodup
  cases hfound : sessionFromCookie hashKey req w'.db later with
  | none => rfl
  | some s' =>
    obtain ⟨raw', expiry', hraw', hlive', _⟩ := (session_follows_log hw' req later s'.userId).mp ⟨s', hfound, rfl⟩
    obtain rfl : raw = raw' := Option.some.inj (hraw.symm.trans hraw')
    rw [hlog] at honce hlive'
    exact absurd hlive' (not_liveToken_of_revoked honce hissued.mem_issuedTokens)

/-- A user signs in with the token `abc`. -/
def signedIn : List AccountOp :=
  [.createAdmin 1 "a@example.com" "hash" false, .login "a@example.com" "secret" "abc" 0]

def signedInWorld : SessionWorld where
  db := { Db.empty with
    users := [⟨1, none, "a@example.com", some "Admin", true, some "hash", none, none⟩]
    sessions := [⟨abcHash "abc", 1, 604800000000, none⟩] }
  log := [.issued (abcHash "abc") (1, 604800000000)]

theorem signedIn_reached :
    Reaches (sessionStep abcHash (fun _ _ => true) {}) unguarded SessionStart signedInWorld :=
  have hrun : runSteps (sessionStep abcHash (fun _ _ => true) {}) ⟨Db.empty, []⟩ signedIn = some signedInWorld := by rfl
  reaches_of_runSteps ⟨rfl, rfl⟩ hrun

theorem session_follows_log_signedIn :
    (∃ s, sessionFromCookie abcHash ⟨some "abc", "", none⟩ signedInWorld.db 5 = some s ∧ s.userId = 1) ↔
      ∃ raw expiry, truthy (some "abc") = some raw ∧ LiveToken signedInWorld.log (abcHash raw) (1, expiry) ∧ 5 < expiry :=
  session_follows_log signedIn_reached ⟨some "abc", "", none⟩ 5 1

theorem logout_is_final_signedIn :
    ∃ w', runSteps (sessionStep abcHash (fun _ _ => true) {}) signedInWorld
        [.logout (some "abc") 7, .login "a@example.com" "secret" "abc" 8] = some w' ∧
      sessionFromCookie abcHash ⟨some "abc", "", none⟩ w'.db 9 = none :=
  have hlive : sessionFromCookie abcHash ⟨some "abc", "", none⟩ signedInWorld.db 5 =
    some ⟨abcHash "abc", 1, 604800000000, none⟩ := rfl
  let ops : List AccountOp := [.login "a@example.com" "secret" "abc" 8]
  have hrun : ∃ w', runSteps (sessionStep abcHash (fun _ _ => true) {}) signedInWorld (.logout (some "abc") 7 :: ops) =
    some w' := ⟨_, rfl⟩
  hrun.imp fun _ hrun => ⟨hrun, logout_is_final signedIn_reached hlive hrun⟩

end ProRag
