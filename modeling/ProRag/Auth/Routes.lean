import ProRag.Auth.Identity

/-!
# Accounts

The writes to users, sessions and keys: login and logout, the OIDC callback with its group
seeding, `PATCH /admin/users/{id}` and the two command-line helpers.  A handler that raises
leaves nothing committed.
-/

namespace ProRag

open Framework

/-- A claim, or a query parameter, that is present and not empty. -/
def truthy (value : Option String) : Option String :=
  value.filter fun s => s ≠ ""

section

variable (hashKey : String → String) (settings : Settings)

/-- `create_session(user_id, session)` with the minted token. -/
def createSession (userId : Uuid) (raw : String) (now : Timestamp) (db : Db) : Except PyError Db :=
  if db.sessions.any fun s => s.tokenHash = hashKey raw then
    .error ⟨"IntegrityError", "sessions_token_hash_key"⟩
  else
    .ok { db with
      sessions := db.sessions ++ [⟨hashKey raw, userId, now + settings.sessionTtlDays * 86400000000, none⟩] }

/-- `login(req, session)`. -/
def login (verifyPassword : String → String → Bool) (email password raw : String) (now : Timestamp) (db : Db) :
    Except PyError (String × Option String) × Db :=
  let refused := httpException 401 "invalid email or password"
  match selectOne User.email email db.users with
  | none => (.error refused, db)
  | some user =>
    match user.passwordHash with
    | none => (.error refused, db)
    | some hash =>
      if user.disabledAt.isSome ∨ verifyPassword hash password = false then (.error refused, db)
      else
        match createSession hashKey settings user.id raw now db with
        | .error exc => (.error exc, db)
        | .ok db' => (.ok (user.email, user.displayName), db')

/-- `logout(request, session)`. -/
def logout (cookie : Option String) (now : Timestamp) (db : Db) : Db :=
  match truthy cookie with
  | none => db
  | some raw =>
    { db with
      sessions := updateWhere (fun s => s.tokenHash = hashKey raw ∧ s.revokedAt.isNone)
        (fun s => { s with revokedAt := some now }) db.sessions }

/-- The claims of a verified id token. -/
structure OidcClaims where
  email : Option String
  sub : Option String
  name : Option String
  groups : Option (List String)

/-- What the issuer's redirect carries. -/
structure OidcQuery where
  code : Option String
  state : Option String
  stateCookie : Option String

/-- The `uuid4` values a callback draws. -/
structure OidcFresh where
  user : Uuid
  group : String → Uuid

/-- The insert or update of the user row in `oidc_callback`. -/
def upsertOidcUser (fresh : OidcFresh) (sub email : String) (name : Option String) (db : Db) :
    Except PyError (Uuid × Db) :=
  match selectOne User.externalSubject (some sub) db.users with
  | none =>
    if db.users.any fun u => u.id = fresh.user ∨ u.email = email then
      .error ⟨"IntegrityError", "users_email_key"⟩
    else
      .ok (fresh.user, { db with
        users := db.users ++ [⟨fresh.user, some sub, email, name, false, none, none, none⟩] })
  | some user =>
    if db.users.any fun u => u.id ≠ user.id ∧ u.email = email then
      .error ⟨"IntegrityError", "users_email_key"⟩
    else
      .ok (user.id, { db with
        users := updateWhere (fun u => u.id = user.id)
          (fun u => { u with
            email := email
            displayName := match truthy name with
              | some n => some n
              | none => u.displayName }) db.users })

/-- `INSERT INTO user_groups`; the pair is the primary key. -/
def insertMember (userId groupId : Uuid) (db : Db) : Except PyError Db :=
  if db.userGroups.any fun m => m = ⟨userId, groupId⟩ then
    .error ⟨"IntegrityError", "user_groups_pkey"⟩
  else .ok { db with userGroups := db.userGroups ++ [⟨userId, groupId⟩] }

/-- One turn of the loop of `_seed_idp_groups`. -/
def seedIdpGroup (fresh : OidcFresh) (userId : Uuid) (externalId : String) (db : Db) : Except PyError Db :=
  if pgText externalId = false then .error ⟨"DBAPIError", "invalid byte sequence for encoding UTF8: 0x00"⟩
  else match db.groups.find? fun g => g.source = .idp ∧ g.externalId = some externalId with
  | some g => insertMember userId g.id db
  | none =>
    if db.groups.any fun g => g.id = fresh.group externalId ∨ g.name = "idp:" ++ externalId then
      .error ⟨"IntegrityError", "groups_name_key"⟩
    else
      insertMember userId (fresh.group externalId) { db with
        groups := db.groups ++ [⟨fresh.group externalId, "idp:" ++ externalId, .idp, some externalId⟩] }

/-- `_seed_idp_groups(session, user_id, group_claim)`. -/
def seedIdpGroups (fresh : OidcFresh) (userId : Uuid) (groupClaim : List String) (db : Db) : Except PyError Db :=
  groupClaim.foldlM (fun db externalId => seedIdpGroup fresh userId externalId db)
    { db with
      userGroups := deleteWhere
        (fun m => m.userId = userId ∧ db.groups.any fun g => g.id = m.groupId ∧ g.source = .idp)
        db.userGroups }

/-- The state and the nonce of the state cookie. -/
def splitStateCookie (cookie : Option String) : Option (String × String) :=
  (truthy cookie).bind fun value =>
    if ':' ∈ value.toList then
      some (String.ofList (value.toList.takeWhile (· ≠ ':')), String.ofList (value.toList.dropWhile (· ≠ ':')).tail)
    else none

/-- The seeding of `oidc_callback`, skipped when the token has no `groups` claim. -/
def seedClaimedGroups (fresh : OidcFresh) (userId : Uuid) (groups : Option (List String)) (db : Db) :
    Except PyError Db :=
  match groups with
  | none => .ok db
  | some groupClaim => seedIdpGroups fresh userId groupClaim db

/-- The writes of `oidc_callback` for verified claims, one transaction. -/
def signInOidc (fresh : OidcFresh) (claims : OidcClaims) (sub email raw : String) (now : Timestamp) (db : Db) :
    Except PyError Db :=
  upsertOidcUser fresh sub email claims.name db >>= fun (userId, db) =>
    seedClaimedGroups fresh userId claims.groups db >>= fun db =>
      createSession hashKey settings userId raw now db

/-- `oidc_callback(request, code, state, session)`; `exchange` is `_exchange_code_for_claims`. -/
def oidcCallback (query : OidcQuery) (exchange : String → String → Except PyError OidcClaims)
    (fresh : OidcFresh) (raw : String) (now : Timestamp) (db : Db) : Except PyError Unit × Db :=
  match truthy settings.oidcIssuer with
  | none => (.error (httpException 404 "Not Found"), db)
  | some _ =>
    match truthy query.code, truthy query.state with
    | some code, some state =>
      match splitStateCookie query.stateCookie with
      | none => (.error (httpException 400 "missing oidc state cookie"), db)
      | some (savedState, nonce) =>
        if savedState ≠ state then (.error (httpException 400 "oidc state mismatch"), db)
        else
          match exchange code nonce with
          | .error exc => (.error exc, db)
          | .ok claims =>
            match truthy claims.email, truthy claims.sub with
            | some email, some sub =>
              match signInOidc hashKey settings fresh claims sub email raw now db with
              | .error exc => (.error exc, db)
              | .ok db' => (.ok (), db')
            | _, _ => (.error (httpException 400 "id token missing required email/sub claim"), db)
    | _, _ => (.error (httpException 400 "missing code or state"), db)

end

/-- A datetime of a JSON body. -/
inductive BodyTime
  | naive (t : Timestamp)
  | aware (t : Timestamp)
deriving DecidableEq, Repr

/-- `UserPatch`: a field is unset, null or a value. -/
structure UserPatch where
  isAdmin : Option (Option Bool) := none
  disabledAt : Option (Option BodyTime) := none
  dailyCapUsdOverride : Option (Option ℚ) := none

/-- The `disabled_at` a patch writes.  The column is bound without a time zone, so a new aware value
is refused. -/
def patchDisabledAt (old : Option Timestamp) : Option (Option BodyTime) → Except PyError (Option Timestamp)
  | none => .ok old
  | some none => .ok none
  | some (some (.naive t)) => .ok (some t)
  | some (some (.aware t)) =>
    if old = some t then .ok old else .error ⟨"DBAPIError", "can't subtract offset-naive and offset-aware datetimes"⟩

/-- `update_user(user_id, body, session)`. -/
def updateUser (userId : Uuid) (body : UserPatch) (db : Db) : Except PyError User × Db :=
  match selectOne User.id userId db.users with
  | none => (.error (httpException 404 "user not found"), db)
  | some user =>
    match patchDisabledAt user.disabledAt body.disabledAt, body.isAdmin with
    | .error exc, _ => (.error exc, db)
    | .ok _, some none => (.error ⟨"IntegrityError", "null value in column is_admin"⟩, db)
    | .ok disabledAt, isAdmin =>
      let user' := { user with
        isAdmin := (isAdmin.join).getD user.isAdmin
        disabledAt := disabledAt
        dailyCapUsdOverride := body.dailyCapUsdOverride.getD user.dailyCapUsdOverride }
      (.ok user', { db with users := updateWhere (fun u => u.id = userId) (fun _ => user') db.users })

/-- `scripts/create_admin.py`. -/
def createAdmin (fresh : Uuid) (email passwordHash : String) (reset : Bool) (db : Db) : Db :=
  match selectOne User.email email db.users with
  | none =>
    if db.users.any fun u => u.id = fresh then db
    else { db with
      users := db.users ++ [⟨fresh, none, email, some "Admin", true, some passwordHash, none, none⟩] }
  | some user =>
    if reset then
      { db with
        users := updateWhere (fun u => u.id = user.id)
          (fun u => { u with passwordHash := some passwordHash, isAdmin := true }) db.users }
    else db

/-- A new key row: `scripts/create_api_key.py` leaves `user_id` null, an operator may bind it. -/
def createApiKey (key : ApiKey) (db : Db) : Db :=
  if (db.apiKeys.any fun k => k.keyHash = key.keyHash) ∨
      (∃ d ∈ key.userId, ∀ u ∈ db.users, u.id ≠ d) then db
  else { db with apiKeys := db.apiKeys ++ [key] }

end ProRag
