import ProRag.Http
import ProRag.Models
import ProRag.Settings

/-!
# Who a request acts for

A guarded route resolves the caller twice: `require_auth` lets the request in, `current_user`
then names the principal, and each reads the clock on its own.  No principal means that nothing
is filtered.
-/

namespace ProRag

open Framework

/-- What `str.strip` removes; header values are Latin-1. -/
def isStripped (c : Char) : Bool :=
  let n := c.toNat
  decide ((9 ≤ n ∧ n ≤ 13) ∨ (28 ≤ n ∧ n ≤ 32) ∨ n = 133 ∨ n = 160)

def strip (cs : List Char) : List Char :=
  ((cs.dropWhile isStripped).reverse.dropWhile isStripped).reverse

/-- The token of a `Bearer` header. -/
def bearerToken (header : String) : Option String :=
  if "Bearer ".toList.isPrefixOf header.toList then
    some (String.ofList (strip (header.toList.drop 7)))
  else none

section

variable (hashKey : String → String)

/-- `resolve_session_token(raw_token, session)`. -/
def resolveSessionToken (raw : String) (db : Db) (now : Timestamp) : Option Session :=
  match selectOne Session.tokenHash (hashKey raw) db.sessions with
  | none => none
  | some row => if row.revokedAt.isSome ∨ row.expiresAt ≤ now then none else some row

/-- `_session_from_cookie(request, session)`. -/
def sessionFromCookie (req : Request) (db : Db) (now : Timestamp) : Option Session :=
  match req.sessionCookie with
  | none => none
  | some raw => if raw = "" then none else resolveSessionToken hashKey raw db now

/-- `_api_key_from_header(request, session)`. -/
def apiKeyFromHeader (req : Request) (db : Db) : Option ApiKey :=
  (bearerToken req.authorization).bind fun presented =>
    selectOne ApiKey.keyHash (hashKey presented) db.apiKeys

/-- `key.collection and requested_collection and requested_collection != key.collection`. -/
def outOfScope (key : ApiKey) (requested : Option String) : Bool :=
  match key.collection, requested with
  | some scope, some asked => scope ≠ "" ∧ asked ≠ "" ∧ asked ≠ scope
  | _, _ => false

/-- `require_api_key(request, session)`. -/
def requireApiKey (settings : Settings) (req : Request) (db : Db) : Except PyError (Option ApiKey) :=
  if !settings.authEnabled then .ok none
  else
    match apiKeyFromHeader hashKey req db with
    | none => .error (httpException 401
        (if req.authorization = "" then "missing bearer token" else "invalid api key"))
    | some key =>
      if outOfScope key req.collectionParam then
        .error (httpException 403 "api key not scoped to this collection")
      else .ok (some key)

/-- `require_auth(request, session)`. -/
def requireAuth (settings : Settings) (req : Request) (db : Db) (now : Timestamp) :
    Except PyError (Option ApiKey) :=
  if !settings.authEnabled then .ok none
  else
    match sessionFromCookie hashKey req db now with
    | some _ => .ok none
    | none => requireApiKey hashKey settings req db

/-- `current_user(request, session)`. -/
def currentUser (req : Request) (db : Db) (now : Timestamp) : Option User :=
  match sessionFromCookie hashKey req db now with
  | some sess => selectOne User.id sess.userId db.users
  | none =>
    match apiKeyFromHeader hashKey req db with
    | some key => key.userId.bind fun d => selectOne User.id d db.users
    | none => none

/-- The principal a guarded handler runs with; the guard is evaluated at `t1`, the principal at `t2`. -/
def servedAs (settings : Settings) (req : Request) (db : Db) (t1 t2 : Timestamp) :
    Except PyError (Option User) :=
  match requireAuth hashKey settings req db t1 with
  | .error exc => .error exc
  | .ok _ => .ok (currentUser hashKey req db t2)

end

/-- `require_admin(user)`. -/
def requireAdmin (settings : Settings) (user : Option User) : Except PyError Unit :=
  if !settings.authEnabled then .ok ()
  else
    match user with
    | some u => if u.isAdmin then .ok () else .error (httpException 403 "admin access required")
    | none => .error (httpException 403 "admin access required")

/-- What Postgres enforces on the identity tables: keys, and the foreign keys into `users`. -/
structure Db.IdentityOk (db : Db) : Prop where
  userId : UniqueOn User.id db.users
  sessionUser : ∀ s ∈ db.sessions, ∃ u ∈ db.users, u.id = s.userId
  keyUser : ∀ k ∈ db.apiKeys, ∀ d, k.userId = some d → ∃ u ∈ db.users, u.id = d

variable {hashKey : String → String} {settings : Settings} {req : Request} {db : Db} {t1 t2 now : Timestamp}

theorem resolveSessionToken_eq_some {raw : String} {sess : Session} :
    resolveSessionToken hashKey raw db now = some sess ↔
      selectOne Session.tokenHash (hashKey raw) db.sessions = some sess ∧ sess.revokedAt = none ∧
        now < sess.expiresAt := by
  unfold resolveSessionToken
  cases h : selectOne Session.tokenHash (hashKey raw) db.sessions with
  | none => simp
  | some row =>
    by_cases hdead : row.revokedAt.isSome ∨ row.expiresAt ≤ now
    · simp only [hdead, ↓reduceIte, Option.some.injEq, reduceCtorEq, false_iff, not_and]
      rintro rfl hrev
      rcases hdead with hsome | hle
      · simp [hrev] at hsome
      · exact Int.not_lt.mpr hle
    · simp only [hdead, ↓reduceIte, Option.some.injEq]
      constructor
      · rintro rfl
        obtain ⟨hrev, hlt⟩ := not_or.mp hdead
        exact ⟨rfl, by simpa using hrev, Int.not_le.mp hlt⟩
      · exact And.left

theorem sessionFromCookie_later {sess : Session} (h : sessionFromCookie hashKey req db t1 = some sess) :
    sessionFromCookie hashKey req db t2 = if t2 < sess.expiresAt then some sess else none := by
  unfold sessionFromCookie at *
  cases hc : req.sessionCookie with
  | none => simp [hc] at h
  | some raw =>
    by_cases hraw : raw = ""
    · simp [hc, hraw] at h
    · simp only [hc, hraw, ↓reduceIte] at h ⊢
      obtain ⟨hsel, hrev, _⟩ := resolveSessionToken_eq_some.mp h
      split
      · rename_i hlt
        exact resolveSessionToken_eq_some.mpr ⟨hsel, hrev, hlt⟩
      · rename_i hge
        simp only [resolveSessionToken, hsel]
        rw [if_pos]
        exact Or.inr (Int.not_lt.mp hge)

theorem sessionFromCookie_mem {sess : Session} (h : sessionFromCookie hashKey req db now = some sess) :
    sess ∈ db.sessions := by
  unfold sessionFromCookie at h
  split at h
  · cases h
  · split at h
    · cases h
    · exact (selectOne_mem (resolveSessionToken_eq_some.mp h).1).1

theorem apiKeyFromHeader_mem {key : ApiKey} (h : apiKeyFromHeader hashKey req db = some key) :
    key ∈ db.apiKeys := by
  obtain ⟨presented, _, hsel⟩ := Option.bind_eq_some_iff.mp h
  exact (selectOne_mem hsel).1

theorem Db.IdentityOk.user_isSome {d : Uuid} (h : ∃ u ∈ db.users, u.id = d) :
    selectOne User.id d db.users ≠ none := by
  obtain ⟨u, hu, hid⟩ := h
  intro hnone
  exact selectOne_eq_none.mp hnone u hu hid

/-- A request let in by its live session is served as no principal exactly when the session has
expired in between and no user-bound key is presented. -/
theorem servedAs_session_iff (hok : db.IdentityOk) (hauth : settings.authEnabled = true) {sess : Session}
    (hlive : sessionFromCookie hashKey req db t1 = some sess) :
    servedAs hashKey settings req db t1 t2 ≠ .ok none ↔
      t2 < sess.expiresAt ∨ ∃ key d, apiKeyFromHeader hashKey req db = some key ∧ key.userId = some d := by
  have hserved : servedAs hashKey settings req db t1 t2 = .ok (currentUser hashKey req db t2) := by
    simp [servedAs, requireAuth, hauth, hlive]
  have hne : servedAs hashKey settings req db t1 t2 ≠ .ok none ↔ currentUser hashKey req db t2 ≠ none := by
    rw [hserved]
    simp
  rw [hne, currentUser, sessionFromCookie_later hlive]
  by_cases hlt : t2 < sess.expiresAt
  · have huser := Db.IdentityOk.user_isSome (hok.sessionUser sess (sessionFromCookie_mem hlive))
    simp [hlt, huser]
  · simp only [hlt, ↓reduceIte, false_or]
    cases hkey : apiKeyFromHeader hashKey req db with
    | none => simp
    | some key =>
      cases hu : key.userId with
      | none => simp [hu]
      | some d =>
        have huser := Db.IdentityOk.user_isSome (hok.keyUser key (apiKeyFromHeader_mem hkey) d hu)
        simp [hu, huser]

/-- One user, whose session expires at instant `100`. -/
def expiringDb : Db :=
  { Db.empty with
    users := [⟨1, none, "a@example.com", none, false, none, none, none⟩]
    sessions := [⟨"ba7816bf8f01cfea414140de5dae2223b00361a396177a9cb410ff61f20015ad", 1, 100, none⟩] }

/-- The digest of the cookie token `abc`. -/
def abcHash (_ : String) : String := "ba7816bf8f01cfea414140de5dae2223b00361a396177a9cb410ff61f20015ad"

theorem expiringDb_ok : expiringDb.IdentityOk := by
  refine ⟨List.nodup_singleton _, ?_, ?_⟩
  · intro s hs
    obtain rfl := List.mem_singleton.mp hs
    exact ⟨_, List.mem_singleton.mpr rfl, rfl⟩
  · intro k hk
    cases hk

theorem servedAs_session_iff_expiring :
    servedAs abcHash { authEnabled := true } ⟨some "abc", "", none⟩ expiringDb 98 99 ≠ .ok none ↔
      (99 : Timestamp) < 100 ∨
        ∃ key d, apiKeyFromHeader abcHash ⟨some "abc", "", none⟩ expiringDb = some key ∧ key.userId = some d :=
  servedAs_session_iff expiringDb_ok rfl
    (show sessionFromCookie abcHash ⟨some "abc", "", none⟩ expiringDb 98 = some ⟨_, 1, 100, none⟩ from rfl)

/-- The guard passes at `99` on a live session, and the handler runs with no principal at `100`. -/
theorem servedAs_superPrincipal :
    sessionFromCookie abcHash ⟨some "abc", "", none⟩ expiringDb 99 ≠ none ∧
      servedAs abcHash { authEnabled := true } ⟨some "abc", "", none⟩ expiringDb 99 100 = .ok none := by
  constructor
  · simp only [ne_eq]
    intro h
    cases h
  · rfl

end ProRag
