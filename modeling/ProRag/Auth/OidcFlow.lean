import ProRag.Auth.Delegation
import ProRag.Auth.Sessions

/-!
# Signing in through the issuer

Browsers, the server and the issuer.  A browser may be sent to the callback with any code and any state, the issuer
answers anyone's authorization request, and callbacks overlap.
-/

namespace ProRag

open Framework

structure CookieJar where
  oidcState : Option String := none
  session : Option String := none

/-- What `oidc_login` mints, and the browser that it redirects. -/
structure OidcLogin where
  browser : Nat
  state : String
  nonce : String

/-- `f"{state}:{nonce}"`. -/
def OidcLogin.cookie (l : OidcLogin) : String := l.state ++ ":" ++ l.nonce

/-- An id token whose signature and registered claims hold. -/
structure IdToken where
  nonce : Option String
  claims : OidcClaims

/-- A code, and the id token in the answer that it is exchanged for. -/
structure IssuedCode where
  code : String
  idToken : Option IdToken

/-- The codes of the issuer, and those that it has taken. -/
structure Issuer where
  codes : List IssuedCode := []
  spent : List String := []

/-- The issuer answers, fails or refuses the code, or is not understood once it has taken it. -/
inductive IssuerLink
  | up
  | down (exc : PyError)
  | lost (exc : PyError)

/-- The nonce check of `_verify_id_token(id_token, meta, nonce)`. -/
def verifyIdToken (token : IdToken) (nonce : String) : Except PyError OidcClaims :=
  if nonce ≠ "" ∧ token.nonce ≠ some nonce then .error (httpException 400 "oidc nonce mismatch") else .ok token.claims

/-- The answer of `fetch_token`, read. -/
def readIdToken (link : IssuerLink) (idToken : Option IdToken) (nonce : String) : Except PyError OidcClaims :=
  match link, idToken with
  | .lost exc, _ | .down exc, _ => .error exc
  | .up, none => .error (httpException 400 "oidc token response missing id_token")
  | .up, some token => verifyIdToken token nonce

/-- `_exchange_code_for_claims(code, redirect_uri, nonce)`, and the issuer behind it. -/
def exchangeCode (issuer : Issuer) (link : IssuerLink) (code nonce : String) : Except PyError OidcClaims × Issuer :=
  match link with
  | .down exc => (.error exc, issuer)
  | link =>
    match issuer.codes.find? fun c => c.code = code with
    | none => (.error ⟨"OAuthError", "invalid_grant"⟩, issuer)
    | some c => (readIdToken link c.idToken nonce, { issuer with spent := code :: issuer.spent })

section

variable (settings : Settings)

/-- The code and the nonce that `oidc_callback` hands to the exchange, where it comes to that. -/
def callbackExchange (query : OidcQuery) : Option (String × String) :=
  match truthy settings.oidcIssuer, truthy query.code, truthy query.state, splitStateCookie query.stateCookie with
  | some _, some code, some state, some (savedState, nonce) => if savedState ≠ state then none else some (code, nonce)
  | _, _, _, _ => none

end

/-- How a browser has signed in. -/
inductive SignInProof
  | password
  | idToken (code nonce : String)

structure SignIn where
  browser : Nat
  userId : Uuid
  raw : String
  proof : SignInProof

/-- The accounts, the browsers, the issuer, and the callbacks on their way.  `logins` and `signIns` are histories. -/
structure OidcWorld where
  accounts : SessionWorld
  jar : Nat → CookieJar := fun _ => {}
  logins : List OidcLogin := []
  issuer : Issuer := {}
  pending : List (Nat × OidcQuery) := []
  signIns : List SignIn := []

inductive OidcEvent
  | oidcLogin (browser : Nat) (state nonce : String)
  | consent (issued : IssuedCode)
  | callback (browser : Nat) (code state : Option String)
  | serve (i : Nat) (link : IssuerLink) (fresh : OidcFresh) (raw : String) (now : Timestamp)
  | expire (browser : Nat)
  | login (browser : Nat) (email password raw : String) (now : Timestamp)
  | logout (browser : Nat) (now : Timestamp)
  | account (op : AccountOp)

/-- Operations that answer no browser. -/
def AccountOp.background : AccountOp → Bool
  | .login .. | .oidcCallback .. => false
  | _ => true

def issuedUsers (events : List SessionEvent) : List Uuid := events.filterMap fun e => match e with
  | .issued _ (d, _) => some d
  | .revoked _ => none

namespace OidcWorld

/-- A browser's cookies change. -/
def setJar (w : OidcWorld) (b : Nat) (f : CookieJar → CookieJar) : OidcWorld :=
  { w with jar := fun b' => if b' = b then f (w.jar b') else w.jar b' }

/-- An answer with a session cookie, if the handler has come to its end. -/
def signIn (w : OidcWorld) (b : Nat) (raw : String) (proof : SignInProof) (events : List SessionEvent) (ok : Bool)
    (f : CookieJar → CookieJar) : OidcWorld :=
  if ok then
    { w.setJar b f with signIns := w.signIns ++ (issuedUsers events).map fun d => ⟨b, d, raw, proof⟩ }
  else w

end OidcWorld

variable (hashKey : String → String) (verifyPassword : String → String → Bool) (settings : Settings)

/-- An operation on the accounts. -/
def OidcWorld.act (w : OidcWorld) (op : AccountOp) : Option OidcWorld :=
  (sessionStep hashKey verifyPassword settings w.accounts op).map fun accounts => { w with accounts := accounts }

/-- A callback is served: where it passes the checks of its cookie, the code is exchanged and the user signed in. -/
def OidcWorld.serve (w : OidcWorld) (b : Nat) (query : OidcQuery) (link : IssuerLink) (fresh : OidcFresh) (raw : String)
    (now : Timestamp) : Option OidcWorld :=
  match callbackExchange settings query with
  | none => some w
  | some (code, nonce) =>
    let exchanged := exchangeCode w.issuer link code nonce
    let op : AccountOp := .oidcCallback query exchanged.1 fresh raw now
    let ok := (oidcCallback hashKey settings query (fun _ _ => exchanged.1) fresh raw now w.accounts.db).1.isOk
    let events := sessionEvents hashKey verifyPassword settings w.accounts.db op
    (OidcWorld.act hashKey verifyPassword settings { w with issuer := exchanged.2 } op).map fun w =>
      w.signIn b raw (.idToken code nonce) events ok fun jar => { jar with oidcState := none, session := some raw }

/-- States and nonces are fresh and have no colon in front, codes are fresh. -/
def oidcStep (w : OidcWorld) : OidcEvent → Option OidcWorld
  | .oidcLogin b state nonce =>
    if (truthy settings.oidcIssuer).isNone then some w
    else if ':' ∈ state.toList ∨ nonce = "" ∨ ∃ l ∈ w.logins, l.nonce = nonce then none
    else
      let minted : OidcLogin := ⟨b, state, nonce⟩
      some (OidcWorld.setJar { w with logins := w.logins ++ [minted] } b fun jar =>
        { jar with oidcState := some minted.cookie })
  | .consent issued =>
    if ∃ c ∈ w.issuer.codes, c.code = issued.code then none
    else some { w with issuer := { w.issuer with codes := w.issuer.codes ++ [issued] } }
  | .callback b code state => some { w with pending := w.pending ++ [(b, ⟨code, state, (w.jar b).oidcState⟩)] }
  | .serve i link fresh raw now =>
    w.pending[i]?.bind fun p =>
      OidcWorld.serve hashKey verifyPassword settings { w with pending := w.pending.eraseIdx i } p.1 p.2 link fresh raw now
  | .expire b => some (w.setJar b fun jar => { jar with oidcState := none })
  | .login b email password raw now =>
    let op : AccountOp := .login email password raw now
    let ok := (login hashKey settings verifyPassword email password raw now w.accounts.db).1.isOk
    let events := sessionEvents hashKey verifyPassword settings w.accounts.db op
    (OidcWorld.act hashKey verifyPassword settings w op).map fun w =>
      w.signIn b raw .password events ok fun jar => { jar with session := some raw }
  | .logout b now =>
    (OidcWorld.act hashKey verifyPassword settings w (.logout (w.jar b).session now)).map fun w =>
      w.setJar b fun jar => { jar with session := none }
  | .account op => if op.background then OidcWorld.act hashKey verifyPassword settings w op else none

/-- What the authorization code flow promises of an issuer: it answers no exchange of a code that it has taken before. -/
def CodesSingleUse (w : OidcWorld) : OidcEvent → Prop
  | .serve i .up _ _ _ => ∀ p ∈ w.pending[i]?, ∀ asked ∈ callbackExchange settings p.2, asked.1 ∉ w.issuer.spent
  | _ => True

instance (w : OidcWorld) : ∀ e, Decidable (CodesSingleUse settings w e)
  | .serve i .up _ _ _ =>
    inferInstanceAs (Decidable (∀ p ∈ w.pending[i]?, ∀ asked ∈ callbackExchange settings p.2, asked.1 ∉ w.issuer.spent))
  | .serve _ (.down _) _ _ _ | .serve _ (.lost _) _ _ _ => isTrue trivial
  | .oidcLogin .. | .consent _ | .callback .. | .expire _ | .login .. | .logout .. | .account _ => isTrue trivial

/-- No session, no cookie and no code. -/
def OidcStart (w : OidcWorld) : Prop :=
  UniqueOn User.id w.accounts.db.users ∧ SessionStart w.accounts ∧ w = { accounts := w.accounts }

/-- The user has signed in from the browser, with a password or on an id token that answers an OIDC login of this
browser. -/
inductive SignedInFrom (w : OidcWorld) (b : Nat) (user : User) : Prop
  | password {raw : String} (signedIn : ⟨b, user.id, raw, .password⟩ ∈ w.signIns)
  | idToken {raw : String} {l : OidcLogin} {c : IssuedCode} {token : IdToken}
      (signedIn : ⟨b, user.id, raw, .idToken c.code l.nonce⟩ ∈ w.signIns) (login : l ∈ w.logins)
      (browser : l.browser = b) (issued : c ∈ w.issuer.codes) (answer : c.idToken = some token)
      (nonce : token.nonce = some l.nonce) (subject : token.claims.sub = user.externalSubject)

def SignIn.code (s : SignIn) : Option String :=
  match s.proof with
  | .password => none
  | .idToken code _ => some code

/-- A sign-in has its session, and on an id token its login and its code. -/
structure SignInBacked (w : OidcWorld) (s : SignIn) : Prop where
  issued : ∃ expiry, .issued (hashKey s.raw) (s.userId, expiry) ∈ w.accounts.log
  backed : ∀ code nonce, s.proof = .idToken code nonce → code ∈ w.issuer.spent ∧
    ∃ l ∈ w.logins, l.browser = s.browser ∧ l.nonce = nonce ∧
    ∃ c ∈ w.issuer.codes, c.code = code ∧ ∃ token, c.idToken = some token ∧ token.nonce = some nonce ∧
    ∃ u ∈ w.accounts.db.users, u.id = s.userId ∧ u.externalSubject = token.claims.sub

/-- What holds along the runs. -/
structure OidcInv (w : OidcWorld) : Prop where
  users : UniqueOn User.id w.accounts.db.users
  recorded : SessionsRecorded w.accounts
  minted : ∀ l ∈ w.logins, ':' ∉ l.state.toList ∧ l.nonce ≠ ""
  cookies : ∀ b value, (w.jar b).oidcState = some value → ∃ l ∈ w.logins, l.browser = b ∧ value = l.cookie
  pending : ∀ p ∈ w.pending, ∀ value, p.2.stateCookie = some value →
    ∃ l ∈ w.logins, l.browser = p.1 ∧ value = l.cookie
  sessions : ∀ b raw, (w.jar b).session = some raw → ∃ s ∈ w.signIns, s.browser = b ∧ s.raw = raw
  signIns : ∀ s ∈ w.signIns, SignInBacked hashKey w s

/-- Users keep their ids and their subjects. -/
def SubjectsKept (db db' : Db) : Prop :=
  ∀ u ∈ db.users, ∃ u' ∈ db'.users, u'.id = u.id ∧ u'.externalSubject = u.externalSubject

variable {hashKey verifyPassword settings} {db db' : Db} {w w' : OidcWorld}

theorem splitStateCookie_cookie {l : OidcLogin} (h : ':' ∉ l.state.toList) :
    splitStateCookie (some l.cookie) = some (l.state, l.nonce) := by
  have hchars : l.cookie.toList = l.state.toList ++ ':' :: l.nonce.toList := by
    simp [OidcLogin.cookie, String.toList_append]
  have hne : l.cookie ≠ "" := by
    intro hempty
    rw [hempty] at hchars
    simp at hchars
  have htake : l.cookie.toList.takeWhile (· ≠ ':') = l.state.toList := by
    rw [hchars, List.takeWhile_append_of_pos]
    · simp
    · intro c hc
      simp only [decide_eq_true_eq]
      rintro rfl
      exact h hc
  have hdrop : l.cookie.toList.dropWhile (· ≠ ':') = ':' :: l.nonce.toList := by
    rw [hchars, List.dropWhile_append_of_pos]
    · simp
    · intro c hc
      simp only [decide_eq_true_eq]
      rintro rfl
      exact h hc
  simp only [splitStateCookie, truthy, Option.filter_some, ne_eq, hne, not_false_eq_true, decide_true, if_true,
    Option.bind_some, htake, hdrop, List.tail_cons, String.ofList_toList]
  simp [hchars]

theorem SubjectsKept.of_users_eq (h : db'.users = db.users) : SubjectsKept db db' := by
  intro u hu
  exact ⟨u, by rw [h]; exact hu, rfl, rfl⟩

theorem SubjectsKept.insert {u : User} (h : db'.users = db.users ++ [u]) : SubjectsKept db db' := by
  intro a ha
  exact ⟨a, by rw [h]; exact List.mem_append_left _ ha, rfl, rfl⟩

theorem SubjectsKept.update {p : User → Bool} {f : User → User} (h : db'.users = updateWhere p f db.users)
    (hf : ∀ u ∈ db.users, p u = true → (f u).id = u.id ∧ (f u).externalSubject = u.externalSubject) :
    SubjectsKept db db' := by
  intro u hu
  refine ⟨_, by rw [h]; exact mem_updateWhere.mpr ⟨u, hu, rfl⟩, ?_⟩
  by_cases hp : p u = true
  · simpa [hp] using hf u hu hp
  · simp [hp]

theorem upsertOidcUser_subjects {fresh : OidcFresh} {sub email : String} {name : Option String} {d : Uuid}
    (h : upsertOidcUser fresh sub email name db = .ok (d, db')) : SubjectsKept db db' := by
  unfold upsertOidcUser at h
  split at h
  · split at h
    · cases h
    · obtain ⟨rfl, rfl⟩ := Prod.mk.inj (Except.ok.inj h)
      exact .insert rfl
  · split at h
    · cases h
    · obtain ⟨rfl, rfl⟩ := Prod.mk.inj (Except.ok.inj h)
      exact .update rfl fun u _ _ => ⟨rfl, rfl⟩

theorem signInOidc_subjects {fresh : OidcFresh} {claims : OidcClaims} {sub email raw : String} {now : Timestamp}
    (h : signInOidc hashKey settings fresh claims sub email raw now db = .ok db') : SubjectsKept db db' := by
  obtain ⟨⟨d, db1⟩, hup, h⟩ := bind_eq_ok.mp h
  obtain ⟨db2, hseed, hcreate⟩ := bind_eq_ok.mp h
  have hseeded : db2.users = db1.users := by
    unfold seedClaimedGroups at hseed
    split at hseed
    · obtain rfl := Except.ok.inj hseed
      rfl
    · exact (seedIdpGroups_ok hseed).1
  intro u hu
  rw [(createSession_ok hcreate).1, hseeded]
  exact upsertOidcUser_subjects hup u hu

theorem accountStep_subjects (h : UniqueOn User.id db.users) {op : AccountOp}
    (hs : accountStep hashKey verifyPassword settings db op = some db') : SubjectsKept db db' := by
  cases op with
  | createAdmin fresh email passwordHash reset =>
    obtain rfl := Option.some.inj hs
    unfold createAdmin
    split
    · split
      · exact .of_users_eq rfl
      · exact .insert rfl
    · split
      · exact .update rfl fun u _ _ => ⟨rfl, rfl⟩
      · exact .of_users_eq rfl
  | createApiKey key =>
    obtain rfl := Option.some.inj hs
    exact .of_users_eq (createApiKey_same key).1
  | login email password raw now =>
    obtain rfl := Option.some.inj hs
    exact .of_users_eq (login_users email password raw now)
  | logout cookie now =>
    obtain rfl := Option.some.inj hs
    exact .of_users_eq (logout_users cookie now)
  | oidcCallback query exchanged fresh raw now =>
    obtain rfl := Option.some.inj hs
    rcases oidcCallback_cases hashKey settings query exchanged fresh raw now db with
      ⟨exc, hexc⟩ | ⟨claims, sub, email, db1, _, _, hsign, hok⟩
    · rw [hexc]
      exact .of_users_eq rfl
    · rw [hok]
      exact signInOidc_subjects hsign
  | updateUser d body =>
    obtain rfl := Option.some.inj hs
    unfold updateUser
    split
    · exact .of_users_eq rfl
    rename_i user hsel
    obtain ⟨huser, rfl⟩ := selectOne_mem hsel
    split
    · exact .of_users_eq rfl
    · exact .of_users_eq rfl
    · refine .update rfl fun u hu hid => ?_
      obtain rfl := h.eq_of_key hu huser (of_decide_eq_true hid)
      exact ⟨rfl, rfl⟩
  | request req now =>
    obtain rfl := Option.some.inj hs
    exact .of_users_eq rfl

theorem callbackExchange_eq_some {query : OidcQuery} {code nonce : String}
    (h : callbackExchange settings query = some (code, nonce)) :
    truthy query.code = some code ∧ ∃ state, splitStateCookie query.stateCookie = some (state, nonce) := by
  unfold callbackExchange at h
  split at h
  · rename_i hcode _ hsplit
    split at h
    · cases h
    · obtain ⟨rfl, rfl⟩ := Prod.mk.inj (Option.some.inj h)
      exact ⟨hcode, _, hsplit⟩
  · cases h

/-- The exchange is asked once, for the code and the nonce of `callbackExchange`, or the callback is refused. -/
theorem oidcCallback_exchange (query : OidcQuery) (exchange : String → String → Except PyError OidcClaims)
    (fresh : OidcFresh) (raw : String) (now : Timestamp) :
    (∃ exc, callbackExchange settings query = none ∧
      oidcCallback hashKey settings query exchange fresh raw now db = (.error exc, db)) ∨
    ∃ code nonce, callbackExchange settings query = some (code, nonce) ∧
      oidcCallback hashKey settings query exchange fresh raw now db =
        oidcCallback hashKey settings query (fun _ _ => exchange code nonce) fresh raw now db := by
  unfold callbackExchange oidcCallback
  cases hissuer : truthy settings.oidcIssuer with
  | none => exact Or.inl ⟨_, by simp, rfl⟩
  | some issuer =>
    cases hcode : truthy query.code with
    | none => exact Or.inl ⟨_, by simp, rfl⟩
    | some code =>
      cases hstate : truthy query.state with
      | none => exact Or.inl ⟨_, by simp, rfl⟩
      | some state =>
        cases hsplit : splitStateCookie query.stateCookie with
        | none => exact Or.inl ⟨_, by simp, rfl⟩
        | some saved =>
          by_cases hsame : saved.1 ≠ state
          · exact Or.inl ⟨_, by simp [hsame], by simp [hsame]; rfl⟩
          · exact Or.inr ⟨code, saved.2, by simp [hsame], by simp [hsame]⟩

theorem readIdToken_ok {link : IssuerLink} {idToken : Option IdToken} {nonce : String} {claims : OidcClaims}
    (h : readIdToken link idToken nonce = .ok claims) (hnonce : nonce ≠ "") :
    ∃ token, idToken = some token ∧ token.nonce = some nonce ∧ token.claims = claims := by
  unfold readIdToken at h
  split at h
  · cases h
  · cases h
  · cases h
  · rename_i token
    unfold verifyIdToken at h
    split at h
    · cases h
    · rename_i hsame
      exact ⟨token, rfl, by simpa [hnonce] using hsame, Except.ok.inj h⟩

theorem exchangeCode_spec (issuer : Issuer) (link : IssuerLink) (code nonce : String) :
    (exchangeCode issuer link code nonce).2.codes = issuer.codes ∧
      (∀ spent ∈ issuer.spent, spent ∈ (exchangeCode issuer link code nonce).2.spent) ∧
      ∀ claims, (exchangeCode issuer link code nonce).1 = .ok claims → nonce ≠ "" → link = .up ∧
        code ∈ (exchangeCode issuer link code nonce).2.spent ∧
        ∃ c ∈ issuer.codes, c.code = code ∧
          ∃ token, c.idToken = some token ∧ token.nonce = some nonce ∧ token.claims = claims := by
  unfold exchangeCode
  split
  · exact ⟨rfl, fun _ h => h, by simp⟩
  · split
    · exact ⟨rfl, fun _ h => h, by simp⟩
    · rename_i c hfind
      have hcode : c.code = code := by simpa using List.find?_some hfind
      refine ⟨rfl, fun _ h => List.mem_cons_of_mem _ h, fun claims hread hnonce => ⟨?_, List.mem_cons_self, ?_⟩⟩
      · cases link with
        | up => rfl
        | down exc => cases hread
        | lost exc => cases hread
      · exact ⟨c, List.mem_of_find?_eq_some hfind, hcode, readIdToken_ok hread hnonce⟩

theorem oidcCallback_issues (verifyPassword : String → String → Bool) {log : List SessionEvent}
    (h : SessionsRecorded ⟨db, log⟩) {query : OidcQuery} {exchanged : Except PyError OidcClaims} {fresh : OidcFresh}
    {raw : String} {now : Timestamp}
    (hok : (oidcCallback hashKey settings query (fun _ _ => exchanged) fresh raw now db).1.isOk = true) :
    ∃ claims user, exchanged = .ok claims ∧ user.externalSubject = claims.sub ∧
      user ∈ (oidcCallback hashKey settings query (fun _ _ => exchanged) fresh raw now db).2.users ∧
      sessionEvents hashKey verifyPassword settings db (.oidcCallback query exchanged fresh raw now) =
        [.issued (hashKey raw) (user.id, sessionExpiry settings now)] := by
  rcases oidcCallback_cases hashKey settings query exchanged fresh raw now db with
    ⟨exc, hexc⟩ | ⟨claims, sub, email, db', rfl, hsub, hsign, hend⟩
  · rw [hexc] at hok
    cases hok
  · obtain ⟨user, huser, _⟩ := signInOidc_recorded h hsign
    obtain ⟨hmem, hsubject⟩ := selectOne_mem huser
    refine ⟨claims, user, rfl, hsubject.trans hsub.symm, by rw [hend]; exact hmem, ?_⟩
    simp [sessionEvents, hend, hsub, huser]

theorem login_issues {email password raw : String} {now : Timestamp}
    (hok : (login hashKey settings verifyPassword email password raw now db).1.isOk = true) :
    ∃ user : User, sessionEvents hashKey verifyPassword settings db (.login email password raw now) =
      [.issued (hashKey raw) (user.id, sessionExpiry settings now)] := by
  unfold sessionEvents
  cases hsel : selectOne User.email email db.users with
  | none =>
    simp [login, hsel, Except.isOk, Except.toBool] at hok
  | some user =>
    cases hend : (login hashKey settings verifyPassword email password raw now db).1 with
    | error exc =>
      rw [hend] at hok
      cases hok
    | ok shown => exact ⟨user, by simp [hend, hsel]⟩

structure Grows (w w' : OidcWorld) : Prop where
  log : ∀ e ∈ w.accounts.log, e ∈ w'.accounts.log
  logins : ∀ l ∈ w.logins, l ∈ w'.logins
  codes : ∀ c ∈ w.issuer.codes, c ∈ w'.issuer.codes
  spent : ∀ code ∈ w.issuer.spent, code ∈ w'.issuer.spent
  users : SubjectsKept w.accounts.db w'.accounts.db

theorem SignInBacked.grows {s : SignIn} (h : SignInBacked hashKey w s) (hgrows : Grows w w') :
    SignInBacked hashKey w' s where
  issued := h.issued.imp fun _ => hgrows.log _
  backed code nonce hproof := by
    obtain ⟨hspent, l, hl, hbrowser, hnonce, c, hc, hcode, token, htoken, hanswer, u, hu, hid, hsubject⟩ :=
      h.backed code nonce hproof
    obtain ⟨u', hu', hid', hsubject'⟩ := hgrows.users u hu
    exact ⟨hgrows.spent _ hspent, l, hgrows.logins _ hl, hbrowser, hnonce, c, hgrows.codes _ hc, hcode, token, htoken,
      hanswer, u', hu', hid'.trans hid, hsubject'.trans hsubject⟩

theorem act_spec (husers : UniqueOn User.id w.accounts.db.users) (hrecorded : SessionsRecorded w.accounts) {op : AccountOp}
    (hs : w.act hashKey verifyPassword settings op = some w') :
    ∃ accounts, w' = { w with accounts := accounts } ∧
      accountStep hashKey verifyPassword settings w.accounts.db op = some accounts.db ∧
      accounts.log = w.accounts.log ++ sessionEvents hashKey verifyPassword settings w.accounts.db op ∧
      UniqueOn User.id accounts.db.users ∧ SessionsRecorded accounts ∧ SubjectsKept w.accounts.db accounts.db := by
  obtain ⟨accounts, hstep, rfl⟩ := Option.map_eq_some_iff.mp hs
  have hrecorded' := sessionStep_recorded hrecorded hstep
  obtain ⟨db', haccount, rfl⟩ := Option.map_eq_some_iff.mp hstep
  exact ⟨_, rfl, haccount, rfl, accountStep_unique husers haccount, hrecorded', accountStep_subjects husers haccount⟩

theorem act_inv (h : OidcInv hashKey w) {op : AccountOp} (hs : w.act hashKey verifyPassword settings op = some w') :
    OidcInv hashKey w' := by
  obtain ⟨accounts, rfl, _, hlog, husers, hrecorded, hsubjects⟩ := act_spec h.users h.recorded hs
  refine { h with users := husers, recorded := hrecorded, signIns := fun s hmem => (h.signIns s hmem).grows ?_ }
  refine ⟨fun e he => ?_, fun _ h => h, fun _ h => h, fun _ h => h, hsubjects⟩
  rw [hlog]
  exact List.mem_append_left _ he

theorem OidcInv.setJar (h : OidcInv hashKey w) {b : Nat} {f : CookieJar → CookieJar}
    (hstate : ∀ value, (f (w.jar b)).oidcState = some value → ∃ l ∈ w.logins, l.browser = b ∧ value = l.cookie)
    (hsession : ∀ raw, (f (w.jar b)).session = some raw → ∃ s ∈ w.signIns, s.browser = b ∧ s.raw = raw) :
    OidcInv hashKey (w.setJar b f) where
  users := h.users
  recorded := h.recorded
  minted := h.minted
  pending := h.pending
  signIns s hs := (h.signIns s hs).grows ⟨fun _ h => h, fun _ h => h, fun _ h => h, fun _ h => h, .of_users_eq rfl⟩
  cookies b' value hvalue := by
    simp only [OidcWorld.setJar] at hvalue
    by_cases hb : b' = b
    · subst hb
      exact hstate value (by simpa using hvalue)
    · exact h.cookies b' value (by simpa [hb] using hvalue)
  sessions b' raw hraw := by
    simp only [OidcWorld.setJar] at hraw
    by_cases hb : b' = b
    · subst hb
      exact hsession raw (by simpa using hraw)
    · exact h.sessions b' raw (by simpa [hb] using hraw)

theorem OidcInv.signedIn (h : OidcInv hashKey w) {s : SignIn} (hback : SignInBacked hashKey w s) :
    OidcInv hashKey { w with signIns := w.signIns ++ [s] } where
  users := h.users
  recorded := h.recorded
  minted := h.minted
  cookies := h.cookies
  pending := h.pending
  sessions b raw hraw := by
    obtain ⟨s', hs', hpair⟩ := h.sessions b raw hraw
    exact ⟨s', List.mem_append_left _ hs', hpair⟩
  signIns s' hs' := by
    have hsame : SignInBacked hashKey w s' := by
      rcases List.mem_append.mp hs' with hs' | hs'
      · exact h.signIns s' hs'
      · rwa [List.mem_singleton.mp hs']
    exact hsame.grows ⟨fun _ h => h, fun _ h => h, fun _ h => h, fun _ h => h, .of_users_eq rfl⟩

theorem OidcInv.signIn (h : OidcInv hashKey w) {b : Nat} {raw token : String} {d : Uuid} {expiry : Timestamp}
    {proof : SignInProof} {f : CookieJar → CookieJar} (hback : SignInBacked hashKey w ⟨b, d, raw, proof⟩)
    (hstate : ∀ jar value, (f jar).oidcState = some value → jar.oidcState = some value)
    (hsession : ∀ jar, (f jar).session = some raw) :
    OidcInv hashKey (w.signIn b raw proof [.issued token (d, expiry)] true f) := by
  have hsigned := h.signedIn hback
  refine hsigned.setJar (b := b) (f := f) (fun value hvalue => ?_) fun raw' hraw => ?_
  · exact hsigned.cookies b value (hstate _ value hvalue)
  · rw [hsession] at hraw
    obtain rfl := Option.some.inj hraw
    exact ⟨⟨b, d, raw, proof⟩, by simp, rfl, rfl⟩

theorem serve_inv (h : OidcInv hashKey w) {b : Nat} {query : OidcQuery}
    (hquery : ∀ value, query.stateCookie = some value → ∃ l ∈ w.logins, l.browser = b ∧ value = l.cookie)
    {link : IssuerLink} {fresh : OidcFresh} {raw : String} {now : Timestamp}
    (hs : w.serve hashKey verifyPassword settings b query link fresh raw now = some w') : OidcInv hashKey w' := by
  unfold OidcWorld.serve at hs
  cases hexchange : callbackExchange settings query with
  | none =>
    rw [hexchange] at hs
    obtain rfl := Option.some.inj hs
    exact h
  | some asked =>
    obtain ⟨code, nonce⟩ := asked
    rw [hexchange] at hs
    obtain ⟨_, state, hsplit⟩ := callbackExchange_eq_some hexchange
    obtain ⟨value, hvalue⟩ : ∃ value, query.stateCookie = some value := by
      cases hcookie : query.stateCookie with
      | none =>
        rw [hcookie] at hsplit
        cases hsplit
      | some value => exact ⟨value, rfl⟩
    obtain ⟨l, hl, hbrowser, rfl⟩ := hquery value hvalue
    obtain ⟨hcolon, hnonce⟩ := h.minted l hl
    rw [hvalue, splitStateCookie_cookie hcolon] at hsplit
    obtain ⟨rfl, rfl⟩ := Prod.mk.inj (Option.some.inj hsplit)
    obtain ⟨hcodes, hspent, htaken⟩ := exchangeCode_spec w.issuer link code l.nonce
    let exchanged := exchangeCode w.issuer link code l.nonce
    have hasked : OidcInv hashKey { w with issuer := exchanged.2 } := by
      refine { h with signIns := fun s hmem => (h.signIns s hmem).grows ?_ }
      exact ⟨fun _ h => h, fun _ h => h, fun c hc => hcodes ▸ hc, hspent, .of_users_eq rfl⟩
    obtain ⟨acted, hact, rfl⟩ := Option.map_eq_some_iff.mp hs
    have hactInv := act_inv hasked hact
    obtain ⟨accounts, rfl, haccount, hlog, _⟩ := act_spec hasked.users hasked.recorded hact
    cases hok : (oidcCallback hashKey settings query (fun _ _ => exchanged.1) fresh raw now w.accounts.db).1.isOk with
    | false =>
      simp only [exchanged] at hok
      simpa [OidcWorld.signIn, hok] using hactInv
    | true =>
      obtain ⟨claims, user, hclaims, hsubject, huser, hevents⟩ := oidcCallback_issues verifyPassword h.recorded hok
      obtain ⟨_, hnowSpent, c, hc, hcode, token, htoken, hanswer, rfl⟩ := htaken claims hclaims hnonce
      rw [hevents] at hlog ⊢
      apply hactInv.signIn
      · refine ⟨⟨sessionExpiry settings now, by rw [hlog]; simp⟩, fun code' nonce' hproof => ?_⟩
        obtain ⟨rfl, rfl⟩ := SignInProof.idToken.inj hproof
        have hmem : user ∈ accounts.db.users := Option.some.inj haccount ▸ huser
        exact ⟨hnowSpent, l, hl, hbrowser, rfl, c, hcodes ▸ hc, hcode, token, htoken, hanswer, user, hmem, rfl,
          hsubject⟩
      · intro jar value hvalue
        cases hvalue
      · intro jar
        rfl

theorem oidcStep_inv (h : OidcInv hashKey w) {e : OidcEvent} (hs : oidcStep hashKey verifyPassword settings w e = some w') :
    OidcInv hashKey w' := by
  cases e with
  | oidcLogin b state nonce =>
    simp only [oidcStep] at hs
    split at hs
    · obtain rfl := Option.some.inj hs
      exact h
    split at hs
    · cases hs
    rename_i hfresh
    obtain ⟨hcolon, hnonce, _⟩ : ':' ∉ state.toList ∧ nonce ≠ "" ∧ _ := by simpa only [not_or] using hfresh
    obtain rfl := Option.some.inj hs
    have hmore : OidcInv hashKey { w with logins := w.logins ++ [⟨b, state, nonce⟩] } := by
      refine { h with
        minted := fun l hl => ?_
        cookies := fun b' value hvalue => ?_
        pending := fun p hp value hvalue => ?_
        signIns := fun s hmem => (h.signIns s hmem).grows ?_ }
      · rcases List.mem_append.mp hl with hl | hl
        · exact h.minted l hl
        · obtain rfl := List.mem_singleton.mp hl
          exact ⟨hcolon, hnonce⟩
      · obtain ⟨l, hl, hcookie⟩ := h.cookies b' value hvalue
        exact ⟨l, List.mem_append_left _ hl, hcookie⟩
      · obtain ⟨l, hl, hcookie⟩ := h.pending p hp value hvalue
        exact ⟨l, List.mem_append_left _ hl, hcookie⟩
      · exact ⟨fun _ h => h, fun l hl => List.mem_append_left _ hl, fun _ h => h, fun _ h => h, .of_users_eq rfl⟩
    apply hmore.setJar
    · intro value hvalue
      obtain rfl := Option.some.inj hvalue
      exact ⟨⟨b, state, nonce⟩, by simp, rfl, rfl⟩
    · exact hmore.sessions b
  | consent issued =>
    simp only [oidcStep] at hs
    split at hs
    · cases hs
    obtain rfl := Option.some.inj hs
    refine { h with signIns := fun s hmem => (h.signIns s hmem).grows ?_ }
    exact ⟨fun _ h => h, fun _ h => h, fun c hc => List.mem_append_left _ hc, fun _ h => h, .of_users_eq rfl⟩
  | callback b code state =>
    obtain rfl := Option.some.inj hs
    refine { h with pending := fun p hp value hvalue => ?_, signIns := fun s hmem => (h.signIns s hmem).grows ?_ }
    · rcases List.mem_append.mp hp with hp | hp
      · exact h.pending p hp value hvalue
      · obtain rfl := List.mem_singleton.mp hp
        exact h.cookies b value hvalue
    · exact ⟨fun _ h => h, fun _ h => h, fun _ h => h, fun _ h => h, .of_users_eq rfl⟩
  | serve i link fresh raw now =>
    obtain ⟨p, hp, hserve⟩ := Option.bind_eq_some_iff.mp hs
    have hrest : OidcInv hashKey { w with pending := w.pending.eraseIdx i } := by
      refine { h with
        pending := fun q hq => h.pending q (List.mem_of_mem_eraseIdx hq)
        signIns := fun s hmem => (h.signIns s hmem).grows ?_ }
      exact ⟨fun _ h => h, fun _ h => h, fun _ h => h, fun _ h => h, .of_users_eq rfl⟩
    exact serve_inv hrest (h.pending p (List.mem_of_getElem? hp)) hserve
  | expire b =>
    obtain rfl := Option.some.inj hs
    exact h.setJar (by simp) (h.sessions b)
  | login b email password raw now =>
    simp only [oidcStep] at hs
    obtain ⟨acted, hact, rfl⟩ := Option.map_eq_some_iff.mp hs
    have hactInv := act_inv h hact
    obtain ⟨accounts, rfl, _, hlog, _⟩ := act_spec h.users h.recorded hact
    cases hok : (login hashKey settings verifyPassword email password raw now w.accounts.db).1.isOk with
    | false => simpa [OidcWorld.signIn] using hactInv
    | true =>
      obtain ⟨user, hevents⟩ := login_issues hok
      rw [hevents] at hlog ⊢
      apply hactInv.signIn
      · exact ⟨⟨sessionExpiry settings now, by rw [hlog]; simp⟩, fun _ _ hproof => by cases hproof⟩
      · exact fun jar value hvalue => hvalue
      · intro jar
        rfl
  | logout b now =>
    simp only [oidcStep] at hs
    obtain ⟨acted, hact, rfl⟩ := Option.map_eq_some_iff.mp hs
    have hactInv := act_inv h hact
    exact hactInv.setJar (hactInv.cookies b) (by simp)
  | account op =>
    simp only [oidcStep] at hs
    split at hs
    · exact act_inv h hs
    · cases hs

theorem exchangeCode_up {issuer : Issuer} {link : IssuerLink} {code nonce : String} {claims : OidcClaims}
    (h : (exchangeCode issuer link code nonce).1 = .ok claims) : link = .up := by
  cases link with
  | up => rfl
  | down exc => cases h
  | lost exc =>
    simp only [exchangeCode] at h
    split at h <;> cases h

/-- The codes of the sign-ins. -/
def OidcWorld.usedCodes (w : OidcWorld) : List String := w.signIns.filterMap SignIn.code

theorem serve_codes (h : SessionsRecorded w.accounts) {b : Nat} {query : OidcQuery} {link : IssuerLink} {fresh : OidcFresh}
    {raw : String} {now : Timestamp} (hs : w.serve hashKey verifyPassword settings b query link fresh raw now = some w') :
    w'.usedCodes = w.usedCodes ∨ ∃ asked, callbackExchange settings query = some asked ∧ link = .up ∧
      w'.usedCodes = w.usedCodes ++ [asked.1] := by
  unfold OidcWorld.serve at hs
  cases hexchange : callbackExchange settings query with
  | none =>
    rw [hexchange] at hs
    obtain rfl := Option.some.inj hs
    exact Or.inl rfl
  | some asked =>
    obtain ⟨code, nonce⟩ := asked
    rw [hexchange] at hs
    obtain ⟨acted, hact, rfl⟩ := Option.map_eq_some_iff.mp hs
    obtain ⟨accounts, _, rfl⟩ := Option.map_eq_some_iff.mp hact
    cases hok : (oidcCallback hashKey settings query (fun _ _ => (exchangeCode w.issuer link code nonce).1) fresh raw now
      w.accounts.db).1.isOk with
    | false => exact Or.inl rfl
    | true =>
      obtain ⟨claims, user, hclaims, _, _, hevents⟩ := oidcCallback_issues verifyPassword h hok
      refine Or.inr ⟨_, rfl, exchangeCode_up hclaims, ?_⟩
      simp [OidcWorld.usedCodes, OidcWorld.signIn, hevents, issuedUsers, SignIn.code]

theorem oidcStep_codes (h : SessionsRecorded w.accounts) {e : OidcEvent}
    (hs : oidcStep hashKey verifyPassword settings w e = some w') :
    w'.usedCodes = w.usedCodes ∨ ∃ i fresh raw now p asked, e = .serve i .up fresh raw now ∧ w.pending[i]? = some p ∧
      callbackExchange settings p.2 = some asked ∧ w'.usedCodes = w.usedCodes ++ [asked.1] := by
  have hsame : ∀ {w1 : OidcWorld}, some w1 = some w' → w1.signIns = w.signIns → w'.usedCodes = w.usedCodes := by
    intro w1 hw1 hsignIns
    rw [← Option.some.inj hw1, OidcWorld.usedCodes, OidcWorld.usedCodes, hsignIns]
  have hact : ∀ {op : AccountOp} {w1 : OidcWorld}, w.act hashKey verifyPassword settings op = some w1 →
      w1.signIns = w.signIns := by
    intro op w1 hact
    obtain ⟨accounts, _, rfl⟩ := Option.map_eq_some_iff.mp hact
    rfl
  cases e with
  | oidcLogin b state nonce =>
    simp only [oidcStep] at hs
    split at hs
    · exact Or.inl (hsame hs rfl)
    · split at hs
      · cases hs
      · exact Or.inl (hsame hs rfl)
  | consent issued =>
    simp only [oidcStep] at hs
    split at hs
    · cases hs
    · exact Or.inl (hsame hs rfl)
  | callback b code state => exact Or.inl (hsame hs rfl)
  | serve i link fresh raw now =>
    obtain ⟨p, hp, hserve⟩ := Option.bind_eq_some_iff.mp hs
    have hused := @serve_codes hashKey verifyPassword settings { w with pending := w.pending.eraseIdx i } w' h
      p.1 p.2 link fresh raw now hserve
    rcases hused with hused | ⟨asked, hasked, rfl, hused⟩
    · exact Or.inl hused
    · exact Or.inr ⟨i, fresh, raw, now, p, asked, rfl, hp, hasked, hused⟩
  | expire b => exact Or.inl (hsame hs rfl)
  | login b email password raw now =>
    simp only [oidcStep] at hs
    obtain ⟨acted, hacted, rfl⟩ := Option.map_eq_some_iff.mp hs
    refine Or.inl ?_
    unfold OidcWorld.signIn
    split
    · simp [OidcWorld.usedCodes, SignIn.code, Function.comp_def, hact hacted]
    · rw [OidcWorld.usedCodes, OidcWorld.usedCodes, hact hacted]
  | logout b now =>
    simp only [oidcStep] at hs
    obtain ⟨acted, hacted, rfl⟩ := Option.map_eq_some_iff.mp hs
    have hsignIns : acted.signIns = w.signIns := hact hacted
    refine Or.inl ?_
    rw [OidcWorld.usedCodes, OidcWorld.usedCodes, ← hsignIns]
    rfl
  | account op =>
    simp only [oidcStep] at hs
    split at hs
    · exact Or.inl (hsame rfl (hact hs))
    · cases hs

theorem OidcStart.inv (h : OidcStart w) : OidcInv hashKey w := by
  obtain ⟨accounts, jar, logins, issuer, pending, signIns⟩ := w
  obtain ⟨husers, ⟨hsessions, hlog⟩, hstart⟩ := h
  obtain ⟨rfl, rfl, rfl, rfl, rfl⟩ :
      jar = (fun _ => {}) ∧ logins = [] ∧ issuer = {} ∧ pending = [] ∧ signIns = [] := by
    simpa using hstart
  refine ⟨husers, ?_, by simp, by simp, by simp, by simp, by simp⟩
  simp only [SessionsRecorded] at *
  rw [hsessions, hlog]
  exact Recorded.nil

/-- Behind an issuer that takes each code once, a step uses no code that a sign-in has used. -/
theorem oidcStep_usedCodes (h : OidcInv hashKey w) (hcodes : w.usedCodes.Nodup) {e : OidcEvent}
    (hguard : CodesSingleUse settings w e) (hs : oidcStep hashKey verifyPassword settings w e = some w') :
    w'.usedCodes.Nodup := by
  rcases oidcStep_codes h.recorded hs with hsame | ⟨i, fresh, raw, now, p, asked, rfl, hp, hasked, hused⟩
  · rw [hsame]
    exact hcodes
  · have hunspent : asked.1 ∉ w.issuer.spent := hguard p hp asked hasked
    have hnew : asked.1 ∉ w.usedCodes := by
      intro hmem
      obtain ⟨s, hmem, hcode⟩ := List.mem_filterMap.mp hmem
      cases hproof : s.proof with
      | password => simp [SignIn.code, hproof] at hcode
      | idToken used nonce =>
        obtain rfl : used = asked.1 := by simpa [SignIn.code, hproof] using hcode
        exact hunspent ((h.signIns s hmem).backed _ _ hproof).1
    rw [hused]
    apply List.nodup_append.mpr ⟨hcodes, List.nodup_singleton _, _⟩
    intro code hcode code' hcode' hsame
    rw [hsame, List.mem_singleton.mp hcode'] at hcode
    exact hnew hcode

/-- In every interleaving, whoever a browser's session cookie resolves to has signed in from that very browser: with a
password, or on an id token that answers an OIDC login of this browser.  Behind an issuer that takes each code once, no
two sign-ins use one code. -/
theorem session_from_own_login {w : OidcWorld} (h : Reaches (oidcStep hashKey verifyPassword settings) unguarded OidcStart w)
    {b : Nat} {req : Request} (hreq : req.sessionCookie = (w.jar b).session) {now : Timestamp} {sess : Session}
    (hlive : sessionFromCookie hashKey req w.accounts.db now = some sess) {user : User}
    (huser : currentUser hashKey req w.accounts.db now = some user) :
    SignedInFrom w b user ∧
      (Reaches (oidcStep hashKey verifyPassword settings) (CodesSingleUse settings) OidcStart w →
        (w.signIns.filterMap SignIn.code).Nodup) := by
  have hinv : OidcInv hashKey w := h.invariant (OidcInv hashKey) (fun _ => OidcStart.inv) fun w e w' hw _ hs =>
    oidcStep_inv hw hs
  refine ⟨?_, fun honce => ?_⟩
  · obtain ⟨raw, hraw, hresolve⟩ : ∃ raw, req.sessionCookie = some raw ∧
        resolveSessionToken hashKey raw w.accounts.db now = some sess := by
      unfold sessionFromCookie at hlive
      split at hlive
      · cases hlive
      · split at hlive
        · cases hlive
        · exact ⟨_, by assumption, hlive⟩
    obtain ⟨s, hs, rfl, rfl⟩ := hinv.sessions b raw (hreq.symm.trans hraw)
    obtain ⟨⟨expiry, hissued⟩, hbacked⟩ := hinv.signIns s hs
    obtain ⟨hsel, hactive, _⟩ := resolveSessionToken_eq_some.mp hresolve
    have hlog := hinv.recorded.find_iff.mp ⟨sess, hsel, by simp [Session.active, hactive], rfl⟩
    obtain ⟨before, after, hsplit, _⟩ := hlog
    have hown : .issued (hashKey s.raw) sess.grant ∈ w.accounts.log := by
      rw [hsplit]
      simp
    have hgrant := grant_unique hinv.recorded.issued_nodup hown hissued
    have hid : sess.userId = s.userId := congrArg Prod.fst hgrant
    have hselect : selectOne User.id s.userId w.accounts.db.users = some user := by
      rw [← hid]
      simpa [currentUser, hlive] using huser
    obtain ⟨hmem, huserId⟩ := selectOne_mem hselect
    obtain ⟨sb, sd, sraw, sproof⟩ := s
    cases sproof with
    | password =>
      obtain rfl : sd = user.id := huserId.symm
      exact .password hs
    | idToken code nonce =>
      obtain ⟨_, l, hl, hbrowser, rfl, c, hc, rfl, token, htoken, hanswer, u, hu, huid, hsubject⟩ := hbacked _ _ rfl
      obtain rfl : sd = user.id := huserId.symm
      obtain rfl := hinv.users.eq_of_key hu hmem huid
      exact .idToken hs hl hbrowser hc htoken hanswer hsubject.symm
  · have hboth : OidcInv hashKey w ∧ w.usedCodes.Nodup := by
      apply honce.invariant fun w => OidcInv hashKey w ∧ w.usedCodes.Nodup
      · intro w hstart
        refine ⟨hstart.inv, ?_⟩
        rw [OidcWorld.usedCodes, hstart.2.2]
        exact List.nodup_nil
      · intro w e w' hw hguard hs
        exact ⟨oidcStep_inv hw.1 hs, oidcStep_usedCodes hw.1 hw.2 hguard hs⟩
    exact hboth.2

def issuerSettings : Settings := { oidcIssuer := some "https://idp.example.org" }

/-- A code of browser 7 is refused to browser 0, whose own code then signs it in. -/
def injectedRun : List OidcEvent :=
  [.oidcLogin 0 "s0" "n0", .oidcLogin 7 "s7" "n7",
    .consent ⟨"c7", some ⟨some "n7", ⟨some "eve@example.org", some "eve", none, none⟩⟩⟩,
    .callback 0 (some "c7") (some "s0"), .serve 0 .up ⟨1, fun _ => 0⟩ "t7" 0,
    .consent ⟨"c0", some ⟨some "n0", ⟨some "bob@example.org", some "bob", none, none⟩⟩⟩,
    .callback 0 (some "c0") (some "s0"), .serve 0 .up ⟨2, fun _ => 0⟩ "t0" 0]

def bob : User := ⟨2, some "bob", "bob@example.org", none, false, none, none, none⟩

theorem session_from_own_login_injected :
    ∃ w, runSteps (oidcStep id (fun _ _ => true) issuerSettings) { accounts := ⟨Db.empty, []⟩ } injectedRun = some w ∧
      SignedInFrom w 0 bob ∧ (w.signIns.filterMap SignIn.code).Nodup := by
  let req : Request := ⟨some "t0", "", none⟩
  have hend : (runSteps (oidcStep id (fun _ _ => true) issuerSettings) { accounts := ⟨Db.empty, []⟩ } injectedRun).map
      (fun w => ((w.jar 0).session, sessionFromCookie id req w.accounts.db 5, currentUser id req w.accounts.db 5)) =
      some (some "t0", some ⟨"t0", 2, 604800000000, none⟩, some bob) := by
    decide +kernel
  obtain ⟨w, hrun, hw⟩ := Option.map_eq_some_iff.mp hend
  simp only [Prod.mk.injEq] at hw
  obtain ⟨hjar, hlive, huser⟩ := hw
  have hstart : OidcStart { accounts := ⟨Db.empty, []⟩ } := ⟨List.nodup_nil, ⟨rfl, rfl⟩, rfl⟩
  have honce : Guarded (oidcStep id (fun _ _ => true) issuerSettings) (CodesSingleUse issuerSettings)
      { accounts := ⟨Db.empty, []⟩ } injectedRun := by decide +kernel
  have hsignedIn := session_from_own_login (reaches_of_runSteps hstart hrun) hjar.symm hlive huser
  exact ⟨w, hrun, hsignedIn.1, hsignedIn.2 ((Reaches.start hstart).runSteps honce hrun)⟩

end ProRag
