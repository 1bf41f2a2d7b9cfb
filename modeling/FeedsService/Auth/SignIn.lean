import FeedsService.Auth.Users
import FeedsService.Library.KeyedTable

/-!
# The legacy sign-in

The request handlers of `auth.c`.  A peer asks for a challenge for a DID, and
answers it with a presentation that carries the nonce of the challenge; the
answer takes the pending login out of the table before anything else about the
login is checked.
-/

namespace FeedsService.Auth

open FeedsService.Library FeedsService.Feeds

variable (host : Host) (m : Moment) (s : State)

def didIsReady : Bool :=
  s.phase = .vcIssed

section Challenges

structure SigninReqChalReq where
  tsxId : UInt64
  iss : String
  vcReq : Bool

def pendingLoginPut (login : Login) (pendingLogins : List Login) : List Login :=
  KeyedTable.put Login.nonce pendingLogins login

def loginCreate (sub : String) : Option Login :=
  if m.allocs then
    some {
      nonce := m.nonce
      sub := sub
      expat := m.now + 60
      vcReq := dbNeedUpsertUser m s.db sub }
  else
    none

/-- The JWT of `gen_chal`; it has no expiration. -/
def chalJws (doc : DidDocument) (realm nonce : String) : Jws where
  header := []
  keyId := some doc.defaultPublicKey
  issuer := doc.subject
  subject := some "didauth"
  audience := none
  expiration := none
  claims := [("realm", .text realm), ("nonce", .text nonce)]

def genChal (realm nonce : String) : Option Jws :=
  match s.feedsDoc, m.builderFault with
  | some doc, none => some (chalJws doc realm nonce)
  | _, _ => none

/-- The credential that goes with a challenge: `Credential_ToJson(feeds_vc)`, if it was
asked for. -/
def feedsVcFor (vcReq : Bool) : Option (Option Credential) :=
  if vcReq then
    if m.marshals then s.feedsVc.map some else none
  else
    some none

def hdlSigninReqChalReq (req : SigninReqChalReq) : State × Answer :=
  if ¬ didIsReady s then
    (s, .silent)
  else if host.maxDidLen ≤ req.iss.utf8ByteSize then
    (s, .err req.tsxId .invalidParams)
  else
    match loginCreate m s req.iss with
    | none => (s, .err req.tsxId .internalError)
    | some login =>
        match genChal m s host.nodeId login.nonce with
        | none => (s, .err req.tsxId .internalError)
        | some chal =>
            match feedsVcFor m s req.vcReq with
            | none => (s, .err req.tsxId .internalError)
            | some vc =>
                ({ s with
                    pendingLogins := pendingLoginPut login s.pendingLogins
                    history := .challenge login chal :: s.history },
                  .signinReqChal req.tsxId login.vcReq chal vc)

end Challenges

section Confirmations

structure SigninConfChalReq where
  tsxId : UInt64
  jws : Jws
  vc : Option (Json Credential)

/-- `chal_resp_is_valid`.  The login leaves the table as soon as its nonce is found;
it is handed out only to its subject.  (A parsed presentation has a nonce and a realm;
the code would read through a null pointer for one that has not.) -/
def chalRespIsValid (chalResp : Jws) : List Login × Option Login :=
  match chalResp.presentation with
  | none => (s.pendingLogins, none)
  | some vp =>
      if ¬ host.presentationIsValid m.now vp then
        (s.pendingLogins, none)
      else if vp.holder ≠ chalResp.issuer then
        (s.pendingLogins, none)
      else if vp.realm ≠ some host.nodeId then
        (s.pendingLogins, none)
      else
        match vp.nonce.bind (KeyedTable.get Login.nonce s.pendingLogins) with
        | none => (s.pendingLogins, none)
        | some login =>
            let pendingLogins := KeyedTable.remove Login.nonce s.pendingLogins login.nonce
            if vp.holder ≠ login.sub then
              (pendingLogins, none)
            else
              (pendingLogins, some login)

def accessTokenValidityPeriod : ℤ :=
  3600 * 24 * 60

/-- The JWT of `gen_access_token`. -/
def accessTokenJws (doc : DidDocument) (now : ℤ) (uinfo : AuthUser) : Jws where
  header := []
  keyId := some doc.defaultPublicKey
  issuer := doc.subject
  subject := some uinfo.did
  audience := none
  expiration := some (now + accessTokenValidityPeriod)
  claims := [("uid", .number uinfo.uid), ("name", .text uinfo.name),
    ("email", .text uinfo.email)]

def genAccessToken (uinfo : AuthUser) : Option Jws :=
  match s.feedsDoc, m.builderFault with
  | some doc, none => some (accessTokenJws doc m.now uinfo)
  | _, _ => none

def createUinfoFromVc (did : String) (vc : Credential) : Option AuthUser :=
  match vc.getProperty "name" with
  | none => none
  | some name =>
      if name = "NA" then
        none
      else if m.allocs then
        some { uid := 0, did := did, name := name, email := (vc.getProperty "email").getD "NA" }
      else
        none

/-- The user that a confirmed login is for: the one of the credential, who is stored,
or without a credential the stored one. -/
def signedInUser (login : Login) (chalResp : Jws) (vc : Option (Json Credential)) :
    State × Except Err (Option AuthUser) :=
  match vc with
  | none =>
      if login.vcReq then
        (s, .error .invalidParams)
      else
        match dbGetUser m s.db login.sub with
        | none => (s, .error .internalError)
        | some uinfo => (s, .ok uinfo)
  | some none => (s, .error .invalidVc)
  | some (some vc) =>
      if ¬ host.credentialIsValid m.now vc then
        (s, .error .invalidVc)
      else if chalResp.issuer ≠ vc.owner then
        (s, .error .invalidVc)
      else
        match createUinfoFromVc m chalResp.issuer vc with
        | none => (s, .error .internalError)
        | some uinfo =>
            match oinfoUpdIfOwner m s uinfo with
            | none => (s, .error .internalError)
            | some s' =>
                match dbUpsertUser m s'.db uinfo with
                | (db, none) => ({ s' with db := db }, .error .internalError)
                | (db, some uid) => ({ s' with db := db }, .ok (some { uinfo with uid := uid }))

/-- `hdl_signin_conf_chal_req` once `chal_resp_is_valid` has handed out the login. -/
def confirmLogin (req : SigninConfChalReq) (login : Login) : State × Answer :=
  match signedInUser host m s login req.jws req.vc with
  | (s', .error ec) => (s', .err req.tsxId ec)
  | (s', .ok none) => (s', .nullUserInfo)
  | (s', .ok (some uinfo)) =>
      match genAccessToken m s' uinfo with
      | none => (s', .err req.tsxId .internalError)
      | some token =>
          ({ s' with history := .accessToken login uinfo.did uinfo.uid token :: s'.history },
            .signinConfChal req.tsxId token (m.now + accessTokenValidityPeriod))

def hdlSigninConfChalReq (req : SigninConfChalReq) : State × Answer :=
  if ¬ didIsReady s then
    (s, .silent)
  else if ¬ jwsParses host m req.jws then
    (s, .err req.tsxId .invalidChalResp)
  else
    match chalRespIsValid host m s req.jws with
    | (pendingLogins, none) =>
        ({ s with pendingLogins := pendingLogins }, .err req.tsxId .invalidChalResp)
    | (pendingLogins, some login) =>
        confirmLogin host m { s with
          pendingLogins := pendingLogins
          history := .confirmed login req.jws :: s.history } req login

/-- `auth_expire_login`. -/
def authExpireLogin : State :=
  { s with pendingLogins := s.pendingLogins.filter fun login => ¬ login.expat < m.now }

end Confirmations

section AccessTokens

/-- `access_token_is_valid`. -/
def accessTokenIsValid (token : Jws) : Bool :=
  token.keyId.isSome ∧ token.keyId = s.authKeyUrl ∧ ¬ token.getExpiration < m.now

/-- `create_uinfo_from_access_token`, through which every other request reads its user. -/
def createUinfoFromAccessToken (token : Jws) : Option AuthUser :=
  if jwsParses host m token ∧ accessTokenIsValid m s token then
    some {
      uid := token.getClaimAsInteger "uid"
      did := (token.getClaim "userDid").getD (token.subject.getD "")
      name := (token.getClaim "name").getD ""
      email := (token.getClaim "email").getD "" }
  else
    none

end AccessTokens

section Specifications

variable {host : Host} {m : Moment} {s : State}

theorem genChal_eq_some {realm nonce : String} {chal : Jws} :
    genChal m s realm nonce = some chal ↔
      ∃ doc, s.feedsDoc = some doc ∧ m.builderFault = none ∧ chal = chalJws doc realm nonce := by
  unfold genChal
  split
  · next doc hdoc hfault => simp [hdoc, hfault, eq_comm]
  · next hnot =>
      refine iff_of_false (by simp) ?_
      rintro ⟨doc, hdoc, hfault, -⟩
      exact hnot doc hdoc hfault

theorem genAccessToken_eq_some {uinfo : AuthUser} {token : Jws} :
    genAccessToken m s uinfo = some token ↔
      ∃ doc, s.feedsDoc = some doc ∧ m.builderFault = none ∧
        token = accessTokenJws doc m.now uinfo := by
  unfold genAccessToken
  split
  · next doc hdoc hfault => simp [hdoc, hfault, eq_comm]
  · next hnot =>
      refine iff_of_false (by simp) ?_
      rintro ⟨doc, hdoc, hfault, -⟩
      exact hnot doc hdoc hfault

/-- What a presentation must show for `chal_resp_is_valid` to hand out a login. -/
structure Confirms (host : Host) (m : Moment) (s : State) (chalResp : Jws)
    (vp : Presentation) (login : Login) : Prop where
  presentation : chalResp.presentation = some vp
  valid : host.presentationIsValid m.now vp = true
  issuer : vp.holder = chalResp.issuer
  realm : vp.realm = some host.nodeId
  nonce : vp.nonce = some login.nonce
  pending : KeyedTable.get Login.nonce s.pendingLogins login.nonce = some login
  sub : vp.holder = login.sub

/-- The table only shrinks; a login that is handed out leaves it. -/
theorem chalRespIsValid_cases (host : Host) (m : Moment) (s : State) (chalResp : Jws) :
    (∃ logins, logins.Sublist s.pendingLogins ∧
        chalRespIsValid host m s chalResp = (logins, none)) ∨
      ∃ vp login, Confirms host m s chalResp vp login ∧
        chalRespIsValid host m s chalResp =
          (KeyedTable.remove Login.nonce s.pendingLogins login.nonce, some login) := by
  unfold chalRespIsValid
  split
  · exact .inl ⟨_, List.Sublist.refl _, rfl⟩
  · next vp hvp =>
      split
      · exact .inl ⟨_, List.Sublist.refl _, rfl⟩
      · next hvalid =>
          split
          · exact .inl ⟨_, List.Sublist.refl _, rfl⟩
          · next hissuer =>
              split
              · exact .inl ⟨_, List.Sublist.refl _, rfl⟩
              · next hrealm =>
                  split
                  · exact .inl ⟨_, List.Sublist.refl _, rfl⟩
                  · next login hlogin =>
                      obtain ⟨nonce, hnonce, hget⟩ := Option.bind_eq_some_iff.mp hlogin
                      have hkey : login.nonce = nonce := (KeyedTable.mem_of_get hget).2
                      subst hkey
                      dsimp only
                      split
                      · exact .inl ⟨_, List.filter_sublist, rfl⟩
                      · next hsub =>
                          exact .inr ⟨vp, login,
                            ⟨hvp, by simpa using hvalid, by simpa using hissuer,
                              by simpa using hrealm, hnonce, hget, by simpa using hsub⟩, rfl⟩

/-- How signing in touches the owner's record and the users. -/
structure StoresUser (m : Moment) (s s' : State) : Prop where
  rest : s' = { s with ownerInfo := s'.ownerInfo, db := s'.db }
  owner : s'.ownerInfo.map AuthUser.did = s.ownerInfo.map AuthUser.did
  users : s'.db = s.db ∨ ∃ ui, insertUser m s.db ui = some s'.db

theorem StoresUser.phase {s' : State} (h : StoresUser m s s') : s'.phase = s.phase := by
  rw [h.rest]

theorem StoresUser.feedsDoc {s' : State} (h : StoresUser m s s') : s'.feedsDoc = s.feedsDoc := by
  rw [h.rest]

theorem StoresUser.authSecretMap {s' : State} (h : StoresUser m s s') :
    s'.authSecretMap = s.authSecretMap := by
  rw [h.rest]

theorem StoresUser.pendingLogins {s' : State} (h : StoresUser m s s') :
    s'.pendingLogins = s.pendingLogins := by
  rw [h.rest]

theorem StoresUser.history {s' : State} (h : StoresUser m s s') : s'.history = s.history := by
  rw [h.rest]

theorem StoresUser.refl (m : Moment) (s : State) : StoresUser m s s :=
  ⟨rfl, rfl, .inl rfl⟩

/-- The user is stored after the owner's record was updated. -/
theorem StoresUser.of_upsert {ui : AuthUser} {s' : State} {db : Db} {result : Option ℤ}
    (howner : oinfoUpdIfOwner m s ui = some s') (hresult : dbUpsertUser m s'.db ui = (db, result)) :
    StoresUser m s { s' with db := db } := by
  obtain ⟨owner, rfl, hdid⟩ := oinfoUpdIfOwner_eq_some howner
  refine ⟨rfl, hdid, ?_⟩
  have hdb := dbUpsertUser_db m s.db ui
  rw [hresult] at hdb
  exact hdb.imp_right fun hinsert => ⟨ui, hinsert⟩

theorem dbGetUser_mem {db : Db} {did : String} {uinfo : AuthUser}
    (h : dbGetUser m db did = some (some uinfo)) :
    (uinfo.uid, uinfo.did) ∈ accounts db.users := by
  rw [dbGetUser] at h
  split at h
  · obtain ⟨row, hrow, rfl⟩ := Option.map_eq_some_iff.mp (Option.some.inj h)
    exact mem_accounts.mpr ⟨row, List.mem_of_find?_eq_some hrow, rfl, rfl⟩
  · cases h

/-- The user that a confirmed login is for has a row with that id. -/
theorem signedInUser_spec (host : Host) (m : Moment) (s : State) (login : Login)
    (chalResp : Jws) (vc : Option (Json Credential)) :
    StoresUser m s (signedInUser host m s login chalResp vc).1 ∧
      ∀ uinfo, (signedInUser host m s login chalResp vc).2 = .ok (some uinfo) →
        (uinfo.uid, uinfo.did) ∈
          accounts (signedInUser host m s login chalResp vc).1.db.users := by
  unfold signedInUser
  split
  · split
    · exact ⟨StoresUser.refl m s, fun uinfo h => by cases h⟩
    · split
      · exact ⟨StoresUser.refl m s, fun uinfo h => by cases h⟩
      · next hget =>
          refine ⟨StoresUser.refl m s, fun uinfo h => ?_⟩
          rw [Except.ok.inj h] at hget
          exact dbGetUser_mem hget
  · exact ⟨StoresUser.refl m s, fun uinfo h => by cases h⟩
  · split
    · exact ⟨StoresUser.refl m s, fun uinfo h => by cases h⟩
    · split
      · exact ⟨StoresUser.refl m s, fun uinfo h => by cases h⟩
      · split
        · exact ⟨StoresUser.refl m s, fun uinfo h => by cases h⟩
        · split
          · exact ⟨StoresUser.refl m s, fun uinfo h => by cases h⟩
          · next howner =>
              split
              · next hresult =>
                  exact ⟨StoresUser.of_upsert howner hresult, fun uinfo h => by cases h⟩
              · next hresult =>
                  refine ⟨StoresUser.of_upsert howner hresult, fun uinfo h => ?_⟩
                  obtain rfl := Option.some.inj (Except.ok.inj h)
                  exact (dbUpsertUser_uid hresult).2

/-- `hdl_signin_req_chal_req` puts a login for the DID in the request, or does nothing. -/
theorem hdlSigninReqChalReq_cases (host : Host) (m : Moment) (s : State)
    (req : SigninReqChalReq) :
    (hdlSigninReqChalReq host m s req).1 = s ∨
      ∃ login doc, s.phase = .vcIssed ∧ s.feedsDoc = some doc ∧ login.nonce = m.nonce ∧
        login.sub = req.iss ∧
        (hdlSigninReqChalReq host m s req).1 = { s with
          pendingLogins := pendingLoginPut login s.pendingLogins
          history :=
            .challenge login (chalJws doc host.nodeId login.nonce) :: s.history } := by
  unfold hdlSigninReqChalReq
  split
  · exact .inl rfl
  · next hready =>
      split
      · exact .inl rfl
      · split
        · exact .inl rfl
        · next login hlogin =>
            split
            · exact .inl rfl
            · next chal hchal =>
                split
                · exact .inl rfl
                · obtain ⟨doc, hdoc, -, rfl⟩ := genChal_eq_some.mp hchal
                  rw [loginCreate] at hlogin
                  split at hlogin
                  · obtain rfl := Option.some.inj hlogin
                    exact .inr ⟨_, doc, by simpa [didIsReady] using hready, hdoc, rfl, rfl, rfl⟩
                  · cases hlogin

/-- The token of a confirmed login goes to a user with a row of that id. -/
def TokenFor (m : Moment) (s s' : State) (login : Login) (tokens : List Entry) : Prop :=
  tokens = [] ∨
    ∃ doc uinfo, s.feedsDoc = some doc ∧ (uinfo.uid, uinfo.did) ∈ accounts s'.db.users ∧
      tokens = [.accessToken login uinfo.did uinfo.uid (accessTokenJws doc m.now uinfo)]

theorem confirmLogin_cases (host : Host) (m : Moment) (s : State) (req : SigninConfChalReq)
    (login : Login) :
    ∃ s' tokens, StoresUser m s s' ∧ TokenFor m s s' login tokens ∧
      (confirmLogin host m s req login).1 = { s' with history := tokens ++ s'.history } := by
  have hspec := signedInUser_spec host m s login req.jws req.vc
  unfold confirmLogin
  split
  · next s' ec huser =>
      rw [huser] at hspec
      exact ⟨s', [], hspec.1, .inl rfl, rfl⟩
  · next s' huser =>
      rw [huser] at hspec
      exact ⟨s', [], hspec.1, .inl rfl, rfl⟩
  · next s' uinfo huser =>
      rw [huser] at hspec
      obtain ⟨hstores, huid⟩ := hspec
      split
      · exact ⟨s', [], hstores, .inl rfl, rfl⟩
      · next token htoken =>
          obtain ⟨doc, hdoc, -, rfl⟩ := genAccessToken_eq_some.mp htoken
          have hdoc' : s.feedsDoc = some doc := hstores.feedsDoc.symm.trans hdoc
          exact ⟨s', _, hstores, .inr ⟨doc, uinfo, hdoc', huid uinfo rfl, rfl⟩, rfl⟩

/-- `hdl_signin_conf_chal_req` drops logins, or confirms one that it takes out. -/
theorem hdlSigninConfChalReq_cases (host : Host) (m : Moment) (s : State)
    (req : SigninConfChalReq) :
    (∃ logins, logins.Sublist s.pendingLogins ∧
        (hdlSigninConfChalReq host m s req).1 = { s with pendingLogins := logins }) ∨
      ∃ vp login s' tokens, s.phase = .vcIssed ∧ jwsParses host m req.jws = true ∧
        Confirms host m s req.jws vp login ∧ StoresUser m s s' ∧ TokenFor m s s' login tokens ∧
        (hdlSigninConfChalReq host m s req).1 = { s' with
          pendingLogins := KeyedTable.remove Login.nonce s.pendingLogins login.nonce
          history := tokens ++ .confirmed login req.jws :: s.history } := by
  unfold hdlSigninConfChalReq
  split
  · exact .inl ⟨_, List.Sublist.refl _, rfl⟩
  · next hready =>
      split
      · exact .inl ⟨_, List.Sublist.refl _, rfl⟩
      · next hparses =>
          rcases chalRespIsValid_cases host m s req.jws with
            ⟨logins, hsub, hvalid⟩ | ⟨vp, login, hconfirms, hvalid⟩
          · rw [hvalid]
            exact .inl ⟨logins, hsub, rfl⟩
          · rw [hvalid]
            obtain ⟨s', tokens, hstores, htokens, hresult⟩ := confirmLogin_cases host m
              { s with
                pendingLogins := KeyedTable.remove Login.nonce s.pendingLogins login.nonce
                history := .confirmed login req.jws :: s.history } req login
            refine .inr ⟨vp, login, { s with ownerInfo := s'.ownerInfo, db := s'.db }, tokens,
              by simpa [didIsReady] using hready, by simpa using hparses, hconfirms,
              ⟨rfl, hstores.owner, hstores.users⟩, htokens, ?_⟩
            rw [hresult, hstores.rest]

end Specifications

end FeedsService.Auth
