import FeedsService.Auth.SignIn

/-!
# The standard sign-in

`StandardAuth.cpp`.  A challenge is kept in `authSecretMap` under its nonce;
`check_auth_token` looks it up there and leaves it.  The user that a token is for
is the issuer of the credential that the presentation carries first.
-/

namespace FeedsService.Auth

open FeedsService.Library FeedsService.Feeds

variable (host : Host) (m : Moment) (s : State)

def jwtExpiration : ℤ :=
  5 * 60

def accessExpiration : ℤ :=
  30 * 24 * 60 * 60

section Jwt

/-- The JWT that `makeJwt` builds.  `std::map` orders the claims by the addresses of
their names, which nothing depends on. -/
def standardJws (doc : DidDocument) (expiration : ℤ) (audience subject : String)
    (claims : List (String × Claim)) : Jws where
  header := [("typ", "JWT"), ("version", "1.0")]
  keyId := some doc.defaultPublicKey
  issuer := doc.subject
  subject := some subject
  audience := some audience
  expiration := some expiration
  claims := claims

def makeJwt (expiration : ℤ) (audience subject : String) (claims : List (String × Claim)) :
    Except ErrCode Jws :=
  match s.feedsDoc with
  | none => .error .authBadJwtBuilder
  | some doc =>
      match m.builderFault with
      | some fault => .error fault
      | none => .ok (standardJws doc expiration audience subject claims)

end Jwt

section SignIn

structure StandardSignInRequest where
  document : Json DidDocument

/-- A property of the service's credential, empty when there is none. -/
def serviceProperty (name : String) : String :=
  (s.feedsVc.bind fun vc => vc.getProperty name).getD ""

def challengeClaims (nonce : String) : List (String × Claim) :=
  [("nonce", .text nonce),
    ("name", .text (serviceProperty s "name")),
    ("description", .text (serviceProperty s "description")),
    ("elaAddress", .text (serviceProperty s "elaAddress"))]

/-- `authSecretMap[nonceStr] = AuthSecret{didStr, expiration}`. -/
def putAuthSecret (secret : AuthSecret) (authSecretMap : List AuthSecret) : List AuthSecret :=
  KeyedTable.put AuthSecret.nonce authSecretMap secret

def onStandardSignIn (req : StandardSignInRequest) : State × Except ErrCode Jws :=
  match req.document with
  | none => (s, .error .authBadDidDoc)
  | some didDoc =>
      if ¬ host.documentIsValid m.now didDoc then
        (s, .error .authDidDocInvlid)
      else if ¬ m.stores then
        (s, .error .authSaveDocFailed)
      else
        let expiration := m.now + jwtExpiration
        match makeJwt m s expiration didDoc.subject "DIDAuthChallenge"
            (challengeClaims s m.nonce) with
        | .error code => (s, .error code)
        | .ok challenge =>
            let secret : AuthSecret := ⟨m.nonce, didDoc.subject, expiration⟩
            ({ s with
                authSecretMap := putAuthSecret secret s.authSecretMap
                history := .standardChallenge secret challenge :: s.history },
              .ok challenge)

end SignIn

section DidAuth

structure StandardDidAuthRequest where
  userName : String
  jwtVp : Jws

structure CredentialInfo where
  appDid : String
  userDid : String
  instanceDid : String
  expiration : ℤ
  name : String
  email : String

/-- The user that `adaptOldLogin` stores; the id is filled in there. -/
def CredentialInfo.user (info : CredentialInfo) : AuthUser :=
  ⟨0, info.userDid, info.name, info.email⟩

/-- `CHECK_DIDSDK` and `CHECK_ASSERT`: go on if the test succeeds. -/
def check (test : Bool) (code : ErrCode) : Except ErrCode Unit :=
  if test then .ok () else .error code

/-- The same for a pointer that must not be null. -/
def checkSome {α : Type} (pointer : Option α) (code : ErrCode) : Except ErrCode α :=
  match pointer with
  | none => .error code
  | some value => .ok value

/-- `getServiceDid() == realm`; there is no service DID before one is imported. -/
def serviceDid : String :=
  (s.feedsDoc.map fun doc => doc.defaultPublicKey.did).getD ""

/-- `checkAuthToken`. -/
def checkAuthToken (userName : String) (jwtVp : Jws) : Except ErrCode CredentialInfo := do
  check (jwsParses host m jwtVp) .authBadJwtChallenge
  let vpStr ← checkSome (jwtVp.getClaimAsJson "presentation") .authGetJwsClaimFailed
  let vp ← checkSome vpStr .authGetPresentationFailed
  check (host.presentationIsValid m.now vp) .authInvalidPresentation
  let nonce ← checkSome vp.nonce .authPresentationEmptyNonce
  let authSecret ← checkSome (KeyedTable.get AuthSecret.nonce s.authSecretMap nonce)
    .authPresentationBadNonce
  let realm ← checkSome vp.realm .authPresentationEmptyRealm
  check (serviceDid s = realm) .authPresentationBadRealm
  let vc ← checkSome vp.credentials.head? .authVerifiableCredentialBadCount
  check (host.credentialIsValid m.now vc) .authCredentialInvalid
  check (authSecret.did = vc.id.did) .authCredentialBadInstanceId
  check (1 ≤ vc.properties.length) .authCredentialPropertyNotExists
  let appDid ← checkSome (vc.getProperty "appDid") .authCredentialPropertyAppIdNotExists
  check (¬ authSecret.expiration < m.now) .authNonceExpiredError
  check (0 < vc.expirationDate) .authCredentialExpirationError
  return {
    appDid := appDid
    userDid := vc.issuer
    instanceDid := vc.id.did
    expiration := vc.expirationDate
    name := if userName = "" then "NA" else userName
    email := "NA" }

/-- A `uint64_t` returned as `int`. -/
def asInt (uid : ℤ) : ℤ :=
  uid.bmod (2 ^ 32)

/-- `adaptOldLogin`: the user is stored, and the row id comes back as `int`. -/
def adaptOldLogin (info : CredentialInfo) : State × Except ErrCode ℤ :=
  match oinfoUpdIfOwner m s info.user with
  | none => (s, .error .authUpdateOwnerError)
  | some s' =>
      match dbUpsertUser m s'.db info.user with
      | (db, none) => ({ s' with db := db }, .error .authUpdateUserError)
      | (db, some uid) => ({ s' with db := db }, .ok (asInt uid))

def accessTokenClaims (info : CredentialInfo) (userIndex : ℤ) : List (String × Claim) :=
  [("appId", .text info.appDid),
    ("userDid", .text info.userDid),
    ("appInstanceDid", .text info.instanceDid),
    ("name", .text info.name),
    ("email", .text info.email),
    ("uid", .number userIndex)]

def createAccessToken (info : CredentialInfo) (userIndex : ℤ) : Except ErrCode Jws :=
  let expiration := min (m.now + accessExpiration) info.expiration
  makeJwt m s expiration info.instanceDid "AccessToken" (accessTokenClaims info userIndex)

def onStandardDidAuth (req : StandardDidAuthRequest) : State × Except ErrCode Jws :=
  match checkAuthToken host m s req.userName req.jwtVp with
  | .error code => (s, .error code)
  | .ok info =>
      match adaptOldLogin m s info with
      | (s', .error code) => (s', .error code)
      | (s', .ok userIndex) =>
          if userIndex < 0 then
            (s', .error (.userIndex userIndex))
          else
            match createAccessToken m s' info userIndex with
            | .error code => (s', .error code)
            | .ok token =>
                ({ s' with
                    history :=
                      .standardAccessToken req.jwtVp info.userDid userIndex token :: s'.history },
                  .ok token)

end DidAuth

section Specifications

variable {host : Host} {m : Moment} {s : State}

@[simp]
theorem check_bind {α : Type} {test : Bool} {code : ErrCode} {f : Unit → Except ErrCode α}
    {result : α} : (check test code >>= f) = .ok result ↔ test = true ∧ f () = .ok result := by
  cases test <;> simp [check, bind, Except.bind]

@[simp]
theorem checkSome_bind {α β : Type} {pointer : Option β} {code : ErrCode}
    {f : β → Except ErrCode α} {result : α} :
    (checkSome pointer code >>= f) = .ok result ↔
      ∃ value, pointer = some value ∧ f value = .ok result := by
  cases pointer <;> simp [checkSome, bind, Except.bind]

theorem makeJwt_eq_ok {expiration : ℤ} {audience subject : String}
    {claims : List (String × Claim)} {jwt : Jws} :
    makeJwt m s expiration audience subject claims = .ok jwt ↔
      ∃ doc, s.feedsDoc = some doc ∧ m.builderFault = none ∧
        jwt = standardJws doc expiration audience subject claims := by
  unfold makeJwt
  cases s.feedsDoc with
  | none => simp
  | some doc => cases m.builderFault <;> simp [eq_comm]

/-- The checks that `checkAuthToken` makes on a presentation: its nonce is one that
`onStandardSignIn` keeps, for the DID that the first credential is named after. -/
structure Checked (host : Host) (m : Moment) (s : State) (jwtVp : Jws) (vp : Presentation)
    (secret : AuthSecret) (vc : Credential) (appDid : String) : Prop where
  parses : jwsParses host m jwtVp = true
  presentation : jwtVp.presentation = some vp
  valid : host.presentationIsValid m.now vp = true
  nonce : vp.nonce = some secret.nonce
  pending : KeyedTable.get AuthSecret.nonce s.authSecretMap secret.nonce = some secret
  realm : vp.realm = some (serviceDid s)
  credential : vp.credentials.head? = some vc
  credentialValid : host.credentialIsValid m.now vc = true
  instanceDid : secret.did = vc.id.did
  properties : 1 ≤ vc.properties.length
  appDid : vc.getProperty "appDid" = some appDid
  fresh : m.now ≤ secret.expiration
  expires : 0 < vc.expirationDate

/-- What is read out of a presentation that passes. -/
def credentialInfo (userName appDid : String) (vc : Credential) : CredentialInfo where
  appDid := appDid
  userDid := vc.issuer
  instanceDid := vc.id.did
  expiration := vc.expirationDate
  name := if userName = "" then "NA" else userName
  email := "NA"

theorem checkAuthToken_eq_ok {userName : String} {jwtVp : Jws} {info : CredentialInfo} :
    checkAuthToken host m s userName jwtVp = .ok info ↔
      ∃ vp secret vc appDid, Checked host m s jwtVp vp secret vc appDid ∧
        info = credentialInfo userName appDid vc := by
  simp only [checkAuthToken, check_bind, checkSome_bind]
  constructor
  · rintro ⟨hparses, _, hclaim, vp, rfl, hvalid, nonce, hnonce, secret, hsecret, realm, hrealm,
      hservice, vc, hvc, hvcValid, hinstance, hproperties, appDid, happ, hfresh, hexpires, hinfo⟩
    obtain rfl := (KeyedTable.mem_of_get hsecret).2
    refine ⟨vp, secret, vc, appDid, ?_, (Except.ok.inj hinfo).symm⟩
    exact {
      parses := hparses
      presentation := by rw [Jws.presentation, hclaim]; rfl
      valid := hvalid
      nonce := hnonce
      pending := hsecret
      realm := by rw [hrealm, of_decide_eq_true hservice]
      credential := hvc
      credentialValid := hvcValid
      instanceDid := of_decide_eq_true hinstance
      properties := of_decide_eq_true hproperties
      appDid := happ
      fresh := by simpa using hfresh
      expires := of_decide_eq_true hexpires }
  · rintro ⟨vp, secret, vc, appDid, hchecked, rfl⟩
    have hclaim := Option.join_eq_some_iff.mp hchecked.presentation
    exact ⟨hchecked.parses, _, hclaim, vp, rfl, hchecked.valid, _, hchecked.nonce, secret,
      hchecked.pending, _, hchecked.realm, decide_eq_true rfl, vc, hchecked.credential,
      hchecked.credentialValid, decide_eq_true hchecked.instanceDid,
      decide_eq_true hchecked.properties, appDid, hchecked.appDid,
      decide_eq_true (not_lt.mpr hchecked.fresh), decide_eq_true hchecked.expires, rfl⟩

/-- What has to hold, besides the checks, for a token to be issued. -/
structure Stored (m : Moment) (s : State) (info : CredentialInfo) (doc : DidDocument) : Prop where
  owner : s.ownerInfo.map AuthUser.did = some info.userDid → m.allocs = true
  dbCalls : m.DbCallsSucceed
  room : (∃ uid, (uid, info.userDid) ∈ accounts s.db.users) ∨
    nextUserId s.db.users m.skipped ≤ maxRowid
  index : 0 ≤ asInt (userIdFor s.db.users info.userDid m.skipped)
  doc : s.feedsDoc = some doc
  builder : m.builderFault = none

/-- The JWT of `createAccessToken`. -/
def accessTokenFor (doc : DidDocument) (now : ℤ) (info : CredentialInfo) (userIndex : ℤ) : Jws :=
  standardJws doc (min (now + accessExpiration) info.expiration) info.instanceDid "AccessToken"
    (accessTokenClaims info userIndex)

/-- `adaptOldLogin` touches the owner's record and the users only. -/
theorem adaptOldLogin_stores (m : Moment) (s : State) (info : CredentialInfo) :
    StoresUser m s (adaptOldLogin m s info).1 := by
  unfold adaptOldLogin
  split
  · exact StoresUser.refl m s
  · next howner =>
      split
      · next hresult => exact StoresUser.of_upsert howner hresult
      · next hresult => exact StoresUser.of_upsert howner hresult

/-- The index is the row id of a user with the credential's issuer as DID. -/
theorem adaptOldLogin_eq_ok {info : CredentialInfo} {index : ℤ}
    (hsound : AccountsSound s.db.users) :
    (adaptOldLogin m s info).2 = .ok index ↔
      (s.ownerInfo.map AuthUser.did = some info.userDid → m.allocs = true) ∧
        m.DbCallsSucceed ∧
        ((∃ uid, (uid, info.userDid) ∈ accounts s.db.users) ∨
          nextUserId s.db.users m.skipped ≤ maxRowid) ∧
        index = asInt (userIdFor s.db.users info.userDid m.skipped) := by
  have hisSome := oinfoUpdIfOwner_isSome m s info.user
  unfold adaptOldLogin
  split
  · next hnone =>
      rw [hnone] at hisSome
      refine iff_of_false (by simp) fun hok => ?_
      exact absurd (hisSome.mpr hok.1) (by simp)
  · next s' howner =>
      have hallocs := hisSome.mp (Option.isSome_iff_exists.mpr ⟨s', howner⟩)
      obtain ⟨owner, rfl, hdid⟩ := oinfoUpdIfOwner_eq_some howner
      have hresult : m.DbCallsSucceed ∧ ((∃ uid, (uid, info.userDid) ∈ accounts s.db.users) ∨
          nextUserId s.db.users m.skipped ≤ maxRowid) → (dbUpsertUser m s.db info.user).2 =
            some (userIdFor s.db.users info.userDid m.skipped) :=
        fun hcalls => (dbUpsertUser_eq_some hsound).mpr ⟨hcalls, rfl⟩
      split
      · next db hnone =>
          rw [hnone] at hresult
          refine iff_of_false (by simp) fun hok => ?_
          exact absurd (hresult ⟨hok.2.1, hok.2.2.1⟩) (by simp)
      · next db uid hsome =>
          have huid := (dbUpsertUser_eq_some hsound).mp (congrArg Prod.snd hsome)
          obtain ⟨⟨hcalls, hroom⟩, rfl⟩ := huid
          constructor
          · intro hindex
            exact ⟨hallocs, hcalls, hroom, (Except.ok.inj hindex).symm⟩
          · rintro ⟨-, -, -, rfl⟩
            rfl

/-- When `adaptOldLogin` succeeds, the user is stored. -/
theorem adaptOldLogin_insert {info : CredentialInfo} {index : ℤ}
    (h : (adaptOldLogin m s info).2 = .ok index) :
    insertUser m s.db info.user = some (adaptOldLogin m s info).1.db := by
  unfold adaptOldLogin at h ⊢
  split at h
  · cases h
  · next s' howner =>
      obtain ⟨owner, rfl, -⟩ := oinfoUpdIfOwner_eq_some howner
      split at h
      · cases h
      · next db uid hresult => exact (dbUpsertUser_uid hresult).1

/-- The user that `adaptOldLogin` stores has the foretold id. -/
theorem adaptOldLogin_mem {info : CredentialInfo} {index : ℤ}
    (h : (adaptOldLogin m s info).2 = .ok index) :
    (userIdFor s.db.users info.userDid m.skipped, info.userDid) ∈
      accounts (adaptOldLogin m s info).1.db.users := by
  have hmem := userIdFor_mem (adaptOldLogin_insert h)
  exact hmem

/-- The challenge of a `StandardSignIn` and the entry that keeps it. -/
def challengeFor (m : Moment) (s : State) (doc : DidDocument) (did : String) : Jws :=
  standardJws doc (m.now + jwtExpiration) did "DIDAuthChallenge" (challengeClaims s m.nonce)

/-- `onStandardSignIn` either fails or keeps a challenge for the DID it was asked for. -/
theorem onStandardSignIn_cases (host : Host) (m : Moment) (s : State)
    (req : StandardSignInRequest) :
    (onStandardSignIn host m s req).1 = s ∨
      ∃ did doc secret, s.feedsDoc = some doc ∧
        secret = ⟨m.nonce, did, m.now + jwtExpiration⟩ ∧
        (onStandardSignIn host m s req).1 = { s with
          authSecretMap := putAuthSecret secret s.authSecretMap
          history := .standardChallenge secret (challengeFor m s doc did) :: s.history } := by
  unfold onStandardSignIn
  split
  · exact .inl rfl
  · next didDoc _ =>
      split
      · exact .inl rfl
      · split
        · exact .inl rfl
        · dsimp only
          split
          · exact .inl rfl
          · next hjwt =>
              obtain ⟨doc, hdoc, -, rfl⟩ := makeJwt_eq_ok.mp hjwt
              exact .inr ⟨didDoc.subject, doc, _, hdoc, rfl, rfl⟩

/-- A presentation that passes the checks answers one of the challenges that are kept. -/
theorem authSecretMap_ne_nil {userName : String} {jwtVp : Jws} {info : CredentialInfo}
    (h : checkAuthToken host m s userName jwtVp = .ok info) : s.authSecretMap ≠ [] := by
  obtain ⟨vp, secret, vc, appDid, hchecked, -⟩ := checkAuthToken_eq_ok.mp h
  exact List.ne_nil_of_mem (KeyedTable.mem_of_get hchecked.pending).1

/-- `onStandardDidAuth` does nothing, or stores a user in answer to a challenge without
issuing a token, or issues one for a presentation that passes the checks. -/
theorem onStandardDidAuth_cases (host : Host) (m : Moment) (s : State)
    (req : StandardDidAuthRequest) :
    (onStandardDidAuth host m s req).1 = s ∨
      (s.authSecretMap ≠ [] ∧ StoresUser m s (onStandardDidAuth host m s req).1) ∨
      ∃ info doc index, checkAuthToken host m s req.userName req.jwtVp = .ok info ∧
        (adaptOldLogin m s info).2 = .ok index ∧ 0 ≤ index ∧ s.feedsDoc = some doc ∧
        m.builderFault = none ∧
        (onStandardDidAuth host m s req).1 = { (adaptOldLogin m s info).1 with
          history := .standardAccessToken req.jwtVp info.userDid index
            (accessTokenFor doc m.now info index) :: s.history } := by
  unfold onStandardDidAuth
  split
  · exact .inl rfl
  · next info hcheck =>
      have hanswers := authSecretMap_ne_nil hcheck
      have hstores := adaptOldLogin_stores m s info
      split
      · next hadapt =>
          rw [hadapt] at hstores
          exact .inr (.inl ⟨hanswers, hstores⟩)
      · next s' index hadapt =>
          rw [hadapt] at hstores
          split
          · exact .inr (.inl ⟨hanswers, hstores⟩)
          · next hindex =>
              split
              · exact .inr (.inl ⟨hanswers, hstores⟩)
              · next htoken =>
                  obtain ⟨doc, hdoc, hfault, rfl⟩ := makeJwt_eq_ok.mp htoken
                  refine .inr (.inr ⟨info, doc, index, hcheck, by rw [hadapt], not_lt.mp hindex,
                    hstores.feedsDoc.symm.trans hdoc, hfault, ?_⟩)
                  rw [hadapt, ← hstores.history]
                  rfl

/-- Only the record of what happened tells whether the token was issued. -/
theorem onStandardDidAuth_rest {req : StandardDidAuthRequest} {info : CredentialInfo}
    (hcheck : checkAuthToken host m s req.userName req.jwtVp = .ok info) :
    (onStandardDidAuth host m s req).1 = { (adaptOldLogin m s info).1 with
      history := (onStandardDidAuth host m s req).1.history } := by
  unfold onStandardDidAuth
  rw [hcheck]
  dsimp only
  split
  · next hadapt => rw [hadapt]
  · next hadapt =>
      rw [hadapt]
      split
      · rfl
      · split <;> rfl

/-- A presentation that passes the checks gets its token once the user is stored. -/
theorem onStandardDidAuth_token {req : StandardDidAuthRequest} {info : CredentialInfo}
    {doc : DidDocument} {index : ℤ}
    (hcheck : checkAuthToken host m s req.userName req.jwtVp = .ok info)
    (hadapt : (adaptOldLogin m s info).2 = .ok index) (hindex : 0 ≤ index)
    (hdoc : s.feedsDoc = some doc) (hbuilder : m.builderFault = none) :
    (onStandardDidAuth host m s req).1 = { (adaptOldLogin m s info).1 with
      history := .standardAccessToken req.jwtVp info.userDid index
        (accessTokenFor doc m.now info index) :: s.history } := by
  have hstores := adaptOldLogin_stores m s info
  have htoken : createAccessToken m (adaptOldLogin m s info).1 info index =
      .ok (accessTokenFor doc m.now info index) :=
    makeJwt_eq_ok.mpr ⟨doc, hstores.feedsDoc.trans hdoc, hbuilder, rfl⟩
  unfold onStandardDidAuth
  rw [hcheck]
  dsimp only
  split
  · next hfailed =>
      rw [hfailed] at hadapt
      cases hadapt
  · next s' other hstored =>
      rw [hstored] at hadapt hstores htoken
      obtain rfl := Except.ok.inj hadapt
      rw [if_neg (not_lt.mpr hindex), htoken, hstored, ← hstores.history]

/-- The same from what holds before the request. -/
theorem onStandardDidAuth_eq {req : StandardDidAuthRequest} {info : CredentialInfo}
    {doc : DidDocument} (hsound : AccountsSound s.db.users)
    (hcheck : checkAuthToken host m s req.userName req.jwtVp = .ok info)
    (hstored : Stored m s info doc) :
    (onStandardDidAuth host m s req).1 = { (adaptOldLogin m s info).1 with
      history := .standardAccessToken req.jwtVp info.userDid
        (asInt (userIdFor s.db.users info.userDid m.skipped))
        (accessTokenFor doc m.now info
          (asInt (userIdFor s.db.users info.userDid m.skipped))) :: s.history } :=
  onStandardDidAuth_token hcheck
    ((adaptOldLogin_eq_ok hsound).mpr ⟨hstored.owner, hstored.dbCalls, hstored.room, rfl⟩)
    hstored.index hstored.doc hstored.builder

/-- What `onStandardSignIn` needs for a challenge. -/
structure Challengeable (host : Host) (m : Moment) (s : State) (document : DidDocument) :
    Prop where
  valid : host.documentIsValid m.now document = true
  stores : m.stores = true
  imported : s.feedsDoc.isSome = true
  builder : m.builderFault = none

theorem onStandardSignIn_isOk_iff (req : StandardSignInRequest) :
    (∃ jwt, (onStandardSignIn host m s req).2 = .ok jwt) ↔
      ∃ document, req.document = some document ∧ Challengeable host m s document := by
  constructor
  · rintro ⟨jwt, hok⟩
    unfold onStandardSignIn at hok
    split at hok
    · cases hok
    · next document hdocument =>
        split at hok
        · cases hok
        · next hvalid =>
            split at hok
            · cases hok
            · next hstores =>
                dsimp only at hok
                split at hok
                · cases hok
                · next challenge hjwt =>
                    obtain ⟨doc, hdoc, hbuilder, -⟩ := makeJwt_eq_ok.mp hjwt
                    exact ⟨document, hdocument, {
                      valid := not_not.mp hvalid
                      stores := not_not.mp hstores
                      imported := by rw [hdoc]; rfl
                      builder := hbuilder }⟩
  · rintro ⟨document, hdocument, h⟩
    obtain ⟨doc, hdoc⟩ := Option.isSome_iff_exists.mp h.imported
    have hjwt : makeJwt m s (m.now + jwtExpiration) document.subject "DIDAuthChallenge"
        (challengeClaims s m.nonce) = .ok (challengeFor m s doc document.subject) :=
      makeJwt_eq_ok.mpr ⟨doc, hdoc, h.builder, rfl⟩
    refine ⟨challengeFor m s doc document.subject, ?_⟩
    simp only [onStandardSignIn, hdocument, h.valid, h.stores, hjwt, not_true_eq_false,
      if_false]

/-- A token is issued exactly when the presentation passes the checks and the user can
be stored. -/
theorem onStandardDidAuth_isOk_iff (hsound : AccountsSound s.db.users)
    (req : StandardDidAuthRequest) :
    (∃ jwt, (onStandardDidAuth host m s req).2 = .ok jwt) ↔
      ∃ info doc, checkAuthToken host m s req.userName req.jwtVp = .ok info ∧
        Stored m s info doc := by
  constructor
  · rintro ⟨jwt, hok⟩
    unfold onStandardDidAuth at hok
    split at hok
    · cases hok
    · next info hcheck =>
        have hstores := adaptOldLogin_stores m s info
        split at hok
        · cases hok
        · next s' index hadapt =>
            have hindex := (adaptOldLogin_eq_ok hsound).mp (congrArg Prod.snd hadapt)
            obtain ⟨howner, hdbCalls, hroom, rfl⟩ := hindex
            rw [hadapt] at hstores
            split at hok
            · cases hok
            · next hnonneg =>
                split at hok
                · cases hok
                · next token htoken =>
                    obtain ⟨doc, hdoc, hbuilder, -⟩ := makeJwt_eq_ok.mp htoken
                    exact ⟨info, doc, hcheck, {
                      owner := howner
                      dbCalls := hdbCalls
                      room := hroom
                      index := not_lt.mp hnonneg
                      doc := hstores.feedsDoc.symm.trans hdoc
                      builder := hbuilder }⟩
  · rintro ⟨info, doc, hcheck, h⟩
    have hadapt := (adaptOldLogin_eq_ok hsound).mpr ⟨h.owner, h.dbCalls, h.room, rfl⟩
    have hstores := adaptOldLogin_stores m s info
    rcases hstored : adaptOldLogin m s info with ⟨s', index⟩
    rw [hstored] at hadapt hstores
    obtain rfl : index = .ok (asInt (userIdFor s.db.users info.userDid m.skipped)) := hadapt
    have htoken : createAccessToken m s' info
        (asInt (userIdFor s.db.users info.userDid m.skipped)) =
          .ok (accessTokenFor doc m.now info
            (asInt (userIdFor s.db.users info.userDid m.skipped))) :=
      makeJwt_eq_ok.mpr ⟨doc, hstores.feedsDoc.trans h.doc, h.builder, rfl⟩
    refine ⟨accessTokenFor doc m.now info
      (asInt (userIdFor s.db.users info.userDid m.skipped)), ?_⟩
    simp only [onStandardDidAuth, hcheck, hstored, not_lt.mpr h.index, if_false, htoken]

end Specifications

end FeedsService.Auth
