import FeedsService.Auth.Binding
import FeedsService.Auth.StandardAuth
import FeedsService.Failures.Calls

/-!
# The handlers of `did.c`, `auth.c` and `StandardAuth.cpp`, call by call

The handlers that change something, with the calls that may fail where the source makes
them.  Of the calls on a JWT builder and of those on a file the whole sequence counts as
one.  What a handler of `StandardAuth.cpp` leaves with is the code that it returns.
-/

namespace FeedsService.Failures

open FeedsService.Library FeedsService.Library.Handlers FeedsService.Library.Transactions
open FeedsService.Feeds FeedsService.Auth

abbrev AuthHandler (α : Type) :=
  Handler Call Auth.State Exit α

def refuses (err : Auth.Err) : Exit :=
  .err err.code

def returns (code : Auth.ErrCode) : Exit :=
  .err code.code

/-- What a request meets apart from faults. -/
structure Instant where
  now : ℤ
  nonce : String := ""
  skipped : ℕ := 0

def Instant.moment (t : Instant) : Moment where
  now := t.now
  nonce := t.nonce
  skipped := t.skipped

variable (host : Host) (t : Instant)

section Users

/-- The two statements of `db_upsert_user`. -/
def dbUpsertUser (ui : AuthUser) : Sql Db ℤ := do
  execute fun db => insertUser t.moment db ui
  query fun db => selectUserId t.moment db ui.did

def oinfoClear (s : Auth.State) : Auth.State :=
  { s with ownerInfo := none }

/-- `oinfo_init` clears the record when an allocation fails. -/
def oinfoInit (ui : AuthUser) : AuthHandler Unit :=
  invoke (refuses .internalError) fun fault s =>
    if fault = some .oinfoInit then
      (none, oinfoClear s)
    else
      (some (), { s with ownerInfo := some ui })

def isOwner (ui : AuthUser) (s : Auth.State) : Bool :=
  s.ownerInfo.any fun owner => ui.did = owner.did

/-- The record of the owner after `oinfo_upd`, which is called when the user is the owner. -/
def ownerAfter (ui : AuthUser) (s : Auth.State) : Option AuthUser :=
  s.ownerInfo.map fun owner =>
    if ui.did = owner.did then { owner with name := ui.name, email := ui.email } else owner

def oinfoUpd (ui : AuthUser) (e : Exit) : AuthHandler Unit := do
  let s ← get
  if isOwner ui s then
    attempt .oinfoUpd e
  else
    pure ()
  update fun s => { s with ownerInfo := ownerAfter ui s }

/-- Both sign-ins update the owner's record before they store the user. -/
def storeUser (ui : AuthUser) (ownerError : Exit) (userError : ℤ) : AuthHandler ℤ := do
  oinfoUpd ui ownerError
  mutate authDb (dbUpsertUser t ui) userError

end Users

section Binding

/-- The record that a declaration makes of the owner. -/
def declaredOwner (req : DeclOwnerReq) : AuthUser :=
  ⟨ownerUserId, req.ownerDid, "NA", "NA"⟩

/-- The first declaration; its record is cleared when the user cannot be stored. -/
def declareOwner (req : DeclOwnerReq) : AuthHandler Auth.Answer := do
  oinfoInit (declaredOwner req)
  let _ ← onError oinfoClear
    (mutate authDb (dbUpsertUser t (declaredOwner req)) Auth.Err.internalError.code)
  update fun s => { s with phase := .ownerDecled }
  return .declOwner req.tsxId "owner_declared" none none

def hdlDeclOwnerReq (req : DeclOwnerReq) : AuthHandler Auth.Answer := do
  let s ← get
  if s.phase = .noOwner then
    declareOwner t req
  else do
    require (refuses .notAuthorized) fun s => s.ownerInfo.map AuthUser.did = some req.ownerDid
    if s.phase = .didImped then
      attempt .genTsxPayload (refuses .internalError)
    else
      pure ()
    examine fun s =>
      match declOwnerAnswer s req with
      | .err _ ec => .error (refuses ec)
      | answer => .ok answer

/-- `RootIdentity_NewDIDByIndex`, whose result is assigned to `feeds_doc` in any case. -/
def newDid (doc : Option DidDocument) : AuthHandler DidDocument :=
  invoke (refuses .internalError) fun fault s =>
    let made := if fault = some .newDid then none else doc
    (made, { s with
      feedsDoc := made
      didStore := { s.didStore with documents := s.didStore.documents ++ made.toList } })

def withRootIdentity (s : Auth.State) : Auth.State :=
  { s with didStore := { s.didStore with rootIdentities := true } }

/-- The root identity, before a DID is made from it. -/
def rootIdentity (req : ImpDidReq) : AuthHandler Unit := do
  require .ignored fun s => s.phase = .ownerDecled
  if req.mnemo.isNone then do
    attempt .mnemonicGenerate (refuses .internalError)
    require (refuses .internalError) fun _ => req.generated
  else
    pure ()
  attempt .rootIdentityCreate (refuses .internalError)
  require (refuses .internalError) fun _ => req.identity
  update withRootIdentity

/-- The payload is made after the DID has been imported. -/
def importDid (req : ImpDidReq) : AuthHandler Auth.Answer := do
  let doc ← newDid req.doc
  update fun s => { s with phase := .didImped }
  attempt .genTsxPayload (refuses .internalError)
  let payload ← find (refuses .internalError) fun _ => req.payload
  return .impDid req.tsxId doc.subject payload

def hdlImpDidReq (req : ImpDidReq) : AuthHandler Auth.Answer := do
  rootIdentity req
  importDid req

/-- The checks of `process_vc_req`. -/
def vcToProcess (json : Json Credential) : AuthHandler Credential := do
  require (refuses .wrongState) fun s => s.phase = .didImped ∨ s.phase = .vcIssed
  attempt .vcUrl (refuses .internalError)
  let doc ← find (refuses .internalError) State.feedsDoc
  attempt .credentialFromJson (refuses .invalidParams)
  let vc ← find (refuses .invalidParams) fun _ => json
  require (refuses .invalidParams) fun _ => host.credentialIsValid t.now vc
  require (refuses .invalidParams) fun s => vcFits s doc vc
  attempt .storeCredential (refuses .internalError)
  return vc

def processVcReq (json : Json Credential) : AuthHandler Unit := do
  let vc ← vcToProcess host t json
  update fun s => { s with
    didStore := s.didStore.storeCredential vc
    feedsVc := some vc
    phase := .vcIssed }

/-- `process_vc_req` tells its caller of an error by the marshalled answer: an error that
cannot be marshalled counts as none. -/
def unlessUnmarshalled (handler : AuthHandler Unit) : AuthHandler Unit :=
  ⟨fun fault s =>
    match handler.run fault s with
    | (.ok (), s') => (.ok (), s')
    | (.error e, s') => (if fault = some .marshalErr then .ok () else .error e, s')⟩

def hdlIssVcReq (req : IssVcReq) : AuthHandler Auth.Answer := do
  unlessUnmarshalled (processVcReq host t req.vc)
  return .issVc req.tsxId

/-- `did_is_ready`, without which a request is ignored. -/
def vcIssed : AuthHandler Unit :=
  require .ignored Auth.didIsReady

def hdlUpdateVcReq (req : UpdateVcReq) : AuthHandler Auth.Answer := do
  vcIssed
  attempt .createUinfoFromAccessToken (refuses .accessTokenExp)
  let uinfo ← find (refuses .accessTokenExp) fun s =>
    Auth.createUinfoFromAccessToken host t.moment s req.tk
  require (refuses .notAuthorized) fun _ => uinfo.uid = ownerUserId
  unlessUnmarshalled (processVcReq host t req.vc)
  return .updateVc req.tsxId

end Binding

section SignIn

/-- `gen_chal` and `gen_access_token`. -/
def builtBy (call : Call) (e : Exit) : AuthHandler DidDocument := do
  attempt call e
  find e State.feedsDoc

/-- `db_need_upsert_user`, whose failure counts as yes. -/
def needUpsertUser (did : String) : AuthHandler Bool := do
  let failed ← failing .dbNeedUpsertUser
  let s ← get
  return failed || dbNeedUpsertUser t.moment s.db did

/-- The login and the challenge of `hdl_signin_req_chal_req`. -/
def challengeFor (req : SigninReqChalReq) : AuthHandler (Login × Jws × Option Credential) := do
  vcIssed
  require (refuses .invalidParams) fun _ => ¬ host.maxDidLen ≤ req.iss.utf8ByteSize
  attempt .loginCreate (refuses .internalError)
  let vcReq ← needUpsertUser t req.iss
  let doc ← builtBy .genChal (refuses .internalError)
  let vc ← if req.vcReq then do
      attempt .credentialToJson (refuses .internalError)
      let vc ← find (refuses .internalError) State.feedsVc
      pure (some vc)
    else
      pure none
  return (⟨t.nonce, req.iss, t.now + 60, vcReq⟩, chalJws doc host.nodeId t.nonce, vc)

def hdlSigninReqChalReq (req : SigninReqChalReq) : AuthHandler Auth.Answer := do
  let (login, chal, vc) ← challengeFor host t req
  update fun s => { s with
    pendingLogins := pendingLoginPut login s.pendingLogins
    history := .challenge login chal :: s.history }
  return .signinReqChal req.tsxId login.vcReq chal vc

/-- The login that a response confirms. -/
def confirmedLogin (req : SigninConfChalReq) : AuthHandler Login := do
  vcIssed
  attempt .jwsParse (refuses .invalidChalResp)
  require (refuses .invalidChalResp) fun _ => jwsParses host t.moment req.jws
  attempt .claimAsJson (refuses .invalidChalResp)
  attempt .presentationFromJson (refuses .invalidChalResp)
  let login ← invoke (refuses .invalidChalResp) fun _ s =>
    let (pendingLogins, login) := chalRespIsValid host t.moment s req.jws
    (login, { s with pendingLogins := pendingLogins })
  update fun s => { s with history := .confirmed login req.jws :: s.history }
  return login

/-- `create_uinfo_from_vc`.  When `strdup("NA")` fails the e-mail address is a null pointer:
the owner's record is not made from it, and the column takes no null. -/
def uinfoFromVc (req : SigninConfChalReq) (json : Json Credential) : AuthHandler AuthUser := do
  attempt .credentialFromJson (refuses .invalidVc)
  let vc ← find (refuses .invalidVc) fun _ => json
  require (refuses .invalidVc) fun _ => host.credentialIsValid t.now vc
  require (refuses .invalidVc) fun _ => req.jws.issuer = vc.owner
  attempt .createUinfoFromVc (refuses .internalError)
  let uinfo ← find (refuses .internalError) fun _ => createUinfoFromVc t.moment req.jws.issuer vc
  let s ← get
  if (vc.getProperty "email").isNone then
    attempt .strdupEmail (if isOwner uinfo s then .crash else refuses .internalError)
  else
    pure ()
  return uinfo

/-- The stored user; without one the handler reads through a null pointer. -/
def storedUser (login : Login) : AuthHandler AuthUser := do
  require (refuses .invalidParams) fun _ => ¬ login.vcReq
  attempt .dbGetUser (refuses .internalError)
  let uinfo ← find (refuses .internalError) fun s => dbGetUser t.moment s.db login.sub
  find .crash fun _ => uinfo

/-- The token of a confirmed login. -/
def tokenFor (login : Login) (uinfo : AuthUser) : AuthHandler Jws := do
  let doc ← builtBy .genAccessToken (refuses .internalError)
  let token := accessTokenJws doc t.now uinfo
  update fun s => { s with
    history := .accessToken login uinfo.did uinfo.uid token :: s.history }
  return token

/-- What `hdl_signin_conf_chal_req` does once there is a login. -/
def signInLogin (req : SigninConfChalReq) (login : Login) : AuthHandler Jws :=
  match req.vc with
  | none => do
      let uinfo ← storedUser t login
      tokenFor t login uinfo
  | some json => do
      let uinfo ← uinfoFromVc host t req json
      let uid ← storeUser t uinfo (refuses .internalError) Auth.Err.internalError.code
      tokenFor t login { uinfo with uid := uid }

def hdlSigninConfChalReq (req : SigninConfChalReq) : AuthHandler Auth.Answer := do
  let login ← confirmedLogin host t req
  let token ← signInLogin host t req login
  return .signinConfChal req.tsxId token (t.now + accessTokenValidityPeriod)

end SignIn

section StandardAuth

/-- The checks of `onStandardSignIn`; its challenge names the document it has saved. -/
def onStandardSignIn (req : StandardSignInRequest) : AuthHandler Jws := do
  attempt .documentFromJson (returns .authBadDidDoc)
  let didDoc ← find (returns .authBadDidDoc) fun _ => req.document
  require (returns .authDidDocInvlid) fun _ => host.documentIsValid t.now didDoc
  attempt .saveDocument (returns .authSaveDocFailed)
  let doc ← builtBy .makeJwt (returns .authBadJwtBuilder)
  let s ← get
  let secret : AuthSecret := ⟨t.nonce, didDoc.subject, t.now + jwtExpiration⟩
  let challenge := standardJws doc secret.expiration didDoc.subject "DIDAuthChallenge"
    (challengeClaims s t.nonce)
  update fun s => { s with
    authSecretMap := putAuthSecret secret s.authSecretMap
    history := .standardChallenge secret challenge :: s.history }
  return challenge

/-- `checkAuthToken`: its first calls, and then all that it checks. -/
def authToken (req : StandardDidAuthRequest) : AuthHandler CredentialInfo := do
  attempt .jwsParse (returns .authBadJwtChallenge)
  require (returns .authBadJwtChallenge) fun _ => jwsParses host t.moment req.jwtVp
  attempt .claimAsJson (returns .authGetJwsClaimFailed)
  let _ ← find (returns .authGetJwsClaimFailed) fun _ =>
    req.jwtVp.getClaimAsJson "presentation"
  attempt .presentationFromJson (returns .authGetPresentationFailed)
  examine fun s => (checkAuthToken host t.moment s req.userName req.jwtVp).mapError returns

/-- The check of what `adaptOldLogin` returns, and `createAccessToken`. -/
def createAccessToken (req : StandardDidAuthRequest) (info : CredentialInfo) (uid : ℤ) :
    AuthHandler Jws := do
  require (.err (asInt uid)) fun _ => 0 ≤ asInt uid
  let doc ← builtBy .makeJwt (returns .authBadJwtBuilder)
  let token := standardJws doc (min (t.now + accessExpiration) info.expiration)
    info.instanceDid "AccessToken" (accessTokenClaims info (asInt uid))
  update fun s => { s with
    history := .standardAccessToken req.jwtVp info.userDid (asInt uid) token :: s.history }
  return token

def onStandardDidAuth (req : StandardDidAuthRequest) : AuthHandler Jws := do
  let info ← authToken host t req
  let uid ← storeUser t info.user (returns .authUpdateOwnerError)
    Auth.ErrCode.authUpdateUserError.code
  createAccessToken t req info uid

end StandardAuth

end FeedsService.Failures
