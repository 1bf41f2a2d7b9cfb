import FeedsService.Auth.Did
import FeedsService.Feeds.Database

/-!
# The state of the two sign-ins

The binding of the service to its owner (`did.c`), the pending logins of the
legacy sign-in (`auth.c`) and the challenges of the standard one
(`StandardAuth.cpp`), over the users of the database.  A restart keeps the
database and the DID store only.  `history` is not part of the service: it
records what was signed and who was let in.
-/

namespace FeedsService.Auth

open FeedsService.Library FeedsService.Feeds

/-- `state` of `did.c`. -/
inductive Phase
  | noOwner
  | ownerDecled
  | didImped
  | vcIssed
  deriving DecidableEq

/-- The part of `UserInfo` that signing in uses.  A user id is a 64-bit column
that passes through `uint64_t` and back unchanged. -/
structure AuthUser where
  uid : ℤ
  did : String
  name : String
  email : String
  deriving DecidableEq

def AuthUser.info (ui : AuthUser) : UserInfo where
  uid := UInt64.ofInt ui.uid
  did := ui.did
  name := ui.name
  email := ui.email
  displayName := none
  avatar := none

structure Login where
  nonce : String
  sub : String
  expat : ℤ
  vcReq : Bool
  deriving DecidableEq

/-- An entry of `authSecretMap`: the nonce is its key. -/
structure AuthSecret where
  nonce : String
  did : String
  expiration : ℤ
  deriving DecidableEq

/-- What the service had the DID library store: whether it made a root identity, the DIDs
that it made with a private key, and the last credential under each id. -/
structure DidStore where
  rootIdentities : Bool
  documents : List DidDocument
  credentials : List Credential

/-- What happened so far: the challenges and tokens that were signed and sent, and
the logins that `chal_resp_is_valid` handed out.  Tokens carry the DID and the user
id they were made for. -/
inductive Entry
  | challenge (login : Login) (chal : Jws)
  | confirmed (login : Login) (response : Jws)
  | accessToken (login : Login) (did : String) (uid : ℤ) (token : Jws)
  | standardChallenge (secret : AuthSecret) (chal : Jws)
  | standardAccessToken (response : Jws) (did : String) (uid : ℤ) (token : Jws)
  deriving DecidableEq

namespace Entry

/-- The JWT that the service signed. -/
def signed : Entry → Option Jws
  | .challenge _ chal => some chal
  | .confirmed _ _ => none
  | .accessToken _ _ _ token => some token
  | .standardChallenge _ chal => some chal
  | .standardAccessToken _ _ _ token => some token

/-- The user whom a token was made for. -/
def issued : Entry → Option (String × ℤ × Jws)
  | .accessToken _ did uid token => some (did, uid, token)
  | .standardAccessToken _ did uid token => some (did, uid, token)
  | _ => none

end Entry

structure State where
  phase : Phase
  /-- `feeds_owner_info`, once it is set. -/
  ownerInfo : Option AuthUser
  /-- `feeds_doc`; `feeds_did` and `feeeds_auth_key_url` are read off it. -/
  feedsDoc : Option DidDocument
  feedsVc : Option Credential
  didStore : DidStore
  db : Db
  pendingLogins : List Login
  authSecretMap : List AuthSecret
  history : List Entry

/-- A new service, after its first `did_init`. -/
def State.init : State where
  phase := .noOwner
  ownerInfo := none
  feedsDoc := none
  feedsVc := none
  didStore := ⟨false, [], []⟩
  db := Db.init
  pendingLogins := []
  authSecretMap := []
  history := []

/-- The codes of `ErrCode.hpp` that `StandardAuth` returns, and a negative user index,
which it returns as if it were one. -/
inductive ErrCode
  | authBadDidDoc
  | authDidDocInvlid
  | authSaveDocFailed
  | authBadJwtBuilder
  | authBadJwtHeader
  | authBadJwtSubject
  | authBadJwtAudience
  | authBadJwtClaim
  | authBadJwtExpiration
  | authJwtSignFailed
  | authJwtCompactFailed
  | authBadJwtChallenge
  | authGetJwsClaimFailed
  | authGetPresentationFailed
  | authInvalidPresentation
  | authPresentationEmptyNonce
  | authPresentationBadNonce
  | authPresentationEmptyRealm
  | authPresentationBadRealm
  | authVerifiableCredentialBadCount
  | authCredentialInvalid
  | authCredentialBadInstanceId
  | authCredentialPropertyNotExists
  | authCredentialPropertyAppIdNotExists
  | authCredentialExpirationError
  | authNonceExpiredError
  | authUpdateOwnerError
  | authUpdateUserError
  | userIndex (index : ℤ)
  deriving DecidableEq

def ErrCode.code : ErrCode → ℤ
  | .authBadDidDoc => -160
  | .authDidDocInvlid => -161
  | .authSaveDocFailed => -164
  | .authBadJwtBuilder => -165
  | .authBadJwtHeader => -166
  | .authBadJwtSubject => -167
  | .authBadJwtAudience => -168
  | .authBadJwtClaim => -169
  | .authBadJwtExpiration => -170
  | .authJwtSignFailed => -171
  | .authJwtCompactFailed => -172
  | .authBadJwtChallenge => -173
  | .authGetJwsClaimFailed => -174
  | .authGetPresentationFailed => -175
  | .authInvalidPresentation => -176
  | .authPresentationEmptyNonce => -177
  | .authPresentationBadNonce => -178
  | .authPresentationEmptyRealm => -179
  | .authPresentationBadRealm => -180
  | .authVerifiableCredentialBadCount => -181
  | .authCredentialInvalid => -185
  | .authCredentialBadInstanceId => -189
  | .authCredentialPropertyNotExists => -190
  | .authCredentialPropertyAppIdNotExists => -191
  | .authCredentialExpirationError => -193
  | .authNonceExpiredError => -194
  | .authUpdateOwnerError => -195
  | .authUpdateUserError => -196
  | .userIndex index => index

/-- How the surroundings behave during one event. -/
structure Moment where
  /-- `time(NULL)` and `DateTime::Current()`. -/
  now : ℤ
  /-- The nonce that `crypto_random_nonce` would draw. -/
  nonce : String := ""
  /-- Memory allocations succeed. -/
  allocs : Bool := true
  /-- Credentials can be turned into text. -/
  marshals : Bool := true
  /-- The call on the JWT builder that fails, if one does. -/
  builderFault : Option ErrCode := none
  /-- The files of the DID store and of the DID documents can be written. -/
  stores : Bool := true
  /-- An `INSERT` succeeds. -/
  dbWrites : Bool := true
  /-- A `SELECT` succeeds. -/
  dbReads : Bool := true
  /-- How many ids `AUTOINCREMENT` leaves out before the next user. -/
  skipped : ℕ := 0

/-- The database calls succeed. -/
def Moment.DbCallsSucceed (m : Moment) : Prop :=
  m.dbWrites = true ∧ m.dbReads = true

inductive Err
  | notAuthorized
  | wrongState
  | accessTokenExp
  | internalError
  | invalidParams
  | invalidChalResp
  | invalidVc
  deriving DecidableEq

def Err.code : Err → ℤ
  | .notAuthorized => -3
  | .wrongState => -4
  | .accessTokenExp => -5
  | .internalError => -6
  | .invalidParams => -7
  | .invalidChalResp => -8
  | .invalidVc => -9

/-- How a handler of `did.c` or `auth.c` answers. -/
inductive Answer
  | silent
  | err (tsxId : UInt64) (ec : Err)
  | declOwner (tsxId : UInt64) (phase : String) (did tsxPayload : Option String)
  | impDid (tsxId : UInt64) (did tsxPayload : String)
  | issVc (tsxId : UInt64)
  | updateVc (tsxId : UInt64)
  | signinReqChal (tsxId : UInt64) (vcReq : Bool) (jws : Jws) (vc : Option Credential)
  | signinConfChal (tsxId : UInt64) (tk : Jws) (exp : ℤ)
  /-- The handler reads through a null `UserInfo`. -/
  | nullUserInfo

variable (host : Host) (m : Moment) (s : State)

/-- The key the service signs with. -/
def State.authKeyUrl : Option DidUrl :=
  s.feedsDoc.map DidDocument.defaultPublicKey

/-- The JWTs that the service has signed. -/
def State.signed : List Jws :=
  s.history.filterMap Entry.signed

/-- `DefaultJWSParser_Parse`: the JWT is signed by the key its header names and has
not expired. -/
def jwsParses (jws : Jws) : Bool :=
  host.signatureIsValid m.now jws ∧ ∀ expiration ∈ jws.expiration, m.now ≤ expiration

end FeedsService.Auth
