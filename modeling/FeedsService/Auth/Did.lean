import Mathlib.Data.Int.Notation
import Mathlib.Data.Nat.Notation

/-!
# Objects of the DID library

Credentials, presentations and JWTs as the getters of the DID library show them.
A compact JWT stands for what it decodes to; a text that decodes to nothing goes
with those that the parser refuses.  Whether a signature verifies is a matter of
the library and part of `Host`, which gathers what lies outside the service.
-/

namespace FeedsService.Auth

/-- A text handed to one of the `FromJson` functions: what it decodes to, if it does. -/
abbrev Json (α : Type) :=
  Option α

structure DidUrl where
  did : String
  «fragment» : String
  deriving DecidableEq

structure DidDocument where
  subject : String
  defaultPublicKey : DidUrl
  deriving DecidableEq

structure Credential where
  id : DidUrl
  owner : String
  issuer : String
  properties : List (String × String)
  issuanceDate : ℤ
  expirationDate : ℤ
  deriving DecidableEq

/-- `Credential_GetProperty`. -/
def Credential.getProperty (vc : Credential) (name : String) : Option String :=
  vc.properties.lookup name

/-- The nonce and the realm of the proof may be missing. -/
structure Presentation where
  holder : String
  nonce : Option String
  realm : Option String
  credentials : List Credential
  deriving DecidableEq

inductive Claim
  | text (value : String)
  | number (value : ℤ)
  | object (presentation : Json Presentation)
  deriving DecidableEq

structure Jws where
  header : List (String × String)
  /-- The key that the header names, when it is a DID URL. -/
  keyId : Option DidUrl
  issuer : String
  subject : Option String
  audience : Option String
  expiration : Option ℤ
  claims : List (String × Claim)
  deriving DecidableEq

namespace Jws

/-- `JWT_GetClaim`. -/
def getClaim (jws : Jws) (name : String) : Option String :=
  match jws.claims.lookup name with
  | some (.text value) => some value
  | _ => none

/-- `JWT_GetClaimAsInteger`, which gives 0 for a claim that is missing. -/
def getClaimAsInteger (jws : Jws) (name : String) : ℤ :=
  match jws.claims.lookup name with
  | some (.number value) => value
  | _ => 0

/-- `JWT_GetClaimAsJson`; a claim that is no presentation decodes to none. -/
def getClaimAsJson (jws : Jws) (name : String) : Option (Json Presentation) :=
  match jws.claims.lookup name with
  | some (.object presentation) => some presentation
  | some _ => some none
  | none => none

/-- `JWT_GetExpiration`, which gives 0 for a JWT without one. -/
def getExpiration (jws : Jws) : ℤ :=
  jws.expiration.getD 0

/-- The presentation that both sign-ins read out of a JWT. -/
def presentation (jws : Jws) : Option Presentation :=
  (jws.getClaimAsJson "presentation").join

end Jws

/-- What lies outside the service and does not change: the checks of the DID
library, the node id that Carrier reports and the library's bound on the length
of a DID. -/
structure Host where
  /-- A JWT is signed by the key it names. -/
  signatureIsValid : ℤ → Jws → Bool
  presentationIsValid : ℤ → Presentation → Bool
  credentialIsValid : ℤ → Credential → Bool
  documentIsValid : ℤ → DidDocument → Bool
  nodeId : String
  maxDidLen : ℕ

end FeedsService.Auth
