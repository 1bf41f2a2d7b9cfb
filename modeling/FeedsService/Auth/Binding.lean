import FeedsService.Auth.SignIn

/-!
# Binding the service to its owner

The request handlers of `did.c` and `did_init`, which finds the phase of the
binding again after a restart.
-/

namespace FeedsService.Auth

open FeedsService.Library FeedsService.Feeds

variable (host : Host) (m : Moment) (s : State)

def ownerUserId : ℤ :=
  1

def vcFrag : String :=
  "credential"

section Declaration

/-- `payload` is what publishing the DID hands to `create_id_tsx`, if it does. -/
structure DeclOwnerReq where
  tsxId : UInt64
  nonce : String
  ownerDid : String
  payload : Option String

/-- The answer to the owner in each phase after the declaration. -/
def declOwnerAnswer (req : DeclOwnerReq) : Answer :=
  match s.phase with
  | .noOwner | .ownerDecled => .declOwner req.tsxId "owner_declared" none none
  | .didImped =>
      match req.payload with
      | none => .err req.tsxId .internalError
      | some payload =>
          .declOwner req.tsxId "did_imported" (s.feedsDoc.map DidDocument.subject) (some payload)
  | .vcIssed => .declOwner req.tsxId "credential_issued" none none

def hdlDeclOwnerReq (req : DeclOwnerReq) : State × Answer :=
  let ui : AuthUser := ⟨ownerUserId, req.ownerDid, "NA", "NA"⟩
  if s.phase = .noOwner then
    if ¬ m.allocs then
      (s, .err req.tsxId .internalError)
    else
      match dbUpsertUser m s.db ui with
      | (db, none) => ({ s with db := db, ownerInfo := none }, .err req.tsxId .internalError)
      | (db, some _) =>
          ({ s with db := db, ownerInfo := some ui, phase := .ownerDecled },
            declOwnerAnswer s req)
  else if s.ownerInfo.map AuthUser.did ≠ some req.ownerDid then
    (s, .err req.tsxId .notAuthorized)
  else
    (s, declOwnerAnswer s req)

end Declaration

section Import

/-- The mnemonic, passphrase and index go to the DID library; `generated` says whether it
finds a mnemonic when the request has none, `identity` whether it creates the root
identity, `doc` is the DID it makes. -/
structure ImpDidReq where
  tsxId : UInt64
  mnemo : Option String
  passphrase : Option String
  idx : UInt64
  generated : Bool
  identity : Bool
  doc : Option DidDocument
  payload : Option String

def hdlImpDidReq (req : ImpDidReq) : State × Answer :=
  if s.phase ≠ .ownerDecled then
    (s, .silent)
  else if req.mnemo.isNone ∧ ¬ req.generated then
    (s, .err req.tsxId .internalError)
  else if ¬ req.identity then
    (s, .err req.tsxId .internalError)
  else
    let s' := { s with
      didStore := { s.didStore with rootIdentities := true }
      feedsDoc := req.doc }
    match req.doc with
    | none => (s', .err req.tsxId .internalError)
    | some doc =>
        let s'' := { s' with
          didStore := { s'.didStore with documents := s.didStore.documents ++ [doc] }
          phase := .didImped }
        match req.payload with
        | none => (s'', .err req.tsxId .internalError)
        | some payload => (s'', .impDid req.tsxId doc.subject payload)

end Import

section Credentials

structure IssVcReq where
  tsxId : UInt64
  vc : Json Credential

structure UpdateVcReq where
  tsxId : UInt64
  tk : Jws
  vc : Json Credential

/-- What `process_vc_req` asks of a valid credential: it is the service's own, issued by
the owner, and newer than the one it replaces. -/
def vcFits (doc : DidDocument) (vc : Credential) : Bool :=
  vc.id = ⟨doc.subject, vcFrag⟩ ∧
    vc.owner = doc.subject ∧
    some vc.issuer = s.ownerInfo.map AuthUser.did ∧
    ∀ current ∈ s.feedsVc, s.phase = .vcIssed → current.issuanceDate < vc.issuanceDate

/-- `DIDStore_StoreCredential` replaces the credential of the same id. -/
def DidStore.storeCredential (store : DidStore) (vc : Credential) : DidStore :=
  { store with credentials := KeyedTable.put Credential.id store.credentials vc }

/-- `process_vc_req`: the error it answers, if any. -/
def processVcReq (json : Json Credential) : State × Option Err :=
  if s.phase ≠ .didImped ∧ s.phase ≠ .vcIssed then
    (s, some .wrongState)
  else
    match s.feedsDoc with
    | none => (s, some .internalError)
    | some doc =>
        match json with
        | none => (s, some .invalidParams)
        | some vc =>
            if ¬ host.credentialIsValid m.now vc then
              (s, some .invalidParams)
            else if ¬ vcFits s doc vc then
              (s, some .invalidParams)
            else if ¬ m.stores then
              (s, some .internalError)
            else
              ({ s with
                  didStore := s.didStore.storeCredential vc
                  feedsVc := some vc
                  phase := .vcIssed }, none)

def hdlIssVcReq (req : IssVcReq) : State × Answer :=
  match processVcReq host m s req.vc with
  | (s', some ec) => (s', .err req.tsxId ec)
  | (s', none) => (s', .issVc req.tsxId)

def hdlUpdateVcReq (req : UpdateVcReq) : State × Answer :=
  if ¬ didIsReady s then
    (s, .silent)
  else
    match createUinfoFromAccessToken host m s req.tk with
    | none => (s, .err req.tsxId .accessTokenExp)
    | some uinfo =>
        if uinfo.uid ≠ ownerUserId then
          (s, .err req.tsxId .notAuthorized)
        else
          match processVcReq host m s req.vc with
          | (s', some ec) => (s', .err req.tsxId ec)
          | (s', none) => (s', .updateVc req.tsxId)

end Credentials

section Restart

/-- What the DID library answers `did_init`: whether the store contains root identities,
the document of the first DID that it lists, and the credential of that DID. -/
structure Loaded where
  rootIdentities : Bool
  document : Option DidDocument
  credential : Option Credential

/-- `feeds_doc`, as `did_init` asks for it. -/
def Loaded.feedsDoc (loaded : Loaded) : Option DidDocument :=
  if loaded.rootIdentities then loaded.document else none

/-- What is asked of the library: a store that is opened again has what was stored in it. -/
structure Loaded.OfStore (loaded : Loaded) (store : DidStore) : Prop where
  roots : loaded.rootIdentities = store.rootIdentities
  listed : ∀ doc ∈ loaded.document, doc ∈ store.documents
  lists : store.documents ≠ [] → loaded.document ≠ none
  loads : ∀ doc ∈ loaded.document, loaded.credential =
    KeyedTable.get Credential.id store.credentials ⟨doc.subject, vcFrag⟩

/-- `did_init` and `auth_init` in a new process, whose other variables start out empty;
none when the service does not come up. -/
def restart (loaded : Loaded) : Option State :=
  let fresh : State := { State.init with
    didStore := s.didStore
    db := s.db
    history := s.history }
  if ¬ (m.allocs ∧ m.stores) then
    none
  else
    match dbGetOwner m s.db with
    | none => none
    | some none => some fresh
    | some (some ui) =>
        let decled := { fresh with ownerInfo := some ui, phase := .ownerDecled }
        match loaded.feedsDoc with
        | none => some decled
        | some doc =>
            let imped := { decled with feedsDoc := some doc, phase := .didImped }
            match loaded.credential with
            | none => some imped
            | some vc => some { imped with feedsVc := some vc, phase := .vcIssed }

/-- What a restart keeps, and the phase that it finds. -/
structure Restarted (s t : State) : Prop where
  db : t.db = s.db
  history : t.history = s.history
  pendingLogins : t.pendingLogins = []
  authSecretMap : t.authSecretMap = []
  owner : (t.phase = .noOwner ∧ t.ownerInfo = none ∧ t.feedsDoc = none ∧
      ∀ did, (1, did) ∉ accounts s.db.users) ∨
    ∃ owner, t.phase ≠ .noOwner ∧ t.ownerInfo = some owner ∧
      (1, owner.did) ∈ accounts s.db.users ∧ (t.phase = .ownerDecled ↔ t.feedsDoc = none)

theorem dbGetOwner_eq_some {m : Moment} {db : Db} {owner : Option AuthUser}
    (h : dbGetOwner m db = some owner) :
    (owner = none ∧ ∀ did, (1, did) ∉ accounts db.users) ∨
      ∃ ui, owner = some ui ∧ (1, ui.did) ∈ accounts db.users := by
  rw [dbGetOwner] at h
  split at h
  · obtain rfl := Option.some.inj h
    cases hfind : db.users.find? fun row => row.userId = 1 with
    | none =>
        refine .inl ⟨rfl, fun did hdid => ?_⟩
        obtain ⟨row, hrow, huid, -⟩ := mem_accounts.mp hdid
        exact absurd huid (by simpa using List.find?_eq_none.mp hfind row hrow)
    | some row =>
        refine .inr ⟨_, rfl, mem_accounts.mpr ⟨row, List.mem_of_find?_eq_some hfind, ?_, rfl⟩⟩
        simpa using List.find?_some hfind
  · cases h

theorem restart_eq_some {m : Moment} {s t : State} {loaded : Loaded}
    (h : restart m s loaded = some t) : Restarted s t := by
  unfold restart at h
  split at h
  · cases h
  · split at h
    · cases h
    · next hnone =>
        rcases dbGetOwner_eq_some hnone with ⟨-, hnobody⟩ | ⟨ui, hui, -⟩
        · rw [← Option.some.inj h]
          exact ⟨rfl, rfl, rfl, rfl, .inl ⟨rfl, rfl, rfl, hnobody⟩⟩
        · cases hui
    · next ui howner =>
        rcases dbGetOwner_eq_some howner with ⟨hnone, -⟩ | ⟨ui', hui, hfirst⟩
        · cases hnone
        · obtain rfl := Option.some.inj hui
          dsimp only at h
          split at h
          · rw [← Option.some.inj h]
            exact ⟨rfl, rfl, rfl, rfl, .inr ⟨ui, by simp, rfl, hfirst, by simp [State.init]⟩⟩
          · split at h
            · rw [← Option.some.inj h]
              exact ⟨rfl, rfl, rfl, rfl, .inr ⟨ui, by simp, rfl, hfirst, by simp⟩⟩
            · rw [← Option.some.inj h]
              exact ⟨rfl, rfl, rfl, rfl, .inr ⟨ui, by simp, rfl, hfirst, by simp⟩⟩

end Restart

end FeedsService.Auth
