import FeedsService.Auth.AccessTokens

/-!
# The phases of the binding

The four requests of `did.c` move the binding forward one phase at a time.  What
one of them does to the state is summed up in `Advance`; the invariant ties the
credential to the owner and to the service's DID.
-/

namespace FeedsService.Auth

open FeedsService.Library FeedsService.Feeds FeedsService.Runs

/-- The requests that bind the service to its owner. -/
def Event.Binds : Event → Prop
  | .declOwner _ | .impDid _ | .issVc _ | .updateVc _ => True
  | _ => False

/-- A step that handles one of these requests, from any peer. -/
def BindingStep (host : Host) (s : State) (a : Action) (t : State) : Prop :=
  a.event.Binds ∧ Step host s a t

section Advance

/-- What a request does to the binding. -/
inductive Advance (host : Host) (a : Action) (s : State) : State → Prop
  | same : Advance host a s s
  | declared {ui : AuthUser} {db : Db} {uid : ℤ} (hphase : s.phase = .noOwner)
      (hresult : dbUpsertUser a.moment s.db ui = (db, some uid)) :
      Advance host a s { s with db := db, ownerInfo := some ui, phase := .ownerDecled }
  | declareFailed {req : DeclOwnerReq} {ui : AuthUser} {db : Db}
      (hevent : a.event = .declOwner req) (hphase : s.phase = .noOwner)
      (hallocs : a.moment.allocs = true)
      (hresult : dbUpsertUser a.moment s.db ui = (db, none)) :
      Advance host a s { s with db := db, ownerInfo := none }
  | importFailed (hphase : s.phase = .ownerDecled) :
      Advance host a s { s with
        didStore := { s.didStore with rootIdentities := true }
        feedsDoc := none }
  | imported {doc : DidDocument} (hphase : s.phase = .ownerDecled) :
      Advance host a s { s with
        didStore := { s.didStore with
          rootIdentities := true
          documents := s.didStore.documents ++ [doc] }
        feedsDoc := some doc
        phase := .didImped }
  | credentialed {doc : DidDocument} {vc : Credential}
      (hphase : s.phase = .didImped ∨ s.phase = .vcIssed) (hdoc : s.feedsDoc = some doc)
      (hvalid : host.credentialIsValid a.moment.now vc = true) (hfits : vcFits s doc vc = true) :
      Advance host a s { s with
        didStore := s.didStore.storeCredential vc
        feedsVc := some vc
        phase := .vcIssed }

variable {host : Host} {a : Action} {s t : State}

theorem hdlDeclOwnerReq_advance {req : DeclOwnerReq} (hevent : a.event = .declOwner req) :
    Advance host a s (hdlDeclOwnerReq a.moment s req).1 := by
  simp only [hdlDeclOwnerReq]
  split
  · next hphase =>
      split
      · exact .same
      · next hallocs =>
          have hallocs : a.moment.allocs = true := by simpa using hallocs
          split
          · next hresult => exact .declareFailed hevent hphase hallocs hresult
          · next hresult => exact .declared hphase hresult
  · split
    · exact .same
    · exact .same

theorem hdlImpDidReq_advance (req : ImpDidReq) : Advance host a s (hdlImpDidReq s req).1 := by
  simp only [hdlImpDidReq]
  split
  · exact .same
  · next hphase =>
      have hdecled : s.phase = .ownerDecled := by simpa using hphase
      split
      · exact .same
      · split
        · exact .same
        · cases hdoc : req.doc with
          | none => exact .importFailed hdecled
          | some doc => cases req.payload <;> exact .imported hdecled

theorem processVcReq_advance (host : Host) (a : Action) (s : State) (json : Json Credential) :
    Advance host a s (processVcReq host a.moment s json).1 := by
  simp only [processVcReq]
  split
  · exact .same
  · next hphase =>
      have hbound : s.phase = .didImped ∨ s.phase = .vcIssed := by
        by_contra hnot
        rw [not_or] at hnot
        exact hphase hnot
      split
      · exact .same
      · next doc hdoc =>
          cases json with
          | none => exact .same
          | some vc =>
              dsimp only
              split
              · exact .same
              · next hvalid =>
                  have hvalid : host.credentialIsValid a.moment.now vc = true := by
                    simpa using hvalid
                  split
                  · exact .same
                  · next hfits =>
                      have hfits : vcFits s doc vc = true := by simpa using hfits
                      split
                      · exact .same
                      · exact .credentialed hbound hdoc hvalid hfits

theorem hdlIssVcReq_advance (req : IssVcReq) :
    Advance host a s (hdlIssVcReq host a.moment s req).1 := by
  have hprocess := processVcReq_advance host a s req.vc
  simp only [hdlIssVcReq]
  split <;> next hresult => simpa only [hresult] using hprocess

theorem hdlUpdateVcReq_advance (req : UpdateVcReq) :
    Advance host a s (hdlUpdateVcReq host a.moment s req).1 := by
  have hprocess := processVcReq_advance host a s req.vc
  simp only [hdlUpdateVcReq]
  split
  · exact .same
  · split
    · exact .same
    · split
      · exact .same
      · split <;> next hresult => simpa only [hresult] using hprocess

/-- Every request does one of these things. -/
theorem BindingStep.advance (hstep : BindingStep host s a t) : Advance host a s t := by
  obtain ⟨hbinds, hnext⟩ := hstep
  rw [Step, Performs, next] at hnext
  split at hnext
  · next req hevent => exact Option.some.inj hnext ▸ hdlDeclOwnerReq_advance hevent
  · next req _ => exact Option.some.inj hnext ▸ hdlImpDidReq_advance req
  · next req _ => exact Option.some.inj hnext ▸ hdlIssVcReq_advance req
  · next req _ => exact Option.some.inj hnext ▸ hdlUpdateVcReq_advance req
  all_goals next hevent => exact absurd hbinds (by simp [hevent, Event.Binds])

end Advance

section Progress

variable {host : Host} {a : Action} {s t : State}

def Phase.index : Phase → ℕ
  | .noOwner => 0
  | .ownerDecled => 1
  | .didImped => 2
  | .vcIssed => 3

/-- `feeds_owner_info.did` -/
def State.ownerDid (s : State) : Option String :=
  s.ownerInfo.map AuthUser.did

/-- `feeds_did` -/
def State.feedsDid (s : State) : Option String :=
  s.feedsDoc.map DidDocument.subject

/-- The credential is the service's own, and the owner issued it. -/
structure IssuedByOwner (s : State) (vc : Credential) : Prop where
  id : ∃ did, s.feedsDid = some did ∧ vc.id = ⟨did, vcFrag⟩
  owner : s.feedsDid = some vc.owner
  issuer : s.ownerDid = some vc.issuer

/-- How a request moves the binding; `valid` is what is said of the credential of
the service besides. -/
structure Progress (valid : Credential → Prop) (s t : State) : Prop where
  phase : t.phase = s.phase ∨ t.phase.index = s.phase.index + 1
  ownerDid : s.phase ≠ .noOwner → t.ownerDid = s.ownerDid
  feedsDid : s.phase = .didImped ∨ s.phase = .vcIssed → t.feedsDid = s.feedsDid
  credential : t.phase = .vcIssed → ∃ vc, t.feedsVc = some vc ∧ IssuedByOwner t vc ∧ valid vc
  newer : ∀ old new, s.feedsVc = some old → t.feedsVc = some new →
    new = old ∨ old.issuanceDate < new.issuanceDate

/-- After the request the credential of a bound service is valid. -/
def KeepsValid (host : Host) (s : State) (a : Action) (t : State) : Prop :=
  Progress (fun vc => host.credentialIsValid a.moment.now vc = true) s t

/-- The credential of a bound service was valid when it was stored. -/
def StoresValid (host : Host) (s : State) (a : Action) (t : State) : Prop :=
  Progress (fun vc => s.feedsVc ≠ some vc → host.credentialIsValid a.moment.now vc = true) s t

/-- There is a credential in the last phase only, and it is the one the owner issued. -/
structure Credentialed (s : State) : Prop where
  missing : s.phase ≠ .vcIssed → s.feedsVc = none
  issued : s.phase = .vcIssed → ∃ vc, s.feedsVc = some vc ∧ IssuedByOwner s vc

theorem Credentialed.init : Credentialed State.init where
  missing _ := rfl
  issued hphase := by cases hphase

/-- The credentials that `process_vc_req` lets through. -/
theorem issuedByOwner_of_fits {doc : DidDocument} {vc : Credential} (hdoc : s.feedsDoc = some doc)
    (hfits : vcFits s doc vc = true) : IssuedByOwner s vc := by
  simp only [vcFits, decide_eq_true_eq] at hfits
  obtain ⟨hid, howner, hissuer, -⟩ := hfits
  have hdid : s.feedsDid = some doc.subject := by rw [State.feedsDid, hdoc, Option.map_some]
  exact ⟨⟨doc.subject, hdid, hid⟩, howner ▸ hdid, hissuer.symm⟩

theorem newer_of_fits {doc : DidDocument} {old vc : Credential} (hphase : s.phase = .vcIssed)
    (hold : s.feedsVc = some old) (hfits : vcFits s doc vc = true) :
    old.issuanceDate < vc.issuanceDate := by
  simp only [vcFits, decide_eq_true_eq] at hfits
  exact hfits.2.2.2 old hold hphase

/-- A request that leaves the service without a credential. -/
theorem Progress.of_missing {valid : Credential → Prop}
    (hphase : t.phase = s.phase ∨ t.phase.index = s.phase.index + 1)
    (howner : s.phase ≠ .noOwner → t.ownerDid = s.ownerDid)
    (hbefore : s.phase = .noOwner ∨ s.phase = .ownerDecled) (hnone : s.feedsVc = none)
    (hafter : t.phase ≠ .vcIssed) : Progress valid s t where
  phase := hphase
  ownerDid := howner
  feedsDid himported := by rcases hbefore with hbefore | hbefore <;> simp [hbefore] at himported
  credential hissued := absurd hissued hafter
  newer old new hold := by
    rw [hnone] at hold
    cases hold

theorem Credentialed.step (h : Credentialed s) (hstep : BindingStep host s a t) :
    Credentialed t := by
  cases hstep.advance with
  | same => exact h
  | declared hphase => exact ⟨fun _ => h.missing (by simp [hphase]), by simp⟩
  | declareFailed _ hphase => exact ⟨fun _ => h.missing (by simp [hphase]), by simp [hphase]⟩
  | importFailed hphase => exact ⟨fun _ => h.missing (by simp [hphase]), by simp [hphase]⟩
  | imported hphase => exact ⟨fun _ => h.missing (by simp [hphase]), by simp⟩
  | credentialed _ hdoc _ hfits =>
      have hissued := issuedByOwner_of_fits hdoc hfits
      exact ⟨by simp, fun _ => ⟨_, rfl, hissued.id, hissued.owner, hissued.issuer⟩⟩

theorem Credentialed.storesValid (h : Credentialed s) (hstep : BindingStep host s a t) :
    StoresValid host s a t := by
  cases hstep.advance with
  | same =>
      refine ⟨.inl rfl, fun _ => rfl, fun _ => rfl, fun hphase => ?_, fun old new hold hnew => ?_⟩
      · obtain ⟨vc, hvc, hissued⟩ := h.issued hphase
        exact ⟨vc, hvc, hissued, fun hne => absurd hvc hne⟩
      · rw [hold, Option.some.injEq] at hnew
        exact .inl hnew.symm
  | declared hphase =>
      exact .of_missing (.inr (by simp [hphase, Phase.index])) (by simp [hphase]) (.inl hphase)
        (h.missing (by simp [hphase])) (by simp)
  | declareFailed _ hphase =>
      exact .of_missing (.inl rfl) (by simp [hphase]) (.inl hphase)
        (h.missing (by simp [hphase])) (by simp [hphase])
  | importFailed hphase =>
      exact .of_missing (.inl rfl) (fun _ => rfl) (.inr hphase)
        (h.missing (by simp [hphase])) (by simp [hphase])
  | imported hphase =>
      exact .of_missing (.inr (by simp [hphase, Phase.index])) (fun _ => rfl) (.inr hphase)
        (h.missing (by simp [hphase])) (by simp)
  | @credentialed doc vc hphase hdoc hvalid hfits =>
      have hissued := issuedByOwner_of_fits hdoc hfits
      refine ⟨?_, fun _ => rfl, fun _ => rfl,
        fun _ => ⟨vc, rfl, ⟨hissued.id, hissued.owner, hissued.issuer⟩, fun _ => hvalid⟩, ?_⟩
      · rcases hphase with hphase | hphase
        · exact .inr (by simp [hphase, Phase.index])
        · exact .inl hphase.symm
      · intro old new hold hnew
        obtain rfl := Option.some.inj hnew
        rcases hphase with hphase | hphase
        · rw [h.missing (by simp [hphase])] at hold
          cases hold
        · exact .inr (newer_of_fits hphase hold hfits)

theorem storesValid_always (host : Host) (actions : List Action) :
    EachStep (BindingStep host) (StoresValid host) State.init actions :=
  eachStep_of_preserved (fun _ _ _ h hstep => h.step hstep)
    (fun _ _ _ h hstep => h.storesValid hstep) Credentialed.init actions

/-- The calls to the database and to the DID store succeed. -/
def Action.CallsSucceed (a : Action) : Prop :=
  a.moment.DbCallsSucceed ∧ a.moment.stores = true ∧
    ∀ req, a.event = .impDid req → req.identity = true ∧ req.doc ≠ none

/-- A library to which a credential is valid until it expires. -/
def expiringHost : Host where
  signatureIsValid _ _ := true
  presentationIsValid _ _ := true
  credentialIsValid now vc := decide (now ≤ vc.expirationDate)
  documentIsValid _ _ := true
  nodeId := "node"
  maxDidLen := 128

/-- A stranger asks after the credential of the service expired. -/
def lateDeclaration : Action :=
  ⟨{ now := 9001 }, .declOwner ⟨4, "", "did:stranger", none⟩⟩

/-- Nothing checks the credential again once it is stored. -/
theorem not_keepsValid :
    (∀ a ∈ bindingRun ++ [lateDeclaration], a.event.Binds ∧ a.CallsSucceed) ∧
      ¬ EachStep (BindingStep expiringHost) (KeepsValid expiringHost) State.init
        (bindingRun ++ [lateDeclaration]) := by
  have hsucceed : ∀ a ∈ bindingRun ++ [lateDeclaration], a.event.Binds ∧ a.CallsSucceed := by
    simp [bindingRun, lateDeclaration, Event.Binds, Action.CallsSucceed, Moment.DbCallsSucceed]
  refine ⟨hsucceed, fun hkeeps => ?_⟩
  obtain ⟨s, t, hexec, hstep, hphase, hexpired⟩ :
      ∃ s t, exec (next expiringHost) State.init bindingRun = some s ∧
        BindingStep expiringHost s lateDeclaration t ∧ t.phase = .vcIssed ∧
        ∀ vc, t.feedsVc = some vc → ¬ 9001 ≤ vc.expirationDate :=
    ⟨_, _, rfl, ⟨trivial, rfl⟩, rfl, fun vc hvc => by
      obtain rfl := Option.some.inj hvc
      decide⟩
  have hrun : Run (BindingStep expiringHost) State.init bindingRun s :=
    (run_of_exec hexec).restrict fun a ha => (hsucceed a (List.mem_append_left _ ha)).1
  obtain ⟨vc, hvc, -, hvalid⟩ := (hkeeps.last hrun hstep).credential hphase
  exact hexpired vc hvc (by simpa [expiringHost, lateDeclaration] using hvalid)

end Progress

end FeedsService.Auth
