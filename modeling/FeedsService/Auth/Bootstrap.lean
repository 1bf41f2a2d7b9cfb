import FeedsService.Auth.Challenges
import FeedsService.Auth.Phases

/-!
# The verification code of the declaration

`did_init` draws a nonce that is shown in the URL of the service and in its log.  The
declaration of an owner carries a nonce too, and `hdl_decl_owner_req` only logs it.
-/

namespace FeedsService.Auth

open FeedsService.Library FeedsService.Feeds FeedsService.Runs

/-- The service with `nonce_str`. -/
structure Bootstrap where
  auth : State
  nonceStr : String

def Bootstrap.init (nonceStr : String) : Bootstrap :=
  ⟨State.init, nonceStr⟩

/-- `nonce_str` after an event; `did_init` draws it again in a new process. -/
def nonceAfter (nonceStr : String) (a : Action) : String :=
  match a.event with
  | .restart _ => a.moment.nonce
  | _ => nonceStr

def nextBootstrap (host : Host) (b : Bootstrap) (a : Action) : Option Bootstrap :=
  (next host b.auth a).map fun auth => ⟨auth, nonceAfter b.nonceStr a⟩

abbrev BootstrapStep (host : Host) : Bootstrap → Action → Bootstrap → Prop :=
  Performs (nextBootstrap host)

/-- The event is a declaration that presents the nonce. -/
def Declares (b : Bootstrap) (a : Action) (did : String) : Prop :=
  ∃ req, a.event = .declOwner req ∧ req.nonce = b.nonceStr ∧ req.ownerDid = did

/-- Who does not present the nonce neither binds the service nor becomes its owner. -/
structure NeedsNonce (b : Bootstrap) (a : Action) (b' : Bootstrap) : Prop where
  leaves : b.auth.phase = .noOwner → b'.auth.phase ≠ .noOwner → ∃ did, Declares b a did
  becomes : ∀ did, b'.auth.ownerDid = some did → b.auth.ownerDid ≠ some did → Declares b a did

/-- A declaration that finds the service unbound is stored. -/
structure Stores (m : Moment) (s : State) (did : String) : Prop where
  unbound : s.phase = .noOwner
  allocs : m.allocs = true
  dbCalls : m.DbCallsSucceed
  room : (∃ uid, (uid, did) ∈ accounts s.db.users) ∨
    nextUserId s.db.users m.skipped ≤ maxRowid

/-- Only declarations with the nonce are stored, and a restart finds no other owner than
the one it had. -/
structure PresentsNonce (b : Bootstrap) (a : Action) (_ : Bootstrap) : Prop where
  declares : ∀ req, a.event = .declOwner req → Stores a.moment b.auth req.ownerDid →
    req.nonce = b.nonceStr
  restarts : ∀ loaded, a.event = .restart loaded → ∀ did, (1, did) ∈ accounts b.auth.db.users →
    b.auth.ownerDid = some did

section Steps

variable {host : Host} {a : Action} {s t : State}

/-- The binding is not begun, and the owner stays. -/
structure OwnerStays (s t : State) : Prop where
  phase : s.phase = .noOwner → t.phase = .noOwner
  owner : t.ownerDid = s.ownerDid

theorem OwnerStays.refl (s : State) : OwnerStays s s :=
  ⟨id, rfl⟩

theorem ownerStays_of_stores {m : Moment} (hstores : StoresUser m s t) : OwnerStays s t where
  phase hphase := hstores.phase.trans hphase
  owner := hstores.owner

theorem ownerStays_hdlImpDidReq (req : ImpDidReq) : OwnerStays s (hdlImpDidReq s req).1 := by
  simp only [hdlImpDidReq]
  split
  · exact .refl s
  · next hphase =>
      have hdecled : s.phase = .ownerDecled := by simpa using hphase
      split
      · exact .refl s
      · split
        · exact .refl s
        · cases req.doc with
          | none => exact ⟨id, rfl⟩
          | some doc => cases req.payload <;> exact ⟨fun h => by simp [hdecled] at h, rfl⟩

theorem ownerStays_processVcReq (host : Host) (m : Moment) (json : Json Credential) :
    OwnerStays s (processVcReq host m s json).1 := by
  simp only [processVcReq]
  split
  · exact .refl s
  · next hphase =>
      have hbound : s.phase ≠ .noOwner := by
        intro hunbound
        exact hphase (by simp [hunbound])
      split
      · exact .refl s
      · cases json with
        | none => exact .refl s
        | some vc =>
            dsimp only
            split
            · exact .refl s
            · split
              · exact .refl s
              · split
                · exact .refl s
                · exact ⟨fun h => absurd h hbound, rfl⟩

theorem ownerStays_hdlIssVcReq (m : Moment) (req : IssVcReq) :
    OwnerStays s (hdlIssVcReq host m s req).1 := by
  have hprocess := ownerStays_processVcReq (s := s) host m req.vc
  simp only [hdlIssVcReq]
  split <;> next hresult => simpa only [hresult] using hprocess

theorem ownerStays_hdlUpdateVcReq (m : Moment) (req : UpdateVcReq) :
    OwnerStays s (hdlUpdateVcReq host m s req).1 := by
  have hprocess := ownerStays_processVcReq (s := s) host m req.vc
  simp only [hdlUpdateVcReq]
  split
  · exact .refl s
  · split
    · exact .refl s
    · split
      · exact .refl s
      · split <;> next hresult => simpa only [hresult] using hprocess

/-- An event that neither declares an owner nor restarts the service leaves the owner. -/
theorem ownerStays_next (hdeclares : ∀ req, a.event ≠ .declOwner req)
    (hrestarts : ∀ loaded, a.event ≠ .restart loaded) (hnext : next host s a = some t) :
    OwnerStays s t := by
  rw [next] at hnext
  split at hnext
  · next req hevent => exact absurd hevent (hdeclares req)
  · exact Option.some.inj hnext ▸ ownerStays_hdlImpDidReq _
  · exact Option.some.inj hnext ▸ ownerStays_hdlIssVcReq _ _
  · exact Option.some.inj hnext ▸ ownerStays_hdlUpdateVcReq _ _
  · next req _ =>
      obtain rfl := Option.some.inj hnext
      rcases hdlSigninReqChalReq_cases host a.moment s req with
        hsame | ⟨login, doc, -, -, -, -, hresult⟩
      · rw [hsame]
        exact .refl s
      · exact hresult ▸ ⟨id, rfl⟩
  · next req _ =>
      obtain rfl := Option.some.inj hnext
      rcases hdlSigninConfChalReq_cases host a.moment s req with
        ⟨logins, -, hresult⟩ | ⟨vp, login, s', tokens, -, -, -, hstores, -, hresult⟩
      · exact hresult ▸ ⟨id, rfl⟩
      · have hstays := ownerStays_of_stores hstores
        exact hresult ▸ ⟨hstays.phase, hstays.owner⟩
  · obtain rfl := Option.some.inj hnext
    exact ⟨id, rfl⟩
  · next req _ =>
      obtain rfl := Option.some.inj hnext
      rcases onStandardSignIn_cases host a.moment s req with
        hsame | ⟨did, doc, secret, -, -, hresult⟩
      · rw [hsame]
        exact .refl s
      · exact hresult ▸ ⟨id, rfl⟩
  · next req _ =>
      obtain rfl := Option.some.inj hnext
      rcases onStandardDidAuth_cases host a.moment s req with
        hsame | ⟨-, hstores⟩ | ⟨info, doc, index, -, -, -, -, -, hresult⟩
      · rw [hsame]
        exact .refl s
      · exact ownerStays_of_stores hstores
      · have hstays := ownerStays_of_stores (adaptOldLogin_stores a.moment s info)
        exact hresult ▸ ⟨hstays.phase, hstays.owner⟩
  · exact Option.some.inj hnext ▸ .refl s
  · next loaded hevent => exact absurd hevent (hrestarts loaded)

/-- A declaration that is stored makes its sender the owner. -/
theorem hdlDeclOwnerReq_of_stores {m : Moment} {req : DeclOwnerReq}
    (hidentified : Identified s) (hstores : Stores m s req.ownerDid) :
    (hdlDeclOwnerReq m s req).1.phase = .ownerDecled ∧
      (hdlDeclOwnerReq m s req).1.ownerDid = some req.ownerDid := by
  have hstored : (dbUpsertUser m s.db ⟨ownerUserId, req.ownerDid, "NA", "NA"⟩).2 = some _ :=
    (dbUpsertUser_eq_some hidentified).mpr ⟨⟨hstores.dbCalls, hstores.room⟩, rfl⟩
  rcases hresult : dbUpsertUser m s.db ⟨ownerUserId, req.ownerDid, "NA", "NA"⟩ with ⟨db, uid⟩
  rw [hresult] at hstored
  obtain rfl := hstored
  simp only [hdlDeclOwnerReq, hstores.unbound, hstores.allocs, hresult, if_true]
  exact ⟨rfl, rfl⟩

theorem hdlDeclOwnerReq_of_not_stores {m : Moment} {req : DeclOwnerReq}
    (hidentified : Identified s) (hstores : ¬ Stores m s req.ownerDid) :
    (hdlDeclOwnerReq m s req).1.phase = s.phase ∧
      ∀ did, (hdlDeclOwnerReq m s req).1.ownerDid = some did → s.ownerDid = some did := by
  simp only [hdlDeclOwnerReq]
  split
  · next hphase =>
      split
      · exact ⟨rfl, fun _ => id⟩
      · next hallocs =>
          split
          · exact ⟨rfl, fun did hdid => by cases hdid⟩
          · next db uid hresult =>
              have hsome : (dbUpsertUser m s.db ⟨ownerUserId, req.ownerDid, "NA", "NA"⟩).2 =
                  some uid := by rw [hresult]
              obtain ⟨⟨hcalls, hroom⟩, -⟩ := (dbUpsertUser_eq_some hidentified).mp hsome
              exact absurd ⟨hphase, by simpa using hallocs, hcalls, hroom⟩ hstores
  · split
    · exact ⟨rfl, fun _ => id⟩
    · exact ⟨rfl, fun _ => id⟩

/-- A service that is not bound has no owner. -/
def OwnerlessUnbound (s : State) : Prop :=
  s.phase = .noOwner → s.ownerDid = none

theorem OwnerlessUnbound.step (h : OwnerlessUnbound s) (hstep : Step host s a t) :
    OwnerlessUnbound t := by
  cases next_change hstep with
  | declared | imported | credentialed =>
      intro hphase
      cases hphase
  | declareFailed => exact fun _ => rfl
  | @confirmed req vp login s' tokens _ _ _ _ hstores =>
      have hstays := ownerStays_of_stores hstores
      intro hphase
      exact hstays.owner.trans (h (hstores.phase ▸ hphase))
  | standardStored _ hstores =>
      have hstays := ownerStays_of_stores hstores
      intro hphase
      exact hstays.owner.trans (h (hstores.phase ▸ hphase))
  | @standardToken req info =>
      have hstores := adaptOldLogin_stores a.moment s info
      have hstays := ownerStays_of_stores hstores
      intro hphase
      exact hstays.owner.trans (h (hstores.phase ▸ hphase))
  | restarted _ hrestart =>
      intro hphase
      rcases (restart_eq_some hrestart).owner with ⟨-, howner, -⟩ | ⟨owner, hbound, -⟩
      · rw [State.ownerDid, howner, Option.map_none]
      · exact absurd hphase hbound
  | same | importFailed | challenged | dropped | standardChallenge => exact h

end Steps

section Runs

variable {host : Host} {a : Action} {b b' : Bootstrap}

theorem bootstrapStep_iff :
    BootstrapStep host b a b' ↔
      next host b.auth a = some b'.auth ∧ nonceAfter b.nonceStr a = b'.nonceStr := by
  rw [BootstrapStep, Performs, nextBootstrap, Option.map_eq_some_iff]
  constructor
  · rintro ⟨auth, hnext, rfl⟩
    exact ⟨hnext, rfl⟩
  · rintro ⟨hnext, hnonce⟩
    exact ⟨b'.auth, hnext, by rw [hnonce]⟩

/-- A step leads to an owner without the nonce when its request or what the database holds
does. -/
theorem needsNonce_step_iff (hidentified : Identified b.auth)
    (hownerless : OwnerlessUnbound b.auth) (hstep : BootstrapStep host b a b') :
    NeedsNonce b a b' ↔ PresentsNonce b a b' := by
  have hnext := (bootstrapStep_iff.mp hstep).1
  cases hevent : a.event with
  | declOwner req =>
      have hafter : (hdlDeclOwnerReq a.moment b.auth req).1 = b'.auth := by
        rw [next, hevent] at hnext
        exact Option.some.inj hnext
      by_cases hstores : Stores a.moment b.auth req.ownerDid
      · obtain ⟨hphase, howner⟩ := hdlDeclOwnerReq_of_stores hidentified hstores
        rw [hafter] at hphase howner
        constructor
        · intro hneeds
          refine ⟨fun req' hreq' _ => ?_, fun loaded hloaded => by simp [hevent] at hloaded⟩
          obtain ⟨did, req'', hreq'', hnonce, -⟩ := hneeds.leaves hstores.unbound (by simp [hphase])
          rw [hreq''] at hreq'
          cases hreq'
          exact hnonce
        · intro hpresents
          have hnonce := hpresents.declares req hevent hstores
          refine ⟨fun _ _ => ⟨_, req, hevent, hnonce, rfl⟩, fun did hdid _ => ?_⟩
          exact ⟨req, hevent, hnonce, Option.some.inj (howner.symm.trans hdid)⟩
      · obtain ⟨hphase, howner⟩ := hdlDeclOwnerReq_of_not_stores hidentified hstores
        rw [hafter] at hphase howner
        refine iff_of_true ⟨?_, ?_⟩ ⟨?_, ?_⟩
        · intro hunbound hbound
          exact absurd (hphase.trans hunbound) hbound
        · intro did hdid hother
          exact absurd (howner did hdid) hother
        · intro req' hreq' hstored
          rw [hevent] at hreq'
          cases hreq'
          exact absurd hstored hstores
        · intro loaded hloaded
          simp [hevent] at hloaded
  | restart loaded =>
      have hrestart : restart a.moment b.auth loaded = some b'.auth := by
        rw [next, hevent] at hnext
        exact hnext
      have hnobody : ∀ did, ¬ Declares b a did := by
        rintro did ⟨req, hreq, -⟩
        simp [hevent] at hreq
      have hpresents : PresentsNonce b a b' ↔
          ∀ did, (1, did) ∈ accounts b.auth.db.users → b.auth.ownerDid = some did := by
        constructor
        · intro h
          exact h.restarts loaded hevent
        · intro h
          exact ⟨fun req hreq => by simp [hevent] at hreq, fun _ _ => h⟩
      rw [hpresents]
      rcases (restart_eq_some hrestart).owner with
        ⟨hphase, howner, -, hnone⟩ | ⟨owner, hphase, howner, hfirst, -⟩
      · refine iff_of_true ⟨fun _ hbound => absurd hphase hbound, fun did hdid => ?_⟩
          fun did hdid => absurd hdid (hnone did)
        rw [State.ownerDid, howner] at hdid
        cases hdid
      · constructor
        · intro hneeds did hdid
          obtain rfl := AccountsSound.did_eq hidentified hdid hfirst
          by_contra hother
          have hdid : b'.auth.ownerDid = some owner.did := by
            rw [State.ownerDid, howner, Option.map_some]
          exact hnobody _ (hneeds.becomes _ hdid hother)
        · intro hsame
          have hkept := hsame owner.did hfirst
          refine ⟨fun hunbound _ => ?_, fun did hdid hother => ?_⟩
          · cases (hownerless hunbound).symm.trans hkept
          · rw [State.ownerDid, howner] at hdid
            exact absurd (hkept.trans hdid) hother
  | _ =>
      have hstays := ownerStays_next (by simp [hevent]) (by simp [hevent]) hnext
      refine iff_of_true ⟨fun hunbound hbound => absurd (hstays.phase hunbound) hbound,
        fun did hdid hother => absurd (hstays.owner ▸ hdid) hother⟩ ⟨?_, ?_⟩
      · intro req hreq
        simp [hevent] at hreq
      · intro loaded hloaded
        simp [hevent] at hloaded

theorem needsNonce_iff (host : Host) (nonceStr : String) (actions : List Action) :
    EachStep (BootstrapStep host) NeedsNonce (Bootstrap.init nonceStr) actions ↔
      EachStep (BootstrapStep host) PresentsNonce (Bootstrap.init nonceStr) actions := by
  apply eachStep_congr fun b => Identified b.auth ∧ OwnerlessUnbound b.auth
  · intro b a b' ⟨hidentified, hownerless⟩ hstep
    have hnext := (bootstrapStep_iff.mp hstep).1
    exact ⟨hidentified.step hnext, hownerless.step hnext⟩
  · intro b a b' ⟨hidentified, hownerless⟩ hstep
    exact needsNonce_step_iff hidentified hownerless hstep
  · exact ⟨Identified.init, fun _ => rfl⟩

/-- A stranger declares himself with a nonce of his own. -/
def strangerDeclares : Action :=
  ⟨{ now := 1000 }, .declOwner ⟨1, "guess", "did:stranger", none⟩⟩

theorem stranger_becomes_owner :
    ¬ EachStep (BootstrapStep trustingHost) NeedsNonce (Bootstrap.init "secret")
      [strangerDeclares] := by
  intro hruns
  obtain ⟨b, hdeclared⟩ :
      ∃ b, nextBootstrap trustingHost (Bootstrap.init "secret") strangerDeclares = some b :=
    ⟨_, rfl⟩
  obtain ⟨hneeds, -⟩ := hruns b hdeclared
  cases hdeclared
  obtain ⟨did, req, hreq, hnonce, -⟩ := hneeds.leaves rfl (by decide)
  cases hreq
  exact absurd hnonce (by decide)

end Runs

end FeedsService.Auth
