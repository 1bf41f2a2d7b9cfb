import FeedsService.Auth.Binding
import FeedsService.Auth.StandardAuth
import FeedsService.Library.Runs

/-!
# Runs of the two sign-ins

The events that reach the binding and the sign-ins, in any order and from any
number of clients, and what one of them can do to the state.
-/

namespace FeedsService.Auth

open FeedsService.Library FeedsService.Feeds FeedsService.Runs

inductive Event
  | declOwner (req : DeclOwnerReq)
  | impDid (req : ImpDidReq)
  | issVc (req : IssVcReq)
  | updateVc (req : UpdateVcReq)
  | signinReqChal (req : SigninReqChalReq)
  | signinConfChal (req : SigninConfChalReq)
  /-- The sweep of `auth_expire_login`. -/
  | expireLogin
  | standardSignIn (req : StandardSignInRequest)
  | standardDidAuth (req : StandardDidAuthRequest)
  /-- Any other request that carries an access token. -/
  | accessToken (tk : Jws)
  | restart (loaded : Loaded)

/-- The token that the request of an event is checked for. -/
def Event.presented : Event → Option Jws
  | .updateVc req => some req.tk
  | .accessToken tk => some tk
  | _ => none

structure Action where
  moment : Moment
  event : Event

/-- The state after an event; a restart may fail. -/
def next (host : Host) (s : State) (a : Action) : Option State :=
  match a.event with
  | .declOwner req => some (hdlDeclOwnerReq a.moment s req).1
  | .impDid req => some (hdlImpDidReq s req).1
  | .issVc req => some (hdlIssVcReq host a.moment s req).1
  | .updateVc req => some (hdlUpdateVcReq host a.moment s req).1
  | .signinReqChal req => some (hdlSigninReqChalReq host a.moment s req).1
  | .signinConfChal req => some (hdlSigninConfChalReq host a.moment s req).1
  | .expireLogin => some (authExpireLogin a.moment s)
  | .standardSignIn req => some (onStandardSignIn host a.moment s req).1
  | .standardDidAuth req => some (onStandardDidAuth host a.moment s req).1
  | .accessToken _ => some s
  | .restart loaded => restart a.moment s loaded

abbrev Step (host : Host) : State → Action → State → Prop :=
  Performs (next host)

section Change

/-- What one event can do to the state. -/
inductive Change (host : Host) (a : Action) (s : State) : State → Prop
  | same : Change host a s s
  | declared {owner : AuthUser} {db : Db} {uid : ℤ} (hphase : s.phase = .noOwner)
      (hresult : dbUpsertUser a.moment s.db owner = (db, some uid)) :
      Change host a s { s with db := db, ownerInfo := some owner, phase := .ownerDecled }
  | declareFailed {owner : AuthUser} {db : Db} (hphase : s.phase = .noOwner)
      (hresult : dbUpsertUser a.moment s.db owner = (db, none)) :
      Change host a s { s with db := db, ownerInfo := none }
  | importFailed {store : DidStore} (hphase : s.phase = .ownerDecled) :
      Change host a s { s with didStore := store, feedsDoc := none }
  | imported {doc : DidDocument} {store : DidStore} (hphase : s.phase = .ownerDecled) :
      Change host a s { s with didStore := store, feedsDoc := some doc, phase := .didImped }
  | credentialed {store : DidStore} {vc : Credential}
      (hphase : s.phase = .didImped ∨ s.phase = .vcIssed) :
      Change host a s { s with didStore := store, feedsVc := some vc, phase := .vcIssed }
  | challenged {req : SigninReqChalReq} {login : Login} {doc : DidDocument}
      (hevent : a.event = .signinReqChal req) (hphase : s.phase = .vcIssed)
      (hdoc : s.feedsDoc = some doc) (hnonce : login.nonce = a.moment.nonce)
      (hsub : login.sub = req.iss) :
      Change host a s { s with
        pendingLogins := pendingLoginPut login s.pendingLogins
        history := .challenge login (chalJws doc host.nodeId login.nonce) :: s.history }
  | dropped {logins : List Login}
      (hevent : a.event = .expireLogin ∨ ∃ req, a.event = .signinConfChal req)
      (hsub : logins.Sublist s.pendingLogins) :
      Change host a s { s with pendingLogins := logins }
  | confirmed {req : SigninConfChalReq} {vp : Presentation} {login : Login} {s' : State}
      {tokens : List Entry} (hevent : a.event = .signinConfChal req)
      (hphase : s.phase = .vcIssed) (hparses : jwsParses host a.moment req.jws = true)
      (hconfirms : Confirms host a.moment s req.jws vp login)
      (hstores : StoresUser a.moment s s') (htokens : TokenFor a.moment s s' login tokens) :
      Change host a s { s' with
        pendingLogins := KeyedTable.remove Login.nonce s.pendingLogins login.nonce
        history := tokens ++ .confirmed login req.jws :: s.history }
  | standardChallenge {did : String} {doc : DidDocument} {secret : AuthSecret}
      (hdoc : s.feedsDoc = some doc)
      (hsecret : secret = ⟨a.moment.nonce, did, a.moment.now + jwtExpiration⟩) :
      Change host a s { s with
        authSecretMap := putAuthSecret secret s.authSecretMap
        history := .standardChallenge secret (challengeFor a.moment s doc did) :: s.history }
  | standardStored {s' : State} (hanswers : s.authSecretMap ≠ [])
      (hstores : StoresUser a.moment s s') : Change host a s s'
  | standardToken {req : StandardDidAuthRequest} {info : CredentialInfo} {doc : DidDocument}
      {index : ℤ} (hevent : a.event = .standardDidAuth req)
      (hcheck : checkAuthToken host a.moment s req.userName req.jwtVp = .ok info)
      (hadapt : (adaptOldLogin a.moment s info).2 = .ok index) (hindex : 0 ≤ index)
      (hdoc : s.feedsDoc = some doc) (hbuilder : a.moment.builderFault = none) :
      Change host a s { (adaptOldLogin a.moment s info).1 with
        history := .standardAccessToken req.jwtVp info.userDid index
          (accessTokenFor doc a.moment.now info index) :: s.history }
  | restarted {loaded : Loaded} {t : State} (hevent : a.event = .restart loaded)
      (hrestart : restart a.moment s loaded = some t) : Change host a s t

variable {host : Host} {a : Action} {s t : State}

theorem hdlDeclOwnerReq_change (req : DeclOwnerReq) :
    Change host a s (hdlDeclOwnerReq a.moment s req).1 := by
  unfold hdlDeclOwnerReq
  dsimp only
  split
  · next hphase =>
      split
      · exact .same
      · split
        · next hresult => exact .declareFailed hphase hresult
        · next hresult => exact .declared hphase hresult
  · split
    · exact .same
    · exact .same

theorem hdlImpDidReq_change (req : ImpDidReq) : Change host a s (hdlImpDidReq s req).1 := by
  unfold hdlImpDidReq
  split
  · exact .same
  · next hphase =>
      have hdecled : s.phase = .ownerDecled := by simpa using hphase
      split
      · exact .same
      · split
        · exact .same
        · cases hdoc : req.doc with
          | none => exact .importFailed hdecled
          | some doc =>
              dsimp only
              split
              · exact .imported hdecled
              · exact .imported hdecled

theorem processVcReq_change (host : Host) (a : Action) (s : State) (json : Json Credential) :
    Change host a s (processVcReq host a.moment s json).1 := by
  unfold processVcReq
  split
  · exact .same
  · next hphase =>
      have hbound : s.phase = .didImped ∨ s.phase = .vcIssed := by
        by_contra hnot
        rw [not_or] at hnot
        exact hphase hnot
      split
      · exact .same
      · split
        · exact .same
        · split
          · exact .same
          · split
            · exact .same
            · split
              · exact .same
              · exact .credentialed hbound

theorem hdlIssVcReq_change (req : IssVcReq) :
    Change host a s (hdlIssVcReq host a.moment s req).1 := by
  have hprocess := processVcReq_change host a s req.vc
  unfold hdlIssVcReq
  split
  · next hresult =>
      rw [hresult] at hprocess
      exact hprocess
  · next hresult =>
      rw [hresult] at hprocess
      exact hprocess

theorem hdlUpdateVcReq_change (req : UpdateVcReq) :
    Change host a s (hdlUpdateVcReq host a.moment s req).1 := by
  have hprocess := processVcReq_change host a s req.vc
  unfold hdlUpdateVcReq
  split
  · exact .same
  · split
    · exact .same
    · split
      · exact .same
      · split
        · next hresult =>
            rw [hresult] at hprocess
            exact hprocess
        · next hresult =>
            rw [hresult] at hprocess
            exact hprocess

/-- Every event does one of these things. -/
theorem next_change (hstep : next host s a = some t) : Change host a s t := by
  unfold next at hstep
  split at hstep
  · exact Option.some.inj hstep ▸ hdlDeclOwnerReq_change _
  · exact Option.some.inj hstep ▸ hdlImpDidReq_change _
  · exact Option.some.inj hstep ▸ hdlIssVcReq_change _
  · exact Option.some.inj hstep ▸ hdlUpdateVcReq_change _
  · next req hevent =>
      obtain rfl := Option.some.inj hstep
      rcases hdlSigninReqChalReq_cases host a.moment s req with
        hsame | ⟨login, doc, hphase, hdoc, hnonce, hsub, hresult⟩
      · rw [hsame]
        exact .same
      · rw [hresult]
        exact .challenged hevent hphase hdoc hnonce hsub
  · next req hevent =>
      obtain rfl := Option.some.inj hstep
      rcases hdlSigninConfChalReq_cases host a.moment s req with
        ⟨logins, hsub, hresult⟩ |
          ⟨vp, login, s', tokens, hphase, hparses, hconfirms, hstores, htokens, hresult⟩
      · rw [hresult]
        exact .dropped (.inr ⟨req, hevent⟩) hsub
      · rw [hresult]
        exact .confirmed hevent hphase hparses hconfirms hstores htokens
  · next hevent =>
      obtain rfl := Option.some.inj hstep
      exact .dropped (.inl hevent) List.filter_sublist
  · next req hevent =>
      obtain rfl := Option.some.inj hstep
      rcases onStandardSignIn_cases host a.moment s req with
        hsame | ⟨did, doc, secret, hdoc, hsecret, hresult⟩
      · rw [hsame]
        exact .same
      · rw [hresult]
        exact .standardChallenge hdoc hsecret
  · next req hevent =>
      obtain rfl := Option.some.inj hstep
      rcases onStandardDidAuth_cases host a.moment s req with
        hsame | ⟨hanswers, hstores⟩ |
          ⟨info, doc, index, hcheck, hadapt, hindex, hdoc, hbuilder, hresult⟩
      · rw [hsame]
        exact .same
      · exact .standardStored hanswers hstores
      · rw [hresult]
        exact .standardToken hevent hcheck hadapt hindex hdoc hbuilder
  · obtain rfl := Option.some.inj hstep
    exact .same
  · next hevent => exact .restarted hevent hstep

end Change

end FeedsService.Auth
