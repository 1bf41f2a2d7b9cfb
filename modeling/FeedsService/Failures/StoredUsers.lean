import FeedsService.Failures.Users

/-!
# A login without a credential is for a stored user

Whether a credential is needed is decided when the challenge is made, and used when it is
answered.  In between no user leaves the database and none gets another DID, so that the
user of a login that needs no credential is still found.
-/

namespace FeedsService.Failures

open FeedsService.Library FeedsService.Library.Handlers FeedsService.Library.Transactions
open FeedsService.Feeds FeedsService.Auth FeedsService.Runs

variable {host : Host} {t : Instant} {fault : Option Call} {s s' : Auth.State}

section Kept

/-- What the binding of the service leaves alone. -/
structure Kept where
  db : Db
  ownerInfo : Option AuthUser
  pendingLogins : List Login
  authSecretMap : List AuthSecret

def kept (s : Auth.State) : Kept where
  db := s.db
  ownerInfo := s.ownerInfo
  pendingLogins := s.pendingLogins
  authSecretMap := s.authSecretMap

theorem keepsKept_hdlImpDidReq (req : ImpDidReq) : Keeps kept (hdlImpDidReq req) := by
  have hidentity : Keeps kept (rootIdentity req) := by
    apply keeps_bind (keeps_require _ _)
    intro _
    dsimp only
    split
    · exact keeps_bind (keeps_attempt _ _) fun _ =>
        keeps_bind (keeps_require _ _) fun _ =>
        keeps_bind (keeps_attempt _ _) fun _ =>
        keeps_bind (keeps_require _ _) fun _ => keeps_update fun _ => rfl
    · exact keeps_bind (keeps_attempt _ _) fun _ =>
        keeps_bind (keeps_require _ _) fun _ => keeps_update fun _ => rfl
  have hnew : Keeps kept (newDid req.doc) := keeps_invoke fun _ _ => rfl
  apply keeps_bind hidentity
  intro _
  apply keeps_bind hnew
  intro doc
  exact keeps_bind (keeps_update fun _ => rfl) fun _ =>
    keeps_bind (keeps_attempt _ _) fun _ =>
    keeps_bind (keeps_find _ _) fun _ => keeps_pure _

theorem keepsKept_processVcReq (json : Json Credential) :
    Keeps kept (unlessUnmarshalled (processVcReq host t json)) :=
  keeps_unlessUnmarshalled <|
    keeps_bind (keeps_vcToProcess json) fun _ => keeps_update fun _ => rfl

theorem keepsKept_hdlIssVcReq (req : IssVcReq) : Keeps kept (hdlIssVcReq host t req) :=
  keeps_bind (keepsKept_processVcReq req.vc) fun _ => keeps_pure _

theorem keepsKept_hdlUpdateVcReq (req : UpdateVcReq) : Keeps kept (hdlUpdateVcReq host t req) := by
  apply keeps_bind keeps_vcIssed
  intro _
  apply keeps_bind (keeps_attempt _ _)
  intro _
  apply keeps_bind (keeps_find _ _)
  intro uinfo
  apply keeps_bind (keeps_require _ _)
  intro _
  exact keeps_bind (keepsKept_processVcReq req.vc) fun _ => keeps_pure _

end Kept

section Logins

/-- The database has a user of this DID. -/
def HasUser (s : Auth.State) (did : String) : Prop :=
  ∃ uid, (uid, did) ∈ accounts s.db.users

/-- A pending login that needs no credential is for a stored user. -/
def LoginsStored (s : Auth.State) : Prop :=
  ∀ login ∈ s.pendingLogins, login.vcReq = false → HasUser s login.sub

/-- No user is lost and no login is new. -/
structure Narrows (s s' : Auth.State) : Prop where
  accounts : accounts s.db.users ⊆ accounts s'.db.users
  logins : s'.pendingLogins ⊆ s.pendingLogins

theorem LoginsStored.of_narrows (h : LoginsStored s) (hnarrows : Narrows s s') :
    LoginsStored s' := by
  intro login hlogin hvcReq
  obtain ⟨uid, huid⟩ := h login (hnarrows.logins hlogin) hvcReq
  exact ⟨uid, hnarrows.accounts huid⟩

theorem narrows_of_kept (h : kept s' = kept s) : Narrows s s' where
  accounts := by
    have hdb : s'.db = s.db := congrArg Kept.db h
    rw [hdb]
    exact List.Subset.refl _
  logins := by
    have hlogins : s'.pendingLogins = s.pendingLogins := congrArg Kept.pendingLogins h
    rw [hlogins]
    exact List.Subset.refl _

theorem narrows_insertUser {m : Moment} {db : Db} {ui : AuthUser}
    (hinsert : insertUser m s.db ui = some db) : Narrows s { s with db := db } :=
  ⟨accounts_subset_insertUser hinsert, List.Subset.refl _⟩

/-- Whatever fails, no user is lost and no login is new. -/
theorem preserves_of_narrows {α : Type} {handler : AuthHandler α}
    (h : ∀ fault s, Narrows s (handler.run fault s).2) : Preserves LoginsStored handler :=
  fun fault s hs => hs.of_narrows (h fault s)

theorem preserves_of_keepsKept {α : Type} {handler : AuthHandler α} (h : Keeps kept handler) :
    Preserves LoginsStored handler :=
  preserves_of_narrows fun fault s => narrows_of_kept (h fault s)

/-- Storing a user, whether or not it succeeds. -/
theorem preserves_dbUpsertUser (ui : AuthUser) (ec : ℤ) :
    Preserves LoginsStored (mutate authDb (dbUpsertUser t ui) ec) := by
  apply preserves_of_narrows
  intro fault s
  have hends := run_dbUpsertUser t ui ec fault s
  generalize (mutate authDb (dbUpsertUser t ui) ec).run fault s = result at hends ⊢
  cases hends with
  | refused _ => exact narrows_of_kept rfl
  | stuck _ hdb _ => exact narrows_insertUser hdb
  | stored _ hdb _ _ => exact narrows_insertUser hdb

theorem narrows_ownerInfo (ownerInfo : Option AuthUser) :
    Narrows s { s with ownerInfo := ownerInfo } :=
  ⟨List.Subset.refl _, List.Subset.refl _⟩

theorem loginsStored_hdlDeclOwnerReq (req : DeclOwnerReq) :
    Preserves LoginsStored (hdlDeclOwnerReq t req) := by
  have hclear : ∀ s, LoginsStored s → LoginsStored (oinfoClear s) :=
    fun s hs => hs.of_narrows (narrows_ownerInfo none)
  have hinit : Preserves LoginsStored (oinfoInit (declaredOwner req)) := by
    apply preserves_invoke
    intro fault s hs
    split
    · exact hclear s hs
    · exact hs.of_narrows (narrows_ownerInfo _)
  apply preserves_bind (preserves_of_keepsKept keeps_get)
  intro s
  dsimp only
  split
  · apply preserves_bind hinit
    intro _
    apply preserves_bind (preserves_onError (preserves_dbUpsertUser _ _) hclear)
    intro _
    exact preserves_bind (preserves_of_keepsKept (keeps_update fun _ => rfl)) fun _ =>
      preserves_of_keepsKept (keeps_pure _)
  · apply preserves_bind (preserves_of_keepsKept (keeps_require _ _))
    intro _
    split
    · exact preserves_of_keepsKept (keeps_bind (keeps_attempt _ _) fun _ => keeps_examine _)
    · exact preserves_of_keepsKept (keeps_examine _)

theorem loginsStored_storeUser (ui : AuthUser) (ownerError : Exit) (userError : ℤ) :
    Preserves LoginsStored (storeUser t ui ownerError userError) := by
  have hupdate : Preserves LoginsStored
      (update fun s => { s with ownerInfo := ownerAfter ui s } : AuthHandler Unit) :=
    preserves_update fun s hs => hs.of_narrows (narrows_ownerInfo _)
  apply preserves_bind
  · apply preserves_bind (preserves_of_keepsKept keeps_get)
    intro s
    dsimp only
    split
    · exact preserves_bind (preserves_of_keepsKept (keeps_attempt _ _)) fun _ => hupdate
    · exact hupdate
  · intro _
    exact preserves_dbUpsertUser _ _

theorem loginsStored_onStandardDidAuth (req : StandardDidAuthRequest) :
    Preserves LoginsStored (onStandardDidAuth host t req) := by
  apply preserves_bind (preserves_of_keepsKept (keeps_authToken req))
  intro info
  exact preserves_bind (loginsStored_storeUser _ _ _) fun uid =>
    preserves_of_keepsKept (keeps_createAccessToken (fun _ _ => rfl) req info uid)

theorem loginsStored_confirmedLogin (req : SigninConfChalReq) :
    Preserves LoginsStored (confirmedLogin host t req) := by
  apply preserves_bind (preserves_of_keepsKept keeps_vcIssed)
  intro _
  apply preserves_bind (preserves_of_keepsKept (keeps_attempt _ _))
  intro _
  apply preserves_bind (preserves_of_keepsKept (keeps_require _ _))
  intro _
  apply preserves_bind (preserves_of_keepsKept (keeps_attempt _ _))
  intro _
  apply preserves_bind (preserves_of_keepsKept (keeps_attempt _ _))
  intro _
  apply preserves_bind
  · apply preserves_invoke
    intro fault s hs
    rcases chalRespIsValid_cases host t.moment s req.jws with
      ⟨logins, hsub, hresult⟩ | ⟨vp, login, -, hresult⟩
    · rw [hresult]
      exact hs.of_narrows ⟨List.Subset.refl _, hsub.subset⟩
    · rw [hresult]
      exact hs.of_narrows ⟨List.Subset.refl _, List.filter_subset_self _⟩
  · intro login
    exact preserves_of_keepsKept (keeps_bind (keeps_update fun _ => rfl) fun _ => keeps_pure _)

/-- A login that is confirmed was pending. -/
theorem mem_of_confirmedLogin {req : SigninConfChalReq} {login : Login}
    (hrun : (confirmedLogin host t req).run fault s = (.ok login, s')) :
    login ∈ s.pendingLogins := by
  simp only [confirmedLogin, vcIssed, run_bind_eq_ok, run_require_eq_ok, run_attempt_eq_ok,
    run_invoke_eq_ok] at hrun
  obtain ⟨_, _, ⟨-, rfl⟩, _, _, ⟨-, rfl⟩, _, _, ⟨-, rfl⟩, _, _, ⟨-, rfl⟩, _, _, ⟨-, rfl⟩,
    confirmed, _, hvalid, _, _, -, hlast⟩ := hrun
  cases hlast
  rcases chalRespIsValid_cases host t.moment s req.jws with
    ⟨logins, hsub, hresult⟩ | ⟨vp, pending, hconfirms, hresult⟩
  · rw [hresult] at hvalid
    cases hvalid
  · rw [hresult] at hvalid
    cases hvalid
    exact (KeyedTable.mem_of_get hconfirms.pending).1

theorem loginsStored_hdlSigninConfChalReq (req : SigninConfChalReq) :
    Preserves LoginsStored (hdlSigninConfChalReq host t req) := by
  apply preserves_bind (loginsStored_confirmedLogin req)
  intro login
  refine preserves_bind ?_ fun _ => preserves_of_keepsKept (keeps_pure _)
  rw [signInLogin]
  split
  · exact preserves_of_keepsKept
      (keeps_bind (keeps_storedUser login) fun uinfo => keeps_tokenFor (fun _ _ => rfl) login uinfo)
  · next json _ =>
      apply preserves_bind (preserves_of_keepsKept (keeps_uinfoFromVc req json))
      intro uinfo
      exact preserves_bind (loginsStored_storeUser _ _ _) fun uid =>
        preserves_of_keepsKept (keeps_tokenFor (fun _ _ => rfl) login _)

theorem hasUser_of_dbNeedUpsertUser {m : Moment} {did : String}
    (hneed : dbNeedUpsertUser m s.db did = false) : HasUser s did := by
  have hstored : m.dbReads = true ∧
      (s.db.users.any fun row => row.did = did ∧ row.name ≠ "NA") = true := by
    simpa [dbNeedUpsertUser] using hneed
  obtain ⟨row, hrow, hnamed⟩ := List.any_eq_true.mp hstored.2
  have hdid : row.did = did := (of_decide_eq_true hnamed).1
  exact ⟨row.userId, mem_accounts.mpr ⟨row, hrow, rfl, hdid⟩⟩

/-- A challenge that needs no credential is for a stored user. -/
theorem hasUser_of_challengeFor {req : SigninReqChalReq} {login : Login} {chal : Jws}
    {vc : Option Credential}
    (hrun : (challengeFor host t req).run fault s = (.ok (login, chal, vc), s'))
    (hvcReq : login.vcReq = false) : HasUser s login.sub := by
  simp only [challengeFor, vcIssed, needUpsertUser, run_bind_eq_ok, run_require_eq_ok,
    run_attempt_eq_ok] at hrun
  obtain ⟨_, _, ⟨-, rfl⟩, _, _, ⟨-, rfl⟩, _, _, ⟨-, rfl⟩, need, _,
    ⟨failed, _, hfailed, _, _, hget, hneed⟩, doc, _, -, hlast⟩ := hrun
  cases hfailed
  cases hget
  cases hneed
  split at hlast
  · simp only [run_bind_eq_ok] at hlast
    obtain ⟨_, _, -, _, _, -, _, _, -, hlast⟩ := hlast
    cases hlast
    exact hasUser_of_dbNeedUpsertUser (Bool.or_eq_false_iff.mp hvcReq).2
  · cases hlast
    exact hasUser_of_dbNeedUpsertUser (Bool.or_eq_false_iff.mp hvcReq).2

theorem loginsStored_hdlSigninReqChalReq (req : SigninReqChalReq) :
    Preserves LoginsStored (hdlSigninReqChalReq host t req) := by
  intro fault s hs
  have hkeeps : Keeps id (challengeFor host t req) := keeps_challengeFor req
  have hsame : (challengeFor host t req).run fault s =
      (((challengeFor host t req).run fault s).1, s) := Prod.ext rfl (hkeeps fault s)
  rw [hdlSigninReqChalReq]
  rcases hresult : ((challengeFor host t req).run fault s).1 with e | ⟨login, chal, vc⟩
  · rw [hresult] at hsame
    rwa [run_bind_error hsame]
  · rw [hresult] at hsame
    rw [run_bind_ok hsame]
    intro pending hpending hvcReq
    rcases KeyedTable.mem_put.mp hpending with ⟨hbefore, -⟩ | rfl
    · exact hs pending hbefore hvcReq
    · have hstored : HasUser s pending.sub := hasUser_of_challengeFor hsame hvcReq
      exact hstored

end Logins

section Runs

/-- The accounts are those before, whatever a handler of `feeds.c` does. -/
theorem accounts_onWorld (fault : Option Call) {ctx : Ctx} {req : Feeds.Req}
    {handler : FeedsHandler (List Resp)} (hhandler : feedsHandler ctx req = some handler)
    (s : Service) :
    accounts (onWorld handler fault s).2.auth.db.users = accounts s.auth.db.users := by
  have hleft : (onWorld handler fault s).2.auth.db.users =
      (handler.run fault s.world).2.db.users := rfl
  rw [hleft]
  by_cases hupdate : ∃ params, req = .updUserInfo params
  · obtain ⟨params, rfl⟩ := hupdate
    cases hhandler
    rcases hdlUpdUserInfoReq_cases ctx fault params s.world with
      ⟨uinfo, -, hresult⟩ | ⟨-, hresult⟩
    · rw [hresult]
      exact accounts_updateWhere (fun _ => rfl) fun _ => rfl
    · rw [hresult]
      rfl
  · have hkept := keepsUsers_feedsHandler ctx hhandler
      (fun params hreq => hupdate ⟨params, hreq⟩) fault s.world
    exact congrArg accounts hkept

theorem loginsStored_serve (fault : Option Call) {s : Service} (request : Request)
    (h : LoginsStored s.auth) : LoginsStored (serve host t fault s request).2.auth := by
  cases request with
  | feeds message =>
      rw [serve]
      cases hhandler : feedsHandler (message.ctx host t s) message.req with
      | none => exact h
      | some handler =>
          have haccounts := accounts_onWorld fault hhandler s
          apply h.of_narrows
          exact ⟨haccounts ▸ List.Subset.refl _, List.Subset.refl _⟩
  | declOwner req => exact loginsStored_hdlDeclOwnerReq req fault s.auth h
  | impDid req => exact preserves_of_keepsKept (keepsKept_hdlImpDidReq req) fault s.auth h
  | issVc req => exact preserves_of_keepsKept (keepsKept_hdlIssVcReq req) fault s.auth h
  | updateVc req => exact preserves_of_keepsKept (keepsKept_hdlUpdateVcReq req) fault s.auth h
  | signinReqChal req => exact loginsStored_hdlSigninReqChalReq req fault s.auth h
  | signinConfChal req => exact loginsStored_hdlSigninConfChalReq req fault s.auth h
  | standardSignIn req =>
      have hkeeps : Keeps (fun s : Auth.State => (s.db, s.pendingLogins))
          (onStandardSignIn host t req) := keeps_onStandardSignIn (fun _ _ _ => rfl) req
      obtain ⟨hdb, hlogins⟩ := Prod.mk.inj (hkeeps fault s.auth)
      have hnarrows : Narrows s.auth ((onStandardSignIn host t req).run fault s.auth).2 := by
        constructor
        · rw [hdb]
          exact List.Subset.refl _
        · rw [hlogins]
          exact List.Subset.refl _
      exact h.of_narrows hnarrows
  | standardDidAuth req => exact loginsStored_onStandardDidAuth req fault s.auth h

theorem loginsStored_next {s s' : Service} {event : Event} (h : LoginsStored s.auth)
    (hstep : Step host s event s') : LoginsStored s'.auth := by
  cases event with
  | request t fault request =>
      obtain rfl := Option.some.inj hstep
      exact loginsStored_serve fault request h
  | expireLogin m =>
      obtain rfl := Option.some.inj hstep
      exact h.of_narrows ⟨List.Subset.refl _, List.filter_subset_self _⟩
  | peerOffline nodeId =>
      obtain rfl := Option.some.inj hstep
      exact h
  | restart m loaded =>
      obtain ⟨auth, hrestart, rfl⟩ := Option.map_eq_some_iff.mp hstep
      intro login hlogin
      have hnone : auth.pendingLogins = [] := (restart_eq_some hrestart).pendingLogins
      rw [hnone] at hlogin
      cases hlogin

/-- What a confirmation without a credential comes to: a login that needs none has its user
in the database, so that no token is made of a null pointer.  `fault` is any of the calls the
request makes; the first that fails ends it. -/
def FindsUser (host : Host) : Service → Event → Service → Prop
  | s, .request t fault (.signinConfChal req), _ =>
      ∀ login confirmed,
        (confirmedLogin host t req).run fault s.auth = (.ok login, confirmed) →
        req.vc = none → login.vcReq = false →
        (∀ found, dbGetUser t.moment confirmed.db login.sub = some found →
          ∃ uinfo, found = some uinfo ∧ uinfo.did = login.sub) ∧
        ((signInLogin host t req login).run fault confirmed).1 ≠ .error .crash
  | _, _, _ => True

/-- The user of a DID that has one is found. -/
theorem dbGetUser_of_hasUser {m : Moment} {did : String} {found : Option AuthUser}
    (hstored : HasUser s did) (hget : dbGetUser m s.db did = some found) :
    ∃ uinfo, found = some uinfo ∧ uinfo.did = did := by
  obtain ⟨uid, huid⟩ := hstored
  obtain ⟨row, hrow, -, hdid⟩ := mem_accounts.mp huid
  have hfind : (s.db.users.find? fun row => row.did = did).isSome = true :=
    List.find?_isSome.mpr ⟨row, hrow, decide_eq_true hdid⟩
  obtain ⟨first, hfirst⟩ := Option.isSome_iff_exists.mp hfind
  rw [dbGetUser, hfirst] at hget
  split at hget
  · cases hget
    have hfirstDid : first.did = did :=
      of_decide_eq_true (List.find?_some (p := fun row : UserRow => row.did = did) hfirst)
    exact ⟨_, rfl, hfirstDid⟩
  · cases hget

theorem hasUser_of_confirmedLogin {req : SigninConfChalReq} {login : Login}
    (hstored : LoginsStored s)
    (hrun : (confirmedLogin host t req).run fault s = (.ok login, s'))
    (hvcReq : login.vcReq = false) : HasUser s' login.sub := by
  have hdb : s'.db = s.db := by
    have hkeeps : Keeps bound (confirmedLogin host t req) := keeps_confirmedLogin req
    have hsame := hkeeps fault s
    rw [hrun] at hsame
    exact congrArg Bound.db hsame
  rw [HasUser, hdb]
  exact hstored login (mem_of_confirmedLogin hrun) hvcReq

/-- A login that needs no credential, with its user in the database, does not crash. -/
theorem signInLogin_ne_crash {req : SigninConfChalReq} {login : Login} (hvc : req.vc = none)
    (hstored : HasUser s login.sub) :
    ((signInLogin host t req login).run fault s).1 ≠ .error .crash := by
  rw [signInLogin, hvc]
  apply run_bind_ne_error
  · apply run_bind_ne_error (never_require (refuses_ne_ignored _) fault s)
    intro _ s₁ hrequire
    obtain ⟨-, rfl⟩ := run_require_eq_ok.mp hrequire
    apply run_bind_ne_error (never_attempt (refuses_ne_ignored _) fault s)
    intro _ s₂ hattempt
    obtain ⟨-, rfl⟩ := run_attempt_eq_ok.mp hattempt
    apply run_bind_ne_error (never_find (refuses_ne_ignored _) fault s)
    intro found s₃ hfind
    obtain ⟨hget, rfl⟩ := run_find_eq_ok.mp hfind
    obtain ⟨uinfo, rfl, -⟩ := dbGetUser_of_hasUser hstored hget
    intro hcrash
    cases hcrash
  · intro uinfo s' _
    exact never_tokenFor login uinfo fault s'

theorem eachStep_findsUser (host : Host) (events : List Event) :
    EachStep (Step host) (FindsUser host) Service.init events := by
  have hinit : LoginsStored Service.init.auth := by
    intro login hlogin
    cases hlogin
  have hnext : ∀ (s : Service) event s', LoginsStored s.auth → Step host s event s' →
      LoginsStored s'.auth := fun _ _ _ h hstep => loginsStored_next h hstep
  refine eachStep_of_preserved hnext ?_ hinit events
  intro s event s' hstored _
  rw [FindsUser.eq_def]
  split
  · intro login confirmed hlogin hvc hvcReq
    have huser : HasUser confirmed login.sub := hasUser_of_confirmedLogin hstored hlogin hvcReq
    exact ⟨fun found hget => dbGetUser_of_hasUser huser hget, signInLogin_ne_crash hvc huser⟩
  · trivial

end Runs

end FeedsService.Failures
