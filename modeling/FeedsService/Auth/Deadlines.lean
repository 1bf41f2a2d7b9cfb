import FeedsService.Auth.Challenges
import FeedsService.Auth.Confirmations

/-!
# The deadline of a challenge

`login_create` gives a login a minute.  Nothing but the sweep of `auth_expire_login` looks
at the deadline, so that a login which no sweep has found since its deadline is still
confirmed.
-/

namespace FeedsService.Auth

open FeedsService.Library FeedsService.Feeds FeedsService.Runs

section Model

/-- The service, the time of its last event, the time of its last sweep or start, and the
logins it has issued since its last start: those that no response has taken out and no
login of the same nonce has replaced, expired or not. -/
structure Timed where
  auth : State
  clock : ℤ
  swept : ℤ
  issued : List Login

def Timed.init (start : ℤ) : Timed :=
  ⟨State.init, start, start, []⟩

/-- A sweep and a restart leave no login whose deadline has passed. -/
def sweptAfter (swept : ℤ) (a : Action) : ℤ :=
  match a.event with
  | .expireLogin | .restart _ => a.moment.now
  | _ => swept

/-- The login that a request for a challenge gets. -/
def issuedLogin (host : Host) (m : Moment) (s : State) (req : SigninReqChalReq) :
    Option Login :=
  if didIsReady s ∧ req.iss.utf8ByteSize < host.maxDidLen ∧
      (genChal m s host.nodeId m.nonce).isSome ∧ (feedsVcFor m s req.vcReq).isSome then
    loginCreate m s req.iss
  else
    none

/-- The nonce that a response names: that of a valid presentation, held by its issuer, for
this node. -/
def namedNonce (host : Host) (m : Moment) (s : State) (req : SigninConfChalReq) :
    Option String :=
  if didIsReady s ∧ jwsParses host m req.jws then
    req.jws.presentation.bind fun vp =>
      if host.presentationIsValid m.now vp ∧ vp.holder = req.jws.issuer ∧
          vp.realm = some host.nodeId then
        vp.nonce
      else
        none
  else
    none

def issuedAfter (host : Host) (s : State) (issued : List Login) (a : Action) : List Login :=
  match a.event with
  | .signinReqChal req => (issuedLogin host a.moment s req).elim issued fun login =>
      pendingLoginPut login issued
  | .signinConfChal req => (namedNonce host a.moment s req).elim issued fun nonce =>
      KeyedTable.remove Login.nonce issued nonce
  | .restart _ => []
  | _ => issued

/-- The clock only moves forward. -/
def nextTimed (host : Host) (τ : Timed) (a : Action) : Option Timed :=
  if τ.clock ≤ a.moment.now then
    (next host τ.auth a).map fun auth =>
      ⟨auth, a.moment.now, sweptAfter τ.swept a, issuedAfter host τ.auth τ.issued a⟩
  else
    none

abbrev TimedStep (host : Host) : Timed → Action → Timed → Prop :=
  Performs (nextTimed host)

/-- The pending login that a response names. -/
def namedLogin (s : State) (chalResp : Jws) : Option Login :=
  (chalResp.presentation.bind Presentation.nonce).bind (KeyedTable.get Login.nonce s.pendingLogins)

def YieldsToken (host : Host) (m : Moment) (s : State) (req : SigninConfChalReq) : Prop :=
  ∃ tk exp, (hdlSigninConfChalReq host m s req).2 = .signinConfChal req.tsxId tk exp

/-- A response to an expired challenge does not yield an access token. -/
def ExpiredAreDead (host : Host) (τ : Timed) (a : Action) (_ : Timed) : Prop :=
  ∀ req login, a.event = .signinConfChal req → namedLogin τ.auth req.jws = some login →
    login.expat < a.moment.now → ¬ YieldsToken host a.moment τ.auth req

/-- There is a user for a confirmed login: the one of the credential, or the stored one. -/
def UserFound (host : Host) (m : Moment) (s : State) (login : Login) (req : SigninConfChalReq) :
    Prop :=
  match req.vc with
  | none => login.vcReq = false ∧ m.dbReads = true ∧ ∃ uid, (uid, login.sub) ∈ accounts s.db.users
  | some none => False
  | some (some vc) =>
      host.credentialIsValid m.now vc = true ∧ req.jws.issuer = vc.owner ∧
        (∃ name, vc.getProperty "name" = some name ∧ name ≠ "NA") ∧ m.allocs = true ∧
        m.DbCallsSucceed ∧ ((∃ uid, (uid, req.jws.issuer) ∈ accounts s.db.users) ∨
          nextUserId s.db.users m.skipped ≤ maxRowid)

/-- A response that answers the challenge of one of these logins, whatever the time. -/
structure Answers (host : Host) (m : Moment) (s : State) (logins : List Login)
    (req : SigninConfChalReq) (login : Login) : Prop where
  named : namedNonce host m s req = some login.nonce
  known : KeyedTable.get Login.nonce logins login.nonce = some login
  sub : req.jws.issuer = login.sub
  user : UserFound host m s login req
  document : s.feedsDoc ≠ none
  builder : m.builderFault = none

/-- A response that answers the challenge of an issued login after its deadline comes after
a sweep later than the deadline. -/
def SweptInTime (host : Host) (τ : Timed) (a : Action) (_ : Timed) : Prop :=
  ∀ req login, a.event = .signinConfChal req →
    Answers host a.moment τ.auth τ.issued req login →
    login.expat < a.moment.now → login.expat < τ.swept

end Model

section Tokens

variable {host : Host} {m : Moment} {s : State} {login : Login} {req : SigninConfChalReq}

theorem createUinfoFromVc_eq_some {did : String} {vc : Credential} :
    (∃ uinfo, createUinfoFromVc m did vc = some uinfo) ↔
      (∃ name, vc.getProperty "name" = some name ∧ name ≠ "NA") ∧ m.allocs = true := by
  unfold createUinfoFromVc
  cases hname : vc.getProperty "name" with
  | none => simp
  | some name =>
      by_cases hna : name = "NA"
      · simp [hna]
      · by_cases hallocs : m.allocs = true <;> simp [hna, hallocs]

theorem createUinfoFromVc_did {did : String} {vc : Credential} {uinfo : AuthUser}
    (h : createUinfoFromVc m did vc = some uinfo) : uinfo.did = did := by
  unfold createUinfoFromVc at h
  split at h
  · cases h
  · split at h
    · cases h
    · split at h
      · rw [← Option.some.inj h]
      · cases h

theorem chalRespIsValid_of_confirms {chalResp : Jws} {vp : Presentation}
    (h : Confirms host m s chalResp vp login) :
    chalRespIsValid host m s chalResp =
      (KeyedTable.remove Login.nonce s.pendingLogins login.nonce, some login) := by
  have hnamed : vp.nonce.bind (KeyedTable.get Login.nonce s.pendingLogins) = some login := by
    rw [h.nonce, Option.bind_some, h.pending]
  simp [chalRespIsValid, h.presentation, h.valid, h.issuer, h.realm, hnamed, ← h.sub]

theorem dbGetUser_eq_some {db : Db} {did : String} :
    (∃ uinfo, dbGetUser m db did = some (some uinfo)) ↔
      m.dbReads = true ∧ ∃ uid, (uid, did) ∈ accounts db.users := by
  constructor
  · rintro ⟨uinfo, hget⟩
    rw [dbGetUser] at hget
    split at hget
    · next hreads =>
        obtain ⟨row, hrow, -⟩ := Option.map_eq_some_iff.mp (Option.some.inj hget)
        have hdid : row.did = did := by simpa using List.find?_some hrow
        exact ⟨hreads, row.userId,
          mem_accounts.mpr ⟨row, List.mem_of_find?_eq_some hrow, rfl, hdid⟩⟩
    · cases hget
  · rintro ⟨hreads, hstored⟩
    have hany := List.any_eq_true.mp (any_did_iff.mpr hstored)
    obtain ⟨row, hrow⟩ := Option.isSome_iff_exists.mp (List.find?_isSome.mpr hany)
    exact ⟨_, by rw [dbGetUser, if_pos hreads, hrow, Option.map_some]⟩

theorem signedInUser_none :
    (∃ s' uinfo, signedInUser host m s login req.jws none = (s', .ok (some uinfo))) ↔
      login.vcReq = false ∧ m.dbReads = true ∧
        ∃ uid, (uid, login.sub) ∈ accounts s.db.users := by
  rw [← dbGetUser_eq_some]
  simp only [signedInUser]
  split
  · next hreq => simp [hreq]
  · next hreq =>
      have hfree : login.vcReq = false := by simpa using hreq
      cases hget : dbGetUser m s.db login.sub with
      | none => simp
      | some uinfo => simp [hfree]

theorem signedInUser_some (hidentified : Identified s) (vc : Credential) :
    (∃ s' uinfo, signedInUser host m s login req.jws (some (some vc)) =
        (s', .ok (some uinfo))) ↔
      host.credentialIsValid m.now vc = true ∧ req.jws.issuer = vc.owner ∧
        (∃ name, vc.getProperty "name" = some name ∧ name ≠ "NA") ∧ m.allocs = true ∧
        m.DbCallsSucceed ∧ ((∃ uid, (uid, req.jws.issuer) ∈ accounts s.db.users) ∨
          nextUserId s.db.users m.skipped ≤ maxRowid) := by
  simp only [signedInUser]
  by_cases hvalid : host.credentialIsValid m.now vc = true
  · by_cases howner : req.jws.issuer = vc.owner
    · rw [if_neg (by simpa using hvalid), if_neg (by simpa using howner)]
      cases hmade : createUinfoFromVc m req.jws.issuer vc with
      | none =>
          refine iff_of_false (by simp) ?_
          rintro ⟨-, -, hname, hallocs, -⟩
          obtain ⟨uinfo, hsome⟩ := createUinfoFromVc_eq_some.mpr ⟨hname, hallocs⟩
          cases hmade.symm.trans hsome
      | some uinfo =>
          obtain ⟨hname, hallocs⟩ := createUinfoFromVc_eq_some.mp ⟨uinfo, hmade⟩
          have hdid := createUinfoFromVc_did hmade
          obtain ⟨s', hupdated⟩ := Option.isSome_iff_exists.mp
            ((oinfoUpdIfOwner_isSome m s uinfo).mpr fun _ => hallocs)
          obtain ⟨owner, hs', -⟩ := oinfoUpdIfOwner_eq_some hupdated
          have hdb : s'.db = s.db := by rw [hs']
          simp only [hupdated, hdb]
          have hstored : (∃ uid, (dbUpsertUser m s.db uinfo).2 = some uid) ↔
              m.DbCallsSucceed ∧ ((∃ uid, (uid, req.jws.issuer) ∈ accounts s.db.users) ∨
                nextUserId s.db.users m.skipped ≤ maxRowid) := by
            rw [← hdid]
            constructor
            · rintro ⟨uid, huid⟩
              exact ((dbUpsertUser_eq_some hidentified).mp huid).1
            · intro hok
              exact ⟨_, (dbUpsertUser_eq_some hidentified).mpr ⟨hok, rfl⟩⟩
          simp only [hvalid, howner.symm, hname, hallocs, true_and]
          rw [howner] at hstored
          rw [howner, ← hstored]
          rcases hresult : dbUpsertUser m s.db uinfo with ⟨db, result⟩
          cases result with
          | none => simp
          | some uid => simp
    · rw [if_neg (by simpa using hvalid), if_pos howner]
      exact iff_of_false (by simp) fun h => howner h.2.1
  · rw [if_pos hvalid]
    exact iff_of_false (by simp) fun h => hvalid h.1

theorem signedInUser_eq_ok (hidentified : Identified s) :
    (∃ s' uinfo, signedInUser host m s login req.jws req.vc = (s', .ok (some uinfo))) ↔
      UserFound host m s login req := by
  rw [UserFound]
  split
  · next hvc => rw [hvc, signedInUser_none]
  · next hvc => simp [hvc, signedInUser]
  · next vc hvc => rw [hvc, signedInUser_some hidentified]

theorem confirmLogin_answer (hidentified : Identified s) :
    (∃ tk exp, (confirmLogin host m s req login).2 = .signinConfChal req.tsxId tk exp) ↔
      UserFound host m s login req ∧ s.feedsDoc ≠ none ∧ m.builderFault = none := by
  rw [← signedInUser_eq_ok hidentified]
  have hspec := (signedInUser_spec host m s login req.jws req.vc).1
  unfold confirmLogin
  rcases huser : signedInUser host m s login req.jws req.vc with ⟨s', result⟩
  rw [huser] at hspec
  rcases result with ec | uinfo
  · simp
  · cases uinfo with
    | none => simp
    | some uinfo =>
        have htoken : (∃ token, genAccessToken m s' uinfo = some token) ↔
            s.feedsDoc ≠ none ∧ m.builderFault = none := by
          rw [← hspec.feedsDoc]
          constructor
          · rintro ⟨token, htoken⟩
            obtain ⟨doc, hdoc, hbuilder, -⟩ := genAccessToken_eq_some.mp htoken
            exact ⟨by simp [hdoc], hbuilder⟩
          · rintro ⟨hdoc, hbuilder⟩
            obtain ⟨doc, hdoc⟩ := Option.ne_none_iff_exists'.mp hdoc
            exact ⟨_, genAccessToken_eq_some.mpr ⟨doc, hdoc, hbuilder, rfl⟩⟩
        rw [← htoken]
        cases hmade : genAccessToken m s' uinfo with
        | none => simp [hmade]
        | some token => simp [hmade]

theorem namedNonce_eq_some {nonce : String} :
    namedNonce host m s req = some nonce ↔
      didIsReady s = true ∧ jwsParses host m req.jws = true ∧ ∃ vp,
        req.jws.presentation = some vp ∧ host.presentationIsValid m.now vp = true ∧
          vp.holder = req.jws.issuer ∧ vp.realm = some host.nodeId ∧ vp.nonce = some nonce := by
  rw [namedNonce]
  split
  · next hpasses =>
      rw [Option.bind_eq_some_iff]
      simp only [hpasses.1, hpasses.2, true_and]
      refine exists_congr fun vp => and_congr_right fun _ => ?_
      split
      · next hvalid => simp [hvalid.1, hvalid.2.1, hvalid.2.2]
      · next hvalid =>
          refine iff_of_false (by simp) ?_
          rintro ⟨hpresentation, hholder, hrealm, -⟩
          exact hvalid ⟨hpresentation, hholder, hrealm⟩
  · next hpasses =>
      refine iff_of_false (by simp) ?_
      rintro ⟨hready, hparses, -⟩
      exact hpasses ⟨hready, hparses⟩

/-- Answering a pending login is what `chal_resp_is_valid` checks. -/
theorem answers_pending_iff :
    Answers host m s s.pendingLogins req login ↔
      didIsReady s = true ∧ jwsParses host m req.jws = true ∧
        (∃ vp, Confirms host m s req.jws vp login) ∧ UserFound host m s login req ∧
        s.feedsDoc ≠ none ∧ m.builderFault = none := by
  constructor
  · rintro ⟨hnamed, hknown, hsub, huser, hdoc, hbuilder⟩
    obtain ⟨hready, hparses, vp, hvp, hvalid, hholder, hrealm, hnonce⟩ :=
      namedNonce_eq_some.mp hnamed
    exact ⟨hready, hparses, ⟨vp, hvp, hvalid, hholder, hrealm, hnonce, hknown,
      hholder.trans hsub⟩, huser, hdoc, hbuilder⟩
  · rintro ⟨hready, hparses, ⟨vp, h⟩, huser, hdoc, hbuilder⟩
    exact ⟨namedNonce_eq_some.mpr ⟨hready, hparses, vp, h.presentation, h.valid, h.issuer,
      h.realm, h.nonce⟩, h.pending, h.issuer.symm.trans h.sub, huser, hdoc, hbuilder⟩

/-- What it takes to get a token, apart from the time. -/
theorem yieldsToken_iff (hidentified : Identified s) :
    YieldsToken host m s req ↔ ∃ login, Answers host m s s.pendingLogins req login := by
  simp only [answers_pending_iff]
  rw [YieldsToken]
  unfold hdlSigninConfChalReq
  split
  · next hready =>
      refine iff_of_false (by simp) ?_
      rintro ⟨login, hanswers⟩
      exact hready hanswers.1
  · next hready =>
      split
      · next hparses =>
          refine iff_of_false (by simp) ?_
          rintro ⟨login, hanswers⟩
          exact hparses hanswers.2.1
      · next hparses =>
          split
          · next logins hvalid =>
              refine iff_of_false (by simp) ?_
              rintro ⟨login, -, -, ⟨vp, hconfirms⟩, -⟩
              cases hvalid.symm.trans (chalRespIsValid_of_confirms hconfirms)
          · next logins login hvalid =>
              have hconfirms : ∃ vp, Confirms host m s req.jws vp login := by
                rcases chalRespIsValid_cases host m s req.jws with
                  ⟨_, -, hnone⟩ | ⟨vp, other, hconfirms, hsome⟩
                · cases hvalid.symm.trans hnone
                · cases hvalid.symm.trans hsome
                  exact ⟨vp, hconfirms⟩
              have hanswer := @confirmLogin_answer host m { s with
                  pendingLogins := logins
                  history := .confirmed login req.jws :: s.history } login req hidentified
              have hsame : UserFound host m { s with
                  pendingLogins := logins
                  history := .confirmed login req.jws :: s.history } login req ↔
                  UserFound host m s login req := Iff.rfl
              rw [hanswer, hsame]
              constructor
              · intro huser
                exact ⟨login, by simpa using hready, by simpa using hparses, hconfirms, huser⟩
              · rintro ⟨other, -, -, ⟨vp, hvp⟩, huser⟩
                cases hvalid.symm.trans (chalRespIsValid_of_confirms hvp)
                exact huser

end Tokens

section Pending

variable {host : Host} {m : Moment} {s : State}

/-- A request for a challenge adds the login that it is given. -/
theorem hdlSigninReqChalReq_pending (req : SigninReqChalReq) :
    (hdlSigninReqChalReq host m s req).1.pendingLogins =
      (issuedLogin host m s req).elim s.pendingLogins fun login =>
        pendingLoginPut login s.pendingLogins := by
  unfold hdlSigninReqChalReq
  rw [issuedLogin]
  split
  · next hready => rw [if_neg fun h => hready h.1, Option.elim_none]
  · split
    · next hlong => rw [if_neg fun h => absurd h.2.1 (not_lt.mpr hlong), Option.elim_none]
    · next hready hlong =>
        cases hlogin : loginCreate m s req.iss with
        | none => rw [ite_self, Option.elim_none]
        | some login =>
            have hnonce : login.nonce = m.nonce := by
              rw [loginCreate] at hlogin
              split at hlogin
              · rw [← Option.some.inj hlogin]
              · cases hlogin
            dsimp only
            rw [hnonce]
            cases hchal : genChal m s host.nodeId m.nonce with
            | none => simp
            | some chal =>
                cases hvc : feedsVcFor m s req.vcReq with
                | none => simp
                | some vc =>
                    rw [if_pos ⟨not_not.mp hready, not_le.mp hlong, rfl, rfl⟩, Option.elim_some]

/-- A new login has a minute. -/
theorem issuedLogin_expat {req : SigninReqChalReq} {login : Login}
    (h : issuedLogin host m s req = some login) : login.expat = m.now + 60 := by
  rw [issuedLogin] at h
  split at h
  · rw [loginCreate] at h
    split at h
    · rw [← Option.some.inj h]
    · cases h
  · cases h

/-- The nonce that a response names leaves the table, whatever becomes of the response. -/
theorem chalRespIsValid_pending {req : SigninConfChalReq} (hready : didIsReady s = true)
    (hparses : jwsParses host m req.jws = true) :
    (chalRespIsValid host m s req.jws).1 =
      (namedNonce host m s req).elim s.pendingLogins fun nonce =>
        KeyedTable.remove Login.nonce s.pendingLogins nonce := by
  rw [namedNonce, if_pos ⟨hready, hparses⟩, chalRespIsValid]
  cases hvp : req.jws.presentation with
  | none => rfl
  | some vp =>
      rw [Option.bind_some]
      dsimp only
      split
      · next hvalid => rw [if_neg fun h => hvalid h.1, Option.elim_none]
      · next hvalid =>
          split
          · next hholder => rw [if_neg fun h => hholder h.2.1, Option.elim_none]
          · next hholder =>
              split
              · next hrealm => rw [if_neg fun h => hrealm h.2.2, Option.elim_none]
              · next hrealm =>
                  rw [if_pos ⟨not_not.mp hvalid, not_not.mp hholder, not_not.mp hrealm⟩]
                  cases hnonce : vp.nonce with
                  | none => rfl
                  | some nonce =>
                      rw [Option.bind_some, Option.elim_some]
                      cases hget : KeyedTable.get Login.nonce s.pendingLogins nonce with
                      | none => rw [KeyedTable.remove_of_get_none hget]
                      | some login =>
                          dsimp only
                          rw [(KeyedTable.mem_of_get hget).2]
                          split <;> rfl

theorem hdlSigninConfChalReq_pending (req : SigninConfChalReq) :
    (hdlSigninConfChalReq host m s req).1.pendingLogins =
      (namedNonce host m s req).elim s.pendingLogins fun nonce =>
        KeyedTable.remove Login.nonce s.pendingLogins nonce := by
  unfold hdlSigninConfChalReq
  split
  · next hready => rw [namedNonce, if_neg fun h => hready h.1, Option.elim_none]
  · next hready =>
      split
      · next hparses => rw [namedNonce, if_neg fun h => hparses h.2, Option.elim_none]
      · next hparses =>
          rw [← chalRespIsValid_pending (not_not.mp hready) (not_not.mp hparses)]
          split
          · next hvalid => rw [hvalid]
          · next logins login hvalid =>
              obtain ⟨s', tokens, hstores, -, hresult⟩ := confirmLogin_cases host m
                { s with
                  pendingLogins := logins
                  history := .confirmed login req.jws :: s.history } req login
              rw [hresult, hvalid]
              exact hstores.pendingLogins

/-- No other request, apart from the sweep, touches the pending logins. -/
theorem next_pending {a : Action} {t : State} (hchallenge : ∀ req, a.event ≠ .signinReqChal req)
    (hresponse : ∀ req, a.event ≠ .signinConfChal req) (hsweep : a.event ≠ .expireLogin)
    (hrestart : ∀ loaded, a.event ≠ .restart loaded) (hstep : Step host s a t) :
    t.pendingLogins = s.pendingLogins := by
  cases next_change hstep with
  | challenged hevent => exact absurd hevent (hchallenge _)
  | dropped hevent =>
      rcases hevent with hevent | ⟨req, hevent⟩
      · exact absurd hevent hsweep
      · exact absurd hevent (hresponse req)
  | confirmed hevent => exact absurd hevent (hresponse _)
  | standardStored _ hstores => exact hstores.pendingLogins
  | @standardToken req info => exact (adaptOldLogin_stores a.moment s info).pendingLogins
  | restarted hevent => exact absurd hevent (hrestart _)
  | same | declared | declareFailed | importFailed | imported | credentialed
    | standardChallenge => rfl

end Pending

section Runs

variable {host : Host} {a : Action} {s t : State} {τ τ' : Timed}

/-- The pending logins are the issued ones whose deadline had not passed at the last sweep. -/
structure LoginsSwept (τ : Timed) : Prop where
  clock : τ.swept ≤ τ.clock
  keyed : KeyedTable.Keyed Login.nonce τ.issued
  pending : τ.auth.pendingLogins = τ.issued.filter fun login => ¬ login.expat < τ.swept

theorem LoginsSwept.init (start : ℤ) : LoginsSwept (Timed.init start) :=
  ⟨le_refl start, KeyedTable.keyed_nil, rfl⟩

theorem timedStep_iff :
    TimedStep host τ a τ' ↔
      τ.clock ≤ a.moment.now ∧ ∃ auth, next host τ.auth a = some auth ∧
        τ' = ⟨auth, a.moment.now, sweptAfter τ.swept a,
          issuedAfter host τ.auth τ.issued a⟩ := by
  rw [TimedStep, Performs, nextTimed]
  split
  · next hclock =>
      rw [Option.map_eq_some_iff]
      constructor
      · rintro ⟨auth, hnext, hsame⟩
        exact ⟨hclock, auth, hnext, hsame.symm⟩
      · rintro ⟨-, auth, hnext, hsame⟩
        exact ⟨auth, hnext, hsame.symm⟩
  · next hclock => exact iff_of_false (by simp) fun h => hclock h.1

theorem LoginsSwept.step (h : LoginsSwept τ) (hstep : TimedStep host τ a τ') :
    LoginsSwept τ' := by
  obtain ⟨hclock, auth, hnext, rfl⟩ := timedStep_iff.mp hstep
  have hswept : τ.swept ≤ a.moment.now := h.clock.trans hclock
  cases hevent : a.event with
  | signinReqChal req =>
      rw [next, hevent] at hnext
      obtain rfl := Option.some.inj hnext
      simp only [sweptAfter, issuedAfter, hevent]
      have hpending := @hdlSigninReqChalReq_pending host a.moment τ.auth req
      cases hissued : issuedLogin host a.moment τ.auth req with
      | none =>
          rw [hissued, Option.elim_none] at hpending
          exact ⟨hswept, h.keyed, hpending.trans h.pending⟩
      | some login =>
          rw [hissued, Option.elim_some] at hpending
          refine ⟨hswept, h.keyed.put login, ?_⟩
          have hlasts : decide (¬ login.expat < τ.swept) = true := by
            have hexpat := issuedLogin_expat hissued
            simp only [decide_eq_true_eq]
            omega
          calc
            _ = pendingLoginPut login τ.auth.pendingLogins := hpending
            _ = _ := by
              rw [h.pending, pendingLoginPut]
              exact KeyedTable.put_filter
                (p := fun other : Login => decide (¬ other.expat < τ.swept)) hlasts
  | signinConfChal req =>
      rw [next, hevent] at hnext
      obtain rfl := Option.some.inj hnext
      simp only [sweptAfter, issuedAfter, hevent]
      have hpending := @hdlSigninConfChalReq_pending host a.moment τ.auth req
      cases hnamed : namedNonce host a.moment τ.auth req with
      | none =>
          rw [hnamed, Option.elim_none] at hpending
          exact ⟨hswept, h.keyed, hpending.trans h.pending⟩
      | some nonce =>
          rw [hnamed, Option.elim_some] at hpending
          refine ⟨hswept, h.keyed.remove nonce, ?_⟩
          calc
            _ = KeyedTable.remove Login.nonce τ.auth.pendingLogins nonce := hpending
            _ = _ := by
              rw [h.pending]
              exact KeyedTable.remove_filter
  | expireLogin =>
      rw [next, hevent] at hnext
      obtain rfl := Option.some.inj hnext
      simp only [sweptAfter, issuedAfter, hevent]
      refine ⟨le_refl _, h.keyed, ?_⟩
      simp only [authExpireLogin, h.pending, List.filter_filter]
      refine List.filter_congr fun login _ => ?_
      rw [← Bool.decide_and, decide_eq_decide]
      omega
  | restart loaded =>
      rw [next, hevent] at hnext
      simp only [sweptAfter, issuedAfter, hevent]
      exact ⟨le_refl _, KeyedTable.keyed_nil, (restart_eq_some hnext).pendingLogins⟩
  | _ =>
      have hpending := next_pending (by simp [hevent]) (by simp [hevent]) (by simp [hevent])
        (by simp [hevent]) hnext
      simp only [sweptAfter, issuedAfter, hevent]
      exact ⟨hswept, h.keyed, hpending.trans h.pending⟩

/-- A pending login is an issued one that no sweep has found expired. -/
theorem LoginsSwept.get_iff (h : LoginsSwept τ) {nonce : String} {login : Login} :
    KeyedTable.get Login.nonce τ.auth.pendingLogins nonce = some login ↔
      KeyedTable.get Login.nonce τ.issued nonce = some login ∧ ¬ login.expat < τ.swept := by
  rw [h.pending, KeyedTable.get_eq_some (h.keyed.filter _), KeyedTable.get_eq_some h.keyed,
    List.mem_filter, decide_eq_true_eq]
  exact and_right_comm

theorem namedLogin_of_confirms {m : Moment} {chalResp : Jws} {vp : Presentation} {login : Login}
    (h : Confirms host m s chalResp vp login) : namedLogin s chalResp = some login := by
  rw [namedLogin, h.presentation, Option.bind_some, h.nonce, Option.bind_some, h.pending]

theorem expiredAreDead_step_iff (hidentified : Identified τ.auth) (hswept : LoginsSwept τ) :
    ExpiredAreDead host τ a τ' ↔ SweptInTime host τ a τ' := by
  constructor
  · intro hdead req login hevent hanswers hlate
    by_contra hunswept
    have hpending : Answers host a.moment τ.auth τ.auth.pendingLogins req login :=
      { hanswers with known := hswept.get_iff.mpr ⟨hanswers.known, hunswept⟩ }
    obtain ⟨-, -, ⟨vp, hconfirms⟩, -⟩ := answers_pending_iff.mp hpending
    exact hdead req login hevent (namedLogin_of_confirms hconfirms) hlate
      ((yieldsToken_iff hidentified).mpr ⟨login, hpending⟩)
  · intro hintime req login hevent hnamed hlate hyields
    obtain ⟨other, hanswers⟩ := (yieldsToken_iff hidentified).mp hyields
    obtain ⟨-, -, ⟨vp, hconfirms⟩, -⟩ := answers_pending_iff.mp hanswers
    cases hnamed.symm.trans (namedLogin_of_confirms hconfirms)
    obtain ⟨hissued, hunswept⟩ := hswept.get_iff.mp hanswers.known
    exact hunswept (hintime req login hevent { hanswers with known := hissued } hlate)

theorem expiredAreDead_iff (host : Host) (start : ℤ) (actions : List Action) :
    EachStep (TimedStep host) (ExpiredAreDead host) (Timed.init start) actions ↔
      EachStep (TimedStep host) (SweptInTime host) (Timed.init start) actions := by
  apply eachStep_congr fun τ => Identified τ.auth ∧ LoginsSwept τ
  · intro τ a τ' ⟨hidentified, hswept⟩ hstep
    obtain ⟨-, auth, hnext, hτ'⟩ := timedStep_iff.mp hstep
    have hlater := hswept.step hstep
    subst hτ'
    exact ⟨hidentified.step hnext, hlater⟩
  · intro τ a τ' ⟨hidentified, hswept⟩ _
    exact expiredAreDead_step_iff hidentified hswept
  · exact ⟨Identified.init, LoginsSwept.init start⟩

/-- The answer of a client to the challenge with the nonce `nonce`, and its credential. -/
def lateAnswer : SigninConfChalReq where
  tsxId := 5
  jws :=
    { clientResponse "did:client" with
      claims := [("presentation", .object (some {
        holder := "did:client"
        nonce := some "nonce"
        realm := some "node"
        credentials := [] }))] }
  vc := some (some {
    id := ⟨"did:client", "profile"⟩
    owner := "did:client"
    issuer := "did:client"
    properties := [("name", "client")]
    issuanceDate := 900
    expirationDate := 9000 })

/-- The service is bound and challenges the client. -/
def challengedRun : List Action :=
  bindingRun ++ [⟨{ now := 1003, nonce := "nonce" }, .signinReqChal ⟨4, "did:client", false⟩⟩]

/-- The client answers an hour later. -/
def lateResponse : Action :=
  ⟨{ now := 4603 }, .signinConfChal lateAnswer⟩

theorem late_response_yields_token :
    ¬ EachStep (TimedStep trustingHost) (ExpiredAreDead trustingHost) (Timed.init 1000)
      (challengedRun ++ [lateResponse]) := by
  intro hruns
  obtain ⟨τ, hrun, hnamed, hyields⟩ :
      ∃ τ, exec (nextTimed trustingHost) (Timed.init 1000) challengedRun = some τ ∧
        namedLogin τ.auth lateAnswer.jws = some ⟨"nonce", "did:client", 1063, true⟩ ∧
        YieldsToken trustingHost lateResponse.moment τ.auth lateAnswer :=
    ⟨_, rfl, by decide, _, _, rfl⟩
  obtain ⟨τ', hstep⟩ : ∃ τ', nextTimed trustingHost τ lateResponse = some τ' := by
    cases hrun
    exact ⟨_, rfl⟩
  exact hruns.last (run_of_exec hrun) hstep lateAnswer _ rfl hnamed (by decide) hyields

end Runs

end FeedsService.Auth
