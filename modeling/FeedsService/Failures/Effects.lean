import FeedsService.Auth.AccessTokens
import FeedsService.Failures.AuthSpared
import FeedsService.Failures.FeedsSpared

/-!
# What an error leaves behind

Runs of the whole service, where each request may have one call that fails.  An error that
is sent, or returned by a sign-in of `StandardAuth.cpp`, should leave the database, the
tables in memory and the binding as they were.
-/

namespace FeedsService.Failures

open FeedsService.Library FeedsService.Library.Handlers FeedsService.Library.Transactions
open FeedsService.Feeds FeedsService.Auth FeedsService.Runs

section Service

structure Service where
  mem : Mem
  auth : Auth.State

def Service.init : Service :=
  ⟨Mem.loadChansFromDb Db.init, .init⟩

def Service.world (s : Service) : World :=
  ⟨s.mem, s.auth.db⟩

/-- What an error must leave alone. -/
def Service.shown (s : Service) : Mem × Bound :=
  (s.mem, bound s.auth)

/-- A request to a handler of `feeds.c`, with its sender and its access token. -/
structure Message where
  «from» : NodeId
  tsxId : UInt64
  tk : Jws
  maxContentLen : UInt64
  connectingClients : ℤ
  req : Feeds.Req

inductive Request
  | feeds (message : Message)
  | declOwner (req : DeclOwnerReq)
  | impDid (req : ImpDidReq)
  | issVc (req : IssVcReq)
  | updateVc (req : UpdateVcReq)
  | signinReqChal (req : SigninReqChalReq)
  | signinConfChal (req : SigninConfChalReq)
  | standardSignIn (req : StandardSignInRequest)
  | standardDidAuth (req : StandardDidAuthRequest)

variable (host : Host) (t : Instant)

def Message.ctx (message : Message) (s : Service) : Ctx where
  «from» := message.from
  tsxId := message.tsxId
  didIsReady := Auth.didIsReady s.auth
  now := t.now
  uinfo := (Auth.createUinfoFromAccessToken host t.moment s.auth message.tk).map AuthUser.info
  maxContentLen := message.maxContentLen
  ownerDid := (s.auth.ownerInfo.map AuthUser.did).getD ""
  connectingClients := message.connectingClients

/-- The error with which a handler leaves, if it does, and the service it leaves. -/
abbrev Left : Type :=
  Option Exit × Service

def exitOf {α : Type} : Except Exit α → Option Exit
  | .ok _ => none
  | .error e => some e

def onWorld {α : Type} (handler : FeedsHandler α) (fault : Option Call) (s : Service) : Left :=
  let (result, w) := handler.run fault s.world
  (exitOf result, ⟨w.mem, { s.auth with db := w.db }⟩)

def onAuth {α : Type} (handler : AuthHandler α) (fault : Option Call) (s : Service) : Left :=
  let (result, auth) := handler.run fault s.auth
  (exitOf result, { s with auth := auth })

/-- A request that only reads is not looked at. -/
def serve (fault : Option Call) (s : Service) : Request → Left
  | .feeds message =>
      (feedsHandler (message.ctx host t s) message.req).elim (none, s) fun handler =>
        onWorld handler fault s
  | .declOwner req => onAuth (hdlDeclOwnerReq t req) fault s
  | .impDid req => onAuth (hdlImpDidReq req) fault s
  | .issVc req => onAuth (hdlIssVcReq host t req) fault s
  | .updateVc req => onAuth (hdlUpdateVcReq host t req) fault s
  | .signinReqChal req => onAuth (hdlSigninReqChalReq host t req) fault s
  | .signinConfChal req => onAuth (hdlSigninConfChalReq host t req) fault s
  | .standardSignIn req => onAuth (onStandardSignIn host t req) fault s
  | .standardDidAuth req => onAuth (onStandardDidAuth host t req) fault s

/-- Whether an error comes out of the request.  The error of a handler in C is marshalled
and put into the queue; that of an advanced one is returned. -/
def Told (fault : Option Call) : Request → Prop
  | .standardSignIn _ | .standardDidAuth _ => True
  | _ => fault ≠ some .marshalErr ∧ fault ≠ some .msgqEnq

inductive Event
  | request (t : Instant) (fault : Option Call) (request : Request)
  | expireLogin (m : Moment)
  | peerOffline (nodeId : NodeId)
  | restart (m : Moment) (loaded : Loaded)

/-- A restart may fail. -/
def next (s : Service) : Event → Option Service
  | .request t fault request => some (serve host t fault s request).2
  | .expireLogin m => some { s with auth := authExpireLogin m s.auth }
  | .peerOffline nodeId => some { s with mem := s.mem.feedsDeactivateSuber nodeId }
  | .restart m loaded => (restart m s.auth loaded).map fun auth =>
      ⟨Mem.loadChansFromDb auth.db, auth⟩

abbrev Step : Service → Event → Service → Prop :=
  Performs (next host)

end Service

section Binding

variable {host : Host} {t : Instant} {P : Auth.State → Prop}

/-- It depends on the database, the record of the owner and whether there is an owner. -/
def OfOwner (P : Auth.State → Prop) : Prop :=
  ∀ s s', s'.db = s.db → s'.ownerInfo = s.ownerInfo →
    s'.phase = s.phase ∨ s'.phase ≠ .noOwner → P s → P s'

theorem OfOwner.of_bound (hP : OfOwner P) (s s' : Auth.State) (hbound : bound s' = bound s)
    (h : P s) : P s' :=
  hP s s' (congrArg Bound.db hbound) (congrArg Bound.ownerInfo hbound)
    (.inl (congrArg Bound.phase hbound)) h

theorem OfOwner.of_keeps {α : Type} {handler : AuthHandler α} (hP : OfOwner P)
    (h : Keeps bound handler) : Preserves P handler :=
  preserves_of_keeps hP.of_bound h

theorem OfOwner.preserves_hdlImpDidReq (hP : OfOwner P) (req : ImpDidReq) :
    Preserves P (hdlImpDidReq req) := by
  have hnew : Preserves P (newDid req.doc) :=
    preserves_invoke fun _ s h => hP s _ rfl rfl (.inl rfl) h
  have himped : Preserves P (update fun s => { s with phase := .didImped } : AuthHandler Unit) :=
    preserves_update fun s h => hP s _ rfl rfl (.inr (by simp)) h
  apply preserves_bind (hP.of_keeps (keeps_rootIdentity req))
  intro _
  apply preserves_bind hnew
  intro doc
  apply preserves_bind himped
  intro _
  exact hP.of_keeps (keeps_bind (keeps_attempt _ _) fun _ =>
    keeps_bind (keeps_find _ _) fun _ => keeps_pure _)

theorem OfOwner.preserves_processVcReq (hP : OfOwner P) (json : Json Credential) :
    Preserves P (unlessUnmarshalled (processVcReq host t json)) := by
  apply preserves_unlessUnmarshalled
  apply preserves_bind (hP.of_keeps (keeps_vcToProcess json))
  intro vc
  exact preserves_update fun s h => hP s _ rfl rfl (.inr (by simp)) h

theorem OfOwner.preserves_hdlIssVcReq (hP : OfOwner P) (req : IssVcReq) :
    Preserves P (hdlIssVcReq host t req) :=
  preserves_bind (hP.preserves_processVcReq req.vc) fun _ => hP.of_keeps (keeps_pure _)

theorem OfOwner.preserves_hdlUpdateVcReq (hP : OfOwner P) (req : UpdateVcReq) :
    Preserves P (hdlUpdateVcReq host t req) := by
  apply preserves_bind (hP.of_keeps keeps_vcIssed)
  intro _
  apply preserves_bind (hP.of_keeps (keeps_attempt _ _))
  intro _
  apply preserves_bind (hP.of_keeps (keeps_find _ _))
  intro uinfo
  apply preserves_bind (hP.of_keeps (keeps_require _ _))
  intro _
  exact preserves_bind (hP.preserves_processVcReq req.vc) fun _ => hP.of_keeps (keeps_pure _)

/-- A sign-in keeps what storing its user keeps. -/
theorem OfOwner.preserves_hdlSigninConfChalReq (hP : OfOwner P)
    (hstore : ∀ ui ownerError userError, Preserves P (storeUser t ui ownerError userError))
    (req : SigninConfChalReq) : Preserves P (hdlSigninConfChalReq host t req) := by
  apply preserves_bind (hP.of_keeps (keeps_confirmedLogin req))
  intro login
  refine preserves_bind ?_ fun _ => hP.of_keeps (keeps_pure _)
  rw [signInLogin]
  split
  · exact hP.of_keeps (keeps_bind (keeps_storedUser login) fun uinfo =>
      keeps_tokenFor (fun _ _ => rfl) login uinfo)
  · next json _ =>
      apply preserves_bind (hP.of_keeps (keeps_uinfoFromVc req json))
      intro ui
      exact preserves_bind (hstore _ _ _) fun uid =>
        hP.of_keeps (keeps_tokenFor (fun _ _ => rfl) login _)

theorem OfOwner.preserves_onStandardDidAuth (hP : OfOwner P)
    (hstore : ∀ ui ownerError userError, Preserves P (storeUser t ui ownerError userError))
    (req : StandardDidAuthRequest) : Preserves P (onStandardDidAuth host t req) := by
  apply preserves_bind (hP.of_keeps (keeps_authToken req))
  intro info
  exact preserves_bind (hstore _ _ _) fun uid =>
    hP.of_keeps (keeps_createAccessToken (fun _ _ => rfl) req info uid)

end Binding

section Owner

/-- Without an owner there is no record of one. -/
def Ownerless (s : Auth.State) : Prop :=
  s.phase = .noOwner → s.ownerInfo = none

variable {host : Host} {t : Instant}

theorem ofOwner_ownerless : OfOwner Ownerless := by
  intro s s' _ howner hphases h hphase
  rcases hphases with hsame | hbound
  · rw [howner]
    exact h (hsame.symm.trans hphase)
  · exact absurd hphase hbound

theorem run_oinfoInit_failing (ui : AuthUser) (s : Auth.State) :
    (oinfoInit ui).run (some .oinfoInit) s = (.error (refuses .internalError), oinfoClear s) :=
  rfl

theorem run_oinfoInit {fault : Option Call} (ui : AuthUser) (s : Auth.State)
    (hfault : fault ≠ some .oinfoInit) :
    (oinfoInit ui).run fault s = (.ok (), { s with ownerInfo := some ui }) := by
  simp only [oinfoInit, invoke, if_neg hfault, Option.elim_some]

theorem preserves_declareOwner (req : DeclOwnerReq) : Preserves Ownerless (declareOwner t req) := by
  intro fault s howner
  by_cases hfault : fault = some .oinfoInit
  · subst hfault
    rw [declareOwner, run_bind_error (run_oinfoInit_failing _ s)]
    exact fun _ => rfl
  · rw [declareOwner, run_bind_ok (run_oinfoInit _ s hfault)]
    rcases hresult : (mutate authDb (dbUpsertUser t (declaredOwner req))
      Auth.Err.internalError.code).run fault { s with ownerInfo := some (declaredOwner req) } with
        ⟨result, s'⟩
    cases result with
    | error e =>
        rw [run_bind_error (run_onError_error hresult)]
        exact fun _ => rfl
    | ok uid =>
        rw [run_bind_ok (run_onError_ok hresult)]
        intro hphase
        cases hphase

theorem preserves_hdlDeclOwnerReq (req : DeclOwnerReq) :
    Preserves Ownerless (hdlDeclOwnerReq t req) := by
  apply preserves_bind (ofOwner_ownerless.of_keeps keeps_get)
  intro s
  dsimp only
  split
  · exact preserves_declareOwner req
  · apply preserves_bind (ofOwner_ownerless.of_keeps (keeps_require _ _))
    intro _
    split
    · exact ofOwner_ownerless.of_keeps (keeps_bind (keeps_attempt _ _) fun _ => keeps_examine _)
    · exact ofOwner_ownerless.of_keeps (keeps_examine _)

/-- The record of the owner is updated, not made. -/
theorem preserves_storeUser (ui : AuthUser) (ownerError : Exit) (userError : ℤ) :
    Preserves Ownerless (storeUser t ui ownerError userError) := by
  apply preserves_bind
  · apply preserves_bind (ofOwner_ownerless.of_keeps keeps_get)
    intro s
    have hupdate : Preserves Ownerless
        (update fun s => { s with ownerInfo := ownerAfter ui s } : AuthHandler Unit) := by
      apply preserves_update
      intro s howner hphase
      rw [ownerAfter, howner hphase, Option.map_none]
    dsimp only
    split
    · exact preserves_bind (ofOwner_ownerless.of_keeps (keeps_attempt _ _)) fun _ => hupdate
    · exact hupdate
  · intro _
    exact preserves_invoke fun _ _ howner => howner

theorem ownerless_serve (fault : Option Call) {s : Service} (request : Request)
    (h : Ownerless s.auth) : Ownerless (serve host t fault s request).2.auth := by
  cases request with
  | feeds message =>
      rw [serve]
      cases feedsHandler (message.ctx host t s) message.req with
      | none => exact h
      | some handler => exact h
  | declOwner req => exact preserves_hdlDeclOwnerReq req fault s.auth h
  | impDid req => exact ofOwner_ownerless.preserves_hdlImpDidReq req fault s.auth h
  | issVc req => exact ofOwner_ownerless.preserves_hdlIssVcReq req fault s.auth h
  | updateVc req => exact ofOwner_ownerless.preserves_hdlUpdateVcReq req fault s.auth h
  | signinReqChal req =>
      exact ofOwner_ownerless.of_keeps (keeps_hdlSigninReqChalReq req) fault s.auth h
  | signinConfChal req =>
      exact ofOwner_ownerless.preserves_hdlSigninConfChalReq preserves_storeUser req fault s.auth h
  | standardSignIn req =>
      exact ofOwner_ownerless.of_keeps (keeps_onStandardSignIn (fun _ _ _ => rfl) req)
        fault s.auth h
  | standardDidAuth req =>
      exact ofOwner_ownerless.preserves_onStandardDidAuth preserves_storeUser req fault s.auth h

theorem ownerless_next {s s' : Service} {event : Event} (h : Ownerless s.auth)
    (hstep : Step host s event s') : Ownerless s'.auth := by
  cases event with
  | request t fault request =>
      obtain rfl := Option.some.inj hstep
      exact ownerless_serve fault request h
  | expireLogin m =>
      obtain rfl := Option.some.inj hstep
      exact h
  | peerOffline nodeId =>
      obtain rfl := Option.some.inj hstep
      exact h
  | restart m loaded =>
      obtain ⟨auth, hrestart, rfl⟩ := Option.map_eq_some_iff.mp hstep
      intro hphase
      rcases (restart_eq_some hrestart).owner with hnobody | ⟨owner, hother, -⟩
      · exact hnobody.2.1
      · exact absurd hphase hother

end Owner

section Intact

variable {host : Host} {t : Instant} {fault : Option Call}

/-- The handler is not ignored once it has changed something. -/
abbrev IgnoresFirst {σ τ α : Type} (view : σ → τ) (handler : Handler Call σ Exit α) : Prop :=
  SparesWith view .ignored handler

theorem refuses_ne_ignored (err : Auth.Err) : refuses err ≠ .ignored := by
  intro h
  cases h

theorem returns_ne_ignored (code : Auth.ErrCode) : returns code ≠ .ignored := by
  intro h
  cases h

theorem fails_ne_ignored (err : Feeds.Err) : fails err ≠ .ignored := by
  intro h
  cases h

theorem never_mutate {σ α : Type} {store : DbOf σ} {program : Sql Db α} {ec : ℤ} :
    Never Exit.ignored (mutate store program ec) :=
  never_invoke (by simp)

theorem never_builtBy {call : Call} {e : Exit} (he : e ≠ .ignored) :
    Never Exit.ignored (builtBy call e) :=
  never_bind (never_attempt he) fun _ => never_find he

/-- What the handler answers when the service has an owner. -/
theorem never_declOwnerAnswer (req : DeclOwnerReq) :
    Never Exit.ignored (examine fun s =>
      match declOwnerAnswer s req with
      | .err _ ec => .error (refuses ec)
      | answer => .ok answer : AuthHandler Auth.Answer) := by
  have hanswer : ∀ look : Auth.State → Except Exit Auth.Answer,
      (∀ s, look s ≠ .error .ignored) →
        Never Exit.ignored (examine look : AuthHandler Auth.Answer) :=
    fun look hlook fault s => hlook s
  apply hanswer
  intro s
  split
  · intro h
    cases h
  · intro h
    cases h

theorem never_hdlDeclOwnerReq (req : DeclOwnerReq) :
    Never Exit.ignored (hdlDeclOwnerReq t req) := by
  apply never_bind
  · intro _ _ herror
    cases herror
  · intro s
    dsimp only
    split
    · apply never_bind (never_invoke (refuses_ne_ignored _))
      intro _
      apply never_bind (never_onError never_mutate)
      intro _
      exact never_bind (never_update _) fun _ => never_pure _
    · apply never_bind (never_require (refuses_ne_ignored _))
      intro _
      split
      · exact never_bind (never_attempt (refuses_ne_ignored _)) fun _ => never_declOwnerAnswer req
      · exact never_declOwnerAnswer req

theorem ignoresFirst_hdlImpDidReq (req : ImpDidReq) : IgnoresFirst bound (hdlImpDidReq req) := by
  apply sparesWith_bind_of_keeps (keeps_rootIdentity req)
  intro _
  have hnew : Never Exit.ignored (newDid req.doc) := never_invoke (refuses_ne_ignored _)
  exact sparesWith_of_never <|
    never_bind hnew fun _ =>
    never_bind (never_update _) fun _ =>
    never_bind (never_attempt (refuses_ne_ignored _)) fun _ =>
    never_bind (never_find (refuses_ne_ignored _)) fun _ => never_pure _

theorem never_storeUser {ui : AuthUser} {ownerError : Exit} {userError : ℤ}
    (howner : ownerError ≠ .ignored) :
    Never Exit.ignored (storeUser t ui ownerError userError) := by
  apply never_bind
  · apply never_bind
    · intro _ _ herror
      cases herror
    · intro s
      dsimp only
      split
      · exact never_bind (never_attempt howner) fun _ => never_update _
      · exact never_update _
  · intro _
    exact never_mutate

theorem never_tokenFor (login : Login) (uinfo : AuthUser) :
    Never Exit.ignored (tokenFor t login uinfo) :=
  never_bind (never_builtBy (refuses_ne_ignored _)) fun _ =>
    never_bind (never_update _) fun _ => never_pure _

theorem ignoresFirst_hdlSigninConfChalReq (req : SigninConfChalReq) :
    IgnoresFirst bound (hdlSigninConfChalReq host t req) := by
  apply sparesWith_bind_of_keeps (keeps_confirmedLogin req)
  intro login
  apply sparesWith_bind_of_never
  · rw [signInLogin]
    split
    · exact sparesWith_of_keeps
        (keeps_bind (keeps_storedUser login) fun uinfo =>
          keeps_tokenFor (fun _ _ => rfl) login uinfo)
    · next json _ =>
        apply sparesWith_bind_of_keeps (keeps_uinfoFromVc req json)
        intro uinfo
        exact sparesWith_of_never <|
          never_bind (never_storeUser (refuses_ne_ignored _)) fun uid => never_tokenFor login _
  · intro _
    exact never_pure _

theorem ignoresFirst_onStandardDidAuth (req : StandardDidAuthRequest) :
    IgnoresFirst bound (onStandardDidAuth host t req) := by
  apply sparesWith_bind_of_keeps (keeps_authToken req)
  intro info
  apply sparesWith_of_never
  apply never_bind (never_storeUser (returns_ne_ignored _))
  intro uid
  exact never_bind (never_require (by simp)) fun _ =>
    never_bind (never_builtBy (returns_ne_ignored _)) fun _ =>
    never_bind (never_update _) fun _ => never_pure _

theorem ignoresFirst_hdlNotifyPostReq (ctx : Ctx) (chanId postId : UInt64) :
    IgnoresFirst id (hdlNotifyPostReq ctx chanId postId) := by
  apply sparesWith_bind_of_keeps (keeps_postToNotify ctx chanId postId)
  intro _
  exact sparesWith_of_never <|
    never_bind never_mutate fun _ =>
    never_bind (never_attempt (fails_ne_ignored _)) fun _ =>
    never_bind (never_find (fails_ne_ignored _)) fun _ => never_pure _

/-- The errors of a handler of `did.c`, `auth.c` or `StandardAuth.cpp`. -/
theorem spares_onAuth_iff {α : Type} {handler : AuthHandler α} {s : Service}
    (hfirst : IgnoresFirst bound handler) :
    (∀ ec, (onAuth handler fault s).1 = some (.err ec) →
        (onAuth handler fault s).2.shown = s.shown) ↔ Spares bound handler fault s.auth := by
  rw [spares_iff_of_sparesWith hfirst]
  rcases hrun : handler.run fault s.auth with ⟨result, auth⟩
  simp only [onAuth, hrun, Service.shown, Prod.mk.injEq, true_and]
  constructor
  · intro hspared e hne herror
    obtain rfl := herror
    cases e with
    | ignored => exact absurd rfl hne
    | err ec => exact hspared ec rfl
  · intro hspares ec hexit
    cases result with
    | ok value => cases hexit
    | error e =>
        obtain rfl : e = .err ec := Option.some.inj hexit
        exact hspares _ (by simp) rfl

/-- The errors of a handler of `feeds.c`. -/
theorem spares_onWorld_iff {α : Type} {handler : FeedsHandler α} {s : Service}
    (hfirst : IgnoresFirst id handler) :
    (∀ ec, (onWorld handler fault s).1 = some (.err ec) →
        (onWorld handler fault s).2.shown = s.shown) ↔ Spares id handler fault s.world := by
  have hshown : ∀ w : World,
      Service.shown ⟨w.mem, { s.auth with db := w.db }⟩ = s.shown ↔ w = s.world := by
    intro w
    constructor
    · intro hsame
      have hmem : w.mem = s.mem := congrArg Prod.fst hsame
      have hdb : w.db = s.auth.db := congrArg (fun shown => shown.2.db) hsame
      rw [Service.world, ← hmem, ← hdb]
    · rintro rfl
      rfl
  rw [spares_iff_of_sparesWith hfirst]
  rcases hrun : handler.run fault s.world with ⟨result, w⟩
  simp only [onWorld, hrun, hshown, id_eq]
  constructor
  · intro hspared e hne herror
    obtain rfl := herror
    cases e with
    | ignored => exact absurd rfl hne
    | err ec => exact hspared ec rfl
  · intro hspares ec hexit
    cases result with
    | ok value => cases hexit
    | error e =>
        obtain rfl : e = .err ec := Option.some.inj hexit
        exact hspares _ (by simp) rfl

theorem ignoresFirst_feedsHandler {ctx : Ctx} {req : Feeds.Req}
    {handler : FeedsHandler (List Resp)} (hhandler : feedsHandler ctx req = some handler) :
    IgnoresFirst id handler := by
  by_cases hnotify : ∃ chanId postId, req = .notifyPost chanId postId
  · obtain ⟨chanId, postId, rfl⟩ := hnotify
    cases hhandler
    exact ignoresFirst_hdlNotifyPostReq ctx chanId postId
  · apply sparesWith_of_spares
    intro fault w
    apply (spares_feedsHandler_iff hhandler).mpr
    unfold FeedsIntact
    split
    · next chanId postId => exact absurd ⟨chanId, postId, rfl⟩ hnotify
    · trivial

/-- The request leaves nothing behind an error. -/
def Intact (host : Host) (t : Instant) (fault : Option Call) (s : Service) : Request → Prop
  | .feeds message => FeedsIntact s.world (message.ctx host t s) message.req fault
  | .declOwner req =>
      s.auth.phase = .noOwner → (faultsOf fault).hit 1 = true →
        UserKept t (declaredOwner req) s.auth
  | .impDid req => Imports req fault s.auth → ImportIntact req fault s.auth
  | .signinConfChal req => ConfirmIntact host t req fault s.auth
  | .standardDidAuth req => DidAuthIntact host t req fault s.auth
  | .issVc _ | .updateVc _ | .signinReqChal _ | .standardSignIn _ => True

theorem spares_serve_iff {s : Service} (howner : Ownerless s.auth) (request : Request) :
    (∀ ec, (serve host t fault s request).1 = some (.err ec) →
        (serve host t fault s request).2.shown = s.shown) ↔ Intact host t fault s request := by
  cases request with
  | feeds message =>
      rw [serve]
      cases hhandler : feedsHandler (message.ctx host t s) message.req with
      | none =>
          refine iff_of_true (fun _ _ => rfl) ?_
          change FeedsIntact _ _ _ _
          unfold FeedsIntact
          split
          · next hreq =>
              rw [hreq] at hhandler
              cases hhandler
          · trivial
      | some handler =>
          exact (spares_onWorld_iff (ignoresFirst_feedsHandler hhandler)).trans
            (spares_feedsHandler_iff hhandler)
  | declOwner req =>
      exact (spares_onAuth_iff (sparesWith_of_never (never_hdlDeclOwnerReq req))).trans
        (spares_hdlDeclOwnerReq_iff howner)
  | impDid req =>
      exact (spares_onAuth_iff (ignoresFirst_hdlImpDidReq req)).trans spares_hdlImpDidReq_iff
  | issVc req =>
      have hspares : ∀ fault s, Spares _ (hdlIssVcReq host t req) fault s :=
        fun fault s => spares_hdlIssVcReq req
      exact iff_of_true ((spares_onAuth_iff (sparesWith_of_spares hspares)).mpr (hspares _ _))
        trivial
  | updateVc req =>
      have hspares : ∀ fault s, Spares _ (hdlUpdateVcReq host t req) fault s :=
        fun fault s => spares_hdlUpdateVcReq req
      exact iff_of_true ((spares_onAuth_iff (sparesWith_of_spares hspares)).mpr (hspares _ _))
        trivial
  | signinReqChal req =>
      have hkeeps : Keeps _ (hdlSigninReqChalReq host t req) := keeps_hdlSigninReqChalReq req
      exact iff_of_true ((spares_onAuth_iff (sparesWith_of_keeps hkeeps)).mpr
        (spares_of_keeps hkeeps)) trivial
  | signinConfChal req =>
      exact (spares_onAuth_iff (ignoresFirst_hdlSigninConfChalReq req)).trans
        spares_hdlSigninConfChalReq_iff
  | standardSignIn req =>
      have hkeeps : Keeps bound (onStandardSignIn host t req) :=
        keeps_onStandardSignIn (fun _ _ _ => rfl) req
      exact iff_of_true ((spares_onAuth_iff (sparesWith_of_keeps hkeeps)).mpr
        (spares_of_keeps hkeeps)) trivial
  | standardDidAuth req =>
      exact (spares_onAuth_iff (ignoresFirst_onStandardDidAuth req)).trans
        spares_onStandardDidAuth_iff

end Intact

section Runs

variable (host : Host)

/-- An error that comes out of a request means that nothing happened. -/
def ErrorMeansNothing : Service → Event → Service → Prop
  | s, .request t fault request, s' =>
      Told fault request → ∀ ec, (serve host t fault s request).1 = some (.err ec) →
        s'.shown = s.shown
  | _, _, _ => True

/-- A request out of which an error may come leaves nothing behind it. -/
def LeavesIntact : Service → Event → Service → Prop
  | s, .request t fault request, _ => Told fault request → Intact host t fault s request
  | _, _, _ => True

theorem errorMeansNothing_iff (events : List Event) :
    EachStep (Step host) (ErrorMeansNothing host) Service.init events ↔
      EachStep (Step host) (LeavesIntact host) Service.init events := by
  apply eachStep_congr (fun s => Ownerless s.auth)
    (fun _ _ _ h hstep => ownerless_next h hstep) _ fun _ => rfl
  intro s event s' howner hstep
  cases event with
  | request t fault request =>
      obtain rfl := Option.some.inj hstep
      exact imp_congr_right fun _ => spares_serve_iff howner request
  | expireLogin m => exact Iff.rfl
  | peerOffline nodeId => exact Iff.rfl
  | restart m loaded => exact Iff.rfl

/-- The owner declares himself and imports a DID, whose publication fails to be prepared. -/
def unpublishedRun : List Event :=
  [.request { now := 1000 } none (.declOwner ⟨1, "", "did:owner", none⟩),
    .request { now := 1001 } (some .genTsxPayload)
      (.impDid ⟨2, some "mnemonic", none, 0, true, true, some serviceDocument,
        some "payload"⟩)]

theorem error_with_did_imported :
    ¬ EachStep (Step trustingHost) (ErrorMeansNothing trustingHost) Service.init
      unpublishedRun := by
  intro hruns
  obtain ⟨s, hdeclared⟩ : ∃ s, next trustingHost Service.init
      (.request { now := 1000 } none (.declOwner ⟨1, "", "did:owner", none⟩)) = some s := ⟨_, rfl⟩
  have hsecond := (hruns s hdeclared).2 _ rfl
  cases hdeclared
  have hphase := congrArg (fun shown => shown.2.phase) (hsecond.1 (by simp [Told]) _ rfl)
  cases hphase

end Runs

end FeedsService.Failures
