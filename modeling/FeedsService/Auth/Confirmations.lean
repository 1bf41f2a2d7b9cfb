import FeedsService.Auth.AccessTokens
import FeedsService.Library.Tickets

/-!
# The challenges of the legacy sign-in

A pending login is a ticket: `chal_resp_is_valid` takes it out of the table before
it hands it out, so that its nonce confirms at most one login, however requests and
sweeps interleave.
-/

namespace FeedsService.Auth

open FeedsService.Library FeedsService.Runs

section Book

def Entry.challengeLogin : Entry → Option Login
  | .challenge login _ => some login
  | _ => none

def Entry.confirmedLogin : Entry → Option Login
  | .confirmed login _ => some login
  | _ => none

/-- The login that a token of the legacy sign-in was generated for. -/
def Entry.tokenLogin : Entry → Option Login
  | .accessToken login _ _ _ => some login
  | _ => none

def confirmedLogins (s : State) : List Login :=
  s.history.filterMap Entry.confirmedLogin

def tokenLogins (s : State) : List Login :=
  s.history.filterMap Entry.tokenLogin

/-- The logins as a ticket book: a login that is handed out is spent. -/
def loginBook (s : State) : Tickets.Book Login where
  issued := s.history.filterMap Entry.challengeLogin
  pending := s.pendingLogins
  spent := confirmedLogins s

/-- The nonce that a challenge draws was not drawn for an earlier one. -/
def DrawsFreshNonce (s : State) (a : Action) (_ : State) : Prop :=
  ∀ req, a.event = .signinReqChal req →
    ∀ login ∈ (loginBook s).issued, login.nonce ≠ a.moment.nonce

instance (s : State) (a : Action) (t : State) : Decidable (DrawsFreshNonce s a t) :=
  match hevent : a.event with
  | .signinReqChal req =>
      decidable_of_iff (∀ login ∈ (loginBook s).issued, login.nonce ≠ a.moment.nonce)
        ⟨fun h _ _ => h, fun h => h req hevent⟩
  | .declOwner _ | .impDid _ | .issVc _ | .updateVc _ | .signinConfChal _ | .expireLogin
  | .standardSignIn _ | .standardDidAuth _ | .accessToken _ | .restart _ =>
      isTrue fun _ h => by rw [hevent] at h; cases h

end Book

section Refinement

variable {host : Host} {a : Action} {s t : State}

theorem loginBook_congr (hhistory : t.history = s.history)
    (hpending : t.pendingLogins = s.pendingLogins) : loginBook t = loginBook s := by
  rw [loginBook, loginBook, confirmedLogins, confirmedLogins, hhistory, hpending]

/-- An event leaves the ticket book of the logins alone or is one of its steps. -/
theorem loginBook_moves (hstep : Step host s a t) (hfresh : DrawsFreshNonce s a t) :
    loginBook t = loginBook s ∨ Tickets.Moves Login.nonce (loginBook s) (loginBook t) := by
  cases next_change hstep with
  | same | declared | declareFailed | importFailed | imported | credentialed
    | standardChallenge => exact .inl rfl
  | @challenged req login _ hevent _ _ hnonce =>
      have hunused : ∀ other ∈ (loginBook s).issued, other.nonce ≠ login.nonce := by
        rw [hnonce]
        exact hfresh req hevent
      exact .inr (Tickets.Moves.issue hunused)
  | dropped _ hsub => exact .inr (Tickets.Moves.drop hsub)
  | @confirmed req vp login s' tokens _ _ _ hconfirms _ htokens =>
      have hpending : login ∈ (loginBook s).pending :=
        (KeyedTable.mem_of_get hconfirms.pending).1
      rcases htokens with rfl | ⟨doc, uinfo, -, -, rfl⟩
      · exact .inr (Tickets.Moves.spend hpending)
      · exact .inr (Tickets.Moves.spend hpending)
  | standardStored _ hstores => exact .inl (loginBook_congr hstores.history hstores.pendingLogins)
  | @standardToken req info =>
      have hpending := (adaptOldLogin_stores a.moment s info).pendingLogins
      left
      rw [loginBook, hpending]
      rfl
  | restarted _ hrestart =>
      have hrestarted := restart_eq_some hrestart
      right
      rw [show loginBook t = { loginBook s with pending := [] } by
        rw [loginBook, confirmedLogins, hrestarted.history, hrestarted.pendingLogins]
        rfl]
      exact Tickets.Moves.drop (List.nil_sublist _)

end Refinement

section Confirmations

variable {host : Host} {a : Action} {s t : State}

/-- What a response showed that confirmed a login: a presentation with the nonce of the
login, for this node, held by the issuer of the response and by the subject of the login. -/
def Shows (host : Host) (login : Login) (response : Jws) : Prop :=
  ∃ vp, response.presentation = some vp ∧ vp.nonce = some login.nonce ∧
    vp.realm = some host.nodeId ∧ vp.holder = response.issuer ∧ vp.holder = login.sub

/-- Each nonce confirms at most one login and leads to at most one token, and only
through a presentation that shows whom the challenge was issued to. -/
structure ConfirmsOnce (host : Host) (s : State) : Prop where
  once : ((confirmedLogins s).map Login.nonce).Nodup
  tokenOnce : ((tokenLogins s).map Login.nonce).Nodup
  issued : ∀ login ∈ confirmedLogins s, ∃ chal, Entry.challenge login chal ∈ s.history
  confirmed : ∀ login ∈ tokenLogins s, login ∈ confirmedLogins s
  shows : ∀ login response, Entry.confirmed login response ∈ s.history →
    Shows host login response

/-- What every event preserves. -/
structure LoginsSound (host : Host) (s : State) : Prop where
  book : Tickets.Sound Login.nonce (loginBook s)
  tokens : (tokenLogins s).Sublist (confirmedLogins s)
  shows : ∀ login response, Entry.confirmed login response ∈ s.history →
    Shows host login response

theorem LoginsSound.init : LoginsSound host State.init where
  book := Tickets.Sound.empty
  tokens := List.Sublist.refl _
  shows _ _ h := by cases h

theorem LoginsSound.confirmsOnce (h : LoginsSound host s) : ConfirmsOnce host s where
  once := h.book.spent_nodup
  tokenOnce := h.book.spent_nodup.sublist (h.tokens.map _)
  issued login hlogin := by
    obtain ⟨e, he, hissued⟩ := List.mem_filterMap.mp (h.book.spentIssued login hlogin)
    cases e with
    | challenge other chal =>
        obtain rfl := Option.some.inj hissued
        exact ⟨chal, he⟩
    | confirmed | accessToken | standardChallenge | standardAccessToken => cases hissued
  confirmed login hlogin := h.tokens.subset hlogin
  shows := h.shows

theorem Confirms.shows {m : Moment} {response : Jws} {vp : Presentation} {login : Login}
    (h : Confirms host m s response vp login) : Shows host login response :=
  ⟨vp, h.presentation, h.nonce, h.realm, h.issuer, h.sub⟩

theorem tokens_step (h : (tokenLogins s).Sublist (confirmedLogins s))
    (hstep : Step host s a t) : (tokenLogins t).Sublist (confirmedLogins t) := by
  cases next_change hstep with
  | same | declared | declareFailed | importFailed | imported | credentialed | challenged
    | dropped | standardChallenge | standardToken => exact h
  | confirmed _ _ _ _ _ htokens =>
      rcases htokens with rfl | ⟨doc, uinfo, -, -, rfl⟩
      · exact h.cons _
      · exact h.cons_cons _
  | standardStored _ hstores =>
      rw [tokenLogins, confirmedLogins, hstores.history]
      exact h
  | restarted _ hrestart =>
      rw [tokenLogins, confirmedLogins, (restart_eq_some hrestart).history]
      exact h

theorem shows_step
    (h : ∀ login response, Entry.confirmed login response ∈ s.history → Shows host login response)
    (hstep : Step host s a t) :
    ∀ login response, Entry.confirmed login response ∈ t.history → Shows host login response := by
  intro login response hmem
  cases next_change hstep with
  | same | declared | declareFailed | importFailed | imported | credentialed | dropped =>
      exact h login response hmem
  | challenged | standardChallenge | standardToken =>
      rcases List.mem_cons.mp hmem with heq | hold
      · cases heq
      · exact h login response hold
  | confirmed _ _ _ hconfirms _ htokens =>
      rcases List.mem_append.mp hmem with htoken | hrest
      · rcases htokens with rfl | ⟨doc, uinfo, -, -, rfl⟩
        · cases htoken
        · cases List.mem_singleton.mp htoken
      · rcases List.mem_cons.mp hrest with heq | hold
        · obtain ⟨rfl, rfl⟩ := Entry.confirmed.inj heq
          exact hconfirms.shows
        · exact h login response hold
  | standardStored _ hstores => exact h login response (hstores.history ▸ hmem)
  | restarted _ hrestart =>
      exact h login response ((restart_eq_some hrestart).history ▸ hmem)

theorem LoginsSound.step (h : LoginsSound host s) (hstep : Step host s a t)
    (hfresh : DrawsFreshNonce s a t) : LoginsSound host t where
  book := by
    rcases loginBook_moves hstep hfresh with hsame | hmoves
    · rw [hsame]
      exact h.book
    · exact h.book.moves hmoves
  tokens := tokens_step h.tokens hstep
  shows := shows_step h.shows hstep

/-- Whatever the interleaving of requests, confirmations, sweeps and restarts: as long as
nonces are not drawn twice, a nonce confirms at most one login, of the subject it was
issued to. -/
theorem confirmsOnce_always (host : Host) (actions : List Action)
    (hfresh : EachStep (Step host) DrawsFreshNonce State.init actions) :
    Always (Step host) (ConfirmsOnce host) State.init actions :=
  (always_of_eachStep (fun _ _ _ h hstep hfresh => h.step hstep hfresh) LoginsSound.init
    hfresh).mono fun _ h => h.confirmsOnce

/-- A client signs in with a credential of its own, and sends its response twice. -/
def legacyRun : List Action :=
  let response : Jws :=
    { header := []
      keyId := some ⟨"did:client", "primary"⟩
      issuer := "did:client"
      subject := none
      audience := none
      expiration := none
      claims := [("presentation", .object (some {
        holder := "did:client"
        nonce := some "nonce"
        realm := some "node"
        credentials := [] }))] }
  let vc : Credential :=
    { id := ⟨"did:client", "profile"⟩
      owner := "did:client"
      issuer := "did:client"
      properties := [("name", "client")]
      issuanceDate := 900
      expirationDate := 9000 }
  bindingRun ++
    [⟨{ now := 1003, nonce := "nonce" }, .signinReqChal ⟨4, "did:client", false⟩⟩,
      ⟨{ now := 1004 }, .signinConfChal ⟨5, response, some (some vc)⟩⟩,
      ⟨{ now := 1005 }, .signinConfChal ⟨6, response, some (some vc)⟩⟩]

theorem confirmsOnce_legacyRun :
    ∃ s, exec (next trustingHost) State.init legacyRun = some s ∧
      (tokenLogins s).map Login.nonce = ["nonce"] ∧ ConfirmsOnce trustingHost s := by
  obtain ⟨s, hexec, htokens⟩ :
      ∃ s, exec (next trustingHost) State.init legacyRun = some s ∧
        (tokenLogins s).map Login.nonce = ["nonce"] :=
    ⟨_, rfl, by decide⟩
  have hfresh : EachStep (Step trustingHost) DrawsFreshNonce State.init legacyRun := by decide
  exact ⟨s, hexec, htokens,
    (confirmsOnce_always trustingHost legacyRun hfresh).last (run_of_exec hexec)⟩

end Confirmations

end FeedsService.Auth
