import FeedsService.Auth.AccessTokens

/-!
# The challenges of the standard sign-in

A presentation redeems the nonce of a challenge for an access token.  The entry of
`authSecretMap` stays, so that a nonce can be redeemed again, and the DID in the
entry is compared with the credential that the presentation carries, not with the
holder who signed the presentation.
-/

namespace FeedsService.Auth

open FeedsService.Library FeedsService.Feeds FeedsService.Runs

section Redemption

variable {host : Host} {a : Action} {s t : State}

/-- User ids and DIDs identify each other. -/
def Identified (s : State) : Prop :=
  AccountsSound s.db.users

theorem Identified.init : Identified State.init :=
  AccountsSound.nil

theorem Identified.upsert (h : Identified s) {m : Moment} {ui : AuthUser} {db : Db}
    {result : Option ℤ} (hresult : dbUpsertUser m s.db ui = (db, result)) :
    AccountsSound db.users := by
  rcases dbUpsertUser_db m s.db ui with hsame | hinsert
  · rw [hresult] at hsame
    obtain rfl : db = s.db := hsame
    exact h
  · rw [hresult] at hinsert
    exact AccountsSound.insertUser h hinsert

theorem Identified.stores (h : Identified s) {m : Moment} {s' : State}
    (hstores : StoresUser m s s') : AccountsSound s'.db.users := by
  rcases hstores.users with hsame | ⟨ui, hinsert⟩
  · rw [hsame]
    exact h
  · exact AccountsSound.insertUser h hinsert

theorem Identified.step (h : Identified s) (hstep : Step host s a t) : Identified t := by
  cases next_change hstep with
  | declared _ hresult => exact h.upsert hresult
  | declareFailed _ hresult => exact h.upsert hresult
  | confirmed _ _ _ _ hstores =>
      have hsound := h.stores hstores
      exact hsound
  | standardStored _ hstores => exact h.stores hstores
  | @standardToken req info =>
      have hsound := h.stores (adaptOldLogin_stores a.moment s info)
      exact hsound
  | restarted _ hrestart =>
      rw [Identified, (restart_eq_some hrestart).db]
      exact h
  | same | importFailed | imported | credentialed | challenged | dropped | standardChallenge =>
      exact h

theorem identified_always (host : Host) (actions : List Action) :
    Always (Step host) Identified State.init actions :=
  @always_of_preserved _ _ (Step host) Identified (fun _ _ _ h hstep => h.step hstep) _
    Identified.init actions

/-- The transition issues a token of the standard sign-in for `response`. -/
def Redeemed (response : Jws) (s t : State) : Prop :=
  ∃ did uid token, t.history = .standardAccessToken response did uid token :: s.history

/-- The event is a `StandardDidAuth` with `response`: a presentation that passes the checks,
for the challenge `secret`, of a user who can be stored. -/
def Redeems (host : Host) (s : State) (a : Action) (response : Jws) (secret : AuthSecret) :
    Prop :=
  ∃ req vp vc appDid doc, a.event = .standardDidAuth req ∧ req.jwtVp = response ∧
    Checked host a.moment s response vp secret vc appDid ∧
    Stored a.moment s (credentialInfo req.userName appDid vc) doc

theorem Redeems.nonce {response : Jws} {secret : AuthSecret}
    (h : Redeems host s a response secret) :
    response.presentation.bind Presentation.nonce = some secret.nonce := by
  obtain ⟨req, vp, vc, appDid, doc, -, -, hchecked, -⟩ := h
  rw [hchecked.presentation, Option.bind_some, hchecked.nonce]

theorem Redeems.unique {response response' : Jws} {secret secret' : AuthSecret}
    (h : Redeems host s a response secret) (h' : Redeems host s a response' secret') :
    response' = response := by
  obtain ⟨req, -, -, -, -, hevent, rfl, -⟩ := h
  obtain ⟨req', -, -, -, -, hevent', rfl, -⟩ := h'
  rw [hevent] at hevent'
  rw [Event.standardDidAuth.inj hevent']

theorem not_redeemed_of_history (hsame : t.history = s.history) (response : Jws) :
    ¬ Redeemed response s t := by
  rintro ⟨did, uid, token, hhistory⟩
  rw [hsame] at hhistory
  exact List.cons_ne_self _ _ hhistory.symm

theorem not_redeemed_of_cons {e : Entry} (hhistory : t.history = e :: s.history)
    (he : ∀ response did uid token, e ≠ .standardAccessToken response did uid token)
    (response : Jws) : ¬ Redeemed response s t := by
  rintro ⟨did, uid, token, hredeemed⟩
  rw [hhistory] at hredeemed
  exact he response did uid token (List.cons.inj hredeemed).1

/-- Tokens are issued by the requests that redeem a challenge, and by no other event. -/
theorem redeemed_iff (h : Identified s) (hstep : Step host s a t) (response : Jws) :
    Redeemed response s t ↔ ∃ secret, Redeems host s a response secret := by
  constructor
  · intro hredeemed
    cases next_change hstep with
    | same | declared | declareFailed | importFailed | imported | credentialed | dropped =>
        exact absurd hredeemed (not_redeemed_of_history rfl response)
    | challenged | standardChallenge =>
        exact absurd hredeemed
          (not_redeemed_of_cons rfl (fun _ _ _ _ => Entry.noConfusion) response)
    | standardStored _ hstores =>
        exact absurd hredeemed (not_redeemed_of_history hstores.history response)
    | restarted _ hrestart =>
        exact absurd hredeemed
          (not_redeemed_of_history (restart_eq_some hrestart).history response)
    | confirmed _ _ _ _ _ htokens =>
        obtain ⟨did, uid, token, hhistory⟩ := hredeemed
        rcases htokens with rfl | ⟨doc, uinfo, -, -, rfl⟩
        · cases (List.cons.inj hhistory).1
        · cases (List.cons.inj hhistory).1
    | @standardToken req info doc index hevent hcheck hadapt hindex hdoc hbuilder =>
        obtain ⟨did, uid, token, hhistory⟩ := hredeemed
        obtain ⟨rfl, -⟩ := Entry.standardAccessToken.inj (List.cons.inj hhistory).1
        obtain ⟨howner, hcalls, hroom, rfl⟩ := (adaptOldLogin_eq_ok h).mp hadapt
        obtain ⟨vp, secret, vc, appDid, hchecked, rfl⟩ := checkAuthToken_eq_ok.mp hcheck
        exact ⟨secret, req, vp, vc, appDid, doc, hevent, rfl, hchecked, howner, hcalls, hroom,
          hindex, hdoc, hbuilder⟩
  · rintro ⟨secret, req, vp, vc, appDid, doc, hevent, rfl, hchecked, hstored⟩
    have hcheck : checkAuthToken host a.moment s req.userName req.jwtVp =
        .ok (credentialInfo req.userName appDid vc) :=
      checkAuthToken_eq_ok.mpr ⟨vp, secret, vc, appDid, hchecked, rfl⟩
    have hnext : (onStandardDidAuth host a.moment s req).1 = t := by
      change next host s a = some t at hstep
      rw [next, hevent] at hstep
      exact Option.some.inj hstep
    rw [onStandardDidAuth_eq h hcheck hstored] at hnext
    exact ⟨_, _, _, by rw [← hnext]⟩

end Redemption

section SingleUse

variable {host : Host} {a : Action} {s t : State}

/-- The nonce that a token of the standard sign-in was issued for. -/
def Entry.redeemed : Entry → Option String
  | .standardAccessToken response _ _ _ => response.presentation.bind Presentation.nonce
  | _ => none

def redeemedNonces (s : State) : List String :=
  s.history.filterMap Entry.redeemed

/-- No nonce led to two tokens. -/
def SingleUse (s : State) : Prop :=
  (redeemedNonces s).Nodup

/-- The event carries a presentation of this nonce that passes the checks. -/
def RedeemsNonce (host : Host) (s : State) (a : Action) (nonce : String) : Prop :=
  ∃ response secret, Redeems host s a response secret ∧ secret.nonce = nonce

/-- A token adds the nonce of its presentation; nothing else adds one. -/
theorem redeemedNonces_step (h : Identified s) (hstep : Step host s a t) :
    ∃ added, added.Nodup ∧ (∀ nonce, nonce ∈ added ↔ RedeemsNonce host s a nonce) ∧
      redeemedNonces t = added ++ redeemedNonces s := by
  by_cases hredeems : ∃ response secret, Redeems host s a response secret
  · obtain ⟨response, secret, hredeems⟩ := hredeems
    obtain ⟨did, uid, token, hhistory⟩ := (redeemed_iff h hstep response).mpr ⟨secret, hredeems⟩
    refine ⟨[secret.nonce], List.nodup_singleton _, fun nonce => ?_, ?_⟩
    · rw [List.mem_singleton]
      constructor
      · rintro rfl
        exact ⟨response, secret, hredeems, rfl⟩
      · rintro ⟨response', secret', hredeems', rfl⟩
        obtain rfl := hredeems.unique hredeems'
        exact Option.some.inj (hredeems'.nonce.symm.trans hredeems.nonce)
    · have hentry : (Entry.standardAccessToken response did uid token).redeemed =
          some secret.nonce := hredeems.nonce
      rw [redeemedNonces, hhistory, List.filterMap_cons_some hentry]
      rfl
  · have hnone : ∀ response, ¬ ∃ secret, Redeems host s a response secret :=
      not_exists.mp hredeems
    refine ⟨[], List.nodup_nil, fun nonce => iff_of_false List.not_mem_nil ?_, ?_⟩
    · rintro ⟨response, secret, hredeems, -⟩
      exact hnone response ⟨secret, hredeems⟩
    rw [List.nil_append]
    cases next_change hstep with
    | same | declared | declareFailed | importFailed | imported | credentialed | challenged
      | dropped | standardChallenge => rfl
    | confirmed _ _ _ _ _ htokens =>
        rcases htokens with rfl | ⟨doc, uinfo, -, -, rfl⟩ <;> rfl
    | standardStored _ hstores => rw [redeemedNonces, hstores.history, redeemedNonces]
    | standardToken =>
        exact absurd ⟨_, _, _, rfl⟩ (mt (redeemed_iff h hstep _).mp (hnone _))
    | restarted _ hrestart =>
        rw [redeemedNonces, (restart_eq_some hrestart).history, redeemedNonces]

/-- Nonces are used once throughout a run exactly when no two of its requests carry
presentations of the same nonce that both pass the checks. -/
theorem singleUse_iff (host : Host) (actions : List Action) :
    Always (Step host) SingleUse State.init actions ↔
      Once (Step host) (RedeemsNonce host) State.init actions := by
  have hiff := @always_nodup_iff _ _ (Step host) _ (RedeemsNonce host) redeemedNonces Identified
    (fun _ _ _ h hstep => h.step hstep) (fun _ _ _ h hstep => redeemedNonces_step h hstep) _
    Identified.init List.nodup_nil actions
  refine hiff.trans (and_iff_right fun nonce hnonce => ?_)
  cases hnonce

/-- A presentation by the client, in answer to the challenge of `signInAction`. -/
def clientPresentation (holder : String) : Presentation where
  holder := holder
  nonce := some "nonce"
  realm := some "did:service"
  credentials := [{
    id := ⟨"did:client", "app"⟩
    owner := "did:client"
    issuer := "did:user"
    properties := [("appDid", "did:app")]
    issuanceDate := 900
    expirationDate := 9000 }]

def clientResponse (holder : String) : Jws where
  header := []
  keyId := some ⟨holder, "primary"⟩
  issuer := holder
  subject := none
  audience := none
  expiration := none
  claims := [("presentation", .object (some (clientPresentation holder)))]

/-- A `StandardDidAuth` with a presentation that `holder` signed. -/
def didAuthAction (holder : String) (now : ℤ) : Action :=
  ⟨{ now := now }, .standardDidAuth ⟨"", clientResponse holder⟩⟩

/-- The client sends its answer to the challenge twice. -/
def replayRun : List Action :=
  bindingRun ++
    [signInAction, didAuthAction "did:client" 1004, didAuthAction "did:client" 1005]

theorem not_always_singleUse :
    ¬ Always (Step trustingHost) SingleUse State.init replayRun := by
  intro h
  obtain ⟨s, hexec, hreplayed⟩ :
      ∃ s, exec (next trustingHost) State.init replayRun = some s ∧
        redeemedNonces s = ["nonce", "nonce"] :=
    ⟨_, rfl, by decide⟩
  have hsingle := h.last (run_of_exec hexec)
  rw [SingleUse, hreplayed] at hsingle
  simp at hsingle

end SingleUse

section Holder

variable {host : Host} {a : Action} {s t : State}

def Entry.secret : Entry → Option AuthSecret
  | .standardChallenge secret _ => some secret
  | _ => none

/-- The challenge that was issued last with a nonce. -/
def issuedSecret (history : List Entry) (nonce : String) : Option AuthSecret :=
  KeyedTable.get AuthSecret.nonce (history.filterMap Entry.secret) nonce

theorem issuedSecret_cons (secret : AuthSecret) (chal : Jws) (history : List Entry)
    (nonce : String) :
    issuedSecret (.standardChallenge secret chal :: history) nonce =
      if secret.nonce = nonce then some secret else issuedSecret history nonce := by
  have hsecret : (Entry.standardChallenge secret chal).secret = some secret := rfl
  rw [issuedSecret, List.filterMap_cons_some hsecret, KeyedTable.get, List.find?_cons]
  split
  · next hnonce => rw [if_pos (of_decide_eq_true hnonce)]
  · next hnonce =>
      rw [if_neg (of_decide_eq_false hnonce)]
      rfl

/-- `authSecretMap` knows of a nonce what was issued with it. -/
def SecretsIssued (s : State) : Prop :=
  ∀ nonce secret, KeyedTable.get AuthSecret.nonce s.authSecretMap nonce = some secret →
    issuedSecret s.history nonce = some secret

theorem SecretsIssued.init : SecretsIssued State.init := by
  intro nonce secret h
  cases h

theorem SecretsIssued.step (h : SecretsIssued s) (hstep : Step host s a t) :
    SecretsIssued t := by
  cases next_change hstep with
  | same | declared | declareFailed | importFailed | imported | credentialed | challenged
    | dropped => exact h
  | confirmed _ _ _ _ hstores htokens =>
      intro nonce secret hget
      rw [hstores.authSecretMap] at hget
      rcases htokens with rfl | ⟨doc, uinfo, -, -, rfl⟩
      · exact h nonce secret hget
      · exact h nonce secret hget
  | @standardChallenge did doc secret =>
      intro nonce other hget
      rw [putAuthSecret, KeyedTable.get_put] at hget
      rw [issuedSecret_cons]
      by_cases hnonce : secret.nonce = nonce
      · rw [if_pos hnonce] at hget ⊢
        exact hget
      · rw [if_neg hnonce] at hget ⊢
        exact h nonce other hget
  | standardStored _ hstores =>
      rw [SecretsIssued, hstores.authSecretMap, hstores.history]
      exact h
  | @standardToken req info =>
      intro nonce secret hget
      rw [(adaptOldLogin_stores a.moment s info).authSecretMap] at hget
      exact h nonce secret hget
  | restarted _ hrestart =>
      rw [SecretsIssued, (restart_eq_some hrestart).authSecretMap]
      intro nonce secret hget
      cases hget

/-- A token is issued only for a presentation that is held by the DID its nonce was
issued to, within the lifetime of the nonce and for this service. -/
def BindsHolder (s : State) (a : Action) (t : State) : Prop :=
  ∀ response, Redeemed response s t → ∃ vp secret, response.presentation = some vp ∧
    vp.nonce = some secret.nonce ∧ issuedSecret s.history secret.nonce = some secret ∧
    vp.holder = secret.did ∧ a.moment.now ≤ secret.expiration ∧ vp.realm = some (serviceDid s)

/-- A presentation that passes the checks, of a user who can be stored, is held by the DID
that its first credential is named after. -/
def HoldsCredential (host : Host) (s : State) (a : Action) (_ : State) : Prop :=
  ∀ response secret vp vc, Redeems host s a response secret → response.presentation = some vp →
    vp.credentials.head? = some vc → vp.holder = vc.id.did

theorem bindsHolder_step_iff (hidentified : Identified s) (hissued : SecretsIssued s)
    (hstep : Step host s a t) : BindsHolder s a t ↔ HoldsCredential host s a t := by
  constructor
  · intro hbinds response secret vp vc hredeems hvp hvc
    obtain ⟨vp', issued, hvp', hnonce, hlatest, hholder, -⟩ :=
      hbinds response ((redeemed_iff hidentified hstep response).mpr ⟨secret, hredeems⟩)
    obtain ⟨req, vp'', vc', appDid, doc, -, -, hchecked, -⟩ := hredeems
    obtain rfl : vp = vp' := Option.some.inj (hvp.symm.trans hvp')
    obtain rfl : vp = vp'' := Option.some.inj (hvp.symm.trans hchecked.presentation)
    obtain rfl : vc = vc' := Option.some.inj (hvc.symm.trans hchecked.credential)
    have hnonces : issued.nonce = secret.nonce :=
      Option.some.inj (hnonce.symm.trans hchecked.nonce)
    have hsecrets : secret = issued := by
      have hpending := hissued _ _ hchecked.pending
      rw [← hnonces, hlatest] at hpending
      exact (Option.some.inj hpending).symm
    calc
      vp.holder = issued.did := hholder
      _ = secret.did := by rw [hsecrets]
      _ = vc.id.did := hchecked.instanceDid
  · intro hholds response hredeemed
    obtain ⟨secret, hredeems⟩ := (redeemed_iff hidentified hstep response).mp hredeemed
    obtain ⟨req, vp, vc, appDid, doc, -, -, hchecked, -⟩ := id hredeems
    have hholder := hholds response secret vp vc hredeems hchecked.presentation
      hchecked.credential
    exact ⟨vp, secret, hchecked.presentation, hchecked.nonce, hissued _ _ hchecked.pending,
      hholder.trans hchecked.instanceDid.symm, hchecked.fresh, hchecked.realm⟩

/-- Tokens go to the holders of their nonces throughout a run exactly when every
presentation that is redeemed is held by the DID of its own first credential. -/
theorem bindsHolder_iff (host : Host) (actions : List Action) :
    EachStep (Step host) BindsHolder State.init actions ↔
      EachStep (Step host) (HoldsCredential host) State.init actions :=
  eachStep_congr (fun s => Identified s ∧ SecretsIssued s)
    (fun _ _ _ h hstep => ⟨h.1.step hstep, h.2.step hstep⟩)
    (fun _ _ _ h hstep => bindsHolder_step_iff h.1 h.2 hstep)
    ⟨Identified.init, SecretsIssued.init⟩ actions

/-- Somebody else signs a presentation with the client's credential in it. -/
theorem not_bindsHolder :
    ¬ EachStep (Step trustingHost) BindsHolder State.init
      (bindingRun ++ [signInAction] ++ [didAuthAction "did:mallory" 1004]) := by
  intro h
  obtain ⟨s, hexec, t, hstep, hredeemed, hissued⟩ :
      ∃ s, exec (next trustingHost) State.init (bindingRun ++ [signInAction]) = some s ∧
        ∃ t, next trustingHost s (didAuthAction "did:mallory" 1004) = some t ∧
          Redeemed (clientResponse "did:mallory") s t ∧
          (issuedSecret s.history "nonce").map AuthSecret.did = some "did:client" :=
    ⟨_, rfl, _, rfl, ⟨_, _, _, rfl⟩, by decide⟩
  obtain ⟨vp, secret, hvp, hnonce, hlatest, hholder, -⟩ :=
    h.last (run_of_exec hexec) hstep (clientResponse "did:mallory") hredeemed
  obtain rfl : clientPresentation "did:mallory" = vp := Option.some.inj hvp
  obtain hnonce : "nonce" = secret.nonce := Option.some.inj hnonce
  rw [hnonce, hlatest] at hissued
  have hdid : secret.did = "did:client" := Option.some.inj hissued
  rw [hdid] at hholder
  simp [clientPresentation] at hholder

end Holder

end FeedsService.Auth
