import FeedsService.Auth.System

/-!
# What is accepted as an access token

Four kinds of JWT are signed with the service's key.  Challenges carry a nonce and
no user id, tokens a user id and no nonce; `access_token_is_valid` looks at neither,
only at the key and the expiration.
-/

namespace FeedsService.Auth

open FeedsService.Library FeedsService.Runs

section Kinds

/-- The JWT that an entry sent out as a challenge. -/
def Entry.challenged : Entry → Option Jws
  | .challenge _ chal => some chal
  | .standardChallenge _ chal => some chal
  | _ => none

/-- The claims that the kinds of JWT are told apart by: the nonce of a challenge, the
user id of a token. -/
structure Entry.Claims (e : Entry) : Prop where
  challenge : ∀ jws, e.challenged = some jws → (jws.getClaim "nonce").isSome
  token : ∀ did uid jws, e.issued = some (did, uid, jws) →
    jws.getClaim "nonce" = none ∧ jws.getClaimAsInteger "uid" = uid

theorem Entry.signed_cases {e : Entry} {jws : Jws} (h : e.signed = some jws) :
    e.challenged = some jws ∨ ∃ did uid, e.issued = some (did, uid, jws) := by
  cases e with
  | challenge login chal => exact .inl h
  | confirmed login response => cases h
  | accessToken login did uid token =>
      exact .inr ⟨did, uid, by rw [Entry.issued, Option.some.inj h]⟩
  | standardChallenge secret chal => exact .inl h
  | standardAccessToken response did uid token =>
      exact .inr ⟨did, uid, by rw [Entry.issued, Option.some.inj h]⟩

theorem Entry.signed_of_issued {e : Entry} {did : String} {uid : ℤ} {jws : Jws}
    (h : e.issued = some (did, uid, jws)) : e.signed = some jws := by
  cases e with
  | accessToken | standardAccessToken => cases h; rfl
  | challenge | confirmed | standardChallenge => cases h

theorem claims_chalJws (login : Login) (doc : DidDocument) (realm nonce : String) :
    (Entry.challenge login (chalJws doc realm nonce)).Claims where
  challenge jws h := by
    obtain rfl := Option.some.inj h
    rfl
  token did uid jws h := by cases h

theorem claims_accessTokenJws (login : Login) (doc : DidDocument) (now : ℤ)
    (uinfo : AuthUser) :
    (Entry.accessToken login uinfo.did uinfo.uid (accessTokenJws doc now uinfo)).Claims where
  challenge jws h := by cases h
  token did uid jws h := by
    cases h
    exact ⟨rfl, rfl⟩

theorem claims_challengeFor (secret : AuthSecret) (m : Moment) (s : State) (doc : DidDocument)
    (did : String) : (Entry.standardChallenge secret (challengeFor m s doc did)).Claims where
  challenge jws h := by
    obtain rfl := Option.some.inj h
    rfl
  token did uid jws h := by cases h

theorem claims_accessTokenFor (response : Jws) (doc : DidDocument) (now : ℤ)
    (info : CredentialInfo) (index : ℤ) :
    (Entry.standardAccessToken response info.userDid index
      (accessTokenFor doc now info index)).Claims where
  challenge jws h := by cases h
  token did uid jws h := by
    cases h
    exact ⟨rfl, rfl⟩

theorem claims_confirmed (login : Login) (response : Jws) :
    (Entry.confirmed login response).Claims where
  challenge jws h := by cases h
  token did uid jws h := by cases h

end Kinds

section Invariant

variable {host : Host} {a : Action} {s t : State}

/-- Every JWT that was signed has the claims of its kind. -/
def ClaimsKept (s : State) : Prop :=
  ∀ e ∈ s.history, e.Claims

theorem ClaimsKept.init : ClaimsKept State.init :=
  List.forall_mem_nil _

theorem ClaimsKept.step (h : ClaimsKept s) (hstep : Step host s a t) : ClaimsKept t := by
  have hgrown : ∀ {e : Entry} {s' : State}, s'.history = e :: s.history → e.Claims →
      ClaimsKept s' := by
    intro e s' hhistory he
    rw [ClaimsKept, hhistory]
    exact List.forall_mem_cons.mpr ⟨he, h⟩
  cases next_change hstep with
  | same | declared | declareFailed | importFailed | imported | credentialed | dropped => exact h
  | challenged => exact hgrown rfl (claims_chalJws _ _ _ _)
  | @confirmed req vp login s' tokens _ _ _ _ _ htokens =>
      refine List.forall_mem_append.mpr ⟨fun e he => ?_, List.forall_mem_cons.mpr
        ⟨claims_confirmed login req.jws, h⟩⟩
      rcases htokens with rfl | ⟨doc, uinfo, -, -, rfl⟩
      · cases he
      · rw [List.mem_singleton.mp he]
        exact claims_accessTokenJws login doc _ uinfo
  | standardChallenge => exact hgrown rfl (claims_challengeFor _ _ _ _ _)
  | standardStored _ hstores =>
      rw [ClaimsKept, hstores.history]
      exact h
  | standardToken => exact hgrown rfl (claims_accessTokenFor _ _ _ _ _)
  | restarted _ hrestart =>
      rw [ClaimsKept, (restart_eq_some hrestart).history]
      exact h

end Invariant

section Acceptance

variable {host : Host} {a : Action} {s t : State}

/-- What a request presents is accepted only if it was issued as an access token, for
the user id that is read out of it. -/
def AcceptsTokensOnly (host : Host) (s : State) (a : Action) (_ : State) : Prop :=
  ∀ tk uinfo, a.event.presented = some tk →
    createUinfoFromAccessToken host a.moment s tk = some uinfo →
      ∃ e ∈ s.history, ∃ did, e.issued = some (did, uinfo.uid, tk)

/-- What the request presents under the current key of the service, if it verifies and has
not expired (a missing expiration counts as 0). -/
def Verified (host : Host) (s : State) (a : Action) (tk : Jws) : Prop :=
  a.event.presented = some tk ∧ host.signatureIsValid a.moment.now tk = true ∧
    tk.keyId.isSome ∧ tk.keyId = s.authKeyUrl ∧ a.moment.now ≤ tk.getExpiration

/-- The request presents no challenge of the service, and nothing that somebody else has
signed with its key: `import_did` takes the key from a mnemonic of the owner's. -/
structure PresentsNoOther (host : Host) (s : State) (a : Action) (_ : State) : Prop where
  signed : ∀ tk, Verified host s a tk → tk ∈ s.signed
  challenge : ∀ tk, Verified host s a tk → ∀ e ∈ s.history, e.challenged ≠ some tk

/-- A token is accepted for its key, its signature and its expiration only. -/
theorem createUinfoFromAccessToken_isSome (host : Host) (m : Moment) (s : State) (tk : Jws) :
    (createUinfoFromAccessToken host m s tk).isSome ↔
      host.signatureIsValid m.now tk = true ∧ tk.keyId.isSome ∧ tk.keyId = s.authKeyUrl ∧
        m.now ≤ tk.getExpiration := by
  have hunexpired : m.now ≤ tk.getExpiration → ∀ exp ∈ tk.expiration, m.now ≤ exp := by
    intro hnow exp hexp
    rw [Jws.getExpiration, Option.mem_def.mp hexp] at hnow
    exact hnow
  unfold createUinfoFromAccessToken
  split
  · next hok =>
      obtain ⟨hparses, hvalid⟩ := hok
      simp only [accessTokenIsValid, decide_eq_true_eq, not_lt] at hvalid
      simp only [jwsParses, decide_eq_true_eq] at hparses
      exact iff_of_true rfl ⟨hparses.1, hvalid⟩
  · next hnot =>
      refine iff_of_false (by simp) fun ⟨hsignature, hvalid⟩ => hnot ⟨?_, ?_⟩
      · simp only [jwsParses, decide_eq_true_eq]
        exact ⟨hsignature, hunexpired hvalid.2.2⟩
      · simp only [accessTokenIsValid, decide_eq_true_eq, not_lt]
        exact hvalid

theorem createUinfoFromAccessToken_uid {m : Moment} {tk : Jws} {uinfo : AuthUser}
    (h : createUinfoFromAccessToken host m s tk = some uinfo) :
    uinfo.uid = tk.getClaimAsInteger "uid" := by
  unfold createUinfoFromAccessToken at h
  split at h
  · rw [← Option.some.inj h]
  · cases h

theorem acceptsTokensOnly_step_iff (h : ClaimsKept s) :
    AcceptsTokensOnly host s a t ↔ PresentsNoOther host s a t := by
  constructor
  · intro honly
    have hissued : ∀ tk, Verified host s a tk →
        ∃ e ∈ s.history, ∃ did uid, e.issued = some (did, uid, tk) := by
      rintro tk ⟨hpresented, hverified⟩
      obtain ⟨uinfo, haccepted⟩ := Option.isSome_iff_exists.mp
        ((createUinfoFromAccessToken_isSome host a.moment s tk).mpr hverified)
      obtain ⟨e, he, did, hissued⟩ := honly tk uinfo hpresented haccepted
      exact ⟨e, he, did, uinfo.uid, hissued⟩
    constructor
    · intro tk hverified
      obtain ⟨e, he, did, uid, hissued⟩ := hissued tk hverified
      exact List.mem_filterMap.mpr ⟨e, he, Entry.signed_of_issued hissued⟩
    · intro tk hverified e he hchallenge
      obtain ⟨e', he', did, uid, hissued⟩ := hissued tk hverified
      have hnonce := (h e he).challenge tk hchallenge
      rw [((h e' he').token did uid tk hissued).1] at hnonce
      cases hnonce
  · intro hnone tk uinfo hpresented haccepted
    have hverified : Verified host s a tk := ⟨hpresented,
      (createUinfoFromAccessToken_isSome host a.moment s tk).mp
        (Option.isSome_iff_exists.mpr ⟨uinfo, haccepted⟩)⟩
    obtain ⟨e, he, hsigned⟩ := List.mem_filterMap.mp (hnone.signed tk hverified)
    rcases Entry.signed_cases hsigned with hchallenge | ⟨did, uid, hissued⟩
    · exact absurd hchallenge (hnone.challenge tk hverified e he)
    · have huid := ((h e he).token did uid tk hissued).2
      rw [← createUinfoFromAccessToken_uid haccepted] at huid
      exact ⟨e, he, did, by rw [hissued, huid]⟩

/-- Throughout a run only access tokens are accepted as access tokens exactly when no
request presents an unexpired challenge, or a JWT that the service has not signed and that
its key verifies. -/
theorem acceptsTokensOnly_iff (host : Host) (actions : List Action) :
    EachStep (Step host) (AcceptsTokensOnly host) State.init actions ↔
      EachStep (Step host) (PresentsNoOther host) State.init actions :=
  eachStep_congr ClaimsKept (fun _ _ _ h hstep => h.step hstep)
    (fun _ _ _ h _ => acceptsTokensOnly_step_iff h) ClaimsKept.init actions

/-- A library that finds everything valid. -/
def trustingHost : Host where
  signatureIsValid _ _ := true
  presentationIsValid _ _ := true
  credentialIsValid _ _ := true
  documentIsValid _ _ := true
  nodeId := "node"
  maxDidLen := 128

/-- The document of the service in the runs below. -/
def serviceDocument : DidDocument :=
  ⟨"did:service", ⟨"did:service", "primary"⟩⟩

/-- The owner declares himself, imports the service's DID and issues its credential. -/
def bindingRun : List Action :=
  [⟨{ now := 1000 }, .declOwner ⟨1, "", "did:owner", none⟩⟩,
    ⟨{ now := 1001 }, .impDid ⟨2, some "mnemonic", none, 0, true, true, some serviceDocument,
      some "payload"⟩⟩,
    ⟨{ now := 1002 }, .issVc ⟨3, some {
      id := ⟨"did:service", vcFrag⟩
      owner := "did:service"
      issuer := "did:owner"
      properties := [("name", "news")]
      issuanceDate := 1002
      expirationDate := 9000 }⟩⟩]

/-- A client asks for a challenge for its DID. -/
def signInAction : Action :=
  ⟨{ now := 1003, nonce := "nonce" },
    .standardSignIn ⟨some ⟨"did:client", ⟨"did:client", "primary"⟩⟩⟩⟩

/-- The challenge that it gets. -/
def clientChallenge : Jws :=
  standardJws serviceDocument (1003 + jwtExpiration) "did:client" "DIDAuthChallenge"
    [("nonce", .text "nonce"), ("name", .text "news"), ("description", .text ""),
      ("elaAddress", .text "")]

/-- A second later the client presents the challenge as its access token. -/
def challengeAction : Action :=
  ⟨{ now := 1004 }, .accessToken clientChallenge⟩

theorem not_acceptsTokensOnly :
    ¬ EachStep (Step trustingHost) (AcceptsTokensOnly trustingHost) State.init
      (bindingRun ++ [signInAction] ++ [challengeAction]) := by
  intro h
  obtain ⟨s, hexec, uinfo, haccepted, hnone⟩ :
      ∃ s, exec (next trustingHost) State.init (bindingRun ++ [signInAction]) = some s ∧
        ∃ uinfo, createUinfoFromAccessToken trustingHost challengeAction.moment s
            clientChallenge = some uinfo ∧ ∀ e ∈ s.history, e.issued = none :=
    ⟨_, rfl, _, rfl, by decide⟩
  obtain ⟨e, he, did, hissued⟩ :=
    h.last (run_of_exec hexec) rfl clientChallenge uinfo rfl haccepted
  rw [hnone e he] at hissued
  cases hissued

end Acceptance

end FeedsService.Auth
