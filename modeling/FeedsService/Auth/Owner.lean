import FeedsService.Auth.Challenges

/-!
# The owner is user 1

The first user ever stored is the owner who declares himself, and nobody is stored
before.  Both sign-ins hand out the user id of the stored row; the standard one
returns it as an `int` first.
-/

namespace FeedsService.Auth

open FeedsService.Library FeedsService.Feeds FeedsService.Runs

section Invariant

variable {host : Host} {a : Action} {s t : State}

/-- A step in which the database calls succeed. -/
def DbStep (host : Host) (s : State) (a : Action) (t : State) : Prop :=
  a.moment.DbCallsSucceed ∧ Step host s a t

/-- Once the service is bound, the user 1 is its owner, and a token for the user 1 is a
token for the owner's DID; before that there are no users and no tokens. -/
structure OwnerIsUserOne (s : State) : Prop where
  bound : s.phase ≠ .noOwner → ∃ owner, s.ownerInfo = some owner ∧
    ∃ row ∈ s.db.users, row.userId = 1 ∧ row.did = owner.did
  unbound : s.phase = .noOwner → s.db.users = [] ∧ ∀ e ∈ s.history, e.issued = none
  tokens : ∀ e ∈ s.history, ∀ did token, e.issued = some (did, 1, token) →
    s.ownerInfo.map AuthUser.did = some did

/-- What every event preserves, apart from what is said of tokens. -/
structure Binding (s : State) : Prop where
  identified : Identified s
  bound : s.phase ≠ .noOwner → ∃ owner, s.ownerInfo = some owner ∧
    (1, owner.did) ∈ accounts s.db.users
  unbound : s.phase = .noOwner → s.db.users = [] ∧ s.ownerInfo = none ∧
    ∀ e ∈ s.history, e.issued = none
  document : s.feedsDoc ≠ none → s.phase = .didImped ∨ s.phase = .vcIssed
  secrets : s.authSecretMap ≠ [] → s.feedsDoc ≠ none

theorem Binding.init : Binding State.init where
  identified := Identified.init
  bound h := absurd rfl h
  unbound _ := ⟨rfl, rfl, List.forall_mem_nil _⟩
  document h := absurd rfl h
  secrets h := absurd rfl h

theorem Binding.owner_eq (h : Binding s) {owner : AuthUser} {did : String}
    (howner : s.ownerInfo = some owner) (hdid : (1, did) ∈ accounts s.db.users) :
    did = owner.did := by
  by_cases hphase : s.phase = .noOwner
  · rw [(h.unbound hphase).1] at hdid
    cases hdid
  · obtain ⟨owner', howner', hfirst⟩ := h.bound hphase
    rw [howner, Option.some.injEq] at howner'
    rw [howner']
    exact AccountsSound.did_eq h.identified hdid hfirst

/-- Signing in stores users without touching the owner's. -/
theorem Binding.stores (h : Binding s) {m : Moment} {s' : State} (hstores : StoresUser m s s')
    (hphase : s.phase ≠ .noOwner) :
    ∃ owner, s'.ownerInfo = some owner ∧ (1, owner.did) ∈ accounts s'.db.users := by
  obtain ⟨owner, howner, hfirst⟩ := h.bound hphase
  have hdid := hstores.owner
  rw [howner] at hdid
  obtain ⟨owner', howner', hsame⟩ := Option.map_eq_some_iff.mp hdid
  refine ⟨owner', howner', ?_⟩
  rw [hsame]
  rcases hstores.users with hdb | ⟨ui, hinsert⟩
  · rw [hdb]
    exact hfirst
  · exact accounts_subset_insertUser hinsert hfirst

theorem Binding.bound_of_document (h : Binding s) (hdoc : s.feedsDoc ≠ none) :
    s.phase ≠ .noOwner := by
  rcases h.document hdoc with hphase | hphase <;> simp [hphase]

/-- The first declaration makes the owner the user 1. -/
theorem Binding.declared (h : Binding s) {m : Moment} {owner : AuthUser} {db : Db} {uid : ℤ}
    (hphase : s.phase = .noOwner) (hresult : dbUpsertUser m s.db owner = (db, some uid)) :
    (1, owner.did) ∈ accounts db.users := by
  have hempty := (h.unbound hphase).1
  rcases insertUser_eq_some (dbUpsertUser_uid hresult).1 with ⟨⟨uid, huid⟩, -⟩ | ⟨-, happend⟩
  · rw [hempty] at huid
    cases huid
  · rw [happend, hempty, nextUserId_nil]
    exact List.mem_singleton_self _

/-- With the database at work the first declaration is stored. -/
theorem Binding.not_declareFailed (h : Binding s) {m : Moment} (hdb : m.DbCallsSucceed)
    {owner : AuthUser} {db : Db} (hphase : s.phase = .noOwner) :
    dbUpsertUser m s.db owner ≠ (db, none) := by
  intro hresult
  have hroom : nextUserId s.db.users m.skipped ≤ maxRowid := by
    rw [(h.unbound hphase).1, nextUserId_nil, maxRowid]
    omega
  have hsome : (dbUpsertUser m s.db owner).2 = some (userIdFor s.db.users owner.did m.skipped) :=
    (dbUpsertUser_eq_some h.identified).mpr ⟨⟨hdb, .inr hroom⟩, rfl⟩
  rw [hresult] at hsome
  cases hsome

/-- The invariant of a service that is bound. -/
theorem Binding.of_bound (hidentified : Identified t) (hphase : t.phase ≠ .noOwner)
    (hbound : ∃ owner, t.ownerInfo = some owner ∧ (1, owner.did) ∈ accounts t.db.users)
    (hdoc : t.feedsDoc ≠ none → t.phase = .didImped ∨ t.phase = .vcIssed)
    (hsecrets : t.authSecretMap ≠ [] → t.feedsDoc ≠ none) : Binding t where
  identified := hidentified
  bound _ := hbound
  unbound h := absurd h hphase
  document := hdoc
  secrets := hsecrets

/-- A service without a DID document keeps no challenges. -/
theorem Binding.no_secrets (h : Binding s) (hphase : s.phase = .noOwner ∨ s.phase = .ownerDecled) :
    s.feedsDoc = none ∧ s.authSecretMap = [] := by
  have hdoc : s.feedsDoc = none := by
    by_contra hdoc
    rcases h.document hdoc with hbound | hbound <;> simp [hbound] at hphase
  refine ⟨hdoc, ?_⟩
  by_contra hsecrets
  exact h.secrets hsecrets hdoc

theorem Binding.restarted (h : Binding s) (hrestarted : Restarted s t) : Binding t := by
  have hidentified : Identified t := by
    rw [Identified, hrestarted.db]
    exact h.identified
  have hsecrets : t.authSecretMap ≠ [] → t.feedsDoc ≠ none :=
    fun hsecrets => absurd hrestarted.authSecretMap hsecrets
  rcases hrestarted.owner with
    ⟨hphase, howner, hdoc, hnobody⟩ | ⟨owner, hphase, howner, hfirst, hdoc⟩
  · have hempty : s.db.users = [] := by
      by_contra husers
      obtain ⟨did, hdid⟩ := AccountsSound.first h.identified husers
      exact hnobody did hdid
    have hunbound : s.phase = .noOwner := by
      by_contra hbound
      obtain ⟨owner, -, hfirst⟩ := h.bound hbound
      exact hnobody _ hfirst
    exact {
      identified := hidentified
      bound := fun hbound => absurd hphase hbound
      unbound := fun _ => ⟨by rw [hrestarted.db, hempty], howner,
        by rw [hrestarted.history]; exact (h.unbound hunbound).2.2⟩
      document := fun hsome => absurd hdoc hsome
      secrets := hsecrets }
  · refine .of_bound hidentified hphase ⟨owner, howner, hrestarted.db ▸ hfirst⟩
      (fun hsome => ?_) hsecrets
    cases hcase : t.phase with
    | noOwner => exact absurd hcase hphase
    | ownerDecled => exact absurd (hdoc.mp hcase) hsome
    | didImped => exact .inl rfl
    | vcIssed => exact .inr rfl

/-- A user is stored, and nothing else changes that the binding is about. -/
theorem Binding.after_stores (h : Binding s) {m : Moment} {s' : State}
    (hstores : StoresUser m s s') (hbound : s.phase ≠ .noOwner) (hidentified : Identified t)
    (hphase : t.phase = s'.phase) (howner : t.ownerInfo = s'.ownerInfo) (hdb : t.db = s'.db)
    (hdoc : t.feedsDoc = s'.feedsDoc) (hsecrets : t.authSecretMap = s'.authSecretMap) :
    Binding t := by
  refine .of_bound hidentified ?_ ?_ ?_ ?_
  · rw [hphase, hstores.phase]
    exact hbound
  · rw [howner, hdb]
    exact h.stores hstores hbound
  · rw [hdoc, hphase, hstores.feedsDoc, hstores.phase]
    exact h.document
  · rw [hdoc, hsecrets, hstores.feedsDoc, hstores.authSecretMap]
    exact h.secrets

theorem Binding.step (h : Binding s) (hstep : DbStep host s a t) : Binding t := by
  have hidentified := h.identified.step hstep.2
  cases next_change hstep.2 with
  | same => exact h
  | declared hphase hresult =>
      obtain ⟨hdoc, hsecrets⟩ := h.no_secrets (.inl hphase)
      exact .of_bound hidentified (by simp) ⟨_, rfl, h.declared hphase hresult⟩
        (fun hsome => absurd hdoc hsome) (fun hsome => absurd hsecrets hsome)
  | declareFailed hphase hresult => exact absurd hresult (h.not_declareFailed hstep.1 hphase)
  | importFailed hphase =>
      have hbound := h.bound (by simp [hphase])
      exact .of_bound hidentified (by simp [hphase]) hbound (fun hsome => absurd rfl hsome)
        (fun hsome => absurd (h.no_secrets (.inr hphase)).2 hsome)
  | imported hphase =>
      exact .of_bound hidentified (by simp) (h.bound (by simp [hphase])) (fun _ => .inl rfl)
        (fun _ => by simp)
  | credentialed hphase =>
      have hbound : s.phase ≠ .noOwner := by rcases hphase with hphase | hphase <;> simp [hphase]
      exact .of_bound hidentified (by simp) (h.bound hbound) (fun _ => .inr rfl) h.secrets
  | challenged _ hphase =>
      have hbound : s.phase ≠ .noOwner := by simp [hphase]
      exact .of_bound hidentified hbound (h.bound hbound) h.document h.secrets
  | dropped => exact ⟨hidentified, h.bound, h.unbound, h.document, h.secrets⟩
  | confirmed _ hphase _ _ hstores =>
      have hbound : s.phase ≠ .noOwner := by simp [hphase]
      exact h.after_stores hstores hbound hidentified rfl rfl rfl rfl rfl
  | standardChallenge hdoc =>
      have hbound := h.bound_of_document (by simp [hdoc])
      exact .of_bound hidentified hbound (h.bound hbound) h.document (fun _ => by simp [hdoc])
  | standardStored hanswers hstores =>
      have hbound := h.bound_of_document (h.secrets hanswers)
      exact h.after_stores hstores hbound hidentified rfl rfl rfl rfl rfl
  | @standardToken req info doc index _ _ _ _ hdoc =>
      have hbound := h.bound_of_document (by simp [hdoc])
      have hstores := adaptOldLogin_stores a.moment s info
      exact h.after_stores hstores hbound hidentified rfl rfl rfl rfl rfl
  | restarted _ hrestart => exact h.restarted (restart_eq_some hrestart)

end Invariant

section Tokens

variable {host : Host} {a : Action} {s t : State}

/-- Tokens for the user 1 were made for the owner's DID. -/
def TokensOwned (s : State) : Prop :=
  ∀ e ∈ s.history, ∀ did token, e.issued = some (did, 1, token) →
    s.ownerInfo.map AuthUser.did = some did

/-- A request that redeems a challenge for the index 1 does so for the row 1: the row id
of its user, stored already or stored now, is not another number that is 1 modulo `2 ^ 32`. -/
def GivesOwnId (host : Host) (s : State) (a : Action) (_ : State) : Prop :=
  ∀ req info doc, a.event = .standardDidAuth req →
    checkAuthToken host a.moment s req.userName req.jwtVp = .ok info →
    Stored a.moment s info doc →
    asInt (userIdFor s.db.users info.userDid a.moment.skipped) = 1 →
    userIdFor s.db.users info.userDid a.moment.skipped = 1

theorem Binding.ownerIsUserOne (h : Binding s) (htokens : TokensOwned s) : OwnerIsUserOne s where
  bound hphase := by
    obtain ⟨owner, howner, hfirst⟩ := h.bound hphase
    exact ⟨owner, howner, mem_accounts.mp hfirst⟩
  unbound hphase := ⟨(h.unbound hphase).1, (h.unbound hphase).2.2⟩
  tokens := htokens

/-- Tokens stay with the owner as long as his DID does and new tokens are his. -/
theorem TokensOwned.of_new (htokens : TokensOwned s) (entries : List Entry)
    (hhistory : t.history = entries ++ s.history)
    (howner : t.ownerInfo.map AuthUser.did = s.ownerInfo.map AuthUser.did)
    (hnew : ∀ e ∈ entries, ∀ did token, e.issued = some (did, 1, token) →
      t.ownerInfo.map AuthUser.did = some did) : TokensOwned t := by
  intro e he did token hissued
  rw [hhistory] at he
  rcases List.mem_append.mp he with hentry | hold
  · exact hnew e hentry did token hissued
  · rw [howner]
    exact htokens e hold did token hissued

/-- A user with the id 1 who is stored when somebody signs in is the owner. -/
theorem Binding.owner_of_stores (h : Binding s) {m : Moment} {s' : State} {did : String}
    (hstores : StoresUser m s s') (hphase : s.phase ≠ .noOwner)
    (hdid : (1, did) ∈ accounts s'.db.users) : s'.ownerInfo.map AuthUser.did = some did := by
  obtain ⟨owner, howner, hfirst⟩ := h.stores hstores hphase
  have hsound : AccountsSound s'.db.users := h.identified.stores hstores
  rw [howner, hsound.did_eq hdid hfirst]
  rfl

theorem TokensOwned.step (htokens : TokensOwned s) (h : Binding s) (hstep : DbStep host s a t)
    (hown : GivesOwnId host s a t) : TokensOwned t := by
  have hnone : s.phase = .noOwner → ∀ {t' : State}, t'.history = s.history → TokensOwned t' := by
    intro hphase t' hhistory e he did token hissued
    rw [hhistory] at he
    rw [(h.unbound hphase).2.2 e he] at hissued
    cases hissued
  cases next_change hstep.2 with
  | same | importFailed | imported | credentialed | dropped => exact htokens
  | declared hphase hresult => exact hnone hphase rfl
  | declareFailed hphase hresult => exact hnone hphase rfl
  | challenged =>
      exact htokens.of_new [_] rfl rfl fun e he did token hissued => by
        rw [List.mem_singleton.mp he] at hissued
        cases hissued
  | standardChallenge =>
      exact htokens.of_new [_] rfl rfl fun e he did token hissued => by
        rw [List.mem_singleton.mp he] at hissued
        cases hissued
  | @confirmed req vp login s' tokens _ hphase _ _ hstores hfor =>
      have hbound : s.phase ≠ .noOwner := by simp [hphase]
      refine htokens.of_new (tokens ++ [.confirmed login req.jws]) (by simp) hstores.owner ?_
      intro e he did token hissued
      rcases List.mem_append.mp he with htoken | hconfirmed
      · rcases hfor with rfl | ⟨doc, uinfo, -, huid, rfl⟩
        · cases htoken
        · rw [List.mem_singleton.mp htoken, Entry.issued, Option.some.injEq, Prod.mk.injEq,
            Prod.mk.injEq] at hissued
          obtain ⟨rfl, hone, -⟩ := hissued
          rw [hone] at huid
          have howned := h.owner_of_stores hstores hbound huid
          exact howned
      · rw [List.mem_singleton.mp hconfirmed] at hissued
        cases hissued
  | standardStored _ hstores =>
      exact htokens.of_new [] hstores.history hstores.owner (List.forall_mem_nil _)
  | @standardToken req info doc index hevent hcheck hadapt hindex hdoc hbuilder =>
      have hstores := adaptOldLogin_stores a.moment s info
      have hbound := h.bound_of_document (by simp [hdoc])
      obtain ⟨howner, hcalls, hroom, hint⟩ := (adaptOldLogin_eq_ok h.identified).mp hadapt
      refine htokens.of_new [_] rfl hstores.owner fun e he did token hissued => ?_
      rw [List.mem_singleton.mp he, Entry.issued, Option.some.injEq, Prod.mk.injEq,
        Prod.mk.injEq] at hissued
      obtain ⟨rfl, hone, -⟩ := hissued
      have hid := hown req info doc hevent hcheck
        ⟨howner, hcalls, hroom, hint ▸ hindex, hdoc, hbuilder⟩ (hint.symm.trans hone)
      have hmem := adaptOldLogin_mem hadapt
      rw [hid] at hmem
      have howned := h.owner_of_stores hstores hbound hmem
      exact howned
  | restarted _ hrestart =>
      have hrestarted := restart_eq_some hrestart
      intro e he did token hissued
      rw [hrestarted.history] at he
      obtain ⟨owner, howner, hdid⟩ := Option.map_eq_some_iff.mp (htokens e he did token hissued)
      by_cases hphase : s.phase = .noOwner
      · rw [(h.unbound hphase).2.1] at howner
        cases howner
      · obtain ⟨owner', howner', hfirst⟩ := h.bound hphase
        rw [howner, Option.some.injEq] at howner'
        rcases hrestarted.owner with ⟨-, -, -, hnobody⟩ | ⟨new, -, hnew, hnewFirst, -⟩
        · exact absurd hfirst (hnobody _)
        · rw [hnew, Option.map_some, h.owner_eq howner hnewFirst, hdid]

/-- A token for the index 1 and another row breaks the property. -/
theorem not_ownerIsUserOne_of (h : Binding s) (hstep : DbStep host s a t)
    (hown : ¬ GivesOwnId host s a t) : ¬ OwnerIsUserOne t := by
  intro hone
  refine hown fun req info doc hevent hcheck hstored hint => ?_
  have hadapt := (adaptOldLogin_eq_ok h.identified).mpr
    ⟨hstored.owner, hstored.dbCalls, hstored.room, rfl⟩
  have hresult := onStandardDidAuth_eq h.identified hcheck hstored
  have hnext : next host s a = some t := hstep.2
  rw [next, hevent] at hnext
  rw [Option.some.inj hnext, hint] at hresult
  have hentry : Entry.standardAccessToken req.jwtVp info.userDid 1
      (accessTokenFor doc a.moment.now info 1) ∈ t.history := by
    rw [hresult]
    exact List.mem_cons_self
  have hbound : t.phase ≠ .noOwner := fun hphase => by
    cases (hone.unbound hphase).2 _ hentry
  obtain ⟨owner, howner, hrow⟩ := hone.bound hbound
  have hdid := hone.tokens _ hentry _ _ rfl
  rw [howner, Option.map_some, Option.some.injEq] at hdid
  have hfirst : (1, info.userDid) ∈ accounts t.db.users := hdid ▸ mem_accounts.mpr hrow
  have hstoredId : (userIdFor s.db.users info.userDid a.moment.skipped, info.userDid) ∈
      accounts t.db.users := by
    rw [hresult]
    exact adaptOldLogin_mem hadapt
  have hsound : AccountsSound t.db.users := h.identified.step hstep.2
  exact hsound.uid_eq hstoredId hfirst

/-- Throughout a run whose database calls succeed the owner is the user 1, and nobody else
gets a token for it, exactly when no request redeems a challenge for a user with another
row id that is 1 modulo `2 ^ 32`. -/
theorem ownerIsUserOne_iff (host : Host) (actions : List Action) :
    Always (DbStep host) OwnerIsUserOne State.init actions ↔
      EachStep (DbStep host) (GivesOwnId host) State.init actions := by
  refine always_iff_eachStep (fun s => Binding s ∧ TokensOwned s) ?_ ?_ ?_
    ⟨Binding.init, List.forall_mem_nil _⟩ actions
  · intro s a t h hstep hown
    exact ⟨h.1.step hstep, h.2.step h.1 hstep hown⟩
  · intro s h
    exact h.1.ownerIsUserOne h.2
  · intro s a t h hstep hown
    exact not_ownerIsUserOne_of h.1 hstep hown

end Tokens

section Enrolments

/-- The DID of the `k`-th member. -/
def memberDid (k : ℕ) : String :=
  "did:member:" ++ k.repr

def memberCredential (k : ℕ) : Credential where
  id := ⟨memberDid k, "app"⟩
  owner := memberDid k
  issuer := memberDid k
  properties := [("appDid", "did:app")]
  issuanceDate := 900
  expirationDate := 10 ^ 10

def memberPresentation (k : ℕ) : Presentation where
  holder := memberDid k
  nonce := some k.repr
  realm := some "did:service"
  credentials := [memberCredential k]

def memberResponse (k : ℕ) : Jws where
  header := []
  keyId := some ⟨memberDid k, "member"⟩
  issuer := memberDid k
  subject := none
  audience := none
  expiration := none
  claims := [("presentation", .object (some (memberPresentation k)))]

/-- Ten thousand members sign in each second, once each. -/
def enrolmentTime (k : ℕ) : ℤ :=
  1003 + (k / 10000 : ℕ)

def challengeMember (k : ℕ) : Action :=
  ⟨{ now := enrolmentTime k, nonce := k.repr },
    .standardSignIn ⟨some ⟨memberDid k, ⟨memberDid k, "member"⟩⟩⟩⟩

def authMember (k : ℕ) : Action :=
  ⟨{ now := enrolmentTime k }, .standardDidAuth ⟨"", memberResponse k⟩⟩

def enrolments (n : ℕ) : List Action :=
  (List.range n).flatMap fun k => [challengeMember k, authMember k]

theorem memberDid_injective {k l : ℕ} (h : memberDid k = memberDid l) : k = l := by
  have hdigits := congrArg String.toList h
  rw [memberDid, memberDid, String.toList_append, String.toList_append,
    List.append_cancel_left_eq, Nat.toList_repr, Nat.toList_repr] at hdigits
  rw [← Nat.ofDigitChars_ten_toDigits (n := k), hdigits, Nat.ofDigitChars_ten_toDigits]

theorem memberDid_ne_owner (k : ℕ) : memberDid k ≠ "did:owner" := by
  intro h
  have hchars := congrArg String.toList h
  rw [memberDid, String.toList_append] at hchars
  simp at hchars

/-- The service after `n` members have signed in: the owner has the id 1, and the
members have the ids from 2 on. -/
structure Enrolled (n : ℕ) (s : State) : Prop where
  identified : Identified s
  doc : s.feedsDoc = some serviceDocument
  owner : s.ownerInfo.map AuthUser.did = some "did:owner"
  last : ∃ did, ((n : ℤ) + 1, did) ∈ accounts s.db.users
  bounded : ∀ row ∈ s.db.users, row.userId ≤ n + 1
  fresh : ∀ k, n ≤ k → ∀ uid, (uid, memberDid k) ∉ accounts s.db.users

theorem enrolled_bindingRun :
    ∃ s, Run (Step trustingHost) State.init bindingRun s ∧ Enrolled 0 s := by
  obtain ⟨s, hexec, hdoc, howner, haccounts⟩ :
      ∃ s, exec (next trustingHost) State.init bindingRun = some s ∧
        s.feedsDoc = some serviceDocument ∧
        s.ownerInfo.map AuthUser.did = some "did:owner" ∧
        accounts s.db.users = [(1, "did:owner")] :=
    ⟨_, rfl, by decide⟩
  have hrun : Run (Step trustingHost) State.init bindingRun s := run_of_exec hexec
  have hidentified : Identified s := (identified_always trustingHost bindingRun).last hrun
  refine ⟨s, hrun, hidentified, hdoc, howner, ⟨"did:owner", by simp [haccounts]⟩, ?_, ?_⟩
  · intro row hrow
    have hmem : (row.userId, row.did) ∈ accounts s.db.users :=
      mem_accounts.mpr ⟨row, hrow, rfl, rfl⟩
    rw [haccounts, List.mem_singleton, Prod.mk.injEq] at hmem
    simp [hmem.1]
  · intro k _ uid hmem
    rw [haccounts, List.mem_singleton, Prod.mk.injEq] at hmem
    exact memberDid_ne_owner k hmem.2

variable {n : ℕ} {s : State}

theorem Enrolled.next_id (h : Enrolled n s) (skipped : ℕ) :
    nextUserId s.db.users skipped = n + 2 + skipped := by
  obtain ⟨did, hlast⟩ := h.last
  rw [nextUserId_eq hlast (by omega) h.bounded]
  omega

theorem Enrolled.member_id (h : Enrolled n s) :
    userIdFor s.db.users (memberDid n) 0 = n + 2 := by
  have hnone : s.db.users.find? (fun row => row.did = memberDid n) = none := by
    rw [List.find?_eq_none]
    intro row hrow hdid
    exact h.fresh n le_rfl row.userId
      (mem_accounts.mpr ⟨row, hrow, rfl, of_decide_eq_true hdid⟩)
  rw [userIdFor, hnone]
  simp [h.next_id]

def memberSecret (k : ℕ) : AuthSecret :=
  ⟨k.repr, memberDid k, enrolmentTime k + jwtExpiration⟩

def memberInfo (k : ℕ) : CredentialInfo :=
  credentialInfo "" "did:app" (memberCredential k)

/-- The next member gets a challenge. -/
theorem Enrolled.challenge (h : Enrolled n s) :
    ∃ s', Step trustingHost s (challengeMember n) s' ∧ Enrolled n s' ∧
      KeyedTable.get AuthSecret.nonce s'.authSecretMap n.repr = some (memberSecret n) := by
  refine ⟨_, rfl, ?_, ?_⟩
  · simp only [challengeMember, onStandardSignIn, trustingHost, makeJwt, h.doc]
    exact ⟨h.identified, rfl, h.owner, h.last, h.bounded, h.fresh⟩
  · simp [challengeMember, onStandardSignIn, trustingHost, makeJwt, h.doc, putAuthSecret,
      KeyedTable.get_put, memberSecret]

/-- The answer of the next member passes the checks. -/
theorem Enrolled.checked (h : Enrolled n s)
    (hsecret : KeyedTable.get AuthSecret.nonce s.authSecretMap n.repr = some (memberSecret n)) :
    checkAuthToken trustingHost (authMember n).moment s "" (memberResponse n) =
      .ok (memberInfo n) := by
  refine checkAuthToken_eq_ok.mpr
    ⟨memberPresentation n, memberSecret n, memberCredential n, "did:app", ?_, rfl⟩
  exact {
    parses := by simp [jwsParses, memberResponse, trustingHost]
    presentation := rfl
    valid := rfl
    nonce := rfl
    pending := hsecret
    realm := by simp [memberPresentation, serviceDid, h.doc, serviceDocument]
    credential := rfl
    credentialValid := rfl
    instanceDid := rfl
    properties := le_rfl
    appDid := rfl
    fresh := by simp [authMember, memberSecret, jwtExpiration]
    expires := by simp [memberCredential] }

/-- The next member is stored with the next id. -/
theorem Enrolled.adapt (h : Enrolled n s) (hroom : (n : ℤ) + 2 ≤ maxRowid) :
    (adaptOldLogin (authMember n).moment s (memberInfo n)).2 = .ok (asInt (n + 2)) ∧
      accounts (adaptOldLogin (authMember n).moment s (memberInfo n)).1.db.users =
        accounts s.db.users ++ [((n : ℤ) + 2, memberDid n)] := by
  have howner : s.ownerInfo.map AuthUser.did ≠ some (memberDid n) := by
    rw [h.owner]
    simpa using (memberDid_ne_owner n).symm
  have hroom' : nextUserId s.db.users (authMember n).moment.skipped ≤ maxRowid := by
    rw [h.next_id]
    simpa [authMember] using hroom
  have hindex : asInt (n + 2) =
      asInt (userIdFor s.db.users (memberInfo n).userDid (authMember n).moment.skipped) :=
    congrArg asInt h.member_id.symm
  have hadapt := (adaptOldLogin_eq_ok (m := (authMember n).moment) h.identified).mpr
    ⟨fun heq => absurd heq howner, ⟨rfl, rfl⟩, .inr hroom', hindex⟩
  refine ⟨hadapt, ?_⟩
  rcases insertUser_eq_some (adaptOldLogin_insert hadapt) with ⟨⟨uid, huid⟩, -⟩ | ⟨-, happend⟩
  · exact absurd huid (h.fresh n le_rfl uid)
  · rw [happend, h.next_id]
    simp [authMember, memberInfo, credentialInfo, CredentialInfo.user, memberCredential]

/-- The next member answers the challenge, and gets a token unless the id as an `int` is
negative. -/
theorem Enrolled.auth (h : Enrolled n s)
    (hsecret : KeyedTable.get AuthSecret.nonce s.authSecretMap n.repr = some (memberSecret n))
    (hroom : (n : ℤ) + 2 ≤ maxRowid) :
    ∃ t, Step trustingHost s (authMember n) t ∧ Enrolled (n + 1) t ∧
      (0 ≤ asInt (n + 2) → ∃ response token,
        .standardAccessToken response (memberDid n) (asInt (n + 2)) token ∈ t.history) := by
  have hcheck := h.checked hsecret
  obtain ⟨hadapt, haccounts⟩ := h.adapt hroom
  have hstores := adaptOldLogin_stores (authMember n).moment s (memberInfo n)
  have hstep : Step trustingHost s (authMember n)
      (onStandardDidAuth trustingHost (authMember n).moment s ⟨"", memberResponse n⟩).1 := rfl
  refine ⟨_, hstep, ?_, fun hpositive => ?_⟩
  · have hidentified := h.identified.step hstep
    rw [onStandardDidAuth_rest hcheck] at hidentified ⊢
    refine ⟨hidentified, ?_, ?_, ⟨memberDid n, ?_⟩, ?_, ?_⟩
    · exact hstores.feedsDoc.trans h.doc
    · exact hstores.owner.trans h.owner
    · dsimp only
      rw [haccounts]
      refine List.mem_append_right _ (List.mem_singleton.mpr ?_)
      rw [Nat.cast_add, Nat.cast_one, add_assoc]
      rfl
    · intro row hrow
      have hmem : (row.userId, row.did) ∈ accounts s.db.users ++ [((n : ℤ) + 2, memberDid n)] :=
        haccounts ▸ mem_accounts.mpr ⟨row, hrow, rfl, rfl⟩
      rcases List.mem_append.mp hmem with hold | hnew
      · obtain ⟨old, hmemOld, hid, -⟩ := mem_accounts.mp hold
        have hle := h.bounded old hmemOld
        omega
      · have hid := (Prod.mk.inj (List.mem_singleton.mp hnew)).1
        omega
    · intro k hk uid hmem
      rw [haccounts] at hmem
      rcases List.mem_append.mp hmem with hold | hnew
      · exact h.fresh k (by omega) uid hold
      · have heq := memberDid_injective (Prod.mk.inj (List.mem_singleton.mp hnew)).2
        omega
  · rw [onStandardDidAuth_token hcheck hadapt hpositive h.doc rfl]
    exact ⟨_, _, List.mem_cons_self⟩

theorem enrolments_succ (n : ℕ) :
    enrolments (n + 1) = enrolments n ++ [challengeMember n, authMember n] := by
  simp [enrolments, List.range_succ]

/-- Any number of members can sign in, one after the other. -/
theorem enrolled_enrolments (n : ℕ) (hroom : (n : ℤ) + 1 ≤ maxRowid) :
    ∃ s, Run (Step trustingHost) State.init (bindingRun ++ enrolments n) s ∧ Enrolled n s := by
  induction n with
  | zero => simpa [enrolments] using enrolled_bindingRun
  | succ n ih =>
      obtain ⟨s, hrun, henrolled⟩ := ih (by omega)
      obtain ⟨s', hchallenge, henrolled', hsecret⟩ := henrolled.challenge
      obtain ⟨t, hauth, hnext, -⟩ := henrolled'.auth hsecret (by omega)
      refine ⟨t, ?_, hnext⟩
      rw [enrolments_succ, ← List.append_assoc]
      exact hrun.append (Run.cons hchallenge (Run.single hauth))

theorem dbCallsSucceed_enrolments (n : ℕ) :
    ∀ a ∈ bindingRun ++ enrolments n, a.moment.DbCallsSucceed := by
  intro a ha
  rcases List.mem_append.mp ha with hbinding | henrolment
  · simp only [bindingRun, List.mem_cons, List.not_mem_nil, or_false] at hbinding
    rcases hbinding with rfl | rfl | rfl <;> exact ⟨rfl, rfl⟩
  · obtain ⟨k, -, hk⟩ := List.mem_flatMap.mp henrolment
    simp only [List.mem_cons, List.not_mem_nil, or_false] at hk
    rcases hk with rfl | rfl <;> exact ⟨rfl, rfl⟩

/-- The member who is stored with the row id `2 ^ 32 + 1` gets a token for the user 1. -/
theorem not_always_ownerIsUserOne :
    ¬ Always (DbStep trustingHost) OwnerIsUserOne State.init
      (bindingRun ++ enrolments (2 ^ 32)) := by
  intro h
  have hpow : (2 : ℕ) ^ 32 = 4294967295 + 1 := by norm_num
  obtain ⟨s, hrun, henrolled⟩ := enrolled_enrolments 4294967295 (by norm_num [maxRowid])
  obtain ⟨s', hchallenge, henrolled', hsecret⟩ := henrolled.challenge
  obtain ⟨t, hauth, hlast, htoken⟩ := henrolled'.auth hsecret (by norm_num [maxRowid])
  have hindex : asInt ((4294967295 : ℕ) + 2) = 1 := by decide
  obtain ⟨response, token, hentry⟩ := htoken (by rw [hindex]; norm_num)
  rw [hindex] at hentry
  have hall : Run (Step trustingHost) State.init (bindingRun ++ enrolments (2 ^ 32)) t := by
    rw [hpow, enrolments_succ, ← List.append_assoc]
    exact hrun.append (Run.cons hchallenge (Run.single hauth))
  have hone := h.last (hall.restrict (dbCallsSucceed_enrolments _))
  have hdid := hone.tokens _ hentry _ _ rfl
  rw [hlast.owner] at hdid
  exact memberDid_ne_owner _ (Option.some.inj hdid).symm

end Enrolments

end FeedsService.Auth
