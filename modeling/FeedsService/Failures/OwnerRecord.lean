import FeedsService.Failures.StoredUsers

/-!
# The record of the owner and the owner's row

`feeds_owner_info` is made from the row of user 1 when the service starts, and by a
declaration.  Afterwards the sign-ins change it when the DID is the owner's, before they
change the row, and `update_user_info` changes the row only.
-/

namespace FeedsService.Failures

open FeedsService.Library FeedsService.Library.Handlers FeedsService.Library.Transactions
open FeedsService.Feeds FeedsService.Auth FeedsService.Runs

variable {host : Host} {t : Instant} {fault : Option Call} {s s' : Auth.State}

section Record

/-- The record names the owner as the row of user 1 does. -/
def NamesOwner (s : Auth.State) : Prop :=
  s.phase ≠ .noOwner → ∃ owner row, s.ownerInfo = some owner ∧
    rowOf s.db.users ownerUserId = some row ∧ owner.name = row.name ∧ owner.email = row.email

/-- Before there is an owner, the users are those of declarations that failed. -/
structure Unowned (s : Auth.State) : Prop where
  phase : s.phase = .noOwner
  feedsDoc : s.feedsDoc = none
  authSecretMap : s.authSecretMap = []
  users : ∀ row ∈ s.db.users, row.name = "NA" ∧ row.email = "NA"

structure Sound (s : Auth.State) : Prop where
  identified : AccountsSound s.db.users
  unowned : s.phase = .noOwner → Unowned s

theorem NamesOwner.of_bound (s s' : Auth.State) (hbound : bound s' = bound s)
    (h : NamesOwner s) : NamesOwner s' := by
  have hphase : s'.phase = s.phase := congrArg Bound.phase hbound
  have howner : s'.ownerInfo = s.ownerInfo := congrArg Bound.ownerInfo hbound
  have hdb : s'.db = s.db := congrArg Bound.db hbound
  rw [NamesOwner, hphase, howner, hdb]
  exact h

theorem namesOwner_iff {owner : AuthUser} {row : UserRow} (hphase : s.phase ≠ .noOwner)
    (howner : s.ownerInfo = some owner) (hrow : rowOf s.db.users ownerUserId = some row) :
    NamesOwner s ↔ owner.name = row.name ∧ owner.email = row.email := by
  rw [NamesOwner, howner, hrow]
  constructor
  · intro h
    obtain ⟨_, _, hsame, hsame', hnames⟩ := h hphase
    cases hsame
    cases hsame'
    exact hnames
  · intro hnames _
    exact ⟨owner, row, rfl, rfl, hnames⟩

theorem Unowned.namesOwner (h : Unowned s) : NamesOwner s :=
  fun hphase => absurd h.phase hphase

/-- The record and the row are those before. -/
theorem NamesOwner.of_same (h : NamesOwner s) (hphase : s.phase ≠ .noOwner)
    (husers : s'.db.users = s.db.users) (howner : s'.ownerInfo = s.ownerInfo) :
    NamesOwner s' := by
  intro _
  rw [husers, howner]
  exact h hphase

end Record

section Unowned

variable (hunowned : Unowned s)

include hunowned

theorem Unowned.not_ready : Auth.didIsReady s = false := by
  simp [Auth.didIsReady, hunowned.phase]

/-- Nothing is done where a DID that is ready is asked for. -/
theorem run_vcIssed_bind {α : Type} (next : Unit → AuthHandler α) :
    (vcIssed >>= next).run fault s = (.error .ignored, s) := by
  have hfailed : vcIssed.run fault s = (.error .ignored, s) := by
    simp [vcIssed, require, hunowned.not_ready]
  exact run_bind_error hfailed

theorem unchanged_hdlUpdateVcReq (req : UpdateVcReq) :
    ((hdlUpdateVcReq host t req).run fault s).2 = s :=
  congrArg Prod.snd (run_vcIssed_bind hunowned _)

theorem unchanged_hdlSigninReqChalReq (req : SigninReqChalReq) :
    ((hdlSigninReqChalReq host t req).run fault s).2 = s :=
  congrArg Prod.snd (run_bind_error (run_vcIssed_bind hunowned _))

theorem run_confirmedLogin_unowned (req : SigninConfChalReq) :
    (confirmedLogin host t req).run fault s = (.error .ignored, s) :=
  run_vcIssed_bind hunowned _

theorem unchanged_hdlSigninConfChalReq (req : SigninConfChalReq) :
    ((hdlSigninConfChalReq host t req).run fault s).2 = s :=
  congrArg Prod.snd (run_bind_error (run_confirmedLogin_unowned hunowned req))

theorem unchanged_hdlImpDidReq (req : ImpDidReq) :
    ((hdlImpDidReq req).run fault s).2 = s := by
  have hfailed : ((require .ignored fun s => s.phase = .ownerDecled : AuthHandler Unit)).run
      fault s = (.error .ignored, s) := by
    simp [require, hunowned.phase]
  have hidentity : (rootIdentity req).run fault s = (.error .ignored, s) := run_bind_error hfailed
  rw [hdlImpDidReq, run_bind_error hidentity]

theorem unchanged_hdlIssVcReq (req : IssVcReq) :
    ((hdlIssVcReq host t req).run fault s).2 = s := by
  have hfailed : (require (refuses .wrongState) fun s =>
      s.phase = .didImped ∨ s.phase = .vcIssed : AuthHandler Unit).run fault s =
        (.error (refuses .wrongState), s) := by
    simp [require, hunowned.phase]
  have hprocess : (processVcReq host t req.vc).run fault s =
      (.error (refuses .wrongState), s) := run_bind_error (run_bind_error hfailed)
  have hvc : ((unlessUnmarshalled (processVcReq host t req.vc)).run fault s).2 = s := by
    rw [unlessUnmarshalled_snd, hprocess]
  rw [hdlIssVcReq]
  rcases hrun : (unlessUnmarshalled (processVcReq host t req.vc)).run fault s with ⟨result, s'⟩
  rw [hrun] at hvc
  subst hvc
  cases result with
  | error e => rw [run_bind_error hrun]
  | ok _ => exact congrArg Prod.snd (run_bind_ok hrun)

/-- Without a document there is nobody to sign the challenge. -/
theorem unchanged_onStandardSignIn (req : StandardSignInRequest) :
    ((onStandardSignIn host t req).run fault s).2 = s := by
  apply run_bind_unchanged (keeps_attempt _ _)
  intro _ _
  apply run_bind_unchanged (keeps_find _ _)
  intro didDoc _
  apply run_bind_unchanged (keeps_require _ _)
  intro _ _
  apply run_bind_unchanged (keeps_attempt _ _)
  intro _ _
  apply run_bind_unchanged (keeps_builtBy _ _)
  intro doc hbuilt
  simp only [builtBy, run_bind_eq_ok, run_attempt_eq_ok, run_find_eq_ok] at hbuilt
  obtain ⟨_, _, ⟨-, rfl⟩, hdoc, -⟩ := hbuilt
  rw [hunowned.feedsDoc] at hdoc
  cases hdoc

/-- Without a challenge there is nothing to answer. -/
theorem Unowned.authToken_ne_ok (req : StandardDidAuthRequest) {info : CredentialInfo} :
    (authToken host t req).run fault s ≠ (.ok info, s') := by
  intro htoken
  have hkeeps : Keeps id (authToken host t req) := keeps_authToken req
  have hsame := hkeeps fault s
  rw [htoken] at hsame
  obtain rfl : s' = s := hsame
  simp only [authToken, run_bind_eq_ok, run_examine_eq_ok] at htoken
  obtain ⟨_, _, -, _, _, -, _, _, -, _, _, -, _, _, -, hcheck, hlast⟩ := htoken
  rw [hlast] at hcheck
  cases hresult : checkAuthToken host t.moment s' req.userName req.jwtVp with
  | error code =>
      rw [hresult] at hcheck
      cases hcheck
  | ok info' => exact absurd hunowned.authSecretMap (authSecretMap_ne_nil hresult)

theorem unchanged_onStandardDidAuth (req : StandardDidAuthRequest) :
    ((onStandardDidAuth host t req).run fault s).2 = s := by
  apply run_bind_unchanged (keeps_authToken req)
  intro info htoken
  exact absurd htoken (hunowned.authToken_ne_ok req)

end Unowned

section Storing

variable {ui : AuthUser} {ownerError : Exit} {userError : ℤ}

/-- The sign-in leaves the record and the row in agreement: it changes both or none of them,
or it changes nothing about the name and the e-mail address. -/
def RecordFits (ui : AuthUser) (fault : Option Call) (s : Auth.State) : Prop :=
  ∀ owner row, s.ownerInfo = some owner → rowOf s.db.users ownerUserId = some row →
    (fault = some .oinfoUpd → ui.did ≠ owner.did) →
    (ui.did = owner.did ↔ ui.did = row.did ∧ ¬ (faultsOf fault).hit 0 = true) ∨
      (ui.name = owner.name ∧ ui.email = owner.email)

theorem RecordFits.congr (hbound : bound s' = bound s) :
    RecordFits ui fault s' ↔ RecordFits ui fault s := by
  have howner : s'.ownerInfo = s.ownerInfo := congrArg Bound.ownerInfo hbound
  have hdb : s'.db = s.db := congrArg Bound.db hbound
  rw [RecordFits, RecordFits, howner, hdb]

/-- The users after the `INSERT`, or after it was refused. -/
def Inserts (t : Instant) (ui : AuthUser) (fault : Option Call) (db db' : Db) : Prop :=
  ((faultsOf fault).hit 0 = true ∨ insertUser t.moment db ui = none) ∧ db' = db ∨
    ¬ (faultsOf fault).hit 0 = true ∧ insertUser t.moment db ui = some db'

theorem run_dbUpsertUser_snd (ec : ℤ) :
    ∃ db, ((mutate authDb (dbUpsertUser t ui) ec).run fault s).2 = { s with db := db } ∧
      Inserts t ui fault s.db db := by
  have hends := run_dbUpsertUser t ui ec fault s
  generalize (mutate authDb (dbUpsertUser t ui) ec).run fault s = result at hends ⊢
  cases hends with
  | refused hrefused => exact ⟨s.db, rfl, .inl ⟨hrefused, rfl⟩⟩
  | @stuck db hfirst hdb _ => exact ⟨db, rfl, .inr ⟨hfirst, hdb⟩⟩
  | @stored db uid hfirst hdb _ _ => exact ⟨db, rfl, .inr ⟨hfirst, hdb⟩⟩

theorem Inserts.identified {db db' : Db} (h : Inserts t ui fault db db')
    (hsound : AccountsSound db.users) : AccountsSound db'.users := by
  rcases h with ⟨-, rfl⟩ | ⟨-, hinsert⟩
  · exact hsound
  · exact hsound.insertUser hinsert

/-- The row of a user that is stored. -/
theorem Inserts.rowOf {db db' : Db} {row : UserRow} {uid : ℤ} (h : Inserts t ui fault db db')
    (hrow : rowOf db.users uid = some row) :
    rowOf db'.users uid = some (if (faultsOf fault).hit 0 then row else renamed ui row) := by
  rcases h with ⟨hrefused, rfl⟩ | ⟨hfirst, hinsert⟩
  · by_cases hhit : (faultsOf fault).hit 0 = true
    · rw [if_pos hhit, hrow]
    · have hnone : insertUser t.moment db' ui = none := hrefused.resolve_left hhit
      have hother : row.did ≠ ui.did := by
        intro hdid
        have hexists : (row.userId, ui.did) ∈ accounts db'.users :=
          mem_accounts.mpr ⟨row, List.mem_of_find?_eq_some hrow, rfl, hdid⟩
        have hsome := (insertUser_isSome t.moment db' ui).mpr ⟨rfl, .inl ⟨_, hexists⟩⟩
        rw [hnone] at hsome
        cases hsome
      rw [if_neg hhit, renamed, if_neg hother, hrow]
  · rw [if_neg hfirst, rowOf_insertUser hinsert hrow]

/-- `oinfo_upd` fails for the owner, or the record is changed before the row. -/
theorem run_storeUser_snd (t : Instant) (ui : AuthUser) (ownerError : Exit) (userError : ℤ)
    (fault : Option Call) (s : Auth.State) :
    (fault = some .oinfoUpd ∧ isOwner ui s = true ∧
        ((storeUser t ui ownerError userError).run fault s).2 = s) ∨
      (fault = some .oinfoUpd → isOwner ui s = false) ∧ ∃ db,
        ((storeUser t ui ownerError userError).run fault s).2 =
          { s with ownerInfo := ownerAfter ui s, db := db } ∧ Inserts t ui fault s.db db := by
  rcases run_oinfoUpd ui ownerError fault s with ⟨hfault, howner, hrun⟩ | ⟨hother, hrun⟩
  · exact .inl ⟨hfault, howner, congrArg Prod.snd (run_bind_error hrun)⟩
  · refine .inr ⟨hother, ?_⟩
    rw [storeUser, run_bind_ok hrun]
    exact run_dbUpsertUser_snd userError

theorem recordFits_iff {owner : AuthUser} {row : UserRow} (howner : s.ownerInfo = some owner)
    (hrow : rowOf s.db.users ownerUserId = some row) :
    RecordFits ui fault s ↔ ((fault = some .oinfoUpd → ui.did ≠ owner.did) →
      (ui.did = owner.did ↔ ui.did = row.did ∧ ¬ (faultsOf fault).hit 0 = true) ∨
        (ui.name = owner.name ∧ ui.email = owner.email)) := by
  rw [RecordFits, howner, hrow]
  constructor
  · intro h
    exact h owner row rfl rfl
  · intro h _ _ hsame hsame'
    cases hsame
    cases hsame'
    exact h

/-- Two things of which each is one of two are the same. -/
theorem ite_eq_ite_iff {α : Type} {p q : Prop} [Decidable p] [Decidable q] {new old : α} :
    ((if p then new else old) = if q then new else old) ↔ (p ↔ q) ∨ new = old := by
  by_cases hp : p <;> by_cases hq : q <;> simp [hp, hq, eq_comm]

theorem namesOwner_storeUser_iff (hphase : s.phase ≠ .noOwner) (h : NamesOwner s) :
    NamesOwner ((storeUser t ui ownerError userError).run fault s).2 ↔
      RecordFits ui fault s := by
  obtain ⟨owner, row, howner, hrow, hname, hemail⟩ := h hphase
  have hisOwner : isOwner ui s = decide (ui.did = owner.did) := by
    rw [isOwner, howner, Option.any_some]
  rw [recordFits_iff howner hrow]
  rcases run_storeUser_snd t ui ownerError userError fault s with
    ⟨hfault, hsame, hrun⟩ | ⟨hother, db, hrun, hinserts⟩
  · rw [hrun]
    rw [hisOwner] at hsame
    exact iff_of_true h fun hnot => absurd (of_decide_eq_true hsame) (hnot hfault)
  · let owner' : AuthUser :=
      if ui.did = owner.did then { owner with name := ui.name, email := ui.email } else owner
    let row' : UserRow := if (faultsOf fault).hit 0 then row else renamed ui row
    have hafter : ownerAfter ui s = some owner' := by
      rw [ownerAfter, howner, Option.map_some]
    have hnames : NamesOwner { s with ownerInfo := ownerAfter ui s, db := db } ↔
        owner'.name = row'.name ∧ owner'.email = row'.email :=
      namesOwner_iff hphase hafter (hinserts.rowOf hrow)
    have hownerNames : (owner'.name, owner'.email) =
        if ui.did = owner.did then (ui.name, ui.email) else (owner.name, owner.email) := by
      simp only [owner']
      split <;> rfl
    have hrowNames : (row'.name, row'.email) =
        if ui.did = row.did ∧ ¬ (faultsOf fault).hit 0 = true then (ui.name, ui.email)
        else (owner.name, owner.email) := by
      simp only [row', renamed, hname, hemail]
      by_cases hhit : (faultsOf fault).hit 0 = true <;> by_cases hdid : ui.did = row.did <;>
        simp [hhit, hdid, eq_comm]
    rw [hisOwner] at hother
    rw [hrun, hnames, forall_prop_of_true fun hfault => of_decide_eq_false (hother hfault),
      ← Prod.mk.injEq, hownerNames, hrowNames, ite_eq_ite_iff, Prod.mk.injEq]

/-- A user is stored after the first part of a sign-in, which changes nothing of it. -/
theorem namesOwner_storeUser_bind_iff {α β : Type} {first : AuthHandler β}
    {ui : β → AuthUser} {rest : β → ℤ → AuthHandler α} (hfirst : Keeps bound first)
    (hrest : ∀ value uid, Keeps bound (rest value uid)) (hphase : s.phase ≠ .noOwner)
    (h : NamesOwner s) :
    NamesOwner ((first >>= fun value =>
        storeUser t (ui value) ownerError userError >>= rest value).run fault s).2 ↔
      ∀ value s', first.run fault s = (.ok value, s') → RecordFits (ui value) fault s := by
  rw [holds_bind_iff NamesOwner.of_bound hfirst h]
  apply forall_congr'
  intro value
  apply forall_congr'
  intro s'
  apply imp_congr_right
  intro hrun
  have hbound : bound s' = bound s := by
    have hkept := hfirst fault s
    rwa [hrun] at hkept
  have hphase' : s'.phase ≠ .noOwner := by
    rwa [show s'.phase = s.phase from congrArg Bound.phase hbound]
  rw [holds_bind_keeps_iff NamesOwner.of_bound (hrest value),
    namesOwner_storeUser_iff hphase' (NamesOwner.of_bound _ _ hbound h), RecordFits.congr hbound]

end Storing

section SignIns

theorem namesOwner_hdlSigninConfChalReq_iff (req : SigninConfChalReq)
    (hphase : s.phase ≠ .noOwner) (h : NamesOwner s) :
    NamesOwner ((hdlSigninConfChalReq host t req).run fault s).2 ↔
      ∀ ui s', Presents host t req ui fault s s' → RecordFits ui fault s := by
  have hlogin : ∀ login confirmed,
      (confirmedLogin host t req).run fault s = (.ok login, confirmed) →
      (NamesOwner ((signInLogin host t req login >>= fun token =>
          (pure (.signinConfChal req.tsxId token (t.now + accessTokenValidityPeriod)) :
            AuthHandler Auth.Answer)).run fault confirmed).2 ↔
        ∀ json, req.vc = some json → ∀ ui s',
          (uinfoFromVc host t req json).run fault confirmed = (.ok ui, s') →
            RecordFits ui fault s) := by
    intro login confirmed hrun
    have hbound : bound confirmed = bound s := by
      have hkeeps : Keeps bound (confirmedLogin host t req) := keeps_confirmedLogin req
      have hkept := hkeeps fault s
      rwa [hrun] at hkept
    have hphase' : confirmed.phase ≠ .noOwner := by
      rwa [show confirmed.phase = s.phase from congrArg Bound.phase hbound]
    have hconfirmed : NamesOwner confirmed := NamesOwner.of_bound _ _ hbound h
    rw [holds_bind_keeps_iff NamesOwner.of_bound fun _ => keeps_pure _, signInLogin]
    cases hvc : req.vc with
    | none =>
        have hkeeps : Keeps bound (storedUser t login >>= tokenFor t login) :=
          keeps_bind (keeps_storedUser login) fun uinfo =>
            keeps_tokenFor (fun _ _ => rfl) login uinfo
        refine iff_of_true ?_ fun _ hsome => by cases hsome
        exact NamesOwner.of_bound _ _ (hkeeps fault confirmed) hconfirmed
    | some json =>
        dsimp only
        have hkeeps : Keeps bound (uinfoFromVc host t req json) := keeps_uinfoFromVc req json
        rw [namesOwner_storeUser_bind_iff hkeeps
          (fun ui uid => keeps_tokenFor (fun _ _ => rfl) login _) hphase' hconfirmed]
        constructor
        · intro hfits json' hjson ui s' huinfo
          cases hjson
          exact (RecordFits.congr hbound).mp (hfits ui s' huinfo)
        · intro hfits ui s' huinfo
          exact (RecordFits.congr hbound).mpr (hfits json rfl ui s' huinfo)
  rw [hdlSigninConfChalReq, holds_bind_iff NamesOwner.of_bound (keeps_confirmedLogin req) h]
  constructor
  · intro hnames ui s' hpresents
    obtain ⟨json, login, confirmed, hvc, hrun, huinfo⟩ := hpresents
    exact (hlogin login confirmed hrun).mp (hnames login confirmed hrun) json hvc ui s' huinfo
  · intro hfits login confirmed hrun
    apply (hlogin login confirmed hrun).mpr
    intro json hvc ui s' huinfo
    exact hfits ui s' ⟨json, login, confirmed, hvc, hrun, huinfo⟩

theorem namesOwner_onStandardDidAuth_iff (req : StandardDidAuthRequest)
    (hphase : s.phase ≠ .noOwner) (h : NamesOwner s) :
    NamesOwner ((onStandardDidAuth host t req).run fault s).2 ↔
      ∀ info s', (authToken host t req).run fault s = (.ok info, s') →
        RecordFits info.user fault s :=
  namesOwner_storeUser_bind_iff (keeps_authToken req)
    (fun info uid => keeps_createAccessToken (fun _ _ => rfl) req info uid) hphase h

end SignIns

section Declaration

/-- The rows of users that have no name yet. -/
theorem users_insertUser {m : Moment} {db db' : Db} {ui : AuthUser}
    (hinsert : insertUser m db ui = some db') (hname : ui.name = "NA") (hemail : ui.email = "NA")
    (husers : ∀ row ∈ db.users, row.name = "NA" ∧ row.email = "NA") :
    ∀ row ∈ db'.users, row.name = "NA" ∧ row.email = "NA" := by
  rw [insertUser] at hinsert
  split at hinsert
  · unfold Feeds.dbUpsertUser at hinsert
    split at hinsert
    · rw [← Option.some.inj hinsert]
      intro row hrow
      obtain ⟨before, hbefore, rfl⟩ := List.mem_map.mp hrow
      split
      · exact ⟨hname, hemail⟩
      · exact husers before hbefore
    · split at hinsert
      · cases hinsert
      · rw [← Option.some.inj hinsert]
        intro row hrow
        rcases List.mem_append.mp hrow with hbefore | hlast
        · exact husers row hbefore
        · obtain rfl := List.mem_singleton.mp hlast
          exact ⟨hname, hemail⟩
  · cases hinsert

theorem Inserts.users {db db' : Db} {ui : AuthUser} (h : Inserts t ui fault db db')
    (hname : ui.name = "NA") (hemail : ui.email = "NA")
    (husers : ∀ row ∈ db.users, row.name = "NA" ∧ row.email = "NA") :
    ∀ row ∈ db'.users, row.name = "NA" ∧ row.email = "NA" := by
  rcases h with ⟨-, rfl⟩ | ⟨-, hinsert⟩
  · exact husers
  · exact users_insertUser hinsert hname hemail husers

/-- The first declaration either fails, and there is still no owner, or names the owner as
his row does. -/
theorem declareOwner_ends (req : DeclOwnerReq) (hsound : Sound s) (hunowned : Unowned s) :
    Sound ((declareOwner t req).run fault s).2 ∧
      NamesOwner ((declareOwner t req).run fault s).2 := by
  have hfailed : ∀ db : Db, AccountsSound db.users →
      (∀ row ∈ db.users, row.name = "NA" ∧ row.email = "NA") →
      Sound { s with ownerInfo := none, db := db } ∧
        NamesOwner { s with ownerInfo := none, db := db } := by
    intro db hidentified husers
    have hleft : Unowned { s with ownerInfo := none, db := db } :=
      ⟨hunowned.phase, hunowned.feedsDoc, hunowned.authSecretMap, husers⟩
    exact ⟨⟨hidentified, fun _ => hleft⟩, hleft.namesOwner⟩
  by_cases hfault : fault = some .oinfoInit
  · subst hfault
    rw [declareOwner, run_bind_error (run_oinfoInit_failing _ s)]
    exact hfailed s.db hsound.identified hunowned.users
  · rw [declareOwner, run_bind_ok (run_oinfoInit _ s hfault)]
    have hends := run_dbUpsertUser t (declaredOwner req) Auth.Err.internalError.code fault
      { s with ownerInfo := some (declaredOwner req) }
    generalize hresult : (mutate authDb (dbUpsertUser t (declaredOwner req))
      Auth.Err.internalError.code).run fault { s with ownerInfo := some (declaredOwner req) } =
        result at hends
    cases hends with
    | refused _ =>
        rw [run_bind_error (run_onError_error hresult)]
        exact hfailed s.db hsound.identified hunowned.users
    | @stuck db _ hdb _ =>
        rw [run_bind_error (run_onError_error hresult)]
        exact hfailed db (AccountsSound.insertUser hsound.identified hdb)
          (users_insertUser hdb rfl rfl hunowned.users)
    | @stored db uid _ hdb _ huid =>
        rw [run_bind_ok (run_onError_ok hresult)]
        have hidentified : AccountsSound db.users := AccountsSound.insertUser hsound.identified hdb
        have hnonempty : db.users ≠ [] := by
          obtain ⟨row, hrow, -⟩ := mem_accounts.mp (selectUserId_eq_some huid)
          exact List.ne_nil_of_mem hrow
        obtain ⟨row, hrow⟩ := Option.isSome_iff_exists.mp
          (rowOf_isSome_iff.mpr (hidentified.first hnonempty))
        have hnames := users_insertUser hdb rfl rfl hunowned.users row
          (List.mem_of_find?_eq_some hrow)
        refine ⟨⟨hidentified, fun hphase => ?_⟩, fun _ => ?_⟩
        · cases hphase
        · exact ⟨_, row, rfl, hrow, hnames.1.symm, hnames.2.symm⟩

end Declaration

section Owned

/-- There is an owner. -/
structure Owned (s : Auth.State) : Prop where
  phase : s.phase ≠ .noOwner
  identified : AccountsSound s.db.users

theorem Owned.sound (h : Owned s) : Sound s :=
  ⟨h.identified, fun hphase => absurd hphase h.phase⟩

theorem ofOwner_owned : OfOwner Owned := by
  intro s s' hdb _ hphases h
  constructor
  · rcases hphases with hsame | hbound
    · rw [hsame]
      exact h.phase
    · exact hbound
  · rw [hdb]
    exact h.identified

theorem preservesOwned_storeUser (ui : AuthUser) (ownerError : Exit) (userError : ℤ) :
    Preserves Owned (storeUser t ui ownerError userError) := by
  intro fault s howned
  rcases run_storeUser_snd t ui ownerError userError fault s with
    ⟨-, -, hrun⟩ | ⟨-, db, hrun, hinserts⟩
  · rwa [hrun]
  · rw [hrun]
    exact ⟨howned.phase, hinserts.identified howned.identified⟩

/-- A further declaration is only looked at. -/
theorem unchanged_hdlDeclOwnerReq (req : DeclOwnerReq) (hphase : s.phase ≠ .noOwner) :
    ((hdlDeclOwnerReq t req).run fault s).2 = s := by
  have hget : (Handlers.get : AuthHandler Auth.State).run fault s = (.ok s, s) := rfl
  rw [hdlDeclOwnerReq, run_bind_ok hget, if_neg hphase]
  apply run_bind_unchanged (keeps_require _ _)
  intro _ _
  have hanswer : ∀ look : Auth.State → Except Exit Auth.Answer,
      Keeps id (examine look : AuthHandler Auth.Answer) := keeps_examine
  dsimp only
  split
  · exact keeps_bind (keeps_attempt _ _) (fun _ => hanswer _) fault s
  · exact hanswer _ fault s

/-- The record and the row are left alone by what keeps `kept`. -/
theorem namesOwner_of_keepsKept {α : Type} {handler : AuthHandler α} (hkeeps : Keeps kept handler)
    (hphase : s.phase ≠ .noOwner) (h : NamesOwner s) : NamesOwner (handler.run fault s).2 := by
  have hkept := hkeeps fault s
  have hdb : (handler.run fault s).2.db = s.db := congrArg Kept.db hkept
  exact h.of_same hphase (congrArg Db.users hdb) (congrArg Kept.ownerInfo hkept)

end Owned

section Updates

variable {ctx : Ctx}

/-- The `update_user_info` request is not the owner's, or tells what the record has. -/
def UpdateFits (ctx : Ctx) (params : UserParams) (fault : Option Call) (s : Auth.State) : Prop :=
  ∀ uinfo owner row, UpdatesUser ctx fault uinfo → s.ownerInfo = some owner →
    rowOf s.db.users ownerUserId = some row → row.did = uinfo.did →
    params.name = owner.name ∧ params.email = owner.email

theorem UpdatesUser.uinfo_eq {uinfo uinfo' : UserInfo} (h : UpdatesUser ctx fault uinfo)
    (h' : UpdatesUser ctx fault uinfo') : uinfo = uinfo' :=
  Option.some.inj (h.user.symm.trans h'.user)

theorem updateFits_iff {params : UserParams} {uinfo : UserInfo} {owner : AuthUser} {row : UserRow}
    (hupdates : UpdatesUser ctx fault uinfo) (howner : s.ownerInfo = some owner)
    (hrow : rowOf s.db.users ownerUserId = some row) :
    UpdateFits ctx params fault s ↔
      (row.did = uinfo.did → params.name = owner.name ∧ params.email = owner.email) := by
  constructor
  · intro h
    exact h uinfo owner row hupdates howner hrow
  · intro h uinfo' owner' row' hupdates' howner' hrow' hdid
    cases hupdates.uinfo_eq hupdates'
    cases howner.symm.trans howner'
    cases hrow.symm.trans hrow'
    exact h hdid

/-- `hdl_upd_user_info_req` changes the row, and never the record. -/
theorem namesOwner_hdlUpdUserInfoReq_iff {params : UserParams} {w : World}
    (hdb : w.db = s.db) (hphase : s.phase ≠ .noOwner) (h : NamesOwner s) :
    NamesOwner { s with db := ((hdlUpdUserInfoReq ctx params).run fault w).2.db } ↔
      UpdateFits ctx params fault s := by
  obtain ⟨owner, row, howner, hrow, hname, hemail⟩ := h hphase
  rcases hdlUpdUserInfoReq_cases ctx fault params w with
    ⟨uinfo, hupdates, husers⟩ | ⟨hnone, husers⟩
  · let row' : UserRow :=
      if row.did = uinfo.did then row.upd (updatedUser uinfo params) ctx.now else row
    have hrow' : rowOf ((hdlUpdUserInfoReq ctx params).run fault w).2.db.users ownerUserId =
        some row' := by
      rw [husers, hdb, rowOf_updateWhere (f := UserRow.upd _ _) fun _ => rfl, hrow, Option.map_some]
      simp only [row', decide_eq_true_eq]
    have hnames : NamesOwner { s with db := ((hdlUpdUserInfoReq ctx params).run fault w).2.db } ↔
        owner.name = row'.name ∧ owner.email = row'.email := namesOwner_iff hphase howner hrow'
    rw [hnames, updateFits_iff hupdates howner hrow]
    by_cases hdid : row.did = uinfo.did
    · rw [forall_prop_of_true hdid, show row' = row.upd _ _ from if_pos hdid]
      exact and_congr eq_comm eq_comm
    · rw [show row' = row from if_neg hdid]
      exact iff_of_true ⟨hname, hemail⟩ fun hsame => absurd hsame hdid
  · refine iff_of_true ?_ fun uinfo _ _ hupdates => absurd hupdates (hnone uinfo)
    exact h.of_same hphase (husers.trans (congrArg Db.users hdb)) rfl

end Updates

section Restarts

theorem ownerInfo_restart {m : Moment} {loaded : Loaded} (hrestart : restart m s loaded = some s') :
    dbGetOwner m s.db = some s'.ownerInfo := by
  rw [restart] at hrestart
  split at hrestart
  · cases hrestart
  · split at hrestart
    · cases hrestart
    · next hnobody =>
        cases hrestart
        exact hnobody
    · next ui howner =>
        dsimp only at hrestart
        split at hrestart
        · cases hrestart
          exact howner
        · split at hrestart
          · cases hrestart
            exact howner
          · cases hrestart
            exact howner

theorem eq_of_dbGetOwner {m : Moment} {db : Db} {owner : Option AuthUser}
    (hget : dbGetOwner m db = some owner) :
    owner = (rowOf db.users ownerUserId).map fun row => ⟨1, row.did, row.name, row.email⟩ := by
  rw [dbGetOwner] at hget
  split at hget
  · exact (Option.some.inj hget).symm
  · cases hget

/-- A restart makes the record from the row. -/
theorem restart_ends {m : Moment} {loaded : Loaded} (hsound : Sound s)
    (hrestart : restart m s loaded = some s') : Sound s' ∧ NamesOwner s' := by
  have hrestarted : Restarted s s' := restart_eq_some hrestart
  have hidentified : AccountsSound s'.db.users := hrestarted.db ▸ hsound.identified
  rcases hrestarted.owner with ⟨hphase, -, hfeedsDoc, hnobody⟩ | ⟨owner, hphase, howner, -⟩
  · have hempty : s'.db.users = [] := by
      by_contra husers
      obtain ⟨did, hfirst⟩ := hidentified.first husers
      exact hnobody did (hrestarted.db ▸ hfirst)
    have hunowned : Unowned s' := by
      refine ⟨hphase, hfeedsDoc, hrestarted.authSecretMap, ?_⟩
      rw [hempty]
      exact List.forall_mem_nil _
    exact ⟨⟨hidentified, fun _ => hunowned⟩, hunowned.namesOwner⟩
  · have hmade := eq_of_dbGetOwner (ownerInfo_restart hrestart)
    rw [howner, ← hrestarted.db] at hmade
    obtain ⟨row, hrow, rfl⟩ := Option.map_eq_some_iff.mp hmade.symm
    exact ⟨Owned.sound ⟨hphase, hidentified⟩, fun _ => ⟨_, row, howner, hrow, rfl, rfl⟩⟩

end Restarts

section Runs

/-- The request changes the name and the e-mail address of the owner in the record and in the
row, or in neither. -/
def KeepsRecord (host : Host) : Service → Event → Service → Prop
  | s, .request t fault (.feeds message), _ =>
      ∀ params, message.req = .updUserInfo params →
        UpdateFits (message.ctx host t s) params fault s.auth
  | s, .request t fault (.signinConfChal req), _ =>
      ∀ ui s', Presents host t req ui fault s.auth s' → RecordFits ui fault s.auth
  | s, .request t fault (.standardDidAuth req), _ =>
      ∀ info s', (authToken host t req).run fault s.auth = (.ok info, s') →
        RecordFits info.user fault s.auth
  | _, _, _ => True

/-- The users after a handler of `feeds.c`. -/
theorem users_onWorld (fault : Option Call) {ctx : Ctx} {req : Feeds.Req}
    {handler : FeedsHandler (List Resp)} (hhandler : feedsHandler ctx req = some handler)
    (hother : ∀ params uinfo, req = .updUserInfo params → ¬ UpdatesUser ctx fault uinfo)
    (s : Service) : (onWorld handler fault s).2.auth.db.users = s.auth.db.users := by
  have hleft : (onWorld handler fault s).2.auth.db.users =
      (handler.run fault s.world).2.db.users := rfl
  rw [hleft]
  by_cases hupdate : ∃ params, req = .updUserInfo params
  · obtain ⟨params, rfl⟩ := hupdate
    cases hhandler
    rcases hdlUpdUserInfoReq_cases ctx fault params s.world with
      ⟨uinfo, hupdates, -⟩ | ⟨-, hresult⟩
    · exact absurd hupdates (hother params uinfo rfl)
    · exact hresult
  · exact keepsUsers_feedsHandler ctx hhandler (fun params hreq => hupdate ⟨params, hreq⟩)
      fault s.world

/-- Without an owner only a declaration does anything. -/
theorem serve_unowned {s : Service} (request : Request) (hsound : Sound s.auth)
    (hunowned : Unowned s.auth) (s' : Service) :
    (Sound (serve host t fault s request).2.auth ∧
        NamesOwner (serve host t fault s request).2.auth) ∧
      KeepsRecord host s (.request t fault request) s' := by
  have hsame : ∀ left : Auth.State, left = s.auth → Sound left ∧ NamesOwner left := by
    intro left hleft
    rw [hleft]
    exact ⟨hsound, hunowned.namesOwner⟩
  cases request with
  | feeds message =>
      have hnone : ∀ uinfo, ¬ UpdatesUser (message.ctx host t s) fault uinfo := by
        intro uinfo hupdates
        exact absurd hupdates.ready (Bool.eq_false_iff.mp hunowned.not_ready)
      refine ⟨?_, fun params _ uinfo _ _ hupdates => absurd hupdates (hnone uinfo)⟩
      rw [serve]
      cases hhandler : feedsHandler (message.ctx host t s) message.req with
      | none => exact ⟨hsound, hunowned.namesOwner⟩
      | some handler =>
          have husers := users_onWorld fault hhandler (fun _ uinfo _ => hnone uinfo) s
          have hleft : Unowned (onWorld handler fault s).2.auth :=
            ⟨hunowned.phase, hunowned.feedsDoc, hunowned.authSecretMap, husers ▸ hunowned.users⟩
          exact ⟨⟨husers ▸ hsound.identified, fun _ => hleft⟩, hleft.namesOwner⟩
  | declOwner req =>
      refine ⟨?_, trivial⟩
      have hget : (Handlers.get : AuthHandler Auth.State).run fault s.auth = (.ok s.auth, s.auth) :=
        rfl
      have hrun : (hdlDeclOwnerReq t req).run fault s.auth =
          (declareOwner t req).run fault s.auth := by
        rw [hdlDeclOwnerReq, run_bind_ok hget, if_pos hunowned.phase]
      rw [serve, onAuth, hrun]
      exact declareOwner_ends req hsound hunowned
  | impDid req => exact ⟨hsame _ (unchanged_hdlImpDidReq hunowned req), trivial⟩
  | issVc req => exact ⟨hsame _ (unchanged_hdlIssVcReq hunowned req), trivial⟩
  | updateVc req => exact ⟨hsame _ (unchanged_hdlUpdateVcReq hunowned req), trivial⟩
  | signinReqChal req => exact ⟨hsame _ (unchanged_hdlSigninReqChalReq hunowned req), trivial⟩
  | signinConfChal req =>
      refine ⟨hsame _ (unchanged_hdlSigninConfChalReq hunowned req), ?_⟩
      rintro ui s' ⟨json, login, confirmed, -, hconfirmed, -⟩
      rw [run_confirmedLogin_unowned hunowned] at hconfirmed
      cases hconfirmed
  | standardSignIn req => exact ⟨hsame _ (unchanged_onStandardSignIn hunowned req), trivial⟩
  | standardDidAuth req =>
      refine ⟨hsame _ (unchanged_onStandardDidAuth hunowned req), ?_⟩
      intro info s' htoken
      exact absurd htoken (hunowned.authToken_ne_ok req)

/-- A request to the service of an owner. -/
theorem serve_owned_iff {s : Service} (request : Request) (howned : Owned s.auth)
    (h : NamesOwner s.auth) (s' : Service) :
    Owned (serve host t fault s request).2.auth ∧
      (NamesOwner (serve host t fault s request).2.auth ↔
        KeepsRecord host s (.request t fault request) s') := by
  cases request with
  | feeds message =>
      rw [serve]
      cases hhandler : feedsHandler (message.ctx host t s) message.req with
      | none =>
          refine ⟨howned, iff_of_true h ?_⟩
          intro params hreq
          rw [hreq] at hhandler
          cases hhandler
      | some handler =>
          have haccounts := accounts_onWorld fault hhandler s
          refine ⟨⟨howned.phase, howned.identified.congr haccounts⟩, ?_⟩
          by_cases hupdate : ∃ params, message.req = .updUserInfo params
          · obtain ⟨params, hreq⟩ := hupdate
            rw [hreq] at hhandler
            cases hhandler
            refine (namesOwner_hdlUpdUserInfoReq_iff rfl howned.phase h).trans ?_
            constructor
            · intro hfits params' hreq'
              cases hreq.symm.trans hreq'
              exact hfits
            · intro hfits
              exact hfits params hreq
          · refine iff_of_true ?_ fun params hreq => absurd ⟨params, hreq⟩ hupdate
            have husers := users_onWorld fault hhandler
              (fun params _ hreq => absurd ⟨params, hreq⟩ hupdate) s
            exact h.of_same howned.phase husers rfl
  | declOwner req =>
      have hleft : ((hdlDeclOwnerReq t req).run fault s.auth).2 = s.auth :=
        unchanged_hdlDeclOwnerReq req howned.phase
      rw [serve, onAuth]
      dsimp only
      rw [hleft]
      exact ⟨howned, iff_of_true h trivial⟩
  | impDid req =>
      exact ⟨ofOwner_owned.preserves_hdlImpDidReq req fault s.auth howned,
        iff_of_true (namesOwner_of_keepsKept (keepsKept_hdlImpDidReq req) howned.phase h) trivial⟩
  | issVc req =>
      exact ⟨ofOwner_owned.preserves_hdlIssVcReq req fault s.auth howned,
        iff_of_true (namesOwner_of_keepsKept (keepsKept_hdlIssVcReq req) howned.phase h) trivial⟩
  | updateVc req =>
      exact ⟨ofOwner_owned.preserves_hdlUpdateVcReq req fault s.auth howned,
        iff_of_true (namesOwner_of_keepsKept (keepsKept_hdlUpdateVcReq req) howned.phase h) trivial⟩
  | signinReqChal req =>
      have hkeeps : Keeps bound (hdlSigninReqChalReq host t req) := keeps_hdlSigninReqChalReq req
      exact ⟨ofOwner_owned.of_keeps hkeeps fault s.auth howned,
        iff_of_true (NamesOwner.of_bound _ _ (hkeeps fault s.auth) h) trivial⟩
  | signinConfChal req =>
      exact ⟨ofOwner_owned.preserves_hdlSigninConfChalReq preservesOwned_storeUser req fault s.auth
          howned,
        namesOwner_hdlSigninConfChalReq_iff req howned.phase h⟩
  | standardSignIn req =>
      have hkeeps : Keeps bound (onStandardSignIn host t req) :=
        keeps_onStandardSignIn (fun _ _ _ => rfl) req
      exact ⟨ofOwner_owned.of_keeps hkeeps fault s.auth howned,
        iff_of_true (NamesOwner.of_bound _ _ (hkeeps fault s.auth) h) trivial⟩
  | standardDidAuth req =>
      exact ⟨ofOwner_owned.preserves_onStandardDidAuth preservesOwned_storeUser req fault s.auth
          howned,
        namesOwner_onStandardDidAuth_iff req howned.phase h⟩

/-- A step leaves the record naming the owner as his row does exactly when it keeps them
together. -/
theorem next_namesOwner_iff {s s' : Service} {event : Event} (hsound : Sound s.auth)
    (h : NamesOwner s.auth) (hstep : Step host s event s') :
    Sound s'.auth ∧ (NamesOwner s'.auth ↔ KeepsRecord host s event s') := by
  cases event with
  | request t fault request =>
      obtain rfl := Option.some.inj hstep
      by_cases hphase : s.auth.phase = .noOwner
      · obtain ⟨⟨hsound', hnames⟩, hkeeps⟩ :=
          serve_unowned request hsound (hsound.unowned hphase) _
        exact ⟨hsound', iff_of_true hnames hkeeps⟩
      · obtain ⟨howned, hiff⟩ := serve_owned_iff request ⟨hphase, hsound.identified⟩ h _
        exact ⟨howned.sound, hiff⟩
  | expireLogin m =>
      obtain rfl := Option.some.inj hstep
      have hunowned : s.auth.phase = .noOwner → Unowned (authExpireLogin m s.auth) := by
        intro hphase
        have hbefore := hsound.unowned hphase
        exact ⟨hphase, hbefore.feedsDoc, hbefore.authSecretMap, hbefore.users⟩
      exact ⟨⟨hsound.identified, hunowned⟩, iff_of_true h trivial⟩
  | peerOffline nodeId =>
      obtain rfl := Option.some.inj hstep
      exact ⟨hsound, iff_of_true h trivial⟩
  | restart m loaded =>
      obtain ⟨auth, hrestart, rfl⟩ := Option.map_eq_some_iff.mp hstep
      obtain ⟨hsound', hnames⟩ := restart_ends hsound hrestart
      exact ⟨hsound', iff_of_true hnames trivial⟩

theorem always_namesOwner_iff (host : Host) (events : List Event) :
    Always (Step host) (fun s => NamesOwner s.auth) Service.init events ↔
      EachStep (Step host) (KeepsRecord host) Service.init events := by
  have hinit : Unowned Service.init.auth := ⟨rfl, rfl, rfl, List.forall_mem_nil _⟩
  apply always_iff_eachStep fun s => Sound s.auth ∧ NamesOwner s.auth
  · intro s event s' ⟨hsound, hnames⟩ hstep hkeeps
    obtain ⟨hsound', hiff⟩ := next_namesOwner_iff hsound hnames hstep
    exact ⟨hsound', hiff.mpr hkeeps⟩
  · exact fun _ h => h.2
  · intro s event s' ⟨hsound, hnames⟩ hstep hbreaks hnames'
    exact hbreaks ((next_namesOwner_iff hsound hnames hstep).2.mp hnames')
  · exact ⟨⟨AccountsSound.nil, fun _ => hinit⟩, hinit.namesOwner⟩

/-- The owner binds the service and signs in with a credential, and the `INSERT` of his row
fails. -/
def renamingRun : List Event :=
  let response : Jws :=
    { header := []
      keyId := some ⟨"did:owner", "primary"⟩
      issuer := "did:owner"
      subject := none
      audience := none
      expiration := none
      claims := [("presentation", .object (some {
        holder := "did:owner"
        nonce := some "nonce"
        realm := some "node"
        credentials := [] }))] }
  let profile : Credential :=
    { id := ⟨"did:owner", "profile"⟩
      owner := "did:owner"
      issuer := "did:owner"
      properties := [("name", "owner")]
      issuanceDate := 900
      expirationDate := 9000 }
  [.request { now := 1000 } none (.declOwner ⟨1, "", "did:owner", none⟩),
    .request { now := 1001 } none (.impDid ⟨2, some "mnemonic", none, 0, true, true,
      some serviceDocument, some "payload"⟩),
    .request { now := 1002 } none (.issVc ⟨3, some {
      id := ⟨"did:service", vcFrag⟩
      owner := "did:service"
      issuer := "did:owner"
      properties := [("name", "news")]
      issuanceDate := 1002
      expirationDate := 9000 }⟩),
    .request { now := 1003, nonce := "nonce" } none (.signinReqChal ⟨4, "did:owner", false⟩),
    .request { now := 1004 } (some (.statement 0 .step))
      (.signinConfChal ⟨5, response, some (some profile)⟩)]

theorem record_keeps_old_name :
    ¬ Always (Step trustingHost) (fun s => NamesOwner s.auth) Service.init renamingRun := by
  intro halways
  obtain ⟨s, hexec, hphase, howner, hrow⟩ :
      ∃ s, exec (next trustingHost) Service.init renamingRun = some s ∧
        s.auth.phase = .vcIssed ∧ s.auth.ownerInfo.map AuthUser.name = some "owner" ∧
        (rowOf s.auth.db.users ownerUserId).map UserRow.name = some "NA" :=
    ⟨_, rfl, by decide⟩
  have hnamed : s.auth.phase ≠ .noOwner := by
    rw [hphase]
    decide
  obtain ⟨owner, row, hrecord, hstored, hname, -⟩ := halways.last (run_of_exec hexec) hnamed
  rw [hrecord] at howner
  rw [hstored] at hrow
  have hdiffers : owner.name ≠ row.name := by
    rw [Option.some.inj howner, Option.some.inj hrow]
    decide
  exact hdiffers hname

end Runs

end FeedsService.Failures
