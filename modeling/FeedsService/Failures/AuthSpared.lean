import FeedsService.Failures.Auth

/-!
# What the handlers of the sign-ins leave behind an error

What is looked at is the database and the binding of the service.  The pending logins,
the challenges and what was signed are left out, and so is a root identity without a DID.
-/

namespace FeedsService.Failures

open FeedsService.Library FeedsService.Library.Handlers FeedsService.Library.Transactions
open FeedsService.Feeds FeedsService.Auth

/-- What an error must leave alone. -/
structure Bound where
  db : Db
  phase : Phase
  ownerInfo : Option AuthUser
  feedsDoc : Option DidDocument
  feedsVc : Option Credential
  documents : List DidDocument
  credentials : List Credential

def bound (s : Auth.State) : Bound where
  db := s.db
  phase := s.phase
  ownerInfo := s.ownerInfo
  feedsDoc := s.feedsDoc
  feedsVc := s.feedsVc
  documents := s.didStore.documents
  credentials := s.didStore.credentials

variable {α τ : Type} {view : Auth.State → τ} {host : Host} {t : Instant} {fault : Option Call}
  {s : Auth.State}

section Users

/-- A fault is in one statement at most. -/
theorem not_hit_of_hit {first second : ℕ} (hne : first ≠ second)
    (hhit : (faultsOf fault).hit first = true) : ¬ (faultsOf fault).hit second = true := by
  simp only [Faults.hit, faultsOf, List.any_cons, List.any_nil, Bool.or_false, Bool.or_eq_true,
    decide_eq_true_eq] at hhit ⊢
  rintro hother
  rcases hhit with h | h | h <;> subst h <;> simp_all

/-- The three ways in which `db_upsert_user` ends. -/
inductive Upserts (t : Instant) (ui : AuthUser) (ec : ℤ) (fault : Option Call) (s : Auth.State) :
    Except Exit ℤ × Auth.State → Prop
  | refused (h : (faultsOf fault).hit 0 = true ∨ insertUser t.moment s.db ui = none) :
      Upserts t ui ec fault s (.error (.err ec), s)
  | stuck {db : Db} (hfirst : ¬ (faultsOf fault).hit 0 = true)
      (hdb : insertUser t.moment s.db ui = some db) (hsecond : (faultsOf fault).hit 1 = true) :
      Upserts t ui ec fault s (.error (.err ec), { s with db := db })
  | stored {db : Db} {uid : ℤ} (hfirst : ¬ (faultsOf fault).hit 0 = true)
      (hdb : insertUser t.moment s.db ui = some db) (hsecond : ¬ (faultsOf fault).hit 1 = true)
      (huid : selectUserId t.moment db ui.did = some uid) :
      Upserts t ui ec fault s (.ok uid, { s with db := db })

/-- The `SELECT` finds the row that the `INSERT` has left. -/
theorem selectUserId_of_insertUser {ui : AuthUser} {db db' : Db}
    (hdb : insertUser t.moment db ui = some db') :
    ∃ uid, selectUserId t.moment db' ui.did = some uid := by
  have hmem : ∃ uid, (uid, ui.did) ∈ accounts db'.users := by
    rcases insertUser_eq_some hdb with ⟨⟨uid, huid⟩, hsame⟩ | ⟨-, happend⟩
    · exact ⟨uid, hsame ▸ huid⟩
    · exact ⟨_, happend ▸ List.mem_append_right _ (List.mem_singleton_self _)⟩
  have hany := List.any_eq_true.mp (any_did_iff.mpr hmem)
  obtain ⟨row, hrow⟩ := Option.isSome_iff_exists.mp (List.find?_isSome.mpr hany)
  exact ⟨row.userId, by simp only [selectUserId, Instant.moment, hrow, if_true, Option.map_some]⟩

theorem run_dbUpsertUser (t : Instant) (ui : AuthUser) (ec : ℤ) (fault : Option Call)
    (s : Auth.State) :
    Upserts t ui ec fault s ((mutate authDb (dbUpsertUser t ui) ec).run fault s) := by
  simp only [mutate, invoke, dbUpsertUser, execute, query, Transactions.run_bind, Session.on,
    authDb]
  by_cases hfirst : (faultsOf fault).hit 0 = true
  · rw [run_statement_hit hfirst]
    exact .refused (.inl hfirst)
  · rw [run_statement hfirst]
    cases hdb : insertUser t.moment s.db ui with
    | none => exact .refused (.inr hdb)
    | some db =>
        simp only [Option.map_some]
        by_cases hsecond : (faultsOf fault).hit 1 = true
        · rw [run_statement_hit hsecond]
          exact .stuck hfirst hdb hsecond
        · obtain ⟨uid, huid⟩ := selectUserId_of_insertUser hdb
          rw [run_statement hsecond]
          simp only [huid, Option.map_some]
          exact .stored hfirst hdb hsecond huid

/-- Whether `oinfo_upd` leaves the owner's record as it is. -/
def OwnerKept (ui : AuthUser) (s : Auth.State) : Prop :=
  ownerAfter ui s = s.ownerInfo

/-- Whether the `INSERT` leaves the users as they are. -/
def UserKept (t : Instant) (ui : AuthUser) (s : Auth.State) : Prop :=
  ∀ db, insertUser t.moment s.db ui = some db → db = s.db

/-- The update of the owner's record, which fails only for the owner. -/
theorem run_oinfoUpd (ui : AuthUser) (e : Exit) (fault : Option Call) (s : Auth.State) :
    (fault = some .oinfoUpd ∧ isOwner ui s = true ∧
        (oinfoUpd ui e).run fault s = (.error e, s)) ∨
      ((fault = some .oinfoUpd → isOwner ui s = false) ∧
        (oinfoUpd ui e).run fault s = (.ok (), { s with ownerInfo := ownerAfter ui s })) := by
  have hget : (Handlers.get : AuthHandler Auth.State).run fault s = (.ok s, s) := rfl
  rw [oinfoUpd, run_bind_ok hget]
  split
  · next howner =>
      by_cases hfault : fault = some .oinfoUpd
      · subst hfault
        exact .inl ⟨rfl, howner, run_bind_error (run_attempt_failing _ _ _)⟩
      · exact .inr ⟨fun h => absurd h hfault, run_bind_ok (Handlers.run_attempt hfault)⟩
  · next hother => exact .inr ⟨fun _ => by simpa using hother, rfl⟩

theorem bound_eq_iff {ownerInfo : Option AuthUser} {db : Db} :
    bound { s with ownerInfo := ownerInfo, db := db } = bound s ↔
      ownerInfo = s.ownerInfo ∧ db = s.db := by
  simp [bound, and_comm]

/-- What must hold for a sign-in that stores its user to end in an error without a trace;
`late` says which user ids the rest of it fails for. -/
structure StoreIntact (t : Instant) (ui : AuthUser) (late : ℤ → Prop) (fault : Option Call)
    (s : Auth.State) : Prop where
  insert : (faultsOf fault).hit 0 = true ∨ insertUser t.moment s.db ui = none → OwnerKept ui s
  select : ∀ db uid, ¬ (faultsOf fault).hit 0 = true → insertUser t.moment s.db ui = some db →
    selectUserId t.moment db ui.did = some uid → (faultsOf fault).hit 1 = true ∨ late uid →
    OwnerKept ui s ∧ UserKept t ui s

/-- Once the `INSERT` has succeeded. -/
theorem storeIntact_iff {ui : AuthUser} {late : ℤ → Prop} {db : Db} {uid : ℤ}
    (hfirst : ¬ (faultsOf fault).hit 0 = true) (hdb : insertUser t.moment s.db ui = some db)
    (huid : selectUserId t.moment db ui.did = some uid) :
    StoreIntact t ui late fault s ↔
      ((faultsOf fault).hit 1 = true ∨ late uid → OwnerKept ui s ∧ db = s.db) := by
  constructor
  · intro hintact hfails
    obtain ⟨howner, huser⟩ := hintact.select db uid hfirst hdb huid hfails
    exact ⟨howner, huser db hdb⟩
  · intro hkept
    refine ⟨fun hfails => ?_, fun db' uid' _ hdb' huid' hfails => ?_⟩
    · rcases hfails with hhit | hnone
      · exact absurd hhit hfirst
      · cases hnone.symm.trans hdb
    · cases hdb.symm.trans hdb'
      cases huid.symm.trans huid'
      refine ⟨(hkept hfails).1, fun db' hdb' => ?_⟩
      cases hdb.symm.trans hdb'
      exact (hkept hfails).2

theorem spares_storeUser_iff {ui : AuthUser} {ownerError : Exit} {userError : ℤ}
    {rest : ℤ → AuthHandler α} {late : ℤ → Prop} (hkeeps : ∀ uid, Keeps bound (rest uid))
    (hlate : ∀ uid ownerInfo db,
      Fails (rest uid) fault { s with ownerInfo := ownerInfo, db := db } ↔ late uid) :
    Spares bound (storeUser t ui ownerError userError >>= rest) fault s ↔
      ((fault = some .oinfoUpd → isOwner ui s = false) → StoreIntact t ui late fault s) := by
  rcases run_oinfoUpd ui ownerError fault s with ⟨hfault, howner, hrun⟩ | ⟨hother, hrun⟩
  · have hleft : (storeUser t ui ownerError userError >>= rest).run fault s =
        (.error ownerError, s) := run_bind_error (run_bind_error hrun)
    refine iff_of_true ?_ ?_
    · intro e _
      rw [hleft]
    · intro hother
      rw [hother hfault] at howner
      cases howner
  · have hstored : (storeUser t ui ownerError userError >>= rest).run fault s =
        (mutate authDb (dbUpsertUser t ui) userError >>= rest).run fault
          { s with ownerInfo := ownerAfter ui s } := by
      rw [storeUser, run_bind_assoc, run_bind_ok hrun]
    have hupserts := run_dbUpsertUser t ui userError fault
      { s with ownerInfo := ownerAfter ui s }
    rw [Spares, hstored, forall_prop_of_true hother]
    generalize hresult : (mutate authDb (dbUpsertUser t ui) userError).run fault
      { s with ownerInfo := ownerAfter ui s } = result at hupserts
    cases hupserts with
    | refused hfails =>
        rw [run_bind_error hresult]
        constructor
        · intro hspares
          have hkept := bound_eq_iff.mp (hspares _ rfl)
          refine ⟨fun _ => hkept.1, fun db uid hfirst hdb => ?_⟩
          rcases hfails with hhit | hnone
          · exact absurd hhit hfirst
          · cases hnone.symm.trans hdb
        · intro hintact e _
          exact bound_eq_iff.mpr ⟨hintact.insert hfails, rfl⟩
    | @stuck db hfirst hdb hsecond =>
        have hinsert : insertUser t.moment s.db ui = some db := hdb
        obtain ⟨uid, huid⟩ := selectUserId_of_insertUser hinsert
        rw [run_bind_error hresult, storeIntact_iff hfirst hinsert huid]
        constructor
        · intro hspares _
          exact bound_eq_iff.mp (hspares _ rfl)
        · intro hkept e _
          exact bound_eq_iff.mpr (hkept (.inl hsecond))
    | @stored db uid hfirst hdb hsecond huid =>
        have hinsert : insertUser t.moment s.db ui = some db := hdb
        rw [run_bind_ok hresult, storeIntact_iff hfirst hinsert huid, or_iff_right hsecond,
          spared_iff_of_keeps (hkeeps uid)]
        have hbound : bound { s with ownerInfo := ownerAfter ui s, db := db } = bound s ↔
            OwnerKept ui s ∧ db = s.db := bound_eq_iff
        exact imp_congr (hlate uid (ownerAfter ui s) db) hbound

end Users

section Binding

theorem keeps_vcToProcess (json : Json Credential) : Keeps view (vcToProcess host t json) :=
  keeps_bind (keeps_require _ _) fun _ =>
    keeps_bind (keeps_attempt _ _) fun _ =>
    keeps_bind (keeps_find _ _) fun _ =>
    keeps_bind (keeps_attempt _ _) fun _ =>
    keeps_bind (keeps_find _ _) fun vc =>
    keeps_bind (keeps_require _ _) fun _ =>
    keeps_bind (keeps_require _ _) fun _ =>
    keeps_bind (keeps_attempt _ _) fun _ => keeps_pure vc

theorem spares_processVcReq (json : Json Credential) :
    Spares bound (processVcReq host t json) fault s := by
  apply spares_bind (keeps_vcToProcess json)
  intro vc s
  exact spares_of_succeeds (succeeds_update _)

/-- Whether the handler says what went wrong does not matter to what it does. -/
theorem unlessUnmarshalled_snd (handler : AuthHandler Unit) :
    ((unlessUnmarshalled handler).run fault s).2 = (handler.run fault s).2 := by
  rcases hrun : handler.run fault s with ⟨result, s'⟩
  cases result with
  | ok u => simp only [unlessUnmarshalled, hrun]
  | error e => simp only [unlessUnmarshalled, hrun]

theorem keeps_unlessUnmarshalled {handler : AuthHandler Unit} (h : Keeps view handler) :
    Keeps view (unlessUnmarshalled handler) := by
  intro fault s
  rw [unlessUnmarshalled_snd]
  exact h fault s

theorem preserves_unlessUnmarshalled {P : Auth.State → Prop} {handler : AuthHandler Unit}
    (h : Preserves P handler) : Preserves P (unlessUnmarshalled handler) := by
  intro fault s hs
  rw [unlessUnmarshalled_snd]
  exact h fault s hs

theorem spares_unlessUnmarshalled {handler : AuthHandler Unit}
    (hspares : Spares bound handler fault s) :
    Spares bound (unlessUnmarshalled handler) fault s := by
  intro e herror
  rw [unlessUnmarshalled_snd]
  rcases hrun : handler.run fault s with ⟨result, s'⟩
  simp only [unlessUnmarshalled, hrun] at herror
  cases result with
  | ok u => cases herror
  | error e' =>
      have hspared := hspares e' (by rw [hrun])
      rwa [hrun] at hspared

theorem spares_hdlIssVcReq (req : IssVcReq) :
    Spares bound (hdlIssVcReq host t req) fault s := by
  apply spares_bind_succeeds
  · exact spares_unlessUnmarshalled (spares_processVcReq req.vc)
  · intro _
    exact succeeds_pure _

theorem keeps_vcIssed : Keeps view vcIssed :=
  keeps_require _ _

theorem spares_hdlUpdateVcReq (req : UpdateVcReq) :
    Spares bound (hdlUpdateVcReq host t req) fault s := by
  apply spares_bind keeps_vcIssed
  intro _ s
  apply spares_bind (keeps_attempt _ _)
  intro _ s
  apply spares_bind (keeps_find _ _)
  intro uinfo s
  apply spares_bind (keeps_require _ _)
  intro _ s
  apply spares_bind_succeeds
  · exact spares_unlessUnmarshalled (spares_processVcReq req.vc)
  · intro _
    exact succeeds_pure _

/-- The request gets to the DID, with what the library makes. -/
structure Imports (req : ImpDidReq) (fault : Option Call) (s : Auth.State) : Prop where
  phase : s.phase = .ownerDecled
  mnemonic : req.mnemo = none → fault ≠ some .mnemonicGenerate ∧ req.generated = true
  identity : fault ≠ some .rootIdentityCreate ∧ req.identity = true

theorem keeps_rootIdentity (req : ImpDidReq) : Keeps bound (rootIdentity req) := by
  apply keeps_bind (keeps_require _ _)
  intro _
  dsimp only
  split
  · exact keeps_bind (keeps_attempt _ _) fun _ =>
      keeps_bind (keeps_require _ _) fun _ =>
      keeps_bind (keeps_attempt _ _) fun _ =>
      keeps_bind (keeps_require _ _) fun _ => keeps_update fun _ => rfl
  · exact keeps_bind (keeps_attempt _ _) fun _ =>
      keeps_bind (keeps_require _ _) fun _ => keeps_update fun _ => rfl

theorem rootIdentity_eq_ok {req : ImpDidReq} {s' : Auth.State} {u : Unit} :
    (rootIdentity req).run fault s = (.ok u, s') ↔
      Imports req fault s ∧ withRootIdentity s = s' := by
  cases hmnemo : req.mnemo with
  | none =>
      simp only [rootIdentity, hmnemo, Option.isNone_none, if_true, run_bind_eq_ok,
        run_require_eq_ok, run_attempt_eq_ok, run_update_eq_ok, decide_eq_true_eq]
      constructor
      · rintro ⟨_, _, ⟨hphase, rfl⟩, _, _, ⟨hcall, rfl⟩, _, _, ⟨hgenerated, rfl⟩, _, _,
          ⟨hcreate, rfl⟩, _, _, ⟨hidentity, rfl⟩, hs'⟩
        exact ⟨⟨hphase, fun _ => ⟨hcall, hgenerated⟩, hcreate, hidentity⟩, hs'⟩
      · rintro ⟨⟨hphase, hmnemonic, hcreate, hidentity⟩, hs'⟩
        obtain ⟨hcall, hgenerated⟩ := hmnemonic hmnemo
        exact ⟨(), s, ⟨hphase, rfl⟩, (), s, ⟨hcall, rfl⟩, (), s, ⟨hgenerated, rfl⟩, (), s,
          ⟨hcreate, rfl⟩, (), s, ⟨hidentity, rfl⟩, hs'⟩
  | some mnemo =>
      simp only [rootIdentity, hmnemo, Option.isNone_some, Bool.false_eq_true, if_false,
        run_bind_eq_ok, run_require_eq_ok, run_attempt_eq_ok, run_update_eq_ok,
        decide_eq_true_eq]
      constructor
      · rintro ⟨_, _, ⟨hphase, rfl⟩, _, _, ⟨hcreate, rfl⟩, _, _, ⟨hidentity, rfl⟩, hs'⟩
        exact ⟨⟨hphase, fun hnone => by simp [hmnemo] at hnone, hcreate, hidentity⟩, hs'⟩
      · rintro ⟨⟨hphase, -, hcreate, hidentity⟩, hs'⟩
        exact ⟨(), s, ⟨hphase, rfl⟩, (), s, ⟨hcreate, rfl⟩, (), s, ⟨hidentity, rfl⟩, hs'⟩

/-- The import ends in an error only before there is a DID. -/
def ImportIntact (req : ImpDidReq) (fault : Option Call) (s : Auth.State) : Prop :=
  if fault = some .newDid ∨ req.doc = none then s.feedsDoc = none
  else fault ≠ some .genTsxPayload ∧ req.payload ≠ none

/-- A DID that has been imported stays when there is no payload. -/
theorem spares_importDid_iff {req : ImpDidReq} (hphase : s.phase = .ownerDecled) :
    Spares bound (importDid req) fault s ↔ ImportIntact req fault s := by
  rw [ImportIntact]
  split
  · next hnone =>
      have hmade : (if fault = some .newDid then none else req.doc) = none := by
        rcases hnone with hfault | hdoc
        · rw [if_pos hfault]
        · rw [hdoc, ite_self]
      have hrun : (importDid req).run fault s =
          (.error (refuses .internalError), { s with
            feedsDoc := none
            didStore := { s.didStore with documents := s.didStore.documents ++ [] } }) := by
        apply run_bind_error
        simp only [newDid, invoke, hmade, Option.elim_none, Option.toList_none]
      rw [Spares, hrun]
      simp [bound, eq_comm]
  · next hmakes =>
      obtain ⟨hfault, hdoc⟩ := not_or.mp hmakes
      obtain ⟨doc, hdoc⟩ := Option.ne_none_iff_exists'.mp hdoc
      have hmade : (newDid req.doc).run fault s = (.ok doc, { s with
          feedsDoc := some doc
          didStore := { s.didStore with documents := s.didStore.documents ++ [doc] } }) := by
        simp only [newDid, invoke, if_neg hfault, hdoc, Option.elim_some, Option.toList_some]
      have hset : ∀ s : Auth.State, (update fun s => { s with phase := .didImped } :
          AuthHandler Unit).run fault s = (.ok (), { s with phase := .didImped }) :=
        fun _ => rfl
      rw [Spares, importDid, run_bind_ok hmade, run_bind_ok (hset _), spared_iff_of_keeps]
      · have hchanged : bound { s with
            phase := .didImped
            feedsDoc := some doc
            didStore := { s.didStore with documents := s.didStore.documents ++ [doc] } } ≠
              bound s := by
          intro hsame
          have hphases := congrArg Bound.phase hsame
          simp [bound, hphase] at hphases
        rw [imp_iff_not hchanged, fails_attempt_bind_iff, fails_find_bind_iff, not_or, not_or]
        simp [not_fails_of_succeeds (succeeds_pure _)]
      · exact keeps_bind (keeps_attempt _ _) fun _ =>
          keeps_bind (keeps_find _ _) fun _ => keeps_pure _

theorem spares_hdlImpDidReq_iff {req : ImpDidReq} :
    Spares bound (hdlImpDidReq req) fault s ↔
      (Imports req fault s → ImportIntact req fault s) := by
  rw [hdlImpDidReq, spares_bind_iff (keeps_rootIdentity req)]
  constructor
  · intro hspares himports
    have himport := hspares () _ (rootIdentity_eq_ok.mpr ⟨himports, rfl⟩)
    exact (spares_importDid_iff (s := withRootIdentity s) himports.phase).mp himport
  · intro hintact u s' hrun
    obtain ⟨himports, rfl⟩ := rootIdentity_eq_ok.mp hrun
    exact (spares_importDid_iff (s := withRootIdentity s) himports.phase).mpr
      (hintact himports)

/-- A user who has been stored stays when the `SELECT` fails. -/
theorem spares_declareOwner_iff {req : DeclOwnerReq} (howner : s.ownerInfo = none) :
    Spares bound (declareOwner t req) fault s ↔
      ((faultsOf fault).hit 1 = true → UserKept t (declaredOwner req) s) := by
  by_cases hfault : fault = some .oinfoInit
  · have hrun : (oinfoInit (declaredOwner req)).run fault s =
        (.error (refuses .internalError), oinfoClear s) := by
      simp only [oinfoInit, invoke, if_pos hfault, Option.elim_none]
    have hsame : oinfoClear s = s := by rw [oinfoClear, ← howner]
    refine iff_of_true ?_ ?_
    · intro e _
      rw [declareOwner, run_bind_error hrun, hsame]
    · intro hhit
      simp [hfault, Faults.hit, faultsOf] at hhit
  · have hrun : (oinfoInit (declaredOwner req)).run fault s =
        (.ok (), { s with ownerInfo := some (declaredOwner req) }) := by
      simp only [oinfoInit, invoke, if_neg hfault, Option.elim_some]
    have hupserts := run_dbUpsertUser t (declaredOwner req) Auth.Err.internalError.code fault
      { s with ownerInfo := some (declaredOwner req) }
    rw [Spares, declareOwner, run_bind_ok hrun]
    generalize hresult : (mutate authDb (dbUpsertUser t (declaredOwner req))
      Auth.Err.internalError.code).run fault { s with ownerInfo := some (declaredOwner req) } =
        result at hupserts
    cases hupserts with
    | refused hfails =>
        rw [run_bind_error (run_onError_error hresult)]
        refine iff_of_true ?_ ?_
        · intro e _
          exact bound_eq_iff.mpr ⟨howner.symm, rfl⟩
        · intro hhit db hdb
          rcases hfails with hfirst | hnone
          · exact absurd hfirst (not_hit_of_hit (by decide) hhit)
          · cases hnone.symm.trans hdb
    | @stuck db hfirst hdb hsecond =>
        have hinsert : insertUser t.moment s.db (declaredOwner req) = some db := hdb
        rw [run_bind_error (run_onError_error hresult), forall_prop_of_true hsecond]
        constructor
        · intro hspares db' hdb'
          cases hinsert.symm.trans hdb'
          exact (bound_eq_iff.mp (hspares _ rfl)).2
        · intro hkept e _
          exact bound_eq_iff.mpr ⟨howner.symm, hkept db hinsert⟩
    | stored hfirst hdb hsecond huid =>
        rw [run_bind_ok (run_onError_ok hresult)]
        refine iff_of_true ?_ fun hhit => absurd hhit hsecond
        intro e herror
        cases herror

theorem spares_hdlDeclOwnerReq_iff {req : DeclOwnerReq}
    (hunbound : s.phase = .noOwner → s.ownerInfo = none) :
    Spares bound (hdlDeclOwnerReq t req) fault s ↔
      (s.phase = .noOwner → (faultsOf fault).hit 1 = true →
        UserKept t (declaredOwner req) s) := by
  have hget : (Handlers.get : AuthHandler Auth.State).run fault s = (.ok s, s) := rfl
  rw [Spares, hdlDeclOwnerReq, run_bind_ok hget]
  split
  · next hphase =>
      rw [forall_prop_of_true hphase]
      exact spares_declareOwner_iff (hunbound hphase)
  · next hphase =>
      refine iff_of_true ?_ fun hnoOwner => absurd hnoOwner hphase
      apply spares_bind (keeps_require _ _)
      intro _ s
      split
      · apply spares_bind (keeps_attempt _ _)
        intro _ s
        exact spares_of_keeps (keeps_examine _)
      · exact spares_of_keeps (keeps_examine _)

end Binding

section SignIn

theorem keeps_builtBy (call : Call) (e : Exit) : Keeps view (builtBy call e) :=
  keeps_bind (keeps_attempt _ _) fun _ => keeps_find _ _

theorem fails_builtBy_bind_iff {call : Call} {e : Exit} {next : DidDocument → AuthHandler α}
    (hnext : ∀ doc, Succeeds (next doc)) :
    Fails (builtBy call e >>= next) fault s ↔ fault = some call ∨ s.feedsDoc = none := by
  have hassoc : Fails (builtBy call e >>= next) fault s ↔
      Fails (attempt call e >>= fun _ => find e State.feedsDoc >>= next) fault s := by
    rw [Fails, builtBy, run_bind_assoc, Fails]
  rw [hassoc, fails_attempt_bind_iff, fails_find_bind_iff]
  simp [not_fails_of_succeeds (hnext _)]

theorem keeps_challengeFor (req : SigninReqChalReq) :
    Keeps view (challengeFor host t req) := by
  apply keeps_bind keeps_vcIssed
  intro _
  apply keeps_bind (keeps_require _ _)
  intro _
  apply keeps_bind (keeps_attempt _ _)
  intro _
  apply keeps_bind
    (keeps_bind (keeps_failing _) fun _ => keeps_bind keeps_get fun _ => keeps_pure _)
  intro vcReq
  apply keeps_bind (keeps_builtBy _ _)
  intro doc
  split
  · exact keeps_bind (keeps_attempt _ _) fun _ => keeps_bind (keeps_find _ _) fun _ => keeps_pure _
  · exact keeps_pure _

theorem keeps_hdlSigninReqChalReq (req : SigninReqChalReq) :
    Keeps bound (hdlSigninReqChalReq host t req) := by
  apply keeps_bind (keeps_challengeFor req)
  intro challenge
  exact keeps_bind (keeps_update fun _ => rfl) fun _ => keeps_pure _

theorem keeps_confirmedLogin (req : SigninConfChalReq) :
    Keeps bound (confirmedLogin host t req) := by
  apply keeps_bind keeps_vcIssed
  intro _
  apply keeps_bind (keeps_attempt _ _)
  intro _
  apply keeps_bind (keeps_require _ _)
  intro _
  apply keeps_bind (keeps_attempt _ _)
  intro _
  apply keeps_bind (keeps_attempt _ _)
  intro _
  apply keeps_bind (keeps_invoke fun _ _ => rfl)
  intro login
  exact keeps_bind (keeps_update fun _ => rfl) fun _ => keeps_pure _

theorem keeps_uinfoFromVc (req : SigninConfChalReq) (json : Json Credential) :
    Keeps view (uinfoFromVc host t req json) := by
  apply keeps_bind (keeps_attempt _ _)
  intro _
  apply keeps_bind (keeps_find _ _)
  intro vc
  apply keeps_bind (keeps_require _ _)
  intro _
  apply keeps_bind (keeps_require _ _)
  intro _
  apply keeps_bind (keeps_attempt _ _)
  intro _
  apply keeps_bind (keeps_find _ _)
  intro uinfo
  apply keeps_bind keeps_get
  intro state
  dsimp only
  split
  · exact keeps_bind (keeps_attempt _ _) fun _ => keeps_pure _
  · exact keeps_pure _

theorem keeps_storedUser (login : Login) : Keeps view (storedUser t login) :=
  keeps_bind (keeps_require _ _) fun _ =>
    keeps_bind (keeps_attempt _ _) fun _ =>
    keeps_bind (keeps_find _ _) fun _ => keeps_find _ _

theorem keeps_tokenFor (hview : ∀ s history, view { s with history := history } = view s)
    (login : Login) (uinfo : AuthUser) : Keeps view (tokenFor t login uinfo) := by
  apply keeps_bind (keeps_builtBy _ _)
  intro doc
  exact keeps_bind (keeps_update fun s => hview s _) fun _ => keeps_pure _

/-- The response confirms a login, and comes with the credential of a user. -/
def Presents (host : Host) (t : Instant) (req : SigninConfChalReq) (uinfo : AuthUser)
    (fault : Option Call) (s s' : Auth.State) : Prop :=
  ∃ json login confirmed, req.vc = some json ∧
    (confirmedLogin host t req).run fault s = (.ok login, confirmed) ∧
    (uinfoFromVc host t req json).run fault confirmed = (.ok uinfo, s')

/-- A sign-in with a credential ends in an error without a trace. -/
def ConfirmIntact (host : Host) (t : Instant) (req : SigninConfChalReq)
    (fault : Option Call) (s : Auth.State) : Prop :=
  ∀ uinfo s', Presents host t req uinfo fault s s' →
    (fault = some .oinfoUpd → isOwner uinfo s' = false) →
      StoreIntact t uinfo (fun _ => fault = some .genAccessToken ∨ s'.feedsDoc = none) fault s'

theorem spares_signInLogin_iff {req : SigninConfChalReq} {login : Login} :
    Spares bound (signInLogin host t req login) fault s ↔
      ∀ json, req.vc = some json → ∀ uinfo s',
        (uinfoFromVc host t req json).run fault s = (.ok uinfo, s') →
        (fault = some .oinfoUpd → isOwner uinfo s' = false) →
        StoreIntact t uinfo (fun _ => fault = some .genAccessToken ∨ s'.feedsDoc = none)
          fault s' := by
  rw [signInLogin]
  cases hvc : req.vc with
  | none =>
      refine iff_of_true (spares_of_keeps ?_) fun _ hsome => by cases hsome
      exact keeps_bind (keeps_storedUser login) fun uinfo =>
        keeps_tokenFor (fun _ _ => rfl) login uinfo
  | some json =>
      dsimp only
      have hlate : ∀ (uinfo : AuthUser) (s' : Auth.State) uid ownerInfo db,
          Fails (tokenFor t login { uinfo with uid := uid }) fault
              { s' with ownerInfo := ownerInfo, db := db } ↔
            fault = some .genAccessToken ∨ s'.feedsDoc = none := by
        intro uinfo s' uid ownerInfo db
        exact fails_builtBy_bind_iff fun doc =>
          succeeds_bind (succeeds_update _) fun _ => succeeds_pure _
      have hstored : ∀ (uinfo : AuthUser) (s' : Auth.State),
          Spares bound (storeUser t uinfo (refuses .internalError)
              Auth.Err.internalError.code >>= fun uid =>
                tokenFor t login { uinfo with uid := uid }) fault s' ↔
            ((fault = some .oinfoUpd → isOwner uinfo s' = false) →
              StoreIntact t uinfo (fun _ => fault = some .genAccessToken ∨ s'.feedsDoc = none)
                fault s') := by
        intro uinfo s'
        exact spares_storeUser_iff (fun uid => keeps_tokenFor (fun _ _ => rfl) login _)
          (hlate uinfo s')
      rw [spares_bind_iff (keeps_uinfoFromVc req json)]
      constructor
      · intro hspares json' hjson uinfo s' hrun
        cases hjson
        exact (hstored uinfo s').mp (hspares uinfo s' hrun)
      · intro hintact uinfo s' hrun
        exact (hstored uinfo s').mpr (hintact json rfl uinfo s' hrun)

/-- The answer of a sign-in cannot fail any more. -/
theorem spares_hdlSigninConfChalReq_iff {req : SigninConfChalReq} :
    Spares bound (hdlSigninConfChalReq host t req) fault s ↔
      ConfirmIntact host t req fault s := by
  rw [hdlSigninConfChalReq, spares_bind_iff (keeps_confirmedLogin req)]
  constructor
  · intro hspares uinfo s' ⟨json, login, confirmed, hvc, hlogin, huinfo⟩
    have hlogged := hspares login confirmed hlogin
    rw [spares_bind_succeeds_iff fun _ => succeeds_pure _] at hlogged
    exact spares_signInLogin_iff.mp hlogged json hvc uinfo s' huinfo
  · intro hintact login confirmed hlogin
    rw [spares_bind_succeeds_iff fun _ => succeeds_pure _]
    apply spares_signInLogin_iff.mpr
    intro json hvc uinfo s' huinfo
    exact hintact uinfo s' ⟨json, login, confirmed, hvc, hlogin, huinfo⟩

end SignIn

section StandardAuth

theorem keeps_onStandardSignIn (hview : ∀ s secrets history,
      view { s with authSecretMap := secrets, history := history } = view s)
    (req : StandardSignInRequest) : Keeps view (onStandardSignIn host t req) := by
  apply keeps_bind (keeps_attempt _ _)
  intro _
  apply keeps_bind (keeps_find _ _)
  intro didDoc
  apply keeps_bind (keeps_require _ _)
  intro _
  apply keeps_bind (keeps_attempt _ _)
  intro _
  apply keeps_bind (keeps_builtBy _ _)
  intro doc
  apply keeps_bind keeps_get
  intro s
  exact keeps_bind (keeps_update fun s => hview s _ _) fun _ => keeps_pure _

theorem keeps_authToken (req : StandardDidAuthRequest) : Keeps view (authToken host t req) :=
  keeps_bind (keeps_attempt _ _) fun _ =>
    keeps_bind (keeps_require _ _) fun _ =>
    keeps_bind (keeps_attempt _ _) fun _ =>
    keeps_bind (keeps_find _ _) fun _ =>
    keeps_bind (keeps_attempt _ _) fun _ => keeps_examine _

theorem keeps_createAccessToken
    (hview : ∀ s history, view { s with history := history } = view s)
    (req : StandardDidAuthRequest) (info : CredentialInfo) (uid : ℤ) :
    Keeps view (createAccessToken t req info uid) := by
  apply keeps_bind (keeps_require _ _)
  intro _
  apply keeps_bind (keeps_builtBy _ _)
  intro doc
  exact keeps_bind (keeps_update fun s => hview s _) fun _ => keeps_pure _

/-- Whether no access token is made for a user who has been stored. -/
def Unsigned (fault : Option Call) (s : Auth.State) (uid : ℤ) : Prop :=
  asInt uid < 0 ∨ fault = some .makeJwt ∨ s.feedsDoc = none

theorem fails_createAccessToken_iff {req : StandardDidAuthRequest} {info : CredentialInfo}
    {uid : ℤ} :
    Fails (createAccessToken t req info uid) fault s ↔ Unsigned fault s uid := by
  rw [createAccessToken, fails_require_bind_iff, fails_builtBy_bind_iff fun doc =>
    succeeds_bind (succeeds_update _) fun _ => succeeds_pure _]
  simp [Unsigned]

/-- A sign-in by a JWT ends in an error without a trace. -/
def DidAuthIntact (host : Host) (t : Instant) (req : StandardDidAuthRequest)
    (fault : Option Call) (s : Auth.State) : Prop :=
  ∀ info s', (authToken host t req).run fault s = (.ok info, s') →
    (fault = some .oinfoUpd → isOwner info.user s' = false) →
      StoreIntact t info.user (Unsigned fault s') fault s'

theorem spares_onStandardDidAuth_iff {req : StandardDidAuthRequest} :
    Spares bound (onStandardDidAuth host t req) fault s ↔ DidAuthIntact host t req fault s := by
  rw [onStandardDidAuth, spares_bind_iff (keeps_authToken req)]
  apply forall_congr'
  intro info
  apply forall_congr'
  intro s'
  apply imp_congr_right
  intro _
  exact spares_storeUser_iff (fun uid => keeps_createAccessToken (fun _ _ => rfl) req info uid)
    fun uid ownerInfo db => fails_createAccessToken_iff

end StandardAuth

end FeedsService.Failures
