import FeedsService.Auth.Challenges
import FeedsService.Auth.Phases

/-!
# Finding the binding again after a restart

The phase is not stored: `did_init` infers it from the owner's row and from what
the DID store holds.  The requests write both before they advance the phase in
memory, and the two agree unless the first declaration stores its row and then
fails to read back the row's id.
-/

namespace FeedsService.Auth

open FeedsService.Library FeedsService.Feeds FeedsService.Runs

variable {host : Host} {m : Moment} {a : Action} {s t : State} {loaded : Loaded}

section Recovery

/-- The calls of `did_init` succeed, and the DID library answers it from the store. -/
structure DidInitSucceeds (m : Moment) (loaded : Loaded) (store : DidStore) : Prop where
  allocs : m.allocs = true
  opens : m.stores = true
  reads : m.dbReads = true
  ofStore : loaded.OfStore store

/-- The binding that `t` has in memory is that of `s`. -/
structure SameBinding (s t : State) : Prop where
  phase : t.phase = s.phase
  ownerDid : t.ownerDid = s.ownerDid
  feedsDid : t.feedsDid = s.feedsDid
  feedsVc : t.feedsVc = s.feedsVc

/-- A restart at this point finds the binding again. -/
def Recovers (s : State) : Prop :=
  ∀ m loaded, DidInitSucceeds m loaded s.didStore →
    ∃ t, restart m s loaded = some t ∧ SameBinding s t

/-- A first declaration that stores the owner's row reads its id back. -/
def DeclaresWhole (s : State) (a : Action) (_ : State) : Prop :=
  ∀ req, a.event = .declOwner req → s.phase = .noOwner → a.moment.allocs = true →
    a.moment.dbWrites = true → a.moment.dbReads = true

/-- What is stored determines the binding. -/
structure Persisted (s : State) : Prop where
  identified : Identified s
  unbound : s.phase = .noOwner → s.ownerInfo = none ∧ s.db.users = []
  bound : s.phase ≠ .noOwner → ∃ owner, s.ownerInfo = some owner ∧
    (1, owner.did) ∈ accounts s.db.users
  documents : s.didStore.documents = s.feedsDoc.toList
  roots : s.feedsDoc ≠ none → s.didStore.rootIdentities = true
  imported : s.feedsDoc = none ↔ s.phase = .noOwner ∨ s.phase = .ownerDecled
  credentials : s.didStore.credentials = s.feedsVc.toList
  issued : s.feedsVc = none ↔ s.phase ≠ .vcIssed
  named : ∀ doc ∈ s.feedsDoc, ∀ vc ∈ s.feedsVc, vc.id = ⟨doc.subject, vcFrag⟩

theorem Persisted.init : Persisted State.init where
  identified := Identified.init
  unbound _ := ⟨rfl, rfl⟩
  bound hphase := absurd rfl hphase
  documents := rfl
  roots hdoc := absurd rfl hdoc
  imported := by simp [State.init]
  credentials := rfl
  issued := by simp [State.init]
  named _ hdoc := by cases hdoc

/-- Within a phase before the import there is no credential either. -/
theorem Persisted.no_credential (h : Persisted s)
    (hphase : s.phase = .noOwner ∨ s.phase = .ownerDecled) :
    s.feedsDoc = none ∧ s.feedsVc = none := by
  refine ⟨h.imported.mpr hphase, h.issued.mpr ?_⟩
  rcases hphase with hphase | hphase <;> simp [hphase]

/-! ### The first declaration -/

section First

variable {db db' : Db} {ui : AuthUser} {uid : ℤ}

theorem insertUser_first (hempty : db.users = []) (hwrites : m.dbWrites = true) :
    ∃ db', insertUser m db ui = some db' ∧ accounts db'.users = [(1, ui.did)] := by
  have hroom : nextUserId db.users m.skipped ≤ maxRowid := by
    rw [hempty, nextUserId_nil, maxRowid]
    omega
  obtain ⟨db', hinsert⟩ := Option.isSome_iff_exists.mp
    ((insertUser_isSome m db ui).mpr ⟨hwrites, .inr hroom⟩)
  refine ⟨db', hinsert, ?_⟩
  rcases insertUser_eq_some hinsert with ⟨⟨uid, huid⟩, -⟩ | ⟨-, happend⟩
  · rw [hempty] at huid
    cases huid
  · rw [happend, hempty, nextUserId_nil]
    rfl

theorem dbUpsertUser_unwritten (hwrites : m.dbWrites ≠ true) :
    dbUpsertUser m db ui = (db, none) := by
  have hnone : insertUser m db ui = none := by
    rw [← Option.not_isSome_iff_eq_none, insertUser_isSome]
    exact fun hsome => hwrites hsome.1
  simp only [dbUpsertUser, hnone]

/-- The row is stored, whether or not its id is read back. -/
theorem dbUpsertUser_first (hempty : db.users = []) (hwrites : m.dbWrites = true) :
    ∃ db', accounts db'.users = [(1, ui.did)] ∧
      dbUpsertUser m db ui = (db', selectUserId m db' ui.did) := by
  obtain ⟨db', hinsert, haccounts⟩ := insertUser_first hempty hwrites
  exact ⟨db', haccounts, by simp only [dbUpsertUser, hinsert]⟩

theorem selectUserId_eq_none (hreads : m.dbReads = true)
    (hmem : (uid, ui.did) ∈ accounts db.users) :
    selectUserId m db ui.did ≠ none := by
  obtain ⟨row, hrow, -, hdid⟩ := mem_accounts.mp hmem
  rw [selectUserId, if_pos hreads, ne_eq, Option.map_eq_none_iff, List.find?_eq_none]
  exact fun hnone => hnone row hrow (by simpa using hdid)

/-- What is stored when the first declaration succeeds. -/
theorem accounts_of_declared (hempty : db.users = [])
    (hresult : dbUpsertUser m db ui = (db', some uid)) : accounts db'.users = [(1, ui.did)] := by
  by_cases hwrites : m.dbWrites = true
  · obtain ⟨db'', haccounts, hfirst⟩ := @dbUpsertUser_first m db ui hempty hwrites
    rw [hfirst, Prod.mk.injEq] at hresult
    rw [← hresult.1, haccounts]
  · rw [dbUpsertUser_unwritten hwrites, Prod.mk.injEq] at hresult
    cases hresult.2

/-- A declaration that fails stores nothing unless it is the reading back that fails. -/
theorem db_of_declareFailed (hempty : db.users = [])
    (hwhole : m.dbWrites = true → m.dbReads = true)
    (hresult : dbUpsertUser m db ui = (db', none)) : db' = db := by
  by_cases hwrites : m.dbWrites = true
  · obtain ⟨db'', haccounts, hfirst⟩ := @dbUpsertUser_first m db ui hempty hwrites
    rw [hfirst, Prod.mk.injEq] at hresult
    have hmem : (1, ui.did) ∈ accounts db''.users := by
      rw [haccounts]
      exact List.mem_singleton_self _
    exact absurd hresult.2 (selectUserId_eq_none (hwhole hwrites) hmem)
  · rw [dbUpsertUser_unwritten hwrites, Prod.mk.injEq] at hresult
    exact hresult.1.symm

end First

/-- Storing a credential replaces the one there is. -/
theorem Persisted.credentials_stored (h : Persisted s) {doc : DidDocument} {vc : Credential}
    (hdoc : s.feedsDoc = some doc) (hid : vc.id = ⟨doc.subject, vcFrag⟩) :
    (s.didStore.storeCredential vc).credentials = [vc] := by
  rw [DidStore.storeCredential, KeyedTable.put, h.credentials, List.filter_eq_nil_iff.mpr]
  · rfl
  · intro other hother
    have hsame := h.named doc hdoc other (Option.mem_toList.mp hother)
    simp [hsame, hid]

theorem Persisted.step (h : Persisted s) (hstep : BindingStep host s a t)
    (hwhole : DeclaresWhole s a t) : Persisted t := by
  have hidentified := h.identified.step hstep.2
  cases hstep.advance with
  | same => exact h
  | declared hphase hresult =>
      obtain ⟨-, hempty⟩ := h.unbound hphase
      obtain ⟨hdoc, hvc⟩ := h.no_credential (.inl hphase)
      have haccounts := accounts_of_declared hempty hresult
      exact {
        identified := hidentified
        unbound := by simp
        bound := fun _ => ⟨_, rfl, by rw [haccounts]; exact List.mem_singleton_self _⟩
        documents := h.documents
        roots := h.roots
        imported := by simp [hdoc]
        credentials := h.credentials
        issued := by simp [hvc]
        named := h.named }
  | declareFailed hevent hphase hallocs hresult =>
      obtain ⟨hnone, hempty⟩ := h.unbound hphase
      have hsame := db_of_declareFailed hempty (hwhole _ hevent hphase hallocs) hresult
      rw [hsame]
      exact {
        identified := h.identified
        unbound := fun _ => ⟨rfl, hempty⟩
        bound := fun hbound => absurd hphase hbound
        documents := h.documents
        roots := h.roots
        imported := h.imported
        credentials := h.credentials
        issued := h.issued
        named := h.named }
  | importFailed hphase =>
      have hnone := h.no_credential (.inr hphase)
      exact {
        identified := hidentified
        unbound := by simp [hphase]
        bound := h.bound
        documents := by rw [← hnone.1]; exact h.documents
        roots := fun hdoc => absurd rfl hdoc
        imported := by simp [hphase]
        credentials := h.credentials
        issued := h.issued
        named := fun _ hdoc => by cases hdoc }
  | @imported doc hphase =>
      obtain ⟨hdoc, hvc⟩ := h.no_credential (.inr hphase)
      exact {
        identified := hidentified
        unbound := by simp
        bound := fun _ => h.bound (by simp [hphase])
        documents := by
          have hempty := h.documents
          rw [hdoc] at hempty
          simp [hempty]
        roots := fun _ => rfl
        imported := by simp
        credentials := h.credentials
        issued := by simp [hvc]
        named := fun _ _ vc hmem => by
          rw [hvc] at hmem
          cases hmem }
  | @credentialed doc vc hphase hdoc hvalid hfits =>
      have hid : vc.id = ⟨doc.subject, vcFrag⟩ := by
        simp only [vcFits, decide_eq_true_eq] at hfits
        exact hfits.1
      have hbound : s.phase ≠ .noOwner := by
        rcases hphase with hphase | hphase <;> simp [hphase]
      exact {
        identified := hidentified
        unbound := by simp
        bound := fun _ => h.bound hbound
        documents := h.documents
        roots := h.roots
        imported := by simp [hdoc]
        credentials := h.credentials_stored hdoc hid
        issued := by simp
        named := fun doc' hdoc' vc' hvc' => by
          rw [hdoc, Option.mem_some_iff] at hdoc'
          obtain rfl := Option.mem_some_iff.mp hvc'
          rw [← hdoc', hid] }

theorem dbGetOwner_unbound {db : Db} (hreads : m.dbReads = true) (hempty : db.users = []) :
    dbGetOwner m db = some none := by
  rw [dbGetOwner, if_pos hreads, hempty]
  rfl

theorem dbGetOwner_bound {db : Db} {did : String} (hreads : m.dbReads = true)
    (hsound : AccountsSound db.users) (howner : (1, did) ∈ accounts db.users) :
    ∃ ui, dbGetOwner m db = some (some ui) ∧ ui.did = did := by
  cases hfound : dbGetOwner m db with
  | none => rw [dbGetOwner, if_pos hreads] at hfound; cases hfound
  | some found =>
      rcases dbGetOwner_eq_some hfound with ⟨-, hnobody⟩ | ⟨ui, rfl, hui⟩
      · exact absurd howner (hnobody did)
      · exact ⟨ui, rfl, hsound.did_eq hui howner⟩

/-- The DID that is listed is the one in memory. -/
theorem Persisted.loaded_doc (h : Persisted s) (hinit : DidInitSucceeds m loaded s.didStore) :
    loaded.feedsDoc = s.feedsDoc := by
  have hdocuments := h.documents
  obtain ⟨hroots, hlisted, hlists, -⟩ := hinit.ofStore
  cases hdoc : s.feedsDoc with
  | none =>
      rw [hdoc, Option.toList_none] at hdocuments
      have hnone : loaded.document = none := by
        rw [Option.eq_none_iff_forall_not_mem]
        intro doc hmem
        simpa [hdocuments] using hlisted doc hmem
      simp [Loaded.feedsDoc, hnone]
  | some doc =>
      rw [hdoc, Option.toList_some] at hdocuments
      obtain ⟨doc', hdocument⟩ := Option.ne_none_iff_exists'.mp (hlists (by simp [hdocuments]))
      have hmem := hlisted doc' hdocument
      rw [hdocuments, List.mem_singleton] at hmem
      simp [Loaded.feedsDoc, hroots, h.roots (by simp [hdoc]), hdocument, hmem]

/-- The credential that is loaded is the one in memory. -/
theorem Persisted.loaded_vc (h : Persisted s) (hinit : DidInitSucceeds m loaded s.didStore)
    {doc : DidDocument} (hdoc : s.feedsDoc = some doc) :
    loaded.credential = s.feedsVc := by
  have hcredentials := h.credentials
  have hloaded := h.loaded_doc hinit
  rw [hdoc, Loaded.feedsDoc, Option.ite_none_right_eq_some] at hloaded
  rw [hinit.ofStore.loads doc hloaded.2]
  cases hvc : s.feedsVc with
  | none =>
      rw [hvc, Option.toList_none] at hcredentials
      simp [KeyedTable.get, hcredentials]
  | some vc =>
      rw [hvc, Option.toList_some] at hcredentials
      simp [KeyedTable.get, hcredentials, h.named doc hdoc vc hvc]

theorem Persisted.recovers (h : Persisted s) : Recovers s := by
  intro m loaded hinit
  have hdoc := h.loaded_doc hinit
  by_cases hphase : s.phase = .noOwner
  · obtain ⟨howner, hempty⟩ := h.unbound hphase
    obtain ⟨hnodoc, hnovc⟩ := h.no_credential (.inl hphase)
    have hnobody := dbGetOwner_unbound hinit.reads hempty
    refine ⟨_, by simp only [restart, hinit.allocs, hinit.opens, hnobody]; rfl, ?_⟩
    exact ⟨hphase.symm, by simp [State.ownerDid, State.init, howner],
      by simp [State.feedsDid, State.init, hnodoc], hnovc.symm⟩
  · obtain ⟨owner, howner, hfirst⟩ := h.bound hphase
    obtain ⟨ui, hfound, hdid⟩ := dbGetOwner_bound hinit.reads h.identified hfirst
    have howned : some ui.did = s.ownerDid := by
      rw [State.ownerDid, howner, hdid, Option.map_some]
    cases hfeeds : s.feedsDoc with
    | none =>
        have hdecled : s.phase = .ownerDecled := (h.imported.mp hfeeds).resolve_left hphase
        rw [hfeeds] at hdoc
        refine ⟨_, by simp only [restart, hinit.allocs, hinit.opens, hfound, hdoc]; rfl, ?_⟩
        exact ⟨hdecled.symm, howned, by simp [State.feedsDid, State.init, hfeeds],
          (h.no_credential (.inr hdecled)).2.symm⟩
    | some doc =>
        have hvc := h.loaded_vc hinit hfeeds
        have himported : s.phase ≠ .ownerDecled := fun hdecled => by
          rw [(h.no_credential (.inr hdecled)).1] at hfeeds
          cases hfeeds
        rw [hfeeds] at hdoc
        cases hcredential : s.feedsVc with
        | none =>
            have hnot := h.issued.mp hcredential
            rw [hcredential] at hvc
            refine ⟨_, by
              simp only [restart, hinit.allocs, hinit.opens, hfound, hdoc, hvc]
              rfl, ?_⟩
            refine ⟨?_, howned, by simp [State.feedsDid, hfeeds], hcredential.symm⟩
            cases hcase : s.phase with
            | noOwner => exact absurd hcase hphase
            | ownerDecled => exact absurd hcase himported
            | didImped => rfl
            | vcIssed => exact absurd hcase hnot
        | some vc =>
            have hissued : s.phase = .vcIssed := by
              by_contra hnot
              rw [h.issued.mpr hnot] at hcredential
              cases hcredential
            rw [hcredential] at hvc
            refine ⟨_, by
              simp only [restart, hinit.allocs, hinit.opens, hfound, hdoc, hvc]
              rfl, ?_⟩
            exact ⟨hissued.symm, howned, by simp [State.feedsDid, hfeeds], hcredential.symm⟩

/-- Once the row is stored and its id is not read back, a restart finds an owner where
memory has none. -/
theorem not_recovers_of (h : Persisted s) (hstep : BindingStep host s a t)
    (hwhole : ¬ DeclaresWhole s a t) : ¬ Recovers t := by
  intro hrecovers
  refine hwhole fun req hevent hphase hallocs hwrites => ?_
  by_contra hreads
  obtain ⟨-, hempty⟩ := h.unbound hphase
  obtain ⟨db, haccounts, hupsert⟩ :=
    @dbUpsertUser_first a.moment s.db ⟨ownerUserId, req.ownerDid, "NA", "NA"⟩ hempty hwrites
  rw [selectUserId, if_neg hreads] at hupsert
  have hnext := hstep.2
  rw [Step, Performs, next, hevent] at hnext
  obtain rfl := Option.some.inj hnext
  have ht : (hdlDeclOwnerReq a.moment s req).1 = { s with db := db, ownerInfo := none } := by
    simp [hdlDeclOwnerReq, hphase, hallocs, hupsert]
  rw [ht] at hrecovers
  have hunmade : s.didStore.documents = [] := by
    rw [h.documents, (h.no_credential (.inl hphase)).1]
    rfl
  have hinit : DidInitSucceeds { now := 0 } ⟨s.didStore.rootIdentities, none, none⟩ s.didStore := {
    allocs := rfl
    opens := rfl
    reads := rfl
    ofStore := {
      roots := rfl
      listed := by simp
      lists := fun hsome => absurd hunmade hsome
      loads := by simp } }
  obtain ⟨t, hrestart, hsame⟩ := hrecovers _ _ hinit
  rcases (restart_eq_some hrestart).owner with ⟨-, -, -, hnobody⟩ | ⟨-, hbound, -⟩
  · refine hnobody req.ownerDid ?_
    dsimp only
    rw [haccounts]
    exact List.mem_singleton_self _
  · exact hbound (hsame.phase.trans hphase)

theorem recovers_iff (host : Host) (actions : List Action) :
    Always (BindingStep host) Recovers State.init actions ↔
      EachStep (BindingStep host) DeclaresWhole State.init actions :=
  always_iff_eachStep Persisted (fun _ _ _ h hstep hwhole => h.step hstep hwhole)
    (fun _ h => h.recovers) (fun _ _ _ h hstep hwhole => not_recovers_of h hstep hwhole)
    Persisted.init actions

/-- The first declaration, when the id of the new row is not read back. -/
def unreadDeclaration : Action :=
  ⟨{ now := 1000, dbReads := false }, .declOwner ⟨1, "", "did:owner", none⟩⟩

/-- The owner gets an error, and after a restart he owns the service. -/
theorem not_always_recovers :
    ¬ Always (BindingStep trustingHost) Recovers State.init [unreadDeclaration] := by
  rw [recovers_iff]
  intro hwhole
  obtain ⟨hdeclares, -⟩ := hwhole _ ⟨trivial, rfl⟩
  exact absurd (hdeclares _ rfl rfl rfl rfl) (by decide)

end Recovery

end FeedsService.Auth
