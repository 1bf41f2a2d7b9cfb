import FeedsService.Auth.State

/-!
# The users of the database

The functions of `db.cpp` that signing in calls.  Of a row only the user id and
the DID matter to who somebody is: the list of these pairs only ever grows, by one
pair with the next `AUTOINCREMENT` id for a DID that has none.
-/

namespace FeedsService.Auth

open FeedsService.Library FeedsService.Feeds

section Model

variable (m : Moment) (s : State)

/-- The largest id that SQLite gives out. -/
def maxRowid : ℤ :=
  2 ^ 63 - 1

/-- The largest user id so far. -/
def lastUserId (users : List UserRow) : ℤ :=
  (users.map UserRow.userId).foldr max 0

/-- `AUTOINCREMENT` starts at 1 and then goes beyond every id given before. -/
def nextUserId (users : List UserRow) (skipped : ℕ) : ℤ :=
  if users = [] then 1 else lastUserId users + 1 + skipped

/-- The id of the row that `db_upsert_user` leaves for a DID. -/
def userIdFor (users : List UserRow) (did : String) (skipped : ℕ) : ℤ :=
  match users.find? fun row => row.did = did with
  | some row => row.userId
  | none => nextUserId users skipped

/-- The `INSERT` of `db_upsert_user`, which needs an id for a new row. -/
def insertUser (db : Db) (ui : AuthUser) : Option Db :=
  if m.dbWrites ∧ ((db.users.any fun row => row.did = ui.did) ∨
      nextUserId db.users m.skipped ≤ maxRowid) then
    Feeds.dbUpsertUser db ui.info m.now (nextUserId db.users m.skipped)
  else
    none

/-- `SELECT user_id FROM users WHERE did = :did`. -/
def selectUserId (db : Db) (did : String) : Option ℤ :=
  if m.dbReads then
    (db.users.find? fun row => row.did = did).map UserRow.userId
  else
    none

/-- `db_upsert_user`; the row stays when the `SELECT` fails. -/
def dbUpsertUser (db : Db) (ui : AuthUser) : Db × Option ℤ :=
  match insertUser m db ui with
  | none => (db, none)
  | some db' => (db', selectUserId m db' ui.did)

/-- `db_get_owner`: none when it fails, else the user 1 if there is one. -/
def dbGetOwner (db : Db) : Option (Option AuthUser) :=
  if m.dbReads then
    some ((db.users.find? fun row => row.userId = 1).map fun row =>
      ⟨1, row.did, row.name, row.email⟩)
  else
    none

/-- `db_need_upsert_user`, whose failure counts as yes. -/
def dbNeedUpsertUser (db : Db) (did : String) : Bool :=
  ¬ (m.dbReads ∧ db.users.any fun row => row.did = did ∧ row.name ≠ "NA")

/-- `db_get_user`: none when it fails. -/
def dbGetUser (db : Db) (did : String) : Option (Option AuthUser) :=
  if m.dbReads then
    some ((db.users.find? fun row => row.did = did).map fun row =>
      ⟨row.userId, row.did, row.name, row.email⟩)
  else
    none

/-- `oinfo_upd` when the DID is the owner's: name and email are replaced. -/
def oinfoUpdIfOwner (ui : AuthUser) : Option State :=
  match s.ownerInfo with
  | none => some s
  | some owner =>
      if ui.did = owner.did then
        if m.allocs then
          some { s with ownerInfo := some { owner with name := ui.name, email := ui.email } }
        else
          none
      else
        some s

end Model

section Accounts

variable {m : Moment} {users : List UserRow} {skipped : ℕ}

/-- The user ids and DIDs of the rows. -/
def accounts (users : List UserRow) : List (ℤ × String) :=
  users.map fun row => (row.userId, row.did)

theorem mem_accounts {uid : ℤ} {did : String} :
    (uid, did) ∈ accounts users ↔ ∃ row ∈ users, row.userId = uid ∧ row.did = did := by
  simp [accounts]

theorem accounts_eq_nil : accounts users = [] ↔ users = [] :=
  List.map_eq_nil_iff

theorem le_lastUserId {row : UserRow} (hrow : row ∈ users) : row.userId ≤ lastUserId users := by
  induction users with
  | nil => cases hrow
  | cons first users ih =>
      rcases List.mem_cons.mp hrow with rfl | hrow
      · exact le_max_left _ _
      · exact (ih hrow).trans (le_max_right _ _)

/-- `AUTOINCREMENT` never gives out an id twice. -/
theorem lt_nextUserId {row : UserRow} (hrow : row ∈ users) :
    row.userId < nextUserId users skipped := by
  have hle := le_lastUserId hrow
  rw [nextUserId, if_neg (List.ne_nil_of_mem hrow)]
  omega

theorem nextUserId_nil : nextUserId [] skipped = 1 :=
  rfl

/-- The next id follows on the largest. -/
theorem nextUserId_eq {uid : ℤ} {did : String} (hlast : (uid, did) ∈ accounts users)
    (hpositive : 0 ≤ uid) (hbound : ∀ row ∈ users, row.userId ≤ uid) :
    nextUserId users skipped = uid + 1 + skipped := by
  obtain ⟨row, hrow, rfl, -⟩ := mem_accounts.mp hlast
  have hle : ∀ rows : List UserRow, (∀ other ∈ rows, other.userId ≤ row.userId) →
      lastUserId rows ≤ row.userId := by
    intro rows hrows
    induction rows with
    | nil => exact hpositive
    | cons first rows ih =>
        exact max_le (hrows first List.mem_cons_self)
          (ih fun other hother => hrows other (List.mem_cons_of_mem _ hother))
  rw [nextUserId, if_neg (List.ne_nil_of_mem hrow),
    le_antisymm (hle users hbound) (le_lastUserId hrow)]

/-- Who has which user id: ids and DIDs identify each other, and the first user has
the id 1. -/
structure AccountsSound (users : List UserRow) : Prop where
  ids : ((accounts users).map Prod.fst).Nodup
  dids : ((accounts users).map Prod.snd).Nodup
  first : users ≠ [] → ∃ did, (1, did) ∈ accounts users

theorem AccountsSound.nil : AccountsSound [] :=
  ⟨List.nodup_nil, List.nodup_nil, fun h => absurd rfl h⟩

theorem AccountsSound.did_eq (h : AccountsSound users) {uid : ℤ} {did did' : String}
    (hdid : (uid, did) ∈ accounts users) (hdid' : (uid, did') ∈ accounts users) : did = did' :=
  congrArg Prod.snd (List.inj_on_of_nodup_map h.ids hdid hdid' rfl)

theorem AccountsSound.uid_eq (h : AccountsSound users) {uid uid' : ℤ} {did : String}
    (huid : (uid, did) ∈ accounts users) (huid' : (uid', did) ∈ accounts users) : uid = uid' :=
  congrArg Prod.fst (List.inj_on_of_nodup_map h.dids huid huid' rfl)

/-- The accounts after a new user got the next id. -/
theorem AccountsSound.append (h : AccountsSound users) {users' : List UserRow} {did : String}
    (hnew : ∀ uid, (uid, did) ∉ accounts users)
    (haccounts : accounts users' = accounts users ++ [(nextUserId users skipped, did)]) :
    AccountsSound users' where
  ids := by
    rw [haccounts, List.map_append, List.nodup_append]
    refine ⟨h.ids, List.nodup_singleton _, fun uid huid uid' huid' => ?_⟩
    obtain ⟨⟨uid, other⟩, hother, rfl⟩ := List.mem_map.mp huid
    obtain ⟨row, hrow, rfl, -⟩ := mem_accounts.mp hother
    rw [List.mem_singleton.mp huid']
    exact (lt_nextUserId hrow).ne
  dids := by
    rw [haccounts, List.map_append, List.nodup_append]
    refine ⟨h.dids, List.nodup_singleton _, fun other hother did' hdid' => ?_⟩
    obtain ⟨⟨uid, other⟩, hmem, rfl⟩ := List.mem_map.mp hother
    rw [List.mem_singleton.mp hdid']
    rintro rfl
    exact hnew uid hmem
  first _ := by
    rw [haccounts]
    by_cases hempty : users = []
    · subst hempty
      exact ⟨did, by simp [accounts, nextUserId_nil]⟩
    · obtain ⟨other, hother⟩ := h.first hempty
      exact ⟨other, List.mem_append_left _ hother⟩

theorem AccountsSound.congr (h : AccountsSound users) {users' : List UserRow}
    (haccounts : accounts users' = accounts users) : AccountsSound users' where
  ids := haccounts ▸ h.ids
  dids := haccounts ▸ h.dids
  first hnonempty := by
    rw [haccounts]
    refine h.first fun hempty => hnonempty ?_
    rw [← accounts_eq_nil, haccounts, hempty]
    rfl

end Accounts

section Upsert

variable {m : Moment} {db db' : Db} {ui : AuthUser} {uid : ℤ}

theorem any_did_iff {users : List UserRow} {did : String} :
    (users.any fun row => row.did = did) = true ↔ ∃ uid, (uid, did) ∈ accounts users := by
  simp [accounts]

/-- What the `INSERT` does to the accounts. -/
theorem insertUser_eq_some (h : insertUser m db ui = some db') :
    ((∃ uid, (uid, ui.did) ∈ accounts db.users) ∧ accounts db'.users = accounts db.users) ∨
      ((∀ uid, (uid, ui.did) ∉ accounts db.users) ∧
        accounts db'.users =
          accounts db.users ++ [(nextUserId db.users m.skipped, ui.did)]) := by
  rw [insertUser] at h
  split at h
  · unfold Feeds.dbUpsertUser at h
    split at h
    · next hexists =>
        obtain rfl := Option.some.inj h
        refine .inl ⟨any_did_iff.mp hexists, ?_⟩
        rw [accounts, accounts, updateWhere, List.map_map]
        refine List.map_congr_left fun row _ => ?_
        rw [Function.comp_apply]
        split <;> rfl
    · next hnew =>
        split at h
        · cases h
        · obtain rfl := Option.some.inj h
          refine .inr ⟨fun uid huid => hnew (any_did_iff.mpr ⟨uid, huid⟩), ?_⟩
          rw [accounts, accounts, List.map_append]
          rfl
  · cases h

theorem insertUser_isSome (m : Moment) (db : Db) (ui : AuthUser) :
    (insertUser m db ui).isSome ↔
      m.dbWrites = true ∧ ((∃ uid, (uid, ui.did) ∈ accounts db.users) ∨
        nextUserId db.users m.skipped ≤ maxRowid) := by
  have hfresh : (db.users.any fun row => row.userId = nextUserId db.users m.skipped) = false := by
    rw [List.any_eq_false]
    intro row hrow
    simpa using (lt_nextUserId hrow).ne
  rw [insertUser, ← any_did_iff]
  split
  · next hok =>
      refine iff_of_true ?_ hok
      unfold Feeds.dbUpsertUser
      split
      · rfl
      · split
        · next hany => simp [hfresh] at hany
        · rfl
  · next hnot => exact iff_of_false (by simp) hnot

theorem AccountsSound.insertUser (h : AccountsSound db.users)
    (hinsert : insertUser m db ui = some db') : AccountsSound db'.users := by
  rcases insertUser_eq_some hinsert with ⟨-, hsame⟩ | ⟨hnew, happend⟩
  · exact h.congr hsame
  · exact h.append hnew happend

/-- Accounts are never lost. -/
theorem accounts_subset_insertUser (hinsert : insertUser m db ui = some db') :
    accounts db.users ⊆ accounts db'.users := by
  rcases insertUser_eq_some hinsert with ⟨-, hsame⟩ | ⟨-, happend⟩
  · exact hsame ▸ List.Subset.refl _
  · exact happend ▸ List.subset_append_left _ _

theorem selectUserId_eq_some (h : selectUserId m db ui.did = some uid) :
    (uid, ui.did) ∈ accounts db.users := by
  rw [selectUserId] at h
  split at h
  · obtain ⟨row, hrow, rfl⟩ := Option.map_eq_some_iff.mp h
    exact mem_accounts.mpr ⟨row, List.mem_of_find?_eq_some hrow, rfl,
      by simpa using List.find?_some hrow⟩
  · cases h

/-- After the `INSERT` the DID has the id that `userIdFor` foretells. -/
theorem userIdFor_mem (hinsert : insertUser m db ui = some db') :
    (userIdFor db.users ui.did m.skipped, ui.did) ∈ accounts db'.users := by
  unfold userIdFor
  split
  · next row hfind =>
      refine accounts_subset_insertUser hinsert (mem_accounts.mpr ⟨row, ?_, rfl, ?_⟩)
      · exact List.mem_of_find?_eq_some hfind
      · simpa using List.find?_some hfind
  · next hnone =>
      rcases insertUser_eq_some hinsert with ⟨⟨uid, huid⟩, -⟩ | ⟨-, happend⟩
      · obtain ⟨row, hrow, -, hdid⟩ := mem_accounts.mp huid
        exact absurd hdid (by simpa using List.find?_eq_none.mp hnone row hrow)
      · rw [happend]
        exact List.mem_append_right _ (List.mem_singleton_self _)

/-- What `db_upsert_user` leaves behind. -/
theorem dbUpsertUser_db (m : Moment) (db : Db) (ui : AuthUser) :
    (dbUpsertUser m db ui).1 = db ∨ insertUser m db ui = some (dbUpsertUser m db ui).1 := by
  unfold dbUpsertUser
  split
  · exact .inl rfl
  · next hinsert => exact .inr hinsert

theorem dbUpsertUser_uid (h : dbUpsertUser m db ui = (db', some uid)) :
    insertUser m db ui = some db' ∧ (uid, ui.did) ∈ accounts db'.users := by
  unfold dbUpsertUser at h
  split at h
  · cases h
  · next hinsert =>
      obtain ⟨rfl, hselect⟩ := Prod.mk.inj h
      exact ⟨hinsert, selectUserId_eq_some hselect⟩

/-- `db_upsert_user` succeeds unless a statement fails or the ids are used up. -/
theorem dbUpsertUser_eq_some (h : AccountsSound db.users) :
    (dbUpsertUser m db ui).2 = some uid ↔
      (m.DbCallsSucceed ∧ ((∃ uid, (uid, ui.did) ∈ accounts db.users) ∨
        nextUserId db.users m.skipped ≤ maxRowid)) ∧
        uid = userIdFor db.users ui.did m.skipped := by
  unfold dbUpsertUser
  split
  · next hnone =>
      have hnot := insertUser_isSome m db ui
      rw [hnone] at hnot
      refine iff_of_false (by simp) fun hok => ?_
      exact absurd (hnot.mpr ⟨hok.1.1.1, hok.1.2⟩) (by simp)
  · next db' hinsert =>
      have hok := (insertUser_isSome m db ui).mp (Option.isSome_iff_exists.mpr ⟨db', hinsert⟩)
      have hmem := userIdFor_mem hinsert
      constructor
      · intro hselect
        refine ⟨⟨⟨hok.1, ?_⟩, hok.2⟩, ?_⟩
        · by_contra hreads
          rw [selectUserId, if_neg hreads] at hselect
          cases hselect
        · exact (h.insertUser hinsert).uid_eq (selectUserId_eq_some hselect) hmem
      · rintro ⟨⟨⟨-, hreads⟩, -⟩, rfl⟩
        obtain ⟨row, hrow, huid, hdid⟩ := mem_accounts.mp hmem
        cases hselect : selectUserId m db' ui.did with
        | none =>
            rw [selectUserId, if_pos hreads, Option.map_eq_none_iff, List.find?_eq_none] at hselect
            exact absurd hdid (by simpa using hselect row hrow)
        | some uid =>
            rw [(h.insertUser hinsert).uid_eq (selectUserId_eq_some hselect) hmem]

end Upsert

section Owner

variable {m : Moment} {s s' : State} {ui : AuthUser}

/-- The owner's record keeps its DID. -/
theorem oinfoUpdIfOwner_eq_some (h : oinfoUpdIfOwner m s ui = some s') :
    ∃ owner, s' = { s with ownerInfo := owner } ∧
      owner.map AuthUser.did = s.ownerInfo.map AuthUser.did := by
  unfold oinfoUpdIfOwner at h
  split at h
  · exact ⟨s.ownerInfo, (Option.some.inj h).symm, rfl⟩
  · next owner howner =>
      split at h
      · split at h
        · exact ⟨_, (Option.some.inj h).symm, by rw [howner]; rfl⟩
        · cases h
      · exact ⟨s.ownerInfo, (Option.some.inj h).symm, rfl⟩

theorem oinfoUpdIfOwner_isSome (m : Moment) (s : State) (ui : AuthUser) :
    (oinfoUpdIfOwner m s ui).isSome ↔
      (s.ownerInfo.map AuthUser.did = some ui.did → m.allocs = true) := by
  unfold oinfoUpdIfOwner
  cases howner : s.ownerInfo with
  | none => simp
  | some owner =>
      by_cases hdid : ui.did = owner.did
      · by_cases hallocs : m.allocs = true <;> simp [hdid, hallocs]
      · simp [hdid, Ne.symm hdid]

end Owner

end FeedsService.Auth
