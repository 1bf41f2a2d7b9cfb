import FeedsService.Sql.Mutators

/-!
# Atomicity of the functions that change a table

What each function does when nothing fails, and that it leaves the tables alone
when it returns -1.  The exception is `db_upsert_user`: when its `SELECT` fails,
the row that its `INSERT` wrote stays.
-/

namespace FeedsService.Sql

open FeedsService.Library FeedsService.Library.Transactions FeedsService.Feeds

/-! ## Without faults -/

section Refinement

theorem carriesOut_dbCreateChan (ci : ChanInfo) :
    CarriesOut (dbCreateChan ci) fun db => (Feeds.dbCreateChan db ci).map fun db => ((), db) :=
  carriesOut_of_computes (restores_execute _ _) (computes_execute _)

theorem carriesOut_dbUpdChan (ci : ChanInfo) :
    CarriesOut (dbUpdChan ci) fun db => (Feeds.dbUpdChan db ci).map fun db => ((), db) :=
  carriesOut_of_computes (restores_execute _ _) (computes_execute _)

theorem carriesOut_dbAddPost (pi : PostInfo) :
    CarriesOut (dbAddPost pi) fun db => (Feeds.dbAddPost db pi).map fun db => ((), db) := by
  apply CarriesOut.congr (carriesOut_transaction
    (keeps_bind (keeps_execute _) fun _ => keeps_execute _)
    (computes_bind (computes_execute _) fun _ => computes_execute _))
  intro db
  by_cases hexists : db.posts.any (PostRow.at pi.chanId pi.postId) = true
  · simp only [insertPost, Feeds.dbAddPost, if_pos hexists, Option.map_none, Option.bind_none]
  · simp only [insertPost, Feeds.dbAddPost, if_neg hexists, Option.map_some, Option.bind_some,
      bumpNextPostId]

theorem carriesOut_dbUpdPost (pi : PostInfo) :
    CarriesOut (dbUpdPost pi) fun db => Feeds.dbUpdPost db pi :=
  carriesOut_transaction (keeps_bind (keeps_execute _) fun _ => keeps_statement _)
    (computes_bind (computes_execute _) fun _ => computes_statement _)

theorem carriesOut_dbSetPostStatus (pi : PostInfo) :
    CarriesOut (dbSetPostStatus pi) fun db => Feeds.dbSetPostStatus db pi :=
  carriesOut_transaction (keeps_bind (keeps_execute _) fun _ => keeps_statement _)
    (computes_bind (computes_execute _) fun _ => computes_statement _)

theorem carriesOut_dbAddCmt (ci : CmtInfo) :
    CarriesOut (dbAddCmt ci) fun db => Feeds.dbAddCmt db ci := by
  apply CarriesOut.congr (carriesOut_transaction
    (keeps_bind (keeps_execute _) fun _ => keeps_bind (keeps_execute _) fun _ => keeps_query _)
    (computes_bind (computes_execute _) fun _ =>
      computes_bind (computes_execute _) fun _ => computes_query _))
  intro db
  rw [Feeds.dbAddCmt, insertCmt]
  cases db.posts.find? (PostRow.at ci.chanId ci.postId) with
  | none => rfl
  | some post =>
      dsimp only
      split
      · rfl
      · simp [bumpNextCommentId, selectCmtId, Function.comp_def]

theorem carriesOut_dbUpdCmt (ci : CmtInfo) :
    CarriesOut (dbUpdCmt ci) fun db => Feeds.dbUpdCmt db ci := by
  apply CarriesOut.congr (carriesOut_transaction
    (keeps_bind (keeps_execute _) fun _ => keeps_query _)
    (computes_bind (computes_execute _) fun _ => computes_query _))
  intro db
  simp [Feeds.dbUpdCmt, selectCmt, updateComments, Function.comp_def]

theorem carriesOut_dbSetCmtStatus (ci : CmtInfo) :
    CarriesOut (dbSetCmtStatus ci) fun db => Feeds.dbSetCmtStatus db ci := by
  apply CarriesOut.congr (carriesOut_transaction
    (keeps_bind (keeps_execute _) fun _ => keeps_query _)
    (computes_bind (computes_execute _) fun _ => computes_query _))
  intro db
  simp [Feeds.dbSetCmtStatus, selectCmt, updateComments, Function.comp_def]

theorem carriesOut_dbAddLike (userId channelId postId commentId : ℤ) (proof : String)
    (now : ℤ) :
    CarriesOut (dbAddLike userId channelId postId commentId proof now) fun db =>
      Feeds.dbAddLike db userId channelId postId commentId proof now := by
  apply CarriesOut.congr (carriesOut_transaction
    (keeps_bind (keeps_execute _) fun _ => keeps_bind (keeps_execute _) fun _ => keeps_query _)
    (computes_bind (computes_execute _) fun _ =>
      computes_bind (computes_execute _) fun _ => computes_query _))
  intro db
  by_cases hexists : db.likes.any (LikeRow.at userId channelId postId commentId) = true
  · simp only [insertLike, Feeds.dbAddLike, updLikes_likes, if_pos hexists, Option.map_some,
      Option.bind_some, Option.map_none, Option.bind_none]
  · simp only [insertLike, Feeds.dbAddLike, updLikes_likes, if_neg hexists, Option.map_some,
      Option.bind_some]

theorem carriesOut_dbRmLike (userId channelId postId commentId : ℤ) :
    CarriesOut (dbRmLike userId channelId postId commentId) fun db =>
      some ((), Feeds.dbRmLike db userId channelId postId commentId) :=
  carriesOut_transaction (keeps_bind (keeps_execute _) fun _ => keeps_execute _)
    (computes_bind (computes_execute _) fun _ => computes_execute _)

theorem carriesOut_dbAddSub (userId channelId : ℤ) (proof : String) (now : ℤ) :
    CarriesOut (dbAddSub userId channelId proof now) fun db =>
      (Feeds.dbAddSub db userId channelId proof now).map fun db => ((), db) := by
  apply CarriesOut.congr (carriesOut_transaction
    (keeps_bind (keeps_execute _) fun _ => keeps_execute _)
    (computes_bind (computes_execute _) fun _ => computes_execute _))
  intro db
  by_cases hexists : db.subscriptions.any (SubscriptionRow.at userId channelId) = true
  · simp only [insertSub, Feeds.dbAddSub, if_pos hexists, Option.map_none, Option.bind_none]
  · simp only [insertSub, Feeds.dbAddSub, if_neg hexists, Option.map_some, Option.bind_some]

theorem carriesOut_dbUnsub (userId channelId : ℤ) :
    CarriesOut (dbUnsub userId channelId) fun db =>
      some ((), Feeds.dbUnsub db userId channelId) :=
  carriesOut_transaction (keeps_bind (keeps_execute _) fun _ => keeps_execute _)
    (computes_bind (computes_execute _) fun _ => computes_execute _)

theorem carriesOut_dbUpdateUserInfo (ui : UserInfo) (now : ℤ) :
    CarriesOut (dbUpdateUserInfo ui now) fun db =>
      (Feeds.dbUpdateUserInfo db ui now).map fun db => ((), db) :=
  carriesOut_of_computes (restores_execute _ _) (computes_execute _)

theorem carriesOut_dbAddReportedCmts (row : ReportedCommentRow) :
    CarriesOut (dbAddReportedCmts row) fun db =>
      some ((), Feeds.dbAddReportedCmts db row) :=
  carriesOut_transaction (keeps_execute _) (computes_execute _)

end Refinement

/-! ## With faults -/

section Restoring

variable (faults : Faults) (db : Db)

theorem restores_dbCreateChan (ci : ChanInfo) : Restores (dbCreateChan ci) faults db :=
  restores_execute _ faults db

theorem restores_dbUpdChan (ci : ChanInfo) : Restores (dbUpdChan ci) faults db :=
  restores_execute _ faults db

theorem restores_dbAddPost (pi : PostInfo) : Restores (dbAddPost pi) faults db :=
  restores_transaction (keeps_bind (keeps_execute _) fun _ => keeps_execute _) faults db

theorem restores_dbUpdPost (pi : PostInfo) : Restores (dbUpdPost pi) faults db :=
  restores_transaction (keeps_bind (keeps_execute _) fun _ => keeps_statement _) faults db

theorem restores_dbSetPostStatus (pi : PostInfo) : Restores (dbSetPostStatus pi) faults db :=
  restores_transaction (keeps_bind (keeps_execute _) fun _ => keeps_statement _) faults db

theorem restores_dbAddCmt (ci : CmtInfo) : Restores (dbAddCmt ci) faults db :=
  restores_transaction (keeps_bind (keeps_execute _) fun _ =>
    keeps_bind (keeps_execute _) fun _ => keeps_query _) faults db

theorem restores_dbUpdCmt (ci : CmtInfo) : Restores (dbUpdCmt ci) faults db :=
  restores_transaction (keeps_bind (keeps_execute _) fun _ => keeps_query _) faults db

theorem restores_dbSetCmtStatus (ci : CmtInfo) : Restores (dbSetCmtStatus ci) faults db :=
  restores_transaction (keeps_bind (keeps_execute _) fun _ => keeps_query _) faults db

theorem restores_dbAddLike (userId channelId postId commentId : ℤ) (proof : String)
    (now : ℤ) :
    Restores (dbAddLike userId channelId postId commentId proof now) faults db :=
  restores_transaction (keeps_bind (keeps_execute _) fun _ =>
    keeps_bind (keeps_execute _) fun _ => keeps_query _) faults db

theorem restores_dbRmLike (userId channelId postId commentId : ℤ) :
    Restores (dbRmLike userId channelId postId commentId) faults db :=
  restores_transaction (keeps_bind (keeps_execute _) fun _ => keeps_execute _) faults db

theorem restores_dbAddSub (userId channelId : ℤ) (proof : String) (now : ℤ) :
    Restores (dbAddSub userId channelId proof now) faults db :=
  restores_transaction (keeps_bind (keeps_execute _) fun _ => keeps_execute _) faults db

theorem restores_dbUnsub (userId channelId : ℤ) :
    Restores (dbUnsub userId channelId) faults db :=
  restores_transaction (keeps_bind (keeps_execute _) fun _ => keeps_execute _) faults db

theorem restores_dbUpdateUserInfo (ui : UserInfo) (now : ℤ) :
    Restores (dbUpdateUserInfo ui now) faults db :=
  restores_execute _ faults db

theorem restores_dbAddReportedCmts (row : ReportedCommentRow) :
    Restores (dbAddReportedCmts row) faults db :=
  restores_transaction (keeps_execute _) faults db

end Restoring

section Faults

/-- The row of the user is there after the `INSERT`. -/
theorem selectUserId_upserted {ui : UserInfo} {now rowid : ℤ} {db db' : Db}
    (hupsert : Feeds.dbUpsertUser db ui now rowid = some db') :
    selectUserId ui.did db' ≠ none := by
  suffices hfound : ∃ row ∈ db'.users, row.did = ui.did by
    obtain ⟨row, hrow, hdid⟩ := hfound
    rw [selectUserId, ne_eq, Option.map_eq_none_iff, List.find?_eq_none]
    exact fun hnone => hnone row hrow (by simpa using hdid)
  unfold Feeds.dbUpsertUser at hupsert
  split at hupsert
  · next hexists =>
      obtain rfl := Option.some.inj hupsert
      obtain ⟨row, hrow, hdid⟩ := List.any_eq_true.mp hexists
      have hdid : row.did = ui.did := by simpa using hdid
      refine ⟨{ row with name := ui.name, email := ui.email }, ?_, hdid⟩
      simp only [updateWhere, List.mem_map]
      exact ⟨row, hrow, by simp [hdid]⟩
  · split at hupsert
    · cases hupsert
    · obtain rfl := Option.some.inj hupsert
      exact ⟨_, List.mem_append_right _ (List.mem_singleton_self _), rfl⟩

/-- The functions that change a table, with their arguments; `now` is `time(NULL)` and
`rowid` the id that SQLite takes for a new row. -/
inductive Mutator
  | createChan (ci : ChanInfo)
  | updChan (ci : ChanInfo)
  | addPost (pi : PostInfo)
  | updPost (pi : PostInfo)
  | setPostStatus (pi : PostInfo)
  | addCmt (ci : CmtInfo)
  | updCmt (ci : CmtInfo)
  | setCmtStatus (ci : CmtInfo)
  | addLike (userId channelId postId commentId : ℤ) (proof : String) (now : ℤ)
  | rmLike (userId channelId postId commentId : ℤ)
  | addSub (userId channelId : ℤ) (proof : String) (now : ℤ)
  | unsub (userId channelId : ℤ)
  | updateUserInfo (ui : UserInfo) (now : ℤ)
  | upsertUser (ui : UserInfo) (now rowid : ℤ)
  | addReportedCmts (row : ReportedCommentRow)

/-- When the function returns -1, the tables are as before and no transaction is open. -/
def Mutator.Atomic (faults : Faults) (db : Db) : Mutator → Prop
  | .createChan ci => Restores (dbCreateChan ci) faults db
  | .updChan ci => Restores (dbUpdChan ci) faults db
  | .addPost pi => Restores (dbAddPost pi) faults db
  | .updPost pi => Restores (dbUpdPost pi) faults db
  | .setPostStatus pi => Restores (dbSetPostStatus pi) faults db
  | .addCmt ci => Restores (dbAddCmt ci) faults db
  | .updCmt ci => Restores (dbUpdCmt ci) faults db
  | .setCmtStatus ci => Restores (dbSetCmtStatus ci) faults db
  | .addLike userId channelId postId commentId proof now =>
      Restores (dbAddLike userId channelId postId commentId proof now) faults db
  | .rmLike userId channelId postId commentId =>
      Restores (dbRmLike userId channelId postId commentId) faults db
  | .addSub userId channelId proof now =>
      Restores (dbAddSub userId channelId proof now) faults db
  | .unsub userId channelId => Restores (dbUnsub userId channelId) faults db
  | .updateUserInfo ui now => Restores (dbUpdateUserInfo ui now) faults db
  | .upsertUser ui now rowid => Restores (dbUpsertUser ui now rowid) faults db
  | .addReportedCmts row => Restores (dbAddReportedCmts row) faults db

/-- The function is not `db_upsert_user`, or no call of the `SELECT` fails after an
`INSERT` that changed the table. -/
def Mutator.Whole (faults : Faults) (db : Db) : Mutator → Prop
  | .upsertUser ui now rowid => ∀ db', ¬ faults.hit 0 = true →
      Feeds.dbUpsertUser db ui now rowid = some db' → faults.hit 1 = true → db' = db
  | _ => True

theorem atomic_iff_whole (mutator : Mutator) (faults : Faults) (db : Db) :
    mutator.Atomic faults db ↔ mutator.Whole faults db := by
  cases mutator with
  | createChan ci => exact iff_of_true (restores_dbCreateChan faults db ci) trivial
  | updChan ci => exact iff_of_true (restores_dbUpdChan faults db ci) trivial
  | addPost pi => exact iff_of_true (restores_dbAddPost faults db pi) trivial
  | updPost pi => exact iff_of_true (restores_dbUpdPost faults db pi) trivial
  | setPostStatus pi => exact iff_of_true (restores_dbSetPostStatus faults db pi) trivial
  | addCmt ci => exact iff_of_true (restores_dbAddCmt faults db ci) trivial
  | updCmt ci => exact iff_of_true (restores_dbUpdCmt faults db ci) trivial
  | setCmtStatus ci => exact iff_of_true (restores_dbSetCmtStatus faults db ci) trivial
  | addLike userId channelId postId commentId proof now =>
      exact iff_of_true
        (restores_dbAddLike faults db userId channelId postId commentId proof now) trivial
  | rmLike userId channelId postId commentId =>
      exact iff_of_true (restores_dbRmLike faults db userId channelId postId commentId) trivial
  | addSub userId channelId proof now =>
      exact iff_of_true (restores_dbAddSub faults db userId channelId proof now) trivial
  | unsub userId channelId =>
      exact iff_of_true (restores_dbUnsub faults db userId channelId) trivial
  | updateUserInfo ui now =>
      exact iff_of_true (restores_dbUpdateUserInfo faults db ui now) trivial
  | upsertUser ui now rowid =>
      exact restores_execute_query_iff fun db' hupsert => selectUserId_upserted hupsert
  | addReportedCmts row =>
      exact iff_of_true (restores_dbAddReportedCmts faults db row) trivial

/-- A user who signs in for the first time. -/
def newUser : UserInfo where
  uid := 0
  did := "did:client"
  name := "NA"
  email := "NA"
  displayName := none
  avatar := none

/-- The step of the `SELECT` fails, and the new row stays. -/
theorem not_atomic :
    ¬ (Mutator.upsertUser newUser 1000 1).Atomic (singleFault 1 .step) Db.init := by
  rw [atomic_iff_whole]
  intro hwhole
  obtain ⟨db', hupsert, hrow⟩ : ∃ db', Feeds.dbUpsertUser Db.init newUser 1000 1 = some db' ∧
      db'.users ≠ [] :=
    ⟨_, rfl, by decide⟩
  apply hrow
  rw [hwhole db' (by decide) hupsert (by decide)]
  rfl

end Faults

end FeedsService.Sql
