import FeedsService.Auth.AccessTokens
import FeedsService.Failures.Effects

/-!
# What the requests do to the users

The functions of the database that change another table leave the users alone, and so do
the handlers that call them.  Of the handlers of `feeds.c` only `hdl_upd_user_info_req`
changes a row of the users, and it changes neither a user id nor a DID.
-/

namespace FeedsService.Failures

open FeedsService.Library FeedsService.Library.Handlers FeedsService.Library.Transactions
open FeedsService.Feeds FeedsService.Auth FeedsService.Runs

section Rows

variable {users : List UserRow} {uid : ℤ}

/-- The row of a user id. -/
def rowOf (users : List UserRow) (uid : ℤ) : Option UserRow :=
  users.find? fun row => row.userId = uid

theorem rowOf_isSome_iff : (rowOf users uid).isSome ↔ ∃ did, (uid, did) ∈ accounts users := by
  simp [rowOf, accounts]

theorem rowOf_updateWhere {p : UserRow → Bool} {f : UserRow → UserRow}
    (hf : ∀ row, (f row).userId = row.userId) :
    rowOf (updateWhere users p f) uid =
      (rowOf users uid).map fun row => if p row then f row else row := by
  have hkey : (fun row : UserRow => decide (row.userId = uid)) ∘
      (fun row => if p row then f row else row) = fun row => decide (row.userId = uid) := by
    funext row
    rw [Function.comp_apply]
    split
    · rw [hf]
    · rfl
  rw [rowOf, updateWhere, List.find?_map, hkey]
  rfl

theorem rowOf_append {row new : UserRow} (h : rowOf users uid = some row) :
    rowOf (users ++ [new]) uid = some row := by
  rw [rowOf, List.find?_append]
  exact congrArg (Option.or · _) h

theorem accounts_updateWhere {p : UserRow → Bool} {f : UserRow → UserRow}
    (hid : ∀ row, (f row).userId = row.userId) (hdid : ∀ row, (f row).did = row.did) :
    accounts (updateWhere users p f) = accounts users := by
  rw [accounts, accounts, updateWhere, List.map_map]
  apply List.map_congr_left
  intro row _
  rw [Function.comp_apply]
  split
  · rw [hid, hdid]
  · rfl

/-- The row after its user was stored again. -/
def renamed (ui : AuthUser) (row : UserRow) : UserRow :=
  if row.did = ui.did then { row with name := ui.name, email := ui.email } else row

/-- An `INSERT` renames the user it is for, and adds no row for a user id that has one. -/
theorem rowOf_insertUser {m : Moment} {db db' : Db} {ui : AuthUser} {row : UserRow}
    (hinsert : insertUser m db ui = some db') (hrow : rowOf db.users uid = some row) :
    rowOf db'.users uid = some (renamed ui row) := by
  rw [insertUser] at hinsert
  split at hinsert
  · unfold Feeds.dbUpsertUser at hinsert
    split at hinsert
    · rw [← Option.some.inj hinsert]
      refine (rowOf_updateWhere ?_).trans ?_
      · exact fun _ => rfl
      · rw [hrow, Option.map_some]
        simp only [decide_eq_true_eq]
        rfl
    · next hnew =>
        have hother : row.did ≠ ui.did := by
          intro hsame
          apply hnew
          rw [any_did_iff]
          exact ⟨row.userId, mem_accounts.mpr ⟨row, List.mem_of_find?_eq_some hrow, rfl, hsame⟩⟩
        split at hinsert
        · cases hinsert
        · rw [← Option.some.inj hinsert, rowOf_append hrow, renamed, if_neg hother]
  · cases hinsert

end Rows

section Functions

/-- The function leaves the table of the users alone. -/
abbrev LeavesUsers {α : Type} (program : Sql Db α) : Prop :=
  LeavesAlone Db.users program

/-- An `UPDATE` or a `DELETE` of another table. -/
theorem leavesUsers_certain {change : Db → Db} (hchange : ∀ db, (change db).users = db.users) :
    LeavesUsers (execute fun db => some (change db)) := by
  apply leavesAlone_execute
  intro db db' hdone
  rw [← Option.some.inj hdone]
  exact hchange db

theorem updLikes_users (db : Db) (channelId postId commentId change : ℤ) :
    (updLikes db channelId postId commentId change).users = db.users := by
  unfold updLikes
  split <;> rfl

theorem leavesUsers_dbCreateChan (ci : ChanInfo) : LeavesUsers (Sql.dbCreateChan ci) := by
  apply leavesAlone_execute
  intro db db' hdone
  rw [Feeds.dbCreateChan] at hdone
  split at hdone
  · cases hdone
  · rw [← Option.some.inj hdone]

theorem leavesUsers_dbUpdChan (ci : ChanInfo) : LeavesUsers (Sql.dbUpdChan ci) := by
  apply leavesAlone_execute
  intro db db' hdone
  rw [Feeds.dbUpdChan] at hdone
  split at hdone
  · cases hdone
  · rw [← Option.some.inj hdone]

theorem leavesUsers_dbAddPost (pi : PostInfo) : LeavesUsers (Sql.dbAddPost pi) := by
  apply leavesAlone_transaction
  apply leavesAlone_bind
  · apply leavesAlone_execute
    intro db db' hdone
    rw [Sql.insertPost] at hdone
    split at hdone
    · cases hdone
    · rw [← Option.some.inj hdone]
  · intro _
    exact leavesUsers_certain fun _ => rfl

theorem leavesUsers_readBackPost (pi : PostInfo) :
    LeavesUsers (statement fun db => readBackPost db pi) := by
  apply leavesAlone_statement
  intro db value db' hdone
  obtain ⟨row, -, hsame⟩ := Option.map_eq_some_iff.mp hdone
  cases hsame
  rfl

theorem leavesUsers_dbUpdPost (pi : PostInfo) : LeavesUsers (Sql.dbUpdPost pi) :=
  leavesAlone_transaction <|
    leavesAlone_bind (leavesUsers_certain fun _ => rfl) fun _ => leavesUsers_readBackPost pi

theorem leavesUsers_dbSetPostStatus (pi : PostInfo) : LeavesUsers (Sql.dbSetPostStatus pi) :=
  leavesAlone_transaction <|
    leavesAlone_bind (leavesUsers_certain fun _ => rfl) fun _ => leavesUsers_readBackPost pi

theorem leavesUsers_dbAddCmt (ci : CmtInfo) : LeavesUsers (Sql.dbAddCmt ci) := by
  apply leavesAlone_transaction
  apply leavesAlone_bind
  · apply leavesAlone_execute
    intro db db' hdone
    rw [Sql.insertCmt] at hdone
    split at hdone
    · cases hdone
    · split at hdone
      · cases hdone
      · rw [← Option.some.inj hdone]
  · intro _
    exact leavesAlone_bind (leavesUsers_certain fun _ => rfl) fun _ => leavesAlone_query _

theorem leavesUsers_dbUpdCmt (ci : CmtInfo) : LeavesUsers (Sql.dbUpdCmt ci) :=
  leavesAlone_transaction <|
    leavesAlone_bind (leavesUsers_certain fun _ => rfl) fun _ => leavesAlone_query _

theorem leavesUsers_dbSetCmtStatus (ci : CmtInfo) : LeavesUsers (Sql.dbSetCmtStatus ci) :=
  leavesAlone_transaction <|
    leavesAlone_bind (leavesUsers_certain fun _ => rfl) fun _ => leavesAlone_query _

theorem leavesUsers_dbAddLike (userId channelId postId commentId : ℤ) (proof : String)
    (now : ℤ) : LeavesUsers (Sql.dbAddLike userId channelId postId commentId proof now) := by
  apply leavesAlone_transaction
  apply leavesAlone_bind (leavesUsers_certain fun db => updLikes_users db _ _ _ _)
  intro _
  apply leavesAlone_bind
  · apply leavesAlone_execute
    intro db db' hdone
    rw [Sql.insertLike] at hdone
    split at hdone
    · cases hdone
    · rw [← Option.some.inj hdone]
  · intro _
    exact leavesAlone_query _

theorem leavesUsers_dbRmLike (userId channelId postId commentId : ℤ) :
    LeavesUsers (Sql.dbRmLike userId channelId postId commentId) :=
  leavesAlone_transaction <|
    leavesAlone_bind (leavesUsers_certain fun db => updLikes_users db _ _ _ _) fun _ =>
      leavesUsers_certain fun _ => rfl

theorem leavesUsers_dbAddSub (userId channelId : ℤ) (proof : String) (now : ℤ) :
    LeavesUsers (Sql.dbAddSub userId channelId proof now) := by
  apply leavesAlone_transaction
  apply leavesAlone_bind
  · apply leavesAlone_execute
    intro db db' hdone
    rw [Sql.insertSub] at hdone
    split at hdone
    · cases hdone
    · rw [← Option.some.inj hdone]
  · intro _
    exact leavesUsers_certain fun _ => rfl

theorem leavesUsers_dbUnsub (userId channelId : ℤ) :
    LeavesUsers (Sql.dbUnsub userId channelId) :=
  leavesAlone_transaction <|
    leavesAlone_bind (leavesUsers_certain fun _ => rfl) fun _ => leavesUsers_certain fun _ => rfl

theorem leavesUsers_dbAddReportedCmts (row : ReportedCommentRow) :
    LeavesUsers (Sql.dbAddReportedCmts row) :=
  leavesAlone_transaction (leavesUsers_certain fun _ => rfl)

end Functions

section Handlers

/-- The users of the database. -/
def usersOf (w : World) : List UserRow :=
  w.db.users

theorem keepsUsers_change {α : Type} {program : Sql Db α} (h : LeavesUsers program) :
    Keeps usersOf (change program) :=
  keeps_invoke fun fault w => h.tables (faultsOf fault) w.db

variable (ctx : Ctx)

theorem keepsUsers_hdlCreateChanReq (params : ChanParams) :
    Keeps usersOf (hdlCreateChanReq ctx params) := by
  apply keeps_bind (keeps_attempt _ _)
  intro _
  apply keeps_bind (keeps_require _ _)
  intro _
  apply keeps_bind (keeps_didIsReady ctx)
  intro _
  apply keeps_bind (keeps_ownerOnly ctx)
  intro _
  apply keeps_bind (keeps_require _ _)
  intro _
  apply keeps_bind keeps_get
  intro w
  apply keeps_bind (keeps_attempt _ _)
  intro _
  apply keeps_bind (keepsUsers_change (leavesUsers_dbCreateChan _))
  intro _
  exact keeps_bind (keeps_update fun _ => rfl) fun _ => keeps_pure _

theorem keepsUsers_hdlUpdChanReq (chanId : UInt64) (params : ChanParams) :
    Keeps usersOf (hdlUpdChanReq ctx chanId params) := by
  apply keeps_bind (keeps_didIsReady ctx)
  intro _
  apply keeps_bind (keeps_ownerOnly ctx)
  intro _
  apply keeps_bind (keeps_chanGetById chanId)
  intro chan
  apply keeps_bind (keeps_require _ _)
  intro _
  apply keeps_bind keeps_get
  intro w
  apply keeps_bind (keeps_attempt _ _)
  intro _
  apply keeps_bind (keepsUsers_change (leavesUsers_dbUpdChan _))
  intro _
  exact keeps_bind (keeps_update fun _ => rfl) fun _ => keeps_pure _

theorem keepsUsers_addPost (chanId : UInt64) (stat : PostStat) (params : PostParams) :
    Keeps usersOf (addPost ctx chanId stat params) := by
  apply keeps_bind (keeps_didIsReady ctx)
  intro _
  apply keeps_bind (keeps_ownerOnly ctx)
  intro _
  apply keeps_bind (keeps_chanGetById chanId)
  intro chan
  apply keeps_bind keeps_get
  intro w
  apply keeps_bind (keepsUsers_change (leavesUsers_dbAddPost _))
  intro _
  exact keeps_bind (keeps_update fun _ => rfl) fun _ => keeps_pure _

theorem keepsUsers_hdlNotifyPostReq (chanId postId : UInt64) :
    Keeps usersOf (hdlNotifyPostReq ctx chanId postId) := by
  apply keeps_bind (keeps_postToNotify ctx chanId postId)
  intro _
  apply keeps_bind (keepsUsers_change (leavesUsers_dbSetPostStatus _))
  intro pi
  exact keeps_bind (keeps_attempt _ _) fun _ =>
    keeps_bind (keeps_find _ _) fun _ => keeps_pure _

theorem keepsUsers_changePost (chanId postId : UInt64) {program : Sql Db PostInfo}
    (h : LeavesUsers program) : Keeps usersOf (changePost ctx chanId postId program) := by
  apply keeps_bind (keeps_didIsReady ctx)
  intro _
  apply keeps_bind (keeps_ownerOnly ctx)
  intro _
  apply keeps_bind (keeps_chanGetById chanId)
  intro _
  apply keeps_bind (keeps_dbTest _ _ _)
  intro _
  exact keeps_bind (keepsUsers_change h) fun _ => keeps_pure _

theorem keepsUsers_hdlPostCmtReq (chanId postId cmtId : UInt64) (params : CmtParams) :
    Keeps usersOf (hdlPostCmtReq ctx chanId postId cmtId params) := by
  apply keeps_bind (keeps_didIsReady ctx)
  intro _
  apply keeps_bind (keeps_createUinfoFromAccessToken ctx)
  intro uinfo
  apply keeps_bind (keeps_chanOfPost chanId postId)
  intro _
  apply keeps_bind (keeps_cmtExists chanId postId cmtId)
  intro _
  exact keeps_bind (keepsUsers_change (leavesUsers_dbAddCmt _)) fun _ => keeps_pure _

theorem keepsUsers_hdlEditCmtReq (chanId postId id cmtId : UInt64) (params : CmtParams) :
    Keeps usersOf (hdlEditCmtReq ctx chanId postId id cmtId params) := by
  apply keeps_bind (keeps_didIsReady ctx)
  intro _
  apply keeps_bind (keeps_createUinfoFromAccessToken ctx)
  intro uinfo
  apply keeps_bind (keeps_chanOfPost chanId postId)
  intro _
  apply keeps_bind (keeps_dbTest _ _ _)
  intro _
  apply keeps_bind (keeps_dbTest _ _ _)
  intro _
  apply keeps_bind (keeps_cmtExists chanId postId cmtId)
  intro _
  exact keeps_bind (keepsUsers_change (leavesUsers_dbUpdCmt _)) fun _ => keeps_pure _

theorem keepsUsers_setCmtStatus (call : Call) (found : Db → ℤ → ℤ → ℤ → Bool) (stat : CmtStat)
    (chanId postId cmtId : UInt64) :
    Keeps usersOf (setCmtStatus ctx call found stat chanId postId cmtId) := by
  apply keeps_bind (keeps_didIsReady ctx)
  intro _
  apply keeps_bind (keeps_createUinfoFromAccessToken ctx)
  intro uinfo
  apply keeps_bind (keeps_chanOfPost chanId postId)
  intro _
  apply keeps_bind (keeps_dbTest _ _ _)
  intro _
  apply keeps_bind (keeps_dbTest _ _ _)
  intro _
  exact keeps_bind (keepsUsers_change (leavesUsers_dbSetCmtStatus _)) fun _ => keeps_pure _

theorem keepsUsers_hdlPostLikeReq (chanId postId cmtId : UInt64) (proof : String) :
    Keeps usersOf (hdlPostLikeReq ctx chanId postId cmtId proof) := by
  apply keeps_bind (keeps_didIsReady ctx)
  intro _
  apply keeps_bind (keeps_createUinfoFromAccessToken ctx)
  intro uinfo
  apply keeps_bind (keeps_chanOfPost chanId postId)
  intro _
  apply keeps_bind (keeps_cmtExists chanId postId cmtId)
  intro _
  apply keeps_bind (keeps_dbTest _ _ _)
  intro _
  exact keeps_bind (keepsUsers_change (leavesUsers_dbAddLike _ _ _ _ _ _)) fun _ => keeps_pure _

theorem keepsUsers_hdlPostUnlikeReq (chanId postId cmtId : UInt64) :
    Keeps usersOf (hdlPostUnlikeReq ctx chanId postId cmtId) := by
  apply keeps_bind (keeps_didIsReady ctx)
  intro _
  apply keeps_bind (keeps_createUinfoFromAccessToken ctx)
  intro uinfo
  apply keeps_bind (keeps_chanGetById chanId)
  intro _
  apply keeps_bind (keeps_dbTest _ _ _)
  intro _
  exact keeps_bind (keepsUsers_change (leavesUsers_dbRmLike _ _ _ _)) fun _ => keeps_pure _

theorem keepsUsers_hdlReportIllegalCmtReq (chanId postId cmtId : UInt64) (reasons : String) :
    Keeps usersOf (hdlReportIllegalCmtReq ctx chanId postId cmtId reasons) := by
  apply keeps_bind (keeps_didIsReady ctx)
  intro _
  apply keeps_bind (keeps_createUinfoFromAccessToken ctx)
  intro uinfo
  apply keeps_bind (keeps_chanOfPost chanId postId)
  intro _
  apply keeps_bind (keeps_cmtExists chanId postId cmtId)
  intro _
  apply keeps_bind (keeps_dbTest _ _ _)
  intro _
  exact keeps_bind (keepsUsers_change (leavesUsers_dbAddReportedCmts _)) fun _ => keeps_pure _

theorem keepsUsers_hdlSubChanReq (id : UInt64) (proof : String) :
    Keeps usersOf (hdlSubChanReq ctx id proof) := by
  apply keeps_bind (keeps_didIsReady ctx)
  intro _
  apply keeps_bind (keeps_createUinfoFromAccessToken ctx)
  intro uinfo
  apply keeps_bind (keeps_chanGetById id)
  intro chan
  apply keeps_bind (keeps_dbTest _ _ _)
  intro _
  apply keeps_bind keeps_get
  intro w
  apply keeps_bind (keeps_attemptIf _ _)
  intro _
  apply keeps_bind (keepsUsers_change (leavesUsers_dbAddSub _ _ _ _))
  intro _
  exact keeps_bind (keeps_update fun _ => rfl) fun _ =>
    keeps_bind keeps_get fun _ => keeps_pure _

theorem keepsUsers_hdlUnsubChanReq (id : UInt64) :
    Keeps usersOf (hdlUnsubChanReq ctx id) := by
  apply keeps_bind (keeps_didIsReady ctx)
  intro _
  apply keeps_bind (keeps_createUinfoFromAccessToken ctx)
  intro uinfo
  apply keeps_bind (keeps_chanGetById id)
  intro chan
  apply keeps_bind (keeps_dbTest _ _ _)
  intro _
  apply keeps_bind (keepsUsers_change (leavesUsers_dbUnsub _ _))
  intro _
  exact keeps_bind (keeps_update fun _ => rfl) fun _ => keeps_pure _

theorem keepsUsers_hdlEnblNotifReq : Keeps usersOf (hdlEnblNotifReq ctx) := by
  apply keeps_bind (keeps_didIsReady ctx)
  intro _
  apply keeps_bind (keeps_createUinfoFromAccessToken ctx)
  intro uinfo
  apply keeps_bind keeps_get
  intro w
  dsimp only
  split
  · exact keeps_pure _
  · have hlast : Keeps usersOf (do
        update fun w => { w with mem := w.mem.enblNotif w.db uinfo.uid ctx.from }
        return [Resp.empty] : FeedsHandler (List Resp)) :=
      keeps_bind (keeps_update fun _ => rfl) fun _ => keeps_pure _
    apply keeps_bind (keeps_attemptIf _ _)
    intro _
    apply keeps_bind (keeps_attemptIf _ _)
    intro _
    apply keeps_bind (keeps_attempt _ _)
    intro _
    split
    · apply keeps_bind (keeps_attempt _ _)
      intro _
      apply keeps_bind (keeps_aspcCreates _ _)
      intro _
      exact keeps_bind (keeps_attempt _ _) fun _ => hlast
    · exact hlast

/-- Every other handler leaves the users alone. -/
theorem keepsUsers_feedsHandler {req : Feeds.Req} {handler : FeedsHandler (List Resp)}
    (hhandler : feedsHandler ctx req = some handler)
    (hother : ∀ params, req ≠ .updUserInfo params) : Keeps usersOf handler := by
  cases req with
  | updUserInfo params => exact absurd rfl (hother params)
  | getPosts | getCmts | query => cases hhandler
  | createChan params => cases hhandler; exact keepsUsers_hdlCreateChanReq ctx params
  | updChan chanId params => cases hhandler; exact keepsUsers_hdlUpdChanReq ctx chanId params
  | pubPost chanId params => cases hhandler; exact keepsUsers_addPost ctx chanId _ params
  | declarePost chanId withNotify params =>
      cases hhandler
      exact keepsUsers_addPost ctx chanId _ params
  | notifyPost chanId postId =>
      cases hhandler
      exact keepsUsers_hdlNotifyPostReq ctx chanId postId
  | editPost chanId postId params =>
      cases hhandler
      exact keepsUsers_changePost ctx chanId postId (leavesUsers_dbUpdPost _)
  | delPost chanId postId =>
      cases hhandler
      exact keepsUsers_changePost ctx chanId postId (leavesUsers_dbSetPostStatus _)
  | postCmt chanId postId cmtId params =>
      cases hhandler
      exact keepsUsers_hdlPostCmtReq ctx chanId postId cmtId params
  | editCmt chanId postId id cmtId params =>
      cases hhandler
      exact keepsUsers_hdlEditCmtReq ctx chanId postId id cmtId params
  | delCmt chanId postId id =>
      cases hhandler
      exact keepsUsers_setCmtStatus ctx _ _ _ chanId postId id
  | blockCmt chanId postId cmtId =>
      cases hhandler
      exact keepsUsers_setCmtStatus ctx _ _ _ chanId postId cmtId
  | unblockCmt chanId postId cmtId =>
      cases hhandler
      exact keepsUsers_setCmtStatus ctx _ _ _ chanId postId cmtId
  | postLike chanId postId cmtId proof =>
      cases hhandler
      exact keepsUsers_hdlPostLikeReq ctx chanId postId cmtId proof
  | postUnlike chanId postId cmtId =>
      cases hhandler
      exact keepsUsers_hdlPostUnlikeReq ctx chanId postId cmtId
  | subChan id proof => cases hhandler; exact keepsUsers_hdlSubChanReq ctx id proof
  | unsubChan id => cases hhandler; exact keepsUsers_hdlUnsubChanReq ctx id
  | enblNotif => cases hhandler; exact keepsUsers_hdlEnblNotifReq ctx
  | reportIllegalCmt chanId postId cmtId reasons =>
      cases hhandler
      exact keepsUsers_hdlReportIllegalCmtReq ctx chanId postId cmtId reasons

end Handlers

section Updates

variable {ctx : Ctx} {fault : Option Call}

/-- The user whose row an `update_user_info` request changes. -/
structure UpdatesUser (ctx : Ctx) (fault : Option Call) (uinfo : UserInfo) : Prop where
  ready : ctx.didIsReady = true
  user : ctx.uinfo = some uinfo
  read : fault ≠ some .createUinfoFromAccessToken
  update : ¬ (faultsOf fault).hit 0 = true

/-- What `hdl_upd_user_info_req` hands to the database. -/
def updatedUser (uinfo : UserInfo) (params : UserParams) : UserInfo :=
  { uinfo with
    name := params.name
    email := params.email
    displayName := some params.displayName
    avatar := some params.avatar }

theorem dbUpdateUserInfo_updatedUser (db : Db) (uinfo : UserInfo) (params : UserParams)
    (now : ℤ) :
    Feeds.dbUpdateUserInfo db (updatedUser uinfo params) now =
      some { db with
        users := updateWhere db.users (fun row => row.did = uinfo.did)
          (UserRow.upd (updatedUser uinfo params) now) } := by
  rw [Feeds.dbUpdateUserInfo, if_neg (by simp [updatedUser])]
  rfl

theorem run_didIsReady (w : World) :
    (didIsReady ctx).run fault w = (if ctx.didIsReady then .ok () else .error .ignored, w) :=
  rfl

/-- The access token shows who the user is, or the handler leaves. -/
theorem createUinfoFromAccessToken_cases (ctx : Ctx) (fault : Option Call) (w : World) :
    (∃ uinfo, fault ≠ some .createUinfoFromAccessToken ∧ ctx.uinfo = some uinfo ∧
        (createUinfoFromAccessToken ctx).run fault w = (.ok uinfo, w)) ∨
      (fault = some .createUinfoFromAccessToken ∨ ctx.uinfo = none) ∧
        (createUinfoFromAccessToken ctx).run fault w = (.error (fails .accessTokenExp), w) := by
  by_cases hread : fault = some .createUinfoFromAccessToken
  · exact .inr ⟨.inl hread, run_bind_error (congrArg (·, w) (if_pos hread))⟩
  · rw [createUinfoFromAccessToken, run_bind_ok (Handlers.run_attempt hread)]
    cases huser : ctx.uinfo with
    | none => exact .inr ⟨.inr rfl, rfl⟩
    | some uinfo => exact .inl ⟨uinfo, hread, rfl, rfl⟩

/-- The request changes the row of the user of its access token, or nothing. -/
theorem hdlUpdUserInfoReq_cases (ctx : Ctx) (fault : Option Call) (params : UserParams)
    (w : World) :
    (∃ uinfo, UpdatesUser ctx fault uinfo ∧
        ((hdlUpdUserInfoReq ctx params).run fault w).2.db.users =
          updateWhere w.db.users (fun row => row.did = uinfo.did)
            (UserRow.upd (updatedUser uinfo params) ctx.now)) ∨
      (∀ uinfo, ¬ UpdatesUser ctx fault uinfo) ∧
        ((hdlUpdUserInfoReq ctx params).run fault w).2.db.users = w.db.users := by
  by_cases hready : ctx.didIsReady = true
  · have hfirst : (didIsReady ctx).run fault w = (.ok (), w) := by
      rw [run_didIsReady, if_pos hready]
    rw [hdlUpdUserInfoReq, run_bind_ok hfirst]
    rcases createUinfoFromAccessToken_cases ctx fault w with
      ⟨uinfo, hread, huser, hrun⟩ | ⟨hnone, hrun⟩
    · rw [run_bind_ok hrun]
      by_cases hhit : (faultsOf fault).hit 0 = true
      · refine .inr ⟨fun _ h => h.update hhit, ?_⟩
        have hfailed : (change (Sql.dbUpdateUserInfo (updatedUser uinfo params) ctx.now)).run
            fault w = (.error (fails .internalError), w) := by
          simp only [change, mutate, invoke, Sql.dbUpdateUserInfo, execute, Session.on]
          rw [run_statement_hit hhit]
          rfl
        exact congrArg (fun result : _ × World => result.2.db.users) (run_bind_error hfailed)
      · refine .inl ⟨uinfo, ⟨hready, huser, hread, hhit⟩, ?_⟩
        have hdone : (change (Sql.dbUpdateUserInfo (updatedUser uinfo params) ctx.now)).run
            fault w = (.ok (), { w with db := { w.db with
              users := updateWhere w.db.users (fun row => row.did = uinfo.did)
                (UserRow.upd (updatedUser uinfo params) ctx.now) } }) := by
          simp only [change, mutate, invoke, Sql.dbUpdateUserInfo, execute, Session.on]
          rw [run_statement hhit]
          simp only [worldDb, dbUpdateUserInfo_updatedUser]
          rfl
        exact congrArg (fun result : _ × World => result.2.db.users) (run_bind_ok hdone)
    · rw [run_bind_error hrun]
      refine .inr ⟨fun uinfo h => ?_, rfl⟩
      rcases hnone with hread | huser
      · exact h.read hread
      · cases huser.symm.trans h.user
  · have hfailed : (didIsReady ctx).run fault w = (.error .ignored, w) := by
      rw [run_didIsReady, if_neg hready]
    rw [hdlUpdUserInfoReq, run_bind_error hfailed]
    exact .inr ⟨fun uinfo h => hready h.ready, rfl⟩

end Updates

end FeedsService.Failures
