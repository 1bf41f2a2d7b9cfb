import FeedsService.Feeds.System

/-!
# What a request writes

The rows that a request adds, changes or removes, with the token, the checks and
the time that they come from.  Each request that is carried out writes as one of
the cases says, so an invariant of the database is checked once for each case and
not once for each handler.
-/

namespace FeedsService.Feeds

open FeedsService.Library

/-- The row that `db_add_like` inserts. -/
def newLikeRow (userId channelId postId commentId : ℤ) (proof : String) (now : ℤ) : LikeRow where
  channelId := channelId
  postId := postId
  commentId := commentId
  userId := userId
  createdAt := now
  proof := proof

/-- The row that `db_add_sub` inserts. -/
def newSubscriptionRow (userId channelId : ℤ) (proof : String) (now : ℤ) : SubscriptionRow where
  userId := userId
  channelId := channelId
  createAt := now
  proof := proof

inductive Writes (w : World) (ctx : Ctx) (req : Req) : Db → Prop
  | nothing : Writes w ctx req w.db
  | addChannel {ci : ChanInfo} (hcreatedAt : ci.createdAt = ctx.now) :
      Writes w ctx req { w.db with
        channels := w.db.channels ++ [newChannelRow (w.db.channelsSeq + 1) ci]
        channelsSeq := w.db.channelsSeq + 1 }
  | updChannel {ci : ChanInfo} (hupdAt : ci.updAt = ctx.now) :
      Writes w ctx req { w.db with
        channels := updateWhere w.db.channels (ChannelRow.at ci.chanId) (ChannelRow.upd ci) }
  | addPost {chanId : UInt64} {chan : Ref} {pi : PostInfo}
      (hchan : w.mem.chanGetById chanId.toNat = some chan) (hchanId : pi.chanId = bindInt64 chanId)
      (hpostId : pi.postId = (w.mem.chan chan).info.nextPostId)
      (hcreatedAt : pi.createdAt = ctx.now) :
      Writes w ctx req { w.db with
        posts := w.db.posts ++ [newPostRow pi]
        channels := updateWhere w.db.channels (ChannelRow.at pi.chanId) fun row =>
          { row with nextPostId := row.nextPostId + 1 } }
  | setPostStatus {pi : PostInfo} :
      Writes w ctx req { w.db with
        posts := updateWhere w.db.posts (PostRow.at pi.chanId pi.postId) fun row =>
          { row with status := pi.stat } }
  | updPost {pi : PostInfo} (hupdAt : pi.updAt = ctx.now) :
      Writes w ctx req { w.db with
        posts := updateWhere w.db.posts (PostRow.at pi.chanId pi.postId) (PostRow.upd pi) }
  | addCmt {chanId postId cmtId : UInt64} {params : CmtParams} {uinfo : UserInfo} {post : PostRow}
      {ci : CmtInfo} (hreq : req = .postCmt chanId postId cmtId params)
      (huinfo : ctx.uinfo = some uinfo) (hpost : post ∈ w.db.posts)
      (hat : post.at ci.chanId ci.postId = true) (hok : cmtIdOk w chanId postId cmtId = true)
      (hci : ci.chanId = bindInt64 chanId ∧ ci.postId = bindInt64 postId) (huser : ci.user = uinfo)
      (hreply : ci.replyToCmt = bindInt64 cmtId) (hcreatedAt : ci.createdAt = ctx.now) :
      Writes w ctx req { w.db with
        comments := w.db.comments ++ [newCommentRow post.nextCommentId ci]
        posts := updateWhere w.db.posts (PostRow.at ci.chanId ci.postId) fun row =>
          { row with nextCommentId := row.nextCommentId + 1 } }
  | updCmt {chanId postId id cmtId : UInt64} {params : CmtParams} {ci : CmtInfo}
      (hreq : req = .editCmt chanId postId id cmtId params) (hci : ci.At chanId postId id)
      (hfound : dbCmtExists w.db ci.chanId ci.postId ci.cmtId = true)
      (hok : cmtIdOk w chanId postId cmtId = true) (hreply : ci.replyToCmt = bindInt64 cmtId)
      (hupdAt : ci.updAt = ctx.now) :
      Writes w ctx req { w.db with
        comments := updateWhere w.db.comments (CommentRow.at ci.chanId ci.postId ci.cmtId)
          (CommentRow.upd ci) }
  | setCmtStatus {ci : CmtInfo} (hupdAt : ci.updAt = ctx.now) :
      Writes w ctx req { w.db with
        comments := updateWhere w.db.comments (CommentRow.at ci.chanId ci.postId ci.cmtId)
          (CommentRow.setStatus ci) }
  | addLike {chanId postId cmtId : UInt64} {uinfo : UserInfo} {proof : String}
      (huinfo : ctx.uinfo = some uinfo)
      (hselect : (selectLikes (updLikes w.db (bindInt64 chanId) (bindInt64 postId)
        (bindInt64 cmtId) 1) (bindInt64 chanId) (bindInt64 postId) (bindInt64 cmtId)).isSome) :
      Writes w ctx req {
        updLikes w.db (bindInt64 chanId) (bindInt64 postId) (bindInt64 cmtId) 1 with
        likes := w.db.likes ++ [newLikeRow (bindInt64 uinfo.uid) (bindInt64 chanId)
          (bindInt64 postId) (bindInt64 cmtId) proof ctx.now] }
  | rmLike {userId channelId postId commentId : ℤ} :
      Writes w ctx req (dbRmLike w.db userId channelId postId commentId)
  | addSub {id : UInt64} {chan : Ref} {uinfo : UserInfo} {proof : String}
      (huinfo : ctx.uinfo = some uinfo) (hchan : w.mem.chanGetById id.toNat = some chan) :
      Writes w ctx req (updSubscribers { w.db with
        subscriptions := w.db.subscriptions ++ [newSubscriptionRow (bindInt64 uinfo.uid)
          (bindInt64 id) proof ctx.now] } (bindInt64 id) 1)
  | rmSub {userId channelId : ℤ} : Writes w ctx req (dbUnsub w.db userId channelId)
  | updUser {ui : UserInfo} :
      Writes w ctx req { w.db with
        users := updateWhere w.db.users (fun row => row.did = ui.did) (UserRow.upd ui ctx.now) }
  | report {chanId postId cmtId : UInt64} {chan : Ref} {uinfo : UserInfo} {reasons : String}
      (huinfo : ctx.uinfo = some uinfo) (hchan : w.mem.chanGetById chanId.toNat = some chan)
      (hpostId : postId.toNat < (w.mem.chan chan).info.nextPostId)
      (hok : cmtIdOk w chanId postId cmtId = true) :
      Writes w ctx req (dbAddReportedCmts w.db
        { channelId := bindInt64 chanId
          postId := bindInt64 postId
          commentId := bindInt64 cmtId
          reporterId := bindInt64 uinfo.uid
          createdAt := ctx.now
          reasons := reasons })

variable {w : World} {ctx : Ctx} {req : Req}

theorem dbAddLike_row {db : Db} {userId channelId postId commentId now : ℤ} {proof : String}
    {added : ℤ × Db}
    (h : dbAddLike db userId channelId postId commentId proof now = some added) :
    (selectLikes (updLikes db channelId postId commentId 1) channelId postId
        commentId).isSome ∧
      added.2 = { updLikes db channelId postId commentId 1 with
        likes := db.likes ++ [newLikeRow userId channelId postId commentId proof now] } := by
  simp only [dbAddLike, updLikes_likes] at h
  split at h
  · cases h
  · obtain ⟨likes, hselect, rfl⟩ := Option.map_eq_some_iff.mp h
    refine ⟨?_, rfl⟩
    rw [Option.isSome_iff_exists]
    exact ⟨likes, hselect⟩

theorem dbUpdateUserInfo_rows {db db' : Db} {ui : UserInfo} {now : ℤ}
    (h : dbUpdateUserInfo db ui now = some db') :
    db' = { db with
      users := updateWhere db.users (fun row => row.did = ui.did) (UserRow.upd ui now) } := by
  unfold dbUpdateUserInfo at h
  split at h
  · cases h
  · exact (Option.some.inj h).symm

theorem setCmtStatus_writes {found : Db → ℤ → ℤ → ℤ → Bool} {stat : CmtStat}
    {chanId postId cmtId : UInt64} {carried : Done}
    (hdone : setCmtStatus found stat w ctx chanId postId cmtId = .done carried) :
    Writes w ctx req carried.world.db := by
  simp only [setCmtStatus, ready_eq_done, withUinfo_eq_done, withPost_eq_done,
    check_eq_done, dbCall_eq_done, Outcome.done.injEq] at hdone
  obtain ⟨_, uinfo, _, chan, _, _, _, _, set, hdb, rfl⟩ := hdone
  rw [(dbSetCmtStatus_eq_some hdb).1]
  exact .setCmtStatus rfl

/-- Every request that is carried out writes as one of the cases says. -/
theorem handle_writes {carried : Done} (hdone : handle w ctx req = .done carried) :
    Writes w ctx req carried.world.db := by
  cases req with
  | createChan params =>
      simp only [handle, hdlCreateChanReq, ready_eq_done, withOwner_eq_done, check_eq_done,
        dbCall_eq_done, Outcome.done.injEq] at hdone
      obtain ⟨_, _, _, _, db, hdb, rfl⟩ := hdone
      rw [dbCreateChan_eq_some hdb]
      exact .addChannel rfl
  | updChan chanId params =>
      simp only [handle, hdlUpdChanReq, ready_eq_done, withOwner_eq_done, withChan_eq_done,
        check_eq_done, dbCall_eq_done, Outcome.done.injEq] at hdone
      obtain ⟨_, _, chan, _, _, db, hdb, rfl⟩ := hdone
      rw [dbUpdChan_eq_some hdb]
      exact .updChannel rfl
  | pubPost chanId params =>
      simp only [handle, hdlPubPostReq, ready_eq_done, withOwner_eq_done, withChan_eq_done,
        dbCall_eq_done, Outcome.done.injEq] at hdone
      obtain ⟨_, _, chan, hchan, db, hdb, rfl⟩ := hdone
      rw [dbAddPost_eq_some hdb]
      exact .addPost hchan (newPost_chanId ..) (newPost_postId ..) (by simp only [newPost])
  | declarePost chanId withNotify params =>
      simp only [handle, hdlDeclarePostReq, ready_eq_done, withOwner_eq_done,
        withChan_eq_done, dbCall_eq_done, Outcome.done.injEq] at hdone
      obtain ⟨_, _, chan, hchan, db, hdb, rfl⟩ := hdone
      rw [dbAddPost_eq_some hdb]
      exact .addPost hchan (newPost_chanId ..) (newPost_postId ..) (by simp only [newPost])
  | notifyPost chanId postId =>
      simp only [handle, hdlNotifyPostReq, ready_eq_done, withOwner_eq_done,
        withChan_eq_done, check_eq_done, dbCall_eq_done, Outcome.done.injEq] at hdone
      obtain ⟨_, _, chan, _, stat, _, _, set, hdb, pi, _, rfl⟩ := hdone
      rw [dbSetPostStatus_eq_some hdb]
      exact .setPostStatus
  | editPost chanId postId params =>
      simp only [handle, hdlEditPostReq, ready_eq_done, withOwner_eq_done,
        withChan_eq_done, check_eq_done, dbCall_eq_done, Outcome.done.injEq] at hdone
      obtain ⟨_, _, chan, _, _, upd, hdb, rfl⟩ := hdone
      rw [dbUpdPost_eq_some hdb]
      exact .updPost rfl
  | delPost chanId postId =>
      simp only [handle, hdlDelPostReq, ready_eq_done, withOwner_eq_done,
        withChan_eq_done, check_eq_done, dbCall_eq_done, Outcome.done.injEq] at hdone
      obtain ⟨_, _, chan, _, _, set, hdb, rfl⟩ := hdone
      rw [dbSetPostStatus_eq_some hdb]
      exact .setPostStatus
  | postCmt chanId postId cmtId params =>
      simp only [handle, hdlPostCmtReq, ready_eq_done, withUinfo_eq_done,
        withPost_eq_done, check_eq_done, dbCall_eq_done, Outcome.done.injEq] at hdone
      obtain ⟨_, uinfo, huinfo, chan, _, _, hok, added, hdb, rfl⟩ := hdone
      obtain ⟨post, hpost, hat, -, hadded⟩ := dbAddCmt_eq_some hdb
      rw [hadded]
      refine .addCmt rfl huinfo hpost hat hok ?_ ?_ ?_ ?_ <;> simp only [blankCmt, and_self]
  | editCmt chanId postId id cmtId params =>
      simp only [handle, hdlEditCmtReq, ready_eq_done, withUinfo_eq_done,
        withPost_eq_done, check_eq_done, dbCall_eq_done, Outcome.done.injEq] at hdone
      obtain ⟨_, uinfo, _, chan, _, _, havail, _, hok, upd, hdb, rfl⟩ := hdone
      rw [(dbUpdCmt_eq_some hdb).1]
      refine .updCmt rfl ?_ ?_ hok ?_ ?_
      · simp only [CmtInfo.At, blankCmt, and_self]
      · simp only [blankCmt]
        obtain ⟨row, hrow, hfound⟩ := List.any_eq_true.mp havail
        rw [decide_eq_true_eq] at hfound
        exact List.any_eq_true.mpr ⟨row, hrow, hfound.1⟩
      · simp only
      · simp only [blankCmt]
  | delCmt | blockCmt | unblockCmt => exact setCmtStatus_writes hdone
  | postLike chanId postId cmtId proof =>
      simp only [handle, hdlPostLikeReq, ready_eq_done, withUinfo_eq_done,
        withPost_eq_done, check_eq_done, dbCall_eq_done, Outcome.done.injEq] at hdone
      obtain ⟨_, uinfo, huinfo, chan, _, _, _, _, added, hdb, rfl⟩ := hdone
      obtain ⟨hselect, hadded⟩ := dbAddLike_row hdb
      rw [hadded]
      exact .addLike huinfo hselect
  | postUnlike chanId postId cmtId =>
      simp only [handle, hdlPostUnlikeReq, ready_eq_done, withUinfo_eq_done,
        withChan_eq_done, check_eq_done, Outcome.done.injEq] at hdone
      obtain ⟨_, uinfo, _, chan, _, _, rfl⟩ := hdone
      exact .rmLike
  | getPosts chanId qc =>
      simp only [handle, hdlGetPostsReq, ready_eq_done, withUinfo_eq_done,
        withChan_eq_done, dbCall_eq_done, Outcome.done.injEq] at hdone
      obtain ⟨_, uinfo, _, chan, _, pinfos, _, rfl⟩ := hdone
      exact .nothing
  | getCmts chanId postId qc =>
      simp only [handle, hdlGetCmtsReq, ready_eq_done, withUinfo_eq_done,
        withPost_eq_done, dbCall_eq_done, Outcome.done.injEq] at hdone
      obtain ⟨_, uinfo, _, chan, _, _, cinfos, _, rfl⟩ := hdone
      exact .nothing
  | subChan id proof =>
      simp only [handle, hdlSubChanReq, ready_eq_done, withUinfo_eq_done,
        withChan_eq_done, check_eq_done, dbCall_eq_done, Outcome.done.injEq] at hdone
      obtain ⟨_, uinfo, huinfo, chan, hchan, _, db, hdb, rfl⟩ := hdone
      rw [(dbAddSub_eq_some hdb).2]
      exact .addSub huinfo hchan
  | unsubChan id =>
      simp only [handle, hdlUnsubChanReq, ready_eq_done, withUinfo_eq_done,
        withChan_eq_done, check_eq_done, Outcome.done.injEq] at hdone
      obtain ⟨_, uinfo, _, chan, _, _, rfl⟩ := hdone
      exact .rmSub
  | enblNotif =>
      simp only [handle, hdlEnblNotifReq, ready_eq_done, withUinfo_eq_done,
        Outcome.done.injEq] at hdone
      obtain ⟨_, uinfo, _, rfl⟩ := hdone
      exact .nothing
  | updUserInfo params =>
      simp only [handle, hdlUpdUserInfoReq, ready_eq_done, withUinfo_eq_done,
        dbCall_eq_done, Outcome.done.injEq] at hdone
      obtain ⟨_, uinfo, _, db, hdb, rfl⟩ := hdone
      rw [dbUpdateUserInfo_rows hdb]
      exact .updUser
  | reportIllegalCmt chanId postId cmtId reasons =>
      simp only [handle, hdlReportIllegalCmtReq, ready_eq_done, withUinfo_eq_done,
        withPost_eq_done, check_eq_done, Outcome.done.injEq] at hdone
      obtain ⟨_, uinfo, huinfo, chan, hchan, hpostId, hok, _, rfl⟩ := hdone
      exact .report huinfo hchan (by simpa using hpostId) hok
  | query query =>
      rw [(handleQuery_eq_done hdone).1]
      exact .nothing

/-- What a whole request writes, whether or not it is carried out. -/
theorem step_writes (w : World) (ctx : Ctx) (req : Req) :
    Writes w ctx req (step w (.request ctx req)).db := by
  rw [step_request_db]
  obtain ⟨carried, hdone⟩ | ⟨hsame, -⟩ := respond_cases w ctx req
  · rw [(respond_done hdone).1]
    exact handle_writes hdone
  · rw [hsame]
    exact .nothing

end FeedsService.Feeds
