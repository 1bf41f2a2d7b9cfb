import FeedsService.Feeds.Posts
import FeedsService.Rpc.Packets

/-!
# What notifications say

The fields of the notifications about posts, comments and reports, against the columns of the
rows that are stored when the request has been handled.
-/

namespace FeedsService.Rpc

open FeedsService.Library FeedsService.Feeds

/-- The message goes out: no call before it aborts. -/
def Sends (outs : List Out) (peer : NodeId) (msg : Msg) : Prop :=
  ∃ before after, outs = before ++ .msgqEnq peer msg :: after ∧ before.any Out.Aborts = false

/-- The message is a notification about a post, a comment or a report. -/
def Notifies : Msg → Prop
  | .newPost _ | .postUpd _ | .newCmt _ | .cmtUpd _ | .reportCmt _ _ _ _ => True
  | _ => False

section Columns

/-- The fields of `post_update`; its content is nil when the post is deleted. -/
structure PostTold (pinfo : PostInfo) (row : PostRow) : Prop where
  stat : pinfo.stat = row.status
  content : pinfo.stat ≠ .deleted → pinfo.content = row.content
  cmts : pinfo.cmts = row.nextCommentId - 1
  likes : pinfo.likes = row.likes
  createdAt : pinfo.createdAt = row.createdAt
  updAt : pinfo.updAt = row.updatedAt

/-- The fields of `new_post`. -/
structure NewPostTold (pinfo : PostInfo) (row : PostRow) : Prop extends PostTold pinfo row where
  thumbnails : pinfo.thumbnails = row.thumbnails
  hashId : pinfo.hashId = row.hashId
  proof : pinfo.proof = row.proof
  originPostUrl : pinfo.originPostUrl = row.originPostUrl

/-- The fields of `comment_update`; its content is nil unless the comment is available. -/
structure CmtTold (cinfo : CmtInfo) (row : CommentRow) : Prop where
  stat : cinfo.stat = row.status
  replyToCmt : cinfo.replyToCmt = row.refcommentId
  user : bindInt64 cinfo.user.uid = row.userId
  content : cinfo.stat = .available → cinfo.content = row.content
  likes : cinfo.likes = row.likes
  createdAt : cinfo.createdAt = row.createdAt
  updAt : cinfo.updAt = row.updatedAt

/-- The fields of `new_comment`. -/
structure NewCmtTold (cinfo : CmtInfo) (row : CommentRow) : Prop extends CmtTold cinfo row where
  thumbnails : cinfo.thumbnails = row.thumbnails
  hashId : cinfo.hashId = row.hashId
  proof : cinfo.proof = row.proof

variable (env : Surroundings)

/-- The fields of `report_illegal_comment` that are not its keys. -/
structure ReportTold (row : ReportedCommentRow) : Prop where
  reasons : env.reasons = some row.reasons
  createdAt : env.createdAt = u64 row.createdAt

/-- The row with the keys of the notification has its fields. -/
def Told (db : Db) : Msg → Prop
  | .newPost pinfo =>
      ∃ row, db.posts.find? (PostRow.at pinfo.chanId pinfo.postId) = some row ∧
        NewPostTold pinfo row
  | .postUpd pinfo =>
      ∃ row, db.posts.find? (PostRow.at pinfo.chanId pinfo.postId) = some row ∧
        PostTold pinfo row
  | .newCmt cinfo =>
      ∃ row, db.comments.find? (CommentRow.at cinfo.chanId cinfo.postId cinfo.cmtId) = some row ∧
        NewCmtTold cinfo row
  | .cmtUpd cinfo =>
      ∃ row, db.comments.find? (CommentRow.at cinfo.chanId cinfo.postId cinfo.cmtId) = some row ∧
        CmtTold cinfo row
  | .reportCmt chanId postId cmtId reporter =>
      ∃ row, db.reportedComments.find?
          (ReportedCommentRow.at chanId postId cmtId (bindInt64 reporter.uid)) = some row ∧
        ReportTold env row
  | _ => True

/-- The user is stored under the name and the DID. -/
def UserTold (db : Db) (uinfo : UserInfo) : Prop :=
  ∃ row, db.users.find? (fun row => row.userId = bindInt64 uinfo.uid) = some row ∧
    uinfo.name = row.name ∧ uinfo.did = row.did

/-- So is the author or the reporter that the notification names. -/
def NamesUser (db : Db) : Msg → Prop
  | .newCmt cinfo | .cmtUpd cinfo => UserTold db cinfo.user
  | .reportCmt _ _ _ reporter => UserTold db reporter
  | _ => True

/-- Where the fields come out right: a post is deleted within the second of its last update, a
comment without content is unblocked, or the stack happens to hold what is reported. -/
def Truthful (w : World) (ctx : Ctx) : Feeds.Req → Prop
  | .delPost chanId postId =>
      ∀ row, w.db.posts.find? (PostRow.at (bindInt64 chanId) (bindInt64 postId)) = some row →
        row.updatedAt = ctx.now
  | .unblockCmt chanId postId cmtId =>
      ∀ row, w.db.comments.find?
          (CommentRow.at (bindInt64 chanId) (bindInt64 postId) (bindInt64 cmtId)) = some row →
        row.content = []
  | .reportIllegalCmt _ _ _ reasons =>
      env.reasons = some reasons ∧ env.createdAt = u64 ctx.now
  | _ => True

/-- The token of a request that names its user names him as he is stored. -/
def Named (w : World) (ctx : Ctx) : Feeds.Req → Prop
  | .postCmt _ _ _ _ | .editCmt _ _ _ _ _ | .delCmt _ _ _ | .unblockCmt _ _ _
  | .reportIllegalCmt _ _ _ _ => ∀ uinfo ∈ ctx.uinfo, UserTold w.db uinfo
  | _ => True

end Columns

section Sent

variable {outs : List Out} {peer : NodeId} {msg : Msg}

theorem not_sends_nil : ¬ Sends [] peer msg := by
  rintro ⟨before, after, houts, -⟩
  exact List.cons_ne_nil _ _ (List.append_eq_nil_iff.mp houts.symm).2

theorem Sends.cons {out : Out} (h : Sends (out :: outs) peer msg) :
    out = .msgqEnq peer msg ∨ out.Aborts = false ∧ Sends outs peer msg := by
  obtain ⟨before, after, houts, hbefore⟩ := h
  cases before with
  | nil => exact .inl (List.cons.inj houts).1
  | cons first before =>
      obtain ⟨rfl, hrest⟩ := List.cons.inj houts
      rw [List.any_cons, Bool.or_eq_false_iff] at hbefore
      exact .inr ⟨hbefore.1, before, after, hrest, hbefore.2⟩

/-- Every destination is sent the same message. -/
theorem Sends.flatMap {notified : Msg} {peers : List NodeId}
    (h : Sends (peers.flatMap fun peer => [.msgqEnq peer notified]) peer msg) :
    msg = notified := by
  induction peers with
  | nil => exact absurd h not_sends_nil
  | cons first peers ih =>
      rw [List.flatMap_cons] at h
      rcases h.cons with heq | ⟨-, hrest⟩
      · cases heq
        rfl
      · exact ih hrest

/-- Behind a status that is rendered, too. -/
theorem Sends.flatMap_stat {notified : Msg} {peers : List NodeId} {stat : Out}
    (hstat : ∀ peer msg, stat ≠ .msgqEnq peer msg)
    (h : Sends (peers.flatMap fun peer => [stat, .msgqEnq peer notified]) peer msg) :
    msg = notified ∧ stat.Aborts = false := by
  induction peers with
  | nil => exact absurd h not_sends_nil
  | cons first peers ih =>
      rw [List.flatMap_cons] at h
      rcases h.cons with heq | ⟨hrendered, hrest⟩
      · exact absurd heq (hstat peer msg)
      · rcases hrest.cons with heq | ⟨-, hmore⟩
        · cases heq
          exact ⟨rfl, hrendered⟩
        · exact ih hmore

theorem Sends.mem (h : Sends outs peer msg) : .msgqEnq peer msg ∈ outs := by
  obtain ⟨before, after, rfl, -⟩ := h
  exact List.mem_append_right _ List.mem_cons_self

/-- A notification is not among the replies. -/
theorem Sends.of_append {replies : List Out} (h : Sends (outs ++ replies) peer msg)
    (hreplies : .msgqEnq peer msg ∉ replies) : Sends outs peer msg := by
  induction outs with
  | nil => exact absurd h.mem hreplies
  | cons out outs ih =>
      rcases h.cons with rfl | ⟨haborts, hrest⟩
      · exact ⟨[], outs, rfl, rfl⟩
      · obtain ⟨before, after, rfl, hbefore⟩ := ih hrest
        refine ⟨out :: before, after, rfl, ?_⟩
        rw [List.any_cons, haborts, hbefore, Bool.false_or]

end Sent

section Stored

variable (env : Surroundings) {db db' : Db}

theorem told_dbAddPost {pi : PostInfo} (h : dbAddPost db pi = some db') (hcmts : pi.cmts = 0)
    (hlikes : pi.likes = 0) (hupdAt : pi.updAt = pi.createdAt) :
    Told env db' (.newPost pi) := by
  have hfresh : db.posts.any (PostRow.at pi.chanId pi.postId) = false := by
    rw [dbAddPost] at h
    split at h
    · cases h
    · next hany => exact Bool.eq_false_iff.mpr hany
  rw [dbAddPost_eq_some h]
  exact ⟨newPostRow pi, find?_concat hfresh (by simp [PostRow.at, newPostRow]),
    ⟨rfl, fun _ => rfl, hcmts, hlikes, rfl, hupdAt⟩, rfl, rfl, rfl, rfl⟩

theorem told_dbUpdPost {pi : PostInfo} {upd : PostInfo × Db} (h : dbUpdPost db pi = some upd) :
    ∃ row, db.posts.find? (PostRow.at pi.chanId pi.postId) = some row ∧
      (pi.stat = row.status → Told env upd.2 (.postUpd upd.1)) := by
  obtain ⟨updated, hfind, rfl⟩ := Option.map_eq_some_iff.mp h
  obtain ⟨row, hrow, rfl⟩ := of_find?_updateWhere hfind fun _ => rfl
  exact ⟨row, hrow, fun hstat => ⟨_, hfind, hstat, fun _ => rfl, rfl, rfl, rfl, rfl⟩⟩

/-- The update time is not stored, and the content is not read back. -/
theorem told_dbSetPostStatus {pi : PostInfo} {set : PostInfo × Db}
    (h : dbSetPostStatus db pi = some set) :
    ∃ row, db.posts.find? (PostRow.at pi.chanId pi.postId) = some row ∧
      (Told env set.2 (.postUpd set.1) ↔
        (pi.stat ≠ .deleted → pi.content = row.content) ∧ pi.updAt = row.updatedAt) := by
  have hkeep : ∀ row : PostRow, PostRow.at pi.chanId pi.postId { row with status := pi.stat } =
      row.at pi.chanId pi.postId :=
    fun _ => rfl
  obtain ⟨updated, hfind, rfl⟩ := Option.map_eq_some_iff.mp h
  obtain ⟨row, hrow, rfl⟩ := of_find?_updateWhere hfind hkeep
  refine ⟨row, hrow, ?_⟩
  constructor
  · rintro ⟨stored, hstored, hpost⟩
    cases hfind.symm.trans hstored
    exact ⟨hpost.content, hpost.updAt⟩
  · rintro ⟨hcontent, hupdAt⟩
    exact ⟨_, hfind, rfl, hcontent, rfl, rfl, rfl, hupdAt⟩

theorem told_dbGetPost {pi read : PostInfo} (h : dbGetPost db pi.chanId pi.postId pi = some read) :
    Told env db (.postUpd read) := by
  obtain ⟨row, hrow, rfl⟩ := Option.map_eq_some_iff.mp h
  exact ⟨row, hrow, rfl, fun _ => rfl, rfl, rfl, rfl, rfl⟩

theorem newCmtTold_newCommentRow {ci : CmtInfo} (cmtId : ℤ) (hstat : ci.stat = .available)
    (hlikes : ci.likes = 0) (hupdAt : ci.updAt = ci.createdAt) :
    NewCmtTold { ci with cmtId := cmtId } (newCommentRow cmtId ci) where
  stat := hstat
  replyToCmt := rfl
  user := by simp only [newCommentRow]
  content _ := rfl
  likes := hlikes
  createdAt := rfl
  updAt := hupdAt
  thumbnails := rfl
  hashId := rfl
  proof := rfl

/-- The id that the handler replies is that of the new comment. -/
theorem told_dbAddCmt {ci : CmtInfo} {added : ℤ × Db} (h : dbAddCmt db ci = some added)
    (hstat : ci.stat = .available) (hlikes : ci.likes = 0) (hupdAt : ci.updAt = ci.createdAt) :
    Told env added.2 (.newCmt { ci with cmtId := added.1 }) ∧ added.2.users = db.users := by
  rw [dbAddCmt] at h
  split at h
  · cases h
  next post hpost =>
    split at h
    · cases h
    next hany =>
      obtain ⟨updated, hupdated, rfl⟩ := Option.map_eq_some_iff.mp h
      obtain ⟨row, hrow, rfl⟩ := of_find?_updateWhere hupdated fun _ => rfl
      cases hrow.symm.trans hpost
      simp only [Int.add_sub_cancel]
      have hnew : (db.comments ++ [newCommentRow post.nextCommentId ci]).find?
          (CommentRow.at ci.chanId ci.postId post.nextCommentId) =
            some (newCommentRow post.nextCommentId ci) :=
        find?_concat (Bool.eq_false_iff.mpr hany) (by simp [CommentRow.at, newCommentRow])
      exact ⟨⟨_, hnew, newCmtTold_newCommentRow _ hstat hlikes hupdAt⟩, trivial⟩

theorem told_dbUpdCmt {ci : CmtInfo} {upd : CmtInfo × Db} (h : dbUpdCmt db ci = some upd) :
    ∃ row, db.comments.find? (CommentRow.at ci.chanId ci.postId ci.cmtId) = some row ∧
      (ci.stat = row.status → bindInt64 ci.user.uid = row.userId →
        Told env upd.2 (.cmtUpd upd.1)) ∧
      upd.2.users = db.users ∧ upd.1.user = ci.user := by
  obtain ⟨updated, hfind, rfl⟩ := Option.map_eq_some_iff.mp h
  obtain ⟨row, hrow, rfl⟩ := of_find?_updateWhere hfind fun _ => rfl
  exact ⟨row, hrow, fun hstat huser =>
    ⟨_, hfind, hstat, rfl, huser, fun _ => rfl, rfl, rfl, rfl⟩, rfl, rfl⟩

/-- The content of a comment is not read back with its status. -/
theorem told_dbSetCmtStatus {ci : CmtInfo} {set : CmtInfo × Db}
    (h : dbSetCmtStatus db ci = some set) :
    ∃ row, db.comments.find? (CommentRow.at ci.chanId ci.postId ci.cmtId) = some row ∧
      (bindInt64 ci.user.uid = row.userId → (Told env set.2 (.cmtUpd set.1) ↔
        (ci.stat = .available → ci.content = row.content))) ∧
      set.2.users = db.users ∧ set.1.user = ci.user := by
  obtain ⟨updated, hfind, rfl⟩ := Option.map_eq_some_iff.mp h
  obtain ⟨row, hrow, rfl⟩ := of_find?_updateWhere hfind fun _ => rfl
  refine ⟨row, hrow, fun huser => ?_, rfl, rfl⟩
  constructor
  · rintro ⟨stored, hstored, hcmt⟩
    cases hfind.symm.trans hstored
    exact hcmt.content
  · intro hcontent
    exact ⟨_, hfind, rfl, rfl, huser, hcontent, rfl, rfl, rfl⟩

theorem told_dbAddReportedCmts (row : ReportedCommentRow) (reporter : UserInfo)
    (hreporter : row.reporterId = bindInt64 reporter.uid) :
    Told env (dbAddReportedCmts db row)
        (.reportCmt row.channelId row.postId row.commentId reporter) ↔
      env.reasons = some row.reasons ∧ env.createdAt = u64 row.createdAt := by
  have hstored : (dbAddReportedCmts db row).reportedComments.find?
      (ReportedCommentRow.at row.channelId row.postId row.commentId row.reporterId) =
        some row := by
    refine find?_concat ?_ (by simp [ReportedCommentRow.at])
    rw [List.any_eq_false]
    exact fun old hold hat => by simp [mem_deleteWhere.mp hold] at hat
  simp only [Told, ← hreporter, hstored, Option.some.injEq, exists_eq_left']
  constructor
  · intro hreport
    exact ⟨hreport.reasons, hreport.createdAt⟩
  · rintro ⟨hreasons, hcreatedAt⟩
    exact ⟨hreasons, hcreatedAt⟩

end Stored

section Handled

variable {env : Surroundings} {w : World} {ctx : Ctx} {done : Done} {peer : NodeId} {msg : Msg}

/-- The two parts of what a notification says, each with its condition. -/
def SaidOf (env : Surroundings) (w : World) (ctx : Ctx) (req : Feeds.Req) (db : Db)
    (msg : Msg) : Prop :=
  (Told env db msg ↔ Truthful env w ctx req) ∧ (NamesUser db msg ↔ Named w ctx req)

theorem said_pubPost {chanId : UInt64} {params : PostParams}
    (hdone : hdlPubPostReq w ctx chanId params = .done done) (hsent : Sends done.outs peer msg) :
    SaidOf env w ctx (.pubPost chanId params) done.world.db msg := by
  simp only [hdlPubPostReq, ready_eq_done, withOwner_eq_done, withChan_eq_done, dbCall_eq_done,
    Outcome.done.injEq] at hdone
  obtain ⟨-, -, chan, -, db, hdb, rfl⟩ := hdone
  obtain rfl := Sends.flatMap hsent
  exact ⟨iff_of_true (told_dbAddPost env hdb rfl rfl rfl) trivial, Iff.rfl⟩

theorem said_declarePost {chanId : UInt64} {withNotify : Bool} {params : PostParams}
    (hdone : hdlDeclarePostReq w ctx chanId withNotify params = .done done)
    (hsent : Sends done.outs peer msg) :
    SaidOf env w ctx (.declarePost chanId withNotify params) done.world.db msg := by
  simp only [hdlDeclarePostReq, ready_eq_done, withOwner_eq_done, withChan_eq_done,
    dbCall_eq_done, Outcome.done.injEq] at hdone
  obtain ⟨-, -, chan, -, db, hdb, rfl⟩ := hdone
  rcases hsent.cons with heq | ⟨-, hrest⟩
  · cases heq
  · cases withNotify with
    | false => exact absurd hrest not_sends_nil
    | true =>
        obtain rfl := Sends.flatMap hrest
        exact ⟨iff_of_true (told_dbAddPost env hdb rfl rfl rfl) trivial, Iff.rfl⟩

theorem said_notifyPost {chanId postId : UInt64}
    (hdone : hdlNotifyPostReq w ctx chanId postId = .done done)
    (hsent : Sends done.outs peer msg) :
    SaidOf env w ctx (.notifyPost chanId postId) done.world.db msg := by
  simp only [hdlNotifyPostReq, ready_eq_done, withOwner_eq_done, withChan_eq_done,
    dbCall_eq_done, check_eq_done, Outcome.done.injEq] at hdone
  obtain ⟨-, -, chan, -, stat, -, -, set, hset, pi, hpi, rfl⟩ := hdone
  obtain ⟨rfl, -⟩ := Sends.flatMap_stat (fun _ _ => Out.noConfusion) hsent
  obtain ⟨row, -, hread⟩ := Option.map_eq_some_iff.mp hset
  have hids : set.1.chanId = bindInt64 chanId ∧ set.1.postId = bindInt64 postId := by
    simp only [← hread, blankPost, and_self]
  rw [← hids.1, ← hids.2] at hpi
  exact ⟨iff_of_true (told_dbGetPost env hpi) trivial, Iff.rfl⟩

theorem said_editPost (hcounted : Counted w.db) {chanId postId : UInt64} {params : PostParams}
    (hdone : hdlEditPostReq w ctx chanId postId params = .done done)
    (hsent : Sends done.outs peer msg) :
    SaidOf env w ctx (.editPost chanId postId params) done.world.db msg := by
  simp only [hdlEditPostReq, ready_eq_done, withOwner_eq_done, withChan_eq_done,
    dbCall_eq_done, check_eq_done, Outcome.done.injEq] at hdone
  obtain ⟨-, -, chan, -, havail, upd, hupd, rfl⟩ := hdone
  obtain ⟨rfl, -⟩ := Sends.flatMap_stat (fun _ _ => Out.noConfusion) hsent
  obtain ⟨row, hrow, htold⟩ := told_dbUpdPost env hupd
  simp only [blankPost] at hrow htold
  have hstatus : row.status = .available :=
    hcounted.post_available havail (List.mem_of_find?_eq_some hrow) (List.find?_some hrow)
  exact ⟨iff_of_true (htold hstatus.symm) trivial, Iff.rfl⟩

/-- The time at which a post is deleted is not stored. -/
theorem said_delPost {chanId postId : UInt64}
    (hdone : hdlDelPostReq w ctx chanId postId = .done done) (hsent : Sends done.outs peer msg) :
    SaidOf env w ctx (.delPost chanId postId) done.world.db msg := by
  simp only [hdlDelPostReq, ready_eq_done, withOwner_eq_done, withChan_eq_done,
    dbCall_eq_done, check_eq_done, Outcome.done.injEq] at hdone
  obtain ⟨-, -, chan, -, -, set, hset, rfl⟩ := hdone
  obtain ⟨rfl, -⟩ := Sends.flatMap_stat (fun _ _ => Out.noConfusion) hsent
  obtain ⟨row, hrow, htold⟩ := told_dbSetPostStatus env hset
  simp only [blankPost, ne_eq, not_true_eq_false, false_imp_iff, true_and] at hrow htold
  refine ⟨htold.trans ?_, Iff.rfl⟩
  simp only [Truthful, hrow, Option.some.injEq, forall_eq', eq_comm]

/-- What the token says of its user is the same before and after. -/
theorem named_iff {db : Db} {uinfo : UserInfo} (huinfo : ctx.uinfo = some uinfo)
    (husers : db.users = w.db.users) :
    UserTold db uinfo ↔ ∀ uinfo ∈ ctx.uinfo, UserTold w.db uinfo := by
  rw [huinfo]
  simp only [Option.mem_some_iff, forall_eq', UserTold, husers]

theorem author_of_find? {db : Db} {channelId postId cmtId uid : ℤ} {row : CommentRow}
    (hauthor : decide (dbCmtUid db channelId postId cmtId = some uid) = true)
    (hrow : db.comments.find? (CommentRow.at channelId postId cmtId) = some row) :
    row.userId = uid := by
  rw [decide_eq_true_eq, dbCmtUid, hrow] at hauthor
  exact Option.some.inj hauthor

theorem said_postCmt {chanId postId cmtId : UInt64} {params : CmtParams}
    (hdone : hdlPostCmtReq w ctx chanId postId cmtId params = .done done)
    (hsent : Sends done.outs peer msg) :
    SaidOf env w ctx (.postCmt chanId postId cmtId params) done.world.db msg := by
  simp only [hdlPostCmtReq, ready_eq_done, withUinfo_eq_done, withPost_eq_done,
    dbCall_eq_done, check_eq_done, Outcome.done.injEq] at hdone
  obtain ⟨-, uinfo, huinfo, chan, -, -, -, added, hadded, rfl⟩ := hdone
  obtain rfl := Sends.flatMap hsent
  obtain ⟨htold, husers⟩ := told_dbAddCmt env hadded rfl rfl rfl
  simp only [blankCmt] at htold ⊢
  exact ⟨iff_of_true htold trivial, named_iff huinfo husers⟩

theorem said_editCmt (hcounted : Counted w.db) {chanId postId id cmtId : UInt64}
    {params : CmtParams} (hdone : hdlEditCmtReq w ctx chanId postId id cmtId params = .done done)
    (hsent : Sends done.outs peer msg) :
    SaidOf env w ctx (.editCmt chanId postId id cmtId params) done.world.db msg := by
  simp only [hdlEditCmtReq, ready_eq_done, withUinfo_eq_done, withPost_eq_done,
    dbCall_eq_done, check_eq_done, Outcome.done.injEq] at hdone
  obtain ⟨-, uinfo, huinfo, chan, -, -, havail, hauthor, -, upd, hupd, rfl⟩ := hdone
  obtain ⟨rfl, -⟩ := Sends.flatMap_stat (fun _ _ => Out.noConfusion) hsent
  obtain ⟨row, hrow, htold, husers, huser⟩ := told_dbUpdCmt env hupd
  simp only [blankCmt] at hrow htold huser
  have hstatus : row.status = .available :=
    hcounted.available havail (List.mem_of_find?_eq_some hrow) (List.find?_some hrow)
  have hnamed : NamesUser upd.2 (.cmtUpd upd.1) ↔ UserTold upd.2 uinfo := by
    rw [NamesUser, huser]
  exact ⟨iff_of_true (htold hstatus.symm (author_of_find? hauthor hrow).symm) trivial,
    hnamed.trans (named_iff huinfo husers)⟩

/-- What the three handlers that set the status of a comment say. -/
theorem said_setCmtStatus {found : Db → ℤ → ℤ → ℤ → Bool} {stat : CmtStat}
    {chanId postId cmtId : UInt64}
    (hdone : setCmtStatus found stat w ctx chanId postId cmtId = .done done)
    (hsent : Sends done.outs peer msg) :
    (cmtStatStr stat).isSome = true ∧
      (Told env done.world.db msg ↔ (stat = .available →
        ∀ row, w.db.comments.find?
            (CommentRow.at (bindInt64 chanId) (bindInt64 postId) (bindInt64 cmtId)) = some row →
          row.content = [])) ∧
      (NamesUser done.world.db msg ↔ ∀ uinfo ∈ ctx.uinfo, UserTold w.db uinfo) := by
  simp only [setCmtStatus, ready_eq_done, withUinfo_eq_done, withPost_eq_done,
    dbCall_eq_done, check_eq_done, Outcome.done.injEq] at hdone
  obtain ⟨-, uinfo, huinfo, chan, -, -, -, hauthor, set, hset, rfl⟩ := hdone
  obtain ⟨rfl, hrendered⟩ := Sends.flatMap_stat (fun _ _ => Out.noConfusion) hsent
  have hstat := (dbSetCmtStatus_eq_some hset).2
  obtain ⟨row, hrow, htold, husers, huser⟩ := told_dbSetCmtStatus env hset
  simp only [blankCmt] at hrow htold huser hstat
  have hnamed : NamesUser set.2 (.cmtUpd set.1) ↔ UserTold set.2 uinfo := by
    rw [NamesUser, huser]
  rw [hstat] at hrendered
  refine ⟨Option.isNone_eq_false_iff.mp hrendered, ?_,
    hnamed.trans (named_iff huinfo husers)⟩
  refine (htold (author_of_find? hauthor hrow).symm).trans ?_
  simp only [hrow, Option.some.injEq, forall_eq', eq_comm]

/-- The reasons and the time of a report are what the stack holds. -/
theorem said_reportIllegalCmt {chanId postId cmtId : UInt64} {reasons : String}
    (hdone : hdlReportIllegalCmtReq w ctx chanId postId cmtId reasons = .done done)
    (hsent : Sends done.outs peer msg) :
    SaidOf env w ctx (.reportIllegalCmt chanId postId cmtId reasons) done.world.db msg := by
  simp only [hdlReportIllegalCmtReq, ready_eq_done, withUinfo_eq_done, withPost_eq_done,
    check_eq_done, Outcome.done.injEq] at hdone
  obtain ⟨-, uinfo, huinfo, chan, -, -, -, -, rfl⟩ := hdone
  obtain rfl := Sends.flatMap hsent
  have htold := @told_dbAddReportedCmts env w.db ⟨bindInt64 chanId, bindInt64 postId,
    bindInt64 cmtId, bindInt64 uinfo.uid, ctx.now, reasons⟩ uinfo (by simp only)
  simp only at htold
  exact ⟨htold, named_iff huinfo rfl⟩

theorem said_handle (hcounted : Counted w.db) {req : Feeds.Req}
    (hdone : handle w ctx req = .done done) (hsent : Sends done.outs peer msg)
    (hnotifies : Notifies msg) : SaidOf env w ctx req done.world.db msg := by
  cases req with
  | pubPost chanId params => exact said_pubPost hdone hsent
  | declarePost chanId withNotify params => exact said_declarePost hdone hsent
  | notifyPost chanId postId => exact said_notifyPost hdone hsent
  | editPost chanId postId params => exact said_editPost hcounted hdone hsent
  | delPost chanId postId => exact said_delPost hdone hsent
  | postCmt chanId postId cmtId params => exact said_postCmt hdone hsent
  | editCmt chanId postId id cmtId params => exact said_editCmt hcounted hdone hsent
  | delCmt chanId postId id =>
      obtain ⟨-, htold, hnamed⟩ := said_setCmtStatus hdone hsent
      exact ⟨htold.trans (iff_of_true CmtStat.noConfusion trivial), hnamed⟩
  | blockCmt chanId postId cmtId =>
      -- the status cannot be rendered, so nothing is sent
      have hsaid : _ ∧ (Told env done.world.db msg ↔ _) ∧ _ := said_setCmtStatus hdone hsent
      exact absurd hsaid.1 Bool.noConfusion
  | unblockCmt chanId postId cmtId =>
      obtain ⟨-, htold, hnamed⟩ := said_setCmtStatus hdone hsent
      exact ⟨htold.trans (forall_prop_of_true rfl), hnamed⟩
  | reportIllegalCmt chanId postId cmtId reasons => exact said_reportIllegalCmt hdone hsent
  | updChan chanId params =>
      simp only [handle, hdlUpdChanReq, ready_eq_done, withOwner_eq_done, withChan_eq_done,
        check_eq_done, dbCall_eq_done, Outcome.done.injEq] at hdone
      obtain ⟨-, -, chan, -, -, db, -, rfl⟩ := hdone
      obtain rfl := Sends.flatMap hsent
      exact absurd hnotifies id
  | postLike chanId postId cmtId proof =>
      simp only [handle, hdlPostLikeReq, ready_eq_done, withUinfo_eq_done, withPost_eq_done,
        check_eq_done, dbCall_eq_done, Outcome.done.injEq] at hdone
      obtain ⟨-, uinfo, -, chan, -, -, -, -, added, -, rfl⟩ := hdone
      obtain rfl := Sends.flatMap hsent
      exact absurd hnotifies id
  | subChan id proof =>
      simp only [handle, hdlSubChanReq, ready_eq_done, withUinfo_eq_done, withChan_eq_done,
        check_eq_done, dbCall_eq_done, Outcome.done.injEq] at hdone
      obtain ⟨-, uinfo, -, chan, -, -, db, -, rfl⟩ := hdone
      obtain rfl := Sends.flatMap hsent
      exact absurd hnotifies (fun h => h)
  | getPosts chanId qc =>
      simp only [handle, hdlGetPostsReq, ready_eq_done, withUinfo_eq_done, withChan_eq_done,
        dbCall_eq_done, Outcome.done.injEq] at hdone
      obtain ⟨-, uinfo, -, chan, -, pinfos, -, rfl⟩ := hdone
      obtain ⟨pi, -, heq⟩ := List.mem_map.mp hsent.mem
      cases heq
  | getCmts chanId postId qc =>
      simp only [handle, hdlGetCmtsReq, ready_eq_done, withUinfo_eq_done, withPost_eq_done,
        dbCall_eq_done, Outcome.done.injEq] at hdone
      obtain ⟨-, uinfo, -, chan, -, -, cinfos, -, rfl⟩ := hdone
      obtain ⟨ci, -, heq⟩ := List.mem_map.mp hsent.mem
      cases heq
  | query query =>
      rw [(handleQuery_eq_done hdone).2] at hsent
      exact absurd hsent not_sends_nil
  | createChan params | postUnlike _ _ _ | unsubChan _ | enblNotif | updUserInfo _ =>
      simp only [handle, hdlCreateChanReq, hdlPostUnlikeReq, hdlUnsubChanReq, hdlEnblNotifReq,
        hdlUpdUserInfoReq, ready_eq_done, withOwner_eq_done, withUinfo_eq_done,
        withChan_eq_done, check_eq_done, dbCall_eq_done, Outcome.done.injEq] at hdone
      have houts : done.outs = [] := by grind
      rw [houts] at hsent
      exact absurd hsent not_sends_nil

end Handled

section Notifications

/-- The notifications of a request of a reachable state say what is stored, item by item, exactly
where the request is `Truthful`, and name their user as he is stored exactly where it is
`Named`. -/
theorem notifications_told_iff (env : Surroundings) (events : List Feeds.Event) (ctx : Ctx)
    (req : Feeds.Req) (peer : NodeId) (msg : Msg)
    (hsent : Sends (Feeds.respond (perform (.start Db.init) events) ctx req).outs peer msg)
    (hnotifies : Notifies msg) :
    (Told env (Feeds.respond (perform (.start Db.init) events) ctx req).world.db msg ↔
        Truthful env (perform (.start Db.init) events) ctx req) ∧
      (NamesUser (Feeds.respond (perform (.start Db.init) events) ctx req).world.db msg ↔
        Named (perform (.start Db.init) events) ctx req) := by
  have hconsistent := (Consistent.reachable events).last (run_perform _ events)
  generalize perform (.start Db.init) events = w at hsent hconsistent ⊢
  rw [Feeds.respond] at hsent ⊢
  cases hdone : handle w ctx req with
  | ignored =>
      rw [hdone] at hsent
      exact absurd hsent not_sends_nil
  | failed err =>
      rw [hdone] at hsent
      cases List.mem_singleton.mp hsent.mem
      exact absurd hnotifies id
  | done done =>
      rw [hdone] at hsent
      refine said_handle hconsistent.counted hdone (hsent.of_append fun hreply => ?_) hnotifies
      obtain ⟨resp, -, heq⟩ := List.mem_map.mp hreply
      cases heq
      exact absurd hnotifies id

/-- Every notification says what is stored. -/
def NotificationsTold : Prop :=
  ∀ env events ctx req peer msg,
    Sends (Feeds.respond (perform (.start Db.init) events) ctx req).outs peer msg → Notifies msg →
      Told env (Feeds.respond (perform (.start Db.init) events) ctx req).world.db msg

/-- What is handed to the message queue before a call aborts. -/
def sent : List Out → List (NodeId × Msg)
  | [] => []
  | .msgqEnq peer msg :: outs => (peer, msg) :: sent outs
  | out :: outs => if out.Aborts then [] else sent outs

theorem sends_of_mem_sent {outs : List Out} {peer : NodeId} {msg : Msg}
    (h : (peer, msg) ∈ sent outs) : Sends outs peer msg := by
  induction outs with
  | nil => exact absurd h List.not_mem_nil
  | cons out outs ih =>
      have hlater (haborts : out.Aborts = false) (hmem : (peer, msg) ∈ sent outs) :
          Sends (out :: outs) peer msg := by
        obtain ⟨before, after, rfl, hbefore⟩ := ih hmem
        refine ⟨out :: before, after, rfl, ?_⟩
        rw [List.any_cons, haborts, hbefore, Bool.false_or]
      cases out with
      | msgqEnq first other =>
          rcases List.mem_cons.mp h with heq | hmem
          · cases heq
            exact ⟨[], outs, rfl, rfl⟩
          · exact hlater rfl hmem
      | postStat stat | cmtStat stat =>
          simp only [sent] at h
          split at h
          · exact absurd h List.not_mem_nil
          · next haborts => exact hlater (Bool.eq_false_iff.mpr haborts) h

/-- The owner deletes, at time 5, the post that was published at time 0. -/
def deletingOwner : Ctx :=
  { commentingOwner with now := 5 }

def blankStack : Surroundings :=
  ⟨⟨1, "did:owner", "owner", "NA", none, none⟩, "", 0, fun _ => "", fun _ => "", none, 0⟩

/-- A `post_update` that says it was made at time 5. -/
def updatedAtFive : NodeId × Msg → Bool
  | (_, .postUpd pinfo) => pinfo.updAt = 5
  | _ => false

theorem exists_updatedAtFive :
    ∃ peer pinfo, pinfo.updAt = 5 ∧
      Sends (Feeds.respond (perform (.start Db.init) commentingRun) deletingOwner
        (.delPost 1 1)).outs peer (.postUpd pinfo) := by
  have hany : (sent (Feeds.respond (perform (.start Db.init) commentingRun) deletingOwner
      (.delPost 1 1)).outs).any updatedAtFive = true := by
    decide +kernel
  obtain ⟨⟨peer, msg⟩, hmem, hfive⟩ := List.any_eq_true.mp hany
  cases msg with
  | postUpd pinfo => exact ⟨peer, pinfo, of_decide_eq_true hfive, sends_of_mem_sent hmem⟩
  | _ => cases hfive

/-- The row still says 0. -/
theorem not_notificationsTold : ¬ NotificationsTold := by
  intro h
  obtain ⟨peer, pinfo, hfive, hsent⟩ := exists_updatedAtFive
  have hzero : (Feeds.respond (perform (.start Db.init) commentingRun) deletingOwner
      (.delPost 1 1)).world.db.posts.all (fun row => row.updatedAt = 0) = true := by
    decide +kernel
  obtain ⟨row, hrow, hpost⟩ := h blankStack _ _ _ _ _ hsent trivial
  have hstored : row.updatedAt = 0 :=
    of_decide_eq_true (List.all_eq_true.mp hzero row (List.mem_of_find?_eq_some hrow))
  have hfalse : (5 : ℤ) = 0 := hfive.symm.trans (hpost.updAt.trans hstored)
  cases hfalse

theorem deletion_told_iff :
    ∃ pinfo, pinfo.updAt = 5 ∧
      (Told blankStack (Feeds.respond (perform (.start Db.init) commentingRun) deletingOwner
          (.delPost 1 1)).world.db (.postUpd pinfo) ↔
        Truthful blankStack (perform (.start Db.init) commentingRun) deletingOwner
          (.delPost 1 1)) := by
  obtain ⟨peer, pinfo, hfive, hsent⟩ := exists_updatedAtFive
  exact ⟨pinfo, hfive, (notifications_told_iff blankStack _ _ _ _ _ hsent trivial).1⟩

end Notifications

end FeedsService.Rpc
