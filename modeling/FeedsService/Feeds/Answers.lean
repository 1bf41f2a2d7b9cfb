import FeedsService.Feeds.Listings
import FeedsService.Feeds.Rendering
import FeedsService.Library.Replies

/-!
# How the handlers of `feeds.c` answer

A handler that gets to its end has put one error or the results of the request into the
queue; what it sends besides are notifications.
-/

namespace FeedsService.Feeds

open FeedsService.Library FeedsService.Library.Replies

section Marks

def Resp.mark : Resp → Mark
  | .chan isLast _ => markOf isLast
  | .posts isLast _ => markOf isLast
  | .cmts isLast _ => markOf isLast
  | .chans isLast _ => markOf isLast
  | .likedData isLast _ => markOf isLast
  | .reportedCmts isLast _ => markOf isLast
  | _ => .last

/-- The reply in a message; notifications are none. -/
def Msg.reply : Msg → Option Reply
  | .err tsxId _ => some ⟨tsxId.toNat, .error⟩
  | .resp tsxId result => some ⟨tsxId.toNat, result.mark⟩
  | _ => none

/-- The reply that a handler puts into the queue of a peer. -/
def Out.replyTo (peer : NodeId) : Out → Option Reply
  | .msgqEnq dest msg => if dest = peer then msg.reply else none
  | _ => none

/-- The replies to the sender of a request; none when the service aborts. -/
def Result.replies (ctx : Ctx) (result : Result) : Option (List Reply) :=
  if result.aborts then none else some (result.outs.filterMap (Out.replyTo ctx.from))

theorem Result.isSome_replies_iff {ctx : Ctx} {result : Result} :
    (result.replies ctx).isSome = true ↔ ¬ result.aborts = true := by
  rw [Result.replies]
  split
  · next haborts => simp [haborts]
  · next haborts => exact iff_of_true rfl haborts

end Marks

section Outcomes

/-- The handler does not end without an answer, and notifies but for it. -/
def Outcome.Answers (peer : NodeId) : Outcome → Prop
  | .ignored => False
  | .failed _ => True
  | .done carried =>
      carried.outs.filterMap (Out.replyTo peer) = [] ∧
        Terminal (carried.replies.map Resp.mark)

variable {w : World} {ctx : Ctx} {peer : NodeId} {next : Outcome}

@[simp]
theorem answers_failed (err : Err) : (Outcome.failed err).Answers peer := trivial

@[simp]
theorem answers_done (carried : Done) :
    (Outcome.done carried).Answers peer ↔
      carried.outs.filterMap (Out.replyTo peer) = [] ∧
        Terminal (carried.replies.map Resp.mark) := Iff.rfl

theorem answers_ready (hready : ctx.didIsReady = true) :
    (ready ctx next).Answers peer ↔ next.Answers peer := by
  rw [ready, if_pos hready]

@[simp]
theorem answers_check {condition : Bool} {err : Err} :
    (check condition err next).Answers peer ↔ (condition = true → next.Answers peer) := by
  cases condition <;> simp [check]

@[simp]
theorem answers_withUinfo {next : UserInfo → Outcome} :
    (withUinfo ctx next).Answers peer ↔
      ∀ uinfo, ctx.uinfo = some uinfo → (next uinfo).Answers peer := by
  cases h : ctx.uinfo <;> simp [withUinfo, h]

@[simp]
theorem answers_withOwner :
    (withOwner ctx next).Answers peer ↔
      ∀ uinfo, ctx.uinfo = some uinfo → userIdIsOwner uinfo.uid = true →
        next.Answers peer := by
  simp [withOwner]

@[simp]
theorem answers_withChan {chanId : UInt64} {next : Ref → Outcome} :
    (withChan w chanId next).Answers peer ↔
      ∀ chan, w.mem.chanGetById chanId.toNat = some chan → (next chan).Answers peer := by
  cases h : w.mem.chanGetById chanId.toNat <;> simp [withChan, h]

@[simp]
theorem answers_withPost {chanId postId : UInt64} {next : Ref → Outcome} :
    (withPost w chanId postId next).Answers peer ↔
      ∀ chan, w.mem.chanGetById chanId.toNat = some chan →
        postId.toNat < (w.mem.chan chan).info.nextPostId → (next chan).Answers peer := by
  simp [withPost]

@[simp]
theorem answers_dbCall {β : Type} {result : Option β} {err : Err} {next : β → Outcome} :
    (dbCall result err next).Answers peer ↔
      ∀ value, result = some value → (next value).Answers peer := by
  cases result <;> simp [dbCall]

/-- Notifications are no replies. -/
structure Notifies (notify : NodeId → List Out) : Prop where
  quiet : ∀ peer dest, (notify dest).filterMap (Out.replyTo peer) = []

theorem Notifies.replies {notify : NodeId → List Out} (h : Notifies notify) (peer : NodeId)
    (peers : List NodeId) : (peers.flatMap notify).filterMap (Out.replyTo peer) = [] := by
  induction peers with
  | nil => rfl
  | cons dest peers ih =>
      rw [List.flatMap_cons, List.filterMap_append, h.quiet peer dest, ih, List.append_nil]

end Outcomes

section Notifying

theorem notifies_msgqEnq {msg : Msg} (hmsg : msg.reply = none) :
    Notifies fun dest => [.msgqEnq dest msg] where
  quiet peer dest := by simp [Out.replyTo, hmsg]

theorem notifies_postUpd (pi : PostInfo) : Notifies (notifyOfPostUpd pi) where
  quiet peer dest := by simp [notifyOfPostUpd, Out.replyTo, Msg.reply]

theorem notifies_cmtUpd (ci : CmtInfo) : Notifies (notifyOfCmtUpd ci) where
  quiet peer dest := by simp [notifyOfCmtUpd, Out.replyTo, Msg.reply]

variable {α : Type} {peer : NodeId}

/-- The log lines of the items of a list are no replies. -/
theorem replies_logged {line : α → Out} (hline : ∀ item, (line item).replyTo peer = none)
    (items : List α) : (items.map line).filterMap (Out.replyTo peer) = [] := by
  rw [List.filterMap_eq_nil_iff]
  intro out hout
  obtain ⟨item, _, rfl⟩ := List.mem_map.mp hout
  exact hline item

end Notifying

section Lists

variable {α : Type} {limit : UInt64}

theorem terminal_replies {loop : Chunking.Loop α} {items : List α}
    {chunks : List (Bool × List α)} (hchunks : loop.replies limit items = some chunks) :
    Terminal (chunks.map fun chunk => markOf chunk.1) := by
  obtain ⟨sent, hsent, hlossless⟩ : ∃ sent, loop.replies limit items = some sent ∧
    Chunking.Lossless items sent := loop.replies_lossless items
  cases hsent.symm.trans hchunks
  exact terminal_of_lossless hlossless

theorem terminal_reportReplies (rcinfos : List ReportedCmtInfo) :
    Terminal ((reportReplies rcinfos).map fun reply => markOf reply.1) := by
  fun_induction reportReplies rcinfos with
  | case1 => exact terminal_last
  | case2 item => exact terminal_last
  | case3 item next rest ih => exact ih.cons_more

end Lists

section Handlers

variable {w : World} {ctx : Ctx}

theorem answers_chansReplies {peer : NodeId} (cinfos : List ChanInfo) :
    (Outcome.done ⟨w, [], chansReplies ctx cinfos⟩).Answers peer := by
  refine ⟨rfl, ?_⟩
  rw [chansReplies, List.map_map]
  exact terminal_replies (chansLoop_replies cinfos)

theorem handleQuery_answers (hready : ctx.didIsReady = true) (query : Query) :
    (handleQuery w ctx query).Answers ctx.from := by
  cases query with
  | getMyChans qc =>
      simp only [handleQuery, hdlGetMyChansReq, answers_ready hready, answers_withOwner,
        answers_dbCall]
      exact fun _ _ _ cinfos _ => answers_chansReplies cinfos
  | getChans qc =>
      simp only [handleQuery, hdlGetChansReq, answers_ready hready, answers_withUinfo,
        answers_dbCall]
      exact fun _ _ cinfos _ => answers_chansReplies cinfos
  | getSubChans qc =>
      simp only [handleQuery, hdlGetSubChansReq, answers_ready hready, answers_withUinfo,
        answers_dbCall]
      exact fun _ _ cinfos _ => answers_chansReplies cinfos
  | getLikedPosts qc =>
      simp only [handleQuery, hdlGetLikedPostsReq, answers_ready hready, answers_withUinfo,
        answers_dbCall, answers_done, List.filterMap_nil, true_and, List.map_map]
      exact fun _ _ pinfos _ => terminal_replies (likedPostsLoop_replies pinfos)
  | getLikedData qc =>
      simp only [handleQuery, hdlGetLikedDataReq, answers_ready hready, answers_withUinfo,
        answers_dbCall, answers_done, List.filterMap_nil, true_and, List.map_map]
      exact fun _ _ linfos _ => terminal_replies (likedDataLoop_replies linfos)
  | getReportedCmts qc =>
      simp only [handleQuery, hdlGetReportedCmtsReq, answers_ready hready, answers_withOwner,
        answers_dbCall, answers_done, List.filterMap_nil, true_and, List.map_map]
      exact fun _ _ _ rcinfos _ => terminal_reportReplies rcinfos
  | getMyChansMeta qc =>
      simp [handleQuery, hdlGetMyChansMetaReq, answers_ready hready, Resp.mark]
  | getChanDtl id => simp [handleQuery, hdlGetChanDtlReq, answers_ready hready, Resp.mark]
  | getPostsLac chanId qc =>
      simp [handleQuery, hdlGetPostsLacReq, answers_ready hready, Resp.mark]
  | getCmtsLikes chanId postId qc =>
      simp [handleQuery, hdlGetCmtsLikesReq, answers_ready hready, Resp.mark]
  | getStats => simp [handleQuery, hdlGetStatsReq, answers_ready hready, Resp.mark]
  | getSrvVer => simp [handleQuery, hdlGetSrvVerReq, Resp.mark]

theorem setCmtStatus_answers (hready : ctx.didIsReady = true)
    (found : Db → ℤ → ℤ → ℤ → Bool) (stat : CmtStat) (chanId postId cmtId : UInt64) :
    (setCmtStatus found stat w ctx chanId postId cmtId).Answers ctx.from := by
  simp [setCmtStatus, answers_ready hready, (notifies_cmtUpd _).replies, Resp.mark]

/-- A handler that is ready answers every request. -/
theorem handle_answers (hready : ctx.didIsReady = true) (req : Req) :
    (handle w ctx req).Answers ctx.from := by
  cases req with
  | createChan params => simp [handle, hdlCreateChanReq, answers_ready hready, Resp.mark]
  | updChan chanId params =>
      simp only [handle, hdlUpdChanReq, answers_ready hready, answers_withOwner,
        answers_withChan, answers_check, answers_dbCall, answers_done]
      intros
      exact ⟨(notifies_msgqEnq rfl).replies _ _, terminal_last⟩
  | pubPost chanId params =>
      simp only [handle, hdlPubPostReq, answers_ready hready, answers_withOwner,
        answers_withChan, answers_dbCall, answers_done]
      intros
      exact ⟨(notifies_msgqEnq rfl).replies _ _, terminal_last⟩
  | declarePost chanId withNotify params =>
      simp only [handle, hdlDeclarePostReq, answers_ready hready, answers_withOwner,
        answers_withChan, answers_dbCall, answers_done]
      intros
      refine ⟨?_, terminal_last⟩
      rw [List.filterMap_cons_none rfl]
      split
      · exact (notifies_msgqEnq rfl).replies _ _
      · rfl
  | notifyPost chanId postId =>
      simp only [handle, hdlNotifyPostReq, answers_ready hready, answers_withOwner,
        answers_withChan, answers_check, answers_dbCall, answers_done]
      intros
      exact ⟨(notifies_postUpd _).replies _ _, terminal_last⟩
  | editPost chanId postId params =>
      simp only [handle, hdlEditPostReq, answers_ready hready, answers_withOwner,
        answers_withChan, answers_check, answers_dbCall, answers_done]
      intros
      exact ⟨(notifies_postUpd _).replies _ _, terminal_last⟩
  | delPost chanId postId =>
      simp only [handle, hdlDelPostReq, answers_ready hready, answers_withOwner,
        answers_withChan, answers_check, answers_dbCall, answers_done]
      intros
      exact ⟨(notifies_postUpd _).replies _ _, terminal_last⟩
  | postCmt chanId postId cmtId params =>
      simp only [handle, hdlPostCmtReq, answers_ready hready, answers_withUinfo,
        answers_withPost, answers_check, answers_dbCall, answers_done]
      intros
      exact ⟨(notifies_msgqEnq rfl).replies _ _, terminal_last⟩
  | editCmt chanId postId id cmtId params =>
      simp only [handle, hdlEditCmtReq, answers_ready hready, answers_withUinfo,
        answers_withPost, answers_check, answers_dbCall, answers_done]
      intros
      exact ⟨(notifies_cmtUpd _).replies _ _, terminal_last⟩
  | delCmt chanId postId id => exact setCmtStatus_answers hready _ _ _ _ _
  | blockCmt chanId postId cmtId => exact setCmtStatus_answers hready _ _ _ _ _
  | unblockCmt chanId postId cmtId => exact setCmtStatus_answers hready _ _ _ _ _
  | postLike chanId postId cmtId proof =>
      simp only [handle, hdlPostLikeReq, answers_ready hready, answers_withUinfo,
        answers_withPost, answers_check, answers_dbCall, answers_done]
      intros
      exact ⟨(notifies_msgqEnq rfl).replies _ _, terminal_last⟩
  | postUnlike chanId postId cmtId =>
      simp [handle, hdlPostUnlikeReq, answers_ready hready, Resp.mark]
  | getPosts chanId qc =>
      simp only [handle, hdlGetPostsReq, answers_ready hready, answers_withUinfo,
        answers_withChan, answers_dbCall, answers_done, List.map_map]
      intros
      exact ⟨replies_logged (fun _ => rfl) _, terminal_replies (postsLoop_replies _)⟩
  | getCmts chanId postId qc =>
      simp only [handle, hdlGetCmtsReq, answers_ready hready, answers_withUinfo,
        answers_withPost, answers_dbCall, answers_done, List.map_map]
      intros
      exact ⟨replies_logged (fun _ => rfl) _, terminal_replies (cmtsLoop_replies _)⟩
  | subChan id proof =>
      simp only [handle, hdlSubChanReq, answers_ready hready, answers_withUinfo,
        answers_withChan, answers_check, answers_dbCall, answers_done]
      intros
      exact ⟨(notifies_msgqEnq rfl).replies _ _, terminal_last⟩
  | unsubChan id => simp [handle, hdlUnsubChanReq, answers_ready hready, Resp.mark]
  | enblNotif => simp [handle, hdlEnblNotifReq, answers_ready hready, Resp.mark]
  | updUserInfo params => simp [handle, hdlUpdUserInfoReq, answers_ready hready, Resp.mark]
  | reportIllegalCmt chanId postId cmtId reasons =>
      simp only [handle, hdlReportIllegalCmtReq, answers_ready hready, answers_withUinfo,
        answers_withPost, answers_check, answers_done]
      intros
      exact ⟨(notifies_msgqEnq rfl).replies _ _, terminal_last⟩
  | query query => exact handleQuery_answers hready query

/-- What a request leaves in the queue for its sender is one answer, unless it aborts. -/
theorem respond_replies (hready : ctx.didIsReady = true) (req : Req)
    (hreturns : (respond w ctx req).aborts = false) :
    ∃ replies, (respond w ctx req).replies ctx = some replies ∧
      Answers ctx.tsxId.toNat replies := by
  have hanswers : (handle w ctx req).Answers ctx.from := handle_answers hready req
  rw [Result.replies, hreturns, if_neg Bool.false_ne_true]
  refine ⟨_, rfl, ?_⟩
  rw [respond]
  cases houtcome : handle w ctx req with
  | ignored =>
      rw [houtcome] at hanswers
      exact hanswers.elim
  | failed err =>
      refine ⟨[.error], .error, ?_⟩
      simp [Outcome.result, Out.replyTo, Msg.reply]
  | done carried =>
      rw [houtcome] at hanswers
      obtain ⟨hquiet, hterminal⟩ := hanswers
      refine ⟨_, hterminal, ?_⟩
      have hreply (resp : Resp) : Out.replyTo ctx.from
          (.msgqEnq ctx.from (.resp ctx.tsxId resp)) =
            some ⟨ctx.tsxId.toNat, resp.mark⟩ := by
        simp [Out.replyTo, Msg.reply]
      simp [Outcome.result, hquiet, List.filterMap_map, Function.comp_def, hreply]

end Handlers

end FeedsService.Feeds
