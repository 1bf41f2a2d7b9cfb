import FeedsService.Feeds.Handlers
import FeedsService.Library.Runs

/-!
# The service as a state machine

Requests, peers that go offline, sign-ins that store a user, and restarts, in
any order.  A status that cannot be rendered aborts the process in the middle of
a request: the database keeps what the request committed and memory is loaded
again.
-/

namespace FeedsService.Feeds

open FeedsService.Library FeedsService.Runs

/-- The requests that read, next to `get_posts` and `get_comments`. -/
inductive Query
  | getMyChans (qc : QryCriteria)
  | getMyChansMeta (qc : QryCriteria)
  | getChans (qc : QryCriteria)
  | getChanDtl (id : UInt64)
  | getSubChans (qc : QryCriteria)
  | getPostsLac (chanId : UInt64) (qc : QryCriteria)
  | getLikedPosts (qc : QryCriteria)
  | getLikedData (qc : QryCriteria)
  | getCmtsLikes (chanId postId : UInt64) (qc : QryCriteria)
  | getStats
  | getSrvVer
  | getReportedCmts (qc : QryCriteria)
  deriving DecidableEq

inductive Req
  | createChan (params : ChanParams)
  | updChan (chanId : UInt64) (params : ChanParams)
  | pubPost (chanId : UInt64) (params : PostParams)
  | declarePost (chanId : UInt64) (withNotify : Bool) (params : PostParams)
  | notifyPost (chanId postId : UInt64)
  | editPost (chanId postId : UInt64) (params : PostParams)
  | delPost (chanId postId : UInt64)
  | postCmt (chanId postId cmtId : UInt64) (params : CmtParams)
  | editCmt (chanId postId id cmtId : UInt64) (params : CmtParams)
  | delCmt (chanId postId id : UInt64)
  | blockCmt (chanId postId cmtId : UInt64)
  | unblockCmt (chanId postId cmtId : UInt64)
  | postLike (chanId postId cmtId : UInt64) (proof : String)
  | postUnlike (chanId postId cmtId : UInt64)
  | getPosts (chanId : UInt64) (qc : QryCriteria)
  | getCmts (chanId postId : UInt64) (qc : QryCriteria)
  | subChan (id : UInt64) (proof : String)
  | unsubChan (id : UInt64)
  | enblNotif
  | updUserInfo (params : UserParams)
  | reportIllegalCmt (chanId postId cmtId : UInt64) (reasons : String)
  | query (query : Query)
  deriving DecidableEq

def handleQuery (w : World) (ctx : Ctx) : Query → Outcome
  | .getMyChans qc => hdlGetMyChansReq w ctx qc
  | .getMyChansMeta qc => hdlGetMyChansMetaReq w ctx qc
  | .getChans qc => hdlGetChansReq w ctx qc
  | .getChanDtl id => hdlGetChanDtlReq w ctx id
  | .getSubChans qc => hdlGetSubChansReq w ctx qc
  | .getPostsLac chanId qc => hdlGetPostsLacReq w ctx chanId qc
  | .getLikedPosts qc => hdlGetLikedPostsReq w ctx qc
  | .getLikedData qc => hdlGetLikedDataReq w ctx qc
  | .getCmtsLikes chanId postId qc => hdlGetCmtsLikesReq w ctx chanId postId qc
  | .getStats => hdlGetStatsReq w ctx
  | .getSrvVer => hdlGetSrvVerReq w
  | .getReportedCmts qc => hdlGetReportedCmtsReq w ctx qc

def handle (w : World) (ctx : Ctx) : Req → Outcome
  | .createChan params => hdlCreateChanReq w ctx params
  | .updChan chanId params => hdlUpdChanReq w ctx chanId params
  | .pubPost chanId params => hdlPubPostReq w ctx chanId params
  | .declarePost chanId withNotify params => hdlDeclarePostReq w ctx chanId withNotify params
  | .notifyPost chanId postId => hdlNotifyPostReq w ctx chanId postId
  | .editPost chanId postId params => hdlEditPostReq w ctx chanId postId params
  | .delPost chanId postId => hdlDelPostReq w ctx chanId postId
  | .postCmt chanId postId cmtId params => hdlPostCmtReq w ctx chanId postId cmtId params
  | .editCmt chanId postId id cmtId params =>
      hdlEditCmtReq w ctx chanId postId id cmtId params
  | .delCmt chanId postId id => hdlDelCmtReq w ctx chanId postId id
  | .blockCmt chanId postId cmtId => hdlBlockCmtReq w ctx chanId postId cmtId
  | .unblockCmt chanId postId cmtId => hdlUnblockCmtReq w ctx chanId postId cmtId
  | .postLike chanId postId cmtId proof => hdlPostLikeReq w ctx chanId postId cmtId proof
  | .postUnlike chanId postId cmtId => hdlPostUnlikeReq w ctx chanId postId cmtId
  | .getPosts chanId qc => hdlGetPostsReq w ctx chanId qc
  | .getCmts chanId postId qc => hdlGetCmtsReq w ctx chanId postId qc
  | .subChan id proof => hdlSubChanReq w ctx id proof
  | .unsubChan id => hdlUnsubChanReq w ctx id
  | .enblNotif => hdlEnblNotifReq w ctx
  | .updUserInfo params => hdlUpdUserInfoReq w ctx params
  | .reportIllegalCmt chanId postId cmtId reasons =>
      hdlReportIllegalCmtReq w ctx chanId postId cmtId reasons
  | .query query => handleQuery w ctx query

def respond (w : World) (ctx : Ctx) (req : Req) : Result :=
  (handle w ctx req).result w ctx

/-- Some call of the request does not return. -/
def Result.aborts (result : Result) : Bool :=
  result.outs.any Out.Aborts

inductive Event
  | request (ctx : Ctx) (req : Req)
  | peerOffline (nodeId : NodeId)
  | signIn (ui : UserInfo) (now rowid : ℤ)
  | restart

/-- The world after `feeds_init` on a database. -/
def World.start (db : Db) : World :=
  ⟨Mem.loadChansFromDb db, db⟩

/-- What a request leaves behind, whether or not it aborts. -/
def Result.after (result : Result) : World :=
  if result.aborts then .start result.world.db else result.world

def step (w : World) : Event → World
  | .request ctx req => (respond w ctx req).after
  | .peerOffline nodeId => ⟨w.mem.feedsDeactivateSuber nodeId, w.db⟩
  | .signIn ui now rowid => ⟨w.mem, (dbUpsertUser w.db ui now rowid).getD w.db⟩
  | .restart => .start w.db

abbrev Step : World → Event → World → Prop :=
  Performs fun w event => some (step w event)

theorem step_iff {w w' : World} {event : Event} : Step w event w' ↔ step w event = w' := by
  simp [Step, Performs]

/-- The world after some events. -/
def perform (w : World) (events : List Event) : World :=
  events.foldl step w

theorem run_perform (w : World) (events : List Event) :
    Run Step w events (perform w events) := by
  induction events generalizing w with
  | nil => exact .nil w
  | cons event events ih => exact .cons (step_iff.mpr rfl) (ih (step w event))

section Effects

/-- The checks that are common to the handlers that change the status of a comment. -/
structure StatusCheck (w : World) (ctx : Ctx) (chanId postId cmtId : UInt64) : Prop where
  ready : ctx.didIsReady = true
  post : ∃ chan, w.mem.chanGetById chanId.toNat = some chan ∧
    postId.toNat < (w.mem.chan chan).info.nextPostId
  author : ∃ uinfo, ctx.uinfo = some uinfo ∧
    dbCmtUid w.db (bindInt64 chanId) (bindInt64 postId) (bindInt64 cmtId) =
      some (bindInt64 uinfo.uid)

/-- The ids of a request, as the database binds them. -/
def CmtInfo.At (ci : CmtInfo) (chanId postId cmtId : UInt64) : Prop :=
  ci.chanId = bindInt64 chanId ∧ ci.postId = bindInt64 postId ∧ ci.cmtId = bindInt64 cmtId

theorem blankCmt_at (chanId postId cmtId : UInt64) (stat : CmtStat) (user : UserInfo)
    (updAt : ℤ) : (blankCmt chanId postId cmtId stat user updAt).At chanId postId cmtId := by
  simp only [CmtInfo.At, blankCmt, and_self]

/-- The request carries a token of the owner. -/
def OwnerToken (ctx : Ctx) : Prop :=
  ∃ uinfo, ctx.uinfo = some uinfo ∧ userIdIsOwner uinfo.uid = true

/-- The requests that add a post, with the status that it gets. -/
inductive AddsPost (pi : PostInfo) : Req → Prop
  | publish {chanId : UInt64} {params : PostParams} (hstat : pi.stat = .available) :
      AddsPost pi (.pubPost chanId params)
  | declare {chanId : UInt64} {withNotify : Bool} {params : PostParams}
      (hstat : pi.stat = if withNotify then .available else .declared) :
      AddsPost pi (.declarePost chanId withNotify params)

/-- The ids of a request, as the database binds them. -/
def PostInfo.At (pi : PostInfo) (chanId postId : UInt64) : Prop :=
  pi.chanId = bindInt64 chanId ∧ pi.postId = bindInt64 postId

/-- The requests that set the status of a post, with their check of the old one. -/
inductive SetsPostStatus (db : Db) (pi : PostInfo) : Req → Prop
  | notify {chanId postId : UInt64} {old : PostStat} (hat : pi.At chanId postId)
      (hold : dbGetPostStatus db pi.chanId pi.postId = some old) (hne : old ≠ .deleted)
      (hstat : pi.stat = .available) : SetsPostStatus db pi (.notifyPost chanId postId)
  | delete {chanId postId : UInt64} (hat : pi.At chanId postId)
      (hold : dbPostIsAvail db pi.chanId pi.postId = true) (hstat : pi.stat = .deleted) :
      SetsPostStatus db pi (.delPost chanId postId)

/-- The request that edits a post, with its check of the status. -/
def EditsPost (db : Db) (pi : PostInfo) (req : Req) : Prop :=
  ∃ chanId postId params, req = .editPost chanId postId params ∧ pi.At chanId postId ∧
    dbPostIsAvail db pi.chanId pi.postId = true

/-- The token of the request names the author of the comment. -/
def AuthorToken (db : Db) (ctx : Ctx) (ci : CmtInfo) : Prop :=
  ∃ uinfo, ctx.uinfo = some uinfo ∧
    dbCmtUid db ci.chanId ci.postId ci.cmtId = some (bindInt64 uinfo.uid)

theorem blankPost_at (chanId postId : UInt64) (stat : PostStat) (updAt : ℤ) :
    (blankPost chanId postId stat updAt).At chanId postId := by
  simp only [PostInfo.At, blankPost, and_self]

/-- What a request that is carried out can do to the world, with the checks that
it has passed. -/
inductive Effect (w : World) (ctx : Ctx) (req : Req) : World → Prop
  | nothing : Effect w ctx req w
  | createChan {ci : ChanInfo} {db : Db} (hfew : w.db.channels.length < 5)
      (hid : ci.chanId = w.mem.nxtChanId) (hupdAt : ci.updAt = ci.createdAt)
      (hsubs : ci.subs = 0) (hnextPostId : ci.nextPostId = 1) (hstatus : ci.status = 0)
      (hname : w.mem.chanExistByName ci.name = false)
      (hdb : dbCreateChan w.db ci = some db) (howner : OwnerToken ctx)
      (hreq : ∃ params, req = .createChan params) :
      Effect w ctx req ⟨w.mem.createChan ci, db⟩
  | updChan {chanId : UInt64} {params : ChanParams} {chan : Ref} {ci : ChanInfo} {db : Db}
      (hreq : req = .updChan chanId params) (hready : ctx.didIsReady = true)
      (howner : ∃ uinfo, ctx.uinfo = some uinfo ∧ userIdIsOwner uinfo.uid = true)
      (hid : ci.chanId = chanId.toNat) (hciName : ci.name = params.name)
      (hchan : w.mem.chanGetById chanId.toNat = some chan)
      (hcreatedAt : ci.createdAt = (w.mem.chan chan).info.createdAt)
      (hsubs : ci.subs = (w.mem.chan chan).info.subs)
      (hnextPostId : ci.nextPostId = (w.mem.chan chan).info.nextPostId)
      (hstatus : ci.status = (w.mem.chan chan).info.status)
      (hname : (w.mem.chan chan).info.name = ci.name ∨
        w.mem.chanExistByName ci.name = false)
      (hdb : dbUpdChan w.db ci = some db) :
      Effect w ctx req ⟨w.mem.chanUpdate chan ci, db⟩
  | addPost {chanId : UInt64} {chan : Ref} {pi : PostInfo} {db : Db}
      (hchan : w.mem.chanGetById chanId.toNat = some chan)
      (hchanId : pi.chanId = bindInt64 chanId)
      (hpostId : pi.postId = (w.mem.chan chan).info.nextPostId)
      (hstat : pi.stat = .available ∨ pi.stat = .declared)
      (hdb : dbAddPost w.db pi = some db) (howner : OwnerToken ctx) (hadds : AddsPost pi req) :
      Effect w ctx req ⟨w.mem.addPost chan, db⟩
  | setPostStatus {pi : PostInfo} {set : PostInfo × Db}
      (hstat : pi.stat = .available ∨ pi.stat = .deleted)
      (hdb : dbSetPostStatus w.db pi = some set) (howner : OwnerToken ctx)
      (hsets : SetsPostStatus w.db pi req) :
      Effect w ctx req ⟨w.mem, set.2⟩
  | updPost {pi : PostInfo} {upd : PostInfo × Db} (hdb : dbUpdPost w.db pi = some upd)
      (howner : OwnerToken ctx) (hedits : EditsPost w.db pi req) :
      Effect w ctx req ⟨w.mem, upd.2⟩
  | addCmt {ci : CmtInfo} {added : ℤ × Db} (hdb : dbAddCmt w.db ci = some added) :
      Effect w ctx req ⟨w.mem, added.2⟩
  | updCmt {chanId postId id cmtId : UInt64} {params : CmtParams} {ci : CmtInfo}
      {upd : CmtInfo × Db} (hreq : req = .editCmt chanId postId id cmtId params)
      (hci : ci.At chanId postId id)
      (havail : dbCmtIsAvail w.db ci.chanId ci.postId ci.cmtId = true)
      (hdb : dbUpdCmt w.db ci = some upd) (hauthor : AuthorToken w.db ctx ci) :
      Effect w ctx req ⟨w.mem, upd.2⟩
  | setCmtStatus {chanId postId cmtId : UInt64} {ci : CmtInfo} {set : CmtInfo × Db}
      (hchecked : StatusCheck w ctx chanId postId cmtId) (hci : ci.At chanId postId cmtId)
      (hreq : (req = .delCmt chanId postId cmtId ∧ ci.stat = .deleted ∧
          dbCmtIsAvail w.db ci.chanId ci.postId ci.cmtId = true) ∨
        (req = .blockCmt chanId postId cmtId ∧ ci.stat = .blocked) ∨
        (req = .unblockCmt chanId postId cmtId ∧ ci.stat = .available))
      (hdb : dbSetCmtStatus w.db ci = some set) :
      Effect w ctx req ⟨w.mem, set.2⟩
  | addLike {userId chanId postId cmtId now : ℤ} {proof : String} {added : ℤ × Db}
      (hnot : dbLikeExists w.db userId chanId postId cmtId = false)
      (hdb : dbAddLike w.db userId chanId postId cmtId proof now = some added) :
      Effect w ctx req ⟨w.mem, added.2⟩
  | rmLike {userId chanId postId cmtId : ℤ}
      (hlike : dbLikeExists w.db userId chanId postId cmtId = true) :
      Effect w ctx req ⟨w.mem, dbRmLike w.db userId chanId postId cmtId⟩
  | subChan {uid id : UInt64} {chan : Ref} {proof : String} {db : Db}
      (hchan : w.mem.chanGetById id.toNat = some chan)
      (hnot : dbIsSuber w.db (bindInt64 uid) (bindInt64 id) = false)
      (hdb : dbAddSub w.db (bindInt64 uid) (bindInt64 id) proof ctx.now = some db) :
      Effect w ctx req ⟨w.mem.subChan uid chan, db⟩
  | unsubChan {uid id : UInt64} {chan : Ref}
      (hchan : w.mem.chanGetById id.toNat = some chan)
      (hsub : dbIsSuber w.db (bindInt64 uid) (bindInt64 id) = true) :
      Effect w ctx req
        ⟨w.mem.unsubChan uid chan, dbUnsub w.db (bindInt64 uid) (bindInt64 id)⟩
  | enblNotif {uinfo : UserInfo} (hreq : req = .enblNotif) (hready : ctx.didIsReady = true)
      (huinfo : ctx.uinfo = some uinfo) :
      Effect w ctx req ⟨w.mem.enblNotif w.db uinfo.uid ctx.from, w.db⟩
  | sameContents {db : Db} (hsame : SameContents w.db db) : Effect w ctx req ⟨w.mem, db⟩

/-- If the handler carries the request out, then it does so as `post` says. -/
def Outcome.Ensures (post : Done → Prop) (outcome : Outcome) : Prop :=
  ∀ {carried}, outcome = .done carried → post carried

section Ensures

variable {w : World} {ctx : Ctx} {post : Done → Prop}

theorem ensures_done {carried : Done} (hpost : post carried) :
    (Outcome.done carried).Ensures post := by
  rintro _ ⟨⟩
  exact hpost

theorem ensures_ready {next : Outcome} (hnext : next.Ensures post) :
    (ready ctx next).Ensures post :=
  fun hdone => hnext (ready_eq_done.mp hdone).2

theorem ensures_withUinfo {next : UserInfo → Outcome}
    (hnext : ∀ uinfo, (next uinfo).Ensures post) : (withUinfo ctx next).Ensures post := by
  intro carried hdone
  obtain ⟨uinfo, _, hdone⟩ := withUinfo_eq_done.mp hdone
  exact hnext uinfo hdone

theorem ensures_withOwner {next : Outcome} (hnext : next.Ensures post) :
    (withOwner ctx next).Ensures post :=
  fun hdone => hnext (withOwner_eq_done.mp hdone).2

theorem ensures_withChan {chanId : UInt64} {next : Ref → Outcome}
    (hnext : ∀ chan, (next chan).Ensures post) : (withChan w chanId next).Ensures post := by
  intro carried hdone
  obtain ⟨chan, _, hdone⟩ := withChan_eq_done.mp hdone
  exact hnext chan hdone

theorem ensures_withPost {chanId postId : UInt64} {next : Ref → Outcome}
    (hnext : ∀ chan, (next chan).Ensures post) :
    (withPost w chanId postId next).Ensures post := by
  intro carried hdone
  obtain ⟨chan, _, _, hdone⟩ := withPost_eq_done.mp hdone
  exact hnext chan hdone

theorem ensures_dbCall {β : Type} {result : Option β} {err : Err} {next : β → Outcome}
    (hnext : ∀ value, (next value).Ensures post) :
    (dbCall result err next).Ensures post := by
  intro carried hdone
  obtain ⟨value, _, hdone⟩ := dbCall_eq_done.mp hdone
  exact hnext value hdone

end Ensures

theorem handleQuery_eq_done {w : World} {ctx : Ctx} {query : Query} {carried : Done}
    (hdone : handleQuery w ctx query = .done carried) :
    carried.world = w ∧ carried.outs = [] := by
  have hquiet : ∀ replies, (Outcome.done ⟨w, [], replies⟩).Ensures
      fun carried => carried.world = w ∧ carried.outs = [] := by
    intro replies
    apply ensures_done
    exact ⟨rfl, rfl⟩
  suffices hensures : (handleQuery w ctx query).Ensures
      fun carried => carried.world = w ∧ carried.outs = [] from hensures hdone
  cases query with
  | getMyChans | getMyChansMeta | getReportedCmts =>
      exact ensures_ready (ensures_withOwner (ensures_dbCall fun _ => hquiet _))
  | getChans | getSubChans | getLikedPosts | getLikedData =>
      exact ensures_ready (ensures_withUinfo fun _ => ensures_dbCall fun _ => hquiet _)
  | getStats => exact ensures_ready (ensures_withUinfo fun _ => hquiet _)
  | getChanDtl =>
      exact ensures_ready (ensures_withUinfo fun _ => ensures_withChan fun _ => hquiet _)
  | getPostsLac =>
      exact ensures_ready (ensures_withUinfo fun _ => ensures_withChan fun _ =>
        ensures_dbCall fun _ => hquiet _)
  | getCmtsLikes =>
      exact ensures_ready (ensures_withUinfo fun _ => ensures_withPost fun _ =>
        ensures_dbCall fun _ => hquiet _)
  | getSrvVer => exact hquiet _

/-- The status changes of comments differ in the check that lets a comment through
and in the status. -/
theorem setCmtStatus_eq_done {w : World} {ctx : Ctx} {carried : Done}
    {found : Db → ℤ → ℤ → ℤ → Bool} {stat : CmtStat} {chanId postId cmtId : UInt64}
    (hdone : setCmtStatus found stat w ctx chanId postId cmtId = .done carried) :
    StatusCheck w ctx chanId postId cmtId ∧
      ∃ ci set, ci.At chanId postId cmtId ∧ ci.stat = stat ∧
        found w.db ci.chanId ci.postId ci.cmtId = true ∧
        dbSetCmtStatus w.db ci = some set ∧ carried.world = ⟨w.mem, set.2⟩ := by
  simp only [setCmtStatus, ready_eq_done, withUinfo_eq_done, withPost_eq_done,
    check_eq_done, dbCall_eq_done, Outcome.done.injEq] at hdone
  obtain ⟨hready, uinfo, huinfo, chan, hchan, hpost, hfound, hauthor, set, hdb, rfl⟩ := hdone
  refine ⟨⟨hready, ⟨chan, hchan, hpost⟩, ⟨uinfo, huinfo, ?_⟩⟩,
    blankCmt chanId postId cmtId stat uinfo ctx.now, set, blankCmt_at .., ?_, ?_, hdb, rfl⟩
  · simpa only [decide_eq_true_eq] using hauthor
  · simp only [blankCmt]
  · simpa only [blankCmt] using hfound

theorem handle_effect {w : World} {ctx : Ctx} {req : Req} {carried : Done}
    (hdone : handle w ctx req = .done carried) : Effect w ctx req carried.world := by
  cases req with
  | createChan params =>
      simp only [handle, hdlCreateChanReq, ready_eq_done, withOwner_eq_done, check_eq_done,
        dbCall_eq_done, Outcome.done.injEq, Bool.not_eq_true', decide_eq_true_eq] at hdone
      obtain ⟨hfew, _, howner, hname, db, hdb, rfl⟩ := hdone
      exact .createChan hfew rfl rfl rfl rfl rfl hname hdb howner ⟨params, rfl⟩
  | updChan chanId params =>
      simp only [handle, hdlUpdChanReq, ready_eq_done, withOwner_eq_done, withChan_eq_done,
        check_eq_done, dbCall_eq_done, Outcome.done.injEq] at hdone
      obtain ⟨hready, howner, chan, hchan, hname, db, hdb, rfl⟩ := hdone
      refine .updChan rfl hready howner rfl rfl hchan rfl rfl rfl rfl ?_ hdb
      by_cases hsame : (w.mem.chan chan).info.name = params.name
      · exact .inl hsame
      · exact .inr (by simpa [hsame] using hname)
  | pubPost chanId params =>
      simp only [handle, hdlPubPostReq, ready_eq_done, withOwner_eq_done, withChan_eq_done,
        dbCall_eq_done, Outcome.done.injEq] at hdone
      obtain ⟨_, howner, chan, hchan, db, hdb, rfl⟩ := hdone
      exact .addPost hchan (newPost_chanId ..) (newPost_postId ..) (.inl rfl) hdb howner
        (.publish rfl)
  | declarePost chanId withNotify params =>
      simp only [handle, hdlDeclarePostReq, ready_eq_done, withOwner_eq_done,
        withChan_eq_done, dbCall_eq_done, Outcome.done.injEq] at hdone
      obtain ⟨_, howner, chan, hchan, db, hdb, rfl⟩ := hdone
      refine .addPost hchan (newPost_chanId ..) (newPost_postId ..) ?_ hdb howner
        (.declare rfl)
      cases withNotify
      · exact .inr rfl
      · exact .inl rfl
  | notifyPost chanId postId =>
      simp only [handle, hdlNotifyPostReq, ready_eq_done, withOwner_eq_done,
        withChan_eq_done, check_eq_done, dbCall_eq_done, Outcome.done.injEq] at hdone
      obtain ⟨_, howner, chan, _, stat, hold, hne, set, hdb, pi, _, rfl⟩ := hdone
      have hold' : dbGetPostStatus w.db (blankPost chanId postId .available 0).chanId
          (blankPost chanId postId .available 0).postId = some stat := by
        simpa only [blankPost] using hold
      exact .setPostStatus (.inl rfl) hdb howner
        (.notify (blankPost_at ..) hold' (by simpa using hne) rfl)
  | editPost chanId postId params =>
      simp only [handle, hdlEditPostReq, ready_eq_done, withOwner_eq_done,
        withChan_eq_done, check_eq_done, dbCall_eq_done, Outcome.done.injEq] at hdone
      obtain ⟨_, howner, chan, _, havail, upd, hdb, rfl⟩ := hdone
      refine .updPost hdb howner ⟨chanId, postId, params, rfl, ?_, ?_⟩
      · simp only [PostInfo.At, blankPost, and_self]
      · simpa only [blankPost] using havail
  | delPost chanId postId =>
      simp only [handle, hdlDelPostReq, ready_eq_done, withOwner_eq_done,
        withChan_eq_done, check_eq_done, dbCall_eq_done, Outcome.done.injEq] at hdone
      obtain ⟨_, howner, chan, _, havail, set, hdb, rfl⟩ := hdone
      refine .setPostStatus (.inr rfl) hdb howner (.delete (blankPost_at ..) ?_ rfl)
      simpa only [blankPost] using havail
  | postCmt chanId postId cmtId params =>
      simp only [handle, hdlPostCmtReq, ready_eq_done, withUinfo_eq_done,
        withPost_eq_done, check_eq_done, dbCall_eq_done, Outcome.done.injEq] at hdone
      obtain ⟨_, uinfo, _, chan, _, _, _, added, hdb, rfl⟩ := hdone
      exact .addCmt hdb
  | editCmt chanId postId id cmtId params =>
      simp only [handle, hdlEditCmtReq, ready_eq_done, withUinfo_eq_done,
        withPost_eq_done, check_eq_done, dbCall_eq_done, Outcome.done.injEq] at hdone
      obtain ⟨_, uinfo, huinfo, chan, _, _, havail, hauthor, _, upd, hdb, rfl⟩ := hdone
      refine .updCmt rfl ?_ ?_ hdb ⟨uinfo, huinfo, ?_⟩
      · simp only [CmtInfo.At, blankCmt, and_self]
      · simpa only [blankCmt] using havail
      · simpa only [blankCmt, decide_eq_true_eq] using hauthor
  | delCmt chanId postId id =>
      obtain ⟨hchecked, ci, set, hci, hstat, havail, hdb, hworld⟩ := setCmtStatus_eq_done hdone
      rw [hworld]
      exact .setCmtStatus hchecked hci (.inl ⟨rfl, hstat, havail⟩) hdb
  | blockCmt chanId postId cmtId =>
      obtain ⟨hchecked, ci, set, hci, hstat, _, hdb, hworld⟩ := setCmtStatus_eq_done hdone
      rw [hworld]
      exact .setCmtStatus hchecked hci (.inr (.inl ⟨rfl, hstat⟩)) hdb
  | unblockCmt chanId postId cmtId =>
      obtain ⟨hchecked, ci, set, hci, hstat, _, hdb, hworld⟩ := setCmtStatus_eq_done hdone
      rw [hworld]
      exact .setCmtStatus hchecked hci (.inr (.inr ⟨rfl, hstat⟩)) hdb
  | postLike chanId postId cmtId proof =>
      simp only [handle, hdlPostLikeReq, ready_eq_done, withUinfo_eq_done,
        withPost_eq_done, check_eq_done, dbCall_eq_done, Outcome.done.injEq,
        Bool.not_eq_true'] at hdone
      obtain ⟨_, uinfo, _, chan, _, _, _, hnot, added, hdb, rfl⟩ := hdone
      exact .addLike hnot hdb
  | postUnlike chanId postId cmtId =>
      simp only [handle, hdlPostUnlikeReq, ready_eq_done, withUinfo_eq_done,
        withChan_eq_done, check_eq_done, Outcome.done.injEq] at hdone
      obtain ⟨_, uinfo, _, chan, _, hlike, rfl⟩ := hdone
      exact .rmLike hlike
  | getPosts chanId qc =>
      simp only [handle, hdlGetPostsReq, ready_eq_done, withUinfo_eq_done,
        withChan_eq_done, dbCall_eq_done, Outcome.done.injEq] at hdone
      obtain ⟨_, uinfo, _, chan, _, pinfos, _, rfl⟩ := hdone
      exact .nothing
  | getCmts chanId postId qc =>
      simp only [handle, hdlGetCmtsReq, ready_eq_done, withUinfo_eq_done,
        withPost_eq_done, dbCall_eq_done, Outcome.done.injEq] at hdone
      obtain ⟨_, uinfo, _, chan, _, _, cinfos, _, rfl⟩ := hdone
      exact .nothing
  | subChan id proof =>
      simp only [handle, hdlSubChanReq, ready_eq_done, withUinfo_eq_done,
        withChan_eq_done, check_eq_done, dbCall_eq_done, Outcome.done.injEq,
        Bool.not_eq_true'] at hdone
      obtain ⟨_, uinfo, _, chan, hchan, hnot, db, hdb, rfl⟩ := hdone
      exact .subChan hchan hnot hdb
  | unsubChan id =>
      simp only [handle, hdlUnsubChanReq, ready_eq_done, withUinfo_eq_done,
        withChan_eq_done, check_eq_done, Outcome.done.injEq] at hdone
      obtain ⟨_, uinfo, _, chan, hchan, hsub, rfl⟩ := hdone
      exact .unsubChan hchan hsub
  | enblNotif =>
      simp only [handle, hdlEnblNotifReq, ready_eq_done, withUinfo_eq_done,
        Outcome.done.injEq] at hdone
      obtain ⟨hready, uinfo, huinfo, rfl⟩ := hdone
      exact .enblNotif rfl hready huinfo
  | updUserInfo params =>
      simp only [handle, hdlUpdUserInfoReq, ready_eq_done, withUinfo_eq_done,
        dbCall_eq_done, Outcome.done.injEq] at hdone
      obtain ⟨_, uinfo, _, db, hdb, rfl⟩ := hdone
      exact .sameContents (dbUpdateUserInfo_eq_some hdb)
  | reportIllegalCmt chanId postId cmtId reasons =>
      simp only [handle, hdlReportIllegalCmtReq, ready_eq_done, withUinfo_eq_done,
        withPost_eq_done, check_eq_done, Outcome.done.injEq] at hdone
      obtain ⟨_, uinfo, _, chan, _, _, _, _, rfl⟩ := hdone
      exact .sameContents (dbAddReportedCmts_same _)
  | query query =>
      rw [(handleQuery_eq_done hdone).1]
      exact .nothing

end Effects

section Inversion

/-- What a request has committed stays, whether or not it aborts. -/
theorem step_request_db (w : World) (ctx : Ctx) (req : Req) :
    (step w (.request ctx req)).db = (respond w ctx req).world.db := by
  simp only [step, Result.after]
  split <;> rfl

variable {w : World} {ctx : Ctx} {req : Req}

/-- A request that is not carried out changes nothing and renders no status. -/
theorem respond_cases (w : World) (ctx : Ctx) (req : Req) :
    (∃ carried, handle w ctx req = .done carried) ∨
      ((respond w ctx req).world = w ∧ (respond w ctx req).aborts = false) := by
  cases houtcome : handle w ctx req with
  | ignored => exact .inr (by simp [respond, houtcome, Outcome.result, Result.aborts])
  | failed err =>
      exact .inr (by simp [respond, houtcome, Outcome.result, Result.aborts, Out.Aborts])
  | done carried => exact .inl ⟨carried, rfl⟩

theorem respond_done {carried : Done} (hdone : handle w ctx req = .done carried) :
    (respond w ctx req).world = carried.world ∧
      (respond w ctx req).aborts = carried.outs.any Out.Aborts := by
  constructor
  · simp [respond, hdone, Outcome.result]
  · have hreplies : ∀ replies : List Resp,
        (replies.map fun resp => Out.msgqEnq ctx.from (.resp ctx.tsxId resp)).any
          Out.Aborts = false := by
      intro replies
      simp [Out.Aborts]
    rw [respond, hdone, Result.aborts, Outcome.result, List.any_append, hreplies,
      Bool.or_false]

/-- What an invariant has to be preserved by: every request that is carried out,
every other event, and a restart. -/
theorem step_preserves {P : World → Prop}
    (hrequest : ∀ w ctx req carried, P w → handle w ctx req = .done carried →
      P carried.world)
    (hoffline : ∀ w nodeId, P w → P ⟨w.mem.feedsDeactivateSuber nodeId, w.db⟩)
    (hsignIn : ∀ w ui now rowid, P w →
      P ⟨w.mem, (dbUpsertUser w.db ui now rowid).getD w.db⟩)
    (hrestart : ∀ w, P w → P (.start w.db)) (w : World) (event : Event) (h : P w) :
    P (step w event) := by
  cases event with
  | request ctx req =>
      have hworld : P (respond w ctx req).world := by
        rcases respond_cases w ctx req with ⟨carried, hdone⟩ | ⟨hsame, _⟩
        · rw [(respond_done hdone).1]
          exact hrequest w ctx req carried h hdone
        · rwa [hsame]
      simp only [step, Result.after]
      split
      · exact hrestart _ hworld
      · exact hworld
  | peerOffline nodeId => exact hoffline w nodeId h
  | signIn ui now rowid => exact hsignIn w ui now rowid h
  | restart => exact hrestart w h

end Inversion

end FeedsService.Feeds
