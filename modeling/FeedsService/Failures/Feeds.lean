import FeedsService.Failures.Calls
import FeedsService.Feeds.System

/-!
# The handlers of `feeds.c`, call by call

The handlers that change something, with the calls that may fail where the source makes
them.  Notifications are left out: they are sent once everything is done.  Without a
fault each handler does what its counterpart in `Feeds.Handlers` does.
-/

namespace FeedsService.Failures

open FeedsService.Library FeedsService.Library.Handlers FeedsService.Library.Transactions
open FeedsService.Feeds

abbrev FeedsHandler (α : Type) :=
  Handler Call World Exit α

def fails (err : Err) : Exit :=
  .err err.code

/-- A function of the database that changes a table. -/
abbrev change {α : Type} (program : Sql Db α) : FeedsHandler α :=
  mutate worldDb program Err.internalError.code

section Checks

variable (ctx : Ctx)

def didIsReady : FeedsHandler Unit :=
  require .ignored fun _ => ctx.didIsReady

def createUinfoFromAccessToken : FeedsHandler UserInfo := do
  attempt .createUinfoFromAccessToken (fails .accessTokenExp)
  find (fails .accessTokenExp) fun _ => ctx.uinfo

def ownerOnly : FeedsHandler Unit := do
  let uinfo ← createUinfoFromAccessToken ctx
  require (fails .notAuthorized) fun _ => userIdIsOwner uinfo.uid

def chanGetById (chanId : UInt64) : FeedsHandler Ref :=
  find (fails .notExist) fun w => w.mem.chanGetById chanId.toNat

/-- The channel, when the post id is below its next one. -/
def chanOfPost (chanId postId : UInt64) : FeedsHandler Ref := do
  let chan ← chanGetById chanId
  require (fails .notExist) fun w => postId.toNat < (w.mem.chan chan).info.nextPostId
  return chan

/-- A call of the database that tests something. -/
def dbTest (call : Call) (err : Err) (test : Db → Bool) : FeedsHandler Unit := do
  attempt call (fails err)
  require (fails err) fun w => test w.db

/-- No comment is referred to, or one that exists. -/
def cmtExists (chanId postId cmtId : UInt64) : FeedsHandler Unit :=
  if cmtId = 0 then
    pure ()
  else
    dbTest .dbCmtExists .notExist fun db =>
      dbCmtExists db (bindInt64 chanId) (bindInt64 postId) (bindInt64 cmtId)

def cmtIsOf (chanId postId cmtId : UInt64) (uinfo : UserInfo) : FeedsHandler Unit :=
  dbTest .dbCmtUid .notAuthorized fun db =>
    dbCmtUid db (bindInt64 chanId) (bindInt64 postId) (bindInt64 cmtId) =
      some (bindInt64 uinfo.uid)

end Checks

section Channels

variable (ctx : Ctx)

def hdlCreateChanReq (params : ChanParams) : FeedsHandler (List Resp) := do
  attempt .dbGetCount (.err ErrCode.dbError)
  require (fails .maxFeedsLimit) fun w => dbGetCountChannels w.db < 5
  didIsReady ctx
  ownerOnly ctx
  require (fails .alreadyExists) fun w => !w.mem.chanExistByName params.name
  let w ← get
  let ci : ChanInfo :=
    { chanId := w.mem.nxtChanId
      name := params.name
      intro := params.intro
      createdAt := ctx.now
      updAt := ctx.now
      subs := 0
      nextPostId := 1
      avatar := params.avatar
      tipMethods := params.tipm
      proof := params.proof
      status := 0 }
  attempt .chanCreate (fails .internalError)
  change (Sql.dbCreateChan ci)
  update fun w => { w with mem := w.mem.createChan ci }
  return [.id ci.chanId]

def hdlUpdChanReq (chanId : UInt64) (params : ChanParams) : FeedsHandler (List Resp) := do
  didIsReady ctx
  ownerOnly ctx
  let chan ← chanGetById chanId
  require (fails .alreadyExists) fun w =>
    !((w.mem.chan chan).info.name ≠ params.name && w.mem.chanExistByName params.name)
  let w ← get
  let info := (w.mem.chan chan).info
  let ci : ChanInfo :=
    { chanId := chanId.toNat
      name := params.name
      intro := params.intro
      createdAt := info.createdAt
      updAt := ctx.now
      subs := info.subs
      nextPostId := info.nextPostId
      avatar := params.avatar
      tipMethods := params.tipm
      proof := params.proof
      status := info.status }
  attempt .chanCreateUpd (fails .internalError)
  change (Sql.dbUpdChan ci)
  update fun w => { w with mem := w.mem.chanUpdate chan ci }
  return [.empty]

def hdlUpdUserInfoReq (params : UserParams) : FeedsHandler (List Resp) := do
  didIsReady ctx
  let uinfo ← createUinfoFromAccessToken ctx
  change (Sql.dbUpdateUserInfo { uinfo with
    name := params.name
    email := params.email
    displayName := some params.displayName
    avatar := some params.avatar } ctx.now)
  return [.empty]

end Channels

section Posts

variable (ctx : Ctx)

/-- `hdl_pub_post_req` and `hdl_declare_post_req` but for the status. -/
def addPost (chanId : UInt64) (stat : PostStat) (params : PostParams) :
    FeedsHandler (List Resp) := do
  didIsReady ctx
  ownerOnly ctx
  let chan ← chanGetById chanId
  let w ← get
  let pi := newPost ctx (w.mem.chan chan).info chanId stat params
  change (Sql.dbAddPost pi)
  update fun w => { w with mem := w.mem.addPost chan }
  return [.id pi.postId]

def hdlPubPostReq (chanId : UInt64) (params : PostParams) : FeedsHandler (List Resp) :=
  addPost ctx chanId .available params

def hdlDeclarePostReq (chanId : UInt64) (withNotify : Bool) (params : PostParams) :
    FeedsHandler (List Resp) :=
  addPost ctx chanId (if withNotify then .available else .declared) params

/-- What `hdl_notify_post_req` checks before it changes the post. -/
def postToNotify (chanId postId : UInt64) : FeedsHandler Unit := do
  didIsReady ctx
  ownerOnly ctx
  let _ ← chanGetById chanId
  attempt .dbGetPostStatus (fails .notExist)
  let stat ← find (fails .notExist) fun w =>
    dbGetPostStatus w.db (bindInt64 chanId) (bindInt64 postId)
  require (fails .wrongState) fun _ => stat ≠ .deleted

/-- The post is changed before `db_get_post` may fail. -/
def hdlNotifyPostReq (chanId postId : UInt64) : FeedsHandler (List Resp) := do
  postToNotify ctx chanId postId
  let pi ← change (Sql.dbSetPostStatus (blankPost chanId postId .available 0))
  attempt .dbGetPost (fails .internalError)
  let _ ← find (fails .internalError) fun w =>
    dbGetPost w.db (bindInt64 chanId) (bindInt64 postId) pi
  return [.empty]

def postIsAvail (chanId postId : UInt64) : FeedsHandler Unit :=
  dbTest .dbPostIsAvail .notExist fun db =>
    dbPostIsAvail db (bindInt64 chanId) (bindInt64 postId)

/-- `hdl_edit_post_req` and `hdl_del_post_req` but for the function they call. -/
def changePost (chanId postId : UInt64) (program : Sql Db PostInfo) :
    FeedsHandler (List Resp) := do
  didIsReady ctx
  ownerOnly ctx
  let _ ← chanGetById chanId
  postIsAvail chanId postId
  let _ ← change program
  return [.empty]

def hdlEditPostReq (chanId postId : UInt64) (params : PostParams) :
    FeedsHandler (List Resp) :=
  changePost ctx chanId postId <| Sql.dbUpdPost
    { blankPost chanId postId .available ctx.now with
      content := params.content
      thumbnails := params.thumbnails
      hashId := params.hashId
      proof := params.proof
      originPostUrl := params.originPostUrl }

def hdlDelPostReq (chanId postId : UInt64) : FeedsHandler (List Resp) :=
  changePost ctx chanId postId <|
    Sql.dbSetPostStatus (blankPost chanId postId .deleted ctx.now)

end Posts

section Comments

variable (ctx : Ctx)

def hdlPostCmtReq (chanId postId cmtId : UInt64) (params : CmtParams) :
    FeedsHandler (List Resp) := do
  didIsReady ctx
  let uinfo ← createUinfoFromAccessToken ctx
  let _ ← chanOfPost chanId postId
  cmtExists chanId postId cmtId
  let added ← change <| Sql.dbAddCmt
    { blankCmt chanId postId 0 .available uinfo ctx.now with
      replyToCmt := bindInt64 cmtId
      createdAt := ctx.now
      content := params.content
      thumbnails := params.thumbnails
      hashId := params.hashId
      proof := params.proof }
  return [.id added]

def hdlEditCmtReq (chanId postId id cmtId : UInt64) (params : CmtParams) :
    FeedsHandler (List Resp) := do
  didIsReady ctx
  let uinfo ← createUinfoFromAccessToken ctx
  let _ ← chanOfPost chanId postId
  dbTest .dbCmtIsAvail .notExist fun db =>
    dbCmtIsAvail db (bindInt64 chanId) (bindInt64 postId) (bindInt64 id)
  cmtIsOf chanId postId id uinfo
  cmtExists chanId postId cmtId
  let _ ← change <| Sql.dbUpdCmt
    { blankCmt chanId postId id .available uinfo ctx.now with
      replyToCmt := bindInt64 cmtId
      content := params.content
      thumbnails := params.thumbnails
      hashId := params.hashId
      proof := params.proof }
  return [.empty]

/-- The handlers that change the status of a comment differ in the call that lets a
comment through and in the status they set. -/
def setCmtStatus (call : Call) (found : Db → ℤ → ℤ → ℤ → Bool) (stat : CmtStat)
    (chanId postId cmtId : UInt64) : FeedsHandler (List Resp) := do
  didIsReady ctx
  let uinfo ← createUinfoFromAccessToken ctx
  let _ ← chanOfPost chanId postId
  dbTest call .notExist fun db =>
    found db (bindInt64 chanId) (bindInt64 postId) (bindInt64 cmtId)
  cmtIsOf chanId postId cmtId uinfo
  let _ ← change <| Sql.dbSetCmtStatus (blankCmt chanId postId cmtId stat uinfo ctx.now)
  return [.empty]

def hdlDelCmtReq (chanId postId id : UInt64) : FeedsHandler (List Resp) :=
  setCmtStatus ctx .dbCmtIsAvail dbCmtIsAvail .deleted chanId postId id

def hdlBlockCmtReq (chanId postId cmtId : UInt64) : FeedsHandler (List Resp) :=
  setCmtStatus ctx .dbCmtExists dbCmtExists .blocked chanId postId cmtId

def hdlUnblockCmtReq (chanId postId cmtId : UInt64) : FeedsHandler (List Resp) :=
  setCmtStatus ctx .dbCmtExists dbCmtExists .available chanId postId cmtId

end Comments

section Likes

variable (ctx : Ctx)

def liked (uinfo : UserInfo) (chanId postId cmtId : UInt64) : FeedsHandler Unit :=
  dbTest .dbLikeExists .wrongState fun db =>
    dbLikeExists db (bindInt64 uinfo.uid) (bindInt64 chanId) (bindInt64 postId)
      (bindInt64 cmtId)

def notLiked (uinfo : UserInfo) (chanId postId cmtId : UInt64) : FeedsHandler Unit :=
  dbTest .dbLikeExists .wrongState fun db =>
    !dbLikeExists db (bindInt64 uinfo.uid) (bindInt64 chanId) (bindInt64 postId)
      (bindInt64 cmtId)

def hdlPostLikeReq (chanId postId cmtId : UInt64) (proof : String) :
    FeedsHandler (List Resp) := do
  didIsReady ctx
  let uinfo ← createUinfoFromAccessToken ctx
  let _ ← chanOfPost chanId postId
  cmtExists chanId postId cmtId
  notLiked uinfo chanId postId cmtId
  let _ ← change <| Sql.dbAddLike (bindInt64 uinfo.uid) (bindInt64 chanId)
    (bindInt64 postId) (bindInt64 cmtId) proof ctx.now
  return [.empty]

def hdlPostUnlikeReq (chanId postId cmtId : UInt64) : FeedsHandler (List Resp) := do
  didIsReady ctx
  let uinfo ← createUinfoFromAccessToken ctx
  let _ ← chanGetById chanId
  liked uinfo chanId postId cmtId
  change <| Sql.dbRmLike (bindInt64 uinfo.uid) (bindInt64 chanId) (bindInt64 postId)
    (bindInt64 cmtId)
  return [.empty]

def hdlReportIllegalCmtReq (chanId postId cmtId : UInt64) (reasons : String) :
    FeedsHandler (List Resp) := do
  didIsReady ctx
  let uinfo ← createUinfoFromAccessToken ctx
  let _ ← chanOfPost chanId postId
  cmtExists chanId postId cmtId
  notLiked uinfo chanId postId cmtId
  change <| Sql.dbAddReportedCmts
    { channelId := bindInt64 chanId
      postId := bindInt64 postId
      commentId := bindInt64 cmtId
      reporterId := bindInt64 uinfo.uid
      createdAt := ctx.now
      reasons := reasons }
  return [.empty]

end Likes

section Subscriptions

variable (ctx : Ctx)

def isSuber (uinfo : UserInfo) (id : UInt64) : FeedsHandler Unit :=
  dbTest .dbIsSuber .wrongState fun db => dbIsSuber db (bindInt64 uinfo.uid) (bindInt64 id)

def isNoSuber (uinfo : UserInfo) (id : UInt64) : FeedsHandler Unit :=
  dbTest .dbIsSuber .wrongState fun db => !dbIsSuber db (bindInt64 uinfo.uid) (bindInt64 id)

/-- An allocation that is made only under a condition. -/
def attemptIf (condition : Bool) (call : Call) : FeedsHandler Unit :=
  if condition then attempt call (fails .internalError) else pure ()

def hdlSubChanReq (id : UInt64) (proof : String) : FeedsHandler (List Resp) := do
  didIsReady ctx
  let uinfo ← createUinfoFromAccessToken ctx
  let chan ← chanGetById id
  isNoSuber uinfo id
  let w ← get
  attemptIf (w.mem.asGet uinfo.uid).isSome (.aspcCreate 0)
  change <| Sql.dbAddSub (bindInt64 uinfo.uid) (bindInt64 id) proof ctx.now
  update fun w => { w with mem := w.mem.subChan uinfo.uid chan }
  let w ← get
  return [.chan true (w.mem.chan chan).info]

def hdlUnsubChanReq (id : UInt64) : FeedsHandler (List Resp) := do
  didIsReady ctx
  let uinfo ← createUinfoFromAccessToken ctx
  let chan ← chanGetById id
  isSuber uinfo id
  change <| Sql.dbUnsub (bindInt64 uinfo.uid) (bindInt64 id)
  update fun w => { w with mem := w.mem.unsubChan uinfo.uid chan }
  return [.empty]

/-- Every channel that is subscribed to takes a step of the query and an allocation. -/
def aspcCreates : ℕ → List ℕ → FeedsHandler Unit
  | _, [] => pure ()
  | number, _ :: ids => do
      attempt (.dbIterNxt number) (fails .internalError)
      attempt (.aspcCreate number) (fails .internalError)
      aspcCreates (number + 1) ids

/-- Nothing is put into a table before the last allocation. -/
def hdlEnblNotifReq : FeedsHandler (List Resp) := do
  didIsReady ctx
  let uinfo ← createUinfoFromAccessToken ctx
  let w ← get
  if (w.mem.asGet uinfo.uid).any fun as => w.mem.ndpasExist as ctx.from then
    return [.empty]
  else do
    let newAs := (w.mem.asGet uinfo.uid).isNone
    attemptIf newAs .asCreate
    attemptIf (w.mem.ndGet ctx.from).isNone .ndCreate
    attempt .ndpasCreate (fails .internalError)
    if newAs then do
      attempt .dbIterSubChans (fails .internalError)
      aspcCreates 0 (dbIterSubChans w.db uinfo.uid)
      attempt (.dbIterNxt (dbIterSubChans w.db uinfo.uid).length) (fails .internalError)
    else
      pure ()
    update fun w => { w with mem := w.mem.enblNotif w.db uinfo.uid ctx.from }
    return [.empty]

end Subscriptions

/-- The handler of a request, none for a request that only reads. -/
def feedsHandler (ctx : Ctx) : Feeds.Req → Option (FeedsHandler (List Resp))
  | .createChan params => some (hdlCreateChanReq ctx params)
  | .updChan chanId params => some (hdlUpdChanReq ctx chanId params)
  | .pubPost chanId params => some (hdlPubPostReq ctx chanId params)
  | .declarePost chanId withNotify params =>
      some (hdlDeclarePostReq ctx chanId withNotify params)
  | .notifyPost chanId postId => some (hdlNotifyPostReq ctx chanId postId)
  | .editPost chanId postId params => some (hdlEditPostReq ctx chanId postId params)
  | .delPost chanId postId => some (hdlDelPostReq ctx chanId postId)
  | .postCmt chanId postId cmtId params => some (hdlPostCmtReq ctx chanId postId cmtId params)
  | .editCmt chanId postId id cmtId params =>
      some (hdlEditCmtReq ctx chanId postId id cmtId params)
  | .delCmt chanId postId id => some (hdlDelCmtReq ctx chanId postId id)
  | .blockCmt chanId postId cmtId => some (hdlBlockCmtReq ctx chanId postId cmtId)
  | .unblockCmt chanId postId cmtId => some (hdlUnblockCmtReq ctx chanId postId cmtId)
  | .postLike chanId postId cmtId proof => some (hdlPostLikeReq ctx chanId postId cmtId proof)
  | .postUnlike chanId postId cmtId => some (hdlPostUnlikeReq ctx chanId postId cmtId)
  | .subChan id proof => some (hdlSubChanReq ctx id proof)
  | .unsubChan id => some (hdlUnsubChanReq ctx id)
  | .enblNotif => some (hdlEnblNotifReq ctx)
  | .updUserInfo params => some (hdlUpdUserInfoReq ctx params)
  | .reportIllegalCmt chanId postId cmtId reasons =>
      some (hdlReportIllegalCmtReq ctx chanId postId cmtId reasons)
  | .getPosts _ _ | .getCmts _ _ _ | .query _ => none

end FeedsService.Failures
