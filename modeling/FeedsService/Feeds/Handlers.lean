import FeedsService.Feeds.Memory

/-!
# The request handlers of `feeds.c`

Each handler checks its request in the order of the source and either answers
an error, which leaves the world as it was, or changes the database and memory,
notifies and replies.  `create_uinfo_from_access_token` is part of the context
of a request: the user the token names, or none.

Rendering a status is observable: `post_stat_str` and `cmt_stat_str` abort the
process for a status they do not list, and the log lines that call them are
evaluated whatever the log level.
-/

namespace FeedsService.Feeds

open FeedsService.Library

/-- What the environment gives to a request. -/
structure Ctx where
  «from» : NodeId
  tsxId : UInt64
  didIsReady : Bool
  now : ℤ
  uinfo : Option UserInfo
  /-- `MAX_CONTENT_LEN`, which depends on a constant of Carrier. -/
  maxContentLen : UInt64
  /-- `feeds_owner_info.did`. -/
  ownerDid : String := ""
  /-- `connecting_clients`. -/
  connectingClients : ℤ := 0

inductive Err
  | alreadyExists
  | notExist
  | notAuthorized
  | wrongState
  | accessTokenExp
  | internalError
  | maxFeedsLimit
  deriving DecidableEq

def Err.code : Err → ℤ
  | .alreadyExists => -1
  | .notExist => -2
  | .notAuthorized => -3
  | .wrongState => -4
  | .accessTokenExp => -5
  | .internalError => -6
  | .maxFeedsLimit => -12

/-- The result part of a response. -/
inductive Resp
  | empty
  | id (id : ℤ)
  | chan (isLast : Bool) (cinfo : ChanInfo)
  | posts (isLast : Bool) (pinfos : List PostInfo)
  | cmts (isLast : Bool) (cinfos : List CmtInfo)
  | chans (isLast : Bool) (cinfos : List ChanInfo)
  | chansMeta (cinfos : List ChanInfo)
  | chanDtl (cinfo : ChanInfo)
  | postsLac (pinfos : List PostInfo)
  | likedData (isLast : Bool) (linfos : List LikedInfo)
  | cmtsLikes (cinfos : List CmtInfo)
  | stats (did : String) (connCs totalCs : ℤ)
  | srvVer
  | reportedCmts (isLast : Bool) (rcinfos : List ReportedCmtInfo)

inductive Msg
  | err (tsxId : UInt64) (ec : ℤ)
  | resp (tsxId : UInt64) (result : Resp)
  | chanUpd (cinfo : ChanInfo)
  | newPost (pinfo : PostInfo)
  | postUpd (pinfo : PostInfo)
  | newCmt (cinfo : CmtInfo)
  | cmtUpd (cinfo : CmtInfo)
  | newLike (li : LikeInfo)
  | newSub (chanId : ℕ) (uinfo : UserInfo)
  | reportCmt (chanId postId cmtId : ℤ) (reporter : UserInfo)

def postStatStr : PostStat → Option String
  | .available => some "available"
  | .deleted => some "deleted"
  | .declared => some "declared"
  | .wrongStat => none

def cmtStatStr : CmtStat → Option String
  | .available => some "available"
  | .deleted => some "deleted"
  | _ => none

/-- What a handler does to the outside, in order. -/
inductive Out
  | msgqEnq (peer : NodeId) (msg : Msg)
  | postStat (stat : PostStat)
  | cmtStat (stat : CmtStat)

/-- The call does not return: a failed assertion or `abort()`. -/
def Out.Aborts : Out → Bool
  | .msgqEnq _ _ => false
  | .postStat stat => (postStatStr stat).isNone
  | .cmtStat stat => (cmtStatStr stat).isNone

structure World where
  mem : Mem
  db : Db

structure Result where
  world : World
  outs : List Out

/-- A request that was carried out: the notifications go out before the replies. -/
structure Done where
  world : World
  outs : List Out
  replies : List Resp

/-- How a handler ends. -/
inductive Outcome
  | ignored
  | failed (err : Err)
  | done (done : Done)

/-- What the end of a handler leaves and sends; an error leaves the world as it
was. -/
def Outcome.result (w : World) (ctx : Ctx) : Outcome → Result
  | .ignored => ⟨w, []⟩
  | .failed err => ⟨w, [.msgqEnq ctx.from (.err ctx.tsxId err.code)]⟩
  | .done carried =>
      ⟨carried.world,
        carried.outs ++ carried.replies.map fun resp => .msgqEnq ctx.from (.resp ctx.tsxId resp)⟩

section Notifications

def notifyOfChanUpd (ci : ChanInfo) (peer : NodeId) : List Out :=
  [.msgqEnq peer (.chanUpd ci)]

def notifyOfNewPost (pi : PostInfo) (peer : NodeId) : List Out :=
  [.msgqEnq peer (.newPost pi)]

def notifyOfPostUpd (pi : PostInfo) (peer : NodeId) : List Out :=
  [.postStat pi.stat, .msgqEnq peer (.postUpd pi)]

def notifyOfNewCmt (ci : CmtInfo) (peer : NodeId) : List Out :=
  [.msgqEnq peer (.newCmt ci)]

def notifyOfCmtUpd (ci : CmtInfo) (peer : NodeId) : List Out :=
  [.cmtStat ci.stat, .msgqEnq peer (.cmtUpd ci)]

def notifyOfNewLike (li : LikeInfo) (peer : NodeId) : List Out :=
  [.msgqEnq peer (.newLike li)]

def notifyOfNewSub (chanId : ℕ) (uinfo : UserInfo) (peer : NodeId) : List Out :=
  [.msgqEnq peer (.newSub chanId uinfo)]

/-- The reasons and the time of the report are not set here. -/
def notifyOfReportCmt (chanId postId cmtId : ℤ) (reporter : UserInfo) (peer : NodeId) :
    List Out :=
  [.msgqEnq peer (.reportCmt chanId postId cmtId reporter)]

end Notifications

section Checks

def ready (ctx : Ctx) (next : Outcome) : Outcome :=
  if ctx.didIsReady then next else .ignored

def check (condition : Bool) (err : Err) (next : Outcome) : Outcome :=
  if condition then next else .failed err

def withUinfo (ctx : Ctx) (next : UserInfo → Outcome) : Outcome :=
  match ctx.uinfo with
  | none => .failed .accessTokenExp
  | some uinfo => next uinfo

def userIdIsOwner (uid : UInt64) : Bool :=
  uid = 1

def withOwner (ctx : Ctx) (next : Outcome) : Outcome :=
  withUinfo ctx fun uinfo => check (userIdIsOwner uinfo.uid) .notAuthorized next

def withChan (w : World) (chanId : UInt64) (next : Ref → Outcome) : Outcome :=
  match w.mem.chanGetById chanId.toNat with
  | none => .failed .notExist
  | some chan => next chan

/-- A database call that may return -1. -/
def dbCall {β : Type} (result : Option β) (err : Err) (next : β → Outcome) : Outcome :=
  match result with
  | none => .failed err
  | some value => next value

@[simp]
theorem ready_eq_done {ctx : Ctx} {next : Outcome} {done : Done} :
    ready ctx next = .done done ↔ ctx.didIsReady = true ∧ next = .done done := by
  cases h : ctx.didIsReady <;> simp [ready, h]

@[simp]
theorem check_eq_done {condition : Bool} {err : Err} {next : Outcome} {done : Done} :
    check condition err next = .done done ↔ condition = true ∧ next = .done done := by
  cases condition <;> simp [check]

@[simp]
theorem withUinfo_eq_done {ctx : Ctx} {next : UserInfo → Outcome} {done : Done} :
    withUinfo ctx next = .done done ↔
      ∃ uinfo, ctx.uinfo = some uinfo ∧ next uinfo = .done done := by
  cases h : ctx.uinfo <;> simp [withUinfo, h]

@[simp]
theorem withOwner_eq_done {ctx : Ctx} {next : Outcome} {done : Done} :
    withOwner ctx next = .done done ↔
      (∃ uinfo, ctx.uinfo = some uinfo ∧ userIdIsOwner uinfo.uid = true) ∧
        next = .done done := by
  simp [withOwner, ← and_assoc, exists_and_right]

@[simp]
theorem withChan_eq_done {w : World} {chanId : UInt64} {next : Ref → Outcome}
    {done : Done} :
    withChan w chanId next = .done done ↔
      ∃ chan, w.mem.chanGetById chanId.toNat = some chan ∧ next chan = .done done := by
  cases h : w.mem.chanGetById chanId.toNat <;> simp [withChan, h]

@[simp]
theorem dbCall_eq_done {β : Type} {result : Option β} {err : Err}
    {next : β → Outcome} {done : Done} :
    dbCall result err next = .done done ↔
      ∃ value, result = some value ∧ next value = .done done := by
  cases result <;> simp [dbCall]

end Checks

section Channels

structure ChanParams where
  name : String
  intro : String
  avatar : Bytes
  tipm : String
  proof : String
  deriving DecidableEq

def hdlCreateChanReq (w : World) (ctx : Ctx) (params : ChanParams) : Outcome :=
  let ci : ChanInfo :=
    { chanId := w.mem.nxtChanId
      name := params.name
      intro := params.intro
      createdAt := ctx.now
      updAt := ctx.now
      subs := 0
      nextPostId := 1
      avatar := params.avatar
      tipMethods := params.tipm
      proof := params.proof
      status := 0 }
  check (dbGetCountChannels w.db < 5) .maxFeedsLimit <|
  ready ctx <|
  withOwner ctx <|
  check (!w.mem.chanExistByName params.name) .alreadyExists <|
  dbCall (dbCreateChan w.db ci) .internalError fun db =>
  .done
    { world := ⟨w.mem.createChan ci, db⟩
      outs := []
      replies := [.id ci.chanId] }

def hdlUpdChanReq (w : World) (ctx : Ctx) (chanId : UInt64) (params : ChanParams) :
    Outcome :=
  ready ctx <|
  withOwner ctx <|
  withChan w chanId fun chan =>
  let info := (w.mem.chan chan).info
  let ci : ChanInfo :=
    { chanId := chanId.toNat
      name := params.name
      intro := params.intro
      createdAt := info.createdAt
      updAt := ctx.now
      subs := info.subs
      nextPostId := info.nextPostId
      avatar := params.avatar
      tipMethods := params.tipm
      proof := params.proof
      status := info.status }
  check (!(info.name ≠ params.name && w.mem.chanExistByName params.name))
    .alreadyExists <|
  dbCall (dbUpdChan w.db ci) .internalError fun db =>
  let mem := w.mem.chanUpdate chan ci
  .done
    { world := ⟨mem, db⟩
      outs := (mem.destinations chan).flatMap (notifyOfChanUpd ci)
      replies := [.empty] }

end Channels

section Posts

structure PostParams where
  content : Bytes
  thumbnails : Bytes
  hashId : String
  proof : String
  originPostUrl : String
  deriving DecidableEq

/-- The post that `hdl_pub_post_req` and `hdl_declare_post_req` add. -/
def newPost (ctx : Ctx) (info : ChanInfo) (chanId : UInt64) (stat : PostStat)
    (params : PostParams) : PostInfo where
  chanId := bindInt64 chanId
  postId := info.nextPostId
  stat := stat
  createdAt := ctx.now
  updAt := ctx.now
  cmts := 0
  likes := 0
  content := params.content
  thumbnails := params.thumbnails
  hashId := params.hashId
  proof := params.proof
  originPostUrl := params.originPostUrl

@[simp]
theorem newPost_chanId (ctx : Ctx) (info : ChanInfo) (chanId : UInt64) (stat : PostStat)
    (params : PostParams) :
    (newPost ctx info chanId stat params).chanId = bindInt64 chanId := by
  simp only [newPost]

@[simp]
theorem newPost_postId (ctx : Ctx) (info : ChanInfo) (chanId : UInt64) (stat : PostStat)
    (params : PostParams) :
    (newPost ctx info chanId stat params).postId = info.nextPostId := by
  simp only [newPost]

def hdlPubPostReq (w : World) (ctx : Ctx) (chanId : UInt64) (params : PostParams) :
    Outcome :=
  ready ctx <|
  withOwner ctx <|
  withChan w chanId fun chan =>
  let pi := newPost ctx (w.mem.chan chan).info chanId .available params
  dbCall (dbAddPost w.db pi) .internalError fun db =>
  .done
    { world := ⟨w.mem.addPost chan, db⟩
      outs := (w.mem.destinations chan).flatMap (notifyOfNewPost pi)
      replies := [.id pi.postId] }

def hdlDeclarePostReq (w : World) (ctx : Ctx) (chanId : UInt64) (withNotify : Bool)
    (params : PostParams) : Outcome :=
  ready ctx <|
  withOwner ctx <|
  withChan w chanId fun chan =>
  let pi := newPost ctx (w.mem.chan chan).info chanId
    (if withNotify then .available else .declared) params
  dbCall (dbAddPost w.db pi) .internalError fun db =>
  .done
    { world := ⟨w.mem.addPost chan, db⟩
      outs := .postStat pi.stat ::
        if withNotify then
          (w.mem.destinations chan).flatMap (notifyOfNewPost pi)
        else
          []
      replies := [.id pi.postId] }

/-- A post of which only the ids, the status and the time are set. -/
def blankPost (chanId postId : UInt64) (stat : PostStat) (updAt : ℤ) : PostInfo where
  chanId := bindInt64 chanId
  postId := bindInt64 postId
  stat := stat
  createdAt := 0
  updAt := updAt
  cmts := 0
  likes := 0
  content := []
  thumbnails := []
  hashId := ""
  proof := ""
  originPostUrl := ""

/-- The final `db_get_post` finds the row that `db_set_post_status` has just read
back (`dbGetPost_of_dbSetPostStatus`), so its error is never sent. -/
def hdlNotifyPostReq (w : World) (ctx : Ctx) (chanId postId : UInt64) : Outcome :=
  ready ctx <|
  withOwner ctx <|
  withChan w chanId fun chan =>
  dbCall (dbGetPostStatus w.db (bindInt64 chanId) (bindInt64 postId)) .notExist fun stat =>
  check (stat ≠ .deleted) .wrongState <|
  dbCall (dbSetPostStatus w.db (blankPost chanId postId .available 0)) .internalError
    fun set =>
  dbCall (dbGetPost set.2 (bindInt64 chanId) (bindInt64 postId) set.1) .internalError
    fun pi =>
  .done
    { world := ⟨w.mem, set.2⟩
      outs := (w.mem.destinations chan).flatMap (notifyOfPostUpd pi)
      replies := [.empty] }

def hdlEditPostReq (w : World) (ctx : Ctx) (chanId postId : UInt64)
    (params : PostParams) : Outcome :=
  ready ctx <|
  withOwner ctx <|
  withChan w chanId fun chan =>
  check (dbPostIsAvail w.db (bindInt64 chanId) (bindInt64 postId)) .notExist <|
  let pi : PostInfo :=
    { blankPost chanId postId .available ctx.now with
      content := params.content
      thumbnails := params.thumbnails
      hashId := params.hashId
      proof := params.proof
      originPostUrl := params.originPostUrl }
  dbCall (dbUpdPost w.db pi) .internalError fun upd =>
  .done
    { world := ⟨w.mem, upd.2⟩
      outs := (w.mem.destinations chan).flatMap (notifyOfPostUpd upd.1)
      replies := [.empty] }

def hdlDelPostReq (w : World) (ctx : Ctx) (chanId postId : UInt64) : Outcome :=
  ready ctx <|
  withOwner ctx <|
  withChan w chanId fun chan =>
  check (dbPostIsAvail w.db (bindInt64 chanId) (bindInt64 postId)) .notExist <|
  dbCall (dbSetPostStatus w.db (blankPost chanId postId .deleted ctx.now)) .internalError
    fun set =>
  .done
    { world := ⟨w.mem, set.2⟩
      outs := (w.mem.destinations chan).flatMap (notifyOfPostUpd set.1)
      replies := [.empty] }

end Posts

section Comments

structure CmtParams where
  content : Bytes
  thumbnails : Bytes
  hashId : String
  proof : String
  deriving DecidableEq

/-- The channel exists and the post id is below its next one. -/
def withPost (w : World) (chanId postId : UInt64) (next : Ref → Outcome) : Outcome :=
  withChan w chanId fun chan =>
  check (postId.toNat < (w.mem.chan chan).info.nextPostId) .notExist (next chan)

@[simp]
theorem withPost_eq_done {w : World} {chanId postId : UInt64} {next : Ref → Outcome}
    {done : Done} :
    withPost w chanId postId next = .done done ↔
      ∃ chan, w.mem.chanGetById chanId.toNat = some chan ∧
        postId.toNat < (w.mem.chan chan).info.nextPostId ∧ next chan = .done done := by
  simp [withPost]

/-- A comment of which only the ids, the status, the user and the time are set. -/
def blankCmt (chanId postId cmtId : UInt64) (stat : CmtStat) (user : UserInfo)
    (updAt : ℤ) : CmtInfo where
  chanId := bindInt64 chanId
  postId := bindInt64 postId
  cmtId := bindInt64 cmtId
  stat := stat
  user := user
  replyToCmt := 0
  createdAt := 0
  updAt := updAt
  likes := 0
  content := []
  thumbnails := []
  hashId := ""
  proof := ""

/-- No comment is referred to, or one that exists. -/
def cmtIdOk (w : World) (chanId postId cmtId : UInt64) : Bool :=
  cmtId = 0 || dbCmtExists w.db (bindInt64 chanId) (bindInt64 postId) (bindInt64 cmtId)

def hdlPostCmtReq (w : World) (ctx : Ctx) (chanId postId cmtId : UInt64)
    (params : CmtParams) : Outcome :=
  ready ctx <|
  withUinfo ctx fun uinfo =>
  withPost w chanId postId fun chan =>
  check (cmtIdOk w chanId postId cmtId) .notExist <|
  let ci : CmtInfo :=
    { blankCmt chanId postId 0 .available uinfo ctx.now with
      replyToCmt := bindInt64 cmtId
      createdAt := ctx.now
      content := params.content
      thumbnails := params.thumbnails
      hashId := params.hashId
      proof := params.proof }
  dbCall (dbAddCmt w.db ci) .internalError fun added =>
  .done
    { world := ⟨w.mem, added.2⟩
      outs := (w.mem.destinations chan).flatMap
        (notifyOfNewCmt { ci with cmtId := added.1 })
      replies := [.id added.1] }

def hdlEditCmtReq (w : World) (ctx : Ctx) (chanId postId id cmtId : UInt64)
    (params : CmtParams) : Outcome :=
  ready ctx <|
  withUinfo ctx fun uinfo =>
  withPost w chanId postId fun chan =>
  check (dbCmtIsAvail w.db (bindInt64 chanId) (bindInt64 postId) (bindInt64 id))
    .notExist <|
  check (dbCmtUid w.db (bindInt64 chanId) (bindInt64 postId) (bindInt64 id) =
    some (bindInt64 uinfo.uid)) .notAuthorized <|
  check (cmtIdOk w chanId postId cmtId) .notExist <|
  let ci : CmtInfo :=
    { blankCmt chanId postId id .available uinfo ctx.now with
      replyToCmt := bindInt64 cmtId
      content := params.content
      thumbnails := params.thumbnails
      hashId := params.hashId
      proof := params.proof }
  dbCall (dbUpdCmt w.db ci) .internalError fun upd =>
  .done
    { world := ⟨w.mem, upd.2⟩
      outs := (w.mem.destinations chan).flatMap (notifyOfCmtUpd upd.1)
      replies := [.empty] }

/-- The handlers that change the status of a comment differ in the predicate
that lets a comment through and in the status they set. -/
def setCmtStatus (found : Db → ℤ → ℤ → ℤ → Bool) (stat : CmtStat) (w : World) (ctx : Ctx)
    (chanId postId cmtId : UInt64) : Outcome :=
  ready ctx <|
  withUinfo ctx fun uinfo =>
  withPost w chanId postId fun chan =>
  check (found w.db (bindInt64 chanId) (bindInt64 postId) (bindInt64 cmtId)) .notExist <|
  check (dbCmtUid w.db (bindInt64 chanId) (bindInt64 postId) (bindInt64 cmtId) =
    some (bindInt64 uinfo.uid)) .notAuthorized <|
  dbCall (dbSetCmtStatus w.db (blankCmt chanId postId cmtId stat uinfo ctx.now))
    .internalError fun set =>
  .done
    { world := ⟨w.mem, set.2⟩
      outs := (w.mem.destinations chan).flatMap (notifyOfCmtUpd set.1)
      replies := [.empty] }

def hdlDelCmtReq (w : World) (ctx : Ctx) (chanId postId id : UInt64) : Outcome :=
  setCmtStatus dbCmtIsAvail .deleted w ctx chanId postId id

def hdlBlockCmtReq (w : World) (ctx : Ctx) (chanId postId cmtId : UInt64) : Outcome :=
  setCmtStatus dbCmtExists .blocked w ctx chanId postId cmtId

def hdlUnblockCmtReq (w : World) (ctx : Ctx) (chanId postId cmtId : UInt64) : Outcome :=
  setCmtStatus dbCmtExists .available w ctx chanId postId cmtId

end Comments

section Likes

def hdlPostLikeReq (w : World) (ctx : Ctx) (chanId postId cmtId : UInt64)
    (proof : String) : Outcome :=
  ready ctx <|
  withUinfo ctx fun uinfo =>
  withPost w chanId postId fun chan =>
  check (cmtIdOk w chanId postId cmtId) .notExist <|
  check (!dbLikeExists w.db (bindInt64 uinfo.uid) (bindInt64 chanId) (bindInt64 postId)
    (bindInt64 cmtId)) .wrongState <|
  dbCall (dbAddLike w.db (bindInt64 uinfo.uid) (bindInt64 chanId) (bindInt64 postId)
    (bindInt64 cmtId) proof ctx.now) .internalError fun added =>
  let li : LikeInfo :=
    { chanId := bindInt64 chanId
      postId := bindInt64 postId
      cmtId := bindInt64 cmtId
      user := uinfo
      totalCnt := added.1
      proof := proof }
  .done
    { world := ⟨w.mem, added.2⟩
      outs := (w.mem.destinations chan).flatMap (notifyOfNewLike li)
      replies := [.empty] }

def hdlPostUnlikeReq (w : World) (ctx : Ctx) (chanId postId cmtId : UInt64) : Outcome :=
  ready ctx <|
  withUinfo ctx fun uinfo =>
  withChan w chanId fun _ =>
  check (dbLikeExists w.db (bindInt64 uinfo.uid) (bindInt64 chanId) (bindInt64 postId)
    (bindInt64 cmtId)) .wrongState <|
  .done
    { world := ⟨w.mem, dbRmLike w.db (bindInt64 uinfo.uid) (bindInt64 chanId)
        (bindInt64 postId) (bindInt64 cmtId)⟩
      outs := []
      replies := [.empty] }

end Likes

section Queries

/-- The replies of a list request.  An item takes `taken` from what is `left` of
a reply, and the next one goes into the same reply when its `needed` still fits. -/
def splitReplies {α : Type} (maxContentLen : UInt64) (taken needed : α → UInt64)
    (pending : List α) (left : UInt64) : List α → List (Bool × List α)
  | [] => []
  | [item] => [(true, pending ++ [item])]
  | item :: next :: rest =>
      if left - taken item = 0 ∨ left - taken item < needed next then
        (false, pending ++ [item]) ::
          splitReplies maxContentLen taken needed [] maxContentLen (next :: rest)
      else
        splitReplies maxContentLen taken needed (pending ++ [item]) (left - taken item)
          (next :: rest)

/-- An empty list is answered too. -/
def listReplies {α : Type} (maxContentLen : UInt64) (taken needed : α → UInt64)
    (items : List α) : List (Bool × List α) :=
  if items = [] then
    [(true, [])]
  else
    splitReplies maxContentLen taken needed [] maxContentLen items

def PostInfo.conLen (pi : PostInfo) : UInt64 := .ofNat pi.content.length

def PostInfo.thuLen (pi : PostInfo) : UInt64 := .ofNat pi.thumbnails.length

def CmtInfo.conLen (ci : CmtInfo) : UInt64 := .ofNat ci.content.length

def CmtInfo.thuLen (ci : CmtInfo) : UInt64 := .ofNat ci.thumbnails.length

def hdlGetPostsReq (w : World) (ctx : Ctx) (chanId : UInt64) (qc : QryCriteria) :
    Outcome :=
  ready ctx <|
  withUinfo ctx fun _ =>
  withChan w chanId fun _ =>
  dbCall (dbIterPosts w.db (bindInt64 chanId) qc) .internalError fun pinfos =>
  .done
    { world := w
      outs := pinfos.map fun pi => .postStat pi.stat
      replies := (listReplies ctx.maxContentLen (fun pi => pi.conLen + pi.thuLen)
        (fun pi => pi.conLen + pi.thuLen) pinfos).map fun reply =>
          .posts reply.1 reply.2 }

/-- Unlike `hdl_get_posts_req`, what an item takes leaves out its thumbnails. -/
def hdlGetCmtsReq (w : World) (ctx : Ctx) (chanId postId : UInt64) (qc : QryCriteria) :
    Outcome :=
  ready ctx <|
  withUinfo ctx fun _ =>
  withPost w chanId postId fun _ =>
  dbCall (dbIterCmts w.db (bindInt64 chanId) (bindInt64 postId) qc) .internalError
    fun cinfos =>
  .done
    { world := w
      outs := cinfos.map fun ci => .cmtStat ci.stat
      replies := (listReplies ctx.maxContentLen (fun ci => ci.conLen)
        (fun ci => ci.conLen + ci.thuLen) cinfos).map fun reply =>
          .cmts reply.1 reply.2 }

def ChanInfo.len (ci : ChanInfo) : UInt64 := .ofNat ci.avatar.length

/-- The replies of the requests that list channels. -/
def chansReplies (ctx : Ctx) (cinfos : List ChanInfo) : List Resp :=
  (listReplies ctx.maxContentLen ChanInfo.len ChanInfo.len cinfos).map fun reply =>
    .chans reply.1 reply.2

def hdlGetMyChansReq (w : World) (ctx : Ctx) (qc : QryCriteria) : Outcome :=
  ready ctx <|
  withOwner ctx <|
  dbCall (dbQueryChans w.db qc) .internalError fun cinfos =>
  .done ⟨w, [], chansReplies ctx cinfos⟩

def hdlGetMyChansMetaReq (w : World) (ctx : Ctx) (qc : QryCriteria) : Outcome :=
  ready ctx <|
  withOwner ctx <|
  dbCall (dbQueryChans w.db qc) .internalError fun cinfos =>
  .done ⟨w, [], [.chansMeta cinfos]⟩

def hdlGetChansReq (w : World) (ctx : Ctx) (qc : QryCriteria) : Outcome :=
  ready ctx <|
  withUinfo ctx fun _ =>
  dbCall (dbQueryChans w.db qc) .internalError fun cinfos =>
  .done ⟨w, [], chansReplies ctx cinfos⟩

def hdlGetChanDtlReq (w : World) (ctx : Ctx) (id : UInt64) : Outcome :=
  ready ctx <|
  withUinfo ctx fun _ =>
  withChan w id fun chan =>
  .done ⟨w, [], [.chanDtl (w.mem.chan chan).info]⟩

def hdlGetSubChansReq (w : World) (ctx : Ctx) (qc : QryCriteria) : Outcome :=
  ready ctx <|
  withUinfo ctx fun uinfo =>
  dbCall (dbQuerySubChans w.db uinfo.uid qc) .internalError fun cinfos =>
  .done ⟨w, [], chansReplies ctx cinfos⟩

def hdlGetPostsLacReq (w : World) (ctx : Ctx) (chanId : UInt64) (qc : QryCriteria) :
    Outcome :=
  ready ctx <|
  withUinfo ctx fun _ =>
  withChan w chanId fun _ =>
  dbCall (dbIterPostsLac w.db (bindInt64 chanId) qc) .internalError fun pinfos =>
  .done ⟨w, [], [.postsLac pinfos]⟩

def hdlGetLikedPostsReq (w : World) (ctx : Ctx) (qc : QryCriteria) : Outcome :=
  ready ctx <|
  withUinfo ctx fun uinfo =>
  dbCall (dbIterLikedPosts w.db uinfo.uid qc) .internalError fun pinfos =>
  .done ⟨w, [], (listReplies ctx.maxContentLen PostInfo.conLen PostInfo.conLen pinfos).map
    fun reply => .posts reply.1 reply.2⟩

/-- A pointer, and the strings with their terminators. -/
def LikedInfo.size (li : LikedInfo) : UInt64 :=
  8 + .ofNat (li.proof.utf8ByteSize + 1) + .ofNat (li.user.name.utf8ByteSize + 1) +
    .ofNat (li.user.did.utf8ByteSize + 1)

/-- A reply ends when the item just put into it would not fit once more: the size
that is compared is not that of the next item. -/
def splitLikedData (maxContentLen : UInt64) (pending : List LikedInfo) (left : UInt64) :
    List LikedInfo → List (Bool × List LikedInfo)
  | [] => []
  | [item] => [(true, pending ++ [item])]
  | item :: next :: rest =>
      if left - item.size = 0 ∨ left - item.size < item.size then
        (false, pending ++ [item]) ::
          splitLikedData maxContentLen [] maxContentLen (next :: rest)
      else
        splitLikedData maxContentLen (pending ++ [item]) (left - item.size) (next :: rest)

def hdlGetLikedDataReq (w : World) (ctx : Ctx) (qc : QryCriteria) : Outcome :=
  ready ctx <|
  withUinfo ctx fun uinfo =>
  dbCall (dbIterLikedData w.db uinfo.uid qc) .internalError fun linfos =>
  .done ⟨w, [], (if linfos = [] then [(true, [])]
    else splitLikedData ctx.maxContentLen [] ctx.maxContentLen linfos).map fun reply =>
      .likedData reply.1 reply.2⟩

def hdlGetCmtsLikesReq (w : World) (ctx : Ctx) (chanId postId : UInt64) (qc : QryCriteria) :
    Outcome :=
  ready ctx <|
  withUinfo ctx fun _ =>
  withPost w chanId postId fun _ =>
  dbCall (dbIterCmtsLikes w.db (bindInt64 chanId) (bindInt64 postId) qc) .internalError
    fun cinfos =>
  .done ⟨w, [], [.cmtsLikes cinfos]⟩

def hdlGetStatsReq (w : World) (ctx : Ctx) : Outcome :=
  ready ctx <|
  withUinfo ctx fun _ =>
  .done ⟨w, [], [.stats ctx.ownerDid ctx.connectingClients (dbGetCountUsers w.db)]⟩

/-- The version is that of the build. -/
def hdlGetSrvVerReq (w : World) : Outcome :=
  .done ⟨w, [], [.srvVer]⟩

/-- Every report is a reply of its own. -/
def reportReplies : List ReportedCmtInfo → List (Bool × List ReportedCmtInfo)
  | [] => [(true, [])]
  | [item] => [(true, [item])]
  | item :: next :: rest => (false, [item]) :: reportReplies (next :: rest)

def hdlGetReportedCmtsReq (w : World) (ctx : Ctx) (qc : QryCriteria) : Outcome :=
  ready ctx <|
  withOwner ctx <|
  dbCall (dbIterReportedCmts w.db qc) .internalError fun rcinfos =>
  .done ⟨w, [], (reportReplies rcinfos).map fun reply => .reportedCmts reply.1 reply.2⟩

end Queries

section Users

structure UserParams where
  name : String
  email : String
  displayName : String
  avatar : Bytes
  deriving DecidableEq

/-- The row to change is found by the DID of the token. -/
def hdlUpdUserInfoReq (w : World) (ctx : Ctx) (params : UserParams) : Outcome :=
  ready ctx <|
  withUinfo ctx fun uinfo =>
  dbCall (dbUpdateUserInfo w.db { uinfo with
      name := params.name
      email := params.email
      displayName := some params.displayName
      avatar := some params.avatar } ctx.now) .internalError fun db =>
  .done ⟨⟨w.mem, db⟩, [], [.empty]⟩

end Users

section Reports

/-- Who has liked the comment cannot report it. -/
def hdlReportIllegalCmtReq (w : World) (ctx : Ctx) (chanId postId cmtId : UInt64)
    (reasons : String) : Outcome :=
  ready ctx <|
  withUinfo ctx fun uinfo =>
  withPost w chanId postId fun _ =>
  check (cmtIdOk w chanId postId cmtId) .notExist <|
  check (!dbLikeExists w.db (bindInt64 uinfo.uid) (bindInt64 chanId) (bindInt64 postId)
    (bindInt64 cmtId)) .wrongState <|
  .done
    { world := ⟨w.mem, dbAddReportedCmts w.db
        { channelId := bindInt64 chanId
          postId := bindInt64 postId
          commentId := bindInt64 cmtId
          reporterId := bindInt64 uinfo.uid
          createdAt := ctx.now
          reasons := reasons }⟩
      outs := w.mem.ownerDestinations.flatMap (notifyOfReportCmt (bindInt64 chanId)
        (bindInt64 postId) (bindInt64 cmtId) uinfo)
      replies := [.empty] }

end Reports

section Subscriptions

def hdlSubChanReq (w : World) (ctx : Ctx) (id : UInt64) (proof : String) : Outcome :=
  ready ctx <|
  withUinfo ctx fun uinfo =>
  withChan w id fun chan =>
  check (!dbIsSuber w.db (bindInt64 uinfo.uid) (bindInt64 id)) .wrongState <|
  dbCall (dbAddSub w.db (bindInt64 uinfo.uid) (bindInt64 id) proof ctx.now)
    .internalError fun db =>
  let mem := w.mem.subChan uinfo.uid chan
  .done
    { world := ⟨mem, db⟩
      outs := mem.ownerDestinations.flatMap
        (notifyOfNewSub (mem.chan chan).info.chanId uinfo)
      replies := [.chan true (mem.chan chan).info] }

def hdlUnsubChanReq (w : World) (ctx : Ctx) (id : UInt64) : Outcome :=
  ready ctx <|
  withUinfo ctx fun uinfo =>
  withChan w id fun chan =>
  check (dbIsSuber w.db (bindInt64 uinfo.uid) (bindInt64 id)) .wrongState <|
  .done
    { world := ⟨w.mem.unsubChan uinfo.uid chan,
        dbUnsub w.db (bindInt64 uinfo.uid) (bindInt64 id)⟩
      outs := []
      replies := [.empty] }

def hdlEnblNotifReq (w : World) (ctx : Ctx) : Outcome :=
  ready ctx <|
  withUinfo ctx fun uinfo =>
  .done
    { world := ⟨w.mem.enblNotif w.db uinfo.uid ctx.from, w.db⟩
      outs := []
      replies := [.empty] }

end Subscriptions

end FeedsService.Feeds
