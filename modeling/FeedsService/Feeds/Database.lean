import FeedsService.Library.Bytes
import FeedsService.Library.Rows
import Mathlib.Data.List.Sort

/-!
# The database of `db.cpp`

The tables as lists of rows and the functions of `db.cpp` on them.  A function
returns `none` where the C function returns -1: a constraint of the schema
fails, or a row it then selects is missing, and the transaction is rolled back; or
where the C function returns NULL: the criteria of a query do not fit its text.
Preparing, binding and stepping a statement succeed otherwise.

The columns `iid` and `memo` always hold 'NA' and are left out, as are the
tables that no modelled request touches.  `REAL` columns hold whole seconds.
-/

namespace FeedsService.Feeds

open FeedsService.Library

/-- `sqlite3_bind_int64` of a 64-bit unsigned value. -/
def bindInt64 (value : UInt64) : ℤ :=
  toInt64 value.toNat

inductive PostStat
  | available
  | deleted
  | declared
  | wrongStat
  deriving DecidableEq

inductive CmtStat
  | available
  | deleted
  | blocked
  | wrongStat
  deriving DecidableEq

structure ChannelRow where
  channelId : ℤ
  createdAt : ℤ
  updatedAt : ℤ
  name : String
  intro : String
  nextPostId : ℤ
  subscribers : ℤ
  status : ℤ
  tipMethods : String
  proof : String
  avatar : Bytes
  deriving DecidableEq

structure PostRow where
  channelId : ℤ
  postId : ℤ
  createdAt : ℤ
  updatedAt : ℤ
  nextCommentId : ℤ
  likes : ℤ
  status : PostStat
  hashId : String
  proof : String
  originPostUrl : String
  thumbnails : Bytes
  content : Bytes
  deriving DecidableEq

structure CommentRow where
  channelId : ℤ
  postId : ℤ
  commentId : ℤ
  refcommentId : ℤ
  userId : ℤ
  createdAt : ℤ
  updatedAt : ℤ
  likes : ℤ
  status : CmtStat
  hashId : String
  proof : String
  thumbnails : Bytes
  content : Bytes
  deriving DecidableEq

structure UserRow where
  userId : ℤ
  did : String
  name : String
  email : String
  displayName : String
  updateAt : ℤ
  avatar : Bytes
  deriving DecidableEq

structure SubscriptionRow where
  userId : ℤ
  channelId : ℤ
  createAt : ℤ
  proof : String
  deriving DecidableEq

structure LikeRow where
  channelId : ℤ
  postId : ℤ
  commentId : ℤ
  userId : ℤ
  createdAt : ℤ
  proof : String
  deriving DecidableEq

structure ReportedCommentRow where
  channelId : ℤ
  postId : ℤ
  commentId : ℤ
  reporterId : ℤ
  createdAt : ℤ
  reasons : String
  deriving DecidableEq

/-- The tables, and the largest channel id that `AUTOINCREMENT` ever gave out; the id of a new
user is a parameter of `db_upsert_user`. -/
structure Db where
  channels : List ChannelRow
  posts : List PostRow
  comments : List CommentRow
  users : List UserRow
  subscriptions : List SubscriptionRow
  likes : List LikeRow
  reportedComments : List ReportedCommentRow
  channelsSeq : ℤ

/-- The empty database that `db_init` creates. -/
def Db.init : Db where
  channels := []
  posts := []
  comments := []
  users := []
  subscriptions := []
  likes := []
  reportedComments := []
  channelsSeq := 0

structure UserInfo where
  uid : UInt64
  did : String
  name : String
  email : String
  displayName : Option String
  avatar : Option Bytes
  deriving DecidableEq

structure ChanInfo where
  chanId : ℕ
  name : String
  intro : String
  createdAt : ℤ
  updAt : ℤ
  subs : ℤ
  nextPostId : ℕ
  avatar : Bytes
  tipMethods : String
  proof : String
  status : ℤ
  deriving DecidableEq, Inhabited

structure PostInfo where
  chanId : ℤ
  postId : ℤ
  stat : PostStat
  createdAt : ℤ
  updAt : ℤ
  cmts : ℤ
  likes : ℤ
  content : Bytes
  thumbnails : Bytes
  hashId : String
  proof : String
  originPostUrl : String
  deriving DecidableEq

structure CmtInfo where
  chanId : ℤ
  postId : ℤ
  cmtId : ℤ
  stat : CmtStat
  user : UserInfo
  replyToCmt : ℤ
  createdAt : ℤ
  updAt : ℤ
  likes : ℤ
  content : Bytes
  thumbnails : Bytes
  hashId : String
  proof : String
  deriving DecidableEq

structure LikeInfo where
  chanId : ℤ
  postId : ℤ
  cmtId : ℤ
  user : UserInfo
  totalCnt : ℤ
  proof : String
  deriving DecidableEq

/-- What `row2likeddata` reads: the time of a like is set in this answer only. -/
structure LikedInfo extends LikeInfo where
  createdAt : ℤ
  deriving DecidableEq

structure ReportedCmtInfo where
  chanId : ℤ
  postId : ℤ
  cmtId : ℤ
  reporter : UserInfo
  reasons : String
  createdAt : ℤ
  deriving DecidableEq

inductive QryFld
  | none
  | id
  | updAt
  | createdAt
  deriving DecidableEq

structure QryCriteria where
  «by» : QryFld
  upper : UInt64
  lower : UInt64
  maxcnt : UInt64
  deriving DecidableEq

section Rows

def ChannelRow.at (channelId : ℤ) (row : ChannelRow) : Bool :=
  row.channelId = channelId

def PostRow.at (channelId postId : ℤ) (row : PostRow) : Bool :=
  row.channelId = channelId ∧ row.postId = postId

def CommentRow.at (channelId postId commentId : ℤ) (row : CommentRow) : Bool :=
  row.channelId = channelId ∧ row.postId = postId ∧ row.commentId = commentId

def SubscriptionRow.at (userId channelId : ℤ) (row : SubscriptionRow) : Bool :=
  row.userId = userId ∧ row.channelId = channelId

def LikeRow.at (userId channelId postId commentId : ℤ) (row : LikeRow) : Bool :=
  row.userId = userId ∧ row.channelId = channelId ∧ row.postId = postId ∧
    row.commentId = commentId

def ReportedCommentRow.at (channelId postId commentId reporterId : ℤ)
    (row : ReportedCommentRow) : Bool :=
  row.channelId = channelId ∧ row.postId = postId ∧ row.commentId = commentId ∧
    row.reporterId = reporterId

end Rows

section Channels

def dbGetCountChannels (db : Db) : ℕ :=
  db.channels.length

/-- The row that `db_create_chan` inserts. -/
def newChannelRow (channelId : ℤ) (ci : ChanInfo) : ChannelRow where
  channelId := channelId
  createdAt := ci.createdAt
  updatedAt := ci.createdAt
  name := ci.name
  intro := ci.intro
  nextPostId := 1
  subscribers := 0
  status := 0
  tipMethods := ci.tipMethods
  proof := ci.proof
  avatar := ci.avatar

def dbCreateChan (db : Db) (ci : ChanInfo) : Option Db :=
  if db.channels.any fun row => row.name = ci.name then
    none
  else
    some { db with
      channels := db.channels ++ [newChannelRow (db.channelsSeq + 1) ci]
      channelsSeq := db.channelsSeq + 1 }

/-- The columns that `db_upd_chan` sets. -/
def ChannelRow.upd (ci : ChanInfo) (row : ChannelRow) : ChannelRow :=
  { row with
    updatedAt := ci.updAt
    name := ci.name
    intro := ci.intro
    avatar := ci.avatar
    tipMethods := ci.tipMethods
    proof := ci.proof }

def dbUpdChan (db : Db) (ci : ChanInfo) : Option Db :=
  if db.channels.any fun row => row.name = ci.name ∧ row.channelId ≠ ci.chanId then
    none
  else
    some { db with
      channels := updateWhere db.channels (ChannelRow.at ci.chanId) (ChannelRow.upd ci) }

/-- `row2chan`. -/
def row2chan (row : ChannelRow) : ChanInfo where
  chanId := row.channelId.toNat
  name := row.name
  intro := row.intro
  createdAt := row.createdAt
  updAt := row.updatedAt
  subs := row.subscribers
  nextPostId := row.nextPostId.toNat
  avatar := row.avatar
  tipMethods := row.tipMethods
  proof := row.proof
  status := row.status

/-- `db_iter_chans` without criteria. -/
def dbIterChans (db : Db) : List ChanInfo :=
  db.channels.map row2chan

/-- `db_iter_sub_chans` without criteria: the ids of the channels. -/
def dbIterSubChans (db : Db) (uid : UInt64) : List ℕ :=
  (db.subscriptions.filter fun sub => sub.userId = bindInt64 uid).flatMap fun sub =>
    (db.channels.filter (ChannelRow.at sub.channelId)).map fun row =>
      row.channelId.toNat

end Channels

section Posts

/-- The row that `db_add_post` inserts. -/
def newPostRow (pi : PostInfo) : PostRow where
  channelId := pi.chanId
  postId := pi.postId
  createdAt := pi.createdAt
  updatedAt := pi.createdAt
  nextCommentId := 1
  likes := 0
  status := pi.stat
  hashId := pi.hashId
  proof := pi.proof
  originPostUrl := pi.originPostUrl
  thumbnails := pi.thumbnails
  content := pi.content

def dbAddPost (db : Db) (pi : PostInfo) : Option Db :=
  if db.posts.any (PostRow.at pi.chanId pi.postId) then
    none
  else
    some { db with
      posts := db.posts ++ [newPostRow pi]
      channels := updateWhere db.channels (ChannelRow.at pi.chanId) fun row =>
        { row with nextPostId := row.nextPostId + 1 } }

def dbPostIsAvail (db : Db) (chanId postId : ℤ) : Bool :=
  db.posts.any fun row => row.at chanId postId ∧ row.status = .available

/-- The columns that `db_upd_post` and `db_set_post_status` read back. -/
def readBackPost (db : Db) (pi : PostInfo) : Option (PostInfo × Db) :=
  (db.posts.find? (PostRow.at pi.chanId pi.postId)).map fun row =>
    ({ pi with
        cmts := row.nextCommentId - 1
        likes := row.likes
        createdAt := row.createdAt }, db)

/-- The columns that `db_upd_post` sets. -/
def PostRow.upd (pi : PostInfo) (row : PostRow) : PostRow :=
  { row with
    updatedAt := pi.updAt
    content := pi.content
    hashId := pi.hashId
    proof := pi.proof
    originPostUrl := pi.originPostUrl
    thumbnails := pi.thumbnails }

def dbUpdPost (db : Db) (pi : PostInfo) : Option (PostInfo × Db) :=
  readBackPost { db with
    posts := updateWhere db.posts (PostRow.at pi.chanId pi.postId) (PostRow.upd pi) } pi

def dbSetPostStatus (db : Db) (pi : PostInfo) : Option (PostInfo × Db) :=
  readBackPost { db with
    posts := updateWhere db.posts (PostRow.at pi.chanId pi.postId) fun row =>
      { row with status := pi.stat } } pi

def dbGetPostStatus (db : Db) (chanId postId : ℤ) : Option PostStat :=
  (db.posts.find? (PostRow.at chanId postId)).map PostRow.status

def dbGetPost (db : Db) (chanId postId : ℤ) (pi : PostInfo) : Option PostInfo :=
  (db.posts.find? (PostRow.at chanId postId)).map fun row =>
    { pi with
      stat := row.status
      content := row.content
      cmts := row.nextCommentId - 1
      likes := row.likes
      createdAt := row.createdAt
      updAt := row.updatedAt
      thumbnails := row.thumbnails
      hashId := row.hashId
      proof := row.proof
      originPostUrl := row.originPostUrl }

end Posts

section Comments

def dbCmtExists (db : Db) (channelId postId commentId : ℤ) : Bool :=
  db.comments.any (CommentRow.at channelId postId commentId)

def dbCmtIsAvail (db : Db) (channelId postId commentId : ℤ) : Bool :=
  db.comments.any fun row => row.at channelId postId commentId ∧ row.status = .available

def dbCmtUid (db : Db) (channelId postId commentId : ℤ) : Option ℤ :=
  (db.comments.find? (CommentRow.at channelId postId commentId)).map CommentRow.userId

/-- The row that `db_add_cmt` inserts. -/
def newCommentRow (commentId : ℤ) (ci : CmtInfo) : CommentRow where
  channelId := ci.chanId
  postId := ci.postId
  commentId := commentId
  refcommentId := ci.replyToCmt
  userId := bindInt64 ci.user.uid
  createdAt := ci.createdAt
  updatedAt := ci.createdAt
  likes := 0
  status := .available
  hashId := ci.hashId
  proof := ci.proof
  thumbnails := ci.thumbnails
  content := ci.content

/-- The comment takes the id that its post has next; without the post the id
is NULL and the insertion fails. -/
def dbAddCmt (db : Db) (ci : CmtInfo) : Option (ℤ × Db) :=
  match db.posts.find? (PostRow.at ci.chanId ci.postId) with
  | none => none
  | some post =>
      if db.comments.any (CommentRow.at ci.chanId ci.postId post.nextCommentId) then
        none
      else
        let posts := updateWhere db.posts (PostRow.at ci.chanId ci.postId) fun row =>
          { row with nextCommentId := row.nextCommentId + 1 }
        (posts.find? (PostRow.at ci.chanId ci.postId)).map fun row =>
          (row.nextCommentId - 1, { db with
            comments := db.comments ++ [newCommentRow post.nextCommentId ci]
            posts := posts })

/-- The columns that `db_upd_cmt` sets. -/
def CommentRow.upd (ci : CmtInfo) (row : CommentRow) : CommentRow :=
  { row with
    updatedAt := ci.updAt
    content := ci.content
    refcommentId := ci.replyToCmt
    hashId := ci.hashId
    proof := ci.proof
    thumbnails := ci.thumbnails }

def dbUpdCmt (db : Db) (ci : CmtInfo) : Option (CmtInfo × Db) :=
  let comments := updateWhere db.comments
    (CommentRow.at ci.chanId ci.postId ci.cmtId) (CommentRow.upd ci)
  (comments.find? (CommentRow.at ci.chanId ci.postId ci.cmtId)).map fun row =>
    ({ ci with likes := row.likes, createdAt := row.createdAt },
      { db with comments := comments })

/-- The columns that `db_set_cmt_status` sets. -/
def CommentRow.setStatus (ci : CmtInfo) (row : CommentRow) : CommentRow :=
  { row with updatedAt := ci.updAt, status := ci.stat }

def dbSetCmtStatus (db : Db) (ci : CmtInfo) : Option (CmtInfo × Db) :=
  let comments := updateWhere db.comments
    (CommentRow.at ci.chanId ci.postId ci.cmtId) (CommentRow.setStatus ci)
  (comments.find? (CommentRow.at ci.chanId ci.postId ci.cmtId)).map fun row =>
    ({ ci with
        replyToCmt := row.refcommentId
        likes := row.likes
        createdAt := row.createdAt },
      { db with comments := comments })

end Comments

section Likes

def dbLikeExists (db : Db) (userId channelId postId commentId : ℤ) : Bool :=
  db.likes.any (LikeRow.at userId channelId postId commentId)

/-- `UPDATE … SET likes = likes + change`, on the comment or, for comment id 0,
on the post. -/
def updLikes (db : Db) (channelId postId commentId change : ℤ) : Db :=
  if commentId ≠ 0 then
    { db with
      comments := updateWhere db.comments
        (CommentRow.at channelId postId commentId) fun row =>
          { row with likes := row.likes + change } }
  else
    { db with
      posts := updateWhere db.posts (PostRow.at channelId postId) fun row =>
        { row with likes := row.likes + change } }

@[simp]
theorem updLikes_channels (db : Db) (channelId postId commentId change : ℤ) :
    (updLikes db channelId postId commentId change).channels = db.channels := by
  unfold updLikes
  split <;> rfl

@[simp]
theorem updLikes_channelsSeq (db : Db) (channelId postId commentId change : ℤ) :
    (updLikes db channelId postId commentId change).channelsSeq = db.channelsSeq := by
  unfold updLikes
  split <;> rfl

@[simp]
theorem updLikes_subscriptions (db : Db) (channelId postId commentId change : ℤ) :
    (updLikes db channelId postId commentId change).subscriptions = db.subscriptions := by
  unfold updLikes
  split <;> rfl

@[simp]
theorem updLikes_likes (db : Db) (channelId postId commentId change : ℤ) :
    (updLikes db channelId postId commentId change).likes = db.likes := by
  unfold updLikes
  split <;> rfl

def selectLikes (db : Db) (channelId postId commentId : ℤ) : Option ℤ :=
  if commentId ≠ 0 then
    (db.comments.find? (CommentRow.at channelId postId commentId)).map CommentRow.likes
  else
    (db.posts.find? (PostRow.at channelId postId)).map PostRow.likes

def dbAddLike (db : Db) (userId channelId postId commentId : ℤ) (proof : String)
    (now : ℤ) : Option (ℤ × Db) :=
  let counted := updLikes db channelId postId commentId 1
  if counted.likes.any (LikeRow.at userId channelId postId commentId) then
    none
  else
    let liked := { counted with
      likes := counted.likes ++ [{
        channelId := channelId
        postId := postId
        commentId := commentId
        userId := userId
        createdAt := now
        proof := proof }] }
    (selectLikes liked channelId postId commentId).map fun likes => (likes, liked)

def dbRmLike (db : Db) (userId channelId postId commentId : ℤ) : Db :=
  let counted := updLikes db channelId postId commentId (-1)
  { counted with
    likes := deleteWhere counted.likes (LikeRow.at userId channelId postId commentId) }

end Likes

section Subscriptions

def dbIsSuber (db : Db) (userId channelId : ℤ) : Bool :=
  db.subscriptions.any (SubscriptionRow.at userId channelId)

def updSubscribers (db : Db) (channelId change : ℤ) : Db :=
  { db with
    channels := updateWhere db.channels (ChannelRow.at channelId) fun row =>
      { row with subscribers := row.subscribers + change } }

def dbAddSub (db : Db) (userId channelId : ℤ) (proof : String) (now : ℤ) : Option Db :=
  if db.subscriptions.any (SubscriptionRow.at userId channelId) then
    none
  else
    some (updSubscribers { db with
      subscriptions := db.subscriptions ++ [{
        userId := userId
        channelId := channelId
        createAt := now
        proof := proof }] } channelId 1)

def dbUnsub (db : Db) (userId channelId : ℤ) : Db :=
  updSubscribers { db with
    subscriptions :=
      deleteWhere db.subscriptions (SubscriptionRow.at userId channelId) } channelId (-1)

end Subscriptions

section Users

/-- The columns that `db_update_user_info` sets; the avatar is bound as a blob. -/
def UserRow.upd (ui : UserInfo) (now : ℤ) (row : UserRow) : UserRow :=
  { row with
    name := ui.name
    email := ui.email
    displayName := ui.displayName.getD ""
    avatar := ui.avatar.getD []
    updateAt := now }

/-- A missing display name or avatar is bound as NULL, which the columns refuse. -/
def dbUpdateUserInfo (db : Db) (ui : UserInfo) (now : ℤ) : Option Db :=
  if (db.users.any fun row => row.did = ui.did) ∧
      (ui.displayName.isNone ∨ ui.avatar.isNone) then
    none
  else
    some { db with
      users := updateWhere db.users (fun row => row.did = ui.did) (UserRow.upd ui now) }

def dbGetCountUsers (db : Db) : ℕ :=
  db.users.length

end Users

section Reports

/-- `INSERT OR REPLACE`: the row takes the place of the one with its keys. -/
def dbAddReportedCmts (db : Db) (row : ReportedCommentRow) : Db :=
  { db with
    reportedComments :=
      deleteWhere db.reportedComments
        (ReportedCommentRow.at row.channelId row.postId row.commentId row.reporterId) ++ [row] }

end Reports

/-- `db_upsert_user`; `rowid` is the id that SQLite takes for a new row. -/
def dbUpsertUser (db : Db) (ui : UserInfo) (now rowid : ℤ) : Option Db :=
  if db.users.any fun row => row.did = ui.did then
    some { db with
      users := updateWhere db.users (fun row => row.did = ui.did) fun row =>
        { row with name := ui.name, email := ui.email } }
  else if db.users.any fun row => row.userId = rowid then
    none
  else
    some { db with
      users := db.users ++ [{
        userId := rowid
        did := ui.did
        name := ui.name
        email := ui.email
        displayName := ui.displayName.getD "NA"
        updateAt := now
        avatar := ui.avatar.getD [0xA0] }] }

section Queries

/-- The `WHERE`, `ORDER BY` and `LIMIT` that the criteria add to a query;
`column` is `query_column`.  A negative limit is no limit. -/
def QryCriteria.select {ρ : Type} (qc : QryCriteria) (column : QryFld → ρ → ℤ)
    (rows : List ρ) : List ρ :=
  let ordered :=
    if qc.by = .none then
      rows
    else
      let bounded := rows.filter fun row =>
        (qc.lower = 0 ∨ bindInt64 qc.lower ≤ column qc.by row) ∧
          (qc.upper = 0 ∨ column qc.by row ≤ bindInt64 qc.upper)
      if qc.by = .id then
        bounded.mergeSort fun left right => column .id left ≤ column .id right
      else
        bounded.mergeSort fun left right => column qc.by right ≤ column qc.by left
  if qc.maxcnt = 0 ∨ bindInt64 qc.maxcnt < 0 then
    ordered
  else
    ordered.take (bindInt64 qc.maxcnt).toNat

/-- Without a column the text of a query has no place for the bounds, and binding a bound that is
not zero fails. -/
def QryCriteria.binds (qc : QryCriteria) : Bool :=
  qc.by ≠ .none ∨ (qc.lower = 0 ∧ qc.upper = 0)

/-- The rows of a query with the criteria, or NULL. -/
def QryCriteria.iterate {ρ : Type} (qc : QryCriteria) (column : QryFld → ρ → ℤ)
    (rows : List ρ) : Option (List ρ) :=
  if qc.binds then some (qc.select column rows) else none

def PostRow.column : QryFld → PostRow → ℤ
  | .none, _ => 0
  | .id, row => row.postId
  | .updAt, row => row.updatedAt
  | .createdAt, row => row.createdAt

def CommentRow.column : QryFld → CommentRow → ℤ
  | .none, _ => 0
  | .id, row => row.commentId
  | .updAt, row => row.updatedAt
  | .createdAt, row => row.createdAt

/-- `row2post`: content and thumbnails of an available post only. -/
def row2post (row : PostRow) : PostInfo where
  chanId := row.channelId
  postId := row.postId
  stat := row.status
  createdAt := row.createdAt
  updAt := row.updatedAt
  cmts := row.nextCommentId - 1
  likes := row.likes
  content := if row.status = .available then row.content else []
  thumbnails := if row.status = .available then row.thumbnails else []
  hashId := row.hashId
  proof := row.proof
  originPostUrl := row.originPostUrl

def dbIterPosts (db : Db) (chanId : ℤ) (qc : QryCriteria) : Option (List PostInfo) :=
  (qc.iterate PostRow.column (db.posts.filter fun row =>
    row.channelId = chanId ∧
      (row.status = .available ∨ row.status = .deleted))).map (List.map row2post)

/-- `row2cmt`, on a row joined with its user; only the name and the DID of the
user are set. -/
def row2cmt (joined : CommentRow × UserRow) : CmtInfo where
  chanId := joined.1.channelId
  postId := joined.1.postId
  cmtId := joined.1.commentId
  stat := joined.1.status
  user :=
    { uid := 0
      did := joined.2.did
      name := joined.2.name
      email := ""
      displayName := none
      avatar := none }
  replyToCmt := joined.1.refcommentId
  createdAt := joined.1.createdAt
  updAt := joined.1.updatedAt
  likes := joined.1.likes
  content := if joined.1.status = .available then joined.1.content else []
  thumbnails := if joined.1.status = .available then joined.1.thumbnails else []
  hashId := joined.1.hashId
  proof := joined.1.proof

def dbIterCmts (db : Db) (chanId postId : ℤ) (qc : QryCriteria) : Option (List CmtInfo) :=
  let joined := (db.comments.filter fun row =>
      row.channelId = chanId ∧ row.postId = postId).flatMap fun row =>
    (db.users.filter fun user => user.userId = row.userId).map fun user => (row, user)
  (qc.iterate (fun field pair => CommentRow.column field pair.1) joined).map (List.map row2cmt)

def ChannelRow.column : QryFld → ChannelRow → ℤ
  | .none, _ => 0
  | .id, row => row.channelId
  | .updAt, row => row.updatedAt
  | .createdAt, row => row.createdAt

/-- `db_iter_chans` with the criteria of a request. -/
def dbQueryChans (db : Db) (qc : QryCriteria) : Option (List ChanInfo) :=
  (qc.iterate ChannelRow.column db.channels).map (List.map row2chan)

/-- `row2subchan`, which leaves the next post id, the tip methods and the status 0. -/
def row2subchan (row : ChannelRow) : ChanInfo :=
  { row2chan row with nextPostId := 0, tipMethods := "", status := 0 }

/-- `db_iter_sub_chans` with the criteria of a request. -/
def dbQuerySubChans (db : Db) (uid : UInt64) (qc : QryCriteria) : Option (List ChanInfo) :=
  let joined := (db.subscriptions.filter fun sub => sub.userId = bindInt64 uid).flatMap
    fun sub => db.channels.filter (ChannelRow.at sub.channelId)
  (qc.iterate ChannelRow.column joined).map (List.map row2subchan)

/-- A post of which only the ids and the counters are set. -/
def row2postlac (row : PostRow) : PostInfo where
  chanId := row.channelId
  postId := row.postId
  stat := .available
  createdAt := 0
  updAt := 0
  cmts := row.nextCommentId - 1
  likes := row.likes
  content := []
  thumbnails := []
  hashId := ""
  proof := ""
  originPostUrl := ""

def dbIterPostsLac (db : Db) (chanId : ℤ) (qc : QryCriteria) : Option (List PostInfo) :=
  (qc.iterate PostRow.column (db.posts.filter fun row => row.channelId = chanId)).map
    (List.map row2postlac)

def row2likedpost (row : PostRow) : PostInfo :=
  { row2postlac row with content := row.content, createdAt := row.createdAt }

def dbIterLikedPosts (db : Db) (uid : UInt64) (qc : QryCriteria) : Option (List PostInfo) :=
  let joined := (db.likes.filter fun like =>
      like.userId = bindInt64 uid ∧ like.commentId = 0).flatMap fun like =>
    db.posts.filter (PostRow.at like.channelId like.postId)
  (qc.iterate PostRow.column (joined.filter fun row => row.status = .available)).map
    (List.map row2likedpost)

/-- The name and the DID of a user, all that a joined row gives. -/
def UserRow.named (row : UserRow) : UserInfo where
  uid := 0
  did := row.did
  name := row.name
  email := ""
  displayName := none
  avatar := none

def row2likeddata (joined : LikeRow × UserRow) : LikedInfo where
  chanId := joined.1.channelId
  postId := joined.1.postId
  cmtId := joined.1.commentId
  user := joined.2.named
  totalCnt := 0
  proof := joined.1.proof
  createdAt := joined.1.createdAt

def LikeRow.column : QryFld → LikeRow → ℤ
  | .id, row => row.postId
  | .createdAt, row => row.createdAt
  | _, _ => 0

/-- Neither table has a column `updated_at`: preparing the statement fails. -/
def dbIterLikedData (db : Db) (uid : UInt64) (qc : QryCriteria) : Option (List LikedInfo) :=
  let joined := (db.likes.filter fun like => like.userId = bindInt64 uid).flatMap fun like =>
    (db.users.filter fun user => user.userId = like.userId).map fun user => (like, user)
  if qc.by = .updAt then
    none
  else
    (qc.iterate (fun field pair => LikeRow.column field pair.1) joined).map
      (List.map row2likeddata)

/-- A comment of which only the ids and the likes are set. -/
def row2cmtlikes (row : CommentRow) : CmtInfo where
  chanId := row.channelId
  postId := row.postId
  cmtId := row.commentId
  stat := .available
  user := ⟨0, "", "", "", none, none⟩
  replyToCmt := 0
  createdAt := 0
  updAt := 0
  likes := row.likes
  content := []
  thumbnails := []
  hashId := ""
  proof := ""

def dbIterCmtsLikes (db : Db) (chanId postId : ℤ) (qc : QryCriteria) : Option (List CmtInfo) :=
  (qc.iterate CommentRow.column (db.comments.filter fun row =>
    row.channelId = chanId ∧ row.postId = postId)).map (List.map row2cmtlikes)

def row2reportedcmt (joined : ReportedCommentRow × UserRow) : ReportedCmtInfo where
  chanId := joined.1.channelId
  postId := joined.1.postId
  cmtId := joined.1.commentId
  reporter := joined.2.named
  reasons := joined.1.reasons
  createdAt := joined.1.createdAt

def ReportedCommentRow.column : QryFld → ReportedCommentRow → ℤ
  | .id, row => row.commentId
  | .createdAt, row => row.createdAt
  | _, _ => 0

/-- Here too there is no column `updated_at`. -/
def dbIterReportedCmts (db : Db) (qc : QryCriteria) : Option (List ReportedCmtInfo) :=
  let joined := db.reportedComments.flatMap fun report =>
    (db.users.filter fun user => user.userId = report.reporterId).map fun user => (report, user)
  if qc.by = .updAt then
    none
  else
    (qc.iterate (fun field pair => ReportedCommentRow.column field pair.1) joined).map
      (List.map row2reportedcmt)

end Queries

/-- Binding an id loses nothing. -/
theorem bindInt64_injective : Function.Injective bindInt64 := by
  intro left right heq
  have hleft := left.toNat_lt
  have hright := right.toNat_lt
  apply UInt64.toNat_inj.mp
  simp only [bindInt64, toInt64, Int.bmod_def] at heq
  split at heq <;> split at heq <;> omega

@[simp]
theorem bindInt64_inj {left right : UInt64} :
    bindInt64 left = bindInt64 right ↔ left = right :=
  bindInt64_injective.eq_iff

theorem bindInt64_of_small {value : UInt64} (hsmall : value.toNat < 2 ^ 63) :
    bindInt64 value = value.toNat := by
  have hlow : -2 ^ 63 ≤ (value.toNat : ℤ) := by omega
  have hhigh : (value.toNat : ℤ) < 2 ^ 63 := by exact_mod_cast hsmall
  exact toInt64_of_fits hlow hhigh

theorem mem_of_mem_select {ρ : Type} {qc : QryCriteria} {column : QryFld → ρ → ℤ}
    {rows : List ρ} {row : ρ} (hrow : row ∈ qc.select column rows) : row ∈ rows := by
  have hordered : ∀ ordered : List ρ,
      row ∈ (if qc.maxcnt = 0 ∨ bindInt64 qc.maxcnt < 0 then ordered
        else ordered.take (bindInt64 qc.maxcnt).toNat) → row ∈ ordered := by
    intro ordered h
    split at h
    · exact h
    · exact List.mem_of_mem_take h
  have hmem := hordered _ hrow
  split at hmem
  · exact hmem
  · split at hmem
    · exact (List.mem_filter.mp (List.mem_mergeSort.mp hmem)).1
    · exact (List.mem_filter.mp (List.mem_mergeSort.mp hmem)).1

theorem mem_of_mem_iterate {ρ : Type} {qc : QryCriteria} {column : QryFld → ρ → ℤ}
    {rows selected : List ρ} (hselected : qc.iterate column rows = some selected) {row : ρ}
    (hrow : row ∈ selected) : row ∈ rows := by
  rw [QryCriteria.iterate] at hselected
  split at hselected
  · cases hselected
    exact mem_of_mem_select hrow
  · cases hselected

section Statements

/-! What a call that succeeds has done. -/

variable {db db' : Db}

theorem dbCreateChan_eq_some {ci : ChanInfo} (h : dbCreateChan db ci = some db') :
    db' = { db with
      channels := db.channels ++ [newChannelRow (db.channelsSeq + 1) ci]
      channelsSeq := db.channelsSeq + 1 } := by
  unfold dbCreateChan at h
  split at h
  · cases h
  · exact (Option.some.inj h).symm

theorem dbUpdChan_eq_some {ci : ChanInfo} (h : dbUpdChan db ci = some db') :
    db' = { db with
      channels := updateWhere db.channels (ChannelRow.at ci.chanId) (ChannelRow.upd ci) } := by
  unfold dbUpdChan at h
  split at h
  · cases h
  · exact (Option.some.inj h).symm

theorem dbAddPost_eq_some {pi : PostInfo} (h : dbAddPost db pi = some db') :
    db' = { db with
      posts := db.posts ++ [newPostRow pi]
      channels := updateWhere db.channels (ChannelRow.at pi.chanId) fun row =>
        { row with nextPostId := row.nextPostId + 1 } } := by
  unfold dbAddPost at h
  split at h
  · cases h
  · exact (Option.some.inj h).symm

theorem readBackPost_eq_some {pi : PostInfo} {read : PostInfo × Db}
    (h : readBackPost db pi = some read) : read.2 = db ∧ read.1.stat = pi.stat := by
  obtain ⟨row, _, rfl⟩ := Option.map_eq_some_iff.mp h
  exact ⟨rfl, rfl⟩

theorem dbUpdPost_eq_some {pi : PostInfo} {upd : PostInfo × Db}
    (h : dbUpdPost db pi = some upd) :
    upd.2 = { db with
      posts := updateWhere db.posts (PostRow.at pi.chanId pi.postId) (PostRow.upd pi) } :=
  (readBackPost_eq_some h).1

theorem dbSetPostStatus_eq_some {pi : PostInfo} {set : PostInfo × Db}
    (h : dbSetPostStatus db pi = some set) :
    set.2 = { db with
      posts := updateWhere db.posts (PostRow.at pi.chanId pi.postId) fun row =>
        { row with status := pi.stat } } :=
  (readBackPost_eq_some h).1

/-- After `db_set_post_status`, `db_get_post` does not fail. -/
theorem dbGetPost_of_dbSetPostStatus {pi : PostInfo} {set : PostInfo × Db}
    (h : dbSetPostStatus db pi = some set) :
    (dbGetPost set.2 pi.chanId pi.postId set.1).isSome := by
  obtain ⟨row, hrow, rfl⟩ := Option.map_eq_some_iff.mp h
  simp [dbGetPost, hrow]

theorem dbAddCmt_eq_some {ci : CmtInfo} {added : ℤ × Db}
    (h : dbAddCmt db ci = some added) :
    ∃ post ∈ db.posts, post.at ci.chanId ci.postId = true ∧
      db.comments.any (CommentRow.at ci.chanId ci.postId post.nextCommentId) = false ∧
      added.2 = { db with
        comments := db.comments ++ [newCommentRow post.nextCommentId ci]
        posts := updateWhere db.posts (PostRow.at ci.chanId ci.postId) fun row =>
          { row with nextCommentId := row.nextCommentId + 1 } } := by
  unfold dbAddCmt at h
  split at h
  · cases h
  · next post hpost =>
      split at h
      · cases h
      · next hany =>
          obtain ⟨row, _, rfl⟩ := Option.map_eq_some_iff.mp h
          exact ⟨post, List.mem_of_find?_eq_some hpost, List.find?_some hpost,
            by simpa using hany, rfl⟩

theorem dbUpdCmt_eq_some {ci : CmtInfo} {upd : CmtInfo × Db}
    (h : dbUpdCmt db ci = some upd) :
    upd.2 = { db with
      comments := updateWhere db.comments (CommentRow.at ci.chanId ci.postId ci.cmtId)
        (CommentRow.upd ci) } ∧ upd.1.stat = ci.stat := by
  obtain ⟨row, _, rfl⟩ := Option.map_eq_some_iff.mp h
  exact ⟨rfl, rfl⟩

theorem dbSetCmtStatus_eq_some {ci : CmtInfo} {set : CmtInfo × Db}
    (h : dbSetCmtStatus db ci = some set) :
    set.2 = { db with
      comments := updateWhere db.comments (CommentRow.at ci.chanId ci.postId ci.cmtId)
        (CommentRow.setStatus ci) } ∧ set.1.stat = ci.stat := by
  obtain ⟨row, _, rfl⟩ := Option.map_eq_some_iff.mp h
  exact ⟨rfl, rfl⟩

theorem dbAddLike_eq_some {userId channelId postId commentId now : ℤ} {proof : String}
    {added : ℤ × Db}
    (h : dbAddLike db userId channelId postId commentId proof now = some added) :
    ∃ row : LikeRow, row.at userId channelId postId commentId = true ∧
      (selectLikes (updLikes db channelId postId commentId 1) channelId postId
        commentId).isSome ∧
      db.likes.any (LikeRow.at userId channelId postId commentId) = false ∧
      added.2 = { updLikes db channelId postId commentId 1 with
        likes := db.likes ++ [row] } := by
  simp only [dbAddLike, updLikes_likes] at h
  split at h
  · cases h
  · next hany =>
      obtain ⟨likes, hselect, rfl⟩ := Option.map_eq_some_iff.mp h
      refine ⟨_, ?_, ?_, by simpa using hany, rfl⟩
      · simp [LikeRow.at]
      · rw [Option.isSome_iff_exists]
        exact ⟨likes, hselect⟩

theorem dbAddSub_eq_some {userId channelId now : ℤ} {proof : String}
    (h : dbAddSub db userId channelId proof now = some db') :
    db.subscriptions.any (SubscriptionRow.at userId channelId) = false ∧
      db' = updSubscribers { db with
        subscriptions := db.subscriptions ++ [{
          userId := userId
          channelId := channelId
          createAt := now
          proof := proof }] } channelId 1 := by
  unfold dbAddSub at h
  split at h
  · cases h
  · next hany => exact ⟨by simpa using hany, (Option.some.inj h).symm⟩

/-- What a statement on the users or the reports does to the rest of the database. -/
def SameContents (db db' : Db) : Prop :=
  db' = { db with users := db'.users, reportedComments := db'.reportedComments }

namespace SameContents

theorem eq (h : SameContents db db') :
    db' = { db with users := db'.users, reportedComments := db'.reportedComments } :=
  h

theorem channels (h : SameContents db db') : db'.channels = db.channels := by
  rw [h.eq]

theorem posts (h : SameContents db db') : db'.posts = db.posts := by
  rw [h.eq]

theorem comments (h : SameContents db db') : db'.comments = db.comments := by
  rw [h.eq]

theorem subscriptions (h : SameContents db db') : db'.subscriptions = db.subscriptions := by
  rw [h.eq]

end SameContents

theorem dbUpdateUserInfo_eq_some {ui : UserInfo} {now : ℤ}
    (h : dbUpdateUserInfo db ui now = some db') : SameContents db db' := by
  unfold dbUpdateUserInfo at h
  split at h
  · cases h
  · obtain rfl := Option.some.inj h
    rfl

theorem dbAddReportedCmts_same (row : ReportedCommentRow) :
    SameContents db (dbAddReportedCmts db row) :=
  rfl

/-- Storing a user touches the users only, whether or not it succeeds. -/
theorem dbUpsertUser_same (db : Db) (ui : UserInfo) (now rowid : ℤ) :
    SameContents db ((dbUpsertUser db ui now rowid).getD db) := by
  unfold dbUpsertUser
  split
  · rfl
  · split <;> rfl

end Statements

end FeedsService.Feeds
