import FeedsService.Feeds.Database
import FeedsService.Library.Transactions

/-!
# The functions of `db.cpp` that change a table

Each as the statements it prepares, binds and steps, in order.  All but those of
one statement run in a transaction, except for `db_upsert_user`.  Without faults
they do what the functions of `Feeds.Database` do in one go.
-/

namespace FeedsService.Sql

open FeedsService.Library FeedsService.Library.Transactions FeedsService.Feeds

section Channels

def dbCreateChan (ci : ChanInfo) : Sql Db Unit :=
  execute fun db => Feeds.dbCreateChan db ci

def dbUpdChan (ci : ChanInfo) : Sql Db Unit :=
  execute fun db => Feeds.dbUpdChan db ci

end Channels

section Posts

def insertPost (pi : PostInfo) (db : Db) : Option Db :=
  if db.posts.any (PostRow.at pi.chanId pi.postId) then
    none
  else
    some { db with posts := db.posts ++ [newPostRow pi] }

def bumpNextPostId (chanId : ℤ) (db : Db) : Db :=
  { db with
    channels := updateWhere db.channels (ChannelRow.at chanId) fun row =>
      { row with nextPostId := row.nextPostId + 1 } }

def dbAddPost (pi : PostInfo) : Sql Db Unit :=
  transaction do
    execute (insertPost pi)
    execute fun db => some (bumpNextPostId pi.chanId db)

def updatePosts (pi : PostInfo) (change : PostRow → PostRow) (db : Db) : Db :=
  { db with posts := updateWhere db.posts (PostRow.at pi.chanId pi.postId) change }

def dbUpdPost (pi : PostInfo) : Sql Db PostInfo :=
  transaction do
    execute fun db => some (updatePosts pi (PostRow.upd pi) db)
    statement fun db => readBackPost db pi

def dbSetPostStatus (pi : PostInfo) : Sql Db PostInfo :=
  transaction do
    execute fun db => some (updatePosts pi (fun row => { row with status := pi.stat }) db)
    statement fun db => readBackPost db pi

end Posts

section Comments

def insertCmt (ci : CmtInfo) (db : Db) : Option Db :=
  match db.posts.find? (PostRow.at ci.chanId ci.postId) with
  | none => none
  | some post =>
      if db.comments.any (CommentRow.at ci.chanId ci.postId post.nextCommentId) then
        none
      else
        some { db with comments := db.comments ++ [newCommentRow post.nextCommentId ci] }

def bumpNextCommentId (chanId postId : ℤ) (db : Db) : Db :=
  { db with
    posts := updateWhere db.posts (PostRow.at chanId postId) fun row =>
      { row with nextCommentId := row.nextCommentId + 1 } }

def selectCmtId (chanId postId : ℤ) (db : Db) : Option ℤ :=
  (db.posts.find? (PostRow.at chanId postId)).map fun row => row.nextCommentId - 1

def dbAddCmt (ci : CmtInfo) : Sql Db ℤ :=
  transaction do
    execute (insertCmt ci)
    execute fun db => some (bumpNextCommentId ci.chanId ci.postId db)
    query (selectCmtId ci.chanId ci.postId)

def updateComments (ci : CmtInfo) (change : CommentRow → CommentRow) (db : Db) : Db :=
  { db with
    comments := updateWhere db.comments (CommentRow.at ci.chanId ci.postId ci.cmtId) change }

def selectCmt (ci : CmtInfo) (db : Db) : Option CommentRow :=
  db.comments.find? (CommentRow.at ci.chanId ci.postId ci.cmtId)

def dbUpdCmt (ci : CmtInfo) : Sql Db CmtInfo :=
  transaction do
    execute fun db => some (updateComments ci (CommentRow.upd ci) db)
    query fun db => (selectCmt ci db).map fun row =>
      { ci with likes := row.likes, createdAt := row.createdAt }

def dbSetCmtStatus (ci : CmtInfo) : Sql Db CmtInfo :=
  transaction do
    execute fun db => some (updateComments ci (CommentRow.setStatus ci) db)
    query fun db => (selectCmt ci db).map fun row =>
      { ci with
        replyToCmt := row.refcommentId
        likes := row.likes
        createdAt := row.createdAt }

end Comments

section Likes

def insertLike (row : LikeRow) (db : Db) : Option Db :=
  if db.likes.any (LikeRow.at row.userId row.channelId row.postId row.commentId) then
    none
  else
    some { db with likes := db.likes ++ [row] }

def dbAddLike (userId channelId postId commentId : ℤ) (proof : String) (now : ℤ) : Sql Db ℤ :=
  transaction do
    execute fun db => some (updLikes db channelId postId commentId 1)
    execute (insertLike
      { channelId := channelId
        postId := postId
        commentId := commentId
        userId := userId
        createdAt := now
        proof := proof })
    query fun db => selectLikes db channelId postId commentId

def deleteLike (userId channelId postId commentId : ℤ) (db : Db) : Db :=
  { db with likes := deleteWhere db.likes (LikeRow.at userId channelId postId commentId) }

def dbRmLike (userId channelId postId commentId : ℤ) : Sql Db Unit :=
  transaction do
    execute fun db => some (updLikes db channelId postId commentId (-1))
    execute fun db => some (deleteLike userId channelId postId commentId db)

end Likes

section Subscriptions

def insertSub (row : SubscriptionRow) (db : Db) : Option Db :=
  if db.subscriptions.any (SubscriptionRow.at row.userId row.channelId) then
    none
  else
    some { db with subscriptions := db.subscriptions ++ [row] }

def dbAddSub (userId channelId : ℤ) (proof : String) (now : ℤ) : Sql Db Unit :=
  transaction do
    execute (insertSub
      { userId := userId
        channelId := channelId
        createAt := now
        proof := proof })
    execute fun db => some (updSubscribers db channelId 1)

def deleteSub (userId channelId : ℤ) (db : Db) : Db :=
  { db with
    subscriptions := deleteWhere db.subscriptions (SubscriptionRow.at userId channelId) }

def dbUnsub (userId channelId : ℤ) : Sql Db Unit :=
  transaction do
    execute fun db => some (deleteSub userId channelId db)
    execute fun db => some (updSubscribers db channelId (-1))

end Subscriptions

section Users

def dbUpdateUserInfo (ui : UserInfo) (now : ℤ) : Sql Db Unit :=
  execute fun db => Feeds.dbUpdateUserInfo db ui now

def selectUserId (did : String) (db : Db) : Option ℤ :=
  (db.users.find? fun row => row.did = did).map UserRow.userId

/-- There is no transaction around the two statements. -/
def dbUpsertUser (ui : UserInfo) (now rowid : ℤ) : Sql Db ℤ := do
  execute fun db => Feeds.dbUpsertUser db ui now rowid
  query (selectUserId ui.did)

end Users

def dbAddReportedCmts (row : ReportedCommentRow) : Sql Db Unit :=
  transaction (execute fun db => some (Feeds.dbAddReportedCmts db row))

end FeedsService.Sql
