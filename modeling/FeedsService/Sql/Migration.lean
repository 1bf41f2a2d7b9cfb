import FeedsService.Library.Catalog
import FeedsService.Library.Transactions

/-!
# The tables that `db_init` makes or brings up to date

A table with fewer columns than it should have is renamed, made anew and filled from the
renamed one, all tables in one transaction.  The statements are given by what they do;
a text that is `NULL` or empty is one that fails.  Of the columns, the types and the defaults
are left out, which no statement here goes by.
-/

namespace FeedsService.Sql

open FeedsService.Library FeedsService.Library.Transactions FeedsService.Library.Catalogs

section Execution

/-- `sql_execution`, or the same calls made in place. -/
def sqlExecution (sql : Option Statement) : Sql Catalog Unit :=
  attempt [.prepare, .step] fun conn =>
    (sql.bind fun sql => sql.exec conn.tables).map fun c => ((), { conn with tables := c })

/-- The results 0, 1 and 2 of `check_table_valid`; it fails where the source returns -1. -/
inductive TableVersion
  | missing
  | older
  | newest
  deriving DecidableEq

/-- A table is as new as it should be when the number of the last column that is listed, the
first being 0, is the expected one.  Where no column is listed, the number is the 1 of the
`count(*)` before; a step that fails ends the listing. -/
def checkTableValid (tableName : String) (itemNum : ℕ) : Sql Catalog TableVersion := do
  let found ← attempt [.prepare, .step] fun conn => some (conn.tables.tables tableName, conn)
  match found with
  | none => return .missing
  | some table =>
      attempt [.prepare] fun conn => some ((), conn)
      let listed ← stepThrough table.schema.columns.length
      let last := if listed = 0 then 1 else listed - 1
      return if last + 1 = itemNum then .newest else .older

def createdAtIndex (tableName : String) : String :=
  tableName ++ "_created_at_index"

def updatedAtIndex (tableName : String) : String :=
  tableName ++ "_updated_at_index"

def deleteOldIndex (tableName : String) : Sql Catalog Unit := do
  sqlExecution (some (.dropIndex (createdAtIndex tableName)))
  sqlExecution (some (.dropIndex (updatedAtIndex tableName)))

def createNewIndex (tableName : String) (para : List String) : Sql Catalog Unit := do
  sqlExecution (some (.createIndex (createdAtIndex tableName)
    ⟨tableName, para ++ ["created_at"]⟩))
  sqlExecution (some (.createIndex (updatedAtIndex tableName)
    ⟨tableName, para ++ ["updated_at"]⟩))

end Execution

section Operators

structure DBInitOperator where
  itemNum : ℕ
  tableName : String
  /-- Not read where it is `NULL`. -/
  idxParam : List String
  backupSql : Option Statement
  createSql : Statement
  retriveSql : Option Statement
  pCheck : String → ℕ → Sql Catalog TableVersion
  pDelIdx : Option (String → Sql Catalog Unit)
  pAddIdx : Option (String → List String → Sql Catalog Unit)

/-- A table with an `INTEGER PRIMARY KEY AUTOINCREMENT`, whose other columns are `NOT NULL`. -/
def autoincrementTable (key : String) (columns : List String) (unique : List (List String)) :
    Schema where
  columns := key :: columns
  primaryKey := [key]
  autoincrement := true
  unique := unique
  notNull := columns

/-- A table whose columns are all `NOT NULL`. -/
def notNullTable (primaryKey columns : List String) : Schema where
  columns := columns
  primaryKey := primaryKey
  autoincrement := false
  unique := []
  notNull := columns

def userReference (column : String) : Reference :=
  ⟨[column], "users", ["user_id"]⟩

def channelReference : Reference :=
  ⟨["channel_id"], "channels", ["channel_id"]⟩

def postReference : Reference :=
  ⟨["channel_id", "post_id"], "posts", ["channel_id", "post_id"]⟩

def na : Value :=
  .text "NA"

/-- `X'A0'` -/
def emptyBlob : Value :=
  .blob [0xA0]

def channelsSchema : Schema :=
  autoincrementTable "channel_id"
    ["created_at", "updated_at", "name", "intro", "next_post_id", "subscribers", "status",
      "iid", "tip_methods", "proof", "memo", "avatar"]
    [["name"]]

def channelsOp : DBInitOperator where
  itemNum := 13
  tableName := "channels"
  idxParam := []
  backupSql := some (.renameTable "channels" "channels_backup")
  createSql := .createTable "channels" channelsSchema []
  retriveSql := some (.insertSelect "channels"
    [.column "channel_id", .column "created_at", .column "updated_at", .column "name",
      .column "intro", .column "next_post_id", .column "subscribers", .literal (.number 0),
      .literal na, .literal na, .literal na, .literal na, .column "avatar"]
    "channels_backup")
  pCheck := checkTableValid
  pDelIdx := some deleteOldIndex
  pAddIdx := some createNewIndex

def postsSchema : Schema :=
  notNullTable ["channel_id", "post_id"]
    ["channel_id", "post_id", "created_at", "updated_at", "next_comment_id", "likes", "status",
      "iid", "hash_id", "proof", "origin_post_url", "memo", "thumbnails", "content"]

def postsReferences : List Reference :=
  [channelReference]

def postsOp : DBInitOperator where
  itemNum := 14
  tableName := "posts"
  idxParam := ["channel_id"]
  backupSql := some (.renameTable "posts" "posts_backup")
  createSql := .createTable "posts" postsSchema postsReferences
  retriveSql := some (.insertSelect "posts"
    [.column "channel_id", .column "post_id", .column "created_at", .column "updated_at",
      .column "next_comment_id", .column "likes", .column "status", .literal na, .literal na,
      .literal na, .literal na, .literal na, .literal emptyBlob, .column "content"]
    "posts_backup")
  pCheck := checkTableValid
  pDelIdx := some deleteOldIndex
  pAddIdx := some createNewIndex

def commentsSchema : Schema :=
  notNullTable ["channel_id", "post_id", "comment_id"]
    ["channel_id", "post_id", "comment_id", "refcomment_id", "user_id", "created_at",
      "updated_at", "likes", "status", "iid", "hash_id", "proof", "memo", "thumbnails",
      "content"]

def commentsReferences : List Reference :=
  [userReference "user_id", postReference]

def commentsOp : DBInitOperator where
  itemNum := 15
  tableName := "comments"
  idxParam := ["channel_id", "post_id"]
  backupSql := some (.renameTable "comments" "comments_backup")
  createSql := .createTable "comments" commentsSchema commentsReferences
  retriveSql := some (.insertSelect "comments"
    [.column "channel_id", .column "post_id", .column "comment_id", .column "refcomment_id",
      .column "user_id", .column "created_at", .column "updated_at", .column "likes",
      .column "status", .literal na, .literal na, .literal na, .literal na,
      .literal emptyBlob, .column "content"]
    "comments_backup")
  pCheck := checkTableValid
  pDelIdx := some deleteOldIndex
  pAddIdx := some createNewIndex

def usersSchema : Schema :=
  autoincrementTable "user_id"
    ["did", "name", "email", "display_name", "update_at", "memo", "avatar"]
    [["did"]]

def usersOp (now : ℕ) : DBInitOperator where
  itemNum := 8
  tableName := "users"
  idxParam := []
  backupSql := some (.renameTable "users" "users_backup")
  createSql := .createTable "users" usersSchema []
  retriveSql := some (.insertSelect "users"
    [.column "user_id", .column "did", .column "name", .column "email", .literal na,
      .literal (.number now), .literal na, .literal emptyBlob]
    "users_backup")
  pCheck := checkTableValid
  pDelIdx := none
  pAddIdx := none

def subscriptionsSchema : Schema :=
  notNullTable ["user_id", "channel_id"]
    ["user_id", "channel_id", "create_at", "proof", "memo"]

def subscriptionsReferences : List Reference :=
  [userReference "user_id", channelReference]

def subscriptionsOp (now : ℕ) : DBInitOperator where
  itemNum := 5
  tableName := "subscriptions"
  idxParam := []
  backupSql := some (.renameTable "subscriptions" "subscriptions_backup")
  createSql := .createTable "subscriptions" subscriptionsSchema subscriptionsReferences
  retriveSql := some (.insertSelect "subscriptions"
    [.column "user_id", .column "channel_id", .literal (.number now), .literal na, .literal na]
    "subscriptions_backup")
  pCheck := checkTableValid
  pDelIdx := none
  pAddIdx := none

def likesSchema : Schema :=
  notNullTable ["user_id", "channel_id", "post_id", "comment_id"]
    ["channel_id", "post_id", "comment_id", "user_id", "created_at", "proof", "memo"]

def likesReferences : List Reference :=
  [userReference "user_id", postReference]

def likesOp : DBInitOperator where
  itemNum := 7
  tableName := "likes"
  idxParam := []
  backupSql := some (.renameTable "likes" "likes_backup")
  createSql := .createTable "likes" likesSchema likesReferences
  retriveSql := some (.insertSelect "likes"
    [.column "channel_id", .column "post_id", .column "comment_id", .column "user_id",
      .column "created_at", .literal na, .literal na]
    "likes_backup")
  pCheck := checkTableValid
  pDelIdx := none
  pAddIdx := none

def reportedCommentsSchema : Schema :=
  notNullTable ["channel_id", "post_id", "comment_id", "reporter_id"]
    ["channel_id", "post_id", "comment_id", "reporter_id", "created_at", "reasons"]

def reportedCommentsReferences : List Reference :=
  [userReference "reporter_id", postReference]

def reportedCommentsOp : DBInitOperator where
  itemNum := 6
  tableName := "reported_comments"
  idxParam := []
  backupSql := none
  createSql := .createTable "reported_comments" reportedCommentsSchema reportedCommentsReferences
  retriveSql := none
  pCheck := checkTableValid
  pDelIdx := none
  pAddIdx := none

def tippingSchema : Schema :=
  notNullTable ["channel_id", "post_id"]
    ["id", "channel_id", "post_id", "created_at", "token_mount", "token_symbol", "proof",
      "user_did", "user_name", "memo"]

def tippingOp : DBInitOperator where
  itemNum := 10
  tableName := "tipping"
  idxParam := []
  backupSql := none
  createSql := .createTable "tipping" tippingSchema []
  retriveSql := none
  pCheck := checkTableValid
  pDelIdx := none
  pAddIdx := none

def notificationSchema : Schema :=
  notNullTable ["channel_id", "post_id", "comment_id"]
    ["notification_id", "channel_id", "post_id", "comment_id", "action_type", "user_did",
      "user_name", "created_at", "memo"]

def notificationOp : DBInitOperator where
  itemNum := 9
  tableName := "notification"
  idxParam := []
  backupSql := none
  createSql := .createTable "notification" notificationSchema []
  retriveSql := none
  pCheck := checkTableValid
  pDelIdx := none
  pAddIdx := none

end Operators

section Loop

/-- One turn of the loop of `db_init`. -/
def operateTable (op : DBInitOperator) : Sql Catalog Unit := do
  let version ← op.pCheck op.tableName op.itemNum
  match version with
  | .newest => return ()
  | .older =>
      sqlExecution op.backupSql
      op.pDelIdx.elim (pure ()) fun delIdx => delIdx op.tableName
      sqlExecution (some op.createSql)
      op.pAddIdx.elim (pure ()) fun addIdx => addIdx op.tableName op.idxParam
      sqlExecution op.retriveSql
  | .missing =>
      sqlExecution (some op.createSql)
      op.pAddIdx.elim (pure ()) fun addIdx => addIdx op.tableName op.idxParam

/-- The operators in the order of the source, which reads the clock for the users and again
for the subscriptions. -/
def operatorVec (usersTime subscriptionsTime : ℕ) : List DBInitOperator :=
  [channelsOp, postsOp, commentsOp, usersOp usersTime, subscriptionsOp subscriptionsTime,
    likesOp, reportedCommentsOp, tippingOp, notificationOp]

def dbInit (usersTime subscriptionsTime : ℕ) : Sql Catalog Unit :=
  transaction ((operatorVec usersTime subscriptionsTime).forM operateTable)

end Loop

end FeedsService.Sql
