import FeedsService.Feeds.System
import FeedsService.Library.Selections

/-!
# The read methods of `ChannelMethod.cpp`

These methods build their SQL text themselves and fill the structures that are packed
into the replies, here with the fields that are packed.  A new reply is begun when the
size of the current one has reached a limit.  The sizes of the structures are those of
the platform, and the order in which the rows of a query come by is SQLite's.
-/

namespace FeedsService.Feeds

open FeedsService.Library

/-- `sizeof` of the responses, and of their items without strings and vectors. -/
structure Sizes where
  commentsResponse : ℕ
  comment : ℕ
  postsResponse : ℕ
  post : ℕ
  channelsResponse : ℕ
  channel : ℕ

/-- `Rpc::Factory::MaxAvailableSize`. -/
def maxAvailableSize : ℕ := 4 * 1024

structure MultiParams where
  channelId : ℤ
  postId : ℤ
  «by» : ℤ
  upperBound : ℤ
  lowerBound : ℤ
  maxCount : ℤ
  deriving DecidableEq

namespace ConditionField

/-- `DataBase::ConditionField::Id` -/
def id : ℤ := 1

/-- `DataBase::ConditionField::UpdatedAt` -/
def updatedAt : ℤ := 2

/-- `DataBase::ConditionField::CreatedAt` -/
def createdAt : ℤ := 3

end ConditionField

namespace MultiParams

/-- `static_cast<DataBase::ConditionField>(params.by)`: the enumeration has 32 bits. -/
def conditionField (params : MultiParams) : ℤ :=
  params.by % 2 ^ 32

/-- The column that `DataBase::ConditionBy` names. -/
def condBy (params : MultiParams) : QryFld :=
  if params.conditionField = ConditionField.id then .id
  else if params.conditionField = ConditionField.updatedAt then .updAt
  else if params.conditionField = ConditionField.createdAt then .createdAt
  else .none

/-- The bounds; those that are not positive are left out. -/
def within (params : MultiParams) (value : ℤ) : Bool :=
  (0 < params.lowerBound → params.lowerBound ≤ value) ∧
    (0 < params.upperBound → value ≤ params.upperBound)

/-- The direction is told by the parameter before it is cast. -/
def precedes (params : MultiParams) (left right : ℤ) : Bool :=
  if params.by = ConditionField.id then left ≤ right else right ≤ left

/-- The `AND`, the `ORDER BY` and the `LIMIT` of a query. -/
def select {ρ : Type} (params : MultiParams) (column : QryFld → ρ → ℤ) (rows : List ρ) :
    List ρ :=
  let ordered :=
    if params.condBy = .none then
      rows
    else
      (rows.filter fun row => params.within (column params.condBy row)).mergeSort
        fun left right => params.precedes (column params.condBy left) (column params.condBy right)
  cut (if 0 < params.maxCount then some params.maxCount.toNat else none) ordered

/-- The channel and the post of a row; 0 stands for all of them. -/
def selects (params : MultiParams) (channelId postId : ℤ) : Bool :=
  (0 < params.channelId → channelId = params.channelId) ∧
    (0 < params.postId → postId = params.postId)

/-- The access token, which is checked before, is not empty. -/
def valid (params : MultiParams) : Bool :=
  0 ≤ params.channelId ∧ 0 ≤ params.postId ∧ ¬ (params.channelId = 0 ∧ 0 < params.postId)

end MultiParams

structure MultiComment where
  channelId : ℤ
  postId : ℤ
  commentId : ℤ
  referCommentId : ℤ
  status : CmtStat
  userDid : String
  userName : String
  content : Bytes
  likes : ℤ
  createdAt : ℤ
  updatedAt : ℤ
  deriving DecidableEq

structure MultiPost where
  channelId : ℤ
  postId : ℤ
  commentsCount : ℤ
  likesCount : ℤ
  deriving DecidableEq

structure MultiChannel where
  channelId : ℤ
  subscribersCount : ℤ
  deriving DecidableEq

/-- The responses for some rows, with whether they are the last: an item that makes the
size reach the limit is the last of its response. -/
def multiResponses {ρ α : Type} (start : ℕ) (size : ρ → ℕ) (item : ρ → α) :
    ℕ → List α → List ρ → List (Bool × List α)
  | _, pending, [] => [(true, pending)]
  | reached, pending, row :: rest =>
      if maxAvailableSize ≤ reached + size row then
        (false, pending ++ [item row]) :: multiResponses start size item start [] rest
      else
        multiResponses start size item (reached + size row) (pending ++ [item row]) rest

section Comments

/-- `comments JOIN users USING (user_id)` -/
def joinedComments (db : Db) : List (CommentRow × UserRow) :=
  db.comments.flatMap fun row =>
    (db.users.filter fun user => user.userId = row.userId).map fun user => (row, user)

/-- `SELECT … FROM comments JOIN users USING (user_id) WHERE …`. -/
def multiCommentRows (scan : Scan) (db : Db) (params : MultiParams) :
    List (CommentRow × UserRow) :=
  params.select (fun field joined => CommentRow.column field joined.1)
    ((scan.visit (joinedComments db)).filter fun joined =>
      params.selects joined.1.channelId joined.1.postId)

def multiComment (joined : CommentRow × UserRow) : MultiComment where
  channelId := joined.1.channelId
  postId := joined.1.postId
  commentId := joined.1.commentId
  referCommentId := joined.1.refcommentId
  status := joined.1.status
  userDid := joined.2.did
  userName := joined.2.name
  content := joined.1.content
  likes := joined.1.likes
  createdAt := joined.1.createdAt
  updatedAt := joined.1.updatedAt

/-- The thumbnails, the hash id and the proof count although they are not packed. -/
def multiCommentSize (sizes : Sizes) (joined : CommentRow × UserRow) : ℕ :=
  sizes.comment + joined.2.did.utf8ByteSize + joined.2.name.utf8ByteSize +
    joined.1.content.length + joined.1.hashId.utf8ByteSize + joined.1.proof.utf8ByteSize +
    joined.1.thumbnails.length

def onGetMultiComments (sizes : Sizes) (scan : Scan) (db : Db) (params : MultiParams) :
    List (Bool × List MultiComment) :=
  if params.valid then
    multiResponses sizes.commentsResponse (multiCommentSize sizes) multiComment
      sizes.commentsResponse [] (multiCommentRows scan db params)
  else
    []

end Comments

section Counts

def multiPost (row : PostRow) : MultiPost where
  channelId := row.channelId
  postId := row.postId
  commentsCount := row.nextCommentId - 1
  likesCount := row.likes

/-- `SELECT … FROM posts WHERE …`. -/
def multiPostRows (scan : Scan) (db : Db) (params : MultiParams) : List PostRow :=
  params.select PostRow.column ((scan.visit db.posts).filter fun row =>
    params.selects row.channelId row.postId)

def onGetMultiLikesAndCommentsCount (sizes : Sizes) (scan : Scan) (db : Db)
    (params : MultiParams) : List (Bool × List MultiPost) :=
  if params.valid then
    multiResponses sizes.postsResponse (fun _ => sizes.post) multiPost sizes.postsResponse []
      (multiPostRows scan db params)
  else
    []

def multiChannel (row : ChannelRow) : MultiChannel where
  channelId := row.channelId
  subscribersCount := row.subscribers

/-- `SELECT … FROM channels WHERE …`. -/
def multiChannelRows (scan : Scan) (db : Db) (channelId : ℤ) : List ChannelRow :=
  (scan.visit db.channels).filter fun row => 0 < channelId → row.channelId = channelId

def onGetMultiSubscribersCount (sizes : Sizes) (scan : Scan) (db : Db) (channelId : ℤ) :
    List (Bool × List MultiChannel) :=
  if 0 ≤ channelId then
    multiResponses sizes.channelsResponse (fun _ => sizes.channel) multiChannel
      sizes.channelsResponse [] (multiChannelRows scan db channelId)
  else
    []

end Counts

/-- `Listener::isMember`: who is not one gets no reply. -/
def isMember (ctx : Ctx) : Bool :=
  ctx.didIsReady && ctx.uinfo.isSome

/-- Every row that is selected is in a response, in order. -/
theorem flatMap_multiResponses {ρ α : Type} (start : ℕ) (size : ρ → ℕ) (item : ρ → α)
    (reached : ℕ) (pending : List α) (rows : List ρ) :
    (multiResponses start size item reached pending rows).flatMap Prod.snd =
      pending ++ rows.map item := by
  induction rows generalizing reached pending with
  | nil => simp [multiResponses]
  | cons row rest ih =>
      rw [multiResponses]
      split
      · rw [List.flatMap_cons, ih, List.map_cons]
        simp
      · rw [ih, List.map_cons]
        simp

/-- What the query of a condition may list: the rows that are selected and within the bounds,
in order and up to the limit. -/
def MultiParams.Listed {ρ : Type} (params : MultiParams) (column : QryFld → ρ → ℤ)
    (keep : ρ → Bool) (rows result : List ρ) : Prop :=
  Lists (fun row => (params.condBy = .none || params.within (column params.condBy row)) && keep row)
    (fun left right => params.condBy = .none ||
      params.precedes (column params.condBy left) (column params.condBy right))
    (if 0 < params.maxCount then some params.maxCount.toNat else none) rows result

def MultiParams.ListsComments (params : MultiParams) (db : Db) :
    List (CommentRow × UserRow) → Prop :=
  params.Listed (fun field joined => CommentRow.column field joined.1)
    (fun joined => params.selects joined.1.channelId joined.1.postId) (joinedComments db)

def MultiParams.ListsPosts (params : MultiParams) (db : Db) : List PostRow → Prop :=
  params.Listed PostRow.column (fun row => params.selects row.channelId row.postId) db.posts

/-- Whatever the scan, the rows that are selected are kept, in order and up to the limit. -/
theorem MultiParams.listed_select {ρ : Type} (params : MultiParams) (column : QryFld → ρ → ℤ)
    (scan : Scan) (keep : ρ → Bool) (rows : List ρ) :
    params.Listed column keep rows (params.select column ((scan.visit rows).filter keep)) := by
  have hvisit := (scan.visit_perm rows).filter keep
  rw [Listed, select]
  by_cases hby : params.condBy = .none
  · simp only [hby, decide_true, Bool.true_or, Bool.true_and, if_true]
    exact ⟨_, hvisit, List.pairwise_of_forall fun _ _ => rfl, rfl⟩
  · simp only [hby, decide_false, Bool.false_or, if_false]
    refine ⟨_, ?_, List.pairwise_mergeSort ?_ ?_ _, rfl⟩
    · rw [← List.filter_filter]
      exact (List.mergeSort_perm _ _).trans (hvisit.filter _)
    · intro left middle right hleft hright
      unfold precedes at hleft hright ⊢
      split at hleft <;> simp_all only [if_true, if_false, decide_eq_true_eq] <;> omega
    · intro left right
      unfold precedes
      split <;> simp only [Bool.or_eq_true, decide_eq_true_eq] <;> omega

/-- The responses depend on what is read of the rows only. -/
theorem multiResponses_congr {ρ α : Type} {start : ℕ} {size : ρ → ℕ} {item : ρ → α}
    {f : ρ → ρ} (hsize : ∀ row, size (f row) = size row)
    (hitem : ∀ row, item (f row) = item row) (reached : ℕ) (pending : List α) (rows : List ρ) :
    multiResponses start size item reached pending (rows.map f) =
      multiResponses start size item reached pending rows := by
  induction rows generalizing reached pending with
  | nil => rfl
  | cons row rest ih => simp only [List.map_cons, multiResponses, hsize, hitem, ih]

end FeedsService.Feeds
