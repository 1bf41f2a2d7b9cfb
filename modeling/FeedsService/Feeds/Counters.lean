import FeedsService.Feeds.Mirror
import FeedsService.Library.Counters

/-!
# The counters of the database

Subscribers, likes and the next ids are columns of their own, changed by other
statements than the rows they count.  Each of them is an instance of the library
of counters, with the target of a like as the key of the likes: comment id 0
stands for the post itself, and no comment has that id.
-/

namespace FeedsService.Feeds

open FeedsService.Library FeedsService.Runs

section Entries

variable (db : Db)

def subscriberCounters : List (ℤ × ℤ) :=
  db.channels.map fun row => (row.channelId, row.subscribers)

def nextPostIds : List (ℤ × ℤ) :=
  db.channels.map fun row => (row.channelId, row.nextPostId)

def postIds : List (ℤ × ℤ) :=
  db.posts.map fun row => (row.channelId, row.postId)

def nextCommentIds : List ((ℤ × ℤ) × ℤ) :=
  db.posts.map fun row => ((row.channelId, row.postId), row.nextCommentId)

def commentIds : List ((ℤ × ℤ) × ℤ) :=
  db.comments.map fun row => ((row.channelId, row.postId), row.commentId)

def postLikes : List ((ℤ × ℤ × ℤ) × ℤ) :=
  db.posts.map fun row => ((row.channelId, row.postId, 0), row.likes)

def commentLikes : List ((ℤ × ℤ × ℤ) × ℤ) :=
  db.comments.map fun row => ((row.channelId, row.postId, row.commentId), row.likes)

end Entries

def LikeRow.target (row : LikeRow) : ℤ × ℤ × ℤ :=
  (row.channelId, row.postId, row.commentId)

/-- Every counter of the database equals what it counts. -/
structure Counted (db : Db) : Prop where
  subscribers : Counts (subscriberCounters db) (db.subscriptions.map SubscriptionRow.channelId)
  likes : Counts (postLikes db ++ commentLikes db) (db.likes.map LikeRow.target)
  postIds : Numbered (nextPostIds db) (postIds db)
  commentIds : Numbered (nextCommentIds db) (commentIds db)
  subscriptionKeys : (db.subscriptions.map fun row => (row.userId, row.channelId)).Nodup
  likeKeys : (db.likes.map fun row => (row.userId, row.target)).Nodup
  commentKeys : (Feeds.commentIds db).Nodup

namespace Counted

variable {db : Db}

theorem init : Counted Db.init := by
  refine ⟨⟨?_, ?_⟩, ⟨?_, ?_⟩, ⟨?_, ?_, ?_, ?_⟩, ⟨?_, ?_, ?_, ?_⟩, ?_, ?_, ?_⟩ <;>
    simp [Db.init, subscriberCounters, nextPostIds, Feeds.postIds, nextCommentIds,
      Feeds.commentIds, postLikes, commentLikes]

theorem comment_pos (h : Counted db) {row : CommentRow} (hrow : row ∈ db.comments) :
    1 ≤ row.commentId :=
  h.commentIds.item_pos (List.mem_map_of_mem hrow)

/-- Comment id 0 belongs to the posts. -/
theorem zero_notMem_commentLikes (h : Counted db) (channelId postId : ℤ) :
    (channelId, postId, 0) ∉ (commentLikes db).map Prod.fst := by
  rintro hmem
  simp only [commentLikes, List.map_map, List.mem_map, Function.comp, Prod.mk.injEq] at hmem
  obtain ⟨row, hrow, _, _, hzero⟩ := hmem
  have hpos := h.comment_pos hrow
  omega

section Channels

theorem createChan (h : Counted db) (row : ChannelRow)
    (hfresh : ∀ old ∈ db.channels, old.channelId ≠ row.channelId)
    (hsubscribers : row.subscribers = 0) (hnextPostId : row.nextPostId = 1) {seq : ℤ} :
    Counted { db with channels := db.channels ++ [row], channelsSeq := seq } := by
  have hsub : row.channelId ∉ (subscriberCounters db).map Prod.fst := by
    simpa [subscriberCounters] using hfresh
  have hnext : row.channelId ∉ (nextPostIds db).map Prod.fst := by
    simpa [nextPostIds] using hfresh
  refine ⟨?_, h.likes, ?_, h.commentIds, h.subscriptionKeys, h.likeKeys, h.commentKeys⟩
  · have hadd := h.subscribers.add hsub
    simpa [subscriberCounters, hsubscribers] using hadd
  · have hadd := h.postIds.add hnext
    simpa [nextPostIds, Feeds.postIds, hnextPostId] using hadd

theorem updChan (h : Counted db) {p : ChannelRow → Bool} {f : ChannelRow → ChannelRow}
    (hkeep : ∀ row, (f row).channelId = row.channelId ∧
      (f row).subscribers = row.subscribers ∧ (f row).nextPostId = row.nextPostId) :
    Counted { db with channels := updateWhere db.channels p f } := by
  refine ⟨?_, h.likes, ?_, h.commentIds, h.subscriptionKeys, h.likeKeys, h.commentKeys⟩
  · rw [subscriberCounters, map_updateWhere (by simp [hkeep])]
    exact h.subscribers
  · rw [nextPostIds, map_updateWhere (by simp [hkeep])]
    exact h.postIds

end Channels

section Posts

theorem updPost (h : Counted db) {p : PostRow → Bool} {f : PostRow → PostRow}
    (hkeep : ∀ row, (f row).channelId = row.channelId ∧ (f row).postId = row.postId ∧
      (f row).likes = row.likes ∧ (f row).nextCommentId = row.nextCommentId) :
    Counted { db with posts := updateWhere db.posts p f } := by
  refine ⟨h.subscribers, ?_, ?_, ?_, h.subscriptionKeys, h.likeKeys, h.commentKeys⟩
  · rw [postLikes, map_updateWhere (by simp [hkeep])]
    exact h.likes
  · rw [Feeds.postIds, map_updateWhere (by simp [hkeep])]
    exact h.postIds
  · rw [nextCommentIds, map_updateWhere (by simp [hkeep])]
    exact h.commentIds

/-- The post takes the next id of its channel. -/
theorem addPost (h : Counted db) (row : PostRow)
    (hnext : (row.channelId, row.postId) ∈ nextPostIds db)
    (hlikes : row.likes = 0) (hnextCommentId : row.nextCommentId = 1) :
    Counted { db with
      posts := db.posts ++ [row]
      channels := updateWhere db.channels (ChannelRow.at row.channelId) fun row =>
        { row with nextPostId := row.nextPostId + 1 } } := by
  have hfresh : (row.channelId, row.postId) ∉ Feeds.postIds db := by
    intro hmem
    have hrange := (h.postIds.exact _ hnext _).mp hmem
    simp only at hrange
    omega
  have hnotPost : (row.channelId, row.postId, 0) ∉ (postLikes db).map Prod.fst := by
    intro hmem
    apply hfresh
    simpa [postLikes, Feeds.postIds] using hmem
  have hnew : (row.channelId, row.postId, 0) ∉
      (postLikes db ++ commentLikes db).map Prod.fst := by
    rw [List.map_append, List.mem_append]
    exact fun hmem => hmem.elim hnotPost (h.zero_notMem_commentLikes _ _)
  have hnewNext : (row.channelId, row.postId) ∉ (nextCommentIds db).map Prod.fst := by
    simpa [nextCommentIds, Feeds.postIds] using hfresh
  refine ⟨?_, ?_, ?_, ?_, h.subscriptionKeys, h.likeKeys, h.commentKeys⟩
  · rw [subscriberCounters, map_updateWhere (by simp)]
    exact h.subscribers
  · refine (h.likes.add hnew).perm ?_
    simp only [postLikes, List.map_append, List.map_cons, List.map_nil, hlikes,
      List.append_assoc]
    exact List.Perm.append_left _ List.perm_append_comm
  · have hinsert := h.postIds.insert hnext
    rw [nextPostIds, map_updateWhere_bump row.channelId 1 (by simp [ChannelRow.at]) (by simp)
      (by simp)]
    simpa [nextPostIds, Feeds.postIds] using hinsert
  · have hadd := h.commentIds.add hnewNext
    simpa [nextCommentIds, Feeds.commentIds, hnextCommentId] using hadd

end Posts

section Comments

theorem updCmt (h : Counted db) {p : CommentRow → Bool} {f : CommentRow → CommentRow}
    (hkeep : ∀ row, (f row).channelId = row.channelId ∧ (f row).postId = row.postId ∧
      (f row).commentId = row.commentId ∧ (f row).likes = row.likes) :
    Counted { db with comments := updateWhere db.comments p f } := by
  have hids : Feeds.commentIds { db with comments := updateWhere db.comments p f } =
      Feeds.commentIds db := by
    rw [Feeds.commentIds, map_updateWhere (by simp [hkeep])]
    rfl
  refine ⟨h.subscribers, ?_, h.postIds, ?_, h.subscriptionKeys, h.likeKeys, ?_⟩
  · rw [commentLikes, map_updateWhere (by simp [hkeep])]
    exact h.likes
  · rw [hids]
    exact h.commentIds
  · rw [hids]
    exact h.commentKeys

/-- The comment takes the next id of its post. -/
theorem addCmt (h : Counted db) (row : CommentRow)
    (hnext : ((row.channelId, row.postId), row.commentId) ∈ nextCommentIds db)
    (hlikes : row.likes = 0) :
    Counted { db with
      comments := db.comments ++ [row]
      posts := updateWhere db.posts (PostRow.at row.channelId row.postId) fun row =>
        { row with nextCommentId := row.nextCommentId + 1 } } := by
  have hfresh : ((row.channelId, row.postId), row.commentId) ∉ Feeds.commentIds db := by
    intro hmem
    have hrange := (h.commentIds.exact _ hnext _).mp hmem
    simp only at hrange
    omega
  have hpos : 1 ≤ row.commentId := h.commentIds.pos _ hnext
  have hnew : (row.channelId, row.postId, row.commentId) ∉
      (postLikes db ++ commentLikes db).map Prod.fst := by
    rw [List.map_append, List.mem_append]
    rintro (hpost | hcomment)
    · simp only [postLikes, List.map_map, List.mem_map, Function.comp, Prod.mk.injEq] at hpost
      obtain ⟨post, _, _, _, hzero⟩ := hpost
      omega
    · apply hfresh
      simpa [commentLikes, Feeds.commentIds, and_assoc] using hcomment
  have hids : Feeds.commentIds { db with
      comments := db.comments ++ [row]
      posts := updateWhere db.posts (PostRow.at row.channelId row.postId) fun row =>
        { row with nextCommentId := row.nextCommentId + 1 } } =
      Feeds.commentIds db ++ [((row.channelId, row.postId), row.commentId)] := by
    simp [Feeds.commentIds]
  refine ⟨h.subscribers, ?_, ?_, ?_, h.subscriptionKeys, h.likeKeys, ?_⟩
  · have hadd := h.likes.add hnew
    rw [postLikes, map_updateWhere (by simp)]
    simpa [postLikes, commentLikes, hlikes] using hadd
  · rw [Feeds.postIds, map_updateWhere (by simp)]
    exact h.postIds
  · have hinsert := h.commentIds.insert hnext
    rw [hids, nextCommentIds,
      map_updateWhere_bump (row.channelId, row.postId) 1 (by simp [PostRow.at]) (by simp)
        (by simp)]
    exact hinsert
  · rw [hids, List.nodup_append]
    refine ⟨h.commentKeys, List.nodup_singleton _, fun key hkey other hother => ?_⟩
    rw [List.mem_singleton.mp hother]
    rintro rfl
    exact hfresh hkey

end Comments

section Likes

/-- A change of likes changes the counter of its target. -/
theorem updLikes_counters (h : Counted db) (channelId postId commentId change : ℤ) :
    postLikes (updLikes db channelId postId commentId change) ++
        commentLikes (updLikes db channelId postId commentId change) =
      bump (postLikes db ++ commentLikes db) (channelId, postId, commentId) change := by
  rw [bump_append]
  by_cases hzero : commentId = 0
  · subst hzero
    have hposts : postLikes (updLikes db channelId postId 0 change) =
        bump (postLikes db) (channelId, postId, 0) change := by
      simp only [updLikes, ne_eq, not_true_eq_false, if_false, postLikes]
      exact map_updateWhere_bump _ _ (by simp [PostRow.at]) (by simp) (by simp)
    rw [hposts, bump_of_notMem (h.zero_notMem_commentLikes _ _)]
    rfl
  · have hcomments : commentLikes (updLikes db channelId postId commentId change) =
        bump (commentLikes db) (channelId, postId, commentId) change := by
      simp only [updLikes, ne_eq, hzero, not_false_eq_true, if_true, commentLikes]
      exact map_updateWhere_bump _ _ (by simp [CommentRow.at]) (by simp) (by simp)
    have hposts : (channelId, postId, commentId) ∉ (postLikes db).map Prod.fst := by
      simp only [postLikes, List.map_map, List.mem_map, Function.comp, Prod.mk.injEq,
        not_exists, not_and]
      exact fun _ _ _ _ heq => hzero heq.symm
    rw [hcomments, bump_of_notMem hposts]
    simp [updLikes, hzero, postLikes]

/-- Reading the likes back finds the target. -/
theorem known_of_selectLikes {channelId postId commentId change : ℤ}
    (hselect : (selectLikes (updLikes db channelId postId commentId change) channelId postId
      commentId).isSome) :
    (channelId, postId, commentId) ∈
      (postLikes (updLikes db channelId postId commentId change) ++
        commentLikes (updLikes db channelId postId commentId change)).map Prod.fst := by
  rw [List.map_append, List.mem_append]
  by_cases hzero : commentId = 0
  · subst hzero
    simp only [selectLikes, ne_eq, not_true_eq_false, if_false, Option.isSome_map,
      List.find?_isSome] at hselect
    obtain ⟨row, hrow, hat⟩ := hselect
    left
    simp only [PostRow.at, decide_eq_true_eq] at hat
    simp only [postLikes, List.map_map, List.mem_map, Function.comp, Prod.mk.injEq]
    exact ⟨row, hrow, hat.1, hat.2, trivial⟩
  · simp only [selectLikes, ne_eq, hzero, not_false_eq_true, if_true, Option.isSome_map,
      List.find?_isSome] at hselect
    obtain ⟨row, hrow, hat⟩ := hselect
    right
    simp only [CommentRow.at, decide_eq_true_eq] at hat
    simp only [commentLikes, List.map_map, List.mem_map, Function.comp, Prod.mk.injEq]
    exact ⟨row, hrow, hat⟩

/-- A change of likes changes nothing else that is counted. -/
theorem updLikes_ids (channelId postId commentId change : ℤ) :
    Feeds.postIds (updLikes db channelId postId commentId change) = Feeds.postIds db ∧
      nextCommentIds (updLikes db channelId postId commentId change) = nextCommentIds db ∧
      Feeds.commentIds (updLikes db channelId postId commentId change) =
        Feeds.commentIds db := by
  unfold updLikes
  split
  · refine ⟨rfl, rfl, ?_⟩
    simp only [Feeds.commentIds]
    exact map_updateWhere (by simp)
  · refine ⟨?_, ?_, rfl⟩
    · simp only [Feeds.postIds]
      exact map_updateWhere (by simp)
    · simp only [nextCommentIds]
      exact map_updateWhere (by simp)

/-- The counter and the rows of the likes change together. -/
theorem updLikes (h : Counted db) {channelId postId commentId change : ℤ}
    {rows : List LikeRow}
    (hlikes : Counts (bump (postLikes db ++ commentLikes db) (channelId, postId, commentId)
      change) (rows.map LikeRow.target))
    (hkeys : (rows.map fun row => (row.userId, row.target)).Nodup) :
    Counted { updLikes db channelId postId commentId change with likes := rows } := by
  obtain ⟨hpostIds, hnext, hcommentIds⟩ := @updLikes_ids db channelId postId commentId change
  refine ⟨?_, ?_, ?_, ?_, ?_, hkeys, ?_⟩
  · simpa [subscriberCounters] using h.subscribers
  · rw [← h.updLikes_counters] at hlikes
    exact hlikes
  · have hposts := h.postIds
    rw [← hpostIds] at hposts
    simpa [nextPostIds, Feeds.postIds] using hposts
  · have hcomments := h.commentIds
    rw [← hnext, ← hcommentIds] at hcomments
    exact hcomments
  · simpa using h.subscriptionKeys
  · have hkeys := h.commentKeys
    rw [← hcommentIds] at hkeys
    exact hkeys

theorem addLike (h : Counted db) {userId channelId postId commentId : ℤ} {row : LikeRow}
    (hat : row.at userId channelId postId commentId = true)
    (hselect : (selectLikes (Feeds.updLikes db channelId postId commentId 1) channelId postId
      commentId).isSome)
    (hnot : db.likes.any (LikeRow.at userId channelId postId commentId) = false) :
    Counted { Feeds.updLikes db channelId postId commentId 1 with
      likes := db.likes ++ [row] } := by
  simp only [LikeRow.at, decide_eq_true_eq] at hat
  obtain ⟨rfl, rfl, rfl, rfl⟩ := hat
  have hknown := known_of_selectLikes hselect
  rw [h.updLikes_counters, keys_bump] at hknown
  refine h.updLikes ?_ ?_
  · have hinsert := h.likes.insert hknown
    simpa [LikeRow.target] using hinsert
  · refine nodup_insert h.likeKeys fun old hold heq => ?_
    simp only [LikeRow.target, Prod.mk.injEq] at heq
    simp only [List.any_eq_false, LikeRow.at, decide_eq_true_eq] at hnot
    exact hnot old hold heq

theorem rmLike (h : Counted db) {userId channelId postId commentId : ℤ}
    (hlike : db.likes.any (LikeRow.at userId channelId postId commentId) = true) :
    Counted (dbRmLike db userId channelId postId commentId) := by
  have hat : LikeRow.at userId channelId postId commentId = fun row : LikeRow =>
      decide ((row.userId, row.target) = (userId, channelId, postId, commentId)) := by
    funext row
    simp [LikeRow.at, LikeRow.target]
  have hone : db.likes.countP (LikeRow.at userId channelId postId commentId) = 1 := by
    refine Nat.le_antisymm ?_ ?_
    · rw [hat]
      exact countP_key_le_one h.likeKeys _
    · rw [Nat.succ_le_iff, List.countP_pos_iff]
      exact List.any_eq_true.mp hlike
  simp only [dbRmLike, updLikes_likes]
  refine h.updLikes (h.likes.delete_row hone fun row _ hrow => ?_)
    (nodup_deleteWhere h.likeKeys)
  simp only [hat, decide_eq_true_eq, Prod.mk.injEq] at hrow
  exact hrow.2

end Likes

section Subscriptions

/-- The counter and the rows of the subscriptions change together. -/
theorem updSubscribers (h : Counted db) {channelId change : ℤ} {rows : List SubscriptionRow}
    (hrows : Counts (bump (subscriberCounters db) channelId change)
      (rows.map SubscriptionRow.channelId))
    (hkeys : (rows.map fun row => (row.userId, row.channelId)).Nodup) :
    Counted (updSubscribers { db with subscriptions := rows } channelId change) := by
  refine ⟨?_, h.likes, ?_, h.commentIds, hkeys, h.likeKeys, h.commentKeys⟩
  · rw [subscriberCounters, Feeds.updSubscribers,
      map_updateWhere_bump channelId change (by simp [ChannelRow.at]) (by simp) (by simp)]
    exact hrows
  · rw [nextPostIds, Feeds.updSubscribers, map_updateWhere (by simp)]
    exact h.postIds

theorem addSub (h : Counted db) (row : SubscriptionRow)
    (hknown : row.channelId ∈ (subscriberCounters db).map Prod.fst)
    (hnot : db.subscriptions.any (SubscriptionRow.at row.userId row.channelId) = false) :
    Counted (Feeds.updSubscribers
      { db with subscriptions := db.subscriptions ++ [row] } row.channelId 1) := by
  refine h.updSubscribers ?_ (nodup_insert h.subscriptionKeys fun old hold heq => ?_)
  · have hinsert := h.subscribers.insert hknown
    simpa using hinsert
  · simp only [Prod.mk.injEq] at heq
    simp only [List.any_eq_false, SubscriptionRow.at, decide_eq_true_eq] at hnot
    exact hnot old hold heq

theorem unsub (h : Counted db) {userId channelId : ℤ}
    (hsub : db.subscriptions.any (SubscriptionRow.at userId channelId) = true) :
    Counted (dbUnsub db userId channelId) := by
  have hat : SubscriptionRow.at userId channelId = fun row : SubscriptionRow =>
      decide ((row.userId, row.channelId) = (userId, channelId)) := by
    funext row
    simp [SubscriptionRow.at]
  have hone : db.subscriptions.countP (SubscriptionRow.at userId channelId) = 1 := by
    refine Nat.le_antisymm ?_ ?_
    · rw [hat]
      exact countP_key_le_one h.subscriptionKeys _
    · rw [Nat.succ_le_iff, List.countP_pos_iff]
      exact List.any_eq_true.mp hsub
  refine h.updSubscribers (h.subscribers.delete_row hone fun row _ hrow => ?_)
    (nodup_deleteWhere h.subscriptionKeys)
  simp only [hat, decide_eq_true_eq, Prod.mk.injEq] at hrow
  exact hrow.2

end Subscriptions

theorem sameContents {db' : Db} (h : Counted db) (hsame : SameContents db db') :
    Counted db' := by
  rw [hsame.eq]
  exact ⟨h.subscribers, h.likes, h.postIds, h.commentIds, h.subscriptionKeys, h.likeKeys,
    h.commentKeys⟩

theorem effect {w w' : World} {ctx : Ctx} {req : Req} (hmirror : Mirror w)
    (h : Counted w.db) (heffect : Effect w ctx req w') : Counted w'.db := by
  have hrow : ∀ {chanId : UInt64} {chan : Ref},
      w.mem.chanGetById chanId.toNat = some chan →
        (w.mem.chan chan).info.toRow ∈ w.db.channels ∧
          (w.mem.chan chan).info.toRow.channelId = bindInt64 chanId := by
    intro chanId chan hchan
    obtain ⟨hmem, _, hbind⟩ := hmirror.mirrors.of_chanGetById hmirror.few hchan
    exact ⟨hmirror.mirrors.row_of_chan hmem, hbind.symm⟩
  cases heffect with
  | nothing => exact h
  | createChan hfew hid hupdAt hsubs hnextPostId hstatus hname hdb =>
      rw [dbCreateChan_eq_some hdb]
      refine h.createChan (newChannelRow _ _) (fun old hold => ?_) rfl rfl
      have hbounds := hmirror.mirrors.id_bounds hold
      have hseq := hmirror.channelsSeq
      simp only [newChannelRow]
      omega
  | updChan hreq hready howner hid hciName hchan hcreatedAt hsubs hnextPostId hstatus hname hdb =>
      rw [dbUpdChan_eq_some hdb]
      exact h.updChan (by simp [ChannelRow.upd])
  | addPost hchan hchanId hpostId hstat hdb =>
      rw [dbAddPost_eq_some hdb]
      obtain ⟨hmem, hbind⟩ := hrow hchan
      refine h.addPost (newPostRow _) ?_ rfl rfl
      simp only [nextPostIds, List.mem_map, newPostRow, Prod.mk.injEq, hchanId, hpostId]
      exact ⟨_, hmem, hbind, rfl⟩
  | setPostStatus hstat hdb =>
      rw [dbSetPostStatus_eq_some hdb]
      exact h.updPost (by simp)
  | updPost hdb =>
      rw [dbUpdPost_eq_some hdb]
      exact h.updPost (by simp [PostRow.upd])
  | addCmt hdb =>
      obtain ⟨post, hpost, hat, _, hadded⟩ := dbAddCmt_eq_some hdb
      simp only [PostRow.at, decide_eq_true_eq] at hat
      rw [hadded]
      refine h.addCmt (newCommentRow _ _) (List.mem_map.mpr ⟨post, hpost, ?_⟩) rfl
      simp [newCommentRow, hat]
  | updCmt hreq hci havail hdb =>
      rw [(dbUpdCmt_eq_some hdb).1]
      exact h.updCmt (by simp [CommentRow.upd])
  | setCmtStatus hchecked hci hreq hdb =>
      rw [(dbSetCmtStatus_eq_some hdb).1]
      exact h.updCmt (by simp [CommentRow.setStatus])
  | addLike hnot hdb =>
      obtain ⟨row, hat, hselect, hany, hadded⟩ := dbAddLike_eq_some hdb
      rw [hadded]
      exact h.addLike hat hselect hany
  | rmLike hlike => exact h.rmLike hlike
  | @subChan uid id chan proof db hchan hnot hdb =>
      obtain ⟨hany, rfl⟩ := dbAddSub_eq_some hdb
      obtain ⟨hmem, hbind⟩ := hrow hchan
      clear hdb hnot
      generalize bindInt64 uid = userId at hany ⊢
      generalize bindInt64 id = channelId at hany hbind ⊢
      refine h.addSub ⟨_, _, _, _⟩ ?_ hany
      simp only [subscriberCounters, List.map_map, List.mem_map, Function.comp]
      exact ⟨_, hmem, hbind⟩
  | unsubChan hchan hsub => exact h.unsub hsub
  | enblNotif hreq hready huinfo => exact h
  | sameContents hsame => exact h.sameContents hsame

theorem upsertUser (h : Counted db) (ui : UserInfo) (now rowid : ℤ) :
    Counted ((dbUpsertUser db ui now rowid).getD db) :=
  h.sameContents (dbUpsertUser_same db ui now rowid)

end Counted

/-- The database and its mirror in memory. -/
structure Consistent (w : World) : Prop where
  mirror : Mirror w
  counted : Counted w.db

theorem Consistent.init : Consistent (.start Db.init) :=
  ⟨Mirror.init, Counted.init⟩

theorem Consistent.effect {w w' : World} {ctx : Ctx} {req : Req} (h : Consistent w)
    (heffect : Effect w ctx req w') : Consistent w' :=
  ⟨h.mirror.effect heffect, h.counted.effect h.mirror heffect⟩

theorem Consistent.step (w : World) (event : Event) (h : Consistent w) :
    Consistent (step w event) := by
  refine step_preserves (P := Consistent) (fun w ctx req carried h hdone => ?_)
    (fun w nodeId h => ?_) (fun w ui now rowid h => ?_) (fun w h => ?_) w event h
  · exact h.effect (handle_effect hdone)
  · exact ⟨Mirror.step w (.peerOffline nodeId) h.mirror, h.counted⟩
  · exact ⟨Mirror.step w (.signIn ui now rowid) h.mirror, h.counted.upsertUser ui now rowid⟩
  · exact ⟨h.mirror.restart, h.counted⟩

theorem Consistent.reachable (events : List Event) :
    Always Step Consistent (.start Db.init) events :=
  always_of_preserved
    (fun w event _ h hstep => step_iff.mp hstep ▸ Consistent.step w event h) init events

/-- Every denormalised counter, in the database and in memory, equals what it
counts; ids are given out without gaps. -/
structure CountersExact (w : World) : Prop where
  subscribers : ∀ row ∈ w.db.channels,
    row.subscribers = w.db.subscriptions.countP fun sub => sub.channelId = row.channelId
  subs : ∀ chan ∈ w.mem.chansById, (w.mem.chan chan).info.subs =
    w.db.subscriptions.countP fun sub => sub.channelId = ((w.mem.chan chan).info.chanId : ℤ)
  postLikes : ∀ row ∈ w.db.posts, row.likes = w.db.likes.countP fun like =>
    like.channelId = row.channelId ∧ like.postId = row.postId ∧ like.commentId = 0
  commentLikes : ∀ row ∈ w.db.comments, row.likes = w.db.likes.countP fun like =>
    like.channelId = row.channelId ∧ like.postId = row.postId ∧
      like.commentId = row.commentId
  postIds : ∀ row ∈ w.db.channels, ∀ id : ℤ,
    (∃ post ∈ w.db.posts, post.channelId = row.channelId ∧ post.postId = id) ↔
      1 ≤ id ∧ id < row.nextPostId
  nextPostId : ∀ chan ∈ w.mem.chansById, ∃ row ∈ w.db.channels,
    row.channelId = (w.mem.chan chan).info.chanId ∧
      row.nextPostId = (w.mem.chan chan).info.nextPostId
  commentIds : ∀ row ∈ w.db.posts, ∀ id : ℤ,
    (∃ cmt ∈ w.db.comments, cmt.channelId = row.channelId ∧ cmt.postId = row.postId ∧
      cmt.commentId = id) ↔ 1 ≤ id ∧ id < row.nextCommentId
  onePost : (w.db.posts.map fun row => (row.channelId, row.postId)).Nodup
  oneComment :
    (w.db.comments.map fun row => (row.channelId, row.postId, row.commentId)).Nodup
  channelsNonneg : ∀ row ∈ w.db.channels, 0 ≤ row.subscribers ∧ 0 ≤ row.nextPostId
  postsNonneg : ∀ row ∈ w.db.posts, 0 ≤ row.likes ∧ 0 ≤ row.nextCommentId
  commentsNonneg : ∀ row ∈ w.db.comments, 0 ≤ row.likes
  subsNonneg : ∀ chan ∈ w.mem.chansById, 0 ≤ (w.mem.chan chan).info.subs

theorem Consistent.countersExact {w : World} (h : Consistent w) : CountersExact w := by
  have hsubscribers : ∀ row ∈ w.db.channels, row.subscribers =
      w.db.subscriptions.countP fun sub => sub.channelId = row.channelId :=
    fun row hrow => h.counted.subscribers.countP
      (show (row.channelId, row.subscribers) ∈ subscriberCounters w.db from
        List.mem_map_of_mem hrow)
  have hpostLikes : ∀ row ∈ w.db.posts,
      ((row.channelId, row.postId, 0), row.likes) ∈ postLikes w.db ++ commentLikes w.db :=
    fun row hrow => List.mem_append_left _ (List.mem_map_of_mem hrow)
  have hcommentLikes : ∀ row ∈ w.db.comments,
      ((row.channelId, row.postId, row.commentId), row.likes) ∈
        postLikes w.db ++ commentLikes w.db :=
    fun row hrow => List.mem_append_right _ (List.mem_map_of_mem hrow)
  have hnextPostId : ∀ row ∈ w.db.channels,
      (row.channelId, row.nextPostId) ∈ nextPostIds w.db :=
    fun row hrow => List.mem_map_of_mem hrow
  have hnextCommentId : ∀ row ∈ w.db.posts,
      ((row.channelId, row.postId), row.nextCommentId) ∈ nextCommentIds w.db :=
    fun row hrow => List.mem_map_of_mem hrow
  have hrow : ∀ chan ∈ w.mem.chansById, (w.mem.chan chan).info.toRow ∈ w.db.channels :=
    fun chan hchan => h.mirror.mirrors.row_of_chan hchan
  refine
    { subscribers := hsubscribers
      subs := fun chan hchan => hsubscribers _ (hrow chan hchan)
      postLikes := fun row hmem => ?_
      commentLikes := fun row hmem => ?_
      postIds := fun row hmem id => ?_
      nextPostId := fun chan hchan => ⟨_, hrow chan hchan, rfl, rfl⟩
      commentIds := fun row hmem id => ?_
      onePost := ?_
      oneComment := ?_
      channelsNonneg := fun row hmem => ⟨?_, ?_⟩
      postsNonneg := fun row hmem => ⟨?_, ?_⟩
      commentsNonneg := fun row hmem => ?_
      subsNonneg := fun chan hchan => ?_ }
  · have hcount := h.counted.likes.countP (hpostLikes row hmem)
    simpa [LikeRow.target] using hcount
  · have hcount := h.counted.likes.countP (hcommentLikes row hmem)
    simpa [LikeRow.target] using hcount
  · have hexact := h.counted.postIds.exact _ (hnextPostId row hmem) id
    simpa [Feeds.postIds] using hexact
  · have hexact := h.counted.commentIds.exact _ (hnextCommentId row hmem) id
    simpa [Feeds.commentIds, and_assoc] using hexact
  · have hkeyed := h.counted.commentIds.keyed
    simpa [nextCommentIds, Function.comp_def] using hkeyed
  · have hkeys := h.counted.commentKeys
    rw [Feeds.commentIds] at hkeys
    refine List.Nodup.of_map (fun key : ℤ × ℤ × ℤ => ((key.1, key.2.1), key.2.2)) ?_
    rw [List.map_map]
    exact hkeys
  · rw [hsubscribers row hmem]
    exact Int.natCast_nonneg _
  · have hpos := h.counted.postIds.pos _ (hnextPostId row hmem)
    simp only at hpos
    omega
  · exact h.counted.likes.nonneg (hpostLikes row hmem)
  · have hpos := h.counted.commentIds.pos _ (hnextCommentId row hmem)
    simp only at hpos
    omega
  · exact h.counted.likes.nonneg (hcommentLikes row hmem)
  · have hcount := hsubscribers _ (hrow chan hchan)
    simp only [ChanInfo.toRow] at hcount
    rw [hcount]
    exact Int.natCast_nonneg _

/-- Every run keeps every counter exact. -/
theorem countersExact_always (events : List Event) :
    Always Step CountersExact (.start Db.init) events :=
  (Consistent.reachable events).mono fun _ h => h.countersExact

end FeedsService.Feeds
