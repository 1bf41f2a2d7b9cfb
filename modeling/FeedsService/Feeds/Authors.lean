import FeedsService.Feeds.References
import Mathlib.Data.Int.Interval

/-!
# The authors of comments

`db_iter_cmts` joins a comment with the row of its author, so a comment without
one is in the database but in no list.  Users are never removed; `get_comments`
lists every comment exactly as long as comments are posted by stored users.
-/

namespace FeedsService.Feeds

open FeedsService.Library FeedsService.Runs

def userIds (db : Db) : List ℤ :=
  db.users.map UserRow.userId

/-- The criteria of a request that gives none. -/
def QryCriteria.all : QryCriteria :=
  ⟨.none, 0, 0, 0⟩

section Listing

/-- A list of all comments of a post: each id that the post has given out stands in it once. -/
structure ListsAll (post : PostRow) (cinfos : List CmtInfo) : Prop where
  ids : ∀ id, id ∈ cinfos.map CmtInfo.cmtId ↔ 1 ≤ id ∧ id < post.nextCommentId
  once : (cinfos.map CmtInfo.cmtId).Nodup
  count : (cinfos.length : ℤ) = (row2post post).cmts

/-- `get_comments` without criteria lists all comments of each post. -/
def CommentsListed (db : Db) : Prop :=
  ∀ post ∈ db.posts, ∃ cinfos,
    dbIterCmts db post.channelId post.postId .all = some cinfos ∧ ListsAll post cinfos

/-- The rows of a post, each with its author. -/
def withAuthors (db : Db) (chanId postId : ℤ) : List (CommentRow × UserRow) :=
  (db.comments.filter fun row => row.channelId = chanId ∧ row.postId = postId).flatMap fun row =>
    (db.users.filter fun user => user.userId = row.userId).map fun user => (row, user)

variable {db : Db}

theorem dbIterCmts_all (db : Db) (chanId postId : ℤ) :
    dbIterCmts db chanId postId .all = some ((withAuthors db chanId postId).map row2cmt) :=
  rfl

theorem filter_of_nodup {users : List UserRow} (hnodup : (users.map UserRow.userId).Nodup)
    {user : UserRow} (huser : user ∈ users) :
    users.filter (fun other => other.userId = user.userId) = [user] := by
  induction users with
  | nil => exact absurd huser List.not_mem_nil
  | cons first users ih =>
      rw [List.map_cons, List.nodup_cons] at hnodup
      obtain rfl | huser := List.mem_cons.mp huser
      · have hrest : users.filter (fun other => other.userId = user.userId) = [] := by
          rw [List.filter_eq_nil_iff]
          intro other hother heq
          rw [decide_eq_true_eq] at heq
          exact hnodup.1 (heq ▸ List.mem_map_of_mem hother)
        rw [List.filter_cons_of_pos (by simp), hrest]
      · have hne : ¬ first.userId = user.userId := by
          intro heq
          exact hnodup.1 (heq ▸ List.mem_map_of_mem huser)
        rw [List.filter_cons_of_neg (by simpa using hne), ih hnodup.2 huser]

/-- With all authors stored the join loses nothing. -/
theorem withAuthors_fst (hnodup : (userIds db).Nodup)
    (hauthors : ∀ row ∈ db.comments, row.userId ∈ userIds db) (chanId postId : ℤ) :
    (withAuthors db chanId postId).map Prod.fst =
      db.comments.filter fun row => row.channelId = chanId ∧ row.postId = postId := by
  have hjoin : ∀ rows : List CommentRow, (∀ row ∈ rows, row.userId ∈ userIds db) →
      (rows.flatMap fun row => (db.users.filter fun user => user.userId = row.userId).map
        fun user => (row, user)).map Prod.fst = rows := by
    intro rows hrows
    induction rows with
    | nil => rfl
    | cons row rows ih =>
        obtain ⟨user, huser, heq⟩ := List.mem_map.mp (hrows row List.mem_cons_self)
        rw [List.flatMap_cons, List.map_append, ← heq, filter_of_nodup hnodup huser,
          ih fun other h => hrows other (List.mem_cons_of_mem row h)]
        rfl
  exact hjoin _ fun row hrow => hauthors row (List.mem_filter.mp hrow).1

theorem cmtIds_eq (hnodup : (userIds db).Nodup)
    (hauthors : ∀ row ∈ db.comments, row.userId ∈ userIds db) (chanId postId : ℤ) :
    ((withAuthors db chanId postId).map row2cmt).map CmtInfo.cmtId =
      (db.comments.filter fun row => row.channelId = chanId ∧ row.postId = postId).map
        CommentRow.commentId := by
  rw [← withAuthors_fst hnodup hauthors, List.map_map, List.map_map]
  rfl

/-- The ids from 1 on, in a list without repetitions. -/
theorem length_of_ids {ids : List ℤ} (hnodup : ids.Nodup) {next : ℤ} (hpos : 1 ≤ next)
    (hids : ∀ id, id ∈ ids ↔ 1 ≤ id ∧ id < next) : (ids.length : ℤ) = next - 1 := by
  have heq : ids.toFinset = Finset.Ico 1 next := by
    ext id
    rw [List.mem_toFinset, Finset.mem_Ico, hids]
  have hcard := congrArg Finset.card heq
  rw [List.toFinset_card_of_nodup hnodup, Int.card_Ico] at hcard
  omega

theorem Counted.commentsListed (h : Counted db) (hnodup : (userIds db).Nodup)
    (hauthors : ∀ row ∈ db.comments, row.userId ∈ userIds db) : CommentsListed db := by
  intro post hpost
  refine ⟨_, dbIterCmts_all _ _ _, ?_⟩
  have hids := cmtIds_eq hnodup hauthors post.channelId post.postId
  have hnext : ((post.channelId, post.postId), post.nextCommentId) ∈ nextCommentIds db :=
    List.mem_map_of_mem hpost
  have hmem : ∀ id, id ∈ ((withAuthors db post.channelId post.postId).map row2cmt).map
      CmtInfo.cmtId ↔ 1 ≤ id ∧ id < post.nextCommentId := by
    intro id
    rw [hids, ← h.commentIds.exact _ hnext id]
    simp [Feeds.commentIds, and_assoc]
  have honce : (((withAuthors db post.channelId post.postId).map row2cmt).map
      CmtInfo.cmtId).Nodup := by
    rw [hids]
    refine List.Nodup.map_on ?_ (h.commentKeys.of_map _ |>.filter _)
    intro left hleft right hright heq
    simp only [List.mem_filter, decide_eq_true_eq] at hleft hright
    refine eq_of_key_eq h.commentKeys hleft.1 hright.1 ?_
    simp [hleft.2, hright.2, heq]
  refine ⟨hmem, honce, ?_⟩
  have hlength := length_of_ids honce (h.commentIds.pos _ hnext) hmem
  rwa [List.length_map] at hlength

end Listing

section Runs

/-- The event posts a comment with a token of a user who is not stored. -/
def UnknownAuthor (w : World) (event : Event) : Prop :=
  ∃ ctx chanId postId cmtId params carried uinfo,
    event = .request ctx (.postCmt chanId postId cmtId params) ∧
      handle w ctx (.postCmt chanId postId cmtId params) = .done carried ∧
      ctx.uinfo = some uinfo ∧ bindInt64 uinfo.uid ∉ userIds w.db

/-- What the listing of comments rests on. -/
structure Authored (w : World) : Prop where
  consistent : Consistent w
  nodup : (userIds w.db).Nodup
  authors : ∀ row ∈ w.db.comments, row.userId ∈ userIds w.db

variable {w : World} {ctx : Ctx} {req : Req} {db db' : Db}

theorem Authored.init : Authored (.start Db.init) :=
  ⟨.init, List.nodup_nil, fun _ hrow => absurd hrow List.not_mem_nil⟩

@[simp]
theorem updLikes_users (db : Db) (channelId postId commentId change : ℤ) :
    (updLikes db channelId postId commentId change).users = db.users := by
  unfold updLikes
  split <;> rfl

theorem userIds_addLike (db : Db) (channelId postId commentId : ℤ) (likes : List LikeRow) :
    userIds { updLikes db channelId postId commentId 1 with likes := likes } = userIds db := by
  simp only [userIds, updLikes_users]

theorem Writes.userIds_eq (h : Writes w ctx req db') : userIds db' = userIds w.db := by
  cases h with
  | updUser => exact map_updateWhere fun _ => rfl
  | addLike => exact userIds_addLike _ _ _ _ _
  | rmLike => simp only [userIds, dbRmLike, updLikes_users]
  | _ => rfl

theorem updLikes_userId (db : Db) (channelId postId commentId change : ℤ) :
    (updLikes db channelId postId commentId change).comments.map CommentRow.userId =
      db.comments.map CommentRow.userId := by
  unfold updLikes
  split
  · exact map_updateWhere fun _ => rfl
  · rfl

theorem userId_addLike (db : Db) (channelId postId commentId : ℤ) (likes : List LikeRow) :
    ({ updLikes db channelId postId commentId 1 with likes := likes } : Db).comments.map
      CommentRow.userId = db.comments.map CommentRow.userId := by
  simp only [updLikes_userId]

/-- The authors of the comments, to which a request adds at most its own user. -/
theorem Writes.authors (h : Writes w ctx req db') :
    db'.comments.map CommentRow.userId = w.db.comments.map CommentRow.userId ∨
      ∃ chanId postId cmtId params uinfo, req = .postCmt chanId postId cmtId params ∧
        ctx.uinfo = some uinfo ∧ db'.comments.map CommentRow.userId =
          w.db.comments.map CommentRow.userId ++ [bindInt64 uinfo.uid] := by
  cases h with
  | addCmt hreq huinfo hpost hat hok hci huser hreply hcreatedAt =>
      refine Or.inr ⟨_, _, _, _, _, hreq, huinfo, ?_⟩
      rw [List.map_append, List.map_singleton]
      simp only [newCommentRow, huser]
  | updCmt | setCmtStatus => exact Or.inl (map_updateWhere fun _ => rfl)
  | addLike => exact Or.inl (userId_addLike _ _ _ _ _)
  | rmLike => exact Or.inl (by simp only [dbRmLike, updLikes_userId])
  | _ => exact Or.inl rfl

theorem dbUpsertUser_ids (db : Db) (ui : UserInfo) (now rowid : ℤ) :
    userIds ((dbUpsertUser db ui now rowid).getD db) = userIds db ∨
      rowid ∉ userIds db ∧
        userIds ((dbUpsertUser db ui now rowid).getD db) = userIds db ++ [rowid] := by
  unfold dbUpsertUser
  split
  · exact Or.inl (map_updateWhere fun _ => rfl)
  · split
    · exact Or.inl rfl
    · rename_i hfresh
      refine Or.inr ⟨?_, List.map_append⟩
      intro hmem
      obtain ⟨row, hrow, heq⟩ := List.mem_map.mp hmem
      exact hfresh (List.any_eq_true.mpr ⟨row, hrow, decide_eq_true heq⟩)

theorem Authored.step (h : Authored w) (event : Event) (hknown : ¬ UnknownAuthor w event) :
    Authored (step w event) := by
  have hconsistent := Consistent.step w event h.consistent
  have hauthors : ∀ id ∈ w.db.comments.map CommentRow.userId, id ∈ userIds w.db := by
    intro id hid
    obtain ⟨row, hrow, rfl⟩ := List.mem_map.mp hid
    exact h.authors row hrow
  cases event with
  | request ctx req =>
      have hwrites := step_writes w ctx req
      refine ⟨hconsistent, hwrites.userIds_eq.symm ▸ h.nodup, fun row hrow => ?_⟩
      rw [hwrites.userIds_eq]
      have hmem : row.userId ∈
          (Feeds.step w (.request ctx req)).db.comments.map CommentRow.userId :=
        List.mem_map_of_mem hrow
      obtain hsame | ⟨chanId, postId, cmtId, params, uinfo, rfl, huinfo, hadded⟩ := hwrites.authors
      · rw [hsame] at hmem
        exact hauthors _ hmem
      · rw [hadded, List.mem_append, List.mem_singleton] at hmem
        obtain hold | hnew := hmem
        · exact hauthors _ hold
        · rw [hnew]
          by_contra hunknown
          obtain ⟨carried, hdone⟩ | ⟨hworld, -⟩ :=
            respond_cases w ctx (.postCmt chanId postId cmtId params)
          · exact hknown
              ⟨ctx, chanId, postId, cmtId, params, carried, uinfo, rfl, hdone, huinfo, hunknown⟩
          · rw [step_request_db, hworld] at hadded
            have hlength := congrArg List.length hadded
            rw [List.length_append, List.length_singleton] at hlength
            omega
  | peerOffline | restart => exact ⟨hconsistent, h.nodup, h.authors⟩
  | signIn ui now rowid =>
      obtain ⟨users, hdb⟩ := dbUpsertUser_users w.db ui now rowid
      have hcomments : ((dbUpsertUser w.db ui now rowid).getD w.db).comments = w.db.comments := by
        rw [hdb]
      obtain hsame | ⟨hfresh, hadded⟩ := dbUpsertUser_ids w.db ui now rowid
      · refine ⟨hconsistent, hsame.symm ▸ h.nodup, fun row hrow => ?_⟩
        rw [Feeds.step, hcomments] at hrow
        rw [Feeds.step, hsame]
        exact h.authors row hrow
      · refine ⟨hconsistent, ?_, fun row hrow => ?_⟩
        · rw [Feeds.step, hadded]
          exact List.nodup_append.mpr ⟨h.nodup, List.nodup_singleton _, fun id hid other hother =>
            List.mem_singleton.mp hother ▸ ne_of_mem_of_not_mem hid hfresh⟩
        · rw [Feeds.step, hcomments] at hrow
          rw [Feeds.step, hadded]
          exact List.mem_append_left _ (h.authors row hrow)

theorem mem_withAuthors {chanId postId : ℤ} {pair : CommentRow × UserRow} :
    pair ∈ withAuthors db chanId postId ↔
      (pair.1 ∈ db.comments ∧ pair.1.channelId = chanId ∧ pair.1.postId = postId) ∧
        pair.2 ∈ db.users ∧ pair.2.userId = pair.1.userId := by
  obtain ⟨row, user⟩ := pair
  simp only [withAuthors, List.mem_flatMap, List.mem_map, List.mem_filter, decide_eq_true_eq,
    Prod.mk.injEq]
  constructor
  · rintro ⟨_, hrow, _, huser, rfl, rfl⟩
    exact ⟨hrow, huser⟩
  · rintro ⟨hrow, huser⟩
    exact ⟨row, hrow, user, huser, rfl, rfl⟩

/-- A comment by a user who is not stored is missing in the list. -/
theorem Counted.not_commentsListed (h : Counted db) {post : PostRow} (hpost : post ∈ db.posts)
    {ci : CmtInfo} (hat : post.at ci.chanId ci.postId = true)
    (hnot : bindInt64 ci.user.uid ∉ userIds db) :
    ¬ CommentsListed { db with
      comments := db.comments ++ [newCommentRow post.nextCommentId ci]
      posts := updateWhere db.posts (PostRow.at ci.chanId ci.postId) fun row =>
        { row with nextCommentId := row.nextCommentId + 1 } } := by
  intro hlisted
  have hnext : ((post.channelId, post.postId), post.nextCommentId) ∈ nextCommentIds db :=
    List.mem_map_of_mem hpost
  have hpos := h.commentIds.pos _ hnext
  dsimp only at hpos
  obtain ⟨cinfos, hcinfos, hall⟩ := hlisted { post with nextCommentId := post.nextCommentId + 1 }
    (mem_updateWhere.mpr (Or.inr ⟨post, hpost, hat, rfl⟩))
  rw [dbIterCmts_all, Option.some.injEq] at hcinfos
  have hid := (hall.ids post.nextCommentId).mpr ⟨hpos, by dsimp only; omega⟩
  rw [← hcinfos, List.map_map] at hid
  obtain ⟨⟨row, user⟩, hpair, hcmtId⟩ := List.mem_map.mp hid
  obtain ⟨⟨hrow, hchannel, hpostId⟩, huser, heq⟩ := mem_withAuthors.mp hpair
  dsimp only at hrow hchannel hpostId huser heq
  have hcommentId : row.commentId = post.nextCommentId := hcmtId
  obtain hold | hnew := List.mem_append.mp hrow
  · have hmem : ((post.channelId, post.postId), post.nextCommentId) ∈ Feeds.commentIds db :=
      List.mem_map.mpr ⟨row, hold, by rw [hchannel, hpostId, hcommentId]⟩
    exact absurd ((h.commentIds.exact _ hnext _).mp hmem).2 (lt_irrefl _)
  · rw [List.mem_singleton.mp hnew] at heq
    simp only [newCommentRow] at heq
    exact hnot (List.mem_map.mpr ⟨user, huser, heq⟩)

theorem Authored.not_commentsListed (h : Authored w) {event : Event}
    (hunknown : UnknownAuthor w event) : ¬ CommentsListed (Feeds.step w event).db := by
  obtain ⟨ctx, chanId, postId, cmtId, params, carried, uinfo, rfl, hdone, huinfo, hnot⟩ := hunknown
  rw [step_request_db, (respond_done hdone).1]
  simp only [handle, hdlPostCmtReq, ready_eq_done, withUinfo_eq_done,
    withPost_eq_done, check_eq_done, dbCall_eq_done, Outcome.done.injEq] at hdone
  obtain ⟨_, uinfo', huinfo', chan, _, _, _, added, hdb, rfl⟩ := hdone
  rw [huinfo] at huinfo'
  cases huinfo'
  obtain ⟨post, hpost, hat, hfresh, hadded⟩ := dbAddCmt_eq_some hdb
  dsimp only
  rw [hadded]
  exact h.consistent.counted.not_commentsListed hpost hat (by simpa only [blankCmt] using hnot)

/-- A run keeps every comment in the list of its post exactly as long as comments are posted by
stored users. -/
theorem commentsListed_iff (events : List Event) :
    Always Step (fun w => CommentsListed w.db) (.start Db.init) events ↔
      EachStep Step (fun w event _ => ¬ UnknownAuthor w event) (.start Db.init) events := by
  refine always_iff_eachStep Authored ?_ ?_ ?_ Authored.init events
  · intro w event w' h hstep hknown
    exact step_iff.mp hstep ▸ h.step event hknown
  · intro w h
    exact h.consistent.counted.commentsListed h.nodup h.authors
  · intro w event w' h hstep hunknown
    exact step_iff.mp hstep ▸ h.not_commentsListed (not_not.mp hunknown)

end Runs

end FeedsService.Feeds
