import FeedsService.Feeds.Counters
import FeedsService.Feeds.Writes

/-!
# What the rows refer to

The schema declares no foreign keys.  Channels, posts and comments are the things
that rows of the database refer to: a post to its channel, a comment to its post and
to the comment that it answers, a like and a report to what they are about, and a
subscription to a channel.  A request adds at most one thing, under a new key, and
whatever it writes refers to something that was there before.
-/

namespace FeedsService.Feeds

open FeedsService.Library FeedsService.Runs

inductive Entity
  | channel (channelId : ℤ)
  | post (channelId postId : ℤ)
  | comment (channelId postId commentId : ℤ)
  deriving DecidableEq

section Rows

/-- A row with the time of its creation. -/
def ChannelRow.entity (row : ChannelRow) : Entity × ℤ :=
  (.channel row.channelId, row.createdAt)

def PostRow.entity (row : PostRow) : Entity × ℤ :=
  (.post row.channelId row.postId, row.createdAt)

def CommentRow.entity (row : CommentRow) : Entity × ℤ :=
  (.comment row.channelId row.postId row.commentId, row.createdAt)

/-- What a row refers to, with the time since which it does. -/
def PostRow.reference (row : PostRow) : Entity × ℤ :=
  (.channel row.channelId, row.createdAt)

/-- An edit may change the comment that is answered. -/
def CommentRow.references (row : CommentRow) : List (Entity × ℤ) :=
  (.post row.channelId row.postId, row.createdAt) ::
    if row.refcommentId = 0 then []
    else [(.comment row.channelId row.postId row.refcommentId, row.updatedAt)]

def LikeRow.reference (row : LikeRow) : Entity × ℤ :=
  (if row.commentId = 0 then .post row.channelId row.postId
    else .comment row.channelId row.postId row.commentId, row.createdAt)

def SubscriptionRow.reference (row : SubscriptionRow) : Entity × ℤ :=
  (.channel row.channelId, row.createAt)

/-- Post id 0 and comment id 0 pass the checks of a report. -/
def ReportedCommentRow.reference (row : ReportedCommentRow) : Entity × ℤ :=
  (if row.commentId ≠ 0 then .comment row.channelId row.postId row.commentId
    else if 0 < row.postId then .post row.channelId row.postId
    else .channel row.channelId, row.createdAt)

end Rows

def Db.entities (db : Db) : List (Entity × ℤ) :=
  db.channels.map ChannelRow.entity ++ db.posts.map PostRow.entity ++
    db.comments.map CommentRow.entity

def Db.references (db : Db) : List (Entity × ℤ) :=
  db.posts.map PostRow.reference ++ db.comments.flatMap CommentRow.references ++
    db.likes.map LikeRow.reference ++ db.subscriptions.map SubscriptionRow.reference ++
    db.reportedComments.map ReportedCommentRow.reference

/-- The thing is in the database. -/
def Db.Has (db : Db) (entity : Entity) : Prop :=
  entity ∈ db.entities.map Prod.fst

/-- Whatever is referred to is in the database. -/
def Referenced (db : Db) : Prop :=
  ∀ reference ∈ db.references, db.Has reference.1

section Members

variable {db : Db}

theorem has_channel {channelId : ℤ} :
    db.Has (.channel channelId) ↔ ∃ row ∈ db.channels, row.channelId = channelId := by
  simp [Db.Has, Db.entities, ChannelRow.entity, PostRow.entity, CommentRow.entity]

theorem has_post {channelId postId : ℤ} :
    db.Has (.post channelId postId) ↔ (channelId, postId) ∈ postIds db := by
  simp [Db.Has, Db.entities, ChannelRow.entity, PostRow.entity, CommentRow.entity, postIds]

theorem has_comment {channelId postId commentId : ℤ} :
    db.Has (.comment channelId postId commentId) ↔
      ((channelId, postId), commentId) ∈ commentIds db := by
  simp [Db.Has, Db.entities, ChannelRow.entity, PostRow.entity, CommentRow.entity, commentIds,
    and_assoc]

theorem has_of_cmtExists {channelId postId commentId : ℤ}
    (hexists : dbCmtExists db channelId postId commentId = true) :
    db.Has (.comment channelId postId commentId) := by
  obtain ⟨row, hrow, hat⟩ := List.any_eq_true.mp hexists
  simp only [CommentRow.at, decide_eq_true_eq] at hat
  obtain ⟨rfl, rfl, rfl⟩ := hat
  exact has_comment.mpr (List.mem_map_of_mem hrow)

theorem mem_references {reference : Entity × ℤ} :
    reference ∈ db.references ↔
      (∃ row ∈ db.posts, row.reference = reference) ∨
      (∃ row ∈ db.comments, reference ∈ row.references) ∨
      (∃ row ∈ db.likes, row.reference = reference) ∨
      (∃ row ∈ db.subscriptions, row.reference = reference) ∨
      ∃ row ∈ db.reportedComments, row.reference = reference := by
  simp only [Db.references, List.mem_append, List.mem_map, List.mem_flatMap, or_assoc]

end Members

/-- What one request does to the things and the references. -/
structure Extends (db : Db) (now : ℤ) (db' : Db) : Prop where
  entities : ∃ new, db'.entities.Perm (db.entities ++ new) ∧
    ∀ entity ∈ new, ¬ db.Has entity.1 ∧ entity.2 = now
  references : ∀ reference ∈ db'.references,
    reference ∈ db.references ∨ db.Has reference.1 ∧ reference.2 = now

section Tables

variable {db db' : Db} {now : ℤ}

/-- The reference is an old one, or one that is made now. -/
def Known (db : Db) (now : ℤ) (reference : Entity × ℤ) : Prop :=
  reference ∈ db.references ∨ db.Has reference.1 ∧ reference.2 = now

/-- Every row of every table refers to something known. -/
structure Sourced (db : Db) (now : ℤ) (db' : Db) : Prop where
  posts : ∀ row ∈ db'.posts, Known db now row.reference
  comments : ∀ row ∈ db'.comments, ∀ reference ∈ row.references, Known db now reference
  likes : ∀ row ∈ db'.likes, Known db now row.reference
  subscriptions : ∀ row ∈ db'.subscriptions, Known db now row.reference
  reports : ∀ row ∈ db'.reportedComments, Known db now row.reference

theorem entities_congr (hchannels : db'.channels.map ChannelRow.entity =
      db.channels.map ChannelRow.entity)
    (hposts : db'.posts.map PostRow.entity = db.posts.map PostRow.entity)
    (hcomments : db'.comments.map CommentRow.entity = db.comments.map CommentRow.entity) :
    db'.entities = db.entities := by
  rw [Db.entities, hchannels, hposts, hcomments, Db.entities]

theorem Sourced.refl (db : Db) (now : ℤ) : Sourced db now db where
  posts row hrow := Or.inl (mem_references.mpr (Or.inl ⟨row, hrow, rfl⟩))
  comments row hrow _ href :=
    Or.inl (mem_references.mpr (Or.inr (Or.inl ⟨row, hrow, href⟩)))
  likes row hrow := Or.inl (mem_references.mpr (Or.inr (Or.inr (Or.inl ⟨row, hrow, rfl⟩))))
  subscriptions row hrow :=
    Or.inl (mem_references.mpr (Or.inr (Or.inr (Or.inr (Or.inl ⟨row, hrow, rfl⟩)))))
  reports row hrow :=
    Or.inl (mem_references.mpr (Or.inr (Or.inr (Or.inr (Or.inr ⟨row, hrow, rfl⟩)))))

theorem Sourced.known (h : Sourced db now db') {reference : Entity × ℤ}
    (href : reference ∈ db'.references) : Known db now reference := by
  obtain ⟨row, hrow, rfl⟩ | ⟨row, hrow, href⟩ | ⟨row, hrow, rfl⟩ | ⟨row, hrow, rfl⟩ |
    ⟨row, hrow, rfl⟩ := mem_references.mp href
  · exact h.posts row hrow
  · exact h.comments row hrow reference href
  · exact h.likes row hrow
  · exact h.subscriptions row hrow
  · exact h.reports row hrow

/-- What an update keeps of the rows that it changes, it keeps of all of them. -/
theorem forall_updateWhere {ρ : Type} {rows : List ρ} {p : ρ → Bool} {f : ρ → ρ}
    {P : ρ → Prop} (hrows : ∀ row ∈ rows, P row)
    (hf : ∀ row ∈ rows, p row = true → P row → P (f row)) :
    ∀ row ∈ updateWhere rows p f, P row := by
  intro row hrow
  obtain ⟨hold, -⟩ | ⟨old, hold, hp, rfl⟩ := mem_updateWhere.mp hrow
  · exact hrows row hold
  · exact hf old hold hp (hrows old hold)

theorem perm_append_append {α : Type} (first more second more' : List α) :
    (first ++ more ++ (second ++ more')).Perm (first ++ second ++ (more ++ more')) := by
  have hswap : (more ++ (second ++ more')).Perm (second ++ (more ++ more')) :=
    List.perm_append_comm_assoc more second more'
  simpa only [List.append_assoc] using hswap.append_left first

theorem Extends.of_same (hentities : db'.entities = db.entities) (hsourced : Sourced db now db') :
    Extends db now db' where
  entities := ⟨[], by rw [hentities, List.append_nil], fun _ h => absurd h List.not_mem_nil⟩
  references _ href := hsourced.known href

theorem entities_perm (channels posts comments : List (Entity × ℤ))
    (hchannels : db'.channels.map ChannelRow.entity =
      db.channels.map ChannelRow.entity ++ channels)
    (hposts : db'.posts.map PostRow.entity = db.posts.map PostRow.entity ++ posts)
    (hcomments : db'.comments.map CommentRow.entity =
      db.comments.map CommentRow.entity ++ comments) :
    db'.entities.Perm (db.entities ++ (channels ++ posts ++ comments)) := by
  rw [Db.entities, Db.entities, hchannels, hposts, hcomments]
  refine ((perm_append_append _ channels _ posts).append_right _).trans ?_
  exact perm_append_append _ _ _ comments

theorem Extends.of_new (entity : Entity × ℤ)
    (hentities : db'.entities.Perm (db.entities ++ [entity])) (hfresh : ¬ db.Has entity.1)
    (hnow : entity.2 = now) (hsourced : Sourced db now db') : Extends db now db' where
  entities := ⟨[entity], hentities, fun _ h => List.mem_singleton.mp h ▸ ⟨hfresh, hnow⟩⟩
  references _ href := hsourced.known href

theorem updLikes_entities (db : Db) (channelId postId commentId change : ℤ) :
    (updLikes db channelId postId commentId change).entities = db.entities := by
  unfold updLikes
  split
  · exact entities_congr rfl rfl (map_updateWhere fun _ => rfl)
  · exact entities_congr rfl (map_updateWhere fun _ => rfl) rfl

theorem likes_entities (db : Db) (likes : List LikeRow) :
    Db.entities { db with likes := likes } = db.entities :=
  rfl

theorem updLikes_sourced (h : Sourced db now db') (channelId postId commentId change : ℤ) :
    Sourced db now (updLikes db' channelId postId commentId change) := by
  unfold updLikes
  split
  · exact { h with comments := forall_updateWhere h.comments fun _ _ _ hrow => hrow }
  · exact { h with posts := forall_updateWhere h.posts fun _ _ _ hrow => hrow }

end Tables

section Writing

variable {w : World} {ctx : Ctx} {req : Req} {db' : Db}

theorem Consistent.has_chan (h : Consistent w) {chanId : UInt64} {chan : Ref}
    (hchan : w.mem.chanGetById chanId.toNat = some chan) :
    w.db.Has (.channel (bindInt64 chanId)) := by
  obtain ⟨hmem, -, hbind⟩ := h.mirror.mirrors.of_chanGetById h.mirror.few hchan
  exact has_channel.mpr ⟨_, h.mirror.mirrors.row_of_chan hmem, hbind.symm⟩

theorem Consistent.nextPostId_mem (h : Consistent w) {chanId : UInt64} {chan : Ref}
    (hchan : w.mem.chanGetById chanId.toNat = some chan) :
    (bindInt64 chanId, ((w.mem.chan chan).info.nextPostId : ℤ)) ∈ nextPostIds w.db := by
  obtain ⟨hmem, -, hbind⟩ := h.mirror.mirrors.of_chanGetById h.mirror.few hchan
  rw [hbind]
  exact List.mem_map_of_mem (h.mirror.mirrors.row_of_chan hmem)

theorem has_of_cmtIdOk {chanId postId cmtId : UInt64} (hok : cmtIdOk w chanId postId cmtId = true)
    (hne : bindInt64 cmtId ≠ 0) :
    w.db.Has (.comment (bindInt64 chanId) (bindInt64 postId) (bindInt64 cmtId)) := by
  rw [cmtIdOk, Bool.or_eq_true, decide_eq_true_eq] at hok
  have hzero : bindInt64 0 = 0 := bindInt64_of_small (by decide)
  obtain rfl | hexists := hok
  · exact absurd hzero hne
  · exact has_of_cmtExists hexists

/-- A like is stored only where its counter is found. -/
theorem has_of_selectLikes {db : Db} {channelId postId commentId userId now : ℤ} {proof : String}
    (hselect : (selectLikes (updLikes db channelId postId commentId 1) channelId postId
      commentId).isSome) :
    db.Has (newLikeRow userId channelId postId commentId proof now).reference.1 := by
  have hsame : ∀ entity, (updLikes db channelId postId commentId 1).Has entity → db.Has entity := by
    intro entity hhas
    rwa [Db.Has, updLikes_entities] at hhas
  apply hsame
  obtain ⟨likes, hlikes⟩ := Option.isSome_iff_exists.mp hselect
  rw [selectLikes] at hlikes
  split at hlikes
  · rename_i hne
    have hreference : (newLikeRow userId channelId postId commentId proof now).reference.1 =
        .comment channelId postId commentId := if_neg hne
    rw [hreference]
    obtain ⟨row, hfind, -⟩ := Option.map_eq_some_iff.mp hlikes
    exact has_of_cmtExists (List.any_eq_true.mpr
      ⟨row, List.mem_of_find?_eq_some hfind, List.find?_some hfind⟩)
  · rename_i heq
    have hreference : (newLikeRow userId channelId postId commentId proof now).reference.1 =
        .post channelId postId := if_pos (not_not.mp heq)
    rw [hreference]
    obtain ⟨row, hfind, -⟩ := Option.map_eq_some_iff.mp hlikes
    have hat := List.find?_some hfind
    simp only [PostRow.at, decide_eq_true_eq] at hat
    exact has_post.mpr (List.mem_map.mpr
      ⟨row, List.mem_of_find?_eq_some hfind, by rw [hat.1, hat.2]⟩)

theorem extends_addLike {db : Db} {channelId postId commentId userId now : ℤ} {proof : String}
    (hselect : (selectLikes (updLikes db channelId postId commentId 1) channelId postId
      commentId).isSome) :
    Extends db now { updLikes db channelId postId commentId 1 with
      likes := db.likes ++ [newLikeRow userId channelId postId commentId proof now] } := by
  have hold := Sourced.refl db now
  refine .of_same ((likes_entities _ _).trans (updLikes_entities _ _ _ _ _))
    { updLikes_sourced hold channelId postId commentId 1 with
      likes := List.forall_mem_append.mpr ⟨hold.likes, fun row hrow => Or.inr ?_⟩ }
  rw [List.mem_singleton.mp hrow]
  exact ⟨has_of_selectLikes hselect, rfl⟩

theorem bindInt64_of_pos {value : UInt64} (hpos : 0 < bindInt64 value) :
    bindInt64 value = value.toNat := by
  have hlt := value.toNat_lt
  simp only [bindInt64, toInt64, Int.bmod_def] at hpos ⊢
  split <;> omega

theorem has_report {db : Db} {row : ReportedCommentRow}
    (hcomment : row.commentId ≠ 0 → db.Has (.comment row.channelId row.postId row.commentId))
    (hpost : 0 < row.postId → db.Has (.post row.channelId row.postId))
    (hchannel : db.Has (.channel row.channelId)) : db.Has row.reference.1 := by
  unfold ReportedCommentRow.reference
  split
  · exact hcomment ‹_›
  · split
    · exact hpost ‹_›
    · exact hchannel

theorem Consistent.has_reported (h : Consistent w) {chanId postId : UInt64} {chan : Ref}
    (hchan : w.mem.chanGetById chanId.toNat = some chan)
    (hpostId : postId.toNat < (w.mem.chan chan).info.nextPostId) (hpos : 0 < bindInt64 postId) :
    w.db.Has (.post (bindInt64 chanId) (bindInt64 postId)) := by
  have hbind := bindInt64_of_pos hpos
  have hnext := h.nextPostId_mem hchan
  generalize bindInt64 postId = id at hpos hbind ⊢
  generalize bindInt64 chanId = channelId at hnext ⊢
  have hrange : 1 ≤ id ∧ id < ((w.mem.chan chan).info.nextPostId : ℤ) := by omega
  exact has_post.mpr ((h.counted.postIds.exact _ hnext id).mpr hrange)

/-- Whatever a request writes, it adds at most one thing, and refers to what was
there. -/
theorem Writes.extends (hconsistent : Consistent w) (hreferenced : Referenced w.db)
    (h : Writes w ctx req db') : Extends w.db ctx.now db' := by
  have hold := Sourced.refl w.db ctx.now
  cases h with
  | nothing => exact .of_same rfl hold
  | @addChannel ci hcreatedAt =>
      refine .of_new (newChannelRow (w.db.channelsSeq + 1) ci).entity ?_ ?_ hcreatedAt
        { hold with }
      · refine entities_perm [_] [] [] ?_ ?_ ?_
        · exact List.map_append
        · exact (List.append_nil _).symm
        · exact (List.append_nil _).symm
      · intro hhas
        obtain ⟨row, hrow, hid⟩ := has_channel.mp hhas
        simp only [newChannelRow] at hid
        have hbounds := hconsistent.mirror.mirrors.id_bounds hrow
        have hseq := hconsistent.mirror.channelsSeq
        omega
  | updChannel hupdAt =>
      exact .of_same (entities_congr (map_updateWhere fun _ => rfl) rfl rfl) { hold with }
  | @addPost chanId chan pi hchan hchanId hpostId hcreatedAt =>
      have hnext := hconsistent.nextPostId_mem hchan
      rw [← hchanId, ← hpostId] at hnext
      refine .of_new (newPostRow pi).entity ?_ ?_ hcreatedAt { hold with posts := ?_ }
      · refine entities_perm [] [_] [] ?_ ?_ ?_
        · rw [List.append_nil]
          exact map_updateWhere fun _ => rfl
        · exact List.map_append
        · exact (List.append_nil _).symm
      · intro hhas
        have hrange := (hconsistent.counted.postIds.exact _ hnext pi.postId).mp (has_post.mp hhas)
        exact absurd hrange.2 (lt_irrefl _)
      · rw [List.forall_mem_append]
        refine ⟨hold.posts, fun row hrow => Or.inr ?_⟩
        rw [List.mem_singleton.mp hrow]
        have hhas := hconsistent.has_chan hchan
        rw [← hchanId] at hhas
        exact ⟨hhas, hcreatedAt⟩
  | setPostStatus =>
      refine .of_same (entities_congr rfl (map_updateWhere fun _ => rfl) rfl)
        { hold with posts := ?_ }
      exact forall_updateWhere hold.posts fun _ _ _ hrow => hrow
  | updPost hupdAt =>
      refine .of_same (entities_congr rfl (map_updateWhere fun _ => rfl) rfl)
        { hold with posts := ?_ }
      exact forall_updateWhere hold.posts fun _ _ _ hrow => hrow
  | @addCmt chanId postId cmtId params uinfo post ci hreq huinfo hpost hat hok hci huser hreply
      hcreatedAt =>
      simp only [PostRow.at, decide_eq_true_eq] at hat
      have hnext : ((ci.chanId, ci.postId), post.nextCommentId) ∈ nextCommentIds w.db :=
        List.mem_map.mpr ⟨post, hpost, by rw [hat.1, hat.2]⟩
      refine .of_new (newCommentRow post.nextCommentId ci).entity ?_ ?_ hcreatedAt
        { hold with posts := ?_, comments := ?_ }
      · refine entities_perm [] [] [_] ?_ ?_ ?_
        · exact (List.append_nil _).symm
        · rw [List.append_nil]
          exact map_updateWhere fun _ => rfl
        · exact List.map_append
      · intro hhas
        have hrange := (hconsistent.counted.commentIds.exact _ hnext post.nextCommentId).mp
          (has_comment.mp hhas)
        exact absurd hrange.2 (lt_irrefl _)
      · exact forall_updateWhere hold.posts fun _ _ _ hrow => hrow
      · rw [List.forall_mem_append]
        refine ⟨hold.comments, fun row hrow reference href => Or.inr ?_⟩
        rw [List.mem_singleton.mp hrow, CommentRow.references, List.mem_cons] at href
        obtain rfl | href := href
        · refine ⟨has_post.mpr (List.mem_map.mpr ⟨post, hpost, ?_⟩), hcreatedAt⟩
          rw [hat.1, hat.2]
          rfl
        · split at href
          · exact absurd href List.not_mem_nil
          · rename_i hne
            rw [List.mem_singleton.mp href]
            simp only [newCommentRow, hreply, hci.1, hci.2] at hne ⊢
            exact ⟨has_of_cmtIdOk hok hne, hcreatedAt⟩
  | @updCmt chanId postId id cmtId params ci hreq hci hfound hok hreply hupdAt =>
      refine .of_same (entities_congr rfl rfl (map_updateWhere fun _ => rfl))
        { hold with comments := forall_updateWhere hold.comments ?_ }
      intro row hrow hat hknown reference href
      rw [CommentRow.references, List.mem_cons] at href
      obtain rfl | href := href
      · exact hknown _ List.mem_cons_self
      · split at href
        · exact absurd href List.not_mem_nil
        · rename_i hne
          rw [List.mem_singleton.mp href]
          simp only [CommentRow.at, decide_eq_true_eq] at hat
          simp only [CommentRow.upd, hreply, hat.1, hat.2.1, hci.1, hci.2.1] at hne ⊢
          exact Or.inr ⟨has_of_cmtIdOk hok hne, hupdAt⟩
  | @setCmtStatus ci hupdAt =>
      refine .of_same (entities_congr rfl rfl (map_updateWhere fun _ => rfl))
        { hold with comments := forall_updateWhere hold.comments ?_ }
      intro row hrow hat hknown reference href
      rw [CommentRow.references, List.mem_cons] at href
      obtain rfl | href := href
      · exact hknown _ List.mem_cons_self
      · split at href
        · exact absurd href List.not_mem_nil
        · rename_i hne
          rw [List.mem_singleton.mp href]
          have hreply : row.refcommentId ≠ 0 := hne
          have href : (.comment row.channelId row.postId row.refcommentId, row.updatedAt) ∈
              row.references := by simp [CommentRow.references, hreply]
          have hhas := hreferenced _ (mem_references.mpr (Or.inr (Or.inl ⟨row, hrow, href⟩)))
          exact Or.inr ⟨hhas, hupdAt⟩
  | addLike huinfo hselect => exact extends_addLike hselect
  | @rmLike userId channelId postId commentId =>
      refine .of_same ((likes_entities _ _).trans (updLikes_entities _ _ _ _ _))
        { updLikes_sourced hold channelId postId commentId (-1) with likes := ?_ }
      intro row hrow
      rw [dbRmLike, updLikes_likes] at hrow
      exact hold.likes row (mem_deleteWhere.mp hrow).1
  | addSub huinfo hchan =>
      refine .of_same (entities_congr (map_updateWhere fun _ => rfl) rfl rfl)
        { hold with
          subscriptions := List.forall_mem_append.mpr
            ⟨hold.subscriptions, fun row hrow => Or.inr ?_⟩ }
      rw [List.mem_singleton.mp hrow]
      simp only [SubscriptionRow.reference, newSubscriptionRow]
      exact ⟨hconsistent.has_chan hchan, trivial⟩
  | rmSub =>
      refine .of_same (entities_congr (map_updateWhere fun _ => rfl) rfl rfl)
        { hold with subscriptions := fun row hrow => ?_ }
      exact hold.subscriptions row (mem_deleteWhere.mp hrow).1
  | updUser => exact .of_same rfl { hold with }
  | @report chanId postId cmtId chan uinfo reasons huinfo hchan hpostId hok =>
      have hcomment := has_of_cmtIdOk hok
      have hpost := hconsistent.has_reported hchan hpostId
      have hchannel := hconsistent.has_chan hchan
      generalize bindInt64 chanId = channelId at hcomment hpost hchannel ⊢
      generalize bindInt64 postId = postId at hcomment hpost ⊢
      generalize bindInt64 cmtId = commentId at hcomment ⊢
      generalize bindInt64 uinfo.uid = reporterId
      refine .of_same rfl
        { hold with
          reports := List.forall_mem_append.mpr ⟨fun row hrow => ?_, fun row hrow => Or.inr ?_⟩ }
      · exact hold.reports row (mem_deleteWhere.mp hrow).1
      · rw [List.mem_singleton.mp hrow]
        exact ⟨has_report hcomment hpost hchannel, rfl⟩

end Writing

section Runs

variable {db db' : Db} {now : ℤ}

theorem Extends.has (h : Extends db now db') {entity : Entity} (hhas : db.Has entity) :
    db'.Has entity := by
  obtain ⟨new, hperm, -⟩ := h.entities
  have hmap := hperm.map Prod.fst
  rw [List.map_append] at hmap
  exact hmap.mem_iff.mpr (List.mem_append_left _ hhas)

theorem Referenced.extends (h : Referenced db) (hextends : Extends db now db') :
    Referenced db' := by
  intro reference href
  obtain hold | ⟨hhas, -⟩ := hextends.references reference href
  · exact hextends.has (h reference hold)
  · exact hextends.has hhas

theorem dbUpsertUser_users (db : Db) (ui : UserInfo) (now rowid : ℤ) :
    ∃ users, (dbUpsertUser db ui now rowid).getD db = { db with users := users } := by
  unfold dbUpsertUser
  split
  · exact ⟨_, rfl⟩
  · split
    · exact ⟨db.users, rfl⟩
    · exact ⟨_, rfl⟩

theorem Extends.refl (db : Db) (now : ℤ) : Extends db now db :=
  .of_same rfl (Sourced.refl db now)

/-- An event other than a request leaves the things and the references alone. -/
theorem extends_of_users (db : Db) (users : List UserRow) (now : ℤ) :
    Extends db now { db with users := users } :=
  .of_same rfl { Sourced.refl db now with }

/-- What an invariant of the things and the references is checked against. -/
structure Stored (w : World) : Prop where
  consistent : Consistent w
  referenced : Referenced w.db

theorem Stored.init : Stored (.start Db.init) :=
  ⟨.init, fun _ href => absurd href (by simp [World.start, Db.references, Db.init])⟩

/-- The time of an event; offline peers and restarts have none. -/
def Event.time : Event → Option ℤ
  | .request ctx _ => some ctx.now
  | .signIn _ now _ => some now
  | .peerOffline _ => none
  | .restart => none

theorem Stored.extends {w : World} (h : Stored w) (event : Event) (now : ℤ)
    (hnow : ∀ time, event.time = some time → time = now) : Extends w.db now (step w event).db := by
  cases event with
  | request ctx req =>
      have htime : ctx.now = now := hnow _ rfl
      exact htime ▸ (step_writes w ctx req).extends h.consistent h.referenced
  | peerOffline nodeId => exact .refl _ _
  | signIn ui time rowid =>
      obtain ⟨users, hdb⟩ := dbUpsertUser_users w.db ui time rowid
      rw [step, hdb]
      exact extends_of_users _ _ _
  | restart => exact .refl _ _

theorem Stored.step {w : World} (h : Stored w) (event : Event) : Stored (step w event) := by
  refine ⟨Consistent.step w event h.consistent, ?_⟩
  refine h.referenced.extends (h.extends event (event.time.getD 0) ?_)
  intro time htime
  rw [htime, Option.getD_some]

theorem Stored.perform {w : World} (h : Stored w) (events : List Event) :
    Stored (perform w events) := by
  induction events generalizing w with
  | nil => exact h
  | cons event events ih => exact ih (h.step event)

/-- In every state of every run, whatever a row refers to is in the database. -/
theorem referenced_always (events : List Event) :
    Always Step (fun w => Referenced w.db) (.start Db.init) events :=
  (always_of_preserved (fun _ event _ h hstep => step_iff.mp hstep ▸ h.step event) Stored.init
    events).mono fun _ h => h.referenced

/-- A run adds things and removes none. -/
theorem Stored.entities_perform {w : World} (h : Stored w) (events : List Event) :
    ∃ new, (Feeds.perform w events).db.entities.Perm (w.db.entities ++ new) := by
  induction events generalizing w with
  | nil => exact ⟨[], by rw [List.append_nil]; rfl⟩
  | cons event events ih =>
      have hextends := h.extends event (event.time.getD 0) fun time htime => by
        rw [htime, Option.getD_some]
      obtain ⟨first, hfirst, -⟩ := hextends.entities
      obtain ⟨later, hlater⟩ := ih (h.step event)
      refine ⟨first ++ later, hlater.trans ?_⟩
      rw [← List.append_assoc]
      exact hfirst.append_right later

theorem Consistent.nodup_entities {w : World} (h : Consistent w) :
    (w.db.entities.map Prod.fst).Nodup := by
  have hchannels : (w.db.channels.map fun row => Entity.channel row.channelId).Nodup := by
    have hids := h.mirror.mirrors.nodup_ids.map (f := Entity.channel)
      fun _ _ heq => Entity.channel.inj heq
    rwa [List.map_map] at hids
  have hposts : (w.db.posts.map fun row => Entity.post row.channelId row.postId).Nodup := by
    have hids := h.countersExact.onePost.map (f := fun key : ℤ × ℤ => Entity.post key.1 key.2)
      fun _ _ heq => Prod.ext_iff.mpr (Entity.post.inj heq)
    rwa [List.map_map] at hids
  have hcomments : (w.db.comments.map fun row =>
      Entity.comment row.channelId row.postId row.commentId).Nodup := by
    have hids := h.countersExact.oneComment.map
      (f := fun key : ℤ × ℤ × ℤ => Entity.comment key.1 key.2.1 key.2.2) fun left right heq => by
        simpa [Prod.ext_iff] using heq
    rwa [List.map_map] at hids
  rw [Db.entities, List.map_append, List.map_append, List.map_map, List.map_map, List.map_map]
  refine List.nodup_append.mpr ⟨List.nodup_append.mpr ⟨hchannels, hposts, ?_⟩, hcomments, ?_⟩
  · intro left hleft right hright heq
    obtain ⟨row, -, rfl⟩ := List.mem_map.mp hleft
    obtain ⟨post, -, rfl⟩ := List.mem_map.mp hright
    cases heq
  · intro left hleft right hright heq
    obtain ⟨cmt, -, rfl⟩ := List.mem_map.mp hright
    obtain hleft | hleft := List.mem_append.mp hleft
    · obtain ⟨row, -, rfl⟩ := List.mem_map.mp hleft
      cases heq
    · obtain ⟨post, -, rfl⟩ := List.mem_map.mp hleft
      cases heq

/-- A channel, a post or a comment stays in the database for good under its key and with the time
of its creation, and no key is given out twice. -/
theorem entities_permanent (before after : List Event) :
    (∃ new, (perform (.start Db.init) (before ++ after)).db.entities.Perm
        ((perform (.start Db.init) before).db.entities ++ new)) ∧
      ((perform (.start Db.init) (before ++ after)).db.entities.map Prod.fst).Nodup := by
  have hbefore : Stored (perform (.start Db.init) before) := Stored.init.perform before
  have happend : perform (.start Db.init) (before ++ after) =
      perform (perform (.start Db.init) before) after := List.foldl_append
  rw [happend]
  exact ⟨hbefore.entities_perform after, (hbefore.perform after).consistent.nodup_entities⟩

end Runs

end FeedsService.Feeds
