import FeedsService.Feeds.References

/-!
# Which comments answer which

A comment may answer another one of its post.  A new comment answers an earlier
one, since it gets the next id; but `edit_comment` only asks that the comment
which it is made to answer exists, so it may name a later one, or the edited
comment itself.  Threads are trees exactly as long as no edit does.
-/

namespace FeedsService.Feeds

open FeedsService.Library FeedsService.Runs

/-- Every comment answers an earlier one, or none. -/
def AnswersEarlier (db : Db) : Prop :=
  ∀ row ∈ db.comments, row.refcommentId < row.commentId

/-- The event edits a comment, and makes it answer itself or a later one. -/
def RefersAhead (w : World) (event : Event) : Prop :=
  ∃ ctx chanId postId id cmtId params carried,
    event = .request ctx (.editCmt chanId postId id cmtId params) ∧
      handle w ctx (.editCmt chanId postId id cmtId params) = .done carried ∧
      bindInt64 id ≤ bindInt64 cmtId

section Threads

/-- The second comment answers the first. -/
def Answers (db : Db) (answered row : CommentRow) : Prop :=
  row ∈ db.comments ∧ answered ∈ db.comments ∧
    answered.at row.channelId row.postId row.refcommentId = true

/-- Following the answers from a comment comes to an end. -/
theorem AnswersEarlier.acyclic {db : Db} (h : AnswersEarlier db) {row : CommentRow} :
    ¬ Relation.TransGen (Answers db) row row := by
  have hless : ∀ {first last}, Relation.TransGen (Answers db) first last →
      first.commentId < last.commentId := by
    intro first last htrans
    have hstep : ∀ {answered row}, Answers db answered row →
        answered.commentId < row.commentId := by
      rintro answered row ⟨hrow, -, hat⟩
      simp only [CommentRow.at, decide_eq_true_eq] at hat
      rw [hat.2.2]
      exact h row hrow
    induction htrans with
    | single hanswers => exact hstep hanswers
    | tail _ hanswers ih => exact ih.trans (hstep hanswers)
  exact fun htrans => lt_irrefl _ (hless htrans)

end Threads

section Steps

variable {w : World} {ctx : Ctx} {req : Req} {db' : Db}

theorem AnswersEarlier.withLikes {db : Db} (h : AnswersEarlier db) (likes : List LikeRow) :
    AnswersEarlier { db with likes := likes } :=
  h

theorem updLikes_answers (db : Db) (channelId postId commentId change : ℤ)
    (h : AnswersEarlier db) : AnswersEarlier (updLikes db channelId postId commentId change) := by
  unfold updLikes
  split
  · exact forall_updateWhere h fun _ _ _ hrow => hrow
  · exact h

/-- A comment that a new one may answer is an earlier one. -/
theorem Consistent.reply_lt (h : Consistent w) {chanId postId cmtId : UInt64}
    (hok : cmtIdOk w chanId postId cmtId = true) {next : ℤ}
    (hnext : ((bindInt64 chanId, bindInt64 postId), next) ∈ nextCommentIds w.db) :
    bindInt64 cmtId < next := by
  have hpos : 1 ≤ next := h.counted.commentIds.pos _ hnext
  by_cases hzero : bindInt64 cmtId = 0
  · omega
  · have hhas := has_comment.mp (has_of_cmtIdOk hok hzero)
    exact ((h.counted.commentIds.exact _ hnext _).mp hhas).2

/-- Only an edit can make a comment answer a later one. -/
theorem Writes.answersEarlier (hconsistent : Consistent w) (h : AnswersEarlier w.db)
    (hwrites : Writes w ctx req db')
    (hedit : ∀ chanId postId id cmtId params, req = .editCmt chanId postId id cmtId params →
      bindInt64 cmtId < bindInt64 id) : AnswersEarlier db' := by
  cases hwrites with
  | addCmt hreq huinfo hpost hat hok hci huser hreply hcreatedAt =>
      refine List.forall_mem_append.mpr ⟨h, fun row hrow => ?_⟩
      rw [List.mem_singleton.mp hrow]
      simp only [PostRow.at, decide_eq_true_eq] at hat
      simp only [newCommentRow, hreply]
      refine hconsistent.reply_lt hok (List.mem_map.mpr ⟨_, hpost, ?_⟩)
      rw [hat.1, hat.2, hci.1, hci.2]
  | updCmt hreq hci hfound hok hreply hupdAt =>
      refine forall_updateWhere h fun row hrow hat _ => ?_
      simp only [CommentRow.at, decide_eq_true_eq] at hat
      simp only [CommentRow.upd, hreply, hat.2.2, hci.2.2]
      exact hedit _ _ _ _ _ hreq
  | setCmtStatus => exact forall_updateWhere h fun _ _ _ hrow => hrow
  | addLike => exact (updLikes_answers _ _ _ _ 1 h).withLikes _
  | rmLike => exact (updLikes_answers _ _ _ _ (-1) h).withLikes _
  | _ => exact h

/-- An edit that names a later comment leaves its comment answering that one. -/
theorem not_answersEarlier_of_edit {chanId postId id cmtId : UInt64} {params : CmtParams}
    {carried : Done} (hdone : handle w ctx (.editCmt chanId postId id cmtId params) = .done carried)
    (hle : bindInt64 id ≤ bindInt64 cmtId) : ¬ AnswersEarlier carried.world.db := by
  simp only [handle, hdlEditCmtReq, ready_eq_done, withUinfo_eq_done,
    withPost_eq_done, check_eq_done, dbCall_eq_done, Outcome.done.injEq] at hdone
  obtain ⟨_, uinfo, _, chan, _, _, havail, _, _, upd, hdb, rfl⟩ := hdone
  obtain ⟨row, hrow, hfound⟩ := List.any_eq_true.mp havail
  have hat : row.at (bindInt64 chanId) (bindInt64 postId) (bindInt64 id) = true := by
    rw [decide_eq_true_eq] at hfound
    exact hfound.1
  have hcommentId : row.commentId = bindInt64 id := by
    simp only [CommentRow.at, decide_eq_true_eq] at hat
    exact hat.2.2
  intro h
  rw [(dbUpdCmt_eq_some hdb).1] at h
  have hless := h _ <|
    mem_updateWhere.mpr (Or.inr ⟨row, hrow, by simpa only [blankCmt] using hat, rfl⟩)
  simp only [CommentRow.upd, hcommentId] at hless
  omega

end Steps

/-- A run keeps the comments answering earlier ones exactly as long as no edit makes a comment
answer itself or a later one. -/
theorem answersEarlier_iff (events : List Event) :
    Always Step (fun w => AnswersEarlier w.db) (.start Db.init) events ↔
      EachStep Step (fun w event _ => ¬ RefersAhead w event) (.start Db.init) events := by
  refine always_iff_eachStep (fun w => Consistent w ∧ AnswersEarlier w.db) ?_ (fun w h => h.2) ?_
    ⟨Consistent.init, fun _ hrow => absurd hrow List.not_mem_nil⟩ events
  · rintro w event _ ⟨hconsistent, h⟩ hstep hahead
    obtain rfl := step_iff.mp hstep
    refine ⟨Consistent.step w event hconsistent, ?_⟩
    cases event with
    | request ctx req =>
        rw [step_request_db]
        obtain ⟨carried, hdone⟩ | ⟨hsame, -⟩ := respond_cases w ctx req
        · rw [(respond_done hdone).1]
          refine (handle_writes hdone).answersEarlier hconsistent h ?_
          rintro chanId postId id cmtId params rfl
          by_contra hle
          exact hahead ⟨ctx, chanId, postId, id, cmtId, params, carried, rfl, hdone, not_lt.mp hle⟩
        · rwa [hsame]
    | peerOffline | restart => exact h
    | signIn ui now rowid =>
        obtain ⟨users, hdb⟩ := dbUpsertUser_users w.db ui now rowid
        rw [step, hdb]
        exact h
  · rintro w event _ - hstep hahead
    obtain rfl := step_iff.mp hstep
    obtain ⟨ctx, chanId, postId, id, cmtId, params, carried, rfl, hdone, hle⟩ :=
      not_not.mp hahead
    rw [step_request_db, (respond_done hdone).1]
    exact not_answersEarlier_of_edit hdone hle

end FeedsService.Feeds
