import FeedsService.Feeds.Counters
import FeedsService.Library.Evolution

/-!
# The life cycle of comments

A comment is available, deleted or blocked.  The handlers that block and unblock a
comment let every stored comment through, also a deleted one: these are the only
steps that leave the life cycle.
-/

namespace FeedsService.Feeds

open FeedsService.Library FeedsService.Runs

section Statuses

/-- No row has a status outside the ones that handlers set. -/
structure StatusesKnown (db : Db) : Prop where
  posts : ∀ row ∈ db.posts, row.status ≠ .wrongStat
  comments : ∀ row ∈ db.comments, row.status ≠ .wrongStat

namespace StatusesKnown

variable {db : Db}

theorem init : StatusesKnown Db.init := by
  constructor <;> simp [Db.init]

theorem updatePosts (h : StatusesKnown db) {p : PostRow → Bool} {f : PostRow → PostRow}
    (hf : ∀ row, row.status ≠ .wrongStat → (f row).status ≠ .wrongStat) :
    ∀ row ∈ updateWhere db.posts p f, row.status ≠ .wrongStat := by
  intro row hrow
  rcases mem_updateWhere.mp hrow with ⟨hold, _⟩ | ⟨old, hold, _, rfl⟩
  · exact h.posts row hold
  · exact hf old (h.posts old hold)

theorem updateComments (h : StatusesKnown db) {p : CommentRow → Bool}
    {f : CommentRow → CommentRow}
    (hf : ∀ row, row.status ≠ .wrongStat → (f row).status ≠ .wrongStat) :
    ∀ row ∈ updateWhere db.comments p f, row.status ≠ .wrongStat := by
  intro row hrow
  rcases mem_updateWhere.mp hrow with ⟨hold, _⟩ | ⟨old, hold, _, rfl⟩
  · exact h.comments row hold
  · exact hf old (h.comments old hold)

theorem updLikes (h : StatusesKnown db) (channelId postId commentId change : ℤ) :
    StatusesKnown (updLikes db channelId postId commentId change) := by
  unfold Feeds.updLikes
  split
  · exact ⟨h.posts, h.updateComments fun _ hrow => hrow⟩
  · exact ⟨h.updatePosts fun _ hrow => hrow, h.comments⟩

theorem sameContents {db' : Db} (h : StatusesKnown db) (hsame : SameContents db db') :
    StatusesKnown db' := by
  rw [hsame.eq]
  exact ⟨h.posts, h.comments⟩

theorem effect {w w' : World} {ctx : Ctx} {req : Req} (h : StatusesKnown w.db)
    (heffect : Effect w ctx req w') : StatusesKnown w'.db := by
  cases heffect with
  | createChan hfew hid hupdAt hsubs hnextPostId hstatus hname hdb =>
      rw [dbCreateChan_eq_some hdb]
      exact ⟨h.posts, h.comments⟩
  | updChan hreq hready howner hid hciName hchan hcreatedAt hsubs hnextPostId hstatus hname
      hdb =>
      rw [dbUpdChan_eq_some hdb]
      exact ⟨h.posts, h.comments⟩
  | addPost hchan hchanId hpostId hstat hdb =>
      rw [dbAddPost_eq_some hdb]
      refine ⟨fun row hrow => ?_, h.comments⟩
      rcases List.mem_append.mp hrow with hold | hnew
      · exact h.posts row hold
      · rw [List.mem_singleton.mp hnew, newPostRow]
        rcases hstat with hstat | hstat <;> simp [hstat]
  | setPostStatus hstat hdb =>
      rw [dbSetPostStatus_eq_some hdb]
      refine ⟨h.updatePosts fun row _ => ?_, h.comments⟩
      rcases hstat with hstat | hstat <;> simp [hstat]
  | updPost hdb =>
      rw [dbUpdPost_eq_some hdb]
      exact ⟨h.updatePosts fun row hrow => by simpa [PostRow.upd] using hrow, h.comments⟩
  | addCmt hdb =>
      obtain ⟨post, _, _, _, hadded⟩ := dbAddCmt_eq_some hdb
      rw [hadded]
      refine ⟨h.updatePosts fun _ hrow => hrow, fun row hrow => ?_⟩
      rcases List.mem_append.mp hrow with hold | hnew
      · exact h.comments row hold
      · rw [List.mem_singleton.mp hnew, newCommentRow]
        simp
  | updCmt hreq hci havail hdb =>
      rw [(dbUpdCmt_eq_some hdb).1]
      exact ⟨h.posts, h.updateComments fun row hrow => by simpa [CommentRow.upd] using hrow⟩
  | setCmtStatus hchecked hci hreq hdb =>
      rw [(dbSetCmtStatus_eq_some hdb).1]
      refine ⟨h.posts, h.updateComments fun row _ => ?_⟩
      rw [CommentRow.setStatus]
      rcases hreq with ⟨_, hstat, _⟩ | ⟨_, hstat⟩ | ⟨_, hstat⟩ <;> simp [hstat]
  | addLike hnot hdb =>
      obtain ⟨row, _, _, _, hadded⟩ := dbAddLike_eq_some hdb
      rw [hadded]
      exact ⟨(h.updLikes ..).posts, (h.updLikes ..).comments⟩
  | rmLike hlike =>
      have hupd := h.updLikes
      exact ⟨(hupd ..).posts, (hupd ..).comments⟩
  | subChan hchan hnot hdb =>
      obtain ⟨_, rfl⟩ := dbAddSub_eq_some hdb
      exact ⟨h.posts, h.comments⟩
  | unsubChan hchan hsub => exact ⟨h.posts, h.comments⟩
  | sameContents hsame => exact h.sameContents hsame
  | _ => exact h

theorem step {w : World} (h : StatusesKnown w.db) (event : Event) :
    StatusesKnown (step w event).db := by
  refine step_preserves (P := fun w => StatusesKnown w.db) (fun w ctx req carried h hdone => ?_)
    (fun _ _ h => h) (fun w ui now rowid h => ?_) (fun _ h => h) w event h
  · exact h.effect (handle_effect hdone)
  · exact h.sameContents (dbUpsertUser_same w.db ui now rowid)

end StatusesKnown

/-- A world that a run can reach: the database is consistent and its statuses are known. -/
structure Sound (w : World) : Prop where
  consistent : Consistent w
  statuses : StatusesKnown w.db

theorem Sound.init : Sound (.start Db.init) :=
  ⟨Consistent.init, StatusesKnown.init⟩

theorem Sound.step {w w' : World} {event : Event} (h : Sound w) (hstep : Step w event w') :
    Sound w' := by
  rw [← step_iff.mp hstep]
  exact ⟨h.consistent.step w event, h.statuses.step event⟩

theorem Sound.reachable (events : List Event) : Always Step Sound (.start Db.init) events :=
  always_of_preserved (fun _ _ _ h hstep => h.step hstep) Sound.init events

end Statuses

section LifeCycle

def CommentRow.key (row : CommentRow) : ℤ × ℤ × ℤ :=
  (row.channelId, row.postId, row.commentId)

/-- What the author has written. -/
def CommentRow.body (row : CommentRow) : Bytes × Bytes × String × String × ℤ :=
  (row.content, row.thumbnails, row.hashId, row.proof, row.refcommentId)

/-- The row that the ids of a request address. -/
def CommentRow.Addressed (row : CommentRow) (chanId postId cmtId : UInt64) : Prop :=
  row.key = (bindInt64 chanId, bindInt64 postId, bindInt64 cmtId)

/-- The changes of the status of a row that the life cycle knows. -/
inductive StatusChange (row : CommentRow) : Event → CmtStat → Prop
  | delete {ctx : Ctx} {chanId postId cmtId : UInt64}
      (hrow : row.Addressed chanId postId cmtId) (hold : row.status = .available) :
      StatusChange row (.request ctx (.delCmt chanId postId cmtId)) .deleted
  | block {ctx : Ctx} {chanId postId cmtId : UInt64}
      (hrow : row.Addressed chanId postId cmtId) (hold : row.status = .available) :
      StatusChange row (.request ctx (.blockCmt chanId postId cmtId)) .blocked
  | unblock {ctx : Ctx} {chanId postId cmtId : UInt64}
      (hrow : row.Addressed chanId postId cmtId) (hold : row.status = .blocked) :
      StatusChange row (.request ctx (.unblockCmt chanId postId cmtId)) .available

/-- A row is edited while it is available. -/
inductive BodyChange (row : CommentRow) : Event → Prop
  | edit {ctx : Ctx} {chanId postId id cmtId : UInt64} {params : CmtParams}
      (hrow : row.Addressed chanId postId id) (hold : row.status = .available) :
      BodyChange row (.request ctx (.editCmt chanId postId id cmtId params))

/-- Every stored comment stays, and only changes in the ways of the life cycle. -/
structure LifeCycle (db : Db) (event : Event) (db' : Db) : Prop where
  kept : ∀ old ∈ db.comments, ∃ new ∈ db'.comments, new.key = old.key
  status : ∀ old ∈ db.comments, ∀ new ∈ db'.comments, new.key = old.key →
    new.status ≠ old.status → StatusChange old event new.status
  body : ∀ old ∈ db.comments, ∀ new ∈ db'.comments, new.key = old.key →
    new.body ≠ old.body → BodyChange old event

variable {db db' : Db} {event : Event}

theorem Counted.eq_of_commentKey (h : Counted db) {left right : CommentRow}
    (hleft : left ∈ db.comments) (hright : right ∈ db.comments)
    (hkey : left.key = right.key) : left = right := by
  refine List.inj_on_of_nodup_map h.commentKeys hleft hright ?_
  simp only [CommentRow.key, Prod.mk.injEq] at hkey
  simp [hkey]

theorem addressed_of_at {row : CommentRow} {ci : CmtInfo} {chanId postId cmtId : UInt64}
    (hci : ci.At chanId postId cmtId) (hat : row.at ci.chanId ci.postId ci.cmtId = true) :
    row.Addressed chanId postId cmtId := by
  obtain ⟨hchanId, hpostId, hcmtId⟩ := hci
  simp only [CommentRow.at, decide_eq_true_eq] at hat
  rw [CommentRow.Addressed, CommentRow.key, hat.1, hat.2.1, hat.2.2, hchanId, hpostId, hcmtId]

theorem CommentRow.Addressed.at_eq {row : CommentRow} {chanId postId cmtId : UInt64}
    (h : row.Addressed chanId postId cmtId) :
    row.at (bindInt64 chanId) (bindInt64 postId) (bindInt64 cmtId) = true := by
  simp only [CommentRow.Addressed, CommentRow.key, Prod.mk.injEq] at h
  simp only [CommentRow.at, h, and_self, decide_true]

theorem CommentRow.Addressed.exists {row : CommentRow} {chanId postId cmtId : UInt64}
    (h : row.Addressed chanId postId cmtId) (hrow : row ∈ db.comments) :
    dbCmtExists db (bindInt64 chanId) (bindInt64 postId) (bindInt64 cmtId) = true :=
  List.any_eq_true.mpr ⟨row, hrow, h.at_eq⟩

/-- The available row that `db_cmt_is_avail` finds is the one with these ids. -/
theorem Counted.available (h : Counted db) {channelId postId commentId : ℤ}
    (havail : dbCmtIsAvail db channelId postId commentId = true) {row : CommentRow}
    (hrow : row ∈ db.comments) (hat : row.at channelId postId commentId = true) :
    row.status = .available := by
  obtain ⟨other, hother, hfound⟩ := List.any_eq_true.mp havail
  simp only [Bool.decide_and, Bool.decide_eq_true, Bool.and_eq_true,
    decide_eq_true_eq] at hfound
  have hkey : other.key = row.key := by
    have hotherAt := hfound.1
    simp only [CommentRow.at, decide_eq_true_eq] at hotherAt hat
    simp only [CommentRow.key, hotherAt, hat]
  rw [← h.eq_of_commentKey hother hrow hkey]
  exact hfound.2

/-- The primary key keeps a new comment apart from the stored ones. -/
theorem newCommentRow_key_ne {commentId : ℤ} {ci : CmtInfo}
    (hany : db.comments.any (CommentRow.at ci.chanId ci.postId commentId) = false)
    {old : CommentRow} (hold : old ∈ db.comments) :
    (newCommentRow commentId ci).key ≠ old.key := by
  intro hsame
  rw [List.any_eq_false] at hany
  apply hany old hold
  simp only [CommentRow.key, newCommentRow, Prod.mk.injEq] at hsame
  simp [CommentRow.at, hsame]

/-- What an event may make of a stored comment. -/
structure CommentChange (event : Event) (old new : CommentRow) : Prop where
  status : new.status ≠ old.status → StatusChange old event new.status
  body : new.body ≠ old.body → BodyChange old event

theorem CommentChange.of_same {old new : CommentRow} (hstatus : new.status = old.status)
    (hbody : new.body = old.body) : CommentChange event old new :=
  ⟨fun hne => absurd hstatus hne, fun hne => absurd hbody hne⟩

theorem Counted.nodup_commentKeys (h : Counted db) :
    (db.comments.map CommentRow.key).Nodup := by
  apply List.Nodup.of_map fun key => ((key.1, key.2.1), key.2.2)
  rw [List.map_map]
  exact h.commentKeys

theorem LifeCycle.of_evolves
    (h : Evolves CommentRow.key (CommentChange event) (fun _ => True) db.comments db'.comments) :
    LifeCycle db event db' where
  kept := h.kept
  status old hold new hnew hkey := (h.related old hold new hnew hkey).status
  body old hold new hnew hkey := (h.related old hold new hnew hkey).body

/-- An update of some comments. -/
theorem LifeCycle.of_updateWhere (h : Counted db) {p : CommentRow → Bool}
    {f : CommentRow → CommentRow} (hcomments : db'.comments = updateWhere db.comments p f)
    (hkey : ∀ row, (f row).key = row.key)
    (hchange : ∀ row ∈ db.comments, p row = true → CommentChange event row (f row)) :
    LifeCycle db event db' :=
  .of_evolves (.of_updateWhere h.nodup_commentKeys hcomments hkey
    (fun _ _ => .of_same rfl rfl) hchange)

theorem LifeCycle.of_same (h : Counted db) (hcomments : db'.comments = db.comments) :
    LifeCycle db event db' :=
  .of_evolves (.of_eq h.nodup_commentKeys hcomments fun _ _ => .of_same rfl rfl)

/-- A block or unblock request that passes the checks of its handler and addresses a
deleted comment. -/
def TouchesDeleted (w : World) (event : Event) : Prop :=
  ∃ ctx chanId postId cmtId,
    (event = .request ctx (.blockCmt chanId postId cmtId) ∨
      event = .request ctx (.unblockCmt chanId postId cmtId)) ∧
    StatusCheck w ctx chanId postId cmtId ∧
    ∃ row ∈ w.db.comments, row.Addressed chanId postId cmtId ∧ row.status = .deleted

theorem LifeCycle.of_updLikes (h : Counted db) (channelId postId commentId change : ℤ)
    (hcomments : db'.comments = (updLikes db channelId postId commentId change).comments) :
    LifeCycle db event db' := by
  unfold updLikes at hcomments
  split at hcomments
  · exact .of_updateWhere h hcomments (fun _ => rfl) fun _ _ _ => .of_same rfl rfl
  · exact .of_same h hcomments

/-- The status that a request sets, unless it touches a deleted comment. -/
theorem LifeCycle.of_setStatus {w : World} {ctx : Ctx} {req : Req} (h : Counted w.db)
    (hknown : StatusesKnown w.db) (hkept : ¬ TouchesDeleted w (.request ctx req))
    {chanId postId cmtId : UInt64} {ci : CmtInfo} {set : CmtInfo × Db}
    (hchecked : StatusCheck w ctx chanId postId cmtId) (hci : ci.At chanId postId cmtId)
    (hreq : (req = .delCmt chanId postId cmtId ∧ ci.stat = .deleted ∧
        dbCmtIsAvail w.db ci.chanId ci.postId ci.cmtId = true) ∨
      (req = .blockCmt chanId postId cmtId ∧ ci.stat = .blocked) ∨
      (req = .unblockCmt chanId postId cmtId ∧ ci.stat = .available))
    (hdb : dbSetCmtStatus w.db ci = some set) :
    LifeCycle w.db (.request ctx req) set.2 := by
  have hcomments := congrArg Db.comments (dbSetCmtStatus_eq_some hdb).1
  refine .of_updateWhere h hcomments (fun _ => rfl) fun row hrow hat =>
    ⟨fun hne => ?_, fun hne => absurd rfl hne⟩
  have haddressed := addressed_of_at hci hat
  simp only [CommentRow.setStatus] at hne ⊢
  have hnotDeleted : req = .blockCmt chanId postId cmtId ∨
      req = .unblockCmt chanId postId cmtId → row.status ≠ .deleted := by
    intro hkind hdeleted
    refine hkept ⟨ctx, chanId, postId, cmtId, ?_, hchecked, row, hrow, haddressed, hdeleted⟩
    rcases hkind with rfl | rfl
    · exact .inl rfl
    · exact .inr rfl
  have hknownRow := hknown.comments row hrow
  rcases hreq with ⟨rfl, hstat, havail⟩ | ⟨rfl, hstat⟩ | ⟨rfl, hstat⟩
  · rw [hstat]
    exact .delete haddressed (h.available havail hrow hat)
  · rw [hstat] at hne ⊢
    refine .block haddressed ?_
    have hother := hnotDeleted (.inl rfl)
    cases hold : row.status <;> simp_all
  · rw [hstat] at hne ⊢
    refine .unblock haddressed ?_
    have hother := hnotDeleted (.inr rfl)
    cases hold : row.status <;> simp_all

theorem LifeCycle.effect {w w' : World} {ctx : Ctx} {req : Req} (h : Counted w.db)
    (hknown : StatusesKnown w.db) (hkept : ¬ TouchesDeleted w (.request ctx req))
    (heffect : Effect w ctx req w') : LifeCycle w.db (.request ctx req) w'.db := by
  cases heffect with
  | createChan hfew hid hupdAt hsubs hnextPostId hstatus hname hdb =>
      exact .of_same h (by rw [dbCreateChan_eq_some hdb])
  | updChan hreq hready howner hid hciName hchan hcreatedAt hsubs hnextPostId hstatus hname
      hdb =>
      exact .of_same h (by rw [dbUpdChan_eq_some hdb])
  | addPost hchan hchanId hpostId hstat hdb =>
      exact .of_same h (by rw [dbAddPost_eq_some hdb])
  | setPostStatus hstat hdb => exact .of_same h (by rw [dbSetPostStatus_eq_some hdb])
  | updPost hdb => exact .of_same h (by rw [dbUpdPost_eq_some hdb])
  | addCmt hdb =>
      obtain ⟨post, _, _, hnew, hadded⟩ := dbAddCmt_eq_some hdb
      exact .of_evolves (.of_append h.nodup_commentKeys (congrArg Db.comments hadded)
        (fun old hold => newCommentRow_key_ne hnew hold) (fun _ _ => .of_same rfl rfl) trivial)
  | updCmt hreq hci havail hdb =>
      have hcomments := congrArg Db.comments (dbUpdCmt_eq_some hdb).1
      refine .of_updateWhere h hcomments (fun _ => rfl) fun row hrow hat =>
        ⟨fun hne => absurd rfl hne, fun _ => ?_⟩
      rw [hreq]
      exact .edit (addressed_of_at hci hat) (h.available havail hrow hat)
  | setCmtStatus hchecked hci hreq hdb =>
      exact .of_setStatus h hknown hkept hchecked hci hreq hdb
  | addLike hnot hdb =>
      obtain ⟨row, _, _, _, hadded⟩ := dbAddLike_eq_some hdb
      exact .of_updLikes h _ _ _ _ (by rw [hadded])
  | rmLike hlike => exact .of_updLikes h _ _ _ _ rfl
  | subChan hchan hnot hdb =>
      obtain ⟨_, rfl⟩ := dbAddSub_eq_some hdb
      exact .of_same h rfl
  | unsubChan hchan hsub => exact .of_same h rfl
  | sameContents hsame => exact .of_same h hsame.comments
  | _ => exact .of_same h rfl

/-- A status request that passes the checks on a stored comment is carried out. -/
theorem setCmtStatus_done {w : World} {ctx : Ctx} {chanId postId cmtId : UInt64}
    {found : Db → ℤ → ℤ → ℤ → Bool} (stat : CmtStat)
    (hchecked : StatusCheck w ctx chanId postId cmtId)
    (hfound : found w.db (bindInt64 chanId) (bindInt64 postId) (bindInt64 cmtId) = true)
    {row : CommentRow} (hrow : row ∈ w.db.comments)
    (haddressed : row.Addressed chanId postId cmtId) :
    ∃ carried, setCmtStatus found stat w ctx chanId postId cmtId = .done carried := by
  obtain ⟨hready, ⟨chan, hchan, hpost⟩, uinfo, huinfo, hauthor⟩ := hchecked
  have hset : ∃ set, dbSetCmtStatus w.db
      (blankCmt chanId postId cmtId stat uinfo ctx.now) = some set := by
    have hupdated : (updateWhere w.db.comments
        (CommentRow.at (bindInt64 chanId) (bindInt64 postId) (bindInt64 cmtId))
        (CommentRow.setStatus (blankCmt chanId postId cmtId stat uinfo ctx.now))).find?
          (CommentRow.at (bindInt64 chanId) (bindInt64 postId) (bindInt64 cmtId)) ≠ none := by
      rw [Ne, List.find?_eq_none]
      intro hnone
      exact hnone _ (mem_updateWhere.mpr (.inr ⟨row, hrow, haddressed.at_eq, rfl⟩))
        haddressed.at_eq
    obtain ⟨updated, hfind⟩ := Option.ne_none_iff_exists'.mp hupdated
    simp only [dbSetCmtStatus, blankCmt] at hfind ⊢
    rw [hfind]
    exact ⟨_, rfl⟩
  obtain ⟨set, hset⟩ := hset
  refine ⟨⟨⟨w.mem, set.2⟩, (w.mem.destinations chan).flatMap (notifyOfCmtUpd set.1),
    [.empty]⟩, ?_⟩
  simp only [setCmtStatus, ready_eq_done, withUinfo_eq_done, withPost_eq_done,
    check_eq_done, dbCall_eq_done, Outcome.done.injEq]
  exact ⟨hready, uinfo, huinfo, chan, hchan, hpost, hfound, decide_eq_true hauthor, set, hset,
    rfl⟩

/-- What a request that sets a status leaves in the row. -/
theorem status_of_setCmtStatus {w : World} {ctx : Ctx} {chanId postId cmtId : UInt64}
    {found : Db → ℤ → ℤ → ℤ → Bool} {stat : CmtStat} {carried : Done}
    (hdone : setCmtStatus found stat w ctx chanId postId cmtId = .done carried)
    {row : CommentRow} (hrow : row ∈ w.db.comments)
    (haddressed : row.Addressed chanId postId cmtId) :
    ∃ new ∈ carried.world.db.comments, new.key = row.key ∧ new.status = stat := by
  obtain ⟨_, ci, set, ⟨hchanId, hpostId, hcmtId⟩, hstat, _, hdb, hworld⟩ :=
    setCmtStatus_eq_done hdone
  rw [hworld, (dbSetCmtStatus_eq_some hdb).1, hchanId, hpostId, hcmtId]
  exact ⟨CommentRow.setStatus ci row,
    mem_updateWhere.mpr (.inr ⟨row, hrow, haddressed.at_eq, rfl⟩), rfl, hstat⟩

theorem TouchesDeleted.breaks {w : World} (h : TouchesDeleted w event) :
    ¬ LifeCycle w.db event (step w event).db := by
  obtain ⟨ctx, chanId, postId, cmtId, hevent, hchecked, row, hrow, haddressed, hdeleted⟩ := h
  have hexists := haddressed.exists hrow
  intro hlawful
  rcases hevent with rfl | rfl
  · obtain ⟨carried, hdone⟩ := setCmtStatus_done .blocked hchecked hexists hrow haddressed
    obtain ⟨new, hnew, hkey, hstatus⟩ := status_of_setCmtStatus hdone hrow haddressed
    have hhandled : handle w ctx (.blockCmt chanId postId cmtId) = .done carried := hdone
    rw [step_request_db, (respond_done hhandled).1] at hlawful
    have hchange := hlawful.status row hrow new hnew hkey (by simp [hstatus, hdeleted])
    rw [hstatus] at hchange
    cases hchange with
    | block _ hold => simp [hold] at hdeleted
  · obtain ⟨carried, hdone⟩ := setCmtStatus_done .available hchecked hexists hrow haddressed
    obtain ⟨new, hnew, hkey, hstatus⟩ := status_of_setCmtStatus hdone hrow haddressed
    have hhandled : handle w ctx (.unblockCmt chanId postId cmtId) = .done carried := hdone
    rw [step_request_db, (respond_done hhandled).1] at hlawful
    have hchange := hlawful.status row hrow new hnew hkey (by simp [hstatus, hdeleted])
    rw [hstatus] at hchange
    cases hchange with
    | unblock _ hold => simp [hold] at hdeleted

theorem lifeCycle_step_iff {w : World} (h : Counted w.db) (hknown : StatusesKnown w.db)
    (event : Event) : LifeCycle w.db event (step w event).db ↔ ¬ TouchesDeleted w event := by
  refine ⟨fun hlawful htouches => htouches.breaks hlawful, fun hkept => ?_⟩
  cases event with
  | request ctx req =>
      rw [step_request_db]
      rcases respond_cases w ctx req with ⟨carried, hdone⟩ | ⟨hsame, _⟩
      · rw [(respond_done hdone).1]
        exact .effect h hknown hkept (handle_effect hdone)
      · exact .of_same h (by rw [hsame])
  | peerOffline nodeId => exact .of_same h rfl
  | signIn ui now rowid => exact .of_same h (dbUpsertUser_same w.db ui now rowid).comments
  | restart => exact .of_same h rfl

/-- A run keeps to the life cycle of comments exactly when no request blocks or
unblocks a deleted comment. -/
theorem lifeCycle_iff (events : List Event) :
    EachStep Step (fun w event w' => LifeCycle w.db event w'.db) (.start Db.init) events ↔
      EachStep Step (fun w event _ => ¬ TouchesDeleted w event) (.start Db.init) events := by
  refine eachStep_congr Sound (fun w event w' h hstep => h.step hstep) ?_ Sound.init events
  intro w event w' h hstep
  rw [← step_iff.mp hstep]
  exact lifeCycle_step_iff h.consistent.counted h.statuses event

/-- A comment is posted and deleted by its author, who then unblocks it. -/
def resurrectingRun : List Event :=
  let owner : Ctx :=
    { «from» := "owner"
      tsxId := 1
      didIsReady := true
      now := 0
      uinfo := some ⟨1, "did:owner", "owner", "", none, none⟩
      maxContentLen := 1024 }
  let author : Ctx :=
    { owner with
      «from» := "phone"
      uinfo := some ⟨2, "did:author", "author", "", none, none⟩ }
  [.request owner (.createChan ⟨"news", "", [], "", ""⟩),
    .request owner (.pubPost 1 ⟨[1], [], "", "", ""⟩),
    .request author (.postCmt 1 1 0 ⟨[2], [], "", ""⟩),
    .request author (.delCmt 1 1 1),
    .request author (.unblockCmt 1 1 1)]

theorem not_eachStep_lifeCycle :
    ¬ EachStep Step (fun w event w' => LifeCycle w.db event w'.db) (.start Db.init)
      resurrectingRun := by
  intro h
  have hlast : ∃ before event, resurrectingRun = before ++ [event] ∧
      ∃ old ∈ (perform (.start Db.init) before).db.comments,
      ∃ new ∈ (step (perform (.start Db.init) before) event).db.comments,
        new.key = old.key ∧ old.status = .deleted ∧ new.status = .available :=
    ⟨resurrectingRun.dropLast, resurrectingRun.getLast (by simp [resurrectingRun]),
      (List.dropLast_append_getLast _).symm, by decide⟩
  obtain ⟨before, event, hsplit, old, hold, new, hnew, hkey, hdeleted, havailable⟩ := hlast
  rw [hsplit] at h
  have hlawful := h.last (run_perform _ before) (step_iff.mpr rfl)
  have hchange := hlawful.status old hold new hnew hkey (by simp [hdeleted, havailable])
  rw [havailable] at hchange
  cases hchange with
  | unblock _ hblocked => simp [hdeleted] at hblocked

end LifeCycle

end FeedsService.Feeds
