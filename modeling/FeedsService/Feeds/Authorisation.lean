import FeedsService.Feeds.Posts

/-!
# Who may write what

Channels and posts are written by the owner, a stored comment by its author.  The
counters that other requests move are left out of what shows of a row.
-/

namespace FeedsService.Feeds

open FeedsService.Library FeedsService.Runs

section Permissions

def ChannelRow.uncounted (row : ChannelRow) : ChannelRow :=
  { row with subscribers := 0, nextPostId := 0 }

def PostRow.uncounted (row : PostRow) : PostRow :=
  { row with likes := 0, nextCommentId := 0 }

def CommentRow.uncounted (row : CommentRow) : CommentRow :=
  { row with likes := 0 }

inductive WritesChannel : Req → Prop
  | create {params : ChanParams} : WritesChannel (.createChan params)
  | upd {chanId : UInt64} {params : ChanParams} : WritesChannel (.updChan chanId params)

inductive WritesPost : Req → Prop
  | pub {chanId : UInt64} {params : PostParams} : WritesPost (.pubPost chanId params)
  | declare {chanId : UInt64} {withNotify : Bool} {params : PostParams} :
      WritesPost (.declarePost chanId withNotify params)
  | notify {chanId postId : UInt64} : WritesPost (.notifyPost chanId postId)
  | edit {chanId postId : UInt64} {params : PostParams} :
      WritesPost (.editPost chanId postId params)
  | del {chanId postId : UInt64} : WritesPost (.delPost chanId postId)

inductive WritesComment (row : CommentRow) : Req → Prop
  | edit {chanId postId id cmtId : UInt64} {params : CmtParams}
      (hrow : row.Addressed chanId postId id) :
      WritesComment row (.editCmt chanId postId id cmtId params)
  | del {chanId postId id : UInt64} (hrow : row.Addressed chanId postId id) :
      WritesComment row (.delCmt chanId postId id)
  | block {chanId postId cmtId : UInt64} (hrow : row.Addressed chanId postId cmtId) :
      WritesComment row (.blockCmt chanId postId cmtId)
  | unblock {chanId postId cmtId : UInt64} (hrow : row.Addressed chanId postId cmtId) :
      WritesComment row (.unblockCmt chanId postId cmtId)

/-- A request of one of these kinds whose token names user 1. -/
def OwnerWrites (kind : Req → Prop) (event : Event) : Prop :=
  ∃ ctx req uinfo, event = .request ctx req ∧ kind req ∧ ctx.uinfo = some uinfo ∧
    uinfo.uid = 1

/-- A request on the comment whose token names the user in the row. -/
def AuthorWrites (event : Event) (row : CommentRow) : Prop :=
  ∃ ctx req uinfo, event = .request ctx req ∧ WritesComment row req ∧
    ctx.uinfo = some uinfo ∧ row.userId = bindInt64 uinfo.uid

/-- Nothing is removed, and every row that appears or changes does so by a request of
someone who may. -/
structure WritesAuthorised (db : Db) (event : Event) (db' : Db) : Prop where
  channels : Guarded ChannelRow.channelId ChannelRow.uncounted
    (fun _ => OwnerWrites WritesChannel event) (OwnerWrites WritesChannel event)
    db.channels db'.channels
  posts : Guarded PostRow.key PostRow.uncounted
    (fun _ => OwnerWrites WritesPost event) (OwnerWrites WritesPost event)
    db.posts db'.posts
  comments : Guarded CommentRow.key CommentRow.uncounted (AuthorWrites event) True
    db.comments db'.comments

end Permissions

section Checks

variable {w : World} {ctx : Ctx} {req : Req}

theorem OwnerToken.writes {kind : Req → Prop} (h : OwnerToken ctx) (hkind : kind req) :
    OwnerWrites kind (.request ctx req) := by
  obtain ⟨uinfo, huinfo, howner⟩ := h
  exact ⟨ctx, req, uinfo, rfl, hkind, huinfo, by simpa [userIdIsOwner] using howner⟩

theorem AddsPost.writes {pi : PostInfo} (h : AddsPost pi req) : WritesPost req := by
  cases h with
  | publish _ => exact .pub
  | declare _ => exact .declare

theorem SetsPostStatus.writes {db : Db} {pi : PostInfo} (h : SetsPostStatus db pi req) :
    WritesPost req := by
  cases h with
  | notify _ _ _ _ => exact .notify
  | delete _ _ _ => exact .del

theorem EditsPost.writes {db : Db} {pi : PostInfo} (h : EditsPost db pi req) :
    WritesPost req := by
  obtain ⟨chanId, postId, params, rfl, _, _⟩ := h
  exact .edit

/-- The author that `db_cmt_uid` finds is that of the row with these ids. -/
theorem Counted.author (h : Counted w.db) {channelId postId commentId uid : ℤ}
    (huid : dbCmtUid w.db channelId postId commentId = some uid) {row : CommentRow}
    (hrow : row ∈ w.db.comments) (hat : row.at channelId postId commentId = true) :
    row.userId = uid := by
  obtain ⟨other, hother, rfl⟩ := Option.map_eq_some_iff.mp huid
  have hotherAt := List.find?_some hother
  have hkey : row.key = other.key := by
    simp only [CommentRow.at, decide_eq_true_eq] at hat hotherAt
    simp only [CommentRow.key, hat, hotherAt]
  rw [h.eq_of_commentKey hrow (List.mem_of_find?_eq_some hother) hkey]

theorem AuthorToken.writes (h : Counted w.db) {ci : CmtInfo} (hauthor : AuthorToken w.db ctx ci)
    {row : CommentRow} (hrow : row ∈ w.db.comments)
    (hat : row.at ci.chanId ci.postId ci.cmtId = true) (hkind : WritesComment row req) :
    AuthorWrites (.request ctx req) row := by
  obtain ⟨uinfo, huinfo, huid⟩ := hauthor
  exact ⟨ctx, req, uinfo, rfl, hkind, huinfo, h.author huid hrow hat⟩

theorem StatusCheck.authorToken {chanId postId cmtId : UInt64} {ci : CmtInfo}
    (h : StatusCheck w ctx chanId postId cmtId) (hci : ci.At chanId postId cmtId) :
    AuthorToken w.db ctx ci := by
  obtain ⟨hchanId, hpostId, hcmtId⟩ := hci
  rw [AuthorToken, hchanId, hpostId, hcmtId]
  exact h.author

end Checks

namespace WritesAuthorised

variable {w : World} {event : Event}

/-- A step that changes nothing of what shows. -/
theorem of_same {db' : Db} (h : Consistent w) (hchannels : db'.channels = w.db.channels)
    (hposts : db'.posts = w.db.posts) (hcomments : db'.comments = w.db.comments) :
    WritesAuthorised w.db event db' where
  channels := .of_eq h.mirror.mirrors.nodup_ids hchannels
  posts := .of_eq h.counted.nodup_postKeys hposts
  comments := .of_eq h.counted.nodup_commentKeys hcomments

theorem of_updLikes {db' : Db} (h : Consistent w) (channelId postId commentId change : ℤ)
    (hchannels : db'.channels = (updLikes w.db channelId postId commentId change).channels)
    (hposts : db'.posts = (updLikes w.db channelId postId commentId change).posts)
    (hcomments : db'.comments = (updLikes w.db channelId postId commentId change).comments) :
    WritesAuthorised w.db event db' := by
  refine ⟨.of_eq h.mirror.mirrors.nodup_ids (hchannels.trans (updLikes_channels ..)), ?_, ?_⟩
  · unfold updLikes at hposts
    split at hposts
    · exact .of_eq h.counted.nodup_postKeys hposts
    · exact .of_hidden h.counted.nodup_postKeys hposts (fun _ => rfl) fun _ => rfl
  · unfold updLikes at hcomments
    split at hcomments
    · exact .of_hidden h.counted.nodup_commentKeys hcomments (fun _ => rfl) fun _ => rfl
    · exact .of_eq h.counted.nodup_commentKeys hcomments

theorem of_createChan {ctx : Ctx} {req : Req} {ci : ChanInfo} {db : Db} (h : Consistent w)
    (hdb : dbCreateChan w.db ci = some db) (howner : OwnerToken ctx)
    (hreq : ∃ params, req = .createChan params) :
    WritesAuthorised w.db (.request ctx req) db := by
  obtain ⟨params, rfl⟩ := hreq
  obtain rfl := dbCreateChan_eq_some hdb
  refine ⟨.of_append h.mirror.mirrors.nodup_ids rfl (fun old hold => ?_)
    (howner.writes .create), .of_eq h.counted.nodup_postKeys rfl,
    .of_eq h.counted.nodup_commentKeys rfl⟩
  have hbounds := h.mirror.mirrors.id_bounds hold
  have hseq := h.mirror.channelsSeq
  simp only [newChannelRow]
  omega

theorem of_addPost {ctx : Ctx} {req : Req} {pi : PostInfo} {db : Db} (h : Consistent w)
    (hdb : dbAddPost w.db pi = some db) (howner : OwnerToken ctx) (hadds : AddsPost pi req) :
    WritesAuthorised w.db (.request ctx req) db := by
  have heq := dbAddPost_eq_some hdb
  refine ⟨.of_hidden h.mirror.mirrors.nodup_ids (congrArg Db.channels heq) (fun _ => rfl)
    fun _ => rfl, ?_, .of_eq h.counted.nodup_commentKeys (by rw [heq])⟩
  exact .of_append h.counted.nodup_postKeys (congrArg Db.posts heq)
    (fun old hold => newPostRow_key_ne hdb hold) (howner.writes hadds.writes)

theorem effect {w' : World} {ctx : Ctx} {req : Req} (h : Consistent w)
    (heffect : Effect w ctx req w') : WritesAuthorised w.db (.request ctx req) w'.db := by
  have hchannels := h.mirror.mirrors.nodup_ids
  have hposts := h.counted.nodup_postKeys
  have hcomments := h.counted.nodup_commentKeys
  cases heffect with
  | createChan hfew hid hupdAt hsubs hnextPostId hstatus hname hdb howner hreq =>
      exact of_createChan h hdb howner hreq
  | updChan hreq hready howner hid hciName hchan hcreatedAt hsubs hnextPostId hstatus hname
      hdb =>
      obtain rfl := dbUpdChan_eq_some hdb
      rw [hreq]
      have howner : OwnerToken ctx := howner
      exact ⟨.of_permitted hchannels rfl (fun _ => rfl) fun _ _ _ => howner.writes .upd,
        .of_eq hposts rfl, .of_eq hcomments rfl⟩
  | addPost hchan hchanId hpostId hstat hdb howner hadds => exact of_addPost h hdb howner hadds
  | setPostStatus hstat hdb howner hsets =>
      have heq := dbSetPostStatus_eq_some hdb
      exact ⟨.of_eq hchannels (by rw [heq]),
        .of_permitted hposts (congrArg Db.posts heq) (fun _ => rfl)
          fun _ _ _ => howner.writes hsets.writes,
        .of_eq hcomments (by rw [heq])⟩
  | updPost hdb howner hedits =>
      have heq := dbUpdPost_eq_some hdb
      exact ⟨.of_eq hchannels (by rw [heq]),
        .of_permitted hposts (congrArg Db.posts heq) (fun _ => rfl)
          fun _ _ _ => howner.writes hedits.writes,
        .of_eq hcomments (by rw [heq])⟩
  | addCmt hdb =>
      obtain ⟨post, _, _, hany, heq⟩ := dbAddCmt_eq_some hdb
      exact ⟨.of_eq hchannels (by rw [heq]),
        .of_hidden hposts (congrArg Db.posts heq) (fun _ => rfl) fun _ => rfl,
        .of_append hcomments (congrArg Db.comments heq)
          (fun old hold => newCommentRow_key_ne hany hold) trivial⟩
  | updCmt hreq hci havail hdb hauthor =>
      have heq := (dbUpdCmt_eq_some hdb).1
      refine ⟨.of_eq hchannels (by rw [heq]),
        .of_eq hposts (by rw [heq]),
        .of_permitted hcomments (congrArg Db.comments heq) (fun _ => rfl) ?_⟩
      intro row hrow hat
      rw [hreq]
      exact hauthor.writes h.counted hrow hat (.edit (addressed_of_at hci hat))
  | setCmtStatus hchecked hci hreq hdb =>
      have heq := (dbSetCmtStatus_eq_some hdb).1
      refine ⟨.of_eq hchannels (by rw [heq]),
        .of_eq hposts (by rw [heq]),
        .of_permitted hcomments (congrArg Db.comments heq) (fun _ => rfl) ?_⟩
      intro row hrow hat
      have haddressed := addressed_of_at hci hat
      apply (hchecked.authorToken hci).writes h.counted hrow hat
      rcases hreq with ⟨rfl, _⟩ | ⟨rfl, _⟩ | ⟨rfl, _⟩
      · exact .del haddressed
      · exact .block haddressed
      · exact .unblock haddressed
  | addLike hnot hdb =>
      obtain ⟨_, _, _, _, hadded⟩ := dbAddLike_eq_some hdb
      exact of_updLikes h _ _ _ _ (by rw [hadded]) (by rw [hadded]) (by rw [hadded])
  | rmLike hlike => exact of_updLikes h _ _ _ _ rfl rfl rfl
  | subChan hchan hnot hdb =>
      obtain ⟨_, rfl⟩ := dbAddSub_eq_some hdb
      exact ⟨.of_hidden hchannels rfl (fun _ => rfl) fun _ => rfl, .of_eq hposts rfl,
        .of_eq hcomments rfl⟩
  | unsubChan hchan hsub =>
      exact ⟨.of_hidden hchannels rfl (fun _ => rfl) fun _ => rfl, .of_eq hposts rfl,
        .of_eq hcomments rfl⟩
  | sameContents hsame => exact of_same h hsame.channels hsame.posts hsame.comments
  | _ => exact of_same h rfl rfl rfl

theorem step (h : Consistent w) (event : Event) :
    WritesAuthorised w.db event (step w event).db := by
  cases event with
  | request ctx req =>
      rw [step_request_db]
      rcases respond_cases w ctx req with ⟨carried, hdone⟩ | ⟨hsame, _⟩
      · rw [(respond_done hdone).1]
        exact effect h (handle_effect hdone)
      · rw [hsame]
        exact of_same h rfl rfl rfl
  | peerOffline nodeId => exact of_same h rfl rfl rfl
  | signIn ui now rowid =>
      have hsame := dbUpsertUser_same w.db ui now rowid
      exact of_same h hsame.channels hsame.posts hsame.comments
  | restart => exact of_same h rfl rfl rfl

end WritesAuthorised

/-- In every run, who writes a channel, a post or a stored comment may do so. -/
theorem writesAuthorised_eachStep (events : List Event) :
    EachStep Step (fun w event w' => WritesAuthorised w.db event w'.db) (.start Db.init)
      events := by
  refine eachStep_of_preserved (fun _ _ _ h hstep => h.step hstep)
    (fun w event w' h hstep => ?_) Sound.init events
  rw [← step_iff.mp hstep]
  exact .step h.consistent event

end FeedsService.Feeds
