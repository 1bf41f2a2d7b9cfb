import FeedsService.Feeds.Comments

/-!
# The life cycle of posts

A post is created available or declared, a declared post becomes available when it is
notified, and an available one can be edited or deleted.  The statements that update a
post do not look at its old status: the handlers do, before.
-/

namespace FeedsService.Feeds

open FeedsService.Library FeedsService.Runs

def PostRow.key (row : PostRow) : ℤ × ℤ :=
  (row.channelId, row.postId)

/-- What the owner has written. -/
def PostRow.body (row : PostRow) : Bytes × Bytes × String × String × String :=
  (row.content, row.thumbnails, row.hashId, row.proof, row.originPostUrl)

/-- The row that the ids of a request address. -/
def PostRow.Addressed (row : PostRow) (chanId postId : UInt64) : Prop :=
  row.key = (bindInt64 chanId, bindInt64 postId)

/-- The changes of the status of a post that the life cycle knows. -/
inductive PostStatusChange (row : PostRow) : Event → PostStat → Prop
  | notify {ctx : Ctx} {chanId postId : UInt64} (hrow : row.Addressed chanId postId)
      (hold : row.status = .declared) :
      PostStatusChange row (.request ctx (.notifyPost chanId postId)) .available
  | delete {ctx : Ctx} {chanId postId : UInt64} (hrow : row.Addressed chanId postId)
      (hold : row.status = .available) :
      PostStatusChange row (.request ctx (.delPost chanId postId)) .deleted

theorem PostStatusChange.old_ne {row : PostRow} {event : Event} {stat : PostStat}
    (h : PostStatusChange row event stat) : row.status ≠ .deleted := by
  cases h with
  | notify _ hold => simp [hold]
  | delete _ hold => simp [hold]

/-- A post is edited while it is available. -/
inductive PostBodyChange (row : PostRow) : Event → Prop
  | edit {ctx : Ctx} {chanId postId : UInt64} {params : PostParams}
      (hrow : row.Addressed chanId postId) (hold : row.status = .available) :
      PostBodyChange row (.request ctx (.editPost chanId postId params))

/-- How a post comes about, and with which status. -/
inductive PostCreation (row : PostRow) : Event → Prop
  | publish {ctx : Ctx} {chanId : UInt64} {params : PostParams}
      (hstatus : row.status = .available) :
      PostCreation row (.request ctx (.pubPost chanId params))
  | declare {ctx : Ctx} {chanId : UInt64} {withNotify : Bool} {params : PostParams}
      (hstatus : row.status = if withNotify then .available else .declared) :
      PostCreation row (.request ctx (.declarePost chanId withNotify params))

/-- What an event may make of a stored post. -/
structure PostChange (event : Event) (old new : PostRow) : Prop where
  status : new.status ≠ old.status → PostStatusChange old event new.status
  body : new.body ≠ old.body → PostBodyChange old event

/-- Posts stay, change in the ways of the life cycle, and appear in its ways. -/
def PostLifeCycle (db : Db) (event : Event) (db' : Db) : Prop :=
  Evolves PostRow.key (PostChange event) (fun row => PostCreation row event) db.posts db'.posts

theorem PostChange.of_same {event : Event} {old new : PostRow}
    (hstatus : new.status = old.status) (hbody : new.body = old.body) :
    PostChange event old new :=
  ⟨fun hne => absurd hstatus hne, fun hne => absurd hbody hne⟩

theorem PostChange.refl (event : Event) (row : PostRow) : PostChange event row row :=
  .of_same rfl rfl

section Keys

variable {db : Db}

theorem Counted.nodup_postKeys (h : Counted db) : (db.posts.map PostRow.key).Nodup := by
  have hkeyed := h.commentIds.keyed
  rw [nextCommentIds, List.map_map] at hkeyed
  exact hkeyed

theorem PostRow.key_eq_of_at {row : PostRow} {channelId postId : ℤ}
    (hat : row.at channelId postId = true) : row.key = (channelId, postId) := by
  simp only [PostRow.at, decide_eq_true_eq] at hat
  rw [PostRow.key, hat.1, hat.2]

theorem PostRow.addressed_of_at {row : PostRow} {pi : PostInfo} {chanId postId : UInt64}
    (hpi : pi.At chanId postId) (hat : row.at pi.chanId pi.postId = true) :
    row.Addressed chanId postId := by
  rw [PostRow.Addressed, PostRow.key_eq_of_at hat, hpi.1, hpi.2]

/-- The ids pick out one row. -/
theorem Counted.post_eq (h : Counted db) {left right : PostRow} {channelId postId : ℤ}
    (hleft : left ∈ db.posts) (hright : right ∈ db.posts)
    (hleftAt : left.at channelId postId = true) (hrightAt : right.at channelId postId = true) :
    left = right := by
  apply eq_of_key_eq h.nodup_postKeys hleft hright
  rw [PostRow.key_eq_of_at hleftAt, PostRow.key_eq_of_at hrightAt]

/-- The available row that `db_post_is_avail` finds is the one with these ids. -/
theorem Counted.post_available (h : Counted db) {channelId postId : ℤ}
    (havail : dbPostIsAvail db channelId postId = true) {row : PostRow}
    (hrow : row ∈ db.posts) (hat : row.at channelId postId = true) :
    row.status = .available := by
  obtain ⟨other, hother, hfound⟩ := List.any_eq_true.mp havail
  simp only [Bool.decide_and, Bool.decide_eq_true, Bool.and_eq_true, decide_eq_true_eq] at hfound
  rw [h.post_eq hrow hother hat hfound.1]
  exact hfound.2

/-- So is the row whose status `db_get_post_status` reads. -/
theorem Counted.post_status (h : Counted db) {channelId postId : ℤ} {stat : PostStat}
    (hget : dbGetPostStatus db channelId postId = some stat) {row : PostRow}
    (hrow : row ∈ db.posts) (hat : row.at channelId postId = true) : row.status = stat := by
  obtain ⟨other, hother, rfl⟩ := Option.map_eq_some_iff.mp hget
  rw [h.post_eq hrow (List.mem_of_find?_eq_some hother) hat (List.find?_some hother)]

/-- The primary key keeps a new post apart from the stored ones. -/
theorem newPostRow_key_ne {db' : Db} {pi : PostInfo} (hdb : dbAddPost db pi = some db')
    {old : PostRow} (hold : old ∈ db.posts) : (newPostRow pi).key ≠ old.key := by
  have hnone : db.posts.any (PostRow.at pi.chanId pi.postId) = false := by
    unfold dbAddPost at hdb
    split at hdb
    · cases hdb
    · next hany => simpa using hany
  intro hsame
  rw [List.any_eq_false] at hnone
  apply hnone old hold
  simp only [PostRow.key, newPostRow, Prod.mk.injEq] at hsame
  simp [PostRow.at, hsame]

end Keys

namespace PostLifeCycle

variable {db db' : Db} {event : Event}

theorem of_same (h : Counted db) (hposts : db'.posts = db.posts) :
    PostLifeCycle db event db' :=
  Evolves.of_eq h.nodup_postKeys hposts fun row _ => .refl event row

/-- An update of columns that are neither the key, the status nor the body. -/
theorem of_counter (h : Counted db) {p : PostRow → Bool} {f : PostRow → PostRow}
    (hposts : db'.posts = updateWhere db.posts p f) (hkey : ∀ row, (f row).key = row.key)
    (hstatus : ∀ row, (f row).status = row.status) (hbody : ∀ row, (f row).body = row.body) :
    PostLifeCycle db event db' :=
  Evolves.of_updateWhere h.nodup_postKeys hposts hkey (fun row _ => .refl event row)
    fun row _ _ => .of_same (hstatus row) (hbody row)

theorem of_updLikes (h : Counted db) (channelId postId commentId change : ℤ)
    (hposts : db'.posts = (updLikes db channelId postId commentId change).posts) :
    PostLifeCycle db event db' := by
  unfold updLikes at hposts
  split at hposts
  · exact of_same h hposts
  · exact of_counter h hposts (fun _ => rfl) (fun _ => rfl) fun _ => rfl

theorem of_addPost {w : World} {ctx : Ctx} {req : Req} (h : Consistent w) {pi : PostInfo}
    {db : Db} (hdb : dbAddPost w.db pi = some db) (hadds : AddsPost pi req) :
    PostLifeCycle w.db (.request ctx req) db := by
  have hposts : db.posts = w.db.posts ++ [newPostRow pi] := by rw [dbAddPost_eq_some hdb]
  refine Evolves.of_append h.counted.nodup_postKeys hposts
    (fun old hold => newPostRow_key_ne hdb hold) (fun row _ => .refl _ row) ?_
  cases hadds with
  | publish hstat => exact .publish hstat
  | declare hstat => exact .declare hstat

theorem of_setPostStatus {w : World} {ctx : Ctx} {req : Req} (h : Counted w.db)
    {pi : PostInfo} {set : PostInfo × Db} (hdb : dbSetPostStatus w.db pi = some set)
    (hknown : StatusesKnown w.db) (hsets : SetsPostStatus w.db pi req) :
    PostLifeCycle w.db (.request ctx req) set.2 := by
  have hposts := congrArg Db.posts (dbSetPostStatus_eq_some hdb)
  refine Evolves.of_updateWhere h.nodup_postKeys hposts (fun _ => rfl)
    (fun row _ => .refl _ row) fun row hrow hat => ⟨fun hne => ?_, fun hne => absurd rfl hne⟩
  cases hsets with
  | @notify chanId postId old hpi hold hnotDeleted hstat =>
      have hstatus := h.post_status hold hrow hat
      have hrowKnown := hknown.posts row hrow
      rw [hstat] at hne ⊢
      rw [hstatus] at hne hrowKnown
      refine .notify (PostRow.addressed_of_at hpi hat) ?_
      rw [hstatus]
      cases old with
      | available => exact absurd rfl hne
      | deleted => exact absurd rfl hnotDeleted
      | declared => rfl
      | wrongStat => exact absurd rfl hrowKnown
  | delete hpi hold hstat =>
      rw [hstat]
      exact .delete (PostRow.addressed_of_at hpi hat) (h.post_available hold hrow hat)

theorem of_updPost {w : World} {ctx : Ctx} {req : Req} (h : Counted w.db) {pi : PostInfo}
    {upd : PostInfo × Db} (hdb : dbUpdPost w.db pi = some upd)
    (hedits : EditsPost w.db pi req) : PostLifeCycle w.db (.request ctx req) upd.2 := by
  obtain ⟨chanId, postId, params, rfl, hpi, havail⟩ := hedits
  have hposts := congrArg Db.posts (dbUpdPost_eq_some hdb)
  refine Evolves.of_updateWhere h.nodup_postKeys hposts (fun _ => rfl)
    (fun row _ => .refl _ row) fun row hrow hat => ⟨fun hne => absurd rfl hne, fun _ => ?_⟩
  exact .edit (PostRow.addressed_of_at hpi hat) (h.post_available havail hrow hat)

theorem effect {w w' : World} {ctx : Ctx} {req : Req} (h : Consistent w)
    (hknown : StatusesKnown w.db) (heffect : Effect w ctx req w') :
    PostLifeCycle w.db (.request ctx req) w'.db := by
  have hcounted := h.counted
  cases heffect with
  | createChan hfew hid hupdAt hsubs hnextPostId hstatus hname hdb =>
      exact of_same hcounted (by rw [dbCreateChan_eq_some hdb])
  | updChan hreq hready howner hid hciName hchan hcreatedAt hsubs hnextPostId hstatus hname
      hdb =>
      exact of_same hcounted (by rw [dbUpdChan_eq_some hdb])
  | addPost hchan hchanId hpostId hstat hdb howner hadds => exact of_addPost h hdb hadds
  | setPostStatus hstat hdb howner hsets => exact of_setPostStatus hcounted hdb hknown hsets
  | updPost hdb howner hedits => exact of_updPost hcounted hdb hedits
  | addCmt hdb =>
      obtain ⟨_, _, _, _, hadded⟩ := dbAddCmt_eq_some hdb
      have hposts := congrArg Db.posts hadded
      exact of_counter hcounted hposts (fun _ => rfl) (fun _ => rfl) fun _ => rfl
  | updCmt hreq hci havail hdb =>
      exact of_same hcounted (by rw [(dbUpdCmt_eq_some hdb).1])
  | setCmtStatus hchecked hci hreq hdb =>
      exact of_same hcounted (by rw [(dbSetCmtStatus_eq_some hdb).1])
  | addLike hnot hdb =>
      obtain ⟨row, _, _, _, hadded⟩ := dbAddLike_eq_some hdb
      exact of_updLikes hcounted _ _ _ _ (by rw [hadded])
  | rmLike hlike => exact of_updLikes hcounted _ _ _ _ rfl
  | subChan hchan hnot hdb =>
      obtain ⟨_, rfl⟩ := dbAddSub_eq_some hdb
      exact of_same hcounted rfl
  | unsubChan hchan hsub => exact of_same hcounted rfl
  | sameContents hsame => exact of_same hcounted hsame.posts
  | _ => exact of_same hcounted rfl

theorem step {w : World} (h : Consistent w) (hknown : StatusesKnown w.db) (event : Event) :
    PostLifeCycle w.db event (step w event).db := by
  cases event with
  | request ctx req =>
      rw [step_request_db]
      rcases respond_cases w ctx req with ⟨carried, hdone⟩ | ⟨hsame, _⟩
      · rw [(respond_done hdone).1]
        exact effect h hknown (handle_effect hdone)
      · exact of_same h.counted (by rw [hsame])
  | peerOffline nodeId => exact of_same h.counted rfl
  | signIn ui now rowid =>
      exact of_same h.counted (dbUpsertUser_same w.db ui now rowid).posts
  | restart => exact of_same h.counted rfl

/-- A deleted post is there after the step, still deleted. -/
theorem deleted (h : PostLifeCycle db event db') {key : ℤ × ℤ}
    (hdeleted : ∃ row ∈ db.posts, row.key = key ∧ row.status = .deleted) :
    ∃ row ∈ db'.posts, row.key = key ∧ row.status = .deleted := by
  obtain ⟨old, hold, hkey, hstatus⟩ := hdeleted
  obtain ⟨new, hnew, hsame⟩ := h.kept old hold
  refine ⟨new, hnew, hsame.trans hkey, ?_⟩
  by_contra hne
  rw [← hstatus] at hne
  exact ((h.related old hold new hnew hsame).status hne).old_ne hstatus

end PostLifeCycle

section Runs

theorem postLifeCycle_eachStep {w : World} (h : Sound w) (events : List Event) :
    EachStep Step (fun w event w' => PostLifeCycle w.db event w'.db) w events := by
  refine eachStep_of_preserved (fun _ _ _ h hstep => h.step hstep)
    (fun w event w' h hstep => ?_) h events
  rw [← step_iff.mp hstep]
  exact PostLifeCycle.step h.consistent h.statuses event

/-- Every step of every run keeps to the life cycle of posts, and a post that is deleted
in a state of the run stays deleted in all that follow. -/
theorem postLifeCycle_always (events : List Event) :
    EachStep Step (fun w event w' => PostLifeCycle w.db event w'.db) (.start Db.init) events ∧
      ∀ row ∈ (perform (.start Db.init) events).db.posts, row.status = .deleted →
        ∀ later, Always Step
          (fun w => ∃ new ∈ w.db.posts, new.key = row.key ∧ new.status = .deleted)
          (perform (.start Db.init) events) later := by
  refine ⟨postLifeCycle_eachStep Sound.init events, fun row hrow hdeleted later => ?_⟩
  have hsound := (Sound.reachable events).last (run_perform _ events)
  have hlawful := postLifeCycle_eachStep hsound later
  refine always_of_eachStep (fun w event w' h _ hlawful => hlawful.deleted h) ?_ hlawful
  exact ⟨row, hrow, rfl, hdeleted⟩

end Runs

end FeedsService.Feeds
