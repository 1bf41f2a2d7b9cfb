import FeedsService.Feeds.Posts
import FeedsService.Feeds.Ranges
import FeedsService.Feeds.References
import FeedsService.Library.Paging

/-!
# Reading the posts of a channel page by page

Somebody asks for the posts by their ids, each time from the id after the last one that was got,
while others work on the channel.  The ids only grow, and no post is got twice; one is missed when
it was declared and is notified after the reader has gone past it.  Without that a page that is not
full ends the reading: all the posts have been got.
-/

namespace FeedsService.Feeds

open FeedsService.Library FeedsService.Runs

/-- The posts of a channel that `get_posts` lists. -/
def postTable (chanId : ℤ) (w : World) : List PostInfo :=
  (w.db.posts.filter fun row =>
    row.channelId = chanId ∧ (row.status = .available ∨ row.status = .deleted)).map row2post

/-- A request for the posts from an id on, with a count. -/
structure PostsRequest where
  lower : UInt64
  maxcnt : UInt64

def PostsRequest.qc (request : PostsRequest) : QryCriteria :=
  ⟨.id, 0, request.lower, request.maxcnt⟩

/-- The count of a page, as it is bound. -/
def PostsRequest.count (request : PostsRequest) : Option ℕ :=
  if request.maxcnt = 0 ∨ bindInt64 request.maxcnt < 0 then none
  else some (bindInt64 request.maxcnt).toNat

/-- What `db_iter_posts` yields to a request that goes on behind the cursor; a lower bound of 0
would be none. -/
def fetchPosts (chanId : ℤ) (w : World) (cursor : ℤ) (request : PostsRequest) :
    Option (List PostInfo) :=
  if request.lower ≠ 0 ∧ bindInt64 request.lower = cursor + 1 then
    dbIterPosts w.db chanId request.qc
  else none

/-- Pages, and events of the service between them. -/
def readPosts (chanId : ℤ) :
    Reader World PostInfo → Reading Event PostsRequest → Option (Reader World PostInfo) :=
  nextReader (fun w event => some (step w event)) (fetchPosts chanId) PostInfo.postId

/-- The owner notifies a declared post that the reader has gone past. -/
def NotifiesBehind (chanId : ℤ) (reader : Reader World PostInfo)
    (reading : Reading Event PostsRequest) : Prop :=
  ∃ ctx requested postId, reading = .event (.request ctx (.notifyPost requested postId)) ∧
    ctx.didIsReady = true ∧ OwnerToken ctx ∧
      ∃ row ∈ reader.state.db.posts, row.Addressed requested postId ∧ row.channelId = chanId ∧
        row.status = .declared ∧ row.postId ≤ reader.cursor

/-- A page that is not full ends the reading with all the posts, by their ids. -/
def EndsWithAll (chanId : ℤ) (reader : Reader World PostInfo) : Prop :=
  ∀ request page, fetchPosts chanId reader.state reader.cursor request = some page →
    (∀ limit, request.count = some limit → page.length < limit) →
      (reader.got ++ page).map PostInfo.postId =
        ((postTable chanId reader.state).map PostInfo.postId).mergeSort

section Table

variable {chanId : ℤ} {w : World}

theorem mem_postTable {id : ℤ} :
    id ∈ (postTable chanId w).map PostInfo.postId ↔
      ∃ row ∈ w.db.posts, row.key = (chanId, id) ∧
        (row.status = .available ∨ row.status = .deleted) := by
  simp only [postTable, List.map_map, List.mem_map, List.mem_filter, decide_eq_true_eq,
    Function.comp, row2post, PostRow.key, Prod.mk.injEq]
  constructor
  · rintro ⟨row, ⟨hrow, hchan, hstatus⟩, hid⟩
    exact ⟨row, hrow, ⟨hchan, hid⟩, hstatus⟩
  · rintro ⟨row, hrow, ⟨hchan, hid⟩, hstatus⟩
    exact ⟨row, ⟨hrow, hchan, hstatus⟩, hid⟩

theorem nodup_postTable (h : Counted w.db) :
    ((postTable chanId w).map PostInfo.postId).Nodup := by
  have hkeys := List.pairwise_map.mp h.nodup_postKeys
  rw [postTable, List.map_map]
  refine List.pairwise_map.mpr ((hkeys.filter _).imp_of_mem fun hleft hright hne hsame => hne ?_)
  have hleftChan := (List.mem_filter.mp hleft).2
  have hrightChan := (List.mem_filter.mp hright).2
  simp only [decide_eq_true_eq] at hleftChan hrightChan
  exact Prod.ext (hleftChan.1.trans hrightChan.1.symm) hsame

/-- The ids of the posts of a channel leave no gap. -/
theorem Counted.post_between (h : Counted w.db) {row : PostRow} (hrow : row ∈ w.db.posts)
    {id : ℤ} (hpos : 1 ≤ id) (hle : id ≤ row.postId) :
    ∃ other ∈ w.db.posts, other.key = (row.channelId, id) := by
  have hitem : (row.channelId, row.postId) ∈ Feeds.postIds w.db := List.mem_map_of_mem hrow
  obtain ⟨entry, hentry, hchan⟩ := List.mem_map.mp (h.postIds.known _ hitem)
  have hchan : entry.1 = row.channelId := hchan
  rw [← hchan] at hitem
  have hbelow := ((h.postIds.exact entry hentry _).mp hitem).2
  have hother := (h.postIds.exact entry hentry id).mpr ⟨hpos, hle.trans_lt hbelow⟩
  rw [hchan] at hother
  obtain ⟨other, hother, hkey⟩ := List.mem_map.mp hother
  exact ⟨other, hother, hkey⟩

theorem PostsRequest.limited_eq (request : PostsRequest) {ρ : Type} (rows : List ρ) :
    request.qc.limited rows = cut request.count rows := by
  have hmaxcnt : request.qc.maxcnt = request.maxcnt := rfl
  rw [QryCriteria.limited, PostsRequest.count, hmaxcnt]
  split
  · rfl
  · rfl

/-- What is fetched is a page of the table. -/
theorem fetchPosts_eq {cursor : ℤ} {request : PostsRequest} {page : List PostInfo}
    (hpage : fetchPosts chanId w cursor request = some page) :
    page = pageAfter PostInfo.postId cursor request.count (postTable chanId w) := by
  obtain ⟨⟨hlower, hbound⟩, hpage⟩ := Option.ite_none_right_eq_some.mp hpage
  obtain ⟨rows, hrows, rfl⟩ := Option.map_eq_some_iff.mp hpage
  obtain ⟨-, hrows⟩ := Option.ite_none_right_eq_some.mp hrows
  have hwithin : ∀ row : PostRow, request.qc.within (PostRow.column .id row) =
      decide (cursor < row.postId) := by
    intro row
    have hlow : request.qc.lower = request.lower := rfl
    have hup : request.qc.upper = 0 := rfl
    rw [QryCriteria.within, hlow, hup, hbound, PostRow.column]
    simp only [hlower, false_or, true_or, and_true]
    exact decide_eq_decide.mpr Int.add_one_le_iff
  have hordered : request.qc.ordered PostRow.column (w.db.posts.filter fun row =>
      row.channelId = chanId ∧ (row.status = .available ∨ row.status = .deleted)) =
      ((w.db.posts.filter fun row => row.channelId = chanId ∧
        (row.status = .available ∨ row.status = .deleted)).filter fun row =>
          cursor < row.postId).mergeSort fun left right => left.postId ≤ right.postId := by
    have hby : request.qc.by = .id := rfl
    rw [QryCriteria.ordered, hby, if_neg (by decide), if_pos rfl]
    simp only [hwithin]
    rfl
  have hmap : ∀ rows : List PostRow, (rows.mergeSort fun left right =>
      left.postId ≤ right.postId).map row2post = (rows.map row2post).mergeSort
        fun left right => left.postId ≤ right.postId := by
    intro rows
    exact List.map_mergeSort fun _ _ _ _ => rfl
  rw [← Option.some.inj hrows, select_eq, request.limited_eq, hordered, pageAfter, postTable,
    List.filter_map]
  cases request.count with
  | none => exact hmap _
  | some count =>
      rw [cut, cut, List.map_take, hmap]
      rfl

theorem fetches_fetchPosts (chanId : ℤ) :
    Fetches (fetchPosts chanId) (postTable chanId) PostInfo.postId :=
  fun _ _ request _ hpage => ⟨request.count, fetchPosts_eq hpage⟩

end Table

section Steps

variable {chanId : ℤ} {w : World}

/-- A post that is listed stays in the list. -/
theorem postTable_stays {event : Event} {w' : World} (h : Sound w) (hstep : Step w event w') :
    (postTable chanId w).map PostInfo.postId ⊆ (postTable chanId w').map PostInfo.postId := by
  rw [← step_iff.mp hstep]
  intro id hid
  obtain ⟨row, hrow, hkey, hstatus⟩ := mem_postTable.mp hid
  have hcycle := PostLifeCycle.step h.consistent h.statuses event
  obtain ⟨new, hnew, hsame⟩ := hcycle.kept row hrow
  refine mem_postTable.mpr ⟨new, hnew, hsame.trans hkey, ?_⟩
  by_contra hhidden
  have hne : new.status ≠ row.status := by
    intro heq
    rw [heq] at hhidden
    exact hhidden hstatus
  have hchange := (hcycle.related row hrow new hnew hsame).status hne
  generalize new.status = stat at hchange hhidden
  cases hchange with
  | notify => exact hhidden (Or.inl rfl)
  | delete => exact hhidden (Or.inr rfl)

/-- The channel of a stored post is found in memory. -/
theorem Consistent.chan_of_post (h : Consistent w) {requested : UInt64} {row : PostRow}
    (hrow : row ∈ w.db.posts) (hchan : row.channelId = bindInt64 requested) :
    ∃ chan, w.mem.chanGetById requested.toNat = some chan := by
  have hitem : (row.channelId, row.postId) ∈ postIds w.db := List.mem_map_of_mem hrow
  have hknown := h.counted.postIds.known _ hitem
  rw [nextPostIds, List.map_map] at hknown
  obtain ⟨channel, hchannel, hid⟩ := List.mem_map.mp hknown
  obtain ⟨chan, hmem, rfl⟩ := (h.mirror.mirrors.mem_rows channel).mp hchannel
  have hbounds := h.mirror.mirrors.chanId_bounds hmem
  have hsame : ((w.mem.chan chan).info.chanId : ℤ) = bindInt64 requested := hid.trans hchan
  have hbind : bindInt64 requested = requested.toNat := bindInt64_of_pos (by rw [← hsame]; omega)
  refine ⟨chan, h.mirror.mirrors.tables.chanGetById_eq_some.mpr ⟨hmem, ?_⟩⟩
  omega

theorem Counted.find_post {db : Db} (h : Counted db) {row : PostRow} {channelId postId : ℤ}
    (hrow : row ∈ db.posts) (hat : row.at channelId postId = true) :
    db.posts.find? (PostRow.at channelId postId) = some row := by
  obtain ⟨other, hother⟩ := Option.isSome_iff_exists.mp (List.find?_isSome.mpr ⟨row, hrow, hat⟩)
  rw [hother, h.post_eq (List.mem_of_find?_eq_some hother) hrow (List.find?_some hother) hat]

theorem PostRow.at_of_key {row : PostRow} {channelId postId : ℤ}
    (hkey : row.key = (channelId, postId)) : row.at channelId postId = true := by
  rw [PostRow.at, decide_eq_true_eq]
  exact Prod.mk.inj hkey

/-- Setting the status of a post that is stored does not fail. -/
theorem dbSetPostStatus_done {db : Db} (pi : PostInfo) {row : PostRow} (hrow : row ∈ db.posts)
    (hkey : row.key = (pi.chanId, pi.postId)) :
    ∃ set, dbSetPostStatus db pi = some set ∧ { row with status := pi.stat } ∈ set.2.posts := by
  have hat : row.at pi.chanId pi.postId = true := PostRow.at_of_key hkey
  have hmem : { row with status := pi.stat } ∈ updateWhere db.posts
      (PostRow.at pi.chanId pi.postId) fun row => { row with status := pi.stat } :=
    mem_updateWhere.mpr (Or.inr ⟨row, hrow, hat, rfl⟩)
  have hatNew : PostRow.at pi.chanId pi.postId { row with status := pi.stat } = true := hat
  obtain ⟨found, hfind⟩ := Option.isSome_iff_exists.mp (List.find?_isSome.mpr ⟨_, hmem, hatNew⟩)
  exact ⟨_, Option.map_eq_some_iff.mpr ⟨found, hfind, rfl⟩, hmem⟩

/-- The request of the owner that notifies a declared post is carried out. -/
theorem notifyPost_done (h : Sound w) {ctx : Ctx} {requested postId : UInt64}
    (hready : ctx.didIsReady = true) (howner : OwnerToken ctx) {row : PostRow}
    (hrow : row ∈ w.db.posts) (haddressed : row.Addressed requested postId)
    (hdeclared : row.status = .declared) :
    ∃ new ∈ (step w (.request ctx (.notifyPost requested postId))).db.posts,
      new.key = row.key ∧ new.status = .available := by
  have hat : row.at (bindInt64 requested) (bindInt64 postId) = true :=
    PostRow.at_of_key haddressed
  obtain ⟨chan, hfound⟩ := h.consistent.chan_of_post hrow (Prod.mk.inj haddressed).1
  have hstat : dbGetPostStatus w.db (bindInt64 requested) (bindInt64 postId) = some .declared := by
    rw [dbGetPostStatus, h.consistent.counted.find_post hrow hat, Option.map_some, hdeclared]
  have hlive : decide (PostStat.declared ≠ .deleted) = true := rfl
  obtain ⟨set, hset, hmem⟩ :=
    dbSetPostStatus_done (blankPost requested postId .available 0) hrow
      (by simpa only [blankPost, PostRow.Addressed] using haddressed)
  obtain ⟨pi, hpi⟩ := Option.isSome_iff_exists.mp (dbGetPost_of_dbSetPostStatus hset)
  have hget : dbGetPost set.2 (bindInt64 requested) (bindInt64 postId) set.1 = some pi := by
    simpa only [blankPost] using hpi
  have hdone : ∃ outs, handle w ctx (.notifyPost requested postId) = .done
      { world := ⟨w.mem, set.2⟩, outs := outs, replies := [.empty] } := by
    simp only [handle, hdlNotifyPostReq, ready_eq_done, withOwner_eq_done, withChan_eq_done,
      dbCall_eq_done, check_eq_done]
    exact ⟨_, hready, howner, chan, hfound, _, hstat, hlive, set, hset, pi, hget, rfl⟩
  obtain ⟨outs, hdone⟩ := hdone
  refine ⟨{ row with status := .available }, ?_, rfl, rfl⟩
  rw [step_request_db, (respond_done hdone).1]
  exact hmem

/-- A post comes to be listed when the owner notifies it. -/
theorem notifies_of_appears (h : Sound w) {event : Event} {row new : PostRow}
    (hrow : row ∈ w.db.posts) (hnew : new ∈ (step w event).db.posts) (hkey : new.key = row.key)
    (hhidden : ¬ (row.status = .available ∨ row.status = .deleted))
    (hlisted : new.status = .available ∨ new.status = .deleted) :
    ∃ ctx requested postId, event = .request ctx (.notifyPost requested postId) ∧
      ctx.didIsReady = true ∧ OwnerToken ctx ∧ row.Addressed requested postId ∧
        row.status = .declared := by
  have hne : new.status ≠ row.status := by
    intro heq
    rw [heq] at hlisted
    exact hhidden hlisted
  have hchange := ((PostLifeCycle.step h.consistent h.statuses event).related row hrow new hnew
    hkey).status hne
  generalize new.status = stat at hchange
  cases hchange with
  | delete haddressed hold => exact absurd (Or.inl hold) hhidden
  | @notify ctx requested postId haddressed hold =>
      rw [step_request_db] at hnew
      obtain ⟨carried, hdone⟩ | ⟨hsame, -⟩ := respond_cases w ctx (.notifyPost requested postId)
      · simp only [handle, hdlNotifyPostReq, ready_eq_done, withOwner_eq_done] at hdone
        exact ⟨ctx, requested, postId, rfl, hdone.1, hdone.2.1, haddressed, hold⟩
      · rw [hsame] at hnew
        exact absurd (eq_of_key_eq h.consistent.counted.nodup_postKeys hnew hrow hkey ▸ rfl) hne

end Steps

section Reading

variable {chanId : ℤ} {reader : Reader World PostInfo}

/-- A post that appears before the cursor had been declared, and is notified. -/
theorem backfills_iff (h : Sound reader.state)
    (hreader : reader.Sound (postTable chanId) PostInfo.postId 0) (event : Event) :
    Backfills (postTable chanId) PostInfo.postId reader (step reader.state event) ↔
      NotifiesBehind chanId reader (.event event) := by
  constructor
  · rintro ⟨info, hinfo, hle, hfresh⟩
    obtain ⟨new, hnew, hkey, hlisted⟩ := mem_postTable.mp (List.mem_map_of_mem hinfo)
    have hpos : 1 ≤ info.postId := by
      have hitem : new.key ∈ Feeds.postIds (step reader.state event).db :=
        List.mem_map_of_mem hnew
      rw [hkey] at hitem
      exact (h.consistent.step _ event).counted.postIds.item_pos hitem
    -- the cursor is at a post of the channel, and there is no gap before it
    obtain hstart | hcursor := hreader.cursor
    · omega
    obtain ⟨last, hlast, hlastKey, -⟩ := mem_postTable.mp hcursor
    obtain ⟨hchan, hid⟩ := Prod.mk.inj hlastKey
    obtain ⟨old, hold, holdKey⟩ :=
      h.consistent.counted.post_between hlast hpos (hle.trans_eq hid.symm)
    rw [hchan] at holdKey
    have hhidden : ¬ (old.status = .available ∨ old.status = .deleted) :=
      fun hlisted => hfresh (mem_postTable.mpr ⟨old, hold, holdKey, hlisted⟩)
    obtain ⟨ctx, requested, postId, rfl, hready, howner, haddressed, hdeclared⟩ :=
      notifies_of_appears h hold hnew (hkey.trans holdKey.symm) hhidden hlisted
    obtain ⟨holdChan, holdId⟩ := Prod.mk.inj holdKey
    exact ⟨ctx, requested, postId, rfl, hready, howner, old, hold, haddressed, holdChan, hdeclared,
      holdId.trans_le hle⟩
  · rintro ⟨ctx, requested, postId, hevent, hready, howner, row, hrow, haddressed, hchan,
      hdeclared, hle⟩
    cases hevent
    obtain ⟨new, hnew, hkey, havail⟩ := notifyPost_done h hready howner hrow haddressed hdeclared
    have hrowKey : row.key = (chanId, row.postId) := by rw [← hchan]; rfl
    obtain ⟨info, hinfo, hid⟩ := List.mem_map.mp
      (mem_postTable.mpr ⟨new, hnew, hkey.trans hrowKey, Or.inl havail⟩)
    refine ⟨info, hinfo, hid.trans_le hle, fun hlisted => ?_⟩
    obtain ⟨old, hold, holdKey, hstatus⟩ := mem_postTable.mp hlisted
    rw [hid] at holdKey
    have hsame := eq_of_key_eq h.consistent.counted.nodup_postKeys hold hrow
      (holdKey.trans hrowKey.symm)
    rw [hsame, hdeclared] at hstatus
    simp at hstatus

/-- What a reader has got are posts of the channel, each once and in their order. -/
theorem readPosts_sound {reader' : Reader World PostInfo} {reading : Reading Event PostsRequest}
    (h : Sound reader.state ∧ reader.Sound (postTable chanId) PostInfo.postId 0)
    (hstep : Performs (readPosts chanId) reader reading reader') :
    Sound reader'.state ∧ reader'.Sound (postTable chanId) PostInfo.postId 0 :=
  sound_next (fun _ _ _ hsound hstep => hsound.step hstep) (fetches_fetchPosts chanId)
    (fun _ hsound => nodup_postTable hsound.consistent.counted)
    (fun _ _ _ hsound hstep => postTable_stays hsound hstep) h hstep

/-- A reader has every post up to where it is, and ends with all of them, as long as the owner does
not notify a declared post that it has gone past. -/
theorem posts_complete_iff (chanId : ℤ) (readings : List (Reading Event PostsRequest)) :
    Always (Performs (readPosts chanId))
        (fun reader => reader.Complete (postTable chanId) PostInfo.postId ∧
          EndsWithAll chanId reader)
        ⟨.start Db.init, 0, []⟩ readings ↔
      EachStep (Performs (readPosts chanId))
        (fun reader reading _ => ¬ NotifiesBehind chanId reader reading)
        ⟨.start Db.init, 0, []⟩ readings := by
  have hempty : ∀ row ∈ postTable chanId (.start Db.init), 0 < row.postId := List.forall_mem_nil _
  have hends : ∀ reader : Reader World PostInfo, Sound reader.state →
      reader.Sound (postTable chanId) PostInfo.postId 0 →
        reader.Complete (postTable chanId) PostInfo.postId →
          reader.Complete (postTable chanId) PostInfo.postId ∧ EndsWithAll chanId reader := by
    intro reader hsound hreader hcomplete
    refine ⟨hcomplete, fun request page hpage hshort => ?_⟩
    rw [fetchPosts_eq hpage] at hshort ⊢
    exact hcomplete.drained hreader (nodup_postTable hsound.consistent.counted) hshort
  have hcomplete := readerComplete_iff (fun _ _ _ hsound hstep => hsound.step hstep)
    (fetches_fetchPosts chanId) (fun _ hsound => nodup_postTable hsound.consistent.counted)
    (fun _ _ _ hsound hstep => postTable_stays hsound hstep) hends (fun _ hkept => hkept.1)
    Sound.init hempty readings
  refine hcomplete.trans (eachStep_congr
    (fun reader => Sound reader.state ∧ reader.Sound (postTable chanId) PostInfo.postId 0)
    (fun _ _ _ h hstep => readPosts_sound h hstep) (fun reader reading reader' h hstep => ?_)
    ⟨Sound.init, .nil, List.forall_mem_nil _, List.forall_mem_nil _, Or.inl rfl⟩ readings)
  cases reading with
  | event event =>
      obtain rfl : { reader with state := step reader.state event } = reader' :=
        Option.some.inj hstep
      exact not_congr (backfills_iff h.1 h.2 event)
  | page request =>
      -- a page changes nothing in the service
      obtain ⟨page, -, rfl⟩ := Option.map_eq_some_iff.mp hstep
      refine iff_of_true ?_ ?_
      · rintro ⟨row, hrow, -, hfresh⟩
        exact hfresh (List.mem_map_of_mem hrow)
      · rintro ⟨ctx, requested, postId, hevent, -⟩
        cases hevent

end Reading

end FeedsService.Feeds
