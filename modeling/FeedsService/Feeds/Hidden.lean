import FeedsService.Feeds.ChannelMethod

/-!
# Hidden content

A comment that is deleted or blocked and a post that is deleted or declared keep their
content and thumbnails in the database.  Blanking these columns does not change what
the read requests of `feeds.c` answer; `get_multi_comments` sends them.
-/

namespace FeedsService.Feeds

open FeedsService.Library

section Blanking

def CommentRow.Hidden (row : CommentRow) : Bool :=
  row.status = .deleted ∨ row.status = .blocked

def PostRow.Hidden (row : PostRow) : Bool :=
  row.status = .deleted ∨ row.status = .declared

def CommentRow.blank (row : CommentRow) : CommentRow :=
  if row.Hidden then { row with content := [], thumbnails := [] } else row

def PostRow.blank (row : PostRow) : PostRow :=
  if row.Hidden then { row with content := [], thumbnails := [] } else row

/-- The database without the hidden content. -/
def Db.blank (db : Db) : Db :=
  { db with
    comments := db.comments.map CommentRow.blank
    posts := db.posts.map PostRow.blank }

/-- The databases differ only in the content and thumbnails of hidden rows. -/
def SameVisible (db db' : Db) : Prop :=
  db'.blank = db.blank

/-- Blanking leaves every other column alone. -/
theorem CommentRow.blank_eq (row : CommentRow) :
    row.blank = { row with content := row.blank.content, thumbnails := row.blank.thumbnails } := by
  unfold CommentRow.blank
  split <;> rfl

theorem PostRow.blank_eq (row : PostRow) :
    row.blank = { row with content := row.blank.content, thumbnails := row.blank.thumbnails } := by
  unfold PostRow.blank
  split <;> rfl

theorem CommentRow.blank_column (field : QryFld) (row : CommentRow) :
    CommentRow.column field row.blank = CommentRow.column field row := by
  rw [row.blank_eq]
  cases field <;> rfl

theorem PostRow.blank_column (field : QryFld) (row : PostRow) :
    PostRow.column field row.blank = PostRow.column field row := by
  rw [row.blank_eq]
  cases field <;> rfl

/-- A row that is not hidden is not blanked. -/
theorem CommentRow.blank_of_available {row : CommentRow} (h : row.status = .available) :
    row.blank = row := by
  simp [CommentRow.blank, CommentRow.Hidden, h]

theorem PostRow.blank_of_available {row : PostRow} (h : row.status = .available) :
    row.blank = row := by
  simp [PostRow.blank, PostRow.Hidden, h]

end Blanking

section Selection

variable {ρ : Type} {f : ρ → ρ} {column : QryFld → ρ → ℤ}

/-- The `LIMIT` of a query. -/
def QryCriteria.limited (qc : QryCriteria) (rows : List ρ) : List ρ :=
  if qc.maxcnt = 0 ∨ bindInt64 qc.maxcnt < 0 then rows
  else rows.take (bindInt64 qc.maxcnt).toNat

/-- The bounds that the criteria put on a column. -/
def QryCriteria.within (qc : QryCriteria) (value : ℤ) : Bool :=
  (qc.lower = 0 ∨ bindInt64 qc.lower ≤ value) ∧ (qc.upper = 0 ∨ value ≤ bindInt64 qc.upper)

/-- The `WHERE` and `ORDER BY` of a query. -/
def QryCriteria.ordered (qc : QryCriteria) (column : QryFld → ρ → ℤ) (rows : List ρ) :
    List ρ :=
  if qc.by = .none then rows
  else if qc.by = .id then
    (rows.filter fun row => qc.within (column qc.by row)).mergeSort
      fun left right => column .id left ≤ column .id right
  else
    (rows.filter fun row => qc.within (column qc.by row)).mergeSort
      fun left right => column qc.by right ≤ column qc.by left

theorem select_eq (qc : QryCriteria) (rows : List ρ) :
    qc.select column rows = qc.limited (qc.ordered column rows) :=
  rfl

theorem limited_map (qc : QryCriteria) (rows : List ρ) :
    qc.limited (rows.map f) = (qc.limited rows).map f := by
  unfold QryCriteria.limited
  split
  · rfl
  · rw [List.map_take]

theorem sorted_map (hcolumn : ∀ field row, column field (f row) = column field row)
    (p : ℤ → Bool) (field : QryFld) (r : ℤ → ℤ → Bool) (rows : List ρ) :
    ((rows.map f).filter fun row => p (column field row)).mergeSort
        (fun left right => r (column field left) (column field right)) =
      ((rows.filter fun row => p (column field row)).mergeSort
        fun left right => r (column field left) (column field right)).map f := by
  have hfilter : ((rows.map f).filter fun row => p (column field row)) =
      (rows.filter fun row => p (column field row)).map f := by
    rw [List.filter_map]
    congr 1
    apply List.filter_congr
    intro row _
    simp only [Function.comp, hcolumn]
  rw [hfilter, List.map_mergeSort]
  intro left _ right _
  simp only [hcolumn]

/-- The criteria look at the columns only. -/
theorem select_map (hcolumn : ∀ field row, column field (f row) = column field row)
    (qc : QryCriteria) (rows : List ρ) :
    qc.select column (rows.map f) = (qc.select column rows).map f := by
  rw [select_eq, select_eq, ← limited_map]
  congr 1
  unfold QryCriteria.ordered
  split
  · rfl
  · split
    · next hid =>
        rw [hid]
        exact sorted_map hcolumn qc.within .id (fun left right => left ≤ right) rows
    · exact sorted_map hcolumn qc.within qc.by (fun left right => right ≤ left) rows

/-- What is read of the selected rows. -/
theorem map_select_map {α : Type} {g : ρ → α}
    (hcolumn : ∀ field row, column field (f row) = column field row)
    (hg : ∀ row, g (f row) = g row) (qc : QryCriteria) (rows : List ρ) :
    (qc.select column (rows.map f)).map g = (qc.select column rows).map g := by
  rw [select_map hcolumn, List.map_map]
  apply List.map_congr_left
  intro row _
  exact hg row

theorem map_iterate_map {α : Type} {g : ρ → α}
    (hcolumn : ∀ field row, column field (f row) = column field row)
    (hg : ∀ row, g (f row) = g row) (qc : QryCriteria) (rows : List ρ) :
    (qc.iterate column (rows.map f)).map (List.map g) =
      (qc.iterate column rows).map (List.map g) := by
  unfold QryCriteria.iterate
  split
  · exact congrArg some (map_select_map hcolumn hg qc rows)
  · rfl

/-- So do the methods of `ChannelMethod`. -/
theorem MultiParams.select_map (hcolumn : ∀ field row, column field (f row) = column field row)
    (params : MultiParams) (rows : List ρ) :
    params.select column (rows.map f) = (params.select column rows).map f := by
  have hcut : ∀ limit rows, cut limit (rows.map f) = (cut limit rows).map f := by
    intro limit rows
    cases limit with
    | none => rfl
    | some count => exact List.map_take.symm
  unfold MultiParams.select
  dsimp only
  rw [← hcut]
  congr 1
  split
  · rfl
  · exact sorted_map hcolumn params.within params.condBy params.precedes rows

theorem filter_map_of {p : ρ → Bool} (hp : ∀ row, p (f row) = p row) (rows : List ρ) :
    (rows.map f).filter p = (rows.filter p).map f := by
  rw [List.filter_map]
  congr 1
  apply List.filter_congr
  intro row _
  exact hp row

end Selection

section Queries

/-- The comments joined with their authors. -/
theorem join_map {f : CommentRow → CommentRow} (hf : ∀ row, (f row).userId = row.userId)
    (users : List UserRow) (rows : List CommentRow) :
    ((rows.map f).flatMap fun row =>
        (users.filter fun user => user.userId = row.userId).map fun user => (row, user)) =
      (rows.flatMap fun row =>
        (users.filter fun user => user.userId = row.userId).map fun user => (row, user)).map
          (Prod.map f id) := by
  rw [List.flatMap_map, List.map_flatMap]
  apply List.flatMap_congr
  intro row _
  rw [List.map_map, hf]
  rfl

theorem row2post_blank (row : PostRow) : row2post row.blank = row2post row := by
  by_cases havail : row.status = .available
  · rw [PostRow.blank_of_available havail]
  · rw [row.blank_eq]
    simp only [row2post, havail, if_false]

theorem row2cmt_blank (joined : CommentRow × UserRow) :
    row2cmt (Prod.map CommentRow.blank id joined) = row2cmt joined := by
  obtain ⟨row, user⟩ := joined
  by_cases havail : row.status = .available
  · rw [Prod.map_apply, CommentRow.blank_of_available havail]
    rfl
  · rw [Prod.map_apply, row.blank_eq]
    simp only [row2cmt, havail, if_false, id]

variable (db : Db)

theorem dbIterPosts_blank (chanId : ℤ) (qc : QryCriteria) :
    dbIterPosts db.blank chanId qc = dbIterPosts db chanId qc := by
  unfold dbIterPosts Db.blank
  rw [filter_map_of fun row => by rw [row.blank_eq]]
  exact map_iterate_map PostRow.blank_column row2post_blank qc _

theorem dbIterCmts_blank (chanId postId : ℤ) (qc : QryCriteria) :
    dbIterCmts db.blank chanId postId qc = dbIterCmts db chanId postId qc := by
  unfold dbIterCmts Db.blank
  rw [filter_map_of fun row => by rw [row.blank_eq], join_map fun row => by rw [row.blank_eq]]
  exact map_iterate_map (fun field joined => CommentRow.blank_column field joined.1)
    row2cmt_blank qc _

theorem dbIterPostsLac_blank (chanId : ℤ) (qc : QryCriteria) :
    dbIterPostsLac db.blank chanId qc = dbIterPostsLac db chanId qc := by
  unfold dbIterPostsLac Db.blank
  rw [filter_map_of fun row => by rw [row.blank_eq]]
  apply map_iterate_map PostRow.blank_column
  intro row
  rw [row.blank_eq]
  rfl

/-- Only posts that are available, so not blanked, are selected. -/
theorem dbIterLikedPosts_blank (uid : UInt64) (qc : QryCriteria) :
    dbIterLikedPosts db.blank uid qc = dbIterLikedPosts db uid qc := by
  have hjoined : ∀ likes : List LikeRow,
      ((likes.flatMap fun like => db.blank.posts.filter
          (PostRow.at like.channelId like.postId)).filter fun row => row.status = .available) =
        (likes.flatMap fun like => db.posts.filter
          (PostRow.at like.channelId like.postId)).filter fun row => row.status = .available := by
    intro likes
    simp only [List.filter_flatMap, Db.blank]
    apply List.flatMap_congr
    intro like _
    rw [filter_map_of fun row => by rw [row.blank_eq]; rfl,
      filter_map_of fun row => by rw [row.blank_eq]]
    refine (List.map_congr_left fun row hrow => ?_).trans (List.map_id _)
    exact PostRow.blank_of_available (by simpa using (List.mem_filter.mp hrow).2)
  unfold dbIterLikedPosts
  dsimp only
  rw [hjoined]
  rfl

theorem dbIterCmtsLikes_blank (chanId postId : ℤ) (qc : QryCriteria) :
    dbIterCmtsLikes db.blank chanId postId qc = dbIterCmtsLikes db chanId postId qc := by
  unfold dbIterCmtsLikes Db.blank
  rw [filter_map_of fun row => by rw [row.blank_eq]]
  apply map_iterate_map CommentRow.blank_column
  intro row
  rw [row.blank_eq]
  rfl

end Queries

section Handlers

/-- The same outcome, over another database. -/
def Outcome.over (db : Db) : Outcome → Outcome
  | .ignored => .ignored
  | .failed err => .failed err
  | .done carried => .done { carried with world := ⟨carried.world.mem, db⟩ }

variable {db : Db} {w : World} {ctx : Ctx}

@[simp]
theorem ready_over (next : Outcome) : (ready ctx next).over db = ready ctx (next.over db) := by
  unfold ready
  split <;> rfl

@[simp]
theorem check_over (condition : Bool) (err : Err) (next : Outcome) :
    (check condition err next).over db = check condition err (next.over db) := by
  unfold check
  split <;> rfl

@[simp]
theorem withUinfo_over (next : UserInfo → Outcome) :
    (withUinfo ctx next).over db = withUinfo ctx fun uinfo => (next uinfo).over db := by
  unfold withUinfo
  split <;> rfl

@[simp]
theorem withOwner_over (next : Outcome) :
    (withOwner ctx next).over db = withOwner ctx (next.over db) := by
  simp only [withOwner, withUinfo_over, check_over]

@[simp]
theorem withChan_over (chanId : UInt64) (next : Ref → Outcome) :
    (withChan w chanId next).over db = withChan w chanId fun chan => (next chan).over db := by
  unfold withChan
  split <;> rfl

@[simp]
theorem withPost_over (chanId postId : UInt64) (next : Ref → Outcome) :
    (withPost w chanId postId next).over db =
      withPost w chanId postId fun chan => (next chan).over db := by
  simp only [withPost, withChan_over, check_over]

@[simp]
theorem dbCall_over {β : Type} (result : Option β) (err : Err) (next : β → Outcome) :
    (dbCall result err next).over db = dbCall result err fun value => (next value).over db := by
  unfold dbCall
  split <;> rfl

/-- What an outcome sends does not depend on the database that it leaves. -/
theorem result_over_outs (outcome : Outcome) (w w' : World) :
    ((outcome.over db).result w ctx).outs = (outcome.result w' ctx).outs := by
  cases outcome <;> rfl

/-- A read request of `feeds.c` runs on the blanked database as on the whole one. -/
theorem handleQuery_blank (m : Mem) (db : Db) (ctx : Ctx) (query : Query) :
    handleQuery ⟨m, db.blank⟩ ctx query = (handleQuery ⟨m, db⟩ ctx query).over db.blank := by
  cases query with
  | getMyChans qc =>
      simp only [handleQuery, hdlGetMyChansReq, ready_over, withOwner_over, dbCall_over]
      rfl
  | getMyChansMeta qc =>
      simp only [handleQuery, hdlGetMyChansMetaReq, ready_over, withOwner_over, dbCall_over]; rfl
  | getChans qc =>
      simp only [handleQuery, hdlGetChansReq, ready_over, withUinfo_over, dbCall_over]
      rfl
  | getChanDtl id =>
      simp only [handleQuery, hdlGetChanDtlReq, ready_over, withUinfo_over, withChan_over]; rfl
  | getSubChans qc =>
      simp only [handleQuery, hdlGetSubChansReq, ready_over, withUinfo_over, dbCall_over]
      rfl
  | getPostsLac chanId qc =>
      simp only [handleQuery, hdlGetPostsLacReq, ready_over, withUinfo_over, withChan_over,
        dbCall_over, dbIterPostsLac_blank]
      rfl
  | getLikedPosts qc =>
      simp only [handleQuery, hdlGetLikedPostsReq, ready_over, withUinfo_over,
        dbCall_over, dbIterLikedPosts_blank]
      rfl
  | getLikedData qc =>
      simp only [handleQuery, hdlGetLikedDataReq, ready_over, withUinfo_over, dbCall_over]; rfl
  | getCmtsLikes chanId postId qc =>
      simp only [handleQuery, hdlGetCmtsLikesReq, ready_over, withUinfo_over, withPost_over,
        dbCall_over, dbIterCmtsLikes_blank]
      rfl
  | getStats => simp only [handleQuery, hdlGetStatsReq, ready_over, withUinfo_over]; rfl
  | getSrvVer => rfl
  | getReportedCmts qc =>
      simp only [handleQuery, hdlGetReportedCmtsReq, ready_over, withOwner_over, dbCall_over]; rfl

theorem hdlGetPostsReq_blank (m : Mem) (db : Db) (ctx : Ctx) (chanId : UInt64)
    (qc : QryCriteria) :
    hdlGetPostsReq ⟨m, db.blank⟩ ctx chanId qc =
      (hdlGetPostsReq ⟨m, db⟩ ctx chanId qc).over db.blank := by
  simp only [hdlGetPostsReq, ready_over, withUinfo_over, withChan_over, dbCall_over,
    dbIterPosts_blank]
  rfl

theorem hdlGetCmtsReq_blank (m : Mem) (db : Db) (ctx : Ctx) (chanId postId : UInt64)
    (qc : QryCriteria) :
    hdlGetCmtsReq ⟨m, db.blank⟩ ctx chanId postId qc =
      (hdlGetCmtsReq ⟨m, db⟩ ctx chanId postId qc).over db.blank := by
  simp only [hdlGetCmtsReq, ready_over, withUinfo_over, withPost_over, dbCall_over,
    dbIterCmts_blank]
  rfl

end Handlers

section Requests

/-- The read requests of both subsystems. -/
inductive ReadReq
  | getPosts (chanId : UInt64) (qc : QryCriteria)
  | getCmts (chanId postId : UInt64) (qc : QryCriteria)
  | query (query : Query)
  | getMultiComments (params : MultiParams)
  | getMultiLikesAndCommentsCount (params : MultiParams)
  | getMultiSubscribersCount (channelId : ℤ)

inductive Answer
  | outs (outs : List Out)
  | comments (responses : List (Bool × List MultiComment))
  | posts (responses : List (Bool × List MultiPost))
  | channels (responses : List (Bool × List MultiChannel))

/-- Everything that is sent for a read request. -/
def answer (sizes : Sizes) (scan : Scan) (w : World) (ctx : Ctx) : ReadReq → Answer
  | .getPosts chanId qc => .outs (respond w ctx (.getPosts chanId qc)).outs
  | .getCmts chanId postId qc => .outs (respond w ctx (.getCmts chanId postId qc)).outs
  | .query query => .outs (respond w ctx (.query query)).outs
  | .getMultiComments params =>
      .comments (if isMember ctx then onGetMultiComments sizes scan w.db params else [])
  | .getMultiLikesAndCommentsCount params =>
      .posts (if isMember ctx then onGetMultiLikesAndCommentsCount sizes scan w.db params else [])
  | .getMultiSubscribersCount channelId =>
      .channels (if isMember ctx then onGetMultiSubscribersCount sizes scan w.db channelId else [])

/-- A `get_multi_comments` request of a member that selects a hidden comment. -/
def ListsHidden (scan : Scan) (w : World) (ctx : Ctx) (req : ReadReq) : Prop :=
  ∃ params, req = .getMultiComments params ∧ isMember ctx = true ∧ params.valid = true ∧
    ∃ joined ∈ multiCommentRows scan w.db params, joined.1.Hidden = true

variable {sizes : Sizes} {scan : Scan} {ctx : Ctx} {db db' : Db} {params : MultiParams}

/-- Which comments are selected does not depend on their content. -/
theorem multiCommentRows_map {f : CommentRow → CommentRow}
    (hf : ∀ row, f row = { row with content := (f row).content, thumbnails := (f row).thumbnails })
    (posts : List PostRow) :
    multiCommentRows scan { db with comments := db.comments.map f, posts := posts } params =
      (multiCommentRows scan db params).map (Prod.map f id) := by
  have hcolumn : ∀ field (joined : CommentRow × UserRow),
      CommentRow.column field (Prod.map f id joined).1 = CommentRow.column field joined.1 := by
    intro field joined
    rw [Prod.map_fst, hf]
    cases field <;> rfl
  have hjoined : joinedComments { db with comments := db.comments.map f, posts := posts } =
      (joinedComments db).map (Prod.map f id) := by
    unfold joinedComments
    dsimp only
    rw [join_map fun row => by rw [hf]]
  unfold multiCommentRows
  rw [hjoined, scan.visit_map, filter_map_of fun joined => by rw [Prod.map_fst, hf],
    params.select_map hcolumn]

theorem hidden_blank (row : CommentRow) : row.blank.Hidden = row.Hidden := by
  rw [row.blank_eq]
  rfl

theorem blank_of_not_hidden {row : CommentRow} (h : row.Hidden = false) : row.blank = row := by
  simp [CommentRow.blank, h]

/-- Where nothing hidden is selected, the selection shows in the blanked database. -/
theorem multiCommentRows_of_visible
    (hvisible : ∀ joined ∈ multiCommentRows scan db params, joined.1.Hidden = false) :
    multiCommentRows scan db.blank params = multiCommentRows scan db params := by
  have hmap : multiCommentRows scan db.blank params =
      (multiCommentRows scan db params).map (Prod.map CommentRow.blank id) :=
    multiCommentRows_map CommentRow.blank_eq _
  rw [hmap]
  refine (List.map_congr_left fun joined hjoined => ?_).trans (List.map_id _)
  rw [Prod.map_apply', blank_of_not_hidden (hvisible joined hjoined)]
  rfl

/-- What is selected is hidden in one database exactly if it is in the other. -/
theorem visible_of_sameVisible (hsame : SameVisible db db')
    (hvisible : ∀ joined ∈ multiCommentRows scan db params, joined.1.Hidden = false) :
    ∀ joined ∈ multiCommentRows scan db' params, joined.1.Hidden = false := by
  intro joined hjoined
  have hblank : Prod.map CommentRow.blank id joined ∈ multiCommentRows scan db.blank params := by
    have hmap : multiCommentRows scan db'.blank params =
        (multiCommentRows scan db' params).map (Prod.map CommentRow.blank id) :=
      multiCommentRows_map CommentRow.blank_eq _
    rw [← show db'.blank = db.blank from hsame, hmap]
    exact List.mem_map_of_mem hjoined
  rw [multiCommentRows_of_visible hvisible] at hblank
  have hhidden := hvisible _ hblank
  rwa [Prod.map_fst, hidden_blank] at hhidden

theorem multiPosts_blank (sizes : Sizes) (scan : Scan) (db : Db) (params : MultiParams) :
    onGetMultiLikesAndCommentsCount sizes scan db.blank params =
      onGetMultiLikesAndCommentsCount sizes scan db params := by
  have hitem : ∀ row : PostRow, multiPost row.blank = multiPost row := by
    intro row
    rw [row.blank_eq]
    rfl
  have hrows : multiPostRows scan db.blank params =
      (multiPostRows scan db params).map PostRow.blank := by
    unfold multiPostRows Db.blank
    dsimp only
    rw [scan.visit_map, filter_map_of fun row => by rw [row.blank_eq],
      params.select_map PostRow.blank_column]
  unfold onGetMultiLikesAndCommentsCount
  rw [hrows, multiResponses_congr (f := PostRow.blank) (fun _ => rfl) hitem]

/-- What a request that lists nothing hidden answers can be told from the blanked
database. -/
theorem answer_blank {m : Mem} {req : ReadReq} (hnot : ¬ ListsHidden scan ⟨m, db⟩ ctx req) :
    answer sizes scan ⟨m, db.blank⟩ ctx req = answer sizes scan ⟨m, db⟩ ctx req := by
  cases req with
  | getPosts chanId qc =>
      rw [answer, respond, handle, hdlGetPostsReq_blank, result_over_outs]
      rfl
  | getCmts chanId postId qc =>
      rw [answer, respond, handle, hdlGetCmtsReq_blank, result_over_outs]
      rfl
  | query query =>
      rw [answer, respond, handle, handleQuery_blank, result_over_outs]
      rfl
  | getMultiComments params =>
      unfold answer
      dsimp only
      by_cases hmember : isMember ctx = true
      · rw [if_pos hmember, if_pos hmember]
        unfold onGetMultiComments
        by_cases hvalid : params.valid = true
        · rw [if_pos hvalid, if_pos hvalid, multiCommentRows_of_visible]
          intro joined hjoined
          by_contra hhidden
          exact hnot ⟨params, rfl, hmember, hvalid, joined, hjoined, by simpa using hhidden⟩
        · rw [if_neg hvalid, if_neg hvalid]
      · rw [if_neg hmember, if_neg hmember]
  | getMultiLikesAndCommentsCount params =>
      rw [answer, multiPosts_blank]
      rfl
  | getMultiSubscribersCount channelId => rfl

/-- Another content for every hidden comment. -/
def CommentRow.mark (row : CommentRow) : CommentRow :=
  if row.Hidden then { row with content := row.content ++ [0] } else row

theorem CommentRow.mark_eq (row : CommentRow) :
    row.mark = { row with content := row.mark.content, thumbnails := row.mark.thumbnails } := by
  unfold CommentRow.mark
  split <;> rfl

theorem CommentRow.blank_mark (row : CommentRow) : row.mark.blank = row.blank := by
  unfold CommentRow.mark
  split
  · next hhidden =>
      have hmarked : ({ row with content := row.content ++ [0] } : CommentRow).Hidden = true :=
        hhidden
      simp [CommentRow.blank, hhidden, hmarked]
  · rfl

def Db.mark (db : Db) : Db :=
  { db with comments := db.comments.map CommentRow.mark }

theorem sameVisible_mark (db : Db) : SameVisible db db.mark := by
  unfold SameVisible Db.blank Db.mark
  dsimp only
  rw [List.map_map]
  congr 2
  funext row
  exact row.blank_mark

/-- A request that lists a hidden comment shows its content. -/
theorem ListsHidden.shows {w : World} {req : ReadReq} (h : ListsHidden scan w ctx req) :
    answer sizes scan ⟨w.mem, w.db.mark⟩ ctx req ≠ answer sizes scan w ctx req := by
  obtain ⟨params, rfl, hmember, hvalid, joined, hjoined, hhidden⟩ := h
  have hmap : multiCommentRows scan w.db.mark params =
      (multiCommentRows scan w.db params).map (Prod.map CommentRow.mark id) :=
    multiCommentRows_map CommentRow.mark_eq _
  intro hsame
  simp only [answer, hmember, if_true, onGetMultiComments, hvalid, Answer.comments.injEq,
    hmap] at hsame
  have hitems := congrArg (List.flatMap Prod.snd) hsame
  rw [flatMap_multiResponses, flatMap_multiResponses, List.nil_append, List.nil_append,
    List.map_map] at hitems
  have hcontent := congrArg MultiComment.content (List.map_inj_left.mp hitems joined hjoined)
  have hlength := congrArg List.length hcontent
  simp [multiComment, CommentRow.mark, hhidden] at hlength

/-- A read request answers the same over all databases that differ in hidden content only
exactly if it is not a `get_multi_comments` that lists a hidden comment. -/
theorem answers_iff (sizes : Sizes) (scan : Scan) (w : World) (ctx : Ctx) (req : ReadReq) :
    (∀ db, SameVisible w.db db →
      answer sizes scan ⟨w.mem, db⟩ ctx req = answer sizes scan w ctx req) ↔
      ¬ ListsHidden scan w ctx req := by
  constructor
  · intro hanswers hlists
    exact hlists.shows (hanswers w.db.mark (sameVisible_mark w.db))
  · intro hnot db hsame
    have hother : ¬ ListsHidden scan ⟨w.mem, db⟩ ctx req := by
      rintro ⟨params, rfl, hmember, hvalid, joined, hjoined, hhidden⟩
      have hvisible : ∀ joined ∈ multiCommentRows scan w.db params, joined.1.Hidden = false := by
        intro joined hjoined
        by_contra hhidden
        exact hnot ⟨params, rfl, hmember, hvalid, joined, hjoined, by simpa using hhidden⟩
      rw [visible_of_sameVisible hsame hvisible joined hjoined] at hhidden
      cases hhidden
    calc answer sizes scan ⟨w.mem, db⟩ ctx req
        = answer sizes scan ⟨w.mem, db.blank⟩ ctx req := (answer_blank hother).symm
      _ = answer sizes scan ⟨w.mem, w.db.blank⟩ ctx req := by
          rw [show db.blank = w.db.blank from hsame]
      _ = answer sizes scan w ctx req := answer_blank hnot

/-- A member reads the comment that its author has deleted. -/
theorem not_answers_same :
    ¬ ∀ (sizes : Sizes) (scan : Scan) (w : World) (ctx : Ctx) (req : ReadReq) (db : Db),
      SameVisible w.db db →
        answer sizes scan ⟨w.mem, db⟩ ctx req = answer sizes scan w ctx req := by
  intro h
  let author : UserRow := ⟨2, "did:author", "author", "", "", 0, []⟩
  let deleted : CommentRow := ⟨1, 1, 1, 0, 2, 0, 0, 0, .deleted, "", "", [], [7]⟩
  let w : World := ⟨Mem.init, { Db.init with users := [author], comments := [deleted] }⟩
  let member : Ctx :=
    { «from» := "phone"
      tsxId := 1
      didIsReady := true
      now := 0
      uinfo := some ⟨3, "did:member", "member", "", none, none⟩
      maxContentLen := 1024 }
  have hlists : ListsHidden .stored w member (.getMultiComments ⟨1, 1, 0, 0, 0, 0⟩) :=
    ⟨⟨1, 1, 0, 0, 0, 0⟩, rfl, rfl, by decide, (deleted, author), by decide, by decide⟩
  exact hlists.shows (h ⟨128, 224, 128, 32, 128, 16⟩ .stored w member _ _ (sameVisible_mark w.db))

end Requests

end FeedsService.Feeds
