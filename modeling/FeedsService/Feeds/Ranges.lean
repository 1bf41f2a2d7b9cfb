import FeedsService.Feeds.Hidden
import FeedsService.Library.Selections

/-!
# What range queries answer

The nine iterators that take criteria, against what the criteria say: the rows of a base set
within the bounds, as unsigned numbers, in the order of the column, cut to the count.
-/

namespace FeedsService.Feeds

open FeedsService.Library

section Criteria

/-- The `uint64_t` that is bound or stored as a signed integer. -/
def unsigned (value : ℤ) : UInt64 :=
  .ofInt value

namespace QryCriteria

variable (qc : QryCriteria)

/-- The value lies within the bounds that are not zero. -/
def Admits (value : ℤ) : Bool :=
  qc.by = .none ∨
    ((qc.lower = 0 ∨ qc.lower ≤ unsigned value) ∧ (qc.upper = 0 ∨ unsigned value ≤ qc.upper))

/-- Ascending for ids and descending for times. -/
def Orders (left right : ℤ) : Bool :=
  match qc.by with
  | .none => true
  | .id => unsigned left ≤ unsigned right
  | .updAt | .createdAt => unsigned right ≤ unsigned left

def count : Option ℕ :=
  if qc.maxcnt = 0 then none else some qc.maxcnt.toNat

/-- The result is what the criteria say of the rows. -/
def Means {ρ : Type} (column : QryFld → ρ → ℤ) (rows result : List ρ) : Prop :=
  Lists (fun row => qc.Admits (column qc.by row))
    (fun left right => qc.Orders (column qc.by left) (column qc.by right)) qc.count rows result

/-- What the columns hold: ids and times. -/
structure Stored {ρ : Type} (column : QryFld → ρ → ℤ) (rows : List ρ) : Prop where
  length : rows.length < 2 ^ 63
  low : ∀ row ∈ rows, 0 ≤ column qc.by row
  high : ∀ row ∈ rows, column qc.by row < 2 ^ 63

/-- A bound from 2^63 on, which is bound as a negative number, does not matter to the value:
the other bound leaves it out. -/
structure Fits (value : ℤ) : Prop where
  lower : 2 ^ 63 ≤ qc.lower.toNat →
    qc.upper ≠ 0 ∧ (qc.upper.toNat < 2 ^ 63 → qc.upper.toNat < value)
  upper : 2 ^ 63 ≤ qc.upper.toNat →
    qc.lower ≠ 0 ∧ (qc.lower.toNat < 2 ^ 63 → value < qc.lower.toNat)

end QryCriteria

theorem bindInt64_of_large {value : UInt64} (hlarge : 2 ^ 63 ≤ value.toNat) :
    bindInt64 value < 0 := by
  have hlt := value.toNat_lt
  simp only [bindInt64, toInt64, Int.bmod_def]
  split <;> omega

theorem toNat_unsigned {value : ℤ} (hlow : 0 ≤ value) (hhigh : value < 2 ^ 63) :
    ((unsigned value).toNat : ℤ) = value := by
  have hfits : (value % 2 ^ 64).toNat < 2 ^ 64 := by omega
  rw [unsigned, UInt64.ofInt, UInt64.toNat_ofNat_of_lt' hfits]
  omega

theorem le_unsigned_iff {bound : UInt64} {value : ℤ} (hlow : 0 ≤ value) (hhigh : value < 2 ^ 63) :
    bound ≤ unsigned value ↔ (bound.toNat : ℤ) ≤ value := by
  have hvalue := toNat_unsigned hlow hhigh
  rw [UInt64.le_iff_toNat_le]
  omega

theorem unsigned_le_iff {bound : UInt64} {value : ℤ} (hlow : 0 ≤ value) (hhigh : value < 2 ^ 63) :
    unsigned value ≤ bound ↔ value ≤ bound.toNat := by
  have hvalue := toNat_unsigned hlow hhigh
  rw [UInt64.le_iff_toNat_le]
  omega

/-- A lower bound below 2^63 is compared as it is, and a larger one is below every value. -/
theorem bindInt64_le_iff {bound : UInt64} {value : ℤ} (hlow : 0 ≤ value) :
    bindInt64 bound ≤ value ↔ (bound.toNat : ℤ) ≤ value ∨ 2 ^ 63 ≤ bound.toNat := by
  rcases Nat.lt_or_ge bound.toNat (2 ^ 63) with hsmall | hlarge
  · rw [bindInt64_of_small hsmall]
    omega
  · have hneg := bindInt64_of_large hlarge
    omega

theorem le_bindInt64_iff {bound : UInt64} {value : ℤ} (hlow : 0 ≤ value) :
    value ≤ bindInt64 bound ↔ value ≤ bound.toNat ∧ bound.toNat < 2 ^ 63 := by
  rcases Nat.lt_or_ge bound.toNat (2 ^ 63) with hsmall | hlarge
  · rw [bindInt64_of_small hsmall]
    omega
  · have hneg := bindInt64_of_large hlarge
    omega

namespace QryCriteria

variable (qc : QryCriteria)

/-- What SQLite keeps, with the bounds as signed numbers. -/
def Keeps (value : ℤ) : Bool :=
  qc.by = .none ∨ qc.within value

def Sorts (left right : ℤ) : Bool :=
  match qc.by with
  | .none => true
  | .id => left ≤ right
  | .updAt | .createdAt => right ≤ left

theorem sorts_trans (left middle right : ℤ) (hleft : qc.Sorts left middle = true)
    (hright : qc.Sorts middle right = true) : qc.Sorts left right = true := by
  revert hleft hright
  rw [Sorts, Sorts, Sorts]
  cases qc.by with
  | none => exact fun _ _ => rfl
  | id | updAt | createdAt =>
      simp only [decide_eq_true_eq]
      omega

theorem sorts_total (left right : ℤ) : (qc.Sorts left right || qc.Sorts right left) = true := by
  rw [Sorts, Sorts]
  cases qc.by with
  | none => rfl
  | id | updAt | createdAt =>
      simp only [Bool.or_eq_true, decide_eq_true_eq]
      omega

theorem count_ne_zero : qc.count ≠ some 0 := by
  intro hcount
  rw [count] at hcount
  split at hcount
  · cases hcount
  · next hne => exact hne (UInt64.toNat_inj.mp (Option.some.inj hcount))

/-- A count from 2^63 on is no limit, and none is needed. -/
theorem limited_eq_cut {ρ : Type} {rows : List ρ} (hlength : rows.length < 2 ^ 63) :
    qc.limited rows = cut qc.count rows := by
  rw [limited, count]
  by_cases hzero : qc.maxcnt = 0
  · rw [if_pos (.inl hzero), if_pos hzero]
    rfl
  · rw [if_neg hzero]
    rcases Nat.lt_or_ge qc.maxcnt.toNat (2 ^ 63) with hsmall | hlarge
    · have hlimit : ¬(qc.maxcnt = 0 ∨ (qc.maxcnt.toNat : ℤ) < 0) :=
        not_or.mpr ⟨hzero, by omega⟩
      rw [bindInt64_of_small hsmall, if_neg hlimit, Int.toNat_natCast]
      rfl
    · rw [if_pos (.inr (bindInt64_of_large hlarge)), cut_of_length_le (by omega)]

theorem ordered_eq {ρ : Type} (column : QryFld → ρ → ℤ) (rows : List ρ) (hby : qc.by ≠ .none) :
    qc.ordered column rows = (rows.filter fun row => qc.Keeps (column qc.by row)).mergeSort
      fun left right => qc.Sorts (column qc.by left) (column qc.by right) := by
  have hkeeps : (fun row => qc.Keeps (column qc.by row)) =
      fun row => qc.within (column qc.by row) := by
    funext row
    simp only [Keeps, hby, false_or, Bool.decide_eq_true]
  rw [hkeeps, ordered, if_neg hby]
  unfold Sorts
  cases hfield : qc.by with
  | none => exact absurd hfield hby
  | id => rfl
  | updAt | createdAt => rfl

/-- What SQLite answers. -/
theorem select_lists {ρ : Type} (column : QryFld → ρ → ℤ) {rows : List ρ}
    (hlength : rows.length < 2 ^ 63) :
    Lists (fun row => qc.Keeps (column qc.by row))
      (fun left right => qc.Sorts (column qc.by left) (column qc.by right))
      qc.count rows (qc.select column rows) := by
  by_cases hby : qc.by = .none
  · have hkeeps : (rows.filter fun row => qc.Keeps (column qc.by row)) = rows := by
      rw [List.filter_eq_self]
      intro row _
      simp only [Keeps, hby, true_or, decide_true]
    have hselect : qc.select column rows =
        cut qc.count (rows.filter fun row => qc.Keeps (column qc.by row)) := by
      rw [select_eq, ordered, if_pos hby, hkeeps, qc.limited_eq_cut hlength]
    rw [hselect]
    apply lists_filter
    intro left right
    simp only [Sorts, hby]
  · have hselect : qc.select column rows =
        cut qc.count ((rows.filter fun row => qc.Keeps (column qc.by row)).mergeSort
          fun left right => qc.Sorts (column qc.by left) (column qc.by right)) := by
      rw [select_eq, qc.ordered_eq column rows hby, qc.limited_eq_cut]
      rw [List.length_mergeSort]
      exact (List.length_filter_le _ _).trans_lt hlength
    rw [hselect]
    apply lists_mergeSort
    · exact fun a b c => qc.sorts_trans _ _ _
    · exact fun a b => qc.sorts_total _ _

variable {qc} {value : ℤ}

theorem admits_iff (hby : qc.by ≠ .none) (hlow : 0 ≤ value) (hhigh : value < 2 ^ 63) :
    qc.Admits value = true ↔
      (qc.lower = 0 ∨ (qc.lower.toNat : ℤ) ≤ value) ∧
        (qc.upper = 0 ∨ value ≤ qc.upper.toNat) := by
  simp only [Admits, hby, false_or, decide_eq_true_eq, le_unsigned_iff hlow hhigh,
    unsigned_le_iff hlow hhigh]

theorem keeps_iff (hby : qc.by ≠ .none) (hlow : 0 ≤ value) :
    qc.Keeps value = true ↔
      (qc.lower = 0 ∨ (qc.lower.toNat : ℤ) ≤ value ∨ 2 ^ 63 ≤ qc.lower.toNat) ∧
        (qc.upper = 0 ∨ (value ≤ qc.upper.toNat ∧ qc.upper.toNat < 2 ^ 63)) := by
  simp only [Keeps, within, hby, false_or, decide_eq_true_eq, bindInt64_le_iff hlow,
    le_bindInt64_iff hlow]

theorem not_admits_of_large (hby : qc.by ≠ .none) (hlow : 0 ≤ value) (hhigh : value < 2 ^ 63)
    (hlarge : 2 ^ 63 ≤ qc.lower.toNat) : qc.Admits value = false := by
  rw [Bool.eq_false_iff, Ne, admits_iff hby hlow hhigh]
  rintro ⟨hzero | hle, -⟩
  · rw [hzero] at hlarge
    exact absurd hlarge (by decide)
  · omega

theorem not_keeps_of_large (hby : qc.by ≠ .none) (hlow : 0 ≤ value)
    (hlarge : 2 ^ 63 ≤ qc.upper.toNat) : qc.Keeps value = false := by
  rw [Bool.eq_false_iff, Ne, keeps_iff hby hlow]
  rintro ⟨-, hzero | ⟨-, hsmall⟩⟩
  · rw [hzero] at hlarge
    exact absurd hlarge (by decide)
  · omega

/-- Signed and unsigned bounds agree on the values that the bounds fit, and on no other. -/
theorem keeps_eq_admits_iff (hby : qc.by ≠ .none) (hlow : 0 ≤ value) (hhigh : value < 2 ^ 63) :
    qc.Keeps value = qc.Admits value ↔ qc.Fits value := by
  have hlower : qc.lower = 0 ↔ qc.lower.toNat = 0 := UInt64.toNat_inj.symm
  have hupper : qc.upper = 0 ↔ qc.upper.toNat = 0 := UInt64.toNat_inj.symm
  rw [Bool.eq_iff_iff, keeps_iff hby hlow, admits_iff hby hlow hhigh, hlower, hupper]
  constructor
  · intro hiff
    constructor
    · intro hlarge
      rw [Ne, hupper]
      omega
    · intro hlarge
      rw [Ne, hlower]
      omega
  · rintro ⟨hfitsLower, hfitsUpper⟩
    rw [Ne, hupper] at hfitsLower
    rw [Ne, hlower] at hfitsUpper
    omega

theorem sorts_eq_orders {left right : ℤ} (hleftLow : 0 ≤ left) (hleftHigh : left < 2 ^ 63)
    (hrightLow : 0 ≤ right) (hrightHigh : right < 2 ^ 63) :
    qc.Sorts left right = qc.Orders left right := by
  have hle : ∀ {value bound : ℤ}, 0 ≤ value → value < 2 ^ 63 → 0 ≤ bound → bound < 2 ^ 63 →
      (unsigned value ≤ unsigned bound ↔ value ≤ bound) := by
    intro value bound hvalueLow hvalueHigh hboundLow hboundHigh
    rw [unsigned_le_iff hvalueLow hvalueHigh, toNat_unsigned hboundLow hboundHigh]
  rw [Sorts, Orders]
  cases qc.by with
  | none => rfl
  | id => rw [decide_eq_decide, hle hleftLow hleftHigh hrightLow hrightHigh]
  | updAt | createdAt => rw [decide_eq_decide, hle hrightLow hrightHigh hleftLow hleftHigh]

variable {ρ : Type} {column : QryFld → ρ → ℤ} {rows : List ρ}

theorem select_means (hstored : qc.Stored column rows)
    (hfits : qc.by ≠ .none → ∀ row ∈ rows, qc.Fits (column qc.by row)) :
    qc.Means column rows (qc.select column rows) := by
  apply (qc.select_lists column hstored.length).congr
  · intro row hrow
    by_cases hby : qc.by = .none
    · simp only [Keeps, Admits, hby, true_or]
    · rw [keeps_eq_admits_iff hby (hstored.low row hrow) (hstored.high row hrow)]
      exact hfits hby row hrow
  · intro left hleft right hright hsorts
    rwa [sorts_eq_orders (hstored.low left hleft) (hstored.high left hleft)
      (hstored.low right hright) (hstored.high right hright)] at hsorts

/-- Where a large bound matters to a row, one of the two bounds leaves nothing, the signed or the
unsigned one, and the other one leaves this row. -/
theorem fits_of_means (hstored : qc.Stored column rows) {result : List ρ}
    (hmeans : qc.Means column rows result)
    (hlength : (qc.select column rows).length = result.length) (hby : qc.by ≠ .none) :
    ∀ row ∈ rows, qc.Fits (column qc.by row) := by
  have hnone : (∀ row ∈ rows, qc.Keeps (column qc.by row) = false) ↔
      ∀ row ∈ rows, qc.Admits (column qc.by row) = false := by
    rw [← (qc.select_lists column hstored.length).eq_nil_iff qc.count_ne_zero,
      ← hmeans.eq_nil_iff qc.count_ne_zero, ← List.length_eq_zero_iff, hlength,
      List.length_eq_zero_iff]
  intro row hrow
  have hlow := hstored.low row hrow
  have hhigh := hstored.high row hrow
  rw [← keeps_eq_admits_iff hby hlow hhigh]
  rcases Nat.lt_or_ge qc.lower.toNat (2 ^ 63) with hlower | hlower
  · rcases Nat.lt_or_ge qc.upper.toNat (2 ^ 63) with hupper | hupper
    · rw [keeps_eq_admits_iff hby hlow hhigh]
      exact ⟨fun hlarge => absurd hlarge (by omega), fun hlarge => absurd hlarge (by omega)⟩
    · have hkeeps : ∀ row ∈ rows, qc.Keeps (column qc.by row) = false :=
        fun row hrow => not_keeps_of_large hby (hstored.low row hrow) hupper
      rw [hkeeps row hrow, hnone.mp hkeeps row hrow]
  · have hadmits : ∀ row ∈ rows, qc.Admits (column qc.by row) = false :=
      fun row hrow => not_admits_of_large hby (hstored.low row hrow) (hstored.high row hrow) hlower
    rw [hadmits row hrow, hnone.mpr hadmits row hrow]

/-- A query with the criteria answers what they say. -/
theorem iterate_means_iff {α : Type} (item : ρ → α) (hstored : qc.Stored column rows) :
    (∃ result, (qc.iterate column rows).map (List.map item) = some (result.map item) ∧
        qc.Means column rows result) ↔
      qc.binds ∧ (qc.by ≠ .none → ∀ row ∈ rows, qc.Fits (column qc.by row)) := by
  rw [iterate]
  cases hbinds : qc.binds with
  | false => simp
  | true =>
      rw [if_pos rfl, Option.map_some, and_iff_right rfl]
      constructor
      · rintro ⟨result, hresult, hmeans⟩
        have hlength := congrArg List.length (Option.some.inj hresult)
        rw [List.length_map, List.length_map] at hlength
        exact fits_of_means hstored hmeans hlength
      · exact fun hfits => ⟨_, rfl, select_means hstored hfits⟩

end QryCriteria

end Criteria

section Iterators

/-- The iterators that take criteria, with the ids they are called with. -/
inductive RangeQuery
  | chans
  | subChans (uid : UInt64)
  | posts (chanId : ℤ)
  | postsLac (chanId : ℤ)
  | likedPosts (uid : UInt64)
  | likedData (uid : UInt64)
  | cmts (chanId postId : ℤ)
  | cmtsLikes (chanId postId : ℤ)
  | reportedCmts

namespace RangeQuery

/-- A row of the `FROM` of the query. -/
def Row : RangeQuery → Type
  | .chans | .subChans _ => ChannelRow
  | .posts _ | .postsLac _ | .likedPosts _ => PostRow
  | .likedData _ => LikeRow × UserRow
  | .cmts _ _ => CommentRow × UserRow
  | .cmtsLikes _ _ => CommentRow
  | .reportedCmts => ReportedCommentRow × UserRow

def Item : RangeQuery → Type
  | .chans | .subChans _ => ChanInfo
  | .posts _ | .postsLac _ | .likedPosts _ => PostInfo
  | .likedData _ => LikedInfo
  | .cmts _ _ | .cmtsLikes _ _ => CmtInfo
  | .reportedCmts => ReportedCmtInfo

def column : (query : RangeQuery) → QryFld → query.Row → ℤ
  | .chans | .subChans _ => ChannelRow.column
  | .posts _ | .postsLac _ | .likedPosts _ => PostRow.column
  | .likedData _ => fun field pair => LikeRow.column field pair.1
  | .cmts _ _ => fun field pair => CommentRow.column field pair.1
  | .cmtsLikes _ _ => CommentRow.column
  | .reportedCmts => fun field pair => ReportedCommentRow.column field pair.1

/-- Likes and reports have no column `updated_at`. -/
def hasColumn : RangeQuery → QryFld → Bool
  | .likedData _, .updAt | .reportedCmts, .updAt => false
  | _, _ => true

/-- The rows that the query selects without criteria. -/
def base (db : Db) : (query : RangeQuery) → List query.Row
  | .chans => db.channels
  | .subChans uid =>
      (db.subscriptions.filter fun sub => sub.userId = bindInt64 uid).flatMap
        fun sub => db.channels.filter (ChannelRow.at sub.channelId)
  | .posts chanId =>
      db.posts.filter fun row =>
        row.channelId = chanId ∧ (row.status = .available ∨ row.status = .deleted)
  | .postsLac chanId => db.posts.filter fun row => row.channelId = chanId
  | .likedPosts uid =>
      ((db.likes.filter fun like => like.userId = bindInt64 uid ∧ like.commentId = 0).flatMap
        fun like => db.posts.filter (PostRow.at like.channelId like.postId)).filter
          fun row => row.status = .available
  | .likedData uid =>
      (db.likes.filter fun like => like.userId = bindInt64 uid).flatMap fun like =>
        (db.users.filter fun user => user.userId = like.userId).map fun user => (like, user)
  | .cmts chanId postId =>
      (db.comments.filter fun row => row.channelId = chanId ∧ row.postId = postId).flatMap
        fun row => (db.users.filter fun user => user.userId = row.userId).map
          fun user => (row, user)
  | .cmtsLikes chanId postId =>
      db.comments.filter fun row => row.channelId = chanId ∧ row.postId = postId
  | .reportedCmts =>
      db.reportedComments.flatMap fun report =>
        (db.users.filter fun user => user.userId = report.reporterId).map
          fun user => (report, user)

/-- What the iterator yields for a row. -/
def item : (query : RangeQuery) → query.Row → query.Item
  | .chans => row2chan
  | .subChans _ => row2subchan
  | .posts _ => row2post
  | .postsLac _ => row2postlac
  | .likedPosts _ => row2likedpost
  | .likedData _ => row2likeddata
  | .cmts _ _ => row2cmt
  | .cmtsLikes _ _ => row2cmtlikes
  | .reportedCmts => row2reportedcmt

def run (db : Db) (qc : QryCriteria) : (query : RangeQuery) → Option (List query.Item)
  | .chans => dbQueryChans db qc
  | .subChans uid => dbQuerySubChans db uid qc
  | .posts chanId => dbIterPosts db chanId qc
  | .postsLac chanId => dbIterPostsLac db chanId qc
  | .likedPosts uid => dbIterLikedPosts db uid qc
  | .likedData uid => dbIterLikedData db uid qc
  | .cmts chanId postId => dbIterCmts db chanId postId qc
  | .cmtsLikes chanId postId => dbIterCmtsLikes db chanId postId qc
  | .reportedCmts => dbIterReportedCmts db qc

/-- The iterator succeeds and yields what the criteria say of the base set. -/
def Meant (query : RangeQuery) (db : Db) (qc : QryCriteria) : Prop :=
  ∃ rows, query.run db qc = some (rows.map query.item) ∧
    qc.Means query.column (query.base db) rows

theorem hasColumn_likedData (uid : UInt64) (field : QryFld) :
    (likedData uid).hasColumn field = true ↔ field ≠ .updAt := by
  cases field <;> simp [hasColumn]

theorem hasColumn_reportedCmts (field : QryFld) :
    reportedCmts.hasColumn field = true ↔ field ≠ .updAt := by
  cases field <;> simp [hasColumn]

/-- The nine functions are one. -/
theorem run_eq (query : RangeQuery) (db : Db) (qc : QryCriteria) :
    query.run db qc =
      if query.hasColumn qc.by then
        (qc.iterate query.column (query.base db)).map (List.map query.item)
      else none := by
  cases query with
  | chans | subChans | posts | postsLac | likedPosts | cmts | cmtsLikes => exact (if_pos rfl).symm
  | likedData uid =>
      simp only [hasColumn_likedData, ite_not]
      rfl
  | reportedCmts =>
      simp only [hasColumn_reportedCmts, ite_not]
      rfl

/-- A range query means what its criteria say exactly when the column is there, no bound is given
without a column, and no bound from 2^63 on matters to a row. -/
theorem meant_iff (query : RangeQuery) (db : Db) (qc : QryCriteria)
    (hstored : qc.Stored query.column (query.base db)) :
    query.Meant db qc ↔
      query.hasColumn qc.by ∧ qc.binds ∧
        (qc.by ≠ .none → ∀ row ∈ query.base db, qc.Fits (query.column qc.by row)) := by
  rw [Meant, run_eq]
  cases query.hasColumn qc.by with
  | false => simp
  | true =>
      rw [if_pos rfl, and_iff_right rfl]
      exact QryCriteria.iterate_means_iff query.item hstored

def postAt (postId createdAt : ℤ) : PostRow where
  channelId := 1
  postId := postId
  createdAt := createdAt
  updatedAt := createdAt
  nextCommentId := 1
  likes := 0
  status := .available
  hashId := ""
  proof := ""
  originPostUrl := ""
  thumbnails := []
  content := []

/-- Two of three posts, the newest first. -/
theorem newest_posts_meant :
    (posts 1).Meant { Db.init with posts := [postAt 1 10, postAt 2 20, postAt 3 30] }
      ⟨.createdAt, 0, 20, 2⟩ := by
  rw [meant_iff]
  · refine ⟨rfl, rfl, fun _ row _ => ⟨fun hlarge => ?_, fun hlarge => ?_⟩⟩
    · exact absurd hlarge (by decide)
    · exact absurd hlarge (by decide)
  · exact ⟨by decide, by decide, by decide⟩

/-- A lower bound without a column makes the query fail. -/
theorem not_all_meant :
    ¬ ∀ (query : RangeQuery) (db : Db) (qc : QryCriteria), query.Meant db qc := by
  intro h
  obtain ⟨rows, hrows, -⟩ := h (.posts 1) .init ⟨.none, 0, 1, 0⟩
  cases hrows

end RangeQuery

end Iterators

end FeedsService.Feeds
