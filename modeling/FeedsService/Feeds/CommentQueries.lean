import FeedsService.Feeds.ChannelMethod
import FeedsService.Feeds.Hidden
import FeedsService.Feeds.Ranges
import FeedsService.Library.Queries

/-!
# The two queries for comments

`db_iter_cmts` of `db.cpp` and `onGetMultiComments` of `ChannelMethod.cpp` each put a query
for the comments of a post together: one binds its values to parameters, the other writes them
into the text.  Each is taken from its own source here.
-/

namespace FeedsService.Feeds

open FeedsService.Library FeedsService.Library.Queries

/-- The columns of the join that the queries name. -/
def commentColumns : Columns (CommentRow × UserRow)
  | "channel_id" => some fun joined => joined.1.channelId
  | "post_id" => some fun joined => joined.1.postId
  | "comment_id" => some fun joined => joined.1.commentId
  | "updated_at" => some fun joined => joined.1.updatedAt
  | "created_at" => some fun joined => joined.1.createdAt
  | _ => none

section IterCmts

inductive QueryObject
  | channel
  | post
  | comment

/-- `query_column` -/
def queryColumn : QueryObject → QryFld → Option String
  | .channel, .id => some "channel_id"
  | .post, .id => some "post_id"
  | .comment, .id => some "comment_id"
  | _, .updAt => some "updated_at"
  | _, .createdAt => some "created_at"
  | _, .none => none

variable (chanId postId : UInt64) (qc : QryCriteria)

/-- What `sprintf` prints for the column. -/
def iterCmtsColumn : String :=
  (queryColumn .comment qc.by).getD "(null)"

/-- The text of `db_iter_cmts`. -/
def iterCmtsQuery : Select where
  conditions :=
    [⟨"channel_id", .eq, .parameter ":channel_id"⟩, ⟨"post_id", .eq, .parameter ":post_id"⟩] ++
      if qc.by = .none then []
      else
        (if qc.lower = 0 then [] else [⟨iterCmtsColumn qc, .ge, .parameter ":lower"⟩]) ++
          if qc.upper = 0 then [] else [⟨iterCmtsColumn qc, .le, .parameter ":upper"⟩]
  order := if qc.by = .none then none else some ⟨iterCmtsColumn qc, qc.by = .id⟩
  limit := if qc.maxcnt = 0 then none else some (.parameter ":maxcnt")

/-- What `db_iter_cmts` binds. -/
def iterCmtsValues : List (String × ℤ) :=
  [(":channel_id", bindInt64 chanId), (":post_id", bindInt64 postId)] ++
    (if qc.lower = 0 then [] else [(":lower", bindInt64 qc.lower)]) ++
    (if qc.upper = 0 then [] else [(":upper", bindInt64 qc.upper)]) ++
    if qc.maxcnt = 0 then [] else [(":maxcnt", bindInt64 qc.maxcnt)]

/-- The rows that `db_iter_cmts` goes through, or NULL. -/
def iterCmtsRows (db : Db) : Option (List (CommentRow × UserRow)) := do
  let bindings ← (iterCmtsQuery qc).bind (iterCmtsValues chanId postId qc)
  (iterCmtsQuery qc).rows commentColumns bindings (joinedComments db)

end IterCmts

section MultiComments

/-- `DataBase::ConditionBy` -/
def conditionBy (field : ℤ) (idType : QueryObject) : Option String :=
  if field = ConditionField.id then
    match idType with
    | .channel => some "channel_id"
    | .post => some "post_id"
    | .comment => some "comment_id"
  else if field = ConditionField.updatedAt then some "updated_at"
  else if field = ConditionField.createdAt then some "created_at"
  else none

variable (params : MultiParams)

/-- The text of `onGetMultiComments`. -/
def multiCommentsQuery : Select :=
  let channel : Operand :=
    if 0 < params.channelId then .number params.channelId else .column "channel_id"
  let post : Operand := if 0 < params.postId then .number params.postId else .column "post_id"
  let selected : List Condition := [⟨"channel_id", .eq, channel⟩, ⟨"post_id", .eq, post⟩]
  let limit : Option Operand := if 0 < params.maxCount then some (.number params.maxCount) else none
  match conditionBy params.conditionField .comment with
  | none => ⟨selected, none, limit⟩
  | some condBy =>
    let lower : List Condition :=
      if 0 < params.lowerBound then [⟨condBy, .ge, .number params.lowerBound⟩] else []
    let upper : List Condition :=
      if 0 < params.upperBound then [⟨condBy, .le, .number params.upperBound⟩] else []
    ⟨selected ++ (lower ++ upper), some ⟨condBy, params.by = ConditionField.id⟩, limit⟩

/-- The rows that `onGetMultiComments` goes through; nothing is bound. -/
def multiCommentsRows (db : Db) : Option (List (CommentRow × UserRow)) :=
  (multiCommentsQuery params).rows commentColumns (fun _ => none) (joinedComments db)

end MultiComments

section Refinement

variable {db : Db} {chanId postId : UInt64} {qc : QryCriteria}

theorem filter_joinedComments (keep : CommentRow → Bool) :
    (joinedComments db).filter (fun joined => keep joined.1) =
      (db.comments.filter keep).flatMap fun row =>
        (db.users.filter fun user => user.userId = row.userId).map fun user => (row, user) := by
  rw [joinedComments]
  induction db.comments with
  | nil => rfl
  | cons row rows ih =>
      rw [List.flatMap_cons, List.filter_append, ih, List.filter_map]
      cases hkeep : keep row with
      | false =>
          rw [List.filter_cons_of_neg (by simp [hkeep])]
          have hnone : (fun joined : CommentRow × UserRow => keep joined.1) ∘
              (fun user => (row, user)) = fun _ => false := funext fun _ => hkeep
          rw [hnone, List.filter_false, List.map_nil, List.nil_append]
      | true =>
          rw [List.filter_cons_of_pos hkeep, List.flatMap_cons]
          have hall : (fun joined : CommentRow × UserRow => keep joined.1) ∘
              (fun user => (row, user)) = fun _ => true := funext fun _ => hkeep
          rw [hall, List.filter_true]

/-- The values by the names of their parameters. -/
def iterCmtsBindings (chanId postId : UInt64) (qc : QryCriteria) : Bindings :=
  fun name => (iterCmtsValues chanId postId qc).lookup name

/-- What is bound has its place in the text, but for bounds without an order. -/
theorem contains_iterCmtsValues (chanId postId : UInt64) (qc : QryCriteria) :
    ((iterCmtsValues chanId postId qc).all fun value =>
      (iterCmtsQuery qc).parameters.contains value.1) = qc.binds := by
  by_cases hby : qc.by = .none <;> by_cases hlower : qc.lower = 0 <;>
    by_cases hupper : qc.upper = 0 <;> by_cases hmaxcnt : qc.maxcnt = 0 <;>
    simp [iterCmtsQuery, iterCmtsValues, Select.parameters, QryCriteria.binds, hby, hlower,
      hupper, hmaxcnt]

theorem bind_iterCmts (chanId postId : UInt64) (qc : QryCriteria) :
    (iterCmtsQuery qc).bind (iterCmtsValues chanId postId qc) =
      if qc.binds then some (iterCmtsBindings chanId postId qc) else none := by
  rw [Select.bind, contains_iterCmtsValues]
  rfl

section Bound

variable (chanId postId qc)

theorem iterCmtsBindings_channelId :
    iterCmtsBindings chanId postId qc ":channel_id" = some (bindInt64 chanId) := rfl

theorem iterCmtsBindings_postId :
    iterCmtsBindings chanId postId qc ":post_id" = some (bindInt64 postId) := rfl

variable {qc}

theorem iterCmtsBindings_lower (hlower : qc.lower ≠ 0) :
    iterCmtsBindings chanId postId qc ":lower" = some (bindInt64 qc.lower) := by
  simp [iterCmtsBindings, iterCmtsValues, hlower, List.lookup_cons]

theorem iterCmtsBindings_upper (hupper : qc.upper ≠ 0) :
    iterCmtsBindings chanId postId qc ":upper" = some (bindInt64 qc.upper) := by
  by_cases hlower : qc.lower = 0 <;>
    simp [iterCmtsBindings, iterCmtsValues, hlower, hupper, List.lookup_cons]

theorem iterCmtsBindings_maxcnt (hmaxcnt : qc.maxcnt ≠ 0) :
    iterCmtsBindings chanId postId qc ":maxcnt" = some (bindInt64 qc.maxcnt) := by
  by_cases hlower : qc.lower = 0 <;> by_cases hupper : qc.upper = 0 <;>
    simp [iterCmtsBindings, iterCmtsValues, hlower, hupper, hmaxcnt, List.lookup_cons]

end Bound

theorem commentColumns_iterCmtsColumn (hby : qc.by ≠ .none) :
    commentColumns (iterCmtsColumn qc) =
      some fun joined => CommentRow.column qc.by joined.1 := by
  rw [iterCmtsColumn]
  cases hfield : qc.by with
  | none => exact absurd hfield hby
  | id => rfl
  | updAt => rfl
  | createdAt => rfl

theorem conjunction_channelPost :
    conjunction commentColumns (iterCmtsBindings chanId postId qc)
        [⟨"channel_id", .eq, .parameter ":channel_id"⟩, ⟨"post_id", .eq, .parameter ":post_id"⟩] =
      some fun joined => decide (joined.1.channelId = bindInt64 chanId ∧
        joined.1.postId = bindInt64 postId) := by
  have hchannel : conjunction commentColumns (iterCmtsBindings chanId postId qc)
      [⟨"channel_id", .eq, .parameter ":channel_id"⟩] = _ :=
    conjunction_singleton rfl (read_parameter (iterCmtsBindings_channelId chanId postId qc))
  have hpost : conjunction commentColumns (iterCmtsBindings chanId postId qc)
      [⟨"post_id", .eq, .parameter ":post_id"⟩] = _ :=
    conjunction_singleton rfl (read_parameter (iterCmtsBindings_postId chanId postId qc))
  refine (conjunction_append hchannel hpost).trans (congrArg some ?_)
  funext joined
  simp only [Comparison.holds, Bool.decide_and]

/-- The bounds in the text keep the rows within the criteria. -/
theorem conjunction_bounds (hby : qc.by ≠ .none) :
    conjunction commentColumns (iterCmtsBindings chanId postId qc)
        ((if qc.lower = 0 then [] else [⟨iterCmtsColumn qc, .ge, .parameter ":lower"⟩]) ++
          if qc.upper = 0 then [] else [⟨iterCmtsColumn qc, .le, .parameter ":upper"⟩]) =
      some fun joined => qc.within (CommentRow.column qc.by joined.1) := by
  have hlower : conjunction commentColumns (iterCmtsBindings chanId postId qc)
      (if qc.lower = 0 then [] else [⟨iterCmtsColumn qc, .ge, .parameter ":lower"⟩]) =
        some fun joined => decide (qc.lower = 0 ∨
          bindInt64 qc.lower ≤ CommentRow.column qc.by joined.1) := by
    by_cases hzero : qc.lower = 0
    · simp [hzero, conjunction]
    · simp only [hzero, if_false, false_or]
      rw [conjunction_singleton (commentColumns_iterCmtsColumn hby)
        (read_parameter (iterCmtsBindings_lower chanId postId hzero))]
      rfl
  have hupper : conjunction commentColumns (iterCmtsBindings chanId postId qc)
      (if qc.upper = 0 then [] else [⟨iterCmtsColumn qc, .le, .parameter ":upper"⟩]) =
        some fun joined => decide (qc.upper = 0 ∨
          CommentRow.column qc.by joined.1 ≤ bindInt64 qc.upper) := by
    by_cases hzero : qc.upper = 0
    · simp [hzero, conjunction]
    · simp only [hzero, if_false, false_or]
      rw [conjunction_singleton (commentColumns_iterCmtsColumn hby)
        (read_parameter (iterCmtsBindings_upper chanId postId hzero))]
      rfl
  refine (conjunction_append hlower hupper).trans (congrArg some ?_)
  funext joined
  simp only [QryCriteria.within, Bool.decide_and]

/-- The conditions select the post first, then the rows within the criteria. -/
theorem conjunction_iterCmts :
    conjunction commentColumns (iterCmtsBindings chanId postId qc) (iterCmtsQuery qc).conditions =
      some fun joined => decide (joined.1.channelId = bindInt64 chanId ∧
          joined.1.postId = bindInt64 postId) &&
        (qc.by = .none || qc.within (CommentRow.column qc.by joined.1)) := by
  have hlast : conjunction commentColumns (iterCmtsBindings chanId postId qc)
      (if qc.by = .none then []
        else
          (if qc.lower = 0 then [] else [⟨iterCmtsColumn qc, .ge, .parameter ":lower"⟩]) ++
            if qc.upper = 0 then [] else [⟨iterCmtsColumn qc, .le, .parameter ":upper"⟩]) =
        some fun joined => qc.by = .none || qc.within (CommentRow.column qc.by joined.1) := by
    by_cases hby : qc.by = .none
    · simp [hby, conjunction]
    · simp only [hby, if_false, decide_false, Bool.false_or]
      exact conjunction_bounds hby
  exact conjunction_append conjunction_channelPost hlast

theorem sorted_iterCmts (qc : QryCriteria) (rows : List (CommentRow × UserRow)) :
    (iterCmtsQuery qc).sorted commentColumns
        (if qc.by = .none then rows
          else rows.filter fun joined => qc.within (CommentRow.column qc.by joined.1)) =
      some (qc.ordered (fun field joined => CommentRow.column field joined.1) rows) := by
  by_cases hby : qc.by = .none
  · simp only [Select.sorted, iterCmtsQuery, QryCriteria.ordered, hby, if_true]
  · by_cases hid : qc.by = .id
    · simp [Select.sorted, iterCmtsQuery, QryCriteria.ordered, hid, Order.precedes,
        commentColumns_iterCmtsColumn hby]
    · simp [Select.sorted, iterCmtsQuery, QryCriteria.ordered, hby, hid, Order.precedes,
        commentColumns_iterCmtsColumn hby]

theorem limited_iterCmts (rows : List (CommentRow × UserRow)) :
    (iterCmtsQuery qc).limited (iterCmtsBindings chanId postId qc) rows =
      some (qc.limited rows) := by
  by_cases hzero : qc.maxcnt = 0
  · simp only [Select.limited, iterCmtsQuery, QryCriteria.limited, hzero, if_true, true_or]
  · by_cases hnegative : bindInt64 qc.maxcnt < 0
    · simp [Select.limited, iterCmtsQuery, QryCriteria.limited, hzero, hnegative, Operand.asLimit,
        iterCmtsBindings_maxcnt chanId postId hzero, cut]
    · simp [Select.limited, iterCmtsQuery, QryCriteria.limited, hzero, hnegative, Operand.asLimit,
        iterCmtsBindings_maxcnt chanId postId hzero, cut]

/-- `dbIterCmts` goes through these rows. -/
theorem dbIterCmts_eq :
    dbIterCmts db (bindInt64 chanId) (bindInt64 postId) qc =
      (iterCmtsRows chanId postId qc db).map (List.map row2cmt) := by
  rw [dbIterCmts, iterCmtsRows, bind_iterCmts, QryCriteria.iterate, ← filter_joinedComments]
  by_cases hbinds : qc.binds = true
  · rw [if_pos hbinds, if_pos hbinds, select_eq, Option.bind_eq_bind, Option.bind_some]
    generalize hrows : (joinedComments db).filter (fun joined => decide
      (joined.1.channelId = bindInt64 chanId ∧ joined.1.postId = bindInt64 postId)) = rows
    have hkept : (joinedComments db).filter (fun joined =>
        decide (joined.1.channelId = bindInt64 chanId ∧ joined.1.postId = bindInt64 postId) &&
          (qc.by = .none || qc.within (CommentRow.column qc.by joined.1))) =
        if qc.by = .none then rows
        else rows.filter fun joined => qc.within (CommentRow.column qc.by joined.1) := by
      rw [← hrows]
      by_cases hby : qc.by = .none
      · simp only [hby, decide_true, Bool.true_or, Bool.and_true, if_true]
      · rw [if_neg hby, List.filter_filter]
        simp only [hby, decide_false, Bool.false_or, Bool.and_comm]
    have hordered := sorted_iterCmts qc rows
    rw [← hkept] at hordered
    rw [Select.rows_eq conjunction_iterCmts hordered, limited_iterCmts]
  · rw [if_neg hbinds, if_neg hbinds]
    rfl

variable {params : MultiParams}

/-- The column by which the comments are ordered, in the text and in `MultiParams.select`. -/
inductive OrderedBy (params : MultiParams) : Prop
  | none (hcondBy : conditionBy params.conditionField .comment = .none)
      (hby : params.condBy = .none)
  | column (name : String) (hcondBy : conditionBy params.conditionField .comment = some name)
      (hby : params.condBy ≠ .none)
      (hcolumn : commentColumns name =
        some fun joined => CommentRow.column params.condBy joined.1)

theorem orderedBy (params : MultiParams) : OrderedBy params := by
  by_cases hid : params.conditionField = ConditionField.id
  · have hby : params.condBy = .id := if_pos hid
    refine .column "comment_id" (if_pos hid) ?_ ?_
    · simp [hby]
    · simp only [hby, commentColumns, CommentRow.column]
  by_cases hupdAt : params.conditionField = ConditionField.updatedAt
  · have hby : params.condBy = .updAt := by rw [MultiParams.condBy, if_neg hid, if_pos hupdAt]
    refine .column "updated_at" ?_ ?_ ?_
    · rw [conditionBy, if_neg hid, if_pos hupdAt]
    · simp [hby]
    · simp only [hby, commentColumns, CommentRow.column]
  by_cases hcreatedAt : params.conditionField = ConditionField.createdAt
  · have hby : params.condBy = .createdAt := by
      rw [MultiParams.condBy, if_neg hid, if_neg hupdAt, if_pos hcreatedAt]
    refine .column "created_at" ?_ ?_ ?_
    · rw [conditionBy, if_neg hid, if_neg hupdAt, if_pos hcreatedAt]
    · simp [hby]
    · simp only [hby, commentColumns, CommentRow.column]
  · apply OrderedBy.none
    · rw [conditionBy, if_neg hid, if_neg hupdAt, if_neg hcreatedAt]
    · rw [MultiParams.condBy, if_neg hid, if_neg hupdAt, if_neg hcreatedAt]

/-- No binding: the values are in the text. -/
abbrev unbound : Bindings := fun _ => none

theorem conjunction_selects (params : MultiParams) :
    conjunction commentColumns unbound
        [⟨"channel_id", .eq,
            if 0 < params.channelId then .number params.channelId else .column "channel_id"⟩,
          ⟨"post_id", .eq,
            if 0 < params.postId then .number params.postId else .column "post_id"⟩] =
      some fun joined => params.selects joined.1.channelId joined.1.postId := by
  by_cases hchannel : 0 < params.channelId <;> by_cases hpost : 0 < params.postId <;>
    simp [conjunction, Condition.test, Operand.read, commentColumns, Comparison.holds,
      MultiParams.selects, hchannel, hpost]

theorem conjunction_within {name : String}
    {column : CommentRow × UserRow → ℤ} (hcolumn : commentColumns name = some column) :
    conjunction commentColumns unbound
        ((if 0 < params.lowerBound then [⟨name, .ge, .number params.lowerBound⟩] else []) ++
          if 0 < params.upperBound then [⟨name, .le, .number params.upperBound⟩] else []) =
      some fun joined => params.within (column joined) := by
  have hlower : conjunction commentColumns unbound
      (if 0 < params.lowerBound then [⟨name, .ge, .number params.lowerBound⟩] else []) =
        some fun joined =>
          decide (0 < params.lowerBound → params.lowerBound ≤ column joined) := by
    by_cases hpos : 0 < params.lowerBound
    · simp only [hpos, if_true, forall_const]
      rw [conjunction_singleton hcolumn rfl]
      rfl
    · simp [hpos, conjunction]
  have hupper : conjunction commentColumns unbound
      (if 0 < params.upperBound then [⟨name, .le, .number params.upperBound⟩] else []) =
        some fun joined =>
          decide (0 < params.upperBound → column joined ≤ params.upperBound) := by
    by_cases hpos : 0 < params.upperBound
    · simp only [hpos, if_true, forall_const]
      rw [conjunction_singleton hcolumn rfl]
      rfl
    · simp [hpos, conjunction]
  rw [conjunction_append hlower hupper]
  simp only [MultiParams.within, Bool.decide_and]

theorem limited_multiComments (rows : List (CommentRow × UserRow)) :
    (multiCommentsQuery params).limited unbound rows =
      some (cut (if 0 < params.maxCount then some params.maxCount.toNat else none) rows) := by
  have hlimit : (multiCommentsQuery params).limit =
      if 0 < params.maxCount then some (.number params.maxCount) else none := by
    rw [multiCommentsQuery]
    split <;> rfl
  by_cases hpos : 0 < params.maxCount
  · simp [Select.limited, hlimit, hpos, Operand.asLimit, Int.not_lt.mpr hpos.le]
  · simp [Select.limited, hlimit, hpos, cut]

/-- The text selects what `MultiParams.select` does, whatever comes by. -/
theorem rows_multiCommentsQuery (scan : List (CommentRow × UserRow)) :
    (multiCommentsQuery params).rows commentColumns unbound scan =
      some (params.select (fun field joined => CommentRow.column field joined.1)
        (scan.filter fun joined => params.selects joined.1.channelId joined.1.postId)) := by
  cases orderedBy params with
  | none hcondBy hby =>
      have hconditions : conjunction commentColumns unbound (multiCommentsQuery params).conditions =
          some fun joined => params.selects joined.1.channelId joined.1.postId := by
        rw [multiCommentsQuery, hcondBy]
        exact conjunction_selects params
      have hsorted : ∀ rows, (multiCommentsQuery params).sorted commentColumns rows =
          some rows := by
        intro rows
        rw [Select.sorted, multiCommentsQuery, hcondBy]
      rw [Select.rows_eq hconditions (hsorted _), limited_multiComments, MultiParams.select,
        if_pos hby]
  | column name hcondBy hby hcolumn =>
      have hconditions : conjunction commentColumns unbound (multiCommentsQuery params).conditions =
          some fun joined => params.selects joined.1.channelId joined.1.postId &&
            params.within (CommentRow.column params.condBy joined.1) := by
        rw [multiCommentsQuery, hcondBy]
        exact conjunction_append (conjunction_selects params) (conjunction_within hcolumn)
      have hsorted : ∀ rows : List (CommentRow × UserRow),
          (multiCommentsQuery params).sorted commentColumns rows =
            some (rows.mergeSort fun left right => params.precedes
              (CommentRow.column params.condBy left.1)
              (CommentRow.column params.condBy right.1)) := by
        intro rows
        rw [Select.sorted, multiCommentsQuery, hcondBy]
        simp only [Order.precedes, hcolumn, Option.map_some, MultiParams.precedes,
          decide_eq_true_eq]
      have hkept : (scan.filter fun joined =>
          params.selects joined.1.channelId joined.1.postId &&
            params.within (CommentRow.column params.condBy joined.1)) =
          (scan.filter fun joined =>
            params.selects joined.1.channelId joined.1.postId).filter fun joined =>
              params.within (CommentRow.column params.condBy joined.1) := by
        simp only [List.filter_filter, Bool.and_comm]
      rw [Select.rows_eq hconditions (hsorted _), limited_multiComments, MultiParams.select,
        if_neg hby, hkept]

/-- The rows that the replies are made of are those of the text. -/
theorem multiCommentsRows_eq :
    multiCommentsRows params db = some (multiCommentRows .stored db params) := by
  rw [multiCommentRows, Scan.visit_stored]
  exact rows_multiCommentsQuery _

end Refinement

section Agreement

/-- The value of the enumeration. -/
def QryFld.code : QryFld → ℤ
  | .none => 0
  | .id => 1
  | .updAt => 2
  | .createdAt => 3

/-- The same channel, post and criteria in the types of the two requests. -/
structure SameCriteria (chanId postId : UInt64) (qc : QryCriteria) (params : MultiParams) :
    Prop where
  channelId : params.channelId = chanId.toNat
  postId : params.postId = postId.toNat
  «by» : params.by = qc.by.code
  lower : params.lowerBound = qc.lower.toNat
  upper : params.upperBound = qc.upper.toNat
  maxCount : params.maxCount = qc.maxcnt.toNat

/-- A channel and a post, an order, and numbers that are not negative as signed ones. -/
structure MultiParams.Ordinary (params : MultiParams) : Prop where
  channelId : 0 < params.channelId ∧ params.channelId < 2 ^ 63
  postId : 0 < params.postId ∧ params.postId < 2 ^ 63
  «by» : params.by = ConditionField.id ∨ params.by = ConditionField.updatedAt ∨
    params.by = ConditionField.createdAt
  lower : 0 ≤ params.lowerBound ∧ params.lowerBound < 2 ^ 63
  upper : 0 ≤ params.upperBound ∧ params.upperBound < 2 ^ 63
  maxCount : 0 ≤ params.maxCount ∧ params.maxCount < 2 ^ 63

variable {chanId postId : UInt64} {qc : QryCriteria} {params : MultiParams}

theorem conditionBy_code (field : QryFld) (object : QueryObject) :
    conditionBy field.code object = queryColumn object field := by
  cases field <;> cases object <;> rfl

theorem SameCriteria.by_ne_none (hsame : SameCriteria chanId postId qc params)
    (hordinary : params.Ordinary) : qc.by ≠ .none := by
  intro hnone
  have hcode : params.by = 0 := by rw [hsame.by, hnone]; rfl
  have hby := hordinary.by
  simp only [hcode, ConditionField.id, ConditionField.updatedAt, ConditionField.createdAt] at hby
  omega

/-- The values of the enumeration are below 2^32. -/
theorem SameCriteria.conditionField_eq (hsame : SameCriteria chanId postId qc params) :
    params.conditionField = qc.by.code := by
  rw [MultiParams.conditionField, hsame.by]
  cases qc.by <;> rfl

theorem SameCriteria.conditionBy_eq (hsame : SameCriteria chanId postId qc params)
    (hordinary : params.Ordinary) :
    conditionBy params.conditionField .comment = some (iterCmtsColumn qc) := by
  have hby := hsame.by_ne_none hordinary
  rw [hsame.conditionField_eq, conditionBy_code, iterCmtsColumn]
  cases hfield : qc.by with
  | none => exact absurd hfield hby
  | id => rfl
  | updAt => rfl
  | createdAt => rfl

/-- A number that is bound stands for itself. -/
theorem bindInt64_eq {number : UInt64} {value : ℤ} (hvalue : value = number.toNat)
    (hsmall : value < 2 ^ 63) : bindInt64 number = value := by
  rw [bindInt64_of_small (by omega), hvalue]

theorem pos_iff_ne_zero {number : UInt64} {value : ℤ} (hvalue : value = number.toNat) :
    0 < value ↔ number ≠ 0 := by
  rw [hvalue, Nat.cast_pos, Nat.pos_iff_ne_zero, ne_eq, ne_eq, ← UInt64.toNat_inj]
  rfl

/-- The two texts say the same, condition by condition. -/
theorem same_of_sameCriteria (hsame : SameCriteria chanId postId qc params)
    (hordinary : params.Ordinary) :
    Select.Same commentColumns (iterCmtsBindings chanId postId qc)
      (fun _ => none) (iterCmtsQuery qc) (multiCommentsQuery params) := by
  have hby := hsame.by_ne_none hordinary
  have hcolumn := hsame.conditionBy_eq hordinary
  have hlower : 0 < params.lowerBound ↔ qc.lower ≠ 0 := pos_iff_ne_zero hsame.lower
  have hupper : 0 < params.upperBound ↔ qc.upper ≠ 0 := pos_iff_ne_zero hsame.upper
  have hmaxCount : 0 < params.maxCount ↔ qc.maxcnt ≠ 0 := pos_iff_ne_zero hsame.maxCount
  constructor
  · have hchannelId := (iterCmtsBindings_channelId chanId postId qc).trans
      (congrArg some (bindInt64_eq hsame.channelId hordinary.channelId.2))
    have hpostId := (iterCmtsBindings_postId chanId postId qc).trans
      (congrArg some (bindInt64_eq hsame.postId hordinary.postId.2))
    simp only [iterCmtsQuery, multiCommentsQuery, hcolumn, hby, if_false, hordinary.channelId.1,
      hordinary.postId.1, if_true]
    apply List.rel_append
    · exact .cons (Condition.same_of_bound hchannelId) <|
        .cons (Condition.same_of_bound hpostId) .nil
    apply List.rel_append
    · by_cases hzero : qc.lower = 0
      · simp [hlower, hzero]
      · have hbound := (iterCmtsBindings_lower chanId postId hzero).trans
          (congrArg some (bindInt64_eq hsame.lower hordinary.lower.2))
        simp only [hlower, hzero, ne_eq, not_false_eq_true, if_true, if_false]
        exact .cons (Condition.same_of_bound hbound) .nil
    · by_cases hzero : qc.upper = 0
      · simp [hupper, hzero]
      · have hbound := (iterCmtsBindings_upper chanId postId hzero).trans
          (congrArg some (bindInt64_eq hsame.upper hordinary.upper.2))
        simp only [hupper, hzero, ne_eq, not_false_eq_true, if_true, if_false]
        exact .cons (Condition.same_of_bound hbound) .nil
  · have hascending : decide (qc.by = .id) = decide (params.by = ConditionField.id) := by
      rw [hsame.by]
      cases qc.by <;> rfl
    simp only [iterCmtsQuery, multiCommentsQuery, hcolumn, hby, if_false, hascending]
  · by_cases hzero : qc.maxcnt = 0
    · simp [iterCmtsQuery, multiCommentsQuery, hcolumn, hmaxCount, hzero]
    · have hbound := (iterCmtsBindings_maxcnt chanId postId hzero).trans
        (congrArg some (bindInt64_eq hsame.maxCount hordinary.maxCount.2))
      simp only [iterCmtsQuery, multiCommentsQuery, hcolumn, hmaxCount, hzero, ne_eq,
        not_false_eq_true, if_true, if_false, Option.map_some, Option.some.injEq]
      exact Operand.asLimit_of_bound hbound

/-- The two requests with the same criteria go through the same comments in the same order. -/
theorem iterCmtsRows_eq_multiCommentsRows (db : Db) (hsame : SameCriteria chanId postId qc params)
    (hordinary : params.Ordinary) :
    ∃ rows, iterCmtsRows chanId postId qc db = some rows ∧
      multiCommentsRows params db = some rows := by
  refine ⟨multiCommentRows .stored db params, ?_, multiCommentsRows_eq⟩
  have hbinds : qc.binds = true := by
    simp only [QryCriteria.binds, hsame.by_ne_none hordinary, ne_eq, not_false_eq_true, true_or,
      decide_true]
  calc
    iterCmtsRows chanId postId qc db =
        (iterCmtsQuery qc).rows commentColumns (iterCmtsBindings chanId postId qc)
          (joinedComments db) := by
      rw [iterCmtsRows, bind_iterCmts, if_pos hbinds, Option.bind_eq_bind, Option.bind_some]
    _ = multiCommentsRows params db := (same_of_sameCriteria hsame hordinary).rows_eq _
    _ = some (multiCommentRows .stored db params) := multiCommentsRows_eq

/-- The latest of two comments of a post between two times. -/
theorem iterCmtsRows_latest :
    let author : UserRow := ⟨2, "did:author", "author", "", "", 0, []⟩
    let comment : ℤ → CommentRow :=
      fun id => ⟨1, 1, id, 0, 2, 10 + id, 10 + id, 0, .available, "", "", [], [7]⟩
    let db : Db := { Db.init with users := [author], comments := [comment 1, comment 2] }
    ∃ rows, iterCmtsRows 1 1 ⟨.createdAt, 20, 10, 1⟩ db = some rows ∧
      multiCommentsRows ⟨1, 1, 3, 20, 10, 1⟩ db = some rows := by
  intro author comment db
  exact iterCmtsRows_eq_multiCommentsRows db ⟨rfl, rfl, rfl, rfl, rfl, rfl⟩
    ⟨by decide, by decide, by decide, by decide, by decide, by decide⟩

end Agreement

end FeedsService.Feeds
