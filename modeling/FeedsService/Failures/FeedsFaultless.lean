import FeedsService.Failures.Feeds

/-!
# The handlers of `feeds.c` without a fault

Taken call by call, a handler that meets no fault ends as its counterpart in
`Feeds.Handlers` does.
-/

namespace FeedsService.Failures

open FeedsService.Library FeedsService.Library.Handlers FeedsService.Library.Transactions
open FeedsService.Feeds

/-- What an outcome sends and leaves behind. -/
def ends (w : World) : Outcome → Except Exit (List Resp) × World
  | .ignored => (.error .ignored, w)
  | .failed err => (.error (fails err), w)
  | .done carried => (.ok carried.replies, carried.world)

/-- Without a fault the handler ends with the outcome. -/
def Follows (handler : FeedsHandler (List Resp)) (w : World) (outcome : Outcome) : Prop :=
  handler.run none w = ends w outcome

variable {w : World} {ctx : Ctx} {α β : Type}

section Rules

variable {err : Err}

theorem follows_get {next : World → FeedsHandler (List Resp)} {outcome : Outcome}
    (hnext : Follows (next w) w outcome) : Follows (get >>= next) w outcome :=
  hnext

theorem follows_attempt {next : Unit → FeedsHandler (List Resp)} {call : Call} {e : Exit}
    {outcome : Outcome} (hnext : Follows (next ()) w outcome) :
    Follows (Handlers.attempt call e >>= next) w outcome :=
  hnext

theorem follows_guard {guard : FeedsHandler Unit} {next : Unit → FeedsHandler (List Resp)}
    {condition : Bool} {outcome : Outcome}
    (hguard : guard.run none w = (if condition then .ok () else .error (fails err), w))
    (hnext : Follows (next ()) w outcome) :
    Follows (guard >>= next) w (check condition err outcome) := by
  cases condition with
  | true => exact (run_bind_ok hguard).trans hnext
  | false => exact run_bind_error hguard

theorem follows_find {guard : FeedsHandler α} {next : α → FeedsHandler (List Resp)}
    {found : Option α} {outcome : Outcome}
    (hguard : guard.run none w = (found.elim (.error (fails err)) .ok, w))
    (hnone : found = none → outcome = .failed err)
    (hsome : ∀ value, found = some value → Follows (next value) w outcome) :
    Follows (guard >>= next) w outcome := by
  cases found with
  | some value => exact (run_bind_ok hguard).trans (hsome value rfl)
  | none =>
      rw [hnone rfl]
      exact run_bind_error hguard

theorem follows_didIsReady {next : Unit → FeedsHandler (List Resp)} {outcome : Outcome}
    (hnext : Follows (next ()) w outcome) :
    Follows (didIsReady ctx >>= next) w (ready ctx outcome) := by
  have hrun : (didIsReady ctx).run none w =
      (if ctx.didIsReady then .ok () else .error .ignored, w) := rfl
  rw [ready]
  split
  · next hready => exact (run_bind_ok (by rw [hrun, if_pos hready])).trans hnext
  · next hready => exact run_bind_error (by rw [hrun, if_neg hready])

theorem run_createUinfo : (createUinfoFromAccessToken ctx).run none w =
    (ctx.uinfo.elim (.error (fails .accessTokenExp)) .ok, w) :=
  rfl

theorem follows_createUinfo {next : UserInfo → FeedsHandler (List Resp)}
    {outcome : UserInfo → Outcome} (hnext : ∀ uinfo, Follows (next uinfo) w (outcome uinfo)) :
    Follows (createUinfoFromAccessToken ctx >>= next) w (withUinfo ctx outcome) := by
  apply follows_find run_createUinfo
  · intro hnone
    rw [withUinfo, hnone]
  · intro uinfo hsome
    rw [withUinfo, hsome]
    exact hnext uinfo

theorem follows_ownerOnly {next : Unit → FeedsHandler (List Resp)} {outcome : Outcome}
    (hnext : Follows (next ()) w outcome) :
    Follows (ownerOnly ctx >>= next) w (withOwner ctx outcome) := by
  rw [Follows, ownerOnly, run_bind_assoc]
  exact follows_createUinfo fun uinfo => follows_guard rfl hnext

theorem run_chanGetById (chanId : UInt64) : (chanGetById chanId).run none w =
    ((w.mem.chanGetById chanId.toNat).elim (.error (fails .notExist)) .ok, w) :=
  rfl

theorem follows_chanGetById {next : Ref → FeedsHandler (List Resp)} {chanId : UInt64}
    {outcome : Ref → Outcome} (hnext : ∀ chan, Follows (next chan) w (outcome chan)) :
    Follows (chanGetById chanId >>= next) w (withChan w chanId outcome) := by
  apply follows_find (run_chanGetById chanId)
  · intro hnone
    rw [withChan, hnone]
  · intro chan hsome
    rw [withChan, hsome]
    exact hnext chan

theorem follows_chanOfPost {next : Ref → FeedsHandler (List Resp)} {chanId postId : UInt64}
    {outcome : Ref → Outcome} (hnext : ∀ chan, Follows (next chan) w (outcome chan)) :
    Follows (chanOfPost chanId postId >>= next) w (withPost w chanId postId outcome) := by
  rw [Follows, chanOfPost, run_bind_assoc]
  apply follows_chanGetById
  intro chan
  rw [Follows, run_bind_assoc]
  exact follows_guard rfl (hnext chan)

/-- Without a reference there is nothing to look for. -/
theorem run_cmtExists (chanId postId cmtId : UInt64) :
    (cmtExists chanId postId cmtId).run none w =
      (if cmtIdOk w chanId postId cmtId then .ok () else .error (fails .notExist), w) := by
  rw [cmtExists, cmtIdOk]
  split
  · next hzero => simp [hzero]
  · next hnonzero =>
      simp only [hnonzero, decide_false, Bool.false_or]
      rfl

theorem follows_attemptIf {next : Unit → FeedsHandler (List Resp)} {condition : Bool}
    {call : Call} {outcome : Outcome} (hnext : Follows (next ()) w outcome) :
    Follows (attemptIf condition call >>= next) w outcome := by
  cases condition with
  | true => exact hnext
  | false => exact hnext

theorem run_aspcCreates (number : ℕ) (ids : List ℕ) :
    (aspcCreates number ids).run none w = (.ok (), w) := by
  induction ids generalizing number with
  | nil => rfl
  | cons id ids ih => exact ih (number + 1)

theorem follows_change {program : Sql Db α} {action : Db → Option (α × Db)}
    (hcarries : CarriesOut program action) {next : α → FeedsHandler (List Resp)}
    {outcome : Outcome} (hnone : action w.db = none → outcome = .failed .internalError)
    (hsome : ∀ value db, action w.db = some (value, db) →
      (next value).run none { w with db := db } = ends w outcome) :
    Follows (change program >>= next) w outcome := by
  have hrun : (change program).run none w = _ := run_mutate hcarries faultsOf_none
  simp only [worldDb] at hrun
  cases haction : action w.db with
  | none =>
      rw [haction] at hrun
      rw [hnone haction]
      exact run_bind_error hrun
  | some result =>
      rw [haction] at hrun
      exact (run_bind_ok hrun).trans (hsome result.1 result.2 haction)

theorem follows_returning {program : Sql Db α} {action : Db → Option (α × Db)}
    (hcarries : CarriesOut program action) {next : α → FeedsHandler (List Resp)}
    {outcome : α × Db → Outcome}
    (hnext : ∀ value db, action w.db = some (value, db) →
      (next value).run none { w with db := db } = ends w (outcome (value, db))) :
    Follows (change program >>= next) w (dbCall (action w.db) .internalError outcome) := by
  apply follows_change hcarries
  · intro hnone
    rw [hnone]
    rfl
  · intro value db hsome
    rw [hsome]
    exact hnext value db hsome

theorem follows_executing {program : Sql Db Unit} {action : Db → Option Db}
    (hcarries : CarriesOut program fun db => (action db).map fun db => ((), db))
    {next : Unit → FeedsHandler (List Resp)} {outcome : Db → Outcome}
    (hnext : ∀ db, (next ()).run none { w with db := db } = ends w (outcome db)) :
    Follows (change program >>= next) w (dbCall (action w.db) .internalError outcome) := by
  apply follows_change hcarries
  · intro hnone
    rw [Option.map_eq_none_iff.mp hnone]
    rfl
  · intro u db hsome
    obtain ⟨db, haction, hdb⟩ := Option.map_eq_some_iff.mp hsome
    cases hdb
    rw [haction]
    exact hnext db

/-- A function of the database that does not fail by itself. -/
theorem follows_certain {program : Sql Db Unit} {action : Db → Db}
    (hcarries : CarriesOut program fun db => some ((), action db))
    {next : Unit → FeedsHandler (List Resp)} {outcome : Outcome}
    (hnext : (next ()).run none { w with db := action w.db } = ends w outcome) :
    Follows (change program >>= next) w outcome := by
  apply follows_change hcarries
  · intro hnone
    cases hnone
  · intro u db hsome
    cases hsome
    exact hnext

end Rules

section Handlers

theorem follows_hdlCreateChanReq (params : ChanParams) :
    Follows (hdlCreateChanReq ctx params) w (Feeds.hdlCreateChanReq w ctx params) := by
  apply follows_attempt
  apply follows_guard rfl
  apply follows_didIsReady
  apply follows_ownerOnly
  apply follows_guard rfl
  apply follows_get
  apply follows_attempt
  apply follows_executing (Sql.carriesOut_dbCreateChan _)
  intro db
  rfl

theorem follows_hdlUpdChanReq (chanId : UInt64) (params : ChanParams) :
    Follows (hdlUpdChanReq ctx chanId params) w (Feeds.hdlUpdChanReq w ctx chanId params) := by
  apply follows_didIsReady
  apply follows_ownerOnly
  apply follows_chanGetById
  intro chan
  apply follows_guard rfl
  apply follows_get
  apply follows_attempt
  apply follows_executing (Sql.carriesOut_dbUpdChan _)
  intro db
  rfl

theorem follows_hdlUpdUserInfoReq (params : UserParams) :
    Follows (hdlUpdUserInfoReq ctx params) w (Feeds.hdlUpdUserInfoReq w ctx params) := by
  apply follows_didIsReady
  apply follows_createUinfo
  intro uinfo
  apply follows_executing (Sql.carriesOut_dbUpdateUserInfo _ _)
  intro db
  rfl

theorem follows_hdlPubPostReq (chanId : UInt64) (params : PostParams) :
    Follows (hdlPubPostReq ctx chanId params) w (Feeds.hdlPubPostReq w ctx chanId params) := by
  apply follows_didIsReady
  apply follows_ownerOnly
  apply follows_chanGetById
  intro chan
  apply follows_get
  apply follows_executing (Sql.carriesOut_dbAddPost _)
  intro db
  rfl

theorem follows_hdlDeclarePostReq (chanId : UInt64) (withNotify : Bool) (params : PostParams) :
    Follows (hdlDeclarePostReq ctx chanId withNotify params) w
      (Feeds.hdlDeclarePostReq w ctx chanId withNotify params) := by
  apply follows_didIsReady
  apply follows_ownerOnly
  apply follows_chanGetById
  intro chan
  apply follows_get
  apply follows_executing (Sql.carriesOut_dbAddPost _)
  intro db
  rfl

/-- Once the status is set, `db_get_post` finds the post. -/
theorem follows_hdlNotifyPostReq (chanId postId : UInt64) :
    Follows (hdlNotifyPostReq ctx chanId postId) w
      (Feeds.hdlNotifyPostReq w ctx chanId postId) := by
  rw [Follows, hdlNotifyPostReq, postToNotify, run_bind_assoc]
  apply follows_didIsReady
  rw [Follows, run_bind_assoc]
  apply follows_ownerOnly
  rw [Follows, run_bind_assoc]
  apply follows_chanGetById
  intro chan
  rw [Follows, run_bind_assoc]
  apply follows_attempt
  rw [Follows, run_bind_assoc]
  apply follows_find rfl
  · intro hnone
    simp only [dbCall, hnone]
  · intro stat hstat
    simp only [dbCall, hstat]
    apply follows_guard rfl
    apply follows_returning (Sql.carriesOut_dbSetPostStatus _)
    intro pi db hset
    have hfound := dbGetPost_of_dbSetPostStatus hset
    simp only [blankPost] at hfound
    obtain ⟨found, hfound⟩ := Option.isSome_iff_exists.mp hfound
    have hread : (find (fails .internalError) fun w =>
        dbGetPost w.db (bindInt64 chanId) (bindInt64 postId) pi : FeedsHandler PostInfo).run none
          { w with db := db } = (.ok found, { w with db := db }) :=
      run_find_eq_ok.mpr ⟨hfound, rfl⟩
    rw [run_bind_ok (Handlers.run_attempt (by simp)), run_bind_ok hread]
    simp only [hfound]
    rfl

theorem follows_hdlEditPostReq (chanId postId : UInt64) (params : PostParams) :
    Follows (hdlEditPostReq ctx chanId postId params) w
      (Feeds.hdlEditPostReq w ctx chanId postId params) := by
  apply follows_didIsReady
  apply follows_ownerOnly
  apply follows_chanGetById
  intro chan
  apply follows_guard rfl
  apply follows_returning (Sql.carriesOut_dbUpdPost _)
  intro pi db _
  rfl

theorem follows_hdlDelPostReq (chanId postId : UInt64) :
    Follows (hdlDelPostReq ctx chanId postId) w
      (Feeds.hdlDelPostReq w ctx chanId postId) := by
  apply follows_didIsReady
  apply follows_ownerOnly
  apply follows_chanGetById
  intro chan
  apply follows_guard rfl
  apply follows_returning (Sql.carriesOut_dbSetPostStatus _)
  intro pi db _
  rfl

theorem follows_hdlPostCmtReq (chanId postId cmtId : UInt64) (params : CmtParams) :
    Follows (hdlPostCmtReq ctx chanId postId cmtId params) w
      (Feeds.hdlPostCmtReq w ctx chanId postId cmtId params) := by
  apply follows_didIsReady
  apply follows_createUinfo
  intro uinfo
  apply follows_chanOfPost
  intro chan
  apply follows_guard (run_cmtExists _ _ _)
  apply follows_returning (Sql.carriesOut_dbAddCmt _)
  intro cmtId db _
  rfl

theorem follows_hdlEditCmtReq (chanId postId id cmtId : UInt64) (params : CmtParams) :
    Follows (hdlEditCmtReq ctx chanId postId id cmtId params) w
      (Feeds.hdlEditCmtReq w ctx chanId postId id cmtId params) := by
  apply follows_didIsReady
  apply follows_createUinfo
  intro uinfo
  apply follows_chanOfPost
  intro chan
  apply follows_guard rfl
  apply follows_guard rfl
  apply follows_guard (run_cmtExists _ _ _)
  apply follows_returning (Sql.carriesOut_dbUpdCmt _)
  intro ci db _
  rfl

theorem follows_setCmtStatus (call : Call) (found : Db → ℤ → ℤ → ℤ → Bool) (stat : CmtStat)
    (chanId postId cmtId : UInt64) :
    Follows (setCmtStatus ctx call found stat chanId postId cmtId) w
      (Feeds.setCmtStatus found stat w ctx chanId postId cmtId) := by
  apply follows_didIsReady
  apply follows_createUinfo
  intro uinfo
  apply follows_chanOfPost
  intro chan
  apply follows_guard rfl
  apply follows_guard rfl
  apply follows_returning (Sql.carriesOut_dbSetCmtStatus _)
  intro ci db _
  rfl

theorem follows_hdlPostLikeReq (chanId postId cmtId : UInt64) (proof : String) :
    Follows (hdlPostLikeReq ctx chanId postId cmtId proof) w
      (Feeds.hdlPostLikeReq w ctx chanId postId cmtId proof) := by
  apply follows_didIsReady
  apply follows_createUinfo
  intro uinfo
  apply follows_chanOfPost
  intro chan
  apply follows_guard (run_cmtExists _ _ _)
  apply follows_guard rfl
  apply follows_returning (Sql.carriesOut_dbAddLike _ _ _ _ _ _)
  intro count db _
  rfl

theorem follows_hdlPostUnlikeReq (chanId postId cmtId : UInt64) :
    Follows (hdlPostUnlikeReq ctx chanId postId cmtId) w
      (Feeds.hdlPostUnlikeReq w ctx chanId postId cmtId) := by
  apply follows_didIsReady
  apply follows_createUinfo
  intro uinfo
  apply follows_chanGetById
  intro chan
  apply follows_guard rfl
  apply follows_certain (Sql.carriesOut_dbRmLike _ _ _ _)
  rfl

theorem follows_hdlReportIllegalCmtReq (chanId postId cmtId : UInt64) (reasons : String) :
    Follows (hdlReportIllegalCmtReq ctx chanId postId cmtId reasons) w
      (Feeds.hdlReportIllegalCmtReq w ctx chanId postId cmtId reasons) := by
  apply follows_didIsReady
  apply follows_createUinfo
  intro uinfo
  apply follows_chanOfPost
  intro chan
  apply follows_guard (run_cmtExists _ _ _)
  apply follows_guard rfl
  apply follows_certain (Sql.carriesOut_dbAddReportedCmts _)
  rfl

theorem follows_hdlSubChanReq (id : UInt64) (proof : String) :
    Follows (hdlSubChanReq ctx id proof) w (Feeds.hdlSubChanReq w ctx id proof) := by
  apply follows_didIsReady
  apply follows_createUinfo
  intro uinfo
  apply follows_chanGetById
  intro chan
  apply follows_guard rfl
  apply follows_get
  apply follows_attemptIf
  apply follows_executing (Sql.carriesOut_dbAddSub _ _ _ _)
  intro db
  rfl

theorem follows_hdlUnsubChanReq (id : UInt64) :
    Follows (hdlUnsubChanReq ctx id) w (Feeds.hdlUnsubChanReq w ctx id) := by
  apply follows_didIsReady
  apply follows_createUinfo
  intro uinfo
  apply follows_chanGetById
  intro chan
  apply follows_guard rfl
  apply follows_certain (Sql.carriesOut_dbUnsub _ _)
  rfl

theorem follows_hdlEnblNotifReq :
    Follows (hdlEnblNotifReq ctx) w (Feeds.hdlEnblNotifReq w ctx) := by
  apply follows_didIsReady
  apply follows_createUinfo
  intro uinfo
  apply follows_get
  split
  · next hexists =>
      obtain ⟨as, has, hndpas⟩ := (Option.any_eq_true _ _).mp hexists
      have hsame : w.mem.enblNotif w.db uinfo.uid ctx.from = w.mem := by
        simp only [Mem.enblNotif, has, hndpas, if_true]
      rw [hsame]
      rfl
  · next hnew =>
      apply follows_attemptIf
      apply follows_attemptIf
      apply follows_attempt
      split
      · apply follows_attempt
        rw [Follows, run_bind_ok (run_aspcCreates _ _)]
        rfl
      · rfl

end Handlers

/-- Without a fault a request that changes something ends as in `Feeds.handle`. -/
theorem run_feedsHandler {req : Feeds.Req} {handler : FeedsHandler (List Resp)}
    (hhandler : feedsHandler ctx req = some handler) (w : World) :
    handler.run none w = ends w (handle w ctx req) := by
  cases req <;> cases hhandler
  case createChan params => exact follows_hdlCreateChanReq params
  case updChan chanId params => exact follows_hdlUpdChanReq chanId params
  case pubPost chanId params => exact follows_hdlPubPostReq chanId params
  case declarePost chanId withNotify params =>
    exact follows_hdlDeclarePostReq chanId withNotify params
  case notifyPost chanId postId => exact follows_hdlNotifyPostReq chanId postId
  case editPost chanId postId params => exact follows_hdlEditPostReq chanId postId params
  case delPost chanId postId => exact follows_hdlDelPostReq chanId postId
  case postCmt chanId postId cmtId params =>
    exact follows_hdlPostCmtReq chanId postId cmtId params
  case editCmt chanId postId id cmtId params =>
    exact follows_hdlEditCmtReq chanId postId id cmtId params
  case delCmt chanId postId id => exact follows_setCmtStatus _ _ _ chanId postId id
  case blockCmt chanId postId cmtId => exact follows_setCmtStatus _ _ _ chanId postId cmtId
  case unblockCmt chanId postId cmtId => exact follows_setCmtStatus _ _ _ chanId postId cmtId
  case postLike chanId postId cmtId proof =>
    exact follows_hdlPostLikeReq chanId postId cmtId proof
  case postUnlike chanId postId cmtId => exact follows_hdlPostUnlikeReq chanId postId cmtId
  case subChan id proof => exact follows_hdlSubChanReq id proof
  case unsubChan id => exact follows_hdlUnsubChanReq id
  case enblNotif => exact follows_hdlEnblNotifReq
  case updUserInfo params => exact follows_hdlUpdUserInfoReq params
  case reportIllegalCmt chanId postId cmtId reasons =>
    exact follows_hdlReportIllegalCmtReq chanId postId cmtId reasons

end FeedsService.Failures
