import FeedsService.Failures.Feeds

/-!
# What the handlers of `feeds.c` leave behind an error

Every handler but one checks and allocates first, changes the database in one
transaction and then only does what cannot fail: an error leaves the world alone.
`hdl_notify_post_req` reads the post back after it has changed it.
-/

namespace FeedsService.Failures

open FeedsService.Library FeedsService.Library.Handlers FeedsService.Library.Transactions
open FeedsService.Feeds

variable {τ α β : Type} {view : World → τ} {fault : Option Call} {w : World}

section Checks

variable (ctx : Ctx)

theorem keeps_didIsReady : Keeps view (didIsReady ctx) :=
  keeps_require _ _

theorem keeps_createUinfoFromAccessToken : Keeps view (createUinfoFromAccessToken ctx) :=
  keeps_bind (keeps_attempt _ _) fun _ => keeps_find _ _

theorem keeps_ownerOnly : Keeps view (ownerOnly ctx) :=
  keeps_bind (keeps_createUinfoFromAccessToken ctx) fun _ => keeps_require _ _

theorem keeps_chanGetById (chanId : UInt64) : Keeps view (chanGetById chanId) :=
  keeps_find _ _

theorem keeps_chanOfPost (chanId postId : UInt64) : Keeps view (chanOfPost chanId postId) :=
  keeps_bind (keeps_chanGetById chanId) fun chan =>
    keeps_bind (keeps_require _ _) fun _ => keeps_pure chan

theorem keeps_dbTest (call : Call) (err : Err) (test : Db → Bool) :
    Keeps view (dbTest call err test) :=
  keeps_bind (keeps_attempt _ _) fun _ => keeps_require _ _

theorem keeps_cmtExists (chanId postId cmtId : UInt64) :
    Keeps view (cmtExists chanId postId cmtId) := by
  rw [cmtExists]
  split
  · exact keeps_pure ()
  · exact keeps_dbTest _ _ _

theorem keeps_postToNotify (chanId postId : UInt64) :
    Keeps view (postToNotify ctx chanId postId) :=
  keeps_bind (keeps_didIsReady ctx) fun _ =>
    keeps_bind (keeps_ownerOnly ctx) fun _ =>
    keeps_bind (keeps_chanGetById chanId) fun _ =>
    keeps_bind (keeps_attempt _ _) fun _ =>
    keeps_bind (keeps_find _ _) fun _ => keeps_require _ _

theorem keeps_attemptIf (condition : Bool) (call : Call) :
    Keeps view (attemptIf condition call) := by
  rw [attemptIf]
  split
  · exact keeps_attempt _ _
  · exact keeps_pure ()

theorem keeps_aspcCreates (number : ℕ) (ids : List ℕ) :
    Keeps view (aspcCreates number ids) := by
  induction ids generalizing number with
  | nil => exact keeps_pure ()
  | cons id ids ih =>
      exact keeps_bind (keeps_attempt _ _) fun _ =>
        keeps_bind (keeps_attempt _ _) fun _ => ih (number + 1)

end Checks

section Changes

/-- What comes after the change of the database cannot fail. -/
theorem spares_change_bind {program : Sql Db α} {next : α → FeedsHandler β}
    (hrestores : ∀ faults db, Restores program faults db)
    (hnext : ∀ value, Succeeds (next value)) :
    Spares view (change program >>= next) fault w :=
  spares_bind_succeeds (spares_mutate (hrestores _ _)) hnext

theorem succeeds_update_pure (change : World → World) (value : α) :
    Succeeds (update change >>= fun _ => (pure value : FeedsHandler α)) :=
  succeeds_bind (succeeds_update change) fun _ => succeeds_pure value

end Changes

variable (ctx : Ctx)

section Channels

theorem spares_hdlCreateChanReq (params : ChanParams) :
    Spares view (hdlCreateChanReq ctx params) fault w := by
  apply spares_bind (keeps_attempt _ _)
  intro _ w
  apply spares_bind (keeps_require _ _)
  intro _ w
  apply spares_bind (keeps_didIsReady ctx)
  intro _ w
  apply spares_bind (keeps_ownerOnly ctx)
  intro _ w
  apply spares_bind (keeps_require _ _)
  intro _ w
  apply spares_bind keeps_get
  intro world w
  apply spares_bind (keeps_attempt _ _)
  intro _ w
  exact spares_change_bind (fun faults db => Sql.restores_dbCreateChan faults db _)
    fun _ => succeeds_update_pure _ _

theorem spares_hdlUpdChanReq (chanId : UInt64) (params : ChanParams) :
    Spares view (hdlUpdChanReq ctx chanId params) fault w := by
  apply spares_bind (keeps_didIsReady ctx)
  intro _ w
  apply spares_bind (keeps_ownerOnly ctx)
  intro _ w
  apply spares_bind (keeps_chanGetById chanId)
  intro chan w
  apply spares_bind (keeps_require _ _)
  intro _ w
  apply spares_bind keeps_get
  intro world w
  apply spares_bind (keeps_attempt _ _)
  intro _ w
  exact spares_change_bind (fun faults db => Sql.restores_dbUpdChan faults db _)
    fun _ => succeeds_update_pure _ _

theorem spares_hdlUpdUserInfoReq (params : UserParams) :
    Spares view (hdlUpdUserInfoReq ctx params) fault w := by
  apply spares_bind (keeps_didIsReady ctx)
  intro _ w
  apply spares_bind (keeps_createUinfoFromAccessToken ctx)
  intro uinfo w
  exact spares_change_bind (fun faults db => Sql.restores_dbUpdateUserInfo faults db _ _)
    fun _ => succeeds_pure _

end Channels

section Posts

theorem spares_addPost (chanId : UInt64) (stat : PostStat) (params : PostParams) :
    Spares view (addPost ctx chanId stat params) fault w := by
  apply spares_bind (keeps_didIsReady ctx)
  intro _ w
  apply spares_bind (keeps_ownerOnly ctx)
  intro _ w
  apply spares_bind (keeps_chanGetById chanId)
  intro chan w
  apply spares_bind keeps_get
  intro world w
  exact spares_change_bind (fun faults db => Sql.restores_dbAddPost faults db _)
    fun _ => succeeds_update_pure _ _

theorem spares_changePost (chanId postId : UInt64) {program : Sql Db PostInfo}
    (hrestores : ∀ faults db, Restores program faults db) :
    Spares view (changePost ctx chanId postId program) fault w := by
  apply spares_bind (keeps_didIsReady ctx)
  intro _ w
  apply spares_bind (keeps_ownerOnly ctx)
  intro _ w
  apply spares_bind (keeps_chanGetById chanId)
  intro chan w
  apply spares_bind (keeps_dbTest _ _ _)
  intro _ w
  exact spares_change_bind hrestores fun _ => succeeds_pure _

/-- The request gets to the change of its post. -/
structure Notifies (w : World) (ctx : Ctx) (chanId postId : UInt64) : Prop where
  ready : ctx.didIsReady = true
  owner : ∃ uinfo, ctx.uinfo = some uinfo ∧ userIdIsOwner uinfo.uid = true
  chan : ∃ chan, w.mem.chanGetById chanId.toNat = some chan
  stat : ∃ stat, dbGetPostStatus w.db (bindInt64 chanId) (bindInt64 postId) = some stat ∧
    stat ≠ .deleted

theorem postToNotify_eq_ok {ctx : Ctx} {chanId postId : UInt64} {w' : World} {u : Unit} :
    (postToNotify ctx chanId postId).run fault w = (.ok u, w') ↔
      Notifies w ctx chanId postId ∧ fault ≠ some .createUinfoFromAccessToken ∧
        fault ≠ some .dbGetPostStatus ∧ w = w' := by
  simp only [postToNotify, didIsReady, ownerOnly, createUinfoFromAccessToken, chanGetById,
    run_bind_eq_ok, run_require_eq_ok, run_find_eq_ok, run_attempt_eq_ok]
  constructor
  · rintro ⟨_, _, ⟨hready, rfl⟩, _, _, ⟨uinfo, _, ⟨_, _, ⟨htoken, rfl⟩, huinfo, rfl⟩, howner, rfl⟩,
      chan, _, ⟨hchan, rfl⟩, _, _, ⟨hcall, rfl⟩, stat, _, ⟨hstat, rfl⟩, hdeleted, rfl⟩
    exact ⟨⟨hready, ⟨uinfo, huinfo, howner⟩, ⟨chan, hchan⟩,
      ⟨stat, hstat, by simpa using hdeleted⟩⟩, htoken, hcall, rfl⟩
  · rintro ⟨⟨hready, ⟨uinfo, huinfo, howner⟩, ⟨chan, hchan⟩, stat, hstat, hdeleted⟩,
      htoken, hcall, rfl⟩
    exact ⟨(), w, ⟨hready, rfl⟩, (), w,
      ⟨uinfo, w, ⟨(), w, ⟨htoken, rfl⟩, huinfo, rfl⟩, howner, rfl⟩, chan, w, ⟨hchan, rfl⟩,
      (), w, ⟨hcall, rfl⟩, stat, w, ⟨hstat, rfl⟩,
      by simpa using hdeleted, rfl⟩

def madeAvailable (row : PostRow) : PostRow :=
  { row with status := .available }

/-- The database after a post has been made available. -/
def withAvailable (db : Db) (chanId postId : UInt64) : Db :=
  { db with
    posts := updateWhere db.posts (PostRow.at (bindInt64 chanId) (bindInt64 postId))
      madeAvailable }

/-- Nothing is left to notify of. -/
def IsAvailable (db : Db) (chanId postId : UInt64) : Prop :=
  ∀ row ∈ db.posts, PostRow.at (bindInt64 chanId) (bindInt64 postId) row = true →
    row.status = .available

theorem withAvailable_eq_self_iff {db : Db} {chanId postId : UInt64} :
    withAvailable db chanId postId = db ↔ IsAvailable db chanId postId := by
  have hposts : withAvailable db chanId postId = db ↔
      (withAvailable db chanId postId).posts = db.posts := by
    constructor
    · exact congrArg Db.posts
    · intro hsame
      exact congrArg (fun posts => { db with posts := posts }) hsame
  rw [hposts, withAvailable, updateWhere_eq_self_iff, IsAvailable]
  refine forall₃_congr fun row _ _ => ?_
  constructor
  · intro hsame
    rw [← hsame]
    rfl
  · intro hstatus
    rw [madeAvailable, ← hstatus]

theorem dbSetPostStatus_of_found {db : Db} {chanId postId : UInt64} {stat : PostStat}
    (hstat : dbGetPostStatus db (bindInt64 chanId) (bindInt64 postId) = some stat) :
    ∃ pi, Feeds.dbSetPostStatus db (blankPost chanId postId .available 0) =
      some (pi, withAvailable db chanId postId) := by
  obtain ⟨row, hrow, -⟩ := Option.map_eq_some_iff.mp hstat
  have hkeep : ∀ row, PostRow.at (bindInt64 chanId) (bindInt64 postId) (madeAvailable row) =
      PostRow.at (bindInt64 chanId) (bindInt64 postId) row :=
    fun _ => rfl
  have hfound : (withAvailable db chanId postId).posts.find?
      (PostRow.at (bindInt64 chanId) (bindInt64 postId)) = some (madeAvailable row) := by
    rw [withAvailable, find?_updateWhere hkeep, hrow, Option.map_some]
  refine ⟨{ blankPost chanId postId .available 0 with
    cmts := row.nextCommentId - 1
    likes := row.likes
    createdAt := row.createdAt }, ?_⟩
  simp only [Feeds.dbSetPostStatus, readBackPost, blankPost]
  exact Option.map_eq_some_iff.mpr ⟨madeAvailable row, hfound, rfl⟩

theorem faultsOf_dbGetPost : faultsOf (some .dbGetPost) = noFaults :=
  faultsOf_eq_noFaults fun _ _ h => by cases h

theorem failsOnly_dbSetPostStatus (pi : PostInfo) : FailsOnly (Sql.dbSetPostStatus pi) :=
  failsOnly_transaction (failsOnly_bind (failsOnly_execute _) fun _ => failsOnly_statement _)

/-- A post that was not available yet stays changed when `db_get_post` fails. -/
theorem spares_hdlNotifyPostReq_iff {ctx : Ctx} {chanId postId : UInt64} :
    Spares id (hdlNotifyPostReq ctx chanId postId) fault w ↔
      (fault = some .dbGetPost → Notifies w ctx chanId postId →
        IsAvailable w.db chanId postId) := by
  rw [hdlNotifyPostReq, spares_bind_iff (keeps_postToNotify ctx chanId postId)]
  constructor
  · rintro hspares rfl hnotifies
    obtain ⟨stat, hstat, -⟩ := hnotifies.stat
    obtain ⟨pi, hset⟩ := dbSetPostStatus_of_found hstat
    have hspared := hspares () w
      (postToNotify_eq_ok.mpr ⟨hnotifies, by simp, by simp, rfl⟩) (fails .internalError)
    have hchanged : (change (Sql.dbSetPostStatus (blankPost chanId postId .available 0))).run
        (some .dbGetPost) w = (.ok pi, { w with db := withAvailable w.db chanId postId }) := by
      rw [change, run_mutate (Sql.carriesOut_dbSetPostStatus _) faultsOf_dbGetPost]
      simp only [worldDb, hset]
    rw [run_bind_ok hchanged, run_bind_error (run_attempt_failing _ _ _)] at hspared
    exact withAvailable_eq_self_iff.mp (congrArg World.db (hspared rfl))
  · intro havailable _ w' hchecked
    obtain ⟨hnotifies, -, -, rfl⟩ := postToNotify_eq_ok.mp hchecked
    intro e herror
    rcases hchanged : (change (Sql.dbSetPostStatus (blankPost chanId postId .available 0))).run
        fault w with ⟨result, w'⟩
    cases result with
    | error e' =>
        rw [run_bind_error hchanged]
        have hspared : Spares id
            (change (Sql.dbSetPostStatus (blankPost chanId postId .available 0))) fault w :=
          spares_mutate (Sql.restores_dbSetPostStatus _ _ _)
        have hkept := hspared e' (by rw [hchanged])
        rwa [hchanged] at hkept
    | ok pi =>
        obtain ⟨db, hset, rfl⟩ := run_mutate_eq_ok (Sql.carriesOut_dbSetPostStatus _)
          (failsOnly_dbSetPostStatus _) hchanged
        rw [run_bind_ok hchanged] at herror ⊢
        by_cases hfault : fault = some .dbGetPost
        · obtain ⟨stat, hstat, -⟩ := hnotifies.stat
          obtain ⟨pi', hset'⟩ := dbSetPostStatus_of_found hstat
          obtain ⟨-, rfl⟩ := Prod.mk.inj (Option.some.inj (hset.symm.trans hset'))
          have hsame := withAvailable_eq_self_iff.mpr (havailable hfault hnotifies)
          rw [hfault, run_bind_error (run_attempt_failing _ _ _)]
          exact congrArg (fun db => { w with db := db }) hsame
        · obtain ⟨found, hfound⟩ := Option.isSome_iff_exists.mp (dbGetPost_of_dbSetPostStatus hset)
          have hread : (find (fails .internalError) fun w : World =>
              dbGetPost w.db (bindInt64 chanId) (bindInt64 postId) pi).run fault
                (worldDb.put w db) = (.ok found, worldDb.put w db) :=
            run_find_eq_ok.mpr ⟨by simpa only [blankPost, worldDb] using hfound, rfl⟩
          rw [run_bind_ok (Handlers.run_attempt hfault), run_bind_ok hread] at herror
          cases herror

end Posts

section Comments

theorem spares_hdlPostCmtReq (chanId postId cmtId : UInt64) (params : CmtParams) :
    Spares view (hdlPostCmtReq ctx chanId postId cmtId params) fault w := by
  apply spares_bind (keeps_didIsReady ctx)
  intro _ w
  apply spares_bind (keeps_createUinfoFromAccessToken ctx)
  intro uinfo w
  apply spares_bind (keeps_chanOfPost chanId postId)
  intro chan w
  apply spares_bind (keeps_cmtExists chanId postId cmtId)
  intro _ w
  exact spares_change_bind (fun faults db => Sql.restores_dbAddCmt faults db _)
    fun _ => succeeds_pure _

theorem spares_hdlEditCmtReq (chanId postId id cmtId : UInt64) (params : CmtParams) :
    Spares view (hdlEditCmtReq ctx chanId postId id cmtId params) fault w := by
  apply spares_bind (keeps_didIsReady ctx)
  intro _ w
  apply spares_bind (keeps_createUinfoFromAccessToken ctx)
  intro uinfo w
  apply spares_bind (keeps_chanOfPost chanId postId)
  intro chan w
  apply spares_bind (keeps_dbTest _ _ _)
  intro _ w
  apply spares_bind (keeps_dbTest _ _ _)
  intro _ w
  apply spares_bind (keeps_cmtExists chanId postId cmtId)
  intro _ w
  exact spares_change_bind (fun faults db => Sql.restores_dbUpdCmt faults db _)
    fun _ => succeeds_pure _

theorem spares_setCmtStatus (call : Call) (found : Db → ℤ → ℤ → ℤ → Bool) (stat : CmtStat)
    (chanId postId cmtId : UInt64) :
    Spares view (setCmtStatus ctx call found stat chanId postId cmtId) fault w := by
  apply spares_bind (keeps_didIsReady ctx)
  intro _ w
  apply spares_bind (keeps_createUinfoFromAccessToken ctx)
  intro uinfo w
  apply spares_bind (keeps_chanOfPost chanId postId)
  intro chan w
  apply spares_bind (keeps_dbTest _ _ _)
  intro _ w
  apply spares_bind (keeps_dbTest _ _ _)
  intro _ w
  exact spares_change_bind (fun faults db => Sql.restores_dbSetCmtStatus faults db _)
    fun _ => succeeds_pure _

end Comments

section Likes

theorem spares_hdlPostLikeReq (chanId postId cmtId : UInt64) (proof : String) :
    Spares view (hdlPostLikeReq ctx chanId postId cmtId proof) fault w := by
  apply spares_bind (keeps_didIsReady ctx)
  intro _ w
  apply spares_bind (keeps_createUinfoFromAccessToken ctx)
  intro uinfo w
  apply spares_bind (keeps_chanOfPost chanId postId)
  intro chan w
  apply spares_bind (keeps_cmtExists chanId postId cmtId)
  intro _ w
  apply spares_bind (keeps_dbTest _ _ _)
  intro _ w
  exact spares_change_bind (fun faults db => Sql.restores_dbAddLike faults db _ _ _ _ _ _)
    fun _ => succeeds_pure _

theorem spares_hdlPostUnlikeReq (chanId postId cmtId : UInt64) :
    Spares view (hdlPostUnlikeReq ctx chanId postId cmtId) fault w := by
  apply spares_bind (keeps_didIsReady ctx)
  intro _ w
  apply spares_bind (keeps_createUinfoFromAccessToken ctx)
  intro uinfo w
  apply spares_bind (keeps_chanGetById chanId)
  intro chan w
  apply spares_bind (keeps_dbTest _ _ _)
  intro _ w
  exact spares_change_bind (fun faults db => Sql.restores_dbRmLike faults db _ _ _ _)
    fun _ => succeeds_pure _

theorem spares_hdlReportIllegalCmtReq (chanId postId cmtId : UInt64) (reasons : String) :
    Spares view (hdlReportIllegalCmtReq ctx chanId postId cmtId reasons) fault w := by
  apply spares_bind (keeps_didIsReady ctx)
  intro _ w
  apply spares_bind (keeps_createUinfoFromAccessToken ctx)
  intro uinfo w
  apply spares_bind (keeps_chanOfPost chanId postId)
  intro chan w
  apply spares_bind (keeps_cmtExists chanId postId cmtId)
  intro _ w
  apply spares_bind (keeps_dbTest _ _ _)
  intro _ w
  exact spares_change_bind (fun faults db => Sql.restores_dbAddReportedCmts faults db _)
    fun _ => succeeds_pure _

end Likes

section Subscriptions

theorem spares_hdlSubChanReq (id : UInt64) (proof : String) :
    Spares view (hdlSubChanReq ctx id proof) fault w := by
  apply spares_bind (keeps_didIsReady ctx)
  intro _ w
  apply spares_bind (keeps_createUinfoFromAccessToken ctx)
  intro uinfo w
  apply spares_bind (keeps_chanGetById id)
  intro chan w
  apply spares_bind (keeps_dbTest _ _ _)
  intro _ w
  apply spares_bind keeps_get
  intro world w
  apply spares_bind (keeps_attemptIf _ _)
  intro _ w
  exact spares_change_bind (fun faults db => Sql.restores_dbAddSub faults db _ _ _ _)
    fun _ => succeeds_bind (succeeds_update _) fun _ =>
      succeeds_bind succeeds_get fun _ => succeeds_pure _

theorem spares_hdlUnsubChanReq (id : UInt64) :
    Spares view (hdlUnsubChanReq ctx id) fault w := by
  apply spares_bind (keeps_didIsReady ctx)
  intro _ w
  apply spares_bind (keeps_createUinfoFromAccessToken ctx)
  intro uinfo w
  apply spares_bind (keeps_chanGetById id)
  intro chan w
  apply spares_bind (keeps_dbTest _ _ _)
  intro _ w
  exact spares_change_bind (fun faults db => Sql.restores_dbUnsub faults db _ _)
    fun _ => succeeds_update_pure _ _

theorem spares_hdlEnblNotifReq : Spares view (hdlEnblNotifReq ctx) fault w := by
  apply spares_bind (keeps_didIsReady ctx)
  intro _ w
  apply spares_bind (keeps_createUinfoFromAccessToken ctx)
  intro uinfo w
  apply spares_bind keeps_get
  intro world w
  dsimp only
  split
  · exact spares_of_succeeds (succeeds_pure _)
  · apply spares_bind (keeps_attemptIf _ _)
    intro _ w
    apply spares_bind (keeps_attemptIf _ _)
    intro _ w
    apply spares_bind (keeps_attempt _ _)
    intro _ w
    split
    · apply spares_bind (keeps_attempt _ _)
      intro _ w
      apply spares_bind (keeps_aspcCreates _ _)
      intro _ w
      apply spares_bind (keeps_attempt _ _)
      intro _ w
      exact spares_of_succeeds (succeeds_update_pure _ _)
    · exact spares_of_succeeds (succeeds_update_pure _ _)

end Subscriptions

section Requests

/-- The request does not change a post that `db_get_post` then fails to read. -/
def FeedsIntact (w : World) (ctx : Ctx) (req : Feeds.Req) (fault : Option Call) : Prop :=
  match req with
  | .notifyPost chanId postId =>
      fault = some .dbGetPost → Notifies w ctx chanId postId → IsAvailable w.db chanId postId
  | _ => True

theorem spares_feedsHandler_iff {ctx : Ctx} {req : Feeds.Req}
    {handler : FeedsHandler (List Resp)} (hhandler : feedsHandler ctx req = some handler) :
    Spares id handler fault w ↔ FeedsIntact w ctx req fault := by
  cases req <;> cases hhandler
  case notifyPost chanId postId => exact spares_hdlNotifyPostReq_iff
  all_goals refine iff_of_true ?_ trivial
  case createChan params => exact spares_hdlCreateChanReq ctx params
  case updChan chanId params => exact spares_hdlUpdChanReq ctx chanId params
  case pubPost chanId params => exact spares_addPost ctx chanId _ params
  case declarePost chanId withNotify params => exact spares_addPost ctx chanId _ params
  case editPost chanId postId params =>
    exact spares_changePost ctx chanId postId fun faults db => Sql.restores_dbUpdPost faults db _
  case delPost chanId postId =>
    exact spares_changePost ctx chanId postId fun faults db =>
      Sql.restores_dbSetPostStatus faults db _
  case postCmt chanId postId cmtId params =>
    exact spares_hdlPostCmtReq ctx chanId postId cmtId params
  case editCmt chanId postId id cmtId params =>
    exact spares_hdlEditCmtReq ctx chanId postId id cmtId params
  case delCmt chanId postId id => exact spares_setCmtStatus ctx _ _ _ chanId postId id
  case blockCmt chanId postId cmtId => exact spares_setCmtStatus ctx _ _ _ chanId postId cmtId
  case unblockCmt chanId postId cmtId => exact spares_setCmtStatus ctx _ _ _ chanId postId cmtId
  case postLike chanId postId cmtId proof =>
    exact spares_hdlPostLikeReq ctx chanId postId cmtId proof
  case postUnlike chanId postId cmtId => exact spares_hdlPostUnlikeReq ctx chanId postId cmtId
  case subChan id proof => exact spares_hdlSubChanReq ctx id proof
  case unsubChan id => exact spares_hdlUnsubChanReq ctx id
  case enblNotif => exact spares_hdlEnblNotifReq ctx
  case updUserInfo params => exact spares_hdlUpdUserInfoReq ctx params
  case reportIllegalCmt chanId postId cmtId reasons =>
    exact spares_hdlReportIllegalCmtReq ctx chanId postId cmtId reasons

end Requests

end FeedsService.Failures
