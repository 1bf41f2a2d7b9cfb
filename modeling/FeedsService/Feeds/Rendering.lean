import FeedsService.Feeds.Comments

/-!
# Rendering statuses

`post_stat_str` lists every status that a stored post can have, and `cmt_stat_str`
lists two of the three that a stored comment can have.  A blocked comment is rendered
when it is blocked while a subscriber is active, and whenever it is listed.
-/

namespace FeedsService.Feeds

open FeedsService.Library FeedsService.Runs

section Strings

theorem postStatStr_isNone {stat : PostStat} :
    (postStatStr stat).isNone = true ↔ stat = .wrongStat := by
  cases stat <;> simp [postStatStr]

theorem cmtStatStr_isNone {stat : CmtStat} :
    (cmtStatStr stat).isNone = true ↔ stat = .blocked ∨ stat = .wrongStat := by
  cases stat <;> simp [cmtStatStr]

/-- What every destination can be told, all of them can. -/
theorem flatMap_quiet {peers : List NodeId} {notify : NodeId → List Out}
    (hquiet : ∀ peer, (notify peer).any Out.Aborts = false) :
    (peers.flatMap notify).any Out.Aborts = false := by
  rw [List.any_flatMap, List.any_eq_false]
  intro peer _
  rw [hquiet peer]
  exact Bool.false_ne_true

theorem notifyOfPostUpd_quiet {pi : PostInfo} (hstat : pi.stat ≠ .wrongStat) (peer : NodeId) :
    (notifyOfPostUpd pi peer).any Out.Aborts = false := by
  have hnone : (postStatStr pi.stat).isNone = false := by
    rw [Bool.eq_false_iff, Ne, postStatStr_isNone]
    exact hstat
  simp [notifyOfPostUpd, Out.Aborts, hnone]

theorem notifyOfCmtUpd_aborts (ci : CmtInfo) (peer : NodeId) :
    (notifyOfCmtUpd ci peer).any Out.Aborts = (cmtStatStr ci.stat).isNone := by
  simp [notifyOfCmtUpd, Out.Aborts]

end Strings

section Rendered

/-- The requests that pass the checks of their handler and render a blocked status:
blocking a comment while the channel has someone to notify, and listing comments of
which one is blocked. -/
inductive RendersBlocked (w : World) (ctx : Ctx) : Req → Prop
  | block {chanId postId cmtId : UInt64} {chan : Ref}
      (hchecked : StatusCheck w ctx chanId postId cmtId)
      (hchan : w.mem.chanGetById chanId.toNat = some chan)
      (hactive : w.mem.destinations chan ≠ []) :
      RendersBlocked w ctx (.blockCmt chanId postId cmtId)
  | list {chanId postId : UInt64} {qc : QryCriteria} {uinfo : UserInfo} {chan : Ref}
      {cinfos : List CmtInfo} {ci : CmtInfo} (hready : ctx.didIsReady = true)
      (huinfo : ctx.uinfo = some uinfo)
      (hchan : w.mem.chanGetById chanId.toNat = some chan)
      (hpost : postId.toNat < (w.mem.chan chan).info.nextPostId)
      (hfetched : dbIterCmts w.db (bindInt64 chanId) (bindInt64 postId) qc = some cinfos)
      (hlisted : ci ∈ cinfos) (hblocked : ci.stat = .blocked) :
      RendersBlocked w ctx (.getCmts chanId postId qc)

variable {w : World} {ctx : Ctx} {req : Req} {carried : Done}

/-- What a request that sets a status renders, once for each destination. -/
theorem setCmtStatus_aborts {chanId postId cmtId : UInt64}
    {found : Db → ℤ → ℤ → ℤ → Bool} {stat : CmtStat}
    (hdone : setCmtStatus found stat w ctx chanId postId cmtId = .done carried) :
    ∃ chan, w.mem.chanGetById chanId.toNat = some chan ∧
      (carried.outs.any Out.Aborts = true ↔
        w.mem.destinations chan ≠ [] ∧ (cmtStatStr stat).isNone = true) := by
  simp only [setCmtStatus, ready_eq_done, withUinfo_eq_done, withPost_eq_done,
    check_eq_done, dbCall_eq_done, Outcome.done.injEq] at hdone
  obtain ⟨_, uinfo, _, chan, hchan, _, _, _, set, hdb, rfl⟩ := hdone
  have hstat : set.1.stat = stat := by
    rw [(dbSetCmtStatus_eq_some hdb).2]
    simp only [blankCmt]
  refine ⟨chan, hchan, ?_⟩
  simp only [List.any_flatMap, notifyOfCmtUpd_aborts, hstat]
  cases hpeers : w.mem.destinations chan <;> simp

theorem quiet_of_setCmtStatus {chanId postId cmtId : UInt64}
    {found : Db → ℤ → ℤ → ℤ → Bool} {stat : CmtStat}
    (hdone : setCmtStatus found stat w ctx chanId postId cmtId = .done carried)
    (hstat : (cmtStatStr stat).isNone = false) : carried.outs.any Out.Aborts = false := by
  obtain ⟨chan, _, haborts⟩ := setCmtStatus_aborts hdone
  rw [Bool.eq_false_iff, Ne, haborts, hstat]
  exact fun h => Bool.false_ne_true h.2

theorem stat_of_mem_dbIterPosts {db : Db} {chanId : ℤ} {qc : QryCriteria}
    {pinfos : List PostInfo} (hfetched : dbIterPosts db chanId qc = some pinfos) {pi : PostInfo}
    (hpi : pi ∈ pinfos) : pi.stat = .available ∨ pi.stat = .deleted := by
  obtain ⟨rows, hrows, rfl⟩ := Option.map_eq_some_iff.mp hfetched
  obtain ⟨row, hrow, rfl⟩ := List.mem_map.mp hpi
  have hselected := (List.mem_filter.mp (mem_of_mem_iterate hrows hrow)).2
  simp only [decide_eq_true_eq] at hselected
  exact hselected.2

theorem mem_comments_of_mem_dbIterCmts {db : Db} {chanId postId : ℤ} {qc : QryCriteria}
    {cinfos : List CmtInfo} (hfetched : dbIterCmts db chanId postId qc = some cinfos)
    {ci : CmtInfo} (hci : ci ∈ cinfos) : ∃ row ∈ db.comments, ci.stat = row.status := by
  obtain ⟨rows, hrows, rfl⟩ := Option.map_eq_some_iff.mp hfetched
  obtain ⟨joined, hjoined, rfl⟩ := List.mem_map.mp hci
  obtain ⟨row, hrow, huser⟩ := List.mem_flatMap.mp (mem_of_mem_iterate hrows hjoined)
  obtain ⟨user, _, rfl⟩ := List.mem_map.mp huser
  exact ⟨row, List.mem_of_mem_filter hrow, rfl⟩

/-- A request that is carried out and renders a status that is not listed renders a
blocked comment. -/
theorem RendersBlocked.of_aborts (hknown : StatusesKnown w.db)
    (hdone : handle w ctx req = .done carried) (haborts : carried.outs.any Out.Aborts = true) :
    RendersBlocked w ctx req := by
  have hafter : StatusesKnown carried.world.db := hknown.effect (handle_effect hdone)
  have habsurd : carried.outs.any Out.Aborts = false → RendersBlocked w ctx req := by
    intro hquiet
    rw [hquiet] at haborts
    cases haborts
  cases req with
  | createChan params =>
      simp only [handle, hdlCreateChanReq, ready_eq_done, withOwner_eq_done, check_eq_done,
        dbCall_eq_done, Outcome.done.injEq] at hdone
      obtain ⟨_, _, _, _, db, _, rfl⟩ := hdone
      exact habsurd rfl
  | updChan chanId params =>
      simp only [handle, hdlUpdChanReq, ready_eq_done, withOwner_eq_done, withChan_eq_done,
        check_eq_done, dbCall_eq_done, Outcome.done.injEq] at hdone
      obtain ⟨_, _, chan, _, _, db, _, rfl⟩ := hdone
      exact habsurd (flatMap_quiet fun _ => rfl)
  | pubPost chanId params =>
      simp only [handle, hdlPubPostReq, ready_eq_done, withOwner_eq_done, withChan_eq_done,
        dbCall_eq_done, Outcome.done.injEq] at hdone
      obtain ⟨_, _, chan, _, db, _, rfl⟩ := hdone
      exact habsurd (flatMap_quiet fun _ => rfl)
  | declarePost chanId withNotify params =>
      simp only [handle, hdlDeclarePostReq, ready_eq_done, withOwner_eq_done,
        withChan_eq_done, dbCall_eq_done, Outcome.done.injEq] at hdone
      obtain ⟨_, _, chan, _, db, _, rfl⟩ := hdone
      refine habsurd ?_
      cases withNotify
      · rfl
      · exact flatMap_quiet fun _ => rfl
  | notifyPost chanId postId =>
      simp only [handle, hdlNotifyPostReq, ready_eq_done, withOwner_eq_done,
        withChan_eq_done, check_eq_done, dbCall_eq_done, Outcome.done.injEq] at hdone
      obtain ⟨_, _, chan, _, stat, _, _, set, _, pi, hget, rfl⟩ := hdone
      obtain ⟨row, hrow, rfl⟩ := Option.map_eq_some_iff.mp hget
      exact habsurd (flatMap_quiet (notifyOfPostUpd_quiet
        (hafter.posts row (List.mem_of_find?_eq_some hrow))))
  | editPost chanId postId params =>
      simp only [handle, hdlEditPostReq, ready_eq_done, withOwner_eq_done,
        withChan_eq_done, check_eq_done, dbCall_eq_done, Outcome.done.injEq] at hdone
      obtain ⟨_, _, chan, _, _, upd, hdb, rfl⟩ := hdone
      refine habsurd (flatMap_quiet (notifyOfPostUpd_quiet ?_))
      rw [(readBackPost_eq_some hdb).2]
      simp [blankPost]
  | delPost chanId postId =>
      simp only [handle, hdlDelPostReq, ready_eq_done, withOwner_eq_done,
        withChan_eq_done, check_eq_done, dbCall_eq_done, Outcome.done.injEq] at hdone
      obtain ⟨_, _, chan, _, _, set, hdb, rfl⟩ := hdone
      refine habsurd (flatMap_quiet (notifyOfPostUpd_quiet ?_))
      rw [(readBackPost_eq_some hdb).2]
      simp [blankPost]
  | postCmt chanId postId cmtId params =>
      simp only [handle, hdlPostCmtReq, ready_eq_done, withUinfo_eq_done,
        withPost_eq_done, check_eq_done, dbCall_eq_done, Outcome.done.injEq] at hdone
      obtain ⟨_, uinfo, _, chan, _, _, _, added, _, rfl⟩ := hdone
      exact habsurd (flatMap_quiet fun _ => rfl)
  | editCmt chanId postId id cmtId params =>
      simp only [handle, hdlEditCmtReq, ready_eq_done, withUinfo_eq_done,
        withPost_eq_done, check_eq_done, dbCall_eq_done, Outcome.done.injEq] at hdone
      obtain ⟨_, uinfo, _, chan, _, _, _, _, _, upd, hdb, rfl⟩ := hdone
      refine habsurd (flatMap_quiet fun peer => ?_)
      rw [notifyOfCmtUpd_aborts, (dbUpdCmt_eq_some hdb).2]
      simp only [blankCmt, cmtStatStr, Option.isNone_some]
  | delCmt chanId postId id => exact habsurd (quiet_of_setCmtStatus hdone rfl)
  | blockCmt chanId postId cmtId =>
      obtain ⟨chan, hchan, hiff⟩ := setCmtStatus_aborts hdone
      exact .block (setCmtStatus_eq_done hdone).1 hchan (hiff.mp haborts).1
  | unblockCmt chanId postId cmtId => exact habsurd (quiet_of_setCmtStatus hdone rfl)
  | postLike chanId postId cmtId proof =>
      simp only [handle, hdlPostLikeReq, ready_eq_done, withUinfo_eq_done,
        withPost_eq_done, check_eq_done, dbCall_eq_done, Outcome.done.injEq] at hdone
      obtain ⟨_, uinfo, _, chan, _, _, _, _, added, _, rfl⟩ := hdone
      exact habsurd (flatMap_quiet fun _ => rfl)
  | postUnlike chanId postId cmtId =>
      simp only [handle, hdlPostUnlikeReq, ready_eq_done, withUinfo_eq_done,
        withChan_eq_done, check_eq_done, Outcome.done.injEq] at hdone
      obtain ⟨_, uinfo, _, chan, _, _, rfl⟩ := hdone
      exact habsurd rfl
  | getPosts chanId qc =>
      simp only [handle, hdlGetPostsReq, ready_eq_done, withUinfo_eq_done,
        withChan_eq_done, dbCall_eq_done, Outcome.done.injEq] at hdone
      obtain ⟨_, uinfo, _, chan, _, pinfos, hfetched, rfl⟩ := hdone
      obtain ⟨out, hout, habort⟩ := List.any_eq_true.mp haborts
      obtain ⟨pi, hpi, rfl⟩ := List.mem_map.mp hout
      rw [Out.Aborts, postStatStr_isNone] at habort
      rcases stat_of_mem_dbIterPosts hfetched hpi with hstat | hstat <;> simp [hstat] at habort
  | getCmts chanId postId qc =>
      simp only [handle, hdlGetCmtsReq, ready_eq_done, withUinfo_eq_done,
        withPost_eq_done, dbCall_eq_done, Outcome.done.injEq] at hdone
      obtain ⟨hready, uinfo, huinfo, chan, hchan, hpost, cinfos, hfetched, rfl⟩ := hdone
      obtain ⟨out, hout, habort⟩ := List.any_eq_true.mp haborts
      obtain ⟨ci, hci, rfl⟩ := List.mem_map.mp hout
      rw [Out.Aborts, cmtStatStr_isNone] at habort
      refine .list hready huinfo hchan hpost hfetched hci (habort.resolve_right ?_)
      obtain ⟨row, hrow, hstat⟩ := mem_comments_of_mem_dbIterCmts hfetched hci
      rw [hstat]
      exact hknown.comments row hrow
  | subChan id proof =>
      simp only [handle, hdlSubChanReq, ready_eq_done, withUinfo_eq_done,
        withChan_eq_done, check_eq_done, dbCall_eq_done, Outcome.done.injEq] at hdone
      obtain ⟨_, uinfo, _, chan, _, _, db, _, rfl⟩ := hdone
      exact habsurd (flatMap_quiet fun _ => rfl)
  | unsubChan id =>
      simp only [handle, hdlUnsubChanReq, ready_eq_done, withUinfo_eq_done,
        withChan_eq_done, check_eq_done, Outcome.done.injEq] at hdone
      obtain ⟨_, uinfo, _, chan, _, _, rfl⟩ := hdone
      exact habsurd rfl
  | enblNotif =>
      simp only [handle, hdlEnblNotifReq, ready_eq_done, withUinfo_eq_done,
        Outcome.done.injEq] at hdone
      obtain ⟨_, uinfo, _, rfl⟩ := hdone
      exact habsurd rfl
  | updUserInfo params =>
      simp only [handle, hdlUpdUserInfoReq, ready_eq_done, withUinfo_eq_done,
        dbCall_eq_done, Outcome.done.injEq] at hdone
      obtain ⟨_, uinfo, _, db, _, rfl⟩ := hdone
      exact habsurd rfl
  | reportIllegalCmt chanId postId cmtId reasons =>
      simp only [handle, hdlReportIllegalCmtReq, ready_eq_done, withUinfo_eq_done,
        withPost_eq_done, check_eq_done, Outcome.done.injEq] at hdone
      obtain ⟨_, uinfo, _, chan, _, _, _, _, rfl⟩ := hdone
      exact habsurd (flatMap_quiet fun _ => rfl)
  | query query =>
      refine habsurd ?_
      rw [(handleQuery_eq_done hdone).2]
      rfl

/-- The comment whose author the handler has found. -/
theorem StatusCheck.exists_row {chanId postId cmtId : UInt64}
    (hchecked : StatusCheck w ctx chanId postId cmtId) :
    ∃ row ∈ w.db.comments, row.Addressed chanId postId cmtId := by
  obtain ⟨uinfo, _, huid⟩ := hchecked.author
  obtain ⟨row, hrow, _⟩ := Option.map_eq_some_iff.mp huid
  have hat := List.find?_some hrow
  simp only [CommentRow.at, decide_eq_true_eq] at hat
  refine ⟨row, List.mem_of_find?_eq_some hrow, ?_⟩
  rw [CommentRow.Addressed, CommentRow.key, hat.1, hat.2.1, hat.2.2]

theorem RendersBlocked.aborts (h : RendersBlocked w ctx req) :
    ∃ carried, handle w ctx req = .done carried ∧ carried.outs.any Out.Aborts = true := by
  cases h with
  | @block chanId postId cmtId chan hchecked hchan hactive =>
      obtain ⟨row, hrow, haddressed⟩ := hchecked.exists_row
      obtain ⟨carried, hdone⟩ := setCmtStatus_done .blocked hchecked
        (haddressed.exists hrow) hrow haddressed
      obtain ⟨found, hfound, hiff⟩ := setCmtStatus_aborts hdone
      obtain rfl : chan = found := Option.some.inj (hchan.symm.trans hfound)
      exact ⟨carried, hdone, hiff.mpr ⟨hactive, rfl⟩⟩
  | @list chanId postId qc uinfo chan cinfos ci hready huinfo hchan hpost hfetched hlisted
      hblocked =>
      have hdone : ∃ carried, handle w ctx (.getCmts chanId postId qc) = .done carried ∧
          carried.outs = cinfos.map fun ci => .cmtStat ci.stat := by
        simp only [handle, hdlGetCmtsReq, ready_eq_done, withUinfo_eq_done, withPost_eq_done,
          dbCall_eq_done, Outcome.done.injEq]
        exact ⟨_, ⟨hready, uinfo, huinfo, chan, hchan, hpost, cinfos, hfetched, rfl⟩, rfl⟩
      obtain ⟨carried, hdone, houts⟩ := hdone
      refine ⟨carried, hdone, ?_⟩
      rw [houts]
      refine List.any_eq_true.mpr ⟨.cmtStat ci.stat, List.mem_map_of_mem hlisted, ?_⟩
      rw [Out.Aborts, hblocked]
      rfl

theorem aborts_iff (hknown : StatusesKnown w.db) (ctx : Ctx) (req : Req) :
    (respond w ctx req).aborts = true ↔ RendersBlocked w ctx req := by
  constructor
  · intro haborts
    rcases respond_cases w ctx req with ⟨carried, hdone⟩ | ⟨_, hquiet⟩
    · rw [(respond_done hdone).2] at haborts
      exact .of_aborts hknown hdone haborts
    · rw [hquiet] at haborts
      cases haborts
  · intro hrenders
    obtain ⟨carried, hdone, haborts⟩ := hrenders.aborts
    rwa [(respond_done hdone).2]

end Rendered

section Runs

/-- In every state of every run, exactly the requests that render a blocked comment
abort. -/
theorem aborts_iff_always (events : List Event) :
    Always Step (fun w => ∀ ctx req, (respond w ctx req).aborts = false ↔
      ¬ RendersBlocked w ctx req) (.start Db.init) events := by
  refine (Sound.reachable events).mono fun w h ctx req => ?_
  rw [← aborts_iff h.statuses ctx req, Bool.not_eq_true]

/-- An active subscriber blocks the comment he has just posted. -/
def blockingRun : List Event :=
  let owner : Ctx :=
    { «from» := "owner"
      tsxId := 1
      didIsReady := true
      now := 0
      uinfo := some ⟨1, "did:owner", "owner", "", none, none⟩
      maxContentLen := 1024 }
  let author : Ctx :=
    { owner with
      «from» := "phone"
      uinfo := some ⟨2, "did:author", "author", "", none, none⟩ }
  [.request owner (.createChan ⟨"news", "", [], "", ""⟩),
    .request owner (.pubPost 1 ⟨[1], [], "", "", ""⟩),
    .request author (.subChan 1 ""),
    .request author .enblNotif,
    .request author (.postCmt 1 1 0 ⟨[2], [], "", ""⟩)]

theorem not_always_renders :
    ¬ Always Step (fun w => ∀ ctx req, (respond w ctx req).aborts = false)
      (.start Db.init) blockingRun := by
  intro h
  have hrenders := h.last (run_perform _ blockingRun)
  have haborts : ∃ ctx req, (respond (perform (.start Db.init) blockingRun) ctx req).aborts =
      true :=
    ⟨{ «from» := "phone"
       tsxId := 2
       didIsReady := true
       now := 0
       uinfo := some ⟨2, "did:author", "author", "", none, none⟩
       maxContentLen := 1024 }, .blockCmt 1 1 1, by decide⟩
  obtain ⟨ctx, req, htrue⟩ := haborts
  rw [hrenders ctx req] at htrue
  cases htrue

end Runs

end FeedsService.Feeds
