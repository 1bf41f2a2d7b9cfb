import FeedsService.Feeds.Subscriptions

/-!
# Pointers into channels

`chan_sub` points the links of a replaced channel at the copy, but not the keys of
their hash entries, which keep pointing into the old object.  All the pointers
that the tables keep stay fresh as long as no channel is replaced while active
subscribers are linked to it, and no longer.
-/

namespace FeedsService.Feeds

open FeedsService.Library FeedsService.Library.KeyedTable FeedsService.Runs

section Freshness

/-- The object is the one that `chans_by_id` holds for its id, and it is alive. -/
def Mem.Held (m : Mem) (chan : Ref) : Prop :=
  m.chanGetById (m.chan chan).info.chanId = some chan ∧ 0 < (m.chan chan).refs

/-- Every pointer to a channel that the tables keep is fresh, so `aspc_remove` finds
the link that it is asked to remove and takes it out of both its lists. -/
structure PointersFresh (m : Mem) : Prop where
  chan : ∀ a ∈ m.ass, ∀ l ∈ (m.as a).aspcs, m.Held (m.aspc l).chan
  heKey : ∀ a ∈ m.ass, ∀ l ∈ (m.as a).aspcs, m.Held (m.aspc l).heKey
  heNameKey : ∀ c ∈ m.chansByName, m.Held c ∧ (m.chan c).heNameKey = c
  heIdKey : ∀ c ∈ m.chansById, m.Held c ∧ (m.chan c).heIdKey = c
  removes : ∀ uid a l, m.asGet uid = some a → l ∈ (m.as a).aspcs →
    (m.aspcRemove uid (m.aspc l).chan).1 = some l ∧
      l ∉ ((m.aspcRemove uid (m.aspc l).chan).2.as a).aspcs ∧
      l ∉ (m.aspcRemove uid (m.aspc l).chan).2.aspcList (m.chan (m.aspc l).chan).aspcs

/-- Every link is hashed by the channel it points to, and each of the two channel
tables holds one reference. -/
structure Owned (m : Mem) : Prop where
  heKey : ∀ l, (m.aspc l).heKey = (m.aspc l).chan
  refs : ∀ c ∈ m.chansById, (m.chan c).refs = 2

namespace Owned

variable {m m' : Mem}

theorem congr (h : Owned m) (haspc : ∀ l, (m'.aspc l).heKey = (m'.aspc l).chan)
    (hsame : SameChannels m m') : Owned m' where
  heKey := haspc
  refs := by
    rw [hsame.chansById, hsame.chan]
    exact h.refs

theorem setInfo (h : Owned m) (chan : Ref) (f : ChanInfo → ChanInfo) :
    Owned (m.setInfo chan f) where
  heKey := h.heKey
  refs c hc := by
    rw [← h.refs c hc]
    by_cases hsame : c = chan
    · subst hsame
      simp [Mem.setInfo, Mem.setChan]
    · simp [Mem.setInfo, Mem.setChan, hsame]

theorem aspcCreate (h : ∀ l, (m.aspc l).heKey = (m.aspc l).chan) (as chan : Ref) (l : Ref) :
    ((m.aspcCreate as chan).2.aspc l).heKey = ((m.aspcCreate as chan).2.aspc l).chan := by
  by_cases hnew : l = m.nextRef
  · simp [Mem.aspcCreate, hnew]
  · simpa [Mem.aspcCreate, hnew] using h l

theorem aspcsCreate (as : Ref) (ids : List ℕ) (m : Mem)
    (h : ∀ l, (m.aspc l).heKey = (m.aspc l).chan) (l : Ref) :
    ((m.aspcsCreate as ids).2.aspc l).heKey = ((m.aspcsCreate as ids).2.aspc l).chan := by
  induction ids generalizing m with
  | nil => exact h l
  | cons id ids ih =>
      rw [Mem.aspcsCreate]
      split
      · exact ih m h
      · exact ih _ (aspcCreate h as _)

theorem enblNotif (h : Owned m) (db : Db) (uid : UInt64) (nodeId : NodeId) :
    Owned (m.enblNotif db uid nodeId) := by
  refine h.congr ?_ (.enblNotif m db uid nodeId)
  unfold Mem.enblNotif
  split
  · next as _ =>
      split
      · exact h.heKey
      · rw [((((SameSubs.ndGetOrCreate m nodeId).trans (.ndpasCreate _ _ _)).trans
          (.ndpasPut _ _)).trans (.ndPutNew _ _ _)).aspc]
        exact h.heKey
  · have hcreated := ((SameSubs.ndGetOrCreate (m.asCreate uid).2 nodeId).trans
      (.ndpasCreate _ (m.asCreate uid).1
        ((m.asCreate uid).2.ndGetOrCreate nodeId).1)).aspc
    rw [(SameSubs.ndPutNew _ _ _).aspc, (SameSubs.asPut _ _).aspc,
      foldl_aspc (f := Mem.aspcPut) fun _ _ => rfl, (SameSubs.ndpasPut _ _).aspc]
    refine aspcsCreate _ _ _ ?_
    rw [hcreated]
    exact h.heKey

theorem subChan (h : Owned m) (uid : UInt64) (chan : Ref) : Owned (m.subChan uid chan) := by
  unfold Mem.subChan
  split
  · exact h.setInfo chan _
  · next as _ =>
      refine Owned.setInfo (h.congr ?_ ((SameChannels.aspcCreate m as chan).trans
        (.aspcPut _ _))) chan _
      exact aspcCreate h.heKey as chan

theorem unsubChan (h : Owned m) (uid : UInt64) (chan : Ref) :
    Owned (m.unsubChan uid chan) := by
  refine Owned.setInfo (h.congr ?_ (.aspcRemove m uid chan)) chan _
  have haspc : (m.aspcRemove uid chan).2.aspc = m.aspc := by
    unfold Mem.aspcRemove
    split
    · rfl
    · simp only
      split <;> rfl
  rw [haspc]
  exact h.heKey

theorem feedsDeactivateSuber (h : Owned m) (nodeId : NodeId) :
    Owned (m.feedsDeactivateSuber nodeId) := by
  refine h.congr ?_ (.feedsDeactivateSuber m nodeId)
  have haspc : (m.feedsDeactivateSuber nodeId).aspc = m.aspc := by
    unfold Mem.feedsDeactivateSuber
    split
    · rfl
    · refine foldl_aspc (fun m l => ?_) _ _
      unfold Mem.deactivateRound
      simp only
      split
      · simp only [Mem.asRemove, Mem.aspcsUnlink]
        rw [foldl_aspc]
        · rfl
        · exact fun _ _ => rfl
      · rfl
  rw [haspc]
  exact h.heKey

theorem createChan (h : Owned m) (htables : ChannelTables m) {ci : ChanInfo}
    (hname : ∀ chan ∈ m.chansById, (m.chan chan).info.name ≠ ci.name)
    (hid : ∀ chan ∈ m.chansById, (m.chan chan).info.chanId ≠ ci.chanId) :
    Owned (m.createChan ci) := by
  rw [Mem.createChan_eq htables hname hid]
  refine ⟨h.heKey, fun c hc => ?_⟩
  rcases List.mem_append.mp hc with hold | hnew
  · simp only [Function.update_of_ne (Nat.ne_of_lt (htables.fresh c hold))]
    exact h.refs c hold
  · simp [List.mem_singleton.mp hnew, Mem.chanNode]

/-- Without links there is nothing that `chan_sub` forgets. -/
theorem chanUpdate (h : Owned m) (htables : ChannelTables m) {chan : Ref} {ci : ChanInfo}
    (hchan : chan ∈ m.chansById) (hid : ci.chanId = (m.chan chan).info.chanId)
    (hname : ∀ other ∈ m.chansById, other ≠ chan → (m.chan other).info.name ≠ ci.name)
    (hempty : m.aspcList (m.chan chan).aspcs = []) : Owned (m.chanUpdate chan ci) := by
  rw [Mem.chanUpdate_eq htables hchan hid hname]
  refine ⟨fun l => ?_, fun c hc => ?_⟩
  · simp only [hempty, List.not_mem_nil, if_false]
    exact h.heKey l
  · rcases List.mem_append.mp hc with hold | hnew
    · obtain ⟨hold, hne⟩ := List.mem_filter.mp hold
      have hne : c ≠ chan := by simpa using hne
      simp only [Function.update_of_ne (Nat.ne_of_lt (htables.fresh c hold)),
        Function.update_of_ne hne]
      exact h.refs c hold
    · simp [List.mem_singleton.mp hnew, Mem.chanNode]

theorem load {rows : List ChannelRow} (hloadable : Mirrors.Loadable rows) :
    Owned ((rows.map row2chan).foldl Mem.loadChan Mem.init) := by
  refine (Mirrors.load (P := Owned) ⟨fun _ => rfl, ?_⟩
    (fun m rows ci hmirrors hid hname h => ?_) hloadable).2
  · simp [Mem.init]
  · exact h.createChan hmirrors.tables hname (hmirrors.newId hid)

end Owned

/-- The tables simulate the subscriptions, and their pointers are fresh. -/
structure Pointed (w : World) : Prop where
  simulates : ∃ enabled, Simulates w enabled
  owned : Owned w.mem

theorem Pointed.pointersFresh {w : World} (h : Pointed w) : PointersFresh w.mem := by
  obtain ⟨_, hsim⟩ := h.simulates
  have htables := hsim.consistent.mirror.mirrors.tables
  have hheld : ∀ c ∈ w.mem.chansById, w.mem.Held c := by
    intro c hc
    refine ⟨htables.chanGetById_self hc, ?_⟩
    rw [h.owned.refs c hc]
    decide
  refine ⟨fun a ha l hl => ?_, fun a ha l hl => ?_, fun c hc => ?_, fun c hc => ?_,
    fun uid a l hget hl => ?_⟩
  · exact hheld _ (hsim.subs.linked.of_left a ha l hl).2.1
  · rw [h.owned.heKey]
    exact hheld _ (hsim.subs.linked.of_left a ha l hl).2.1
  · have hc := (htables.mem_byName c).mp hc
    exact ⟨hheld c hc, htables.heNameKey c hc⟩
  · exact ⟨hheld c hc, htables.heIdKey c hc⟩
  · obtain ⟨ha, _⟩ := hsim.notify.asGet_eq_some.mp hget
    have hc := (hsim.subs.linked.of_left a ha l hl).2.1
    rw [hsim.subs.aspcRemove_eq htables ha hget hc hl rfl]
    refine ⟨rfl, ?_, ?_⟩
    · simp [Mem.setAs, Mem.setAspcs]
    · simp [Mem.setAs, Mem.setAspcs]

end Freshness

section Runs

/-- The request passes the checks of `hdl_upd_chan_req` and addresses a channel that
active subscribers are linked to. -/
def ReplacesSubscribed (w : World) (event : Event) : Prop :=
  ∃ ctx chanId params chan, event = .request ctx (.updChan chanId params) ∧
    ctx.didIsReady = true ∧
    (∃ uinfo, ctx.uinfo = some uinfo ∧ userIdIsOwner uinfo.uid = true) ∧
    w.mem.chanGetById chanId.toNat = some chan ∧
    ((w.mem.chan chan).info.name = params.name ∨
      w.mem.chanExistByName params.name = false) ∧
    w.mem.aspcList (w.mem.chan chan).aspcs ≠ []

theorem Owned.effect {w w' : World} {ctx : Ctx} {req : Req} (h : Owned w.mem)
    (hmirror : Mirror w) (hkept : ¬ ReplacesSubscribed w (.request ctx req))
    (heffect : Effect w ctx req w') : Owned w'.mem := by
  cases heffect with
  | createChan hfew hid hupdAt hsubs hnextPostId hstatus hname hdb =>
      exact h.createChan hmirror.mirrors.tables
        (hmirror.mirrors.tables.chanExistByName_eq_false.mp hname) (hmirror.mirrors.newId hid)
  | @updChan chanId params chan ci db hreq hready howner hid hciName hchan hcreatedAt hsubs
      hnextPostId hstatus hname hdb =>
      obtain ⟨hmem, hchanId, _⟩ := hmirror.mirrors.of_chanGetById hmirror.few hchan
      refine h.chanUpdate hmirror.mirrors.tables hmem (hid.trans hchanId.symm)
        (hmirror.mirrors.tables.name_of_upd hmem hname) ?_
      by_contra hlinked
      rw [hciName] at hname
      exact hkept ⟨ctx, chanId, params, chan, by rw [hreq], hready, howner, hchan, hname,
        hlinked⟩
  | @addPost chanId chan pi db hchan hchanId hpostId hstat hdb =>
      exact h.setInfo chan fun info => { info with nextPostId := info.nextPostId + 1 }
  | subChan hchan hnot hdb => exact h.subChan _ _
  | unsubChan hchan hsub => exact h.unsubChan _ _
  | enblNotif hreq hready huinfo => exact h.enblNotif _ _ _
  | _ => exact h

theorem Pointed.step {w : World} {event : Event} (h : Pointed w)
    (hkept : ¬ ReplacesSubscribed w event) : Pointed (Feeds.step w event) := by
  obtain ⟨enabled, hsim⟩ := h.simulates
  refine ⟨⟨_, Simulates.track (t := ⟨w, enabled⟩) hsim event⟩, ?_⟩
  have hmirror := hsim.consistent.mirror
  cases event with
  | request ctx req =>
      have hworld : Mirror (respond w ctx req).world ∧ Owned (respond w ctx req).world.mem := by
        rcases respond_cases w ctx req with ⟨carried, hdone⟩ | ⟨hsame, _⟩
        · have heffect := handle_effect hdone
          rw [(respond_done hdone).1]
          exact ⟨hmirror.effect heffect, h.owned.effect hmirror hkept heffect⟩
        · rw [hsame]
          exact ⟨hmirror, h.owned⟩
      simp only [Feeds.step, Result.after]
      split
      · exact Owned.load hworld.1.mirrors.loadable
      · exact hworld.2
  | peerOffline nodeId => exact h.owned.feedsDeactivateSuber nodeId
  | signIn ui now rowid => exact h.owned
  | restart => exact Owned.load hmirror.mirrors.loadable

theorem Pointed.init : Pointed (.start Db.init) :=
  ⟨⟨_, Simulates.restart Consistent.init⟩, Owned.load Mirror.init.mirrors.loadable⟩

/-- An update that passes the checks is carried out: the names in the database are
those in memory, so its statement does not fail. -/
theorem updChan_done {w : World} (hmirror : Mirror w) {ctx : Ctx} {chanId : UInt64}
    {params : ChanParams} {chan : Ref} (hready : ctx.didIsReady = true)
    (howner : ∃ uinfo, ctx.uinfo = some uinfo ∧ userIdIsOwner uinfo.uid = true)
    (hchan : w.mem.chanGetById chanId.toNat = some chan)
    (hname : (w.mem.chan chan).info.name = params.name ∨
      w.mem.chanExistByName params.name = false) :
    ∃ ci db, ci.chanId = chanId.toNat ∧ ci.name = params.name ∧
      handle w ctx (.updChan chanId params) = .done
        { world := ⟨w.mem.chanUpdate chan ci, db⟩
          outs := ((w.mem.chanUpdate chan ci).destinations chan).flatMap (notifyOfChanUpd ci)
          replies := [.empty] } := by
  let ci : ChanInfo :=
    { chanId := chanId.toNat
      name := params.name
      intro := params.intro
      createdAt := (w.mem.chan chan).info.createdAt
      updAt := ctx.now
      subs := (w.mem.chan chan).info.subs
      nextPostId := (w.mem.chan chan).info.nextPostId
      avatar := params.avatar
      tipMethods := params.tipm
      proof := params.proof
      status := (w.mem.chan chan).info.status }
  obtain ⟨hmem, hchanId, _⟩ := hmirror.mirrors.of_chanGetById hmirror.few hchan
  have hdb : ∃ db, dbUpdChan w.db ci = some db := by
    rw [dbUpdChan, if_neg]
    · exact ⟨_, rfl⟩
    · rw [Bool.not_eq_true, List.any_eq_false]
      intro row hrow
      obtain ⟨other, hother, rfl⟩ := (hmirror.mirrors.mem_rows row).mp hrow
      rw [decide_eq_true_eq]
      rintro ⟨hsame, hne⟩
      refine hmirror.mirrors.tables.name_of_upd hmem hname other hother ?_ hsame
      rintro rfl
      exact hne (by simp [ChanInfo.toRow, ci, hchanId])
  obtain ⟨db, hdb⟩ := hdb
  refine ⟨ci, db, rfl, rfl, ?_⟩
  simp only [handle, hdlUpdChanReq, ready_eq_done, withOwner_eq_done, withChan_eq_done,
    check_eq_done, dbCall_eq_done, Outcome.done.injEq]
  refine ⟨hready, howner, chan, hchan, ?_, db, hdb, rfl⟩
  rcases hname with hsame | hfree
  · simp [hsame]
  · simp [hfree]

/-- A link of the replaced channel is left with a key in the old object. -/
theorem Pointed.stale {w : World} {event : Event} (h : Pointed w)
    (hreplaces : ReplacesSubscribed w event) : ¬ PointersFresh (Feeds.step w event).mem := by
  obtain ⟨ctx, chanId, params, chan, rfl, hready, howner, hchan, hname, hlinked⟩ := hreplaces
  obtain ⟨_, hsim⟩ := h.simulates
  have hmirror := hsim.consistent.mirror
  have htables := hmirror.mirrors.tables
  obtain ⟨hmem, hchanId, _⟩ := hmirror.mirrors.of_chanGetById hmirror.few hchan
  obtain ⟨ci, db, hid, hciName, hdone⟩ := updChan_done hmirror hready howner hchan hname
  obtain ⟨hworld, haborts⟩ := respond_done hdone
  have hstep : (Feeds.step w (.request ctx (.updChan chanId params))).mem =
      w.mem.chanUpdate chan ci := by
    have hreturns : (respond w ctx (.updChan chanId params)).aborts = false := by
      rw [haborts]
      simp [notifyOfChanUpd, Out.Aborts]
    simp [Feeds.step, Result.after, hreturns, hworld]
  rw [← hciName] at hname
  rw [hstep, Mem.chanUpdate_eq htables hmem (hid.trans hchanId.symm)
    (htables.name_of_upd hmem hname)]
  obtain ⟨l, hl⟩ := List.exists_mem_of_ne_nil _ hlinked
  obtain ⟨hend, ha, hin⟩ := hsim.subs.linked.of_right chan hmem l hl
  intro hfresh
  obtain ⟨hget, _⟩ := hfresh.heKey _ ha l hin
  obtain ⟨hheld, _⟩ := mem_of_get hget
  simp only [if_pos hl, h.owned.heKey, hend] at hheld
  have hne := Nat.ne_of_lt (htables.fresh chan hmem)
  simp [hne] at hheld

/-- Publishing, subscribing, enabling notifications and editing the channel. -/
def replacingRun : List Event :=
  let owner : Ctx :=
    { «from» := "owner"
      tsxId := 1
      didIsReady := true
      now := 0
      uinfo := some ⟨1, "did:owner", "owner", "", none, none⟩
      maxContentLen := 1024 }
  let reader : Ctx :=
    { owner with
      «from» := "phone"
      uinfo := some ⟨2, "did:reader", "reader", "", none, none⟩ }
  [.request owner (.createChan ⟨"news", "", [], "", ""⟩),
    .request reader (.subChan 1 ""),
    .request reader .enblNotif,
    .request owner (.updChan 1 ⟨"news", "weekly", [], "", ""⟩)]

theorem pointersFresh_iff (events : List Event) :
    Always Step (fun w => PointersFresh w.mem) (.start Db.init) events ↔
      EachStep Step (fun w event _ => ¬ ReplacesSubscribed w event) (.start Db.init) events :=
  always_iff_eachStep Pointed
    (fun w event w' h hstep hkept => by
      rw [← step_iff.mp hstep]
      exact h.step hkept)
    (fun _ h => h.pointersFresh)
    (fun w event w' h hstep hnot => by
      rw [← step_iff.mp hstep]
      exact h.stale (not_not.mp hnot))
    Pointed.init events

/-- After the edit the link of the reader is hashed by a key in a freed channel. -/
theorem not_always_pointersFresh :
    ¬ Always Step (fun w => PointersFresh w.mem) (.start Db.init) replacingRun := by
  intro h
  have hfresh := h.last (run_perform _ replacingRun)
  have hstale : ∃ a ∈ (perform (.start Db.init) replacingRun).mem.ass,
      ∃ l ∈ ((perform (.start Db.init) replacingRun).mem.as a).aspcs,
        ((perform (.start Db.init) replacingRun).mem.chan
          ((perform (.start Db.init) replacingRun).mem.aspc l).heKey).refs = 0 := by
    decide
  obtain ⟨a, ha, l, hl, hfreed⟩ := hstale
  have halive := (hfresh.heKey a ha l hl).2
  omega

end Runs

end FeedsService.Feeds
