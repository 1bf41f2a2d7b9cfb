import FeedsService.Feeds.Deactivation
import Mathlib.Data.List.TakeWhile

/-!
# Channel events reach exactly the subscribers that enabled notifications

Every request that is carried out, every other event and every restart keeps the
tables in step with the subscriptions in the database and with the pairs of a
user and a node for which notifications are enabled.
-/

namespace FeedsService.Feeds

open FeedsService.Library FeedsService.Library.KeyedTable FeedsService.Runs

section Effects

variable {w : World} {enabled : UInt64 → NodeId → Prop}

theorem dbIsSuber_dbAddSub {db db' : Db} {userId channelId now : ℤ} {proof : String}
    (hdb : dbAddSub db userId channelId proof now = some db') (user channel : ℤ) :
    dbIsSuber db' user channel = true ↔
      dbIsSuber db user channel = true ∨ (userId = user ∧ channelId = channel) := by
  obtain ⟨_, rfl⟩ := dbAddSub_eq_some hdb
  simp [dbIsSuber, updSubscribers, SubscriptionRow.at]

theorem dbIsSuber_dbUnsub (db : Db) (userId channelId user channel : ℤ) :
    dbIsSuber (dbUnsub db userId channelId) user channel = true ↔
      dbIsSuber db user channel = true ∧ ¬ (userId = user ∧ channelId = channel) := by
  simp only [dbIsSuber, dbUnsub, updSubscribers, List.any_eq_true, mem_deleteWhere,
    SubscriptionRow.at, decide_eq_true_eq, decide_eq_false_iff_not]
  constructor
  · rintro ⟨row, ⟨hrow, hother⟩, rfl, rfl⟩
    exact ⟨⟨row, hrow, rfl, rfl⟩, fun heq => hother ⟨heq.1.symm, heq.2.symm⟩⟩
  · rintro ⟨⟨row, hrow, rfl, rfl⟩, hother⟩
    exact ⟨row, ⟨hrow, fun heq => hother ⟨heq.1.symm, heq.2.symm⟩⟩, rfl, rfl⟩

/-- An operation that leaves the notification side alone. -/
theorem Simulates.of_sameNotify (h : Simulates w enabled) {m : Mem} {db : Db}
    (hconsistent : Consistent ⟨m, db⟩) (hnotify : SameNotify w.mem m)
    (hsubs : SubIndex m {a | a ∈ w.mem.ass})
    (hsubscribed : ∀ a ∈ w.mem.ass, ∀ c ∈ m.chansById,
      (∃ l ∈ (m.as a).aspcs, (m.aspc l).chan = c) ↔
        dbIsSuber db (bindInt64 (w.mem.as a).uid) (m.chan c).info.chanId = true) :
    Simulates ⟨m, db⟩ enabled where
  consistent := hconsistent
  notify := by
    rw [hnotify.ass, hnotify.nds]
    exact h.notify.of_same hnotify
  subs := by
    rw [hnotify.ass]
    exact hsubs
  active a ha := by
    rw [hnotify.ass] at ha
    rw [(hnotify.as a).2]
    exact h.active a ha
  reached n hn := by
    rw [hnotify.nds] at hn
    rw [hnotify.nd]
    exact h.reached n hn
  enabled_iff user node := by
    rw [h.enabled_iff]
    simp only [Mem.Notified, hnotify.ass, hnotify.nd, hnotify.ndpas, (hnotify.as _).1,
      (hnotify.as _).2]
  subscribed_iff a ha c hc := by
    rw [hnotify.ass] at ha
    rw [(hnotify.as a).1]
    exact hsubscribed a ha c hc

/-- Such an operation, followed by a change of a channel that keeps its id. -/
theorem Simulates.of_setInfo (h : Simulates w enabled) {m : Mem} {db : Db} {chan : Ref}
    {f : ChanInfo → ChanInfo} (hconsistent : Consistent ⟨m.setInfo chan f, db⟩)
    (hf : ∀ info, (f info).chanId = info.chanId) (hnotify : SameNotify w.mem m)
    (hsubs : SubIndex m {a | a ∈ w.mem.ass})
    (hsubscribed : ∀ a ∈ w.mem.ass, ∀ c ∈ m.chansById,
      (∃ l ∈ (m.as a).aspcs, (m.aspc l).chan = c) ↔
        dbIsSuber db (bindInt64 (w.mem.as a).uid) (m.chan c).info.chanId = true) :
    Simulates ⟨m.setInfo chan f, db⟩ enabled := by
  refine h.of_sameNotify hconsistent (hnotify.trans (.setInfo m chan f))
    (hsubs.setInfo chan hf) fun a ha c hc => ?_
  rw [setInfo_chanId m chan hf]
  exact hsubscribed a ha c hc

/-- Only the database changes, and not the subscriptions. -/
theorem Simulates.of_db (h : Simulates w enabled) {db : Db}
    (hconsistent : Consistent ⟨w.mem, db⟩) (hsubs : db.subscriptions = w.db.subscriptions) :
    Simulates ⟨w.mem, db⟩ enabled := by
  refine h.of_sameNotify hconsistent (.refl _) h.subs fun a ha c hc => ?_
  simpa only [dbIsSuber, hsubs] using h.subscribed_iff a ha c hc

/-- A field of a channel other than its id changes, and not the subscriptions. -/
theorem Simulates.setInfo (h : Simulates w enabled) {chan : Ref} {f : ChanInfo → ChanInfo}
    {db : Db} (hconsistent : Consistent ⟨w.mem.setInfo chan f, db⟩)
    (hf : ∀ info, (f info).chanId = info.chanId)
    (hsubs : db.subscriptions = w.db.subscriptions) :
    Simulates ⟨w.mem.setInfo chan f, db⟩ enabled := by
  refine h.of_setInfo hconsistent hf (.refl _) h.subs fun a ha c hc => ?_
  simpa only [dbIsSuber, hsubs] using h.subscribed_iff a ha c hc

/-- A new channel has neither links nor subscriptions. -/
theorem Simulates.createChan (h : Simulates w enabled) {ci : ChanInfo} {db : Db}
    (hconsistent : Consistent ⟨w.mem.createChan ci, db⟩)
    (hid : ci.chanId = w.mem.nxtChanId)
    (hname : ∀ chan ∈ w.mem.chansById, (w.mem.chan chan).info.name ≠ ci.name)
    (hsubs : db.subscriptions = w.db.subscriptions) :
    Simulates ⟨w.mem.createChan ci, db⟩ enabled := by
  have hmirror := h.consistent.mirror.mirrors
  have hnewId := hmirror.newId hid
  refine h.of_sameNotify hconsistent (.createChan hmirror.tables hname hnewId)
    (h.subs.createChan hmirror.tables hname hnewId) fun a ha c hc => ?_
  rw [Mem.createChan_eq hmirror.tables hname hnewId] at hc ⊢
  simp only [dbIsSuber, hsubs] at hc ⊢
  rcases List.mem_append.mp hc with hold | hnew
  · rw [Function.update_of_ne (Nat.ne_of_lt (hmirror.tables.fresh c hold))]
    exact h.subscribed_iff a ha c hold
  · obtain rfl := List.mem_singleton.mp hnew
    constructor
    · rintro ⟨l, hl, hchan⟩
      have hlive := (h.subs.linked.of_left a ha l hl).2.1
      simp only [hchan] at hlive
      exact absurd (hmirror.tables.fresh _ hlive) (Nat.lt_irrefl _)
    · intro hsub
      obtain ⟨row, hrow, hat⟩ := List.any_eq_true.mp hsub
      have hknown := h.consistent.counted.subscribers.known _ (List.mem_map_of_mem hrow)
      simp only [subscriberCounters, List.map_map, List.mem_map, Function.comp] at hknown
      obtain ⟨channel, hchannel, heq⟩ := hknown
      have hbounds := hmirror.id_bounds hchannel
      have hnext := hmirror.nxtChanId
      simp only [Function.update_self, Mem.chanNode, SubscriptionRow.at,
        decide_eq_true_eq] at hat
      omega

/-- The copy of a channel takes over its links, and its subscriptions too. -/
theorem Simulates.chanUpdate (h : Simulates w enabled) {chan : Ref} {ci : ChanInfo} {db : Db}
    (hconsistent : Consistent ⟨w.mem.chanUpdate chan ci, db⟩)
    (hchan : chan ∈ w.mem.chansById) (hid : ci.chanId = (w.mem.chan chan).info.chanId)
    (hname : ∀ other ∈ w.mem.chansById, other ≠ chan →
      (w.mem.chan other).info.name ≠ ci.name)
    (hsubs : db.subscriptions = w.db.subscriptions) :
    Simulates ⟨w.mem.chanUpdate chan ci, db⟩ enabled := by
  have htables := h.consistent.mirror.mirrors.tables
  refine h.of_sameNotify hconsistent (.chanUpdate htables hchan hid hname)
    (h.subs.chanUpdate htables hchan hid hname) fun a ha c hc => ?_
  have hlist : ∀ l ∈ (w.mem.as a).aspcs,
      l ∈ w.mem.aspcList (w.mem.chan chan).aspcs ↔ (w.mem.aspc l).chan = chan := by
    intro l hl
    obtain ⟨hend, _, hmem⟩ := h.subs.linked.of_left a ha l hl
    constructor
    · exact fun hin => (h.subs.linked.of_right chan hchan l hin).1
    · rintro rfl
      exact hmem
  have hlive : ∀ l ∈ (w.mem.as a).aspcs, (w.mem.aspc l).chan ≠ w.mem.nextRef :=
    fun l hl => Nat.ne_of_lt (htables.fresh _ (h.subs.linked.of_left a ha l hl).2.1)
  rw [Mem.chanUpdate_eq htables hchan hid hname] at hc ⊢
  simp only [dbIsSuber, hsubs] at hc ⊢
  rcases List.mem_append.mp hc with hold | hnew
  · obtain ⟨hold, hne⟩ := List.mem_filter.mp hold
    have hne : c ≠ chan := by simpa using hne
    have hfresh := Nat.ne_of_lt (htables.fresh c hold)
    rw [Function.update_of_ne hfresh, Function.update_of_ne hne]
    refine Iff.trans (exists_congr fun l => and_congr_right fun hl => ?_)
      (h.subscribed_iff a ha c hold)
    by_cases hin : l ∈ w.mem.aspcList (w.mem.chan chan).aspcs
    · rw [if_pos hin, (hlist l hl).mp hin]
      exact ⟨fun heq => absurd heq.symm hfresh, fun heq => absurd heq.symm hne⟩
    · rw [if_neg hin]
  · obtain rfl := List.mem_singleton.mp hnew
    rw [Function.update_self]
    simp only [Mem.chanNode, hid]
    refine Iff.trans (exists_congr fun l => and_congr_right fun hl => ?_)
      (h.subscribed_iff a ha chan hchan)
    by_cases hin : l ∈ w.mem.aspcList (w.mem.chan chan).aspcs
    · simp [if_pos hin, (hlist l hl).mp hin]
    · rw [if_neg hin]
      exact ⟨fun heq => absurd heq (hlive l hl), fun heq => absurd ((hlist l hl).mpr heq) hin⟩

theorem Simulates.subChan (h : Simulates w enabled) {uid : UInt64} {chan : Ref}
    {proof : String} {now : ℤ} {db : Db}
    (hconsistent : Consistent ⟨w.mem.subChan uid chan, db⟩) (hchan : chan ∈ w.mem.chansById)
    (hnot : dbIsSuber w.db (bindInt64 uid) (w.mem.chan chan).info.chanId = false)
    (hdb : dbAddSub w.db (bindInt64 uid) (w.mem.chan chan).info.chanId proof now = some db) :
    Simulates ⟨w.mem.subChan uid chan, db⟩ enabled := by
  have htables := h.consistent.mirror.mirrors.tables
  have hiff : ∀ user, ∀ c ∈ w.mem.chansById,
      dbIsSuber db (bindInt64 user) (w.mem.chan c).info.chanId = true ↔
        dbIsSuber w.db (bindInt64 user) (w.mem.chan c).info.chanId = true ∨
          (uid = user ∧ chan = c) := by
    intro user c hc
    rw [dbIsSuber_dbAddSub hdb, bindInt64_inj]
    refine or_congr_right (and_congr_right fun _ => ?_)
    exact ⟨fun heq => htables.eq_of_id hchan hc (by exact_mod_cast heq), fun heq => by rw [heq]⟩
  unfold Mem.subChan at hconsistent ⊢
  cases hget : w.mem.asGet uid with
  | none =>
      have hnone : ∀ a ∈ w.mem.ass, (w.mem.as a).uid ≠ uid := get_eq_none.mp hget
      simp only [hget] at hconsistent ⊢
      refine h.of_setInfo hconsistent (fun _ => rfl) (.refl _) h.subs fun a ha c hc => ?_
      refine (h.subscribed_iff a ha c hc).trans ((hiff _ c hc).trans ?_).symm
      exact or_iff_left fun heq => hnone a ha heq.1.symm
  | some as =>
      obtain ⟨has, huid⟩ := h.notify.asGet_eq_some.mp hget
      simp only [hget] at hconsistent ⊢
      have hend : (w.mem.aspcCreate as chan).2.aspc w.mem.nextRef = ⟨chan, as, chan⟩ := by
        simp [Mem.aspcCreate]
      have hold : ∀ a ∈ w.mem.ass, ∀ l ∈ (w.mem.as a).aspcs,
          (w.mem.aspcCreate as chan).2.aspc l = w.mem.aspc l := by
        intro a ha l hl
        simp [Mem.aspcCreate, Nat.ne_of_lt (h.subs.fresh_links a ha l hl).1]
      have hcreated : ChannelTables (w.mem.aspcCreate as chan).2 :=
        htables.congr (fun _ _ => ⟨rfl, rfl, rfl, rfl⟩) rfl rfl (Nat.le_succ _)
      obtain ⟨hput, haspcs⟩ := (h.subs.aspcCreate as chan).aspcPut hcreated
        (l := w.mem.nextRef) (by rw [hend]; exact has) (by rw [hend]; exact hchan)
        (by rw [Mem.aspcKey, hend]) ⟨Nat.lt_succ_self _, by
          rw [hend]
          exact Nat.lt_succ_of_lt (htables.fresh chan hchan)⟩
        (by
          rw [hend]
          intro l hl heq
          rw [hold as has l hl] at heq
          have hsub := (h.subscribed_iff as has chan hchan).mp ⟨l, hl, heq⟩
          rw [huid, hnot] at hsub
          cases hsub)
      rw [hend] at haspcs
      have hother : ∀ a, a ≠ as →
          ((w.mem.aspcCreate as chan).2.aspcPut w.mem.nextRef).as a = w.mem.as a := by
        intro a hne
        simp [Mem.aspcPut, Mem.setAs, Mem.setAspcs, Mem.aspcCreate, hne]
      refine h.of_setInfo hconsistent (fun _ => rfl)
        ((SameNotify.aspcCreate w.mem as chan).trans (.aspcPut _ w.mem.nextRef)) hput
        fun a ha c hc => ?_
      refine Iff.trans ?_ (hiff _ c hc).symm
      rw [← h.subscribed_iff a ha c hc]
      show (∃ l ∈ (((w.mem.aspcCreate as chan).2.aspcPut w.mem.nextRef).as a).aspcs,
        ((w.mem.aspcCreate as chan).2.aspc l).chan = c) ↔ _
      by_cases hsame : a = as
      · subst hsame
        rw [haspcs, huid]
        simp only [true_and, List.mem_append, List.mem_singleton]
        constructor
        · rintro ⟨l, hl | rfl, rfl⟩
          · exact .inl ⟨l, hl, by rw [hold a ha l hl]⟩
          · exact .inr (by rw [hend])
        · rintro (⟨l, hl, rfl⟩ | rfl)
          · exact ⟨l, .inl hl, by rw [hold a ha l hl]⟩
          · exact ⟨w.mem.nextRef, .inr rfl, by rw [hend]⟩
      · rw [hother a hsame]
        have hne : uid ≠ (w.mem.as a).uid := fun heq =>
          hsame (h.notify.uids ha has (heq.symm.trans huid.symm))
        rw [or_iff_left fun heq => hne heq.1]
        exact exists_congr fun l => and_congr_right fun hl => by rw [hold a ha l hl]

theorem Simulates.unsubChan (h : Simulates w enabled) {uid : UInt64} {chan : Ref} {db : Db}
    (hconsistent : Consistent ⟨w.mem.unsubChan uid chan, db⟩)
    (hchan : chan ∈ w.mem.chansById)
    (hsub : dbIsSuber w.db (bindInt64 uid) (w.mem.chan chan).info.chanId = true)
    (hdb : db = dbUnsub w.db (bindInt64 uid) (w.mem.chan chan).info.chanId) :
    Simulates ⟨w.mem.unsubChan uid chan, db⟩ enabled := by
  have htables := h.consistent.mirror.mirrors.tables
  have hiff : ∀ user, ∀ c ∈ w.mem.chansById,
      dbIsSuber db (bindInt64 user) (w.mem.chan c).info.chanId = true ↔
        dbIsSuber w.db (bindInt64 user) (w.mem.chan c).info.chanId = true ∧
          ¬ (uid = user ∧ chan = c) := by
    intro user c hc
    rw [hdb, dbIsSuber_dbUnsub, bindInt64_inj]
    refine and_congr_right fun _ => not_congr (and_congr_right fun _ => ?_)
    exact ⟨fun heq => htables.eq_of_id hchan hc (by exact_mod_cast heq), fun heq => by rw [heq]⟩
  by_cases hactive : ∃ a ∈ w.mem.ass, (w.mem.as a).uid = uid
  · obtain ⟨as, has, huid⟩ := hactive
    have hget := h.notify.asGet_eq_some.mpr ⟨has, huid⟩
    obtain ⟨l, hl, hlink⟩ := (h.subscribed_iff as has chan hchan).mpr (by rwa [huid])
    have hremove := congrArg Prod.snd (h.subs.aspcRemove_eq htables has hget hchan hl hlink)
    simp only at hremove
    have hunlink := h.subs.unlink has hl
    rw [hlink, ← hremove] at hunlink
    refine h.of_setInfo hconsistent (fun _ => rfl) (.aspcRemove w.mem uid chan) hunlink
      fun a ha c hc => ?_
    have hchannels := SameChannels.aspcRemove w.mem uid chan
    have hc : c ∈ w.mem.chansById := hchannels.chansById ▸ hc
    have hkept : ∀ l', l' ∈ (((w.mem.aspcRemove uid chan).2).as a).aspcs ↔
        l' ∈ (w.mem.as a).aspcs ∧ (a = as → l' ≠ l) := by
      intro l'
      rw [hremove]
      by_cases hsame : a = as
      · subst hsame
        simp [Mem.setAs, Mem.setAspcs]
      · simp [Mem.setAs, Mem.setAspcs, hsame]
    have haspc : (w.mem.aspcRemove uid chan).2.aspc = w.mem.aspc := by
      rw [hremove]
      rfl
    rw [hchannels.chan]
    refine Iff.trans ?_ (hiff _ c hc).symm
    rw [← h.subscribed_iff a ha c hc]
    simp only [haspc, hkept]
    constructor
    · rintro ⟨l', ⟨hl', hne⟩, rfl⟩
      refine ⟨⟨l', hl', rfl⟩, ?_⟩
      rintro ⟨heq, hsame⟩
      obtain rfl : a = as := h.notify.uids ha has (heq.symm.trans huid.symm)
      exact hne rfl (h.subs.linked.unique a ha l' hl' l hl (hsame.symm.trans hlink.symm))
    · rintro ⟨⟨l', hl', rfl⟩, hne⟩
      refine ⟨l', ⟨hl', ?_⟩, rfl⟩
      rintro rfl rfl
      exact hne ⟨huid.symm, hlink.symm⟩
  · have hnone : ∀ a ∈ w.mem.ass, (w.mem.as a).uid ≠ uid :=
      fun a ha heq => hactive ⟨a, ha, heq⟩
    have hremove : w.mem.aspcRemove uid chan = (none, w.mem) := by
      refine h.subs.aspcRemove_eq_self htables hchan fun as hget => ?_
      obtain ⟨has, huid⟩ := h.notify.asGet_eq_some.mp hget
      exact absurd huid (hnone as has)
    unfold Mem.unsubChan at hconsistent ⊢
    rw [hremove] at hconsistent ⊢
    refine h.of_setInfo hconsistent (fun _ => rfl) (.refl _) h.subs fun a ha c hc => ?_
    refine (h.subscribed_iff a ha c hc).trans ((hiff _ c hc).trans ?_).symm
    exact and_iff_left fun heq => hnone a ha heq.1.symm

theorem Simulates.effect (h : Simulates w enabled) {w' : World} {ctx : Ctx} {req : Req}
    (hreq : req ≠ .enblNotif) (heffect : Effect w ctx req w') : Simulates w' enabled := by
  have hconsistent := h.consistent.effect heffect
  have hmirror := h.consistent.mirror
  cases heffect with
  | nothing => exact h
  | createChan hfew hid hupdAt hsubs hnextPostId hstatus hname hdb =>
      exact h.createChan hconsistent hid
        (hmirror.mirrors.tables.chanExistByName_eq_false.mp hname)
        (by rw [dbCreateChan_eq_some hdb])
  | updChan hreq hready howner hid hciName hchan hcreatedAt hsubs hnextPostId hstatus hname hdb =>
      obtain ⟨hmem, hchanId, _⟩ := hmirror.mirrors.of_chanGetById hmirror.few hchan
      refine h.chanUpdate hconsistent hmem (hid.trans hchanId.symm) ?_
        (by rw [dbUpdChan_eq_some hdb])
      exact hmirror.mirrors.tables.name_of_upd hmem hname
  | addPost hchan hchanId hpostId hstat hdb =>
      exact h.setInfo hconsistent (fun _ => rfl) (by rw [dbAddPost_eq_some hdb])
  | setPostStatus hstat hdb =>
      exact h.of_db hconsistent (by rw [dbSetPostStatus_eq_some hdb])
  | updPost hdb => exact h.of_db hconsistent (by rw [dbUpdPost_eq_some hdb])
  | addCmt hdb =>
      obtain ⟨_, _, _, _, hadded⟩ := dbAddCmt_eq_some hdb
      exact h.of_db hconsistent (by rw [hadded])
  | updCmt hreq hci havail hdb => exact h.of_db hconsistent (by rw [(dbUpdCmt_eq_some hdb).1])
  | setCmtStatus hchecked hci hreq hdb =>
      exact h.of_db hconsistent (by rw [(dbSetCmtStatus_eq_some hdb).1])
  | addLike hnot hdb =>
      obtain ⟨_, _, _, _, hadded⟩ := dbAddLike_eq_some hdb
      exact h.of_db hconsistent (by rw [hadded, updLikes_subscriptions])
  | rmLike hlike => exact h.of_db hconsistent (updLikes_subscriptions ..)
  | subChan hchan hnot hdb =>
      obtain ⟨hmem, _, hbind⟩ := hmirror.mirrors.of_chanGetById hmirror.few hchan
      rw [hbind] at hnot hdb
      exact h.subChan hconsistent hmem hnot hdb
  | unsubChan hchan hsub =>
      obtain ⟨hmem, _, hbind⟩ := hmirror.mirrors.of_chanGetById hmirror.few hchan
      rw [hbind] at hsub hconsistent ⊢
      exact h.unsubChan hconsistent hmem hsub rfl
  | enblNotif henbl => exact absurd henbl hreq
  | sameContents hsame => exact h.of_db hconsistent hsame.subscriptions

/-- A restart forgets who was active. -/
theorem Simulates.restart {w : World} (h : Consistent w) :
    Simulates (.start w.db) fun _ _ => False := by
  obtain ⟨_, hsubs, hass, hnds⟩ := Mirrors.load
    (P := fun m => SubIndex m {a | a ∈ m.ass} ∧ m.ass = [] ∧ m.nds = [])
    ⟨SubIndex.init, rfl, rfl⟩
    (fun m rows ci hmirrors hid hname hP => by
      have hnewId := hmirrors.newId hid
      have hsame := SameNotify.createChan hmirrors.tables hname hnewId
      refine ⟨?_, hsame.ass.trans hP.2.1, hsame.nds.trans hP.2.2⟩
      rw [hsame.ass]
      exact hP.1.createChan hmirrors.tables hname hnewId) h.mirror.mirrors.loadable
  have hconsistent : Consistent (.start w.db) := h.step w .restart
  change (World.start w.db).mem.ass = [] at hass
  change (World.start w.db).mem.nds = [] at hnds
  change SubIndex (World.start w.db).mem {a | a ∈ (World.start w.db).mem.ass} at hsubs
  generalize World.start w.db = w' at hconsistent hass hnds hsubs ⊢
  refine
    { consistent := hconsistent
      notify := ?_
      subs := hsubs
      active := by simp [hass]
      reached := by simp [hnds]
      enabled_iff := by simp [Mem.Notified, hass]
      subscribed_iff := by simp [hass] }
  simp only [hass, hnds, List.not_mem_nil, Set.ofPred_false]
  exact .empty

end Effects

section Runs

/-- The world together with the pairs of a user and a node for which
notifications are enabled. -/
structure Tracked where
  world : World
  enabled : UInt64 → NodeId → Prop

/-- Which pairs are enabled after an event: an enabling request adds one, the
node going offline takes away all of its pairs, and a restart forgets them. -/
def enabledStep (w : World) (enabled : UInt64 → NodeId → Prop) (user : UInt64)
    (node : NodeId) : Event → Prop
  | .request ctx req =>
      (respond w ctx req).aborts = false ∧
        (enabled user node ∨
          (req = .enblNotif ∧ ctx.didIsReady = true ∧
            (∃ uinfo, ctx.uinfo = some uinfo ∧ user = uinfo.uid) ∧ node = ctx.from))
  | .peerOffline nodeId => enabled user node ∧ node ≠ nodeId
  | .signIn _ _ _ => enabled user node
  | .restart => False

def track (t : Tracked) (event : Event) : Tracked where
  world := step t.world event
  enabled user node := enabledStep t.world t.enabled user node event

abbrev TrackedStep : Tracked → Event → Tracked → Prop :=
  Performs fun t event => some (track t event)

def Tracked.init : Tracked :=
  ⟨.start Db.init, fun _ _ => False⟩

theorem Simulates.congr {w : World} {enabled enabled' : UInt64 → NodeId → Prop}
    (h : Simulates w enabled) (hiff : ∀ user node, enabled' user node ↔ enabled user node) :
    Simulates w enabled' :=
  { h with enabled_iff := fun user node => (hiff user node).trans (h.enabled_iff user node) }

theorem Simulates.request {w : World} {enabled : UInt64 → NodeId → Prop}
    (h : Simulates w enabled) (ctx : Ctx) (req : Req) :
    Simulates (respond w ctx req).world fun user node => enabled user node ∨
      (req = .enblNotif ∧ ctx.didIsReady = true ∧
        (∃ uinfo, ctx.uinfo = some uinfo ∧ user = uinfo.uid) ∧ node = ctx.from) := by
  by_cases hreq : req = .enblNotif
  · subst hreq
    by_cases henables : ctx.didIsReady = true ∧ ∃ uinfo, ctx.uinfo = some uinfo
    · obtain ⟨hready, uinfo, huinfo⟩ := henables
      have hworld : (respond w ctx .enblNotif).world =
          ⟨w.mem.enblNotif w.db uinfo.uid ctx.from, w.db⟩ := by
        simp [respond, handle, hdlEnblNotifReq, ready, hready, withUinfo, huinfo,
          Outcome.result]
      rw [hworld]
      refine (h.enblNotif uinfo.uid ctx.from).congr fun user node => ?_
      simp [hready, huinfo]
    · have hworld : (respond w ctx .enblNotif).world = w := by
        rcases respond_cases w ctx .enblNotif with ⟨carried, hdone⟩ | ⟨hsame, _⟩
        · simp only [handle, hdlEnblNotifReq, ready_eq_done, withUinfo_eq_done] at hdone
          obtain ⟨hready, uinfo, huinfo, _⟩ := hdone
          exact absurd ⟨hready, uinfo, huinfo⟩ henables
        · exact hsame
      rw [hworld]
      refine h.congr fun user node => or_iff_left ?_
      rintro ⟨_, hready, ⟨uinfo, huinfo, _⟩, _⟩
      exact henables ⟨hready, uinfo, huinfo⟩
  · refine Simulates.congr ?_ fun user node => or_iff_left fun henbl => hreq henbl.1
    rcases respond_cases w ctx req with ⟨carried, hdone⟩ | ⟨hsame, _⟩
    · rw [(respond_done hdone).1]
      exact h.effect hreq (handle_effect hdone)
    · rwa [hsame]

theorem Simulates.track {t : Tracked} (h : Simulates t.world t.enabled) (event : Event) :
    Simulates (track t event).world (track t event).enabled := by
  cases event with
  | request ctx req =>
      cases habort : (respond t.world ctx req).aborts with
      | true =>
          have hstart : step t.world (.request ctx req) =
              .start (respond t.world ctx req).world.db := by
            simp [step, Result.after, habort]
          have hrestart := Simulates.restart (h.consistent.step t.world (.request ctx req))
          rw [hstart] at hrestart
          have hafter : Simulates (step t.world (.request ctx req)) fun _ _ => False := by
            rw [hstart]
            exact hrestart
          exact hafter.congr fun user node => by simp [Feeds.track, enabledStep, habort]
      | false =>
          have hworld : step t.world (.request ctx req) = (respond t.world ctx req).world := by
            simp [step, Result.after, habort]
          have hafter := h.request ctx req
          rw [← hworld] at hafter
          exact hafter.congr fun user node => by simp [Feeds.track, enabledStep, habort]
  | peerOffline nodeId => exact h.deactivate nodeId
  | signIn ui now rowid =>
      exact h.of_db (h.consistent.step t.world (.signIn ui now rowid))
        (dbUpsertUser_same t.world.db ui now rowid).subscriptions
  | restart => exact Simulates.restart h.consistent

theorem Simulates.reachable (events : List Event) :
    Always TrackedStep (fun t => Simulates t.world t.enabled) .init events := by
  refine always_of_preserved (fun t event t' h hstep => ?_) ?_ events
  · obtain rfl : Feeds.track t event = t' := by simpa [Performs] using hstep
    exact h.track event
  · exact Simulates.restart Consistent.init

end Runs

section Notifications

/-- The channel whose subscribers a request notifies. -/
def Req.channelEvent : Req → Option UInt64
  | .updChan chanId _ => some chanId
  | .pubPost chanId _ => some chanId
  | .declarePost chanId withNotify _ => if withNotify then some chanId else none
  | .notifyPost chanId _ => some chanId
  | .editPost chanId _ _ => some chanId
  | .delPost chanId _ => some chanId
  | .postCmt chanId _ _ _ => some chanId
  | .editCmt chanId _ _ _ _ => some chanId
  | .delCmt chanId _ _ => some chanId
  | .blockCmt chanId _ _ => some chanId
  | .unblockCmt chanId _ _ => some chanId
  | .postLike chanId _ _ _ => some chanId
  | _ => none

def Out.enqueued : Out → Option (NodeId × Msg)
  | .msgqEnq peer msg => some (peer, msg)
  | _ => none

/-- What is enqueued before the service aborts, if it does. -/
def Done.enqueued (carried : Done) : List (NodeId × Msg) :=
  (carried.outs.takeWhile fun out => !out.Aborts).filterMap Out.enqueued

/-- One message for each node, after what its log line asks for. -/
def notifications (logs : List Out) (msg : Msg) (peers : List NodeId) : List Out :=
  peers.flatMap fun peer => logs ++ [.msgqEnq peer msg]

theorem enqueued_notifications {logs : List Out} (hlogs : logs.filterMap Out.enqueued = [])
    (msg : Msg) (peers : List NodeId) :
    (notifications logs msg peers).filterMap Out.enqueued = peers.map fun peer => (peer, msg) := by
  induction peers with
  | nil => rfl
  | cons peer peers ih =>
      rw [notifications, List.flatMap_cons, List.filterMap_append, List.filterMap_append, hlogs]
      exact congrArg ((peer, msg) :: ·) ih

/-- What comes before an element that stops the list. -/
theorem takeWhile_append_prefix {α : Type} {p : α → Bool} {first : List α} (rest : List α)
    (hstops : ∃ a ∈ first, p a = false) : (first ++ rest).takeWhile p <+: first := by
  induction first with
  | nil =>
      obtain ⟨a, ha, -⟩ := hstops
      cases ha
  | cons a first ih =>
      rw [List.cons_append, List.takeWhile_cons]
      split
      · next hpasses =>
          refine List.cons_prefix_cons.mpr ⟨rfl, ih ?_⟩
          obtain ⟨b, hb, hstop⟩ := hstops
          rcases List.mem_cons.mp hb with rfl | hb
          · cases hstop.symm.trans hpasses
          · exact ⟨b, hb, hstop⟩
      · exact List.nil_prefix

/-- A status that is not named stops the service before the first message. -/
theorem Done.enqueued_eq {carried : Done} {opening logs : List Out} {msg : Msg}
    {peers : List NodeId} (hopening : opening.filterMap Out.enqueued = [])
    (hlogs : logs.filterMap Out.enqueued = [])
    (houts : carried.outs = opening ++ notifications logs msg peers) :
    carried.enqueued =
      if carried.outs.any Out.Aborts then [] else peers.map fun peer => (peer, msg) := by
  have hstopped : ∀ quiet rest : List Out, quiet.filterMap Out.enqueued = [] →
      carried.outs = quiet ++ rest → (∃ out ∈ quiet, out.Aborts = true) →
        carried.enqueued = [] := by
    intro quiet rest hquiet hsplit ⟨out, hout, habort⟩
    have htaken : carried.outs.takeWhile (fun out => !out.Aborts) <+: quiet :=
      hsplit ▸ takeWhile_append_prefix rest ⟨out, hout, by rw [habort]; rfl⟩
    exact List.sublist_nil.mp (hquiet ▸ htaken.sublist.filterMap Out.enqueued)
  split
  · next haborts =>
      obtain ⟨out, hout, habort⟩ := List.any_eq_true.mp haborts
      rcases List.mem_append.mp (houts ▸ hout) with hfirst | hlater
      · exact hstopped opening _ hopening houts ⟨out, hfirst, habort⟩
      · cases peers with
        | nil => cases hlater
        | cons peer peers =>
            have hlogged : out ∈ logs := by
              obtain ⟨other, -, hmem⟩ := List.mem_flatMap.mp hlater
              rcases List.mem_append.mp hmem with hlog | hlast
              · exact hlog
              · rw [List.mem_singleton.mp hlast] at habort
                cases habort
            have hquiet : (opening ++ logs).filterMap Out.enqueued = [] := by
              rw [List.filterMap_append, hopening, hlogs, List.append_nil]
            refine hstopped (opening ++ logs) (.msgqEnq peer msg :: notifications logs msg peers)
              hquiet ?_ ⟨out, List.mem_append_right _ hlogged, habort⟩
            rw [houts, notifications, List.flatMap_cons, List.append_assoc, List.append_assoc]
            rfl
  · next hreturns =>
      have hall : ∀ out ∈ carried.outs, (!out.Aborts) = true := by
        intro out hout
        rw [Bool.not_eq_true', Bool.eq_false_iff]
        exact fun habort => hreturns (List.any_eq_true.mpr ⟨out, hout, habort⟩)
      rw [Done.enqueued, List.takeWhile_eq_self_iff.mpr hall, houts, List.filterMap_append,
        hopening, enqueued_notifications hlogs, List.nil_append]

/-- The users and nodes behind the destinations of a channel. -/
def Mem.subscribedPairs (m : Mem) (chan : Ref) : List (UInt64 × NodeId) :=
  (m.aspcList (m.chan chan).aspcs).flatMap fun aspc =>
    (m.as (m.aspc aspc).as).ndpass.map fun ndpas =>
      ((m.as (m.aspc aspc).as).uid, (m.nd (m.ndpas ndpas).nd).nodeId)

theorem destinations_eq (m : Mem) (chan : Ref) :
    m.destinations chan = (m.subscribedPairs chan).map Prod.snd := by
  simp [Mem.destinations, Mem.subscribedPairs, List.map_flatMap, Function.comp_def]

/-- The old object still shares the list of subscribers with the copy that
replaces it, so the loop over it reaches the same nodes. -/
theorem destinations_chanUpdate {m : Mem} (htables : ChannelTables m) {chan : Ref}
    {ci : ChanInfo} (hchan : chan ∈ m.chansById)
    (hid : ci.chanId = (m.chan chan).info.chanId)
    (hname : ∀ other ∈ m.chansById, other ≠ chan → (m.chan other).info.name ≠ ci.name) :
    (m.chanUpdate chan ci).destinations chan = m.destinations chan := by
  rw [Mem.chanUpdate_eq htables hchan hid hname]
  simp only [Mem.destinations]
  rw [Function.update_of_ne (Nat.ne_of_lt (htables.fresh chan hchan)), Function.update_self]
  refine List.flatMap_congr fun l _ => ?_
  split <;> rfl

theorem setCmtStatus_enqueued {w : World} {ctx : Ctx} {carried : Done}
    {found : Db → ℤ → ℤ → ℤ → Bool} {stat : CmtStat} {chanId postId cmtId : UInt64}
    (hdone : setCmtStatus found stat w ctx chanId postId cmtId = .done carried) :
    ∃ chan opening logs msg, w.mem.chanGetById chanId.toNat = some chan ∧
      opening.filterMap Out.enqueued = [] ∧ logs.filterMap Out.enqueued = [] ∧
      carried.outs = opening ++ notifications logs msg (w.mem.destinations chan) := by
  simp only [setCmtStatus, ready_eq_done, withUinfo_eq_done, withPost_eq_done,
    check_eq_done, dbCall_eq_done, Outcome.done.injEq] at hdone
  obtain ⟨_, uinfo, _, chan, hchan, _, _, _, set, _, rfl⟩ := hdone
  exact ⟨chan, [], [.cmtStat set.1.stat], .cmtUpd set.1, hchan, rfl, rfl, rfl⟩

/-- The handlers send one message to each destination of the channel. -/
theorem channelEvent_enqueued {w : World} (h : Consistent w) {ctx : Ctx} {req : Req}
    {carried : Done} {id : UInt64} (hevent : req.channelEvent = some id)
    (hdone : handle w ctx req = .done carried) :
    ∃ chan opening logs msg, w.mem.chanGetById id.toNat = some chan ∧
      opening.filterMap Out.enqueued = [] ∧ logs.filterMap Out.enqueued = [] ∧
      carried.outs = opening ++ notifications logs msg (w.mem.destinations chan) := by
  cases req with
  | updChan chanId params =>
      obtain rfl := Option.some.inj hevent
      have hmirror := h.mirror.mirrors
      simp only [handle, hdlUpdChanReq, ready_eq_done, withOwner_eq_done, withChan_eq_done,
        check_eq_done, dbCall_eq_done, Outcome.done.injEq] at hdone
      obtain ⟨_, _, chan, hchan, hname, db, _, rfl⟩ := hdone
      obtain ⟨hmem, hchanId, _⟩ := hmirror.of_chanGetById h.mirror.few hchan
      have hfree : (w.mem.chan chan).info.name = params.name ∨
          w.mem.chanExistByName params.name = false := by
        by_cases hsame : (w.mem.chan chan).info.name = params.name
        · exact .inl hsame
        · exact .inr (by simpa [hsame] using hname)
      rw [destinations_chanUpdate hmirror.tables hmem]
      · exact ⟨chan, [], [], .chanUpd _, hchan, rfl, rfl, rfl⟩
      · exact hchanId.symm
      · exact hmirror.tables.name_of_upd hmem hfree
  | pubPost chanId params =>
      obtain rfl := Option.some.inj hevent
      simp only [handle, hdlPubPostReq, ready_eq_done, withOwner_eq_done, withChan_eq_done,
        dbCall_eq_done, Outcome.done.injEq] at hdone
      obtain ⟨_, _, chan, hchan, db, _, rfl⟩ := hdone
      exact ⟨chan, [], [], .newPost _, hchan, rfl, rfl, rfl⟩
  | declarePost chanId withNotify params =>
      cases withNotify with
      | false => cases hevent
      | true =>
          obtain rfl := Option.some.inj hevent
          simp only [handle, hdlDeclarePostReq, ready_eq_done, withOwner_eq_done,
            withChan_eq_done, dbCall_eq_done, Outcome.done.injEq] at hdone
          obtain ⟨_, _, chan, hchan, db, _, rfl⟩ := hdone
          exact ⟨chan, [.postStat .available], [], .newPost _, hchan, rfl, rfl, rfl⟩
  | notifyPost chanId postId =>
      obtain rfl := Option.some.inj hevent
      simp only [handle, hdlNotifyPostReq, ready_eq_done, withOwner_eq_done,
        withChan_eq_done, check_eq_done, dbCall_eq_done, Outcome.done.injEq] at hdone
      obtain ⟨_, _, chan, hchan, _, _, _, _, _, pi, _, rfl⟩ := hdone
      exact ⟨chan, [], [.postStat pi.stat], .postUpd pi, hchan, rfl, rfl, rfl⟩
  | editPost chanId postId params =>
      obtain rfl := Option.some.inj hevent
      simp only [handle, hdlEditPostReq, ready_eq_done, withOwner_eq_done,
        withChan_eq_done, check_eq_done, dbCall_eq_done, Outcome.done.injEq] at hdone
      obtain ⟨_, _, chan, hchan, _, upd, _, rfl⟩ := hdone
      exact ⟨chan, [], [.postStat upd.1.stat], .postUpd upd.1, hchan, rfl, rfl, rfl⟩
  | delPost chanId postId =>
      obtain rfl := Option.some.inj hevent
      simp only [handle, hdlDelPostReq, ready_eq_done, withOwner_eq_done,
        withChan_eq_done, check_eq_done, dbCall_eq_done, Outcome.done.injEq] at hdone
      obtain ⟨_, _, chan, hchan, _, set, _, rfl⟩ := hdone
      exact ⟨chan, [], [.postStat set.1.stat], .postUpd set.1, hchan, rfl, rfl, rfl⟩
  | postCmt chanId postId cmtId params =>
      obtain rfl := Option.some.inj hevent
      simp only [handle, hdlPostCmtReq, ready_eq_done, withUinfo_eq_done,
        withPost_eq_done, check_eq_done, dbCall_eq_done, Outcome.done.injEq] at hdone
      obtain ⟨_, uinfo, _, chan, hchan, _, _, added, _, rfl⟩ := hdone
      exact ⟨chan, [], [], .newCmt _, hchan, rfl, rfl, rfl⟩
  | editCmt chanId postId cmtId replyTo params =>
      obtain rfl := Option.some.inj hevent
      simp only [handle, hdlEditCmtReq, ready_eq_done, withUinfo_eq_done,
        withPost_eq_done, check_eq_done, dbCall_eq_done, Outcome.done.injEq] at hdone
      obtain ⟨_, uinfo, _, chan, hchan, _, _, _, _, upd, _, rfl⟩ := hdone
      exact ⟨chan, [], [.cmtStat upd.1.stat], .cmtUpd upd.1, hchan, rfl, rfl, rfl⟩
  | delCmt chanId postId cmtId =>
      obtain rfl := Option.some.inj hevent
      exact setCmtStatus_enqueued hdone
  | blockCmt chanId postId cmtId =>
      obtain rfl := Option.some.inj hevent
      exact setCmtStatus_enqueued hdone
  | unblockCmt chanId postId cmtId =>
      obtain rfl := Option.some.inj hevent
      exact setCmtStatus_enqueued hdone
  | postLike chanId postId cmtId proof =>
      obtain rfl := Option.some.inj hevent
      simp only [handle, hdlPostLikeReq, ready_eq_done, withUinfo_eq_done,
        withPost_eq_done, check_eq_done, dbCall_eq_done, Outcome.done.injEq] at hdone
      obtain ⟨_, uinfo, _, chan, hchan, _, _, _, added, _, rfl⟩ := hdone
      exact ⟨chan, [], [], .newLike _, hchan, rfl, rfl, rfl⟩
  | _ => cases hevent

variable {w : World} {enabled : UInt64 → NodeId → Prop}

theorem Simulates.nodup_subscribedPairs (h : Simulates w enabled) {chan : Ref}
    (hchan : chan ∈ w.mem.chansById) : (w.mem.subscribedPairs chan).Nodup := by
  rw [Mem.subscribedPairs, List.nodup_flatMap]
  constructor
  · intro l hl
    obtain ⟨_, ha, _⟩ := h.subs.linked.of_right chan hchan l hl
    refine List.Nodup.map_on (fun k hk k' hk' heq => ?_) (h.notify.linked.nodup_left _ ha)
    exact h.notify.ndpasKey_inj ha hk hk' (Prod.mk.inj heq).2
  · have hnodup : (w.mem.aspcList (w.mem.chan chan).aspcs).Pairwise (· ≠ ·) :=
      h.subs.linked.nodup_right chan hchan
    refine hnodup.imp_of_mem fun {l l'} hl hl' hne => ?_
    obtain ⟨_, ha, _⟩ := h.subs.linked.of_right chan hchan l hl
    obtain ⟨_, ha', _⟩ := h.subs.linked.of_right chan hchan l' hl'
    simp only [Function.onFun, List.disjoint_left, List.mem_map]
    rintro pair ⟨k, _, rfl⟩ ⟨k', _, heq⟩
    have hsame := h.notify.uids ha ha' (Prod.mk.inj heq).1.symm
    exact hne (h.subs.linked.symm.unique chan hchan l hl l' hl' hsame)

theorem Simulates.mem_subscribedPairs (h : Simulates w enabled) {chan : Ref}
    (hchan : chan ∈ w.mem.chansById) (user : UInt64) (node : NodeId) :
    (user, node) ∈ w.mem.subscribedPairs chan ↔
      dbIsSuber w.db (bindInt64 user) (w.mem.chan chan).info.chanId = true ∧
        enabled user node := by
  simp only [Mem.subscribedPairs, List.mem_flatMap, List.mem_map, Prod.mk.injEq, h.enabled_iff]
  constructor
  · rintro ⟨l, hl, k, hk, rfl, rfl⟩
    obtain ⟨hend, ha, hmem⟩ := h.subs.linked.of_right chan hchan l hl
    exact ⟨(h.subscribed_iff _ ha chan hchan).mp ⟨l, hmem, hend⟩, _, ha, rfl, k, hk, rfl⟩
  · rintro ⟨hsub, a, ha, rfl, k, hk, rfl⟩
    obtain ⟨l, hl, rfl⟩ := (h.subscribed_iff a ha chan hchan).mpr hsub
    obtain ⟨rfl, _, hmem⟩ := h.subs.linked.of_left a ha l hl
    exact ⟨l, hmem, k, hk, rfl, rfl⟩

/-- What holds of the subscription state, and of the notifications that a request
sends in it, after any events. -/
structure NotifiesSubscribers (t : Tracked) : Prop where
  /-- Every `NotifDestPerActiveSuber` is in the two lists of its end points only, and
  joins them alone. -/
  ndpass : Linked (fun l => (t.world.mem.ndpas l).as) (fun l => (t.world.mem.ndpas l).nd)
    (fun a => (t.world.mem.as a).ndpass) (fun n => (t.world.mem.nd n).ndpass)
    {a | a ∈ t.world.mem.ass} {n | n ∈ t.world.mem.nds}
  /-- The same of every `ActiveSuberPerChan`, whose hash key is the id of its channel. -/
  aspcs : Linked (fun l => (t.world.mem.aspc l).as) (fun l => (t.world.mem.aspc l).chan)
    (fun a => (t.world.mem.as a).aspcs)
    (fun c => t.world.mem.aspcList (t.world.mem.chan c).aspcs)
    {a | a ∈ t.world.mem.ass} {c | c ∈ t.world.mem.chansById}
  aspcKey : ∀ a ∈ t.world.mem.ass, ∀ l ∈ (t.world.mem.as a).aspcs,
    t.world.mem.aspcKey l = (t.world.mem.chan (t.world.mem.aspc l).chan).info.chanId
  uids : Set.InjOn t.world.mem.asKey {a | a ∈ t.world.mem.ass}
  nodeIds : Set.InjOn t.world.mem.ndKey {n | n ∈ t.world.mem.nds}
  notified_iff : ∀ user node, t.world.mem.Notified user node ↔ t.enabled user node
  active_iff : ∀ user, (∃ a ∈ t.world.mem.ass, (t.world.mem.as a).uid = user) ↔
    ∃ node, t.enabled user node
  node_iff : ∀ node, (∃ n ∈ t.world.mem.nds, (t.world.mem.nd n).nodeId = node) ↔
    ∃ user, t.enabled user node
  subscribed_iff : ∀ user, ∀ c ∈ t.world.mem.chansById,
    (∃ a ∈ t.world.mem.ass, (t.world.mem.as a).uid = user ∧
      ∃ l ∈ (t.world.mem.as a).aspcs, (t.world.mem.aspc l).chan = c) ↔
    (∃ a ∈ t.world.mem.ass, (t.world.mem.as a).uid = user) ∧
      dbIsSuber t.world.db (bindInt64 user) (t.world.mem.chan c).info.chanId = true
  /-- The calls of a handler that notifies enqueue one message for each subscriber of
  the channel and each node it has enabled, unless the service aborts before the first. -/
  notifies : ∀ ctx req carried id, req.channelEvent = some id →
    handle t.world ctx req = .done carried → ∃ (msg : Msg) (pairs : List (UInt64 × NodeId)),
      pairs.Nodup ∧
      (∀ user node, (user, node) ∈ pairs ↔
        dbIsSuber t.world.db (bindInt64 user) (bindInt64 id) = true ∧
          t.enabled user node) ∧
      carried.enqueued =
        if carried.outs.any Out.Aborts then [] else pairs.map fun pair => (pair.2, msg)

theorem Simulates.notifiesSubscribers {t : Tracked} (h : Simulates t.world t.enabled) :
    NotifiesSubscribers t where
  ndpass := h.notify.linked
  aspcs := h.subs.linked
  aspcKey := h.subs.keys
  uids := h.notify.uids
  nodeIds := h.notify.nodeIds
  notified_iff user node := (h.enabled_iff user node).symm
  active_iff user := by
    simp only [h.enabled_iff]
    constructor
    · rintro ⟨a, ha, rfl⟩
      obtain ⟨l, hl⟩ := List.exists_mem_of_ne_nil _ (h.active a ha)
      exact ⟨_, a, ha, rfl, l, hl, rfl⟩
    · rintro ⟨_, a, ha, rfl, _⟩
      exact ⟨a, ha, rfl⟩
  node_iff node := by
    simp only [h.enabled_iff]
    constructor
    · rintro ⟨n, hn, rfl⟩
      obtain ⟨l, hl⟩ := List.exists_mem_of_ne_nil _ (h.reached n hn)
      obtain ⟨hend, ha, hmem⟩ := h.notify.linked.of_right n hn l hl
      exact ⟨_, _, ha, rfl, l, hmem, by rw [hend]⟩
    · rintro ⟨_, a, ha, _, l, hl, rfl⟩
      exact ⟨_, (h.notify.linked.of_left a ha l hl).2.1, rfl⟩
  subscribed_iff user c hc := by
    constructor
    · rintro ⟨a, ha, rfl, hlink⟩
      exact ⟨⟨a, ha, rfl⟩, (h.subscribed_iff a ha c hc).mp hlink⟩
    · rintro ⟨⟨a, ha, rfl⟩, hsub⟩
      exact ⟨a, ha, rfl, (h.subscribed_iff a ha c hc).mpr hsub⟩
  notifies ctx req carried id hevent hdone := by
    obtain ⟨chan, opening, logs, msg, hchan, hopening, hlogs, houts⟩ :=
      channelEvent_enqueued h.consistent hevent hdone
    have hmirror := h.consistent.mirror
    obtain ⟨hmem, _, hbind⟩ := hmirror.mirrors.of_chanGetById hmirror.few hchan
    refine ⟨msg, _, h.nodup_subscribedPairs hmem, fun user node => ?_, ?_⟩
    · rw [hbind]
      exact h.mem_subscribedPairs hmem user node
    · rw [Done.enqueued_eq hopening hlogs houts, destinations_eq, List.map_map]
      rfl

/-- Every run keeps the subscriber tables in step with the subscriptions and the
enabled notifications. -/
theorem notifiesSubscribers_always (events : List Event) :
    Always TrackedStep NotifiesSubscribers .init events :=
  (Simulates.reachable events).mono fun _ h => h.notifiesSubscribers

end Notifications

end FeedsService.Feeds
