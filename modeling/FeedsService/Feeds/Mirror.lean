import FeedsService.Feeds.Channels
import FeedsService.Feeds.System
import Mathlib.Data.List.Induction

/-!
# Memory mirrors the channels table

Between requests the two channel tables and the rows of the database describe
the same channels, in every field, and the next channel id in memory is the one
that the database gives out next.  A restart builds the tables again from rows
that satisfy the same invariant.
-/

namespace FeedsService.Feeds

open FeedsService.Library FeedsService.Library.KeyedTable FeedsService.Runs

/-- The row that stores a channel. -/
def ChanInfo.toRow (info : ChanInfo) : ChannelRow where
  channelId := info.chanId
  createdAt := info.createdAt
  updatedAt := info.updAt
  name := info.name
  intro := info.intro
  nextPostId := info.nextPostId
  subscribers := info.subs
  status := info.status
  tipMethods := info.tipMethods
  proof := info.proof
  avatar := info.avatar

/-- Loading a row gives back the channel it stores. -/
@[simp]
theorem row2chan_toRow (info : ChanInfo) : row2chan info.toRow = info := by
  simp [row2chan, ChanInfo.toRow]

/-- Memory and the rows of the channels table describe the same channels; the
ids count up from 1. -/
structure Mirrors (m : Mem) (rows : List ChannelRow) : Prop where
  tables : ChannelTables m
  mem_rows : ∀ row, row ∈ rows ↔ ∃ chan ∈ m.chansById, (m.chan chan).info.toRow = row
  ids : rows.map ChannelRow.channelId =
    (List.range rows.length).map fun index : ℕ => (index : ℤ) + 1
  nxtChanId : m.nxtChanId = rows.length + 1

structure Mirror (w : World) : Prop where
  mirrors : Mirrors w.mem w.db.channels
  channelsSeq : w.db.channelsSeq = w.db.channels.length
  few : w.db.channels.length ≤ 5

namespace Mirrors

variable {m m' : Mem} {rows : List ChannelRow}

theorem row_of_chan (h : Mirrors m rows) {chan : Ref} (hchan : chan ∈ m.chansById) :
    (m.chan chan).info.toRow ∈ rows :=
  (h.mem_rows _).mpr ⟨chan, hchan, rfl⟩

theorem id_bounds (h : Mirrors m rows) {row : ChannelRow} (hrow : row ∈ rows) :
    1 ≤ row.channelId ∧ row.channelId ≤ rows.length := by
  have hid : row.channelId ∈ rows.map ChannelRow.channelId := List.mem_map_of_mem hrow
  rw [h.ids] at hid
  obtain ⟨index, hindex, heq⟩ := List.mem_map.mp hid
  have hlt := List.mem_range.mp hindex
  omega

theorem chanId_bounds (h : Mirrors m rows) {chan : Ref} (hchan : chan ∈ m.chansById) :
    1 ≤ (m.chan chan).info.chanId ∧ (m.chan chan).info.chanId ≤ rows.length := by
  have hbounds := h.id_bounds (h.row_of_chan hchan)
  simp only [ChanInfo.toRow] at hbounds
  omega

theorem nodup_ids (h : Mirrors m rows) : (rows.map ChannelRow.channelId).Nodup := by
  rw [h.ids]
  refine List.Nodup.map (fun left right heq => ?_) List.nodup_range
  simpa using heq

theorem nodup_names (h : Mirrors m rows) : (rows.map ChannelRow.name).Nodup := by
  refine List.Nodup.map_on (fun left hleft right hright hname => ?_)
    (List.Nodup.of_map _ h.nodup_ids)
  obtain ⟨leftChan, hleftChan, rfl⟩ := (h.mem_rows left).mp hleft
  obtain ⟨rightChan, hrightChan, rfl⟩ := (h.mem_rows right).mp hright
  rw [h.tables.eq_of_name hleftChan hrightChan hname]

/-- A channel that a request finds by its id, which therefore is a small one. -/
theorem of_chanGetById (h : Mirrors m rows) (hfew : rows.length ≤ 5) {id : UInt64}
    {chan : Ref} (hchan : m.chanGetById id.toNat = some chan) :
    chan ∈ m.chansById ∧ (m.chan chan).info.chanId = id.toNat ∧
      bindInt64 id = (m.chan chan).info.chanId := by
  obtain ⟨hmem, hid⟩ := h.tables.chanGetById_eq_some.mp hchan
  have hbounds := h.chanId_bounds hmem
  refine ⟨hmem, hid, ?_⟩
  rw [hid]
  exact bindInt64_of_small (by omega)

/-- What leaves the channels alone keeps the mirror. -/
theorem congr (h : Mirrors m rows) (hsame : SameChannels m m') : Mirrors m' rows where
  tables := h.tables.congr (by simp [hsame.chan]) hsame.chansByName hsame.chansById
    hsame.nextRef
  mem_rows := by
    rw [hsame.chansById, hsame.chan]
    exact h.mem_rows
  ids := h.ids
  nxtChanId := hsame.nxtChanId.trans h.nxtChanId

/-- An update of one channel on both sides that leaves the keys alone. -/
theorem setInfo (h : Mirrors m rows) {chan : Ref} (hchan : chan ∈ m.chansById)
    {f : ChanInfo → ChanInfo} {g : ChannelRow → ChannelRow}
    (hf : ∀ info, (f info).name = info.name ∧ (f info).chanId = info.chanId)
    (hg : ∀ info, (f info).toRow = g info.toRow) :
    Mirrors (m.setInfo chan f)
      (updateWhere rows (ChannelRow.at (m.chan chan).info.chanId) g) := by
  have hinfo : ∀ other, ((m.setInfo chan f).chan other).info =
      if other = chan then f (m.chan chan).info else (m.chan other).info := by
    intro other
    by_cases hsame : other = chan
    · subst hsame
      simp [Mem.setInfo, Mem.setChan]
    · simp [Mem.setInfo, Mem.setChan, hsame]
  have hid : ∀ info : ChanInfo, (g info.toRow).channelId = info.toRow.channelId := by
    intro info
    rw [← hg info]
    simp [ChanInfo.toRow, (hf info).2]
  have hids : (updateWhere rows (ChannelRow.at (m.chan chan).info.chanId) g).map
      ChannelRow.channelId = rows.map ChannelRow.channelId := by
    rw [updateWhere, List.map_map]
    refine List.map_congr_left fun row hrow => ?_
    obtain ⟨other, _, rfl⟩ := (h.mem_rows row).mp hrow
    simp only [Function.comp]
    split
    · exact hid _
    · rfl
  refine ⟨?_, fun row => ?_, ?_, ?_⟩
  · refine h.tables.congr (fun other hother => ?_) rfl rfl (Nat.le_refl _)
    by_cases hsame : other = chan
    · subst hsame
      simp [Mem.setInfo, Mem.setChan, (hf _).1, (hf _).2]
    · simp [Mem.setInfo, Mem.setChan, hsame]
  · rw [mem_updateWhere]
    simp only [hinfo]
    constructor
    · rintro (⟨hrow, hother⟩ | ⟨old, hold, hat, rfl⟩)
      · obtain ⟨other, hmem, rfl⟩ := (h.mem_rows row).mp hrow
        refine ⟨other, hmem, ?_⟩
        rw [if_neg]
        rintro rfl
        simp [ChannelRow.at, ChanInfo.toRow] at hother
      · obtain ⟨other, hmem, rfl⟩ := (h.mem_rows old).mp hold
        have hsame : other = chan := by
          refine h.tables.eq_of_id hmem hchan ?_
          simpa [ChannelRow.at, ChanInfo.toRow] using hat
        subst hsame
        exact ⟨other, hmem, by rw [if_pos rfl, hg]⟩
    · rintro ⟨other, hmem, hrow⟩
      by_cases hsame : other = chan
      · subst hsame
        rw [if_pos rfl, hg] at hrow
        refine .inr ⟨_, h.row_of_chan hmem, ?_, hrow⟩
        simp [ChannelRow.at, ChanInfo.toRow]
      · rw [if_neg hsame] at hrow
        subst hrow
        refine .inl ⟨h.row_of_chan hmem, ?_⟩
        have hne : (m.chan other).info.chanId ≠ (m.chan chan).info.chanId :=
          fun heq => hsame (h.tables.eq_of_id hmem hchan heq)
        simpa [ChannelRow.at, ChanInfo.toRow] using hne
  · rw [hids, length_updateWhere]
    exact h.ids
  · rw [length_updateWhere]
    exact h.nxtChanId

theorem newId (h : Mirrors m rows) {ci : ChanInfo} (hid : ci.chanId = m.nxtChanId) :
    ∀ chan ∈ m.chansById, (m.chan chan).info.chanId ≠ ci.chanId := by
  intro chan hchan
  have hbounds := h.chanId_bounds hchan
  have hnext := h.nxtChanId
  omega

/-- A new channel under the next id. -/
theorem createChan (h : Mirrors m rows) {ci : ChanInfo} (hid : ci.chanId = m.nxtChanId)
    (hname : ∀ chan ∈ m.chansById, (m.chan chan).info.name ≠ ci.name) :
    Mirrors (m.createChan ci) (rows ++ [ci.toRow]) := by
  have hfresh : ∀ chan ∈ m.chansById, chan ≠ m.nextRef :=
    fun chan hchan => Nat.ne_of_lt (h.tables.fresh chan hchan)
  have hnewId := h.newId hid
  rw [Mem.createChan_eq h.tables hname hnewId]
  refine ⟨?_, fun row => ?_, ?_, ?_⟩
  · refine h.tables.concat (fun _ => true) m.nextRef
      (fun chan hchan => ?_) (by simp) (by simp) ?_ ?_ ?_ ?_ ?_ ?_
    · simp [Function.update_of_ne (hfresh chan hchan)]
    · simpa [Mem.chanNode] using hname
    · simpa [Mem.chanNode] using hnewId
    · simp [Mem.chanNode]
    · simp [Mem.chanNode]
    · simp
    · simp
  · rw [List.mem_append, List.mem_singleton, h.mem_rows]
    simp only [List.mem_append, List.mem_singleton]
    constructor
    · rintro (⟨chan, hchan, rfl⟩ | rfl)
      · exact ⟨chan, .inl hchan, by rw [Function.update_of_ne (hfresh chan hchan)]⟩
      · exact ⟨m.nextRef, .inr rfl, by rw [Function.update_self]; rfl⟩
    · rintro ⟨chan, hchan | rfl, hrow⟩
      · rw [Function.update_of_ne (hfresh chan hchan)] at hrow
        exact .inl ⟨chan, hchan, hrow⟩
      · rw [Function.update_self] at hrow
        exact .inr hrow.symm
  · have hnext := h.nxtChanId
    simp only [List.map_append, List.map_cons, List.map_nil, List.length_append,
      List.length_cons, List.length_nil, zero_add, List.range_succ, h.ids]
    rw [ChanInfo.toRow, hid, hnext]
    push_cast
    rfl
  · simp [h.nxtChanId]

/-- The copy that replaces a channel carries what `db_upd_chan` writes. -/
theorem chanUpdate (h : Mirrors m rows) {chan : Ref} {ci : ChanInfo}
    (hchan : chan ∈ m.chansById) (hid : ci.chanId = (m.chan chan).info.chanId)
    (hname : ∀ other ∈ m.chansById, other ≠ chan → (m.chan other).info.name ≠ ci.name)
    {g : ChannelRow → ChannelRow} (hg : g (m.chan chan).info.toRow = ci.toRow) :
    Mirrors (m.chanUpdate chan ci) (updateWhere rows (ChannelRow.at ci.chanId) g) := by
  have hfresh : ∀ chan ∈ m.chansById, chan ≠ m.nextRef :=
    fun chan hchan => Nat.ne_of_lt (h.tables.fresh chan hchan)
  have hnewId : ∀ other ∈ m.chansById, other ≠ chan →
      (m.chan other).info.chanId ≠ ci.chanId := by
    intro other hother hne heq
    exact hne (h.tables.eq_of_id hother hchan (heq.trans hid))
  have hkept : ∀ other ∈ m.chansById, other ≠ chan → ∀ old new : Chan,
      Function.update (Function.update m.chan chan old) m.nextRef new other =
        m.chan other := by
    intro other hother hne old new
    rw [Function.update_of_ne (hfresh other hother), Function.update_of_ne hne]
  have hids : (updateWhere rows (ChannelRow.at ci.chanId) g).map ChannelRow.channelId =
      rows.map ChannelRow.channelId := by
    rw [updateWhere, List.map_map]
    refine List.map_congr_left fun row hrow => ?_
    obtain ⟨other, hother, rfl⟩ := (h.mem_rows row).mp hrow
    simp only [Function.comp]
    split
    · next hat =>
        have hsame : other = chan := by
          by_contra hne
          have hat : (m.chan other).info.chanId = ci.chanId := by
            simpa [ChannelRow.at, ChanInfo.toRow] using hat
          exact hnewId other hother hne hat
        rw [hsame, hg]
        simp [ChanInfo.toRow, hid]
    · rfl
  rw [Mem.chanUpdate_eq h.tables hchan hid hname]
  refine ⟨?_, fun row => ?_, ?_, ?_⟩
  · refine h.tables.concat (fun other => other ≠ chan) m.nextRef
      (fun other hother => ?_) (by simp) (by simp) ?_ ?_ ?_ ?_ ?_ ?_
    · by_cases hsame : other = chan
      · subst hsame
        simp [Function.update_of_ne (hfresh other hother)]
      · simp [hkept other hother hsame]
    · intro other hother hne
      simpa [Mem.chanNode] using hname other hother (by simpa using hne)
    · intro other hother hne
      simpa [Mem.chanNode] using hnewId other hother (by simpa using hne)
    · simp [Mem.chanNode]
    · simp [Mem.chanNode]
    · simp
    · simp
  · rw [mem_updateWhere]
    simp only [List.mem_append, List.mem_filter, List.mem_singleton, decide_not,
      Bool.not_eq_eq_eq_not, Bool.not_true, decide_eq_false_iff_not]
    constructor
    · rintro (⟨hrow, hother⟩ | ⟨old, hold, hat, rfl⟩)
      · obtain ⟨other, hmem, rfl⟩ := (h.mem_rows row).mp hrow
        have hne : other ≠ chan := by
          rintro rfl
          simp [ChannelRow.at, ChanInfo.toRow, hid] at hother
        exact ⟨other, .inl ⟨hmem, hne⟩, by rw [hkept other hmem hne]⟩
      · obtain ⟨other, hmem, rfl⟩ := (h.mem_rows old).mp hold
        have hsame : other = chan := by
          by_contra hne
          refine hnewId other hmem hne ?_
          simpa [ChannelRow.at, ChanInfo.toRow] using hat
        refine ⟨m.nextRef, .inr rfl, ?_⟩
        rw [Function.update_self, hsame, hg]
        rfl
    · rintro ⟨other, ⟨hmem, hne⟩ | rfl, hrow⟩
      · rw [hkept other hmem hne] at hrow
        subst hrow
        refine .inl ⟨h.row_of_chan hmem, ?_⟩
        simpa [ChannelRow.at, ChanInfo.toRow] using hnewId other hmem hne
      · rw [Function.update_self] at hrow
        refine .inr ⟨_, h.row_of_chan hchan, ?_, hg.trans hrow⟩
        simp [ChannelRow.at, ChanInfo.toRow, hid]
  · rw [hids, length_updateWhere]
    exact h.ids
  · rw [length_updateWhere]
    exact h.nxtChanId

/-- Rows that can be loaded: the ids count up from 1, no name occurs twice, and
each row stores a channel. -/
structure Loadable (rows : List ChannelRow) : Prop where
  ids : rows.map ChannelRow.channelId =
    (List.range rows.length).map fun index : ℕ => (index : ℤ) + 1
  names : (rows.map ChannelRow.name).Nodup
  stored : ∀ row ∈ rows, (row2chan row).toRow = row

theorem loadable (h : Mirrors m rows) : Loadable rows where
  ids := h.ids
  names := h.nodup_names
  stored row hrow := by
    obtain ⟨chan, _, rfl⟩ := (h.mem_rows row).mp hrow
    rw [row2chan_toRow]

/-- Loading creates one channel after the other, in a memory that mirrors the rows
loaded so far. -/
theorem load {P : Mem → Prop} (hinit : P Mem.init)
    (hcreate : ∀ m rows (ci : ChanInfo), Mirrors m rows → ci.chanId = m.nxtChanId →
      (∀ chan ∈ m.chansById, (m.chan chan).info.name ≠ ci.name) → P m → P (m.createChan ci))
    (h : Loadable rows) :
    Mirrors ((rows.map row2chan).foldl Mem.loadChan Mem.init) rows ∧
      P ((rows.map row2chan).foldl Mem.loadChan Mem.init) := by
  induction rows using List.reverseRecOn with
  | nil =>
      refine ⟨⟨⟨?_, keyed_nil, keyed_nil, ?_, ?_, ?_⟩, ?_, rfl, rfl⟩, hinit⟩ <;>
        simp [Mem.init]
  | append_singleton rows row ih =>
      obtain ⟨hids, hnames, hstored⟩ := h
      simp only [List.map_append, List.map_cons, List.map_nil, List.length_append,
        List.length_cons, List.length_nil, zero_add, List.range_succ] at hids
      obtain ⟨hids, hid⟩ := List.append_inj hids (by simp)
      simp only [List.map_append, List.map_cons, List.map_nil, List.nodup_append,
        List.mem_singleton] at hnames
      obtain ⟨hloaded, hP⟩ := ih ⟨hids, hnames.1, fun old hold =>
        hstored old (List.mem_append_left _ hold)⟩
      have hrow : (row2chan row).toRow = row := hstored row (by simp)
      have hid : row.channelId = (rows.length : ℤ) + 1 := by simpa using hid
      have hchanId : (row2chan row).chanId = rows.length + 1 := by
        simp only [row2chan, hid]
        omega
      have hnext := hchanId.trans hloaded.nxtChanId.symm
      have hname : ∀ chan ∈ ((rows.map row2chan).foldl Mem.loadChan Mem.init).chansById,
          (((rows.map row2chan).foldl Mem.loadChan Mem.init).chan chan).info.name ≠
            (row2chan row).name :=
        fun chan hchan heq => hnames.2.2 _
          (List.mem_map_of_mem (hloaded.row_of_chan hchan)) row.name rfl heq
      rw [List.map_append, List.foldl_append, List.map_cons, List.map_nil, List.foldl_cons,
        List.foldl_nil, Mem.loadChan_eq hnext]
      have hcreated := hloaded.createChan hnext hname
      rw [hrow] at hcreated
      exact ⟨hcreated, hcreate _ rows _ hloaded hnext hname hP⟩

/-- A restart reproduces the tables. -/
theorem restart (h : Mirrors m rows) :
    Mirrors ((rows.map row2chan).foldl Mem.loadChan Mem.init) rows :=
  (load (P := fun _ => True) trivial (fun _ _ _ _ _ _ _ => trivial) h.loadable).1

/-- There is nothing to load at first. -/
theorem init : Mirrors Mem.init [] := by
  have hloadable : Loadable [] := ⟨rfl, List.nodup_nil, by simp⟩
  exact (load (P := fun _ => True) trivial (fun _ _ _ _ _ _ _ => trivial) hloadable).1

end Mirrors

namespace Mirror

variable {w w' : World}

theorem congr (h : Mirror w) (hmem : SameChannels w.mem w'.mem)
    (hchannels : w'.db.channels = w.db.channels)
    (hseq : w'.db.channelsSeq = w.db.channelsSeq) : Mirror w' := by
  refine ⟨?_, ?_, ?_⟩
  · rw [hchannels]
    exact h.mirrors.congr hmem
  · rw [hseq, hchannels]
    exact h.channelsSeq
  · rw [hchannels]
    exact h.few

/-- The number of channels is what an update of rows leaves alone. -/
theorem of_length (h : Mirror w) (hmirrors : Mirrors w'.mem w'.db.channels)
    (hlength : w'.db.channels.length = w.db.channels.length)
    (hseq : w'.db.channelsSeq = w.db.channelsSeq) : Mirror w' :=
  ⟨hmirrors, by rw [hseq, hlength]; exact h.channelsSeq, by rw [hlength]; exact h.few⟩

theorem newChannelRow_eq (h : Mirror w) {ci : ChanInfo} (hid : ci.chanId = w.mem.nxtChanId)
    (hupdAt : ci.updAt = ci.createdAt) (hsubs : ci.subs = 0) (hnextPostId : ci.nextPostId = 1)
    (hstatus : ci.status = 0) : newChannelRow (w.db.channelsSeq + 1) ci = ci.toRow := by
  simp [newChannelRow, ChanInfo.toRow, hid, h.mirrors.nxtChanId, h.channelsSeq, hupdAt,
    hsubs, hnextPostId, hstatus]

theorem effect {ctx : Ctx} {req : Req} (h : Mirror w) (heffect : Effect w ctx req w') :
    Mirror w' := by
  cases heffect with
  | nothing => exact h
  | @createChan ci db hfew hid hupdAt hsubs hnextPostId hstatus hname hdb =>
      obtain rfl := dbCreateChan_eq_some hdb
      have hcreated := h.mirrors.createChan hid
        (h.mirrors.tables.chanExistByName_eq_false.mp hname)
      refine ⟨?_, ?_, ?_⟩
      · simpa only [h.newChannelRow_eq hid hupdAt hsubs hnextPostId hstatus] using hcreated
      · simp [h.channelsSeq]
      · simp only [List.length_append, List.length_cons, List.length_nil]
        omega
  | @updChan chanId params chan ci db hreq hready howner hid hciName hchan hcreatedAt hsubs
      hnextPostId hstatus hname hdb =>
      obtain rfl := dbUpdChan_eq_some hdb
      obtain ⟨hmem, hchanId, _⟩ := h.mirrors.of_chanGetById h.few hchan
      refine h.of_length (h.mirrors.chanUpdate hmem (hid.trans hchanId.symm) ?_ ?_) ?_ rfl
      · exact h.mirrors.tables.name_of_upd hmem hname
      · simp [ChannelRow.upd, ChanInfo.toRow, hcreatedAt, hsubs, hnextPostId, hstatus, hid,
          hchanId]
      · exact length_updateWhere _ _ _
  | @addPost chanId chan pi db hchan hchanId hpostId hstat hdb =>
      obtain rfl := dbAddPost_eq_some hdb
      obtain ⟨hmem, _, hbind⟩ := h.mirrors.of_chanGetById h.few hchan
      refine h.of_length ?_ (length_updateWhere _ _ _) rfl
      rw [hchanId, hbind]
      exact h.mirrors.setInfo hmem
        (f := fun info => { info with nextPostId := info.nextPostId + 1 })
        (g := fun row => { row with nextPostId := row.nextPostId + 1 })
        (by simp) (by simp [ChanInfo.toRow])
  | setPostStatus hstat hdb =>
      rw [dbSetPostStatus_eq_some hdb]
      exact h.congr (.refl _) rfl rfl
  | updPost hdb =>
      rw [dbUpdPost_eq_some hdb]
      exact h.congr (.refl _) rfl rfl
  | addCmt hdb =>
      obtain ⟨post, _, _, _, hadded⟩ := dbAddCmt_eq_some hdb
      rw [hadded]
      exact h.congr (.refl _) rfl rfl
  | updCmt hreq hci havail hdb =>
      rw [(dbUpdCmt_eq_some hdb).1]
      exact h.congr (.refl _) rfl rfl
  | setCmtStatus hchecked hci hreq hdb =>
      rw [(dbSetCmtStatus_eq_some hdb).1]
      exact h.congr (.refl _) rfl rfl
  | addLike hnot hdb =>
      obtain ⟨row, _, _, _, hadded⟩ := dbAddLike_eq_some hdb
      rw [hadded]
      exact h.congr (.refl _) (updLikes_channels ..) (updLikes_channelsSeq ..)
  | rmLike hlike =>
      exact h.congr (.refl _) (updLikes_channels ..) (updLikes_channelsSeq ..)
  | @subChan uid id chan proof db hchan hnot hdb =>
      obtain ⟨_, rfl⟩ := dbAddSub_eq_some hdb
      obtain ⟨hmem, _, hbind⟩ := h.mirrors.of_chanGetById h.few hchan
      obtain ⟨m, hsame, heq⟩ := w.mem.subChan_eq uid chan
      refine h.of_length ?_ (length_updateWhere _ _ _) rfl
      rw [heq, hbind, ← hsame.chan]
      exact (h.mirrors.congr hsame).setInfo (hsame.chansById ▸ hmem)
        (f := fun info => { info with subs := info.subs + 1 })
        (g := fun row => { row with subscribers := row.subscribers + 1 })
        (by simp) (by simp [ChanInfo.toRow])
  | @unsubChan uid id chan hchan hsub =>
      obtain ⟨hmem, _, hbind⟩ := h.mirrors.of_chanGetById h.few hchan
      have hsame := SameChannels.aspcRemove w.mem uid chan
      refine h.of_length ?_ (length_updateWhere _ _ _) rfl
      rw [hbind, ← hsame.chan]
      exact (h.mirrors.congr hsame).setInfo (hsame.chansById ▸ hmem)
        (f := fun info => { info with subs := info.subs - 1 })
        (g := fun row => { row with subscribers := row.subscribers + -1 })
        (by simp) (by simp [ChanInfo.toRow, Int.sub_eq_add_neg])
  | enblNotif hreq hready huinfo =>
      exact h.congr (.enblNotif _ _ _ _) rfl rfl
  | sameContents hsame =>
      rw [hsame.eq]
      exact h.congr (.refl _) rfl rfl

theorem restart (h : Mirror w) : Mirror (.start w.db) :=
  h.of_length h.mirrors.restart rfl rfl

theorem init : Mirror (.start Db.init) :=
  ⟨Mirrors.init, rfl, by decide⟩

theorem step (w : World) (event : Event) (h : Mirror w) : Mirror (step w event) := by
  refine step_preserves (P := Mirror) (fun w ctx req carried h hdone => ?_)
    (fun w nodeId h => ?_) (fun w ui now rowid h => ?_) (fun w h => h.restart) w event h
  · exact h.effect (handle_effect hdone)
  · exact h.congr (.feedsDeactivateSuber _ _) rfl rfl
  · rw [(dbUpsertUser_same w.db ui now rowid).eq]
    exact h.congr (.refl _) rfl rfl

theorem reachable (events : List Event) :
    Always Step Mirror (.start Db.init) events :=
  always_of_preserved (fun w event _ h hstep => step_iff.mp hstep ▸ step w event h) init
    events

end Mirror

/-- The three copies of the channels agree in every field, the name table is
keyed by the current names, which are distinct, and the next id in memory is the
one that the database assigns next, so that it is the one of the inserted row. -/
structure MirrorsChannels (w : World) : Prop where
  byId : ∀ row, row ∈ w.db.channels ↔
    ∃ chan ∈ w.mem.chansById, (w.mem.chan chan).info.toRow = row
  byName : ∀ row, row ∈ w.db.channels ↔
    ∃ chan ∈ w.mem.chansByName, (w.mem.chan chan).info.toRow = row
  keyedById : ∀ chan ∈ w.mem.chansById, w.mem.idKey chan = (w.mem.chan chan).info.chanId
  keyedByName : ∀ chan ∈ w.mem.chansByName,
    w.mem.nameKey chan = (w.mem.chan chan).info.name
  distinctIds : (w.db.channels.map ChannelRow.channelId).Nodup
  distinctNames : (w.db.channels.map ChannelRow.name).Nodup
  oneEntryById : (w.mem.chansById.map w.mem.idKey).Nodup
  oneEntryByName : (w.mem.chansByName.map w.mem.nameKey).Nodup
  nxtChanId : (w.mem.nxtChanId : ℤ) = w.db.channelsSeq + 1
  replied : ∀ ctx params carried, handle w ctx (.createChan params) = .done carried →
    ∃ row, carried.world.db.channels = w.db.channels ++ [row] ∧
      carried.replies = [.id row.channelId]

theorem Mirror.mirrorsChannels {w : World} (h : Mirror w) : MirrorsChannels w where
  byId := h.mirrors.mem_rows
  byName row := by
    simp only [h.mirrors.mem_rows, h.mirrors.tables.mem_byName]
  keyedById _ hchan := h.mirrors.tables.idKey_eq hchan
  keyedByName chan hchan :=
    h.mirrors.tables.nameKey_eq ((h.mirrors.tables.mem_byName chan).mp hchan)
  distinctIds := h.mirrors.nodup_ids
  distinctNames := h.mirrors.nodup_names
  oneEntryById := h.mirrors.tables.byId
  oneEntryByName := h.mirrors.tables.byName
  nxtChanId := by rw [h.mirrors.nxtChanId, h.channelsSeq]; push_cast; rfl
  replied ctx params carried hdone := by
    simp only [handle, hdlCreateChanReq, ready_eq_done, withOwner_eq_done, check_eq_done,
      dbCall_eq_done, Outcome.done.injEq] at hdone
    obtain ⟨_, _, _, _, db, hdb, rfl⟩ := hdone
    rw [dbCreateChan_eq_some hdb]
    refine ⟨_, rfl, ?_⟩
    simp [newChannelRow, h.mirrors.nxtChanId, h.channelsSeq]

/-- Every run keeps the copies of the channels in step. -/
theorem mirrorsChannels_always (events : List Event) :
    Always Step MirrorsChannels (.start Db.init) events :=
  (Mirror.reachable events).mono fun _ h => h.mirrorsChannels

end FeedsService.Feeds
