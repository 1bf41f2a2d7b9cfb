import FeedsService.Feeds.Memory

/-!
# The channel tables

`chans_by_name` and `chans_by_id` hold the same `Chan` objects, each under its
current name and id.  The two operations that put a `Chan` into the tables are
computed once and for all in closed form; everything else leaves the tables
alone or changes a field of the information of one channel.
-/

namespace FeedsService.Feeds

open FeedsService.Library FeedsService.Library.KeyedTable

/-- What holds of the two channel tables between requests. -/
structure ChannelTables (m : Mem) : Prop where
  mem_byName : ∀ chan, chan ∈ m.chansByName ↔ chan ∈ m.chansById
  byName : Keyed m.nameKey m.chansByName
  byId : Keyed m.idKey m.chansById
  heNameKey : ∀ chan ∈ m.chansById, (m.chan chan).heNameKey = chan
  heIdKey : ∀ chan ∈ m.chansById, (m.chan chan).heIdKey = chan
  fresh : ∀ chan ∈ m.chansById, chan < m.nextRef

namespace ChannelTables

variable {m : Mem}

theorem nameKey_eq (h : ChannelTables m) {chan : Ref} (hchan : chan ∈ m.chansById) :
    m.nameKey chan = (m.chan chan).info.name := by
  rw [Mem.nameKey, h.heNameKey chan hchan]

theorem idKey_eq (h : ChannelTables m) {chan : Ref} (hchan : chan ∈ m.chansById) :
    m.idKey chan = (m.chan chan).info.chanId := by
  rw [Mem.idKey, h.heIdKey chan hchan]

theorem chanGetById_eq_some (h : ChannelTables m) {id : ℕ} {chan : Ref} :
    m.chanGetById id = some chan ↔
      chan ∈ m.chansById ∧ (m.chan chan).info.chanId = id := by
  rw [Mem.chanGetById, get_eq_some h.byId]
  constructor
  · rintro ⟨hmem, hkey⟩
    exact ⟨hmem, h.idKey_eq hmem ▸ hkey⟩
  · rintro ⟨hmem, hkey⟩
    exact ⟨hmem, (h.idKey_eq hmem).trans hkey⟩

theorem chanGetById_self (h : ChannelTables m) {chan : Ref} (hchan : chan ∈ m.chansById) :
    m.chanGetById (m.chan chan).info.chanId = some chan :=
  h.chanGetById_eq_some.mpr ⟨hchan, rfl⟩

theorem chanExistByName_eq_false (h : ChannelTables m) {name : String} :
    m.chanExistByName name = false ↔
      ∀ chan ∈ m.chansById, (m.chan chan).info.name ≠ name := by
  rw [Mem.chanExistByName, Option.isSome_eq_false_iff, Option.isNone_iff_eq_none,
    get_eq_none]
  constructor
  · intro hnone chan hchan
    rw [← h.nameKey_eq hchan]
    exact hnone chan ((h.mem_byName chan).mpr hchan)
  · intro hnone chan hchan
    rw [h.nameKey_eq ((h.mem_byName chan).mp hchan)]
    exact hnone chan ((h.mem_byName chan).mp hchan)

theorem eq_of_id (h : ChannelTables m) {left right : Ref} (hleft : left ∈ m.chansById)
    (hright : right ∈ m.chansById)
    (heq : (m.chan left).info.chanId = (m.chan right).info.chanId) : left = right :=
  h.byId.eq_of_key hleft hright (by rw [h.idKey_eq hleft, h.idKey_eq hright, heq])

theorem eq_of_name (h : ChannelTables m) {left right : Ref} (hleft : left ∈ m.chansById)
    (hright : right ∈ m.chansById)
    (heq : (m.chan left).info.name = (m.chan right).info.name) : left = right :=
  h.byName.eq_of_key ((h.mem_byName left).mpr hleft) ((h.mem_byName right).mpr hright)
    (by rw [h.nameKey_eq hleft, h.nameKey_eq hright, heq])

/-- The name that an update gives to a channel is its own or a free one. -/
theorem name_of_upd (h : ChannelTables m) {chan : Ref} (hchan : chan ∈ m.chansById)
    {name : String}
    (hname : (m.chan chan).info.name = name ∨ m.chanExistByName name = false) :
    ∀ other ∈ m.chansById, other ≠ chan → (m.chan other).info.name ≠ name := by
  intro other hother hne hsame
  rcases hname with hkept | hnew
  · exact hne (h.eq_of_name hother hchan (hsame.trans hkept.symm))
  · exact h.chanExistByName_eq_false.mp hnew other hother hsame

/-- The tables depend only on the objects they hold. -/
theorem congr {m' : Mem} (h : ChannelTables m)
    (hchan : ∀ chan ∈ m.chansById,
      (m'.chan chan).info.name = (m.chan chan).info.name ∧
        (m'.chan chan).info.chanId = (m.chan chan).info.chanId ∧
        (m'.chan chan).heNameKey = (m.chan chan).heNameKey ∧
        (m'.chan chan).heIdKey = (m.chan chan).heIdKey)
    (hbyName : m'.chansByName = m.chansByName) (hbyId : m'.chansById = m.chansById)
    (hnext : m.nextRef ≤ m'.nextRef) : ChannelTables m' := by
  have hnameKey : ∀ chan ∈ m.chansById, m'.nameKey chan = m.nameKey chan := by
    intro chan hmem
    rw [h.nameKey_eq hmem, Mem.nameKey, (hchan chan hmem).2.2.1, h.heNameKey chan hmem,
      (hchan chan hmem).1]
  have hidKey : ∀ chan ∈ m.chansById, m'.idKey chan = m.idKey chan := by
    intro chan hmem
    rw [h.idKey_eq hmem, Mem.idKey, (hchan chan hmem).2.2.2, h.heIdKey chan hmem,
      (hchan chan hmem).2.1]
  refine ⟨?_, ?_, ?_, ?_, ?_, ?_⟩
  · rw [hbyName, hbyId]
    exact h.mem_byName
  · rw [hbyName]
    exact h.byName.congr fun chan hmem => hnameKey chan ((h.mem_byName chan).mp hmem)
  · rw [hbyId]
    exact h.byId.congr hidKey
  · rw [hbyId]
    exact fun chan hmem => (hchan chan hmem).2.2.1.trans (h.heNameKey chan hmem)
  · rw [hbyId]
    exact fun chan hmem => (hchan chan hmem).2.2.2.trans (h.heIdKey chan hmem)
  · rw [hbyId]
    exact fun chan hmem => Nat.lt_of_lt_of_le (h.fresh chan hmem) hnext

/-- Replace some objects of the tables by one object of new keys. -/
theorem concat {m' : Mem} (h : ChannelTables m) (kept : Ref → Bool) (object : Ref)
    (hchan : ∀ chan ∈ m.chansById, (m'.chan chan).info = (m.chan chan).info ∧
      (m'.chan chan).heNameKey = (m.chan chan).heNameKey ∧
      (m'.chan chan).heIdKey = (m.chan chan).heIdKey)
    (hbyName : m'.chansByName = m.chansByName.filter kept ++ [object])
    (hbyId : m'.chansById = m.chansById.filter kept ++ [object])
    (hname : ∀ chan ∈ m.chansById, kept chan = true →
      (m.chan chan).info.name ≠ (m'.chan object).info.name)
    (hid : ∀ chan ∈ m.chansById, kept chan = true →
      (m.chan chan).info.chanId ≠ (m'.chan object).info.chanId)
    (hheNameKey : (m'.chan object).heNameKey = object)
    (hheIdKey : (m'.chan object).heIdKey = object)
    (hnext : m.nextRef ≤ m'.nextRef) (hobject : object < m'.nextRef) :
    ChannelTables m' := by
  have hmem : ∀ chan, chan ∈ m'.chansById ↔
      (chan ∈ m.chansById ∧ kept chan = true) ∨ chan = object := by
    intro chan
    rw [hbyId, List.mem_append, List.mem_filter, List.mem_singleton]
  have hnameKey : ∀ chan ∈ m.chansById, m'.nameKey chan = m.nameKey chan := by
    intro chan hold
    rw [h.nameKey_eq hold, Mem.nameKey, (hchan chan hold).2.1, h.heNameKey chan hold,
      (hchan chan hold).1]
  have hidKey : ∀ chan ∈ m.chansById, m'.idKey chan = m.idKey chan := by
    intro chan hold
    rw [h.idKey_eq hold, Mem.idKey, (hchan chan hold).2.2, h.heIdKey chan hold,
      (hchan chan hold).1]
  refine ⟨?_, ?_, ?_, ?_, ?_, ?_⟩
  · intro chan
    rw [hmem, hbyName, List.mem_append, List.mem_filter, List.mem_singleton, h.mem_byName]
  · rw [hbyName]
    refine (h.byName.filter kept).concat (fun chan hold => ?_) fun chan hold => ?_
    · exact hnameKey chan ((h.mem_byName chan).mp (List.mem_filter.mp hold).1)
    · obtain ⟨hold, hkept⟩ := List.mem_filter.mp hold
      have hold := (h.mem_byName chan).mp hold
      rw [h.nameKey_eq hold, Mem.nameKey, hheNameKey]
      exact hname chan hold hkept
  · rw [hbyId]
    refine (h.byId.filter kept).concat (fun chan hold => ?_) fun chan hold => ?_
    · exact hidKey chan (List.mem_filter.mp hold).1
    · obtain ⟨hold, hkept⟩ := List.mem_filter.mp hold
      rw [h.idKey_eq hold, Mem.idKey, hheIdKey]
      exact hid chan hold hkept
  · intro chan hnew
    rcases (hmem chan).mp hnew with ⟨hold, _⟩ | rfl
    · exact (hchan chan hold).2.1.trans (h.heNameKey chan hold)
    · exact hheNameKey
  · intro chan hnew
    rcases (hmem chan).mp hnew with ⟨hold, _⟩ | rfl
    · exact (hchan chan hold).2.2.trans (h.heIdKey chan hold)
    · exact hheIdKey
  · intro chan hnew
    rcases (hmem chan).mp hnew with ⟨hold, _⟩ | rfl
    · exact Nat.lt_of_lt_of_le (h.fresh chan hold) hnext
    · exact hobject

end ChannelTables

namespace Mem

/-- A new object in the tables: a channel that is created or loaded, or the copy
that replaces a channel. -/
def chanNode (m : Mem) (ci : ChanInfo) (aspcs : Ref) : Chan where
  refs := 2
  info := ci
  aspcs := aspcs
  heNameKey := m.nextRef
  heIdKey := m.nextRef

variable {m : Mem}

/-- A channel of the tables is found under both its keys. -/
theorem chanRm_eq (h : ChannelTables m) {chan : Ref} (hchan : chan ∈ m.chansById) :
    m.chanRm chan = (some chan, { m.deref chan with
      chansByName := m.chansByName.filter (· ≠ chan)
      chansById := m.chansById.filter (· ≠ chan) }) := by
  have hname : chan ∈ m.chansByName := (h.mem_byName chan).mpr hchan
  have hgetById : get m.idKey m.chansById (m.chan chan).info.chanId = some chan :=
    h.chanGetById_self hchan
  have hgetByName : get m.nameKey m.chansByName (m.chan chan).info.name = some chan :=
    (get_eq_some h.byName).mpr ⟨hname, h.nameKey_eq hchan⟩
  have hremoveById := h.byId.remove_key hchan
  have hremoveByName := h.byName.remove_key hname
  rw [h.idKey_eq hchan] at hremoveById
  rw [h.nameKey_eq hchan] at hremoveByName
  rw [chanRm, hgetById, hgetByName, hremoveById, hremoveByName]
  rfl

theorem chanPut_eq {chan : Ref}
    (hname : ∀ other ∈ m.chansByName, m.nameKey other ≠ m.nameKey chan)
    (hid : ∀ other ∈ m.chansById, m.idKey other ≠ m.idKey chan) :
    m.chanPut chan = { (m.ref chan).ref chan with
      chansByName := m.chansByName ++ [chan]
      chansById := m.chansById ++ [chan] } := by
  rw [chanPut, put_of_fresh hname, put_of_fresh hid]

theorem createChan_eq (h : ChannelTables m) {ci : ChanInfo}
    (hname : ∀ chan ∈ m.chansById, (m.chan chan).info.name ≠ ci.name)
    (hid : ∀ chan ∈ m.chansById, (m.chan chan).info.chanId ≠ ci.chanId) :
    m.createChan ci = { m with
      nxtChanId := m.nxtChanId + 1
      chan := Function.update m.chan m.nextRef (m.chanNode ci (m.nextRef + 1))
      aspcList := Function.update m.aspcList (m.nextRef + 1) []
      chansByName := m.chansByName ++ [m.nextRef]
      chansById := m.chansById ++ [m.nextRef]
      nextRef := m.nextRef + 2 } := by
  have hfresh : ∀ chan ∈ m.chansById, chan ≠ m.nextRef :=
    fun chan hchan => Nat.ne_of_lt (h.fresh chan hchan)
  have hput : (m.chanCreate ci).2.chanPut m.nextRef =
      { ((m.chanCreate ci).2.ref m.nextRef).ref m.nextRef with
        chansByName := m.chansByName ++ [m.nextRef]
        chansById := m.chansById ++ [m.nextRef] } := by
    refine chanPut_eq (fun chan hmem => ?_) fun chan hmem => ?_
    · have hchan := (h.mem_byName chan).mp hmem
      simp only [nameKey, chanCreate, Function.update_self,
        Function.update_of_ne (hfresh chan hchan), h.heNameKey chan hchan]
      exact hname chan hchan
    · simp only [idKey, chanCreate, Function.update_self,
        Function.update_of_ne (hfresh chan hmem), h.heIdKey chan hmem]
      exact hid chan hmem
  simp only [createChan]
  rw [show (m.chanCreate ci).1 = m.nextRef from rfl, hput]
  simp [chanCreate, ref, deref, setChan, chanNode]

theorem loadChan_eq {ci : ChanInfo} (hid : ci.chanId = m.nxtChanId) :
    m.loadChan ci = m.createChan ci := by
  simp [loadChan, createChan, chanCreate, chanPut, ref, deref, setChan, hid]

/-- `chan_sub` with its creation before it and the releases after it: the copy
takes the place of the channel in the tables and takes over the list of its
subscribers, and the old object is left with two references less. -/
theorem chanUpdate_eq (h : ChannelTables m) {chan : Ref} {ci : ChanInfo}
    (hchan : chan ∈ m.chansById)
    (hid : ci.chanId = (m.chan chan).info.chanId)
    (hname : ∀ other ∈ m.chansById, other ≠ chan → (m.chan other).info.name ≠ ci.name) :
    m.chanUpdate chan ci = { m with
      chan := Function.update
        (Function.update m.chan chan
          { m.chan chan with refs := (m.chan chan).refs - 2 })
        m.nextRef (m.chanNode ci (m.chan chan).aspcs)
      aspc := fun aspc =>
        if aspc ∈ m.aspcList (m.chan chan).aspcs then
          { m.aspc aspc with chan := m.nextRef }
        else
          m.aspc aspc
      chansByName := m.chansByName.filter (· ≠ chan) ++ [m.nextRef]
      chansById := m.chansById.filter (· ≠ chan) ++ [m.nextRef]
      nextRef := m.nextRef + 1 } := by
  have hfresh : ∀ other ∈ m.chansById, other ≠ m.nextRef :=
    fun other hother => Nat.ne_of_lt (h.fresh other hother)
  let created := ((m.ref chan).chanCreateUpd chan ci).2
  have hcreated : ChannelTables created := by
    refine h.congr (fun other hother => ?_) rfl rfl (Nat.le_succ _)
    by_cases hsame : other = chan
    · subst hsame
      simp [created, chanCreateUpd, ref, setChan, Function.update_of_ne (hfresh other hother)]
    · simp [created, chanCreateUpd, ref, setChan, Function.update_of_ne hsame,
        Function.update_of_ne (hfresh other hother)]
  have hrm := chanRm_eq hcreated (show chan ∈ created.chansById from hchan)
  let removed : Mem := { created.deref chan with
    chansByName := m.chansByName.filter (· ≠ chan)
    chansById := m.chansById.filter (· ≠ chan) }
  let target := (removed.deref chan).retarget m.nextRef
  have hkept : ∀ other ∈ m.chansById, other ≠ chan → target.chan other = m.chan other := by
    intro other hother hne
    simp [target, removed, created, retarget, chanCreateUpd, ref, deref, setChan,
      Function.update_of_ne hne, Function.update_of_ne (hfresh other hother)]
  have hnew : target.chan m.nextRef =
      { m.chanNode ci (m.chan chan).aspcs with refs := 1 } := by
    simp [target, removed, created, retarget, chanCreateUpd, ref, deref, setChan, chanNode,
      Function.update_of_ne (hfresh chan hchan).symm]
  have hput : target.chanPut m.nextRef =
      { (target.ref m.nextRef).ref m.nextRef with
        chansByName := m.chansByName.filter (· ≠ chan) ++ [m.nextRef]
        chansById := m.chansById.filter (· ≠ chan) ++ [m.nextRef] } := by
    refine chanPut_eq (fun other hmem => ?_) fun other hmem => ?_
    · obtain ⟨hother, hne⟩ := List.mem_filter.mp hmem
      have hother := (h.mem_byName other).mp hother
      have hne : other ≠ chan := by simpa using hne
      have hnewName : target.nameKey m.nextRef = ci.name := by
        simp [nameKey, hnew, chanNode]
      have hotherName : target.nameKey other = (m.chan other).info.name := by
        rw [nameKey, hkept other hother hne, h.heNameKey other hother,
          hkept other hother hne]
      rw [hnewName, hotherName]
      exact hname other hother hne
    · obtain ⟨hother, hne⟩ := List.mem_filter.mp hmem
      have hne : other ≠ chan := by simpa using hne
      have hnewId : target.idKey m.nextRef = ci.chanId := by
        simp [idKey, hnew, chanNode]
      have hotherId : target.idKey other = (m.chan other).info.chanId := by
        rw [idKey, hkept other hother hne, h.heIdKey other hother, hkept other hother hne]
      rw [hnewId, hotherId, hid]
      exact fun heq => hne (h.eq_of_id hother hchan heq)
  have hupdate : m.chanUpdate chan ci =
      ((target.chanPut m.nextRef).deref chan).deref m.nextRef := by
    simp only [chanUpdate, chanSub]
    rw [show ((m.ref chan).chanCreateUpd chan ci).1 = m.nextRef from rfl, hrm]
    rfl
  rw [hupdate, hput]
  have hne : chan ≠ m.nextRef := hfresh chan hchan
  simp only [target, removed, created, retarget, chanCreateUpd, ref, deref, setChan,
    chanNode, Mem.mk.injEq, true_and, and_true]
  refine ⟨?_, ?_⟩
  · funext other
    by_cases hnext : other = m.nextRef
    · subst hnext
      simp [hne.symm]
    · by_cases hold : other = chan
      · subst hold
        simp [hne]
        omega
      · simp [hnext, hold]
  · simp [hne, hne.symm]

end Mem

/-- What the operations on subscribers leave alone. -/
structure SameChannels (m m' : Mem) : Prop where
  chan : m'.chan = m.chan
  chansByName : m'.chansByName = m.chansByName
  chansById : m'.chansById = m.chansById
  nxtChanId : m'.nxtChanId = m.nxtChanId
  nextRef : m.nextRef ≤ m'.nextRef

namespace SameChannels

variable {m m' m'' : Mem}

theorem refl (m : Mem) : SameChannels m m :=
  ⟨rfl, rfl, rfl, rfl, Nat.le_refl _⟩

theorem trans (h : SameChannels m m') (h' : SameChannels m' m'') : SameChannels m m'' :=
  ⟨h'.chan.trans h.chan, h'.chansByName.trans h.chansByName,
    h'.chansById.trans h.chansById, h'.nxtChanId.trans h.nxtChanId,
    Nat.le_trans h.nextRef h'.nextRef⟩

theorem foldl {α : Type} {f : Mem → α → Mem} (hstep : ∀ m a, SameChannels m (f m a))
    (as : List α) (m : Mem) : SameChannels m (as.foldl f m) := by
  induction as generalizing m with
  | nil => exact refl m
  | cons a as ih => exact (hstep m a).trans (ih (f m a))

theorem setAs (m : Mem) (as : Ref) (f : ActiveSuber → ActiveSuber) :
    SameChannels m (m.setAs as f) :=
  ⟨rfl, rfl, rfl, rfl, Nat.le_refl _⟩

theorem setAspcs (m : Mem) (chan : Ref) (f : List Ref → List Ref) :
    SameChannels m (m.setAspcs chan f) :=
  ⟨rfl, rfl, rfl, rfl, Nat.le_refl _⟩

theorem aspcCreate (m : Mem) (as chan : Ref) : SameChannels m (m.aspcCreate as chan).2 :=
  ⟨rfl, rfl, rfl, rfl, Nat.le_succ _⟩

theorem aspcPut (m : Mem) (aspc : Ref) : SameChannels m (m.aspcPut aspc) :=
  (setAspcs m _ _).trans (setAs _ _ _)

theorem ndpasPut (m : Mem) (ndpas : Ref) : SameChannels m (m.ndpasPut ndpas) :=
  ⟨rfl, rfl, rfl, rfl, Nat.le_refl _⟩

theorem ndGetOrCreate (m : Mem) (nodeId : NodeId) :
    SameChannels m (m.ndGetOrCreate nodeId).2.2 := by
  unfold Mem.ndGetOrCreate
  split
  · exact refl m
  · exact ⟨rfl, rfl, rfl, rfl, Nat.le_succ _⟩

theorem aspcsCreate (as : Ref) (ids : List ℕ) (m : Mem) :
    SameChannels m (m.aspcsCreate as ids).2 := by
  induction ids generalizing m with
  | nil => exact refl m
  | cons id ids ih =>
      rw [Mem.aspcsCreate]
      split
      · exact ih m
      · exact (aspcCreate m as _).trans (ih _)

theorem aspcRemove (m : Mem) (uid : UInt64) (chan : Ref) :
    SameChannels m (m.aspcRemove uid chan).2 := by
  unfold Mem.aspcRemove
  split
  · exact refl m
  · simp only
    split
    · exact refl m
    · exact (setAs m _ _).trans (setAspcs _ _ _)

theorem ndPutNew (m : Mem) (nd : Ref) (new : Bool) : SameChannels m (m.ndPutNew nd new) := by
  unfold Mem.ndPutNew
  split
  · exact ⟨rfl, rfl, rfl, rfl, Nat.le_refl _⟩
  · exact refl m

theorem asCreate (m : Mem) (uid : UInt64) : SameChannels m (m.asCreate uid).2 :=
  ⟨rfl, rfl, rfl, rfl, Nat.le_succ _⟩

theorem asPut (m : Mem) (as : Ref) : SameChannels m (m.asPut as) :=
  ⟨rfl, rfl, rfl, rfl, Nat.le_refl _⟩

theorem ndpasCreate (m : Mem) (as nd : Ref) : SameChannels m (m.ndpasCreate as nd).2 :=
  ⟨rfl, rfl, rfl, rfl, Nat.le_succ _⟩

theorem enblNotif (m : Mem) (db : Db) (uid : UInt64) (nodeId : NodeId) :
    SameChannels m (m.enblNotif db uid nodeId) := by
  unfold Mem.enblNotif
  split
  · split
    · exact refl m
    · exact (ndGetOrCreate m nodeId).trans
        ((ndpasCreate _ _ _).trans ((ndpasPut _ _).trans (ndPutNew _ _ _)))
  · exact (asCreate m uid).trans ((ndGetOrCreate _ nodeId).trans
      ((ndpasCreate _ _ _).trans ((aspcsCreate _ _ _).trans ((ndpasPut _ _).trans
        ((foldl aspcPut _ _).trans ((asPut _ _).trans (ndPutNew _ _ _)))))))

theorem deactivateRound (nodeId : NodeId) (m : Mem) (ndpas : Ref) :
    SameChannels m (m.deactivateRound nodeId ndpas) := by
  unfold Mem.deactivateRound
  simp only
  split
  · refine (setAs m _ _).trans (SameChannels.trans (foldl (fun m aspc => ?_) _ _)
      ⟨rfl, rfl, rfl, rfl, Nat.le_refl _⟩)
    exact setAspcs m _ _
  · exact setAs m _ _

theorem ndRemove (m : Mem) (nodeId : NodeId) : SameChannels m (m.ndRemove nodeId) :=
  ⟨rfl, rfl, rfl, rfl, Nat.le_refl _⟩

theorem feedsDeactivateSuber (m : Mem) (nodeId : NodeId) :
    SameChannels m (m.feedsDeactivateSuber nodeId) := by
  unfold Mem.feedsDeactivateSuber
  split
  · exact refl m
  · exact (ndRemove m nodeId).trans (foldl (deactivateRound nodeId) _ _)

end SameChannels

theorem setInfo_chanId (m : Mem) (chan : Ref) {f : ChanInfo → ChanInfo}
    (hf : ∀ info, (f info).chanId = info.chanId) (c : Ref) :
    ((m.setInfo chan f).chan c).info.chanId = (m.chan c).info.chanId := by
  by_cases hsame : c = chan
  · subst hsame
    simp [Mem.setInfo, Mem.setChan, hf]
  · simp [Mem.setInfo, Mem.setChan, hsame]

/-- A subscription counts one more subscriber, whatever it does to the links. -/
theorem Mem.subChan_eq (m : Mem) (uid : UInt64) (chan : Ref) :
    ∃ m', SameChannels m m' ∧
      m.subChan uid chan = m'.setInfo chan fun info => { info with subs := info.subs + 1 } := by
  unfold Mem.subChan
  split
  · exact ⟨m, .refl m, rfl⟩
  · exact ⟨_, (SameChannels.aspcCreate m _ chan).trans (SameChannels.aspcPut _ _), rfl⟩

end FeedsService.Feeds
