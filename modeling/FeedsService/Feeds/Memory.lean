import FeedsService.Feeds.Database
import FeedsService.Library.KeyedTable
import Mathlib.Logic.Function.Basic

/-!
# The tables of `feeds.c` in memory

Objects live at addresses that are never used twice, and a freed object keeps
its last contents: what reads it through a stale pointer still finds the key it
had.  `Chan` objects carry the reference count that decides when they are
freed.  A hash entry holds a pointer to its key, so a key is read through the
object that pointer points into.

Allocation succeeds.  The reference that a request handler takes with a lookup
and gives back at its end is left out, except where a handler replaces a `Chan`.
-/

namespace FeedsService.Feeds

open FeedsService.Library

abbrev NodeId := String

/-- The address of an object. -/
abbrev Ref := ℕ

structure Chan where
  refs : ℕ
  info : ChanInfo
  aspcs : Ref
  /-- The object that the key pointer of `he_name_key` points into. -/
  heNameKey : Ref
  /-- The object that the key pointer of `he_id_key` points into. -/
  heIdKey : Ref
  deriving Inhabited

structure ActiveSuberPerChan where
  chan : Ref
  as : Ref
  /-- The `Chan` that the key pointer of `he` points into. -/
  heKey : Ref
  deriving Inhabited

@[ext]
structure ActiveSuber where
  uid : UInt64
  aspcs : List Ref
  ndpass : List Ref
  deriving Inhabited

structure NotifDest where
  nodeId : NodeId
  ndpass : List Ref
  deriving Inhabited

structure NotifDestPerActiveSuber where
  as : Ref
  nd : Ref
  deriving Inhabited

structure Mem where
  nxtChanId : ℕ
  chan : Ref → Chan
  aspcList : Ref → List Ref
  aspc : Ref → ActiveSuberPerChan
  as : Ref → ActiveSuber
  nd : Ref → NotifDest
  ndpas : Ref → NotifDestPerActiveSuber
  chansByName : List Ref
  chansById : List Ref
  ass : List Ref
  nds : List Ref
  nextRef : Ref

/-- The static variables before `load_chans_from_db`. -/
def Mem.init : Mem where
  nxtChanId := 1
  chan := fun _ => default
  aspcList := fun _ => []
  aspc := fun _ => default
  as := fun _ => default
  nd := fun _ => default
  ndpas := fun _ => default
  chansByName := []
  chansById := []
  ass := []
  nds := []
  nextRef := 0

namespace Mem

section Keys

def nameKey (m : Mem) (chan : Ref) : String :=
  (m.chan (m.chan chan).heNameKey).info.name

def idKey (m : Mem) (chan : Ref) : ℕ :=
  (m.chan (m.chan chan).heIdKey).info.chanId

def aspcKey (m : Mem) (aspc : Ref) : ℕ :=
  (m.chan (m.aspc aspc).heKey).info.chanId

def asKey (m : Mem) (as : Ref) : UInt64 :=
  (m.as as).uid

def ndKey (m : Mem) (nd : Ref) : NodeId :=
  (m.nd nd).nodeId

def ndpasKey (m : Mem) (ndpas : Ref) : NodeId :=
  (m.nd (m.ndpas ndpas).nd).nodeId

end Keys

section Channels

def setChan (m : Mem) (chan : Ref) (f : Chan → Chan) : Mem :=
  { m with chan := Function.update m.chan chan (f (m.chan chan)) }

def ref (m : Mem) (chan : Ref) : Mem :=
  m.setChan chan fun object => { object with refs := object.refs + 1 }

/-- A `Chan` whose count reaches 0 is freed. -/
def deref (m : Mem) (chan : Ref) : Mem :=
  m.setChan chan fun object => { object with refs := object.refs - 1 }

def derefOpt (m : Mem) : Option Ref → Mem
  | none => m
  | some chan => m.deref chan

def chanCreate (m : Mem) (ci : ChanInfo) : Ref × Mem :=
  (m.nextRef,
    { m with
      chan := Function.update m.chan m.nextRef
        { refs := 1
          info := ci
          aspcs := m.nextRef + 1
          heNameKey := m.nextRef
          heIdKey := m.nextRef }
      aspcList := Function.update m.aspcList (m.nextRef + 1) []
      nextRef := m.nextRef + 2 })

/-- The updated channel shares the subscriber list of the old one. -/
def chanCreateUpd (m : Mem) (old : Ref) (ci : ChanInfo) : Ref × Mem :=
  (m.nextRef,
    { m with
      chan := Function.update m.chan m.nextRef
        { refs := 1
          info := ci
          aspcs := (m.chan old).aspcs
          heNameKey := m.nextRef
          heIdKey := m.nextRef }
      nextRef := m.nextRef + 1 })

def chanExistByName (m : Mem) (name : String) : Bool :=
  (KeyedTable.get m.nameKey m.chansByName name).isSome

def chanGetById (m : Mem) (id : ℕ) : Option Ref :=
  KeyedTable.get m.idKey m.chansById id

/-- Each of the two tables holds one reference. -/
def chanPut (m : Mem) (chan : Ref) : Mem :=
  { (m.ref chan).ref chan with
    chansByName := KeyedTable.put m.nameKey m.chansByName chan
    chansById := KeyedTable.put m.idKey m.chansById chan }

/-- The reference of the second table goes to the caller. -/
def chanRm (m : Mem) (chan : Ref) : Option Ref × Mem :=
  let info := (m.chan chan).info
  (KeyedTable.get m.idKey m.chansById info.chanId,
    { m.derefOpt (KeyedTable.get m.nameKey m.chansByName info.name) with
      chansByName := KeyedTable.remove m.nameKey m.chansByName info.name
      chansById := KeyedTable.remove m.idKey m.chansById info.chanId })

/-- `list_foreach(upd->aspcs, aspc) aspc->chan = upd;` -/
def retarget (m : Mem) (upd : Ref) : Mem :=
  { m with aspc := fun aspc =>
      if aspc ∈ m.aspcList (m.chan upd).aspcs then
        { m.aspc aspc with chan := upd }
      else
        m.aspc aspc }

def chanSub (m : Mem) (upd old : Ref) : Mem :=
  let (removed, m) := m.chanRm old
  ((m.derefOpt removed).retarget upd).chanPut upd

/-- What `hdl_create_chan_req` does to memory. -/
def createChan (m : Mem) (ci : ChanInfo) : Mem :=
  let created := m.chanCreate ci
  let m := (created.2.chanPut created.1).deref created.1
  { m with nxtChanId := m.nxtChanId + 1 }

/-- What `hdl_upd_chan_req` does to memory between the lookup of the channel
and the end of the request. -/
def chanUpdate (m : Mem) (chan : Ref) (ci : ChanInfo) : Mem :=
  let (upd, m) := (m.ref chan).chanCreateUpd chan ci
  ((m.chanSub upd chan).deref chan).deref upd

/-- One row of `load_chans_from_db`. -/
def loadChan (m : Mem) (ci : ChanInfo) : Mem :=
  let (chan, m) := m.chanCreate ci
  let m := (m.chanPut chan).deref chan
  if m.nxtChanId ≤ ci.chanId then { m with nxtChanId := ci.chanId + 1 } else m

def loadChansFromDb (db : Db) : Mem :=
  (dbIterChans db).foldl loadChan init

/-- Assign to the fields of `chan->info`. -/
def setInfo (m : Mem) (chan : Ref) (f : ChanInfo → ChanInfo) : Mem :=
  m.setChan chan fun object => { object with info := f object.info }

/-- `++chan->info.next_post_id`. -/
def addPost (m : Mem) (chan : Ref) : Mem :=
  m.setInfo chan fun info => { info with nextPostId := info.nextPostId + 1 }

end Channels

section Subscribers

def asGet (m : Mem) (uid : UInt64) : Option Ref :=
  KeyedTable.get m.asKey m.ass uid

def ndGet (m : Mem) (nodeId : NodeId) : Option Ref :=
  KeyedTable.get m.ndKey m.nds nodeId

def ndpasExist (m : Mem) (as : Ref) (nodeId : NodeId) : Bool :=
  (KeyedTable.get m.ndpasKey (m.as as).ndpass nodeId).isSome

def asCreate (m : Mem) (uid : UInt64) : Ref × Mem :=
  (m.nextRef,
    { m with
      as := Function.update m.as m.nextRef ⟨uid, [], []⟩
      nextRef := m.nextRef + 1 })

def ndCreate (m : Mem) (nodeId : NodeId) : Ref × Mem :=
  (m.nextRef,
    { m with
      nd := Function.update m.nd m.nextRef ⟨nodeId, []⟩
      nextRef := m.nextRef + 1 })

def ndpasCreate (m : Mem) (as nd : Ref) : Ref × Mem :=
  (m.nextRef,
    { m with
      ndpas := Function.update m.ndpas m.nextRef ⟨as, nd⟩
      nextRef := m.nextRef + 1 })

def aspcCreate (m : Mem) (as chan : Ref) : Ref × Mem :=
  (m.nextRef,
    { m with
      aspc := Function.update m.aspc m.nextRef ⟨chan, as, chan⟩
      nextRef := m.nextRef + 1 })

def asPut (m : Mem) (as : Ref) : Mem :=
  { m with ass := KeyedTable.put m.asKey m.ass as }

def asRemove (m : Mem) (uid : UInt64) : Mem :=
  { m with ass := KeyedTable.remove m.asKey m.ass uid }

def ndPut (m : Mem) (nd : Ref) : Mem :=
  { m with nds := KeyedTable.put m.ndKey m.nds nd }

def ndRemove (m : Mem) (nodeId : NodeId) : Mem :=
  { m with nds := KeyedTable.remove m.ndKey m.nds nodeId }

def setAs (m : Mem) (as : Ref) (f : ActiveSuber → ActiveSuber) : Mem :=
  { m with as := Function.update m.as as (f (m.as as)) }

def setNd (m : Mem) (nd : Ref) (f : NotifDest → NotifDest) : Mem :=
  { m with nd := Function.update m.nd nd (f (m.nd nd)) }

/-- Add to, or remove from, the subscriber list of a channel. -/
def setAspcs (m : Mem) (chan : Ref) (f : List Ref → List Ref) : Mem :=
  { m with
    aspcList := Function.update m.aspcList (m.chan chan).aspcs
      (f (m.aspcList (m.chan chan).aspcs)) }

def ndpasPut (m : Mem) (ndpas : Ref) : Mem :=
  (m.setNd (m.ndpas ndpas).nd fun nd => { nd with ndpass := nd.ndpass ++ [ndpas] }).setAs
    (m.ndpas ndpas).as fun as =>
      { as with ndpass := KeyedTable.put m.ndpasKey as.ndpass ndpas }

def aspcPut (m : Mem) (aspc : Ref) : Mem :=
  (m.setAspcs (m.aspc aspc).chan fun aspcs => aspcs ++ [aspc]).setAs
    (m.aspc aspc).as fun as =>
      { as with aspcs := KeyedTable.put m.aspcKey as.aspcs aspc }

def aspcRemove (m : Mem) (uid : UInt64) (chan : Ref) : Option Ref × Mem :=
  match m.asGet uid with
  | none => (none, m)
  | some as =>
      let id := (m.chan chan).info.chanId
      match KeyedTable.get m.aspcKey (m.as as).aspcs id with
      | none => (none, m)
      | some aspc =>
          (some aspc,
            (m.setAs as fun object =>
              { object with aspcs := KeyedTable.remove m.aspcKey object.aspcs id }).setAspcs
              chan fun aspcs => aspcs.filter (· ≠ aspc))

/-- The node, whether it is new, and memory. -/
def ndGetOrCreate (m : Mem) (nodeId : NodeId) : Ref × Bool × Mem :=
  match m.ndGet nodeId with
  | some nd => (nd, false, m)
  | none => ((m.ndCreate nodeId).1, true, (m.ndCreate nodeId).2)

/-- A new node is put into the table at the end. -/
def ndPutNew (m : Mem) (nd : Ref) (new : Bool) : Mem :=
  if new then m.ndPut nd else m

/-- The subscriptions of a new active subscriber, by the ids of the channels.
Every channel of the database is in memory (see the module on the mirror), so
the lookups find one. -/
def aspcsCreate (m : Mem) (as : Ref) : List ℕ → List Ref × Mem
  | [] => ([], m)
  | id :: ids =>
      match m.chanGetById id with
      | none => m.aspcsCreate as ids
      | some chan =>
          let created := m.aspcCreate as chan
          let rest := created.2.aspcsCreate as ids
          (created.1 :: rest.1, rest.2)

/-- What `hdl_enbl_notif_req` does to memory. -/
def enblNotif (m : Mem) (db : Db) (uid : UInt64) (nodeId : NodeId) : Mem :=
  match m.asGet uid with
  | some as =>
      if m.ndpasExist as nodeId then
        m
      else
        let found := m.ndGetOrCreate nodeId
        let created := found.2.2.ndpasCreate as found.1
        (created.2.ndpasPut created.1).ndPutNew found.1 found.2.1
  | none =>
      let as := m.asCreate uid
      let found := as.2.ndGetOrCreate nodeId
      let created := found.2.2.ndpasCreate as.1 found.1
      let aspcs := created.2.aspcsCreate as.1 (dbIterSubChans db uid)
      ((aspcs.1.foldl aspcPut (aspcs.2.ndpasPut created.1)).asPut as.1).ndPutNew
        found.1 found.2.1

/-- What `hdl_sub_chan_req` does to memory. -/
def subChan (m : Mem) (uid : UInt64) (chan : Ref) : Mem :=
  match m.asGet uid with
  | none => m.setInfo chan fun info => { info with subs := info.subs + 1 }
  | some as =>
      let created := m.aspcCreate as chan
      (created.2.aspcPut created.1).setInfo chan fun info => { info with subs := info.subs + 1 }

/-- What `hdl_unsub_chan_req` does to memory. -/
def unsubChan (m : Mem) (uid : UInt64) (chan : Ref) : Mem :=
  (m.aspcRemove uid chan).2.setInfo chan fun info => { info with subs := info.subs - 1 }

/-- Take the links of an active subscriber out of the lists of its channels. -/
def aspcsUnlink (m : Mem) (as : Ref) : Mem :=
  (m.as as).aspcs.foldl
    (fun m aspc => m.setAspcs (m.aspc aspc).chan fun aspcs => aspcs.filter (· ≠ aspc)) m

/-- One round of the loop of `feeds_deactivate_suber`. -/
def deactivateRound (nodeId : NodeId) (m : Mem) (ndpas : Ref) : Mem :=
  let as := (m.ndpas ndpas).as
  let m := m.setAs as fun object =>
    { object with ndpass := KeyedTable.remove m.ndpasKey object.ndpass nodeId }
  if (m.as as).ndpass = [] then
    (m.aspcsUnlink as).asRemove (m.as as).uid
  else
    m

/-- `feeds_deactivate_suber`. -/
def feedsDeactivateSuber (m : Mem) (nodeId : NodeId) : Mem :=
  match m.ndGet nodeId with
  | none => m
  | some nd =>
      (m.nd nd).ndpass.foldl (deactivateRound nodeId) (m.ndRemove nodeId)

end Subscribers

/-- The nodes that are notified of an event of a channel, in order. -/
def destinations (m : Mem) (chan : Ref) : List NodeId :=
  (m.aspcList (m.chan chan).aspcs).flatMap fun aspc =>
    (m.as (m.aspc aspc).as).ndpass.map fun ndpas => (m.nd (m.ndpas ndpas).nd).nodeId

/-- The nodes of the owner, who is notified of subscriptions. -/
def ownerDestinations (m : Mem) : List NodeId :=
  match m.asGet 1 with
  | none => []
  | some as => (m.as as).ndpass.map fun ndpas => (m.nd (m.ndpas ndpas).nd).nodeId

end Mem

end FeedsService.Feeds
