import FeedsService.Library.KeyedTable
import FeedsService.Library.Rows
import FeedsService.Library.Runs
import FeedsService.Session.RoundTrip

/-!
# Sessions and their data pipes

`MassDataManager` keeps one data pipe for each peer, and every `CarrierSessionHelper`
has a thread pool of one thread, which takes the notifications and the data of its
session in the order in which the carrier posted them.  The pools of different
sessions and the carrier interleave in any order; a task is one step.

A session exists as long as a data pipe or one of its data tasks refers to it.  A
notification refers to it by a plain pointer, and goes with its pool.
-/

namespace FeedsService.Session

open FeedsService.Library

/-- `ConnectListener::Notify`. -/
inductive Notify
  | connected
  | closed
  | error
  deriving DecidableEq

inductive Task
  | onNotify (notify : Notify) (errCode : ℤ)
  | onReceivedData (data : Bytes)
  deriving DecidableEq

/-- The states that `onStateChanged` tells apart. -/
inductive CarrierStreamState
  | initialized
  | transportReady
  | connected
  | closed
  | failed
  | other
  deriving DecidableEq

def carrierSessionConnectFailed : ℤ := -131
def carrierSessionStartFailed : ℤ := -136
def carrierSessionErrorExists : ℤ := -142

variable {Peer : Type} [DecidableEq Peer]

/-- `id` stands for the address of the object. -/
structure CarrierSessionHelper (Peer : Type) where
  id : ℕ
  peerId : Peer
  sessionSdp : Bytes
  taskQueue : List Task
  deriving DecidableEq

def CarrierSessionHelper.new (id : ℕ) (peerId : Peer) (sdp : Bytes) : CarrierSessionHelper Peer :=
  ⟨id, peerId, sdp, []⟩

structure DataPipe (Peer : Type) where
  peerId : Peer
  session : ℕ
  parser : SessionParser
  deriving DecidableEq

/-- The pipe of a new session. -/
def DataPipe.new (peer : Peer) (session : ℕ) : DataPipe Peer :=
  ⟨peer, session, .init⟩

/-- The manager and the sessions that exist.  The data that the carrier has delivered, by
session, and the calls of `unpack`, with the session of the pipe and the session that the
data came from, are records of the model. -/
structure MassDataManager (Peer : Type) where
  dataPipeMap : List (DataPipe Peer)
  sessions : List (CarrierSessionHelper Peer)
  nextId : ℕ
  received : List (ℕ × Bytes)
  unpacked : List (ℕ × ℕ × Bytes)
  deriving DecidableEq

def MassDataManager.init : MassDataManager Peer :=
  ⟨[], [], 0, [], []⟩

section Steps

/-- A task that holds its session. -/
def Task.isData : Task → Bool
  | .onReceivedData _ => true
  | .onNotify _ _ => false

/-- Whether something refers to a session. -/
def MassDataManager.Holds (mgr : MassDataManager Peer) (session : CarrierSessionHelper Peer) :
    Prop :=
  (∃ pipe ∈ mgr.dataPipeMap, pipe.session = session.id) ∨
    ∃ task ∈ session.taskQueue, task.isData = true

instance (mgr : MassDataManager Peer) (session : CarrierSessionHelper Peer) :
    Decidable (mgr.Holds session) :=
  inferInstanceAs (Decidable (_ ∨ _))

/-- The sessions that nothing refers to go, with what is left in their pools. -/
def MassDataManager.release (mgr : MassDataManager Peer) : MassDataManager Peer :=
  { mgr with sessions := mgr.sessions.filter fun session => mgr.Holds session }

def MassDataManager.setQueue (mgr : MassDataManager Peer) (id : ℕ)
    (queue : List Task → List Task) : MassDataManager Peer :=
  { mgr with
    sessions := updateWhere mgr.sessions (·.id = id) fun session =>
      { session with taskQueue := queue session.taskQueue } }

/-- `threadPool->post`. -/
def MassDataManager.post (mgr : MassDataManager Peer) (id : ℕ) (task : Task) :
    MassDataManager Peer :=
  mgr.setQueue id fun queue => queue ++ [task]

def MassDataManager.removeDataPipe (mgr : MassDataManager Peer) (key : Peer) :
    MassDataManager Peer :=
  { mgr with dataPipeMap := KeyedTable.remove DataPipe.peerId mgr.dataPipeMap key }.release

def MassDataManager.clearAllDataPipe (mgr : MassDataManager Peer) : MassDataManager Peer :=
  { mgr with dataPipeMap := [] }.release

/-- `onSessionRequest`, when `allowConnectAsync` succeeds. -/
def MassDataManager.onSessionRequest (mgr : MassDataManager Peer) (peer : Peer) (sdp : Bytes) :
    MassDataManager Peer :=
  { mgr with
    dataPipeMap := KeyedTable.put DataPipe.peerId mgr.dataPipeMap (.new peer mgr.nextId)
    sessions := mgr.sessions ++ [CarrierSessionHelper.new mgr.nextId peer sdp]
    nextId := mgr.nextId + 1 }.release

/-- The notification that `onStateChanged` posts; `ret` is the result of the call that the
state asks for. -/
def onStateChanged (session : CarrierSessionHelper Peer) (state : CarrierStreamState) (ret : ℤ) :
    Option Task :=
  match state with
  | .initialized =>
      if ret < 0 then some (.onNotify .error carrierSessionConnectFailed) else none
  | .transportReady =>
      if session.sessionSdp = [] then none
      else if ret < 0 then some (.onNotify .error carrierSessionStartFailed) else none
  | .connected => some (.onNotify .connected 0)
  | .closed => some (.onNotify .closed 0)
  | .failed => some (.onNotify .error carrierSessionErrorExists)
  | .other => none

/-- The pipe of a peer with another state of its parser. -/
def MassDataManager.setParser (mgr : MassDataManager Peer) (peer : Peer) (parser : SessionParser) :
    MassDataManager Peer :=
  { mgr with
    dataPipeMap := updateWhere mgr.dataPipeMap (·.peerId = peer) fun pipe =>
      { pipe with parser := parser } }

/-- Why a task does not come to its end. -/
inductive Broken
  | nullDereference
  | undefined
  deriving DecidableEq

/-- `onReceivedData` of the listener that `makeConnectListener` makes for a peer. -/
def MassDataManager.onReceivedData (mgr : MassDataManager Peer) (source : ℕ) (peer : Peer)
    (data : Bytes) : Except Broken (MassDataManager Peer) :=
  match KeyedTable.get DataPipe.peerId mgr.dataPipeMap peer with
  | none => .error .nullDereference
  | some pipe =>
      match unpack pipe.parser data true with
      | (parser, .returned _) =>
          .ok { mgr.setParser peer parser with
            unpacked := mgr.unpacked ++ [(pipe.session, source, data)] }
      | (_, _) => .error .undefined

/-- `onNotify` of that listener. -/
def MassDataManager.onNotify (mgr : MassDataManager Peer) (peer : Peer) (notify : Notify) :
    MassDataManager Peer :=
  if notify = .closed ∨ notify = .error then mgr.removeDataPipe peer else mgr

/-- What the carrier and the thread pools do.  Where `allowConnectAsync` fails, its session goes
at once, but the thread of its pool may have taken up the notification by then.  The callbacks of
`main.cpp` remove the pipe of a friend that goes offline, and all pipes when the service does. -/
inductive Action (Peer : Type)
  | request (peer : Peer) (sdp : Bytes)
  | refused (peer : Peer) (notified : Bool)
  | peerOffline (peer : Peer)
  | selfOffline
  | stateChanged (id : ℕ) (state : CarrierStreamState) (ret : ℤ)
  | streamData (id : ℕ) (data : Bytes)
  | run (id : ℕ)

/-- One step; `none` where the action is not possible. -/
def perform (mgr : MassDataManager Peer) : Action Peer →
    Except Broken (Option (MassDataManager Peer))
  | .request peer sdp => .ok (some (mgr.onSessionRequest peer sdp))
  | .refused peer notified => .ok (some (if notified then mgr.removeDataPipe peer else mgr))
  | .peerOffline peer => .ok (some (mgr.removeDataPipe peer))
  | .selfOffline => .ok (some mgr.clearAllDataPipe)
  | .stateChanged id state ret =>
      .ok ((KeyedTable.get CarrierSessionHelper.id mgr.sessions id).map fun session =>
        match onStateChanged session state ret with
        | none => mgr
        | some task => mgr.post id task)
  | .streamData id data =>
      .ok ((KeyedTable.get CarrierSessionHelper.id mgr.sessions id).map fun _ =>
        { mgr.post id (.onReceivedData data) with received := mgr.received ++ [(id, data)] })
  | .run id =>
      match KeyedTable.get CarrierSessionHelper.id mgr.sessions id with
      | none => .ok none
      | some session =>
          match session.taskQueue with
          | [] => .ok none
          | .onNotify notify _ :: rest =>
              .ok (some ((mgr.setQueue id fun _ => rest).onNotify session.peerId notify))
          | .onReceivedData data :: rest =>
              ((mgr.setQueue id fun _ => rest).onReceivedData id session.peerId data).map
                fun mgr => some mgr.release

/-- The steps that come to their end. -/
def next (mgr : MassDataManager Peer) (action : Action Peer) : Option (MassDataManager Peer) :=
  match perform mgr action with
  | .ok mgr => mgr
  | .error _ => none

end Steps

end FeedsService.Session
