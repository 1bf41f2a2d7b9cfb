import FeedsService.Library.Runs
import Mathlib.Logic.Function.Basic

/-!
# The message queues of `msgq.cpp`

Two threads work on the table `msgqs`: the command thread runs `msgq_enq` and
the send tasks that `CommandHandler::send` posts to its own pool (one thread,
first in first out), the carrier thread runs `on_msg_receipt` and
`msgq_peer_offline`.  Every table and list access holds the mutex, but nothing
holds it from one access to the next, so the model has one transition for each
locked access and a program counter for each thread.

Reference counts of the queues are left out: a queue object lives as long as a
task, a receipt or the table refers to it, and no transition looks at a count.
The two logs `enqd` and `handed` are observations, no transition reads them.
-/

namespace FeedsService.MsgQueue

abbrev Peer := String
abbrev Marshalled := List UInt8

/-- A queue object is known by its address; addresses are never reused. -/
abbrev QRef := ℕ

structure MsgQ where
  peer : Peer
  q : List Marshalled
  depr : Bool
  deriving DecidableEq, Inhabited

/-- A call of `carrier_send_friend_message`, first as a task of the pool and,
once accepted, as a message whose receipt is still to come. -/
structure SendTask where
  peer : Peer
  data : Marshalled
  receiptContext : QRef
  deriving DecidableEq

/-- Where the command thread stands in `msgq_enq`. -/
inductive CmdPc
  | idle
  | push (peer : Peer) (q : QRef) (msg : Marshalled)
  | send (peer : Peer) (q : QRef) (msg : Marshalled)
  | put (peer : Peer) (q : QRef) (msg : Marshalled)
  deriving DecidableEq

/-- Where the carrier thread stands in `on_msg_receipt` or in
`msgq_peer_offline`. -/
inductive CarrierPc
  | idle
  | checkDepr (q : QRef)
  | pop (q : QRef)
  | send (q : QRef) (msg : Marshalled)
  | rm (q : QRef)
  | setDepr (q : QRef)
  deriving DecidableEq

structure State where
  msgqs : Peer → Option QRef
  queue : QRef → MsgQ
  nextRef : QRef
  pool : List SendTask
  flight : List SendTask
  cmd : CmdPc
  carrier : CarrierPc
  enqd : List (Peer × Marshalled)
  handed : List (Peer × Marshalled)

/-- After `msgq_init`. -/
def State.init : State where
  msgqs := fun _ => none
  queue := fun _ => default
  nextRef := 0
  pool := []
  flight := []
  cmd := .idle
  carrier := .idle
  enqd := []
  handed := []

def msgqGet (s : State) (peer : Peer) : Option QRef :=
  s.msgqs peer

def msgqPut (s : State) (q : QRef) : State :=
  { s with msgqs := Function.update s.msgqs (s.queue q).peer (some q) }

def msgqRm (s : State) (peer : Peer) : Option QRef × State :=
  (s.msgqs peer, { s with msgqs := Function.update s.msgqs peer none })

def msgqPopHead (s : State) (q : QRef) : Option Marshalled × State :=
  match (s.queue q).q with
  | [] => (none, s)
  | m :: rest =>
      (some m,
        { s with queue := Function.update s.queue q { s.queue q with q := rest } })

def msgqPushTail (s : State) (q : QRef) (m : Marshalled) : State :=
  { s with
    queue := Function.update s.queue q { s.queue q with q := (s.queue q).q ++ [m] } }

def msgqCreate (s : State) (peer : Peer) : QRef × State :=
  (s.nextRef,
    { s with
      queue := Function.update s.queue s.nextRef ⟨peer, [], false⟩
      nextRef := s.nextRef + 1 })

/-- `CommandHandler::send`: the call is posted to the pool. -/
def commandHandlerSend (s : State) (peer : Peer) (data : Marshalled)
    (receiptContext : QRef) : State :=
  { s with pool := s.pool ++ [⟨peer, data, receiptContext⟩] }

/-- The body of a posted send task.  A transport that does not accept the
message never reports a receipt for it. -/
def runSendTask (s : State) (accepted : Bool) : Option State :=
  match s.pool with
  | [] => none
  | task :: rest =>
      some { s with
        pool := rest
        flight := if accepted then s.flight ++ [task] else s.flight
        handed := s.handed ++ [(task.peer, task.data)] }

inductive Action
  /-- The command thread calls `msgq_enq` and performs its `msgq_get`. -/
  | enq (peer : Peer) (msg : Marshalled)
  /-- The command thread performs its next access inside `msgq_enq`. -/
  | cmd
  /-- The idle command thread takes the next send task of the pool. -/
  | task (accepted : Bool)
  /-- The transport calls `on_msg_receipt` for one outstanding message. -/
  | receipt (index : ℕ)
  /-- The carrier thread calls `msgq_peer_offline` and performs its `msgq_rm`. -/
  | offline (peer : Peer)
  /-- The carrier thread performs its next access. -/
  | carrier
  deriving DecidableEq

def stepEnq (s : State) (peer : Peer) (msg : Marshalled) : Option State :=
  match s.cmd with
  | .idle =>
      match msgqGet s peer with
      | some q => some { s with cmd := .push peer q msg }
      | none =>
          let (q, t) := msgqCreate s peer
          some { t with cmd := .send peer q msg }
  | _ => none

def stepCmd (s : State) : Option State :=
  match s.cmd with
  | .idle => none
  | .push peer q msg =>
      some { msgqPushTail s q msg with
        cmd := .idle
        enqd := s.enqd ++ [(peer, msg)] }
  | .send peer q msg =>
      some { commandHandlerSend s peer msg q with cmd := .put peer q msg }
  | .put peer q msg =>
      some { msgqPut s q with
        cmd := .idle
        enqd := s.enqd ++ [(peer, msg)] }

def stepTask (s : State) (accepted : Bool) : Option State :=
  match s.cmd with
  | .idle => runSendTask s accepted
  | _ => none

def stepReceipt (s : State) (index : ℕ) : Option State :=
  match s.carrier, s.flight[index]? with
  | .idle, some task =>
      some { s with
        flight := s.flight.eraseIdx index
        carrier := .checkDepr task.receiptContext }
  | _, _ => none

def stepOffline (s : State) (peer : Peer) : Option State :=
  match s.carrier with
  | .idle =>
      match msgqRm s peer with
      | (some q, t) => some { t with carrier := .setDepr q }
      | (none, t) => some t
  | _ => none

def stepCarrier (s : State) : Option State :=
  match s.carrier with
  | .idle => none
  | .checkDepr q =>
      some { s with carrier := if (s.queue q).depr then .idle else .pop q }
  | .pop q =>
      match msgqPopHead s q with
      | (some m, t) => some { t with carrier := .send q m }
      | (none, t) => some { t with carrier := .rm q }
  | .send q m =>
      some { commandHandlerSend s (s.queue q).peer m q with carrier := .idle }
  | .rm q => some { (msgqRm s (s.queue q).peer).2 with carrier := .idle }
  | .setDepr q =>
      some { s with
        queue := Function.update s.queue q { s.queue q with depr := true }
        carrier := .idle }

/-- One transition of the two threads and the transport. -/
def next (s : State) : Action → Option State
  | .enq peer msg => stepEnq s peer msg
  | .cmd => stepCmd s
  | .task accepted => stepTask s accepted
  | .receipt index => stepReceipt s index
  | .offline peer => stepOffline s peer
  | .carrier => stepCarrier s

abbrev Step : State → Action → State → Prop :=
  Runs.Performs next

/-- No step of a thread, of the pool or of the transport is left to run. -/
def Quiescent (s : State) : Prop :=
  next s .cmd = none ∧ next s .carrier = none ∧
    (∀ accepted, next s (.task accepted) = none) ∧
    ∀ index, next s (.receipt index) = none

/-- A change of the waiting list leaves the rest of a queue. -/
theorem queue_update_peer (s : State) (q : QRef) (waiting : List Marshalled)
    (q' : QRef) :
    (Function.update s.queue q { s.queue q with q := waiting } q').peer =
      (s.queue q').peer := by
  by_cases hq : q' = q
  · subst hq
    simp
  · simp [hq]

theorem queue_update_depr (s : State) (q : QRef) (waiting : List Marshalled)
    (q' : QRef) :
    (Function.update s.queue q { s.queue q with q := waiting } q').depr =
      (s.queue q').depr := by
  by_cases hq : q' = q
  · subst hq
    simp
  · simp [hq]

/-- What a log says about one peer, in order. -/
def toPeer (peer : Peer) (log : List (Peer × Marshalled)) : List Marshalled :=
  (log.filter fun entry => entry.1 = peer).map Prod.snd

/-- The messages handed to the transport for `peer` and not yet receipted. -/
def outstandingTo (s : State) (peer : Peer) : List SendTask :=
  s.flight.filter fun task => task.peer = peer

@[simp]
theorem toPeer_append (peer : Peer) (left right : List (Peer × Marshalled)) :
    toPeer peer (left ++ right) = toPeer peer left ++ toPeer peer right := by
  simp [toPeer]

@[simp]
theorem toPeer_nil (peer : Peer) : toPeer peer [] = [] := rfl

theorem toPeer_singleton (peer other : Peer) (msg : Marshalled) :
    toPeer peer [(other, msg)] = if other = peer then [msg] else [] := by
  by_cases hother : other = peer <;> simp [toPeer, hother]

theorem quiescent_iff (s : State) :
    Quiescent s ↔
      s.cmd = .idle ∧ s.carrier = .idle ∧ s.pool = [] ∧ s.flight = [] := by
  constructor
  · rintro ⟨hcmd, hcarrier, htask, hreceipt⟩
    have hcmdIdle : s.cmd = .idle := by
      cases hpc : s.cmd <;> simp [next, stepCmd, hpc] at hcmd ⊢
    have hcarrierIdle : s.carrier = .idle := by
      cases hpc : s.carrier with
      | idle => rfl
      | pop q =>
          simp only [next, stepCarrier, hpc] at hcarrier
          split at hcarrier <;> cases hcarrier
      | _ => simp [next, stepCarrier, hpc] at hcarrier
    refine ⟨hcmdIdle, hcarrierIdle, ?_, ?_⟩
    · have hrun := htask true
      cases hpool : s.pool with
      | nil => rfl
      | cons task rest => simp [next, stepTask, hcmdIdle, runSendTask, hpool] at hrun
    · have hfirst := hreceipt 0
      cases hflight : s.flight with
      | nil => rfl
      | cons task rest => simp [next, stepReceipt, hcarrierIdle, hflight] at hfirst
  · rintro ⟨hcmd, hcarrier, hpool, hflight⟩
    refine ⟨?_, ?_, ?_, ?_⟩
    · simp [next, stepCmd, hcmd]
    · simp [next, stepCarrier, hcarrier]
    · simp [next, stepTask, hcmd, runSendTask, hpool]
    · simp [next, stepReceipt, hcarrier, hflight]

end FeedsService.MsgQueue
