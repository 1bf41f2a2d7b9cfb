import FeedsService.MsgQueue.Model
import FeedsService.Utils.Lifetime

/-!
# The threads of the service

Carrier's thread posts the messages that arrive to the pool of the command handler.  The
one thread of the pool handles them, and it makes the calls of `carrier_send_friend_message`,
which are tasks of the same pool.  Carrier's thread also brings the receipts and the peers that
go offline, and sweeps the logins that have waited for too long.

A handler changes the world of the service in one step; then each access to the message queues
is a step.  Nothing in the source keeps a handler and what Carrier's thread changes in the
world apart: these are the runs in which they do not overlap.
-/

namespace FeedsService.Service

open FeedsService.MsgQueue FeedsService.Runs FeedsService.Utils

/-- What is behind `processAdvance` and `process`: the world that a message leaves and what is
put into the message queues for it, or none where the process ends.  The environment gives the
time and what the token of the message is worth.  `offline` and `expire` are what
`feeds_deactivate_suber` and `auth_expire_login` do. -/
structure Handlers (σ ρ ε : Type) where
  serve : σ → ρ → ε → Option (σ × List (Peer × Marshalled))
  offline : σ → Peer → σ
  expire : σ → ℤ → σ

/-- The closures of `CommandHandler::received` and `CommandHandler::send`. -/
inductive Task (ρ : Type)
  | received (msg : ρ)
  | send (call : SendTask)

/-- Where the thread of the pool is in its task. -/
inductive Body (ρ : Type)
  | idle
  | received (msg : ρ)
  | enqueues (outs : List (Peer × Marshalled))
  | send (call : SendTask)

/-- What the service has gone through. -/
inductive Served (ρ ε : Type)
  | request (msg : ρ) (env : ε)
  | offline (peer : Peer)
  | expire (now : ℤ)

section Parts

variable {σ ρ ε : Type}

def Task.message? : Task ρ → Option ρ
  | .received msg => some msg
  | .send _ => none

def Task.call? : Task ρ → Option SendTask
  | .received _ => none
  | .send call => some call

def Task.body : Task ρ → Body ρ
  | .received msg => .received msg
  | .send call => .send call

def Body.message : Body ρ → List ρ
  | .received msg => [msg]
  | _ => []

def Body.outs : Body ρ → List (Peer × Marshalled)
  | .enqueues outs => outs
  | _ => []

def Body.calls : Body ρ → List SendTask
  | .send call => [call]
  | _ => []

/-- The handler of a message is running. -/
def Body.Handles : Body ρ → Prop
  | .received _ | .enqueues _ => True
  | .idle | .send _ => False

instance : DecidablePred (Body.Handles : Body ρ → Prop)
  | .received _ | .enqueues _ => isTrue trivial
  | .idle | .send _ => isFalse id

def Served.message? : Served ρ ε → Option ρ
  | .request msg _ => some msg
  | .offline _ | .expire _ => none

/-- The service without threads: one message or one peer after the other. -/
def Handlers.nextServed (handlers : Handlers σ ρ ε) (state : σ × List (Peer × Marshalled)) :
    Served ρ ε → Option (σ × List (Peer × Marshalled))
  | .request msg env =>
      (handlers.serve state.1 msg env).map fun result => (result.1, state.2 ++ result.2)
  | .offline peer => some (handlers.offline state.1 peer, state.2)
  | .expire now => some (handlers.expire state.1 now, state.2)

/-- What `msgq_enq` has in hand. -/
def inCall : CmdPc → List (Peer × Marshalled)
  | .idle => []
  | .push peer _ msg | .send peer _ msg | .put peer _ msg => [(peer, msg)]

/-- The task that the next access of `msgq_enq` posts. -/
def cmdCall : CmdPc → Option SendTask
  | .send peer q msg => some ⟨peer, msg, q⟩
  | _ => none

/-- The task that the next access of `on_msg_receipt` posts. -/
def carrierCall (s : State) : Option SendTask :=
  match s.carrier with
  | .send q msg => some ⟨(s.queue q).peer, msg, q⟩
  | _ => none

end Parts

/-- `deactivated` is the peer whose subscriptions `friend_connection_callback` has dropped while
it has not come to the message queues yet.  The field `pool` of `msgqs` is a record of the model,
as are the messages that have arrived and those that have been handled. -/
structure Threads (σ ρ ε : Type) where
  pool : ThreadPool (Task ρ)
  body : Body ρ
  world : σ
  msgqs : State
  deactivated : Option Peer
  arrived : List ρ
  served : List (Served ρ ε)

/-- The steps of Carrier's thread are `receives`, `receipt`, `offline`, `expire` and `carrier`;
the others are of the thread of the pool. -/
inductive Turn (ρ ε : Type)
  | receives (msg : ρ)
  | receipt (index : ℕ)
  | offline (peer : Peer)
  | expire (now : ℤ)
  | carrier
  | check
  | spurious
  | handle (env : ε)
  | access
  | transmit (accepted : Bool)
  | examine
  | leave

namespace Threads

variable {σ ρ ε : Type}

def start (world : σ) : Threads σ ρ ε where
  pool := .create 1
  body := .idle
  world := world
  msgqs := .init
  deactivated := none
  arrived := []
  served := []

/-- Carrier's thread is in no callback. -/
def CarrierIdle (s : Threads σ ρ ε) : Prop :=
  s.deactivated = none ∧ s.msgqs.carrier = .idle

instance (s : Threads σ ρ ε) : Decidable s.CarrierIdle :=
  inferInstanceAs (Decidable (_ ∧ _))

/-- The pool after a call of `CommandHandler::send`, if there is one. -/
def post (s : Threads σ ρ ε) : Option SendTask → Option (ThreadPool (Task ρ))
  | none => some s.pool
  | some call => nextPool s.pool (.post (.send call) true)

/-- The next access to the message queues of the handler that is running. -/
def access (s : Threads σ ρ ε) : Option (Threads σ ρ ε) :=
  match s.body with
  | .enqueues outs =>
      if s.msgqs.cmd = .idle then
        match outs with
        | [] => some { s with body := .idle }
        | (peer, msg) :: rest =>
            (stepEnq s.msgqs peer msg).map fun msgqs =>
              { s with msgqs := msgqs, body := .enqueues rest }
      else
        (s.post (cmdCall s.msgqs.cmd)).bind fun pool =>
          (stepCmd s.msgqs).map fun msgqs => { s with pool := pool, msgqs := msgqs }
  | _ => none

/-- `carrier_send_friend_message`, which may refuse. -/
def transmit (s : Threads σ ρ ε) (accepted : Bool) : Option (Threads σ ρ ε) :=
  match s.body with
  | .send call =>
      some { s with
        body := .idle
        msgqs := { s.msgqs with
          pool := s.msgqs.pool.tail
          flight := if accepted then s.msgqs.flight ++ [call] else s.msgqs.flight
          handed := s.msgqs.handed ++ [(call.peer, call.data)] } }
  | _ => none

/-- The next access of the callback that Carrier's thread is in. -/
def carrierAccess (s : Threads σ ρ ε) : Option (Threads σ ρ ε) :=
  match s.deactivated with
  | some peer =>
      (stepOffline s.msgqs peer).map fun msgqs =>
        { s with msgqs := msgqs, deactivated := none }
  | none =>
      (s.post (carrierCall s.msgqs)).bind fun pool =>
        (stepCarrier s.msgqs).map fun msgqs => { s with pool := pool, msgqs := msgqs }

end Threads

section Steps

variable {σ ρ ε : Type} (handlers : Handlers σ ρ ε)

/-- One step; `none` where the turn is not possible. -/
def nextThreads (s : Threads σ ρ ε) : Turn ρ ε → Option (Threads σ ρ ε)
  | .receives msg =>
      if s.CarrierIdle then
        (nextPool s.pool (.post (.received msg) true)).map fun pool =>
          { s with pool := pool, arrived := s.arrived ++ [msg] }
      else none
  | .receipt index =>
      if s.CarrierIdle then
        (stepReceipt s.msgqs index).map fun msgqs => { s with msgqs := msgqs }
      else none
  | .offline peer =>
      if s.CarrierIdle ∧ ¬ s.body.Handles then
        some { s with
          world := handlers.offline s.world peer
          deactivated := some peer
          served := s.served ++ [.offline peer] }
      else none
  | .expire now =>
      if s.CarrierIdle ∧ ¬ s.body.Handles then
        some { s with
          world := handlers.expire s.world now
          served := s.served ++ [.expire now] }
      else none
  | .carrier => s.carrierAccess
  | .check =>
      (nextPool s.pool (.check 0)).map fun pool =>
        { s with pool := pool, body := (s.pool.taskQueue.head?.map Task.body).getD .idle }
  | .spurious =>
      (nextPool s.pool (.spurious 0)).map fun pool => { s with pool := pool }
  | .handle env =>
      match s.body with
      | .received msg =>
          (handlers.serve s.world msg env).map fun result =>
            { s with
              world := result.1
              body := .enqueues result.2
              served := s.served ++ [.request msg env] }
      | _ => none
  | .access => s.access
  | .transmit accepted => s.transmit accepted
  | .examine =>
      match s.body with
      | .idle => (nextPool s.pool (.examine 0)).map fun pool => { s with pool := pool }
      | _ => none
  | .leave =>
      (nextPool s.pool (.leave 0 false)).map fun pool => { s with pool := pool }

end Steps

section Queues

variable {s t : State}

theorem stepEnq_spec {peer : Peer} {msg : Marshalled} (h : stepEnq s peer msg = some t) :
    s.cmd = .idle ∧ t.pool = s.pool ∧ t.enqd = s.enqd ∧ inCall t.cmd = [(peer, msg)] := by
  unfold stepEnq at h
  split at h
  · rename_i hidle
    refine ⟨hidle, ?_⟩
    split at h
    · cases h
      exact ⟨rfl, rfl, rfl⟩
    · cases h
      exact ⟨rfl, rfl, rfl⟩
  · cases h

theorem stepCmd_spec (h : stepCmd s = some t) :
    t.pool = s.pool ++ (cmdCall s.cmd).toList ∧
      t.enqd ++ inCall t.cmd = s.enqd ++ inCall s.cmd := by
  unfold stepCmd at h
  cases hcmd : s.cmd with
  | idle =>
      rw [hcmd] at h
      cases h
  | push peer q msg =>
      rw [hcmd] at h
      cases h
      exact ⟨(List.append_nil _).symm, List.append_nil _⟩
  | send peer q msg =>
      rw [hcmd] at h
      cases h
      exact ⟨rfl, rfl⟩
  | put peer q msg =>
      rw [hcmd] at h
      cases h
      exact ⟨(List.append_nil _).symm, List.append_nil _⟩

theorem stepReceipt_spec {index : ℕ} (h : stepReceipt s index = some t) :
    t.pool = s.pool ∧ t.cmd = s.cmd ∧ t.enqd = s.enqd := by
  unfold stepReceipt at h
  split at h
  · cases h
    exact ⟨rfl, rfl, rfl⟩
  · cases h

theorem stepOffline_spec {peer : Peer} (h : stepOffline s peer = some t) :
    t.pool = s.pool ∧ t.cmd = s.cmd ∧ t.enqd = s.enqd := by
  unfold stepOffline at h
  split at h
  · rw [msgqRm] at h
    split at h
    · rename_i hrm
      obtain ⟨-, rfl⟩ := Prod.mk.inj hrm
      cases h
      exact ⟨rfl, rfl, rfl⟩
    · rename_i hrm
      obtain ⟨-, rfl⟩ := Prod.mk.inj hrm
      cases h
      exact ⟨rfl, rfl, rfl⟩
  · cases h

theorem stepCarrier_spec (h : stepCarrier s = some t) :
    t.pool = s.pool ++ (carrierCall s).toList ∧ t.cmd = s.cmd ∧ t.enqd = s.enqd := by
  unfold stepCarrier at h
  unfold carrierCall
  cases hcarrier : s.carrier with
  | idle =>
      rw [hcarrier] at h
      cases h
  | checkDepr q =>
      rw [hcarrier] at h
      cases h
      exact ⟨(List.append_nil _).symm, rfl, rfl⟩
  | pop q =>
      rw [hcarrier] at h
      unfold msgqPopHead at h
      cases hqueue : (s.queue q).q with
      | nil =>
          simp only [hqueue] at h
          cases h
          exact ⟨(List.append_nil _).symm, rfl, rfl⟩
      | cons msg rest =>
          simp only [hqueue] at h
          cases h
          exact ⟨(List.append_nil _).symm, rfl, rfl⟩
  | send q msg =>
      rw [hcarrier] at h
      cases h
      exact ⟨rfl, rfl, rfl⟩
  | rm q =>
      rw [hcarrier] at h
      cases h
      exact ⟨(List.append_nil _).symm, rfl, rfl⟩
  | setDepr q =>
      rw [hcarrier] at h
      cases h
      exact ⟨(List.append_nil _).symm, rfl, rfl⟩

end Queues

end FeedsService.Service
