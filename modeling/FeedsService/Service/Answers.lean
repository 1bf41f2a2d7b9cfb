import FeedsService.MsgQueue.Delivery
import FeedsService.Service.Refinement

/-!
# The way of an answer

From the message that arrives to the call of `carrier_send_friend_message` with its answer, in
runs where the message queues are not caught between the last receipt and a push.
-/

namespace FeedsService.Service

open FeedsService.MsgQueue FeedsService.Runs FeedsService.Utils

variable {σ ρ ε : Type}

/-- The condition on a turn: the access of the message queues that it makes is orderly, and no
peer goes offline. -/
def Smooth (s : Threads σ ρ ε) (turn : Turn ρ ε) (t : Threads σ ρ ε) : Prop :=
  ∀ action ∈ queueAction s turn, Online action ∧ Orderly s.msgqs action t.msgqs

instance : DecidablePred Online
  | .offline _ => isFalse id
  | .enq _ _ | .cmd | .task _ | .receipt _ | .carrier => isTrue trivial

instance (s : Threads σ ρ ε) (turn : Turn ρ ε) (t : Threads σ ρ ε) : Decidable (Smooth s turn t) :=
  inferInstanceAs (Decidable (∀ action ∈ _, Online action ∧ Orderly s.msgqs action t.msgqs))

/-- No task and no callback is under way, and no receipt is to come. -/
structure Threads.Quiet (s : Threads σ ρ ε) : Prop where
  taskQueue : s.pool.taskQueue = []
  body : s.body = .idle
  carrier : s.msgqs.carrier = .idle
  flight : s.msgqs.flight = []

theorem Threads.Quiet.waiting {s : Threads σ ρ ε} (h : s.Quiet) : s.waiting = [] := by
  rw [Threads.waiting, h.taskQueue, h.body]
  rfl

theorem Pooled.quiescent {s : Threads σ ρ ε} (h : Pooled s) (hquiet : s.Quiet) :
    Quiescent s.msgqs := by
  have hcmd := h.cmd_idle fun outs heq => by cases hquiet.body.symm.trans heq
  have hpool : s.msgqs.pool = [] := by
    rw [h.calls, hquiet.taskQueue, hquiet.body]
    rfl
  exact (quiescent_iff _).mpr ⟨hcmd, hquiet.carrier, hpool, hquiet.flight⟩

theorem toPeer_mono {log more : List (Peer × Marshalled)} (h : log <+: more) (peer : Peer) :
    toPeer peer log <+: toPeer peer more := by
  obtain ⟨rest, rfl⟩ := h
  rw [toPeer_append]
  exact List.prefix_append _ _

/-- The message queues keep their promises. -/
structure Delivering (handlers : Handlers σ ρ ε) (world : σ) (s : Threads σ ρ ε) : Prop where
  simulates : Simulates handlers world s
  inv : Inv s.msgqs

theorem Delivering.next {handlers : Handlers σ ρ ε} {world : σ} {s t : Threads σ ρ ε}
    (h : Delivering handlers world s) {turn : Turn ρ ε}
    (hstep : nextThreads handlers s turn = some t) (hsmooth : Smooth s turn t) :
    Delivering handlers world t := by
  refine ⟨h.simulates.next hstep, ?_⟩
  cases (h.simulates.pooled.next hstep).queue with
  | stays hsame => exact hsame ▸ h.inv
  | moves action haction haccess => exact inv_step _ _ _ h.inv haccess (hsmooth action haction)

/-- As long as no peer goes offline, a send is refused only when it is the last one for its peer,
and the message queues are not caught, what is handed to Carrier for a peer, the refused send
included, is, in every state, a beginning of what the service without threads answers that peer to
the messages in the order in which they arrived, each answer once; and when nothing is under way
any more, it is all of it, for all the messages. -/
theorem answers_delivered (handlers : Handlers σ ρ ε) (world : σ) (turns : List (Turn ρ ε))
    (hsmooth : EachStep (Performs (nextThreads handlers)) Smooth (.start world) turns) :
    Always (Performs (nextThreads handlers))
      (fun s => ∃ answers,
        Run (Performs handlers.nextServed) (world, []) s.served (s.world, answers) ∧
          (∀ peer, toPeer peer s.msgqs.handed <+: toPeer peer answers) ∧
          (s.Quiet → s.handled = s.arrived ∧
            ∀ peer, toPeer peer s.msgqs.handed = toPeer peer answers))
      (.start world) turns := by
  have hstart : Delivering handlers world (.start world) := ⟨.start handlers world, inv_init⟩
  have halways : Always (Performs (nextThreads handlers)) (Delivering handlers world) (.start world)
      turns :=
    always_of_eachStep (fun _ _ _ h hstep hsmooth => h.next hstep hsmooth) hstart hsmooth
  refine halways.mono fun s h => ?_
  obtain ⟨answers, hanswered⟩ := h.simulates.answered
  have henqd : s.msgqs.enqd <+: answers := by
    rw [← hanswered.enqd, List.append_assoc]
    exact List.prefix_append _ _
  refine ⟨answers, hanswered.run, fun peer => ?_, fun hquiet => ⟨?_, fun peer => ?_⟩⟩
  · exact (h.inv.ordered peer).trans (toPeer_mono henqd peer)
  · rw [h.simulates.pooled.arrived_eq, hquiet.waiting, List.append_nil]
  · have hquiescent := h.simulates.pooled.quiescent hquiet
    rw [h.inv.once hquiescent, ← hanswered.enqd, ((quiescent_iff _).mp hquiescent).1, hquiet.body]
    simp [inCall, Body.outs]

/-- Two messages of one peer, the second of which arrives while the first is handled. -/
theorem answers_delivered_echo :
    let echo : Handlers ℕ Marshalled Unit :=
      ⟨fun count msg _ => some (count + 1, [("alice", msg)]), fun count _ => count,
        fun count _ => count⟩
    let turns : List (Turn Marshalled Unit) :=
      [.receives [1], .check, .handle (), .receives [2], .access, .access, .access, .access,
        .examine, .leave, .check, .handle (), .access, .access, .access, .examine, .leave, .check,
        .transmit true, .receipt 0, .carrier, .carrier, .carrier, .examine, .leave, .check,
        .transmit true]
    Always (Performs (nextThreads echo))
      (fun s => ∃ answers, Run (Performs echo.nextServed) (0, []) s.served (s.world, answers) ∧
        (∀ peer, toPeer peer s.msgqs.handed <+: toPeer peer answers) ∧
        (s.Quiet → s.handled = s.arrived ∧
          ∀ peer, toPeer peer s.msgqs.handed = toPeer peer answers))
      (.start 0) turns := by
  intro echo turns
  exact answers_delivered echo 0 turns (by decide)

/-- The first of these turns, up to the call for the first message. -/
example :
    let echo : Handlers ℕ Marshalled Unit :=
      ⟨fun count msg _ => some (count + 1, [("alice", msg)]), fun count _ => count,
        fun count _ => count⟩
    (exec (nextThreads echo) (.start 0) [.receives [1], .check, .handle (), .access, .access,
      .access, .access, .examine, .leave, .check, .transmit true]).map (fun s => s.msgqs.handed) =
        some [("alice", [1])] := by
  decide

end FeedsService.Service
