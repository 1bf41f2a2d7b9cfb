import FeedsService.Service.Threads

/-!
# The threads refine the handlers and the message queues

Each turn of a thread is at most one step of the service without threads, and at most one access
of the model of the message queues.  So what holds in every run of one of them holds whatever the
threads do.
-/

namespace FeedsService.Service

open FeedsService.MsgQueue FeedsService.Runs FeedsService.Utils

section Pool

variable {τ : Type} {pool pool' : ThreadPool τ} {worker : Worker}

/-- The pool of the command handler while the service is up. -/
structure Up (pool : ThreadPool τ) (worker : Worker) : Prop where
  fault : pool.fault = none
  quit : pool.quit = false
  refs : pool.refs = 1
  workers : pool.workers = [worker]
  ordered : Ordered pool

/-- Only the thread has moved on. -/
structure SameTasks (pool pool' : ThreadPool τ) : Prop where
  posted : pool'.posted = pool.posted
  started : pool'.started = pool.started
  taskQueue : pool'.taskQueue = pool.taskQueue

theorem Up.create : Up (ThreadPool.create 1 : ThreadPool τ) .ready :=
  ⟨rfl, rfl, rfl, rfl, ordered_create 0⟩

theorem Up.useCount (h : Up pool worker) : pool.useCount = 1 + worker.holds.toNat := by
  rw [useCount_single h.workers, h.refs]

theorem Up.useCount_pos (h : Up pool worker) : 0 < pool.useCount := by
  rw [h.useCount]
  omega

theorem Up.post (h : Up pool worker) (task : τ) :
    nextPool pool (.post task true) = some (pool.push task).notifyAll ∧
      Up (pool.push task).notifyAll worker.wake := by
  have hposts : nextPool pool (.post task true) = some (pool.push task).notifyAll := by
    rw [nextPool, if_pos ⟨h.fault, h.useCount_pos⟩, if_neg (by rw [h.quit]; decide), if_pos rfl]
  exact ⟨hposts, h.fault, h.quit, h.refs, notifyAll_single h.workers,
    h.ordered.moves h.fault (moves_of_next hposts).2⟩

/-- The thread finds nothing to do or takes the first task. -/
theorem Up.check (h : Up pool worker) (hcheck : nextPool pool (.check 0) = some pool') :
    worker = .ready ∧
      (pool.taskQueue = [] ∧ Up pool' .asleep ∧ SameTasks pool pool' ∨
        ∃ task, Up pool' .processing ∧ pool'.posted = pool.posted ∧
          pool'.started = pool.started ++ [task] ∧ pool.taskQueue = task :: pool'.taskQueue) := by
  have hmoves := (moves_of_next hcheck).2
  have hordered := h.ordered.moves h.fault hmoves
  cases hmoves with
  | exits hworker hquit => exact absurd (h.quit.symm.trans hquit) (by decide)
  | sleeps hworker hquit hqueue =>
      refine ⟨(worker_of_single h.workers hworker).2, Or.inl ⟨hqueue, ?_, rfl, rfl, rfl⟩⟩
      exact ⟨h.fault, h.quit, h.refs, setWorker_single h.workers, hordered⟩
  | throws hworker hquit hqueue huse => exact absurd huse h.useCount_pos.ne'
  | @starts idx task rest hworker hquit hqueue huse =>
      refine ⟨(worker_of_single h.workers hworker).2, Or.inr ⟨task, ?_, rfl, rfl, hqueue⟩⟩
      exact ⟨h.fault, h.quit, h.refs, setWorker_single h.workers, hordered⟩

theorem Up.spurious (h : Up pool worker) (hnext : nextPool pool (.spurious 0) = some pool') :
    worker = .asleep ∧ Up pool' .ready ∧ SameTasks pool pool' := by
  have hmoves := (moves_of_next hnext).2
  have hordered := h.ordered.moves h.fault hmoves
  cases hmoves with
  | wakes hworker =>
      refine ⟨(worker_of_single h.workers hworker).2, ?_, rfl, rfl, rfl⟩
      exact ⟨h.fault, h.quit, h.refs, setWorker_single h.workers, hordered⟩

theorem Up.examine (h : Up pool worker) (hnext : nextPool pool (.examine 0) = some pool') :
    worker = .processing ∧ Up pool' .leaving ∧ SameTasks pool pool' := by
  have hmoves := (moves_of_next hnext).2
  have hordered := h.ordered.moves h.fault hmoves
  cases hmoves with
  | breaks hworker huse =>
      obtain ⟨-, rfl⟩ := worker_of_single h.workers hworker
      exact absurd (h.useCount.symm.trans huse) (by decide)
  | goesOn hworker huse =>
      refine ⟨(worker_of_single h.workers hworker).2, ?_, rfl, rfl, rfl⟩
      exact ⟨h.fault, h.quit, h.refs, setWorker_single h.workers, hordered⟩

theorem Up.leave (h : Up pool worker) (hnext : nextPool pool (.leave 0 false) = some pool') :
    worker = .leaving ∧ Up pool' .ready ∧ SameTasks pool pool' := by
  have hmoves := (moves_of_next hnext).2
  have hordered := h.ordered.moves h.fault hmoves
  cases hmoves with
  | leaves hworker hrefs huse =>
      refine ⟨(worker_of_single h.workers hworker).2, ?_, rfl, rfl, rfl⟩
      exact ⟨h.fault, h.quit, h.refs, setWorker_single h.workers, hordered⟩
  | frees hworker hrefs huse =>
      have hcount := useCount_left false hworker hrefs
      obtain ⟨-, rfl⟩ := worker_of_single h.workers hworker
      rw [huse, h.useCount] at hcount
      exact absurd hcount (by decide)

end Pool

section Simulation

variable {σ ρ ε : Type} {handlers : Handlers σ ρ ε} {world : σ} {s t : Threads σ ρ ε}

/-- The messages that the service has gone through. -/
def Threads.handled (s : Threads σ ρ ε) : List ρ :=
  s.served.filterMap Served.message?

/-- The messages that have arrived and wait for their turn. -/
def Threads.waiting (s : Threads σ ρ ε) : List ρ :=
  s.body.message ++ s.pool.taskQueue.filterMap Task.message?

/-- The access of the message queues that a turn makes. -/
def queueAction (s : Threads σ ρ ε) : Turn ρ ε → Option MsgQueue.Action
  | .receipt index => some (.receipt index)
  | .carrier =>
      match s.deactivated with
      | some peer => some (.offline peer)
      | none => some .carrier
  | .access =>
      if s.msgqs.cmd = .idle then s.body.outs.head?.map fun out => .enq out.1 out.2
      else some .cmd
  | .transmit accepted => some (.task accepted)
  | _ => none

/-- The thread of the pool has a task, and the pool has what the message queues take it to
have. -/
structure Pooled (s : Threads σ ρ ε) : Prop where
  up : ∃ worker, Up s.pool worker ∧ (s.body ≠ .idle → worker = .processing)
  arrived : s.pool.posted.filterMap Task.message? = s.arrived
  begun : s.pool.started.filterMap Task.message? = s.handled ++ s.body.message
  calls : s.msgqs.pool = s.body.calls ++ s.pool.taskQueue.filterMap Task.call?
  busy : s.msgqs.cmd ≠ .idle → ∃ outs, s.body = .enqueues outs

/-- What the service without threads answers to what has been served is in the message queues,
but for what the handler that is running still has to put there. -/
structure Answered (handlers : Handlers σ ρ ε) (world : σ) (s : Threads σ ρ ε)
    (answers : List (Peer × Marshalled)) : Prop where
  run : Run (Performs handlers.nextServed) (world, []) s.served (s.world, answers)
  enqd : s.msgqs.enqd ++ inCall s.msgqs.cmd ++ s.body.outs = answers

/-- What a turn does to the message queues. -/
inductive QueueTurn (s : Threads σ ρ ε) (turn : Turn ρ ε) (t : Threads σ ρ ε) : Prop
  | stays (hsame : t.msgqs = s.msgqs)
  | moves (action : MsgQueue.Action) (haction : queueAction s turn = some action)
      (hstep : MsgQueue.Step s.msgqs action t.msgqs)

theorem Pooled.start (world : σ) : Pooled (.start world : Threads σ ρ ε) where
  up := ⟨.ready, .create, fun hbody => absurd rfl hbody⟩
  arrived := rfl
  begun := rfl
  calls := rfl
  busy hcmd := absurd rfl hcmd

theorem Answered.start (handlers : Handlers σ ρ ε) (world : σ) :
    Answered handlers world (.start world) [] :=
  ⟨.nil _, rfl⟩

/-- Each message waits until it is handled, in its place. -/
theorem Pooled.arrived_eq (h : Pooled s) : s.arrived = s.handled ++ s.waiting := by
  obtain ⟨worker, hup, -⟩ := h.up
  have hqueued := hup.ordered.queued hup.quit hup.fault
  rw [← h.arrived, hqueued, List.filterMap_append, h.begun, Threads.waiting, List.append_assoc]

theorem Pooled.cmd_idle (h : Pooled s) (hbody : ∀ outs, s.body ≠ .enqueues outs) :
    s.msgqs.cmd = .idle := by
  by_contra hcmd
  obtain ⟨outs, heq⟩ := h.busy hcmd
  exact hbody outs heq

/-- Only the thread has moved on, and it has nothing to do. -/
theorem Pooled.moved (h : Pooled s) {pool : ThreadPool (Task ρ)} {worker : Worker}
    (hup : Up pool worker) (hsame : SameTasks s.pool pool) (hbody : s.body = .idle) :
    Pooled { s with pool := pool } where
  up := ⟨worker, hup, fun hne => absurd hbody hne⟩
  arrived := hsame.posted ▸ h.arrived
  begun := hsame.started ▸ h.begun
  calls := hsame.taskQueue ▸ h.calls
  busy := h.busy

theorem Pooled.body_idle (h : Pooled s) {worker : Worker} (hworkers : s.pool.workers = [worker])
    (hworker : worker ≠ .processing) : s.body = .idle := by
  obtain ⟨other, hup, hbody⟩ := h.up
  have heq : other = worker := List.singleton_inj.mp (hup.workers.symm.trans hworkers)
  by_contra hne
  exact hworker (heq ▸ hbody hne)

theorem Pooled.receives (h : Pooled s) {msg : ρ} {pool : ThreadPool (Task ρ)}
    (hpost : nextPool s.pool (.post (.received msg) true) = some pool) :
    Pooled { s with pool := pool, arrived := s.arrived ++ [msg] } := by
  obtain ⟨worker, hup, hbody⟩ := h.up
  obtain ⟨hposts, hup'⟩ := hup.post (.received msg)
  cases hposts.symm.trans hpost
  exact
    { up := ⟨_, hup', fun hne => by rw [hbody hne]; rfl⟩
      arrived := by
        rw [← h.arrived]
        exact List.filterMap_append
      begun := h.begun
      calls := by
        rw [h.calls]
        have hcalls : (s.pool.taskQueue ++ [Task.received msg]).filterMap Task.call? =
            s.pool.taskQueue.filterMap Task.call? := by
          rw [List.filterMap_append]
          exact List.append_nil _
        exact congrArg (s.body.calls ++ ·) hcalls.symm
      busy := h.busy }

/-- What a call of `CommandHandler::send` does to the pool. -/
structure PostsCall (s : Threads σ ρ ε) (call : Option SendTask) (pool : ThreadPool (Task ρ)) :
    Prop where
  up : ∃ worker, Up pool worker ∧ (s.body ≠ .idle → worker = .processing)
  posted : pool.posted.filterMap Task.message? = s.pool.posted.filterMap Task.message?
  started : pool.started = s.pool.started
  calls : pool.taskQueue.filterMap Task.call? =
    s.pool.taskQueue.filterMap Task.call? ++ call.toList

theorem Pooled.post (h : Pooled s) {call : Option SendTask} {pool : ThreadPool (Task ρ)}
    (hpost : s.post call = some pool) : PostsCall s call pool := by
  cases call with
  | none =>
      cases hpost
      exact ⟨h.up, rfl, rfl, (List.append_nil _).symm⟩
  | some call =>
      obtain ⟨worker, hup, hbody⟩ := h.up
      obtain ⟨hposts, hup'⟩ := hup.post (.send call)
      cases hposts.symm.trans hpost
      refine ⟨⟨_, hup', fun hne => by rw [hbody hne]; rfl⟩, ?_, rfl, List.filterMap_append⟩
      exact List.filterMap_append.trans (List.append_nil _)

/-- An access of the message queues with the call that it posts, while the handler goes on with
the messages that are left. -/
theorem Pooled.accessed (h : Pooled s) {call : Option SendTask} {pool : ThreadPool (Task ρ)}
    {msgqs : State} (hpost : PostsCall s call pool)
    (hpool : msgqs.pool = s.msgqs.pool ++ call.toList)
    (hbusy : msgqs.cmd ≠ .idle → ∃ outs, s.body = .enqueues outs) :
    Pooled { s with pool := pool, msgqs := msgqs } where
  up := hpost.up
  arrived := hpost.posted.trans h.arrived
  begun := hpost.started ▸ h.begun
  calls := by
    rw [hpool, h.calls, List.append_assoc, ← hpost.calls]
  busy := hbusy

theorem Pooled.check (h : Pooled s) {pool : ThreadPool (Task ρ)}
    (hcheck : nextPool s.pool (.check 0) = some pool) :
    Pooled { s with pool := pool, body := (s.pool.taskQueue.head?.map Task.body).getD .idle } := by
  obtain ⟨worker, hup, hbody⟩ := h.up
  obtain ⟨rfl, ⟨hqueue, hup', hsame⟩ | ⟨task, hup', hposted, hstarted, hqueue⟩⟩ := hup.check hcheck
  · have hidle := h.body_idle hup.workers (by decide)
    rw [hqueue]
    have hmoved := h.moved hup' hsame hidle
    exact
      { up := ⟨_, hup', fun hne => absurd rfl hne⟩
        arrived := hmoved.arrived
        begun := by rw [hmoved.begun, hidle]; rfl
        calls := by rw [hmoved.calls, hidle]; rfl
        busy := fun hcmd => absurd (h.cmd_idle fun outs heq => by cases hidle.symm.trans heq) hcmd }
  · have hidle := h.body_idle hup.workers (by decide)
    have hcmd := h.cmd_idle fun outs heq => by cases hidle.symm.trans heq
    have hbegun := h.begun
    have hcalls := h.calls
    rw [hidle] at hbegun hcalls
    rw [hqueue] at hcalls ⊢
    exact
      { up := ⟨_, hup', fun _ => rfl⟩
        arrived := hposted ▸ h.arrived
        begun := by
          rw [hstarted, List.filterMap_append, hbegun]
          cases task <;> simp [Body.message, Task.message?, Task.body, Threads.handled]
        calls := by
          rw [hcalls]
          cases task <;> rfl
        busy := fun hne => absurd hcmd hne }

/-- A handler changes the world. -/
theorem Pooled.handle (h : Pooled s) {msg : ρ} (hbody : s.body = .received msg) (env : ε)
    (result : σ × List (Peer × Marshalled)) :
    Pooled { s with
      world := result.1
      body := .enqueues result.2
      served := s.served ++ [.request msg env] } where
  up := by
    obtain ⟨worker, hup, hprocessing⟩ := h.up
    exact ⟨worker, hup, fun _ => hprocessing fun heq => by cases hbody.symm.trans heq⟩
  arrived := h.arrived
  begun := by
    rw [h.begun, hbody, Threads.handled, Threads.handled, List.filterMap_append]
    exact (List.append_nil _).symm
  calls := by
    rw [h.calls, hbody]
    rfl
  busy _ := ⟨_, rfl⟩

/-- A call of `carrier_send_friend_message` is the first one that the message queues wait for. -/
theorem Pooled.transmit (h : Pooled s) {accepted : Bool}
    (htransmit : s.transmit accepted = some t) :
    Pooled t ∧ MsgQueue.Step s.msgqs (.task accepted) t.msgqs := by
  unfold Threads.transmit at htransmit
  split at htransmit
  · rename_i call hbody
    cases htransmit
    have hcalls := h.calls
    rw [hbody, Body.calls, List.singleton_append] at hcalls
    have hcmd := h.cmd_idle fun outs heq => by cases hbody.symm.trans heq
    obtain ⟨worker, hup, -⟩ := h.up
    constructor
    · exact
        { up := ⟨worker, hup, fun hne => absurd rfl hne⟩
          arrived := h.arrived
          begun := by
            rw [h.begun, hbody]
            rfl
          calls := by
            rw [hcalls]
            rfl
          busy := fun hne => absurd hcmd hne }
    · rw [MsgQueue.Step, Performs, MsgQueue.next, stepTask, hcmd]
      dsimp only
      rw [runSendTask, hcalls]
      rfl
  · cases htransmit

/-- An access of `msgq_enq`, or the end of the handler. -/
theorem Pooled.access (h : Pooled s) (haccess : s.access = some t) :
    Pooled t ∧ QueueTurn s .access t ∧ t.served = s.served ∧ t.world = s.world ∧
      t.msgqs.enqd ++ inCall t.msgqs.cmd ++ t.body.outs =
        s.msgqs.enqd ++ inCall s.msgqs.cmd ++ s.body.outs := by
  unfold Threads.access at haccess
  split at haccess
  · rename_i outs hbody
    have hprocessing : ∃ worker, Up s.pool worker ∧ worker = .processing := by
      obtain ⟨worker, hup, hprocessing⟩ := h.up
      exact ⟨worker, hup, hprocessing fun heq => by cases hbody.symm.trans heq⟩
    have hbegun := h.begun
    have hcalls := h.calls
    rw [hbody] at hbegun hcalls ⊢
    split at haccess
    · rename_i hidle
      obtain ⟨worker, hup, hworker⟩ := hprocessing
      split at haccess
      · cases haccess
        refine ⟨?_, .stays rfl, rfl, rfl, rfl⟩
        exact ⟨⟨worker, hup, fun _ => hworker⟩, h.arrived, hbegun, hcalls,
          fun hne => absurd hidle hne⟩
      · rename_i peer msg rest
        obtain ⟨msgqs, henq, rfl⟩ := Option.map_eq_some_iff.mp haccess
        obtain ⟨-, hpool, henqd, hcall⟩ := stepEnq_spec henq
        refine ⟨?_, ?_, rfl, rfl, ?_⟩
        · exact ⟨⟨worker, hup, fun _ => hworker⟩, h.arrived, hbegun, hpool ▸ hcalls,
            fun _ => ⟨_, rfl⟩⟩
        · refine .moves (.enq peer msg) ?_ henq
          rw [queueAction, if_pos hidle, hbody]
          rfl
        · dsimp only
          rw [henqd, hcall, hidle]
          simp [inCall, Body.outs]
    · rename_i hcmd
      obtain ⟨pool, hpost, haccess⟩ := Option.bind_eq_some_iff.mp haccess
      obtain ⟨msgqs, hstep, rfl⟩ := Option.map_eq_some_iff.mp haccess
      obtain ⟨hpool, henqd⟩ := stepCmd_spec hstep
      refine ⟨?_, ?_, rfl, rfl, ?_⟩
      · exact h.accessed (h.post hpost) hpool fun _ => ⟨_, hbody⟩
      · refine .moves .cmd ?_ hstep
        rw [queueAction, if_neg hcmd]
      · dsimp only
        rw [henqd, hbody]
  · cases haccess

/-- An access of a callback of Carrier's thread. -/
theorem Pooled.carrierAccess (h : Pooled s) (haccess : s.carrierAccess = some t) :
    Pooled t ∧ QueueTurn s .carrier t ∧ t.served = s.served ∧ t.world = s.world ∧
      t.body = s.body ∧ t.msgqs.cmd = s.msgqs.cmd ∧ t.msgqs.enqd = s.msgqs.enqd := by
  unfold Threads.carrierAccess at haccess
  split at haccess
  · rename_i peer hpeer
    obtain ⟨msgqs, hstep, rfl⟩ := Option.map_eq_some_iff.mp haccess
    obtain ⟨hpool, hcmd, henqd⟩ := stepOffline_spec hstep
    refine ⟨?_, ?_, rfl, rfl, rfl, hcmd, henqd⟩
    · exact ⟨h.up, h.arrived, h.begun, hpool.trans h.calls, fun hne => h.busy (hcmd ▸ hne)⟩
    · exact .moves (.offline peer) (by rw [queueAction, hpeer]) hstep
  · rename_i hnone
    obtain ⟨pool, hpost, haccess⟩ := Option.bind_eq_some_iff.mp haccess
    obtain ⟨msgqs, hstep, rfl⟩ := Option.map_eq_some_iff.mp haccess
    obtain ⟨hpool, hcmd, henqd⟩ := stepCarrier_spec hstep
    refine ⟨?_, ?_, rfl, rfl, rfl, hcmd, henqd⟩
    · exact h.accessed (h.post hpost) hpool fun hne => h.busy (hcmd ▸ hne)
    · exact .moves .carrier (by rw [queueAction, hnone]) hstep

/-- What a turn does. -/
structure Turned (handlers : Handlers σ ρ ε) (s : Threads σ ρ ε) (turn : Turn ρ ε)
    (t : Threads σ ρ ε) : Prop where
  pooled : Pooled t
  queue : QueueTurn s turn t
  served : ∃ new, t.served = s.served ++ new ∧ ∀ answers, ∃ later,
    Run (Performs handlers.nextServed) (s.world, answers) new (t.world, answers ++ later) ∧
      t.msgqs.enqd ++ inCall t.msgqs.cmd ++ t.body.outs =
        s.msgqs.enqd ++ inCall s.msgqs.cmd ++ s.body.outs ++ later

/-- A turn that serves nothing. -/
theorem Turned.silent (hpooled : Pooled t) {turn : Turn ρ ε} (hqueue : QueueTurn s turn t)
    (hserved : t.served = s.served) (hworld : t.world = s.world)
    (henqd : t.msgqs.enqd ++ inCall t.msgqs.cmd ++ t.body.outs =
      s.msgqs.enqd ++ inCall s.msgqs.cmd ++ s.body.outs) : Turned handlers s turn t where
  pooled := hpooled
  queue := hqueue
  served := by
    refine ⟨[], by rw [hserved, List.append_nil], fun answers => ⟨[], ?_, ?_⟩⟩
    · rw [hworld, List.append_nil]
      exact .nil _
    · rw [henqd, List.append_nil]

/-- Carrier's thread changes the world, which is no message. -/
theorem Pooled.changed (h : Pooled s) {served : Served ρ ε} (hserved : served.message? = none)
    (world : σ) (deactivated : Option Peer) :
    Pooled { s with
      world := world
      deactivated := deactivated
      served := s.served ++ [served] } where
  up := h.up
  arrived := h.arrived
  begun := by
    rw [h.begun, Threads.handled, Threads.handled, List.filterMap_append,
      List.filterMap_cons_none hserved, List.filterMap_nil]
    exact congrArg (· ++ _) (List.append_nil _).symm
  calls := h.calls
  busy := h.busy

theorem Pooled.next (h : Pooled s) {turn : Turn ρ ε}
    (hstep : nextThreads handlers s turn = some t) : Turned handlers s turn t := by
  cases turn with
  | receives msg =>
      obtain ⟨-, hstep⟩ := Option.ite_none_right_eq_some.mp hstep
      obtain ⟨pool, hpost, rfl⟩ := Option.map_eq_some_iff.mp hstep
      exact .silent (h.receives hpost) (.stays rfl) rfl rfl rfl
  | receipt index =>
      obtain ⟨-, hstep⟩ := Option.ite_none_right_eq_some.mp hstep
      obtain ⟨msgqs, hreceipt, rfl⟩ := Option.map_eq_some_iff.mp hstep
      obtain ⟨hpool, hcmd, henqd⟩ := stepReceipt_spec hreceipt
      refine .silent ?_ (.moves _ rfl hreceipt) rfl rfl (by dsimp only; rw [hcmd, henqd])
      exact ⟨h.up, h.arrived, h.begun, hpool.trans h.calls, fun hne => h.busy (hcmd ▸ hne)⟩
  | offline peer =>
      obtain ⟨-, hstep⟩ := Option.ite_none_right_eq_some.mp hstep
      cases hstep
      refine ⟨h.changed rfl _ _, .stays rfl, _, rfl,
        fun answers => ⟨[], ?_, (List.append_nil _).symm⟩⟩
      rw [List.append_nil]
      exact .single rfl
  | expire now =>
      obtain ⟨-, hstep⟩ := Option.ite_none_right_eq_some.mp hstep
      cases hstep
      refine ⟨h.changed rfl _ _, .stays rfl, _, rfl,
        fun answers => ⟨[], ?_, (List.append_nil _).symm⟩⟩
      rw [List.append_nil]
      exact .single rfl
  | carrier =>
      obtain ⟨hpooled, hqueue, hserved, hworld, hbody, hcmd, henqd⟩ := h.carrierAccess hstep
      exact .silent hpooled hqueue hserved hworld (by rw [hbody, hcmd, henqd])
  | check =>
      obtain ⟨pool, hcheck, rfl⟩ := Option.map_eq_some_iff.mp hstep
      refine .silent (h.check hcheck) (.stays rfl) rfl rfl ?_
      obtain ⟨worker, hup, -⟩ := h.up
      obtain ⟨rfl, -⟩ := hup.check hcheck
      have hidle := h.body_idle hup.workers (by decide)
      rw [hidle]
      cases s.pool.taskQueue with
      | nil => rfl
      | cons task rest => cases task <;> rfl
  | spurious =>
      obtain ⟨pool, hnext, rfl⟩ := Option.map_eq_some_iff.mp hstep
      obtain ⟨worker, hup, -⟩ := h.up
      obtain ⟨rfl, hup', hsame⟩ := hup.spurious hnext
      exact .silent (h.moved hup' hsame (h.body_idle hup.workers (by decide))) (.stays rfl) rfl rfl
        rfl
  | handle env =>
      rw [nextThreads] at hstep
      split at hstep
      · rename_i msg hbody
        obtain ⟨result, hserve, rfl⟩ := Option.map_eq_some_iff.mp hstep
        refine ⟨h.handle hbody env result, .stays rfl, _, rfl, fun answers => ⟨result.2, ?_, ?_⟩⟩
        · refine .single ?_
          rw [Performs, Handlers.nextServed, hserve]
          rfl
        · rw [hbody]
          simp [Body.outs]
      · cases hstep
  | access =>
      obtain ⟨hpooled, hqueue, hserved, hworld, henqd⟩ := h.access hstep
      exact .silent hpooled hqueue hserved hworld henqd
  | transmit accepted =>
      obtain ⟨hpooled, htask⟩ := h.transmit hstep
      have htransmit : s.transmit accepted = some t := hstep
      unfold Threads.transmit at htransmit
      split at htransmit
      · rename_i call hbody
        cases htransmit
        exact .silent hpooled (.moves _ rfl htask) rfl rfl (by rw [hbody]; rfl)
      · cases htransmit
  | examine =>
      rw [nextThreads] at hstep
      split at hstep
      · rename_i hidle
        obtain ⟨pool, hnext, rfl⟩ := Option.map_eq_some_iff.mp hstep
        obtain ⟨worker, hup, -⟩ := h.up
        obtain ⟨-, hup', hsame⟩ := hup.examine hnext
        exact .silent (h.moved hup' hsame hidle) (.stays rfl) rfl rfl rfl
      · cases hstep
  | leave =>
      obtain ⟨pool, hnext, rfl⟩ := Option.map_eq_some_iff.mp hstep
      obtain ⟨worker, hup, -⟩ := h.up
      obtain ⟨rfl, hup', hsame⟩ := hup.leave hnext
      exact .silent (h.moved hup' hsame (h.body_idle hup.workers (by decide))) (.stays rfl) rfl rfl
        rfl

theorem Answered.turned {answers : List (Peer × Marshalled)}
    (h : Answered handlers world s answers) {turn : Turn ρ ε} (hturned : Turned handlers s turn t) :
    ∃ answers', Answered handlers world t answers' := by
  obtain ⟨new, hserved, hrun⟩ := hturned.served
  obtain ⟨later, hlater, henqd⟩ := hrun answers
  refine ⟨answers ++ later, ?_, henqd.trans (congrArg (· ++ later) h.enqd)⟩
  rw [hserved]
  exact h.run.append hlater

end Simulation

section Runs

variable {σ ρ ε : Type}

/-- The state of the threads stands for a state of the service without threads and for one of the
message queues. -/
structure Simulates (handlers : Handlers σ ρ ε) (world : σ) (s : Threads σ ρ ε) : Prop where
  pooled : Pooled s
  answered : ∃ answers, Answered handlers world s answers
  queue : ∃ actions, Run MsgQueue.Step .init actions s.msgqs

theorem Simulates.start (handlers : Handlers σ ρ ε) (world : σ) :
    Simulates handlers world (.start world) :=
  ⟨.start world, ⟨[], .start handlers world⟩, [], .nil _⟩

theorem Simulates.next {handlers : Handlers σ ρ ε} {world : σ} {s t : Threads σ ρ ε}
    (h : Simulates handlers world s) {turn : Turn ρ ε}
    (hstep : nextThreads handlers s turn = some t) : Simulates handlers world t := by
  have hturned := h.pooled.next hstep
  obtain ⟨answers, hanswered⟩ := h.answered
  refine ⟨hturned.pooled, hanswered.turned hturned, ?_⟩
  obtain ⟨actions, hrun⟩ := h.queue
  cases hturned.queue with
  | stays hsame => exact ⟨actions, hsame ▸ hrun⟩
  | moves action haction haccess => exact ⟨actions ++ [action], hrun.append (.single haccess)⟩

/-- However the threads take turns, the service has gone through the messages in the order in
which they arrived, each of them once, all but those that still wait; it is where the service
without threads gets that way, with the answers of that service in the message queues; and the
message queues are where their own model can get. -/
theorem simulates_always (handlers : Handlers σ ρ ε) (world : σ) (turns : List (Turn ρ ε)) :
    Always (Performs (nextThreads handlers))
      (fun s => s.arrived = s.handled ++ s.waiting ∧
        (∃ answers, Run (Performs handlers.nextServed) (world, []) s.served (s.world, answers) ∧
          s.msgqs.enqd ++ inCall s.msgqs.cmd ++ s.body.outs = answers) ∧
        ∃ actions, Run MsgQueue.Step .init actions s.msgqs)
      (.start world) turns := by
  have hsimulates := @always_of_preserved _ _ (Performs (nextThreads handlers))
    (Simulates handlers world) (fun _ _ _ h hstep => h.next hstep) _ (.start handlers world) turns
  refine hsimulates.mono fun s h => ⟨h.pooled.arrived_eq, ?_, h.queue⟩
  obtain ⟨answers, hanswered⟩ := h.answered
  exact ⟨answers, hanswered.run, hanswered.enqd⟩

end Runs

end FeedsService.Service
