import FeedsService.MsgQueue.Model
import Mathlib.Data.List.Perm.Basic
import Mathlib.Data.List.Nodup

/-!
# Whole operations and the outstanding message of a queue

Here `msgq_enq`, `on_msg_receipt`, `msgq_peer_offline` and a posted send run to
their end before the next one starts.  Each whole operation is a run of the
locked accesses it is made of.  A registered queue is drained by receipts only,
so it must always have one message outstanding.
-/

namespace FeedsService.MsgQueue

open FeedsService.Runs

def msgqEnq (s : State) (peer : Peer) (msg : Marshalled) : State :=
  match msgqGet s peer with
  | some q =>
      { msgqPushTail s q msg with enqd := s.enqd ++ [(peer, msg)] }
  | none =>
      let (q, t) := msgqCreate s peer
      { msgqPut (commandHandlerSend t peer msg q) q with
        enqd := s.enqd ++ [(peer, msg)] }

def onMsgReceipt (s : State) (q : QRef) : State :=
  if (s.queue q).depr then
    s
  else
    match msgqPopHead s q with
    | (none, t) => (msgqRm t (t.queue q).peer).2
    | (some m, t) => commandHandlerSend t (t.queue q).peer m q

def msgqPeerOffline (s : State) (peer : Peer) : State :=
  match msgqRm s peer with
  | (some q, t) =>
      { t with
        queue := Function.update t.queue q { t.queue q with depr := true } }
  | (none, t) => t

inductive Operation
  | enq (peer : Peer) (msg : Marshalled)
  | receipt (index : ℕ)
  | peerOffline (peer : Peer)
  | sendAttempt (accepted : Bool)
  deriving DecidableEq

/-- The receipt callback for one of the accepted messages. -/
def receiptOf (s : State) (index : ℕ) : Option State :=
  (s.flight[index]?).map fun task =>
    onMsgReceipt { s with flight := s.flight.eraseIdx index } task.receiptContext

def nextOperation (s : State) : Operation → Option State
  | .enq peer msg => some (msgqEnq s peer msg)
  | .receipt index => receiptOf s index
  | .peerOffline peer => some (msgqPeerOffline s peer)
  | .sendAttempt accepted => runSendTask s accepted

abbrev OperationStep : State → Operation → State → Prop :=
  Performs nextOperation

/-- Neither thread is inside an operation. -/
def Between (s : State) : Prop :=
  s.cmd = .idle ∧ s.carrier = .idle

section Accesses

variable {s : State}

theorem run_msgqEnq (hs : Between s) (peer : Peer) (msg : Marshalled) :
    ∃ as, Run Step s (.enq peer msg :: as) (msgqEnq s peer msg) := by
  obtain ⟨hcmd, hcarrier⟩ := hs
  cases hget : msgqGet s peer with
  | some q =>
      refine ⟨[.cmd], run_of_exec ?_⟩
      simp only [exec, next, stepEnq, stepCmd, hcmd, hget, Option.bind_some,
        msgqEnq, msgqPushTail]
  | none =>
      refine ⟨[.cmd, .cmd], run_of_exec ?_⟩
      simp only [exec, next, stepEnq, stepCmd, hcmd, hget, Option.bind_some,
        msgqEnq, msgqCreate, msgqPut, commandHandlerSend]

theorem run_receiptOf (hs : Between s) {index : ℕ} {t : State}
    (hreceipt : receiptOf s index = some t) :
    ∃ as, Run Step s (.receipt index :: as) t := by
  obtain ⟨hcmd, hcarrier⟩ := hs
  obtain ⟨task, htask, rfl⟩ := Option.map_eq_some_iff.mp hreceipt
  cases hdepr : (s.queue task.receiptContext).depr with
  | true =>
      refine ⟨[.carrier], run_of_exec ?_⟩
      simp [exec, next, stepReceipt, stepCarrier, hcarrier, htask, hdepr,
        onMsgReceipt]
  | false =>
      refine ⟨[.carrier, .carrier, .carrier], run_of_exec ?_⟩
      cases hqueue : (s.queue task.receiptContext).q with
      | nil =>
          simp [exec, next, stepReceipt, stepCarrier, hcarrier, htask, hdepr,
            onMsgReceipt, msgqPopHead, hqueue, msgqRm]
      | cons m rest =>
          simp [exec, next, stepReceipt, stepCarrier, hcarrier, htask, hdepr,
            onMsgReceipt, msgqPopHead, hqueue, commandHandlerSend]

theorem run_msgqPeerOffline (hs : Between s) (peer : Peer) :
    ∃ as, Run Step s (.offline peer :: as) (msgqPeerOffline s peer) := by
  obtain ⟨hcmd, hcarrier⟩ := hs
  cases hget : s.msgqs peer with
  | some q =>
      refine ⟨[.carrier], run_of_exec ?_⟩
      simp [exec, next, stepOffline, stepCarrier, hcarrier, msgqRm, hget,
        msgqPeerOffline]
  | none =>
      refine ⟨[], run_of_exec ?_⟩
      simp [exec, next, stepOffline, hcarrier, msgqRm, hget, msgqPeerOffline]

theorem between_nextOperation (hs : Between s) {op : Operation} {t : State}
    (hstep : OperationStep s op t) : Between t := by
  cases op with
  | enq peer msg =>
      cases hstep
      unfold msgqEnq
      split <;> exact hs
  | receipt index =>
      obtain ⟨task, -, rfl⟩ := Option.map_eq_some_iff.mp hstep
      unfold onMsgReceipt
      split
      · exact hs
      · split <;> rename_i hpop <;> unfold msgqPopHead at hpop <;>
          split at hpop <;> cases hpop <;> exact hs
  | peerOffline peer =>
      cases hstep
      cases hget : s.msgqs peer <;>
        simpa [Between, msgqPeerOffline, msgqRm, hget] using hs
  | sendAttempt accepted =>
      simp only [Performs, nextOperation, runSendTask] at hstep
      split at hstep
      · cases hstep
      · cases hstep
        exact hs

/-- A whole operation is a run of locked accesses. -/
theorem run_of_operation (hs : Between s) {op : Operation} {t : State}
    (hstep : OperationStep s op t) : ∃ as, Run Step s as t := by
  cases op with
  | enq peer msg =>
      cases hstep
      exact ⟨_, (run_msgqEnq hs peer msg).choose_spec⟩
  | receipt index => exact ⟨_, (run_receiptOf hs hstep).choose_spec⟩
  | peerOffline peer =>
      cases hstep
      exact ⟨_, (run_msgqPeerOffline hs peer).choose_spec⟩
  | sendAttempt accepted =>
      refine ⟨[.task accepted], Run.single ?_⟩
      simp only [Performs, next, stepTask, hs.1]
      exact hstep

end Accesses

/-- A run of whole operations is a run of locked accesses. -/
theorem run_of_operations {s t : State} {ops : List Operation}
    (hs : Between s) (hrun : Run OperationStep s ops t) :
    ∃ as, Run Step s as t := by
  induction hrun with
  | nil s => exact ⟨[], Run.nil s⟩
  | cons hstep _ ih =>
      obtain ⟨as, hfirst⟩ := run_of_operation hs hstep
      obtain ⟨bs, hrest⟩ := ih (between_nextOperation hs hstep)
      exact ⟨as ++ bs, hfirst.append hrest⟩

/-- The queues with a message posted for sending or awaiting its receipt, once
for each such message. -/
def outstanding (s : State) : List QRef :=
  (s.pool ++ s.flight).map SendTask.receiptContext

def Live (s : State) (peer : Peer) (q : QRef) : Prop :=
  s.msgqs peer = some q ∧ (s.queue q).depr = false

/-- Every registered queue that is not deprecated has exactly one message
outstanding. -/
def NotWedged (s : State) : Prop :=
  ∀ peer q, Live s peer q → (outstanding s).count q = 1

/-- The condition on a step: a send fails only for a queue that is registered
no more. -/
def FailsDetached (s : State) (op : Operation) (_ : State) : Prop :=
  match op with
  | .sendAttempt false => ∀ task ∈ s.pool.head?,
      s.msgqs (s.queue task.receiptContext).peer ≠ some task.receiptContext
  | _ => True

instance (s : State) (op : Operation) (t : State) :
    Decidable (FailsDetached s op t) := by
  unfold FailsDetached
  split <;> infer_instance

structure Drained (s : State) : Prop where
  registered : ∀ peer q, s.msgqs peer = some q →
    (s.queue q).peer = peer ∧ (s.queue q).depr = false ∧ q ∈ outstanding s
  nodup : (outstanding s).Nodup
  live : ∀ q ∈ outstanding s, (s.queue q).depr = false →
    s.msgqs (s.queue q).peer = some q
  fresh : ∀ q ∈ outstanding s, q < s.nextRef

theorem drained_init : Drained State.init where
  registered := by intro peer q h; cases h
  nodup := List.nodup_nil
  live := by intro q hq; cases hq
  fresh := by intro q hq; cases hq

theorem Drained.notWedged {s : State} (hs : Drained s) : NotWedged s := by
  intro peer q hlive
  exact List.count_eq_one_of_mem hs.nodup (hs.registered peer q hlive.1).2.2

/-- A change of the waiting lists and a regrouping of what is outstanding. -/
theorem Drained.of_perm {s t : State} (hs : Drained s)
    (hmsgqs : t.msgqs = s.msgqs) (hnextRef : t.nextRef = s.nextRef)
    (hpeer : ∀ q, (t.queue q).peer = (s.queue q).peer)
    (hdepr : ∀ q, (t.queue q).depr = (s.queue q).depr)
    (hperm : (outstanding t).Perm (outstanding s)) : Drained t where
  registered := by
    intro peer q hq
    rw [hmsgqs] at hq
    rw [hpeer, hdepr, hperm.mem_iff]
    exact hs.registered peer q hq
  nodup := hperm.nodup_iff.mpr hs.nodup
  live := by
    intro q hq hlive
    rw [hdepr] at hlive
    rw [hpeer, hmsgqs]
    exact hs.live q (hperm.mem_iff.mp hq) hlive
  fresh := by
    intro q hq
    rw [hnextRef]
    exact hs.fresh q (hperm.mem_iff.mp hq)

/-- Losing a queue that is registered no more. -/
theorem Drained.of_cons {s t : State} (hs : Drained s) {q : QRef}
    (hmsgqs : t.msgqs = s.msgqs) (hnextRef : t.nextRef = s.nextRef)
    (hqueue : t.queue = s.queue)
    (hperm : (q :: outstanding t).Perm (outstanding s))
    (hdetached : ∀ peer, s.msgqs peer ≠ some q) : Drained t where
  registered := by
    intro peer q' hq'
    rw [hmsgqs] at hq'
    rw [hqueue]
    obtain ⟨hpeer, hdepr, hmem⟩ := hs.registered peer q' hq'
    refine ⟨hpeer, hdepr, ?_⟩
    rcases List.mem_cons.mp (hperm.mem_iff.mpr hmem) with rfl | hrest
    · exact absurd hq' (hdetached peer)
    · exact hrest
  nodup := (List.nodup_cons.mp (hperm.nodup_iff.mpr hs.nodup)).2
  live := by
    intro q' hq' hlive
    rw [hqueue] at hlive ⊢
    rw [hmsgqs]
    exact hs.live q' (hperm.mem_iff.mp (List.mem_cons_of_mem q hq')) hlive
  fresh := by
    intro q' hq'
    rw [hnextRef]
    exact hs.fresh q' (hperm.mem_iff.mp (List.mem_cons_of_mem q hq'))

section Operations

variable {s : State}

theorem drained_enq (hs : Drained s) (peer : Peer) (msg : Marshalled) :
    Drained (msgqEnq s peer msg) := by
  cases hget : s.msgqs peer with
  | some q =>
      have heq : msgqEnq s peer msg =
          { msgqPushTail s q msg with enqd := s.enqd ++ [(peer, msg)] } := by
        simp [msgqEnq, msgqGet, hget]
      rw [heq]
      exact hs.of_perm rfl rfl (queue_update_peer s q _)
        (queue_update_depr s q _) (List.Perm.refl _)
  | none =>
      have heq : msgqEnq s peer msg =
          { msgqPut (commandHandlerSend (msgqCreate s peer).2 peer msg s.nextRef)
              s.nextRef with enqd := s.enqd ++ [(peer, msg)] } := by
        simp [msgqEnq, msgqGet, hget, msgqCreate]
      have hold : ∀ q, q ∈ outstanding s →
          Function.update s.queue s.nextRef ⟨peer, [], false⟩ q = s.queue q :=
        fun q hq => Function.update_of_ne (Nat.ne_of_lt (hs.fresh q hq)) _ _
      have houtstanding : (outstanding (msgqEnq s peer msg)).Perm
          (s.nextRef :: outstanding s) := by
        rw [heq, List.perm_iff_count]
        intro x
        simp only [outstanding, msgqPut, commandHandlerSend, msgqCreate,
          List.map_append, List.map_cons, List.map_nil, List.count_append,
          List.count_cons, List.count_nil]
        omega
      have hmsgqs : (msgqEnq s peer msg).msgqs =
          Function.update s.msgqs peer (some s.nextRef) := by
        simp [heq, msgqPut, commandHandlerSend, msgqCreate]
      have hqueue : (msgqEnq s peer msg).queue =
          Function.update s.queue s.nextRef ⟨peer, [], false⟩ := by
        simp [heq, msgqPut, commandHandlerSend, msgqCreate]
      have hnextRef : (msgqEnq s peer msg).nextRef = s.nextRef + 1 := by
        simp [heq, msgqPut, commandHandlerSend, msgqCreate]
      refine ⟨?_, ?_, ?_, ?_⟩
      · intro peer' q hq
        rw [hmsgqs] at hq
        rw [hqueue, houtstanding.mem_iff, List.mem_cons]
        by_cases hsame : peer' = peer
        · rw [hsame, Function.update_self, Option.some.injEq] at hq
          subst hq
          simp [hsame]
        · rw [Function.update_of_ne hsame] at hq
          obtain ⟨hpeer, hdepr, hmem⟩ := hs.registered peer' q hq
          rw [hold q hmem]
          exact ⟨hpeer, hdepr, Or.inr hmem⟩
      · rw [houtstanding.nodup_iff, List.nodup_cons]
        exact ⟨fun hmem => Nat.lt_irrefl _ (hs.fresh _ hmem), hs.nodup⟩
      · intro q hq hlive
        rw [houtstanding.mem_iff, List.mem_cons] at hq
        rw [hqueue] at hlive ⊢
        rw [hmsgqs]
        rcases hq with rfl | hq
        · simp
        · rw [hold q hq] at hlive ⊢
          have hreg := hs.live q hq hlive
          have hne : (s.queue q).peer ≠ peer := by
            intro heq
            rw [heq, hget] at hreg
            cases hreg
          rw [Function.update_of_ne hne]
          exact hreg
      · intro q hq
        rw [houtstanding.mem_iff, List.mem_cons] at hq
        rw [hnextRef]
        rcases hq with rfl | hq
        · exact Nat.lt_succ_self _
        · exact Nat.lt_trans (hs.fresh q hq) (Nat.lt_succ_self _)

/-- Taking an outstanding queue out of the table. -/
theorem Drained.of_removed {t : State} (hs : Drained s) {q : QRef}
    (hreg : s.msgqs (s.queue q).peer = some q)
    (hmsgqs : t.msgqs = Function.update s.msgqs (s.queue q).peer none)
    (hpeer : ∀ q', (t.queue q').peer = (s.queue q').peer)
    (hdepr : ∀ q', q' ≠ q → (t.queue q').depr = (s.queue q').depr)
    (hnextRef : t.nextRef = s.nextRef)
    (hsub : (outstanding t).Sublist (outstanding s))
    (hkeep : ∀ q' ∈ outstanding s, q' ≠ q → q' ∈ outstanding t)
    (hgone : q ∈ outstanding t → (t.queue q).depr = true) : Drained t where
  registered := by
    intro peer q' hq'
    rw [hmsgqs] at hq'
    by_cases hsame : peer = (s.queue q).peer
    · rw [hsame, Function.update_self] at hq'
      cases hq'
    · rw [Function.update_of_ne hsame] at hq'
      obtain ⟨hpeer', hdepr', hmem⟩ := hs.registered peer q' hq'
      have hne : q' ≠ q := by
        rintro rfl
        exact hsame hpeer'.symm
      rw [hpeer, hdepr q' hne]
      exact ⟨hpeer', hdepr', hkeep q' hmem hne⟩
  nodup := hs.nodup.sublist hsub
  live := by
    intro q' hq' hlive
    have hne : q' ≠ q := by
      rintro rfl
      rw [hgone hq'] at hlive
      cases hlive
    rw [hdepr q' hne] at hlive
    have hreg' := hs.live q' (hsub.subset hq') hlive
    have hother : (s.queue q').peer ≠ (s.queue q).peer := by
      intro heq
      rw [heq, hreg, Option.some.injEq] at hreg'
      exact hne hreg'.symm
    rw [hpeer, hmsgqs, Function.update_of_ne hother]
    exact hreg'
  fresh := by
    intro q' hq'
    rw [hnextRef]
    exact hs.fresh q' (hsub.subset hq')

theorem drained_peerOffline (hs : Drained s) (peer : Peer) :
    Drained (msgqPeerOffline s peer) := by
  cases hget : s.msgqs peer with
  | none =>
      have heq : msgqPeerOffline s peer = s := by
        have hsame : Function.update s.msgqs peer none = s.msgqs := by
          rw [← hget, Function.update_eq_self]
        simp [msgqPeerOffline, msgqRm, hget, hsame]
      rw [heq]
      exact hs
  | some q =>
      obtain ⟨hpeer, -, -⟩ := hs.registered peer q hget
      have heq : msgqPeerOffline s peer = { s with
          msgqs := Function.update s.msgqs (s.queue q).peer none
          queue := Function.update s.queue q { s.queue q with depr := true } } := by
        simp [msgqPeerOffline, msgqRm, hget, hpeer]
      rw [heq]
      refine hs.of_removed (hpeer ▸ hget) rfl ?_ ?_ rfl (List.Sublist.refl _) ?_ ?_
      · intro q'
        by_cases hq : q' = q
        · subst hq
          simp
        · simp [hq]
      · intro q' hne
        simp [hne]
      · exact fun q' hq' _ => hq'
      · intro _
        simp

theorem drained_receipt (hs : Drained s) {index : ℕ} {t : State}
    (hreceipt : receiptOf s index = some t) : Drained t := by
  obtain ⟨task, htask, rfl⟩ := Option.map_eq_some_iff.mp hreceipt
  obtain ⟨hlt, hget⟩ := List.getElem?_eq_some_iff.mp htask
  have hflight : (task :: s.flight.eraseIdx index).Perm s.flight := by
    rw [← hget]
    exact List.getElem_cons_eraseIdx_perm hlt
  have hperm : (task.receiptContext :: outstanding { s with
      flight := s.flight.eraseIdx index }).Perm (outstanding s) := by
    have hmiddle : (task :: (s.pool ++ s.flight.eraseIdx index)).Perm (s.pool ++ s.flight) :=
      List.perm_middle.symm.trans (hflight.append_left s.pool)
    exact hmiddle.map SendTask.receiptContext
  have hout : task.receiptContext ∈ outstanding s :=
    hperm.mem_iff.mp List.mem_cons_self
  unfold onMsgReceipt
  split
  · rename_i hdepr
    refine hs.of_cons rfl rfl rfl hperm ?_
    intro peer hreg
    rw [(hs.registered peer _ hreg).2.1] at hdepr
    cases hdepr
  · rename_i hdepr
    have hlive := hs.live _ hout (by simpa using hdepr)
    simp only [msgqPopHead]
    cases hqueue : (s.queue task.receiptContext).q with
    | nil =>
        simp only
        have hnodup := List.nodup_cons.mp (hperm.nodup_iff.mpr hs.nodup)
        refine hs.of_removed hlive rfl (fun _ => rfl) (fun _ _ => rfl) rfl ?_ ?_ ?_
        · have hsub := List.Sublist.append_left
            (List.eraseIdx_sublist s.flight index) s.pool
          exact hsub.map SendTask.receiptContext
        · intro q' hq' hne
          exact (List.mem_cons.mp (hperm.mem_iff.mpr hq')).resolve_left hne
        · exact fun hmem => absurd hmem hnodup.1
    | cons m rest =>
        refine hs.of_perm rfl rfl (queue_update_peer s _ rest)
          (queue_update_depr s _ rest) ?_
        refine List.Perm.trans ?_ hperm
        rw [List.perm_iff_count]
        intro x
        simp only [outstanding, commandHandlerSend, List.map_append,
          List.map_cons, List.map_nil, List.count_append, List.count_cons,
          List.count_nil]
        omega

theorem drained_accepted (hs : Drained s) {t : State}
    (hrun : runSendTask s true = some t) : Drained t := by
  cases hpool : s.pool with
  | nil => simp [runSendTask, hpool] at hrun
  | cons task rest =>
      simp only [runSendTask, hpool, if_true, Option.some.injEq] at hrun
      subst hrun
      refine hs.of_perm rfl rfl (fun _ => rfl) (fun _ => rfl) ?_
      rw [List.perm_iff_count]
      intro x
      simp only [outstanding, hpool, List.map_append, List.map_cons,
        List.map_nil, List.count_append, List.count_cons, List.count_nil]
      omega

theorem outstanding_rejected {t : State} {task : SendTask}
    {rest : List SendTask} (hpool : s.pool = task :: rest)
    (hrun : runSendTask s false = some t) :
    outstanding s = task.receiptContext :: outstanding t ∧
      t.msgqs = s.msgqs ∧ t.queue = s.queue ∧ t.nextRef = s.nextRef := by
  simp only [runSendTask, hpool, Bool.false_eq_true, if_false,
    Option.some.injEq] at hrun
  subst hrun
  simp [outstanding, hpool]

theorem drained_rejected (hs : Drained s) {t : State}
    (hrun : runSendTask s false = some t)
    (hdetached : FailsDetached s (.sendAttempt false) t) : Drained t := by
  cases hpool : s.pool with
  | nil => simp [runSendTask, hpool] at hrun
  | cons task rest =>
      obtain ⟨hout, hmsgqs, hqueue, hnextRef⟩ := outstanding_rejected hpool hrun
      refine hs.of_cons hmsgqs hnextRef hqueue (List.Perm.of_eq hout.symm) ?_
      intro peer hreg
      have hpeer := (hs.registered peer _ hreg).1
      simp only [FailsDetached, hpool, List.head?_cons, Option.mem_some_iff,
        forall_eq'] at hdetached
      exact hdetached (hpeer ▸ hreg)

/-- A rejected send leaves the queue it was for registered and undrained. -/
theorem wedged_rejected (hs : Drained s) {t : State}
    (hrun : runSendTask s false = some t)
    (hattached : ¬ FailsDetached s (.sendAttempt false) t) : ¬ NotWedged t := by
  cases hpool : s.pool with
  | nil => simp [runSendTask, hpool] at hrun
  | cons task rest =>
      obtain ⟨hout, hmsgqs, hqueue, -⟩ := outstanding_rejected hpool hrun
      simp only [FailsDetached, hpool, List.head?_cons, Option.mem_some_iff,
        forall_eq', not_not] at hattached
      intro hnot
      have hcount := hnot _ task.receiptContext (by
        refine ⟨hmsgqs ▸ hattached, ?_⟩
        rw [hqueue]
        exact (hs.registered _ _ hattached).2.1)
      have hnodup := hs.nodup
      rw [hout, List.nodup_cons] at hnodup
      rw [List.count_eq_zero_of_not_mem hnodup.1] at hcount
      cases hcount

end Operations

theorem drained_step (s : State) (op : Operation) (t : State) (hs : Drained s)
    (hstep : OperationStep s op t) (hcond : FailsDetached s op t) :
    Drained t := by
  cases op with
  | enq peer msg => exact Option.some.inj hstep ▸ drained_enq hs peer msg
  | receipt index => exact drained_receipt hs hstep
  | peerOffline peer => exact Option.some.inj hstep ▸ drained_peerOffline hs peer
  | sendAttempt accepted =>
      cases accepted with
      | true => exact drained_accepted hs hstep
      | false => exact drained_rejected hs hstep hcond

theorem wedged_step (s : State) (op : Operation) (t : State) (hs : Drained s)
    (hstep : OperationStep s op t) (hcond : ¬ FailsDetached s op t) :
    ¬ NotWedged t := by
  cases op with
  | sendAttempt accepted =>
      cases accepted with
      | true => exact absurd trivial hcond
      | false => exact wedged_rejected hs hstep hcond
  | _ => exact absurd trivial hcond

/-- No queue is wedged in any state of a run exactly when no send fails for a
queue that is still registered. -/
theorem notWedged_iff (ops : List Operation) :
    Always OperationStep NotWedged State.init ops ↔
      EachStep OperationStep FailsDetached State.init ops :=
  always_iff_eachStep Drained drained_step (fun _ h => h.notWedged) wedged_step
    drained_init ops

/-- The first message to a peer is posted, and its send fails. -/
def failedSendRun : List Operation :=
  [.enq "alice" [1], .sendAttempt false]

/-- A failed send leaves a queue on which later messages only pile up. -/
theorem not_always_notWedged :
    ¬ ∀ ops : List Operation, Always OperationStep NotWedged State.init ops := by
  intro h
  cases hexec : exec nextOperation State.init failedSendRun with
  | none => exact absurd hexec (by decide)
  | some t =>
      have hlast := (h failedSendRun).last (run_of_exec hexec)
      cases hexec
      have hcount := hlast "alice" 0 ⟨rfl, rfl⟩
      exact absurd hcount (by decide)

end FeedsService.MsgQueue
