import FeedsService.MsgQueue.Model
import Mathlib.Data.List.Perm.Basic
import Mathlib.Data.List.Nodup

/-!
# Delivery through the message queues

A queue is *claimed* once by whatever will look at it next: a posted send
task, a message in flight, the carrier thread inside its receipt callback, or
the command thread about to post the first message.  While the pushes of the
command thread find their queue registered, claimed and not about to be
removed, every queue in which messages wait is claimed, each once, and the log
of one peer splits into what was handed over, what is on its way and what
waits in the queue.  A send that is refused ends the claim of its queue: that
does no harm when nothing waits in it and nothing is pushed on it again.
-/

namespace FeedsService.MsgQueue

open FeedsService.Runs

def carrierClaims : CarrierPc → List QRef
  | .idle => []
  | .checkDepr q => [q]
  | .pop q => [q]
  | .send q _ => [q]
  | .rm q => [q]
  | .setDepr _ => []

def cmdClaims : CmdPc → List QRef
  | .send _ q _ => [q]
  | _ => []

/-- Every reference that keeps a queue going, with multiplicity. -/
def claims (s : State) : List QRef :=
  s.pool.map SendTask.receiptContext ++
    (s.flight.map SendTask.receiptContext ++
      (carrierClaims s.carrier ++ cmdClaims s.cmd))

def Registered (s : State) (q : QRef) : Prop :=
  s.msgqs (s.queue q).peer = some q

/-- The call of `msgq_enq` that is creating a queue. -/
def opening : CmdPc → List (Peer × QRef × Marshalled)
  | .send peer q msg => [(peer, q, msg)]
  | .put peer q msg => [(peer, q, msg)]
  | _ => []

/-- The enqueued messages, with the one whose call is about to return 0. -/
def issued (s : State) : List (Peer × Marshalled) :=
  s.enqd ++ (opening s.cmd).map fun entry => (entry.1, entry.2.2)

def carrierTransit (s : State) : List (Peer × Marshalled) :=
  match s.carrier with
  | .send q msg => [((s.queue q).peer, msg)]
  | _ => []

def cmdTransit : CmdPc → List (Peer × Marshalled)
  | .send peer _ msg => [(peer, msg)]
  | _ => []

/-- Messages taken for sending and not yet handed over, in their order. -/
def transit (s : State) : List (Peer × Marshalled) :=
  s.pool.map (fun task => (task.peer, task.data)) ++
    (carrierTransit s ++ cmdTransit s.cmd)

def waiting (s : State) (peer : Peer) : List Marshalled :=
  match s.msgqs peer with
  | some q => (s.queue q).q
  | none => []

def Online : Action → Prop
  | .offline _ => False
  | _ => True

/-- The condition on a step: what the transport refuses leaves nothing waiting
in its queue, and a push finds its queue still registered and claimed, and the
carrier thread not between its empty pop and its removal of that queue. -/
def Orderly (s : State) (a : Action) (_ : State) : Prop :=
  match a, s.cmd with
  | .task false, _ => ∀ task ∈ s.pool.head?, (s.queue task.receiptContext).q = []
  | .cmd, .push peer q _ => s.msgqs peer = some q ∧ q ∈ claims s ∧ s.carrier ≠ .rm q
  | _, _ => True

instance (s : State) (a : Action) (t : State) : Decidable (Orderly s a t) := by
  unfold Orderly
  split <;> infer_instance

structure Inv (s : State) : Prop where
  registered : ∀ peer q, s.msgqs peer = some q →
    (s.queue q).peer = peer ∧ (s.queue q).depr = false
  nodup : (claims s).Nodup
  claimed : ∀ q ∈ claims s,
    Registered s q ∨ q ∈ (opening s.cmd).map fun entry => entry.2.1
  waits : ∀ peer q, s.msgqs peer = some q → q ∈ claims s ∨ (s.queue q).q = []
  fresh : ∀ q ∈ claims s, q < s.nextRef
  known : ∀ peer q, s.msgqs peer = some q → q < s.nextRef
  opened : ∀ peer q msg, (peer, q, msg) ∈ opening s.cmd →
    s.queue q = ⟨peer, [], false⟩ ∧ s.msgqs peer = none
  posted : ∀ peer q msg, s.cmd = .put peer q msg →
    q ∈ s.pool.map SendTask.receiptContext
  tasks : ∀ task ∈ s.pool ++ s.flight,
    (s.queue task.receiptContext).peer = task.peer
  removing : ∀ q, s.carrier = .rm q → (s.queue q).q = []
  online : ∀ q, s.carrier ≠ .setDepr q
  log : ∀ peer, toPeer peer (issued s) =
    toPeer peer s.handed ++ (toPeer peer (transit s) ++ waiting s peer)

theorem inv_init : Inv State.init where
  registered := by intro peer q h; cases h
  nodup := by simp [claims, State.init, carrierClaims, cmdClaims]
  claimed := by intro q hq; simp [claims, State.init, carrierClaims, cmdClaims] at hq
  waits := by intro peer q h; cases h
  fresh := by intro q hq; simp [claims, State.init, carrierClaims, cmdClaims] at hq
  known := by intro peer q h; cases h
  opened := by intro peer q msg h; simp [State.init, opening] at h
  posted := by intro peer q msg h; simp [State.init] at h
  tasks := by intro task h; simp [State.init] at h
  removing := by intro q h; simp [State.init] at h
  online := by intro q h; simp [State.init] at h
  log := by
    intro peer
    simp [issued, State.init, opening, transit, carrierTransit, cmdTransit, waiting]

/-- Every claimed queue is live: receipts never find it setDeprd. -/
theorem Inv.claim_not_depr {s : State} (hinv : Inv s) {q : QRef}
    (hq : q ∈ claims s) : (s.queue q).depr = false := by
  rcases hinv.claimed q hq with hreg | hopen
  · exact (hinv.registered _ q hreg).2
  · obtain ⟨⟨peer, q', msg⟩, hmem, rfl⟩ := List.mem_map.mp hopen
    rw [(hinv.opened peer _ msg hmem).1]

/-- What the carrier thread works on is registered: a queue that is still
being opened is claimed by the command thread or by its first task. -/
theorem Inv.carrier_registered {s : State} (hinv : Inv s) {q : QRef}
    (hq : q ∈ carrierClaims s.carrier) : Registered s q := by
  have hclaim : q ∈ claims s := by simp [claims, hq]
  rcases hinv.claimed q hclaim with hreg | hopen
  · exact hreg
  · exfalso
    have hnodup := hinv.nodup
    simp only [claims, List.nodup_append, List.mem_append] at hnodup
    cases hpc : s.cmd with
    | idle => simp [hpc, opening] at hopen
    | push peer q' msg => simp [hpc, opening] at hopen
    | send peer q' msg =>
        simp only [hpc, opening, List.map_cons, List.map_nil,
          List.mem_singleton] at hopen
        subst hopen
        simp only [hpc, cmdClaims, List.mem_singleton] at hnodup
        exact hnodup.2.1.2.1.2.2 q hq q rfl rfl
    | put peer q' msg =>
        simp only [hpc, opening, List.map_cons, List.map_nil,
          List.mem_singleton] at hopen
        subst hopen
        exact hnodup.2.2 q (hinv.posted peer q msg hpc) q
          (Or.inr (Or.inl hq)) rfl

/-- A queue that is being opened is not the one registered for its peer. -/
theorem Inv.opened_ne {s : State} (hinv : Inv s) {peer : Peer} {q : QRef}
    {msg : Marshalled} (hopen : (peer, q, msg) ∈ opening s.cmd)
    {q' : QRef} (hreg : Registered s q') : (s.queue q').peer ≠ peer := by
  intro heq
  have hnone := (hinv.opened peer q msg hopen).2
  rw [Registered, heq, hnone] at hreg
  cases hreg

/-- A step that neither touches the table nor a queue and only moves claims
between their holders. -/
theorem Inv.of_moved {s t : State} (hinv : Inv s)
    (hmsgqs : t.msgqs = s.msgqs) (hqueue : t.queue = s.queue)
    (hnextRef : t.nextRef = s.nextRef)
    (hclaims : (claims t).Perm (claims s))
    (hopening : opening t.cmd = opening s.cmd)
    (hposted : ∀ peer q msg, t.cmd = .put peer q msg →
      q ∈ t.pool.map SendTask.receiptContext)
    (htasks : ∀ task ∈ t.pool ++ t.flight, task ∈ s.pool ++ s.flight ∨
      (s.queue task.receiptContext).peer = task.peer)
    (hremoving : ∀ q, t.carrier = .rm q → (s.queue q).q = [])
    (honline : ∀ q, t.carrier ≠ .setDepr q)
    (hlog : ∀ peer, toPeer peer (issued s) =
        toPeer peer s.handed ++ (toPeer peer (transit s) ++ waiting s peer) →
      toPeer peer (issued t) =
        toPeer peer t.handed ++ (toPeer peer (transit t) ++ waiting s peer)) :
    Inv t where
  registered := by
    intro peer q hq
    rw [hmsgqs] at hq
    rw [hqueue]
    exact hinv.registered peer q hq
  nodup := hclaims.nodup_iff.mpr hinv.nodup
  claimed := by
    intro q hq
    rw [hopening, Registered, hmsgqs, hqueue]
    exact hinv.claimed q (hclaims.mem_iff.mp hq)
  waits := by
    intro peer q hq
    rw [hmsgqs] at hq
    rw [hclaims.mem_iff, hqueue]
    exact hinv.waits peer q hq
  fresh := by
    intro q hq
    rw [hnextRef]
    exact hinv.fresh q (hclaims.mem_iff.mp hq)
  known := by
    intro peer q hq
    rw [hmsgqs] at hq
    rw [hnextRef]
    exact hinv.known peer q hq
  opened := by
    intro peer q msg hopen
    rw [hopening] at hopen
    rw [hqueue, hmsgqs]
    exact hinv.opened peer q msg hopen
  posted := hposted
  tasks := by
    intro task htask
    rw [hqueue]
    rcases htasks task htask with hold | hpeer
    · exact hinv.tasks task hold
    · exact hpeer
  removing := by
    intro q hq
    rw [hqueue]
    exact hremoving q hq
  online := honline
  log := by
    intro peer
    have hwaiting : waiting t peer = waiting s peer := by
      simp only [waiting, hmsgqs, hqueue]
    rw [hwaiting]
    exact hlog peer (hinv.log peer)

section Transitions

variable {s : State}

theorem inv_enq_busy (hinv : Inv s) (hidle : s.cmd = .idle) (peer : Peer)
    (q : QRef) (msg : Marshalled) :
    Inv { s with cmd := .push peer q msg } := by
  refine hinv.of_moved rfl rfl rfl ?_ ?_ ?_ ?_ ?_ ?_ ?_
  · simp [claims, cmdClaims, hidle]
  · simp [opening, hidle]
  · intro peer' q' msg' h
    cases h
  · exact fun task htask => Or.inl htask
  · exact hinv.removing
  · exact hinv.online
  · intro peer'
    simp [issued, transit, opening, carrierTransit, cmdTransit, hidle]

theorem inv_cmd_send (hinv : Inv s) {peer : Peer} {q : QRef}
    {msg : Marshalled} (hpc : s.cmd = .send peer q msg) :
    Inv { commandHandlerSend s peer msg q with cmd := .put peer q msg } := by
  have hopen : (peer, q, msg) ∈ opening s.cmd := by simp [opening, hpc]
  refine hinv.of_moved rfl rfl rfl ?_ ?_ ?_ ?_ ?_ ?_ ?_
  · rw [List.perm_iff_count]
    intro x
    simp only [claims, commandHandlerSend, cmdClaims, hpc, List.map_append,
      List.map_cons, List.map_nil, List.append_nil, List.count_append]
    omega
  · simp [opening, hpc]
  · intro peer' q' msg' h
    cases h
    simp [commandHandlerSend]
  · intro task htask
    simp only [commandHandlerSend, List.mem_append, List.mem_singleton] at htask
    rcases htask with (hpool | hnew) | hflight
    · exact Or.inl (List.mem_append_left _ hpool)
    · right
      rw [hnew, (hinv.opened peer q msg hopen).1]
    · exact Or.inl (List.mem_append_right _ hflight)
  · exact hinv.removing
  · exact hinv.online
  · intro peer' hlog
    -- the carrier thread cannot be sending to the peer whose queue is opened
    have hcarrier : toPeer peer (carrierTransit s) = [] := by
      cases hc : s.carrier with
      | send q' msg' =>
          have hreg : Registered s q' :=
            hinv.carrier_registered (by simp [hc, carrierClaims])
          have hne := hinv.opened_ne hopen hreg
          simp [carrierTransit, hc, toPeer_singleton, hne]
      | _ => simp [carrierTransit, hc]
    have hissued : issued { commandHandlerSend s peer msg q with
        cmd := .put peer q msg } = issued s := by
      simp [issued, commandHandlerSend, opening, hpc]
    rw [hissued, hlog]
    simp only [transit, commandHandlerSend, cmdTransit, hpc, List.map_append,
      List.map_cons, List.map_nil, toPeer_append, List.append_nil,
      List.append_assoc, toPeer_singleton]
    by_cases hpeer : peer = peer'
    · subst hpeer
      have hcarrier' : toPeer peer (carrierTransit { s with
          pool := s.pool ++ [⟨peer, msg, q⟩], cmd := .put peer q msg }) = [] :=
        hcarrier
      simp [hcarrier, hcarrier']
    · simp [hpeer, carrierTransit]

theorem inv_task (hinv : Inv s) (hidle : s.cmd = .idle) {task : SendTask}
    {rest : List SendTask} (hpool : s.pool = task :: rest) :
    Inv { s with
      pool := rest
      flight := s.flight ++ [task]
      handed := s.handed ++ [(task.peer, task.data)] } := by
  refine hinv.of_moved rfl rfl rfl ?_ ?_ ?_ ?_ ?_ ?_ ?_
  · rw [List.perm_iff_count]
    intro x
    simp only [claims, hpool, List.map_append, List.map_cons, List.map_nil,
      List.count_append, List.count_cons, List.count_nil]
    omega
  · rfl
  · intro peer q msg h
    simp [hidle] at h
  · intro other hother
    left
    simp only [hpool, List.mem_append, List.mem_cons, List.not_mem_nil,
      or_false] at hother ⊢
    tauto
  · exact hinv.removing
  · exact hinv.online
  · intro peer hlog
    have hissued : issued { s with
        pool := rest
        flight := s.flight ++ [task]
        handed := s.handed ++ [(task.peer, task.data)] } = issued s := rfl
    rw [hissued, hlog]
    simp [transit, hpool, carrierTransit, toPeer, List.filter_cons]
    split <;> simp

/-- A message that the transport refuses ends the claim of its queue. -/
theorem inv_refused (hinv : Inv s) (hidle : s.cmd = .idle) {task : SendTask}
    {rest : List SendTask} (hpool : s.pool = task :: rest)
    (hempty : (s.queue task.receiptContext).q = []) :
    Inv { s with
      pool := rest
      handed := s.handed ++ [(task.peer, task.data)] } := by
  have hclaims : claims s = task.receiptContext :: claims { s with
      pool := rest
      handed := s.handed ++ [(task.peer, task.data)] } := by
    simp [claims, hpool]
  have hsub : ∀ q ∈ claims { s with
      pool := rest
      handed := s.handed ++ [(task.peer, task.data)] }, q ∈ claims s := by
    intro q hq
    rw [hclaims]
    exact List.mem_cons_of_mem _ hq
  refine ⟨hinv.registered, ?_, fun q hq => hinv.claimed q (hsub q hq), ?_,
    fun q hq => hinv.fresh q (hsub q hq), hinv.known, hinv.opened, ?_, ?_,
    hinv.removing, hinv.online, ?_⟩
  · have hnodup := hinv.nodup
    rw [hclaims] at hnodup
    exact (List.nodup_cons.mp hnodup).2
  · intro peer q hq
    rcases hinv.waits peer q hq with hclaim | hnil
    · rw [hclaims, List.mem_cons] at hclaim
      rcases hclaim with rfl | hclaim
      · exact Or.inr hempty
      · exact Or.inl hclaim
    · exact Or.inr hnil
  · intro peer q msg h
    simp [hidle] at h
  · intro other hother
    apply hinv.tasks
    rw [hpool]
    exact List.mem_cons_of_mem task hother
  · intro peer
    have hissued : issued { s with
        pool := rest
        handed := s.handed ++ [(task.peer, task.data)] } = issued s := rfl
    rw [hissued, hinv.log peer]
    simp [transit, hpool, carrierTransit, waiting, toPeer, List.filter_cons]
    split <;> simp

theorem inv_receipt (hinv : Inv s) (hidle : s.carrier = .idle) {index : ℕ}
    {task : SendTask} (htask : s.flight[index]? = some task) :
    Inv { s with
      flight := s.flight.eraseIdx index
      carrier := .checkDepr task.receiptContext } := by
  have hperm : (task :: s.flight.eraseIdx index).Perm s.flight := by
    obtain ⟨hlt, hget⟩ := List.getElem?_eq_some_iff.mp htask
    rw [← hget]
    exact List.getElem_cons_eraseIdx_perm hlt
  refine hinv.of_moved rfl rfl rfl ?_ ?_ ?_ ?_ ?_ ?_ ?_
  · simp only [claims, carrierClaims, hidle, List.nil_append]
    apply List.Perm.append_left
    have hmap := (hperm.map SendTask.receiptContext).append_right
      (cmdClaims s.cmd)
    exact List.perm_middle.trans hmap
  · rfl
  · exact hinv.posted
  · intro other hother
    left
    simp only [List.mem_append] at hother ⊢
    exact hother.imp_right List.mem_of_mem_eraseIdx
  · intro q h
    cases h
  · intro q h
    cases h
  · intro peer hlog
    simpa [issued, transit, carrierTransit, hidle] using hlog

theorem inv_checkDepr (hinv : Inv s) {q : QRef}
    (hpc : s.carrier = .checkDepr q) :
    Inv { s with carrier := if (s.queue q).depr then .idle else .pop q } := by
  have hlive : (s.queue q).depr = false :=
    hinv.claim_not_depr (by simp [claims, hpc, carrierClaims])
  rw [hlive]
  refine hinv.of_moved rfl rfl rfl ?_ ?_ ?_ ?_ ?_ ?_ ?_
  · simp [claims, carrierClaims, hpc]
  · rfl
  · exact hinv.posted
  · exact fun task htask => Or.inl htask
  · intro q' h
    simp at h
  · intro q' h
    simp at h
  · intro peer hlog
    simpa [issued, transit, carrierTransit, hpc] using hlog

theorem inv_pop_empty (hinv : Inv s) {q : QRef} (hpc : s.carrier = .pop q)
    (hempty : (s.queue q).q = []) : Inv { s with carrier := .rm q } := by
  refine hinv.of_moved rfl rfl rfl ?_ ?_ ?_ ?_ ?_ ?_ ?_
  · simp [claims, carrierClaims, hpc]
  · rfl
  · exact hinv.posted
  · exact fun task htask => Or.inl htask
  · intro q' h
    cases h
    exact hempty
  · intro q' h
    cases h
  · intro peer hlog
    simpa [issued, transit, carrierTransit, hpc] using hlog

theorem inv_carrier_send (hinv : Inv s) {q : QRef} {msg : Marshalled}
    (hpc : s.carrier = .send q msg) :
    Inv { commandHandlerSend s (s.queue q).peer msg q with carrier := .idle } := by
  refine hinv.of_moved rfl rfl rfl ?_ ?_ ?_ ?_ ?_ ?_ ?_
  · rw [List.perm_iff_count]
    intro x
    simp only [claims, commandHandlerSend, carrierClaims, hpc, List.map_append,
      List.map_cons, List.map_nil, List.nil_append, List.count_append]
    omega
  · rfl
  · intro peer' q' msg' h
    simp only [commandHandlerSend, List.map_append, List.mem_append]
    exact Or.inl (hinv.posted peer' q' msg' h)
  · intro task htask
    simp only [commandHandlerSend, List.mem_append, List.mem_singleton] at htask
    rcases htask with (hpool | hnew) | hflight
    · exact Or.inl (List.mem_append_left _ hpool)
    · right
      rw [hnew]
    · exact Or.inl (List.mem_append_right _ hflight)
  · intro q' h
    cases h
  · intro q' h
    cases h
  · intro peer hlog
    simpa [issued, transit, carrierTransit, commandHandlerSend, hpc] using hlog

/-- A call that finds no queue creates one and is about to post its message. -/
theorem inv_enq_create (hinv : Inv s) (hidle : s.cmd = .idle) {peer : Peer}
    (hnone : s.msgqs peer = none) (msg : Marshalled) :
    Inv { (msgqCreate s peer).2 with cmd := .send peer s.nextRef msg } := by
  have hold : ∀ q ∈ claims s,
      Function.update s.queue s.nextRef ⟨peer, [], false⟩ q = s.queue q :=
    fun q hq => Function.update_of_ne (Nat.ne_of_lt (hinv.fresh q hq)) _ _
  have hreg : ∀ peer' q, s.msgqs peer' = some q →
      Function.update s.queue s.nextRef ⟨peer, [], false⟩ q = s.queue q :=
    fun peer' q hq => Function.update_of_ne (Nat.ne_of_lt (hinv.known peer' q hq)) _ _
  have hclaims : claims { (msgqCreate s peer).2 with
      cmd := .send peer s.nextRef msg } = claims s ++ [s.nextRef] := by
    simp [claims, msgqCreate, cmdClaims, hidle]
  refine ⟨?_, ?_, ?_, ?_, ?_, ?_, ?_, ?_, ?_, ?_, ?_, ?_⟩
  · intro peer' q hq
    simp only [msgqCreate]
    rw [hreg peer' q hq]
    exact hinv.registered peer' q hq
  · rw [hclaims, List.nodup_append]
    refine ⟨hinv.nodup, List.nodup_singleton _, ?_⟩
    intro q hq q' hq' heq
    rw [List.mem_singleton] at hq'
    exact Nat.ne_of_lt (hinv.fresh q hq) (heq.trans hq')
  · intro q hq
    rw [hclaims, List.mem_append] at hq
    rcases hq with hq | hq
    · left
      simp only [Registered, msgqCreate]
      rw [hold q hq]
      have hcases := hinv.claimed q hq
      simpa [Registered, opening, hidle] using hcases
    · exact Or.inr hq
  · intro peer' q hq
    rw [hclaims, List.mem_append]
    simp only [msgqCreate]
    rw [hreg peer' q hq]
    exact (hinv.waits peer' q hq).imp_left Or.inl
  · intro q hq
    rw [hclaims, List.mem_append, List.mem_singleton] at hq
    rcases hq with hq | hq
    · exact Nat.lt_trans (hinv.fresh q hq) (Nat.lt_succ_self _)
    · rw [hq]
      exact Nat.lt_succ_self _
  · exact fun peer' q hq => Nat.lt_trans (hinv.known peer' q hq) (Nat.lt_succ_self _)
  · intro peer' q msg' hopen
    simp only [opening, List.mem_singleton, Prod.mk.injEq] at hopen
    obtain ⟨rfl, rfl, rfl⟩ := hopen
    exact ⟨Function.update_self _ _ _, hnone⟩
  · intro peer' q msg' h
    cases h
  · intro task htask
    have hclaim : task.receiptContext ∈ claims s := by
      simp only [msgqCreate, List.mem_append] at htask
      rcases htask with hpool | hflight
      · exact List.mem_append_left _ (List.mem_map_of_mem hpool)
      · exact List.mem_append_right _
          (List.mem_append_left _ (List.mem_map_of_mem hflight))
    simp only [msgqCreate]
    rw [hold _ hclaim]
    exact hinv.tasks task htask
  · intro q hq
    have hclaim : q ∈ claims s := by
      have hq' : s.carrier = .rm q := hq
      simp [claims, carrierClaims, hq']
    simp only [msgqCreate]
    rw [hold q hclaim]
    exact hinv.removing q hq
  · exact hinv.online
  · intro peer'
    have hcarrier : carrierTransit { (msgqCreate s peer).2 with
        cmd := .send peer s.nextRef msg } = carrierTransit s := by
      cases hc : s.carrier with
      | send q msg' =>
          have hclaim : q ∈ claims s := by simp [claims, carrierClaims, hc]
          simp only [carrierTransit, msgqCreate, hc]
          rw [hold q hclaim]
      | _ => simp [carrierTransit, msgqCreate, hc]
    have hwaiting : waiting { (msgqCreate s peer).2 with
        cmd := .send peer s.nextRef msg } peer' = waiting s peer' := by
      simp only [waiting, msgqCreate]
      cases hq : s.msgqs peer' with
      | none => rfl
      | some q =>
          simp only
          rw [hreg peer' q hq]
    have hlog := hinv.log peer'
    have hnowaiting : peer = peer' → waiting s peer' = [] := by
      rintro rfl
      simp [waiting, hnone]
    rw [hwaiting]
    simp only [issued, transit, hcarrier, toPeer_append] at hlog ⊢
    simp only [msgqCreate, opening, cmdTransit, hidle, List.map_nil,
      toPeer_nil, List.append_nil, List.map_cons, toPeer_singleton] at hlog ⊢
    rw [hlog]
    by_cases hpeer : peer = peer'
    · simp [hpeer, hnowaiting hpeer]
    · simp [hpeer]

/-- A push onto a registered queue: the message waits there. -/
theorem inv_cmd_push (hinv : Inv s) {peer : Peer} {q : QRef}
    {msg : Marshalled} (hpc : s.cmd = .push peer q msg)
    (hreg : s.msgqs peer = some q) (hclaim : q ∈ claims s) (hcarrier : s.carrier ≠ .rm q) :
    Inv { msgqPushTail s q msg with
      cmd := .idle
      enqd := s.enqd ++ [(peer, msg)] } := by
  have hclaims : claims { msgqPushTail s q msg with
      cmd := .idle
      enqd := s.enqd ++ [(peer, msg)] } = claims s := by
    simp [claims, msgqPushTail, cmdClaims, hpc]
  refine ⟨?_, ?_, ?_, ?_, ?_, ?_, ?_, ?_, ?_, ?_, ?_, ?_⟩
  · intro peer' q' hq'
    simp only [msgqPushTail]
    rw [queue_update_peer, queue_update_depr]
    exact hinv.registered peer' q' hq'
  · rw [hclaims]
    exact hinv.nodup
  · intro q' hq'
    rw [hclaims] at hq'
    simp only [Registered, msgqPushTail, queue_update_peer]
    simpa [Registered, opening, hpc] using hinv.claimed q' hq'
  · intro peer' q' hq'
    rw [hclaims]
    by_cases hq : q' = q
    · exact Or.inl (hq ▸ hclaim)
    · simp only [msgqPushTail]
      rw [Function.update_of_ne hq]
      exact hinv.waits peer' q' hq'
  · intro q' hq'
    rw [hclaims] at hq'
    exact hinv.fresh q' hq'
  · exact hinv.known
  · intro peer' q' msg' hopen
    simp [opening] at hopen
  · intro peer' q' msg' h
    cases h
  · intro task htask
    simp only [msgqPushTail]
    rw [queue_update_peer]
    exact hinv.tasks task htask
  · intro q' hq'
    have hne : q' ≠ q := by
      rintro rfl
      exact hcarrier hq'
    simp only [msgqPushTail]
    rw [Function.update_of_ne hne]
    exact hinv.removing q' hq'
  · exact hinv.online
  · intro peer'
    have htransit : carrierTransit { msgqPushTail s q msg with
        cmd := .idle
        enqd := s.enqd ++ [(peer, msg)] } = carrierTransit s := by
      cases hc : s.carrier with
      | send q' msg' => simp [carrierTransit, msgqPushTail, hc, queue_update_peer]
      | _ => simp [carrierTransit, msgqPushTail, hc]
    have hlog := hinv.log peer'
    simp only [issued, transit, htransit, toPeer_append] at hlog ⊢
    simp only [msgqPushTail, opening, cmdTransit, hpc, List.map_nil,
      toPeer_nil, List.append_nil, toPeer_singleton] at hlog ⊢
    rw [hlog]
    by_cases hpeer : peer = peer'
    · subst hpeer
      simp [waiting, hreg]
    · have hother : ∀ q', s.msgqs peer' = some q' → q' ≠ q := by
        rintro q' hq' rfl
        exact hpeer ((hinv.registered peer q' hreg).1.symm.trans
          (hinv.registered peer' q' hq').1)
      cases hq' : s.msgqs peer' with
      | none => simp [hpeer, waiting, hq']
      | some q' => simp [hpeer, waiting, hq', Function.update_of_ne (hother q' hq')]

/-- The queue whose first message was posted becomes the registered one. -/
theorem inv_cmd_put (hinv : Inv s) {peer : Peer} {q : QRef}
    {msg : Marshalled} (hpc : s.cmd = .put peer q msg) :
    Inv { msgqPut s q with
      cmd := .idle
      enqd := s.enqd ++ [(peer, msg)] } := by
  have hopen : (peer, q, msg) ∈ opening s.cmd := by simp [opening, hpc]
  obtain ⟨hqueue, hnone⟩ := hinv.opened peer q msg hopen
  have hpeer : (s.queue q).peer = peer := by rw [hqueue]
  have hclaims : claims { msgqPut s q with
      cmd := .idle
      enqd := s.enqd ++ [(peer, msg)] } = claims s := by
    simp [claims, msgqPut, cmdClaims, hpc]
  refine ⟨?_, ?_, ?_, ?_, ?_, ?_, ?_, ?_, ?_, ?_, ?_, ?_⟩
  · intro peer' q' hq'
    simp only [msgqPut, hpeer] at hq' ⊢
    by_cases hsame : peer' = peer
    · rw [hsame, Function.update_self, Option.some.injEq] at hq'
      rw [← hq', hqueue, hsame]
      exact ⟨rfl, rfl⟩
    · rw [Function.update_of_ne hsame] at hq'
      exact hinv.registered peer' q' hq'
  · rw [hclaims]
    exact hinv.nodup
  · intro q' hq'
    left
    rw [hclaims] at hq'
    simp only [Registered, msgqPut, hpeer]
    rcases hinv.claimed q' hq' with hreg | hopened
    · have hsame : (s.queue q').peer ≠ peer := hinv.opened_ne hopen hreg
      rw [Function.update_of_ne hsame]
      exact hreg
    · simp only [opening, hpc, List.map_cons, List.map_nil, List.mem_singleton] at hopened
      rw [hopened, hpeer, Function.update_self]
  · intro peer' q' hq'
    rw [hclaims]
    simp only [msgqPut, hpeer] at hq' ⊢
    by_cases hsame : peer' = peer
    · rw [hsame, Function.update_self, Option.some.injEq] at hq'
      rw [← hq', hqueue]
      exact Or.inr rfl
    · rw [Function.update_of_ne hsame] at hq'
      exact hinv.waits peer' q' hq'
  · intro q' hq'
    rw [hclaims] at hq'
    exact hinv.fresh q' hq'
  · intro peer' q' hq'
    simp only [msgqPut, hpeer] at hq' ⊢
    by_cases hsame : peer' = peer
    · rw [hsame, Function.update_self, Option.some.injEq] at hq'
      have hclaim : q ∈ claims s :=
        List.mem_append_left _ (hinv.posted peer q msg hpc)
      exact hq' ▸ hinv.fresh q hclaim
    · rw [Function.update_of_ne hsame] at hq'
      exact hinv.known peer' q' hq'
  · intro peer' q' msg' h
    simp [opening] at h
  · intro peer' q' msg' h
    cases h
  · exact hinv.tasks
  · exact hinv.removing
  · exact hinv.online
  · intro peer'
    have hlog := hinv.log peer'
    have htransit : carrierTransit { msgqPut s q with
        cmd := .idle
        enqd := s.enqd ++ [(peer, msg)] } = carrierTransit s := rfl
    simp only [issued, transit, htransit, toPeer_append] at hlog ⊢
    simp only [msgqPut, opening, cmdTransit, hpc, List.map_nil, List.map_cons,
      toPeer_nil, List.append_nil] at hlog ⊢
    rw [hlog, hpeer]
    by_cases hsame : peer' = peer
    · simp [waiting, hsame, hnone, hqueue]
    · simp [waiting, Function.update_of_ne hsame]

/-- The carrier thread takes the first waiting message. -/
theorem inv_pop_some (hinv : Inv s) {q : QRef} (hpc : s.carrier = .pop q)
    {msg : Marshalled} {rest : List Marshalled}
    (hqueue : (s.queue q).q = msg :: rest) :
    Inv { s with
      queue := Function.update s.queue q { s.queue q with q := rest }
      carrier := .send q msg } := by
  have hreg : Registered s q :=
    hinv.carrier_registered (by simp [hpc, carrierClaims])
  have hclaims : claims { s with
      queue := Function.update s.queue q { s.queue q with q := rest }
      carrier := .send q msg } = claims s := by
    simp [claims, carrierClaims, hpc]
  refine ⟨?_, ?_, ?_, ?_, ?_, ?_, ?_, ?_, ?_, ?_, ?_, ?_⟩
  · intro peer' q' hq'
    simp only
    rw [queue_update_peer, queue_update_depr]
    exact hinv.registered peer' q' hq'
  · rw [hclaims]
    exact hinv.nodup
  · intro q' hq'
    rw [hclaims] at hq'
    simp only [Registered, queue_update_peer]
    exact hinv.claimed q' hq'
  · intro peer' q' hq'
    rw [hclaims]
    by_cases hq : q' = q
    · left
      simp [hq, claims, hpc, carrierClaims]
    · simp only
      rw [Function.update_of_ne hq]
      exact hinv.waits peer' q' hq'
  · intro q' hq'
    rw [hclaims] at hq'
    exact hinv.fresh q' hq'
  · exact hinv.known
  · intro peer' q' msg' hopen
    have hne : q' ≠ q := by
      rintro rfl
      obtain ⟨hnew, -⟩ := hinv.opened peer' q' msg' hopen
      rw [hnew] at hqueue
      cases hqueue
    simp only
    rw [Function.update_of_ne hne]
    exact hinv.opened peer' q' msg' hopen
  · exact hinv.posted
  · intro task htask
    simp only
    rw [queue_update_peer]
    exact hinv.tasks task htask
  · intro q' h
    cases h
  · intro q' h
    cases h
  · intro peer'
    have hlog := hinv.log peer'
    -- no queue is being opened for the peer of a registered queue
    have hcmd : (s.queue q).peer = peer' → toPeer peer' (cmdTransit s.cmd) = [] := by
      rintro rfl
      cases hc : s.cmd with
      | send peer q' msg' =>
          have hopen : (peer, q', msg') ∈ opening s.cmd := by simp [opening, hc]
          have hne := hinv.opened_ne hopen hreg
          simp [cmdTransit, toPeer_singleton, Ne.symm hne]
      | _ => simp [cmdTransit]
    have hissued : issued { s with
        queue := Function.update s.queue q { s.queue q with q := rest }
        carrier := .send q msg } = issued s := rfl
    rw [hissued, hlog]
    simp only [transit, carrierTransit, hpc, toPeer_append,
      List.nil_append, Function.update_self, toPeer_singleton]
    by_cases hpeer : (s.queue q).peer = peer'
    · have hfound : s.msgqs peer' = some q := hpeer ▸ hreg
      simp [waiting, hfound, hqueue, hpeer, hcmd hpeer]
    · have hother : ∀ q', s.msgqs peer' = some q' → q' ≠ q := by
        rintro q' hq' rfl
        exact hpeer (hinv.registered peer' q' hq').1
      cases hq' : s.msgqs peer' with
      | none => simp [waiting, hq', hpeer]
      | some q' =>
          simp [waiting, hq', hpeer, Function.update_of_ne (hother q' hq')]

/-- The carrier thread removes the queue it found empty. -/
theorem inv_rm (hinv : Inv s) {q : QRef} (hpc : s.carrier = .rm q) :
    Inv { (msgqRm s (s.queue q).peer).2 with carrier := .idle } := by
  have hreg : Registered s q :=
    hinv.carrier_registered (by simp [hpc, carrierClaims])
  have hclaims : (claims s).Perm (q :: claims { (msgqRm s (s.queue q).peer).2 with
      carrier := .idle }) := by
    rw [List.perm_iff_count]
    intro x
    simp only [claims, msgqRm, carrierClaims, hpc, List.nil_append,
      List.count_append, List.count_cons, List.count_nil]
    omega
  have hnodup := hclaims.nodup_iff.mp hinv.nodup
  have hstill : ∀ q', q' ∈ claims { (msgqRm s (s.queue q).peer).2 with
      carrier := .idle } ↔ q' ∈ claims s ∧ q' ≠ q := by
    intro q'
    rw [hclaims.mem_iff, List.mem_cons]
    constructor
    · intro hq'
      refine ⟨Or.inr hq', ?_⟩
      rintro rfl
      exact (List.nodup_cons.mp hnodup).1 hq'
    · rintro ⟨rfl | hq', hne⟩
      · exact absurd rfl hne
      · exact hq'
  -- what is still registered is another queue
  have hkept : ∀ peer' q', (msgqRm s (s.queue q).peer).2.msgqs peer' = some q' →
      q' ≠ q ∧ s.msgqs peer' = some q' := by
    intro peer' q' hq'
    simp only [msgqRm] at hq'
    by_cases hsame : peer' = (s.queue q).peer
    · rw [hsame, Function.update_self] at hq'
      cases hq'
    · rw [Function.update_of_ne hsame] at hq'
      refine ⟨?_, hq'⟩
      rintro rfl
      exact hsame (hinv.registered peer' _ hq').1.symm
  refine ⟨?_, ?_, ?_, ?_, ?_, ?_, ?_, ?_, ?_, ?_, ?_, ?_⟩
  · exact fun peer' q' hq' => hinv.registered peer' q' (hkept peer' q' hq').2
  · exact (List.nodup_cons.mp hnodup).2
  · intro q' hq'
    obtain ⟨hclaim, hne⟩ := (hstill q').mp hq'
    refine (hinv.claimed q' hclaim).imp_left fun hreg' => ?_
    have hother : (s.queue q').peer ≠ (s.queue q).peer := by
      intro hsame
      rw [Registered, hsame] at hreg'
      exact hne (Option.some.inj (hreg'.symm.trans hreg))
    simp only [Registered, msgqRm]
    rw [Function.update_of_ne hother]
    exact hreg'
  · intro peer' q' hq'
    obtain ⟨hne, hold⟩ := hkept peer' q' hq'
    rw [hstill q']
    exact (hinv.waits peer' q' hold).imp_left fun hclaim => ⟨hclaim, hne⟩
  · intro q' hq'
    exact hinv.fresh q' ((hstill q').mp hq').1
  · exact fun peer' q' hq' => hinv.known peer' q' (hkept peer' q' hq').2
  · intro peer' q' msg' hopen
    obtain ⟨hnew, hnone⟩ := hinv.opened peer' q' msg' hopen
    refine ⟨hnew, ?_⟩
    simp only [msgqRm]
    by_cases hsame : peer' = (s.queue q).peer
    · rw [hsame, Function.update_self]
    · rw [Function.update_of_ne hsame, hnone]
  · exact hinv.posted
  · exact hinv.tasks
  · intro q' h
    cases h
  · intro q' h
    cases h
  · intro peer'
    have hlog := hinv.log peer'
    have hissued : issued { (msgqRm s (s.queue q).peer).2 with
        carrier := .idle } = issued s := rfl
    have htransit : transit { (msgqRm s (s.queue q).peer).2 with
        carrier := .idle } = transit s := by
      simp [transit, carrierTransit, msgqRm, hpc]
    rw [hissued, hlog, htransit]
    by_cases hsame : peer' = (s.queue q).peer
    · have hfound : s.msgqs (s.queue q).peer = some q := hreg
      simp [waiting, msgqRm, hsame, hfound, hinv.removing q hpc]
    · simp [waiting, msgqRm, Function.update_of_ne hsame]

end Transitions

/-- Every orderly step preserves the invariant. -/
theorem inv_step (s : State) (a : Action) (t : State) (hinv : Inv s)
    (hstep : Step s a t) (hcond : Online a ∧ Orderly s a t) : Inv t := by
  obtain ⟨honline, horderly⟩ := hcond
  cases a with
  | enq peer msg =>
      simp only [Performs, next, stepEnq] at hstep
      cases hpc : s.cmd with
      | idle =>
          simp only [hpc] at hstep
          cases hget : msgqGet s peer with
          | some q =>
              simp only [hget, Option.some.injEq] at hstep
              exact hstep ▸ inv_enq_busy hinv hpc peer q msg
          | none =>
              simp only [hget, Option.some.injEq] at hstep
              exact hstep ▸ inv_enq_create hinv hpc hget msg
      | _ => simp [hpc] at hstep
  | cmd =>
      simp only [Performs, next, stepCmd] at hstep
      cases hpc : s.cmd with
      | idle => simp [hpc] at hstep
      | push peer q msg =>
          simp only [hpc, Option.some.injEq] at hstep
          simp only [Orderly, hpc] at horderly
          obtain ⟨hreg, hclaim, hcarrier⟩ := horderly
          exact hstep ▸ inv_cmd_push hinv hpc hreg hclaim hcarrier
      | send peer q msg =>
          simp only [hpc, Option.some.injEq] at hstep
          exact hstep ▸ inv_cmd_send hinv hpc
      | put peer q msg =>
          simp only [hpc, Option.some.injEq] at hstep
          exact hstep ▸ inv_cmd_put hinv hpc
  | task accepted =>
      simp only [Performs, next, stepTask] at hstep
      cases hpc : s.cmd with
      | idle =>
          cases hpool : s.pool with
          | nil => simp [hpc, runSendTask, hpool] at hstep
          | cons task rest =>
              simp only [hpc, runSendTask, hpool, Option.some.injEq] at hstep
              cases accepted with
              | true => exact hstep ▸ hpc ▸ inv_task hinv hpc hpool
              | false =>
                  have hempty : (s.queue task.receiptContext).q = [] := by
                    simpa [Orderly, hpool] using horderly
                  exact hstep ▸ hpc ▸ inv_refused hinv hpc hpool hempty
      | _ => simp [hpc] at hstep
  | receipt index =>
      simp only [Performs, next, stepReceipt] at hstep
      cases hpc : s.carrier with
      | idle =>
          cases htask : s.flight[index]? with
          | none => simp [hpc, htask] at hstep
          | some task =>
              simp only [hpc, htask, Option.some.injEq] at hstep
              exact hstep ▸ inv_receipt hinv hpc htask
      | _ => simp [hpc] at hstep
  | offline peer => exact honline.elim
  | carrier =>
      simp only [Performs, next, stepCarrier] at hstep
      cases hpc : s.carrier with
      | idle => simp [hpc] at hstep
      | checkDepr q =>
          simp only [hpc, Option.some.injEq] at hstep
          exact hstep ▸ inv_checkDepr hinv hpc
      | pop q =>
          simp only [hpc, msgqPopHead] at hstep
          cases hqueue : (s.queue q).q with
          | nil =>
              simp only [hqueue, Option.some.injEq] at hstep
              exact hstep ▸ inv_pop_empty hinv hpc hqueue
          | cons msg rest =>
              simp only [hqueue, Option.some.injEq] at hstep
              exact hstep ▸ inv_pop_some hinv hpc hqueue
      | send q msg =>
          simp only [hpc, Option.some.injEq] at hstep
          exact hstep ▸ inv_carrier_send hinv hpc
      | rm q =>
          simp only [hpc, Option.some.injEq] at hstep
          exact hstep ▸ inv_rm hinv hpc
      | setDepr q => exact absurd hpc (hinv.online q)

/-- What the queues owe their callers. -/
structure Delivers (s : State) : Prop where
  once : Quiescent s → ∀ peer, toPeer peer s.handed = toPeer peer s.enqd
  ordered : ∀ peer, toPeer peer s.handed <+: toPeer peer s.enqd
  single : ∀ peer, (outstandingTo s peer).length ≤ 1

theorem Inv.once {s : State} (hinv : Inv s) (hquiet : Quiescent s)
    (peer : Peer) : toPeer peer s.handed = toPeer peer s.enqd := by
  obtain ⟨hcmd, hcarrier, hpool, hflight⟩ := (quiescent_iff s).mp hquiet
  have hclaims : claims s = [] := by
    simp [claims, hcmd, hcarrier, hpool, hflight, carrierClaims, cmdClaims]
  have hwaiting : waiting s peer = [] := by
    cases hq : s.msgqs peer with
    | none => simp [waiting, hq]
    | some q =>
        have hempty : (s.queue q).q = [] := by
          simpa [hclaims] using hinv.waits peer q hq
        simp [waiting, hq, hempty]
  have hlog := hinv.log peer
  simpa [issued, transit, carrierTransit, hcmd, hcarrier, hpool, opening,
    cmdTransit, hwaiting] using hlog.symm

/-- The message of a call that has not returned is still on its way. -/
theorem Inv.transit_ne_nil {s : State} (hinv : Inv s) {peer : Peer} {q : QRef}
    {msg : Marshalled} (hopen : (peer, q, msg) ∈ opening s.cmd) :
    toPeer peer (transit s) ≠ [] := by
  cases hpc : s.cmd with
  | idle => simp [opening, hpc] at hopen
  | push peer' q' msg' => simp [opening, hpc] at hopen
  | send peer' q' msg' =>
      simp only [opening, hpc, List.mem_singleton, Prod.mk.injEq] at hopen
      obtain ⟨rfl, rfl, rfl⟩ := hopen
      simp [transit, cmdTransit, hpc, toPeer_singleton]
  | put peer' q' msg' =>
      simp only [opening, hpc, List.mem_singleton, Prod.mk.injEq] at hopen
      obtain ⟨rfl, rfl, rfl⟩ := hopen
      obtain ⟨task, htask, hcontext⟩ :=
        List.mem_map.mp (hinv.posted peer q msg hpc)
      have hpeer := hinv.tasks task (List.mem_append_left _ htask)
      rw [hcontext, (hinv.opened peer q msg (by simp [opening, hpc])).1] at hpeer
      simp only [transit, toPeer_append, ne_eq, List.append_eq_nil_iff, not_and]
      intro hnil
      simp only [toPeer, List.map_eq_nil_iff, List.filter_eq_nil_iff] at hnil
      have hfalse := hnil (task.peer, task.data) (List.mem_map_of_mem htask)
      simp [← hpeer] at hfalse

theorem Inv.ordered {s : State} (hinv : Inv s) (peer : Peer) :
    toPeer peer s.handed <+: toPeer peer s.enqd := by
  have hlog := hinv.log peer
  simp only [issued, toPeer_append] at hlog
  cases hopen : toPeer peer ((opening s.cmd).map fun entry =>
      (entry.1, entry.2.2)) with
  | nil =>
      rw [hopen, List.append_nil] at hlog
      exact ⟨_, hlog.symm⟩
  | cons msg rest =>
      have hmem : ∃ q msg, (peer, q, msg) ∈ opening s.cmd := by
        have hhead : msg ∈ toPeer peer ((opening s.cmd).map fun entry =>
            (entry.1, entry.2.2)) := by rw [hopen]; simp
        simp only [toPeer, List.mem_map, List.mem_filter] at hhead
        obtain ⟨_, ⟨⟨⟨peer', q, msg'⟩, hentry, rfl⟩, hpeer⟩, -⟩ := hhead
        simp only [decide_eq_true_eq] at hpeer
        exact ⟨q, msg', hpeer ▸ hentry⟩
      obtain ⟨q, msg', hentry⟩ := hmem
      have hlength : (toPeer peer ((opening s.cmd).map fun entry =>
          (entry.1, entry.2.2))).length ≤ 1 := by
        have hfilter := List.length_filter_le
          (fun entry : Peer × Marshalled => decide (entry.1 = peer))
          ((opening s.cmd).map fun entry => (entry.1, entry.2.2))
        have hone : (opening s.cmd).length ≤ 1 := by
          cases s.cmd <;> simp [opening]
        simp only [toPeer, List.length_map] at hfilter ⊢
        omega
      have hne := hinv.transit_ne_nil hentry
      have hpos : 0 < (toPeer peer (transit s)).length :=
        List.length_pos_iff.mpr hne
      have hcount := congrArg List.length hlog
      simp only [List.length_append] at hcount
      exact List.prefix_of_prefix_length_le ⟨_, hlog.symm⟩
        (List.prefix_append _ _) (by omega)

theorem Inv.single {s : State} (hinv : Inv s) (peer : Peer) :
    (outstandingTo s peer).length ≤ 1 := by
  have hsame : ∀ task ∈ s.flight, task.peer = peer →
      ∀ other ∈ s.flight, other.peer = peer →
        task.receiptContext = other.receiptContext := by
    have hwho : ∀ task ∈ s.flight, task.peer = peer →
        s.msgqs peer = some task.receiptContext ∨
          ∃ msg, (peer, task.receiptContext, msg) ∈ opening s.cmd := by
      intro task htask hpeer
      have hpeer' := hinv.tasks task (List.mem_append_right _ htask)
      have hclaim : task.receiptContext ∈ claims s :=
        List.mem_append_right _ (List.mem_append_left _ (List.mem_map_of_mem htask))
      rcases hinv.claimed _ hclaim with hreg | hopen
      · left
        rw [Registered, hpeer', hpeer] at hreg
        exact hreg
      · right
        obtain ⟨⟨peer', q, msg⟩, hmem, heq⟩ := List.mem_map.mp hopen
        simp only at heq
        subst heq
        rw [(hinv.opened peer' _ msg hmem).1] at hpeer'
        simp only at hpeer'
        exact ⟨msg, hpeer ▸ hpeer' ▸ hmem⟩
    intro task htask hpeer other hother hpeer'
    rcases hwho task htask hpeer with hreg | ⟨msg, hopen⟩ <;>
      rcases hwho other hother hpeer' with hreg' | ⟨msg', hopen'⟩
    · rw [hreg, Option.some.injEq] at hreg'
      exact hreg'
    · rw [(hinv.opened _ _ _ hopen').2] at hreg
      cases hreg
    · rw [(hinv.opened _ _ _ hopen).2] at hreg'
      cases hreg'
    · cases hpc : s.cmd <;> simp_all [opening]
  have hnodup : (s.flight.map SendTask.receiptContext).Nodup := by
    have hclaims := hinv.nodup
    simp only [claims, List.nodup_append] at hclaims
    exact hclaims.2.1.1
  have hfiltered : ((outstandingTo s peer).map SendTask.receiptContext).Nodup :=
    hnodup.sublist (List.Sublist.map _ List.filter_sublist)
  match hout : outstandingTo s peer with
  | [] => simp
  | [task] => simp
  | task :: other :: rest =>
      exfalso
      have hmem : ∀ x ∈ outstandingTo s peer, x ∈ s.flight ∧ x.peer = peer := by
        intro x hx
        simpa [outstandingTo] using hx
      obtain ⟨htask, hpeer⟩ := hmem task (by simp [hout])
      obtain ⟨hother, hpeer'⟩ := hmem other (by simp [hout])
      rw [hout] at hfiltered
      simp [hsame task htask hpeer other hother hpeer'] at hfiltered

theorem Inv.delivers {s : State} (hinv : Inv s) : Delivers s :=
  ⟨hinv.once, hinv.ordered, hinv.single⟩

/-- In every run in which the peers stay online and every step is orderly, the
queues deliver in every state. -/
theorem delivers_of_orderly (as : List Action) (honline : ∀ a ∈ as, Online a)
    (horderly : EachStep Step Orderly State.init as) :
    Always Step Delivers State.init as := by
  have hcond := (eachStep_of_forall honline State.init).and horderly
  have hinv := always_of_eachStep inv_step inv_init hcond
  exact hinv.mono fun _ h => h.delivers

/-- The second call finds the queue of the first, and pushes after the receipt
callback found it empty and removed it. -/
def lateRun : List Action :=
  [.enq "alice" [1], .cmd, .cmd, .task true, .receipt 0, .carrier, .carrier,
    .enq "alice" [2], .carrier, .cmd]

/-- The same two messages, the second pushed in time, and one to another peer that
the transport refuses. -/
def timelyRun : List Action :=
  [.enq "alice" [1], .cmd, .cmd, .task true, .enq "alice" [2], .cmd,
    .receipt 0, .carrier, .carrier, .carrier, .enq "bob" [3], .cmd, .cmd,
    .task true, .task false, .receipt 0, .carrier, .carrier, .carrier]

theorem delivers_timelyRun : Always Step Delivers State.init timelyRun :=
  delivers_of_orderly timelyRun (by simp [timelyRun, Online]) (by decide)

/-- A message for which `msgq_enq` returned 0 is never handed over, although
every peer stays online and the transport accepts and receipts what it gets. -/
theorem not_always_delivers :
    ¬ ∀ as : List Action, (∀ a ∈ as, Online a) →
      Always Step Delivers State.init as := by
  intro h
  have halways := h lateRun (by simp [lateRun, Online])
  cases hexec : exec next State.init lateRun with
  | none => exact absurd hexec (by decide)
  | some t =>
      have hlast := halways.last (run_of_exec hexec)
      have hquiet : Quiescent t := by
        rw [quiescent_iff]
        cases hexec
        decide
      have honce := hlast.once hquiet "alice"
      cases hexec
      exact absurd honce (by decide)

end FeedsService.MsgQueue
