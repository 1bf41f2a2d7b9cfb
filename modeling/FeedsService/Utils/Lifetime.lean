import FeedsService.Utils.ThreadPool
import Mathlib.Data.List.Infix

/-!
# Tasks and the lifetime of their pool

Tasks are started in the order in which they were posted, each once, and no task waits for
a thread that nothing will wake.  The destructor is not so safe: the last reference must not go
while the thread of the pool is behind a task, nor while a task waits.
-/

namespace FeedsService.Utils

open FeedsService.Runs

variable {τ : Type} {pool pool' : ThreadPool τ}

section Counting

theorem useCount_setWorker {idx : ℕ} {old : Worker} (hold : pool.workers[idx]? = some old)
    (worker : Worker) : (pool.setWorker idx worker).useCount + old.holds.toNat =
      pool.useCount + worker.holds.toNat := by
  obtain ⟨hidx, hget⟩ := List.getElem?_eq_some_iff.mp hold
  have hset := List.countP_set (p := Worker.holds) (a := worker) hidx
  have hcounted : old.holds.toNat ≤ pool.workers.countP Worker.holds := by
    cases hholds : old.holds with
    | false => exact Nat.zero_le _
    | true =>
        exact List.countP_pos_iff.mpr ⟨old, hget ▸ List.getElem_mem hidx, hholds⟩
  rw [hget] at hset
  have htoNat (worker : Worker) : (if worker.holds = true then 1 else 0) = worker.holds.toNat := by
    cases worker <;> rfl
  rw [htoNat, htoNat] at hset
  simp only [ThreadPool.useCount, ThreadPool.setWorker]
  omega

theorem countP_wake (workers : List Worker) :
    (workers.map Worker.wake).countP Worker.holds = workers.countP Worker.holds := by
  rw [List.countP_map]
  refine List.countP_congr fun worker _ => ?_
  cases worker <;> exact Iff.rfl

theorem useCount_notifyAll (pool : ThreadPool τ) : pool.notifyAll.useCount = pool.useCount :=
  congrArg (pool.refs + ·) (countP_wake pool.workers)

theorem useCount_left {idx : ℕ} (ofTask : Bool) (hworker : pool.workers[idx]? = some .leaving)
    (hrefs : ofTask.toNat ≤ pool.refs) :
    (pool.left idx ofTask).useCount + ofTask.toNat + 1 = pool.useCount := by
  have hset := useCount_setWorker hworker .ready
  simp only [ThreadPool.useCount, ThreadPool.setWorker, ThreadPool.left, Worker.holds,
    Bool.toNat_true, Bool.toNat_false] at hset ⊢
  omega

end Counting

section Order

/-- The tasks of a pool. -/
structure Ordered (pool : ThreadPool τ) : Prop where
  staffed : pool.workers ≠ []
  quit : pool.quit = true → pool.useCount = 0
  exited : Worker.exited ∈ pool.workers → pool.useCount = 0
  /-- each task is started once, and in its turn -/
  started : pool.started <+: pool.posted
  /-- none is lost before the destructor -/
  queued : pool.quit = false → pool.fault = none → pool.posted = pool.started ++ pool.taskQueue
  /-- a task that waits has a thread that is up, or a notification under way -/
  awake : pool.quit = false → pool.taskQueue ≠ [] →
    0 < pool.notifying ∨ pool.useCount = 0 ∨ ∃ worker ∈ pool.workers, worker ≠ .asleep

theorem ordered_create (threadCnt : ℕ) :
    Ordered (ThreadPool.create (threadCnt + 1) : ThreadPool τ) where
  staffed h := nomatch h
  quit h := nomatch h
  exited h := absurd (List.eq_of_mem_replicate h) (by decide)
  started := List.prefix_rfl
  queued _ _ := rfl
  awake _ h := absurd rfl h

theorem mem_notifyAll_ne_asleep {worker : Worker} (h : worker ∈ pool.notifyAll.workers) :
    worker ≠ .asleep := by
  obtain ⟨old, -, rfl⟩ := List.mem_map.mp h
  cases old <;> decide

/-- After a notification some thread is up. -/
theorem exists_awake (hstaffed : pool.workers ≠ []) :
    ∃ worker ∈ pool.notifyAll.workers, worker ≠ .asleep := by
  obtain ⟨worker, hworker⟩ := List.exists_mem_of_ne_nil _ hstaffed
  have hmem : worker.wake ∈ pool.notifyAll.workers := List.mem_map_of_mem hworker
  exact ⟨_, hmem, mem_notifyAll_ne_asleep hmem⟩

theorem exited_mem_notifyAll (h : Worker.exited ∈ pool.notifyAll.workers) :
    Worker.exited ∈ pool.workers := by
  obtain ⟨old, hold, hwake⟩ := List.mem_map.mp h
  cases old <;> first | exact hold | cases hwake

theorem mem_setWorker {idx : ℕ} {old : Worker} (hold : pool.workers[idx]? = some old)
    (worker : Worker) : worker ∈ (pool.setWorker idx worker).workers :=
  List.mem_set (List.getElem?_eq_some_iff.mp hold).1 _

theorem staffed_of_mem {worker : Worker} (h : worker ∈ pool.workers) : pool.workers ≠ [] :=
  List.ne_nil_of_mem h

/-- A thread that changes over.  From zero the count of references does not rise again. -/
theorem Ordered.setWorker (h : Ordered pool) {idx : ℕ} {old worker : Worker}
    (hold : pool.workers[idx]? = some old)
    (hzero : pool.useCount = 0 → (pool.setWorker idx worker).useCount = 0)
    (hexited : worker = .exited → (pool.setWorker idx worker).useCount = 0)
    (hasleep : worker = .asleep → pool.taskQueue = []) : Ordered (pool.setWorker idx worker) where
  staffed := staffed_of_mem (mem_setWorker hold worker)
  quit hquit := hzero (h.quit hquit)
  exited hmem := by
    obtain hmem | heq := List.mem_or_eq_of_mem_set hmem
    · exact hzero (h.exited hmem)
    · exact hexited heq.symm
  started := h.started
  queued := h.queued
  awake _ hqueue := Or.inr (Or.inr
    ⟨worker, mem_setWorker hold worker, fun heq => hqueue (hasleep heq)⟩)

/-- All threads up, while there are references. -/
theorem Ordered.notifyAll (h : Ordered pool) : Ordered pool.notifyAll where
  staffed := fun hnil => h.staffed (List.map_eq_nil_iff.mp hnil)
  quit hquit := (useCount_notifyAll pool).trans (h.quit hquit)
  exited hmem := (useCount_notifyAll pool).trans (h.exited (exited_mem_notifyAll hmem))
  started := h.started
  queued := h.queued
  awake _ _ := Or.inr (Or.inr (exists_awake h.staffed))

/-- A task that is pushed waits for a notification. -/
theorem Ordered.push (h : Ordered pool) (task : τ) :
    Ordered { pool.push task with notifying := pool.notifying + 1 } where
  staffed := h.staffed
  quit := h.quit
  exited := h.exited
  started := h.started.trans (List.prefix_append _ _)
  queued hquit hfault := by
    have hposted := h.queued hquit hfault
    exact (congrArg (· ++ [task]) hposted).trans (List.append_assoc _ _ _)
  awake _ _ := Or.inl (Nat.succ_pos _)

theorem Ordered.setNotifying (h : Ordered pool.notifyAll) (notifying : ℕ) :
    Ordered { pool.notifyAll with notifying := notifying } where
  staffed := h.staffed
  quit := h.quit
  exited := h.exited
  started := h.started
  queued := h.queued
  awake _ _ := Or.inr (Or.inr (exists_awake fun hnil => h.staffed (List.map_eq_nil_iff.mpr hnil)))

theorem Ordered.moves {action : PoolAction τ} (h : Ordered pool) (hfault : pool.fault = none)
    (hmoves : Moves pool action pool') : Ordered pool' := by
  cases hmoves with
  | ignores => exact h
  | postsMoved task huse hquit => exact (h.push task).notifyAll.setNotifying _
  | postsCopy task huse hquit => exact h.push task
  | notifies => exact h.notifyAll.setNotifying _
  | acquires hrefs =>
      have hcount : pool.useCount ≠ 0 := by
        rw [ThreadPool.useCount]
        omega
      exact ⟨h.staffed, fun hquit => absurd (h.quit hquit) hcount,
        fun hmem => absurd (h.exited hmem) hcount, h.started, h.queued, fun hquit hqueue =>
          (h.awake hquit hqueue).imp_right fun hor => hor.imp_left fun hzero => absurd hzero hcount⟩
  | releases hrefs =>
      have hcount : pool.useCount ≠ 0 := by
        rw [ThreadPool.useCount]
        omega
      exact ⟨h.staffed, fun hquit => absurd (h.quit hquit) hcount,
        fun hmem => absurd (h.exited hmem) hcount, h.started, h.queued, fun hquit hqueue =>
          (h.awake hquit hqueue).imp_right fun hor => hor.imp_left fun hzero => absurd hzero hcount⟩
  | exits hworker hquit =>
      have hcount := useCount_setWorker hworker .exited
      have hzero := h.quit hquit
      refine h.setWorker hworker (fun _ => ?_) (fun _ => ?_) (fun heq => nomatch heq)
      · exact hcount.trans hzero
      · exact hcount.trans hzero
  | sleeps hworker hquit hqueue =>
      have hcount := useCount_setWorker hworker .asleep
      exact h.setWorker hworker hcount.trans (fun heq => nomatch heq) fun _ => hqueue
  | throws hworker hquit hqueue huse =>
      have hqueued (hnone : some PoolFault.badWeakPtr = none) : False := nomatch hnone
      exact ⟨h.staffed, fun _ => huse, fun _ => huse, h.started,
        fun _ hnone => (hqueued hnone).elim,
        fun _ _ => Or.inr (Or.inl huse)⟩
  | @starts idx task rest hworker hquit hqueue huse =>
      have hposted := h.queued hquit hfault
      rw [hqueue] at hposted
      have hposted : pool.posted = pool.started ++ [task] ++ rest := by
        rw [hposted, List.append_assoc]
        rfl
      refine ⟨staffed_of_mem (mem_setWorker hworker .processing), ?_, fun hmem => ?_,
        hposted ▸ List.prefix_append _ _, fun _ _ => hposted, fun _ _ => ?_⟩
      · exact fun htrue => absurd (hquit.symm.trans htrue) (by decide)
      · obtain hmem | heq := List.mem_or_eq_of_mem_set hmem
        · exact absurd (h.exited hmem) huse
        · cases heq
      · exact Or.inr (Or.inr ⟨_, mem_setWorker hworker .processing, by decide⟩)
  | wakes hworker =>
      have hcount := useCount_setWorker hworker .ready
      exact h.setWorker hworker hcount.trans (fun heq => nomatch heq) fun heq => nomatch heq
  | breaks hworker huse =>
      have hcount := useCount_setWorker hworker .exited
      rw [huse] at hcount
      have hzero : (pool.setWorker _ .exited).useCount = 0 := Nat.succ.inj hcount
      exact h.setWorker hworker (fun _ => hzero) (fun _ => hzero) fun heq => nomatch heq
  | goesOn hworker huse =>
      have hcount := useCount_setWorker hworker .leaving
      refine h.setWorker hworker (fun hzero => ?_) (fun heq => nomatch heq) fun heq => nomatch heq
      exact (Nat.succ.inj hcount).trans hzero
  | @leaves idx ofTask hworker hrefs huse =>
      have hcount := useCount_left _ hworker hrefs
      have hne : pool.useCount ≠ 0 := by omega
      refine ⟨staffed_of_mem (mem_setWorker hworker .ready), fun hquit => absurd (h.quit hquit) hne,
        fun hmem => ?_, h.started, h.queued, fun _ _ => ?_⟩
      · obtain hmem | heq := List.mem_or_eq_of_mem_set hmem
        · exact absurd (h.exited hmem) hne
        · cases heq
      · exact Or.inr (Or.inr ⟨_, mem_setWorker hworker .ready, by decide⟩)
  | @frees idx ofTask hworker hrefs huse =>
      have hqueued (hnone : some PoolFault.useAfterFree = none) : False := nomatch hnone
      exact ⟨staffed_of_mem (mem_setWorker hworker .ready), fun _ => huse, fun _ => huse, h.started,
        fun _ hnone => (hqueued hnone).elim, fun _ _ => Or.inr (Or.inl huse)⟩
  | destroys huse hquit =>
      have hzero := (useCount_notifyAll pool).trans huse
      have hquits (hnot : true = false) : False := nomatch hnot
      exact ⟨h.notifyAll.staffed, fun _ => hzero, fun _ => hzero, h.started,
        fun hnot => (hquits hnot).elim, fun hnot => (hquits hnot).elim⟩

/-- In every interleaving of the owners and the threads of a pool, each task is started once, in
the order of the posts, none is lost before the destructor runs, and while a task waits some
thread is up or is about to be notified. -/
theorem ordered_always (threadCnt : ℕ) (actions : List (PoolAction τ)) :
    Always (Performs nextPool) Ordered (.create (threadCnt + 1)) actions :=
  @always_of_preserved _ _ (Performs nextPool) Ordered
    (fun _ _ _ h hstep => h.moves (moves_of_next hstep).1 (moves_of_next hstep).2) _
    (ordered_create threadCnt) actions

end Order

section Lifetime

/-- A pool of one thread whose references are still in order: the thread is not behind a task
with the last of them, and no task waits for a pool that nobody refers to. -/
inductive Held (pool : ThreadPool τ) (worker : Worker) : Prop
  | referred (hrefs : 0 < pool.refs) (hquit : pool.quit = false) (hworker : worker ≠ .exited)
  | runs (hrefs : pool.refs = 0) (hquit : pool.quit = false) (hworker : worker = .processing)
  | exited (hrefs : pool.refs = 0) (hworker : worker = .exited)
  | idle (hrefs : pool.refs = 0) (hworker : worker = .ready ∨ worker = .asleep)
      (hqueue : pool.taskQueue = [])

/-- The references of a pool with one thread. -/
structure Kept (pool : ThreadPool τ) : Prop where
  fault : pool.fault = none
  held : ∃ worker, pool.workers = [worker] ∧ Held pool worker

/-- The last reference of the owners goes while the thread is in a task, or while it waits and
nothing else does; and no task takes it with it. -/
def Careful (pool : ThreadPool τ) : PoolAction τ → Prop
  | .release => pool.refs = 1 →
      Worker.leaving ∉ pool.workers ∧ (pool.useCount = 1 → pool.taskQueue = [])
  | .leave _ ofTask => ofTask = true → pool.refs ≠ 1
  | _ => True

/-- What the thread of the pool, the destructor and pending notifications do by themselves. -/
def PoolAction.IsOwn : PoolAction τ → Prop
  | .post _ _ => False
  | .acquire => False
  | .release => False
  | .leave _ ofTask => ofTask = false
  | _ => True

/-- Nothing that the pool does by itself from here on leads to a fault. -/
def Faultless (pool : ThreadPool τ) : Prop :=
  ∀ later, (∀ action ∈ later, action.IsOwn) →
    Always (Performs nextPool) (fun pool => pool.fault = none) pool later

theorem careful_of_isOwn {action : PoolAction τ} (h : action.IsOwn) : Careful pool action := by
  cases action with
  | release => exact h.elim
  | leave idx ofTask =>
      intro htrue
      rw [show ofTask = false from h] at htrue
      cases htrue
  | post | notify | acquire | check | spurious | examine | destroy => trivial

theorem kept_create : Kept (.create 1 : ThreadPool τ) :=
  ⟨rfl, .ready, rfl, .referred Nat.one_pos rfl (by decide)⟩

theorem worker_of_single {worker other : Worker} (hworkers : pool.workers = [worker]) {idx : ℕ}
    (hworker : pool.workers[idx]? = some other) : idx = 0 ∧ worker = other := by
  rw [hworkers] at hworker
  cases idx with
  | zero => exact ⟨rfl, Option.some.inj hworker⟩
  | succ idx => cases hworker

theorem useCount_single {worker : Worker} (hworkers : pool.workers = [worker]) :
    pool.useCount = pool.refs + worker.holds.toNat := by
  rw [ThreadPool.useCount, hworkers]
  cases worker <;> rfl

theorem setWorker_single {worker other : Worker} (hworkers : pool.workers = [worker]) :
    (pool.setWorker 0 other).workers = [other] := by
  rw [ThreadPool.setWorker, hworkers]
  rfl

theorem notifyAll_single {worker : Worker} (hworkers : pool.workers = [worker]) :
    pool.notifyAll.workers = [worker.wake] := by
  rw [ThreadPool.notifyAll, hworkers]
  rfl

theorem Held.of_same {worker : Worker} (h : Held pool worker) (hrefs : pool'.refs = pool.refs)
    (hquit : pool'.quit = pool.quit) (hqueue : pool'.taskQueue = pool.taskQueue) :
    Held pool' worker := by
  cases h with
  | referred hpos hnot hworker => exact .referred (hrefs ▸ hpos) (hquit.trans hnot) hworker
  | runs hzero hnot hworker => exact .runs (hrefs.trans hzero) (hquit.trans hnot) hworker
  | exited hzero hworker => exact .exited (hrefs.trans hzero) hworker
  | idle hzero hworker hempty => exact .idle (hrefs.trans hzero) hworker (hqueue.trans hempty)

theorem Held.wake {worker : Worker} (h : Held pool worker) : Held pool worker.wake := by
  cases worker with
  | asleep =>
      cases h with
      | referred hrefs hquit => exact .referred hrefs hquit (by decide)
      | runs hrefs hquit hworker => cases hworker
      | exited hrefs hworker => cases hworker
      | idle hrefs hworker hqueue => exact .idle hrefs (Or.inl rfl) hqueue
  | ready | processing | leaving | exited => exact h

/-- While there are references, the queue does not matter. -/
theorem Held.push {worker : Worker} (h : Held pool worker)
    (huse : 0 < pool.refs + worker.holds.toNat) (task : τ) (notifying : ℕ) :
    Held { pool.push task with notifying := notifying } worker := by
  cases h with
  | referred hrefs hquit hworker => exact .referred hrefs hquit hworker
  | runs hrefs hquit hworker => exact .runs hrefs hquit hworker
  | exited hrefs hworker => exact .exited hrefs hworker
  | idle hrefs hworker =>
      rw [hrefs] at huse
      obtain rfl | rfl := hworker <;> cases huse

theorem Kept.moves {action : PoolAction τ} (h : Kept pool) (hmoves : Moves pool action pool')
    (hcareful : Careful pool action) : Kept pool' := by
  obtain ⟨hfault, worker, hworkers, hheld⟩ := h
  have huseCount := useCount_single hworkers
  cases hmoves with
  | ignores => exact ⟨hfault, worker, hworkers, hheld⟩
  | postsMoved task huse hquit =>
      exact ⟨hfault, worker.wake, notifyAll_single hworkers,
        (hheld.push (huseCount ▸ huse) task pool.notifying).wake.of_same rfl rfl rfl⟩
  | postsCopy task huse hquit =>
      exact ⟨hfault, worker, hworkers, hheld.push (huseCount ▸ huse) task _⟩
  | notifies =>
      exact ⟨hfault, worker.wake, notifyAll_single hworkers, hheld.wake.of_same rfl rfl rfl⟩
  | acquires hrefs =>
      refine ⟨hfault, worker, hworkers, ?_⟩
      cases hheld with
      | referred hrefs hquit hworker => exact .referred (Nat.succ_pos _) hquit hworker
      | runs hnone | exited hnone | idle hnone => exact absurd hnone hrefs.ne'
  | releases hrefs =>
      refine ⟨hfault, worker, hworkers, ?_⟩
      cases hheld with
      | runs hnone | exited hnone | idle hnone => exact absurd hnone hrefs.ne'
      | referred _ hquit hworker =>
          obtain hmany | hlast : 1 < pool.refs ∨ pool.refs = 1 := by omega
          · exact .referred (Nat.sub_pos_of_lt hmany) hquit hworker
          · obtain ⟨hleaving, hempty⟩ := hcareful hlast
            have hzero : pool.refs - 1 = 0 := by omega
            rw [hworkers, List.mem_singleton] at hleaving
            rw [huseCount, hlast] at hempty
            cases worker with
            | ready => exact .idle hzero (Or.inl rfl) (hempty rfl)
            | asleep => exact .idle hzero (Or.inr rfl) (hempty rfl)
            | processing => exact .runs hzero hquit rfl
            | leaving => exact absurd rfl hleaving
            | exited => exact absurd rfl hworker
  | exits hworker hquit =>
      obtain ⟨rfl, rfl⟩ := worker_of_single hworkers hworker
      refine ⟨hfault, .exited, setWorker_single hworkers, ?_⟩
      cases hheld with
      | referred hrefs hnot => exact absurd (hquit.symm.trans hnot) (by decide)
      | runs hrefs hnot => exact absurd (hquit.symm.trans hnot) (by decide)
      | exited hrefs hworker => cases hworker
      | idle hrefs => exact .exited hrefs rfl
  | sleeps hworker hquit hqueue =>
      obtain ⟨rfl, rfl⟩ := worker_of_single hworkers hworker
      refine ⟨hfault, .asleep, setWorker_single hworkers, ?_⟩
      cases hheld with
      | referred hrefs hquit => exact .referred hrefs hquit (by decide)
      | runs hrefs hquit hworker => cases hworker
      | exited hrefs hworker => cases hworker
      | idle hrefs => exact .idle hrefs (Or.inr rfl) hqueue
  | throws hworker hquit hqueue huse =>
      obtain ⟨rfl, rfl⟩ := worker_of_single hworkers hworker
      cases hheld with
      | referred hrefs => omega
      | runs hrefs hquit hworker => cases hworker
      | exited hrefs hworker => cases hworker
      | idle hrefs hworker hempty => cases hqueue.symm.trans hempty
  | starts hworker hquit hqueue huse =>
      obtain ⟨rfl, rfl⟩ := worker_of_single hworkers hworker
      have hrefs : pool.refs ≠ 0 := fun hzero => huse (huseCount.trans (by rw [hzero]; rfl))
      exact ⟨hfault, .processing, setWorker_single hworkers,
        .referred (Nat.pos_of_ne_zero hrefs) hquit (by decide)⟩
  | wakes hworker =>
      obtain ⟨rfl, rfl⟩ := worker_of_single hworkers hworker
      refine ⟨hfault, .ready, setWorker_single hworkers, ?_⟩
      cases hheld with
      | referred hrefs hquit => exact .referred hrefs hquit (by decide)
      | runs hrefs hquit hworker => cases hworker
      | exited hrefs hworker => cases hworker
      | idle hrefs hworker hqueue => exact .idle hrefs (Or.inl rfl) hqueue
  | breaks hworker huse =>
      obtain ⟨rfl, rfl⟩ := worker_of_single hworkers hworker
      exact ⟨hfault, .exited, setWorker_single hworkers,
        .exited (Nat.succ.inj (huseCount.symm.trans huse)) rfl⟩
  | goesOn hworker huse =>
      obtain ⟨rfl, rfl⟩ := worker_of_single hworkers hworker
      refine ⟨hfault, .leaving, setWorker_single hworkers, ?_⟩
      cases hheld with
      | referred hrefs hquit => exact .referred hrefs hquit (by decide)
      | runs hrefs => exact absurd (huseCount.trans (by rw [hrefs]; rfl)) huse
      | exited hrefs hworker => cases hworker
      | idle hrefs hworker =>
          obtain hworker | hworker := hworker <;> cases hworker
  | @leaves idx ofTask hworker hrefs huse =>
      obtain ⟨rfl, rfl⟩ := worker_of_single hworkers hworker
      refine ⟨hfault, .ready, setWorker_single hworkers, ?_⟩
      cases hheld with
      | referred hpos hquit =>
          refine .referred ?_ hquit (by decide)
          have hlast : ofTask = true → pool.refs ≠ 1 := hcareful
          show 0 < pool.refs - ofTask.toNat
          cases ofTask with
          | false => exact hpos
          | true =>
              have hmany : 1 < pool.refs := lt_of_le_of_ne hpos (Ne.symm (hlast rfl))
              exact Nat.sub_pos_of_lt hmany
      | runs hrefs hquit hworker => cases hworker
      | exited hrefs hworker => cases hworker
      | idle hrefs hworker =>
          obtain hworker | hworker := hworker <;> cases hworker
  | @frees idx ofTask hworker hrefs huse =>
      obtain ⟨rfl, rfl⟩ := worker_of_single hworkers hworker
      have hcount := useCount_left _ hworker hrefs
      have hlast : ofTask = true → pool.refs ≠ 1 := hcareful
      rw [huse, huseCount, Nat.zero_add] at hcount
      have hrefs : ofTask.toNat = pool.refs := Nat.succ.inj hcount
      cases hheld with
      | referred hpos hquit =>
          cases ofTask with
          | false => exact absurd hrefs hpos.ne
          | true => exact absurd hrefs.symm (hlast rfl)
      | runs hrefs hquit hworker => cases hworker
      | exited hrefs hworker => cases hworker
      | idle hrefs hworker =>
          obtain hworker | hworker := hworker <;> cases hworker
  | destroys huse hquit =>
      refine ⟨hfault, worker.wake, notifyAll_single hworkers, ?_⟩
      cases hheld.wake with
      | referred hrefs => omega
      | runs hrefs hquit hworker =>
          have hholds : worker.holds.toNat = 1 := by
            cases worker <;> first | rfl | cases hworker
          omega
      | exited hrefs hworker => exact .exited hrefs hworker
      | idle hrefs hworker => exact .idle hrefs hworker rfl

theorem Kept.faultless (h : Kept pool) : Faultless pool := by
  intro later hown
  have hcareful : EachStep (Performs nextPool) (fun pool action _ => Careful pool action) pool
      later :=
    (eachStep_of_forall hown pool).mono fun _ _ _ _ hisOwn => careful_of_isOwn hisOwn
  have hkept : Always (Performs nextPool) Kept pool later := always_of_eachStep
    (fun _ _ _ hkept hstep hcareful => hkept.moves (moves_of_next hstep).2 hcareful) h hcareful
  exact hkept.mono fun _ hkept => hkept.fault

/-- A thread that comes out of a task with nobody left reads `mQuit` of a pool that is gone. -/
theorem not_faultless_leaving (hfault : pool.fault = none)
    (hworkers : pool.workers = [Worker.leaving]) (hrefs : pool.refs = 0) : ¬ Faultless pool := by
  intro hfaultless
  have hworker : pool.workers[0]? = some .leaving := by rw [hworkers]; rfl
  have hcount := useCount_left false hworker (Nat.zero_le _)
  rw [useCount_single hworkers, hrefs] at hcount
  have hzero : (pool.left 0 false).useCount = 0 := Nat.succ.inj hcount
  have hstep : Performs nextPool pool (.leave 0 false)
      { pool.left 0 false with fault := some .useAfterFree } := by
    rw [Performs, nextPool, if_pos ⟨hfault, hworker, Nat.zero_le _⟩, ThreadPool.leave, if_pos hzero]
  have hlater := (hfaultless [.leave 0 false] (List.forall_mem_singleton.mpr rfl)).2 _ hstep
  cases hlater

theorem Faultless.step (h : Faultless pool) (action : PoolAction τ) (hown : action.IsOwn)
    (hstep : Performs nextPool pool action pool') : Faultless pool' :=
  fun later hlater => (h (action :: later) (List.forall_mem_cons.mpr ⟨hown, hlater⟩)).2 _ hstep

theorem Faultless.fault (h : Faultless pool) : pool.fault = none :=
  h [] (List.forall_mem_nil _)

/-- A thread that finds a task after the last reference has gone takes it before the destructor
has the mutex. -/
theorem not_faultless_ready (hfault : pool.fault = none) (hworkers : pool.workers = [Worker.ready])
    (hrefs : pool.refs = 0) (hquit : pool.quit = false) (hqueue : pool.taskQueue ≠ []) :
    ¬ Faultless pool := by
  intro hfaultless
  have hworker : pool.workers[0]? = some .ready := by rw [hworkers]; rfl
  have huse : pool.useCount = 0 := by
    rw [useCount_single hworkers, hrefs]
    rfl
  obtain ⟨task, rest, hwaiting⟩ := List.exists_cons_of_ne_nil hqueue
  have hstep : Performs nextPool pool (.check 0)
      { pool with taskQueue := rest, fault := some .badWeakPtr } := by
    rw [Performs, nextPool, if_pos ⟨hfault, hworker⟩, ThreadPool.take, hquit, hwaiting]
    exact congrArg some (if_pos huse)
  cases (hfaultless.step (.check 0) trivial hstep).fault

theorem not_faultless_asleep (hfault : pool.fault = none)
    (hworkers : pool.workers = [Worker.asleep]) (hrefs : pool.refs = 0) (hquit : pool.quit = false)
    (hqueue : pool.taskQueue ≠ []) : ¬ Faultless pool := by
  intro hfaultless
  have hworker : pool.workers[0]? = some .asleep := by rw [hworkers]; rfl
  have hstep : Performs nextPool pool (.spurious 0) (pool.setWorker 0 .ready) := by
    rw [Performs, nextPool, if_pos ⟨hfault, hworker⟩]
  have hready : ¬ Faultless (pool.setWorker 0 .ready) :=
    not_faultless_ready hfault (setWorker_single hworkers) hrefs hquit hqueue
  exact hready (hfaultless.step (.spurious 0) trivial hstep)

theorem Kept.not_faultless {action : PoolAction τ} (h : Kept pool)
    (hmoves : Moves pool action pool') (hcareless : ¬ Careful pool action) : ¬ Faultless pool' := by
  obtain ⟨hfault, worker, hworkers, hheld⟩ := h
  have huseCount := useCount_single hworkers
  cases hmoves with
  | releases hrefs =>
      obtain ⟨hlast, hcareless⟩ := Classical.not_imp.mp hcareless
      have hzero : pool.refs - 1 = 0 := by rw [hlast]
      rw [hworkers, List.mem_singleton, huseCount, hlast] at hcareless
      cases hheld with
      | runs hnone | exited hnone | idle hnone => exact absurd hnone hrefs.ne'
      | referred _ hquit hworker =>
          cases worker with
          | ready =>
              refine not_faultless_ready hfault hworkers hzero hquit fun hempty => hcareless ?_
              exact ⟨by decide, fun _ => hempty⟩
          | asleep =>
              refine not_faultless_asleep hfault hworkers hzero hquit fun hempty => hcareless ?_
              exact ⟨by decide, fun _ => hempty⟩
          | processing => exact absurd ⟨by decide, fun htwo => nomatch htwo⟩ hcareless
          | leaving => exact not_faultless_leaving hfault hworkers hzero
          | exited => exact absurd rfl hworker
  | @leaves idx ofTask hworker hrefs huse =>
      obtain ⟨htask, hlast⟩ := Classical.not_imp.mp hcareless
      obtain ⟨rfl, rfl⟩ := worker_of_single hworkers hworker
      subst htask
      have hcount := useCount_left _ hworker hrefs
      rw [huseCount, not_not.mp hlast] at hcount
      exact absurd (Nat.succ.inj (Nat.succ.inj hcount)) huse
  | frees => exact fun hfaultless => nomatch hfaultless.fault
  | ignores | postsMoved | postsCopy | notifies | acquires | exits | sleeps | throws | starts
    | wakes | breaks | goesOn | destroys => exact absurd trivial hcareless

/-- In every interleaving of the owners and the one thread of a pool, no schedule throws or reads
the pool after it was freed, exactly when the owners let go of the last reference while a task is
running or while the thread waits and no task does, and no task takes the last reference with
it. -/
theorem faultless_iff (actions : List (PoolAction τ)) :
    Always (Performs nextPool) Faultless (.create 1) actions ↔
      EachStep (Performs nextPool) (fun pool action _ => Careful pool action) (.create 1) actions :=
  always_iff_eachStep Kept
    (fun _ _ _ hkept hstep hcareful => hkept.moves (moves_of_next hstep).2 hcareful)
    (fun _ hkept => hkept.faultless)
    (fun _ _ _ hkept hstep hcareless => hkept.not_faultless (moves_of_next hstep).2 hcareless)
    kept_create actions

end Lifetime

end FeedsService.Utils
