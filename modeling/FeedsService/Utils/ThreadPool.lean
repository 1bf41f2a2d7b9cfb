import FeedsService.Library.Runs
import Mathlib.Data.List.Basic
import Mathlib.Data.Nat.Notation

/-!
# The thread pool

`ThreadPool.cpp`: the threads take tasks off one queue, and the pool is destroyed with
the last `shared_ptr` to it, be it by its owner or by one of its own threads.  A step is
what a thread does while it has the mutex, or between two looks at the reference count.

The time between the last release and the destructor's lock of the mutex belongs to the
model: there, `shared_from_this` throws.
-/

namespace FeedsService.Utils

open FeedsService.Runs

variable {τ : Type}

/-- Where a thread is in `processTaskQueue`: at the top of the loop, in `wait`, in a task,
behind the look at `use_count`, or out of the loop. -/
inductive Worker
  | ready
  | asleep
  | processing
  | leaving
  | exited
  deriving DecidableEq

/-- Whether a thread has its own `shared_ptr` to the pool. -/
def Worker.holds : Worker → Bool
  | .processing => true
  | .leaving => true
  | _ => false

def Worker.wake : Worker → Worker
  | .asleep => .ready
  | worker => worker

/-- An exception that nothing catches, and an access to the pool after it was freed. -/
inductive PoolFault
  | badWeakPtr
  | useAfterFree
  deriving DecidableEq

/-- `refs` counts the `shared_ptr`s of others, and `notifying` the calls of `post` that
have pushed their task but not notified yet.  The tasks that have been posted and those
that have been started are records of the model. -/
structure ThreadPool (τ : Type) where
  workers : List Worker
  taskQueue : List τ
  quit : Bool
  refs : ℕ
  notifying : ℕ
  posted : List τ
  started : List τ
  fault : Option PoolFault
  deriving DecidableEq

/-- `ThreadPool::Create`. -/
def ThreadPool.create (threadCnt : ℕ) : ThreadPool τ where
  workers := List.replicate threadCnt .ready
  taskQueue := []
  quit := false
  refs := 1
  notifying := 0
  posted := []
  started := []
  fault := none

def ThreadPool.useCount (pool : ThreadPool τ) : ℕ :=
  pool.refs + pool.workers.countP Worker.holds

def ThreadPool.notifyAll (pool : ThreadPool τ) : ThreadPool τ :=
  { pool with workers := pool.workers.map Worker.wake }

def ThreadPool.setWorker (pool : ThreadPool τ) (idx : ℕ) (worker : Worker) : ThreadPool τ :=
  { pool with workers := pool.workers.set idx worker }

/-- `post` copies its task or moves it, `leave` drops the thread's own reference and its task,
and with it a reference that the task had, `destroy` is the destructor up to where it joins the
threads. -/
inductive PoolAction (τ : Type)
  | post (task : τ) (moved : Bool)
  | notify
  | acquire
  | release
  | check (idx : ℕ)
  | spurious (idx : ℕ)
  | examine (idx : ℕ)
  | leave (idx : ℕ) (ofTask : Bool)
  | destroy

/-- What a thread does when it has the mutex. -/
def ThreadPool.take (pool : ThreadPool τ) (idx : ℕ) : ThreadPool τ :=
  if pool.quit then
    pool.setWorker idx .exited
  else
    match pool.taskQueue with
    | [] => pool.setWorker idx .asleep
    | task :: rest =>
        if pool.useCount = 0 then
          { pool with taskQueue := rest, fault := some .badWeakPtr }
        else
          { pool.setWorker idx .processing with
            taskQueue := rest, started := pool.started ++ [task] }

/-- The pool with a task pushed. -/
def ThreadPool.push (pool : ThreadPool τ) (task : τ) : ThreadPool τ :=
  { pool with taskQueue := pool.taskQueue ++ [task], posted := pool.posted ++ [task] }

/-- The pool at the end of the block of a task, where the thread has dropped its own reference
and its task. -/
def ThreadPool.left (pool : ThreadPool τ) (idx : ℕ) (ofTask : Bool) : ThreadPool τ :=
  { pool.setWorker idx .ready with refs := pool.refs - ofTask.toNat }

/-- From there to the next look at `mQuit`. -/
def ThreadPool.leave (pool : ThreadPool τ) (idx : ℕ) (ofTask : Bool) : ThreadPool τ :=
  if (pool.left idx ofTask).useCount = 0 then
    { pool.left idx ofTask with fault := some .useAfterFree }
  else
    pool.left idx ofTask

/-- One step; `none` where the action is not possible. -/
def nextPool (pool : ThreadPool τ) : PoolAction τ → Option (ThreadPool τ)
  | .post task moved =>
      if pool.fault = none ∧ 0 < pool.useCount then
        if pool.quit then some pool
        else if moved then some (pool.push task).notifyAll
        else some { pool.push task with notifying := pool.notifying + 1 }
      else none
  | .notify =>
      if pool.fault = none ∧ 0 < pool.notifying then
        some { pool.notifyAll with notifying := pool.notifying - 1 }
      else none
  | .acquire =>
      if pool.fault = none ∧ 0 < pool.refs then some { pool with refs := pool.refs + 1 } else none
  | .release =>
      if pool.fault = none ∧ 0 < pool.refs then some { pool with refs := pool.refs - 1 } else none
  | .check idx =>
      if pool.fault = none ∧ pool.workers[idx]? = some .ready then some (pool.take idx) else none
  | .spurious idx =>
      if pool.fault = none ∧ pool.workers[idx]? = some .asleep then
        some (pool.setWorker idx .ready)
      else none
  | .examine idx =>
      if pool.fault = none ∧ pool.workers[idx]? = some .processing then
        some (pool.setWorker idx (if pool.useCount = 1 then .exited else .leaving))
      else none
  | .leave idx ofTask =>
      if pool.fault = none ∧ (pool.workers[idx]? = some .leaving ∧ ofTask.toNat ≤ pool.refs) then
        some (pool.leave idx ofTask)
      else none
  | .destroy =>
      if pool.fault = none ∧ (pool.useCount = 0 ∧ pool.quit = false) then
        some { pool.notifyAll with quit := true, taskQueue := [] }
      else none

section Steps

variable {pool pool' : ThreadPool τ}

/-- What one step comes to. -/
inductive Moves (pool : ThreadPool τ) : PoolAction τ → ThreadPool τ → Prop
  | ignores (task : τ) (moved : Bool) (hquit : pool.quit = true) :
      Moves pool (.post task moved) pool
  | postsMoved (task : τ) (huse : 0 < pool.useCount) (hquit : pool.quit = false) :
      Moves pool (.post task true) (pool.push task).notifyAll
  | postsCopy (task : τ) (huse : 0 < pool.useCount) (hquit : pool.quit = false) :
      Moves pool (.post task false) { pool.push task with notifying := pool.notifying + 1 }
  | notifies (hnotifying : 0 < pool.notifying) :
      Moves pool .notify { pool.notifyAll with notifying := pool.notifying - 1 }
  | acquires (hrefs : 0 < pool.refs) : Moves pool .acquire { pool with refs := pool.refs + 1 }
  | releases (hrefs : 0 < pool.refs) : Moves pool .release { pool with refs := pool.refs - 1 }
  | exits {idx : ℕ} (hworker : pool.workers[idx]? = some .ready) (hquit : pool.quit = true) :
      Moves pool (.check idx) (pool.setWorker idx .exited)
  | sleeps {idx : ℕ} (hworker : pool.workers[idx]? = some .ready) (hquit : pool.quit = false)
      (hqueue : pool.taskQueue = []) : Moves pool (.check idx) (pool.setWorker idx .asleep)
  | throws {idx : ℕ} {task : τ} {rest : List τ} (hworker : pool.workers[idx]? = some .ready)
      (hquit : pool.quit = false) (hqueue : pool.taskQueue = task :: rest)
      (huse : pool.useCount = 0) :
      Moves pool (.check idx) { pool with taskQueue := rest, fault := some .badWeakPtr }
  | starts {idx : ℕ} {task : τ} {rest : List τ} (hworker : pool.workers[idx]? = some .ready)
      (hquit : pool.quit = false) (hqueue : pool.taskQueue = task :: rest)
      (huse : pool.useCount ≠ 0) :
      Moves pool (.check idx) { pool.setWorker idx .processing with
        taskQueue := rest, started := pool.started ++ [task] }
  | wakes {idx : ℕ} (hworker : pool.workers[idx]? = some .asleep) :
      Moves pool (.spurious idx) (pool.setWorker idx .ready)
  | breaks {idx : ℕ} (hworker : pool.workers[idx]? = some .processing)
      (huse : pool.useCount = 1) : Moves pool (.examine idx) (pool.setWorker idx .exited)
  | goesOn {idx : ℕ} (hworker : pool.workers[idx]? = some .processing)
      (huse : pool.useCount ≠ 1) : Moves pool (.examine idx) (pool.setWorker idx .leaving)
  | leaves {idx : ℕ} {ofTask : Bool} (hworker : pool.workers[idx]? = some .leaving)
      (hrefs : ofTask.toNat ≤ pool.refs) (huse : (pool.left idx ofTask).useCount ≠ 0) :
      Moves pool (.leave idx ofTask) (pool.left idx ofTask)
  | frees {idx : ℕ} {ofTask : Bool} (hworker : pool.workers[idx]? = some .leaving)
      (hrefs : ofTask.toNat ≤ pool.refs) (huse : (pool.left idx ofTask).useCount = 0) :
      Moves pool (.leave idx ofTask) { pool.left idx ofTask with fault := some .useAfterFree }
  | destroys (huse : pool.useCount = 0) (hquit : pool.quit = false) :
      Moves pool .destroy { pool.notifyAll with quit := true, taskQueue := [] }

theorem moves_of_next {action : PoolAction τ} (h : nextPool pool action = some pool') :
    pool.fault = none ∧ Moves pool action pool' := by
  cases action with
  | post task moved =>
      obtain ⟨⟨hfault, huse⟩, h⟩ := Option.ite_none_right_eq_some.mp h
      refine ⟨hfault, ?_⟩
      split at h
      · rename_i hquit
        cases h
        exact .ignores task moved hquit
      · rename_i hquit
        have hquit := Bool.eq_false_iff.mpr hquit
        cases moved with
        | true =>
            cases h
            exact .postsMoved task huse hquit
        | false =>
            cases h
            exact .postsCopy task huse hquit
  | notify =>
      obtain ⟨⟨hfault, hnotifying⟩, h⟩ := Option.ite_none_right_eq_some.mp h
      cases h
      exact ⟨hfault, .notifies hnotifying⟩
  | acquire =>
      obtain ⟨⟨hfault, hrefs⟩, h⟩ := Option.ite_none_right_eq_some.mp h
      cases h
      exact ⟨hfault, .acquires hrefs⟩
  | release =>
      obtain ⟨⟨hfault, hrefs⟩, h⟩ := Option.ite_none_right_eq_some.mp h
      cases h
      exact ⟨hfault, .releases hrefs⟩
  | check idx =>
      obtain ⟨⟨hfault, hworker⟩, h⟩ := Option.ite_none_right_eq_some.mp h
      refine ⟨hfault, ?_⟩
      obtain rfl := Option.some.inj h
      rw [ThreadPool.take]
      split
      · rename_i hquit
        exact .exits hworker hquit
      · rename_i hquit
        have hquit := Bool.eq_false_iff.mpr hquit
        split
        · rename_i hqueue
          exact .sleeps hworker hquit hqueue
        · rename_i task rest hqueue
          split
          · rename_i huse
            exact .throws hworker hquit hqueue huse
          · rename_i huse
            exact .starts hworker hquit hqueue huse
  | spurious idx =>
      obtain ⟨⟨hfault, hworker⟩, h⟩ := Option.ite_none_right_eq_some.mp h
      cases h
      exact ⟨hfault, .wakes hworker⟩
  | examine idx =>
      obtain ⟨⟨hfault, hworker⟩, h⟩ := Option.ite_none_right_eq_some.mp h
      refine ⟨hfault, ?_⟩
      obtain rfl := Option.some.inj h
      split
      · rename_i huse
        exact .breaks hworker huse
      · rename_i huse
        exact .goesOn hworker huse
  | leave idx ofTask =>
      obtain ⟨⟨hfault, hworker, hrefs⟩, h⟩ := Option.ite_none_right_eq_some.mp h
      refine ⟨hfault, ?_⟩
      obtain rfl := Option.some.inj h
      rw [ThreadPool.leave]
      split
      · rename_i huse
        exact .frees hworker hrefs huse
      · rename_i huse
        exact .leaves hworker hrefs huse
  | destroy =>
      obtain ⟨⟨hfault, huse, hquit⟩, h⟩ := Option.ite_none_right_eq_some.mp h
      cases h
      exact ⟨hfault, .destroys huse hquit⟩

end Steps

end FeedsService.Utils
