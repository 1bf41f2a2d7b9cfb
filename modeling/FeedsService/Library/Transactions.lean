import FeedsService.Library.Runs
import Mathlib.Data.List.TakeWhile
import Mathlib.Data.Nat.Notation

/-!
# Statements, transactions and faults

A function that works on tables through a connection runs statements one after
the other and stops at the first that fails.  Each statement is prepared, bound
and stepped, and each of these calls may be made to fail.  A transaction saves
the tables when it begins and brings them back when a statement in it fails.

The rules say what a composed function keeps, what it leaves behind when it
fails, and what it computes when no call fails.
-/

namespace FeedsService.Library.Transactions

inductive Call
  | prepare
  | bind
  | step
  deriving DecidableEq

/-- Which calls fail; the statements of a function are numbered in order. -/
abbrev Faults := ℕ → Call → Bool

def noFaults : Faults := fun _ _ => false

/-- Only this call fails. -/
def singleFault (number : ℕ) (call : Call) : Faults := fun number' call' =>
  number' = number ∧ call' = call

structure Conn (σ : Type) where
  tables : σ
  /-- The tables before the open transaction, if there is one. -/
  saved : Option σ

structure Session (σ : Type) where
  conn : Conn σ
  /-- How many statements were run. -/
  ran : ℕ

/-- A session that begins on some tables. -/
def Session.on {σ : Type} (tables : σ) : Session σ :=
  ⟨⟨tables, none⟩, 0⟩

/-- `ROLLBACK` -/
def Session.rollback {σ : Type} (s : Session σ) : Session σ :=
  { s with conn := ⟨s.conn.saved.getD s.conn.tables, none⟩ }

structure Sql (σ α : Type) where
  run : Faults → Session σ → Option α × Session σ

variable {σ α β : Type}

instance : Monad (Sql σ) where
  pure value := ⟨fun _ s => (some value, s)⟩
  bind program next := ⟨fun faults s =>
    match program.run faults s with
    | (some value, s') => (next value).run faults s'
    | (none, s') => (none, s')⟩

/-- The calls of one statement, which does what `action` says unless one of them
fails. -/
def attempt (calls : List Call) (action : Conn σ → Option (α × Conn σ)) : Sql σ α where
  run faults s :=
    if calls.any (faults s.ran) then
      (none, { s with ran := s.ran + 1 })
    else
      match action s.conn with
      | none => (none, { s with ran := s.ran + 1 })
      | some (value, conn) => (some value, ⟨conn, s.ran + 1⟩)

/-- A statement on the tables. -/
def statement (action : σ → Option (α × σ)) : Sql σ α :=
  attempt [.prepare, .bind, .step] fun conn =>
    (action conn.tables).map fun result => (result.1, { conn with tables := result.2 })

/-- A statement that changes the tables. -/
def execute (change : σ → Option σ) : Sql σ Unit :=
  statement fun tables => (change tables).map fun tables => ((), tables)

/-- A `SELECT`, which fails when it finds no row. -/
def query (select : σ → Option α) : Sql σ α :=
  statement fun tables => (select tables).map fun value => (value, tables)

/-- `BEGIN`, which fails within a transaction. -/
def beginTransaction : Sql σ Unit :=
  attempt [.prepare, .step] fun conn =>
    match conn.saved with
    | some _ => none
    | none => some ((), { conn with saved := some conn.tables })

/-- `END` -/
def endTransaction : Sql σ Unit :=
  attempt [.prepare, .step] fun conn =>
    match conn.saved with
    | some _ => some ((), { conn with saved := none })
    | none => none

/-- The statements up to `END`, and `ROLLBACK` when one of them fails. -/
def commit (body : Sql σ α) : Sql σ α where
  run faults s :=
    match (do let value ← body; endTransaction; return value).run faults s with
    | (some value, s') => (some value, s')
    | (none, s') => (none, s'.rollback)

/-- A function that runs its statements in a transaction. -/
def transaction (body : Sql σ α) : Sql σ α := do
  beginTransaction
  commit body

/-- A loop over the rows of a statement, which ends with the first step that returns none:
how many rows it has seen.  Each step has its own number. -/
def stepThrough (rows : ℕ) : Sql σ ℕ where
  run faults s :=
    let seen := ((List.range rows).takeWhile fun row => !faults (s.ran + row) .step).length
    (some seen, ⟨s.conn, s.ran + seen + 1⟩)

section Equations

variable {faults : Faults} {s : Session σ}

@[simp]
theorem run_pure (value : α) : (pure value : Sql σ α).run faults s = (some value, s) :=
  rfl

theorem run_bind (program : Sql σ α) (next : α → Sql σ β) :
    (program >>= next).run faults s =
      match program.run faults s with
      | (some value, s') => (next value).run faults s'
      | (none, s') => (none, s') :=
  rfl

theorem run_attempt_faulty {calls : List Call} {action : Conn σ → Option (α × Conn σ)}
    (hfault : calls.any (faults s.ran) = true) :
    (attempt calls action).run faults s = (none, { s with ran := s.ran + 1 }) :=
  if_pos hfault

theorem run_attempt {calls : List Call} {action : Conn σ → Option (α × Conn σ)}
    (hfault : ¬ calls.any (faults s.ran) = true) :
    (attempt calls action).run faults s =
      match action s.conn with
      | none => (none, { s with ran := s.ran + 1 })
      | some (value, conn) => (some value, ⟨conn, s.ran + 1⟩) :=
  if_neg hfault

end Equations

/-- A call of the statement of this number fails. -/
def Faults.hit (faults : Faults) (number : ℕ) : Bool :=
  [Call.prepare, .bind, .step].any (faults number)

theorem run_statement_hit {faults : Faults} {s : Session σ} {action : σ → Option (α × σ)}
    (hhit : faults.hit s.ran = true) :
    (statement action).run faults s = (none, { s with ran := s.ran + 1 }) :=
  run_attempt_faulty hhit

theorem run_statement {faults : Faults} {s : Session σ} {action : σ → Option (α × σ)}
    (hhit : ¬ faults.hit s.ran = true) :
    (statement action).run faults s =
      match action s.conn.tables with
      | none => (none, { s with ran := s.ran + 1 })
      | some (value, tables) => (some value, ⟨{ s.conn with tables }, s.ran + 1⟩) := by
  rw [statement, run_attempt hhit]
  cases action s.conn.tables with
  | none => rfl
  | some result => rfl

/-! ## What fails changes nothing -/

section Restoring

variable {faults : Faults} {s : Session σ}

/-- The function leaves the saved tables alone. -/
def Keeps (program : Sql σ α) : Prop :=
  ∀ faults s, (program.run faults s).2.conn.saved = s.conn.saved

/-- When the function fails, the connection is as it was before: the tables are the
same and no transaction is open. -/
def Restores (program : Sql σ α) (faults : Faults) (tables : σ) : Prop :=
  (program.run faults (.on tables)).1 = none →
    (program.run faults (.on tables)).2.conn = ⟨tables, none⟩

theorem keeps_pure (value : α) : Keeps (pure value : Sql σ α) :=
  fun _ _ => rfl

theorem keeps_bind {program : Sql σ α} {next : α → Sql σ β} (hprogram : Keeps program)
    (hnext : ∀ value, Keeps (next value)) : Keeps (program >>= next) := by
  intro faults s
  have hfirst := hprogram faults s
  rw [run_bind]
  rcases hresult : program.run faults s with ⟨result, s'⟩
  rw [hresult] at hfirst
  cases result with
  | none => exact hfirst
  | some value => exact (hnext value faults s').trans hfirst

theorem keeps_attempt {calls : List Call} {action : Conn σ → Option (α × Conn σ)}
    (haction : ∀ conn value conn', action conn = some (value, conn') →
      conn'.saved = conn.saved) : Keeps (attempt calls action) := by
  intro faults s
  by_cases hfault : calls.any (faults s.ran) = true
  · rw [run_attempt_faulty hfault]
  · rw [run_attempt hfault]
    cases hresult : action s.conn with
    | none => rfl
    | some result => exact haction s.conn result.1 result.2 hresult

theorem keeps_statement (action : σ → Option (α × σ)) : Keeps (statement action) := by
  apply keeps_attempt
  intro conn value conn' hresult
  obtain ⟨result, -, hsame⟩ := Option.map_eq_some_iff.mp hresult
  cases hsame
  rfl

theorem keeps_look (calls : List Call) (look : σ → α) :
    Keeps (attempt calls fun conn => some (look conn.tables, conn)) := by
  apply keeps_attempt
  intro conn value conn' hresult
  cases hresult
  rfl

theorem keeps_elim {β : Type} {option : Option β} {program : β → Sql σ Unit}
    (hprogram : ∀ value, option = some value → Keeps (program value)) :
    Keeps (option.elim (pure ()) program) := by
  cases option with
  | none => exact keeps_pure ()
  | some value => exact hprogram value rfl

theorem keeps_stepThrough (rows : ℕ) : Keeps (stepThrough rows : Sql σ ℕ) :=
  fun _ _ => rfl

theorem keeps_forM {ι : Type} {program : ι → Sql σ Unit} (hprogram : ∀ i, Keeps (program i))
    (is : List ι) : Keeps (is.forM program) := by
  induction is with
  | nil => exact keeps_pure ()
  | cons i is ih => exact keeps_bind (hprogram i) fun _ => ih

/-- A call that fails does nothing. -/
theorem attempt_failed {calls : List Call} {action : Conn σ → Option (α × Conn σ)}
    (hfailed : ((attempt calls action).run faults s).1 = none) :
    ((attempt calls action).run faults s).2.conn = s.conn := by
  by_cases hfault : calls.any (faults s.ran) = true
  · rw [run_attempt_faulty hfault]
  · rw [run_attempt hfault] at hfailed ⊢
    cases haction : action s.conn with
    | none => rfl
    | some result =>
        rw [haction] at hfailed
        cases hfailed

theorem keeps_execute (change : σ → Option σ) : Keeps (execute change) :=
  keeps_statement _

theorem keeps_query (select : σ → Option α) : Keeps (query select) :=
  keeps_statement _

theorem restores_statement (action : σ → Option (α × σ)) (faults : Faults) (tables : σ) :
    Restores (statement action) faults tables :=
  attempt_failed

theorem restores_execute (change : σ → Option σ) (faults : Faults) (tables : σ) :
    Restores (execute change) faults tables :=
  restores_statement _ faults tables

theorem rollback_saved {tables : σ} (hsaved : s.conn.saved = some tables) :
    s.rollback.conn = ⟨tables, none⟩ := by
  simp only [Session.rollback, hsaved, Option.getD_some]

/-- Once `END` is done the function has succeeded. -/
theorem commit_failed {body : Sql σ α} (hbody : Keeps body) {tables : σ}
    (hsaved : s.conn.saved = some tables) (hfailed : ((commit body).run faults s).1 = none) :
    ((commit body).run faults s).2.conn = ⟨tables, none⟩ := by
  have hkept := hbody faults s
  rw [hsaved] at hkept
  simp only [commit, run_bind] at hfailed ⊢
  rcases hresult : body.run faults s with ⟨result, s'⟩
  rw [hresult] at hkept hfailed
  cases result with
  | none => exact rollback_saved hkept
  | some value =>
      dsimp only at hfailed hkept ⊢
      have hend : (endTransaction.run faults s').1 = none →
          (endTransaction.run faults s').2.conn = s'.conn := attempt_failed
      rcases hcommit : endTransaction.run faults s' with ⟨result, s''⟩
      rw [hcommit] at hend hfailed
      cases result with
      | none => exact rollback_saved ((congrArg Conn.saved (hend rfl)).trans hkept)
      | some _ => cases hfailed

/-- A transaction restores the tables, whatever its statements do. -/
theorem restores_transaction {body : Sql σ α} (hbody : Keeps body) (faults : Faults)
    (tables : σ) : Restores (transaction body) faults tables := by
  intro hfailed
  simp only [transaction, run_bind] at hfailed ⊢
  by_cases hfault : [Call.prepare, .step].any (faults 0) = true
  · rw [beginTransaction, run_attempt_faulty hfault]
    rfl
  · rw [beginTransaction, run_attempt hfault] at hfailed ⊢
    exact commit_failed hbody rfl hfailed

/-- Without a transaction, what the first statement changed stays when the second
one fails. -/
theorem restores_execute_query_iff {change : σ → Option σ} {select : σ → Option α}
    {tables : σ} (hselect : ∀ tables', change tables = some tables' → select tables' ≠ none) :
    Restores (do execute change; query select) faults tables ↔
      ∀ tables', ¬ faults.hit 0 = true → change tables = some tables' →
        faults.hit 1 = true → tables' = tables := by
  simp only [Restores, Session.on, run_bind, execute, query]
  by_cases hfirst : faults.hit 0 = true
  · rw [run_statement_hit hfirst]
    exact iff_of_true (fun _ => rfl) fun _ hnot => absurd hfirst hnot
  · rw [run_statement hfirst]
    cases hchange : change tables with
    | none => exact iff_of_true (fun _ => rfl) fun _ _ hnot => by cases hnot
    | some tables' =>
        simp only [Option.map_some]
        by_cases hsecond : faults.hit 1 = true
        · rw [run_statement_hit hsecond]
          constructor
          · intro hrestores tables'' _ hsame _
            rw [← Option.some.inj hsame]
            exact congrArg Conn.tables (hrestores rfl)
          · intro hkept _
            rw [hkept tables' hfirst rfl hsecond]
        · rw [run_statement hsecond]
          cases hfound : select tables' with
          | none => exact absurd hfound (hselect tables' hchange)
          | some value =>
              exact iff_of_true (fun hfailed => by cases hfailed)
                fun _ _ _ hnot => absurd hnot hsecond

end Restoring

/-! ## What a function leaves alone -/

section Leaving

variable {τ : Type} {view : σ → τ} {faults : Faults} {s : Session σ}

/-- The tables show `shown`, and so do those before the open transaction. -/
structure Shows (view : σ → τ) (shown : τ) (conn : Conn σ) : Prop where
  tables : view conn.tables = shown
  saved : ∀ tables ∈ conn.saved, view tables = shown

/-- Whatever fails, the tables show what they have shown before. -/
def LeavesAlone (view : σ → τ) (program : Sql σ α) : Prop :=
  ∀ faults s shown, Shows view shown s.conn → Shows view shown (program.run faults s).2.conn

theorem leavesAlone_pure (value : α) : LeavesAlone view (pure value : Sql σ α) :=
  fun _ _ _ h => h

theorem leavesAlone_bind {program : Sql σ α} {next : α → Sql σ β}
    (hprogram : LeavesAlone view program) (hnext : ∀ value, LeavesAlone view (next value)) :
    LeavesAlone view (program >>= next) := by
  intro faults s shown h
  have hfirst := hprogram faults s shown h
  rw [run_bind]
  rcases hresult : program.run faults s with ⟨result, s'⟩
  rw [hresult] at hfirst
  cases result with
  | none => exact hfirst
  | some value => exact hnext value faults s' shown hfirst

theorem leavesAlone_attempt {calls : List Call} {action : Conn σ → Option (α × Conn σ)}
    (haction : ∀ conn value conn' shown, action conn = some (value, conn') →
      Shows view shown conn → Shows view shown conn') :
    LeavesAlone view (attempt calls action) := by
  intro faults s shown h
  by_cases hfault : calls.any (faults s.ran) = true
  · rwa [run_attempt_faulty hfault]
  · rw [run_attempt hfault]
    cases hresult : action s.conn with
    | none => exact h
    | some result => exact haction s.conn result.1 result.2 shown hresult h

theorem leavesAlone_statement {action : σ → Option (α × σ)}
    (haction : ∀ tables value tables', action tables = some (value, tables') →
      view tables' = view tables) : LeavesAlone view (statement action) := by
  apply leavesAlone_attempt
  intro conn value conn' shown hresult h
  obtain ⟨result, hdone, hsame⟩ := Option.map_eq_some_iff.mp hresult
  cases hsame
  exact ⟨(haction _ _ _ hdone).trans h.tables, h.saved⟩

theorem leavesAlone_execute {change : σ → Option σ}
    (hchange : ∀ tables tables', change tables = some tables' → view tables' = view tables) :
    LeavesAlone view (execute change) := by
  apply leavesAlone_statement
  intro tables value tables' hresult
  obtain ⟨changed, hdone, hsame⟩ := Option.map_eq_some_iff.mp hresult
  cases hsame
  exact hchange _ _ hdone

theorem leavesAlone_query (select : σ → Option α) : LeavesAlone view (query select) := by
  apply leavesAlone_statement
  intro tables value tables' hresult
  obtain ⟨found, -, hsame⟩ := Option.map_eq_some_iff.mp hresult
  cases hsame
  rfl

theorem Shows.rollback {shown : τ} (h : Shows view shown s.conn) :
    Shows view shown s.rollback.conn where
  tables := by
    cases hsaved : s.conn.saved with
    | none =>
        simp only [Session.rollback, hsaved, Option.getD_none]
        exact h.tables
    | some tables =>
        simp only [Session.rollback, hsaved, Option.getD_some]
        exact h.saved tables hsaved
  saved _ hnone := nomatch hnone

theorem leavesAlone_beginTransaction : LeavesAlone view (beginTransaction : Sql σ Unit) := by
  apply leavesAlone_attempt
  intro conn value conn' shown hresult h
  cases hsaved : conn.saved with
  | some tables => rw [hsaved] at hresult; cases hresult
  | none =>
      rw [hsaved] at hresult
      cases hresult
      refine ⟨h.tables, fun tables htables => ?_⟩
      rw [← Option.some.inj htables]
      exact h.tables

theorem leavesAlone_endTransaction : LeavesAlone view (endTransaction : Sql σ Unit) := by
  apply leavesAlone_attempt
  intro conn value conn' shown hresult h
  cases hsaved : conn.saved with
  | none => rw [hsaved] at hresult; cases hresult
  | some tables =>
      rw [hsaved] at hresult
      cases hresult
      exact ⟨h.tables, fun _ hnone => nomatch hnone⟩

theorem leavesAlone_commit {body : Sql σ α} (hbody : LeavesAlone view body) :
    LeavesAlone view (commit body) := by
  intro faults s shown h
  have hended : LeavesAlone view (do let value ← body; endTransaction; return value : Sql σ α) :=
    leavesAlone_bind hbody fun value =>
      leavesAlone_bind leavesAlone_endTransaction fun _ => leavesAlone_pure value
  have hleft := hended faults s shown h
  dsimp only [commit]
  split
  · next value s' hrun => rwa [hrun] at hleft
  · next s' hrun =>
      rw [hrun] at hleft
      exact hleft.rollback

theorem leavesAlone_transaction {body : Sql σ α} (hbody : LeavesAlone view body) :
    LeavesAlone view (transaction body) :=
  leavesAlone_bind leavesAlone_beginTransaction fun _ => leavesAlone_commit hbody

/-- A function that works on tables outside of a transaction. -/
theorem LeavesAlone.tables {program : Sql σ α} (h : LeavesAlone view program) (faults : Faults)
    (tables : σ) : view (program.run faults (.on tables)).2.conn.tables = view tables :=
  (h faults (.on tables) (view tables) ⟨rfl, fun _ hnone => nomatch hnone⟩).tables

end Leaving

/-! ## Faults only make a function fail -/

section Faulting

/-- Where the function succeeds it does what it does without faults. -/
def FailsOnly (program : Sql σ α) : Prop :=
  ∀ faults s value s', program.run faults s = (some value, s') →
    program.run noFaults s = (some value, s')

theorem failsOnly_pure (value : α) : FailsOnly (pure value : Sql σ α) :=
  fun _ _ _ _ h => h

theorem failsOnly_bind {program : Sql σ α} {next : α → Sql σ β} (hprogram : FailsOnly program)
    (hnext : ∀ value, FailsOnly (next value)) : FailsOnly (program >>= next) := by
  intro faults s value s'' hrun
  rw [run_bind] at hrun ⊢
  rcases hfirst : program.run faults s with ⟨result, s'⟩
  rw [hfirst] at hrun
  cases result with
  | none => cases hrun
  | some first =>
      rw [hprogram faults s first s' hfirst]
      exact hnext first faults s' value s'' hrun

theorem failsOnly_attempt (calls : List Call) (action : Conn σ → Option (α × Conn σ)) :
    FailsOnly (attempt calls action) := by
  intro faults s value s' hrun
  by_cases hfault : calls.any (faults s.ran) = true
  · rw [run_attempt_faulty hfault] at hrun
    cases hrun
  · rw [run_attempt hfault] at hrun
    rw [run_attempt (by simp [noFaults])]
    exact hrun

theorem failsOnly_statement (action : σ → Option (α × σ)) : FailsOnly (statement action) :=
  failsOnly_attempt _ _

theorem failsOnly_execute (change : σ → Option σ) : FailsOnly (execute change) :=
  failsOnly_statement _

theorem failsOnly_commit {body : Sql σ α} (hbody : FailsOnly body) : FailsOnly (commit body) := by
  intro faults s value s' hrun
  have hended : FailsOnly (do let value ← body; endTransaction; return value : Sql σ α) :=
    failsOnly_bind hbody fun value =>
      failsOnly_bind (failsOnly_attempt _ _) fun _ => failsOnly_pure value
  dsimp only [commit] at hrun ⊢
  split at hrun
  · next value' s'' hcommitted => rwa [hended faults s value' s'' hcommitted]
  · cases hrun

theorem failsOnly_transaction {body : Sql σ α} (hbody : FailsOnly body) :
    FailsOnly (transaction body) :=
  failsOnly_bind (failsOnly_attempt _ _) fun _ => failsOnly_commit hbody

end Faulting

/-! ## What success shows -/

section Ensuring

variable {faults : Faults}

/-- Where the function succeeds, the tables before, its value and the tables after are as
`post` says. -/
def Ensures (faults : Faults) (program : Sql σ α) (post : σ → α → σ → Prop) : Prop :=
  ∀ s value s', program.run faults s = (some value, s') →
    post s.conn.tables value s'.conn.tables

theorem ensures_mono {program : Sql σ α} {post post' : σ → α → σ → Prop}
    (h : Ensures faults program post)
    (hpost : ∀ before value after, post before value after → post' before value after) :
    Ensures faults program post' :=
  fun s value s' hrun => hpost _ _ _ (h s value s' hrun)

theorem ensures_pure (value : α) :
    Ensures faults (pure value : Sql σ α) fun before value' after =>
      value' = value ∧ after = before := by
  intro s value' s' hrun
  cases hrun
  exact ⟨rfl, rfl⟩

theorem ensures_bind {program : Sql σ α} {next : α → Sql σ β} {first : σ → α → σ → Prop}
    {second : α → σ → β → σ → Prop} (hprogram : Ensures faults program first)
    (hnext : ∀ value, Ensures faults (next value) (second value)) :
    Ensures faults (program >>= next) fun before value after =>
      ∃ value' between, first before value' between ∧ second value' between value after := by
  intro s value s'' hrun
  rw [run_bind] at hrun
  rcases hfirst : program.run faults s with ⟨result, s'⟩
  rw [hfirst] at hrun
  cases result with
  | none => cases hrun
  | some value' =>
      exact ⟨value', _, hprogram s value' s' hfirst, hnext value' s' value s'' hrun⟩

theorem ensures_attempt {calls : List Call} {action : Conn σ → Option (α × Conn σ)}
    {post : σ → α → σ → Prop} (haction : ∀ conn value conn', action conn = some (value, conn') →
      post conn.tables value conn'.tables) : Ensures faults (attempt calls action) post := by
  intro s value s' hrun
  by_cases hfault : calls.any (faults s.ran) = true
  · rw [run_attempt_faulty hfault] at hrun
    cases hrun
  · rw [run_attempt hfault] at hrun
    cases hresult : action s.conn with
    | none =>
        rw [hresult] at hrun
        cases hrun
    | some result =>
        rw [hresult] at hrun
        cases hrun
        exact haction s.conn result.1 result.2 hresult

theorem ensures_look (calls : List Call) (look : σ → α) :
    Ensures faults (attempt calls fun conn => some (look conn.tables, conn))
      fun before value after => value = look before ∧ after = before := by
  apply ensures_attempt
  intro conn value conn' hresult
  cases hresult
  exact ⟨rfl, rfl⟩

/-- A loop sees all the rows, unless a step fails. -/
theorem ensures_stepThrough (rows : ℕ) :
    Ensures faults (stepThrough rows : Sql σ ℕ) fun before seen after =>
      seen ≤ rows ∧ ((∀ number, faults number .step = false) → seen = rows) ∧
        after = before := by
  intro s seen s' hrun
  cases hrun
  refine ⟨?_, ?_, rfl⟩
  · calc
      _ ≤ (List.range rows).length := (List.takeWhile_prefix _).length_le
      _ = rows := List.length_range
  · intro hsteps
    have hall : (List.range rows).takeWhile (fun row => !faults (s.ran + row) .step) =
        List.range rows := List.takeWhile_eq_self_iff.mpr fun row _ => by rw [hsteps]; rfl
    rw [hall, List.length_range]

theorem ensures_commit {body : Sql σ α} {post : σ → α → σ → Prop}
    (hbody : Ensures faults body post) : Ensures faults (commit body) post := by
  have hend : Ensures faults (endTransaction : Sql σ Unit) fun before _ after =>
      after = before := by
    apply ensures_attempt
    intro conn value conn' hresult
    split at hresult
    · cases hresult
      rfl
    · cases hresult
  have hended : Ensures faults (do let value ← body; endTransaction; return value) post := by
    refine ensures_mono (ensures_bind hbody fun _ => ensures_bind hend fun _ => ensures_pure _) ?_
    intro before value after hpost
    obtain ⟨value', between, hbody, _, _, rfl, rfl, rfl⟩ := hpost
    exact hbody
  intro s value s' hrun
  dsimp only [commit] at hrun
  split at hrun
  · next value' s'' hcommitted =>
      cases hrun
      exact hended s value s' hcommitted
  · cases hrun

theorem ensures_transaction {body : Sql σ α} {post : σ → α → σ → Prop}
    (hbody : Ensures faults body post) : Ensures faults (transaction body) post := by
  have hbegin : Ensures faults (beginTransaction : Sql σ Unit) fun before _ after =>
      after = before := by
    apply ensures_attempt
    intro conn value conn' hresult
    split at hresult
    · cases hresult
    · cases hresult
      rfl
  refine ensures_mono (ensures_bind hbegin fun _ => ensures_commit hbody) ?_
  intro before value after hpost
  obtain ⟨_, between, rfl, hbody⟩ := hpost
  exact hbody

/-- A loop of functions is a run of what each of them does. -/
theorem ensures_forM {ι : Type} {program : ι → Sql σ Unit} {post : σ → ι → σ → Prop}
    (hprogram : ∀ i, Ensures faults (program i) fun before _ after => post before i after)
    (is : List ι) : Ensures faults (is.forM program) fun before _ after =>
      Runs.Run post before is after := by
  induction is with
  | nil =>
      refine ensures_mono (ensures_pure ()) ?_
      intro before _ after ⟨_, hsame⟩
      exact hsame ▸ .nil after
  | cons i is ih =>
      refine ensures_mono (ensures_bind (hprogram i) fun _ => ih) ?_
      intro before _ after ⟨_, between, hfirst, hrest⟩
      exact .cons hfirst hrest

end Ensuring

/-! ## What a function computes -/

section Computing

/-- Without faults the program does to the tables what `action` says. -/
structure Computes (program : Sql σ α) (action : σ → Option (α × σ)) : Prop where
  succeeds : ∀ s value tables, action s.conn.tables = some (value, tables) →
    ∃ ran, program.run noFaults s = (some value, ⟨{ s.conn with tables }, ran⟩)
  fails : ∀ s, action s.conn.tables = none → (program.run noFaults s).1 = none

/-- Without faults the function does what `action` says, and nothing when that fails. -/
structure CarriesOut (program : Sql σ α) (action : σ → Option (α × σ)) : Prop where
  succeeds : ∀ before value tables, action before = some (value, tables) →
    ∃ ran, program.run noFaults (.on before) = (some value, ⟨⟨tables, none⟩, ran⟩)
  fails : ∀ before, action before = none →
    ∃ ran, program.run noFaults (.on before) = (none, ⟨⟨before, none⟩, ran⟩)

theorem computes_statement (action : σ → Option (α × σ)) :
    Computes (statement action) action where
  succeeds s value tables h := by
    rw [run_statement (by simp [Faults.hit, noFaults]), h]
    exact ⟨s.ran + 1, rfl⟩
  fails s h := by
    rw [run_statement (by simp [Faults.hit, noFaults]), h]

theorem computes_execute (change : σ → Option σ) :
    Computes (execute change) fun tables => (change tables).map fun tables => ((), tables) :=
  computes_statement _

theorem computes_query (select : σ → Option α) :
    Computes (query select) fun tables => (select tables).map fun value => (value, tables) :=
  computes_statement _

theorem computes_bind {program : Sql σ α} {next : α → Sql σ β} {first : σ → Option (α × σ)}
    {second : α → σ → Option (β × σ)} (hprogram : Computes program first)
    (hnext : ∀ value, Computes (next value) (second value)) :
    Computes (program >>= next) fun tables =>
      (first tables).bind fun result => second result.1 result.2 where
  succeeds s value tables h := by
    obtain ⟨⟨value', tables'⟩, hfirst, hsecond⟩ := Option.bind_eq_some_iff.mp h
    obtain ⟨ran, hrun⟩ := hprogram.succeeds s value' tables' hfirst
    rw [run_bind, hrun]
    exact (hnext value').succeeds ⟨{ s.conn with tables := tables' }, ran⟩ value tables hsecond
  fails s h := by
    rw [run_bind]
    cases hfirst : first s.conn.tables with
    | none =>
        have hnone := hprogram.fails s hfirst
        rcases hrun : program.run noFaults s with ⟨result, s'⟩
        rw [hrun] at hnone
        obtain rfl := hnone
        rfl
    | some result =>
        obtain ⟨ran, hrun⟩ := hprogram.succeeds s result.1 result.2 hfirst
        rw [hfirst, Option.bind_some] at h
        rw [hrun]
        exact (hnext result.1).fails ⟨{ s.conn with tables := result.2 }, ran⟩ h

theorem CarriesOut.congr {program : Sql σ α} {action action' : σ → Option (α × σ)}
    (h : CarriesOut program action) (hsame : ∀ tables, action tables = action' tables) :
    CarriesOut program action' := by
  have hactions : action = action' := by
    funext tables
    exact hsame tables
  exact hactions ▸ h

/-- A function that restores the tables leaves them as they were when it fails. -/
theorem run_of_failed {program : Sql σ α} {before : σ}
    (hrestores : Restores program noFaults before)
    (hnone : (program.run noFaults (.on before)).1 = none) :
    ∃ ran, program.run noFaults (.on before) = (none, ⟨⟨before, none⟩, ran⟩) := by
  have hconn := hrestores hnone
  rcases hrun : program.run noFaults (.on before) with ⟨result, ⟨conn, ran⟩⟩
  rw [hrun] at hnone hconn
  obtain rfl := hnone
  obtain rfl := hconn
  exact ⟨ran, rfl⟩

/-- A function that restores the tables when it fails performs what it computes. -/
theorem carriesOut_of_computes {program : Sql σ α} {action : σ → Option (α × σ)}
    (hrestores : ∀ tables, Restores program noFaults tables)
    (hprogram : Computes program action) : CarriesOut program action where
  succeeds before value tables h := hprogram.succeeds (.on before) value tables h
  fails before h := run_of_failed (hrestores before) (hprogram.fails (.on before) h)

theorem run_transaction (body : Sql σ α) (before : σ) :
    (transaction body).run noFaults (.on before) =
      (commit body).run noFaults ⟨⟨before, some before⟩, 1⟩ :=
  rfl

theorem run_commit {body : Sql σ α} {s : Session σ} {value : α} {tables before : σ} {ran : ℕ}
    (hbody : body.run noFaults s = (some value, ⟨⟨tables, some before⟩, ran⟩)) :
    (commit body).run noFaults s = (some value, ⟨⟨tables, none⟩, ran + 1⟩) := by
  have hend : endTransaction.run noFaults ⟨⟨tables, some before⟩, ran⟩ =
      (some (), ⟨⟨tables, none⟩, ran + 1⟩) := rfl
  simp only [commit, run_bind, hbody, hend, run_pure]

theorem run_commit_failed {body : Sql σ α} {s : Session σ}
    (hbody : (body.run noFaults s).1 = none) : ((commit body).run noFaults s).1 = none := by
  rcases hrun : body.run noFaults s with ⟨result, s'⟩
  rw [hrun] at hbody
  obtain rfl := hbody
  simp only [commit, run_bind, hrun]

/-- A transaction performs what its statements compute. -/
theorem carriesOut_transaction {body : Sql σ α} {action : σ → Option (α × σ)}
    (hkeeps : Keeps body) (hbody : Computes body action) :
    CarriesOut (transaction body) action where
  succeeds before value tables h := by
    obtain ⟨ran, hrun⟩ := hbody.succeeds ⟨⟨before, some before⟩, 1⟩ value tables h
    exact ⟨ran + 1, (run_transaction body before).trans (run_commit hrun)⟩
  fails before h := by
    have hnone : ((transaction body).run noFaults (.on before)).1 = none := by
      rw [run_transaction]
      exact run_commit_failed (hbody.fails ⟨⟨before, some before⟩, 1⟩ h)
    exact run_of_failed (restores_transaction hkeeps noFaults before) hnone

end Computing

end FeedsService.Library.Transactions
