import FeedsService.Auth.State
import FeedsService.Feeds.Handlers
import FeedsService.Library.Handlers
import FeedsService.Sql.Atomicity

/-!
# The calls of the handlers

What a handler that changes something calls, by the name of the function.  A function of
the database that changes a table is taken apart into the calls of its statements.
-/

namespace FeedsService.Failures

open FeedsService.Library FeedsService.Library.Handlers FeedsService.Library.Transactions
open FeedsService.Feeds

inductive Call
  | createUinfoFromAccessToken
  | dbGetCount | dbPostIsAvail | dbGetPostStatus | dbGetPost | dbCmtExists | dbCmtIsAvail
  | dbCmtUid | dbLikeExists | dbIsSuber | dbIterSubChans | dbNeedUpsertUser | dbGetUser
  /-- One for each row, and one that finds no more. -/
  | dbIterNxt (number : ℕ)
  /-- A call of the function that changes a table. -/
  | statement (number : ℕ) (call : Transactions.Call)
  | chanCreate | chanCreateUpd | asCreate | ndCreate | ndpasCreate
  /-- One for each channel that is subscribed to. -/
  | aspcCreate (number : ℕ)
  | oinfoInit | oinfoUpd
  | mnemonicGenerate | rootIdentityCreate | newDid | genTsxPayload
  | vcUrl | credentialFromJson | storeCredential
  | loginCreate | genChal | credentialToJson
  | jwsParse | claimAsJson | presentationFromJson
  | createUinfoFromVc | strdupEmail | genAccessToken
  | documentFromJson | saveDocument | makeJwt
  | marshalErr | marshalResp | msgqEnq
  deriving DecidableEq

/-- How a handler leaves before its end. -/
inductive Exit
  | ignored
  | err (ec : ℤ)
  deriving DecidableEq

/-- The handler reads through a null pointer, and no reply is sent. -/
abbrev Exit.crash : Exit := .ignored

namespace ErrCode

/-- `ERR_DB_ERROR` -/
def dbError : ℤ := -11

end ErrCode

/-- Where a state has the database. -/
structure DbOf (σ : Type) where
  db : σ → Db
  put : σ → Db → σ
  put_db : ∀ s, put s (db s) = s

def worldDb : DbOf World where
  db := World.db
  put w db := { w with db }
  put_db _ := rfl

def authDb : DbOf Auth.State where
  db := Auth.State.db
  put s db := { s with db }
  put_db _ := rfl

def faultsOf (fault : Option Call) : Faults := fun number call =>
  fault = some (.statement number call)

/-- A function of the database that changes a table. -/
def mutate {σ α : Type} (store : DbOf σ) (program : Sql Db α) (ec : ℤ) :
    Handler Call σ Exit α :=
  invoke (.err ec) fun fault s =>
    let result := program.run (faultsOf fault) (.on (store.db s))
    (result.1, store.put s result.2.conn.tables)

section Rules

variable {σ τ α : Type} {store : DbOf σ} {program : Sql Db α} {ec : ℤ}
  {fault : Option Call} {s : σ}

theorem spares_mutate {view : σ → τ}
    (hrestores : Restores program (faultsOf fault) (store.db s)) :
    Spares view (mutate store program ec) fault s := by
  intro e herror
  have hfailed : (program.run (faultsOf fault) (.on (store.db s))).1 = none := by
    cases hresult : (program.run (faultsOf fault) (.on (store.db s))).1 with
    | none => rfl
    | some value => simp [mutate, invoke, hresult] at herror
  have htables := congrArg Conn.tables (hrestores hfailed)
  simp only [mutate, invoke, htables, store.put_db]

theorem faultsOf_none : faultsOf none = noFaults := by
  funext number call
  simp [faultsOf, noFaults]

theorem faultsOf_eq_noFaults (hother : ∀ number call, fault ≠ some (.statement number call)) :
    faultsOf fault = noFaults := by
  funext number call
  simp [faultsOf, noFaults, hother number call]

/-- A function that succeeds did what it is there for. -/
theorem run_mutate_eq_ok {action : Db → Option (α × Db)} (hcarries : CarriesOut program action)
    (hfails : FailsOnly program) {value : α} {s' : σ}
    (hrun : (mutate store program ec).run fault s = (.ok value, s')) :
    ∃ db, action (store.db s) = some (value, db) ∧ s' = store.put s db := by
  rcases hresult : program.run (faultsOf fault) (.on (store.db s)) with ⟨result, session⟩
  simp only [mutate, invoke, hresult] at hrun
  cases result with
  | none => cases hrun
  | some value' =>
      obtain ⟨hvalue, hs'⟩ := Prod.mk.inj hrun
      cases hvalue
      have hclear := hfails _ _ _ _ hresult
      cases haction : action (store.db s) with
      | none =>
          obtain ⟨ran, hnone⟩ := hcarries.fails _ haction
          rw [hnone] at hclear
          cases hclear
      | some done =>
          obtain ⟨ran, hsome⟩ := hcarries.succeeds _ done.1 done.2 haction
          rw [hsome] at hclear
          cases hclear
          exact ⟨done.2, rfl, hs'.symm⟩

/-- Without a fault of its own the function does what it is there for. -/
theorem run_mutate {action : Db → Option (α × Db)} (hcarries : CarriesOut program action)
    (hclear : faultsOf fault = noFaults) :
    (mutate store program ec).run fault s =
      match action (store.db s) with
      | none => (.error (.err ec), s)
      | some (value, db) => (.ok value, store.put s db) := by
  cases haction : action (store.db s) with
  | none =>
      obtain ⟨ran, hrun⟩ := hcarries.fails _ haction
      simp only [mutate, invoke, hclear, hrun, store.put_db]
      rfl
  | some result =>
      obtain ⟨ran, hrun⟩ := hcarries.succeeds _ result.1 result.2 haction
      simp only [mutate, invoke, hclear, hrun]
      rfl

end Rules

end FeedsService.Failures
