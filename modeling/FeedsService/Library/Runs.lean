import Mathlib.Logic.Basic
import Mathlib.Data.List.Basic
import Mathlib.Data.List.Nodup

/-!
# Runs of a labelled transition system

Every state machine of this development is a step relation `step s a t`: from
state `s` the action `a` may lead to `t`.  A run is a list of actions; the
predicates below speak about all the states and all the transitions of a run,
and the two rules at the end turn facts about one step into facts about runs.
-/

namespace FeedsService.Runs

universe u v

variable {σ : Type u} {α : Type v}

/-- `Run step s as t`: performing the actions `as` one after the other leads
from `s` to `t`. -/
inductive Run (step : σ → α → σ → Prop) : σ → List α → σ → Prop
  | nil (s : σ) : Run step s [] s
  | cons {s t u : σ} {a : α} {as : List α} :
      step s a t → Run step t as u → Run step s (a :: as) u

/-- `P` holds in every state of every run that performs `as` from `s`. -/
def Always (step : σ → α → σ → Prop) (P : σ → Prop) : σ → List α → Prop
  | s, [] => P s
  | s, a :: as => P s ∧ ∀ t, step s a t → Always step P t as

/-- `C` holds of every transition of every run that performs `as` from `s`. -/
def EachStep (step : σ → α → σ → Prop) (C : σ → α → σ → Prop) :
    σ → List α → Prop
  | _, [] => True
  | s, a :: as => ∀ t, step s a t → C s a t ∧ EachStep step C t as

/-- In no run that performs `as` from `s` does `E` happen twice with the same value. -/
def Once {β : Type*} (step : σ → α → σ → Prop) (E : σ → α → β → Prop) : σ → List α → Prop
  | _, [] => True
  | s, a :: as => ∀ t, step s a t →
      (∀ b, E s a b → EachStep step (fun u c _ => ¬ E u c b) t as) ∧ Once step E t as

/-- Perform a list of actions of a deterministic system that may refuse one. -/
def exec (next : σ → α → Option σ) : σ → List α → Option σ
  | s, [] => some s
  | s, a :: as => (next s a).bind fun t => exec next t as

/-- The step relation of a deterministic system. -/
def Performs (next : σ → α → Option σ) (s : σ) (a : α) (t : σ) : Prop :=
  next s a = some t

theorem run_of_exec {next : σ → α → Option σ} {s t : σ} {as : List α}
    (hexec : exec next s as = some t) : Run (Performs next) s as t := by
  induction as generalizing s with
  | nil =>
      cases hexec
      exact Run.nil _
  | cons a as ih =>
      obtain ⟨u, hstep, hrest⟩ := Option.bind_eq_some_iff.mp hexec
      exact Run.cons hstep (ih hrest)

/-- Whether each transition of a run of a deterministic system satisfies `C`
can be checked along the run. -/
instance decidableEachStep (next : σ → α → Option σ) (C : σ → α → σ → Prop)
    [∀ s a t, Decidable (C s a t)] :
    ∀ (s : σ) (as : List α), Decidable (EachStep (Performs next) C s as)
  | _, [] => isTrue trivial
  | s, a :: as =>
      match hnext : next s a with
      | none => isTrue fun t hstep => by
          rw [Performs, hnext] at hstep
          cases hstep
      | some u =>
          match (inferInstance : Decidable (C s a u)),
              decidableEachStep next C u as with
          | isTrue hC, isTrue hrest => isTrue fun t hstep => by
              rw [Performs, hnext, Option.some.injEq] at hstep
              exact hstep ▸ ⟨hC, hrest⟩
          | isFalse hnot, _ => isFalse fun h => hnot (h u hnext).1
          | _, isFalse hnot => isFalse fun h => hnot (h u hnext).2

variable {step : σ → α → σ → Prop}

theorem Run.append {s t u : σ} {as bs : List α}
    (hfirst : Run step s as t) (hsecond : Run step t bs u) :
    Run step s (as ++ bs) u := by
  induction hfirst with
  | nil s => simpa using hsecond
  | cons hstep _ ih => exact Run.cons hstep (ih hsecond)

theorem Run.single {s t : σ} {a : α} (hstep : step s a t) :
    Run step s [a] t :=
  Run.cons hstep (Run.nil t)

/-- A run whose actions satisfy `A` is a run of the steps with such actions. -/
theorem Run.restrict {A : α → Prop} {s t : σ} {as : List α} (h : Run step s as t)
    (hA : ∀ a ∈ as, A a) : Run (fun s a t => A a ∧ step s a t) s as t := by
  induction h with
  | nil s => exact Run.nil s
  | cons hstep _ ih =>
      exact Run.cons ⟨hA _ List.mem_cons_self, hstep⟩
        (ih fun a ha => hA a (List.mem_cons_of_mem _ ha))

theorem Always.head {P : σ → Prop} {s : σ} {as : List α}
    (h : Always step P s as) : P s := by
  cases as with
  | nil => exact h
  | cons a as => exact h.1

/-- A property of all states of a run holds of its last state. -/
theorem Always.last {P : σ → Prop} {s t : σ} {as : List α}
    (h : Always step P s as) (hrun : Run step s as t) : P t := by
  induction hrun with
  | nil s => exact h
  | cons hstep _ ih => exact ih (h.2 _ hstep)

theorem Always.mono {P Q : σ → Prop} (hPQ : ∀ s, P s → Q s) {s : σ}
    {as : List α} (h : Always step P s as) : Always step Q s as := by
  induction as generalizing s with
  | nil => exact hPQ s h
  | cons a as ih => exact ⟨hPQ s h.1, fun t hstep => ih (h.2 t hstep)⟩

/-- A condition on all transitions of a run holds of the last one. -/
theorem EachStep.last {C : σ → α → σ → Prop} {s t u : σ} {as : List α} {a : α}
    (h : EachStep step C s (as ++ [a])) (hrun : Run step s as t) (hstep : step t a u) :
    C t a u := by
  induction hrun with
  | nil s => exact (h u hstep).1
  | cons hfirst _ ih => exact ih (h _ hfirst).2 hstep

theorem EachStep.mono {C D : σ → α → σ → Prop}
    (hCD : ∀ s a t, step s a t → C s a t → D s a t) {s : σ} {as : List α}
    (h : EachStep step C s as) : EachStep step D s as := by
  induction as generalizing s with
  | nil => trivial
  | cons a as ih =>
      intro t hstep
      exact ⟨hCD s a t hstep (h t hstep).1, ih (h t hstep).2⟩

theorem EachStep.and {C D : σ → α → σ → Prop} {s : σ} {as : List α}
    (hC : EachStep step C s as) (hD : EachStep step D s as) :
    EachStep step (fun s a t => C s a t ∧ D s a t) s as := by
  induction as generalizing s with
  | nil => trivial
  | cons a as ih =>
      intro t hstep
      exact ⟨⟨(hC t hstep).1, (hD t hstep).1⟩, ih (hC t hstep).2 (hD t hstep).2⟩

theorem eachStep_of_forall {A : α → Prop} {as : List α}
    (hA : ∀ a ∈ as, A a) (s : σ) : EachStep step (fun _ a _ => A a) s as := by
  induction as generalizing s with
  | nil => trivial
  | cons a as ih =>
      intro t _
      exact ⟨hA a List.mem_cons_self,
        ih (fun b hb => hA b (List.mem_cons_of_mem a hb)) t⟩

/-- The invariant rule: what the start satisfies and every admitted step
preserves holds in every state of a run of admitted steps. -/
theorem always_of_eachStep {Inv : σ → Prop} {C : σ → α → σ → Prop}
    (hpreserve : ∀ s a t, Inv s → step s a t → C s a t → Inv t)
    {s : σ} {as : List α} (hinit : Inv s) (hC : EachStep step C s as) :
    Always step Inv s as := by
  induction as generalizing s with
  | nil => exact hinit
  | cons a as ih =>
      refine ⟨hinit, fun t hstep => ?_⟩
      exact ih (hpreserve s a t hinit hstep (hC t hstep).1) (hC t hstep).2

/-- Every admitted step out of an invariant state keeps the invariant and satisfies `D`, so
every transition of a run of admitted steps satisfies `D`. -/
theorem eachStep_of_eachStep {Inv : σ → Prop} {C D : σ → α → σ → Prop}
    (hpreserve : ∀ s a t, Inv s → step s a t → C s a t → Inv t ∧ D s a t)
    {s : σ} {as : List α} (hinit : Inv s) (hC : EachStep step C s as) : EachStep step D s as := by
  induction as generalizing s with
  | nil => trivial
  | cons a as ih =>
      intro t hstep
      obtain ⟨hadmitted, hrest⟩ := hC t hstep
      obtain ⟨hinv, hD⟩ := hpreserve s a t hinit hstep hadmitted
      exact ⟨hD, ih hinv hrest⟩

/-- The invariant rule for a run without a condition on its steps. -/
theorem always_of_preserved {Inv : σ → Prop}
    (hpreserve : ∀ s a t, Inv s → step s a t → Inv t)
    {s : σ} (hinit : Inv s) (as : List α) : Always step Inv s as := by
  induction as generalizing s with
  | nil => exact hinit
  | cons a as ih =>
      exact ⟨hinit, fun t hstep => ih (hpreserve s a t hinit hstep)⟩

/-- Every transition of a run satisfies what every transition out of an
invariant state satisfies. -/
theorem eachStep_of_preserved {Inv : σ → Prop} {C : σ → α → σ → Prop}
    (hpreserve : ∀ s a t, Inv s → step s a t → Inv t)
    (hC : ∀ s a t, Inv s → step s a t → C s a t)
    {s : σ} (hinit : Inv s) (as : List α) : EachStep step C s as := by
  induction as generalizing s with
  | nil => trivial
  | cons a as ih =>
      intro t hstep
      exact ⟨hC s a t hinit hstep, ih (hpreserve s a t hinit hstep)⟩

/-- Two conditions on transitions that agree in invariant states agree on runs. -/
theorem eachStep_congr (Inv : σ → Prop) {C D : σ → α → σ → Prop}
    (hpreserve : ∀ s a t, Inv s → step s a t → Inv t)
    (hiff : ∀ s a t, Inv s → step s a t → (C s a t ↔ D s a t))
    {s : σ} (hinit : Inv s) (as : List α) :
    EachStep step C s as ↔ EachStep step D s as := by
  induction as generalizing s with
  | nil => exact Iff.rfl
  | cons a as ih =>
      refine forall_congr' fun t => forall_congr' fun hstep => ?_
      exact and_congr (hiff s a t hinit hstep) (ih (hpreserve s a t hinit hstep))

/-- The exact-condition rule.  If admitted steps preserve the invariant, the
invariant gives the property, and a step that is not admitted leads to a state
without the property, then a run keeps the property throughout exactly when
each of its steps is admitted. -/
theorem always_iff_eachStep (Inv : σ → Prop) {P : σ → Prop} {C : σ → α → σ → Prop}
    (hpreserve : ∀ s a t, Inv s → step s a t → C s a t → Inv t)
    (hproperty : ∀ s, Inv s → P s)
    (hbreak : ∀ s a t, Inv s → step s a t → ¬ C s a t → ¬ P t)
    {s : σ} (hinit : Inv s) (as : List α) :
    Always step P s as ↔ EachStep step C s as := by
  constructor
  · intro halways
    induction as generalizing s with
    | nil => trivial
    | cons a as ih =>
        intro t hstep
        have hrest := halways.2 t hstep
        have hadmitted : C s a t := by
          by_contra hnot
          exact hbreak s a t hinit hstep hnot hrest.head
        exact ⟨hadmitted, ih (hpreserve s a t hinit hstep hadmitted) hrest⟩
  · intro hC
    exact (always_of_eachStep hpreserve hinit hC).mono hproperty

/-- The rule for what happens once.  If a step adds to a record the values with which `E`
happens, the record has no value twice throughout a run exactly when no value of the
record happens again and none happens twice. -/
theorem always_nodup_iff {β : Type*} {E : σ → α → β → Prop} {record : σ → List β}
    (Inv : σ → Prop) (hpreserve : ∀ s a t, Inv s → step s a t → Inv t)
    (hadds : ∀ s a t, Inv s → step s a t → ∃ added, added.Nodup ∧
      (∀ b, b ∈ added ↔ E s a b) ∧ record t = added ++ record s)
    {s : σ} (hinv : Inv s) (hnodup : (record s).Nodup) (as : List α) :
    Always step (fun s => (record s).Nodup) s as ↔
      (∀ b ∈ record s, EachStep step (fun u c _ => ¬ E u c b) s as) ∧ Once step E s as := by
  induction as generalizing s with
  | nil => exact iff_of_true hnodup ⟨fun _ _ => trivial, trivial⟩
  | cons a as ih =>
      have hlater : ∀ t, step s a t → (Always step (fun s => (record s).Nodup) t as ↔
          (∀ b ∈ record s, ¬ E s a b ∧ EachStep step (fun u c _ => ¬ E u c b) t as) ∧
            (∀ b, E s a b → EachStep step (fun u c _ => ¬ E u c b) t as) ∧ Once step E t as) := by
        intro t hstep
        obtain ⟨added, hadded, hmem, hrecord⟩ := hadds s a t hinv hstep
        have hjoined : (record t).Nodup ↔ ∀ b ∈ record s, ¬ E s a b := by
          rw [hrecord, List.nodup_append', List.disjoint_right]
          simp [hadded, hnodup, hmem]
        constructor
        · intro halways
          obtain ⟨hrest, honce⟩ :=
            (ih (hpreserve s a t hinv hstep) halways.head).mp halways
          refine ⟨fun b hb => ⟨hjoined.mp halways.head b hb, hrest b ?_⟩, fun b hb => hrest b ?_,
            honce⟩
          · exact hrecord ▸ List.mem_append_right _ hb
          · exact hrecord ▸ List.mem_append_left _ ((hmem b).mpr hb)
        · rintro ⟨hold, hnew, honce⟩
          refine (ih (hpreserve s a t hinv hstep)
            (hjoined.mpr fun b hb => (hold b hb).1)).mpr ⟨fun b hb => ?_, honce⟩
          rcases List.mem_append.mp (hrecord ▸ hb) with hb | hb
          · exact hnew b ((hmem b).mp hb)
          · exact (hold b hb).2
      constructor
      · rintro ⟨-, halways⟩
        exact ⟨fun b hb t hstep => ((hlater t hstep).mp (halways t hstep)).1 b hb,
          fun t hstep => ((hlater t hstep).mp (halways t hstep)).2⟩
      · rintro ⟨hold, honce⟩
        exact ⟨hnodup, fun t hstep =>
          (hlater t hstep).mpr ⟨fun b hb => hold b hb t hstep, honce t hstep⟩⟩

end FeedsService.Runs
