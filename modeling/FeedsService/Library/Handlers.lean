import Mathlib.Data.Nat.Notation
import Mathlib.Logic.Basic

/-!
# Handlers of which a call may fail

A handler works on a state and leaves at the first error.  Some of the things it does
are calls that may be made to fail, one at a time.

What of the state matters is what a `view` shows.  A handler spares it when leaving with
an error shows what was there before.  The rules follow the shape of most handlers: first
calls that keep the state, then one that does its work or leaves it alone, then what
cannot fail.
-/

namespace FeedsService.Library.Handlers

/-- `κ` names the calls; the first argument of `run` is the one that fails. -/
structure Handler (κ σ ε α : Type) where
  run : Option κ → σ → Except ε α × σ

variable {κ σ τ ε α β : Type}

instance : Monad (Handler κ σ ε) where
  pure value := ⟨fun _ s => (.ok value, s)⟩
  bind handler next := ⟨fun fault s =>
    match handler.run fault s with
    | (.ok value, s') => (next value).run fault s'
    | (.error e, s') => (.error e, s')⟩

def get : Handler κ σ ε σ :=
  ⟨fun _ s => (.ok s, s)⟩

def update (change : σ → σ) : Handler κ σ ε Unit :=
  ⟨fun _ s => (.ok (), change s)⟩

/-- Go on if the test succeeds. -/
def require (e : ε) (test : σ → Bool) : Handler κ σ ε Unit :=
  ⟨fun _ s => (if test s then .ok () else .error e, s)⟩

/-- Go on with what is found. -/
def find (e : ε) (look : σ → Option α) : Handler κ σ ε α :=
  ⟨fun _ s => ((look s).elim (.error e) .ok, s)⟩

/-- A call that does nothing to the state. -/
def attempt [DecidableEq κ] (c : κ) (e : ε) : Handler κ σ ε Unit :=
  ⟨fun fault s => (if fault = some c then .error e else .ok (), s)⟩

/-- A call with effects of its own. -/
def invoke (e : ε) (body : Option κ → σ → Option α × σ) : Handler κ σ ε α :=
  ⟨fun fault s => ((body fault s).1.elim (.error e) .ok, (body fault s).2)⟩

/-- Whether a call fails, for a caller that goes on in either case. -/
def failing [DecidableEq κ] (c : κ) : Handler κ σ ε Bool :=
  ⟨fun fault s => (.ok (fault = some c), s)⟩

/-- Go on with what a reading of the state finds. -/
def examine (look : σ → Except ε α) : Handler κ σ ε α :=
  ⟨fun _ s => (look s, s)⟩

/-- What is done to the state before leaving with an error. -/
def onError (cleanup : σ → σ) (handler : Handler κ σ ε α) : Handler κ σ ε α :=
  ⟨fun fault s =>
    match handler.run fault s with
    | (.ok value, s') => (.ok value, s')
    | (.error e, s') => (.error e, cleanup s')⟩

section Equations

variable {fault : Option κ} {s s' : σ} {value : α} {e : ε}

@[simp]
theorem run_pure : (pure value : Handler κ σ ε α).run fault s = (.ok value, s) := rfl

theorem run_bind (handler : Handler κ σ ε α) (next : α → Handler κ σ ε β) :
    (handler >>= next).run fault s =
      match handler.run fault s with
      | (.ok value, s') => (next value).run fault s'
      | (.error e, s') => (.error e, s') := rfl

theorem run_bind_ok {handler : Handler κ σ ε α} {next : α → Handler κ σ ε β}
    (h : handler.run fault s = (.ok value, s')) :
    (handler >>= next).run fault s = (next value).run fault s' := by
  rw [run_bind, h]

theorem run_bind_error {handler : Handler κ σ ε α} {next : α → Handler κ σ ε β}
    (h : handler.run fault s = (.error e, s')) :
    (handler >>= next).run fault s = (.error e, s') := by
  rw [run_bind, h]

theorem run_onError_ok {cleanup : σ → σ} {handler : Handler κ σ ε α}
    (h : handler.run fault s = (.ok value, s')) :
    (onError cleanup handler).run fault s = (.ok value, s') := by
  simp only [onError, h]

theorem run_onError_error {cleanup : σ → σ} {handler : Handler κ σ ε α}
    (h : handler.run fault s = (.error e, s')) :
    (onError cleanup handler).run fault s = (.error e, cleanup s') := by
  simp only [onError, h]

theorem run_bind_assoc {γ : Type} (handler : Handler κ σ ε α) (next : α → Handler κ σ ε β)
    (last : β → Handler κ σ ε γ) :
    ((handler >>= next) >>= last).run fault s =
      (handler >>= fun value => next value >>= last).run fault s := by
  rcases hrun : handler.run fault s with ⟨result, s'⟩
  cases result with
  | error e => rw [run_bind_error (run_bind_error hrun), run_bind_error hrun]
  | ok value => simp only [run_bind, hrun]

theorem run_attempt_failing [DecidableEq κ] (c : κ) (e : ε) (s : σ) :
    (attempt c e).run (some c) s = (.error e, s) := by
  simp [attempt]

theorem run_attempt [DecidableEq κ] {c : κ} (hfault : fault ≠ some c) :
    (attempt c e).run fault s = (.ok (), s) := by
  simp [attempt, hfault]

theorem run_bind_eq_ok {handler : Handler κ σ ε α} {next : α → Handler κ σ ε β} {result : β} :
    (handler >>= next).run fault s = (.ok result, s') ↔
      ∃ value t, handler.run fault s = (.ok value, t) ∧
        (next value).run fault t = (.ok result, s') := by
  rcases hrun : handler.run fault s with ⟨first, t⟩
  cases first with
  | error e => simp [run_bind_error hrun]
  | ok value =>
      rw [run_bind_ok hrun]
      constructor
      · intro hnext
        exact ⟨value, t, rfl, hnext⟩
      · rintro ⟨_, _, hsame, hnext⟩
        cases hsame
        exact hnext

theorem run_require_eq_ok {test : σ → Bool} {u : Unit} :
    (require e test : Handler κ σ ε Unit).run fault s = (.ok u, s') ↔
      test s = true ∧ s = s' := by
  cases htest : test s <;> simp [require, htest]

theorem run_find_eq_ok {look : σ → Option α} :
    (find e look : Handler κ σ ε α).run fault s = (.ok value, s') ↔
      look s = some value ∧ s = s' := by
  cases hlook : look s <;> simp [find, hlook]

theorem run_attempt_eq_ok [DecidableEq κ] {c : κ} {u : Unit} :
    (attempt c e : Handler κ σ ε Unit).run fault s = (.ok u, s') ↔
      fault ≠ some c ∧ s = s' := by
  by_cases hfault : fault = some c <;> simp [attempt, hfault]

theorem run_invoke_eq_ok {body : Option κ → σ → Option α × σ} :
    (invoke e body : Handler κ σ ε α).run fault s = (.ok value, s') ↔
      body fault s = (some value, s') := by
  rcases hbody : body fault s with ⟨result, t⟩
  cases result <;> simp [invoke, hbody]

theorem run_examine_eq_ok {look : σ → Except ε α} :
    (examine look : Handler κ σ ε α).run fault s = (.ok value, s') ↔
      look s = .ok value ∧ s = s' := by
  simp [examine]

theorem run_update_eq_ok {change : σ → σ} {u : Unit} :
    (update change : Handler κ σ ε Unit).run fault s = (.ok u, s') ↔ change s = s' := by
  simp [update]

end Equations

section Rules

variable {view : σ → τ} {fault : Option κ} {s : σ}

/-- Whatever fails and however it ends, the handler shows the same as before. -/
def Keeps (view : σ → τ) (handler : Handler κ σ ε α) : Prop :=
  ∀ fault s, view (handler.run fault s).2 = view s

/-- A handler that leaves with an error shows the same as before. -/
def Spares (view : σ → τ) (handler : Handler κ σ ε α) (fault : Option κ) (s : σ) : Prop :=
  ∀ e, (handler.run fault s).1 = .error e → view (handler.run fault s).2 = view s

def Succeeds (handler : Handler κ σ ε α) : Prop :=
  ∀ fault s, ∃ value, (handler.run fault s).1 = .ok value

theorem keeps_pure (value : α) : Keeps view (pure value : Handler κ σ ε α) :=
  fun _ _ => rfl

theorem keeps_get : Keeps view (get : Handler κ σ ε σ) :=
  fun _ _ => rfl

theorem keeps_require (e : ε) (test : σ → Bool) :
    Keeps view (require e test : Handler κ σ ε Unit) :=
  fun _ _ => rfl

theorem keeps_find (e : ε) (look : σ → Option α) :
    Keeps view (find e look : Handler κ σ ε α) :=
  fun _ _ => rfl

theorem keeps_attempt [DecidableEq κ] (c : κ) (e : ε) :
    Keeps view (attempt c e : Handler κ σ ε Unit) :=
  fun _ _ => rfl

theorem keeps_failing [DecidableEq κ] (c : κ) :
    Keeps view (failing c : Handler κ σ ε Bool) :=
  fun _ _ => rfl

theorem keeps_examine (look : σ → Except ε α) :
    Keeps view (examine look : Handler κ σ ε α) :=
  fun _ _ => rfl

theorem keeps_update {change : σ → σ} (hchange : ∀ s, view (change s) = view s) :
    Keeps view (update change : Handler κ σ ε Unit) :=
  fun _ s => hchange s

theorem keeps_invoke {e : ε} {body : Option κ → σ → Option α × σ}
    (hbody : ∀ fault s, view (body fault s).2 = view s) :
    Keeps view (invoke e body : Handler κ σ ε α) :=
  fun fault s => hbody fault s

theorem keeps_bind {handler : Handler κ σ ε α} {next : α → Handler κ σ ε β}
    (hhandler : Keeps view handler) (hnext : ∀ value, Keeps view (next value)) :
    Keeps view (handler >>= next) := by
  intro fault s
  have hfirst := hhandler fault s
  rcases hrun : handler.run fault s with ⟨result, s'⟩
  rw [hrun] at hfirst
  cases result with
  | error e => rwa [run_bind_error hrun]
  | ok value =>
      rw [run_bind_ok hrun]
      exact (hnext value fault s').trans hfirst

theorem succeeds_pure (value : α) : Succeeds (pure value : Handler κ σ ε α) :=
  fun _ _ => ⟨value, rfl⟩

theorem succeeds_get : Succeeds (get : Handler κ σ ε σ) :=
  fun _ s => ⟨s, rfl⟩

theorem succeeds_update (change : σ → σ) :
    Succeeds (update change : Handler κ σ ε Unit) :=
  fun _ _ => ⟨(), rfl⟩

theorem succeeds_bind {handler : Handler κ σ ε α} {next : α → Handler κ σ ε β}
    (hhandler : Succeeds handler) (hnext : ∀ value, Succeeds (next value)) :
    Succeeds (handler >>= next) := by
  intro fault s
  obtain ⟨value, hvalue⟩ := hhandler fault s
  rcases hrun : handler.run fault s with ⟨result, s'⟩
  rw [hrun] at hvalue
  obtain rfl := hvalue
  rw [run_bind_ok hrun]
  exact hnext value fault s'

theorem spares_of_keeps {handler : Handler κ σ ε α} (h : Keeps view handler) :
    Spares view handler fault s :=
  fun _ _ => h fault s

theorem spares_of_succeeds {handler : Handler κ σ ε α} (h : Succeeds handler) :
    Spares view handler fault s := by
  intro e herror
  obtain ⟨value, hvalue⟩ := h fault s
  cases hvalue.symm.trans herror

/-- Calls that keep the state may go before. -/
theorem spares_bind_iff {handler : Handler κ σ ε α} {next : α → Handler κ σ ε β}
    (hhandler : Keeps view handler) :
    Spares view (handler >>= next) fault s ↔
      ∀ value s', handler.run fault s = (.ok value, s') → Spares view (next value) fault s' := by
  have hfirst := hhandler fault s
  rcases hrun : handler.run fault s with ⟨result, s'⟩
  rw [hrun] at hfirst
  cases result with
  | error e =>
      refine iff_of_true ?_ fun value s' hvalue => by cases hvalue
      intro other _
      rwa [run_bind_error hrun]
  | ok value =>
      have hnext : Spares view (handler >>= next) fault s ↔
          Spares view (next value) fault s' := by
        rw [Spares, Spares, run_bind_ok hrun, hfirst]
      rw [hnext]
      constructor
      · intro hspares other s'' hsame
        cases hsame
        exact hspares
      · intro hspares
        exact hspares value s' rfl

theorem spares_bind {handler : Handler κ σ ε α} {next : α → Handler κ σ ε β}
    (hhandler : Keeps view handler) (hnext : ∀ value s, Spares view (next value) fault s) :
    Spares view (handler >>= next) fault s :=
  (spares_bind_iff hhandler).mpr fun value s' _ => hnext value s'

/-- What cannot fail may come after. -/
theorem spares_bind_succeeds_iff {handler : Handler κ σ ε α} {next : α → Handler κ σ ε β}
    (hnext : ∀ value, Succeeds (next value)) :
    Spares view (handler >>= next) fault s ↔ Spares view handler fault s := by
  rcases hrun : handler.run fault s with ⟨result, s'⟩
  cases result with
  | error e =>
      rw [Spares, Spares, run_bind_error hrun, hrun]
      simp only [Except.error.injEq]
  | ok value =>
      refine iff_of_true ?_ ?_
      · intro e herror
        rw [run_bind_ok hrun] at herror
        obtain ⟨result, hresult⟩ := hnext value fault s'
        cases hresult.symm.trans herror
      · intro e herror
        rw [hrun] at herror
        cases herror

theorem spares_bind_succeeds {handler : Handler κ σ ε α} {next : α → Handler κ σ ε β}
    (hhandler : Spares view handler fault s) (hnext : ∀ value, Succeeds (next value)) :
    Spares view (handler >>= next) fault s :=
  (spares_bind_succeeds_iff hnext).mpr hhandler

end Rules

section Failing

variable {fault : Option κ} {s : σ} {e : ε}

def Fails (handler : Handler κ σ ε α) (fault : Option κ) (s : σ) : Prop :=
  ∃ e, (handler.run fault s).1 = .error e

theorem not_fails_of_succeeds {handler : Handler κ σ ε α} (h : Succeeds handler) :
    ¬ Fails handler fault s := by
  rintro ⟨e, he⟩
  obtain ⟨value, hvalue⟩ := h fault s
  cases hvalue.symm.trans he

theorem fails_attempt_bind_iff [DecidableEq κ] {c : κ} {next : Unit → Handler κ σ ε β} :
    Fails (attempt c e >>= next) fault s ↔ fault = some c ∨ Fails (next ()) fault s := by
  by_cases hfault : fault = some c
  · subst hfault
    exact iff_of_true ⟨e, by rw [run_bind_error (run_attempt_failing _ _ _)]⟩ (.inl rfl)
  · rw [or_iff_right hfault, Fails, run_bind_ok (run_attempt hfault), Fails]

theorem fails_require_bind_iff {test : σ → Bool} {next : Unit → Handler κ σ ε β} :
    Fails (require e test >>= next) fault s ↔ test s = false ∨ Fails (next ()) fault s := by
  cases htest : test s with
  | false => exact iff_of_true ⟨e, by simp [run_bind, require, htest]⟩ (.inl rfl)
  | true =>
      rw [or_iff_right (by simp), Fails, run_bind_ok (run_require_eq_ok.mpr ⟨htest, rfl⟩), Fails]

theorem fails_find_bind_iff {look : σ → Option α} {next : α → Handler κ σ ε β} :
    Fails (find e look >>= next) fault s ↔
      look s = none ∨ ∃ value, look s = some value ∧ Fails (next value) fault s := by
  cases hlook : look s with
  | none => exact iff_of_true ⟨e, by simp [run_bind, find, hlook]⟩ (.inl rfl)
  | some value =>
      rw [or_iff_right (by simp), Fails, run_bind_ok (run_find_eq_ok.mpr ⟨hlook, rfl⟩)]
      simp [Fails]

/-- The end of a handler that has changed what is shown before. -/
theorem spared_iff_of_keeps {view : σ → τ} {shown : τ} {handler : Handler κ σ ε α}
    (hkeeps : Keeps view handler) :
    (∀ e, (handler.run fault s).1 = .error e → view (handler.run fault s).2 = shown) ↔
      (Fails handler fault s → view s = shown) := by
  rw [hkeeps fault s]
  exact ⟨fun hspared ⟨e, he⟩ => hspared e he, fun hshown e he => hshown ⟨e, he⟩⟩

end Failing

section Leaving

variable {view : σ → τ} {fault : Option κ} {s : σ} {e : ε}

/-- No call that fails, and no test, makes the handler leave with `e`. -/
def Never (e : ε) (handler : Handler κ σ ε α) : Prop :=
  ∀ fault s, (handler.run fault s).1 ≠ .error e

/-- Leaving with `e` shows the same as before. -/
def SparesWith (view : σ → τ) (e : ε) (handler : Handler κ σ ε α) : Prop :=
  ∀ fault s, (handler.run fault s).1 = .error e → view (handler.run fault s).2 = view s

theorem never_pure (value : α) : Never e (pure value : Handler κ σ ε α) := by
  intro _ _ herror
  cases herror

theorem never_update (change : σ → σ) : Never e (update change : Handler κ σ ε Unit) := by
  intro _ _ herror
  cases herror

theorem never_attempt [DecidableEq κ] {c : κ} {e' : ε} (hne : e' ≠ e) :
    Never e (attempt c e' : Handler κ σ ε Unit) := by
  intro fault s herror
  simp only [attempt] at herror
  split at herror
  · exact hne (Except.error.inj herror)
  · cases herror

theorem never_require {e' : ε} {test : σ → Bool} (hne : e' ≠ e) :
    Never e (require e' test : Handler κ σ ε Unit) := by
  intro fault s herror
  simp only [require] at herror
  split at herror
  · cases herror
  · exact hne (Except.error.inj herror)

theorem never_find {e' : ε} {look : σ → Option α} (hne : e' ≠ e) :
    Never e (find e' look : Handler κ σ ε α) := by
  intro fault s herror
  cases hlook : look s with
  | none =>
      simp only [find, hlook, Option.elim_none] at herror
      exact hne (Except.error.inj herror)
  | some value => simp [find, hlook] at herror

theorem never_invoke {e' : ε} {body : Option κ → σ → Option α × σ} (hne : e' ≠ e) :
    Never e (invoke e' body : Handler κ σ ε α) := by
  intro fault s herror
  cases hbody : (body fault s).1 with
  | none =>
      simp only [invoke, hbody, Option.elim_none] at herror
      exact hne (Except.error.inj herror)
  | some value => simp [invoke, hbody] at herror

theorem run_bind_ne_error {handler : Handler κ σ ε α} {next : α → Handler κ σ ε β}
    (hhandler : (handler.run fault s).1 ≠ .error e)
    (hnext : ∀ value s', handler.run fault s = (.ok value, s') →
      ((next value).run fault s').1 ≠ .error e) :
    ((handler >>= next).run fault s).1 ≠ .error e := by
  rcases hrun : handler.run fault s with ⟨result, s'⟩
  cases result with
  | error e' =>
      rw [run_bind_error hrun]
      rw [hrun] at hhandler
      intro herror
      exact hhandler (congrArg Except.error (Except.error.inj herror))
  | ok value =>
      rw [run_bind_ok hrun]
      exact hnext value s' hrun

theorem never_bind {handler : Handler κ σ ε α} {next : α → Handler κ σ ε β}
    (hhandler : Never e handler) (hnext : ∀ value, Never e (next value)) :
    Never e (handler >>= next) :=
  fun fault s => run_bind_ne_error (hhandler fault s) fun value s' _ => hnext value fault s'

theorem never_onError {cleanup : σ → σ} {handler : Handler κ σ ε α} (h : Never e handler) :
    Never e (onError cleanup handler) := by
  intro fault s
  have hfirst := h fault s
  rcases hrun : handler.run fault s with ⟨result, s'⟩
  rw [hrun] at hfirst
  cases result with
  | error e' => rwa [run_onError_error hrun]
  | ok value => rwa [run_onError_ok hrun]

theorem sparesWith_of_never {handler : Handler κ σ ε α} (h : Never e handler) :
    SparesWith view e handler :=
  fun fault s herror => absurd herror (h fault s)

theorem sparesWith_of_keeps {handler : Handler κ σ ε α} (h : Keeps view handler) :
    SparesWith view e handler :=
  fun fault s _ => h fault s

theorem sparesWith_of_spares {handler : Handler κ σ ε α}
    (h : ∀ fault s, Spares view handler fault s) : SparesWith view e handler :=
  fun fault s => h fault s e

/-- Calls that keep the state may go before. -/
theorem sparesWith_bind_of_keeps {handler : Handler κ σ ε α} {next : α → Handler κ σ ε β}
    (hhandler : Keeps view handler) (hnext : ∀ value, SparesWith view e (next value)) :
    SparesWith view e (handler >>= next) := by
  intro fault s
  have hfirst := hhandler fault s
  rcases hrun : handler.run fault s with ⟨result, s'⟩
  rw [hrun] at hfirst
  cases result with
  | error e' =>
      intro _
      rwa [run_bind_error hrun]
  | ok value =>
      rw [run_bind_ok hrun]
      intro herror
      exact (hnext value fault s' herror).trans hfirst

/-- What does not leave with `e` may come after. -/
theorem sparesWith_bind_of_never {handler : Handler κ σ ε α} {next : α → Handler κ σ ε β}
    (hhandler : SparesWith view e handler) (hnext : ∀ value, Never e (next value)) :
    SparesWith view e (handler >>= next) := by
  intro fault s
  have hfirst := hhandler fault s
  rcases hrun : handler.run fault s with ⟨result, s'⟩
  rw [hrun] at hfirst
  cases result with
  | error e' =>
      rw [run_bind_error hrun]
      intro herror
      exact hfirst (congrArg Except.error (Except.error.inj herror))
  | ok value =>
      rw [run_bind_ok hrun]
      intro herror
      exact absurd herror (hnext value fault s')

/-- Of the errors one may be left out that shows the same in any case. -/
theorem spares_iff_of_sparesWith {handler : Handler κ σ ε α} (h : SparesWith view e handler) :
    Spares view handler fault s ↔
      ∀ e', e' ≠ e → (handler.run fault s).1 = .error e' →
        view (handler.run fault s).2 = view s := by
  constructor
  · intro hspares e' _
    exact hspares e'
  · intro hothers e' herror
    by_cases hsame : e' = e
    · exact h fault s (hsame ▸ herror)
    · exact hothers e' hsame herror

end Leaving

section Preserving

variable {P : σ → Prop}

/-- Whatever fails and however it ends, the handler keeps `P`. -/
def Preserves (P : σ → Prop) (handler : Handler κ σ ε α) : Prop :=
  ∀ fault s, P s → P (handler.run fault s).2

theorem preserves_of_keeps {view : σ → τ} {handler : Handler κ σ ε α}
    (hP : ∀ s s', view s' = view s → P s → P s') (h : Keeps view handler) :
    Preserves P handler :=
  fun fault s => hP s _ (h fault s)

theorem preserves_update {change : σ → σ} (hchange : ∀ s, P s → P (change s)) :
    Preserves P (update change : Handler κ σ ε Unit) :=
  fun _ s => hchange s

theorem preserves_invoke {e : ε} {body : Option κ → σ → Option α × σ}
    (hbody : ∀ fault s, P s → P (body fault s).2) :
    Preserves P (invoke e body : Handler κ σ ε α) :=
  fun fault s => hbody fault s

theorem preserves_bind {handler : Handler κ σ ε α} {next : α → Handler κ σ ε β}
    (hhandler : Preserves P handler) (hnext : ∀ value, Preserves P (next value)) :
    Preserves P (handler >>= next) := by
  intro fault s hs
  have hfirst := hhandler fault s hs
  rcases hrun : handler.run fault s with ⟨result, s'⟩
  rw [hrun] at hfirst
  cases result with
  | error e => rwa [run_bind_error hrun]
  | ok value =>
      rw [run_bind_ok hrun]
      exact hnext value fault s' hfirst

/-- What holds after a first part that shows the same is decided by the rest. -/
theorem holds_bind_iff {view : σ → τ} {fault : Option κ} {s : σ} {handler : Handler κ σ ε α}
    {next : α → Handler κ σ ε β} (hP : ∀ s s', view s' = view s → P s → P s')
    (hhandler : Keeps view handler) (hs : P s) :
    P ((handler >>= next).run fault s).2 ↔
      ∀ value s', handler.run fault s = (.ok value, s') → P ((next value).run fault s').2 := by
  have hfirst := hP s _ (hhandler fault s) hs
  rcases hrun : handler.run fault s with ⟨result, s'⟩
  rw [hrun] at hfirst
  cases result with
  | error e =>
      rw [run_bind_error hrun]
      exact iff_of_true hfirst fun _ _ hok => by cases hok
  | ok value =>
      rw [run_bind_ok hrun]
      constructor
      · intro hheld _ _ hok
        cases hok
        exact hheld
      · intro hheld
        exact hheld value s' rfl

/-- A rest that shows the same does not matter. -/
theorem holds_bind_keeps_iff {view : σ → τ} {fault : Option κ} {s : σ}
    {handler : Handler κ σ ε α} {next : α → Handler κ σ ε β}
    (hP : ∀ s s', view s' = view s → P s → P s') (hnext : ∀ value, Keeps view (next value)) :
    P ((handler >>= next).run fault s).2 ↔ P (handler.run fault s).2 := by
  rcases hrun : handler.run fault s with ⟨result, s'⟩
  cases result with
  | error e => rw [run_bind_error hrun]
  | ok value =>
      rw [run_bind_ok hrun]
      have hlast := hnext value fault s'
      exact ⟨hP _ _ hlast.symm, hP _ _ hlast⟩

/-- A handler that only looks at the state before it leaves. -/
theorem run_bind_unchanged {fault : Option κ} {s : σ} {handler : Handler κ σ ε α}
    {next : α → Handler κ σ ε β} (hhandler : Keeps id handler)
    (hnext : ∀ value, handler.run fault s = (.ok value, s) → ((next value).run fault s).2 = s) :
    ((handler >>= next).run fault s).2 = s := by
  have hfirst : (handler.run fault s).2 = s := hhandler fault s
  rcases hrun : handler.run fault s with ⟨result, s'⟩
  rw [hrun] at hfirst
  subst hfirst
  cases result with
  | error e => rw [run_bind_error hrun]
  | ok value =>
      rw [run_bind_ok hrun]
      exact hnext value hrun

theorem preserves_onError {cleanup : σ → σ} {handler : Handler κ σ ε α}
    (hhandler : Preserves P handler) (hcleanup : ∀ s, P s → P (cleanup s)) :
    Preserves P (onError cleanup handler) := by
  intro fault s hs
  have hleft := hhandler fault s hs
  rcases hrun : handler.run fault s with ⟨result, s'⟩
  rw [hrun] at hleft
  cases result with
  | ok value => rwa [run_onError_ok hrun]
  | error e =>
      rw [run_onError_error hrun]
      exact hcleanup s' hleft

end Preserving

end FeedsService.Library.Handlers
