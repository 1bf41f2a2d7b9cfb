import Mathlib.Data.List.Pairwise
import FeedsService.Library.CStrings
import FeedsService.Library.KeyedTable

/-!
# Calls that may not return

A call returns, or something stops it: an exception, a fault.  A table calls
the first of its entries that passes a test.  A chain of handlers is asked in
order until one of them does not decline.  Either returns when the one call
that matters does.
-/

namespace FeedsService.Library

open KeyedTable

variable {ε ρ σ : Type}

def Returns (call : Except ε ρ) : Prop :=
  ∃ value, call = .ok value

theorem returns_ok (value : ρ) : Returns (.ok value : Except ε ρ) :=
  ⟨value, rfl⟩

theorem returns_pure (value : ρ) : Returns (pure value : Except ε ρ) :=
  returns_ok value

@[simp]
theorem not_returns_error (stop : ε) : ¬ Returns (.error stop : Except ε ρ) := by
  rintro ⟨value, h⟩
  cases h

theorem returns_bind_iff {call : Except ε ρ} {next : ρ → Except ε σ} :
    Returns (call >>= next) ↔ ∃ value, call = .ok value ∧ Returns (next value) := by
  constructor
  · rintro ⟨result, h⟩
    obtain ⟨value, hcall, hnext⟩ := bind_eq_ok.mp h
    exact ⟨value, hcall, result, hnext⟩
  · rintro ⟨value, hcall, result, hnext⟩
    exact ⟨result, bind_eq_ok.mpr ⟨value, hcall, hnext⟩⟩

/-- Two calls in a row, when the first has no say in whether the second
returns. -/
theorem returns_bind_of_iff {call : Except ε ρ} {next : ρ → Except ε σ} {condition : Prop}
    (hnext : ∀ value, Returns (next value) ↔ condition) :
    Returns (call >>= next) ↔ Returns call ∧ condition := by
  rw [returns_bind_iff]
  constructor
  · rintro ⟨value, hcall, hreturns⟩
    exact ⟨⟨value, hcall⟩, (hnext value).mp hreturns⟩
  · rintro ⟨⟨value, hcall⟩, hcondition⟩
    exact ⟨value, hcall, (hnext value).mpr hcondition⟩

theorem returns_bind_of_next {call : Except ε ρ} {next : ρ → Except ε σ}
    (hnext : ∀ value, Returns (next value)) : Returns (call >>= next) ↔ Returns call := by
  rw [returns_bind_of_iff fun value => iff_true_intro (hnext value), and_true]

/-- An early return. -/
theorem returns_unless_iff {condition : Prop} [Decidable condition] {value : ρ}
    {call : Except ε ρ} :
    Returns (if condition then .ok value else call) ↔ (¬ condition → Returns call) := by
  by_cases h : condition
  · simpa only [h, if_true, not_true_eq_false, false_imp_iff, iff_true] using returns_ok value
  · simp only [h, if_false, not_false_iff, true_imp_iff]

theorem mapError_eq_ok {δ : Type} {call : Except ε ρ} {stop : ε → δ} {value : ρ} :
    call.mapError stop = .ok value ↔ call = .ok value := by
  cases call with
  | error stopped => simp [Except.mapError]
  | ok result => simp [Except.mapError]

section Table

variable {κ : Type}

/-- The loop over a table: the first entry that passes the test is called, and
without one the answer is `missing`. -/
def dispatch (test : κ → Except ε Bool) (call : κ → Except ε ρ) (missing : ρ) :
    List κ → Except ε ρ
  | [] => .ok missing
  | entry :: entries => do
    if ← test entry then call entry else dispatch test call missing entries

variable {test : κ → Except ε Bool} {call : κ → Except ε ρ} {missing : ρ}
  {entries : List κ} {passes : κ → Bool}

theorem dispatch_eq (htest : ∀ entry ∈ entries, test entry = .ok (passes entry)) :
    dispatch test call missing entries =
      match entries.find? passes with
      | some entry => call entry
      | none => .ok missing := by
  induction entries with
  | nil => rfl
  | cons entry entries ih =>
      have hrest := ih fun other hother => htest other (List.mem_cons_of_mem _ hother)
      rw [dispatch, htest entry List.mem_cons_self, ok_bind, List.find?_cons]
      cases passes entry with
      | true => rfl
      | false => exact hrest

theorem dispatch_of_none (htest : ∀ entry ∈ entries, test entry = .ok (passes entry))
    (hnone : ∀ entry ∈ entries, ¬ passes entry = true) :
    dispatch test call missing entries = .ok missing := by
  rw [dispatch_eq htest, List.find?_eq_none.mpr hnone]

theorem returns_dispatch_iff (htest : ∀ entry ∈ entries, test entry = .ok (passes entry)) :
    Returns (dispatch test call missing entries) ↔
      ∀ entry ∈ entries.find? passes, Returns (call entry) := by
  rw [dispatch_eq htest]
  cases entries.find? passes with
  | none => simpa using returns_ok missing
  | some entry => simp only [Option.mem_some_iff, forall_eq']

/-- A table that is searched by key. -/
theorem returns_dispatch_keyed_iff {β : Type} [DecidableEq β] {key : κ → β} {sought : β}
    (htest : ∀ entry ∈ entries, test entry = .ok (decide (key entry = sought)))
    (hkeyed : Keyed key entries) :
    Returns (dispatch test call missing entries) ↔
      ∀ entry ∈ entries, key entry = sought → Returns (call entry) := by
  calc
    Returns (dispatch test call missing entries)
        ↔ ∀ entry ∈ KeyedTable.get key entries sought, Returns (call entry) :=
      returns_dispatch_iff htest
    _ ↔ ∀ entry ∈ entries, key entry = sought → Returns (call entry) := by
        simp only [Option.mem_def, get_eq_some hkeyed, and_imp]

end Table

section Chain

/-- The loop over the handlers: it goes on while the answer is `declined`. -/
def firstAnswer [DecidableEq ρ] (declined : ρ) :
    List (σ → Except ε (ρ × σ)) → ρ × σ → Except ε (ρ × σ)
  | [], last => .ok last
  | handler :: handlers, last => do
    let next ← handler last.2
    if next.1 = declined then firstAnswer declined handlers next else .ok next

variable {declined : ρ} {handlers : List (σ → Except ε (ρ × σ))}

/-- The handler has nothing to do with the request and leaves it alone. -/
def Declines (declined : ρ) (handler : σ → Except ε (ρ × σ)) : Prop :=
  ∀ state, handler state = .ok (declined, state)

theorem Declines.returns {handler : σ → Except ε (ρ × σ)} (h : Declines declined handler)
    (state : σ) : Returns (handler state) :=
  ⟨_, h state⟩

variable [DecidableEq ρ]

theorem firstAnswer_of_declines (hdeclines : ∀ handler ∈ handlers, Declines declined handler)
    (state : σ) : firstAnswer declined handlers (declined, state) = .ok (declined, state) := by
  induction handlers with
  | nil => rfl
  | cons handler handlers ih =>
      have hfirst : handler state = .ok (declined, state) :=
        hdeclines handler List.mem_cons_self state
      have hrest : ∀ other ∈ handlers, Declines declined other := fun other hother =>
        hdeclines other (List.mem_cons_of_mem _ hother)
      simp only [firstAnswer, hfirst, ok_bind, if_true]
      exact ih hrest

/-- What the one handler that may not decline gives is what the chain gives. -/
theorem firstAnswer_of_sole {before after : List (σ → Except ε (ρ × σ))}
    {handler : σ → Except ε (ρ × σ)} (hbefore : ∀ other ∈ before, Declines declined other)
    (hafter : ∀ other ∈ after, Declines declined other) (answer : ρ) (state : σ) :
    firstAnswer declined (before ++ handler :: after) (answer, state) = handler state := by
  induction before generalizing answer with
  | nil =>
      cases hcall : handler state with
      | error stop => simp [firstAnswer, hcall]
      | ok next =>
          obtain ⟨ret, left⟩ := next
          simp only [List.nil_append, firstAnswer, hcall, ok_bind]
          by_cases hret : ret = declined
          · subst hret
            rw [if_pos rfl, firstAnswer_of_declines hafter]
          · rw [if_neg hret]
  | cons first before ih =>
      have hfirst : first state = .ok (declined, state) :=
        hbefore first List.mem_cons_self state
      simp only [List.cons_append, firstAnswer, hfirst, ok_bind, if_true]
      exact ih (fun other hother => hbefore other (List.mem_cons_of_mem _ hother)) declined

/-- A chain in which at most one handler does not decline returns when that
one does. -/
theorem returns_firstAnswer_iff
    (hsole : handlers.Pairwise fun first second =>
      Declines declined first ∨ Declines declined second) (answer : ρ) (state : σ) :
    Returns (firstAnswer declined handlers (answer, state)) ↔
      ∀ handler ∈ handlers, Returns (handler state) := by
  induction handlers generalizing answer with
  | nil => exact ⟨fun _ _ hmem => absurd hmem List.not_mem_nil, fun _ => returns_ok _⟩
  | cons handler handlers ih =>
      rw [List.pairwise_cons] at hsole
      obtain ⟨hfirst, hrest⟩ := hsole
      rw [List.forall_mem_cons]
      by_cases hdeclines : Declines declined handler
      · have hnext : firstAnswer declined (handler :: handlers) (answer, state) =
            firstAnswer declined handlers (declined, state) := by
          simp only [firstAnswer, hdeclines state, ok_bind, if_true]
        rw [hnext, ih hrest]
        exact ⟨fun h => ⟨hdeclines.returns state, h⟩, And.right⟩
      · have hothers : ∀ other ∈ handlers, Declines declined other := fun other hother =>
          (hfirst other hother).resolve_left hdeclines
        have htail : ∀ other ∈ handlers, Returns (other state) := fun other hother =>
          (hothers other hother).returns state
        cases hcall : handler state with
        | error stop => simp [firstAnswer, hcall]
        | ok next =>
            have hreturns : Returns (firstAnswer declined (handler :: handlers)
                (answer, state)) := by
              simp only [firstAnswer, hcall, ok_bind]
              obtain ⟨ret, left⟩ := next
              by_cases hret : ret = declined
              · subst hret
                rw [if_pos rfl, firstAnswer_of_declines hothers]
                exact returns_ok _
              · rw [if_neg hret]
                exact returns_ok _
            exact ⟨fun _ => ⟨returns_ok next, htail⟩, fun _ => hreturns⟩

end Chain

end FeedsService.Library
