import Mathlib.Data.Nat.Notation
import Mathlib.Tactic.Common
import FeedsService.Library.CStrings

/-!
# Loops that may not end

A `while` loop is its body: from a state it leaves with a value or goes on from
another state, or it faults.  `iterate` performs a bounded number of passes;
the loop ends when some number of them suffices.  Three rules decide whether it
does: a pass that leaves, a pass that goes on, and a pass that comes back to
its own state.
-/

namespace FeedsService.Library

/-- What one pass through the body of a loop leads to. -/
inductive Pass (σ ρ : Type)
  | leave (value : ρ)
  | goOn (s : σ)

variable {σ ρ ε : Type}

/-- At most `fuel` passes; `none` when they do not suffice. -/
def iterate (body : σ → Except ε (Pass σ ρ)) : ℕ → σ → Option (Except ε ρ)
  | 0, _ => none
  | fuel + 1, s =>
      match body s with
      | .error fault => some (.error fault)
      | .ok (.leave value) => some (.ok value)
      | .ok (.goOn t) => iterate body fuel t

/-- The loop ends with this result. -/
def Ends (body : σ → Except ε (Pass σ ρ)) (s : σ) (result : Except ε ρ) : Prop :=
  ∃ fuel, iterate body fuel s = some result

variable {body : σ → Except ε (Pass σ ρ)} {s t : σ}

theorem iterate_leave {value : ρ} (hbody : body s = .ok (.leave value)) (fuel : ℕ) :
    iterate body (fuel + 1) s = some (.ok value) := by
  rw [iterate, hbody]

theorem iterate_goOn (hbody : body s = .ok (.goOn t)) (fuel : ℕ) :
    iterate body (fuel + 1) s = iterate body fuel t := by
  rw [iterate, hbody]

theorem ends_leave {value : ρ} (hbody : body s = .ok (.leave value)) :
    Ends body s (.ok value) :=
  ⟨1, iterate_leave hbody 0⟩

theorem ends_goOn_iff (hbody : body s = .ok (.goOn t)) {result : Except ε ρ} :
    Ends body s result ↔ Ends body t result := by
  constructor
  · rintro ⟨fuel, hfuel⟩
    cases fuel with
    | zero => cases hfuel
    | succ fuel => exact ⟨fuel, (iterate_goOn hbody fuel).symm.trans hfuel⟩
  · rintro ⟨fuel, hfuel⟩
    exact ⟨fuel + 1, (iterate_goOn hbody fuel).trans hfuel⟩

/-- More passes do not change the result. -/
theorem iterate_mono {fuel more : ℕ} {result : Except ε ρ} (hle : fuel ≤ more)
    (hresult : iterate body fuel s = some result) : iterate body more s = some result := by
  induction fuel generalizing s more with
  | zero => cases hresult
  | succ fuel ih =>
      obtain ⟨more, rfl⟩ := Nat.exists_eq_add_of_le' (Nat.one_le_of_lt hle)
      rw [iterate] at hresult ⊢
      cases hbody : body s with
      | error fault => simpa [hbody] using hresult
      | ok pass =>
          cases pass with
          | leave value => simpa [hbody] using hresult
          | goOn next =>
              rw [hbody] at hresult
              exact ih (by omega) hresult

/-- A loop has one result. -/
theorem Ends.unique {first second : Except ε ρ} (hfirst : Ends body s first)
    (hsecond : Ends body s second) : first = second := by
  obtain ⟨fuel, hfirst⟩ := hfirst
  obtain ⟨fuel', hsecond⟩ := hsecond
  have hleft := iterate_mono (Nat.le_max_left fuel fuel') hfirst
  have hright := iterate_mono (Nat.le_max_right fuel fuel') hsecond
  exact Option.some.inj (hleft.symm.trans hright)

/-- A pass that comes back to where it started is repeated for ever. -/
theorem iterate_of_stuck (hbody : body s = .ok (.goOn s)) (fuel : ℕ) :
    iterate body fuel s = none := by
  induction fuel with
  | zero => rfl
  | succ fuel ih => rw [iterate_goOn hbody, ih]

theorem not_ends_of_stuck (hbody : body s = .ok (.goOn s)) (result : Except ε ρ) :
    ¬ Ends body s result := by
  rintro ⟨fuel, hfuel⟩
  rw [iterate_of_stuck hbody] at hfuel
  cases hfuel

/-- A loop ends within as many passes as a quantity that each of them lowers,
unless it comes to a state that it does not leave. -/
theorem iterate_of_measure (size : σ → ℕ)
    (hlowers : ∀ s t, body s = .ok (.goOn t) → t = s ∨ size t < size s) {fuel : ℕ}
    (hfuel : size s < fuel) {result : Except ε ρ} :
    iterate body fuel s = some result ↔ Ends body s result := by
  constructor
  · exact fun h => ⟨fuel, h⟩
  · rintro ⟨more, h⟩
    induction fuel generalizing s more with
    | zero => exact absurd hfuel (Nat.not_lt_zero _)
    | succ fuel ih =>
        cases more with
        | zero => cases h
        | succ more =>
            rw [iterate] at h ⊢
            cases hbody : body s with
            | error fault => simpa [hbody] using h
            | ok pass =>
                cases pass with
                | leave value => simpa [hbody] using h
                | goOn next =>
                    rw [hbody] at h
                    have hrest : iterate body more next = some result := h
                    obtain rfl | hless := hlowers s next hbody
                    · rw [iterate_of_stuck hbody] at hrest
                      cases hrest
                    · exact ih (by omega) more hrest

end FeedsService.Library
