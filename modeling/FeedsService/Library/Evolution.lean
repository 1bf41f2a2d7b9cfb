import FeedsService.Library.Rows

/-!
# How a keyed table evolves

One step of a table whose rows are found again by a key that stays: every row
stays, what becomes of it is bounded by a relation, and what appears under a new
key is bounded by a predicate.
-/

namespace FeedsService.Library

universe u v w

variable {ρ : Type u} {κ : Type v} {ν : Type w}

/-- From `rows` to `rows'` nothing is lost, a row becomes one that `R` allows, and the
rows with new keys satisfy `C`. -/
structure Evolves (key : ρ → κ) (R : ρ → ρ → Prop) (C : ρ → Prop) (rows rows' : List ρ) :
    Prop where
  kept : ∀ old ∈ rows, ∃ new ∈ rows', key new = key old
  related : ∀ old ∈ rows, ∀ new ∈ rows', key new = key old → R old new
  created : ∀ new ∈ rows', (∀ old ∈ rows, key old ≠ key new) → C new

namespace Evolves

variable {key : ρ → κ} {R S : ρ → ρ → Prop} {C D : ρ → Prop} {rows rows' : List ρ}

theorem mono (h : Evolves key R C rows rows') (hR : ∀ old ∈ rows, ∀ new, R old new → S old new)
    (hC : ∀ new ∈ rows', C new → D new) : Evolves key S D rows rows' where
  kept := h.kept
  related old hold new hnew hkey := hR old hold new (h.related old hold new hnew hkey)
  created new hnew hfresh := hC new hnew (h.created new hnew hfresh)

/-- Rows that are rewritten in place, and rows that are added under new keys. -/
theorem of_map_append (hnodup : (rows.map key).Nodup) {f : ρ → ρ} {added : List ρ}
    (hrows' : rows' = rows.map f ++ added) (hkey : ∀ row ∈ rows, key (f row) = key row)
    (hfresh : ∀ new ∈ added, ∀ old ∈ rows, key new ≠ key old)
    (hR : ∀ row ∈ rows, R row (f row)) (hC : ∀ new ∈ added, C new) :
    Evolves key R C rows rows' := by
  subst hrows'
  refine ⟨fun old hold => ⟨f old, ?_, hkey old hold⟩, fun old hold new hnew hsame => ?_,
    fun new hnew hfresh' => ?_⟩
  · exact List.mem_append_left _ (List.mem_map_of_mem hold)
  · rcases List.mem_append.mp hnew with hmapped | hadded
    · obtain ⟨row, hrow, rfl⟩ := List.mem_map.mp hmapped
      have heq : row = old := eq_of_key_eq hnodup hrow hold ((hkey row hrow).symm.trans hsame)
      rw [heq]
      exact hR old hold
    · exact absurd hsame (hfresh new hadded old hold)
  · rcases List.mem_append.mp hnew with hmapped | hadded
    · obtain ⟨row, hrow, rfl⟩ := List.mem_map.mp hmapped
      exact absurd (hkey row hrow).symm (hfresh' row hrow)
    · exact hC new hadded

theorem of_updateWhere (hnodup : (rows.map key).Nodup) {p : ρ → Bool} {f : ρ → ρ}
    (hrows' : rows' = updateWhere rows p f) (hkey : ∀ row, key (f row) = key row)
    (hsame : ∀ row ∈ rows, R row row) (hR : ∀ row ∈ rows, p row = true → R row (f row)) :
    Evolves key R C rows rows' := by
  refine of_map_append hnodup (f := fun row => if p row then f row else row)
    (by rw [hrows', updateWhere, List.append_nil]) (fun row _ => ?_) (List.forall_mem_nil _)
    (fun row hrow => ?_) (List.forall_mem_nil _)
  · split
    · exact hkey row
    · rfl
  · split
    · next hp => exact hR row hrow hp
    · exact hsame row hrow

theorem of_eq (hnodup : (rows.map key).Nodup) (hrows' : rows' = rows)
    (hsame : ∀ row ∈ rows, R row row) : Evolves key R C rows rows' :=
  of_map_append hnodup (f := id) (by rw [hrows', List.map_id, List.append_nil])
    (fun _ _ => rfl) (List.forall_mem_nil _) hsame (List.forall_mem_nil _)

/-- One row is added under a new key. -/
theorem of_append (hnodup : (rows.map key).Nodup) {row : ρ} (hrows' : rows' = rows ++ [row])
    (hfresh : ∀ old ∈ rows, key row ≠ key old) (hsame : ∀ row ∈ rows, R row row) (hC : C row) :
    Evolves key R C rows rows' := by
  refine of_map_append hnodup (f := id) (by rw [hrows', List.map_id]) (fun _ _ => rfl) ?_ hsame ?_
  · intro new hnew
    rw [List.mem_singleton.mp hnew]
    exact hfresh
  · intro new hnew
    rw [List.mem_singleton.mp hnew]
    exact hC

end Evolves

/-- What shows of a row changes only where that is permitted, and rows appear only where
that is permitted. -/
def Guarded (key : ρ → κ) (view : ρ → ν) (permit : ρ → Prop) (create : Prop)
    (rows rows' : List ρ) : Prop :=
  Evolves key (fun old new => view new = view old ∨ permit old) (fun _ => create) rows rows'

namespace Guarded

variable {key : ρ → κ} {view : ρ → ν} {permit : ρ → Prop} {create : Prop} {rows rows' : List ρ}

theorem of_eq (hnodup : (rows.map key).Nodup) (hrows' : rows' = rows) :
    Guarded key view permit create rows rows' :=
  Evolves.of_eq hnodup hrows' fun _ _ => .inl rfl

/-- An update of what does not show. -/
theorem of_hidden (hnodup : (rows.map key).Nodup) {p : ρ → Bool} {f : ρ → ρ}
    (hrows' : rows' = updateWhere rows p f) (hkey : ∀ row, key (f row) = key row)
    (hview : ∀ row, view (f row) = view row) : Guarded key view permit create rows rows' :=
  Evolves.of_updateWhere hnodup hrows' hkey (fun _ _ => .inl rfl) fun row _ _ => .inl (hview row)

theorem of_permitted (hnodup : (rows.map key).Nodup) {p : ρ → Bool} {f : ρ → ρ}
    (hrows' : rows' = updateWhere rows p f) (hkey : ∀ row, key (f row) = key row)
    (hpermit : ∀ row ∈ rows, p row = true → permit row) :
    Guarded key view permit create rows rows' :=
  Evolves.of_updateWhere hnodup hrows' hkey (fun _ _ => .inl rfl)
    fun row hrow hp => .inr (hpermit row hrow hp)

theorem of_append (hnodup : (rows.map key).Nodup) {row : ρ} (hrows' : rows' = rows ++ [row])
    (hfresh : ∀ old ∈ rows, key row ≠ key old) (hcreate : create) :
    Guarded key view permit create rows rows' :=
  Evolves.of_append hnodup hrows' hfresh (fun _ _ => .inl rfl) hcreate

end Guarded

end FeedsService.Library
