import Mathlib.Data.List.Count
import Mathlib.Data.List.Nodup

/-!
# Tables as lists of rows

The statements `UPDATE … WHERE`, `DELETE … WHERE` and `SELECT EXISTS` on a list
of rows, and what they do to membership, to keys and to counts.
-/

namespace FeedsService.Library

universe u v

variable {ρ : Type u} {κ : Type v}

def updateWhere (rows : List ρ) (p : ρ → Bool) (f : ρ → ρ) : List ρ :=
  rows.map fun row => if p row then f row else row

def deleteWhere (rows : List ρ) (p : ρ → Bool) : List ρ :=
  rows.filter fun row => !p row

theorem mem_updateWhere {rows : List ρ} {p : ρ → Bool} {f : ρ → ρ} {row : ρ} :
    row ∈ updateWhere rows p f ↔
      (row ∈ rows ∧ p row = false) ∨ ∃ old ∈ rows, p old = true ∧ f old = row := by
  simp only [updateWhere, List.mem_map]
  constructor
  · rintro ⟨old, hold, rfl⟩
    by_cases hp : p old = true
    · exact Or.inr ⟨old, hold, hp, by rw [if_pos hp]⟩
    · have hfalse : p old = false := by simpa using hp
      rw [if_neg hp]
      exact Or.inl ⟨hold, hfalse⟩
  · rintro (⟨hrow, hp⟩ | ⟨old, hold, hp, rfl⟩)
    · exact ⟨row, hrow, by simp [hp]⟩
    · exact ⟨old, hold, if_pos hp⟩

@[simp]
theorem mem_deleteWhere {rows : List ρ} {p : ρ → Bool} {row : ρ} :
    row ∈ deleteWhere rows p ↔ row ∈ rows ∧ p row = false := by
  simp [deleteWhere]

@[simp]
theorem length_updateWhere (rows : List ρ) (p : ρ → Bool) (f : ρ → ρ) :
    (updateWhere rows p f).length = rows.length :=
  List.length_map _

/-- A column that the update does not set. -/
theorem map_updateWhere {rows : List ρ} {p : ρ → Bool} {f : ρ → ρ} {column : ρ → κ}
    (hkeep : ∀ row, column (f row) = column row) :
    (updateWhere rows p f).map column = rows.map column := by
  rw [updateWhere, List.map_map]
  refine List.map_congr_left fun row _ => ?_
  simp only [Function.comp]
  split
  · exact hkeep row
  · rfl

theorem updateWhere_eq_self_iff {rows : List ρ} {p : ρ → Bool} {f : ρ → ρ} :
    updateWhere rows p f = rows ↔ ∀ row ∈ rows, p row = true → f row = row := by
  have hid : updateWhere rows p f = rows ↔ updateWhere rows p f = rows.map id := by
    rw [List.map_id]
  rw [hid, updateWhere, List.map_inj_left]
  refine forall₂_congr fun row _ => ?_
  by_cases hp : p row = true <;> simp [hp]

/-- An update that keeps the rows it is about finds the first of them again. -/
theorem find?_updateWhere {rows : List ρ} {p : ρ → Bool} {f : ρ → ρ}
    (hkeep : ∀ row, p (f row) = p row) :
    (updateWhere rows p f).find? p = (rows.find? p).map f := by
  have hsame : (p ∘ fun row => if p row then f row else row) = p := by
    funext row
    rw [Function.comp_apply]
    split
    · exact hkeep row
    · rfl
  rw [updateWhere, List.find?_map, hsame]
  cases hfound : rows.find? p with
  | none => rfl
  | some row => simp [List.find?_some hfound]

/-- The updated row that is found comes from the row that was found before. -/
theorem of_find?_updateWhere {rows : List ρ} {p : ρ → Bool} {f : ρ → ρ} {updated : ρ}
    (hfind : (updateWhere rows p f).find? p = some updated) (hkeep : ∀ row, p (f row) = p row) :
    ∃ row, rows.find? p = some row ∧ f row = updated := by
  rw [find?_updateWhere hkeep] at hfind
  exact Option.map_eq_some_iff.mp hfind

/-- A row that no other row stands before. -/
theorem find?_concat {rows : List ρ} {row : ρ} {p : ρ → Bool} (hfresh : rows.any p = false)
    (hrow : p row = true) : (rows ++ [row]).find? p = some row := by
  have hnone : rows.find? p = none := by
    rw [List.find?_eq_none]
    exact fun old hold => List.any_eq_false.mp hfresh old hold
  rw [List.find?_append, hnone, Option.none_or, List.find?_singleton, if_pos hrow]

/-- Deleting the one row that satisfies `p` lowers by one every count that
includes it. -/
theorem countP_deleteWhere_of_mem {rows : List ρ} {p q : ρ → Bool}
    (hone : rows.countP p = 1) (hsub : ∀ row ∈ rows, p row = true → q row = true) :
    (deleteWhere rows p).countP q + 1 = rows.countP q := by
  have hsplit := List.countP_eq_countP_filter_add rows q p
  have hdeleted : (rows.filter p).countP q = 1 := by
    rw [← hone, List.countP_eq_length_filter (p := p), List.countP_eq_length]
    intro row hrow
    obtain ⟨hmem, hp⟩ := List.mem_filter.mp hrow
    exact hsub row hmem hp
  rw [deleteWhere]
  omega

/-- Deleting rows that a count does not include leaves it alone. -/
theorem countP_deleteWhere_of_disjoint {rows : List ρ} {p q : ρ → Bool}
    (hdisjoint : ∀ row ∈ rows, p row = true → q row = false) :
    (deleteWhere rows p).countP q = rows.countP q := by
  rw [deleteWhere, List.countP_filter]
  refine List.countP_congr fun row hrow => ?_
  cases hp : p row with
  | false => simp
  | true => simp [hdisjoint row hrow hp]

/-- Rows with distinct keys: a key picks out at most one of them. -/
theorem countP_key_le_one [DecidableEq κ] {rows : List ρ} {key : ρ → κ}
    (hnodup : (rows.map key).Nodup) (k : κ) :
    (rows.countP fun row => key row = k) ≤ 1 := by
  have hcount := List.nodup_iff_count_le_one.mp hnodup k
  rw [List.count, List.countP_map] at hcount
  refine Nat.le_trans (Nat.le_of_eq ?_) hcount
  refine List.countP_congr fun row _ => ?_
  simp [Function.comp]

theorem eq_of_key_eq {rows : List ρ} {key : ρ → κ} (hnodup : (rows.map key).Nodup)
    {left right : ρ} (hleft : left ∈ rows) (hright : right ∈ rows)
    (heq : key left = key right) : left = right :=
  List.inj_on_of_nodup_map hnodup hleft hright heq

theorem nodup_deleteWhere {rows : List ρ} {key : ρ → κ} {p : ρ → Bool}
    (hnodup : (rows.map key).Nodup) : ((deleteWhere rows p).map key).Nodup :=
  hnodup.sublist (List.filter_sublist.map key)

theorem nodup_insert {rows : List ρ} {key : ρ → κ} {row : ρ}
    (hnodup : (rows.map key).Nodup) (hfresh : ∀ old ∈ rows, key old ≠ key row) :
    ((rows ++ [row]).map key).Nodup := by
  rw [List.map_append, List.map_cons, List.map_nil, List.nodup_append]
  refine ⟨hnodup, List.nodup_singleton _, fun k hk k' hk' => ?_⟩
  obtain ⟨old, hold, rfl⟩ := List.mem_map.mp hk
  rw [List.mem_singleton.mp hk']
  exact hfresh old hold

end FeedsService.Library
