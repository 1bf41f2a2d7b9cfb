import Mathlib.Data.List.Induction
import Mathlib.Data.List.Sort

/-!
# Rows that a query lists

What a query with a filter, an order and a limit may answer: the rows that are kept, each as
often as it is there, in an order, cut to the limit.  Rows that the order does not tell apart
come in any order.
-/

namespace FeedsService.Library

universe u

variable {ρ : Type u} {keep keep' : ρ → Bool} {le le' : ρ → ρ → Bool} {limit : Option ℕ}
  {rows result : List ρ}

/-- The order in which the rows of a query come by: for each number of rows a permutation of
their positions. -/
structure Scan where
  positions : ℕ → List ℕ
  perm : ∀ count, (positions count).Perm (List.range count)

namespace Scan

/-- The rows as they are stored. -/
def stored : Scan :=
  ⟨List.range, fun _ => .refl _⟩

variable (scan : Scan)

def visit (rows : List ρ) : List ρ :=
  (scan.positions rows.length).filterMap fun position => rows[position]?

theorem visit_stored (rows : List ρ) : stored.visit rows = rows := by
  simp only [visit, stored]
  induction rows using List.reverseRecOn with
  | nil => rfl
  | append_singleton rows row ih =>
      have hbefore : ∀ position ∈ List.range rows.length,
          (rows ++ [row])[position]? = rows[position]? := fun position hposition =>
        List.getElem?_append_left (List.mem_range.mp hposition)
      rw [List.length_append, List.length_singleton, List.range_succ, List.filterMap_append,
        List.filterMap_congr hbefore, ih]
      simp

theorem visit_perm (rows : List ρ) : (scan.visit rows).Perm rows := by
  have hperm : (scan.visit rows).Perm (stored.visit rows) :=
    (scan.perm rows.length).filterMap _
  rwa [visit_stored] at hperm

/-- What comes when depends on the positions alone. -/
theorem visit_map {α : Type*} (f : ρ → α) (rows : List ρ) :
    scan.visit (rows.map f) = (scan.visit rows).map f := by
  simp only [visit, List.length_map, List.getElem?_map, List.map_filterMap]

end Scan

/-- The first rows, all of them without a limit. -/
def cut (limit : Option ℕ) (rows : List ρ) : List ρ :=
  match limit with
  | none => rows
  | some count => rows.take count

theorem cut_eq_nil_iff (hlimit : limit ≠ some 0) : cut limit rows = [] ↔ rows = [] := by
  cases limit with
  | none => rfl
  | some count =>
      have hcount : count ≠ 0 := fun hzero => hlimit (congrArg some hzero)
      rw [cut, List.take_eq_nil_iff, or_iff_right hcount]

theorem cut_of_length_le {count : ℕ} (hlength : rows.length ≤ count) :
    cut (some count) rows = rows :=
  List.take_of_length_le hlength

/-- The query may answer the result. -/
def Lists (keep : ρ → Bool) (le : ρ → ρ → Bool) (limit : Option ℕ) (rows result : List ρ) : Prop :=
  ∃ ordered : List ρ, ordered.Perm (rows.filter keep) ∧
    ordered.Pairwise (fun left right => le left right = true) ∧ result = cut limit ordered

theorem lists_mergeSort
    (htrans : ∀ a b c, le a b = true → le b c = true → le a c = true)
    (htotal : ∀ a b, (le a b || le b a) = true) (limit : Option ℕ) (rows : List ρ) :
    Lists keep le limit rows (cut limit ((rows.filter keep).mergeSort le)) :=
  ⟨_, List.mergeSort_perm _ _, List.pairwise_mergeSort htrans htotal _, rfl⟩

/-- A query without an order may answer the rows as they are. -/
theorem lists_filter (hle : ∀ a b, le a b = true) (limit : Option ℕ) (rows : List ρ) :
    Lists keep le limit rows (cut limit (rows.filter keep)) :=
  ⟨_, .refl _, List.pairwise_of_forall hle, rfl⟩

/-- A filter and an order that agree on the rows make the same query. -/
theorem Lists.congr (h : Lists keep le limit rows result)
    (hkeep : ∀ row ∈ rows, keep row = keep' row)
    (hle : ∀ left ∈ rows, ∀ right ∈ rows, le left right = true → le' left right = true) :
    Lists keep' le' limit rows result := by
  obtain ⟨ordered, hperm, hordered, hresult⟩ := h
  have hmem : ∀ row ∈ ordered, row ∈ rows :=
    fun row hrow => List.mem_of_mem_filter (hperm.mem_iff.mp hrow)
  refine ⟨ordered, ?_, ?_, hresult⟩
  · rwa [← List.filter_congr hkeep]
  · exact hordered.imp_of_mem fun hleft hright => hle _ (hmem _ hleft) _ (hmem _ hright)

/-- Nothing is answered exactly when nothing is kept. -/
theorem Lists.eq_nil_iff (h : Lists keep le limit rows result) (hlimit : limit ≠ some 0) :
    result = [] ↔ ∀ row ∈ rows, keep row = false := by
  obtain ⟨ordered, hperm, -, rfl⟩ := h
  have hnone : ordered = [] ↔ rows.filter keep = [] := by
    rw [← List.length_eq_zero_iff, hperm.length_eq, List.length_eq_zero_iff]
  rw [cut_eq_nil_iff hlimit, hnone, List.filter_eq_nil_iff]
  simp only [Bool.not_eq_true]

end FeedsService.Library
