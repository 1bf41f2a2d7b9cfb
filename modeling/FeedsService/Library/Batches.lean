import Mathlib.Algebra.BigOperators.Group.List.Basic
import Mathlib.Algebra.GroupWithZero.Nat
import Mathlib.Data.Nat.Notation

/-!
# Batches that are closed when they are full

Items come one after the other and are put into the open batch.  A batch weighs something
when it is empty, and is closed by the item that makes its weight reach the limit.
-/

namespace FeedsService.Library.Batches

universe u

variable {α : Type u}

/-- The weight of a batch. -/
def weight (empty : ℕ) (size : α → ℕ) (items : List α) : ℕ :=
  empty + (items.map size).sum

variable {empty limit : ℕ} {size : α → ℕ} {items rest : List α} {closed : List (List α)}

@[simp]
theorem weight_nil : weight empty size [] = empty := rfl

theorem weight_concat (items : List α) (item : α) :
    weight empty size (items ++ [item]) = weight empty size items + size item := by
  simp only [weight, List.map_append, List.map_cons, List.map_nil, List.sum_append,
    List.sum_singleton, Nat.add_assoc]

/-- The batch was closed as soon as it was full. -/
def Full (empty limit : ℕ) (size : α → ℕ) (items : List α) : Prop :=
  ∃ before item, items = before ++ [item] ∧ weight empty size before < limit ∧
    limit ≤ weight empty size items

/-- The items so far, in the closed batches and the open one. -/
structure Packed (empty limit : ℕ) (size : α → ℕ) (items : List α) (closed : List (List α))
    (rest : List α) : Prop where
  complete : closed.flatten ++ rest = items
  full : ∀ batch ∈ closed, Full empty limit size batch
  room : weight empty size rest < limit

theorem Packed.nil (hempty : empty < limit) : Packed empty limit size [] [] [] where
  complete := rfl
  full _ hbatch := nomatch hbatch
  room := hempty

/-- An item that leaves room. -/
theorem Packed.add (h : Packed empty limit size items closed rest) {item : α}
    (hroom : weight empty size rest + size item < limit) :
    Packed empty limit size (items ++ [item]) closed (rest ++ [item]) where
  complete := by rw [← h.complete, List.append_assoc]
  full := h.full
  room := by rwa [weight_concat]

/-- An item that closes the batch. -/
theorem Packed.close (h : Packed empty limit size items closed rest) (hempty : empty < limit)
    {item : α} (hfull : limit ≤ weight empty size rest + size item) :
    Packed empty limit size (items ++ [item]) (closed ++ [rest ++ [item]]) [] where
  complete := by
    rw [← h.complete, List.flatten_append, List.flatten_singleton, List.append_nil,
      List.append_assoc]
  full batch hbatch := by
    rcases List.mem_append.mp hbatch with hbefore | hlast
    · exact h.full batch hbefore
    · obtain rfl := List.mem_singleton.mp hlast
      exact ⟨rest, item, rfl, h.room, by rwa [weight_concat]⟩
  room := hempty

end FeedsService.Library.Batches
