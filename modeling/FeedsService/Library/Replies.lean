import FeedsService.Library.Chunking

/-!
# The replies to a request

A request is answered by one error, or by results of which the last one and no other
says that no more will come.
-/

namespace FeedsService.Library.Replies

inductive Mark
  | error
  | more
  | last
  deriving DecidableEq

/-- A reply, by the id of the request and by what it says of those that follow. -/
structure Reply where
  id : ℤ
  mark : Mark
  deriving DecidableEq

/-- One error, or results of which exactly the last one is final. -/
inductive Terminal : List Mark → Prop
  | error : Terminal [.error]
  | results {partials : List Mark} (hpartials : ∀ mark ∈ partials, mark = .more) :
      Terminal (partials ++ [.last])

/-- The replies are the answer to the request of this id. -/
def Answers (id : ℤ) (replies : List Reply) : Prop :=
  ∃ marks, Terminal marks ∧ replies = marks.map (Reply.mk id)

def markOf (isLast : Bool) : Mark :=
  if isLast then .last else .more

@[simp]
theorem markOf_true : markOf true = .last := rfl

@[simp]
theorem markOf_false : markOf false = .more := rfl

@[simp]
theorem terminal_last : Terminal [.last] :=
  @Terminal.results [] fun _ h => absurd h List.not_mem_nil

@[simp]
theorem not_terminal_nil : ¬ Terminal [] := by
  intro h
  generalize hmarks : ([] : List Mark) = marks at h
  cases h with
  | error => cases hmarks
  | results hpartials => exact List.cons_ne_nil _ _ (List.append_eq_nil_iff.mp hmarks.symm).2

theorem markOf_ne_error (isLast : Bool) : markOf isLast ≠ .error := by
  cases isLast
  · exact Mark.noConfusion
  · exact Mark.noConfusion

theorem answers_of_marks {id : ℤ} {marks : List Mark} (h : Terminal marks) :
    Answers id (marks.map (Reply.mk id)) :=
  ⟨marks, h, rfl⟩

@[simp]
theorem not_answers_nil {id : ℤ} : ¬ Answers id [] := by
  rintro ⟨marks, h, hmap⟩
  rw [List.map_eq_nil_iff.mp hmap.symm] at h
  exact not_terminal_nil h

section Chunks

variable {α : Type} {items : List α} {chunks : List (Bool × List α)}

/-- One more result may go before. -/
theorem Terminal.cons_more (h : Terminal (chunks.map fun chunk => markOf chunk.1)) :
    Terminal (.more :: chunks.map fun chunk => markOf chunk.1) := by
  generalize hmarks : (chunks.map fun chunk => markOf chunk.1) = marks at h
  cases h with
  | error =>
      have herror : Mark.error ∈ chunks.map fun chunk => markOf chunk.1 := by
        rw [hmarks]
        exact List.mem_singleton.mpr rfl
      obtain ⟨chunk, _, hmark⟩ := List.mem_map.mp herror
      exact absurd hmark (markOf_ne_error chunk.1)
  | results hpartials =>
      rw [← List.cons_append]
      refine .results fun mark hmark => ?_
      rcases List.mem_cons.mp hmark with rfl | hmark
      · rfl
      · exact hpartials mark hmark

/-- A list that is split without loss is an answer. -/
theorem terminal_of_lossless (h : Chunking.Lossless items chunks) :
    Terminal (chunks.map fun chunk => markOf chunk.1) := by
  obtain ⟨before, last, rfl, hbefore⟩ := h.marks
  rw [List.map_append]
  refine .results fun mark hmark => ?_
  obtain ⟨other, hother, rfl⟩ := List.mem_map.mp hmark
  rw [hbefore other hother, markOf_false]

end Chunks

end FeedsService.Library.Replies
