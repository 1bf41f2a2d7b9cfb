import Mathlib.Data.List.Infix
import Mathlib.Data.Nat.Notation

/-!
# Paths and where they lead

A position is the list of names from the root of a file system to a file or a directory.
A path is a list of components that moves from one position to another.  Symbolic links
are left out, so that where a path leads does not depend on what is there.

Whatever a path does on its way, in the end it has climbed some levels and then gone down
by some names.
-/

namespace FeedsService.Library.Paths

universe u

variable {ν : Type u}

inductive Component (ν : Type u)
  /-- An empty component or a dot. -/
  | stay
  /-- Two dots; the root is its own parent. -/
  | up
  | down (name : ν)

def move (pos : List ν) : Component ν → List ν
  | .stay => pos
  | .up => pos.dropLast
  | .down name => pos ++ [name]

def walk (pos : List ν) (components : List (Component ν)) : List ν :=
  components.foldl move pos

@[simp]
theorem walk_nil (pos : List ν) : walk pos [] = pos := rfl

@[simp]
theorem walk_cons (pos : List ν) (component : Component ν) (components : List (Component ν)) :
    walk pos (component :: components) = walk (move pos component) components := rfl

theorem walk_append (pos : List ν) (first second : List (Component ν)) :
    walk pos (first ++ second) = walk (walk pos first) second :=
  List.foldl_append

/-- How far a path climbs above the position it starts from, and the names it then goes
down by. -/
structure Reduced (ν : Type u) where
  climbs : ℕ
  names : List ν

def Reduced.move (reduced : Reduced ν) : Component ν → Reduced ν
  | .stay => reduced
  | .up =>
      if reduced.names = [] then
        { reduced with climbs := reduced.climbs + 1 }
      else
        { reduced with names := reduced.names.dropLast }
  | .down name => { reduced with names := reduced.names ++ [name] }

def reduce (components : List (Component ν)) : Reduced ν :=
  components.foldl Reduced.move ⟨0, []⟩

/-- The position that a reduced path leads to. -/
def Reduced.from (reduced : Reduced ν) (pos : List ν) : List ν :=
  pos.take (pos.length - reduced.climbs) ++ reduced.names

theorem from_move (reduced : Reduced ν) (pos : List ν) (component : Component ν) :
    (reduced.move component).from pos = move (reduced.from pos) component := by
  cases component with
  | stay => rfl
  | up =>
      by_cases hnames : reduced.names = []
      · have hparent : (pos.take (pos.length - reduced.climbs)).dropLast =
            pos.take (pos.length - (reduced.climbs + 1)) := by
          rw [List.dropLast_eq_take, List.length_take, List.take_take,
            Nat.min_eq_left (Nat.sub_le _ _), Nat.min_eq_left (Nat.sub_le _ _), Nat.sub_sub]
        simp [Reduced.move, Reduced.from, Paths.move, hnames, hparent]
      · simp only [Reduced.move, Reduced.from, if_neg hnames, Paths.move]
        rw [List.dropLast_append_of_ne_nil hnames]
  | down name =>
      simp only [Reduced.move, Reduced.from, Paths.move, List.append_assoc]

theorem walk_eq_from (pos : List ν) (components : List (Component ν)) :
    walk pos components = (reduce components).from pos := by
  have hgeneral : ∀ reduced : Reduced ν,
      walk (reduced.from pos) components = (components.foldl Reduced.move reduced).from pos := by
    induction components with
    | nil => exact fun _ => rfl
    | cons component components ih =>
        intro reduced
        rw [walk_cons, ← from_move, ih, List.foldl_cons]
  have hstart : (⟨0, []⟩ : Reduced ν).from pos = pos := by
    simp [Reduced.from]
  rw [reduce, ← hgeneral, hstart]

/-- A position below another one, by way of a name that is allowed. -/
def Below (root : List ν) (allowed : ν → Prop) (pos : List ν) : Prop :=
  ∃ name names, pos = root ++ name :: names ∧ allowed name

/-- What a path climbs it must go down again by the same names, and then further by one that
is allowed. -/
def Reduced.Returns (root : List ν) (allowed : ν → Prop) (reduced : Reduced ν) : Prop :=
  ∃ name names, reduced.names = root.drop (root.length - reduced.climbs) ++ name :: names ∧
    allowed name

theorem below_from_iff {root : List ν} {allowed : ν → Prop} {reduced : Reduced ν} :
    Below root allowed (reduced.from root) ↔ reduced.Returns root allowed := by
  have hsplit : ∀ rest, reduced.from root = root ++ rest ↔
      reduced.names = root.drop (root.length - reduced.climbs) ++ rest := by
    intro rest
    have hroot := List.take_append_drop (root.length - reduced.climbs) root
    rw [Reduced.from]
    nth_rewrite 3 [← hroot]
    rw [List.append_assoc, List.append_cancel_left_eq]
  simp only [Below, Reduced.Returns, hsplit]

theorem below_walk_iff {root : List ν} {allowed : ν → Prop} {components : List (Component ν)} :
    Below root allowed (walk root components) ↔ (reduce components).Returns root allowed := by
  rw [walk_eq_from, below_from_iff]

/-- An absolute path has climbed all the way. -/
theorem below_walk_root_iff {root : List ν} {allowed : ν → Prop}
    {components : List (Component ν)} :
    Below root allowed (walk [] components) ↔
      (⟨root.length, (reduce components).names⟩ : Reduced ν).Returns root allowed := by
  rw [walk_eq_from, ← below_from_iff, Reduced.from, Reduced.from]
  simp

end FeedsService.Library.Paths
