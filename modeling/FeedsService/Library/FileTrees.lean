import FeedsService.Library.Paths
import Mathlib.Data.List.Basic
import Mathlib.Logic.Function.Basic

/-!
# Trees of files

A directory or a file at each position that is taken.  A path is followed one component at a
time, and every position that it leaves, even one that it leaves for itself, must be a directory.
-/

namespace FeedsService.Library.Paths

universe u v

inductive Node (β : Type v)
  | dir
  | file (content : β)
  deriving DecidableEq

/-- What is taken hangs from the root by directories. -/
@[ext]
structure FileTree (ν : Type u) (β : Type v) where
  node : List ν → Option (Node β)
  root : node [] = some .dir
  parent : ∀ pos name, (node (pos ++ [name])).isSome → node pos = some .dir

namespace FileTree

variable {ν : Type u} {β : Type v}

def isDir (tree : FileTree ν β) (pos : List ν) : Bool :=
  match tree.node pos with
  | some .dir => true
  | _ => false

/-- Where a path leads, to something or to nothing. -/
def locate (tree : FileTree ν β) : List ν → List (Component ν) → Option (List ν)
  | pos, [] => some pos
  | pos, component :: components =>
      if tree.isDir pos then tree.locate (move pos component) components else none

/-- What is there. -/
def find (tree : FileTree ν β) (pos : List ν) (components : List (Component ν)) :
    Option (Node β) :=
  (tree.locate pos components).bind tree.node

/-- A root with nothing in it. -/
def bare : FileTree ν β where
  node
    | [] => some .dir
    | _ :: _ => none
  root := rfl
  parent pos name htaken := by
    cases pos with
    | nil => rfl
    | cons first rest => cases htaken

section Lookup

variable {tree tree' : FileTree ν β} {pos : List ν} {components : List (Component ν)}

theorem isDir_iff : tree.isDir pos = true ↔ tree.node pos = some .dir := by
  unfold isDir
  split
  · next h => exact iff_of_true rfl h
  · next h => exact iff_of_false (by decide) h

theorem isDir_root : tree.isDir [] = true :=
  isDir_iff.mpr tree.root

/-- A directory lies in a directory. -/
theorem isDir_dropLast (hpos : (tree.node pos).isSome) : tree.isDir pos.dropLast = true := by
  rcases List.eq_nil_or_concat pos with rfl | ⟨front, name, rfl⟩
  · exact isDir_root
  · rw [List.concat_eq_append, List.dropLast_concat, isDir_iff]
    rw [List.concat_eq_append] at hpos
    exact tree.parent front name hpos

theorem isDir_dropLast_of_isDir (hpos : tree.isDir pos = true) :
    tree.isDir pos.dropLast = true := by
  apply isDir_dropLast
  rw [isDir_iff.mp hpos]
  rfl

theorem locate_cons_of_isDir {component : Component ν} (hpos : tree.isDir pos = true) :
    tree.locate pos (component :: components) = tree.locate (move pos component) components :=
  if_pos hpos

theorem locate_append (first second : List (Component ν)) :
    tree.locate pos (first ++ second) =
      (tree.locate pos first).bind fun pos => tree.locate pos second := by
  induction first generalizing pos with
  | nil => rfl
  | cons component first ih =>
      rw [List.cons_append, locate, locate]
      split
      · exact ih
      · rfl

theorem eq_walk_of_locate {place : List ν} (h : tree.locate pos components = some place) :
    place = walk pos components := by
  induction components generalizing pos with
  | nil => exact (Option.some.inj h).symm
  | cons component components ih =>
      rw [locate] at h
      split at h
      · exact ih h
      · cases h

/-- Where a path leads depends on the directories on its way. -/
theorem locate_congr (h : ∀ step ∈ components.scanl move pos, tree.isDir step = tree'.isDir step) :
    tree.locate pos components = tree'.locate pos components := by
  induction components generalizing pos with
  | nil => rfl
  | cons component components ih =>
      rw [List.scanl_cons] at h
      rw [locate, locate, h pos List.mem_cons_self,
        ih fun step hstep => h step (List.mem_cons_of_mem pos hstep)]

/-- With more directories a path leads to the same place. -/
theorem locate_mono (h : ∀ step, tree.isDir step = true → tree'.isDir step = true)
    {place : List ν} (hplace : tree.locate pos components = some place) :
    tree'.locate pos components = some place := by
  induction components generalizing pos with
  | nil => exact hplace
  | cons component components ih =>
      rw [locate] at hplace
      split at hplace
      · next hdir =>
          rw [locate_cons_of_isDir (h pos hdir)]
          exact ih hplace
      · cases hplace

theorem walk_mem_scanl : walk pos components ∈ components.scanl move pos := by
  induction components generalizing pos with
  | nil => exact List.mem_singleton_self pos
  | cons component components ih =>
      rw [List.scanl_cons]
      exact List.mem_cons_of_mem pos ih

/-- A path that ends with a move to itself or to the parent leads to a directory. -/
theorem isDir_of_locate {component : Component ν} {place : List ν}
    (hcomponent : ∀ name, component ≠ .down name)
    (h : tree.locate pos (components ++ [component]) = some place) :
    tree.isDir place = true := by
  rw [locate_append] at h
  obtain ⟨last, -, hlast⟩ := Option.bind_eq_some_iff.mp h
  rw [locate] at hlast
  split at hlast
  · next hdir =>
      cases hlast
      cases component with
      | stay => exact hdir
      | up => exact isDir_dropLast_of_isDir hdir
      | down name => exact absurd rfl (hcomponent name)
  · cases hlast

theorem not_isDir_of_file {content : β} (hfile : tree.node pos = some (.file content)) :
    tree.isDir pos = false := by
  rw [Bool.eq_false_iff, Ne, isDir_iff, hfile]
  exact fun h => nomatch h

/-- What a path leads to has a directory above it. -/
theorem isDir_dropLast_of_locate {place : List ν} (hpos : tree.isDir pos = true)
    (h : tree.locate pos components = some place) : tree.isDir place.dropLast = true := by
  induction components generalizing pos with
  | nil =>
      cases h
      exact isDir_dropLast_of_isDir hpos
  | cons component components ih =>
      rw [locate_cons_of_isDir hpos] at h
      cases components with
      | nil =>
          cases h
          cases component with
          | stay => exact isDir_dropLast_of_isDir hpos
          | up => exact isDir_dropLast_of_isDir (isDir_dropLast_of_isDir hpos)
          | down name => rwa [move, List.dropLast_concat]
      | cons next rest =>
          apply ih _ h
          rw [locate] at h
          split at h
          · next hnext => exact hnext
          · cases h

end Lookup

section Changes

variable [DecidableEq ν]

/-- Put something, or nothing, in the place of a file or of nothing. -/
def assign (tree : FileTree ν β) (pos : List ν) (node : Option (Node β)) :
    Option (FileTree ν β) :=
  if h : tree.isDir pos = false ∧ tree.isDir pos.dropLast = true then
    some
      { node := fun place => if place = pos then node else tree.node place
        root := by
          have hroot : [] ≠ pos := by
            rintro rfl
            have hdir : tree.isDir [] = true := isDir_root
            exact absurd hdir (by rw [h.1]; decide)
          rw [if_neg hroot]
          exact tree.root
        parent := by
          intro place name htaken
          have hparent : tree.node place = some .dir := by
            split at htaken
            · next hplace =>
                rw [← isDir_iff]
                rw [← hplace, List.dropLast_concat] at h
                exact h.2
            · exact tree.parent place name htaken
          have hplace : place ≠ pos := by
            rintro rfl
            exact absurd (isDir_iff.mpr hparent) (by rw [h.1]; decide)
          rw [if_neg hplace]
          exact hparent }
  else
    none

def remove (tree : FileTree ν β) (pos : List ν) : Option (FileTree ν β) :=
  tree.assign pos none

/-- A file takes the place of another one. -/
def rename (tree : FileTree ν β) (source target : List ν) : Option (FileTree ν β) :=
  match tree.node source with
  | some (.file content) =>
      if source = target then some tree
      else (tree.assign target (some (.file content))).bind fun tree => tree.remove source
  | _ => none

/-- Make the directories that are missing on a path. -/
def createDirectories (tree : FileTree ν β) :
    List ν → List (Component ν) → Option (FileTree ν β)
  | _, [] => some tree
  | pos, component :: components =>
      match tree.node (move pos component) with
      | some .dir => tree.createDirectories (move pos component) components
      | some (.file _) => none
      | none =>
          (tree.assign (move pos component) (some .dir)).bind fun tree =>
            tree.createDirectories (move pos component) components

variable {tree tree' : FileTree ν β} {pos : List ν} {node : Option (Node β)}

theorem assign_isSome_iff :
    (tree.assign pos node).isSome ↔ tree.isDir pos = false ∧ tree.isDir pos.dropLast = true := by
  rw [assign]
  split
  · next h => exact iff_of_true rfl h
  · next h => exact iff_of_false (by simp) h

theorem node_assign (h : tree.assign pos node = some tree') :
    tree'.node = Function.update tree.node pos node := by
  rw [assign] at h
  split at h
  · cases h
    funext place
    rw [Function.update_apply]
  · cases h

theorem exists_assign (hpos : tree.isDir pos = false) (hparent : tree.isDir pos.dropLast = true)
    (node : Option (Node β)) :
    ∃ tree', tree.assign pos node = some tree' ∧
      tree'.node = Function.update tree.node pos node := by
  obtain ⟨tree', htree'⟩ := Option.isSome_iff_exists.mp (assign_isSome_iff.mpr ⟨hpos, hparent⟩)
  exact ⟨tree', htree', node_assign htree'⟩

variable {content : β}

theorem exists_remove (hfile : tree.node pos = some (.file content)) :
    ∃ tree', tree.remove pos = some tree' ∧ tree'.node = Function.update tree.node pos none := by
  apply exists_assign (not_isDir_of_file hfile)
  apply isDir_dropLast
  rw [hfile]
  rfl

variable {source target : List ν}

theorem rename_of_isDir (hfile : tree.node source = some (.file content))
    (htarget : tree.isDir target = true) : tree.rename source target = none := by
  have hne : source ≠ target := by
    rintro rfl
    rw [not_isDir_of_file hfile] at htarget
    cases htarget
  have hassign : tree.assign target (some (.file content)) = none := by
    rw [assign, dif_neg]
    rw [htarget]
    exact fun h => nomatch h.1
  rw [rename, hfile]
  simp only [if_neg hne, hassign, Option.bind_none]

theorem exists_rename (hfile : tree.node source = some (.file content)) (hne : source ≠ target)
    (htarget : tree.isDir target = false) (hparent : tree.isDir target.dropLast = true) :
    ∃ tree', tree.rename source target = some tree' ∧
      tree'.node = Function.update (Function.update tree.node target (some (.file content)))
        source none := by
  obtain ⟨moved, hmoved, hnode⟩ := exists_assign htarget hparent (some (.file content))
  have hsource : moved.node source = some (.file content) := by
    rw [hnode, Function.update_of_ne hne, hfile]
  obtain ⟨tree', htree', hnode'⟩ := exists_remove hsource
  refine ⟨tree', ?_, by rw [hnode', hnode]⟩
  rw [rename, hfile]
  simp only [if_neg hne, hmoved, Option.bind_some, htree']

variable {components : List (Component ν)} {place : List ν}

/-- Only the last directory of a path that leads somewhere can be missing. -/
theorem createDirectories_of_locate (hpos : tree.isDir pos = true)
    (h : tree.locate pos components = some place) :
    tree.createDirectories pos components =
      match tree.node place with
      | some .dir => some tree
      | some (.file _) => none
      | none => tree.assign place (some .dir) := by
  induction components generalizing pos with
  | nil =>
      cases h
      rw [createDirectories, isDir_iff.mp hpos]
  | cons component components ih =>
      rw [locate_cons_of_isDir hpos] at h
      rw [createDirectories]
      cases hdir : tree.isDir (move pos component) with
      | true =>
          rw [isDir_iff.mp hdir]
          exact ih hdir h
      | false =>
          cases components with
          | nil =>
              cases h
              cases hnode : tree.node (move pos component) with
              | none => exact Option.bind_fun_some _
              | some node =>
                  cases node with
                  | dir =>
                      rw [isDir_iff.mpr hnode] at hdir
                      cases hdir
                  | file => rfl
          | cons next rest =>
              rw [locate, hdir] at h
              cases h

end Changes

end FileTree

end FeedsService.Library.Paths
