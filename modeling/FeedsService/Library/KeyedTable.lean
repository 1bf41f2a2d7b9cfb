import Mathlib.Data.List.Nodup
import Mathlib.Data.Set.Function

/-!
# Intrusive keyed tables

A table is the list of the objects it holds, and `key` reads the key of an
object out of the object itself.  `put` replaces an object of the same key;
`remove` takes out the object of a key.
-/

namespace FeedsService.Library.KeyedTable

universe u v

variable {ρ : Type u} {κ : Type v} {key : ρ → κ} {table : List ρ}

/-- No two objects of the table have the same key. -/
def Keyed (key : ρ → κ) (table : List ρ) : Prop :=
  (table.map key).Nodup

theorem keyed_nil : Keyed key [] :=
  List.nodup_nil

theorem Keyed.nodup (h : Keyed key table) : table.Nodup :=
  List.Nodup.of_map key h

theorem Keyed.eq_of_key (h : Keyed key table) {left right : ρ}
    (hleft : left ∈ table) (hright : right ∈ table)
    (heq : key left = key right) : left = right :=
  List.inj_on_of_nodup_map h hleft hright heq

theorem Keyed.filter (h : Keyed key table) (p : ρ → Bool) :
    Keyed key (table.filter p) :=
  h.sublist (List.filter_sublist.map key)

/-- The keys of a table depend only on how the keys of its objects are read. -/
theorem Keyed.congr {key' : ρ → κ} (h : Keyed key table)
    (hkey : ∀ object ∈ table, key' object = key object) : Keyed key' table := by
  rw [Keyed, List.map_congr_left hkey]
  exact h

/-- Adding an object whose key is new; the keys may be read differently. -/
theorem Keyed.concat {key' : ρ → κ} {object : ρ} (h : Keyed key table)
    (hkey : ∀ other ∈ table, key' other = key other)
    (hfresh : ∀ other ∈ table, key other ≠ key' object) :
    Keyed key' (table ++ [object]) := by
  rw [Keyed, List.map_append, List.map_cons, List.map_nil, List.nodup_append]
  refine ⟨h.congr hkey, List.nodup_singleton _, fun k hk k' hk' => ?_⟩
  obtain ⟨other, hother, rfl⟩ := List.mem_map.mp hk
  rw [List.mem_singleton.mp hk', hkey other hother]
  exact hfresh other hother

variable [DecidableEq κ]

def get (key : ρ → κ) (table : List ρ) (k : κ) : Option ρ :=
  table.find? fun object => key object = k

def put (key : ρ → κ) (table : List ρ) (object : ρ) : List ρ :=
  table.filter (fun other => key other ≠ key object) ++ [object]

def remove (key : ρ → κ) (table : List ρ) (k : κ) : List ρ :=
  table.filter fun other => key other ≠ k

@[simp]
theorem mem_put {object other : ρ} :
    other ∈ put key table object ↔
      (other ∈ table ∧ key other ≠ key object) ∨ other = object := by
  simp [put]

@[simp]
theorem mem_remove {k : κ} {other : ρ} :
    other ∈ remove key table k ↔ other ∈ table ∧ key other ≠ k := by
  simp [remove]

theorem nodup_put (h : table.Nodup) (object : ρ) : (put key table object).Nodup := by
  rw [put, List.nodup_append]
  refine ⟨h.filter _, List.nodup_singleton _, fun other hother single hsingle hsame => ?_⟩
  rw [hsame, List.mem_singleton.mp hsingle] at hother
  simpa using (List.mem_filter.mp hother).2

theorem Keyed.remove (h : Keyed key table) (k : κ) :
    Keyed key (remove key table k) :=
  h.filter _

theorem Keyed.put (h : Keyed key table) (object : ρ) :
    Keyed key (put key table object) := by
  rw [KeyedTable.put, Keyed, List.map_append, List.map_cons, List.map_nil,
    List.nodup_append]
  refine ⟨h.filter _, List.nodup_singleton _, fun k hk k' hk' => ?_⟩
  obtain ⟨other, hother, rfl⟩ := List.mem_map.mp hk
  rw [List.mem_singleton.mp hk']
  simpa using (List.mem_filter.mp hother).2

theorem mem_of_get {k : κ} {object : ρ} (hget : get key table k = some object) :
    object ∈ table ∧ key object = k :=
  ⟨List.mem_of_find?_eq_some hget, by simpa using List.find?_some hget⟩

theorem get_eq_none {k : κ} :
    get key table k = none ↔ ∀ object ∈ table, key object ≠ k := by
  simp [get, List.find?_eq_none]

/-- A table in which distinct objects have distinct keys, however often it lists
them. -/
theorem get_eq_some_of_injOn (h : Set.InjOn key {object | object ∈ table}) {k : κ}
    {object : ρ} : get key table k = some object ↔ object ∈ table ∧ key object = k := by
  constructor
  · exact mem_of_get
  · rintro ⟨hmem, hkey⟩
    cases hget : get key table k with
    | none => exact absurd hkey (get_eq_none.mp hget object hmem)
    | some other =>
        obtain ⟨hother, hotherKey⟩ := mem_of_get hget
        rw [h hother hmem (hotherKey.trans hkey.symm)]

theorem get_eq_some (h : Keyed key table) {k : κ} {object : ρ} :
    get key table k = some object ↔ object ∈ table ∧ key object = k :=
  get_eq_some_of_injOn fun _ hleft _ hright heq => h.eq_of_key hleft hright heq

/-- The order of a table does not matter. -/
theorem get_perm {table' : List ρ} (h : Keyed key table) (hperm : table.Perm table') (k : κ) :
    get key table k = get key table' k := by
  have h' : Keyed key table' := (hperm.map key).nodup_iff.mp h
  ext object
  rw [get_eq_some h, get_eq_some h', hperm.mem_iff]

/-- Removing the key of an object of the table takes out that object. -/
theorem Keyed.remove_key [DecidableEq ρ] (h : Keyed key table) {object : ρ}
    (hmem : object ∈ table) :
    KeyedTable.remove key table (key object) = table.filter (· ≠ object) := by
  refine List.filter_congr fun other hother => ?_
  simp only [ne_eq, decide_not, Bool.not_inj_iff, decide_eq_decide]
  exact ⟨h.eq_of_key hother hmem, congrArg key⟩

/-- What is found after an object was put. -/
theorem get_put (object : ρ) (k : κ) :
    get key (put key table object) k =
      if key object = k then some object else get key table k := by
  rw [get, put, List.find?_append, List.find?_filter]
  by_cases hkey : key object = k
  · rw [if_pos hkey, List.find?_eq_none.mpr]
    · simp [hkey]
    · intro other _
      simp only [ne_eq, decide_not, decide_eq_true_eq, Bool.not_eq_true',
        decide_eq_false_iff_not, not_and]
      exact fun hne heq => hne (heq.trans hkey.symm)
  · rw [if_neg hkey, List.find?_cons_of_neg (by simpa using hkey), List.find?_nil, Option.or_none]
    congr 1
    funext other
    by_cases hother : key other = k
    · simp [hother, Ne.symm hkey]
    · simp [hother]

/-- Putting an object of a fresh key appends it. -/
theorem put_of_fresh {object : ρ} (hfresh : ∀ other ∈ table, key other ≠ key object) :
    put key table object = table ++ [object] := by
  rw [put, List.filter_eq_self.mpr]
  intro other hother
  simpa using hfresh other hother

/-- A key that is not there cannot be removed. -/
theorem remove_of_get_none {k : κ} (hget : get key table k = none) :
    remove key table k = table := by
  rw [remove, List.filter_eq_self]
  intro other hother
  simpa using get_eq_none.mp hget other hother

/-- Putting an object that a filter lets through commutes with it. -/
theorem put_filter {p : ρ → Bool} {object : ρ} (hp : p object = true) :
    put key (table.filter p) object = (put key table object).filter p := by
  rw [put, put, List.filter_append, List.filter_cons_of_pos hp, List.filter_nil,
    List.filter_comm]

theorem remove_filter {p : ρ → Bool} {k : κ} :
    remove key (table.filter p) k = (remove key table k).filter p :=
  List.filter_comm _ _ _

end FeedsService.Library.KeyedTable
