import FeedsService.Library.Rows
import Mathlib.Data.Int.Order.Basic
import Mathlib.Data.List.Count

/-!
# Counters kept next to what they count

A list of entries, each a key with a number.  `Counts` says that the number of a
key is how often the key occurs among the items; `Numbered` says that the items
of a key are numbered from 1 up to, and without, its number.  Both are kept by
changing the entries of one key together with the items.
-/

namespace FeedsService.Library

universe u v

variable {κ : Type u} [DecidableEq κ] {ρ : Type v}

/-- Change the numbers of one key. -/
def bump (entries : List (κ × ℤ)) (k : κ) (change : ℤ) : List (κ × ℤ) :=
  entries.map fun entry => if entry.1 = k then (entry.1, entry.2 + change) else entry

variable {entries : List (κ × ℤ)} {k : κ} {change : ℤ}

@[simp]
theorem keys_bump : (bump entries k change).map Prod.fst = entries.map Prod.fst := by
  rw [bump, List.map_map]
  refine List.map_congr_left fun entry _ => ?_
  simp only [Function.comp]
  split <;> rfl

theorem mem_bump {entry : κ × ℤ} :
    entry ∈ bump entries k change ↔
      (entry ∈ entries ∧ entry.1 ≠ k) ∨ ∃ n, (k, n) ∈ entries ∧ entry = (k, n + change) := by
  simp only [bump, List.mem_map]
  constructor
  · rintro ⟨old, hold, rfl⟩
    by_cases hk : old.1 = k
    · rw [if_pos hk]
      exact .inr ⟨old.2, by rwa [← hk], by rw [hk]⟩
    · rw [if_neg hk]
      exact .inl ⟨hold, hk⟩
  · rintro (⟨hentry, hne⟩ | ⟨n, hold, rfl⟩)
    · exact ⟨entry, hentry, if_neg hne⟩
    · exact ⟨_, hold, if_pos rfl⟩

@[simp]
theorem bump_append (left right : List (κ × ℤ)) :
    bump (left ++ right) k change = bump left k change ++ bump right k change :=
  List.map_append

theorem bump_of_notMem (hk : k ∉ entries.map Prod.fst) : bump entries k change = entries := by
  refine (List.map_congr_left fun entry hentry => ?_).trans (List.map_id _)
  rw [if_neg]
  · rfl
  · rintro rfl
    exact hk (List.mem_map_of_mem hentry)

/-- An update of a column of the rows of one key changes the numbers of that key. -/
theorem map_updateWhere_bump (k : κ) (change : ℤ) {rows : List ρ} {key : ρ → κ}
    {column : ρ → ℤ} {p : ρ → Bool}
    {f : ρ → ρ} (hp : ∀ row ∈ rows, p row = true ↔ key row = k)
    (hkey : ∀ row, key (f row) = key row)
    (hcolumn : ∀ row, column (f row) = column row + change) :
    (updateWhere rows p f).map (fun row => (key row, column row)) =
      bump (rows.map fun row => (key row, column row)) k change := by
  rw [updateWhere, bump, List.map_map, List.map_map]
  refine List.map_congr_left fun row hrow => ?_
  simp only [Function.comp, hp row hrow]
  split
  · rw [hkey, hcolumn]
  · rfl

section Counts

/-- The number of each entry is how often its key occurs among the items. -/
structure Counts (counters : List (κ × ℤ)) (items : List κ) : Prop where
  count : ∀ entry ∈ counters, entry.2 = items.count entry.1
  known : ∀ k ∈ items, k ∈ counters.map Prod.fst

variable {counters counters' : List (κ × ℤ)} {items items' : List κ}

theorem Counts.nonneg (h : Counts counters items) {entry : κ × ℤ} (hentry : entry ∈ counters) :
    0 ≤ entry.2 := by
  rw [h.count entry hentry]
  exact Int.natCast_nonneg _

theorem Counts.perm (h : Counts counters items) (hperm : counters'.Perm counters) :
    Counts counters' items :=
  ⟨fun entry hentry => h.count entry (hperm.mem_iff.mp hentry),
    fun k hk => (hperm.map Prod.fst).mem_iff.mpr (h.known k hk)⟩

theorem Counts.insert (h : Counts counters items) (hk : k ∈ counters.map Prod.fst) :
    Counts (bump counters k 1) (items ++ [k]) := by
  refine ⟨fun entry hentry => ?_, fun other hother => ?_⟩
  · rw [List.count_append, List.count_singleton]
    rcases mem_bump.mp hentry with ⟨hold, hne⟩ | ⟨n, hold, rfl⟩
    · rw [h.count entry hold]
      simp [Ne.symm hne]
    · simp [← h.count _ hold]
  · rw [keys_bump]
    rcases List.mem_append.mp hother with hold | hnew
    · exact h.known other hold
    · rwa [List.mem_singleton.mp hnew]

theorem Counts.delete (h : Counts counters items)
    (hcount : ∀ other, items'.count other + (if other = k then 1 else 0) =
      items.count other) :
    Counts (bump counters k (-1)) items' := by
  refine ⟨fun entry hentry => ?_, fun other hother => ?_⟩
  · rcases mem_bump.mp hentry with ⟨hold, hne⟩ | ⟨n, hold, rfl⟩
    · have hsame := hcount entry.1
      rw [if_neg hne] at hsame
      rw [h.count entry hold]
      omega
    · have hless := hcount k
      have hn := h.count _ hold
      rw [if_pos rfl] at hless
      simp only at hn ⊢
      omega
  · rw [keys_bump]
    refine h.known other (List.count_pos_iff.mp ?_)
    have hpos := List.count_pos_iff.mpr hother
    have hsplit := hcount other
    omega

/-- The items as a column of rows. -/
theorem Counts.countP {rows : List ρ} {key : ρ → κ} (h : Counts counters (rows.map key))
    {entry : κ × ℤ} (hentry : entry ∈ counters) :
    entry.2 = rows.countP fun row => key row = entry.1 := by
  rw [h.count entry hentry, List.count, List.countP_map]
  congr 1

/-- Deleting the one row that satisfies `p`. -/
theorem Counts.delete_row {rows : List ρ} {key : ρ → κ} {p : ρ → Bool}
    (h : Counts counters (rows.map key)) (hone : rows.countP p = 1)
    (hp : ∀ row ∈ rows, p row = true → key row = k) :
    Counts (bump counters k (-1)) ((deleteWhere rows p).map key) := by
  refine h.delete fun other => ?_
  simp only [List.count, List.countP_map]
  split
  · next hsame =>
      subst hsame
      exact countP_deleteWhere_of_mem hone fun row hrow hat => by simp [hp row hrow hat]
  · next hother =>
      refine countP_deleteWhere_of_disjoint fun row hrow hat => ?_
      simp only [Function.comp, hp row hrow hat, beq_eq_false_iff_ne]
      exact Ne.symm hother

/-- An entry of a new key starts at 0. -/
theorem Counts.add (h : Counts counters items) (hk : k ∉ counters.map Prod.fst) :
    Counts (counters ++ [(k, 0)]) items := by
  refine ⟨fun entry hentry => ?_, fun other hother => ?_⟩
  · rcases List.mem_append.mp hentry with hold | hnew
    · exact h.count entry hold
    · rw [List.mem_singleton.mp hnew]
      have hnone : items.count k = 0 :=
        List.count_eq_zero.mpr fun hitem => hk (h.known k hitem)
      simp [hnone]
  · rw [List.map_append]
    exact List.mem_append_left _ (h.known other hother)

end Counts

section Numbered

/-- The items of a key are numbered from 1 up to, and without, its number. -/
structure Numbered (next : List (κ × ℤ)) (items : List (κ × ℤ)) : Prop where
  exact : ∀ entry ∈ next, ∀ id, (entry.1, id) ∈ items ↔ 1 ≤ id ∧ id < entry.2
  pos : ∀ entry ∈ next, 1 ≤ entry.2
  known : ∀ item ∈ items, item.1 ∈ next.map Prod.fst
  keyed : (next.map Prod.fst).Nodup

variable {next : List (κ × ℤ)} {items : List (κ × ℤ)}

omit [DecidableEq κ] in
theorem Numbered.item_pos (h : Numbered next items) {item : κ × ℤ} (hitem : item ∈ items) :
    1 ≤ item.2 := by
  obtain ⟨entry, hentry, hkey⟩ := List.mem_map.mp (h.known item hitem)
  exact ((h.exact entry hentry item.2).mp (by rwa [hkey])).1

/-- The next item of a key takes its number. -/
theorem Numbered.insert (h : Numbered next items) {n : ℤ} (hmem : (k, n) ∈ next) :
    Numbered (bump next k 1) (items ++ [(k, n)]) := by
  have hpos := h.pos _ hmem
  have hone : ∀ n', (k, n') ∈ next → n' = n := by
    intro n' hmem'
    have heq := List.inj_on_of_nodup_map h.keyed hmem' hmem rfl
    exact congrArg Prod.snd heq
  refine ⟨fun entry hentry id => ?_, fun entry hentry => ?_, fun item hitem => ?_, ?_⟩
  · rw [List.mem_append, List.mem_singleton]
    rcases mem_bump.mp hentry with ⟨hold, hne⟩ | ⟨n', hold, rfl⟩
    · rw [h.exact entry hold id]
      simp [hne]
    · obtain rfl := hone n' hold
      have hexact := h.exact _ hold id
      simp only [Prod.mk.injEq, true_and] at hexact hpos ⊢
      rw [hexact]
      omega
  · rcases mem_bump.mp hentry with ⟨hold, _⟩ | ⟨n', hold, rfl⟩
    · exact h.pos entry hold
    · have hold := h.pos _ hold
      simp only at hold ⊢
      omega
  · rw [keys_bump]
    rcases List.mem_append.mp hitem with hold | hnew
    · exact h.known item hold
    · rw [List.mem_singleton.mp hnew]
      exact List.mem_map_of_mem hmem
  · rw [keys_bump]
    exact h.keyed

omit [DecidableEq κ] in
/-- The items of a new key start with number 1. -/
theorem Numbered.add (h : Numbered next items) (hk : k ∉ next.map Prod.fst) :
    Numbered (next ++ [(k, 1)]) items := by
  refine ⟨fun entry hentry id => ?_, fun entry hentry => ?_, fun item hitem => ?_, ?_⟩
  · rcases List.mem_append.mp hentry with hold | hnew
    · exact h.exact entry hold id
    · rw [List.mem_singleton.mp hnew]
      constructor
      · intro hitem
        exact absurd (h.known _ hitem) hk
      · intro hrange
        simp only at hrange
        omega
  · rcases List.mem_append.mp hentry with hold | hnew
    · exact h.pos entry hold
    · rw [List.mem_singleton.mp hnew]
  · rw [List.map_append]
    exact List.mem_append_left _ (h.known item hitem)
  · rw [List.map_append, List.map_cons, List.map_nil, List.nodup_append]
    refine ⟨h.keyed, List.nodup_singleton _, fun other hother k' hk' => ?_⟩
    rw [List.mem_singleton.mp hk']
    rintro rfl
    exact hk hother

end Numbered

end FeedsService.Library
