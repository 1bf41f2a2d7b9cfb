import FeedsService.Feeds.Ranges
import FeedsService.Library.Paging

/-!
# Asking for what comes behind

A request with a count is answered with the first rows; the rows behind the last one are got by a
bound next to it.  What shares its time with the last row is then left out.
-/

namespace FeedsService.Feeds

open FeedsService.Library

section Criteria

namespace QryCriteria

variable (qc : QryCriteria)

/-- The criteria for what comes behind a row with this value. -/
def after (value : ℤ) (more : UInt64) : QryCriteria :=
  match qc.by with
  | .none => { qc with maxcnt := more }
  | .id => { qc with lower := unsigned (value + 1), maxcnt := more }
  | .updAt | .createdAt => { qc with upper := unsigned (value - 1), maxcnt := more }

/-- Both counts, none if the second one is. -/
def counting (more : UInt64) : QryCriteria :=
  { qc with maxcnt := if more = 0 then 0 else qc.maxcnt + more }

variable {qc} {value bound : ℤ} {more : UInt64}

@[simp]
theorem after_by : (qc.after value more).by = qc.by := by
  rw [after]
  split
  · rfl
  · rfl
  · rfl
  · rfl

@[simp]
theorem after_maxcnt : (qc.after value more).maxcnt = more := by
  rw [after]
  split
  · rfl
  · rfl
  · rfl
  · rfl

theorem orders_trans (left middle right : ℤ) (hleft : qc.Orders left middle = true)
    (hright : qc.Orders middle right = true) : qc.Orders left right = true := by
  revert hleft hright
  rw [Orders, Orders, Orders]
  cases qc.by with
  | none => exact fun _ _ => rfl
  | id =>
      simp only [decide_eq_true_eq]
      exact fun hleft hright => UInt64.le_trans hleft hright
  | updAt | createdAt =>
      simp only [decide_eq_true_eq]
      exact fun hleft hright => UInt64.le_trans hright hleft

theorem orders_total (left right : ℤ) : (qc.Orders left right || qc.Orders right left) = true := by
  rw [Orders, Orders]
  cases qc.by with
  | none => rfl
  | id | updAt | createdAt =>
      simp only [Bool.or_eq_true, decide_eq_true_eq]
      exact UInt64.le_total _ _

/-- The bound next to an admitted value admits what comes behind it. -/
theorem admits_after (hby : qc.by ≠ .none) (hadmits : qc.Admits bound = true) (hlow : 0 ≤ bound)
    (hhigh : bound < 2 ^ 63 - 1) (hlater : qc.by ≠ .id → 1 < bound) (hvalueLow : 0 ≤ value)
    (hvalueHigh : value < 2 ^ 63) :
    (qc.after bound more).Admits value = (qc.Admits value && !qc.Orders value bound) := by
  have hzero : ∀ word : UInt64, word = 0 ↔ word.toNat = 0 := fun word => UInt64.toNat_inj.symm
  have hbound := toNat_unsigned hlow (show bound < 2 ^ 63 by omega)
  have hvalue := toNat_unsigned hvalueLow hvalueHigh
  have hafter : (qc.after bound more).by ≠ .none := by rwa [after_by]
  rw [admits_iff hby hlow (by omega), hzero, hzero] at hadmits
  rw [Bool.eq_iff_iff, Bool.and_eq_true, admits_iff hafter hvalueLow hvalueHigh,
    admits_iff hby hvalueLow hvalueHigh, hzero, hzero, hzero, hzero, Bool.not_eq_true', Orders,
    after]
  cases hfield : qc.by with
  | none => exact absurd hfield hby
  | id =>
      have hnext := toNat_unsigned (show 0 ≤ bound + 1 by omega) (by omega)
      simp only [decide_eq_false_iff_not, UInt64.not_le, UInt64.lt_iff_toNat_lt]
      omega
  | updAt | createdAt =>
      have hone : 1 < bound := hlater (by rw [hfield]; decide)
      have hnext := toNat_unsigned (show 0 ≤ bound - 1 by omega) (by omega)
      simp only [decide_eq_false_iff_not, UInt64.not_le, UInt64.lt_iff_toNat_lt]
      omega

variable {ρ : Type} {column : QryFld → ρ → ℤ} {rows : List ρ}

/-- The count that is left for what comes behind. -/
theorem count_counting {first : List ρ} (hfull : qc.count = some first.length)
    (hcounts : qc.maxcnt.toNat + more.toNat < 2 ^ 64) :
    (qc.counting more).count = (qc.after value more).count.map (first.length + ·) := by
  rw [count] at hfull
  split at hfull
  · cases hfull
  · next hsome =>
      have hlength := Option.some.inj hfull
      have hadd : (qc.maxcnt + more).toNat = first.length + more.toNat := by
        rw [UInt64.toNat_add, Nat.mod_eq_of_lt hcounts, hlength]
      rw [count, count, after_maxcnt, counting]
      by_cases hnone : more = 0
      · rw [if_pos hnone, if_pos rfl, if_pos hnone]
        rfl
      · have hne : qc.maxcnt + more ≠ 0 := by
          intro hzero
          rw [hzero, UInt64.toNat_zero, ← hlength] at hadd
          exact hsome (UInt64.toNat_inj.mp (by rw [UInt64.toNat_zero]; omega))
        rw [if_neg hnone, if_neg hne, if_neg hnone, Option.map_some, hadd]

/-- What two requests answer, one behind the other, is an answer to one for both counts exactly
when the first one reaches every row with the value of its last one. -/
theorem means_append_iff {first rest : List ρ} {last : ρ} (hstored : qc.Stored column rows)
    (hby : qc.by ≠ .none) (hfirst : qc.Means column rows first)
    (hfull : qc.count = some first.length) (hlast : first.getLast? = some last)
    (hhigh : column qc.by last < 2 ^ 63 - 1) (hlater : qc.by ≠ .id → 1 < column qc.by last)
    (hrest : (qc.after (column qc.by last) more).Means column rows rest)
    (hcounts : qc.maxcnt.toNat + more.toNat < 2 ^ 64) :
    (qc.counting more).Means column rows (first ++ rest) ↔
      Reaches (fun row => qc.Admits (column qc.by row))
        (fun left right => qc.Orders (column qc.by left) (column qc.by right)) last rows first := by
  have hmem : last ∈ rows ∧ qc.Admits (column qc.by last) = true := by
    obtain ⟨ordered, hperm, -, hcut⟩ := hfirst
    have htaken : last ∈ ordered := by
      have hlastMem := List.mem_of_getLast? hlast
      rw [hcut, hfull] at hlastMem
      exact List.mem_of_mem_take hlastMem
    exact List.mem_filter.mp (hperm.mem_iff.mp htaken)
  have hlow := hstored.low last hmem.1
  have hbehind : Lists
      (behind (fun row => qc.Admits (column qc.by row))
        (fun left right => qc.Orders (column qc.by left) (column qc.by right)) last)
      (fun left right => qc.Orders (column qc.by left) (column qc.by right))
      (qc.after (column qc.by last) more).count rows rest := by
    rw [Means, after_by] at hrest
    refine hrest.congr (fun row hrow => ?_) fun left _ right _ hle => ?_
    · exact admits_after hby hmem.2 hlow hhigh hlater (hstored.low row hrow)
        (hstored.high row hrow)
    · rwa [Orders, after_by] at hle
  have htrans : ∀ a b c : ρ, qc.Orders (column qc.by a) (column qc.by b) = true →
      qc.Orders (column qc.by b) (column qc.by c) = true →
        qc.Orders (column qc.by a) (column qc.by c) = true := fun a b c => orders_trans _ _ _
  have htotal : ∀ a b : ρ, (qc.Orders (column qc.by a) (column qc.by b) ||
      qc.Orders (column qc.by b) (column qc.by a)) = true := fun a b => orders_total _ _
  rw [Means, hfull] at hfirst
  rw [← Lists.append_iff htrans htotal hfirst hlast hbehind (count_ne_zero _),
    ← count_counting hfull hcounts]
  rfl

end QryCriteria

end Criteria

section Iterators

namespace RangeQuery

/-- The iterator succeeds, and these are rows that the criteria mean.  Rows that are tied may
come in any order. -/
def Gives (query : RangeQuery) (db : Db) (qc : QryCriteria) (rows : List query.Row) : Prop :=
  (query.run db qc).isSome = true ∧ qc.Means query.column (query.base db) rows

variable {query : RangeQuery} {db : Db} {qc : QryCriteria}

theorem gives_select (hstored : qc.Stored query.column (query.base db))
    (hcolumn : query.hasColumn qc.by = true) (hby : qc.by ≠ .none)
    (hfits : ∀ row ∈ query.base db, qc.Fits (query.column qc.by row)) {rows : List query.Row}
    (hselect : qc.select query.column (query.base db) = rows) : query.Gives db qc rows := by
  obtain rfl := hselect
  refine ⟨?_, QryCriteria.select_means hstored fun _ => hfits⟩
  have hbinds : qc.binds = true := by
    rw [QryCriteria.binds, decide_eq_true_eq]
    exact Or.inl hby
  rw [run_eq, if_pos hcolumn, QryCriteria.iterate, if_pos hbinds]
  rfl

/-- A full answer and the answer to the request for what comes behind its last row make together an
answer to one request for both counts, exactly when the first one has every row whose id or time
does not come behind that of its last row. -/
theorem continues_iff {more : UInt64} {first rest : List query.Row} {last : query.Row}
    (hstored : qc.Stored query.column (query.base db)) (hby : qc.by ≠ .none)
    (hfirst : query.Gives db qc first) (hfull : qc.count = some first.length)
    (hlast : first.getLast? = some last) (hhigh : query.column qc.by last < 2 ^ 63 - 1)
    (hlater : qc.by ≠ .id → 1 < query.column qc.by last)
    (hrest : query.Gives db (qc.after (query.column qc.by last) more) rest)
    (hcounts : qc.maxcnt.toNat + more.toNat < 2 ^ 64) :
    (qc.counting more).Means query.column (query.base db) (first ++ rest) ↔
      first.Perm ((query.base db).filter fun row => qc.Admits (query.column qc.by row) &&
        qc.Orders (query.column qc.by row) (query.column qc.by last)) :=
  QryCriteria.means_append_iff hstored hby hfirst.2 hfull hlast hhigh hlater hrest.2 hcounts

/-- Two posts of one second, and the page behind the first of them. -/
theorem continues_iff_tied :
    let db : Db := { Db.init with posts := [postAt 2 20, postAt 3 20, postAt 1 10] }
    (QryCriteria.counting ⟨.createdAt, 0, 0, 1⟩ 1).Means (posts 1).column ((posts 1).base db)
        ([postAt 2 20] ++ [postAt 1 10]) ↔
      [postAt 2 20].Perm (((posts 1).base db).filter fun row =>
        QryCriteria.Admits ⟨.createdAt, 0, 0, 1⟩ ((posts 1).column .createdAt row) &&
          QryCriteria.Orders ⟨.createdAt, 0, 0, 1⟩ ((posts 1).column .createdAt row) 20) := by
  intro db
  have hstored : ∀ qc : QryCriteria, qc.by = .createdAt →
      qc.Stored (posts 1).column ((posts 1).base db) := by
    intro qc hby
    refine ⟨by decide, ?_, ?_⟩
    · rw [hby]
      decide
    · rw [hby]
      decide
  have hfits : ∀ qc : QryCriteria, qc.lower = 0 → qc.upper.toNat < 2 ^ 63 →
      ∀ row ∈ (posts 1).base db, qc.Fits ((posts 1).column qc.by row) := by
    intro qc hlower hupper row _
    refine ⟨fun hlarge => ?_, fun hlarge => absurd hlarge (by omega)⟩
    rw [hlower] at hlarge
    exact absurd hlarge (by decide)
  have hsorted : ∀ qc : QryCriteria, qc.by = .createdAt →
      (db.posts.filter fun row => qc.Keeps (PostRow.column qc.by row)).Pairwise fun left right =>
        qc.Sorts (PostRow.column qc.by left) (PostRow.column qc.by right) = true := by
    intro qc hby
    refine List.Pairwise.filter _ ?_
    simp only [QryCriteria.Sorts, hby]
    decide
  have hselect : ∀ qc : QryCriteria, qc.by = .createdAt →
      qc.select PostRow.column db.posts =
        qc.limited (db.posts.filter fun row => qc.Keeps (PostRow.column qc.by row)) := by
    intro qc hby
    rw [select_eq, qc.ordered_eq _ _ (by rw [hby]; decide),
      List.mergeSort_of_pairwise (hsorted qc hby)]
  have hnewest := hselect ⟨.createdAt, 0, 0, 1⟩ rfl
  have hbefore := hselect ⟨.createdAt, 19, 0, 1⟩ rfl
  have hfirst := gives_select (hstored ⟨.createdAt, 0, 0, 1⟩ rfl) rfl (by decide)
    (hfits _ rfl (by decide)) hnewest
  have hrest := gives_select (hstored ⟨.createdAt, 19, 0, 1⟩ rfl) rfl (by decide)
    (hfits _ rfl (by decide)) hbefore
  have hlast : [postAt 2 20].getLast? = some (postAt 2 20) := rfl
  exact continues_iff (hstored _ rfl) (by decide) hfirst rfl hlast (by decide) (by decide) hrest
    (by decide)

end RangeQuery

end Iterators

end FeedsService.Feeds
