import FeedsService.Library.Runs
import FeedsService.Library.Selections

/-!
# Pages of a listing

The rows behind the last row of a listing that is full are listed next.  The two listings make one,
with the limits added, exactly when the first one reaches every row that its order does not tell
apart from its last row.

A reader goes through a table by its keys, page after page, while the table changes.  What is behind
its cursor it sees later; it has all the rest as long as no row appears before the cursor.
-/

namespace FeedsService.Library

open FeedsService.Runs

universe u

variable {ρ : Type u} {keep : ρ → Bool} {le : ρ → ρ → Bool} {limit : Option ℕ}
  {rows first rest tail : List ρ} {last : ρ}

/-- The rows that are kept and come behind a row. -/
def behind (keep : ρ → Bool) (le : ρ → ρ → Bool) (last row : ρ) : Bool :=
  keep row && !le row last

/-- The listing has all the rows that do not come behind its last one. -/
def Reaches (keep : ρ → Bool) (le : ρ → ρ → Bool) (last : ρ) (rows first : List ρ) : Prop :=
  first.Perm (rows.filter fun row => keep row && le row last)

theorem cut_append (limit : Option ℕ) (first rest : List ρ) :
    cut (limit.map (first.length + ·)) (first ++ rest) = first ++ cut limit rest := by
  cases limit with
  | none => rfl
  | some count => exact List.take_length_add_append count

/-- No row of a sorted list comes behind its last one. -/
theorem le_getLast (hrefl : ∀ a, le a a = true)
    (hsorted : first.Pairwise fun left right => le left right = true)
    (hlast : first.getLast? = some last) : ∀ row ∈ first, le row last = true := by
  obtain ⟨front, rfl⟩ := List.getLast?_eq_some_iff.mp hlast
  intro row hrow
  obtain hfront | hsame := List.mem_append.mp hrow
  · exact (List.pairwise_append.mp hsorted).2.2 row hfront last List.mem_cons_self
  · rw [List.mem_singleton.mp hsame]
    exact hrefl last

/-- A listing that goes on reaches all it should when what follows comes behind it. -/
theorem reaches_iff (hperm : (first ++ tail).Perm (rows.filter keep))
    (hfirst : ∀ row ∈ first, le row last = true) :
    Reaches keep le last rows first ↔ ∀ row ∈ tail, le row last = false := by
  have hupTo : (first ++ tail.filter (le · last)).Perm
      (rows.filter fun row => keep row && le row last) := by
    have hfiltered := hperm.filter (le · last)
    rw [List.filter_append, List.filter_eq_self.mpr hfirst, List.filter_filter] at hfiltered
    simpa only [Bool.and_comm] using hfiltered
  have hnone : Reaches keep le last rows first ↔ tail.filter (le · last) = [] := by
    constructor
    · intro hreaches
      have hlength := (hreaches.trans hupTo.symm).length_eq
      rw [List.length_append] at hlength
      exact List.length_eq_zero_iff.mp (by omega)
    · intro hnil
      rwa [hnil, List.append_nil] at hupTo
  rw [hnone, List.filter_eq_nil_iff]
  simp only [Bool.not_eq_true]

/-- What is behind the last row, listed after the rows up to it. -/
theorem perm_behind (hreaches : Reaches keep le last rows first) {ordered : List ρ}
    (hperm : ordered.Perm (rows.filter (behind keep le last))) :
    (first ++ ordered).Perm (rows.filter keep) := by
  have hbehind : (rows.filter (behind keep le last)) =
      (rows.filter keep).filter fun row => !le row last := by
    rw [List.filter_filter]
    exact congrArg (rows.filter ·) (funext fun row => Bool.and_comm _ _)
  have hupTo : (rows.filter fun row => keep row && le row last) =
      (rows.filter keep).filter (le · last) := by
    rw [List.filter_filter]
    exact congrArg (rows.filter ·) (funext fun row => Bool.and_comm _ _)
  rw [hbehind] at hperm
  rw [Reaches, hupTo] at hreaches
  exact (hreaches.append hperm).trans (List.filter_append_perm (le · last) _)

/-- A full listing and the one of the rows behind its last row are one listing exactly when the
first one reaches every row that does not come behind. -/
theorem Lists.append_iff (htrans : ∀ a b c, le a b = true → le b c = true → le a c = true)
    (htotal : ∀ a b, (le a b || le b a) = true)
    (hfirst : Lists keep le (some first.length) rows first) (hlast : first.getLast? = some last)
    (hrest : Lists (behind keep le last) le limit rows rest) (hlimit : limit ≠ some 0) :
    Lists keep le (limit.map (first.length + ·)) rows (first ++ rest) ↔
      Reaches keep le last rows first := by
  have hrefl : ∀ a, le a a = true := fun a => by simpa using htotal a a
  have hbehind : ∀ row ∈ rest, le row last = false := by
    obtain ⟨ordered, hperm, -, rfl⟩ := hrest
    intro row hrow
    have hmem : row ∈ ordered := by
      cases limit with
      | none => exact hrow
      | some count => exact List.mem_of_mem_take hrow
    have hkept := (List.mem_filter.mp (hperm.mem_iff.mp hmem)).2
    simpa [behind] using (Bool.and_eq_true_iff.mp hkept).2
  constructor
  · rintro ⟨ordered, hperm, hsorted, happend⟩
    -- what is left of the common order begins with a row of `rest`
    obtain ⟨tail, rfl⟩ : ∃ tail, ordered = first ++ tail := by
      refine ⟨ordered.drop first.length, ?_⟩
      have htaken : first <+: ordered := by
        refine (List.prefix_append first rest).trans (happend ▸ ?_)
        cases limit with
        | none => exact List.prefix_rfl
        | some count => exact List.take_prefix _ _
      obtain ⟨tail, rfl⟩ := htaken
      rw [List.drop_left]
    rw [cut_append, List.append_cancel_left_eq] at happend
    obtain ⟨hsortedFirst, hsortedTail, -⟩ := List.pairwise_append.mp hsorted
    refine (reaches_iff hperm (le_getLast hrefl hsortedFirst hlast)).mpr ?_
    cases tail with
    | nil => exact List.forall_mem_nil _
    | cons head tail =>
        have hhead : head ∈ rest := by
          rw [happend]
          cases limit with
          | none => exact List.mem_cons_self
          | some count =>
              cases count with
              | zero => exact absurd rfl hlimit
              | succ count => exact List.mem_cons_self
        intro row hrow
        by_contra hle
        have hle : le row last = true := by simpa using hle
        have hheadLe : le head last = true := by
          obtain rfl | htail := List.mem_cons.mp hrow
          · exact hle
          · exact htrans _ _ _ ((List.pairwise_cons.mp hsortedTail).1 row htail) hle
        exact absurd (hbehind head hhead) (by simp [hheadLe])
  · intro hreaches
    obtain ⟨ordered, hperm, hsorted, rfl⟩ := hrest
    obtain ⟨orderedFirst, hpermFirst, hsortedAll, hcut⟩ := hfirst
    have hsortedFirst : first.Pairwise fun left right => le left right = true := by
      rw [hcut]
      exact hsortedAll.sublist (List.take_sublist _ _)
    refine ⟨first ++ ordered, perm_behind hreaches hperm, ?_, (cut_append _ _ _).symm⟩
    refine List.pairwise_append.mpr ⟨hsortedFirst, hsorted, fun left hleft right hright => ?_⟩
    have hkept := (List.mem_filter.mp (hperm.mem_iff.mp hright)).2
    have hnot : le right last = false := by
      simpa [behind] using (Bool.and_eq_true_iff.mp hkept).2
    have hlastRight : le last right = true := by simpa [hnot] using htotal right last
    exact htrans _ _ _ (le_getLast hrefl hsortedFirst hlast left hleft) hlastRight

section Reader

universe v w x

variable {σ : Type v} {α : Type w} {β : Type x} {key : ρ → ℤ} {cursor : ℤ} {count : Option ℕ}

/-- The first rows whose keys are above the cursor, by their keys. -/
def pageAfter (key : ρ → ℤ) (cursor : ℤ) (count : Option ℕ) (rows : List ρ) : List ρ :=
  cut count ((rows.filter fun row => cursor < key row).mergeSort fun left right =>
    key left ≤ key right)

/-- The rows got so far and the last key among them. -/
structure Reader (σ : Type v) (ρ : Type u) where
  state : σ
  cursor : ℤ
  got : List ρ

inductive Reading (α : Type w) (β : Type x)
  | event (action : α)
  | page (request : β)

/-- The reader gets a page. -/
def Reader.turn (key : ρ → ℤ) (page : List ρ) (reader : Reader σ ρ) : Reader σ ρ :=
  { reader with
    cursor := (page.getLast?.map key).getD reader.cursor
    got := reader.got ++ page }

theorem Reader.turn_got (key : ρ → ℤ) (page : List ρ) (reader : Reader σ ρ) :
    (reader.turn key page).got = reader.got ++ page :=
  rfl

/-- A request is given the state and the cursor; it may be refused. -/
def nextReader (next : σ → α → Option σ) (fetch : σ → ℤ → β → Option (List ρ)) (key : ρ → ℤ)
    (reader : Reader σ ρ) : Reading α β → Option (Reader σ ρ)
  | .event action => (next reader.state action).map fun state => { reader with state := state }
  | .page request => (fetch reader.state reader.cursor request).map (reader.turn key)

/-- What is fetched are pages of the table. -/
def Fetches (fetch : σ → ℤ → β → Option (List ρ)) (table : σ → List ρ) (key : ρ → ℤ) : Prop :=
  ∀ s cursor request page, fetch s cursor request = some page →
    ∃ count, page = pageAfter key cursor count (table s)

/-- The reader has got every row up to its cursor. -/
def Reader.Complete (table : σ → List ρ) (key : ρ → ℤ) (reader : Reader σ ρ) : Prop :=
  ∀ row ∈ table reader.state, key row ≤ reader.cursor → key row ∈ reader.got.map key

/-- A row appears that the reader has gone past. -/
def Backfills (table : σ → List ρ) (key : ρ → ℤ) (reader : Reader σ ρ) (state : σ) : Prop :=
  ∃ row ∈ table state, key row ≤ reader.cursor ∧ key row ∉ (table reader.state).map key

theorem mem_pageAfter_none {row : ρ} :
    row ∈ pageAfter key cursor none rows ↔ row ∈ rows ∧ cursor < key row := by
  rw [pageAfter, cut, List.mem_mergeSort, List.mem_filter, decide_eq_true_eq]

/-- A page is the beginning of what is above the cursor. -/
theorem pageAfter_append (key : ρ → ℤ) (cursor : ℤ) (count : Option ℕ) (rows : List ρ) :
    ∃ later, pageAfter key cursor none rows = pageAfter key cursor count rows ++ later := by
  cases count with
  | none => exact ⟨[], (List.append_nil _).symm⟩
  | some count => exact ⟨_, (List.take_append_drop count _).symm⟩

theorem pairwise_pageAfter (cursor : ℤ) (hkeys : (rows.map key).Nodup) :
    (pageAfter key cursor none rows).Pairwise fun left right => key left < key right := by
  have hsorted : (pageAfter key cursor none rows).Pairwise fun left right =>
      decide (key left ≤ key right) = true := by
    refine List.pairwise_mergeSort (fun a b c => ?_) (fun a b => ?_) _
    · simp only [decide_eq_true_eq]
      exact le_trans
    · simpa using le_total (key a) (key b)
  have hdistinct : (pageAfter key cursor none rows).Pairwise fun left right =>
      key left ≠ key right := by
    have hfiltered : ((rows.filter fun row => cursor < key row).map key).Nodup :=
      hkeys.sublist (List.filter_sublist.map key)
    rw [pageAfter, cut]
    exact List.pairwise_map.mp (((List.mergeSort_perm _ _).map key).nodup_iff.mpr hfiltered)
  exact (hsorted.and hdistinct).imp fun h => lt_of_le_of_ne (by simpa using h.1) h.2

/-- What has been got, by a table whose rows stay. -/
structure Reader.Sound (table : σ → List ρ) (key : ρ → ℤ) (start : ℤ) (reader : Reader σ ρ) :
    Prop where
  ascends : reader.got.Pairwise fun left right => key left < key right
  below : ∀ row ∈ reader.got, key row ≤ reader.cursor
  stays : ∀ row ∈ reader.got, key row ∈ (table reader.state).map key
  /-- the cursor is where it was at the start, or at a row of the table -/
  cursor : reader.cursor = start ∨ reader.cursor ∈ (table reader.state).map key

section Turns

variable {table : σ → List ρ} {start : ℤ} {reader : Reader σ ρ}

/-- The cursor moves up to the last row of the page. -/
theorem turn_cursor (count : Option ℕ) (hkeys : ((table reader.state).map key).Nodup) :
    let page := pageAfter key reader.cursor count (table reader.state)
    reader.cursor ≤ (reader.turn key page).cursor ∧
      ((reader.turn key page).cursor = reader.cursor ∨
        (reader.turn key page).cursor ∈ (table reader.state).map key) ∧
      (∀ row ∈ page, reader.cursor < key row ∧ key row ≤ (reader.turn key page).cursor) ∧
      ∀ row ∈ table reader.state, key row ≤ (reader.turn key page).cursor →
        key row ≤ reader.cursor ∨ row ∈ page := by
  intro page
  obtain ⟨later, happend⟩ := pageAfter_append key reader.cursor count (table reader.state)
  have hsorted := pairwise_pageAfter reader.cursor hkeys
  rw [happend] at hsorted
  obtain ⟨hpage, -, hlater⟩ := List.pairwise_append.mp hsorted
  have habove : ∀ row ∈ page ++ later, row ∈ table reader.state ∧ reader.cursor < key row := by
    intro row hrow
    rw [← happend] at hrow
    exact mem_pageAfter_none.mp hrow
  have hlisted : ∀ row ∈ table reader.state, reader.cursor < key row → row ∈ page ++ later := by
    intro row hrow hlt
    rw [← happend]
    exact mem_pageAfter_none.mpr ⟨hrow, hlt⟩
  rw [Reader.turn]
  cases hlast : page.getLast? with
  | none =>
      obtain hnil : page = [] := List.getLast?_eq_none_iff.mp hlast
      rw [hnil]
      exact ⟨le_rfl, Or.inl rfl, List.forall_mem_nil _, fun row _ hle => Or.inl hle⟩
  | some last =>
      have hmem : last ∈ page := List.mem_of_getLast? hlast
      have hupTo : ∀ row ∈ page, key row ≤ key last := by
        obtain ⟨front, hfront⟩ := List.getLast?_eq_some_iff.mp hlast
        intro row hrow
        rw [hfront] at hrow
        obtain hrow | hrow := List.mem_append.mp hrow
        · change page.Pairwise _ at hpage
          rw [hfront] at hpage
          exact ((List.pairwise_append.mp hpage).2.2 row hrow last List.mem_cons_self).le
        · rw [List.mem_singleton.mp hrow]
      have hlastAbove := habove last (List.mem_append_left _ hmem)
      refine ⟨hlastAbove.2.le, Or.inr (List.mem_map_of_mem hlastAbove.1), fun row hrow => ?_, ?_⟩
      · exact ⟨(habove row (List.mem_append_left _ hrow)).2, hupTo row hrow⟩
      · intro row hrow hle
        obtain hbefore | hafter := le_or_gt (key row) reader.cursor
        · exact Or.inl hbefore
        · obtain hpage | hlate := List.mem_append.mp (hlisted row hrow hafter)
          · exact Or.inr hpage
          · exact absurd hle (hlater last hmem row hlate).not_ge

theorem Reader.Sound.turn (h : reader.Sound table key start)
    (hkeys : ((table reader.state).map key).Nodup) :
    (reader.turn key (pageAfter key reader.cursor count (table reader.state))).Sound table key
      start := by
  obtain ⟨hle, hcursor, hpage, -⟩ := turn_cursor count hkeys
  obtain ⟨later, happend⟩ := pageAfter_append key reader.cursor count (table reader.state)
  have hsorted := pairwise_pageAfter reader.cursor hkeys
  rw [happend] at hsorted
  refine ⟨List.pairwise_append.mpr ⟨h.ascends, (List.pairwise_append.mp hsorted).1, ?_⟩, ?_, ?_, ?_⟩
  · exact fun row hrow row' hrow' => (h.below row hrow).trans_lt (hpage row' hrow').1
  · exact List.forall_mem_append.mpr
      ⟨fun row hrow => (h.below row hrow).trans hle, fun row hrow => (hpage row hrow).2⟩
  · refine List.forall_mem_append.mpr ⟨h.stays, fun row hrow => ?_⟩
    have hrow : row ∈ pageAfter key reader.cursor none (table reader.state) := by
      rw [happend]
      exact List.mem_append_left _ hrow
    exact List.mem_map_of_mem (mem_pageAfter_none.mp hrow).1
  · obtain hsame | hmem := hcursor
    · rw [hsame]
      exact h.cursor
    · exact Or.inr hmem

theorem Reader.Complete.turn (h : reader.Complete table key)
    (hkeys : ((table reader.state).map key).Nodup) :
    (reader.turn key (pageAfter key reader.cursor count (table reader.state))).Complete
      table key := by
  obtain ⟨-, -, -, hupTo⟩ := turn_cursor count hkeys
  intro row hrow hle
  rw [Reader.turn, List.map_append, List.mem_append]
  obtain hbefore | hpage := hupTo row hrow hle
  · exact Or.inl (h row hrow hbefore)
  · exact Or.inr (List.mem_map_of_mem hpage)

/-- Behind a page that is not full there is nothing. -/
theorem turn_drains (hkeys : ((table reader.state).map key).Nodup)
    (hshort : ∀ limit, count = some limit →
      (pageAfter key reader.cursor count (table reader.state)).length < limit) :
    ∀ row ∈ table reader.state, key row ≤
      (reader.turn key (pageAfter key reader.cursor count (table reader.state))).cursor := by
  obtain ⟨hle, -, hpage, -⟩ := turn_cursor count hkeys
  have hall : pageAfter key reader.cursor count (table reader.state) =
      pageAfter key reader.cursor none (table reader.state) := by
    cases count with
    | none => rfl
    | some limit =>
        have hlength := hshort limit rfl
        rw [pageAfter, cut, List.length_take] at hlength
        rw [pageAfter, pageAfter, cut, cut, List.take_of_length_le (by omega)]
  intro row hrow
  obtain hbefore | hafter := le_or_gt (key row) reader.cursor
  · exact hbefore.trans hle
  · refine (hpage row ?_).2
    rw [hall]
    exact mem_pageAfter_none.mpr ⟨hrow, hafter⟩

/-- A reader that has every row up to its cursor has them all with a page that is not full, each
once and by its key. -/
theorem Reader.Complete.drained (h : reader.Complete table key)
    (hsound : reader.Sound table key start) (hkeys : ((table reader.state).map key).Nodup)
    (hshort : ∀ limit, count = some limit →
      (pageAfter key reader.cursor count (table reader.state)).length < limit) :
    (reader.got ++ pageAfter key reader.cursor count (table reader.state)).map key =
      ((table reader.state).map key).mergeSort := by
  have hturned : (reader.turn key
      (pageAfter key reader.cursor count (table reader.state))).Sound table key start :=
    hsound.turn hkeys
  have hall := turn_drains hkeys hshort
  have hgot : (reader.turn key
      (pageAfter key reader.cursor count (table reader.state))).Complete table key :=
    h.turn hkeys
  rw [← Reader.turn_got]
  have hascends := List.pairwise_map.mpr hturned.ascends
  have hperm : ((reader.turn key
      (pageAfter key reader.cursor count (table reader.state))).got.map key).Perm
        ((table reader.state).map key) := by
    refine (List.perm_ext_iff_of_nodup (hascends.imp ne_of_lt) hkeys).mpr fun id => ?_
    constructor
    · intro hid
      obtain ⟨row, hrow, rfl⟩ := List.mem_map.mp hid
      exact hturned.stays row hrow
    · intro hid
      obtain ⟨row, hrow, rfl⟩ := List.mem_map.mp hid
      exact hgot row hrow (hall row hrow)
  exact (hperm.trans (List.mergeSort_perm _ _).symm).eq_of_pairwise' (hascends.imp le_of_lt)
    (List.pairwise_mergeSort' _ _)

end Turns

section Runs

variable {next : σ → α → Option σ} {fetch : σ → ℤ → β → Option (List ρ)} {table : σ → List ρ}
  {Inv : σ → Prop} (hpreserve : ∀ s a t, Inv s → Performs next s a t → Inv t)
  (hfetch : Fetches fetch table key) (hkeys : ∀ s, Inv s → ((table s).map key).Nodup)
  (hstay : ∀ s a t, Inv s → Performs next s a t → (table s).map key ⊆ (table t).map key)

include hpreserve hfetch hkeys hstay

/-- The rows that are got are told apart by ever greater keys, whatever happens meanwhile. -/
theorem sound_next {start : ℤ} {reader reader' : Reader σ ρ} {reading : Reading α β}
    (h : Inv reader.state ∧ reader.Sound table key start)
    (hstep : Performs (nextReader next fetch key) reader reading reader') :
    Inv reader'.state ∧ reader'.Sound table key start := by
  obtain ⟨hinv, hsound⟩ := h
  cases reading with
  | page request =>
      obtain ⟨page, hpage, rfl⟩ := Option.map_eq_some_iff.mp hstep
      obtain ⟨count, rfl⟩ := hfetch _ _ _ _ hpage
      exact ⟨hinv, hsound.turn (hkeys _ hinv)⟩
  | event action =>
      obtain ⟨state, hnext, rfl⟩ := Option.map_eq_some_iff.mp hstep
      have hkept := hstay _ _ _ hinv hnext
      exact ⟨hpreserve _ _ _ hinv hnext, hsound.ascends, hsound.below,
        fun row hrow => hkept (hsound.stays row hrow), hsound.cursor.imp_right fun h => hkept h⟩

/-- A reader has every row up to its cursor, and what follows from it, exactly as long as no row
appears before the cursor. -/
theorem readerComplete_iff {P : Reader σ ρ → Prop}
    (hproperty : ∀ reader : Reader σ ρ, Inv reader.state → reader.Sound table key cursor →
      reader.Complete table key → P reader)
    (hcomplete : ∀ reader, P reader → reader.Complete table key) {state : σ} (hinit : Inv state)
    (hbefore : ∀ row ∈ table state, cursor < key row) (readings : List (Reading α β)) :
    Always (Performs (nextReader next fetch key)) P ⟨state, cursor, []⟩ readings ↔
      EachStep (Performs (nextReader next fetch key))
        (fun reader _ reader' => ¬ Backfills table key reader reader'.state)
        ⟨state, cursor, []⟩ readings := by
  have hstart : (Inv state ∧ (⟨state, cursor, []⟩ : Reader σ ρ).Sound table key cursor) ∧
      (⟨state, cursor, []⟩ : Reader σ ρ).Complete table key := by
    refine ⟨⟨hinit, .nil, List.forall_mem_nil _, List.forall_mem_nil _, Or.inl rfl⟩, ?_⟩
    exact fun row hrow hle => absurd hle (hbefore row hrow).not_ge
  refine always_iff_eachStep
    (fun reader : Reader σ ρ =>
      (Inv reader.state ∧ reader.Sound table key cursor) ∧ reader.Complete table key)
    (fun reader reading reader' hinv hstep hadmitted => ?_)
    (fun reader hinv => hproperty reader hinv.1.1 hinv.1.2 hinv.2)
    (fun reader reading reader' hinv hstep hbackfills hkept => ?_) hstart readings
  · refine ⟨sound_next hpreserve hfetch hkeys hstay hinv.1 hstep, ?_⟩
    cases reading with
    | page request =>
        obtain ⟨page, hpage, rfl⟩ := Option.map_eq_some_iff.mp hstep
        obtain ⟨count, rfl⟩ := hfetch _ _ _ _ hpage
        exact hinv.2.turn (hkeys _ hinv.1.1)
    | event action =>
        obtain ⟨state, hnext, rfl⟩ := Option.map_eq_some_iff.mp hstep
        intro row hrow hle
        by_contra hmissed
        refine hadmitted ⟨row, hrow, hle, fun hold => hmissed ?_⟩
        obtain ⟨old, hold, hsame⟩ := List.mem_map.mp hold
        have hgot := hinv.2 old hold (hsame.trans_le hle)
        exact (congrArg (· ∈ reader.got.map key) hsame).mp hgot
  · obtain ⟨row, hrow, hle, hnew⟩ := not_not.mp hbackfills
    cases reading with
    | page request =>
        obtain ⟨page, -, rfl⟩ := Option.map_eq_some_iff.mp hstep
        exact hnew (List.mem_map_of_mem hrow)
    | event action =>
        obtain ⟨state, hnext, rfl⟩ := Option.map_eq_some_iff.mp hstep
        obtain ⟨got, hgot, hsame⟩ := List.mem_map.mp (hcomplete _ hkept row hrow hle)
        exact hnew (hsame ▸ hinv.1.2.stays got hgot)

end Runs

end Reader

end FeedsService.Library
