import Mathlib.Data.List.Forall2
import Mathlib.Tactic.ByContra

/-!
# Records read by position

A reader that knows its fields goes through a list of entries in one pass: a
field takes the next entry when that entry is its own, and is absent
otherwise.  `Scans` says which values a list of entries gives the fields, and
`scan` computes them.
-/

namespace FeedsService.Library

universe u v w

variable {φ : Type u} {ε : Type v} {ν : Type w}

/-- `Scans pick fields entries values`: read in order, the entries give the
fields these values.  An absent field leaves the next entry to its
successor. -/
inductive Scans (pick : φ → ε → Option ν) : List φ → List ε → List (Option ν) → Prop
  | done (entries : List ε) : Scans pick [] entries []
  | found {field : φ} {fields : List φ} {entry : ε} {entries : List ε} {value : ν}
      {values : List (Option ν)} (hvalue : pick field entry = some value)
      (hrest : Scans pick fields entries values) :
      Scans pick (field :: fields) (entry :: entries) (some value :: values)
  | absent {field : φ} {fields : List φ} {entries : List ε} {values : List (Option ν)}
      (hnone : ∀ entry ∈ entries.head?, pick field entry = none)
      (hrest : Scans pick fields entries values) :
      Scans pick (field :: fields) entries (none :: values)

/-- The value of the first field and the entries left for the others. -/
def take (pick : φ → ε → Option ν) (field : φ) (entries : List ε) : Option ν × List ε :=
  match entries with
  | [] => (none, [])
  | entry :: rest =>
    match pick field entry with
    | some value => (some value, rest)
    | none => (none, entry :: rest)

def scan (pick : φ → ε → Option ν) : List φ → List ε → List (Option ν)
  | [], _ => []
  | field :: fields, entries =>
    (take pick field entries).1 :: scan pick fields (take pick field entries).2

section Scan

variable {pick : φ → ε → Option ν}

theorem take_some {field : φ} {entries : List ε} {value : ν}
    (hvalue : (take pick field entries).1 = some value) :
    ∃ entry rest, entries = entry :: rest ∧ pick field entry = some value ∧
      take pick field entries = (some value, rest) := by
  cases entries with
  | nil => cases hvalue
  | cons entry rest =>
      simp only [take] at hvalue ⊢
      cases hpick : pick field entry with
      | none =>
          rw [hpick] at hvalue
          cases hvalue
      | some found =>
          rw [hpick] at hvalue
          cases hvalue
          exact ⟨entry, rest, rfl, hpick, rfl⟩

theorem take_none {field : φ} {entries : List ε}
    (hnone : (take pick field entries).1 = none) :
    (∀ entry ∈ entries.head?, pick field entry = none) ∧
      take pick field entries = (none, entries) := by
  cases entries with
  | nil => exact ⟨by simp, rfl⟩
  | cons entry rest =>
      simp only [take] at hnone ⊢
      cases hpick : pick field entry with
      | none => exact ⟨by simpa using hpick, rfl⟩
      | some found =>
          rw [hpick] at hnone
          cases hnone

theorem scans_scan (fields : List φ) (entries : List ε) :
    Scans pick fields entries (scan pick fields entries) := by
  induction fields generalizing entries with
  | nil => exact .done entries
  | cons field fields ih =>
      rw [scan]
      cases hvalue : (take pick field entries).1 with
      | none =>
          obtain ⟨hnone, htake⟩ := take_none hvalue
          rw [htake]
          exact .absent hnone (ih entries)
      | some value =>
          obtain ⟨entry, rest, rfl, hpick, htake⟩ := take_some hvalue
          rw [htake]
          exact .found hpick (ih rest)

/-- The entries determine the values. -/
theorem Scans.eq_scan {fields : List φ} {entries : List ε} {values : List (Option ν)}
    (h : Scans pick fields entries values) : values = scan pick fields entries := by
  induction h with
  | done entries => rfl
  | found hvalue hrest ih => simp only [scan, take, hvalue, ih]
  | @absent field fields entries values hnone hrest ih =>
      cases entries with
      | nil => simp only [scan, take, ih]
      | cons entry rest =>
          have hpick : pick field entry = none := hnone entry rfl
          simp only [scan, take, hpick, ih]

@[simp]
theorem length_scan (fields : List φ) (entries : List ε) :
    (scan pick fields entries).length = fields.length := by
  induction fields generalizing entries with
  | nil => rfl
  | cons field fields ih => rw [scan, List.length_cons, ih, List.length_cons]

/-- A field gets its value from an entry. -/
theorem pick_of_mem_zip_scan {fields : List φ} {entries : List ε} {field : φ} {value : ν}
    (h : (field, some value) ∈ fields.zip (scan pick fields entries)) :
    ∃ entry, pick field entry = some value := by
  induction fields generalizing entries with
  | nil => cases h
  | cons first fields ih =>
      rw [scan, List.zip_cons_cons, List.mem_cons] at h
      rcases h with hfirst | hrest
      · obtain ⟨rfl, hvalue⟩ := Prod.mk.inj hfirst
        obtain ⟨entry, -, -, hpick, -⟩ := take_some hvalue.symm
        exact ⟨entry, hpick⟩
      · exact ih hrest

/-- Each field has its own entry, so the fields behind them read what follows. -/
theorem scan_append {fields more : List φ} {entries extra : List ε}
    (hfound : List.Forall₂ (fun field entry => (pick field entry).isSome = true) fields entries) :
    scan pick (fields ++ more) (entries ++ extra) =
      scan pick fields entries ++ scan pick more extra := by
  induction hfound with
  | nil => rfl
  | cons hentry _ ih =>
      obtain ⟨value, hvalue⟩ := Option.isSome_iff_exists.mp hentry
      simp only [List.cons_append, scan, take, hvalue, ih]

theorem isSome_of_scan {fields : List φ} {entries : List ε}
    (hfound : List.Forall₂ (fun field entry => (pick field entry).isSome = true) fields entries) :
    ∀ value ∈ scan pick fields entries, value.isSome = true := by
  induction hfound with
  | nil => exact List.forall_mem_nil _
  | cons hentry _ ih =>
      obtain ⟨value, hvalue⟩ := Option.isSome_iff_exists.mp hentry
      simp only [scan, take, hvalue]
      exact List.forall_mem_cons.mpr ⟨rfl, ih⟩

/-- No field passes over an entry that none of them takes. -/
theorem scan_of_none {fields : List φ} {entry : ε} {entries : List ε}
    (hnone : ∀ field ∈ fields, pick field entry = none) :
    ∀ field ∈ fields, (field, none) ∈ fields.zip (scan pick fields (entry :: entries)) := by
  induction fields with
  | nil => exact fun field hfield => absurd hfield List.not_mem_nil
  | cons first fields ih =>
      obtain ⟨hfirst, hrest⟩ := List.forall_mem_cons.mp hnone
      simp only [scan, take, hfirst, List.zip_cons_cons]
      intro field hfield
      rcases List.mem_cons.mp hfield with rfl | hlater
      · exact List.mem_cons_self
      · exact List.mem_cons_of_mem _ (ih hrest field hlater)

/-- When each entry belongs to its own field only, and one does not fit, its field and all
fields behind it are absent. -/
theorem scan_of_misfit {owns : φ → ε → Prop} {fields more : List φ} {entries extra : List ε}
    (howns : List.Forall₂ owns fields entries)
    (hpick : ∀ field entry, (pick field entry).isSome = true → owns field entry)
    (hapart : (fields ++ more).Pairwise fun left right => ∀ entry, owns left entry →
      ¬ owns right entry)
    (hmisfit : ¬ List.Forall₂ (fun field entry => (pick field entry).isSome = true)
      fields entries) :
    (∃ field, (field, none) ∈ fields.zip (scan pick fields entries)) ∧
      ∀ field ∈ more,
        (field, none) ∈ (fields ++ more).zip (scan pick (fields ++ more) (entries ++ extra)) := by
  induction howns with
  | nil => exact absurd .nil hmisfit
  | @cons field entry fields entries hentry hrest ih =>
      rw [List.cons_append, List.pairwise_cons] at hapart
      cases hvalue : pick field entry with
      | some value =>
          have hmisfit' : ¬ List.Forall₂ (fun field entry => (pick field entry).isSome = true)
              fields entries :=
            fun hfound => hmisfit (.cons (by rw [hvalue, Option.isSome_some]) hfound)
          obtain ⟨⟨absent, habsent⟩, hmore⟩ := ih hapart.2 hmisfit'
          simp only [List.cons_append, scan, take, hvalue, List.zip_cons_cons]
          exact ⟨⟨absent, List.mem_cons_of_mem _ habsent⟩,
            fun later hlater => List.mem_cons_of_mem _ (hmore later hlater)⟩
      | none =>
          have hnone : ∀ later ∈ fields ++ more, pick later entry = none := by
            intro later hlater
            by_contra hsome
            exact hapart.1 later hlater entry hentry
              (hpick later entry (Option.isSome_iff_ne_none.mpr hsome))
          simp only [List.cons_append, scan, take, hvalue, List.zip_cons_cons]
          refine ⟨⟨field, List.mem_cons_self⟩, fun later hlater => List.mem_cons_of_mem _ ?_⟩
          exact scan_of_none hnone later (List.mem_append_right _ hlater)

end Scan

end FeedsService.Library
