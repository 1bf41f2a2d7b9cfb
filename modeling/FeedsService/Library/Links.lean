import Mathlib.Data.List.Nodup
import Mathlib.Data.Set.Basic

/-!
# Objects linked from both sides

A link object points to one object on the left and one on the right, and each of
the two keeps a list of its links.  `Linked` says that the pointers and the lists
agree: a link of a live object is in exactly the two lists of its end points, and
two objects are linked at most once.  Everything that edits the lists either adds
one link or restricts the links and the objects to some of them.
-/

namespace FeedsService.Library

universe u v w

variable {ℓ : Type u} {α : Type v} {β : Type w}

/-- The live objects `A` and `B` with their lists of links. -/
structure Linked (left : ℓ → α) (right : ℓ → β) (ofLeft : α → List ℓ)
    (ofRight : β → List ℓ) (A : Set α) (B : Set β) : Prop where
  nodup_left : ∀ a ∈ A, (ofLeft a).Nodup
  nodup_right : ∀ b ∈ B, (ofRight b).Nodup
  of_left : ∀ a ∈ A, ∀ l ∈ ofLeft a, left l = a ∧ right l ∈ B ∧ l ∈ ofRight (right l)
  of_right : ∀ b ∈ B, ∀ l ∈ ofRight b, right l = b ∧ left l ∈ A ∧ l ∈ ofLeft (left l)
  unique : ∀ a ∈ A, ∀ l ∈ ofLeft a, ∀ l' ∈ ofLeft a, right l = right l' → l = l'

namespace Linked

variable {left left' : ℓ → α} {right right' : ℓ → β} {ofLeft ofLeft' : α → List ℓ}
  {ofRight ofRight' : β → List ℓ} {A A' : Set α} {B B' : Set β}

theorem empty (left : ℓ → α) (right : ℓ → β) (ofLeft : α → List ℓ) (ofRight : β → List ℓ) :
    Linked left right ofLeft ofRight ∅ ∅ :=
  ⟨fun _ ha => ha.elim, fun _ hb => hb.elim, fun _ ha => ha.elim, fun _ hb => hb.elim,
    fun _ ha => ha.elim⟩

theorem symm (h : Linked left right ofLeft ofRight A B) :
    Linked right left ofRight ofLeft B A := by
  refine ⟨h.nodup_right, h.nodup_left, h.of_right, h.of_left, ?_⟩
  intro b hb l hl l' hl' hleft
  obtain ⟨hright, hA, hmem⟩ := h.of_right b hb l hl
  obtain ⟨hright', _, hmem'⟩ := h.of_right b hb l' hl'
  exact h.unique (left l) hA l hmem l' (hleft ▸ hmem') (hright.trans hright'.symm)

/-- A link is in the list of its right end point exactly when it is in the list
of its left one. -/
theorem mem_iff (h : Linked left right ofLeft ofRight A B) {a : α} {b : β} (ha : a ∈ A)
    (hb : b ∈ B) {l : ℓ} : l ∈ ofLeft a ∧ right l = b ↔ l ∈ ofRight b ∧ left l = a := by
  constructor
  · rintro ⟨hl, rfl⟩
    obtain ⟨hleft, _, hmem⟩ := h.of_left a ha l hl
    exact ⟨hmem, hleft⟩
  · rintro ⟨hl, rfl⟩
    obtain ⟨hright, _, hmem⟩ := h.of_right b hb l hl
    exact ⟨hmem, hright⟩

/-- What does not touch the live objects and their links. -/
theorem congr (h : Linked left right ofLeft ofRight A B)
    (hends : ∀ a ∈ A, ∀ l ∈ ofLeft a, left' l = left l ∧ right' l = right l)
    (hofLeft : ∀ a ∈ A, ofLeft' a = ofLeft a) (hofRight : ∀ b ∈ B, ofRight' b = ofRight b) :
    Linked left' right' ofLeft' ofRight' A B := by
  refine ⟨?_, ?_, ?_, ?_, ?_⟩
  · intro a ha
    rw [hofLeft a ha]
    exact h.nodup_left a ha
  · intro b hb
    rw [hofRight b hb]
    exact h.nodup_right b hb
  · intro a ha l hl
    rw [hofLeft a ha] at hl
    obtain ⟨hleft, hB, hmem⟩ := h.of_left a ha l hl
    rw [(hends a ha l hl).1, (hends a ha l hl).2, hofRight _ hB]
    exact ⟨hleft, hB, hmem⟩
  · intro b hb l hl
    rw [hofRight b hb] at hl
    obtain ⟨hright, hA, hmem⟩ := h.of_right b hb l hl
    rw [(hends _ hA l hmem).1, (hends _ hA l hmem).2, hofLeft _ hA]
    exact ⟨hright, hA, hmem⟩
  · intro a ha l hl l' hl' heq
    rw [hofLeft a ha] at hl hl'
    rw [(hends a ha l hl).2, (hends a ha l' hl').2] at heq
    exact h.unique a ha l hl l' hl' heq

/-- A new object without links. -/
theorem addLeft (h : Linked left right ofLeft ofRight A B) {a : α} (hempty : ofLeft a = []) :
    Linked left right ofLeft ofRight (insert a A) B := by
  refine ⟨?_, h.nodup_right, ?_, ?_, ?_⟩
  · rintro a' (rfl | ha')
    · rw [hempty]
      exact List.nodup_nil
    · exact h.nodup_left a' ha'
  · rintro a' (rfl | ha') l hl
    · rw [hempty] at hl
      cases hl
    · exact h.of_left a' ha' l hl
  · intro b hb l hl
    obtain ⟨hright, hA, hmem⟩ := h.of_right b hb l hl
    exact ⟨hright, .inr hA, hmem⟩
  · rintro a' (rfl | ha') l hl l' hl' heq
    · rw [hempty] at hl
      cases hl
    · exact h.unique a' ha' l hl l' hl' heq

theorem addRight (h : Linked left right ofLeft ofRight A B) {b : β} (hempty : ofRight b = []) :
    Linked left right ofLeft ofRight A (insert b B) :=
  (h.symm.addLeft hempty).symm

/-- Link two objects that are not linked yet. -/
theorem link (h : Linked left right ofLeft ofRight A B) {l : ℓ} (ha : left l ∈ A)
    (hb : right l ∈ B) (hnew : ∀ l' ∈ ofLeft (left l), right l' ≠ right l)
    (hofLeft : ofLeft' (left l) = ofLeft (left l) ++ [l])
    (hofLeft_ne : ∀ a ∈ A, a ≠ left l → ofLeft' a = ofLeft a)
    (hofRight : ofRight' (right l) = ofRight (right l) ++ [l])
    (hofRight_ne : ∀ b ∈ B, b ≠ right l → ofRight' b = ofRight b) :
    Linked left right ofLeft' ofRight' A B := by
  have hnotRight : ∀ l' ∈ ofRight (right l), left l' ≠ left l := by
    intro l' hl' heq
    obtain ⟨hright, _, hmem⟩ := h.of_right _ hb l' hl'
    exact hnew l' (heq ▸ hmem) hright
  have hleftMem : ∀ a ∈ A, ∀ l', l' ∈ ofLeft' a ↔
      l' ∈ ofLeft a ∨ (a = left l ∧ l' = l) := by
    intro a haA l'
    by_cases hsame : a = left l
    · rw [hsame, hofLeft]
      simp
    · rw [hofLeft_ne a haA hsame]
      simp [hsame]
  have hrightMem : ∀ b ∈ B, ∀ l', l' ∈ ofRight' b ↔
      l' ∈ ofRight b ∨ (b = right l ∧ l' = l) := by
    intro b hbB l'
    by_cases hsame : b = right l
    · rw [hsame, hofRight]
      simp
    · rw [hofRight_ne b hbB hsame]
      simp [hsame]
  refine ⟨?_, ?_, ?_, ?_, ?_⟩
  · intro a haA
    by_cases hsame : a = left l
    · rw [hsame, hofLeft, ← List.concat_eq_append, List.nodup_concat]
      exact ⟨fun hmem => hnew l hmem rfl, h.nodup_left _ ha⟩
    · rw [hofLeft_ne a haA hsame]
      exact h.nodup_left a haA
  · intro b hbB
    by_cases hsame : b = right l
    · rw [hsame, hofRight, ← List.concat_eq_append, List.nodup_concat]
      exact ⟨fun hmem => hnotRight l hmem rfl, h.nodup_right _ hb⟩
    · rw [hofRight_ne b hbB hsame]
      exact h.nodup_right b hbB
  · intro a haA l' hl'
    rcases (hleftMem a haA l').mp hl' with hold | ⟨rfl, rfl⟩
    · obtain ⟨hleft, hB, hmem⟩ := h.of_left a haA l' hold
      exact ⟨hleft, hB, (hrightMem _ hB l').mpr (.inl hmem)⟩
    · exact ⟨rfl, hb, (hrightMem _ hb _).mpr (.inr ⟨rfl, rfl⟩)⟩
  · intro b hbB l' hl'
    rcases (hrightMem b hbB l').mp hl' with hold | ⟨rfl, rfl⟩
    · obtain ⟨hright, hA, hmem⟩ := h.of_right b hbB l' hold
      exact ⟨hright, hA, (hleftMem _ hA l').mpr (.inl hmem)⟩
    · exact ⟨rfl, ha, (hleftMem _ ha _).mpr (.inr ⟨rfl, rfl⟩)⟩
  · intro a haA l₁ hl₁ l₂ hl₂ heq
    rcases (hleftMem a haA l₁).mp hl₁ with hold₁ | ⟨rfl, rfl⟩
    · rcases (hleftMem a haA l₂).mp hl₂ with hold₂ | ⟨rfl, rfl⟩
      · exact h.unique a haA l₁ hold₁ l₂ hold₂ heq
      · exact absurd heq (hnew l₁ hold₁)
    · rcases (hleftMem _ haA l₂).mp hl₂ with hold₂ | ⟨_, rfl⟩
      · exact absurd heq.symm (hnew l₂ hold₂)
      · rfl

/-- Restrict to the links that satisfy `keep` and to some of the objects. -/
theorem restrict (h : Linked left right ofLeft ofRight A B) (keep : ℓ → Prop)
    (hA : A' ⊆ A) (hB : B' ⊆ B)
    (hleft : ∀ a ∈ A', (ofLeft' a).Nodup ∧ ∀ l, l ∈ ofLeft' a ↔ l ∈ ofLeft a ∧ keep l)
    (hright : ∀ b ∈ B', (ofRight' b).Nodup ∧ ∀ l, l ∈ ofRight' b ↔ l ∈ ofRight b ∧ keep l)
    (hkeepB : ∀ a ∈ A', ∀ l ∈ ofLeft a, keep l → right l ∈ B')
    (hkeepA : ∀ b ∈ B', ∀ l ∈ ofRight b, keep l → left l ∈ A') :
    Linked left right ofLeft' ofRight' A' B' := by
  refine ⟨fun a ha => (hleft a ha).1, fun b hb => (hright b hb).1, ?_, ?_, ?_⟩
  · intro a ha l hl
    obtain ⟨hold, hkeep⟩ := ((hleft a ha).2 l).mp hl
    obtain ⟨hend, _, hmem⟩ := h.of_left a (hA ha) l hold
    have hb := hkeepB a ha l hold hkeep
    exact ⟨hend, hb, ((hright _ hb).2 l).mpr ⟨hmem, hkeep⟩⟩
  · intro b hb l hl
    obtain ⟨hold, hkeep⟩ := ((hright b hb).2 l).mp hl
    obtain ⟨hend, _, hmem⟩ := h.of_right b (hB hb) l hold
    have ha := hkeepA b hb l hold hkeep
    exact ⟨hend, ha, ((hleft _ ha).2 l).mpr ⟨hmem, hkeep⟩⟩
  · intro a ha l hl l' hl' heq
    exact h.unique a (hA ha) l (((hleft a ha).2 l).mp hl).1 l' (((hleft a ha).2 l').mp hl').1
      heq

/-- One right object takes the place of another, together with its links. -/
theorem replaceRight (h : Linked left right ofLeft ofRight A B) {b b' : β} (hb : b ∈ B)
    (hb' : b' ∉ B) (hends : ∀ l ∈ ofRight b, right' l = b')
    (hends_ne : ∀ a ∈ A, ∀ l ∈ ofLeft a, l ∉ ofRight b → right' l = right l)
    (hofRight : ofRight' b' = ofRight b)
    (hofRight_ne : ∀ other ∈ B, other ≠ b → ofRight' other = ofRight other)
    (hB' : ∀ other, other ∈ B' ↔ (other ∈ B ∧ other ≠ b) ∨ other = b') :
    Linked left right' ofLeft ofRight' A B' := by
  have hsplit : ∀ a ∈ A, ∀ l ∈ ofLeft a,
      (right l = b ∧ right' l = b' ∧ l ∈ ofRight b) ∨ (right l ≠ b ∧ right' l = right l) := by
    intro a ha l hl
    obtain ⟨_, hB, hmem⟩ := h.of_left a ha l hl
    by_cases hsame : right l = b
    · rw [hsame] at hmem
      exact .inl ⟨hsame, hends l hmem, hmem⟩
    · refine .inr ⟨hsame, hends_ne a ha l hl fun hin => hsame ?_⟩
      exact (h.of_right b hb l hin).1
  refine ⟨h.nodup_left, ?_, ?_, ?_, ?_⟩
  · intro other hother
    rcases (hB' other).mp hother with ⟨hold, hne⟩ | rfl
    · rw [hofRight_ne other hold hne]
      exact h.nodup_right other hold
    · rw [hofRight]
      exact h.nodup_right b hb
  · intro a ha l hl
    obtain ⟨hleft, hB, hmem⟩ := h.of_left a ha l hl
    rcases hsplit a ha l hl with ⟨hsame, hnew, hin⟩ | ⟨hne, hkept⟩
    · rw [hnew, hofRight]
      exact ⟨hleft, (hB' b').mpr (.inr rfl), hin⟩
    · rw [hkept, hofRight_ne _ hB hne]
      exact ⟨hleft, (hB' _).mpr (.inl ⟨hB, hne⟩), hmem⟩
  · intro other hother l hl
    rcases (hB' other).mp hother with ⟨hold, hne⟩ | rfl
    · rw [hofRight_ne other hold hne] at hl
      obtain ⟨hright, hA, hmem⟩ := h.of_right other hold l hl
      rcases hsplit _ hA l hmem with ⟨hsame, _, _⟩ | ⟨_, hkept⟩
      · exact absurd (hright.symm.trans hsame) hne
      · exact ⟨hkept.trans hright, hA, hmem⟩
    · rw [hofRight] at hl
      obtain ⟨_, hA, hmem⟩ := h.of_right b hb l hl
      exact ⟨hends l hl, hA, hmem⟩
  · intro a ha l hl l' hl' heq
    obtain ⟨_, hB, _⟩ := h.of_left a ha l hl
    obtain ⟨_, hB₂, _⟩ := h.of_left a ha l' hl'
    refine h.unique a ha l hl l' hl' ?_
    rcases hsplit a ha l hl with ⟨hsame, hnew, _⟩ | ⟨_, hkept⟩
    · rcases hsplit a ha l' hl' with ⟨hsame', _, _⟩ | ⟨_, hkept'⟩
      · rw [hsame, hsame']
      · exact absurd (heq.symm.trans hnew) (by rw [hkept']; exact fun h => hb' (h ▸ hB₂))
    · rcases hsplit a ha l' hl' with ⟨_, hnew', _⟩ | ⟨_, hkept'⟩
      · exact absurd (heq.trans hnew') (by rw [hkept]; exact fun h => hb' (h ▸ hB))
      · rw [← hkept, heq, hkept']

end Linked

end FeedsService.Library
