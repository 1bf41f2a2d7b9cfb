import FeedsService.Library.KeyedTable

/-!
# Single-use tickets

A ticket book issues tickets under fresh keys, keeps them pending in a keyed table,
and takes a ticket out of the table when it is spent.  Whatever else takes pending
tickets away, a key is spent at most once.
-/

namespace FeedsService.Library.Tickets

universe u v

variable {τ : Type u} {κ : Type v}

structure Book (τ : Type u) where
  issued : List τ
  pending : List τ
  spent : List τ

def Book.empty : Book τ :=
  ⟨[], [], []⟩

/-- Every ticket was issued, and no key is there twice, be it pending or spent. -/
structure Sound (key : τ → κ) (book : Book τ) : Prop where
  pendingIssued : ∀ ticket ∈ book.pending, ticket ∈ book.issued
  spentIssued : ∀ ticket ∈ book.spent, ticket ∈ book.issued
  once : ((book.spent ++ book.pending).map key).Nodup

section Keys

variable {key : τ → κ} {book : Book τ}

theorem Sound.empty : Sound key (Book.empty : Book τ) where
  pendingIssued := List.forall_mem_nil _
  spentIssued := List.forall_mem_nil _
  once := List.nodup_nil

theorem Sound.spent_nodup (h : Sound key book) : (book.spent.map key).Nodup :=
  h.once.sublist ((List.sublist_append_left _ _).map key)

theorem Sound.drop (h : Sound key book) {pending : List τ}
    (hsub : pending.Sublist book.pending) : Sound key { book with pending := pending } where
  pendingIssued ticket hticket := h.pendingIssued ticket (hsub.subset hticket)
  spentIssued := h.spentIssued
  once := h.once.sublist (((List.Sublist.refl _).append hsub).map key)

end Keys

section Steps

variable [DecidableEq κ]

/-- One step of a ticket book. -/
inductive Moves (key : τ → κ) (book : Book τ) : Book τ → Prop
  | issue {ticket : τ} (hfresh : ∀ other ∈ book.issued, key other ≠ key ticket) :
      Moves key book { book with
        issued := ticket :: book.issued
        pending := KeyedTable.put key book.pending ticket }
  | spend {ticket : τ} (hpending : ticket ∈ book.pending) :
      Moves key book { book with
        pending := KeyedTable.remove key book.pending (key ticket)
        spent := ticket :: book.spent }
  | drop {pending : List τ} (hsub : pending.Sublist book.pending) :
      Moves key book { book with pending := pending }

variable {key : τ → κ} {book book' : Book τ}

theorem Sound.issue (h : Sound key book) {ticket : τ}
    (hfresh : ∀ other ∈ book.issued, key other ≠ key ticket) :
    Sound key { book with
      issued := ticket :: book.issued
      pending := KeyedTable.put key book.pending ticket } where
  pendingIssued other hother := by
    rcases KeyedTable.mem_put.mp hother with ⟨hold, -⟩ | rfl
    · exact List.mem_cons_of_mem _ (h.pendingIssued other hold)
    · exact List.mem_cons_self
  spentIssued other hother := List.mem_cons_of_mem _ (h.spentIssued other hother)
  once := by
    rw [KeyedTable.put_of_fresh fun other hother => hfresh other (h.pendingIssued other hother),
      ← List.append_assoc]
    refine KeyedTable.Keyed.concat h.once (fun _ _ => rfl) fun other hother => ?_
    rcases List.mem_append.mp hother with hspent | hpending
    · exact hfresh other (h.spentIssued other hspent)
    · exact hfresh other (h.pendingIssued other hpending)

/-- Spending moves a ticket from one list to the other. -/
theorem Sound.spend (h : Sound key book) {ticket : τ} (hpending : ticket ∈ book.pending) :
    Sound key { book with
      pending := KeyedTable.remove key book.pending (key ticket)
      spent := ticket :: book.spent } where
  pendingIssued other hother := h.pendingIssued other (KeyedTable.mem_remove.mp hother).1
  spentIssued := List.forall_mem_cons.mpr ⟨h.pendingIssued ticket hpending, h.spentIssued⟩
  once := by
    have hrest : KeyedTable.Keyed key
        (book.spent ++ KeyedTable.remove key book.pending (key ticket)) :=
      h.once.sublist (((List.Sublist.refl _).append List.filter_sublist).map key)
    refine List.nodup_cons.mpr ⟨fun hmem => ?_, hrest⟩
    obtain ⟨other, hother, hkey⟩ := List.mem_map.mp hmem
    rcases List.mem_append.mp hother with hspent | hremains
    · have hdisjoint := (List.nodup_append.mp (List.map_append ▸ h.once)).2.2
      exact hdisjoint _ (List.mem_map_of_mem hspent) _ (List.mem_map_of_mem hpending) hkey
    · exact (KeyedTable.mem_remove.mp hremains).2 hkey

theorem Sound.moves (h : Sound key book) (hmoves : Moves key book book') : Sound key book' := by
  cases hmoves with
  | issue hfresh => exact h.issue hfresh
  | spend hpending => exact h.spend hpending
  | drop hsub => exact h.drop hsub

end Steps

end FeedsService.Library.Tickets
