import Mathlib.Algebra.BigOperators.Group.List.Basic
import Mathlib.Algebra.GroupWithZero.Nat
import Mathlib.Data.List.TakeWhile
import Mathlib.Data.Nat.Notation
import Mathlib.Tactic.Tauto

/-!
# Splitting a list under a budget

A loop goes through a list, takes each item from a budget of unsigned machine
integers and collects the items in a chunk.  It sends the chunk when the budget
is used up, at the last item, and when a look-ahead finds that the budget does not
cover what comes next.  Then it begins a new chunk with a new budget.

`Loop.run` reads the list by index, as the loops do; `Loop.walk` goes along the
list.  The last section says in natural numbers when the budget wraps and when a
chunk outgrows the limit.
-/

namespace FeedsService.Library.Chunking

structure Loop (α : Type) where
  /-- What is subtracted from the budget for an item, one after the other. -/
  amounts : α → List UInt64
  /-- What the look-ahead asks for an item. -/
  needed : α → UInt64
  /-- The look-ahead reads the item at hand again, and not the next one. -/
  rereads : Bool := false

inductive Event (α : Type)
  | subtract (left amount : UInt64)
  | send (isLast : Bool) (chunk : List α)

variable {α : Type}

def subtractions (left : UInt64) : List UInt64 → List (Event α)
  | [] => []
  | amount :: amounts => .subtract left amount :: subtractions (left - amount) amounts

/-- The budget after the subtractions. -/
def leftAfter (left : UInt64) (amounts : List UInt64) : UInt64 :=
  amounts.foldl (fun left amount => left - amount) left

/-- The chunks that are sent, each with whether it is the last one. -/
def sent (events : List (Event α)) : List (Bool × List α) :=
  events.filterMap fun event =>
    match event with
    | .subtract _ _ => none
    | .send isLast chunk => some (isLast, chunk)

/-- No subtraction takes more than there is. -/
def NeverWraps (events : List (Event α)) : Prop :=
  ∀ left amount, .subtract left amount ∈ events → amount ≤ left

namespace Loop

variable (loop : Loop α) (limit : UInt64)

/-- The index that the look-ahead reads. -/
def ahead (i : ℕ) : ℕ :=
  if loop.rereads then i else i + 1

/-- Whether the chunk is sent after the item `i`; none when the look-ahead reads past
the end. -/
def sends (items : List α) (i : ℕ) (left : UInt64) : Option Bool :=
  if left = 0 ∨ i + 1 = items.length then
    some true
  else
    items[loop.ahead i]?.map fun item => left < loop.needed item

/-- The loop from the item `i` on, with `n` items to go; none when it reads past the
end. -/
def run (items : List α) : ℕ → ℕ → UInt64 → List α → Option (List (Event α))
  | 0, _, _, _ => some []
  | n + 1, i, left, chunk => do
    let item ← items[i]?
    let left' := leftAfter left (loop.amounts item)
    let chunk' := chunk ++ [item]
    let events := subtractions left (loop.amounts item)
    if ← loop.sends items i left' then
      let rest ← run items n (i + 1) limit []
      return events ++ .send (i + 1 = items.length) chunk' :: rest
    else
      let rest ← run items n (i + 1) left' chunk'
      return events ++ rest

/-- The loop over a whole list. -/
def events (items : List α) : Option (List (Event α)) :=
  loop.run limit items items.length 0 limit []

/-- The replies to a request: the chunks of the loop, or an empty one. -/
def replies (items : List α) : Option (List (Bool × List α)) :=
  if items = [] then
    some [(true, [])]
  else
    (loop.events limit items).map sent

/-- The item that the look-ahead reads. -/
def read (item next : α) : α :=
  if loop.rereads then item else next

/-- The loop along the items that are left. -/
def walk : UInt64 → List α → List α → List (Event α)
  | _, _, [] => []
  | left, chunk, [item] =>
      subtractions left (loop.amounts item) ++ [.send true (chunk ++ [item])]
  | left, chunk, item :: next :: rest =>
      let left' := leftAfter left (loop.amounts item)
      subtractions left (loop.amounts item) ++
        if left' = 0 ∨ left' < loop.needed (loop.read item next) then
          .send false (chunk ++ [item]) :: walk limit [] (next :: rest)
        else
          walk left' (chunk ++ [item]) (next :: rest)

variable {loop limit}

theorem read_ahead {before rest : List α} {item next : α} :
    (before ++ item :: next :: rest)[loop.ahead before.length]? = some (loop.read item next) := by
  rw [ahead, read]
  split
  · simp
  · simp

/-- The loop never reads past the end of the list. -/
theorem run_eq_walk (items rest before : List α) (hitems : items = before ++ rest)
    (left : UInt64) (chunk : List α) :
    loop.run limit items rest.length before.length left chunk =
      some (loop.walk limit left chunk rest) := by
  induction rest generalizing before left chunk with
  | nil => rfl
  | cons item rest ih =>
      have hstep : items = (before ++ [item]) ++ rest := by simp [hitems]
      have hread : items[before.length]? = some item := by simp [hitems]
      have hlength : (before ++ [item]).length = before.length + 1 := by simp
      have hrest := ih (before ++ [item]) hstep
      rw [hlength] at hrest
      rw [List.length_cons, run, hread]
      cases rest with
      | nil =>
          have hlast : before.length + 1 = items.length := by simp [hitems]
          simp [sends, hlast, run, walk]
      | cons next rest =>
          have hmore : before.length + 1 ≠ items.length := by simp [hitems]
          have hahead : items[loop.ahead before.length]? = some (loop.read item next) := by
            rw [hitems]
            exact read_ahead
          simp only [List.length_cons] at hrest
          simp only [walk, sends, hmore, or_false, hahead, Option.map_some]
          by_cases hempty : leftAfter left (loop.amounts item) = 0
          · simp [hempty, hrest]
          · by_cases hshort : leftAfter left (loop.amounts item) <
                loop.needed (loop.read item next)
            · simp [hempty, hshort, hrest]
            · simp [hempty, hshort, hrest]

theorem events_eq_walk (items : List α) :
    loop.events limit items = some (loop.walk limit limit [] items) :=
  run_eq_walk items items [] rfl limit []

/-- A list with an item in it is answered by the chunks of the loop. -/
theorem replies_eq_sent {items : List α} (hitems : items ≠ []) :
    loop.replies limit items = some (sent (loop.walk limit limit [] items)) := by
  rw [replies, if_neg hitems, events_eq_walk]
  rfl

end Loop

section Sent

/-- The chunks are the list, cut into pieces of at least one item unless there is none,
and the last one and no other is marked. -/
structure Lossless (items : List α) (chunks : List (Bool × List α)) : Prop where
  concat : chunks.flatMap Prod.snd = items
  nonempty : items ≠ [] → ∀ chunk ∈ chunks, chunk.2 ≠ []
  marks : ∃ before chunk, chunks = before ++ [(true, chunk)] ∧ ∀ other ∈ before, other.1 = false

@[simp]
theorem sent_nil : sent ([] : List (Event α)) = [] := rfl

@[simp]
theorem sent_cons_send (isLast : Bool) (chunk : List α) (events : List (Event α)) :
    sent (.send isLast chunk :: events) = (isLast, chunk) :: sent events := rfl

@[simp]
theorem sent_append (first second : List (Event α)) :
    sent (first ++ second) = sent first ++ sent second := List.filterMap_append

@[simp]
theorem sent_subtractions (left : UInt64) (amounts : List UInt64) :
    sent (subtractions left amounts : List (Event α)) = [] := by
  induction amounts generalizing left with
  | nil => rfl
  | cons amount amounts ih => exact ih (left - amount)

variable {loop : Loop α} {limit : UInt64}

/-- A chunk that is begun goes on with the rest of the list. -/
theorem Loop.walk_lossless (left : UInt64) (chunk : List α) (items : List α) (hne : items ≠ []) :
    Lossless (chunk ++ items) (sent (loop.walk limit left chunk items)) := by
  induction items generalizing left chunk with
  | nil => exact absurd rfl hne
  | cons item rest ih =>
      cases rest with
      | nil =>
          refine ⟨by simp [walk], ?_, [], chunk ++ [item], by simp [walk], by simp⟩
          intro _ last hlast
          simp only [walk, sent_append, sent_subtractions, sent_cons_send, sent_nil,
            List.nil_append, List.mem_singleton] at hlast
          simp [hlast]
      | cons next rest =>
          rw [walk]
          simp only [sent_append, sent_subtractions, List.nil_append]
          split
          · obtain ⟨hconcat, hnonempty, before, last, hlast, hmarks⟩ :=
              ih limit [] (List.cons_ne_nil next rest)
            rw [sent_cons_send]
            refine ⟨?_, ?_, (false, chunk ++ [item]) :: before, last, ?_, ?_⟩
            · simp [hconcat]
            · intro _
              simpa using hnonempty (by simp)
            · rw [hlast, List.cons_append]
            · simpa using hmarks
          · have hrest := ih (leftAfter left (loop.amounts item)) (chunk ++ [item])
              (List.cons_ne_nil next rest)
            simpa using hrest

/-- The replies exist, so that nothing past the end is read, and lose nothing. -/
theorem Loop.replies_lossless (items : List α) :
    ∃ chunks, loop.replies limit items = some chunks ∧ Lossless items chunks := by
  by_cases hitems : items = []
  · refine ⟨[(true, [])], if_pos hitems, ?_⟩
    subst hitems
    exact ⟨rfl, fun h => absurd rfl h, [], [], rfl, by simp⟩
  · exact ⟨_, replies_eq_sent hitems, walk_lossless limit [] items hitems⟩

end Sent

section Budget

/-- The sum of a measure over a list. -/
def total (measure : α → ℕ) (items : List α) : ℕ :=
  (items.map measure).sum

@[simp]
theorem total_nil (measure : α → ℕ) : total measure [] = 0 := rfl

@[simp]
theorem total_cons (measure : α → ℕ) (item : α) (items : List α) :
    total measure (item :: items) = measure item + total measure items := by
  simp [total]

@[simp]
theorem total_append (measure : α → ℕ) (first second : List α) :
    total measure (first ++ second) = total measure first + total measure second := by
  simp [total]

namespace Loop

variable (loop : Loop α) (limit : UInt64)

/-- What an item takes from the budget in all. -/
def taken (item : α) : ℕ :=
  ((loop.amounts item).map UInt64.toNat).sum

/-- Whether the chunk is kept for the next item after `item`.  A budget that was
exceeded has wrapped, and covers whatever comes next. -/
def Joins (chunk : List α) (item next : α) : Prop :=
  let used := total loop.taken (chunk ++ [item])
  limit.toNat < used ∨
    used < limit.toNat ∧ used + (loop.needed (loop.read item next)).toNat ≤ limit.toNat

instance (chunk : List α) (item next : α) : Decidable (loop.Joins limit chunk item next) :=
  inferInstanceAs (Decidable (_ ∨ _))

/-- Every item that joins a chunk finds room in it, by the measure `payload`. -/
def JoinsFit (payload : α → ℕ) : List α → List α → Prop
  | _, [] => True
  | _, [_] => True
  | chunk, item :: next :: rest =>
      if loop.Joins limit chunk item next then
        total payload (chunk ++ [item, next]) ≤ limit.toNat ∧
          JoinsFit payload (chunk ++ [item]) (next :: rest)
      else
        JoinsFit payload [] (next :: rest)

end Loop

theorem leftAfter_eq (left : UInt64) (amounts : List UInt64) :
    leftAfter left amounts = left - .ofNat (amounts.map UInt64.toNat).sum := by
  induction amounts generalizing left with
  | nil => simp [leftAfter]
  | cons amount amounts ih =>
      have hstep : leftAfter left (amount :: amounts) = leftAfter (left - amount) amounts := rfl
      rw [hstep, ih, List.map_cons, List.sum_cons, UInt64.ofNat_add, UInt64.ofNat_toNat]
      grind

variable {loop : Loop α} {limit : UInt64}

variable (limit) in
/-- The budget when `used` was taken from it. -/
theorem toNat_sub_ofNat {used : ℕ} (hused : used < 2 ^ 64) :
    (limit - .ofNat used).toNat =
      if used ≤ limit.toNat then limit.toNat - used else 2 ^ 64 + limit.toNat - used := by
  have hlimit := limit.toNat_lt
  rw [UInt64.toNat_sub, UInt64.toNat_ofNat']
  split <;> omega

theorem sub_ofNat_zero : limit - .ofNat 0 = limit := by
  simp

theorem leftAfter_total (chunk : List α) (item : α) :
    leftAfter (limit - .ofNat (total loop.taken chunk)) (loop.amounts item) =
      limit - .ofNat (total loop.taken (chunk ++ [item])) := by
  have htaken : ((loop.amounts item).map UInt64.toNat).sum = loop.taken item := rfl
  rw [leftAfter_eq, total_append, total_cons, total_nil, Nat.add_zero, UInt64.ofNat_add, htaken]
  grind

/-- The chunk is not sent after an item exactly when the next one joins it. -/
theorem Loop.joins_iff {chunk : List α} {item next : α}
    (hroom : total loop.taken (chunk ++ [item]) ≤ limit.toNat ∨
      total loop.taken (chunk ++ [item]) + (loop.needed (loop.read item next)).toNat < 2 ^ 64) :
    loop.Joins limit chunk item next ↔
      ¬(limit - .ofNat (total loop.taken (chunk ++ [item])) = 0 ∨
        limit - .ofNat (total loop.taken (chunk ++ [item])) <
          loop.needed (loop.read item next)) := by
  have hlimit := limit.toNat_lt
  have hused : total loop.taken (chunk ++ [item]) < 2 ^ 64 := by omega
  have hleft := toNat_sub_ofNat limit hused
  rw [← UInt64.toNat_inj, UInt64.lt_iff_toNat_lt, hleft, UInt64.toNat_zero, Joins]
  split <;> omega

theorem NeverWraps.append {first second : List (Event α)} :
    NeverWraps (first ++ second) ↔ NeverWraps first ∧ NeverWraps second := by
  simp only [NeverWraps, List.mem_append]
  exact ⟨fun h => ⟨fun l a ha => h l a (.inl ha), fun l a ha => h l a (.inr ha)⟩,
    fun h l a ha => ha.elim (h.1 l a) (h.2 l a)⟩

theorem NeverWraps.send {isLast : Bool} {chunk : List α} {events : List (Event α)} :
    NeverWraps (.send isLast chunk :: events) ↔ NeverWraps events := by
  simp [NeverWraps]

/-- Subtractions one after the other wrap when their sum is too much. -/
theorem neverWraps_subtractions (left : UInt64) (amounts : List UInt64) :
    NeverWraps (subtractions left amounts : List (Event α)) ↔
      (amounts.map UInt64.toNat).sum ≤ left.toNat := by
  induction amounts generalizing left with
  | nil => simp [subtractions, NeverWraps]
  | cons amount amounts ih =>
      have hcons : NeverWraps (subtractions left (amount :: amounts) : List (Event α)) ↔
          amount ≤ left ∧ NeverWraps (subtractions (left - amount) amounts : List (Event α)) := by
        simp [NeverWraps, subtractions, or_imp, forall_and]
      rw [hcons, ih, List.map_cons, List.sum_cons, UInt64.le_iff_toNat_le]
      constructor
      · rintro ⟨hamount, hrest⟩
        rw [UInt64.toNat_sub_of_le _ _ hamount] at hrest
        omega
      · intro hsum
        have hamount : amount.toNat ≤ left.toNat := by omega
        refine ⟨hamount, ?_⟩
        rw [UInt64.toNat_sub_of_le _ _ hamount]
        omega

/-- The budget never wraps when no item is larger than the limit and every item that
joins a chunk fits into what is left. -/
theorem Loop.neverWraps_walk (chunk items : List α)
    (hused : total loop.taken chunk ≤ limit.toNat) :
    NeverWraps (loop.walk limit (limit - .ofNat (total loop.taken chunk)) chunk items) ↔
      (∀ item ∈ items.head?, total loop.taken (chunk ++ [item]) ≤ limit.toNat) ∧
        (∀ item ∈ items, loop.taken item ≤ limit.toNat) ∧
          loop.JoinsFit limit loop.taken chunk items := by
  induction items generalizing chunk with
  | nil => simp [walk, NeverWraps, JoinsFit]
  | cons item rest ih =>
      have hlimit := limit.toNat_lt
      have hleft := toNat_sub_ofNat limit (Nat.lt_of_le_of_lt hused hlimit)
      rw [if_pos hused] at hleft
      have hfirst : NeverWraps (subtractions (limit - .ofNat (total loop.taken chunk))
          (loop.amounts item) : List (Event α)) ↔
            total loop.taken (chunk ++ [item]) ≤ limit.toNat := by
        have htaken : ((loop.amounts item).map UInt64.toNat).sum = loop.taken item := rfl
        rw [neverWraps_subtractions, hleft, htaken, total_append, total_cons, total_nil]
        omega
      cases rest with
      | nil =>
          rw [walk, NeverWraps.append, NeverWraps.send, hfirst]
          simp [NeverWraps, JoinsFit]
          omega
      | cons next rest =>
          rw [walk, NeverWraps.append, hfirst, leftAfter_total]
          by_cases hfits : total loop.taken (chunk ++ [item]) ≤ limit.toNat
          · have hitem : loop.taken item ≤ limit.toNat := by
              rw [total_append, total_cons] at hfits
              omega
            by_cases hjoins : loop.Joins limit chunk item next
            · rw [if_neg ((joins_iff (.inl hfits)).mp hjoins), ih _ hfits, JoinsFit,
                if_pos hjoins]
              simp only [List.head?_cons, Option.mem_some_iff, forall_eq', List.mem_cons,
                forall_eq_or_imp, List.append_assoc, List.cons_append, List.nil_append]
              tauto
            · have hstart := ih [] (Nat.zero_le _)
              rw [total_nil, sub_ofNat_zero] at hstart
              rw [if_pos (not_not.mp ((joins_iff (.inl hfits)).not.mp hjoins)),
                NeverWraps.send, hstart, JoinsFit, if_neg hjoins]
              simp only [List.head?_cons, Option.mem_some_iff, forall_eq', List.mem_cons,
                forall_eq_or_imp, List.nil_append, total_cons, total_nil, Nat.add_zero]
              tauto
          · exact ⟨fun h => absurd h.1 hfits, fun h => absurd (h.1 item rfl) hfits⟩

theorem Loop.neverWraps_events (items : List α) :
    (∀ events ∈ loop.events limit items, NeverWraps events) ↔
      (∀ item ∈ items, loop.taken item ≤ limit.toNat) ∧
        loop.JoinsFit limit loop.taken [] items := by
  have hwalk : NeverWraps (loop.walk limit _ [] items) ↔ _ :=
    neverWraps_walk [] items (Nat.zero_le _)
  rw [total_nil, sub_ofNat_zero] at hwalk
  simp only [events_eq_walk, Option.mem_some_iff, forall_eq', hwalk]
  apply and_iff_right_of_imp
  intro hitems item hitem
  rw [List.nil_append, total_cons, total_nil, Nat.add_zero]
  exact hitems.1 item (List.mem_of_mem_head? hitem)

theorem Loop.joinsFit_congr {p q : α → ℕ} (chunk items : List α)
    (h : ∀ item ∈ chunk ++ items, p item = q item) :
    loop.JoinsFit limit p chunk items ↔ loop.JoinsFit limit q chunk items := by
  induction items generalizing chunk with
  | nil => rfl
  | cons item rest ih =>
      cases rest with
      | nil => rfl
      | cons next rest =>
          have hjoined : (chunk ++ [item, next]).map p = (chunk ++ [item, next]).map q :=
            List.map_congr_left fun other hother => h other (by
              simp only [List.mem_append, List.mem_cons, List.not_mem_nil, or_false]
                at hother ⊢
              tauto)
          have htotal : total p (chunk ++ [item, next]) = total q (chunk ++ [item, next]) :=
            congrArg List.sum hjoined
          rw [JoinsFit, JoinsFit, htotal, ih (chunk ++ [item]) (by simpa using h),
            ih [] fun other hother => h other
              (List.mem_append_right _ (List.mem_cons_of_mem _ hother))]

/-- No chunk of several items outgrows the limit when every item that joins one fits
into it. -/
theorem Loop.sent_within (payload : α → ℕ) (chunk items : List α)
    (hroom : ∀ item ∈ items,
      total loop.taken (chunk ++ items) + (loop.needed item).toNat < 2 ^ 64) :
    (∀ reply ∈ sent (loop.walk limit (limit - .ofNat (total loop.taken chunk)) chunk items),
        2 ≤ reply.2.length → total payload reply.2 ≤ limit.toNat) ↔
      (chunk ≠ [] → ∀ item ∈ items.head?, total payload (chunk ++ [item]) ≤ limit.toNat) ∧
        loop.JoinsFit limit payload chunk items := by
  induction items generalizing chunk with
  | nil => simp [walk, JoinsFit]
  | cons item rest ih =>
      have hseveral : 2 ≤ (chunk ++ [item]).length ↔ chunk ≠ [] := by
        rw [List.length_append, List.length_singleton, ← List.length_pos_iff]
        omega
      cases rest with
      | nil => simp [walk, JoinsFit, Nat.one_le_iff_ne_zero]
      | cons next rest =>
          have hread : loop.read item next ∈ item :: next :: rest := by
            rw [read]
            split
            · exact List.mem_cons_self
            · exact List.mem_cons_of_mem _ List.mem_cons_self
          have hused : total loop.taken (chunk ++ [item]) +
              (loop.needed (loop.read item next)).toNat < 2 ^ 64 := by
            have htotal := hroom _ hread
            simp only [total_append, total_cons, total_nil] at htotal ⊢
            omega
          rw [walk, sent_append, sent_subtractions, List.nil_append, leftAfter_total]
          by_cases hjoins : loop.Joins limit chunk item next
          · have hrest := ih (chunk ++ [item]) fun other hother => by
              rw [List.append_assoc]
              exact hroom other (List.mem_cons_of_mem _ hother)
            rw [if_neg ((joins_iff (.inr hused)).mp hjoins), hrest, JoinsFit, if_pos hjoins]
            simp only [List.head?_cons, Option.mem_some_iff, forall_eq', total_append,
              total_cons, total_nil, List.append_assoc, List.cons_append, List.nil_append]
            constructor
            · rintro ⟨hnext, hfit⟩
              have hroom := hnext (by simp)
              exact ⟨fun _ => by omega, hroom, hfit⟩
            · rintro ⟨_, hnext, hfit⟩
              exact ⟨fun _ => hnext, hfit⟩
          · have hstart := ih [] fun other hother => by
              have htotal := hroom other (List.mem_cons_of_mem _ hother)
              simp only [total_append, total_cons, List.nil_append] at htotal ⊢
              omega
            rw [total_nil, sub_ofNat_zero] at hstart
            rw [if_pos (not_not.mp ((joins_iff (.inr hused)).not.mp hjoins)), sent_cons_send,
              List.forall_mem_cons, hstart, hseveral, JoinsFit, if_neg hjoins]
            simp

theorem dropWhile_congr {p q : α → Bool} {items : List α} (h : ∀ item ∈ items, p item = q item) :
    items.dropWhile p = items.dropWhile q := by
  induction items with
  | nil => rfl
  | cons item items ih =>
      rw [List.forall_mem_cons] at h
      rw [List.dropWhile_cons, List.dropWhile_cons, h.1, ih h.2]

/-- A budget that was exceeded takes the rest of the list. -/
theorem Loop.joinsFit_exceeded (payload : α → ℕ) (chunk : List α) (item : α) (rest : List α)
    (hexceeded : limit.toNat < total loop.taken (chunk ++ [item])) :
    loop.JoinsFit limit payload chunk (item :: rest) ↔
      rest = [] ∨ total payload (chunk ++ item :: rest) ≤ limit.toNat := by
  induction rest generalizing chunk item with
  | nil => simp [JoinsFit]
  | cons next rest ih =>
      have hmore : limit.toNat < total loop.taken ((chunk ++ [item]) ++ [next]) := by
        rw [total_append _ (chunk ++ [item])]
        omega
      rw [JoinsFit, if_pos (.inl hexceeded), ih (chunk ++ [item]) next hmore]
      cases rest with
      | nil => simp
      | cons other rest =>
          simp only [total_append, total_cons, total_nil, reduceCtorEq, false_or,
            List.append_assoc, List.cons_append, List.nil_append]
          omega

section Covered

/-- The look-ahead leaves room for what joins, when it asks for all that is taken. -/
theorem Loop.Joins.room {chunk : List α} {item next : α} (hreads : loop.rereads = false)
    (hcovered : loop.taken next ≤ (loop.needed next).toNat)
    (hjoins : loop.Joins limit chunk item next)
    (hused : total loop.taken (chunk ++ [item]) ≤ limit.toNat) :
    total loop.taken ((chunk ++ [item]) ++ [next]) ≤ limit.toNat := by
  obtain hexceeded | ⟨_, hfits⟩ := hjoins
  · omega
  · rw [read, hreads, if_neg Bool.false_ne_true] at hfits
    rw [total_append _ (chunk ++ [item]), total_cons, total_nil]
    omega

/-- While no item is larger than the limit, whatever joins a chunk fits.  The first
item that is larger takes all that follow into its chunk. -/
theorem Loop.joinsFit_covered {payload : α → ℕ} (hreads : loop.rereads = false)
    (chunk items : List α)
    (hcovered : ∀ item ∈ items, loop.taken item ≤ (loop.needed item).toNat)
    (hpayload : ∀ item ∈ items, payload item ≤ loop.taken item)
    (hpaid : total payload chunk ≤ total loop.taken chunk)
    (hchunk : chunk ≠ [] → ∀ item ∈ items.head?,
      total loop.taken (chunk ++ [item]) ≤ limit.toNat) :
    loop.JoinsFit limit payload chunk items ↔
      (items.dropWhile fun item => loop.taken item ≤ limit.toNat).length ≤ 1 ∨
        total payload (items.dropWhile fun item => loop.taken item ≤ limit.toNat) ≤
          limit.toNat := by
  induction items generalizing chunk with
  | nil => simp [JoinsFit]
  | cons item rest ih =>
      rw [List.forall_mem_cons] at hcovered hpayload
      by_cases hitem : loop.taken item ≤ limit.toNat
      · have hused : total loop.taken (chunk ++ [item]) ≤ limit.toNat := by
          cases chunk with
          | nil => simpa using hitem
          | cons first chunk => exact hchunk (List.cons_ne_nil _ _) item rfl
        have hpaid' : total payload (chunk ++ [item]) ≤ total loop.taken (chunk ++ [item]) := by
          rw [total_append, total_append]
          simpa using Nat.add_le_add hpaid hpayload.1
        rw [List.dropWhile_cons_of_pos (by simpa using hitem)]
        cases rest with
        | nil => simp [JoinsFit]
        | cons next rest =>
            rw [JoinsFit]
            by_cases hjoins : loop.Joins limit chunk item next
            · have hnext := hjoins.room hreads (hcovered.2 next List.mem_cons_self) hused
              have hfits : total payload (chunk ++ [item, next]) ≤ limit.toNat := by
                have hpayNext := hpayload.2 next List.mem_cons_self
                simp only [total_append, total_cons, total_nil] at hnext hpaid' ⊢
                omega
              rw [if_pos hjoins, ih (chunk ++ [item]) hcovered.2 hpayload.2 hpaid'
                fun _ other hother => by
                  rw [← Option.some.inj hother]
                  exact hnext]
              exact and_iff_right hfits
            · rw [if_neg hjoins]
              exact ih [] hcovered.2 hpayload.2 (Nat.le_refl 0) fun h => absurd rfl h
      · rw [List.dropWhile_cons_of_neg (by simpa using hitem)]
        have hfirst : chunk = [] := by
          by_contra hne
          have hused := hchunk hne item rfl
          rw [total_append, total_cons] at hused
          omega
        subst hfirst
        rw [joinsFit_exceeded payload [] item rest (by simpa using hitem)]
        simp

/-- With such a look-ahead the budget never wraps unless by a single item. -/
theorem Loop.neverWraps_covered (hreads : loop.rereads = false) (items : List α)
    (hcovered : ∀ item ∈ items, loop.taken item ≤ (loop.needed item).toNat) :
    (∀ events ∈ loop.events limit items, NeverWraps events) ↔
      ∀ item ∈ items, loop.taken item ≤ limit.toNat := by
  rw [neverWraps_events]
  apply and_iff_left_of_imp
  intro hitems
  have hfit : loop.JoinsFit limit loop.taken [] items ↔ _ :=
    joinsFit_covered hreads [] items hcovered (fun _ _ => Nat.le_refl _) (Nat.le_refl 0)
      fun h => absurd rfl h
  have hnone : (items.dropWhile fun item => loop.taken item ≤ limit.toNat) = [] := by
    rw [List.dropWhile_eq_nil_iff]
    simpa using hitems
  rw [hfit, hnone]
  exact .inl (Nat.zero_le 1)

end Covered

end Budget

end FeedsService.Library.Chunking
