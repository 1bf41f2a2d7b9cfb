import FeedsService.Feeds.Notifications

/-!
# A node goes offline

`feeds_deactivate_suber` goes through the links of the node.  A round takes one
link away from its active subscriber and, when that was the last one, the
subscriber itself together with its links to channels.  The invariant of the loop
says what is left of every list after the links processed so far.
-/

namespace FeedsService.Feeds

open FeedsService.Library FeedsService.Library.KeyedTable

section Loop

/-- Memory after the links `done` of the node have been processed. -/
structure Deactivated (m m' : Mem) (nodeId : NodeId) (done : List Ref) : Prop where
  rest : m' = { m with
    as := m'.as
    ass := m'.ass
    nds := (m.ndRemove nodeId).nds
    aspcList := m'.aspcList }
  as : ∀ a ∈ m.ass,
    m'.as a = { m.as a with ndpass := (m.as a).ndpass.filter (· ∉ done) }
  ass : ∀ a, a ∈ m'.ass ↔ a ∈ m.ass ∧ (m'.as a).ndpass ≠ []
  aspcList : ∀ c ∈ m.chansById, m'.aspcList (m.chan c).aspcs =
    (m.aspcList (m.chan c).aspcs).filter fun l => (m.aspc l).as ∈ m'.ass

/-- The inner loop takes the links out of the lists of all the channels. -/
theorem foldl_unlink (aspcs : List Ref) (m : Mem)
    (hlists : Set.InjOn (fun c => (m.chan c).aspcs) {c | c ∈ m.chansById})
    (hends : ∀ l ∈ aspcs, (m.aspc l).chan ∈ m.chansById)
    (hlist : ∀ c ∈ m.chansById, ∀ l ∈ m.aspcList (m.chan c).aspcs, (m.aspc l).chan = c) :
    ∃ aspcList,
      aspcs.foldl (fun m aspc => m.setAspcs (m.aspc aspc).chan fun aspcs =>
        aspcs.filter (· ≠ aspc)) m = { m with aspcList := aspcList } ∧
      ∀ c ∈ m.chansById, aspcList (m.chan c).aspcs =
        (m.aspcList (m.chan c).aspcs).filter (· ∉ aspcs) := by
  induction aspcs generalizing m with
  | nil => exact ⟨m.aspcList, rfl, fun c _ => by simp⟩
  | cons l aspcs ih =>
      have hfirst : ∀ c ∈ m.chansById,
          (m.setAspcs (m.aspc l).chan fun aspcs => aspcs.filter (· ≠ l)).aspcList
            (m.chan c).aspcs = (m.aspcList (m.chan c).aspcs).filter (· ≠ l) := by
        intro c hc
        by_cases hsame : c = (m.aspc l).chan
        · simp [Mem.setAspcs, hsame]
        · have hne : (m.chan c).aspcs ≠ (m.chan (m.aspc l).chan).aspcs :=
            fun heq => hsame (hlists hc (hends l List.mem_cons_self) heq)
          have habsent : l ∉ m.aspcList (m.chan c).aspcs :=
            fun hmem => hsame (hlist c hc l hmem).symm
          simp only [Mem.setAspcs, Function.update_of_ne hne]
          refine (List.filter_eq_self.mpr fun l' hl' => ?_).symm
          simpa using fun heq : l' = l => habsent (heq ▸ hl')
      obtain ⟨aspcList, heq, hrest⟩ := ih
        (m.setAspcs (m.aspc l).chan fun aspcs => aspcs.filter (· ≠ l)) hlists
        (fun l' hl' => hends l' (List.mem_cons_of_mem _ hl'))
        (fun c hc l' hl' => by
          simp only [Mem.setAspcs] at hc hl'
          have hold := hfirst c hc
          simp only [Mem.setAspcs] at hold
          rw [hold] at hl'
          exact hlist c hc l' (List.mem_filter.mp hl').1)
      refine ⟨aspcList, heq, fun c hc => ?_⟩
      have hlast : aspcList (m.chan c).aspcs =
          ((m.setAspcs (m.aspc l).chan fun aspcs => aspcs.filter (· ≠ l)).aspcList
            (m.chan c).aspcs).filter (· ∉ aspcs) := hrest c hc
      rw [hlast, hfirst c hc, List.filter_filter]
      refine List.filter_congr fun l' _ => ?_
      simp [Bool.and_comm]

variable {m m' : Mem} {nodeId : NodeId} {done : List Ref}

theorem Deactivated.init (hactive : ∀ a ∈ m.ass, (m.as a).ndpass ≠ [])
    (hsubs : SubIndex m {a | a ∈ m.ass}) :
    Deactivated m (m.ndRemove nodeId) nodeId [] where
  rest := rfl
  as a _ := by simp [Mem.ndRemove]
  ass a := ⟨fun ha => ⟨ha, hactive a ha⟩, And.left⟩
  aspcList c hc := by
    refine (List.filter_eq_self.mpr fun l hl => ?_).symm
    exact decide_eq_true (hsubs.linked.of_right c hc l hl).2.1

/-- One round of the loop. -/
theorem Deactivated.round (h : Deactivated m m' nodeId done)
    (hnotify : NotifyIndex m {a | a ∈ m.ass} {n | n ∈ m.nds})
    (hsubs : SubIndex m {a | a ∈ m.ass}) {n l : Ref} (hn : n ∈ m.nds)
    (hnodeId : (m.nd n).nodeId = nodeId) (hl : l ∈ (m.nd n).ndpass) (hnew : l ∉ done) :
    Deactivated m (m'.deactivateRound nodeId l) nodeId (done ++ [l]) := by
  obtain ⟨hend, ha, hmem⟩ := hnotify.linked.of_right n hn l hl
  generalize hsuber : (m.ndpas l).as = a at ha hmem
  have hndpas : m'.ndpas = m.ndpas := by rw [h.rest]
  have hnd : m'.nd = m.nd := by rw [h.rest]
  have hkey : ∀ l' ∈ (m.as a).ndpass, m.ndpasKey l' = nodeId ↔ l' = l := by
    have hlKey : m.ndpasKey l = nodeId := by rw [Mem.ndpasKey, hend, hnodeId]
    intro l' hl'
    constructor
    · exact fun heq => hnotify.ndpasKey_inj ha hl' hmem (heq.trans hlKey.symm)
    · rintro rfl
      exact hlKey
  -- The link leaves the list of its active subscriber.
  let object : ActiveSuber :=
    { m.as a with ndpass := (m.as a).ndpass.filter (· ∉ done ++ [l]) }
  have hremoved : m'.setAs a (fun object =>
      { object with ndpass := remove m'.ndpasKey object.ndpass nodeId }) =
        { m' with as := Function.update m'.as a object } := by
    have hkeys : m'.ndpasKey = m.ndpasKey := by
      funext l'
      rw [Mem.ndpasKey, Mem.ndpasKey, hndpas, hnd]
    have hfilter : remove m.ndpasKey ((m.as a).ndpass.filter (· ∉ done)) nodeId =
        (m.as a).ndpass.filter (· ∉ done ++ [l]) := by
      rw [remove, List.filter_filter]
      refine List.filter_congr fun l' hl' => ?_
      simp [hkey l' hl', and_comm]
    rw [Mem.setAs, h.as a ha, hkeys]
    simp only [hfilter, object]
  have has : ∀ x ∈ m.ass, Function.update m'.as a object x =
      { m.as x with ndpass := (m.as x).ndpass.filter (· ∉ done ++ [l]) } := by
    intro x hx
    by_cases hsame : x = a
    · subst hsame
      simp [object]
    · have habsent : l ∉ (m.as x).ndpass := fun hin =>
        hsame ((hnotify.linked.of_left x hx l hin).1.symm.trans hsuber)
      rw [Function.update_of_ne hsame, h.as x hx]
      refine ActiveSuber.ext rfl rfl (List.filter_congr fun l' hl' => ?_)
      have hne : l' ≠ l := fun heq => habsent (heq ▸ hl')
      simp [hne]
  have haIn : a ∈ m'.ass := by
    refine (h.ass a).mpr ⟨ha, ?_⟩
    rw [h.as a ha]
    exact List.ne_nil_of_mem (List.mem_filter.mpr ⟨hmem, by simpa using hnew⟩)
  have hsuber' : (m'.ndpas l).as = a := by rw [hndpas, hsuber]
  simp only [Mem.deactivateRound, hsuber', hremoved, Function.update_self]
  split
  · next hlast =>
      -- It was the last one: the subscriber goes, and its links to channels.
      obtain ⟨aspcList, hunlink, hlist⟩ := foldl_unlink object.aspcs
        { m' with as := Function.update m'.as a object }
        (by rw [h.rest]; exact hsubs.lists)
        (by
          rw [h.rest]
          exact fun l' hl' => (hsubs.linked.of_left a ha l' hl').2.1)
        (by
          rw [h.rest]
          intro c hc l' hl'
          rw [h.aspcList c hc] at hl'
          exact (hsubs.linked.of_right c hc l' (List.mem_filter.mp hl').1).1)
      have huid : ∀ x ∈ m.ass, (Function.update m'.as a object x).uid = (m.as x).uid := by
        intro x hx
        rw [has x hx]
      have hass : ∀ x, x ∈ remove (fun x => (Function.update m'.as a object x).uid) m'.ass
          object.uid ↔ x ∈ m'.ass ∧ x ≠ a := by
        intro x
        rw [mem_remove]
        refine and_congr_right fun hx => not_congr ?_
        have hx := ((h.ass x).mp hx).1
        rw [huid x hx]
        exact ⟨fun heq => hnotify.uids hx ha heq, fun heq => by rw [heq]⟩
      have hresult : ({ m' with as := Function.update m'.as a object } : Mem).aspcsUnlink a =
          { m' with as := Function.update m'.as a object, aspcList := aspcList } := by
        rw [Mem.aspcsUnlink]
        simpa using hunlink
      rw [hresult]
      refine ⟨?_, has, fun x => ?_, fun c hc => ?_⟩
      · conv_lhs => rw [h.rest]
        rfl
      · show x ∈ remove _ _ _ ↔ x ∈ m.ass ∧ (Function.update m'.as a object x).ndpass ≠ []
        refine (hass x).trans ?_
        by_cases hsame : x = a
        · subst hsame
          simp [hlast]
        · rw [Function.update_of_ne hsame, h.ass x]
          simp [hsame]
      · show aspcList (m.chan c).aspcs = _
        have hchan : m'.chan = m.chan := by rw [h.rest]
        have hlistC := hlist c (by rw [h.rest]; exact hc)
        simp only [hchan] at hlistC
        rw [hlistC, h.aspcList c hc, List.filter_filter]
        refine List.filter_congr fun l' hl' => ?_
        obtain ⟨_, hsuberIn, hin⟩ := hsubs.linked.of_right c hc l' hl'
        have hown : l' ∈ object.aspcs ↔ (m.aspc l').as = a := by
          constructor
          · exact fun hin => (hsubs.linked.of_left a ha l' hin).1
          · intro heq
            simp only [heq] at hin
            exact hin
        rw [← Bool.decide_and, decide_eq_decide]
        refine Iff.trans ?_ (hass _).symm
        rw [hown, and_comm]
  · next hmore =>
      refine ⟨?_, has, fun x => ?_, h.aspcList⟩
      · conv_lhs => rw [h.rest]
      · by_cases hsame : x = a
        · subst hsame
          simp only [Function.update_self]
          exact ⟨fun _ => ⟨ha, hmore⟩, fun _ => haIn⟩
        · simp only [Function.update_of_ne hsame]
          exact h.ass x

theorem Deactivated.foldl (hnotify : NotifyIndex m {a | a ∈ m.ass} {n | n ∈ m.nds})
    (hsubs : SubIndex m {a | a ∈ m.ass}) {n : Ref} (hn : n ∈ m.nds)
    (hnodeId : (m.nd n).nodeId = nodeId) (links : List Ref)
    (h : Deactivated m m' nodeId done) (hlinks : ∀ l ∈ links, l ∈ (m.nd n).ndpass)
    (hnodup : (done ++ links).Nodup) :
    Deactivated m (links.foldl (Mem.deactivateRound nodeId) m') nodeId (done ++ links) := by
  induction links generalizing m' done with
  | nil => simpa using h
  | cons l links ih =>
      have hnew : l ∉ done := fun hmem =>
        (List.nodup_append.mp hnodup).2.2 l hmem l List.mem_cons_self rfl
      have hround := h.round hnotify hsubs hn hnodeId (hlinks l List.mem_cons_self) hnew
      have hrest := ih hround (fun l' hl' => hlinks l' (List.mem_cons_of_mem _ hl'))
        (by simpa using hnodup)
      simpa using hrest

end Loop

section Offline

variable {m m' : Mem} {nodeId : NodeId} {n : Ref}

/-- A link is among the processed ones when it leads to the node. -/
theorem mem_ndpass_iff (hnotify : NotifyIndex m {a | a ∈ m.ass} {n | n ∈ m.nds})
    (hn : n ∈ m.nds) {a l : Ref} (ha : a ∈ m.ass) (hl : l ∈ (m.as a).ndpass) :
    l ∈ (m.nd n).ndpass ↔ (m.ndpas l).nd = n := by
  obtain ⟨hend, _, hmem⟩ := hnotify.linked.of_left a ha l hl
  constructor
  · exact fun hin => (hnotify.linked.of_right n hn l hin).1
  · rintro rfl
    exact hmem

theorem Deactivated.mem_ndpass (h : Deactivated m m' nodeId (m.nd n).ndpass)
    (hnotify : NotifyIndex m {a | a ∈ m.ass} {n | n ∈ m.nds}) (hn : n ∈ m.nds)
    {a : Ref} (ha : a ∈ m.ass) (l : Ref) :
    l ∈ (m'.as a).ndpass ↔ l ∈ (m.as a).ndpass ∧ (m.ndpas l).nd ≠ n := by
  simp only [h.as a ha, List.mem_filter, decide_eq_true_eq]
  exact and_congr_right fun hl => not_congr (mem_ndpass_iff hnotify hn ha hl)

theorem Deactivated.mem_nds (h : Deactivated m m' nodeId (m.nd n).ndpass)
    (hnotify : NotifyIndex m {a | a ∈ m.ass} {n | n ∈ m.nds}) (hn : n ∈ m.nds)
    (hnodeId : (m.nd n).nodeId = nodeId) (x : Ref) : x ∈ m'.nds ↔ x ∈ m.nds ∧ x ≠ n := by
  have hnds : m'.nds = remove m.ndKey m.nds nodeId := by rw [h.rest]; rfl
  rw [hnds, mem_remove]
  refine and_congr_right fun hx => not_congr ?_
  rw [← hnodeId]
  exact ⟨fun heq => hnotify.nodeIds hx hn heq, fun heq => by rw [heq, Mem.ndKey]⟩

theorem Deactivated.notifyIndex (h : Deactivated m m' nodeId (m.nd n).ndpass)
    (hnotify : NotifyIndex m {a | a ∈ m.ass} {n | n ∈ m.nds}) (hn : n ∈ m.nds)
    (hnodeId : (m.nd n).nodeId = nodeId) :
    NotifyIndex m' {a | a ∈ m'.ass} {n | n ∈ m'.nds} := by
  have hass : {a | a ∈ m'.ass} ⊆ {a | a ∈ m.ass} := fun a ha => ((h.ass a).mp ha).1
  have hnds : {x | x ∈ m'.nds} ⊆ {x | x ∈ m.nds} :=
    fun x hx => ((h.mem_nds hnotify hn hnodeId x).mp hx).1
  have hnd : m'.nd = m.nd := by rw [h.rest]
  have hndpas : m'.ndpas = m.ndpas := by rw [h.rest]
  have hnext : m'.nextRef = m.nextRef := by rw [h.rest]
  have hmem : ∀ a ∈ m.ass, ∀ l,
      l ∈ (m'.as a).ndpass ↔ l ∈ (m.as a).ndpass ∧ (m.ndpas l).nd ≠ n :=
    fun a ha l => h.mem_ndpass hnotify hn ha l
  refine ⟨?_, ?_, ?_, ?_, ?_, ?_⟩
  · rw [hndpas, hnd]
    refine hnotify.linked.restrict (fun l => (m.ndpas l).nd ≠ n) hass hnds
      (fun a ha => ⟨?_, hmem a (hass ha)⟩) (fun x hx => ⟨?_, fun l => ?_⟩)
      (fun a ha l hl hne => ?_) fun x hx l hl hne => ?_
    · rw [h.as a (hass ha)]
      exact (hnotify.linked.nodup_left a (hass ha)).filter _
    · exact hnotify.linked.nodup_right x (hnds hx)
    · refine ⟨fun hl => ⟨hl, ?_⟩, And.left⟩
      rw [(hnotify.linked.of_right x (hnds hx) l hl).1]
      exact ((h.mem_nds hnotify hn hnodeId x).mp hx).2
    · refine (h.mem_nds hnotify hn hnodeId _).mpr ⟨?_, hne⟩
      exact (hnotify.linked.of_left a (hass ha) l hl).2.1
    · obtain ⟨_, ha, hmemLeft⟩ := hnotify.linked.of_right x (hnds hx) l hl
      exact (h.ass _).mpr ⟨ha, List.ne_nil_of_mem ((hmem _ ha l).mpr ⟨hmemLeft, hne⟩)⟩
  · refine (hnotify.uids.mono hass).congr fun a ha => ?_
    rw [Mem.asKey, Mem.asKey, h.as a (hass ha)]
  · refine (hnotify.nodeIds.mono hnds).congr fun x _ => ?_
    rw [Mem.ndKey, Mem.ndKey, hnd]
  · rw [hnext]
    exact fun a ha => hnotify.fresh_as a (hass ha)
  · rw [hnext]
    exact fun x hx => hnotify.fresh_nd x (hnds hx)
  · rw [hnext]
    exact fun a ha l hl =>
      hnotify.fresh_links a (hass ha) l ((hmem a (hass ha) l).mp hl).1

theorem Deactivated.subIndex {done : List Ref} (h : Deactivated m m' nodeId done)
    (hsubs : SubIndex m {a | a ∈ m.ass}) : SubIndex m' {a | a ∈ m'.ass} := by
  have hass : {a | a ∈ m'.ass} ⊆ {a | a ∈ m.ass} := fun a ha => ((h.ass a).mp ha).1
  have hchan : m'.chan = m.chan := by rw [h.rest]
  have hchansById : m'.chansById = m.chansById := by rw [h.rest]
  have haspc : m'.aspc = m.aspc := by rw [h.rest]
  have hnext : m'.nextRef = m.nextRef := by rw [h.rest]
  have haspcs : ∀ a ∈ m.ass, (m'.as a).aspcs = (m.as a).aspcs := by
    intro a ha
    rw [h.as a ha]
  refine ⟨?_, ?_, ?_, ?_, ?_, ?_⟩
  · rw [hchan, hchansById, haspc]
    refine hsubs.linked.restrict (fun l => (m.aspc l).as ∈ m'.ass) hass subset_rfl
      (fun a ha => ⟨?_, fun l => ?_⟩) (fun c hc => ⟨?_, fun l => ?_⟩)
      (fun a ha l hl _ => (hsubs.linked.of_left a (hass ha) l hl).2.1)
      (fun _ _ _ _ hkeep => hkeep)
    · rw [haspcs a (hass ha)]
      exact hsubs.linked.nodup_left a (hass ha)
    · rw [haspcs a (hass ha)]
      refine ⟨fun hl => ⟨hl, ?_⟩, And.left⟩
      rw [(hsubs.linked.of_left a (hass ha) l hl).1]
      exact ha
    · rw [h.aspcList c hc]
      exact (hsubs.linked.nodup_right c hc).filter _
    · rw [h.aspcList c hc, List.mem_filter, decide_eq_true_eq]
  · intro a ha l hl
    rw [haspcs a (hass ha)] at hl
    have hkey := hsubs.keys a (hass ha) l hl
    simpa only [Mem.aspcKey, hchan, haspc] using hkey
  · simpa only [hchan, hchansById] using hsubs.lists
  · rw [hnext]
    exact fun a ha => hsubs.fresh_as a (hass ha)
  · simpa only [hchan, hchansById, hnext] using hsubs.fresh_lists
  · intro a ha l hl
    rw [haspcs a (hass ha)] at hl
    simpa only [haspc, hnext] using hsubs.fresh_links a (hass ha) l hl

/-- `feeds_deactivate_suber` takes the node away from all its users. -/
theorem Simulates.deactivate {w : World} {enabled : UInt64 → NodeId → Prop}
    (h : Simulates w enabled) (nodeId : NodeId) :
    Simulates ⟨w.mem.feedsDeactivateSuber nodeId, w.db⟩ fun user node =>
      enabled user node ∧ node ≠ nodeId := by
  have hconsistent : Consistent ⟨w.mem.feedsDeactivateSuber nodeId, w.db⟩ :=
    h.consistent.step w (.peerOffline nodeId)
  unfold Mem.feedsDeactivateSuber at hconsistent ⊢
  cases hget : w.mem.ndGet nodeId with
  | none =>
      refine { h with enabled_iff := fun user node => ?_ }
      rw [h.enabled_iff]
      refine ⟨And.left, fun hnotified => ⟨hnotified, ?_⟩⟩
      obtain ⟨a, ha, _, l, hl, rfl⟩ := hnotified
      exact get_eq_none.mp hget _ (h.notify.linked.of_left a ha l hl).2.1
  | some n =>
      obtain ⟨hn, hnodeId⟩ := h.notify.ndGet_eq_some.mp hget
      have hloop : Deactivated w.mem ((w.mem.nd n).ndpass.foldl
          (Mem.deactivateRound nodeId) (w.mem.ndRemove nodeId)) nodeId
            (w.mem.nd n).ndpass := by
        simpa using (Deactivated.init h.active h.subs).foldl h.notify h.subs hn hnodeId
          (w.mem.nd n).ndpass (fun _ hl => hl)
          (by simpa using h.notify.linked.nodup_right n hn)
      simp only [hget] at hconsistent ⊢
      generalize (w.mem.nd n).ndpass.foldl (Mem.deactivateRound nodeId)
        (w.mem.ndRemove nodeId) = m at hconsistent hloop ⊢
      have hchan : m.chan = w.mem.chan := by rw [hloop.rest]
      have hchansById : m.chansById = w.mem.chansById := by rw [hloop.rest]
      have haspc : m.aspc = w.mem.aspc := by rw [hloop.rest]
      have hnd : m.nd = w.mem.nd := by rw [hloop.rest]
      have hndpas : m.ndpas = w.mem.ndpas := by rw [hloop.rest]
      refine
        { consistent := hconsistent
          notify := hloop.notifyIndex h.notify hn hnodeId
          subs := hloop.subIndex h.subs
          active := fun a ha => ((hloop.ass a).mp ha).2
          reached := fun x hx => ?_
          enabled_iff := fun user node => ?_
          subscribed_iff := fun a ha c hc => ?_ }
      · simp only [hnd]
        exact h.reached x ((hloop.mem_nds h.notify hn hnodeId x).mp hx).1
      · rw [h.enabled_iff]
        constructor
        · rintro ⟨⟨a, ha, huid, l, hl, rfl⟩, hne⟩
          have hlink : (w.mem.ndpas l).nd ≠ n := fun heq => hne (by rw [heq, hnodeId])
          have hl' := (hloop.mem_ndpass h.notify hn ha l).mpr ⟨hl, hlink⟩
          refine ⟨a, (hloop.ass a).mpr ⟨ha, List.ne_nil_of_mem hl'⟩, ?_, l, hl', ?_⟩
          · rw [hloop.as a ha]
            exact huid
          · rw [hnd, hndpas]
        · rintro ⟨a, ha, huid, l, hl, rfl⟩
          have ha := ((hloop.ass a).mp ha).1
          obtain ⟨hl, hlink⟩ := (hloop.mem_ndpass h.notify hn ha l).mp hl
          rw [hloop.as a ha] at huid
          rw [hnd, hndpas]
          refine ⟨⟨a, ha, huid, l, hl, rfl⟩, fun heq => hlink ?_⟩
          exact h.notify.nodeIds (h.notify.linked.of_left a ha l hl).2.1 hn
            (heq.trans hnodeId.symm)
      · have ha := ((hloop.ass a).mp ha).1
        simp only [hchansById] at hc
        simp only [hloop.as a ha, haspc, hchan]
        exact h.subscribed_iff a ha c hc

end Offline

end FeedsService.Feeds
