import FeedsService.Feeds.Channels
import FeedsService.Library.Links
import Mathlib.Data.Set.Function

/-!
# The subscriber tables

Two instances of linked objects: active subscribers with nodes, through the
`NotifDestPerActiveSuber` objects, and active subscribers with channels, through
the `ActiveSuberPerChan` objects.  Each is stated for explicit sets of live
objects, since a handler links an object before it puts it into its table.
-/

namespace FeedsService.Feeds

open FeedsService.Library FeedsService.Library.KeyedTable

/-- The active subscribers `A` and the nodes `N` with their links. -/
structure NotifyIndex (m : Mem) (A N : Set Ref) : Prop where
  linked : Linked (fun l => (m.ndpas l).as) (fun l => (m.ndpas l).nd)
    (fun a => (m.as a).ndpass) (fun n => (m.nd n).ndpass) A N
  uids : Set.InjOn m.asKey A
  nodeIds : Set.InjOn m.ndKey N
  fresh_as : ∀ a ∈ A, a < m.nextRef
  fresh_nd : ∀ n ∈ N, n < m.nextRef
  fresh_links : ∀ a ∈ A, ∀ l ∈ (m.as a).ndpass, l < m.nextRef

/-- The active subscribers `A` and the channels with their links; a link is
hashed by the id of its channel. -/
structure SubIndex (m : Mem) (A : Set Ref) : Prop where
  linked : Linked (fun l => (m.aspc l).as) (fun l => (m.aspc l).chan)
    (fun a => (m.as a).aspcs) (fun c => m.aspcList (m.chan c).aspcs) A
    {c | c ∈ m.chansById}
  keys : ∀ a ∈ A, ∀ l ∈ (m.as a).aspcs,
    m.aspcKey l = (m.chan (m.aspc l).chan).info.chanId
  lists : Set.InjOn (fun c => (m.chan c).aspcs) {c | c ∈ m.chansById}
  fresh_as : ∀ a ∈ A, a < m.nextRef
  fresh_lists : ∀ c ∈ m.chansById, (m.chan c).aspcs < m.nextRef
  fresh_links : ∀ a ∈ A, ∀ l ∈ (m.as a).aspcs, l < m.nextRef ∧ (m.aspc l).heKey < m.nextRef

/-- What the operations on subscriptions leave alone. -/
structure SameNotify (m m' : Mem) : Prop where
  as : ∀ a, (m'.as a).uid = (m.as a).uid ∧ (m'.as a).ndpass = (m.as a).ndpass
  nd : m'.nd = m.nd
  ndpas : m'.ndpas = m.ndpas
  ass : m'.ass = m.ass
  nds : m'.nds = m.nds
  nextRef : m.nextRef ≤ m'.nextRef

namespace SameNotify

variable {m m' m'' : Mem}

theorem refl (m : Mem) : SameNotify m m :=
  ⟨fun _ => ⟨rfl, rfl⟩, rfl, rfl, rfl, rfl, Nat.le_refl _⟩

theorem trans (h : SameNotify m m') (h' : SameNotify m' m'') : SameNotify m m'' :=
  ⟨fun a => ⟨(h'.as a).1.trans (h.as a).1, (h'.as a).2.trans (h.as a).2⟩,
    h'.nd.trans h.nd, h'.ndpas.trans h.ndpas, h'.ass.trans h.ass, h'.nds.trans h.nds,
    Nat.le_trans h.nextRef h'.nextRef⟩

theorem foldl {α : Type} {f : Mem → α → Mem} (hstep : ∀ m a, SameNotify m (f m a))
    (as : List α) (m : Mem) : SameNotify m (as.foldl f m) := by
  induction as generalizing m with
  | nil => exact refl m
  | cons a as ih => exact (hstep m a).trans (ih (f m a))

theorem setAs (m : Mem) (as : Ref) {f : ActiveSuber → ActiveSuber}
    (hf : ∀ object, (f object).uid = object.uid ∧ (f object).ndpass = object.ndpass) :
    SameNotify m (m.setAs as f) := by
  refine ⟨fun a => ?_, rfl, rfl, rfl, rfl, Nat.le_refl _⟩
  by_cases hsame : a = as
  · subst hsame
    simpa [Mem.setAs] using hf (m.as a)
  · simp [Mem.setAs, hsame]

theorem setAspcs (m : Mem) (chan : Ref) (f : List Ref → List Ref) :
    SameNotify m (m.setAspcs chan f) :=
  ⟨fun _ => ⟨rfl, rfl⟩, rfl, rfl, rfl, rfl, Nat.le_refl _⟩

theorem setInfo (m : Mem) (chan : Ref) (f : ChanInfo → ChanInfo) :
    SameNotify m (m.setInfo chan f) :=
  ⟨fun _ => ⟨rfl, rfl⟩, rfl, rfl, rfl, rfl, Nat.le_refl _⟩

theorem aspcCreate (m : Mem) (as chan : Ref) : SameNotify m (m.aspcCreate as chan).2 :=
  ⟨fun _ => ⟨rfl, rfl⟩, rfl, rfl, rfl, rfl, Nat.le_succ _⟩

theorem aspcPut (m : Mem) (aspc : Ref) : SameNotify m (m.aspcPut aspc) :=
  (setAspcs m _ _).trans (setAs _ _ fun _ => ⟨rfl, rfl⟩)

theorem aspcsCreate (as : Ref) (ids : List ℕ) (m : Mem) :
    SameNotify m (m.aspcsCreate as ids).2 := by
  induction ids generalizing m with
  | nil => exact refl m
  | cons id ids ih =>
      rw [Mem.aspcsCreate]
      split
      · exact ih m
      · exact (aspcCreate m as _).trans (ih _)

theorem aspcRemove (m : Mem) (uid : UInt64) (chan : Ref) :
    SameNotify m (m.aspcRemove uid chan).2 := by
  unfold Mem.aspcRemove
  split
  · exact refl m
  · simp only
    split
    · exact refl m
    · refine SameNotify.trans (setAs m _ ?_) (setAspcs _ _ _)
      exact fun _ => ⟨rfl, rfl⟩

end SameNotify

/-- What the operations on nodes and their links leave alone. -/
structure SameSubs (m m' : Mem) : Prop where
  channels : SameChannels m m'
  as : ∀ a, (m'.as a).aspcs = (m.as a).aspcs
  aspc : m'.aspc = m.aspc
  aspcList : m'.aspcList = m.aspcList

namespace SameSubs

variable {m m' m'' : Mem}

theorem refl (m : Mem) : SameSubs m m :=
  ⟨.refl m, fun _ => rfl, rfl, rfl⟩

theorem trans (h : SameSubs m m') (h' : SameSubs m' m'') : SameSubs m m'' :=
  ⟨h.channels.trans h'.channels, fun a => (h'.as a).trans (h.as a), h'.aspc.trans h.aspc,
    h'.aspcList.trans h.aspcList⟩

theorem ndGetOrCreate (m : Mem) (nodeId : NodeId) :
    SameSubs m (m.ndGetOrCreate nodeId).2.2 := by
  refine ⟨.ndGetOrCreate m nodeId, ?_, ?_, ?_⟩ <;> unfold Mem.ndGetOrCreate <;> split
  all_goals first | rfl | exact fun _ => rfl

theorem ndpasCreate (m : Mem) (as nd : Ref) : SameSubs m (m.ndpasCreate as nd).2 :=
  ⟨.ndpasCreate m as nd, fun _ => rfl, rfl, rfl⟩

theorem ndpasPut (m : Mem) (l : Ref) : SameSubs m (m.ndpasPut l) := by
  refine ⟨.ndpasPut m l, fun a => ?_, rfl, rfl⟩
  by_cases hsame : a = (m.ndpas l).as
  · simp [Mem.ndpasPut, Mem.setAs, Mem.setNd, hsame]
  · simp [Mem.ndpasPut, Mem.setAs, Mem.setNd, hsame]

theorem asPut (m : Mem) (as : Ref) : SameSubs m (m.asPut as) :=
  ⟨.asPut m as, fun _ => rfl, rfl, rfl⟩

theorem ndPutNew (m : Mem) (nd : Ref) (new : Bool) : SameSubs m (m.ndPutNew nd new) := by
  cases new
  · exact refl m
  · exact ⟨.ndPutNew m nd true, fun _ => rfl, rfl, rfl⟩

end SameSubs

namespace NotifyIndex

variable {m m' : Mem} {A N : Set Ref}

theorem congr (h : NotifyIndex m A N)
    (has : ∀ a ∈ A, (m'.as a).uid = (m.as a).uid ∧ (m'.as a).ndpass = (m.as a).ndpass)
    (hnd : ∀ n ∈ N, m'.nd n = m.nd n)
    (hndpas : ∀ a ∈ A, ∀ l ∈ (m.as a).ndpass, m'.ndpas l = m.ndpas l)
    (hnext : m.nextRef ≤ m'.nextRef) : NotifyIndex m' A N where
  linked := h.linked.congr (fun a ha l hl => by simp [hndpas a ha l hl])
    (fun a ha => (has a ha).2) fun n hn => by simp [hnd n hn]
  uids := h.uids.congr fun a ha => ((has a ha).1).symm
  nodeIds := h.nodeIds.congr fun n hn => by simp [Mem.ndKey, hnd n hn]
  fresh_as a ha := Nat.lt_of_lt_of_le (h.fresh_as a ha) hnext
  fresh_nd n hn := Nat.lt_of_lt_of_le (h.fresh_nd n hn) hnext
  fresh_links a ha l hl := by
    rw [(has a ha).2] at hl
    exact Nat.lt_of_lt_of_le (h.fresh_links a ha l hl) hnext

theorem empty : NotifyIndex m ∅ ∅ :=
  ⟨.empty _ _ _ _, Set.injOn_empty _, Set.injOn_empty _, by simp, by simp, by simp⟩

theorem of_same (h : NotifyIndex m A N) (hsame : SameNotify m m') : NotifyIndex m' A N :=
  h.congr (fun a _ => hsame.as a) (fun n _ => by rw [hsame.nd])
    (fun _ _ l _ => by rw [hsame.ndpas]) hsame.nextRef

theorem asGet_eq_some (h : NotifyIndex m {a | a ∈ m.ass} N) {uid : UInt64} {as : Ref} :
    m.asGet uid = some as ↔ as ∈ m.ass ∧ (m.as as).uid = uid :=
  get_eq_some_of_injOn h.uids

theorem ndGet_eq_some (h : NotifyIndex m A {n | n ∈ m.nds}) {nodeId : NodeId} {nd : Ref} :
    m.ndGet nodeId = some nd ↔ nd ∈ m.nds ∧ (m.nd nd).nodeId = nodeId :=
  get_eq_some_of_injOn h.nodeIds

theorem ndpasKey_inj (h : NotifyIndex m A N) {a : Ref} (ha : a ∈ A) {l l' : Ref}
    (hl : l ∈ (m.as a).ndpass) (hl' : l' ∈ (m.as a).ndpass)
    (hkey : m.ndpasKey l = m.ndpasKey l') : l = l' := by
  obtain ⟨_, hN, _⟩ := h.linked.of_left a ha l hl
  obtain ⟨_, hN', _⟩ := h.linked.of_left a ha l' hl'
  exact h.linked.unique a ha l hl l' hl' (h.nodeIds hN hN' hkey)

/-- A new active subscriber without links. -/
theorem asCreate (h : NotifyIndex m A N) {uid : UInt64}
    (huid : ∀ a ∈ A, (m.as a).uid ≠ uid) :
    NotifyIndex (m.asCreate uid).2 (insert m.nextRef A) N := by
  have hold : ∀ a ∈ A, (m.asCreate uid).2.as a = m.as a := by
    intro a ha
    simp [Mem.asCreate, Nat.ne_of_lt (h.fresh_as a ha)]
  have hkept : NotifyIndex (m.asCreate uid).2 A N :=
    h.congr (fun a ha => by simp [hold a ha]) (fun _ _ => rfl) (fun _ _ _ _ => rfl)
      (Nat.le_succ _)
  have hempty : ((m.asCreate uid).2.as m.nextRef).ndpass = [] := by simp [Mem.asCreate]
  have hnotMem : m.nextRef ∉ A := fun hmem => Nat.lt_irrefl _ (h.fresh_as _ hmem)
  refine ⟨hkept.linked.addLeft hempty, ?_, hkept.nodeIds, ?_, hkept.fresh_nd, ?_⟩
  · refine (Set.injOn_insert hnotMem).mpr ⟨hkept.uids, ?_⟩
    rintro ⟨a, ha, heq⟩
    have hnew : (m.asCreate uid).2.asKey m.nextRef = uid := by
      simp [Mem.asKey, Mem.asCreate]
    rw [hnew, Mem.asKey, hold a ha] at heq
    exact huid a ha heq
  · rintro a (rfl | ha)
    · exact Nat.lt_succ_self _
    · exact hkept.fresh_as a ha
  · rintro a (rfl | ha) l hl
    · rw [hempty] at hl
      cases hl
    · exact hkept.fresh_links a ha l hl

/-- A new node without links. -/
theorem ndCreate (h : NotifyIndex m A N) {nodeId : NodeId}
    (hnodeId : ∀ n ∈ N, (m.nd n).nodeId ≠ nodeId) :
    NotifyIndex (m.ndCreate nodeId).2 A (insert m.nextRef N) := by
  have hold : ∀ n ∈ N, (m.ndCreate nodeId).2.nd n = m.nd n := by
    intro n hn
    simp [Mem.ndCreate, Nat.ne_of_lt (h.fresh_nd n hn)]
  have hkept : NotifyIndex (m.ndCreate nodeId).2 A N :=
    h.congr (fun _ _ => ⟨rfl, rfl⟩) hold (fun _ _ _ _ => rfl) (Nat.le_succ _)
  have hempty : ((m.ndCreate nodeId).2.nd m.nextRef).ndpass = [] := by simp [Mem.ndCreate]
  have hnotMem : m.nextRef ∉ N := fun hmem => Nat.lt_irrefl _ (h.fresh_nd _ hmem)
  refine ⟨hkept.linked.addRight hempty, hkept.uids, ?_, hkept.fresh_as, ?_,
    hkept.fresh_links⟩
  · refine (Set.injOn_insert hnotMem).mpr ⟨hkept.nodeIds, ?_⟩
    rintro ⟨n, hn, heq⟩
    have hnew : (m.ndCreate nodeId).2.ndKey m.nextRef = nodeId := by
      simp [Mem.ndKey, Mem.ndCreate]
    rw [hnew, Mem.ndKey, hold n hn] at heq
    exact hnodeId n hn heq
  · rintro n (rfl | hn)
    · exact Nat.lt_succ_self _
    · exact hkept.fresh_nd n hn

theorem ndpasCreate (h : NotifyIndex m A N) (as nd : Ref) :
    NotifyIndex (m.ndpasCreate as nd).2 A N := by
  refine h.congr (fun _ _ => ⟨rfl, rfl⟩) (fun _ _ => rfl) (fun a ha l hl => ?_)
    (Nat.le_succ _)
  simp [Mem.ndpasCreate, Nat.ne_of_lt (h.fresh_links a ha l hl)]

/-- The new link goes to the end of both lists. -/
theorem ndpasPut (h : NotifyIndex m A N) {l : Ref} (ha : (m.ndpas l).as ∈ A)
    (hn : (m.ndpas l).nd ∈ N) (hfresh : l < m.nextRef)
    (hnew : ∀ l' ∈ (m.as (m.ndpas l).as).ndpass, (m.ndpas l').nd ≠ (m.ndpas l).nd) :
    NotifyIndex (m.ndpasPut l) A N ∧
      ((m.ndpasPut l).as (m.ndpas l).as).ndpass = (m.as (m.ndpas l).as).ndpass ++ [l] := by
  have hput : put m.ndpasKey (m.as (m.ndpas l).as).ndpass l =
      (m.as (m.ndpas l).as).ndpass ++ [l] := by
    refine put_of_fresh fun l' hl' hkey => hnew l' hl' ?_
    obtain ⟨_, hN, _⟩ := h.linked.of_left _ ha l' hl'
    exact h.nodeIds hN hn hkey
  have hndpass : ((m.ndpasPut l).as (m.ndpas l).as).ndpass =
      (m.as (m.ndpas l).as).ndpass ++ [l] := by
    simp [Mem.ndpasPut, Mem.setAs, Mem.setNd, hput]
  have hother : ∀ a, a ≠ (m.ndpas l).as → (m.ndpasPut l).as a = m.as a := by
    intro a hne
    simp [Mem.ndpasPut, Mem.setAs, Mem.setNd, hne]
  have huid : ∀ a, ((m.ndpasPut l).as a).uid = (m.as a).uid := by
    intro a
    by_cases hsame : a = (m.ndpas l).as
    · simp [Mem.ndpasPut, Mem.setAs, Mem.setNd, hsame]
    · rw [hother a hsame]
  have hnodeId : ∀ n, ((m.ndpasPut l).nd n).nodeId = (m.nd n).nodeId := by
    intro n
    by_cases hsame : n = (m.ndpas l).nd
    · simp [Mem.ndpasPut, Mem.setAs, Mem.setNd, hsame]
    · simp [Mem.ndpasPut, Mem.setAs, Mem.setNd, hsame]
  refine ⟨⟨?_, ?_, ?_, h.fresh_as, h.fresh_nd, ?_⟩, hndpass⟩
  · refine h.linked.link ha hn hnew hndpass (fun a _ hne => by simp [hother a hne]) ?_ ?_
    · simp [Mem.ndpasPut, Mem.setAs, Mem.setNd]
    · intro n _ hne
      simp [Mem.ndpasPut, Mem.setAs, Mem.setNd, hne]
  · exact h.uids.congr fun a _ => (huid a).symm
  · exact h.nodeIds.congr fun n _ => (hnodeId n).symm
  · intro a haA l' hl'
    by_cases hsame : a = (m.ndpas l).as
    · rw [hsame, hndpass, List.mem_append, List.mem_singleton] at hl'
      rcases hl' with hold | rfl
      · exact h.fresh_links _ ha l' hold
      · exact hfresh
    · rw [hother a hsame] at hl'
      exact h.fresh_links a haA l' hl'

end NotifyIndex

namespace SubIndex

variable {m m' : Mem} {A : Set Ref}

theorem congr (h : SubIndex m A)
    (has : ∀ a ∈ A, (m'.as a).aspcs = (m.as a).aspcs)
    (haspc : ∀ a ∈ A, ∀ l ∈ (m.as a).aspcs, m'.aspc l = m.aspc l)
    (haspcList : ∀ c ∈ m.chansById,
      m'.aspcList (m.chan c).aspcs = m.aspcList (m.chan c).aspcs)
    (hchan : ∀ c, (m'.chan c).aspcs = (m.chan c).aspcs ∧
      (m'.chan c).info.chanId = (m.chan c).info.chanId)
    (hchansById : m'.chansById = m.chansById) (hnext : m.nextRef ≤ m'.nextRef) :
    SubIndex m' A where
  linked := by
    rw [hchansById]
    refine h.linked.congr (fun a ha l hl => by simp [haspc a ha l hl]) has fun c hc => ?_
    rw [(hchan c).1]
    exact haspcList c hc
  keys a ha l hl := by
    rw [has a ha] at hl
    rw [Mem.aspcKey, haspc a ha l hl, (hchan _).2, (hchan _).2]
    exact h.keys a ha l hl
  lists := by
    rw [hchansById]
    exact h.lists.congr fun c _ => ((hchan c).1).symm
  fresh_as a ha := Nat.lt_of_lt_of_le (h.fresh_as a ha) hnext
  fresh_lists c hc := by
    rw [hchansById] at hc
    rw [(hchan c).1]
    exact Nat.lt_of_lt_of_le (h.fresh_lists c hc) hnext
  fresh_links a ha l hl := by
    rw [has a ha] at hl
    rw [haspc a ha l hl]
    obtain ⟨hlink, hheKey⟩ := h.fresh_links a ha l hl
    exact ⟨Nat.lt_of_lt_of_le hlink hnext, Nat.lt_of_lt_of_le hheKey hnext⟩

theorem init : SubIndex Mem.init {a | a ∈ Mem.init.ass} := by
  have hass : {a | a ∈ Mem.init.ass} = ∅ := by simp [Mem.init]
  have hchans : {c | c ∈ Mem.init.chansById} = ∅ := by simp [Mem.init]
  refine ⟨?_, ?_, ?_, ?_, ?_, ?_⟩
  · rw [hass, hchans]
    exact .empty _ _ _ _
  · simp [Mem.init]
  · rw [hchans]
    exact Set.injOn_empty _
  · simp [Mem.init]
  · simp [Mem.init]
  · simp [Mem.init]

theorem of_same (h : SubIndex m A) (hsame : SameSubs m m') : SubIndex m' A :=
  h.congr (fun a _ => hsame.as a) (fun _ _ _ _ => by rw [hsame.aspc])
    (fun _ _ => by rw [hsame.aspcList]) (fun _ => by simp [hsame.channels.chan])
    hsame.channels.chansById hsame.channels.nextRef

theorem setInfo (h : SubIndex m A) (chan : Ref) {f : ChanInfo → ChanInfo}
    (hf : ∀ info, (f info).chanId = info.chanId) : SubIndex (m.setInfo chan f) A := by
  refine h.congr (fun _ _ => rfl) (fun _ _ _ _ => rfl) (fun _ _ => rfl)
    (fun c => ⟨?_, setInfo_chanId m chan hf c⟩) rfl (Nat.le_refl _)
  by_cases hsame : c = chan
  · subst hsame
    simp [Mem.setInfo, Mem.setChan]
  · simp [Mem.setInfo, Mem.setChan, hsame]

theorem asCreate (h : SubIndex m A) (uid : UInt64) :
    SubIndex (m.asCreate uid).2 (insert m.nextRef A) := by
  have hold : ∀ a ∈ A, (m.asCreate uid).2.as a = m.as a := by
    intro a ha
    simp [Mem.asCreate, Nat.ne_of_lt (h.fresh_as a ha)]
  have hkept : SubIndex (m.asCreate uid).2 A :=
    h.congr (fun a ha => by rw [hold a ha]) (fun _ _ _ _ => rfl) (fun _ _ => rfl)
      (fun _ => ⟨rfl, rfl⟩) rfl (Nat.le_succ _)
  have hempty : ((m.asCreate uid).2.as m.nextRef).aspcs = [] := by simp [Mem.asCreate]
  refine ⟨hkept.linked.addLeft hempty, ?_, hkept.lists, ?_, hkept.fresh_lists, ?_⟩
  · rintro a (rfl | ha) l hl
    · rw [hempty] at hl
      cases hl
    · exact hkept.keys a ha l hl
  · rintro a (rfl | ha)
    · exact Nat.lt_succ_self _
    · exact hkept.fresh_as a ha
  · rintro a (rfl | ha) l hl
    · rw [hempty] at hl
      cases hl
    · exact hkept.fresh_links a ha l hl

theorem aspcCreate (h : SubIndex m A) (as chan : Ref) :
    SubIndex (m.aspcCreate as chan).2 A := by
  refine h.congr (fun _ _ => rfl) (fun a ha l hl => ?_) (fun _ _ => rfl)
    (fun _ => ⟨rfl, rfl⟩) rfl (Nat.le_succ _)
  simp [Mem.aspcCreate, Nat.ne_of_lt (h.fresh_links a ha l hl).1]

/-- The new link goes to the end of both lists. -/
theorem aspcPut (h : SubIndex m A) (htables : ChannelTables m) {l : Ref}
    (ha : (m.aspc l).as ∈ A) (hc : (m.aspc l).chan ∈ m.chansById)
    (hkey : m.aspcKey l = (m.chan (m.aspc l).chan).info.chanId)
    (hfresh : l < m.nextRef ∧ (m.aspc l).heKey < m.nextRef)
    (hnew : ∀ l' ∈ (m.as (m.aspc l).as).aspcs, (m.aspc l').chan ≠ (m.aspc l).chan) :
    SubIndex (m.aspcPut l) A ∧
      ((m.aspcPut l).as (m.aspc l).as).aspcs = (m.as (m.aspc l).as).aspcs ++ [l] := by
  have hput : put m.aspcKey (m.as (m.aspc l).as).aspcs l =
      (m.as (m.aspc l).as).aspcs ++ [l] := by
    refine put_of_fresh fun l' hl' heq => hnew l' hl' ?_
    rw [h.keys _ ha l' hl', hkey] at heq
    obtain ⟨_, hc', _⟩ := h.linked.of_left _ ha l' hl'
    exact htables.eq_of_id hc' hc heq
  have haspcs : ((m.aspcPut l).as (m.aspc l).as).aspcs = (m.as (m.aspc l).as).aspcs ++ [l] := by
    simpa [Mem.aspcPut, Mem.setAs, Mem.setAspcs] using hput
  have hother : ∀ a, a ≠ (m.aspc l).as → (m.aspcPut l).as a = m.as a := by
    intro a hne
    simp [Mem.aspcPut, Mem.setAs, Mem.setAspcs, hne]
  refine ⟨⟨?_, ?_, h.lists, h.fresh_as, h.fresh_lists, ?_⟩, haspcs⟩
  · refine h.linked.link ha hc hnew haspcs (fun a _ hne => by rw [hother a hne]) ?_ ?_
    · simp [Mem.aspcPut, Mem.setAs, Mem.setAspcs]
    · intro c hcB hne
      have hlist : (m.chan c).aspcs ≠ (m.chan (m.aspc l).chan).aspcs :=
        fun heq => hne (h.lists hcB hc heq)
      simp [Mem.aspcPut, Mem.setAs, Mem.setAspcs, hlist]
  · intro a haA l' hl'
    by_cases hsame : a = (m.aspc l).as
    · rw [hsame, haspcs, List.mem_append, List.mem_singleton] at hl'
      rcases hl' with hold | rfl
      · exact h.keys _ ha l' hold
      · exact hkey
    · rw [hother a hsame] at hl'
      exact h.keys a haA l' hl'
  · intro a haA l' hl'
    by_cases hsame : a = (m.aspc l).as
    · rw [hsame, haspcs, List.mem_append, List.mem_singleton] at hl'
      rcases hl' with hold | rfl
      · exact h.fresh_links _ ha l' hold
      · exact hfresh
    · rw [hother a hsame] at hl'
      exact h.fresh_links a haA l' hl'

/-- The links of an active subscriber are hashed by distinct channels. -/
theorem keyed (h : SubIndex m A) (htables : ChannelTables m) {a : Ref} (ha : a ∈ A) :
    Keyed m.aspcKey (m.as a).aspcs := by
  refine List.Nodup.map_on (fun l hl l' hl' heq => ?_) (h.linked.nodup_left a ha)
  rw [h.keys a ha l hl, h.keys a ha l' hl'] at heq
  obtain ⟨_, hc, _⟩ := h.linked.of_left a ha l hl
  obtain ⟨_, hc', _⟩ := h.linked.of_left a ha l' hl'
  exact h.linked.unique a ha l hl l' hl' (htables.eq_of_id hc hc' heq)

theorem get_aspc (h : SubIndex m A) (htables : ChannelTables m) {a : Ref} (ha : a ∈ A)
    {chan : Ref} (hchan : chan ∈ m.chansById) {l : Ref} :
    get m.aspcKey (m.as a).aspcs (m.chan chan).info.chanId = some l ↔
      l ∈ (m.as a).aspcs ∧ (m.aspc l).chan = chan := by
  rw [get_eq_some (h.keyed htables ha)]
  constructor
  · rintro ⟨hl, hkey⟩
    rw [h.keys a ha l hl] at hkey
    obtain ⟨_, hc, _⟩ := h.linked.of_left a ha l hl
    exact ⟨hl, htables.eq_of_id hc hchan hkey⟩
  · rintro ⟨hl, rfl⟩
    exact ⟨hl, h.keys a ha l hl⟩

/-- `aspc_remove` finds the link between the user and the channel. -/
theorem aspcRemove_eq (h : SubIndex m A) (htables : ChannelTables m) {uid : UInt64}
    {as chan l : Ref} (has : as ∈ A) (hget : m.asGet uid = some as)
    (hchan : chan ∈ m.chansById) (hl : l ∈ (m.as as).aspcs)
    (hlink : (m.aspc l).chan = chan) :
    m.aspcRemove uid chan = (some l,
      (m.setAs as fun object =>
        { object with aspcs := object.aspcs.filter (· ≠ l) }).setAspcs chan
          fun aspcs => aspcs.filter (· ≠ l)) := by
  have hfound := (h.get_aspc htables has hchan).mpr ⟨hl, hlink⟩
  have hremove := (h.keyed htables has).remove_key hl
  rw [h.keys as has l hl, hlink] at hremove
  simp only [Mem.aspcRemove, hget, hfound, Mem.setAs, hremove]

theorem aspcRemove_eq_self (h : SubIndex m {a | a ∈ m.ass}) (htables : ChannelTables m)
    {uid : UInt64} {chan : Ref} (hchan : chan ∈ m.chansById)
    (hnone : ∀ as, m.asGet uid = some as → ∀ l ∈ (m.as as).aspcs, (m.aspc l).chan ≠ chan) :
    m.aspcRemove uid chan = (none, m) := by
  cases hget : m.asGet uid with
  | none => simp [Mem.aspcRemove, hget]
  | some as =>
      have hmiss : get m.aspcKey (m.as as).aspcs (m.chan chan).info.chanId = none := by
        rw [Option.eq_none_iff_forall_ne_some]
        intro l hfound
        obtain ⟨hl, hlink⟩ :=
          (h.get_aspc htables (mem_of_get hget).1 hchan).mp hfound
        exact hnone as hget l hl hlink
      simp [Mem.aspcRemove, hget, hmiss]

/-- Take one link out of both its lists. -/
theorem unlink (h : SubIndex m A) {a l : Ref} (ha : a ∈ A) (hl : l ∈ (m.as a).aspcs) :
    SubIndex ((m.setAs a fun object =>
      { object with aspcs := object.aspcs.filter (· ≠ l) }).setAspcs (m.aspc l).chan
        fun aspcs => aspcs.filter (· ≠ l)) A := by
  set m' := (m.setAs a fun object =>
      { object with aspcs := object.aspcs.filter (· ≠ l) }).setAspcs (m.aspc l).chan
        fun aspcs => aspcs.filter (· ≠ l) with hm'
  obtain ⟨hend, hc, _⟩ := h.linked.of_left a ha l hl
  have haspcs : ∀ a' ∈ A, ((m'.as a').aspcs).Nodup ∧
      ∀ l', l' ∈ (m'.as a').aspcs ↔ l' ∈ (m.as a').aspcs ∧ l' ≠ l := by
    intro a' ha'
    by_cases hsame : a' = a
    · subst hsame
      have heq : (m'.as a').aspcs = (m.as a').aspcs.filter (· ≠ l) := by
        simp [hm', Mem.setAs, Mem.setAspcs]
      rw [heq]
      exact ⟨(h.linked.nodup_left a' ha').filter _, fun l' => by simp⟩
    · have heq : (m'.as a').aspcs = (m.as a').aspcs := by
        simp [hm', Mem.setAs, Mem.setAspcs, hsame]
      rw [heq]
      refine ⟨h.linked.nodup_left a' ha', fun l' => ⟨fun hl' => ⟨hl', ?_⟩, And.left⟩⟩
      rintro rfl
      exact hsame ((h.linked.of_left a' ha' l' hl').1.symm.trans hend)
  have hlists : ∀ c ∈ m.chansById, (m'.aspcList (m.chan c).aspcs).Nodup ∧
      ∀ l', l' ∈ m'.aspcList (m.chan c).aspcs ↔
        l' ∈ m.aspcList (m.chan c).aspcs ∧ l' ≠ l := by
    intro c hcB
    by_cases hsame : c = (m.aspc l).chan
    · have heq : m'.aspcList (m.chan c).aspcs =
          (m.aspcList (m.chan c).aspcs).filter (· ≠ l) := by
        simp [hm', Mem.setAs, Mem.setAspcs, hsame]
      rw [heq]
      exact ⟨(h.linked.nodup_right c hcB).filter _, fun l' => by simp⟩
    · have hne : (m.chan c).aspcs ≠ (m.chan (m.aspc l).chan).aspcs :=
        fun heq => hsame (h.lists hcB hc heq)
      have heq : m'.aspcList (m.chan c).aspcs = m.aspcList (m.chan c).aspcs := by
        simp [hm', Mem.setAs, Mem.setAspcs, hne]
      rw [heq]
      refine ⟨h.linked.nodup_right c hcB, fun l' => ⟨fun hl' => ⟨hl', ?_⟩, And.left⟩⟩
      rintro rfl
      exact hsame (h.linked.of_right c hcB l' hl').1.symm
  refine ⟨?_, ?_, h.lists, h.fresh_as, h.fresh_lists, ?_⟩
  · exact h.linked.restrict (· ≠ l) subset_rfl subset_rfl haspcs hlists
      (fun a' ha' l' hl' _ => (h.linked.of_left a' ha' l' hl').2.1)
      (fun c hcB l' hl' _ => (h.linked.of_right c hcB l' hl').2.1)
  · intro a' ha' l' hl'
    exact h.keys a' ha' l' (((haspcs a' ha').2 l').mp hl').1
  · intro a' ha' l' hl'
    exact h.fresh_links a' ha' l' (((haspcs a' ha').2 l').mp hl').1

/-- A new channel has no subscribers. -/
theorem createChan (h : SubIndex m A) (htables : ChannelTables m) {ci : ChanInfo}
    (hname : ∀ chan ∈ m.chansById, (m.chan chan).info.name ≠ ci.name)
    (hid : ∀ chan ∈ m.chansById, (m.chan chan).info.chanId ≠ ci.chanId) :
    SubIndex (m.createChan ci) A := by
  have hfresh : ∀ c ∈ m.chansById, c ≠ m.nextRef :=
    fun c hc => Nat.ne_of_lt (htables.fresh c hc)
  have hlist : ∀ c ∈ m.chansById, (m.chan c).aspcs ≠ m.nextRef + 1 :=
    fun c hc => Nat.ne_of_lt (Nat.lt_succ_of_lt (h.fresh_lists c hc))
  rw [Mem.createChan_eq htables hname hid]
  have hset : {c | c ∈ m.chansById ++ [m.nextRef]} =
      insert m.nextRef {c | c ∈ m.chansById} := by
    ext c
    simp [or_comm]
  refine ⟨?_, ?_, ?_, ?_, ?_, ?_⟩
  · simp only [hset]
    refine Linked.addRight (h.linked.congr (fun _ _ _ _ => ⟨rfl, rfl⟩) (fun _ _ => rfl)
      fun c hc => ?_) ?_
    · rw [Function.update_of_ne (hfresh c hc), Function.update_of_ne (hlist c hc)]
    · simp [Mem.chanNode]
  · intro a ha l hl
    have hheKey := (h.fresh_links a ha l hl).2
    obtain ⟨_, hc, _⟩ := h.linked.of_left a ha l hl
    simp only [Mem.aspcKey]
    rw [Function.update_of_ne (Nat.ne_of_lt hheKey), Function.update_of_ne (hfresh _ hc)]
    exact h.keys a ha l hl
  · simp only [hset]
    have hnew : m.nextRef ∉ {c | c ∈ m.chansById} := fun hmem => hfresh _ hmem rfl
    refine (Set.injOn_insert hnew).mpr ⟨?_, ?_⟩
    · exact h.lists.congr fun c hc => by simp [Function.update_of_ne (hfresh c hc)]
    · rintro ⟨c, hc, heq⟩
      simp only [Function.update_of_ne (hfresh c hc), Function.update_self,
        Mem.chanNode] at heq
      exact hlist c hc heq
  · exact fun a ha => Nat.lt_of_lt_of_le (h.fresh_as a ha) (Nat.le_add_right _ 2)
  · intro c hc
    rcases List.mem_append.mp hc with hold | hnew
    · simp only [Function.update_of_ne (hfresh c hold)]
      exact Nat.lt_of_lt_of_le (h.fresh_lists c hold) (Nat.le_add_right _ 2)
    · rw [List.mem_singleton.mp hnew]
      simp [Mem.chanNode]
  · intro a ha l hl
    obtain ⟨hlink, hheKey⟩ := h.fresh_links a ha l hl
    exact ⟨Nat.lt_of_lt_of_le hlink (Nat.le_add_right _ 2),
      Nat.lt_of_lt_of_le hheKey (Nat.le_add_right _ 2)⟩

/-- The copy of a channel takes over its subscribers. -/
theorem chanUpdate (h : SubIndex m A) (htables : ChannelTables m) {chan : Ref}
    {ci : ChanInfo} (hchan : chan ∈ m.chansById)
    (hid : ci.chanId = (m.chan chan).info.chanId)
    (hname : ∀ other ∈ m.chansById, other ≠ chan → (m.chan other).info.name ≠ ci.name) :
    SubIndex (m.chanUpdate chan ci) A := by
  have hfresh : ∀ c ∈ m.chansById, c ≠ m.nextRef :=
    fun c hc => Nat.ne_of_lt (htables.fresh c hc)
  have hkept : ∀ c, c ≠ m.nextRef → ∀ node : Chan,
      (Function.update (Function.update m.chan chan
        { m.chan chan with refs := (m.chan chan).refs - 2 }) m.nextRef node c).aspcs =
        (m.chan c).aspcs ∧
      (Function.update (Function.update m.chan chan
        { m.chan chan with refs := (m.chan chan).refs - 2 }) m.nextRef node c).info =
        (m.chan c).info := by
    intro c hne node
    rw [Function.update_of_ne hne]
    by_cases hsame : c = chan
    · subst hsame
      simp
    · simp [Function.update_of_ne hsame]
  have hmem : ∀ c, c ∈ m.chansById.filter (· ≠ chan) ++ [m.nextRef] ↔
      (c ∈ m.chansById ∧ c ≠ chan) ∨ c = m.nextRef := by
    intro c
    simp
  rw [Mem.chanUpdate_eq htables hchan hid hname]
  refine ⟨?_, ?_, ?_, ?_, ?_, ?_⟩
  · have hleft : (fun l => ((if l ∈ m.aspcList (m.chan chan).aspcs then
        { m.aspc l with chan := m.nextRef } else m.aspc l : ActiveSuberPerChan)).as) =
        fun l => (m.aspc l).as := by
      funext l
      split <;> rfl
    simp only [hleft]
    refine h.linked.replaceRight hchan (fun hin => hfresh _ hin rfl) (fun l hl => ?_)
      (fun a _ l _ hl => ?_) ?_ (fun c hc hne => ?_) hmem
    · simp only [if_pos hl]
    · simp only [if_neg hl]
    · simp [Mem.chanNode]
    · rw [(hkept c (hfresh c hc) _).1]
  · intro a ha l hl
    have hheKey := (h.fresh_links a ha l hl).2
    obtain ⟨_, hc, hin⟩ := h.linked.of_left a ha l hl
    have hkey := h.keys a ha l hl
    simp only [Mem.aspcKey] at hkey ⊢
    by_cases hlist : l ∈ m.aspcList (m.chan chan).aspcs
    · have hend := (h.linked.of_right chan hchan l hlist).1
      simp only [if_pos hlist, Function.update_self, Mem.chanNode]
      rw [(hkept _ (Nat.ne_of_lt hheKey) _).2, hkey, hid, hend]
    · simp only [if_neg hlist]
      rw [(hkept _ (Nat.ne_of_lt hheKey) _).2, (hkept _ (hfresh _ hc) _).2]
      exact hkey
  · intro c hc c' hc' heq
    have hold : ∀ c, c ∈ m.chansById ∧ c ≠ chan → ∀ node : Chan,
        (Function.update (Function.update m.chan chan
          { m.chan chan with refs := (m.chan chan).refs - 2 }) m.nextRef node c).aspcs ≠
        (m.chan chan).aspcs := by
      rintro c ⟨hc, hne⟩ node heq
      rw [(hkept c (hfresh c hc) node).1] at heq
      exact hne (h.lists hc hchan heq)
    simp only at heq
    rcases (hmem c).mp hc with hc | rfl
    · rcases (hmem c').mp hc' with hc' | rfl
      · rw [(hkept c (hfresh c hc.1) _).1, (hkept c' (hfresh c' hc'.1) _).1] at heq
        exact h.lists hc.1 hc'.1 heq
      · rw [Function.update_self m.nextRef] at heq
        exact absurd heq (hold c hc _)
    · rcases (hmem c').mp hc' with hc' | rfl
      · rw [Function.update_self m.nextRef] at heq
        exact absurd heq.symm (hold c' hc' _)
      · rfl
  · exact fun a ha => Nat.lt_succ_of_lt (h.fresh_as a ha)
  · intro c hc
    rcases (hmem c).mp hc with ⟨hold, _⟩ | rfl
    · simp only [(hkept c (hfresh c hold) _).1]
      exact Nat.lt_succ_of_lt (h.fresh_lists c hold)
    · simp only [Function.update_self, Mem.chanNode]
      exact Nat.lt_succ_of_lt (h.fresh_lists chan hchan)
  · intro a ha l hl
    obtain ⟨hlink, hheKey⟩ := h.fresh_links a ha l hl
    refine ⟨Nat.lt_succ_of_lt hlink, ?_⟩
    by_cases hlist : l ∈ m.aspcList (m.chan chan).aspcs
    · simp only [if_pos hlist]
      exact Nat.lt_succ_of_lt hheKey
    · simp only [if_neg hlist]
      exact Nat.lt_succ_of_lt hheKey

end SubIndex

/-- The channel operations leave the notification side alone. -/
theorem SameNotify.createChan {m : Mem} (htables : ChannelTables m) {ci : ChanInfo}
    (hname : ∀ chan ∈ m.chansById, (m.chan chan).info.name ≠ ci.name)
    (hid : ∀ chan ∈ m.chansById, (m.chan chan).info.chanId ≠ ci.chanId) :
    SameNotify m (m.createChan ci) := by
  rw [Mem.createChan_eq htables hname hid]
  exact ⟨fun _ => ⟨rfl, rfl⟩, rfl, rfl, rfl, rfl, Nat.le_add_right _ 2⟩

theorem SameNotify.chanUpdate {m : Mem} (htables : ChannelTables m) {chan : Ref}
    {ci : ChanInfo} (hchan : chan ∈ m.chansById)
    (hid : ci.chanId = (m.chan chan).info.chanId)
    (hname : ∀ other ∈ m.chansById, other ≠ chan → (m.chan other).info.name ≠ ci.name) :
    SameNotify m (m.chanUpdate chan ci) := by
  rw [Mem.chanUpdate_eq htables hchan hid hname]
  exact ⟨fun _ => ⟨rfl, rfl⟩, rfl, rfl, rfl, rfl, Nat.le_succ _⟩

end FeedsService.Feeds
