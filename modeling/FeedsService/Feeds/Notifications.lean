import FeedsService.Feeds.Counters
import FeedsService.Feeds.Subscribers

/-!
# Who is notified

The subscriber tables simulate two relations: which user has enabled
notifications from which node, and which user has subscribed to which channel.
Enabling and disabling edit all the tables; subscribing and unsubscribing edit
the links of a user that is active at that moment.
-/

namespace FeedsService.Feeds

open FeedsService.Library FeedsService.Library.KeyedTable FeedsService.Runs

/-- The user has a link to the node. -/
def Mem.Notified (m : Mem) (user : UInt64) (node : NodeId) : Prop :=
  ∃ a ∈ m.ass, (m.as a).uid = user ∧
    ∃ l ∈ (m.as a).ndpass, (m.nd (m.ndpas l).nd).nodeId = node

/-- The tables simulate the relation `enabled` and the subscriptions of the
active subscribers. -/
structure Simulates (w : World) (enabled : UInt64 → NodeId → Prop) : Prop where
  consistent : Consistent w
  notify : NotifyIndex w.mem {a | a ∈ w.mem.ass} {n | n ∈ w.mem.nds}
  subs : SubIndex w.mem {a | a ∈ w.mem.ass}
  active : ∀ a ∈ w.mem.ass, (w.mem.as a).ndpass ≠ []
  reached : ∀ n ∈ w.mem.nds, (w.mem.nd n).ndpass ≠ []
  enabled_iff : ∀ user node, enabled user node ↔ w.mem.Notified user node
  subscribed_iff : ∀ a ∈ w.mem.ass, ∀ c ∈ w.mem.chansById,
    (∃ l ∈ (w.mem.as a).aspcs, (w.mem.aspc l).chan = c) ↔
      dbIsSuber w.db (bindInt64 (w.mem.as a).uid) (w.mem.chan c).info.chanId = true

section Enable

/-- What `aspc_create` for every subscription of a new active subscriber has
made: links that are in no list yet. -/
structure AspcsCreated (m m' : Mem) (as : Ref) (ids : List ℕ) (aspcs : List Ref) : Prop where
  links : ∀ l ∈ aspcs, m.nextRef ≤ l ∧ l < m'.nextRef ∧ (m'.aspc l).as = as ∧
    (m'.aspc l).heKey = (m'.aspc l).chan ∧ (m'.aspc l).chan ∈ m.chansById
  ids : aspcs.map (fun l => (m.chan (m'.aspc l).chan).info.chanId) = ids
  old : ∀ l, l < m.nextRef → m'.aspc l = m.aspc l
  as : m'.as = m.as
  aspcList : m'.aspcList = m.aspcList

theorem aspcsCreate_cons {m : Mem} {as chan : Ref} {id : ℕ} (ids : List ℕ)
    (hchan : m.chanGetById id = some chan) :
    m.aspcsCreate as (id :: ids) =
      (m.nextRef :: ((m.aspcCreate as chan).2.aspcsCreate as ids).1,
        ((m.aspcCreate as chan).2.aspcsCreate as ids).2) := by
  rw [Mem.aspcsCreate, hchan]
  rfl

theorem aspcsCreated (as : Ref) (ids : List ℕ) (m : Mem) (htables : ChannelTables m)
    (hids : ∀ id ∈ ids, ∃ chan ∈ m.chansById, (m.chan chan).info.chanId = id) :
    AspcsCreated m (m.aspcsCreate as ids).2 as ids (m.aspcsCreate as ids).1 := by
  induction ids generalizing m with
  | nil => exact ⟨by simp [Mem.aspcsCreate], rfl, fun _ _ => rfl, rfl, rfl⟩
  | cons id ids ih =>
      obtain ⟨chan, hmem, hid⟩ := hids id List.mem_cons_self
      have htables' : ChannelTables (m.aspcCreate as chan).2 :=
        htables.congr (fun _ _ => ⟨rfl, rfl, rfl, rfl⟩) rfl rfl (Nat.le_succ _)
      have hrest := ih (m.aspcCreate as chan).2 htables' fun other hother =>
        hids other (List.mem_cons_of_mem _ hother)
      have hnew : ((m.aspcCreate as chan).2.aspcsCreate as ids).2.aspc m.nextRef =
          ⟨chan, as, chan⟩ := by
        rw [hrest.old m.nextRef (Nat.lt_succ_self _)]
        simp [Mem.aspcCreate]
      have hnext : m.nextRef + 1 ≤ ((m.aspcCreate as chan).2.aspcsCreate as ids).2.nextRef :=
        (SameChannels.aspcsCreate as ids (m.aspcCreate as chan).2).nextRef
      rw [aspcsCreate_cons ids (htables.chanGetById_eq_some.mpr ⟨hmem, hid⟩)]
      refine ⟨fun l hl => ?_, ?_, fun l hl => ?_, hrest.as, hrest.aspcList⟩
      · rcases List.mem_cons.mp hl with rfl | hl
        · rw [hnew]
          exact ⟨Nat.le_refl _, hnext, rfl, rfl, hmem⟩
        · obtain ⟨hlow, hlinks⟩ := hrest.links l hl
          exact ⟨Nat.le_of_succ_le hlow, hlinks⟩
      · rw [List.map_cons, hnew, hid]
        exact congrArg (id :: ·) hrest.ids
      · rw [hrest.old l (Nat.lt_succ_of_lt hl)]
        simp [Mem.aspcCreate, Nat.ne_of_lt hl]

theorem foldl_aspc {α : Type} {f : Mem → α → Mem} (hf : ∀ m a, (f m a).aspc = m.aspc)
    (as : List α) (m : Mem) : (as.foldl f m).aspc = m.aspc := by
  induction as generalizing m with
  | nil => rfl
  | cons a as ih => exact (ih (f m a)).trans (hf m a)

/-- Put links of one active subscriber to distinct channels, none of which it is
linked to. -/
theorem SubIndex.putAll {A : Set Ref} {a : Ref} (ha : a ∈ A) (aspcs : List Ref) (m : Mem)
    (h : SubIndex m A) (htables : ChannelTables m)
    (hlinks : ∀ l ∈ aspcs, l < m.nextRef ∧ (m.aspc l).as = a ∧
      (m.aspc l).heKey = (m.aspc l).chan ∧ (m.aspc l).chan ∈ m.chansById)
    (hnew : ∀ l ∈ aspcs, ∀ l' ∈ (m.as a).aspcs, (m.aspc l').chan ≠ (m.aspc l).chan)
    (hdistinct : (aspcs.map fun l => (m.aspc l).chan).Nodup) :
    SubIndex (aspcs.foldl Mem.aspcPut m) A ∧
      ((aspcs.foldl Mem.aspcPut m).as a).aspcs = (m.as a).aspcs ++ aspcs ∧
      ∀ other, other ≠ a → (aspcs.foldl Mem.aspcPut m).as other = m.as other := by
  induction aspcs generalizing m with
  | nil => exact ⟨h, by simp, fun _ _ => rfl⟩
  | cons l aspcs ih =>
      obtain ⟨hfresh, has, hheKey, hchan⟩ := hlinks l List.mem_cons_self
      rw [List.map_cons, List.nodup_cons] at hdistinct
      have hfreshKey : (m.aspc l).heKey < m.nextRef := by
        rw [hheKey]
        exact htables.fresh _ hchan
      have hput := h.aspcPut htables (by rwa [has]) hchan
        (by rw [Mem.aspcKey, hheKey]) ⟨hfresh, hfreshKey⟩
        (by rw [has]; exact hnew l List.mem_cons_self)
      rw [has] at hput
      have hsame := SameChannels.aspcPut m l
      have hother : ∀ other, other ≠ a → (m.aspcPut l).as other = m.as other := by
        intro other hne
        simp [Mem.aspcPut, Mem.setAs, Mem.setAspcs, has, hne]
      obtain ⟨hindex, haspcs, hrest⟩ := ih (m.aspcPut l) hput.1
        (htables.congr (by simp [hsame.chan]) hsame.chansByName hsame.chansById hsame.nextRef)
        (fun l' hl' => hlinks l' (List.mem_cons_of_mem _ hl'))
        (fun l' hl' other hother => by
          rw [hput.2, List.mem_append, List.mem_singleton] at hother
          rcases hother with hold | rfl
          · exact hnew l' (List.mem_cons_of_mem _ hl') other hold
          · exact fun heq => hdistinct.1 (List.mem_map.mpr ⟨l', hl', heq.symm⟩))
        hdistinct.2
      refine ⟨hindex, ?_, fun other hne => ?_⟩
      · rw [List.foldl_cons, haspcs, hput.2, List.append_assoc]
        rfl
      · rw [List.foldl_cons, hrest other hne, hother other hne]

/-- The node that `nd_get` finds or `nd_create` makes. -/
structure NodeFound (m m' : Mem) (A : Set Ref) (nodeId : NodeId) (n : Ref) (new : Bool) :
    Prop where
  index : NotifyIndex m' A (insert n {x | x ∈ m.nds})
  nodeId : (m'.nd n).nodeId = nodeId
  new : n ∈ m.nds ↔ new = false
  old : ∀ x ∈ m.nds, m'.nd x = m.nd x
  rest : m' = { m with nd := m'.nd, nextRef := m'.nextRef }

theorem nodeFound {m : Mem} {A : Set Ref} (h : NotifyIndex m A {n | n ∈ m.nds})
    (nodeId : NodeId) :
    NodeFound m (m.ndGetOrCreate nodeId).2.2 A nodeId (m.ndGetOrCreate nodeId).1
      (m.ndGetOrCreate nodeId).2.1 := by
  unfold Mem.ndGetOrCreate
  cases hget : m.ndGet nodeId with
  | some n =>
      obtain ⟨hmem, hnodeId⟩ := h.ndGet_eq_some.mp hget
      refine ⟨?_, hnodeId, ?_, fun _ _ => rfl, rfl⟩
      · have hsame : insert n {x | x ∈ m.nds} = {x | x ∈ m.nds} :=
          Set.insert_eq_of_mem (show n ∈ {x | x ∈ m.nds} from hmem)
        simpa only [hsame] using h
      · exact ⟨fun _ => rfl, fun _ => hmem⟩
  | none =>
      have hnone : ∀ n ∈ m.nds, (m.nd n).nodeId ≠ nodeId := get_eq_none.mp hget
      have hnotMem : m.nextRef ∉ m.nds := fun hmem => Nat.lt_irrefl _ (h.fresh_nd _ hmem)
      refine ⟨h.ndCreate hnone, ?_, ?_, fun x hx => ?_, rfl⟩
      · simp [Mem.ndCreate]
      · simpa [Mem.ndCreate] using hnotMem
      · simp [Mem.ndCreate, Nat.ne_of_lt (h.fresh_nd x hx)]

/-- The last step of `enable_notification`: one more link, in memory `m'`,
between the active subscriber `a` and the node `n`, either of which may be new. -/
theorem Simulates.link {w : World} {enabled : UInt64 → NodeId → Prop}
    (h : Simulates w enabled) {m' : Mem} {a n l : Ref} {uid : UInt64} {nodeId : NodeId}
    (hnotify : NotifyIndex m' {x | x ∈ m'.ass} {x | x ∈ m'.nds})
    (hsubs : SubIndex m' {x | x ∈ m'.ass}) (hchannels : SameChannels w.mem m')
    (hass : ∀ x, x ∈ m'.ass ↔ x ∈ w.mem.ass ∨ x = a)
    (hnds : ∀ x, x ∈ m'.nds ↔ x ∈ w.mem.nds ∨ x = n)
    (hold : ∀ x ∈ w.mem.ass, x ≠ a → m'.as x = w.mem.as x)
    (huid : (m'.as a).uid = uid) (huidOld : a ∈ w.mem.ass → (w.mem.as a).uid = uid)
    (hlinks : ∀ l', l' ∈ (m'.as a).ndpass ↔
      (a ∈ w.mem.ass ∧ l' ∈ (w.mem.as a).ndpass) ∨ l' = l)
    (hnode : ∀ x ∈ w.mem.nds, (m'.nd x).nodeId = (w.mem.nd x).nodeId ∧
      (x ≠ n → (m'.nd x).ndpass = (w.mem.nd x).ndpass))
    (hndpas : ∀ x ∈ w.mem.ass, ∀ l' ∈ (w.mem.as x).ndpass, m'.ndpas l' = w.mem.ndpas l')
    (hend : (m'.ndpas l).nd = n) (hnodeId : (m'.nd n).nodeId = nodeId)
    (haspc : ∀ x ∈ w.mem.ass, ∀ l' ∈ (w.mem.as x).aspcs, m'.aspc l' = w.mem.aspc l')
    (hsubscribed : ∀ c ∈ w.mem.chansById,
      (∃ l' ∈ (m'.as a).aspcs, (m'.aspc l').chan = c) ↔
        dbIsSuber w.db (bindInt64 uid) (w.mem.chan c).info.chanId = true) :
    Simulates ⟨m', w.db⟩ fun user node => enabled user node ∨ (user = uid ∧ node = nodeId) := by
  have hlive : ∀ x ∈ w.mem.ass, ∀ l' ∈ (w.mem.as x).ndpass,
      (m'.nd (m'.ndpas l').nd).nodeId = (w.mem.nd (w.mem.ndpas l').nd).nodeId := by
    intro x hx l' hl'
    rw [hndpas x hx l' hl']
    exact (hnode _ (h.notify.linked.of_left x hx l' hl').2.1).1
  have ha : a ∈ m'.ass := (hass a).mpr (.inr rfl)
  have hl : l ∈ (m'.as a).ndpass := (hlinks l).mpr (.inr rfl)
  refine
    { consistent := ⟨h.consistent.mirror.congr hchannels rfl rfl, h.consistent.counted⟩
      notify := hnotify
      subs := hsubs
      active := fun x hx => ?_
      reached := fun x hx => ?_
      enabled_iff := fun user node => ?_
      subscribed_iff := fun x hx c hc => ?_ }
  · by_cases hsame : x = a
    · rw [hsame]
      exact List.ne_nil_of_mem hl
    · have hx := ((hass x).mp hx).resolve_right hsame
      simp only [hold x hx hsame]
      exact h.active x hx
  · by_cases hsame : x = n
    · have hin := (hnotify.linked.of_left a ha l hl).2.2
      simp only [hend] at hin
      rw [hsame]
      exact List.ne_nil_of_mem hin
    · have hx := ((hnds x).mp hx).resolve_right hsame
      simp only [(hnode x hx).2 hsame]
      exact h.reached x hx
  · rw [h.enabled_iff]
    constructor
    · rintro (⟨x, hx, hxuid, l', hl', hnode'⟩ | ⟨rfl, rfl⟩)
      · refine ⟨x, (hass x).mpr (.inl hx), ?_, l', ?_, (hlive x hx l' hl').trans hnode'⟩
        · by_cases hsame : x = a
          · subst hsame
            exact huid.trans ((huidOld hx).symm.trans hxuid)
          · rw [hold x hx hsame]
            exact hxuid
        · by_cases hsame : x = a
          · subst hsame
            exact (hlinks l').mpr (.inl ⟨hx, hl'⟩)
          · rw [hold x hx hsame]
            exact hl'
      · exact ⟨a, ha, huid, l, hl, by rw [hend, hnodeId]⟩
    · rintro ⟨x, hx, hxuid, l', hl', hnode'⟩
      by_cases hsame : x = a
      · subst hsame
        rcases (hlinks l').mp hl' with ⟨hx, hl'⟩ | rfl
        · refine .inl ⟨x, hx, ?_, l', hl', (hlive x hx l' hl').symm.trans hnode'⟩
          exact (huidOld hx).trans (huid.symm.trans hxuid)
        · refine .inr ⟨hxuid.symm.trans huid, ?_⟩
          rw [← hnode', hend, hnodeId]
      · have hx := ((hass x).mp hx).resolve_right hsame
        simp only [hold x hx hsame] at hxuid hl'
        exact .inl ⟨x, hx, hxuid, l', hl', (hlive x hx l' hl').symm.trans hnode'⟩
  · simp only [hchannels.chansById] at hc
    by_cases hsame : x = a
    · subst hsame
      simp only [huid, hchannels.chan]
      exact hsubscribed c hc
    · have hx := ((hass x).mp hx).resolve_right hsame
      simp only [hold x hx hsame, hchannels.chan]
      rw [← h.subscribed_iff x hx c hc]
      constructor
      · rintro ⟨l', hl', hchan⟩
        exact ⟨l', hl', by rw [← haspc x hx l' hl', hchan]⟩
      · rintro ⟨l', hl', hchan⟩
        exact ⟨l', hl', by rw [haspc x hx l' hl', hchan]⟩

/-- The subscriptions of a new active subscriber `a`, linked. -/
structure SubsLinked (m m' : Mem) (A : Set Ref) (a : Ref) (ids : List ℕ) : Prop where
  index : SubIndex m' (insert a A)
  channels : SameChannels m m'
  aspcs_old : ∀ x ∈ A, (m'.as x).aspcs = (m.as x).aspcs
  aspc_old : ∀ x ∈ A, ∀ l ∈ (m.as x).aspcs, m'.aspc l = m.aspc l
  links : ∀ c ∈ m.chansById, (∃ l ∈ (m'.as a).aspcs, (m'.aspc l).chan = c) ↔
    (m.chan c).info.chanId ∈ ids

/-- Create the active subscriber and its links, and put the links, with
operations on nodes in between. -/
theorem subsLinked {m m₁ : Mem} {A : Set Ref} {ids : List ℕ} (h : SubIndex m A)
    (htables : ChannelTables m) (uid : UInt64) (hdistinct : ids.Nodup)
    (hids : ∀ id ∈ ids, ∃ chan ∈ m.chansById, (m.chan chan).info.chanId = id)
    (hsame : SameSubs (m.asCreate uid).2 m₁) (l : Ref) :
    SubsLinked m ((m₁.aspcsCreate m.nextRef ids).1.foldl Mem.aspcPut
      ((m₁.aspcsCreate m.nextRef ids).2.ndpasPut l)) A m.nextRef ids := by
  have hchannels₁ : SameChannels m m₁ := (SameChannels.asCreate m uid).trans hsame.channels
  have htables₁ : ChannelTables m₁ :=
    htables.congr (by simp [hchannels₁.chan]) hchannels₁.chansByName hchannels₁.chansById
      hchannels₁.nextRef
  have hcreated := aspcsCreated m.nextRef ids m₁ htables₁ (by
    rw [hchannels₁.chansById, hchannels₁.chan]
    exact hids)
  have hchannels₂ := SameChannels.aspcsCreate m.nextRef ids m₁
  generalize (m₁.aspcsCreate m.nextRef ids).1 = aspcs at hcreated ⊢
  generalize (m₁.aspcsCreate m.nextRef ids).2 = m₂ at hcreated hchannels₂ ⊢
  have hput := SameSubs.ndpasPut m₂ l
  have hindex₁ := (h.asCreate uid).of_same hsame
  have hindex₂ : SubIndex m₂ (insert m.nextRef A) :=
    hindex₁.congr (fun _ _ => by rw [hcreated.as])
      (fun a ha l hl => hcreated.old l (hindex₁.fresh_links a ha l hl).1)
      (fun _ _ => by rw [hcreated.aspcList]) (by simp [hchannels₂.chan]) hchannels₂.chansById
      hchannels₂.nextRef
  have hchannels₃ : SameChannels m (m₂.ndpasPut l) :=
    (hchannels₁.trans hchannels₂).trans hput.channels
  have haspcs₃ : ∀ x, ((m₂.ndpasPut l).as x).aspcs = ((m.asCreate uid).2.as x).aspcs := by
    intro x
    rw [hput.as, hcreated.as, hsame.as]
  have hempty : ((m₂.ndpasPut l).as m.nextRef).aspcs = [] := by
    rw [haspcs₃]
    simp [Mem.asCreate]
  have hlinks : ∀ l' ∈ aspcs, l' < m₂.nextRef ∧ (m₂.aspc l').as = m.nextRef ∧
      (m₂.aspc l').heKey = (m₂.aspc l').chan ∧ (m₂.aspc l').chan ∈ m.chansById := by
    intro l' hl'
    obtain ⟨_, hlink⟩ := hcreated.links l' hl'
    rwa [hchannels₁.chansById] at hlink
  have hchanIds : aspcs.map (fun l' => (m.chan (m₂.aspc l').chan).info.chanId) = ids := by
    have hmap := hcreated.ids
    rwa [hchannels₁.chan] at hmap
  obtain ⟨hindex, haspcs, hrest⟩ := (hindex₂.of_same hput).putAll (.inl rfl) aspcs
    (m₂.ndpasPut l)
    (htables.congr (by simp [hchannels₃.chan]) hchannels₃.chansByName hchannels₃.chansById
      hchannels₃.nextRef)
    (by
      rw [hchannels₃.chansById, hput.aspc]
      exact hlinks)
    (by simp [hempty])
    (by
      rw [hput.aspc]
      refine List.Nodup.of_map (fun c => (m.chan c).info.chanId) ?_
      rw [List.map_map]
      exact hchanIds ▸ hdistinct)
  have haspc := foldl_aspc (f := Mem.aspcPut) (fun _ _ => rfl) aspcs (m₂.ndpasPut l)
  rw [hput.aspc] at haspc
  have hne : ∀ x ∈ A, x ≠ m.nextRef := fun x hx => Nat.ne_of_lt (h.fresh_as x hx)
  refine ⟨hindex, hchannels₃.trans (.foldl SameChannels.aspcPut _ _), ?_, ?_, fun c hc => ?_⟩
  · intro x hx
    rw [hrest x (hne x hx), haspcs₃]
    simp [Mem.asCreate, hne x hx]
  · intro x hx l' hl'
    have hold : l' ∈ ((m.asCreate uid).2.as x).aspcs := by
      simpa [Mem.asCreate, hne x hx] using hl'
    have hlt := ((h.asCreate uid).fresh_links x (.inr hx) l' hold).1
    rw [haspc, hcreated.old l' (Nat.lt_of_lt_of_le hlt hsame.channels.nextRef), hsame.aspc]
    rfl
  · rw [haspcs, hempty, List.nil_append, haspc, ← hchanIds, List.mem_map]
    constructor
    · rintro ⟨l', hl', rfl⟩
      exact ⟨l', hl', rfl⟩
    · rintro ⟨l', hl', hid⟩
      exact ⟨l', hl', htables.eq_of_id (hlinks l' hl').2.2.2 hc hid⟩

/-- What one new link between the active subscriber `a` and the node of `nodeId`
makes of memory `m`. -/
structure NewLink (m m' : Mem) (A : Set Ref) (nodeId : NodeId) (a n l : Ref) : Prop where
  index : NotifyIndex m' A (insert n {x | x ∈ m.nds})
  ndpass : (m'.as a).ndpass = (m.as a).ndpass ++ [l]
  ndpass_ne : ∀ x, x ≠ a → (m'.as x).ndpass = (m.as x).ndpass
  uid : ∀ x, (m'.as x).uid = (m.as x).uid
  nodeId_old : ∀ x ∈ m.nds, (m'.nd x).nodeId = (m.nd x).nodeId
  nd_ne : ∀ x ∈ m.nds, x ≠ n → (m'.nd x).ndpass = (m.nd x).ndpass
  ndpas_old : ∀ l', l' < m.nextRef → m'.ndpas l' = m.ndpas l'
  ends : m'.ndpas l = ⟨a, n⟩
  nodeId : (m'.nd n).nodeId = nodeId
  ass : m'.ass = m.ass
  nds : m'.nds = m.nds

theorem NewLink.of_same {m m' m'' : Mem} {A : Set Ref} {nodeId : NodeId} {a n l : Ref}
    (h : NewLink m m' A nodeId a n l) (hsame : SameNotify m' m'') :
    NewLink m m'' A nodeId a n l where
  index := h.index.of_same hsame
  ndpass := (hsame.as a).2.trans h.ndpass
  ndpass_ne x hne := (hsame.as x).2.trans (h.ndpass_ne x hne)
  uid x := (hsame.as x).1.trans (h.uid x)
  nodeId_old := by
    rw [hsame.nd]
    exact h.nodeId_old
  nd_ne := by
    rw [hsame.nd]
    exact h.nd_ne
  ndpas_old := by
    rw [hsame.ndpas]
    exact h.ndpas_old
  ends := by
    rw [hsame.ndpas]
    exact h.ends
  nodeId := by
    rw [hsame.nd]
    exact h.nodeId
  ass := hsame.ass.trans h.ass
  nds := hsame.nds.trans h.nds

/-- Find or create the node, create the link, and put it, with operations on
subscriptions in between. -/
theorem newLink {m m₁ : Mem} {A : Set Ref} {a : Ref} (nodeId : NodeId)
    (h : NotifyIndex m A {n | n ∈ m.nds}) (ha : a ∈ A)
    (hnone : ∀ l ∈ (m.as a).ndpass, m.ndpasKey l ≠ nodeId)
    (hsame : SameNotify ((m.ndGetOrCreate nodeId).2.2.ndpasCreate a
      (m.ndGetOrCreate nodeId).1).2 m₁) :
    NewLink m (m₁.ndpasPut (m.ndGetOrCreate nodeId).2.2.nextRef) A nodeId a
      (m.ndGetOrCreate nodeId).1 (m.ndGetOrCreate nodeId).2.2.nextRef := by
  have hfound := nodeFound h nodeId
  generalize (m.ndGetOrCreate nodeId).1 = n at hfound hsame ⊢
  generalize (m.ndGetOrCreate nodeId).2.1 = new at hfound
  have hnext : m.nextRef ≤ (m.ndGetOrCreate nodeId).2.2.nextRef :=
    (SameChannels.ndGetOrCreate m nodeId).nextRef
  generalize (m.ndGetOrCreate nodeId).2.2 = found at hfound hsame hnext ⊢
  have hindex := (hfound.index.ndpasCreate a n).of_same hsame
  have hends : m₁.ndpas found.nextRef = ⟨a, n⟩ := by
    rw [hsame.ndpas]
    simp [Mem.ndpasCreate]
  have hold : ∀ l, l < m.nextRef → m₁.ndpas l = m.ndpas l := by
    intro l hl
    rw [hsame.ndpas, hfound.rest]
    simp [Mem.ndpasCreate, Nat.ne_of_lt (Nat.lt_of_lt_of_le hl hnext)]
  have has : ∀ x, (m₁.as x).uid = (m.as x).uid ∧ (m₁.as x).ndpass = (m.as x).ndpass := by
    intro x
    have hx := hsame.as x
    rw [hfound.rest] at hx
    exact hx
  have hnd : m₁.nd = found.nd := hsame.nd
  have hput := hindex.ndpasPut (l := found.nextRef) (by simpa [hends] using ha)
    (by simp [hends])
    (Nat.lt_of_lt_of_le (Nat.lt_succ_self _) hsame.nextRef)
    (by
      rw [hends]
      intro l hl heq
      rw [(has a).2] at hl
      obtain ⟨_, hmem, _⟩ := h.linked.of_left a ha l hl
      rw [hold l (h.fresh_links a ha l hl)] at heq
      refine hnone l hl ?_
      rw [Mem.ndpasKey, ← hfound.old _ hmem, heq, hfound.nodeId])
  rw [hends] at hput
  obtain ⟨hputIndex, hputNdpass⟩ := hput
  have hputNd : ∀ x, ((m₁.ndpasPut found.nextRef).nd x).nodeId = (found.nd x).nodeId ∧
      (x ≠ n → ((m₁.ndpasPut found.nextRef).nd x).ndpass = (found.nd x).ndpass) := by
    intro x
    by_cases hx : x = n
    · simp [Mem.ndpasPut, Mem.setAs, Mem.setNd, hends, hx, hnd]
    · simp [Mem.ndpasPut, Mem.setAs, Mem.setNd, hends, hx, hnd]
  have hputAs : ∀ x, ((m₁.ndpasPut found.nextRef).as x).uid = (m.as x).uid ∧
      (x ≠ a → ((m₁.ndpasPut found.nextRef).as x).ndpass = (m.as x).ndpass) := by
    intro x
    by_cases hx : x = a
    · simp [Mem.ndpasPut, Mem.setAs, Mem.setNd, hends, hx, has]
    · simp [Mem.ndpasPut, Mem.setAs, Mem.setNd, hends, hx, has]
  exact
    { index := hputIndex
      ndpass := by rw [hputNdpass, (has a).2]
      ndpass_ne := fun x hne => (hputAs x).2 hne
      uid := fun x => (hputAs x).1
      nodeId_old := fun x hx => by rw [(hputNd x).1, hfound.old x hx]
      nd_ne := fun x hx hne => by rw [(hputNd x).2 hne, hfound.old x hx]
      ndpas_old := hold
      ends := hends
      nodeId := (hputNd n).1.trans hfound.nodeId
      ass := by
        have hass := hsame.ass
        rw [hfound.rest] at hass
        exact hass
      nds := by
        have hnds := hsame.nds
        rw [hfound.rest] at hnds
        exact hnds }

theorem mem_asPut {m : Mem} {a : Ref} (h : Set.InjOn m.asKey (insert a {x | x ∈ m.ass}))
    (x : Ref) : x ∈ (m.asPut a).ass ↔ x ∈ m.ass ∨ x = a := by
  simp only [Mem.asPut, mem_put]
  constructor
  · rintro (⟨hx, _⟩ | rfl)
    · exact .inl hx
    · exact .inr rfl
  · rintro (hx | rfl)
    · by_cases hkey : m.asKey x = m.asKey a
      · exact .inr (h (.inr hx) (.inl rfl) hkey)
      · exact .inl ⟨hx, hkey⟩
    · exact .inr rfl

theorem ndPutNew_eq {m : Mem} {n : Ref} {new : Bool}
    (h : Set.InjOn m.ndKey (insert n {x | x ∈ m.nds})) (hnew : n ∈ m.nds ↔ new = false) :
    ∃ nds, (∀ x, x ∈ nds ↔ x ∈ m.nds ∨ x = n) ∧
      m.ndPutNew n new = { m with nds := nds } := by
  cases new with
  | false =>
      have hn : n ∈ m.nds := hnew.mpr rfl
      refine ⟨m.nds, fun x => ?_, rfl⟩
      exact ⟨.inl, fun hx => hx.elim id fun heq => heq ▸ hn⟩
  | true =>
      refine ⟨put m.ndKey m.nds n, fun x => ?_, rfl⟩
      rw [mem_put]
      constructor
      · rintro (⟨hx, _⟩ | rfl)
        · exact .inl hx
        · exact .inr rfl
      · rintro (hx | rfl)
        · by_cases hkey : m.ndKey x = m.ndKey n
          · exact .inr (h (.inr hx) (.inl rfl) hkey)
          · exact .inl ⟨hx, hkey⟩
        · exact .inr rfl

/-- The subscriptions of a user, through the database and memory. -/
theorem mem_dbIterSubChans {w : World} (h : Consistent w) {uid : UInt64} {id : ℕ} :
    id ∈ dbIterSubChans w.db uid ↔ ∃ chan ∈ w.mem.chansById,
      (w.mem.chan chan).info.chanId = id ∧ dbIsSuber w.db (bindInt64 uid) id = true := by
  simp only [dbIterSubChans, List.mem_flatMap, List.mem_filter, List.mem_map,
    ChannelRow.at, decide_eq_true_eq, dbIsSuber, List.any_eq_true, SubscriptionRow.at]
  constructor
  · rintro ⟨sub, ⟨hsub, huser⟩, row, ⟨hrow, hchannel⟩, hid⟩
    obtain ⟨chan, hchan, rfl⟩ := (h.mirror.mirrors.mem_rows row).mp hrow
    simp only [ChanInfo.toRow, Int.toNat_natCast] at hchannel hid
    exact ⟨chan, hchan, hid, sub, hsub, huser, by rw [← hchannel, hid]⟩
  · rintro ⟨chan, hchan, rfl, sub, hsub, huser, hchannel⟩
    refine ⟨sub, ⟨hsub, huser⟩, _, ⟨h.mirror.mirrors.row_of_chan hchan, ?_⟩, ?_⟩
    · exact hchannel.symm
    · simp [ChanInfo.toRow]

theorem nodup_dbIterSubChans {w : World} (h : Consistent w) (uid : UInt64) :
    (dbIterSubChans w.db uid).Nodup := by
  have hpos : ∀ row ∈ w.db.channels, 1 ≤ row.channelId :=
    fun row hrow => (h.mirror.mirrors.id_bounds hrow).1
  rw [dbIterSubChans, List.nodup_flatMap]
  constructor
  · intro sub _
    refine List.Nodup.map_on (fun left hleft right hright heq => ?_)
      ((List.Nodup.of_map _ h.mirror.mirrors.nodup_ids).filter _)
    obtain ⟨hleftMem, hleftAt⟩ := List.mem_filter.mp hleft
    obtain ⟨hrightMem, hrightAt⟩ := List.mem_filter.mp hright
    simp only [ChannelRow.at, decide_eq_true_eq] at hleftAt hrightAt
    exact eq_of_key_eq h.mirror.mirrors.nodup_ids hleftMem hrightMem
      (hleftAt.trans hrightAt.symm)
  · have hkeys : ((w.db.subscriptions.filter fun sub => sub.userId = bindInt64 uid).map
        fun row => (row.userId, row.channelId)).Nodup :=
      h.counted.subscriptionKeys.sublist (List.filter_sublist.map _)
    refine (List.pairwise_map.mp hkeys).imp_of_mem fun {left right} hleft hright hne => ?_
    have hleftUser := (List.mem_filter.mp hleft).2
    have hrightUser := (List.mem_filter.mp hright).2
    simp only [decide_eq_true_eq] at hleftUser hrightUser
    simp only [Function.onFun, List.disjoint_left, List.mem_map, List.mem_filter,
      ChannelRow.at, decide_eq_true_eq]
    rintro id ⟨row, ⟨hrow, hat⟩, hid⟩ ⟨row', ⟨hrow', hat'⟩, hid'⟩
    have hrowPos := hpos row hrow
    have hrowPos' := hpos row' hrow'
    refine hne (Prod.ext (hleftUser.trans hrightUser.symm) ?_)
    simp only
    omega

/-- A node that is already linked to an active subscriber. -/
theorem ndpasExist_iff {m : Mem} {a : Ref} {nodeId : NodeId} :
    m.ndpasExist a nodeId = true ↔ ∃ l ∈ (m.as a).ndpass, m.ndpasKey l = nodeId := by
  rw [Mem.ndpasExist, Option.isSome_iff_ne_none, Ne, get_eq_none]
  simp

/-- `enable_notification` of a user that is active already. -/
theorem Simulates.enblNotif_active {w : World} {enabled : UInt64 → NodeId → Prop}
    (h : Simulates w enabled) {uid : UInt64} {nodeId : NodeId} {a : Ref}
    (hget : w.mem.asGet uid = some a) :
    Simulates ⟨w.mem.enblNotif w.db uid nodeId, w.db⟩ fun user node =>
      enabled user node ∨ (user = uid ∧ node = nodeId) := by
  obtain ⟨ha, huid⟩ := h.notify.asGet_eq_some.mp hget
  by_cases hexist : w.mem.ndpasExist a nodeId = true
  · have hmem : w.mem.enblNotif w.db uid nodeId = w.mem := by
      simp [Mem.enblNotif, hget, hexist]
    have hthere : w.mem.Notified uid nodeId := by
      obtain ⟨l, hl, hkey⟩ := ndpasExist_iff.mp hexist
      exact ⟨a, ha, huid, l, hl, hkey⟩
    rw [hmem]
    refine { h with enabled_iff := fun user node => ?_ }
    rw [h.enabled_iff]
    constructor
    · rintro (hold | ⟨rfl, rfl⟩)
      · exact hold
      · exact hthere
    · exact .inl
  · have hnone : ∀ l ∈ (w.mem.as a).ndpass, w.mem.ndpasKey l ≠ nodeId :=
      fun l hl hkey => hexist (ndpasExist_iff.mpr ⟨l, hl, hkey⟩)
    have hnew := (nodeFound h.notify nodeId).new
    have hlink := newLink nodeId h.notify ha hnone (.refl _)
    have hsame := ((SameSubs.ndGetOrCreate w.mem nodeId).trans
      (.ndpasCreate _ a (w.mem.ndGetOrCreate nodeId).1)).trans
        (.ndpasPut _ (w.mem.ndGetOrCreate nodeId).2.2.nextRef)
    have hmem : w.mem.enblNotif w.db uid nodeId =
        (((w.mem.ndGetOrCreate nodeId).2.2.ndpasCreate a
          (w.mem.ndGetOrCreate nodeId).1).2.ndpasPut
            (w.mem.ndGetOrCreate nodeId).2.2.nextRef).ndPutNew
          (w.mem.ndGetOrCreate nodeId).1 (w.mem.ndGetOrCreate nodeId).2.1 := by
      simp only [Mem.enblNotif, hget, hexist, if_false, Bool.false_eq_true]
      rfl
    rw [hmem]
    generalize ((w.mem.ndGetOrCreate nodeId).2.2.ndpasCreate a
      (w.mem.ndGetOrCreate nodeId).1).2.ndpasPut (w.mem.ndGetOrCreate nodeId).2.2.nextRef = m
      at hlink hsame ⊢
    generalize (w.mem.ndGetOrCreate nodeId).2.2.nextRef = l at hlink
    generalize (w.mem.ndGetOrCreate nodeId).1 = n at hlink hnew ⊢
    generalize (w.mem.ndGetOrCreate nodeId).2.1 = new at hnew ⊢
    clear hmem
    obtain ⟨nds, hnds, heq⟩ := ndPutNew_eq
      (by rw [hlink.nds]; exact hlink.index.nodeIds) (by rw [hlink.nds]; exact hnew)
    rw [hlink.nds] at hnds
    rw [heq]
    have hset : {x | x ∈ nds} = insert n {x | x ∈ w.mem.nds} := by
      ext x
      simp [hnds, or_comm]
    have hsame' : SameSubs w.mem { m with nds := nds } :=
      ⟨⟨hsame.channels.chan, hsame.channels.chansByName, hsame.channels.chansById,
        hsame.channels.nxtChanId, hsame.channels.nextRef⟩, hsame.as, hsame.aspc,
        hsame.aspcList⟩
    refine h.link (a := a) (n := n) (l := l) ?_ ?_ hsame'.channels ?_ hnds ?_ ?_ (fun _ => huid)
      ?_ ?_ ?_ ?_ ?_ ?_ ?_
    · simp only [hset, hlink.ass]
      exact hlink.index.congr (fun _ _ => ⟨rfl, rfl⟩) (fun _ _ => rfl) (fun _ _ _ _ => rfl)
        (Nat.le_refl _)
    · rw [show {x | x ∈ ({ m with nds := nds } : Mem).ass} = {x | x ∈ w.mem.ass} by
        simp only [hlink.ass]]
      exact h.subs.of_same hsame'
    · intro x
      simp only [hlink.ass]
      exact ⟨.inl, fun hx => hx.elim id fun heq => heq ▸ ha⟩
    · intro x _ hne
      exact ActiveSuber.ext (hlink.uid x) (hsame.as x) (hlink.ndpass_ne x hne)
    · exact (hlink.uid a).trans huid
    · intro l'
      simp only [hlink.ndpass, List.mem_append, List.mem_singleton, ha, true_and]
    · exact fun x hx => ⟨hlink.nodeId_old x hx, hlink.nd_ne x hx⟩
    · exact fun x hx l' hl' => hlink.ndpas_old l' (h.notify.fresh_links x hx l' hl')
    · simp only [hlink.ends]
    · exact hlink.nodeId
    · exact fun x _ l' _ => by simp only [hsame.aspc]
    · intro c hc
      simp only [hsame.as, hsame.aspc]
      rw [h.subscribed_iff a ha c hc, huid]

/-- `enable_notification` of a user that becomes active. -/
theorem Simulates.enblNotif_inactive {w : World} {enabled : UInt64 → NodeId → Prop}
    (h : Simulates w enabled) {uid : UInt64} {nodeId : NodeId}
    (hget : w.mem.asGet uid = none) :
    Simulates ⟨w.mem.enblNotif w.db uid nodeId, w.db⟩ fun user node =>
      enabled user node ∨ (user = uid ∧ node = nodeId) := by
  have hnone : ∀ a ∈ w.mem.ass, (w.mem.as a).uid ≠ uid := get_eq_none.mp hget
  have hcreated := h.notify.asCreate hnone
  have hfresh : w.mem.nextRef ∉ w.mem.ass :=
    fun hmem => Nat.lt_irrefl _ (h.notify.fresh_as _ hmem)
  have hnew := (nodeFound hcreated nodeId).new
  let found := (w.mem.asCreate uid).2.ndGetOrCreate nodeId
  let created := found.2.2.ndpasCreate w.mem.nextRef found.1
  let aspcs := created.2.aspcsCreate w.mem.nextRef (dbIterSubChans w.db uid)
  let m := aspcs.1.foldl Mem.aspcPut (aspcs.2.ndpasPut found.2.2.nextRef)
  have hmem : w.mem.enblNotif w.db uid nodeId =
      (m.asPut w.mem.nextRef).ndPutNew found.1 found.2.1 := by
    simp only [Mem.enblNotif, hget]
    rfl
  have hsame : SameSubs (w.mem.asCreate uid).2 created.2 :=
    (SameSubs.ndGetOrCreate _ nodeId).trans (.ndpasCreate _ _ _)
  have hlinked : SubsLinked w.mem m {a | a ∈ w.mem.ass} w.mem.nextRef
      (dbIterSubChans w.db uid) := by
    refine subsLinked h.subs h.consistent.mirror.mirrors.tables uid
      (nodup_dbIterSubChans h.consistent uid) (fun id hid => ?_) hsame _
    obtain ⟨chan, hchan, hchanId, _⟩ := (mem_dbIterSubChans h.consistent).mp hid
    exact ⟨chan, hchan, hchanId⟩
  have hlink : NewLink (w.mem.asCreate uid).2 m (insert w.mem.nextRef {a | a ∈ w.mem.ass})
      nodeId w.mem.nextRef found.1 found.2.2.nextRef :=
    (newLink nodeId hcreated (.inl rfl) (by simp [Mem.asCreate])
      (SameNotify.aspcsCreate w.mem.nextRef (dbIterSubChans w.db uid) created.2)).of_same
        (SameNotify.foldl SameNotify.aspcPut _ _)
  rw [hmem]
  clear hmem hsame
  clear_value m
  generalize found.1 = n at hlink hnew ⊢
  generalize found.2.1 = new at hnew ⊢
  generalize found.2.2.nextRef = l at hlink
  have hassEq : m.ass = w.mem.ass := hlink.ass
  have hndsEq : m.nds = w.mem.nds := hlink.nds
  have hass := mem_asPut (m := m) (a := w.mem.nextRef) (by
    rw [hassEq]
    exact hlink.index.uids)
  rw [hassEq] at hass
  obtain ⟨nds, hnds, heq⟩ := @ndPutNew_eq (m.asPut w.mem.nextRef) n new
    (by
      rw [show (m.asPut w.mem.nextRef).nds = w.mem.nds from hndsEq]
      exact hlink.index.nodeIds)
    (by
      rw [show (m.asPut w.mem.nextRef).nds = w.mem.nds from hndsEq]
      exact hnew)
  rw [show (m.asPut w.mem.nextRef).nds = w.mem.nds from hndsEq] at hnds
  rw [heq]
  have hassSet : {x | x ∈ (m.asPut w.mem.nextRef).ass} =
      insert w.mem.nextRef {x | x ∈ w.mem.ass} := by
    ext x
    simp [hass, or_comm]
  have hndsSet : {x | x ∈ nds} = insert n {x | x ∈ w.mem.nds} := by
    ext x
    simp [hnds, or_comm]
  have hchannels : SameChannels w.mem { m.asPut w.mem.nextRef with nds := nds } :=
    ⟨hlinked.channels.chan, hlinked.channels.chansByName, hlinked.channels.chansById,
      hlinked.channels.nxtChanId, hlinked.channels.nextRef⟩
  have hold : ∀ x ∈ w.mem.ass, (w.mem.asCreate uid).2.as x = w.mem.as x := by
    intro x hx
    simp [Mem.asCreate, Nat.ne_of_lt (h.notify.fresh_as x hx)]
  have hempty : ((w.mem.asCreate uid).2.as w.mem.nextRef).ndpass = [] := by
    simp [Mem.asCreate]
  refine h.link (a := w.mem.nextRef) (n := n) (l := l) ?_ ?_ hchannels hass hnds ?_ ?_
    (fun hmem => absurd hmem hfresh) ?_ ?_ ?_ ?_ ?_ ?_ ?_
  · simp only [hassSet, hndsSet]
    exact hlink.index.congr (fun _ _ => ⟨rfl, rfl⟩) (fun _ _ => rfl) (fun _ _ _ _ => rfl)
      (Nat.le_refl _)
  · simp only [hassSet]
    exact hlinked.index.congr (fun _ _ => rfl) (fun _ _ _ _ => rfl) (fun _ _ => rfl)
      (fun _ => ⟨rfl, rfl⟩) rfl (Nat.le_refl _)
  · intro x hx hne
    refine ActiveSuber.ext ?_ (hlinked.aspcs_old x hx) ?_
    · exact (hlink.uid x).trans (by rw [hold x hx])
    · exact (hlink.ndpass_ne x hne).trans (by rw [hold x hx])
  · exact (hlink.uid w.mem.nextRef).trans (by simp [Mem.asCreate])
  · intro l'
    have hndpass : (m.as w.mem.nextRef).ndpass = [l] := by
      rw [hlink.ndpass, hempty, List.nil_append]
    simp [Mem.asPut, hndpass, hfresh]
  · exact fun x hx => ⟨hlink.nodeId_old x hx, hlink.nd_ne x hx⟩
  · intro x hx l' hl'
    exact hlink.ndpas_old l' (Nat.lt_succ_of_lt (h.notify.fresh_links x hx l' hl'))
  · show (m.ndpas l).nd = n
    rw [hlink.ends]
  · exact hlink.nodeId
  · exact hlinked.aspc_old
  · intro c hc
    refine (hlinked.links c hc).trans ?_
    rw [mem_dbIterSubChans h.consistent]
    constructor
    · rintro ⟨chan, _, _, hsub⟩
      exact hsub
    · exact fun hsub => ⟨c, hc, rfl, hsub⟩

theorem Simulates.enblNotif {w : World} {enabled : UInt64 → NodeId → Prop}
    (h : Simulates w enabled) (uid : UInt64) (nodeId : NodeId) :
    Simulates ⟨w.mem.enblNotif w.db uid nodeId, w.db⟩ fun user node =>
      enabled user node ∨ (user = uid ∧ node = nodeId) := by
  cases hget : w.mem.asGet uid with
  | none => exact h.enblNotif_inactive hget
  | some a => exact h.enblNotif_active hget

end Enable

end FeedsService.Feeds
