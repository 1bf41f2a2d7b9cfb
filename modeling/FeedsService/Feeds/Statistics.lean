import FeedsService.Feeds.Subscriptions

/-!
# The statistics after a sign-in

Who signs in is put into the users table, and the nodes are told the number of users.  The loop goes
over the links of the nodes, so a node is told once for each user that has enabled notifications
there.
-/

namespace FeedsService.Feeds

open FeedsService.Library FeedsService.Library.KeyedTable FeedsService.Runs

/-- `hdl_stats_changed_notify`: the calls of `notify_of_stats_changed`, in order.  The count is read
as an `int`. -/
def hdlStatsChangedNotify (w : World) : List (NodeId × ℤ) :=
  let totalClients := toInt32 (dbGetCountUsers w.db)
  if totalClients < 0 then
    []
  else
    w.mem.nds.flatMap fun nd =>
      (w.mem.nd nd).ndpass.map fun ndpas =>
        ((w.mem.nd (w.mem.ndpas ndpas).nd).nodeId, totalClients)

/-- The pairs of a user and a node, as the loop comes by their links. -/
def Mem.enabledPairs (m : Mem) : List (UInt64 × NodeId) :=
  m.nds.flatMap fun nd =>
    (m.nd nd).ndpass.map fun ndpas =>
      ((m.as (m.ndpas ndpas).as).uid, (m.nd (m.ndpas ndpas).nd).nodeId)

/-- How many users there are after a sign-in. -/
def clientsAfter (db : Db) (ui : UserInfo) : ℕ :=
  if db.users.any fun row => row.did = ui.did then db.users.length else db.users.length + 1

/-- The notification after a sign-in tells each node the number of users, once for each user that
has enabled notifications there, and no other node. -/
def TellsStatistics (t : Tracked) (event : Event) (t' : Tracked) : Prop :=
  ∀ ui now rowid, event = .signIn ui now rowid →
    (dbUpsertUser t.world.db ui now rowid).isSome → clientsAfter t.world.db ui < 2 ^ 31 →
      ∃ pairs : List (UInt64 × NodeId), pairs.Nodup ∧
        (∀ user node, (user, node) ∈ pairs ↔ t.enabled user node) ∧
        hdlStatsChangedNotify t'.world =
          pairs.map fun pair => (pair.2, (clientsAfter t.world.db ui : ℤ))

section Nodes

namespace Mem

variable (m : Mem)

theorem nds_derefOpt (chan : Option Ref) : (m.derefOpt chan).nds = m.nds := by
  cases chan <;> rfl

theorem nds_chanUpdate (chan : Ref) (ci : ChanInfo) : (m.chanUpdate chan ci).nds = m.nds :=
  (nds_derefOpt _ _).trans (nds_derefOpt _ _)

theorem nds_loadChan (ci : ChanInfo) : (m.loadChan ci).nds = m.nds := by
  rw [loadChan]
  dsimp only
  split <;> rfl

theorem nds_subChan (uid : UInt64) (chan : Ref) : (m.subChan uid chan).nds = m.nds := by
  rw [subChan]
  split <;> rfl

theorem nds_unsubChan (uid : UInt64) (chan : Ref) : (m.unsubChan uid chan).nds = m.nds := by
  change (m.aspcRemove uid chan).2.nds = m.nds
  rw [aspcRemove]
  split
  · rfl
  · dsimp only
    split <;> rfl

theorem nds_foldl {α : Type} {f : Mem → α → Mem} (hf : ∀ m a, (f m a).nds = m.nds) (as : List α) :
    (as.foldl f m).nds = m.nds := by
  induction as generalizing m with
  | nil => rfl
  | cons a as ih => exact (ih (f m a)).trans (hf m a)

theorem nds_aspcsUnlink (as : Ref) : (m.aspcsUnlink as).nds = m.nds := by
  refine nds_foldl m ?_ _
  exact fun _ _ => rfl

theorem nds_deactivateRound (nodeId : NodeId) (ndpas : Ref) :
    (m.deactivateRound nodeId ndpas).nds = m.nds := by
  rw [deactivateRound]
  split
  · exact nds_aspcsUnlink _ _
  · rfl

theorem nds_ndGetOrCreate (nodeId : NodeId) : (m.ndGetOrCreate nodeId).2.2.nds = m.nds := by
  rw [ndGetOrCreate]
  split <;> rfl

variable {m}

theorem nodup_ndPutNew (h : m.nds.Nodup) (nd : Ref) (new : Bool) :
    (m.ndPutNew nd new).nds.Nodup := by
  rw [ndPutNew]
  split
  · exact nodup_put h nd
  · exact h

theorem nodup_enblNotif (h : m.nds.Nodup) (db : Db) (uid : UInt64) (nodeId : NodeId) :
    (m.enblNotif db uid nodeId).nds.Nodup := by
  rw [enblNotif]
  split
  · split
    · exact h
    · refine nodup_ndPutNew ?_ _ _
      change (m.ndGetOrCreate nodeId).2.2.nds.Nodup
      rwa [nds_ndGetOrCreate]
  · refine nodup_ndPutNew ?_ _ _
    have hput : ∀ (m : Mem) (aspc : Ref), (m.aspcPut aspc).nds = m.nds := fun _ _ => rfl
    change (List.foldl aspcPut _ _).nds.Nodup
    rw [nds_foldl _ hput]
    change (aspcsCreate _ _ _).2.nds.Nodup
    rw [(SameNotify.aspcsCreate _ _ _).nds]
    change ((m.asCreate uid).2.ndGetOrCreate nodeId).2.2.nds.Nodup
    rwa [nds_ndGetOrCreate]

theorem nodup_feedsDeactivateSuber (h : m.nds.Nodup) (nodeId : NodeId) :
    (m.feedsDeactivateSuber nodeId).nds.Nodup := by
  rw [feedsDeactivateSuber]
  split
  · exact h
  · rw [nds_foldl _ fun m ndpas => nds_deactivateRound m nodeId ndpas]
    exact h.filter _

end Mem

theorem Effect.nodup_nds {w w' : World} {ctx : Ctx} {req : Req} (h : w.mem.nds.Nodup)
    (heffect : Effect w ctx req w') : w'.mem.nds.Nodup := by
  cases heffect with
  | updChan =>
      rw [Mem.nds_chanUpdate]
      exact h
  | subChan =>
      rw [Mem.nds_subChan]
      exact h
  | unsubChan =>
      rw [Mem.nds_unsubChan]
      exact h
  | enblNotif => exact Mem.nodup_enblNotif h _ _ _
  | _ => exact h

/-- No node is in the table twice. -/
theorem nodup_nds_step (w : World) (event : Event) (h : w.mem.nds.Nodup) :
    (step w event).mem.nds.Nodup := by
  refine step_preserves (P := fun w => w.mem.nds.Nodup) (fun _ _ _ _ h hdone => ?_)
    (fun _ nodeId h => Mem.nodup_feedsDeactivateSuber h nodeId) (fun _ _ _ _ h => h)
    (fun w _ => ?_) w event h
  · exact Effect.nodup_nds h (handle_effect hdone)
  · change ((dbIterChans w.db).foldl Mem.loadChan Mem.init).nds.Nodup
    rw [Mem.nds_foldl _ fun m ci => Mem.nds_loadChan m ci]
    exact List.nodup_nil

end Nodes

section Pairs

variable {w : World} {enabled : UInt64 → NodeId → Prop}

theorem Simulates.nodup_enabledPairs (h : Simulates w enabled) (hnds : w.mem.nds.Nodup) :
    w.mem.enabledPairs.Nodup := by
  rw [Mem.enabledPairs, List.nodup_flatMap]
  constructor
  · intro nd hnd
    refine List.Nodup.map_on (fun l hl l' hl' heq => ?_) (h.notify.linked.nodup_right nd hnd)
    obtain ⟨-, ha, -⟩ := h.notify.linked.of_right nd hnd l hl
    obtain ⟨-, ha', -⟩ := h.notify.linked.of_right nd hnd l' hl'
    have hsame := h.notify.uids ha ha' (Prod.mk.inj heq).1
    exact h.notify.linked.symm.unique nd hnd l hl l' hl' hsame
  · refine List.Pairwise.imp_of_mem (fun {nd nd'} hnd hnd' hne => ?_) hnds
    simp only [Function.onFun, List.disjoint_left, List.mem_map]
    rintro pair ⟨l, hl, rfl⟩ ⟨l', hl', heq⟩
    obtain ⟨hend, -, -⟩ := h.notify.linked.of_right nd hnd l hl
    obtain ⟨hend', -, -⟩ := h.notify.linked.of_right nd' hnd' l' hl'
    have hsame := (Prod.mk.inj heq).2
    rw [hend, hend'] at hsame
    exact hne (h.notify.nodeIds hnd hnd' hsame.symm)

theorem Simulates.mem_enabledPairs (h : Simulates w enabled) (user : UInt64) (node : NodeId) :
    (user, node) ∈ w.mem.enabledPairs ↔ enabled user node := by
  simp only [Mem.enabledPairs, List.mem_flatMap, List.mem_map, Prod.mk.injEq, h.enabled_iff]
  constructor
  · rintro ⟨nd, hnd, l, hl, rfl, rfl⟩
    obtain ⟨-, ha, hmem⟩ := h.notify.linked.of_right nd hnd l hl
    exact ⟨_, ha, rfl, l, hmem, rfl⟩
  · rintro ⟨a, ha, rfl, l, hl, rfl⟩
    obtain ⟨hend, hnd, hmem⟩ := h.notify.linked.of_left a ha l hl
    exact ⟨_, hnd, l, hmem, by rw [hend], rfl⟩

/-- The nodes that are told the number of users have enabled notifications. -/
theorem Simulates.enabled_of_told (h : Simulates w enabled) {node : NodeId} {totalClients : ℤ}
    (htold : (node, totalClients) ∈ hdlStatsChangedNotify w) : ∃ user, enabled user node := by
  rw [hdlStatsChangedNotify] at htold
  split at htold
  · exact absurd htold List.not_mem_nil
  · obtain ⟨nd, hnd, hlink⟩ := List.mem_flatMap.mp htold
    obtain ⟨ndpas, hndpas, hpair⟩ := List.mem_map.mp hlink
    refine ⟨(w.mem.as (w.mem.ndpas ndpas).as).uid, (h.mem_enabledPairs _ node).mp ?_⟩
    refine List.mem_flatMap.mpr ⟨nd, hnd, List.mem_map.mpr ⟨ndpas, hndpas, ?_⟩⟩
    rw [← (Prod.mk.inj hpair).1]

theorem hdlStatsChangedNotify_eq (hcount : dbGetCountUsers w.db < 2 ^ 31) :
    hdlStatsChangedNotify w =
      w.mem.enabledPairs.map fun pair => (pair.2, (dbGetCountUsers w.db : ℤ)) := by
  have htotal : toInt32 (dbGetCountUsers w.db) = dbGetCountUsers w.db :=
    Int.bmod_eq_of_le (by omega) (by omega)
  rw [hdlStatsChangedNotify, htotal, if_neg (by omega), Mem.enabledPairs, List.map_flatMap]
  simp only [List.map_map]
  rfl

theorem dbGetCountUsers_dbUpsertUser {db db' : Db} {ui : UserInfo} {now rowid : ℤ}
    (h : dbUpsertUser db ui now rowid = some db') : dbGetCountUsers db' = clientsAfter db ui := by
  rw [dbUpsertUser] at h
  rw [clientsAfter]
  split at h
  · next hknown =>
      cases h
      rw [if_pos hknown]
      exact length_updateWhere _ _ _
  · next hknown =>
      rw [if_neg hknown]
      split at h
      · cases h
      · cases h
        exact List.length_append

end Pairs

/-- In every run the notifications after the sign-ins tell the statistics to the enabled nodes. -/
theorem statistics_told (events : List Event) :
    EachStep TrackedStep TellsStatistics .init events := by
  refine @eachStep_of_preserved _ _ TrackedStep
    (fun t => Simulates t.world t.enabled ∧ t.world.mem.nds.Nodup) TellsStatistics
    (fun t event t' h hstep => ?_) (fun t event t' h hstep => ?_) _
    ⟨(Simulates.reachable events).head, List.nodup_nil⟩ events
  · obtain rfl : track t event = t' := by simpa [Performs] using hstep
    exact ⟨h.1.track event, nodup_nds_step t.world event h.2⟩
  · obtain rfl : track t event = t' := by simpa [Performs] using hstep
    rintro ui now rowid rfl hupsert hcount
    obtain ⟨db, hdb⟩ := Option.isSome_iff_exists.mp hupsert
    have hclients := dbGetCountUsers_dbUpsertUser hdb
    have hworld : (track t (.signIn ui now rowid)).world = ⟨t.world.mem, db⟩ := by
      simp only [track, step, hdb, Option.getD_some]
    refine ⟨_, h.1.nodup_enabledPairs h.2, h.1.mem_enabledPairs, ?_⟩
    rw [hworld, hdlStatsChangedNotify_eq (hclients ▸ hcount), hclients]

end FeedsService.Feeds
