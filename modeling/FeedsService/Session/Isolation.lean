import FeedsService.Session.Pipes

/-!
# Sessions do not mix

A data task finds its pipe by the peer, not by its session.  It finds the pipe of another
session, or none, exactly when the pipe of its own has been replaced or removed while the
task was waiting.
-/

namespace FeedsService.Session

open FeedsService.Library FeedsService.Runs

variable {Peer : Type} {mgr : MassDataManager Peer}

section Links

/-- The pipes and the sessions belong together. -/
structure Linked (mgr : MassDataManager Peer) : Prop where
  pipes : KeyedTable.Keyed DataPipe.peerId mgr.dataPipeMap
  sessions : KeyedTable.Keyed CarrierSessionHelper.id mgr.sessions
  born : ∀ session ∈ mgr.sessions, session.id < mgr.nextId
  /-- every pipe has its session, of the same peer -/
  backed : ∀ pipe ∈ mgr.dataPipeMap, ∃ session ∈ mgr.sessions,
    session.id = pipe.session ∧ session.peerId = pipe.peerId

/-- A session whose pipe is in the map. -/
def MassDataManager.Owns (mgr : MassDataManager Peer) (session : CarrierSessionHelper Peer) :
    Prop :=
  ∃ pipe ∈ mgr.dataPipeMap, pipe.session = session.id

/-- A session with data that waits for its task. -/
def CarrierSessionHelper.Waits (session : CarrierSessionHelper Peer) : Prop :=
  ∃ task ∈ session.taskQueue, task.isData = true

instance (session : CarrierSessionHelper Peer) : Decidable session.Waits :=
  inferInstanceAs (Decidable (∃ task ∈ session.taskQueue, task.isData = true))

instance (mgr : MassDataManager Peer) (session : CarrierSessionHelper Peer) :
    Decidable (mgr.Owns session) :=
  inferInstanceAs (Decidable (∃ pipe ∈ mgr.dataPipeMap, pipe.session = session.id))

theorem mem_release {session : CarrierSessionHelper Peer} :
    session ∈ mgr.release.sessions ↔
      session ∈ mgr.sessions ∧ (mgr.Owns session ∨ session.Waits) := by
  rw [MassDataManager.release, List.mem_filter, decide_eq_true_iff]
  rfl

theorem linked_init : Linked (.init : MassDataManager Peer) :=
  ⟨List.nodup_nil, List.nodup_nil, List.forall_mem_nil _, List.forall_mem_nil _⟩

theorem Linked.release (h : Linked mgr) : Linked mgr.release where
  pipes := h.pipes
  sessions := h.sessions.filter _
  born session hsession := h.born session (mem_release.mp hsession).1
  backed pipe hpipe := by
    obtain ⟨session, hsession, hid, hpeer⟩ := h.backed pipe hpipe
    exact ⟨session, mem_release.mpr ⟨hsession, Or.inl ⟨pipe, hpipe, hid.symm⟩⟩, hid, hpeer⟩

/-- The pipe of a session has its peer. -/
theorem Linked.peer (h : Linked mgr) {session : CarrierSessionHelper Peer}
    (hsession : session ∈ mgr.sessions) {pipe : DataPipe Peer} (hpipe : pipe ∈ mgr.dataPipeMap)
    (hid : pipe.session = session.id) : pipe.peerId = session.peerId := by
  obtain ⟨other, hother, hother', hpeer⟩ := h.backed pipe hpipe
  rw [← h.sessions.eq_of_key hother hsession (hother'.trans hid)]
  exact hpeer.symm

theorem mem_setQueue {id : ℕ} {queue : List Task → List Task}
    {session : CarrierSessionHelper Peer} :
    session ∈ (mgr.setQueue id queue).sessions ↔
      (session ∈ mgr.sessions ∧ session.id ≠ id) ∨
        ∃ old ∈ mgr.sessions, old.id = id ∧
          session = { old with taskQueue := queue old.taskQueue } := by
  rw [MassDataManager.setQueue, mem_updateWhere]
  simp only [decide_eq_true_iff, decide_eq_false_iff_not, eq_comm (b := session)]

theorem Linked.setQueue (h : Linked mgr) (id : ℕ) (queue : List Task → List Task) :
    Linked (mgr.setQueue id queue) where
  pipes := h.pipes
  sessions := by
    have hids : (mgr.setQueue id queue).sessions.map CarrierSessionHelper.id =
        mgr.sessions.map CarrierSessionHelper.id := map_updateWhere fun _ => rfl
    rw [KeyedTable.Keyed, hids]
    exact h.sessions
  born session hsession := by
    obtain ⟨hsession, -⟩ | ⟨old, hold, -, rfl⟩ := mem_setQueue.mp hsession
    · exact h.born session hsession
    · exact h.born old hold
  backed pipe hpipe := by
    obtain ⟨session, hsession, hid, hpeer⟩ := h.backed pipe hpipe
    by_cases hsame : session.id = id
    · exact ⟨_, mem_setQueue.mpr (Or.inr ⟨session, hsession, hsame, rfl⟩), hid, hpeer⟩
    · exact ⟨session, mem_setQueue.mpr (Or.inl ⟨hsession, hsame⟩), hid, hpeer⟩

/-- The records do not matter. -/
theorem Linked.record (h : Linked mgr) (received : List (ℕ × Bytes))
    (unpacked : List (ℕ × ℕ × Bytes)) :
    Linked { mgr with received := received, unpacked := unpacked } :=
  ⟨h.pipes, h.sessions, h.born, h.backed⟩

variable [DecidableEq Peer]

theorem Linked.removeDataPipe (h : Linked mgr) (key : Peer) : Linked (mgr.removeDataPipe key) := by
  refine Linked.release ⟨h.pipes.remove key, h.sessions, h.born, fun pipe hpipe => ?_⟩
  exact h.backed pipe (KeyedTable.mem_remove.mp hpipe).1

omit [DecidableEq Peer] in
theorem Linked.clearAllDataPipe (h : Linked mgr) : Linked mgr.clearAllDataPipe :=
  Linked.release ⟨List.nodup_nil, h.sessions, h.born, List.forall_mem_nil _⟩

theorem Linked.onSessionRequest (h : Linked mgr) (peer : Peer) (sdp : Bytes) :
    Linked (mgr.onSessionRequest peer sdp) := by
  refine Linked.release ⟨h.pipes.put _, ?_, fun session hsession => ?_, fun pipe hpipe => ?_⟩
  · exact h.sessions.concat (fun _ _ => rfl) fun other hother => (h.born other hother).ne
  · obtain hold | hnew := List.mem_append.mp hsession
    · exact (h.born session hold).trans (Nat.lt_succ_self _)
    · rw [List.mem_singleton.mp hnew]
      exact Nat.lt_succ_self _
  · obtain ⟨hold, -⟩ | rfl := KeyedTable.mem_put.mp hpipe
    · obtain ⟨session, hsession, hlink⟩ := h.backed pipe hold
      exact ⟨session, List.mem_append_left _ hsession, hlink⟩
    · exact ⟨_, List.mem_append_right _ (List.mem_singleton_self _), rfl, rfl⟩

/-- A pipe with a new state of its parser. -/
theorem Linked.setParser (h : Linked mgr) (peer : Peer) (parser : SessionParser) :
    Linked (mgr.setParser peer parser) where
  pipes := by
    have hpeers : (mgr.setParser peer parser).dataPipeMap.map DataPipe.peerId =
        mgr.dataPipeMap.map DataPipe.peerId := map_updateWhere fun _ => rfl
    rw [KeyedTable.Keyed, hpeers]
    exact h.pipes
  sessions := h.sessions
  born := h.born
  backed pipe hpipe := by
    obtain ⟨hold, -⟩ | ⟨old, hold, -, rfl⟩ := mem_updateWhere.mp hpipe
    · exact h.backed pipe hold
    · exact h.backed old hold

end Links

section Steps

theorem onStateChanged_eq_some {session : CarrierSessionHelper Peer} {state : CarrierStreamState}
    {ret : ℤ} {task : Task} (h : onStateChanged session state ret = some task) :
    ∃ notify code, task = .onNotify notify code := by
  cases state with
  | initialized =>
      rw [onStateChanged] at h
      split at h
      · exact ⟨_, _, (Option.some.inj h).symm⟩
      · cases h
  | transportReady =>
      rw [onStateChanged] at h
      split at h
      · cases h
      · split at h
        · exact ⟨_, _, (Option.some.inj h).symm⟩
        · cases h
  | connected | closed | failed => exact ⟨_, _, (Option.some.inj h).symm⟩
  | other => cases h

variable [DecidableEq Peer]

/-- A data task that comes to its end. -/
theorem onReceivedData_eq_ok {source : ℕ} {peer : Peer} {data : Bytes}
    {mgr' : MassDataManager Peer} (h : mgr.onReceivedData source peer data = .ok mgr') :
    ∃ pipe ∈ mgr.dataPipeMap, pipe.peerId = peer ∧
      ∃ parser ret, unpack pipe.parser data true = (parser, .returned ret) ∧
        mgr' = { mgr.setParser peer parser with
          unpacked := mgr.unpacked ++ [(pipe.session, source, data)] } := by
  rw [MassDataManager.onReceivedData] at h
  split at h
  · cases h
  · rename_i pipe hpipe
    obtain ⟨hmem, hpeer⟩ := KeyedTable.mem_of_get hpipe
    split at h
    · rename_i parser ret hunpack
      exact ⟨pipe, hmem, hpeer, parser, ret, hunpack, (Except.ok.inj h).symm⟩
    · cases h

/-- What one step comes to. -/
inductive Stepped (mgr : MassDataManager Peer) : Action Peer → MassDataManager Peer → Prop
  | request (peer : Peer) (sdp : Bytes) :
      Stepped mgr (.request peer sdp) (mgr.onSessionRequest peer sdp)
  | refused (peer : Peer) : Stepped mgr (.refused peer false) mgr
  | notified (peer : Peer) : Stepped mgr (.refused peer true) (mgr.removeDataPipe peer)
  | peerOffline (peer : Peer) : Stepped mgr (.peerOffline peer) (mgr.removeDataPipe peer)
  | selfOffline : Stepped mgr .selfOffline mgr.clearAllDataPipe
  | ignores (id : ℕ) (state : CarrierStreamState) (ret : ℤ) :
      Stepped mgr (.stateChanged id state ret) mgr
  | posts (id : ℕ) (state : CarrierStreamState) (ret : ℤ) (notify : Notify) (code : ℤ) :
      Stepped mgr (.stateChanged id state ret) (mgr.post id (.onNotify notify code))
  | arrives {session : CarrierSessionHelper Peer} (hsession : session ∈ mgr.sessions)
      (data : Bytes) :
      Stepped mgr (.streamData session.id data)
        { mgr.post session.id (.onReceivedData data) with
          received := mgr.received ++ [(session.id, data)] }
  | notifies {session : CarrierSessionHelper Peer} {notify : Notify} {code : ℤ} {rest : List Task}
      (hsession : session ∈ mgr.sessions)
      (hqueue : session.taskQueue = .onNotify notify code :: rest) :
      Stepped mgr (.run session.id)
        ((mgr.setQueue session.id fun _ => rest).onNotify session.peerId notify)
  | feeds {session : CarrierSessionHelper Peer} {data : Bytes} {rest : List Task}
      {pipe : DataPipe Peer} {parser : SessionParser} {ret : ℤ}
      (hsession : session ∈ mgr.sessions)
      (hqueue : session.taskQueue = .onReceivedData data :: rest) (hpipe : pipe ∈ mgr.dataPipeMap)
      (hpeer : pipe.peerId = session.peerId)
      (hunpack : unpack pipe.parser data true = (parser, .returned ret)) :
      Stepped mgr (.run session.id)
        { (mgr.setQueue session.id fun _ => rest).setParser session.peerId parser with
          unpacked := mgr.unpacked ++ [(pipe.session, session.id, data)] }.release

theorem stepped_of_next {action : Action Peer} {mgr' : MassDataManager Peer}
    (h : next mgr action = some mgr') : Stepped mgr action mgr' := by
  cases action with
  | request peer sdp =>
      cases h
      exact .request peer sdp
  | refused peer notified =>
      cases notified with
      | false =>
          cases h
          exact .refused peer
      | true =>
          cases h
          exact .notified peer
  | peerOffline peer =>
      cases h
      exact .peerOffline peer
  | selfOffline =>
      cases h
      exact .selfOffline
  | stateChanged id state ret =>
      obtain ⟨session, hsession, rfl⟩ := Option.map_eq_some_iff.mp h
      cases htask : onStateChanged session state ret with
      | none => exact .ignores id state ret
      | some task =>
          obtain ⟨notify, code, rfl⟩ := onStateChanged_eq_some htask
          exact .posts id state ret notify code
  | streamData id data =>
      obtain ⟨session, hsession, rfl⟩ := Option.map_eq_some_iff.mp h
      obtain ⟨hmem, rfl⟩ := KeyedTable.mem_of_get hsession
      exact .arrives hmem data
  | run id =>
      rw [next, perform] at h
      cases hsession : KeyedTable.get CarrierSessionHelper.id mgr.sessions id with
      | none =>
          rw [hsession] at h
          cases h
      | some session =>
          obtain ⟨hmem, rfl⟩ := KeyedTable.mem_of_get hsession
          rw [hsession] at h
          dsimp only at h
          cases hqueue : session.taskQueue with
          | nil =>
              rw [hqueue] at h
              cases h
          | cons task rest =>
              rw [hqueue] at h
              cases task with
              | onNotify notify code =>
                  cases h
                  exact .notifies hmem hqueue
              | onReceivedData data =>
                  dsimp only at h
                  cases hreceived : (mgr.setQueue session.id fun _ => rest).onReceivedData
                      session.id session.peerId data with
                  | error broken =>
                      rw [hreceived] at h
                      cases h
                  | ok received =>
                      rw [hreceived] at h
                      obtain ⟨pipe, hpipe, hpeer, parser, ret, hunpack, rfl⟩ :=
                        onReceivedData_eq_ok hreceived
                      cases h
                      exact .feeds hmem hqueue hpipe hpeer hunpack

end Steps

section Crossing

/-- Data that waits for its task is of a session whose pipe is in the map. -/
def Owned (mgr : MassDataManager Peer) : Prop :=
  ∀ session ∈ mgr.sessions, session.Waits → mgr.Owns session

/-- Every session that exists has its pipe in the map. -/
def Mapped (mgr : MassDataManager Peer) : Prop :=
  ∀ session ∈ mgr.sessions, mgr.Owns session

/-- No data of a peer waits. -/
def MassDataManager.Quiet (mgr : MassDataManager Peer) (peer : Peer) : Prop :=
  ∀ session ∈ mgr.sessions, session.peerId = peer → ¬ session.Waits

/-- A notification that ends the session has no data behind it. -/
def EndsLast : List Task → Prop
  | .onNotify notify _ :: rest =>
      notify = .closed ∨ notify = .error → ∀ task ∈ rest, task.isData = false
  | _ => True

/-- A pipe is put or removed only when no data of its peer waits. -/
def Orderly (mgr : MassDataManager Peer) : Action Peer → Prop
  | .request peer _ => mgr.Quiet peer
  | .refused peer notified => notified = true → mgr.Quiet peer
  | .peerOffline peer => mgr.Quiet peer
  | .selfOffline => ∀ session ∈ mgr.sessions, ¬ session.Waits
  | .run id => ∀ session ∈ mgr.sessions, session.id = id → EndsLast session.taskQueue
  | _ => True

instance (mgr : MassDataManager Peer) : Decidable (Owned mgr) :=
  inferInstanceAs (Decidable (∀ session ∈ mgr.sessions, session.Waits → mgr.Owns session))

instance : ∀ queue, Decidable (EndsLast queue)
  | [] => inferInstanceAs (Decidable True)
  | .onNotify notify _ :: rest => inferInstanceAs (Decidable
      (notify = .closed ∨ notify = .error → ∀ task ∈ rest, task.isData = false))
  | .onReceivedData _ :: _ => inferInstanceAs (Decidable True)

instance [DecidableEq Peer] (mgr : MassDataManager Peer) (peer : Peer) :
    Decidable (mgr.Quiet peer) :=
  inferInstanceAs (Decidable (∀ session ∈ mgr.sessions, session.peerId = peer → ¬ session.Waits))

instance [DecidableEq Peer] (mgr : MassDataManager Peer) :
    ∀ action, Decidable (Orderly mgr action)
  | .request peer _ => inferInstanceAs (Decidable (mgr.Quiet peer))
  | .refused peer notified => inferInstanceAs (Decidable (notified = true → mgr.Quiet peer))
  | .peerOffline peer => inferInstanceAs (Decidable (mgr.Quiet peer))
  | .selfOffline => inferInstanceAs (Decidable (∀ session ∈ mgr.sessions, ¬ session.Waits))
  | .stateChanged _ _ _ => inferInstanceAs (Decidable True)
  | .streamData _ _ => inferInstanceAs (Decidable True)
  | .run id => inferInstanceAs
      (Decidable (∀ session ∈ mgr.sessions, session.id = id → EndsLast session.taskQueue))

theorem Mapped.setQueue (h : Mapped mgr) (id : ℕ) (queue : List Task → List Task) :
    Mapped (mgr.setQueue id queue) := by
  intro session hsession
  obtain ⟨hsession, -⟩ | ⟨old, hold, -, rfl⟩ := mem_setQueue.mp hsession
  · exact h session hsession
  · exact h old hold

theorem Mapped.record (h : Mapped mgr) (received : List (ℕ × Bytes))
    (unpacked : List (ℕ × ℕ × Bytes)) :
    Mapped { mgr with received := received, unpacked := unpacked } :=
  h

theorem Mapped.release (h : Mapped mgr) : Mapped mgr.release :=
  fun session hsession => h session (mem_release.mp hsession).1

/-- A peer has one session. -/
theorem Mapped.unique (h : Mapped mgr) (hlinked : Linked mgr)
    {session other : CarrierSessionHelper Peer} (hsession : session ∈ mgr.sessions)
    (hother : other ∈ mgr.sessions) (hpeer : other.peerId = session.peerId) : other = session := by
  obtain ⟨pipe, hpipe, hid⟩ := h session hsession
  obtain ⟨pipe', hpipe', hid'⟩ := h other hother
  have hsame : pipe'.peerId = pipe.peerId :=
    (hlinked.peer hother hpipe' hid').trans (hpeer.trans (hlinked.peer hsession hpipe hid).symm)
  obtain rfl := hlinked.pipes.eq_of_key hpipe' hpipe hsame
  exact hlinked.sessions.eq_of_key hother hsession (hid'.symm.trans hid)

/-- The queue of the one session of a peer says whether data of the peer waits. -/
theorem quiet_iff (hlinked : Linked mgr) (hmapped : Mapped mgr)
    {session : CarrierSessionHelper Peer} (hsession : session ∈ mgr.sessions) :
    mgr.Quiet session.peerId ↔ ∀ task ∈ session.taskQueue, task.isData = false := by
  constructor
  · intro hquiet task htask
    by_contra hdata
    exact hquiet session hsession rfl ⟨task, htask, by simpa using hdata⟩
  · rintro hnone other hother hpeer ⟨task, htask, hdata⟩
    obtain rfl := hmapped.unique hlinked hsession hother hpeer
    rw [hnone task htask] at hdata
    cases hdata

theorem Mapped.clearAllDataPipe (hquiet : ∀ session ∈ mgr.sessions, ¬ session.Waits) :
    Mapped mgr.clearAllDataPipe := by
  intro session hsession
  obtain ⟨hsession, howns | hwaits⟩ := mem_release.mp hsession
  · exact howns
  · exact absurd hwaits (hquiet session hsession)

theorem not_owned_clearAllDataPipe (hnoisy : ¬ ∀ session ∈ mgr.sessions, ¬ session.Waits) :
    ¬ Owned mgr.clearAllDataPipe := by
  simp only [not_forall, not_not] at hnoisy
  obtain ⟨session, hsession, hwaits⟩ := hnoisy
  intro howned
  obtain ⟨pipe, hpipe, -⟩ := howned session (mem_release.mpr ⟨hsession, Or.inr hwaits⟩) hwaits
  cases hpipe

variable [DecidableEq Peer]

theorem Mapped.setParser (h : Mapped mgr) (peer : Peer) (parser : SessionParser) :
    Mapped (mgr.setParser peer parser) := by
  intro session hsession
  obtain ⟨pipe, hpipe, hid⟩ := h session hsession
  by_cases hpeer : pipe.peerId = peer
  · exact ⟨_, mem_updateWhere.mpr (Or.inr ⟨pipe, hpipe, decide_eq_true hpeer, rfl⟩), hid⟩
  · exact ⟨pipe, mem_updateWhere.mpr (Or.inl ⟨hpipe, decide_eq_false hpeer⟩), hid⟩

section Removal

variable (hlinked : Linked mgr) {peer : Peer}

include hlinked

theorem Mapped.removeDataPipe (h : Mapped mgr) (hquiet : mgr.Quiet peer) :
    Mapped (mgr.removeDataPipe peer) := by
  intro session hsession
  obtain ⟨hsession, howns | hwaits⟩ := mem_release.mp hsession
  · exact howns
  · obtain ⟨pipe, hpipe, hid⟩ := h session hsession
    have hother : pipe.peerId ≠ peer := by
      rw [hlinked.peer hsession hpipe hid]
      exact fun hpeer => hquiet session hsession hpeer hwaits
    exact ⟨pipe, KeyedTable.mem_remove.mpr ⟨hpipe, hother⟩, hid⟩

theorem not_owned_removeDataPipe (hnoisy : ¬ mgr.Quiet peer) :
    ¬ Owned (mgr.removeDataPipe peer) := by
  simp only [MassDataManager.Quiet, not_forall, not_not] at hnoisy
  obtain ⟨session, hsession, hpeer, hwaits⟩ := hnoisy
  intro howned
  obtain ⟨pipe, hpipe, hid⟩ := howned session (mem_release.mpr ⟨hsession, Or.inr hwaits⟩) hwaits
  obtain ⟨hpipe, hother⟩ := KeyedTable.mem_remove.mp hpipe
  exact hother ((hlinked.peer hsession hpipe hid).trans hpeer)

theorem Mapped.onSessionRequest (h : Mapped mgr) (hquiet : mgr.Quiet peer) (sdp : Bytes) :
    Mapped (mgr.onSessionRequest peer sdp) := by
  intro session hsession
  obtain ⟨hsession, howns | hwaits⟩ := mem_release.mp hsession
  · exact howns
  · obtain hsession | hnew := List.mem_append.mp hsession
    · obtain ⟨pipe, hpipe, hid⟩ := h session hsession
      have hother : pipe.peerId ≠ peer := by
        rw [hlinked.peer hsession hpipe hid]
        exact fun hpeer => hquiet session hsession hpeer hwaits
      exact ⟨pipe, KeyedTable.mem_put.mpr (Or.inl ⟨hpipe, hother⟩), hid⟩
    · obtain rfl := List.mem_singleton.mp hnew
      obtain ⟨task, htask, -⟩ := hwaits
      cases htask

theorem not_owned_onSessionRequest (hnoisy : ¬ mgr.Quiet peer) (sdp : Bytes) :
    ¬ Owned (mgr.onSessionRequest peer sdp) := by
  simp only [MassDataManager.Quiet, not_forall, not_not] at hnoisy
  obtain ⟨session, hsession, hpeer, hwaits⟩ := hnoisy
  intro howned
  obtain ⟨pipe, hpipe, hid⟩ := howned session
    (mem_release.mpr ⟨List.mem_append_left _ hsession, Or.inr hwaits⟩) hwaits
  obtain ⟨hpipe, hother⟩ | rfl := KeyedTable.mem_put.mp hpipe
  · exact hother ((hlinked.peer hsession hpipe hid).trans hpeer)
  · exact (hlinked.born session hsession).ne hid.symm

end Removal

theorem Stepped.linked {action : Action Peer} {mgr' : MassDataManager Peer}
    (h : Stepped mgr action mgr') (hlinked : Linked mgr) : Linked mgr' := by
  cases h with
  | request peer sdp => exact hlinked.onSessionRequest peer sdp
  | refused | ignores => exact hlinked
  | notified peer | peerOffline peer => exact hlinked.removeDataPipe peer
  | selfOffline => exact hlinked.clearAllDataPipe
  | posts => exact hlinked.setQueue _ _
  | arrives => exact (hlinked.setQueue _ _).record _ _
  | notifies hsession hqueue =>
      rw [MassDataManager.onNotify]
      split
      · exact (hlinked.setQueue _ _).removeDataPipe _
      · exact hlinked.setQueue _ _
  | feeds => exact (((hlinked.setQueue _ _).setParser _ _).record _ _).release

theorem Stepped.mapped {action : Action Peer} {mgr' : MassDataManager Peer}
    (h : Stepped mgr action mgr') (hlinked : Linked mgr) (hmapped : Mapped mgr)
    (horderly : Orderly mgr action) : Mapped mgr' := by
  cases h with
  | request peer sdp => exact hmapped.onSessionRequest hlinked horderly sdp
  | refused | ignores => exact hmapped
  | notified peer => exact hmapped.removeDataPipe hlinked (horderly rfl)
  | peerOffline peer => exact hmapped.removeDataPipe hlinked horderly
  | selfOffline => exact Mapped.clearAllDataPipe horderly
  | posts => exact hmapped.setQueue _ _
  | arrives => exact (hmapped.setQueue _ _).record _ _
  | @notifies session notify code rest hsession hqueue =>
      rw [MassDataManager.onNotify]
      split
      · rename_i hends
        have hlater : Linked (mgr.setQueue session.id fun _ => rest) := hlinked.setQueue _ _
        refine (hmapped.setQueue _ _).removeDataPipe hlater ?_
        have hlast := horderly session hsession rfl
        rw [hqueue, EndsLast] at hlast
        have hpopped : { session with taskQueue := rest } ∈
            (mgr.setQueue session.id fun _ => rest).sessions :=
          mem_setQueue.mpr (Or.inr ⟨session, hsession, rfl, rfl⟩)
        exact (quiet_iff hlater (hmapped.setQueue _ _) hpopped).mpr (hlast hends)
      · exact hmapped.setQueue _ _
  | feeds => exact (((hmapped.setQueue _ _).setParser _ _).record _ _).release

theorem Stepped.not_owned {action : Action Peer} {mgr' : MassDataManager Peer}
    (h : Stepped mgr action mgr') (hlinked : Linked mgr) (hmapped : Mapped mgr)
    (hdisorder : ¬ Orderly mgr action) : ¬ Owned mgr' := by
  cases h with
  | request peer sdp => exact not_owned_onSessionRequest hlinked hdisorder sdp
  | refused peer => exact absurd (fun h => nomatch h) hdisorder
  | notified peer =>
      exact not_owned_removeDataPipe hlinked fun hquiet => hdisorder fun _ => hquiet
  | peerOffline peer => exact not_owned_removeDataPipe hlinked hdisorder
  | selfOffline => exact not_owned_clearAllDataPipe hdisorder
  | ignores | posts | arrives => exact absurd trivial hdisorder
  | @notifies session notify code rest hsession hqueue =>
      have hnoisy : ¬ EndsLast session.taskQueue := by
        refine fun hlast => hdisorder fun other hother hid => ?_
        rw [hlinked.sessions.eq_of_key hother hsession hid]
        exact hlast
      rw [hqueue, EndsLast] at hnoisy
      obtain ⟨hends, hdata⟩ := Classical.not_imp.mp hnoisy
      have hpopped : { session with taskQueue := rest } ∈
          (mgr.setQueue session.id fun _ => rest).sessions :=
        mem_setQueue.mpr (Or.inr ⟨session, hsession, rfl, rfl⟩)
      rw [MassDataManager.onNotify, if_pos hends]
      refine not_owned_removeDataPipe (hlinked.setQueue _ _) fun hquiet => hdata ?_
      exact (quiet_iff (hlinked.setQueue _ _) (hmapped.setQueue _ _) hpopped).mp hquiet
  | @feeds session data rest pipe parser ret hsession hqueue =>
      refine absurd (fun other hother hid => ?_) hdisorder
      rw [hlinked.sessions.eq_of_key hother hsession hid, hqueue]
      trivial

/-- In every interleaving of the carrier and the pools, all the data that waits is of sessions
whose pipe is in the map, exactly when pipes are put and removed only while no data of their peer
waits. -/
theorem owned_iff (actions : List (Action Peer)) :
    Always (Performs next) Owned .init actions ↔
      EachStep (Performs next) (fun mgr action _ => Orderly mgr action) .init actions := by
  refine always_iff_eachStep (fun mgr => Linked mgr ∧ Mapped mgr) ?_ ?_ ?_ ?_ actions
  · intro mgr action mgr' hinv hstep horderly
    have hstepped := stepped_of_next hstep
    exact ⟨hstepped.linked hinv.1, hstepped.mapped hinv.1 hinv.2 horderly⟩
  · exact fun mgr hinv session hsession _ => hinv.2 session hsession
  · intro mgr action mgr' hinv hstep hdisorder
    exact (stepped_of_next hstep).not_owned hinv.1 hinv.2 hdisorder
  · exact ⟨linked_init, List.forall_mem_nil _⟩

end Crossing

end FeedsService.Session
