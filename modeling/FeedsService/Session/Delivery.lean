import FeedsService.Session.Isolation
import FeedsService.Session.Unsupported

/-!
# The data of a session

As long as no pipe is replaced or removed under waiting data, the parser of a pipe is given
exactly what the carrier delivers for its session.  After that, waiting data ends up in the
parser of another session, or at a null pointer.
-/

namespace FeedsService.Session

open FeedsService.Library FeedsService.Runs

variable {Peer : Type} {mgr : MassDataManager Peer}

section Delivery

/-- The data among some tasks. -/
def chunks (tasks : List Task) : List Bytes :=
  tasks.filterMap fun
    | .onReceivedData data => some data
    | .onNotify _ _ => none

/-- What the carrier has delivered for a session. -/
def MassDataManager.arrived (mgr : MassDataManager Peer) (id : ℕ) : List Bytes :=
  (mgr.received.filter (·.1 = id)).map Prod.snd

/-- What the parser of a pipe has been given is what has arrived for its own session, without what
waits in its pool. -/
structure Delivered (mgr : MassDataManager Peer) : Prop where
  unborn : ∀ entry ∈ mgr.received, entry.1 < mgr.nextId
  parsed : ∀ pipe ∈ mgr.dataPipeMap, ∀ session ∈ mgr.sessions, session.id = pipe.session →
    ∃ given, mgr.arrived session.id = given ++ chunks session.taskQueue ∧
      pipe.parser = (unpackAll .init given).1
  /-- no parser has been given data of another session -/
  own : ∀ entry ∈ mgr.unpacked, entry.1 = entry.2.1

theorem chunks_append (tasks later : List Task) :
    chunks (tasks ++ later) = chunks tasks ++ chunks later :=
  List.filterMap_append

/-- Fewer pipes and sessions. -/
theorem Delivered.fewer {mgr' : MassDataManager Peer} (h : Delivered mgr)
    (hpipes : mgr'.dataPipeMap ⊆ mgr.dataPipeMap) (hsessions : mgr'.sessions ⊆ mgr.sessions)
    (hreceived : mgr'.received = mgr.received) (hunpacked : mgr'.unpacked = mgr.unpacked)
    (hnext : mgr'.nextId = mgr.nextId) : Delivered mgr' where
  unborn := by
    rw [hreceived, hnext]
    exact h.unborn
  parsed pipe hpipe session hsession hid := by
    have hparsed := h.parsed pipe (hpipes hpipe) session (hsessions hsession) hid
    rwa [MassDataManager.arrived, hreceived]
  own := by
    rw [hunpacked]
    exact h.own

theorem release_subset : mgr.release.sessions ⊆ mgr.sessions :=
  fun _ hsession => (mem_release.mp hsession).1

/-- A queue with the same data. -/
theorem Delivered.setQueue (h : Delivered mgr) {id : ℕ} {queue : List Task → List Task}
    (hsame : ∀ session ∈ mgr.sessions, session.id = id →
      chunks (queue session.taskQueue) = chunks session.taskQueue) :
    Delivered (mgr.setQueue id queue) where
  unborn := h.unborn
  parsed pipe hpipe session hsession hid := by
    obtain ⟨hsession, -⟩ | ⟨old, hold, hsame', rfl⟩ := mem_setQueue.mp hsession
    · exact h.parsed pipe hpipe session hsession hid
    · obtain ⟨given, harrived, hparser⟩ := h.parsed pipe hpipe old hold hid
      exact ⟨given, (hsame old hold hsame').symm ▸ harrived, hparser⟩
  own := h.own

theorem arrived_concat (mgr : MassDataManager Peer) (id other : ℕ) (data : Bytes) :
    { mgr with received := mgr.received ++ [(id, data)] }.arrived other =
      mgr.arrived other ++ if id = other then [data] else [] := by
  rw [MassDataManager.arrived, List.filter_append, List.map_append]
  congr 1
  by_cases hid : id = other <;> simp [hid]

/-- Data that arrives goes to the end of the queue of its session. -/
theorem Delivered.arrives (h : Delivered mgr) (hlinked : Linked mgr)
    {session : CarrierSessionHelper Peer} (hsession : session ∈ mgr.sessions) (data : Bytes) :
    Delivered { mgr.post session.id (.onReceivedData data) with
      received := mgr.received ++ [(session.id, data)] } where
  unborn := List.forall_mem_append.mpr
    ⟨h.unborn, List.forall_mem_singleton.mpr (hlinked.born session hsession)⟩
  parsed pipe hpipe other hother hid := by
    have hconcat := arrived_concat mgr session.id other.id data
    have hposted : other ∈ (mgr.setQueue session.id fun queue =>
        queue ++ [.onReceivedData data]).sessions := hother
    obtain ⟨hother, hne⟩ | ⟨old, hold, hsame, rfl⟩ := mem_setQueue.mp hposted
    · obtain ⟨given, harrived, hparser⟩ := h.parsed pipe hpipe other hother hid
      rw [if_neg (Ne.symm hne), List.append_nil] at hconcat
      exact ⟨given, hconcat.trans harrived, hparser⟩
    · obtain ⟨given, harrived, hparser⟩ := h.parsed pipe hpipe old hold hid
      rw [if_pos hsame.symm] at hconcat
      refine ⟨given, hconcat.trans ?_, hparser⟩
      rw [chunks_append, ← List.append_assoc, ← harrived]
      rfl
  own := h.own

variable [DecidableEq Peer]

theorem Delivered.removeDataPipe (h : Delivered mgr) (peer : Peer) :
    Delivered (mgr.removeDataPipe peer) :=
  h.fewer (fun _ hpipe => (KeyedTable.mem_remove.mp hpipe).1) release_subset rfl rfl rfl

omit [DecidableEq Peer] in
theorem Delivered.clearAllDataPipe (h : Delivered mgr) : Delivered mgr.clearAllDataPipe :=
  h.fewer (List.nil_subset _) release_subset rfl rfl rfl

theorem Delivered.onSessionRequest (h : Delivered mgr) (hlinked : Linked mgr) (peer : Peer)
    (sdp : Bytes) : Delivered (mgr.onSessionRequest peer sdp) where
  unborn entry hentry := (h.unborn entry hentry).trans (Nat.lt_succ_self _)
  parsed pipe hpipe session hsession hid := by
    have hsession := List.mem_append.mp (release_subset hsession)
    obtain ⟨hold, -⟩ | rfl := KeyedTable.mem_put.mp hpipe
    · obtain hmem | hnew := hsession
      · exact h.parsed pipe hold session hmem hid
      · obtain ⟨other, hother, hother', -⟩ := hlinked.backed pipe hold
        obtain rfl := List.mem_singleton.mp hnew
        exact absurd (hother'.trans hid.symm) (hlinked.born other hother).ne
    · obtain hmem | hnew := hsession
      · exact absurd hid (hlinked.born session hmem).ne
      · obtain rfl := List.mem_singleton.mp hnew
        refine ⟨[], ?_, rfl⟩
        have hnone : mgr.received.filter (·.1 = mgr.nextId) = [] :=
          List.filter_eq_nil_iff.mpr fun entry hentry => by
            simpa using (h.unborn entry hentry).ne
        exact congrArg (List.map Prod.snd) hnone
  own := h.own

/-- A pipe gets the next data of its session. -/
theorem Delivered.feeds (h : Delivered mgr) (hlinked : Linked mgr) (hmapped : Mapped mgr)
    {session : CarrierSessionHelper Peer} {data : Bytes} {rest : List Task} {pipe : DataPipe Peer}
    {parser : SessionParser} {outcome : Outcome} (hsession : session ∈ mgr.sessions)
    (hqueue : session.taskQueue = .onReceivedData data :: rest) (hpipe : pipe ∈ mgr.dataPipeMap)
    (hpeer : pipe.peerId = session.peerId)
    (hunpack : unpack pipe.parser data true = (parser, outcome)) :
    Delivered { (mgr.setQueue session.id fun _ => rest).setParser session.peerId parser with
      unpacked := mgr.unpacked ++ [(pipe.session, session.id, data)] } := by
  have hown : pipe.session = session.id := by
    obtain ⟨own, hmem, hid⟩ := hmapped session hsession
    obtain rfl := hlinked.pipes.eq_of_key hpipe hmem
      (hpeer.trans (hlinked.peer hsession hmem hid).symm)
    exact hid
  refine ⟨h.unborn, fun other hother owner howner hid => ?_, ?_⟩
  · have hpopped : owner ∈ (mgr.setQueue session.id fun _ => rest).sessions := howner
    obtain ⟨howner, hne⟩ | ⟨old, hold, hsame, rfl⟩ := mem_setQueue.mp hpopped
    · obtain ⟨hmem, -⟩ | ⟨other, hmem, hsame, rfl⟩ := mem_updateWhere.mp hother
      · exact h.parsed other hmem owner howner hid
      · have hsame := of_decide_eq_true hsame
        obtain rfl := hlinked.pipes.eq_of_key hmem hpipe (hsame.trans hpeer.symm)
        exact absurd (hid.trans hown) hne
    · obtain rfl := hlinked.sessions.eq_of_key hold hsession hsame
      obtain ⟨hmem, hdiffers⟩ | ⟨other, hmem, hsame, rfl⟩ := mem_updateWhere.mp hother
      · have hsame := hlinked.peer hsession hmem hid.symm
        exact absurd hsame (of_decide_eq_false hdiffers)
      · have hsame := of_decide_eq_true hsame
        obtain rfl := hlinked.pipes.eq_of_key hmem hpipe (hsame.trans hpeer.symm)
        obtain ⟨given, harrived, hparser⟩ := h.parsed other hmem old hold hid
        refine ⟨given ++ [data], ?_, ?_⟩
        · rw [hqueue] at harrived
          exact harrived.trans (by rw [List.append_assoc]; rfl)
        · rw [unpackAll_append, ← hparser, unpackAll_singleton, hunpack]
  · exact List.forall_mem_append.mpr ⟨h.own, List.forall_mem_singleton.mpr hown⟩

theorem Stepped.delivered {action : Action Peer} {mgr' : MassDataManager Peer}
    (h : Stepped mgr action mgr') (hlinked : Linked mgr) (hmapped : Mapped mgr)
    (hdelivered : Delivered mgr) : Delivered mgr' := by
  cases h with
  | request peer sdp => exact hdelivered.onSessionRequest hlinked peer sdp
  | refused | ignores => exact hdelivered
  | notified peer | peerOffline peer => exact hdelivered.removeDataPipe peer
  | selfOffline => exact hdelivered.clearAllDataPipe
  | posts id state ret notify code =>
      refine hdelivered.setQueue fun session hsession hid => ?_
      rw [chunks_append]
      exact List.append_nil _
  | arrives hsession data => exact hdelivered.arrives hlinked hsession data
  | @notifies session notify code rest hsession hqueue =>
      have hpopped : Delivered (mgr.setQueue session.id fun _ => rest) := by
        refine hdelivered.setQueue fun other hother hid => ?_
        rw [hlinked.sessions.eq_of_key hother hsession hid, hqueue]
        rfl
      rw [MassDataManager.onNotify]
      split
      · exact hpopped.removeDataPipe _
      · exact hpopped
  | feeds hsession hqueue hpipe hpeer hunpack =>
      exact (hdelivered.feeds hlinked hmapped hsession hqueue hpipe hpeer hunpack).fewer
        (List.Subset.refl _) release_subset rfl rfl rfl

/-- A data task of a session whose pipe is in the map finds it. -/
theorem perform_ne_nullDereference (hlinked : Linked mgr) (hmapped : Mapped mgr)
    (action : Action Peer) : perform mgr action ≠ .error .nullDereference := by
  cases action with
  | request | refused | peerOffline | selfOffline | stateChanged | streamData =>
      intro h
      cases h
  | run id =>
      rw [perform]
      cases hget : KeyedTable.get CarrierSessionHelper.id mgr.sessions id with
      | none =>
          intro h
          cases h
      | some session =>
          obtain ⟨hsession, rfl⟩ := KeyedTable.mem_of_get hget
          obtain ⟨pipe, hpipe, hid⟩ := hmapped session hsession
          have hfound : KeyedTable.get DataPipe.peerId mgr.dataPipeMap session.peerId = some pipe :=
            (KeyedTable.get_eq_some hlinked.pipes).mpr ⟨hpipe, hlinked.peer hsession hpipe hid⟩
          dsimp only
          split
          · intro h
            cases h
          · intro h
            cases h
          · rename_i data rest _
            have hfound' : KeyedTable.get DataPipe.peerId
                (mgr.setQueue session.id fun _ => rest).dataPipeMap session.peerId = some pipe :=
              hfound
            rw [MassDataManager.onReceivedData, hfound']
            dsimp only
            split
            · intro h
              cases h
            · intro h
              cases h

/-- When pipes are put and removed only while no data of their peer waits, the data of every
session goes to the parser of its own pipe, in order and nothing else with it: a client whose
stream is a sequence of frames gets exactly these frames unpacked, whatever the other clients
do.  No task dereferences a null pointer. -/
theorem delivered_always {actions : List (Action Peer)}
    (horderly : EachStep (Performs next) (fun mgr action _ => Orderly mgr action) .init actions) :
    Always (Performs next)
      (fun mgr => (∀ entry ∈ mgr.unpacked, entry.1 = entry.2.1) ∧
        (∀ action, perform mgr action ≠ .error .nullDereference) ∧
        ∀ pipe ∈ mgr.dataPipeMap, ∀ session ∈ mgr.sessions, session.id = pipe.session →
          chunks session.taskQueue = [] → ∀ pieces, WellFormed pieces →
            (mgr.arrived session.id).flatten = stream pieces →
              (∀ chunk ∈ mgr.arrived session.id, chunk.length < 2 ^ 31) →
                pipe.parser.unpacked = calls pieces)
      .init actions := by
  have hstart : Linked (.init : MassDataManager Peer) ∧ Mapped (.init : MassDataManager Peer) ∧
      Delivered (.init : MassDataManager Peer) :=
    ⟨linked_init, List.forall_mem_nil _, List.forall_mem_nil _, List.forall_mem_nil _,
      List.forall_mem_nil _⟩
  have halways : Always (Performs next)
      (fun mgr => Linked mgr ∧ Mapped mgr ∧ Delivered mgr) .init actions := by
    refine always_of_eachStep (fun mgr action mgr' hinv hstep horderly => ?_) hstart horderly
    obtain ⟨hlinked, hmapped, hdelivered⟩ := hinv
    have hstepped := stepped_of_next hstep
    exact ⟨hstepped.linked hlinked, hstepped.mapped hlinked hmapped horderly,
      hstepped.delivered hlinked hmapped hdelivered⟩
  refine halways.mono fun mgr hinv =>
    ⟨hinv.2.2.own, perform_ne_nullDereference hinv.1 hinv.2.1, ?_⟩
  intro pipe hpipe session hsession hid hnone pieces hformed hstream hchunks
  obtain ⟨given, harrived, hparser⟩ := hinv.2.2.parsed pipe hpipe session hsession hid
  rw [hnone, List.append_nil] at harrived
  rw [hparser, ← harrived]
  exact (unpackAll_stream pieces hformed _ hstream hchunks).1

/-- Two clients at once, one of which comes again after it has gone. -/
theorem delivered_always_twice :
    let actions : List (Action ℕ) :=
      [.request 7 [1], .request 8 [1], .streamData 1 [65], .streamData 0 [66], .run 1, .run 0,
        .stateChanged 0 .closed 0, .run 0, .request 7 [1], .streamData 2 [67], .run 2]
    Always (Performs next)
      (fun mgr => (∀ entry ∈ mgr.unpacked, entry.1 = entry.2.1) ∧
        (∀ action, perform mgr action ≠ .error .nullDereference) ∧
        ∀ pipe ∈ mgr.dataPipeMap, ∀ session ∈ mgr.sessions, session.id = pipe.session →
          chunks session.taskQueue = [] → ∀ pieces, WellFormed pieces →
            (mgr.arrived session.id).flatten = stream pieces →
              (∀ chunk ∈ mgr.arrived session.id, chunk.length < 2 ^ 31) →
                pipe.parser.unpacked = calls pieces)
      .init actions := by
  intro actions
  exact delivered_always (by decide)

end Delivery

section Misdelivery

variable [DecidableEq Peer]

/-- The next task of a session hands its data to the parser of another session, or to none. -/
def Misdelivers (mgr : MassDataManager Peer) (id : ℕ) : Prop :=
  ∃ session ∈ mgr.sessions, session.id = id ∧
    (∃ data rest, session.taskQueue = .onReceivedData data :: rest) ∧
    ∀ pipe ∈ mgr.dataPipeMap, pipe.peerId = session.peerId → pipe.session ≠ id

/-- The pool of a session without a pipe comes to its data. -/
theorem misdelivers_of_waits (hlinked : Linked mgr) {session : CarrierSessionHelper Peer}
    (hsession : session ∈ mgr.sessions) (hwaits : session.Waits) (hnone : ¬ mgr.Owns session) :
    ∃ count mgr', Run (Performs next) mgr (List.replicate count (.run session.id)) mgr' ∧
      Misdelivers mgr' session.id := by
  generalize hqueue : session.taskQueue = queue
  induction queue generalizing mgr session with
  | nil =>
      obtain ⟨task, htask, -⟩ := hwaits
      rw [hqueue] at htask
      cases htask
  | cons task rest ih =>
      cases task with
      | onReceivedData data =>
          refine ⟨0, mgr, .nil mgr, session, hsession, rfl, ⟨data, rest, hqueue⟩, ?_⟩
          exact fun pipe hpipe _ hid => hnone ⟨pipe, hpipe, hid⟩
      | onNotify notify code =>
          have hget : KeyedTable.get CarrierSessionHelper.id mgr.sessions session.id =
              some session := (KeyedTable.get_eq_some hlinked.sessions).mpr ⟨hsession, rfl⟩
          have hstep : Performs next mgr (.run session.id)
              ((mgr.setQueue session.id fun _ => rest).onNotify session.peerId notify) := by
            rw [Performs, next, perform, hget]
            dsimp only
            rw [hqueue]
          have hlater := (stepped_of_next hstep).linked hlinked
          have hrest : ({ session with taskQueue := rest } : CarrierSessionHelper Peer).Waits := by
            obtain ⟨task, htask, hdata⟩ := hwaits
            rw [hqueue] at htask
            obtain rfl | htask := List.mem_cons.mp htask
            · cases hdata
            · exact ⟨task, htask, hdata⟩
          have hpopped : { session with taskQueue := rest } ∈
              (mgr.setQueue session.id fun _ => rest).sessions :=
            mem_setQueue.mpr (Or.inr ⟨session, hsession, rfl, rfl⟩)
          obtain ⟨hkept, hstill⟩ :
              { session with taskQueue := rest } ∈
                ((mgr.setQueue session.id fun _ => rest).onNotify session.peerId notify).sessions ∧
              ¬ ((mgr.setQueue session.id fun _ => rest).onNotify session.peerId notify).Owns
                { session with taskQueue := rest } := by
            rw [MassDataManager.onNotify]
            split
            · refine ⟨mem_release.mpr ⟨hpopped, Or.inr hrest⟩, fun howns => ?_⟩
              obtain ⟨pipe, hpipe, hid⟩ := howns
              exact hnone ⟨pipe, (KeyedTable.mem_remove.mp hpipe).1, hid⟩
            · exact ⟨hpopped, hnone⟩
          obtain ⟨count, mgr', hrun, hmis⟩ := ih hlater hkept hrest hstill rfl
          exact ⟨count + 1, mgr', .cons hstep hrun, hmis⟩

/-- Data that waits for a session without a pipe only has to wait for its turn to reach the
parser of another session, or a null pointer. -/
theorem crossed_misdelivers {actions : List (Action Peer)} {mgr : MassDataManager Peer}
    (hrun : Run (Performs next) .init actions mgr) {session : CarrierSessionHelper Peer}
    (hsession : session ∈ mgr.sessions) (hwaits : session.Waits) (hnone : ¬ mgr.Owns session) :
    ∃ count mgr', Run (Performs next) mgr (List.replicate count (.run session.id)) mgr' ∧
      Misdelivers mgr' session.id := by
  have hlinked : Always (Performs next) Linked .init actions :=
    @always_of_preserved _ _ (Performs next) Linked
      (fun _ _ _ h hstep => (stepped_of_next hstep).linked h) _ linked_init actions
  exact misdelivers_of_waits (hlinked.last hrun) hsession hwaits hnone

/-- A client that comes again while data of its first session waits. -/
theorem crossed_misdelivers_again :
    ∃ (mgr : MassDataManager ℕ) (count : ℕ) (mgr' : MassDataManager ℕ),
      Run (Performs next) .init [.request 7 [1], .streamData 0 [65], .request 7 [1]] mgr ∧
        Run (Performs next) mgr (List.replicate count (.run 0)) mgr' ∧ Misdelivers mgr' 0 := by
  have hexec : (exec next (.init : MassDataManager ℕ)
      [.request 7 [1], .streamData 0 [65], .request 7 [1]]).isSome = true := by decide
  obtain ⟨mgr, hmgr⟩ := Option.isSome_iff_exists.mp hexec
  obtain ⟨session, hsession, hid, hwaits, hnone⟩ : ∃ session ∈ mgr.sessions,
      session.id = 0 ∧ session.Waits ∧ ¬ mgr.Owns session := by
    cases hmgr
    decide
  obtain ⟨count, mgr', hlater, hmis⟩ :=
    crossed_misdelivers (run_of_exec hmgr) hsession hwaits hnone
  rw [hid] at hlater hmis
  exact ⟨mgr, count, mgr', run_of_exec hmgr, hlater, hmis⟩

end Misdelivery

end FeedsService.Session
