import FeedsService.Http.Progress
import FeedsService.Library.KeyedTable
import FeedsService.Library.Runs

/-!
# The web server

`sb_poll_server` of `sandbird.c` under the handler of `did.c`: one call gives every
connection a turn, in the order of the list, and takes up the new ones.  The record
of the events that the handler got belongs to the model.
-/

namespace FeedsService.Http

open FeedsService.Library FeedsService.Runs

/-- How many descriptors an `fd_set` has room for. -/
def fdSetsize : ℕ := 1024

structure SbServer where
  sockfd : ℕ
  streams : List SbStream
  now : ℤ
  timeout : ℕ
  maxLifetime : ℕ
  maxRequestSize : ℕ
  nextId : ℕ
  events : List (ℕ × SbEvent)

/-- What a call of `sb_poll_server` meets: the time after `select`, what `recv` and `send`
do on the sockets that are ready, the descriptors that `accept` returns with whether
there is memory for the connection, the sizes that `realloc` grants to a connection, and
what the handler depends on. -/
structure PollIo where
  now : ℤ
  recvs : ℕ → Option (List Bytes × Bool)
  sends : ℕ → Option SendResult
  accepts : List (ℕ × Bool)
  grants : ℕ → ℕ → Bool
  env : HttpEnv

/-- Why a call does not return. -/
inductive Stuck
  | hangs
  | faults (fault : Fault)
  deriving DecidableEq

section Polling

/-- A connection after its data was received or sent. -/
structure Transferred where
  stream : SbStream
  code : ℤ
  events : List SbEvent

def receive (io : PollIo) (st : SbStream) (pieces : List Bytes) (ended : Bool) :
    Except Stuck Transferred :=
  match sbStreamRecv (io.grants st.id) io.now st pieces ended with
  | .goesOn st => .ok ⟨st, sbESuccess, []⟩
  | .returns st code => .ok ⟨st, code, []⟩
  | .requested st method path =>
      let emitted := sbStreamEmit (hdlHttpReq (io.grants st.id) io.env) st (.request method path)
      .ok ⟨emitted.1, emitted.2, [.request method path]⟩
  | .hangs => .error .hangs
  | .faults fault => .error (.faults fault)

/-- The socket of a connection is in the set that its state asks for. -/
def transfer (io : PollIo) (st : SbStream) : Except Stuck Transferred :=
  if st.state.rank < StreamState.sendingStatus.rank then
    match io.recvs st.id with
    | some (pieces, ended) => receive io st pieces ended
    | none => .ok ⟨st, sbESuccess, []⟩
  else
    match io.sends st.id with
    | some result =>
        let sent := sbStreamSend (io.grants st.id) io.now st result
        .ok ⟨sent.stream, sent.code, []⟩
    | none => .ok ⟨st, sbESuccess, []⟩

/-- Check of a stream against timeout, max request length and max lifetime. -/
def SbServer.Outlived (srv : SbServer) (st : SbStream) : Prop :=
  (srv.timeout ≠ 0 ∧ ((srv.timeout / 1000 : ℕ) : ℤ) < srv.now - st.lastActivity) ∨
    (srv.maxLifetime ≠ 0 ∧ ((srv.maxLifetime / 1000 : ℕ) : ℤ) < srv.now - st.initTime) ∨
    (srv.maxRequestSize ≠ 0 ∧ srv.maxRequestSize ≤ st.recvBuf.bytes.length)

instance (srv : SbServer) (st : SbStream) : Decidable (srv.Outlived st) :=
  inferInstanceAs (Decidable (_ ∨ _ ∨ _))

/-- The connections that are left, the events, and the code that `sb_poll_server` goes on
or returns with. -/
structure Round where
  streams : List SbStream
  events : List (ℕ × SbEvent)
  code : ℤ

/-- The check of its limits: the streams that are left of a connection, and the event of
its end. -/
def SbServer.settle (srv : SbServer) (st : SbStream) : List SbStream × List SbEvent :=
  let st := if srv.Outlived st then sbStreamClose st else st
  if st.state = .closing then ([], [.close]) else ([st], [])

/-- The turns of the connections.  An error leaves the rest of them where they are. -/
def handleStreams (io : PollIo) (srv : SbServer) : List SbStream → Except Stuck Round
  | [] => .ok ⟨[], [], sbESuccess⟩
  | st :: rest => do
      let moved ← transfer io st
      if moved.code ≠ sbESuccess then
        .ok ⟨moved.stream :: rest, moved.events.map (st.id, ·), moved.code⟩
      else
        let settled := srv.settle moved.stream
        let later ← handleStreams io srv rest
        .ok ⟨settled.1 ++ later.streams,
          (moved.events ++ settled.2).map (st.id, ·) ++ later.events, later.code⟩

def acceptStreams (io : PollIo) : SbServer → List (ℕ × Bool) → SbServer × ℤ
  | srv, [] => (srv, sbESuccess)
  | srv, (sockfd, granted) :: accepts =>
      if fdSetsize < sockfd then
        (srv, sbEFdTooBig)
      else if granted = false then
        (srv, sbEOutOfMem)
      else
        let st := sbStreamNew srv.nextId sockfd srv.now
        let emitted := sbStreamEmit (hdlHttpReq (io.grants st.id) io.env) st .connect
        let srv := { srv with
          streams := emitted.1 :: srv.streams
          nextId := srv.nextId + 1
          events := srv.events ++ [(srv.nextId, .connect)] }
        if emitted.2 ≠ sbESuccess then (srv, emitted.2) else acceptStreams io srv accepts

/-- `FD_SET` of a descriptor that is too large writes behind the set. -/
def SbServer.Overflows (srv : SbServer) : Prop :=
  fdSetsize ≤ srv.sockfd ∨ ∃ st ∈ srv.streams, fdSetsize ≤ st.sockfd

instance (srv : SbServer) : Decidable srv.Overflows :=
  inferInstanceAs (Decidable (_ ∨ _))

def sbPollServer (io : PollIo) (srv : SbServer) : Except Stuck (SbServer × ℤ) :=
  if srv.Overflows then
    .error (.faults .overflow)
  else do
    let srv := { srv with now := io.now }
    let round ← handleStreams io srv srv.streams
    let srv := { srv with streams := round.streams, events := srv.events ++ round.events }
    if round.code ≠ sbESuccess then .ok (srv, round.code)
    else .ok (acceptStreams io srv io.accepts)

/-- A server without connections. -/
def sbNewServer (sockfd timeout maxLifetime maxRequestSize : ℕ) : SbServer :=
  ⟨sockfd, [], 0, timeout, maxLifetime, maxRequestSize, 0, []⟩

def sbCloseServer (srv : SbServer) : SbServer :=
  { srv with
    streams := []
    events := srv.events ++ srv.streams.map fun st => (st.id, .close) }

/-- One pass of `http_server_routine`, which ignores the code. -/
def httpServerPass (srv : SbServer) (io : PollIo) : Option SbServer :=
  match sbPollServer io srv with
  | .ok (srv, _) => some srv
  | .error _ => none

end Polling

section Turns

/-- A request that was reported, or none. -/
inductive Asked : List SbEvent → Prop
  | nothing : Asked []
  | once (method path : Bytes) : Asked [.request method path]

/-- What its turn makes of a connection: the streams that are left of it, and its events. -/
inductive Turned (st : SbStream) : List SbStream → List SbEvent → Prop
  | stays {st' : SbStream} (hfollows : Follows st st') : Turned st [st'] []
  | asks {st' : SbStream} (hfollows : Follows st st') (hreceives : st.Receives)
      (hreplies : ¬ st'.Receives) (method path : Bytes) :
      Turned st [st'] [.request method path]
  | ends : Turned st [] [.close]
  | asksAndEnds (hreceives : st.Receives) (method path : Bytes) :
      Turned st [] [.request method path, .close]

/-- The turns of several connections. -/
inductive AllTurned : List SbStream → List SbStream → List (ℕ × SbEvent) → Prop
  | nil : AllTurned [] [] []
  | cons {st : SbStream} {rest left later : List SbStream} {events : List SbEvent}
      {others : List (ℕ × SbEvent)} (hturned : Turned st left events)
      (hrest : AllTurned rest later others) :
      AllTurned (st :: rest) (left ++ later) (events.map (st.id, ·) ++ others)

theorem AllTurned.refl (streams : List SbStream) : AllTurned streams streams [] := by
  induction streams with
  | nil => exact .nil
  | cons st rest ih => exact .cons (.stays (.refl st)) ih

theorem emit_hdlHttpReq (grants : ℕ → Bool) (env : HttpEnv) (st : SbStream) (event : SbEvent) :
    sbStreamEmit (hdlHttpReq grants env) st event =
      ((hdlHttpReq grants env event st).1, sbESuccess) := by
  have hok := (hdlHttpReq_follows grants env event st).2
  rw [sbStreamEmit]
  generalize hdlHttpReq grants env event st = handled at hok ⊢
  obtain ⟨st', res⟩ := handled
  cases hok
  rfl

/-- What receiving or sending makes of a connection. -/
inductive Moved (grants : ℕ → Bool) (st : SbStream) : Transferred → Prop
  | goesOn {st' : SbStream} {code : ℤ} (hfollows : Follows st st')
      (hcode : (∀ n, grants n = true) → code = sbESuccess) : Moved grants st ⟨st', code, []⟩
  | asks {st' : SbStream} (hfollows : Follows st st') (hreceives : st.Receives)
      (hreplies : ¬ st'.Receives) (method path : Bytes) :
      Moved grants st ⟨st', sbESuccess, [.request method path]⟩

theorem receive_moved (io : PollIo) {st : SbStream} (hreceives : st.Receives)
    (pieces : List Bytes) (ended : Bool) :
    receive io st pieces ended = .error .hangs ∨
      ∃ moved, receive io st pieces ended = .ok moved ∧ Moved (io.grants st.id) st moved := by
  have hadvances := sbStreamRecv_advances (io.grants st.id) hreceives io.now pieces ended
  rw [receive]
  generalize sbStreamRecv (io.grants st.id) io.now st pieces ended = received at hadvances
  cases hadvances with
  | goesOn hfollows hlater => exact Or.inr ⟨_, rfl, .goesOn hfollows fun _ => rfl⟩
  | @requested st' method path hfollows hstate =>
      have hhandled := (hdlHttpReq_follows (io.grants st'.id) io.env (.request method path) st').1
      dsimp only
      rw [emit_hdlHttpReq]
      refine Or.inr ⟨_, rfl, .asks (hfollows.trans hhandled) hreceives (not_lt.mpr ?_) method path⟩
      exact (congrArg StreamState.rank hstate).ge.trans hhandled.rank
  | returns hfollows hcode => exact Or.inr ⟨_, rfl, .goesOn hfollows hcode⟩
  | hangs => exact Or.inl rfl

theorem transfer_moved (io : PollIo) (st : SbStream) :
    transfer io st = .error .hangs ∨
      ∃ moved, transfer io st = .ok moved ∧ Moved (io.grants st.id) st moved := by
  rw [transfer]
  split
  · rename_i hreceives
    split
    · exact receive_moved io hreceives _ _
    · exact Or.inr ⟨_, rfl, .goesOn (.refl st) fun _ => rfl⟩
  · split
    · rename_i result _
      exact Or.inr ⟨_, rfl, .goesOn (sbStreamSend_follows _ _ st result)
        fun hgrants => (sbStreamSend_sends hgrants io.now st result).code⟩
    · exact Or.inr ⟨_, rfl, .goesOn (.refl st) fun _ => rfl⟩

/-- A connection is left as it is, or nothing is left of it. -/
theorem settle_cases (srv : SbServer) (st : SbStream) :
    (srv.settle st = ([st], []) ∧ ¬ srv.Outlived st ∧ st.state ≠ .closing) ∨
      srv.settle st = ([], [.close]) := by
  rw [SbServer.settle]
  by_cases houtlived : srv.Outlived st
  · rw [if_pos houtlived]
    exact Or.inr rfl
  · rw [if_neg houtlived]
    by_cases hclosing : st.state = .closing
    · exact Or.inr (if_pos hclosing)
    · exact Or.inl ⟨if_neg hclosing, houtlived, hclosing⟩

theorem settle_keeps (srv : SbServer) (st : SbStream) :
    ∀ left ∈ (srv.settle st).1, ¬ srv.Outlived left ∧ left.state ≠ .closing := by
  obtain ⟨hsettle, hkeeps⟩ | hsettle := settle_cases srv st
  · rw [hsettle]
    exact List.forall_mem_singleton.mpr hkeeps
  · rw [hsettle]
    exact List.forall_mem_nil _

theorem Moved.code {grants : ℕ → Bool} {st : SbStream} {moved : Transferred}
    (h : Moved grants st moved) (hgrants : ∀ n, grants n = true) : moved.code = sbESuccess := by
  cases h with
  | goesOn hfollows hcode => exact hcode hgrants
  | asks hfollows hreceives hreplies method path => rfl

theorem Moved.turned {grants : ℕ → Bool} {st : SbStream} {moved : Transferred}
    (h : Moved grants st moved) :
    Turned st [moved.stream] moved.events := by
  cases h with
  | goesOn hfollows => exact .stays hfollows
  | asks hfollows hreceives hreplies method path =>
      exact .asks hfollows hreceives hreplies method path

theorem Moved.settled {grants : ℕ → Bool} {st : SbStream} {moved : Transferred}
    (h : Moved grants st moved) (srv : SbServer) :
    Turned st (srv.settle moved.stream).1 (moved.events ++ (srv.settle moved.stream).2) := by
  obtain ⟨hsettle, -, -⟩ | hsettle := settle_cases srv moved.stream
  · rw [hsettle, List.append_nil]
    exact h.turned
  · rw [hsettle]
    cases h with
    | goesOn hfollows => exact .ends
    | asks hfollows hreceives hreplies method path => exact .asksAndEnds hreceives method path

/-- The connection may stay. -/
def SbServer.Keeps (srv : SbServer) (st : SbStream) : Prop :=
  ¬ srv.Outlived st ∧ st.state ≠ .closing

/-- What a round that returns has done.  With memory it reaches every connection. -/
structure HasTurned (io : PollIo) (srv : SbServer) (streams : List SbStream) (round : Round) :
    Prop where
  turned : AllTurned streams round.streams round.events
  kept : round.code = sbESuccess → ∀ st ∈ round.streams, srv.Keeps st
  code : (∀ id n, io.grants id n = true) → round.code = sbESuccess

/-- A round never faults. -/
theorem handleStreams_turned (io : PollIo) (srv : SbServer) (streams : List SbStream) :
    handleStreams io srv streams = .error .hangs ∨
      ∃ round, handleStreams io srv streams = .ok round ∧ HasTurned io srv streams round := by
  induction streams with
  | nil => exact Or.inr ⟨_, rfl, .nil, fun _ => List.forall_mem_nil _, fun _ => rfl⟩
  | cons st rest ih =>
      rw [handleStreams]
      obtain hhangs | ⟨moved, hmoved, hmoves⟩ := transfer_moved io st
      · rw [hhangs]
        exact Or.inl rfl
      rw [hmoved]
      by_cases hcode : moved.code ≠ sbESuccess
      · refine Or.inr ⟨_, if_pos hcode, ?_, fun hnone => absurd hnone hcode,
          fun hgrants => hmoves.code (hgrants st.id)⟩
        have hrest := AllTurned.cons hmoves.turned (.refl rest)
        rwa [List.append_nil] at hrest
      · obtain hhangs | ⟨round, hround, hturned⟩ := ih
        · rw [hhangs]
          exact Or.inl (if_neg hcode)
        · rw [hround]
          refine Or.inr ⟨_, if_neg hcode, .cons (hmoves.settled srv) hturned.turned,
            fun hnone => ?_,
            hturned.code⟩
          exact List.forall_mem_append.mpr ⟨settle_keeps srv moved.stream, hturned.kept hnone⟩

end Turns

section Lives

/-- The events that the handler got for a connection. -/
def history (events : List (ℕ × SbEvent)) (id : ℕ) : List SbEvent :=
  (events.filter (·.1 = id)).map Prod.snd

theorem history_append (events later : List (ℕ × SbEvent)) (id : ℕ) :
    history (events ++ later) id = history events id ++ history later id := by
  rw [history, List.filter_append, List.map_append]
  rfl

theorem history_same (id : ℕ) (events : List SbEvent) :
    history (events.map (id, ·)) id = events := by
  induction events with
  | nil => rfl
  | cons event events ih =>
      rw [List.map_cons, history, List.filter_cons_of_pos (by simp), List.map_cons]
      exact congrArg (event :: ·) ih

theorem history_other {id other : ℕ} (hne : other ≠ id) (events : List SbEvent) :
    history (events.map (other, ·)) id = [] := by
  rw [history, List.filter_eq_nil_iff.mpr]
  · rfl
  · intro event hevent
    obtain ⟨event, -, rfl⟩ := List.mem_map.mp hevent
    simpa using hne

/-- Where a connection is in its life, and the events it has had by then. -/
inductive Lived (srv : SbServer) (id : ℕ) : Prop
  | unborn (hid : srv.nextId ≤ id) (hnone : ∀ st ∈ srv.streams, st.id ≠ id)
      (hevents : history srv.events id = [])
  | lives (st : SbStream) {asked : List SbEvent} (hmem : st ∈ srv.streams) (hid : st.id = id)
      (hasked : Asked asked) (hreceives : st.Receives → asked = [])
      (hevents : history srv.events id = .connect :: asked)
  | gone {asked : List SbEvent} (hid : id < srv.nextId) (hnone : ∀ st ∈ srv.streams, st.id ≠ id)
      (hasked : Asked asked) (hevents : history srv.events id = .connect :: asked ++ [.close])

/-- The list of the server. -/
structure Alive (srv : SbServer) : Prop where
  /-- no connection is there twice -/
  once : KeyedTable.Keyed SbStream.id srv.streams
  /-- identities are given out in order -/
  born : ∀ st ∈ srv.streams, st.id < srv.nextId
  /-- every connection has had the events of its life -/
  lived : ∀ id, Lived srv id

theorem Lived.frame {srv srv' : SbServer} {id : ℕ} (h : Lived srv id)
    (hnext : id < srv'.nextId ↔ id < srv.nextId)
    (hmem : ∀ st, st.id = id → (st ∈ srv'.streams ↔ st ∈ srv.streams))
    (hevents : history srv'.events id = history srv.events id) : Lived srv' id := by
  have hnone (hnone : ∀ st ∈ srv.streams, st.id ≠ id) : ∀ st ∈ srv'.streams, st.id ≠ id :=
    fun st hst hid => hnone st ((hmem st hid).mp hst) hid
  cases h with
  | unborn hid hnone' hempty =>
      exact .unborn (not_lt.mp (mt hnext.mp (not_lt.mpr hid))) (hnone hnone') (hevents.trans hempty)
  | @lives st asked hst hid hasked hreceives hhistory =>
      exact .lives st ((hmem st hid).mpr hst) hid hasked hreceives (hevents.trans hhistory)
  | gone hid hnone' hasked hhistory =>
      exact .gone (hnext.mpr hid) (hnone hnone') hasked (hevents.trans hhistory)

variable {srv : SbServer} {before rest : List SbStream} {st : SbStream}

/-- The connection that has its turn. -/
theorem Alive.current (h : Alive { srv with streams := before ++ st :: rest }) :
    ∃ asked, Asked asked ∧ (st.Receives → asked = []) ∧
      history srv.events st.id = .connect :: asked := by
  have hst : st ∈ before ++ st :: rest := by simp
  cases h.lived st.id with
  | unborn hid hnone hempty => exact absurd rfl (hnone st hst)
  | @lives st' asked hmem hid hasked hreceives hhistory =>
      obtain rfl := h.once.eq_of_key hmem hst hid
      exact ⟨asked, hasked, hreceives, hhistory⟩
  | gone hid hnone hasked hhistory => exact absurd rfl (hnone st hst)

/-- The others are not concerned. -/
theorem Alive.others (h : Alive { srv with streams := before ++ st :: rest }) {other : SbStream}
    (hother : other ∈ before ++ rest) : other.id ≠ st.id := by
  intro hid
  have honce : ((st :: (before ++ rest)).map SbStream.id).Nodup :=
    ((List.perm_middle (a := st)).map SbStream.id).nodup_iff.mp h.once
  exact (List.nodup_cons.mp honce).1 (hid ▸ List.mem_map_of_mem hother)

theorem Turned.ids {left : List SbStream} {events : List SbEvent} (h : Turned st left events) :
    (left.map SbStream.id).Sublist [st.id] := by
  cases h with
  | stays hfollows => exact hfollows.id ▸ List.Sublist.refl _
  | asks hfollows => exact hfollows.id ▸ List.Sublist.refl _
  | ends | asksAndEnds => exact List.nil_sublist _

/-- One turn. -/
theorem Alive.turn {left : List SbStream} {events : List SbEvent}
    (h : Alive { srv with streams := before ++ st :: rest }) (hturned : Turned st left events) :
    Alive { srv with
      streams := before ++ left ++ rest
      events := srv.events ++ events.map (st.id, ·) } where
  once := by
    refine h.once.sublist ?_
    rw [List.map_append, List.map_append, List.append_assoc, List.map_append, List.map_cons]
    exact (List.Sublist.refl _).append (hturned.ids.append (List.Sublist.refl _))
  born := by
    intro other hother
    obtain hother | hother := List.mem_append.mp hother
    · obtain hother | hother := List.mem_append.mp hother
      · exact h.born other (List.mem_append_left _ hother)
      · have hid := hturned.ids.subset (List.mem_map_of_mem hother)
        rw [List.mem_singleton.mp hid]
        exact h.born st (by simp)
    · exact h.born other (by simp [hother])
  lived := by
    intro id
    by_cases hid : id = st.id
    · subst hid
      obtain ⟨asked, hasked, hnot, hhistory⟩ := h.current
      have hborn : st.id < srv.nextId := h.born st (by simp)
      have hevents : history (srv.events ++ events.map (st.id, ·)) st.id =
          .connect :: asked ++ events := by
        rw [history_append, history_same, hhistory]
      have hnone : ∀ other ∈ before ++ [] ++ rest, other.id ≠ st.id := by
        rw [List.append_nil]
        exact fun other hother => h.others hother
      cases hturned with
      | @stays st' hfollows =>
          rw [List.append_nil] at hevents
          refine .lives st' (by simp) hfollows.id hasked (fun hreceives => hnot ?_) hevents
          exact hfollows.rank.trans_lt hreceives
      | @asks st' hfollows hreceives hreplies method path =>
          rw [hnot hreceives] at hevents
          exact .lives st' (by simp) hfollows.id (.once method path)
            (fun hlater => absurd hlater hreplies) hevents
      | ends => exact .gone hborn hnone hasked hevents
      | asksAndEnds hreceives method path =>
          rw [hnot hreceives] at hevents
          exact .gone hborn hnone (.once method path) hevents
    · refine (h.lived id).frame Iff.rfl (fun other hother => ?_) ?_
      · have hleft : other ∉ left := by
          intro hmem
          have hsame := hturned.ids.subset (List.mem_map_of_mem hmem)
          exact hid (hother.symm.trans (List.mem_singleton.mp hsame))
        have hst : other ≠ st := fun heq => hid (heq ▸ hother.symm)
        simp [hleft, hst]
      · exact (history_append _ _ id).trans (by rw [history_other (Ne.symm hid), List.append_nil])

/-- A round. -/
theorem Alive.turns (srv : SbServer) (before : List SbStream) {streams left : List SbStream}
    {events : List (ℕ × SbEvent)} (h : Alive { srv with streams := before ++ streams })
    (hturned : AllTurned streams left events) :
    Alive { srv with streams := before ++ left, events := srv.events ++ events } := by
  induction hturned generalizing srv before with
  | nil => simpa only [List.append_nil] using h
  | @cons st rest left later events others hturned hrest ih =>
      have hturn := ih { srv with events := srv.events ++ events.map (st.id, ·) } _ (h.turn hturned)
      rwa [List.append_assoc, List.append_assoc] at hturn

/-- A connection that is taken up. -/
theorem Alive.accept (h : Alive srv) {st : SbStream} (hid : st.id = srv.nextId) :
    Alive { srv with
      streams := st :: srv.streams
      nextId := srv.nextId + 1
      events := srv.events ++ [(srv.nextId, .connect)] } where
  once := by
    refine List.nodup_cons.mpr ⟨fun hmem => ?_, h.once⟩
    obtain ⟨other, hother, hsame⟩ := List.mem_map.mp hmem
    have := h.born other hother
    omega
  born := by
    rintro other (_ | ⟨_, hother⟩)
    · exact hid ▸ Nat.lt_succ_self _
    · exact (h.born other hother).trans (Nat.lt_succ_self _)
  lived := by
    intro id
    by_cases hnew : id = srv.nextId
    · subst hnew
      refine .lives st List.mem_cons_self hid .nothing (fun _ => rfl) ?_
      have hempty : history srv.events srv.nextId = [] := by
        cases h.lived srv.nextId with
        | unborn hborn hnone hempty => exact hempty
        | lives st hmem hid => exact absurd (hid ▸ h.born _ hmem) (lt_irrefl _)
        | gone hborn => exact absurd hborn (lt_irrefl _)
      exact (history_append _ _ _).trans (by rw [hempty]; exact history_same _ [.connect])
    · have hsame : history (srv.events ++ [(srv.nextId, .connect)]) id = history srv.events id := by
        rw [history_append]
        exact (congrArg _ (history_other (Ne.symm hnew) [.connect])).trans (List.append_nil _)
      refine (h.lived id).frame ?_ (fun other hother => ?_) hsame
      · exact ⟨fun hlt => lt_of_le_of_ne (Nat.lt_succ_iff.mp hlt) hnew,
          fun hlt => hlt.trans (Nat.lt_succ_self _)⟩
      · have hother : other ≠ st := fun heq => hnew (by rw [← hother, heq, hid])
        simp [hother]

theorem acceptStreams_alive (io : PollIo) (accepts : List (ℕ × Bool)) (h : Alive srv) :
    Alive (acceptStreams io srv accepts).1 := by
  induction accepts generalizing srv with
  | nil => exact h
  | cons accepted accepts ih =>
      obtain ⟨sockfd, granted⟩ := accepted
      rw [acceptStreams]
      split
      · exact h
      · split
        · exact h
        · dsimp only
          rw [emit_hdlHttpReq, if_neg (not_not.mpr rfl)]
          exact ih (h.accept rfl)

/-- What a call that returns has done. -/
theorem sbPollServer_cases {io : PollIo} {srv' : SbServer} {code : ℤ}
    (hpoll : sbPollServer io srv = .ok (srv', code)) :
    ¬ srv.Overflows ∧ ∃ round, handleStreams io { srv with now := io.now } srv.streams = .ok round ∧
      HasTurned io { srv with now := io.now } srv.streams round ∧
      let polled := { srv with
        now := io.now, streams := round.streams, events := srv.events ++ round.events }
      (round.code ≠ sbESuccess ∧ srv' = polled ∧ code = round.code) ∨
        (round.code = sbESuccess ∧ (srv', code) = acceptStreams io polled io.accepts) := by
  rw [sbPollServer] at hpoll
  by_cases hoverflows : srv.Overflows
  · rw [if_pos hoverflows] at hpoll
    cases hpoll
  refine ⟨hoverflows, ?_⟩
  rw [if_neg hoverflows] at hpoll
  obtain ⟨round, hround, hpoll⟩ := bind_eq_ok.mp hpoll
  obtain hhangs | ⟨round', hround', hturned⟩ := handleStreams_turned io { srv with now := io.now }
    srv.streams
  · cases hhangs.symm.trans hround
  cases hround'.symm.trans hround
  refine ⟨round, hround, hturned, ?_⟩
  by_cases hcode : round.code ≠ sbESuccess
  · rw [if_pos hcode] at hpoll
    cases hpoll
    exact Or.inl ⟨hcode, rfl, rfl⟩
  · rw [if_neg hcode] at hpoll
    exact Or.inr ⟨not_not.mp hcode, (Except.ok.inj hpoll).symm⟩

theorem Alive.at (h : Alive srv) (now : ℤ) : Alive { srv with now := now } where
  once := h.once
  born := h.born
  lived := fun id => (h.lived id).frame Iff.rfl (fun _ _ => Iff.rfl) rfl

theorem sbPollServer_alive {io : PollIo} {srv' : SbServer} {code : ℤ} (h : Alive srv)
    (hpoll : sbPollServer io srv = .ok (srv', code)) : Alive srv' := by
  obtain ⟨-, round, -, hturned, hcases⟩ := sbPollServer_cases hpoll
  have hround := Alive.turns { srv with now := io.now } [] (h.at io.now) hturned.turned
  obtain ⟨-, hsrv, -⟩ | ⟨-, haccepted⟩ := hcases
  · exact hsrv ▸ hround
  · rw [show srv' = _ from congrArg Prod.fst haccepted]
    exact acceptStreams_alive io io.accepts hround

theorem sbNewServer_alive (sockfd timeout maxLifetime maxRequestSize : ℕ) :
    Alive (sbNewServer sockfd timeout maxLifetime maxRequestSize) where
  once := List.nodup_nil
  born := List.forall_mem_nil _
  lived id := .unborn (Nat.zero_le id) (List.forall_mem_nil _) rfl

theorem allTurned_close (streams : List SbStream) :
    AllTurned streams [] (streams.map fun st => (st.id, .close)) := by
  induction streams with
  | nil => exact .nil
  | cons st rest ih => exact .cons .ends ih

/-- A life that is over or never began. -/
theorem Alive.closed (h : Alive srv) (id : ℕ) :
    history (sbCloseServer srv).events id = [] ∨
      ∃ asked, Asked asked ∧
        history (sbCloseServer srv).events id = .connect :: asked ++ [.close] := by
  have hclosed := Alive.turns srv [] h (allTurned_close srv.streams)
  cases hclosed.lived id with
  | unborn hid hnone hempty => exact Or.inl hempty
  | lives st hmem => cases hmem
  | gone hid hnone hasked hevents => exact Or.inr ⟨_, hasked, hevents⟩

theorem httpServerPass_alive {io : PollIo} {srv' : SbServer} (h : Alive srv)
    (hpass : Performs httpServerPass srv io srv') : Alive srv' := by
  rw [Performs, httpServerPass] at hpass
  split at hpass
  · rename_i hpoll
    cases hpass
    exact sbPollServer_alive h hpoll
  · cases hpass

/-- Whatever sockets and memory do, at every point of a run the handler has heard of every
connection once that it is there, then at most one request, and then, when it is not there any
more, its end once.  Closing the server ends all that are left. -/
theorem lived_always (sockfd timeout maxLifetime maxRequestSize : ℕ) (ios : List PollIo) :
    Always (Performs httpServerPass)
      (fun srv => ∀ id, Lived srv id ∧
        (history (sbCloseServer srv).events id = [] ∨
          ∃ asked, Asked asked ∧
            history (sbCloseServer srv).events id = .connect :: asked ++ [.close]))
      (sbNewServer sockfd timeout maxLifetime maxRequestSize) ios := by
  have halive := @always_of_preserved _ _ (Performs httpServerPass) Alive
    (fun _ _ _ h hpass => httpServerPass_alive h hpass) _
    (sbNewServer_alive sockfd timeout maxLifetime maxRequestSize) ios
  exact halive.mono fun srv h id => ⟨h.lived id, h.closed id⟩

end Lives

section Descriptors

/-- What is left of a connection has its socket. -/
theorem AllTurned.sockfd {streams left : List SbStream} {events : List (ℕ × SbEvent)}
    (h : AllTurned streams left events) {st' : SbStream} (hst' : st' ∈ left) :
    ∃ st ∈ streams, st'.sockfd = st.sockfd := by
  induction h with
  | nil => cases hst'
  | @cons st rest left later events others hturned hrest ih =>
      obtain hst' | hst' := List.mem_append.mp hst'
      · refine ⟨st, List.mem_cons_self, ?_⟩
        cases hturned with
        | stays hfollows => exact List.mem_singleton.mp hst' ▸ hfollows.sockfd
        | asks hfollows => exact List.mem_singleton.mp hst' ▸ hfollows.sockfd
        | ends | asksAndEnds => cases hst'
      · obtain ⟨other, hother, hsockfd⟩ := ih hst'
        exact ⟨other, List.mem_cons_of_mem _ hother, hsockfd⟩

/-- `sb_poll_server` has let in no socket above `FD_SETSIZE`. -/
def SbServer.LetsIn (srv : SbServer) : Prop :=
  ∀ st ∈ srv.streams, st.sockfd ≤ fdSetsize

theorem acceptStreams_letsIn (io : PollIo) {srv : SbServer} (accepts : List (ℕ × Bool))
    (h : srv.LetsIn) : (acceptStreams io srv accepts).1.LetsIn := by
  induction accepts generalizing srv with
  | nil => exact h
  | cons accepted accepts ih =>
      obtain ⟨sockfd, granted⟩ := accepted
      rw [acceptStreams]
      by_cases hlarge : fdSetsize < sockfd
      · rw [if_pos hlarge]
        exact h
      · rw [if_neg hlarge]
        split
        · exact h
        · dsimp only
          rw [emit_hdlHttpReq, if_neg (not_not.mpr rfl)]
          refine ih (List.forall_mem_cons.mpr ⟨?_, h⟩)
          exact not_lt.mp hlarge

theorem httpServerPass_letsIn {srv srv' : SbServer} {io : PollIo} (h : srv.LetsIn)
    (hpass : Performs httpServerPass srv io srv') : srv'.LetsIn := by
  rw [Performs, httpServerPass] at hpass
  split at hpass
  · rename_i hpoll
    cases hpass
    obtain ⟨-, round, -, hturned, hcases⟩ := sbPollServer_cases hpoll
    have hround : ∀ st ∈ round.streams, st.sockfd ≤ fdSetsize := by
      intro st' hst'
      obtain ⟨st, hst, hsockfd⟩ := hturned.turned.sockfd hst'
      exact hsockfd ▸ h st hst
    obtain ⟨-, hsrv, -⟩ | ⟨-, haccepted⟩ := hcases
    · rw [hsrv]
      exact hround
    · rw [show srv' = _ from congrArg Prod.fst haccepted]
      exact acceptStreams_letsIn io io.accepts hround
  · cases hpass

theorem sbPollServer_faults_iff (io : PollIo) (srv : SbServer) :
    (∃ fault, sbPollServer io srv = .error (.faults fault)) ↔ srv.Overflows := by
  rw [sbPollServer]
  by_cases hoverflows : srv.Overflows
  · rw [if_pos hoverflows]
    exact iff_of_true ⟨_, rfl⟩ hoverflows
  · rw [if_neg hoverflows]
    refine iff_of_false ?_ hoverflows
    rintro ⟨fault, hfault⟩
    obtain hhangs | ⟨round, hround, hturned⟩ := handleStreams_turned io { srv with now := io.now }
      srv.streams
    · dsimp only at hfault
      rw [hhangs] at hfault
      cases hfault
    · dsimp only at hfault
      rw [hround] at hfault
      simp only [bind, Except.bind] at hfault
      split at hfault <;> cases hfault

/-- The check after `accept` lets in one descriptor too many: in every run, a call writes behind
its `fd_set` exactly when a connection with the descriptor `FD_SETSIZE` is there.  Nothing else
in it reads or writes out of bounds. -/
theorem faults_always (sockfd timeout maxLifetime maxRequestSize : ℕ) (ios : List PollIo) :
    Always (Performs httpServerPass)
      (fun srv => ∀ io, (∃ fault, sbPollServer io srv = .error (.faults fault)) ↔
        fdSetsize ≤ srv.sockfd ∨ ∃ st ∈ srv.streams, st.sockfd = fdSetsize)
      (sbNewServer sockfd timeout maxLifetime maxRequestSize) ios := by
  have hletsIn := @always_of_preserved _ _ (Performs httpServerPass) SbServer.LetsIn
    (fun _ _ _ h hpass => httpServerPass_letsIn h hpass)
    (sbNewServer sockfd timeout maxLifetime maxRequestSize) (List.forall_mem_nil _) ios
  refine hletsIn.mono fun srv h io => (sbPollServer_faults_iff io srv).trans (or_congr_right ?_)
  exact exists_congr fun st => and_congr_right fun hst =>
    ⟨fun hle => (h st hst).antisymm hle, Eq.ge⟩

/-- The descriptor 1024 is let in, and the next call overflows. -/
example :
    let io : PollIo :=
      ⟨1, fun _ => none, fun _ => none, [(1024, true)], fun _ _ => true, ⟨[], none, false⟩⟩
    (httpServerPass (sbNewServer 3 30000 0 0) io).map (fun srv => sbPollServer io srv) =
      some (.error (.faults .overflow)) := rfl

end Descriptors

section Limits

/-- With memory, and descriptors that `accept` may let in, all are taken up. -/
theorem acceptStreams_keeps (io : PollIo) (srv : SbServer) (accepts : List (ℕ × Bool))
    (haccepts : ∀ accepted ∈ accepts, accepted.1 ≤ fdSetsize ∧ accepted.2 = true)
    (h : ∀ st ∈ srv.streams, srv.Keeps st) :
    ∃ srv', acceptStreams io srv accepts = (srv', sbESuccess) ∧
      (accepts.map Prod.fst).reverse ++ srv.streams.map SbStream.sockfd =
        srv'.streams.map SbStream.sockfd ∧
      ∀ st ∈ srv'.streams, srv'.Keeps st := by
  induction accepts generalizing srv with
  | nil => exact ⟨srv, rfl, rfl, h⟩
  | cons accepted accepts ih =>
      obtain ⟨sockfd, granted⟩ := accepted
      obtain ⟨⟨hsmall, rfl⟩, hrest⟩ := List.forall_mem_cons.mp haccepts
      have hnew : srv.Keeps (sbStreamNew srv.nextId sockfd srv.now) := by
        have hnow : srv.now - srv.now = 0 := sub_self _
        have hzero : ∀ n : ℕ, ¬ ((n : ℤ) < 0) := fun n => not_lt.mpr (Int.natCast_nonneg n)
        refine ⟨?_, (by decide : StreamState.receivingHeader ≠ .closing)⟩
        rintro (⟨-, hidle⟩ | ⟨-, hold⟩ | ⟨hlimit, hlong⟩)
        · exact hzero _ (hnow ▸ hidle)
        · exact hzero _ (hnow ▸ hold)
        · exact hlimit (Nat.le_zero.mp hlong)
      rw [acceptStreams, if_neg (not_lt.mpr hsmall), if_neg (by decide)]
      dsimp only
      rw [emit_hdlHttpReq, if_neg (not_not.mpr rfl)]
      let st := sbStreamNew srv.nextId sockfd srv.now
      obtain ⟨srv', haccepted, htaken, hkeeps⟩ := ih
        { srv with
          streams := (hdlHttpReq (io.grants st.id) io.env .connect st).1 :: srv.streams
          nextId := srv.nextId + 1
          events := srv.events ++ [(srv.nextId, .connect)] }
        hrest (List.forall_mem_cons.mpr ⟨hnew, h⟩)
      refine ⟨srv', haccepted, ?_, hkeeps⟩
      rw [← htaken, List.map_cons, List.reverse_cons, List.append_assoc]
      rfl

/-- With memory, a call that the search in a header does not hold up takes up every connection
that it is given, and leaves none that is closing, silent for too long, too old or too
large. -/
theorem sbPollServer_keeps {io : PollIo} {srv : SbServer} (hgrants : ∀ id n, io.grants id n = true)
    (haccepts : ∀ accepted ∈ io.accepts, accepted.1 ≤ fdSetsize ∧ accepted.2 = true)
    (hfits : ¬ srv.Overflows) :
    sbPollServer io srv = .error .hangs ∨
      ∃ srv', sbPollServer io srv = .ok (srv', sbESuccess) ∧
        (io.accepts.map Prod.fst).reverse <+: srv'.streams.map SbStream.sockfd ∧
        ∀ st ∈ srv'.streams, srv'.Keeps st := by
  rw [sbPollServer, if_neg hfits]
  dsimp only
  obtain hhangs | ⟨round, hround, hturned⟩ := handleStreams_turned io { srv with now := io.now }
    srv.streams
  · rw [hhangs]
    exact Or.inl rfl
  · have hcode := hturned.code hgrants
    obtain ⟨srv', haccepted, htaken, hkeeps⟩ := acceptStreams_keeps io
      { srv with now := io.now, streams := round.streams, events := srv.events ++ round.events }
      io.accepts haccepts (hturned.kept hcode)
    rw [hround]
    refine Or.inr ⟨srv', (if_neg (not_not.mpr hcode)).trans ?_, ⟨_, htaken⟩, hkeeps⟩
    rw [haccepted]

/-- A connection that has been silent for more than 30 seconds while another one comes. -/
theorem sbPollServer_keeps_silent :
    let srv : SbServer :=
      { sbNewServer 3 30000 0 0 with streams := [sbStreamNew 0 5 0], nextId := 1 }
    let io : PollIo :=
      ⟨31, fun _ => none, fun _ => none, [(6, true)], fun _ _ => true, ⟨[], none, false⟩⟩
    sbPollServer io srv = .error .hangs ∨
      ∃ srv', sbPollServer io srv = .ok (srv', sbESuccess) ∧
        [6] <+: srv'.streams.map SbStream.sockfd ∧ ∀ st ∈ srv'.streams, srv'.Keeps st := by
  intro srv io
  exact sbPollServer_keeps (fun _ _ => rfl) (by decide) (by decide)

end Limits

end FeedsService.Http
