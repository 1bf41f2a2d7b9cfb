import FeedsService.Feeds.Counters
import FeedsService.Service.Refinement

/-!
# The threads around the feeds

The handlers of `feeds.c` behind the pool.  The token, the clock and the state of the binding are
read when a message is handled, so they are of its environment.  The logins that wait are not
theirs.
-/

namespace FeedsService.Service

open FeedsService.Feeds FeedsService.Runs

/-- A request as it arrives. -/
structure Message where
  «from» : NodeId
  tsxId : UInt64
  req : Req

/-- `rpc_marshal_*` -/
def enqueued (marshal : Msg → MsgQueue.Marshalled) : Out → Option (NodeId × MsgQueue.Marshalled)
  | .msgqEnq peer msg => some (peer, marshal msg)
  | _ => none

def Message.ctx (msg : Message) (env : Ctx) : Ctx :=
  { env with «from» := msg.from, tsxId := msg.tsxId }

/-- An abort ends the process. -/
def feedsHandlers (marshal : Msg → MsgQueue.Marshalled) : Handlers World Message Ctx where
  serve w msg env :=
    let result := respond w (msg.ctx env) msg.req
    if result.aborts then none
    else some (result.world, result.outs.filterMap (enqueued marshal))
  offline w peer := ⟨w.mem.feedsDeactivateSuber peer, w.db⟩
  expire w _ := w

/-- The event that the feeds have been through. -/
def Served.event? : Served Message Ctx → Option Event
  | .request msg env => some (.request (msg.ctx env) msg.req)
  | .offline peer => some (.peerOffline peer)
  | .expire _ => none

variable {marshal : Msg → MsgQueue.Marshalled}

theorem feeds_step {state state' : World × List (MsgQueue.Peer × MsgQueue.Marshalled)}
    {served : Served Message Ctx}
    (hstep : Performs (feedsHandlers marshal).nextServed state served state') :
    Run Feeds.Step state.1 served.event?.toList state'.1 := by
  cases served with
  | request msg env =>
      refine .single (Feeds.step_iff.mpr ?_)
      obtain ⟨result, hserve, rfl⟩ := Option.map_eq_some_iff.mp hstep
      obtain ⟨haborts, hresult⟩ := Option.ite_none_left_eq_some.mp hserve
      cases hresult
      exact if_neg haborts
  | offline peer =>
      refine .single (Feeds.step_iff.mpr ?_)
      cases hstep
      rfl
  | expire now =>
      cases hstep
      exact .nil _

theorem feeds_run {state state' : World × List (MsgQueue.Peer × MsgQueue.Marshalled)}
    {served : List (Served Message Ctx)}
    (hrun : Run (Performs (feedsHandlers marshal).nextServed) state served state') :
    Run Feeds.Step state.1 (served.filterMap Served.event?) state'.1 := by
  induction hrun with
  | nil => exact .nil _
  | @cons _ _ _ first rest hstep _ ih =>
      have hevents : (first :: rest).filterMap Served.event? =
          first.event?.toList ++ rest.filterMap Served.event? := by
        rw [List.filterMap_cons]
        cases first.event? <;> rfl
      rw [hevents]
      exact (feeds_step hstep).append ih

/-- What holds in every run of the feeds holds while the threads are at work. -/
theorem feeds_kept {P : World → Prop}
    (hkept : ∀ events, Always Feeds.Step P (.start Db.init) events)
    (turns : List (Turn Message Ctx)) :
    Always (Performs (nextThreads (feedsHandlers marshal))) (fun s => P s.world)
      (.start (.start Db.init)) turns := by
  have hsimulates := @always_of_preserved _ _ (Performs (nextThreads (feedsHandlers marshal)))
    (Simulates (feedsHandlers marshal) (.start Db.init)) (fun _ _ _ h hstep => h.next hstep) _
    (.start _ _) turns
  refine hsimulates.mono fun s h => ?_
  obtain ⟨answers, hanswered⟩ := h.answered
  exact (hkept _).last (feeds_run hanswered.run)

/-- A stranger asks for the version. -/
theorem feeds_kept_consistent :
    let msg : Message := ⟨"stranger", 1, .query .getSrvVer⟩
    let env : Ctx := ⟨"", 0, true, 5, none, 1000, "did", 0⟩
    Always (Performs (nextThreads (feedsHandlers fun _ => []))) (fun s => Consistent s.world)
      (.start (.start Db.init)) [.receives msg, .check, .handle env, .access, .access, .access] :=
  feeds_kept (fun events => always_of_preserved
    (fun w event _ h hstep => Feeds.step_iff.mp hstep ▸ Consistent.step w event h)
    Consistent.init events) _

end FeedsService.Service
