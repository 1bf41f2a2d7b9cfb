import FeedsService.Rpc.Answers

/-!
# Which messages end the service

The handlers of `ChannelMethod` and `StandardAuth` return whatever they are given, and so
do those of `did.c`, `auth.c` and `feeds.c` but for a login without a user and a blocked
comment.  What is left are the bytes: what msgpack-c++ throws on, what `rpc.c` does not
survive, and what the log reads behind.
-/

namespace FeedsService.Rpc

open FeedsService.Library FeedsService.Library.Replies

namespace Runtime

section Handlers

/-- What keeps the service up, in whatever phase it is, while the handler under a name
runs. -/
structure Endures (rt : Runtime) (name : String) (req : Req) : Prop where
  stored : name = "signin_confirm_challenge" → Auth.didIsReady rt.auth = true →
    ¬ Auth.LacksUser rt.host rt.moment rt.auth (rt.signinConfChalReq req)
  rendered : ∀ request ∈ feedsReq rt.reading req name,
    ¬ Feeds.RendersBlocked rt.world (rt.ctx req) request

variable {rt : Runtime} {name : String} {req : Req}

theorem returns_ended_iff {replies : Option (List Reply)} :
    Returns (ended replies) ↔ replies.isSome = true :=
  returns_orThrow_iff

theorem endures_iff_of_feedsReq_eq_none (hfeeds : feedsReq rt.reading req name = none) :
    rt.Endures name req ↔ (name = "signin_confirm_challenge" →
      Auth.didIsReady rt.auth = true →
        ¬ Auth.LacksUser rt.host rt.moment rt.auth (rt.signinConfChalReq req)) :=
  ⟨Endures.stored, fun h => ⟨h, by simp [hfeeds]⟩⟩

theorem returns_hdlr_iff (hstatuses : Feeds.StatusesKnown rt.auth.db)
    (hname : name ∈ methodHdlrs) : Returns (rt.hdlr name req) ↔ rt.Endures name req := by
  unfold hdlr
  split
  · rw [endures_iff_of_feedsReq_eq_none rfl, returns_ended_iff]
    refine iff_of_true ?_ (by simp)
    exact Auth.isSome_hdlDeclOwnerReq _
  · rw [endures_iff_of_feedsReq_eq_none rfl, returns_ended_iff]
    refine iff_of_true ?_ (by simp)
    exact Auth.isSome_hdlImpDidReq _
  · rw [endures_iff_of_feedsReq_eq_none rfl, returns_ended_iff]
    refine iff_of_true ?_ (by simp)
    exact Auth.isSome_hdlIssVcReq _
  · rw [endures_iff_of_feedsReq_eq_none rfl, returns_ended_iff]
    refine iff_of_true ?_ (by simp)
    exact Auth.isSome_hdlUpdateVcReq _
  · rw [endures_iff_of_feedsReq_eq_none rfl, returns_ended_iff]
    refine iff_of_true ?_ (by simp)
    exact Auth.isSome_hdlSigninReqChalReq _
  · rw [endures_iff_of_feedsReq_eq_none rfl, returns_ended_iff, forall_prop_of_true rfl]
    exact Auth.isSome_hdlSigninConfChalReq_iff _
  · next hdeclare himport hissue hupdate hrequest hconfirm =>
      have hsome : (feedsReq rt.reading req name).isSome = true := by
        apply isSome_feedsReq hname
        simpa using ⟨hdeclare, himport, hissue, hupdate, hrequest, hconfirm⟩
      obtain ⟨request, hrequest⟩ := Option.isSome_iff_exists.mp hsome
      rw [hrequest]
      dsimp only
      rw [returns_ended_iff, Feeds.Result.isSome_replies_iff, Feeds.aborts_iff hstatuses]
      constructor
      · intro hrenders
        exact ⟨fun h => absurd h hconfirm, by simpa [hrequest] using hrenders⟩
      · intro hendures
        exact hendures.rendered request hrequest

end Handlers

section Reception

/-- What the service needs for a request of `rpc.c`, in whatever phase it is. -/
structure Serves (rt : Runtime) (entry : ReqParser) (req : Req) : Prop where
  named : entry.method ≠ "update_user_info"
  endures : rt.Endures entry.method req
  setBinary : entry.method = "set_binary" → ∀ accessToken ∈ (req.str .tk).map cString,
    0 ≤ rt.checkAccessible .owner accessToken → CacheUsable rt.service
  getBinary : entry.method = "get_binary" → ∀ accessToken ∈ (req.str .tk).map cString,
    ∀ key ∈ (req.str .key).map cString,
      0 ≤ rt.checkAccessible .member accessToken → ContentReadable rt.service key

/-- What `rpc.c`, the log and the handlers behind them need of a message that the factory
has no class for. -/
structure Processes (rt : Runtime) (msgpack : MsgPack) (data : Bytes) : Prop where
  guarded : ∀ message ∈ msgpack.unpackNext data, Guarded message
  logged : rt.warns = true → Refused msgpack data → 0 ∈ data
  serves : rt.carrier = true → ∀ message ∈ msgpack.unpackNext data,
    ∀ entry req, Requests message entry req → rt.Serves entry req

/-- The bytes unpack and convert, and what goes on to `rpc.c` is served. -/
structure Harmless (rt : Runtime) (msgpack : MsgPack) (data : Bytes) : Prop where
  readable : Readable msgpack data
  processes : Unclassed msgpack data → rt.Processes msgpack data

variable {rt : Runtime} {msgpack : MsgPack} {data : Bytes} {message : Object}
  {entry : ReqParser} {req : Req}

/-- The advanced handlers return, whatever the request. -/
theorem advancedHandled (request : Request) : AdvancedHandled rt.service request := by
  intro it hit _ _
  simp only [advancedHandlers, ChannelMethod.advancedHandlerMap,
    StandardAuth.advancedHandlerMap, List.cons_append, List.nil_append, List.mem_cons,
    List.not_mem_nil, or_false] at hit
  rcases hit with rfl | rfl | rfl | rfl | rfl
  · exact returns_ok _
  · exact returns_ok _
  · exact returns_ok _
  · exact returns_ok _
  · exact returns_ok _

theorem returns_service_hdlr_iff :
    Returns (rt.service.hdlr entry.method req) ↔ Returns (rt.hdlr entry.method req) := by
  change Returns ((fun _ => ()) <$> rt.hdlr entry.method req) ↔ _
  rw [map_eq_pure_bind]
  exact returns_bind_of_next fun _ => returns_pure _

/-- A method that is not in `method_hdlrs` is none of `feeds.c`. -/
theorem endures_of_not_mem (h : Requests message entry req)
    (hmem : entry.method ∉ methodHdlrs) : rt.Endures entry.method req := by
  rcases h.method_of_not_mem hmem with hname | hname
  · rw [hname]
    exact ⟨by simp, fun request hrequest => nomatch hrequest⟩
  · rw [hname]
    exact ⟨by simp, fun request hrequest => nomatch hrequest⟩

theorem handled_iff_serves (hstatuses : Feeds.StatusesKnown rt.auth.db)
    (h : Requests message entry req) :
    Handled rt.service entry req ↔ rt.Serves entry req := by
  have hlegacy : (entry.method ∈ methodHdlrs → Returns (rt.service.hdlr entry.method req)) ↔
      rt.Endures entry.method req := by
    rw [returns_service_hdlr_iff]
    by_cases hmem : entry.method ∈ methodHdlrs
    · rw [forall_prop_of_true hmem, returns_hdlr_iff hstatuses hmem]
    · exact iff_of_true (fun hname => absurd hname hmem) (endures_of_not_mem h hmem)
  constructor
  · rintro ⟨hnamed, hreturns, hset, hget⟩
    exact ⟨hnamed, hlegacy.mp hreturns, hset, hget⟩
  · rintro ⟨hnamed, hendures, hset, hget⟩
    exact ⟨hnamed, hlegacy.mpr hendures, hset, hget⟩

theorem processable_iff_processes (hstatuses : Feeds.StatusesKnown rt.auth.db) :
    Processable msgpack rt.service data ↔ rt.Processes msgpack data := by
  constructor
  · rintro ⟨hguarded, hlogged, hhandled⟩
    exact ⟨hguarded, hlogged, fun hcarrier message hmem entry req h =>
      (handled_iff_serves hstatuses h).mp (hhandled hcarrier message hmem entry req h)⟩
  · rintro ⟨hguarded, hlogged, hserves⟩
    exact ⟨hguarded, hlogged, fun hcarrier message hmem entry req h =>
      (handled_iff_serves hstatuses h).mpr (hserves hcarrier message hmem entry req h)⟩

end Reception

end Runtime

end FeedsService.Rpc
