import FeedsService.Auth.AccessTokens
import FeedsService.Rpc.Advanced
import FeedsService.Rpc.Packets

/-!
# Which requests are answered

`process` turns the error of a handler into a reply; `processAdvance` drops it.  What
else keeps a request from being answered ends the service.
-/

namespace FeedsService.Rpc

open FeedsService.Library FeedsService.Library.MsgPack FeedsService.Library.Replies

section Legacy

namespace Runtime

/-- What keeps the service up while the handler under a name runs. -/
structure Survives (rt : Runtime) (name : String) (req : Req) : Prop where
  stored : name = "signin_confirm_challenge" →
    ¬ Auth.LacksUser rt.host rt.moment rt.auth (rt.signinConfChalReq req)
  rendered : ∀ request ∈ feedsReq rt.reading req name,
    ¬ Feeds.RendersBlocked rt.world (rt.ctx req) request

variable {rt : Runtime} {name : String} {req : Req}

theorem answered_ended_iff {id : ℤ} {replies : Option (List Reply)} :
    Answered id (ended replies) ↔ ∃ sent, replies = some sent ∧ Answers id sent := by
  simp only [Answered, ended, orThrow_eq_ok]

theorem answered_respond_iff (hready : rt.Ready) (request : Feeds.Req) :
    Answered req.tsxId.toNat
        (ended ((Feeds.respond rt.world (rt.ctx req) request).replies (rt.ctx req))) ↔
      ¬ Feeds.RendersBlocked rt.world (rt.ctx req) request := by
  rw [answered_ended_iff, ← Feeds.aborts_iff hready.statuses, Bool.not_eq_true]
  constructor
  · rintro ⟨sent, hreplies, _⟩
    by_contra haborts
    rw [Feeds.Result.replies, if_pos (Bool.not_eq_false _ ▸ haborts)] at hreplies
    cases hreplies
  · intro hreturns
    exact Feeds.respond_replies hready.issued request hreturns

/-- The handlers that are not in `feeds.c`. -/
theorem isSome_feedsReq (hname : name ∈ methodHdlrs)
    (hfeeds : name ∉ ["declare_owner", "import_did", "issue_credential", "update_credential",
      "signin_request_challenge", "signin_confirm_challenge"]) :
    (feedsReq rt.reading req name).isSome = true := by
  have hall : ((methodHdlrs.drop 6).all fun other =>
      (feedsReq rt.reading req other).isSome) = true := rfl
  apply List.all_eq_true.mp hall
  rw [← List.take_append_drop 6 methodHdlrs, List.mem_append] at hname
  exact hname.resolve_left hfeeds

/-- The handlers of `did.c` and of `auth.c`, of which one may not survive. -/
theorem survives_iff_of_feedsReq_eq_none (hfeeds : feedsReq rt.reading req name = none) :
    rt.Survives name req ↔ (name = "signin_confirm_challenge" →
      ¬ Auth.LacksUser rt.host rt.moment rt.auth (rt.signinConfChalReq req)) :=
  ⟨Survives.stored, fun h => ⟨h, by simp [hfeeds]⟩⟩

theorem answered_hdlr_iff (hready : rt.Ready) (hname : name ∈ methodHdlrs)
    (himport : name ≠ "import_did") :
    Answered req.tsxId.toNat (rt.hdlr name req) ↔ rt.Survives name req := by
  unfold hdlr
  split
  · rw [survives_iff_of_feedsReq_eq_none rfl]
    refine iff_of_true ?_ (by simp)
    exact answered_ended_iff.mpr (Auth.hdlDeclOwnerReq_replies _)
  · exact absurd rfl himport
  · rw [survives_iff_of_feedsReq_eq_none rfl]
    refine iff_of_true ?_ (by simp)
    exact answered_ended_iff.mpr (Auth.hdlIssVcReq_replies _)
  · rw [survives_iff_of_feedsReq_eq_none rfl]
    refine iff_of_true ?_ (by simp)
    exact answered_ended_iff.mpr (Auth.hdlUpdateVcReq_replies hready.issued _)
  · rw [survives_iff_of_feedsReq_eq_none rfl]
    refine iff_of_true ?_ (by simp)
    exact answered_ended_iff.mpr (Auth.hdlSigninReqChalReq_replies hready.issued _)
  · rw [survives_iff_of_feedsReq_eq_none rfl, answered_ended_iff, forall_prop_of_true rfl]
    exact Auth.hdlSigninConfChalReq_replies_iff hready.issued _
  · next hdeclare _ hissue hupdate hrequest hconfirm =>
      have hsome : (feedsReq rt.reading req name).isSome = true := by
        apply isSome_feedsReq hname
        simpa using ⟨hdeclare, himport, hissue, hupdate, hrequest, hconfirm⟩
      obtain ⟨request, hrequest⟩ := Option.isSome_iff_exists.mp hsome
      rw [hrequest, answered_respond_iff hready]
      constructor
      · intro hrenders
        exact ⟨fun h => absurd h hconfirm, by simpa [hrequest] using hrenders⟩
      · intro hsurvives
        exact hsurvives.rendered request hrequest

/-- What the service needs for a request of `rpc.c`. -/
structure Handles (rt : Runtime) (entry : ReqParser) (req : Req) : Prop where
  named : entry.method ≠ "update_user_info"
  survives : rt.Survives entry.method req
  setBinary : entry.method = "set_binary" → ∀ accessToken ∈ (req.str .tk).map cString,
    0 ≤ rt.checkAccessible .owner accessToken → CacheUsable rt.service
  getBinary : entry.method = "get_binary" → ∀ accessToken ∈ (req.str .tk).map cString,
    ∀ key ∈ (req.str .key).map cString,
      0 ≤ rt.checkAccessible .member accessToken → ContentReadable rt.service key

variable {message : Object} {entry : ReqParser}

theorem processReplies_of_refused {ret : ℤ} {resp : Option Resp}
    (hanswer : firstAnswer ErrCode.unimplementedError
      ((cmdListener rt.service).map fun listener => listener.onDispose req)
      (ErrCode.unimplementedError, none) = .ok (ret, resp))
    (hnegative : ret < 0) (hknown : ret ≠ ErrCode.unimplementedError)
    (hunfinished : ret ≠ ErrCode.completelyFinishedNotify) :
    rt.processReplies req = .ok [⟨req.tsxId.toNat, .error⟩] := by
  have hpacked : 0 ≤ (packResponse rt.service (some req) resp ret).1 := by
    simp [packResponse, not_le.mpr hnegative, service]
  simp only [processReplies, hanswer, ok_bind, hknown, hunfinished, if_false, packedReplies,
    not_lt.mpr hpacked, hnegative, if_true]
  rfl

theorem processReplies_of_served {resp : Resp}
    (hanswer : firstAnswer ErrCode.unimplementedError
      ((cmdListener rt.service).map fun listener => listener.onDispose req)
      (ErrCode.unimplementedError, none) = .ok (0, some resp))
    (hserializer : (rpcMarshalResp ((req.method.map cString).getD []) resp).isSome = true) :
    rt.processReplies req = .ok [⟨resp.tsxId.toNat, .last⟩] := by
  obtain ⟨packed, hpacked⟩ := Option.isSome_iff_exists.mp hserializer
  have hserved : (packResponse rt.service (some req) (some resp) 0).1 = 0 := by
    simp [packResponse, service, hpacked]
  have hknown : (0 : ℤ) ≠ ErrCode.unimplementedError := by decide
  have hunfinished : (0 : ℤ) ≠ ErrCode.completelyFinishedNotify := by decide
  simp only [processReplies, hanswer, ok_bind, hknown, hunfinished, if_false, packedReplies,
    hserved, lt_irrefl]
  rfl

/-- The replies to a request of `LegacyMethod` are those of its handler. -/
theorem processReplies_of_legacy (h : Requests message entry req) (hguarded : Guarded message)
    (hset : entry.method ≠ "update_user_info") (hcarrier : rt.carrier = true)
    (hmem : entry.method ∈ methodHdlrs) :
    rt.processReplies req = rt.hdlr entry.method req := by
  have hlisteners :
      (cmdListener rt.service).map (fun listener => listener.onDispose req) =
        [] ++ (legacyMethod rt.service).onDispose req ::
          [(channelMethod rt.service).onDispose req, (massData rt.service).onDispose req,
            (standardAuth rt.service).onDispose req] := rfl
  have hafter : ∀ other ∈ [(channelMethod rt.service).onDispose req,
      (massData rt.service).onDispose req, (standardAuth rt.service).onDispose req],
        Declines ErrCode.unimplementedError other := by
    simpa using ⟨declines_channelMethod req, h.declines_massData hguarded hset hmem,
      declines_standardAuth req⟩
  have hlegacy : (legacyMethod rt.service).onDispose req none =
      rt.hdlr entry.method req >>= fun _ =>
        pure (ErrCode.completelyFinishedNotify, none) := by
    have hdispose : disposeLegacy rt.service req = rt.hdlr entry.method req >>= fun _ =>
        pure ErrCode.completelyFinishedNotify := by
      rw [disposeLegacy, h.dispatch_methodHdlrs hguarded hset hmem]
      cases hcall : rt.hdlr entry.method req with
      | error stop => simp [service, hcall]
      | ok replies => simp [service, hcall]
    have hexpired : rt.service.carrier = true := hcarrier
    simp only [legacyMethod, hexpired, if_true, hdispose, bind_assoc, pure_bind]
  rw [processReplies, hlisteners, firstAnswer_of_sole (by simp) hafter, hlegacy]
  cases hcall : rt.hdlr entry.method req with
  | error stop => rfl
  | ok replies =>
      have hreplies : rt.legacyReplies req = .ok replies := by
        rw [legacyReplies, h.dispatch_methodHdlrs hguarded hset hmem, hcall]
      have hknown : ErrCode.completelyFinishedNotify ≠ ErrCode.unimplementedError := by decide
      simp only [ok_bind, pure_bind, hknown, if_false, if_true, hreplies]

end Runtime

/-- `process` makes a reply of what `MassData` returns. -/
inductive Settled (req : Req) : ℤ × Option Resp → Prop
  | refused {ret : ℤ} {resp : Option Resp} (hnegative : ret < 0)
      (hknown : ret ≠ ErrCode.unimplementedError)
      (hunfinished : ret ≠ ErrCode.completelyFinishedNotify) : Settled req (ret, resp)
  | served {resp : Resp} (hid : resp.tsxId = req.tsxId)
      (hserializer : (rpcMarshalResp ((req.method.map cString).getD []) resp).isSome = true) :
      Settled req (0, some resp)

section MassData

variable {Response : Type} {service : Service Response} {req : Req} {resp : Option Resp}
  {answered : ℤ × Option Resp}

theorem settled_saveBinData {path : Path}
    (hmethod : req.method.map cString = some (bytesOf "set_binary"))
    (hcall : saveBinData service req resp path = .ok answered) : Settled req answered := by
  obtain ⟨algo, _, hnext⟩ := bind_eq_ok.mp hcall
  split at hnext
  · cases hnext
    exact .refused (by decide) (by decide) (by decide)
  · obtain ⟨key, _, hnext⟩ := bind_eq_ok.mp hnext
    dsimp only at hnext
    split at hnext
    · next hfailed =>
        cases hnext
        have hpositive : 0 < service.fileSystem.rename path
            (Path.append service.massDataDir key) := Nat.pos_of_ne_zero hfailed
        refine .refused ?_ ?_ ?_ <;>
          simp only [ErrCode.stdSystemErrorIndex, ErrCode.unimplementedError,
            ErrCode.completelyFinishedNotify] <;> omega
    · cases hnext
      refine .served rfl ?_
      rw [hmethod]
      rfl

/-- The rest of `onSetBinary`, when it knows whether the directory of the cache is there. -/
theorem settled_saveCreated (hmethod : req.method.map cString = some (bytesOf "set_binary"))
    (created : Bool)
    (hnext : (if created = false then pure (ErrCode.fileNotExistsError, resp)
      else do
        let (ret, resp) ← saveBinData service req resp (massDataCacheFilePath service)
        let _ ← orThrow (service.fileSystem.remove (massDataCacheFilePath service))
        return (ret, resp)) = Except.ok answered) : Settled req answered := by
  cases created with
  | false =>
      cases hnext
      exact .refused (by decide) (by decide) (by decide)
  | true =>
      obtain ⟨saved, hsaved, hremove⟩ := bind_eq_ok.mp hnext
      obtain ⟨removed, _, hreturn⟩ := bind_eq_ok.mp hremove
      cases hreturn
      exact settled_saveBinData hmethod hsaved

theorem settled_onSetBinary (hmethod : req.method.map cString = some (bytesOf "set_binary"))
    (hcall : onSetBinary service req resp = .ok answered) : Settled req answered := by
  obtain ⟨found, _, hnext⟩ := bind_eq_ok.mp hcall
  dsimp only at hnext
  split at hnext
  · exact settled_saveCreated hmethod true hnext
  · obtain ⟨created, _, hnext⟩ := bind_eq_ok.mp hnext
    exact settled_saveCreated hmethod created hnext

theorem settled_onGetBinary (hmethod : req.method.map cString = some (bytesOf "get_binary"))
    (hcall : onGetBinary service req resp = .ok answered) : Settled req answered := by
  obtain ⟨⟨ret, loaded, path⟩, hload, hnext⟩ := bind_eq_ok.mp hcall
  obtain ⟨key, _, hload⟩ := bind_eq_ok.mp hload
  obtain ⟨found, _, hload⟩ := bind_eq_ok.mp hload
  cases found with
  | false =>
      cases hload
      have hnegative : ErrCode.fileNotExistsError < 0 := by decide
      simp only [hnegative, if_true] at hnext
      cases hnext
      exact .refused (by decide) (by decide) (by decide)
  | true =>
      cases hload
      simp only [lt_irrefl, if_false] at hnext
      obtain ⟨size, _, hnext⟩ := bind_eq_ok.mp hnext
      split at hnext
      · cases hnext
        exact .refused (by decide) (by decide) (by decide)
      · cases hnext
        refine .served rfl ?_
        rw [hmethod]
        rfl

end MassData

section Processed

variable {rt : Runtime} {message : Object} {entry : ReqParser} {req : Req}

theorem Runtime.getUserInfo_eq_error {accessToken : Bytes} {ret : ℤ}
    (h : rt.getUserInfo accessToken = .error ret) :
    ret = ErrCode.didNotReady ∨ ret = ErrCode.invalidAccessToken := by
  unfold Runtime.getUserInfo at h
  split at h
  · cases h
    exact .inl rfl
  · split at h
    · cases h
      exact .inr rfl
    · cases h

theorem Runtime.mem_codes_of_checkAccessible (accessible : Accessible) (accessToken : Bytes) :
    rt.checkAccessible accessible accessToken ∈
      [0, ErrCode.didNotReady, ErrCode.invalidAccessToken, ErrCode.notAuthorizedError] := by
  unfold Runtime.checkAccessible
  split
  · split
    · simp
    · next herror =>
        rcases getUserInfo_eq_error herror with rfl | rfl
        · simp
        · simp
    · simp
    · split
      · simp
      · simp
  · simp

theorem Runtime.settled_of_checkAccessible {accessible : Accessible} {accessToken : Bytes}
    {resp : Option Resp} (hdenied : rt.checkAccessible accessible accessToken < 0) :
    Settled req (rt.checkAccessible accessible accessToken, resp) := by
  have hcodes : ∀ code ∈ [0, ErrCode.didNotReady, ErrCode.invalidAccessToken,
      ErrCode.notAuthorizedError], code ≠ ErrCode.unimplementedError ∧
        code ≠ ErrCode.completelyFinishedNotify := by decide
  obtain ⟨hknown, hunfinished⟩ := hcodes _ (mem_codes_of_checkAccessible accessible accessToken)
  exact .refused hdenied hknown hunfinished

/-- The names that `MassData` has and `LegacyMethod` has not. -/
theorem Requests.method_of_not_mem (h : Requests message entry req)
    (hmem : entry.method ∉ methodHdlrs) :
    entry.method = "set_binary" ∨ entry.method = "get_binary" := by
  have hall : ∀ name ∈ reqParsers10.map ReqParser.method, name ∉ methodHdlrs →
      name = "set_binary" ∨ name = "get_binary" := by decide
  exact hall _ h.mem_names hmem

theorem Requests.method_map (h : Requests message entry req) (hguarded : Guarded message)
    (hset : entry.method ≠ "update_user_info") :
    req.method.map cString = some (bytesOf entry.method) := by
  have hmethod := h.method_eq hguarded
  rw [if_neg hset] at hmethod
  obtain ⟨buffer, hbuffer, _, hname⟩ := hmethod
  rw [hbuffer, Option.map_some, hname]

/-- The handler that the table has for the request, when the token gives access. -/
theorem Requests.settled_normal (h : Requests message entry req) (hguarded : Guarded message)
    (hset : entry.method ≠ "update_user_info") {handler : NormalHandler}
    (hfind : (MassData.normalHandlerMap rt.service).find?
      (fun it => decide (it.1 = entry.method)) = some (entry.method, handler))
    (hcallback : ∀ answered, handler.callback req none = .ok answered → Settled req answered)
    {answered : ℤ × Option Resp}
    (hcall : (massData rt.service).onDispose req none = .ok answered) :
    Settled req answered := by
  change disposeNormal rt.service (MassData.normalHandlerMap rt.service) req none = _ at hcall
  rw [disposeNormal, dispatch_eq (h.named_normal hguarded hset), hfind] at hcall
  obtain ⟨accessToken, _, hnext⟩ := bind_eq_ok.mp hcall
  dsimp only at hnext
  split at hnext
  · next hdenied =>
      cases hnext
      exact Runtime.settled_of_checkAccessible hdenied
  · exact hcallback answered hnext

theorem Requests.settled_massData (h : Requests message entry req) (hguarded : Guarded message)
    (hset : entry.method ≠ "update_user_info") (hmem : entry.method ∉ methodHdlrs)
    {answered : ℤ × Option Resp}
    (hcall : (massData rt.service).onDispose req none = .ok answered) :
    Settled req answered := by
  have hmethod := h.method_map hguarded hset
  rcases h.method_of_not_mem hmem with hname | hname
  · rw [hname] at hmethod
    exact h.settled_normal hguarded hset (by rw [hname]; rfl)
      (fun _ hsaved => settled_onSetBinary hmethod hsaved) hcall
  · rw [hname] at hmethod
    exact h.settled_normal hguarded hset (by rw [hname]; rfl)
      (fun _ hloaded => settled_onGetBinary hmethod hloaded) hcall

theorem Runtime.processReplies_of_settled {ret : ℤ × Option Resp}
    (hanswer : firstAnswer ErrCode.unimplementedError
      ((cmdListener rt.service).map fun listener => listener.onDispose req)
      (ErrCode.unimplementedError, none) = .ok ret)
    (hsettled : Settled req ret) : Answered req.tsxId.toNat (rt.processReplies req) := by
  cases hsettled with
  | refused hnegative hknown hunfinished =>
      rw [processReplies_of_refused hanswer hnegative hknown hunfinished, answered_ok_iff]
      exact answers_of_marks .error
  | served hid hserializer =>
      rw [processReplies_of_served hanswer hserializer, answered_ok_iff, hid]
      exact answers_of_marks terminal_last

theorem Requests.answered_binary_iff (h : Requests message entry req)
    (hguarded : Guarded message) (hset : entry.method ≠ "update_user_info")
    (hcarrier : rt.carrier = true) (hmem : entry.method ∉ methodHdlrs) :
    Answered req.tsxId.toNat (rt.processReplies req) ↔
      Returns ((massData rt.service).onDispose req none) := by
  have hlisteners :
      (cmdListener rt.service).map (fun listener => listener.onDispose req) =
        [(legacyMethod rt.service).onDispose req, (channelMethod rt.service).onDispose req] ++
          (massData rt.service).onDispose req :: [(standardAuth rt.service).onDispose req] := rfl
  have hexpired : rt.service.carrier = true := hcarrier
  have hlegacy : Declines ErrCode.unimplementedError
      ((legacyMethod rt.service).onDispose req) :=
    h.declines_legacyMethod hguarded hset hexpired hmem
  have hchain : firstAnswer ErrCode.unimplementedError
      ((cmdListener rt.service).map fun listener => listener.onDispose req)
      (ErrCode.unimplementedError, none) = (massData rt.service).onDispose req none := by
    rw [hlisteners]
    exact firstAnswer_of_sole (by simpa using ⟨hlegacy, declines_channelMethod req⟩)
      (by simpa using declines_standardAuth req) _ _
  cases hcall : (massData rt.service).onDispose req none with
  | error stop =>
      rw [Runtime.processReplies, hchain, hcall, error_bind]
      simp
  | ok answered =>
      refine iff_of_true ?_ (returns_ok _)
      exact Runtime.processReplies_of_settled (hchain.trans hcall)
        (h.settled_massData hguarded hset hmem hcall)

theorem Requests.survives_of_not_mem (h : Requests message entry req)
    (hmem : entry.method ∉ methodHdlrs) : rt.Survives entry.method req := by
  rcases h.method_of_not_mem hmem with hname | hname
  · rw [hname]
    exact ⟨by simp, fun request hrequest => nomatch hrequest⟩
  · rw [hname]
    exact ⟨by simp, fun request hrequest => nomatch hrequest⟩

theorem Requests.answered_processReplies_iff (h : Requests message entry req)
    (hready : rt.Ready) (hguarded : Guarded message) (himport : entry.method ≠ "import_did") :
    Answered req.tsxId.toNat (rt.processReplies req) ↔
      (rt.carrier = true → rt.Handles entry req) := by
  by_cases hcarrier : rt.carrier = true
  · rw [forall_prop_of_true hcarrier]
    by_cases hset : entry.method = "update_user_info"
    · have hmethod := h.method_eq hguarded
      rw [if_pos hset] at hmethod
      have hexpired : rt.service.carrier = true := hcarrier
      have hstop : (legacyMethod rt.service).onDispose req none =
          .error (.fault .nullDereference) := by
        simp only [legacyMethod, hexpired, if_true, disposeLegacy, methodHdlrs, dispatch,
          Req.named, hmethod, error_bind]
      refine iff_of_false ?_ fun hhandles => hhandles.named hset
      simp [Runtime.processReplies, cmdListener, firstAnswer, hstop]
    · by_cases hmem : entry.method ∈ methodHdlrs
      · rw [Runtime.processReplies_of_legacy h hguarded hset hcarrier hmem,
          Runtime.answered_hdlr_iff hready hmem himport]
        have hapart : ∀ name ∈ methodHdlrs, name ≠ "set_binary" ∧ name ≠ "get_binary" := by
          decide
        obtain ⟨hnotSet, hnotGet⟩ := hapart _ hmem
        constructor
        · intro hsurvives
          exact ⟨hset, hsurvives, fun hname => absurd hname hnotSet,
            fun hname => absurd hname hnotGet⟩
        · intro hhandles
          exact hhandles.survives
      · rw [h.answered_binary_iff hguarded hset hcarrier hmem,
          h.returns_massData_iff hguarded hset]
        constructor
        · rintro ⟨hsetBinary, hgetBinary⟩
          exact ⟨hset, h.survives_of_not_mem hmem, hsetBinary, hgetBinary⟩
        · intro hhandles
          exact ⟨hhandles.setBinary, hhandles.getBinary⟩
  · have hreleased : firstAnswer ErrCode.unimplementedError
        ((cmdListener rt.service).map fun listener => listener.onDispose req)
        (ErrCode.unimplementedError, none) = .ok (ErrCode.pointerReleasedError, none) := by
      have hapart : ErrCode.pointerReleasedError ≠ ErrCode.unimplementedError := by decide
      have hexpired : ¬ rt.service.carrier = true := hcarrier
      simp [cmdListener, firstAnswer, legacyMethod, hexpired, hapart]
    refine iff_of_true ?_ fun hcarried => absurd hcarried hcarrier
    exact Runtime.processReplies_of_settled hreleased
      (.refused (by decide) (by decide) (by decide))

end Processed

end Legacy

section Messages

variable {msgpack : MsgPack} {data : Bytes} {rt : Runtime} {id : ℤ}

/-- The message is a request of a method that is known: of one that the factory has a
class for, or else of one of the tables of `rpc.c` but `import_did`. -/
inductive Decodes (msgpack : MsgPack) (data : Bytes) : ℤ → Prop
  | advanced {request : Request}
      (hunmarshal : Factory.unmarshal msgpack data = .ok (0, some request))
      (hmethod : (Factory.makeRequest request.method).isSome = true) :
      Decodes msgpack data request.id
  | legacy {message : Object} {entry : ReqParser} {req : Req}
      (hunclassed : ∀ request, Factory.unmarshal msgpack data ≠ .ok (0, some request))
      (hdecoded : msgpack.unpackNext data = some message) (h : Requests message entry req)
      (hunmarshal : unmarshalReq msgpack data = .ok { rc := 0, req := some req })
      (himport : entry.method ≠ "import_did") : Decodes msgpack data req.tsxId.toNat

/-- The message gets past the factory, and to a handler that gives an answer. -/
structure Answerable (rt : Runtime) (msgpack : MsgPack) (data : Bytes) : Prop where
  unmarshals : ∃ ret request, Factory.unmarshal msgpack data = .ok (ret, some request) ∧
    (ret = 0 ∨ ret = ErrCode.unimplementedError)
  advanced : ∀ request, Factory.unmarshal msgpack data = .ok (0, some request) →
    Factory.makeRequest request.method = some request.kind ∧ rt.Accepts request
  processed : rt.carrier = true → ∀ request,
    Factory.unmarshal msgpack data = .ok (ErrCode.unimplementedError, some request) →
      ∀ message ∈ msgpack.unpackNext data, ∀ entry req, Requests message entry req →
        rt.Handles entry req

/-- What the factory has no class for is unmarshalled again. -/
theorem replies_eq_processReplies {request : Option Request} {req : Req}
    (hfactory : Factory.unmarshal msgpack data = .ok (ErrCode.unimplementedError, request))
    (hunmarshal : unmarshalReq msgpack data = .ok { rc := 0, req := some req }) :
    rt.replies msgpack data = rt.processReplies req := by
  have hunpack : unpackRequest msgpack rt.warns data = .ok (0, some req) := by
    rw [unpackRequest, hunmarshal, ok_bind]
    rfl
  simp only [Runtime.replies, hfactory, ok_bind, if_true, hunpack, le_refl]

theorem replies_of_refused {ret : ℤ} {request : Option Request}
    (hfactory : Factory.unmarshal msgpack data = .ok (ret, request)) (hnegative : ret < 0)
    (hknown : ret ≠ ErrCode.unimplementedError) : rt.replies msgpack data = .ok [] := by
  simp only [Runtime.replies, hfactory, ok_bind, hknown, hnegative, if_false, if_true]
  rfl

theorem answered_advanced_request_iff (hready : rt.Ready) {request : Request}
    (hfactory : Factory.unmarshal msgpack data = .ok (0, some request))
    (hmethod : (Factory.makeRequest request.method).isSome = true) :
    Answered request.id (rt.replies msgpack data) ↔ Answerable rt msgpack data := by
  have hapart : (0 : ℤ) ≠ ErrCode.unimplementedError := by decide
  have hreplies : rt.replies msgpack data = rt.advancedReplies request := by
    simp only [Runtime.replies, hfactory, ok_bind, hapart, lt_irrefl, if_false]
  obtain ⟨kind, hkind⟩ := Option.isSome_iff_exists.mp hmethod
  rw [hreplies, Runtime.answered_advancedReplies_iff hready hkind]
  constructor
  · rintro ⟨rfl, haccepts⟩
    refine ⟨⟨0, request, hfactory, .inl rfl⟩, ?_, ?_⟩
    · intro other hother
      cases hfactory.symm.trans hother
      exact ⟨hkind, haccepts⟩
    · intro _ other hother
      cases hfactory.symm.trans hother
  · intro hanswerable
    obtain ⟨hclass, haccepts⟩ := hanswerable.advanced request hfactory
    exact ⟨Option.some.inj (hclass.symm.trans hkind), haccepts⟩

theorem Requests.answered_replies_iff {message : Object} {entry : ReqParser} {req : Req}
    (h : Requests message entry req) (hready : rt.Ready)
    (hunclassed : ∀ request, Factory.unmarshal msgpack data ≠ .ok (0, some request))
    (hdecoded : msgpack.unpackNext data = some message)
    (hunmarshal : unmarshalReq msgpack data = .ok { rc := 0, req := some req })
    (himport : entry.method ≠ "import_did") :
    Answered req.tsxId.toNat (rt.replies msgpack data) ↔ Answerable rt msgpack data := by
  have hguarded : Guarded message := by
    rw [unmarshalReq, hdecoded, mapError_eq_ok] at hunmarshal
    exact guarded_of_answer hunmarshal
  cases hfactory : Factory.unmarshal msgpack data with
  | error stop =>
      refine iff_of_false (by simp [Runtime.replies, hfactory]) fun hanswerable => ?_
      obtain ⟨ret, request, hreturned, _⟩ := hanswerable.unmarshals
      cases hfactory.symm.trans hreturned
  | ok unmarshalled =>
      obtain ⟨ret, request⟩ := unmarshalled
      rcases Factory.unmarshal_cases hfactory with ⟨hnegative, hknown⟩ | ⟨rfl | rfl, hsome⟩
      · rw [replies_of_refused hfactory hnegative hknown]
        refine iff_of_false (by simp) fun hanswerable => ?_
        obtain ⟨other, request, hreturned, hother⟩ := hanswerable.unmarshals
        cases hfactory.symm.trans hreturned
        exact hother.elim hnegative.ne hknown
      · obtain ⟨request, rfl⟩ := Option.isSome_iff_exists.mp hsome
        exact absurd hfactory (hunclassed request)
      · obtain ⟨request, rfl⟩ := Option.isSome_iff_exists.mp hsome
        rw [replies_eq_processReplies hfactory hunmarshal,
          h.answered_processReplies_iff hready hguarded himport]
        constructor
        · intro hhandles
          refine ⟨⟨_, request, hfactory, .inr rfl⟩, ?_, ?_⟩
          · intro other hother
            exact absurd hother (hunclassed other)
          · intro hcarrier _ _ other hother entry' req' h'
            cases hdecoded.symm.trans hother
            obtain ⟨rfl, rfl⟩ := h.unique h'
            exact hhandles hcarrier
        · intro hanswerable hcarrier
          exact hanswerable.processed hcarrier request hfactory message hdecoded entry req h

end Messages

section Runs

/-- msgpack in the standard format. -/
def standardMsgPack : MsgPack where
  unpack := decode
  asDict := dictOf
  asString object := object.asStr.map Subtype.val
  asInt64 object := object.asU64.bind fun value =>
    if value.toNat < 2 ^ 63 then some value.toNat else none
  kvmap := dictOf
  unpackNext := decode
where
  decode (data : Bytes) : Option Object := (standard.unpack objectShape data).map Prod.fst

/-- A service that is bound to its owner. -/
def readyService : Runtime where
  reading :=
    { text _ := ""
      jws _ := ⟨[], none, "", none, none, none, []⟩
      credential _ := none
      document _ := some ⟨"did:client", ⟨"did:client", "primary"⟩⟩ }
  host := Auth.trustingHost
  moment := { now := 2000 }
  auth := (Runs.exec (Auth.next Auth.trustingHost) Auth.State.init Auth.bindingRun).getD .init
  mem := Feeds.Mem.init
  connectingClients := 1
  «from» := "phone"
  maxContentLen := 1024
  sizes := ⟨0, 0, 0, 0, 0, 0⟩
  scan := .stored
  release := true
  carrier := true
  fileSystem := calm.fileSystem
  massDataDir := bytesOf "massdata"
  random := 0
  payload := none
  generated := false
  identity := false
  doc := none
  warns := true
  errorText _ := ""
  pack _ := calm.pack ()

theorem readyService_ready : readyService.Ready where
  issued := by rfl
  accounts := ⟨by decide, by decide, fun _ => ⟨"did:owner", by decide⟩⟩
  statuses := ⟨by decide, by decide⟩

/-- A request without parameters, and so without an access token. -/
def tokenlessPacket : Bytes :=
  (packMap 3 [packKvStr "version" (some "1.0"),
    packKvStr "method" (some "get_multi_comments"), packKvU64 "id" 7]).bytes standard

def tokenlessRequest : Request where
  kind := .getMultiComments
  version := bytesOf "1.0"
  method := bytesOf "get_multi_comments"
  id := 7
  params := [.string [], .int64 (-1), .int64 (-1), .int64 (-1), .int64 (-1), .int64 (-1),
    .int64 (-1)]

/-- The first step of a sign-in. -/
def signInPacket : Bytes :=
  (packMap 3 [packKvStr "method" (some "standard_sign_in"), packKvU64 "id" 8,
    packKvMap "params" 1 [packKvStr "document" (some "document")]]).bytes standard

def signInRequest : Request where
  kind := .standardSignIn
  method := bytesOf "standard_sign_in"
  id := 8
  params := [.string (bytesOf "document")]

end Runs

end FeedsService.Rpc
