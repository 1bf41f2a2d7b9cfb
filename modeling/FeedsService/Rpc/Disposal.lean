import FeedsService.Rpc.CommandHandler
import FeedsService.Rpc.Requests

/-!
# When the listeners return

No two listeners have a method in common, so a chain of listeners returns when
the handler of the request does: a handler in C, one of `MassData` with what
it asks the file system for, or one of the advanced handlers.
-/

namespace FeedsService.Rpc

open FeedsService.Library FeedsService.Library.KeyedTable

/-! ## Handlers -/

section Handlers

variable {Response : Type} {service : Service Response} {req : Req}

/-- The directory of the cache is there or can be created, and the file in it
can be removed. -/
def CacheUsable (service : Service Response) : Prop :=
  ∃ found, service.fileSystem.fileExists (massDataCacheDir service) = some found ∧
    (found = true ∧ (service.fileSystem.remove (massDataCacheFilePath service)).isSome = true ∨
      found = false ∧
        ∃ created, service.fileSystem.createDirectories (massDataCacheDir service) =
          some created ∧ (created = true →
            (service.fileSystem.remove (massDataCacheFilePath service)).isSome = true))

/-- The path of a key can be asked for, and the file that is there has a
size. -/
def ContentReadable (service : Service Response) (key : Bytes) : Prop :=
  ∃ found, service.fileSystem.fileExists (Path.append service.massDataDir key) = some found ∧
    (found = true →
      (service.fileSystem.fileSize (Path.append service.massDataDir key)).isSome = true)

theorem follow_eq_ok {pointer : Option Bytes} {text : Bytes} :
    follow pointer = .ok text ↔ pointer.map cString = some text := by
  cases pointer with
  | none => simp [follow]
  | some buffer => simp [follow]

theorem returns_saveBinData {algo key : Bytes} (halgo : (req.str .algo).map cString = some algo)
    (hkey : (req.str .key).map cString = some key) (resp : Option Resp) (path : Path) :
    Returns (saveBinData service req resp path) := by
  simp only [saveBinData, follow_eq_ok.mpr halgo, follow_eq_ok.mpr hkey, ok_bind]
  split
  · exact returns_pure _
  · split
    · exact returns_pure _
    · exact returns_pure _

theorem returns_onSetBinary_iff {algo key : Bytes}
    (halgo : (req.str .algo).map cString = some algo)
    (hkey : (req.str .key).map cString = some key) (resp : Option Resp) :
    Returns (onSetBinary service req resp) ↔ CacheUsable service := by
  have hsave : Returns (saveBinData service req resp (massDataCacheFilePath service)) :=
    returns_saveBinData halgo hkey resp _
  obtain ⟨⟨ret, saved⟩, hsaved⟩ := hsave
  have hremove : Returns (orThrow
      (service.fileSystem.remove (massDataCacheFilePath service)) >>= fun _ =>
        (pure (ret, saved) : Except Stop (ℤ × Option Resp))) ↔
      (service.fileSystem.remove (massDataCacheFilePath service)).isSome = true :=
    (returns_bind_of_next fun removed => returns_pure _).trans returns_orThrow_iff
  unfold onSetBinary CacheUsable
  rw [returns_bind_iff]
  simp only [orThrow_eq_ok, hsaved, ok_bind]
  apply exists_congr
  intro found
  apply and_congr_right
  intro hfound
  cases found with
  | true => simpa using hremove
  | false =>
      simp only [Bool.false_eq_true, if_false, false_and, false_or, true_and]
      rw [returns_bind_iff]
      simp only [orThrow_eq_ok]
      apply exists_congr
      intro created
      apply and_congr_right
      intro hcreated
      cases created with
      | true => simpa using hremove
      | false => simpa using returns_pure _

theorem returns_onGetBinary_iff {key : Bytes}
    (hkey : (req.str .key).map cString = some key) (resp : Option Resp) :
    Returns (onGetBinary service req resp) ↔ ContentReadable service key := by
  have hload : ∀ found, service.fileSystem.fileExists (Path.append service.massDataDir key) =
      some found → loadBinData service req resp = .ok
        (if found = false then (ErrCode.fileNotExistsError, resp, [])
        else (0, some (.getBinary req.tsxId key (bytesOf "None") [] []),
          Path.append service.massDataDir key)) := by
    intro found hfound
    simp only [loadBinData, follow_eq_ok.mpr hkey, ok_bind, hfound, orThrow]
    cases found with
    | true => rfl
    | false => rfl
  unfold ContentReadable
  cases hexists : service.fileSystem.fileExists (Path.append service.massDataDir key) with
  | none =>
      have hthrown : loadBinData service req resp = .error .thrown := by
        simp only [loadBinData, follow_eq_ok.mpr hkey, ok_bind, hexists, orThrow, error_bind]
      simp [onGetBinary, hthrown]
  | some found =>
      rw [onGetBinary, hload found hexists, ok_bind]
      cases found with
      | false =>
          have hnegative : ErrCode.fileNotExistsError < 0 := by decide
          simpa [hnegative] using returns_pure _
      | true =>
          simp only [Bool.true_eq_false, if_false, lt_self_iff_false, Option.some.injEq,
            exists_eq_left', true_imp_iff]
          rw [returns_bind_of_next, returns_orThrow_iff]
          intro size
          split
          · exact returns_pure _
          · exact returns_pure _

/-- What a handler needs for the request of this entry. -/
structure Handled (service : Service Response) (entry : ReqParser) (req : Req) : Prop where
  named : entry.method ≠ "update_user_info"
  legacy : entry.method ∈ methodHdlrs → Returns (service.hdlr entry.method req)
  setBinary : entry.method = "set_binary" → ∀ accessToken ∈ (req.str .tk).map cString,
    0 ≤ service.checkAccessible .owner accessToken → CacheUsable service
  getBinary : entry.method = "get_binary" → ∀ accessToken ∈ (req.str .tk).map cString,
    ∀ key ∈ (req.str .key).map cString,
      0 ≤ service.checkAccessible .member accessToken → ContentReadable service key

theorem mem_names_of_methodHdlrs {name : String} (h : name ∈ methodHdlrs) :
    name ∈ reqParsers10.map ReqParser.method := by
  have hall : ∀ name ∈ methodHdlrs, name ∈ reqParsers10.map ReqParser.method := by decide
  exact hall name h

section Disposal

variable {message : Object} {entry : ReqParser}

theorem keyed_methodHdlrs : Keyed id methodHdlrs := by
  change (methodHdlrs.map id).Nodup
  decide

theorem Requests.returns_disposeLegacy_iff (h : Requests message entry req)
    (hguarded : Guarded message) (hset : entry.method ≠ "update_user_info") :
    Returns (disposeLegacy service req) ↔
      (entry.method ∈ methodHdlrs → Returns (service.hdlr entry.method req)) := by
  have htest : ∀ name ∈ methodHdlrs, req.named name = .ok (decide (id name = entry.method)) :=
    fun name hname => h.named_eq hguarded hset (mem_names_of_methodHdlrs hname)
  have hcall : ∀ name, Returns (service.hdlr name req >>= fun _ =>
      (pure ErrCode.completelyFinishedNotify : Except Stop ℤ)) ↔
        Returns (service.hdlr name req) := fun name =>
    returns_bind_of_next fun done => returns_pure _
  rw [disposeLegacy, returns_dispatch_keyed_iff htest keyed_methodHdlrs]
  simp only [hcall, id_eq]
  constructor
  · intro h hmem
    exact h _ hmem rfl
  · rintro h name hmem rfl
    exact h hmem

/-- The binary requests have their token, their key and their algorithm. -/
theorem fields_of_binary (hentry : entry ∈ reqParsers10 ∨ entry ∈ reqParsers20) :
    (entry.method = "set_binary" → ∀ member ∈ [Member.tk, .key, .algo],
      ∃ field ∈ entry.parser.params, field.member = member ∧ field.leavesStr = true) ∧
    (entry.method = "get_binary" → ∀ member ∈ [Member.tk, .key],
      ∃ field ∈ entry.parser.params, field.member = member ∧ field.leavesStr = true) := by
  apply forall_tables _ _ hentry
  · decide
  · decide

/-- A handler of `normalHandlerMap` is called when the token gives access. -/
theorem returns_access_iff {accessToken : Bytes} {accessible : Accessible} {resp : Option Resp}
    {callback : Except Stop (ℤ × Option Resp)}
    (htoken : (req.str .tk).map cString = some accessToken) :
    Returns (stdString (req.str .tk) >>= fun accessToken =>
        if service.checkAccessible accessible accessToken < 0 then
          pure (service.checkAccessible accessible accessToken, resp)
        else callback) ↔
      (0 ≤ service.checkAccessible accessible accessToken → Returns callback) := by
  rw [stdString, htoken, orThrow, ok_bind, ← not_lt]
  exact returns_unless_iff

theorem Requests.named_normal (h : Requests message entry req) (hguarded : Guarded message)
    (hset : entry.method ≠ "update_user_info") :
    ∀ it ∈ MassData.normalHandlerMap service,
      req.named it.1 = .ok (decide (it.1 = entry.method)) := by
  intro it hit
  have hnames : ∀ name ∈ ["set_binary", "get_binary"],
      name ∈ reqParsers10.map ReqParser.method := by
    decide
  apply h.named_eq hguarded hset
  exact hnames _ (List.mem_map_of_mem hit)

theorem Requests.returns_massData_iff (h : Requests message entry req)
    (hguarded : Guarded message) (hset : entry.method ≠ "update_user_info")
    (resp : Option Resp) :
    Returns ((massData service).onDispose req resp) ↔
      (entry.method = "set_binary" → ∀ accessToken ∈ (req.str .tk).map cString,
        0 ≤ service.checkAccessible .owner accessToken → CacheUsable service) ∧
      (entry.method = "get_binary" → ∀ accessToken ∈ (req.str .tk).map cString,
        ∀ key ∈ (req.str .key).map cString,
          0 ≤ service.checkAccessible .member accessToken → ContentReadable service key) := by
  have hstr : ∀ members : List Member, (∀ member ∈ members, ∃ field ∈ entry.parser.params,
      field.member = member ∧ field.leavesStr = true) →
        ∀ member ∈ members, ∃ text, (req.str member).map cString = some text := by
    intro members hmembers member hmember
    obtain ⟨field, hfield, rfl, hleaves⟩ := hmembers member hmember
    exact h.str hguarded hfield hleaves
  obtain ⟨hsetFields, hgetFields⟩ := fields_of_binary h.mem_tables
  have hkeyed : Keyed Prod.fst (MassData.normalHandlerMap service) := by
    change ["set_binary", "get_binary"].Nodup
    decide
  change Returns (disposeNormal service (MassData.normalHandlerMap service) req resp) ↔ _
  rw [disposeNormal, returns_dispatch_keyed_iff (h.named_normal hguarded hset) hkeyed]
  simp only [MassData.normalHandlerMap, List.forall_mem_cons, List.not_mem_nil, false_imp_iff,
    implies_true, and_true]
  apply and_congr
  · rw [eq_comm]
    apply imp_congr_right
    intro hsetBinary
    obtain ⟨accessToken, htoken⟩ := hstr _ (hsetFields hsetBinary) .tk (by simp)
    obtain ⟨key, hkey⟩ := hstr _ (hsetFields hsetBinary) .key (by simp)
    obtain ⟨algo, halgo⟩ := hstr _ (hsetFields hsetBinary) .algo (by simp)
    rw [returns_access_iff htoken, returns_onSetBinary_iff halgo hkey]
    simp only [htoken, Option.mem_some_iff, forall_eq']
  · rw [eq_comm]
    apply imp_congr_right
    intro hgetBinary
    obtain ⟨accessToken, htoken⟩ := hstr _ (hgetFields hgetBinary) .tk (by simp)
    obtain ⟨key, hkey⟩ := hstr _ (hgetFields hgetBinary) .key (by simp)
    rw [returns_access_iff htoken, returns_onGetBinary_iff hkey]
    simp only [htoken, hkey, Option.mem_some_iff, forall_eq']

theorem declines_channelMethod (req : Req) :
    Declines ErrCode.unimplementedError ((channelMethod service).onDispose req) :=
  fun _ => rfl

theorem declines_standardAuth (req : Req) :
    Declines ErrCode.unimplementedError ((standardAuth service).onDispose req) :=
  fun _ => rfl

theorem Requests.declines_massData (h : Requests message entry req)
    (hguarded : Guarded message) (hset : entry.method ≠ "update_user_info")
    (hmem : entry.method ∈ methodHdlrs) :
    Declines ErrCode.unimplementedError ((massData service).onDispose req) := by
  intro resp
  apply dispatch_of_none (h.named_normal hguarded hset)
  intro it hit hname
  have hapart : ∀ name ∈ ["set_binary", "get_binary"], name ∉ methodHdlrs := by decide
  have hfound : it.1 ∈ ["set_binary", "get_binary"] := List.mem_map_of_mem hit
  apply hapart it.1 hfound
  rw [of_decide_eq_true hname]
  exact hmem

theorem Requests.declines_legacyMethod (h : Requests message entry req)
    (hguarded : Guarded message) (hset : entry.method ≠ "update_user_info")
    (hcarrier : service.carrier = true) (hmem : entry.method ∉ methodHdlrs) :
    Declines ErrCode.unimplementedError ((legacyMethod service).onDispose req) := by
  intro resp
  have hlegacy : disposeLegacy service req = .ok ErrCode.unimplementedError := by
    apply dispatch_of_none fun name hname =>
      h.named_eq hguarded hset (mem_names_of_methodHdlrs hname)
    intro name hname hsame
    exact hmem (of_decide_eq_true hsame ▸ hname)
  simp only [legacyMethod, hcarrier, if_true, hlegacy, ok_bind]
  rfl

/-- `LegacyMethod` and `MassData` have no method in common. -/
theorem Requests.declines_or (h : Requests message entry req) (hguarded : Guarded message)
    (hset : entry.method ≠ "update_user_info") (hcarrier : service.carrier = true) :
    Declines ErrCode.unimplementedError ((legacyMethod service).onDispose req) ∨
      Declines ErrCode.unimplementedError ((massData service).onDispose req) := by
  by_cases hmem : entry.method ∈ methodHdlrs
  · exact .inr (h.declines_massData hguarded hset hmem)
  · exact .inl (h.declines_legacyMethod hguarded hset hcarrier hmem)

/-- The loop over `method_hdlrs` calls the handler of the request. -/
theorem Requests.dispatch_methodHdlrs (h : Requests message entry req)
    (hguarded : Guarded message) (hset : entry.method ≠ "update_user_info")
    (hmem : entry.method ∈ methodHdlrs) {ρ : Type} (call : String → Except Stop ρ)
    (missing : ρ) : dispatch req.named call missing methodHdlrs = call entry.method := by
  have htest : ∀ name ∈ methodHdlrs, req.named name = .ok (decide (id name = entry.method)) :=
    fun name hname => h.named_eq hguarded hset (mem_names_of_methodHdlrs hname)
  have hfound : KeyedTable.get id methodHdlrs entry.method = some entry.method :=
    (get_eq_some keyed_methodHdlrs).mpr ⟨hmem, rfl⟩
  have hfind : (methodHdlrs.find? fun name => decide (id name = entry.method)) =
      some entry.method := hfound
  rw [dispatch_eq htest, hfind]

theorem Requests.returns_dispose_iff (h : Requests message entry req)
    (hguarded : Guarded message) :
    Returns (firstAnswer ErrCode.unimplementedError
        ((cmdListener service).map fun listener => listener.onDispose req)
        (ErrCode.unimplementedError, none)) ↔
      (service.carrier = true → Handled service entry req) := by
  by_cases hcarrier : service.carrier = true
  · have hlegacy : ∀ resp, (legacyMethod service).onDispose req resp =
        disposeLegacy service req >>= fun ret => pure (ret, resp) := by
      intro resp
      simp only [legacyMethod, hcarrier, if_true]
    simp only [hcarrier, true_imp_iff]
    by_cases hset : entry.method = "update_user_info"
    · have hmethod := h.method_eq hguarded
      rw [if_pos hset] at hmethod
      have hstop : disposeLegacy service req = .error (.fault .nullDereference) := by
        simp only [disposeLegacy, methodHdlrs, dispatch, Req.named, hmethod, error_bind]
      constructor
      · intro hreturns
        simp [cmdListener, firstAnswer, hlegacy, hstop] at hreturns
      · intro hhandled
        exact absurd hset hhandled.named
    · have hsole : ((cmdListener service).map fun listener => listener.onDispose req).Pairwise
          fun first second => Declines ErrCode.unimplementedError first ∨
            Declines ErrCode.unimplementedError second := by
        simp [cmdListener, declines_channelMethod, declines_standardAuth,
          h.declines_or hguarded hset hcarrier]
      rw [returns_firstAnswer_iff hsole]
      have hcalls : Returns ((legacyMethod service).onDispose req none) ↔
          (entry.method ∈ methodHdlrs → Returns (service.hdlr entry.method req)) := by
        rw [hlegacy, returns_bind_of_next fun ret => returns_pure _]
        exact h.returns_disposeLegacy_iff hguarded hset
      simp only [cmdListener, List.map_cons, List.map_nil, List.forall_mem_cons,
        List.not_mem_nil, false_imp_iff, implies_true, and_true, hcalls,
        h.returns_massData_iff hguarded hset, (declines_channelMethod req).returns,
        (declines_standardAuth req).returns, true_and]
      constructor
      · rintro ⟨hlegacyReturns, hsetBinary, hgetBinary⟩
        exact ⟨hset, hlegacyReturns, hsetBinary, hgetBinary⟩
      · rintro ⟨-, hlegacyReturns, hsetBinary, hgetBinary⟩
        exact ⟨hlegacyReturns, hsetBinary, hgetBinary⟩
  · have hreleased : (legacyMethod service).onDispose req none =
        .ok (ErrCode.pointerReleasedError, none) := by
      simp only [legacyMethod, hcarrier]
      rfl
    have hapart : ErrCode.pointerReleasedError ≠ ErrCode.unimplementedError := by decide
    simp only [cmdListener, List.map_cons, firstAnswer, hreleased, ok_bind, hapart, if_false,
      hcarrier, Bool.false_eq_true, false_imp_iff, iff_true]
    exact returns_ok _

end Disposal

end Handlers

/-! ## The advanced handlers -/

section Advanced

variable {Response : Type} {service : Service Response}

def advancedHandlers (service : Service Response) : List (String × AdvancedHandler Response) :=
  ChannelMethod.advancedHandlerMap service ++ StandardAuth.advancedHandlerMap service

/-- The handler of the method, if the token gives access to it, returns. -/
def AdvancedHandled (service : Service Response) (request : Request) : Prop :=
  ∀ it ∈ advancedHandlers service, bytesOf it.1 = request.method →
    0 ≤ service.checkAccessible it.2.accessible request.accessToken →
      Returns (it.2.callback request [])

theorem keyed_advancedHandlers :
    Keyed (fun it => bytesOf it.1) (advancedHandlers service) := by
  have hnames : (advancedHandlers service).map (fun it => bytesOf it.1) =
      ["get_multi_comments", "get_multi_likes_and_comments_count",
        "get_multi_subscribers_count", "standard_sign_in", "standard_did_auth"].map bytesOf := rfl
  rw [Keyed, hnames]
  decide

theorem returns_disposeAdvanced_iff {handlers : List (String × AdvancedHandler Response)}
    (hkeyed : Keyed (fun it => bytesOf it.1) handlers) {request : Request}
    {responseArray : List Response} :
    Returns (disposeAdvanced service handlers request responseArray) ↔
      ∀ it ∈ handlers, bytesOf it.1 = request.method →
        0 ≤ service.checkAccessible it.2.accessible request.accessToken →
          Returns (it.2.callback request responseArray) := by
  rw [disposeAdvanced, returns_dispatch_keyed_iff (fun it _ => rfl) hkeyed]
  apply forall₂_congr
  intro it hit
  apply imp_congr_right
  intro hname
  rw [← not_lt]
  exact returns_unless_iff

theorem declines_of_not_mem {handlers : List (String × AdvancedHandler Response)}
    {request : Request} (h : ∀ it ∈ handlers, bytesOf it.1 ≠ request.method) :
    Declines ErrCode.unimplementedError (disposeAdvanced service handlers request) := by
  intro responseArray
  apply dispatch_of_none fun it _ => rfl
  intro it hit hname
  exact h it hit (of_decide_eq_true hname)

/-- `ChannelMethod` and `StandardAuth` have no method in common. -/
theorem declines_or_advanced (request : Request) :
    Declines ErrCode.unimplementedError ((channelMethod service).onDisposeAdvanced request) ∨
      Declines ErrCode.unimplementedError
        ((standardAuth service).onDisposeAdvanced request) := by
  have hkeyed : Keyed (fun it => bytesOf it.1) (advancedHandlers service) :=
    keyed_advancedHandlers
  rw [Keyed, advancedHandlers, List.map_append, List.nodup_append] at hkeyed
  obtain ⟨-, -, hapart⟩ := hkeyed
  by_cases hfound : ∃ it ∈ ChannelMethod.advancedHandlerMap service,
      bytesOf it.1 = request.method
  · obtain ⟨it, hit, hname⟩ := hfound
    apply Or.inr
    apply declines_of_not_mem
    intro other hother hsame
    exact hapart _ (List.mem_map_of_mem hit) _ (List.mem_map_of_mem hother)
      (hname.trans hsame.symm)
  · apply Or.inl
    apply declines_of_not_mem
    intro it hit hname
    exact hfound ⟨it, hit, hname⟩

theorem returns_disposeAdvanced_chain_iff (request : Request) (ret : ℤ) :
    Returns (firstAnswer ErrCode.unimplementedError
        ((cmdListener service).map fun listener => listener.onDisposeAdvanced request)
        (ret, [])) ↔ AdvancedHandled service request := by
  have hlegacy : Declines ErrCode.unimplementedError
      ((legacyMethod service).onDisposeAdvanced request) := fun _ => rfl
  have hmassData : Declines ErrCode.unimplementedError
      ((massData service).onDisposeAdvanced request) := fun _ => rfl
  have hsole : ((cmdListener service).map fun listener =>
      listener.onDisposeAdvanced request).Pairwise fun first second =>
        Declines ErrCode.unimplementedError first ∨
          Declines ErrCode.unimplementedError second := by
    simp [cmdListener, hlegacy, hmassData, declines_or_advanced]
  have hkeyed : Keyed (fun it => bytesOf it.1) (advancedHandlers service) :=
    keyed_advancedHandlers
  rw [Keyed, advancedHandlers, List.map_append, List.nodup_append] at hkeyed
  obtain ⟨hchannel, hauth, -⟩ := hkeyed
  rw [returns_firstAnswer_iff hsole, AdvancedHandled, advancedHandlers,
    List.forall_mem_append, ← returns_disposeAdvanced_iff hchannel,
    ← returns_disposeAdvanced_iff hauth]
  simp only [cmdListener, List.map_cons, List.map_nil, List.forall_mem_cons, List.not_mem_nil,
    false_imp_iff, implies_true, and_true, hlegacy.returns, hmassData.returns, true_and]
  rfl

end Advanced

end FeedsService.Rpc
