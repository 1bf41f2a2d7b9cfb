import FeedsService.Rpc.Disposal

/-!
# When the task returns

A message that no peer should be able to send ends the service: the bytes that
do not unpack, a root or a member of the wrong type, an id that does not fit,
what `rpc.c` does not survive, what it refuses when the log reads behind it, and
the requests whose handler throws.  For any other message the task returns.
-/

namespace FeedsService.Rpc

open FeedsService.Library

/-! ## The task -/

section Task

variable {Response : Type} {msgpack : MsgPack} {service : Service Response} {data : Bytes}

/-- `rpc.c` makes no request of the bytes. -/
def Refused (msgpack : MsgPack) (data : Bytes) : Prop :=
  ∀ message ∈ msgpack.unpackNext data, ∀ entry req, ¬ Requests message entry req

/-- What `rpc.c`, the log and the handlers behind them need. -/
structure Processable (msgpack : MsgPack) (service : Service Response) (data : Bytes) :
    Prop where
  guarded : ∀ message ∈ msgpack.unpackNext data, Guarded message
  logged : service.warns = true → Refused msgpack data → 0 ∈ data
  handled : service.carrier = true → ∀ message ∈ msgpack.unpackNext data,
    ∀ entry req, Requests message entry req → Handled service entry req

theorem returns_logBytes_iff {warns : Bool} :
    Returns (logBytes warns data) ↔ (warns = true → 0 ∈ data) := by
  rw [logBytes]
  split
  · next hreads => simpa using ⟨hreads.1, hreads.2⟩
  · next hreads =>
      refine iff_of_true (returns_ok _) fun hwarns => ?_
      by_contra hnul
      exact hreads ⟨hwarns, hnul⟩

theorem unpackCode_neg {rc : ℤ} (hrefused : rc < 0) : unpackCode rc < 0 := by
  unfold unpackCode
  repeat' split
  · decide
  · decide
  · decide
  · decide
  · decide

/-- A refused message is logged, and answered with an error. -/
theorem returns_process_refused_iff {answer : Answer}
    (hanswer : unmarshalReq msgpack data = .ok answer) (hrefused : answer.rc < 0) :
    Returns (process msgpack service data) ↔ (service.warns = true → 0 ∈ data) := by
  have hnegative := unpackCode_neg hrefused
  have hunpack : unpackRequest msgpack service.warns data =
      logBytes service.warns data >>= fun _ => pure (unpackCode answer.rc, answer.req) := by
    rw [unpackRequest, hanswer, ok_bind]
    simp only [hnegative, if_true]
  rw [← returns_logBytes_iff, process, hunpack, bind_assoc]
  refine returns_bind_of_next fun _ => ?_
  simp only [pure_bind, not_le.mpr hnegative, if_false]
  exact returns_pure _

theorem Requests.process_eq {message : Object} {entry : ReqParser} {req : Req}
    (h : Requests message entry req) (hguarded : Guarded message)
    (hdecoded : msgpack.unpackNext data = some message) :
    Returns (process msgpack service data) ↔
      Returns (firstAnswer ErrCode.unimplementedError
        ((cmdListener service).map fun listener => listener.onDispose req)
        (ErrCode.unimplementedError, none)) := by
  have hunmarshal : unmarshalReq msgpack data = .ok { rc := 0, req := some req } := by
    rw [unmarshalReq, hdecoded, h.answer hguarded]
    rfl
  have hunpack : unpackRequest msgpack service.warns data = .ok (0, some req) := by
    rw [unpackRequest, hunmarshal, ok_bind]
    rfl
  rw [process, hunpack, ok_bind]
  simp only [le_refl, if_true]
  apply returns_bind_of_next
  intro answered
  split
  · exact returns_pure _
  · split
    · exact returns_pure _
    · exact returns_pure _

theorem returns_process_undecoded_iff (hdecoded : msgpack.unpackNext data = none) :
    Returns (process msgpack service data) ↔ Processable msgpack service data := by
  have hanswer : unmarshalReq msgpack data = .ok { rc := -1, req := none } := by
    rw [unmarshalReq, hdecoded]
    rfl
  rw [returns_process_refused_iff hanswer (by decide)]
  constructor
  · intro hlogged
    exact ⟨by simp [hdecoded], fun hwarns _ => hlogged hwarns, by simp [hdecoded]⟩
  · intro hprocessable hwarns
    exact hprocessable.logged hwarns (by simp [Refused, hdecoded])

/-- A message that `rpc.c` survives is refused or becomes a request. -/
theorem returns_process_guarded_iff {message : Object} (hguarded : Guarded message)
    (hdecoded : msgpack.unpackNext data = some message) :
    Returns (process msgpack service data) ↔ Processable msgpack service data := by
  have hall : ∀ decoded ∈ msgpack.unpackNext data, Guarded decoded := by
    intro decoded hmem
    cases hdecoded.symm.trans hmem
    exact hguarded
  obtain ⟨answer, hanswer, hrefused | ⟨entry, req, h, -⟩⟩ := answer_cases hguarded fun _ => true
  · have hunmarshal : unmarshalReq msgpack data = .ok answer := by
      rw [unmarshalReq, hdecoded, mapError_eq_ok]
      exact hanswer
    have hnone : Refused msgpack data := by
      intro decoded hmem entry req h
      cases hdecoded.symm.trans hmem
      cases hanswer.symm.trans (h.answer hguarded)
      exact absurd hrefused (lt_irrefl 0)
    rw [returns_process_refused_iff hunmarshal hrefused]
    constructor
    · intro hlogged
      exact ⟨hall, fun hwarns _ => hlogged hwarns, fun _ decoded hmem entry req h =>
        absurd h (hnone decoded hmem entry req)⟩
    · intro hprocessable hwarns
      exact hprocessable.logged hwarns hnone
  · rw [h.process_eq hguarded hdecoded, h.returns_dispose_iff hguarded]
    constructor
    · intro hhandled
      refine ⟨hall, fun _ hnone => absurd h (hnone message hdecoded entry req),
        fun hcarrier decoded hmem entry' req' h' => ?_⟩
      cases hdecoded.symm.trans hmem
      obtain ⟨rfl, rfl⟩ := h.unique h'
      exact hhandled hcarrier
    · intro hprocessable hcarrier
      exact hprocessable.handled hcarrier message hdecoded entry req h

theorem returns_process_iff :
    Returns (process msgpack service data) ↔ Processable msgpack service data := by
  cases hdecoded : msgpack.unpackNext data with
  | none => exact returns_process_undecoded_iff hdecoded
  | some message =>
      by_cases hguarded : Guarded message
      · exact returns_process_guarded_iff hguarded hdecoded
      · constructor
        · intro hreturns
          obtain ⟨unpacked, hunpack, -⟩ := returns_bind_iff.mp hreturns
          obtain ⟨answer, hanswer, -⟩ := bind_eq_ok.mp hunpack
          rw [unmarshalReq, hdecoded, mapError_eq_ok] at hanswer
          exact absurd (guarded_of_answer hanswer) hguarded
        · intro hprocessable
          exact absurd (hprocessable.guarded message hdecoded) hguarded

/-! ## Every message -/

theorem received_of_refused {ret : ℤ} {request : Option Request}
    (h : Factory.unmarshal msgpack data = .ok (ret, request)) (hnegative : ret < 0)
    (hknown : ret ≠ ErrCode.unimplementedError) : Returns (received msgpack service data) := by
  have hadvance : processAdvance msgpack service data = .ok (ret, []) := by
    simp only [processAdvance, h, ok_bind, hknown, hnegative, if_true, if_false]
    rfl
  simp only [received, hadvance, ok_bind, hknown, ne_eq, not_false_iff, if_true]
  exact returns_pure _

theorem received_advanced_iff {request : Request}
    (h : Factory.unmarshal msgpack data = .ok (0, some request)) :
    Returns (received msgpack service data) ↔ AdvancedHandled service request := by
  have hknown : (0 : ℤ) ≠ ErrCode.unimplementedError := by decide
  have hadvance : processAdvance msgpack service data =
      firstAnswer ErrCode.unimplementedError
        ((cmdListener service).map fun listener => listener.onDisposeAdvanced request)
        (0, []) >>= fun answered =>
          pure (0, answered.2.map fun response => (service.pack response).val) := by
    simp only [processAdvance, h, ok_bind, hknown, lt_irrefl, if_false]
  rw [← returns_disposeAdvanced_chain_iff request 0, received, hadvance, bind_assoc]
  apply returns_bind_of_next
  intro answered
  simp only [pure_bind, hknown, ne_eq, not_false_iff, if_true]
  exact returns_pure _

theorem received_processed_iff {request : Request}
    (h : Factory.unmarshal msgpack data = .ok (ErrCode.unimplementedError, some request)) :
    Returns (received msgpack service data) ↔ Processable msgpack service data := by
  have hadvance : processAdvance msgpack service data =
      .ok (ErrCode.unimplementedError, []) := by
    simp only [processAdvance, h, ok_bind, if_true]
    rfl
  rw [← returns_process_iff, received, hadvance, ok_bind]
  simp only [ne_eq, not_true_eq_false, if_false]
  exact returns_bind_of_next fun answered => returns_pure _

/-- The bytes unpack and convert, and the one handler they are for returns. -/
structure Harmless (msgpack : MsgPack) (service : Service Response) (data : Bytes) : Prop where
  readable : Readable msgpack data
  advanced : ∀ request, Factory.unmarshal msgpack data = .ok (0, some request) →
    AdvancedHandled service request
  processable : ∀ request,
    Factory.unmarshal msgpack data = .ok (ErrCode.unimplementedError, some request) →
      Processable msgpack service data

theorem harmless_of_returns (hreturns : Returns (received msgpack service data)) :
    Harmless msgpack service data := by
  have hunmarshal : Returns (Factory.unmarshal msgpack data) := by
    obtain ⟨advanced, hadvance, -⟩ := returns_bind_iff.mp hreturns
    obtain ⟨unmarshalled, hunmarshal, -⟩ := bind_eq_ok.mp hadvance
    exact ⟨unmarshalled, hunmarshal⟩
  constructor
  · exact Factory.returns_unmarshal_iff.mp hunmarshal
  · intro request h
    exact (received_advanced_iff h).mp hreturns
  · intro request h
    exact (received_processed_iff h).mp hreturns

theorem returns_of_harmless (hharmless : Harmless msgpack service data) :
    Returns (received msgpack service data) := by
  obtain ⟨⟨ret, request⟩, hunmarshal⟩ := Factory.returns_unmarshal_iff.mpr hharmless.readable
  rcases Factory.unmarshal_cases hunmarshal with ⟨hnegative, hknown⟩ | ⟨hret, hsome⟩
  · exact received_of_refused hunmarshal hnegative hknown
  · obtain ⟨request, rfl⟩ := Option.isSome_iff_exists.mp hsome
    rcases hret with rfl | rfl
    · exact (received_advanced_iff hunmarshal).mpr (hharmless.advanced request hunmarshal)
    · exact (received_processed_iff hunmarshal).mpr (hharmless.processable request hunmarshal)

/-- Truncated and malformed bytes end the service, whoever sends them. -/
theorem not_returns_of_malformed (h : msgpack.unpack data = none) :
    ¬ Returns (received msgpack service data) := by
  intro hreturns
  obtain ⟨root, hroot, -⟩ := (harmless_of_returns hreturns).readable
  cases h.symm.trans hroot

/-- So does a well-formed request whose id is no `int64_t`. -/
theorem not_returns_of_wide_id {root object : Object} {dict members : Dict} {text : Sized}
    {method : Bytes} (hroot : msgpack.unpack data = some root) (hmap : root.asMap.isSome = true)
    (hdict : msgpack.asDict root = some dict)
    (hmethodVal : dict (bytesOf "method") = some (.str text))
    (hmethod : msgpack.asString (.str text) = some method) (hnonempty : method ≠ [])
    (hmembers : msgpack.kvmap root = some members)
    (hid : members (bytesOf "id") = some object) (hwide : msgpack.asInt64 object = none) :
    ¬ Returns (received msgpack service data) := by
  intro hreturns
  obtain ⟨root', hroot', hreadable⟩ := (harmless_of_returns hreturns).readable
  cases hroot.symm.trans hroot'
  obtain ⟨dict', hdict', hnamed⟩ := hreadable hmap
  cases hdict.symm.trans hdict'
  obtain ⟨method', hmethod', htyped⟩ := hnamed _ hmethodVal rfl
  cases hmethod.symm.trans hmethod'
  obtain ⟨members', hmembers', -, -, hfits, -⟩ := htyped hnonempty
  cases hmembers.symm.trans hmembers'
  have hsome := hfits object hid
  rw [hwide] at hsome
  cases hsome

/-- And every `update_user_info` that `rpc.c` makes a request of: the loop of
`LegacyMethod` compares a null pointer. -/
theorem not_returns_of_updateUserInfo {message : Object} {request : Request}
    {entry : ReqParser} {req : Req}
    (hunmarshal :
      Factory.unmarshal msgpack data = .ok (ErrCode.unimplementedError, some request))
    (hdecoded : msgpack.unpackNext data = some message) (h : Requests message entry req)
    (hname : entry.method = "update_user_info") (hcarrier : service.carrier = true) :
    ¬ Returns (received msgpack service data) := by
  intro hreturns
  have hprocessable := (harmless_of_returns hreturns).processable request hunmarshal
  exact (hprocessable.handled hcarrier message hdecoded entry req h).named hname

theorem received_iff_harmless :
    Returns (received msgpack service data) ↔ Harmless msgpack service data :=
  ⟨harmless_of_returns, returns_of_harmless⟩

end Task

/-- A service whose handlers all return. -/
def calm : Service Unit where
  warns := true
  carrier := true
  checkAccessible _ _ := 0
  hdlr _ _ := .ok ()
  fileSystem :=
    { fileExists _ := some true, createDirectories _ := some true, rename _ _ := 0,
      remove _ := some false, fileSize _ := some 0, read _ _ := [] }
  massDataDir := bytesOf "massdata"
  random := 0
  onGetMultiComments _ _ := .ok (0, [])
  onGetMultiLikesAndCommentsCount _ _ := .ok (0, [])
  onGetMultiSubscribersCount _ _ := .ok (0, [])
  onStandardSignIn _ _ := .ok (0, [])
  onStandardDidAuth _ _ := .ok (0, [])
  pack _ := ⟨[], by decide⟩
  rpcMarshalResp _ _ := some []
  rpcMarshalErr _ _ := some []

/-- The dictionary of a map with string keys. -/
def dictOf (object : Object) : Option Dict :=
  object.asMap.bind fun entries =>
    if entries.all fun entry => entry.1.asStr.isSome then
      some fun key => (entries.find? fun entry => entry.1.asStr.any (·.val == key)).map Prod.snd
    else none

end FeedsService.Rpc
