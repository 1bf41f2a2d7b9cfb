import FeedsService.Rpc.Runtime

/-!
# What the advanced handlers answer

`processAdvance` drops the code that the listeners return, and with it every error: a
request is answered when its handler accepts it, and otherwise nothing is sent.
-/

namespace FeedsService.Rpc

open FeedsService.Library FeedsService.Library.KeyedTable FeedsService.Library.Replies

/-- The call ends with the answer to the request of this id. -/
def Answered (id : ℤ) (call : Except Stop (List Reply)) : Prop :=
  ∃ replies, call = .ok replies ∧ Answers id replies

@[simp]
theorem answered_ok_iff {id : ℤ} {replies : List Reply} :
    Answered id (.ok replies) ↔ Answers id replies := by
  simp [Answered]

@[simp]
theorem not_answered_error {id : ℤ} {stop : Stop} : ¬ Answered id (.error stop) := by
  simp [Answered]

section Advanced

/-- The responses for some rows end with the only one that is the last. -/
theorem terminal_multiResponses {ρ α : Type} (start : ℕ) (size : ρ → ℕ) (item : ρ → α)
    (reached : ℕ) (pending : List α) (rows : List ρ) :
    Terminal ((Feeds.multiResponses start size item reached pending rows).map
      fun response => markOf response.1) := by
  induction rows generalizing reached pending with
  | nil => exact terminal_last
  | cons row rest ih =>
      rw [Feeds.multiResponses]
      split
      · exact (ih start []).cons_more
      · exact ih _ _

variable {rt : Runtime}

theorem answers_answerMulti_iff {α : Type} {valid : Bool} {responses : List (Bool × List α)}
    {make : Bool → List α → AdvancedResponse} {id : ℤ}
    (hmake : ∀ isLast items, (make isLast items).reply = ⟨id, markOf isLast⟩)
    (hterminal : valid = true → Terminal (responses.map fun response => markOf response.1)) :
    Answers id ((rt.answerMulti valid responses make).2.map AdvancedResponse.reply) ↔
      valid = true ∧ rt.moment.dbReads = true := by
  cases hvalid : valid with
  | false => simp [Runtime.answerMulti]
  | true =>
      cases hreads : rt.moment.dbReads with
      | false => simp [Runtime.answerMulti, hreads]
      | true =>
          refine iff_of_true ⟨_, hterminal hvalid, ?_⟩ ⟨rfl, rfl⟩
          simp [Runtime.answerMulti, hreads, Function.comp_def, hmake]

theorem answers_answerJwt_iff {result : Except Auth.ErrCode Auth.Jws}
    {make : Auth.Jws → AdvancedResponse} {id : ℤ}
    (hmake : ∀ jwt, (make jwt).reply = ⟨id, .last⟩) :
    Answers id ((Runtime.answerJwt result make).2.map AdvancedResponse.reply) ↔
      ∃ jwt, result = .ok jwt := by
  cases result with
  | error code => simp [Runtime.answerJwt]
  | ok jwt =>
      refine iff_of_true ⟨[.last], terminal_last, ?_⟩ ⟨jwt, rfl⟩
      simp [Runtime.answerJwt, hmake]

/-- The service is ready, and its database is one that the runs of the service leave. -/
structure Runtime.Ready (rt : Runtime) : Prop where
  issued : Auth.didIsReady rt.auth = true
  accounts : Auth.AccountsSound rt.auth.db.users
  statuses : Feeds.StatusesKnown rt.auth.db

namespace Runtime

/-- What a handler of `ChannelMethod` needs beside its own check of the parameters. -/
structure Grants (rt : Runtime) (accessToken : Bytes) : Prop where
  access : 0 ≤ rt.checkAccessible .member accessToken
  nonempty : accessToken ≠ []
  read : rt.moment.dbReads = true

/-- What an advanced handler needs to answer. -/
def Accepts (rt : Runtime) (request : Request) : Prop :=
  match request.kind with
  | .request => False
  | .standardSignIn => ∃ document ∈ documentArgument request.params,
      ∃ doc, rt.reading.document document = some doc ∧
        Auth.Challengeable rt.host rt.moment rt.auth doc
  | .standardDidAuth => ∃ arguments ∈ didAuthArguments request.params,
      ∃ info doc, Auth.checkAuthToken rt.host rt.moment rt.auth
          (rt.reading.text arguments.1) (rt.reading.jws arguments.2) = .ok info ∧
        Auth.Stored rt.moment rt.auth info doc
  | .getMultiComments | .getMultiLikesAndCommentsCount =>
      ∃ arguments ∈ multiArguments request.params,
        rt.Grants arguments.1 ∧ arguments.2.valid
  | .getMultiSubscribersCount => ∃ arguments ∈ channelArguments request.params,
      rt.Grants arguments.1 ∧ 0 ≤ arguments.2

variable {request : Request}

theorem accessToken_of_multiArguments {accessToken : Bytes} {params : Feeds.MultiParams}
    (hkind : request.kind = .getMultiComments ∨ request.kind = .getMultiLikesAndCommentsCount)
    (h : multiArguments request.params = some (accessToken, params)) :
    request.accessToken = accessToken := by
  unfold multiArguments at h
  split at h
  · next hparams =>
      cases h
      rw [Request.accessToken, hparams]
      rcases hkind with hkind | hkind
      · rw [hkind]
      · rw [hkind]
  · cases h

theorem accessToken_of_channelArguments {accessToken : Bytes} {channelId : ℤ}
    (hkind : request.kind = .getMultiSubscribersCount)
    (h : channelArguments request.params = some (accessToken, channelId)) :
    request.accessToken = accessToken := by
  unfold channelArguments at h
  split at h
  · next hparams =>
      cases h
      rw [Request.accessToken, hparams, hkind]
  · cases h

/-- A handler of `ChannelMethod` answers who has access, when its check passes. -/
theorem answers_granted_iff {α : Type} {accessToken : Bytes} {valid : Prop}
    [Decidable valid] {responses : List (Bool × List α)}
    {make : Bool → List α → AdvancedResponse} {id : ℤ}
    (hmake : ∀ isLast items, (make isLast items).reply = ⟨id, markOf isLast⟩)
    (hterminal : valid → Terminal (responses.map fun response => markOf response.1)) :
    0 ≤ rt.checkAccessible .member accessToken ∧
        Answers id ((rt.answerMulti (decide (accessToken ≠ [] ∧ valid)) responses make).2.map
          AdvancedResponse.reply) ↔
      rt.Grants accessToken ∧ valid := by
  rw [answers_answerMulti_iff hmake fun h => hterminal (of_decide_eq_true h).2,
    decide_eq_true_iff]
  constructor
  · rintro ⟨haccess, ⟨hnonempty, hvalid⟩, hread⟩
    exact ⟨⟨haccess, hnonempty, hread⟩, hvalid⟩
  · rintro ⟨hgrants, hvalid⟩
    exact ⟨hgrants.access, ⟨hgrants.nonempty, hvalid⟩, hgrants.read⟩

theorem answers_onGetMultiComments_iff (hkind : request.kind = .getMultiComments) :
    0 ≤ rt.checkAccessible .member request.accessToken ∧
        Answers request.id ((rt.onGetMultiComments request).2.map AdvancedResponse.reply) ↔
      rt.Accepts request := by
  rw [onGetMultiComments, Accepts, hkind, Request.cast, if_pos hkind]
  cases harguments : multiArguments request.params with
  | none => simp
  | some arguments =>
      simp only [Option.mem_some_iff, exists_eq_left',
        accessToken_of_multiArguments (.inl hkind) harguments]
      apply answers_granted_iff fun _ _ => rfl
      intro hvalid
      rw [Feeds.onGetMultiComments, if_pos hvalid]
      exact terminal_multiResponses _ _ _ _ _ _

theorem answers_onGetMultiLikesAndCommentsCount_iff
    (hkind : request.kind = .getMultiLikesAndCommentsCount) :
    0 ≤ rt.checkAccessible .member request.accessToken ∧
        Answers request.id
          ((rt.onGetMultiLikesAndCommentsCount request).2.map AdvancedResponse.reply) ↔
      rt.Accepts request := by
  rw [onGetMultiLikesAndCommentsCount, Accepts, hkind, Request.cast, if_pos hkind]
  cases harguments : multiArguments request.params with
  | none => simp
  | some arguments =>
      simp only [Option.mem_some_iff, exists_eq_left',
        accessToken_of_multiArguments (.inr hkind) harguments]
      apply answers_granted_iff fun _ _ => rfl
      intro hvalid
      rw [Feeds.onGetMultiLikesAndCommentsCount, if_pos hvalid]
      exact terminal_multiResponses _ _ _ _ _ _

theorem answers_onGetMultiSubscribersCount_iff
    (hkind : request.kind = .getMultiSubscribersCount) :
    0 ≤ rt.checkAccessible .member request.accessToken ∧
        Answers request.id
          ((rt.onGetMultiSubscribersCount request).2.map AdvancedResponse.reply) ↔
      rt.Accepts request := by
  rw [onGetMultiSubscribersCount, Accepts, hkind, Request.cast, if_pos hkind]
  cases harguments : channelArguments request.params with
  | none => simp
  | some arguments =>
      simp only [Option.mem_some_iff, exists_eq_left',
        accessToken_of_channelArguments hkind harguments]
      apply answers_granted_iff fun _ _ => rfl
      intro hvalid
      rw [Feeds.onGetMultiSubscribersCount, if_pos hvalid]
      exact terminal_multiResponses _ _ _ _ _ _

theorem checkAccessible_anyone (accessToken : Bytes) :
    0 ≤ rt.checkAccessible .anyone accessToken := by
  rw [checkAccessible]
  split
  · exact le_refl 0
  · exact le_refl 0

theorem answers_onStandardSignIn_iff (hkind : request.kind = .standardSignIn) :
    0 ≤ rt.checkAccessible .anyone request.accessToken ∧
        Answers request.id ((rt.onStandardSignIn request).2.map AdvancedResponse.reply) ↔
      rt.Accepts request := by
  rw [onStandardSignIn, Accepts, hkind, Request.cast, if_pos hkind,
    and_iff_right (checkAccessible_anyone _)]
  cases documentArgument request.params with
  | none => simp
  | some document =>
      simp only [Option.mem_some_iff, exists_eq_left']
      rw [answers_answerJwt_iff fun _ => rfl]
      exact Auth.onStandardSignIn_isOk_iff _

theorem answers_onStandardDidAuth_iff (hready : rt.Ready)
    (hkind : request.kind = .standardDidAuth) :
    0 ≤ rt.checkAccessible .anyone request.accessToken ∧
        Answers request.id ((rt.onStandardDidAuth request).2.map AdvancedResponse.reply) ↔
      rt.Accepts request := by
  rw [onStandardDidAuth, Accepts, hkind, Request.cast, if_pos hkind,
    and_iff_right (checkAccessible_anyone _)]
  cases didAuthArguments request.params with
  | none => simp
  | some arguments =>
      simp only [Option.mem_some_iff, exists_eq_left']
      rw [answers_answerJwt_iff fun _ => rfl]
      exact Auth.onStandardDidAuth_isOk_iff hready.accounts _

/-- What the one handler of a table that has the method is asked. -/
theorem disposeAdvanced_of_mem {handlers : List (String × AdvancedHandler AdvancedResponse)}
    (hkeyed : Keyed (fun it => bytesOf it.1) handlers)
    {it : String × AdvancedHandler AdvancedResponse} (hit : it ∈ handlers)
    (hname : bytesOf it.1 = request.method) (responseArray : List AdvancedResponse) :
    disposeAdvanced rt.service handlers request responseArray =
      if rt.checkAccessible it.2.accessible request.accessToken < 0 then
        .ok (rt.checkAccessible it.2.accessible request.accessToken, responseArray)
      else it.2.callback request responseArray := by
  have hfound : KeyedTable.get (fun it => bytesOf it.1) handlers request.method = some it :=
    (get_eq_some hkeyed).mpr ⟨hit, hname⟩
  have hfind : (handlers.find? fun it => decide (bytesOf it.1 = request.method)) = some it :=
    hfound
  rw [disposeAdvanced, dispatch_eq fun it _ => rfl, hfind]
  rfl

/-- The error of the handler is dropped with its return value. -/
theorem advancedReplies_eq {it : String × AdvancedHandler AdvancedResponse}
    (hit : it ∈ advancedHandlers rt.service) (hname : bytesOf it.1 = request.method) :
    rt.advancedReplies request =
      (if rt.checkAccessible it.2.accessible request.accessToken < 0 then
        .ok (rt.checkAccessible it.2.accessible request.accessToken, [])
      else it.2.callback request []) >>= fun answered =>
        pure (answered.2.map AdvancedResponse.reply) := by
  have hlegacy : Declines ErrCode.unimplementedError
      ((legacyMethod rt.service).onDisposeAdvanced request) := fun _ => rfl
  have hmassData : Declines ErrCode.unimplementedError
      ((massData rt.service).onDisposeAdvanced request) := fun _ => rfl
  have hkeyed : Keyed (fun it => bytesOf it.1) (advancedHandlers rt.service) :=
    keyed_advancedHandlers
  rw [Keyed, advancedHandlers, List.map_append, List.nodup_append] at hkeyed
  obtain ⟨hchannel, hauth, hapart⟩ := hkeyed
  rcases List.mem_append.mp hit with hit | hit
  · have hdeclines : Declines ErrCode.unimplementedError
        ((standardAuth rt.service).onDisposeAdvanced request) := by
      apply declines_of_not_mem
      intro other hother hsame
      exact hapart _ (List.mem_map_of_mem hit) _ (List.mem_map_of_mem hother)
        (hname.trans hsame.symm)
    have hlisteners :
        (cmdListener rt.service).map (fun listener => listener.onDisposeAdvanced request) =
          [(legacyMethod rt.service).onDisposeAdvanced request] ++
            disposeAdvanced rt.service (ChannelMethod.advancedHandlerMap rt.service) request ::
              [(massData rt.service).onDisposeAdvanced request,
                (standardAuth rt.service).onDisposeAdvanced request] := rfl
    rw [advancedReplies, hlisteners,
      firstAnswer_of_sole (by simpa using hlegacy) (by simpa using ⟨hmassData, hdeclines⟩),
      disposeAdvanced_of_mem hchannel hit hname]
  · have hdeclines : Declines ErrCode.unimplementedError
        ((channelMethod rt.service).onDisposeAdvanced request) := by
      apply declines_of_not_mem
      intro other hother hsame
      exact hapart _ (List.mem_map_of_mem hother) _ (List.mem_map_of_mem hit)
        (hsame.trans hname.symm)
    have hlisteners :
        (cmdListener rt.service).map (fun listener => listener.onDisposeAdvanced request) =
          [(legacyMethod rt.service).onDisposeAdvanced request,
            (channelMethod rt.service).onDisposeAdvanced request,
            (massData rt.service).onDisposeAdvanced request] ++
            disposeAdvanced rt.service (StandardAuth.advancedHandlerMap rt.service) request ::
              [] := rfl
    rw [advancedReplies, hlisteners,
      firstAnswer_of_sole (by simpa using ⟨hlegacy, hdeclines, hmassData⟩) (by simp),
      disposeAdvanced_of_mem hauth hit hname]

/-- The methods of the factory, and the class that it has for each. -/
theorem mem_methods_of_makeRequest {method : Bytes} {kind : RequestClass}
    (h : Factory.makeRequest method = some kind) :
    ∃ name, bytesOf name = method ∧ (name, kind) ∈
      [("standard_sign_in", RequestClass.standardSignIn),
        ("standard_did_auth", .standardDidAuth), ("get_multi_comments", .getMultiComments),
        ("get_multi_likes_and_comments_count", .getMultiLikesAndCommentsCount),
        ("get_multi_subscribers_count", .getMultiSubscribersCount)] := by
  unfold Factory.makeRequest at h
  split_ifs at h with hsignIn hdidAuth hcomments hcounts hsubscribers
  · cases h
    exact ⟨_, hsignIn.symm, by simp⟩
  · cases h
    exact ⟨_, hdidAuth.symm, by simp⟩
  · cases h
    exact ⟨_, hcomments.symm, by simp⟩
  · cases h
    exact ⟨_, hcounts.symm, by simp⟩
  · cases h
    exact ⟨_, hsubscribers.symm, by simp⟩

/-- A handler gives nothing for a request of another class. -/
theorem answered_advanced_iff {name : String} {accessible : Accessible}
    {handler : Request → ℤ × List AdvancedResponse} {kind : RequestClass}
    (hit : (name, ⟨fun request _ => .ok (handler request), accessible⟩) ∈
      advancedHandlers rt.service) (hname : bytesOf name = request.method)
    (hcast : request.kind ≠ kind → handler request = (ErrCode.invalidArgument, []))
    (hanswers : request.kind = kind →
      (0 ≤ rt.checkAccessible accessible request.accessToken ∧
        Answers request.id ((handler request).2.map AdvancedResponse.reply) ↔
          rt.Accepts request)) :
    Answered request.id (rt.advancedReplies request) ↔
      request.kind = kind ∧ rt.Accepts request := by
  rw [advancedReplies_eq hit hname]
  by_cases haccess : rt.checkAccessible accessible request.accessToken < 0
  · rw [if_pos haccess]
    refine iff_of_false (by simp) ?_
    rintro ⟨hkind, haccepts⟩
    exact (not_le.mpr haccess) ((hanswers hkind).mpr haccepts).1
  · rw [if_neg haccess]
    by_cases hkind : request.kind = kind
    · simpa [hkind, not_lt.mp haccess] using hanswers hkind
    · simp [hkind, hcast hkind]

theorem advancedHandlers_service : advancedHandlers rt.service =
    [("get_multi_comments", ⟨fun request _ => .ok (rt.onGetMultiComments request), .member⟩),
      ("get_multi_likes_and_comments_count",
        ⟨fun request _ => .ok (rt.onGetMultiLikesAndCommentsCount request), .member⟩),
      ("get_multi_subscribers_count",
        ⟨fun request _ => .ok (rt.onGetMultiSubscribersCount request), .member⟩),
      ("standard_sign_in", ⟨fun request _ => .ok (rt.onStandardSignIn request), .anyone⟩),
      ("standard_did_auth", ⟨fun request _ => .ok (rt.onStandardDidAuth request), .anyone⟩)] :=
  rfl

theorem answered_advancedReplies_iff (hready : rt.Ready) {kind : RequestClass}
    (hmethod : Factory.makeRequest request.method = some kind) :
    Answered request.id (rt.advancedReplies request) ↔
      request.kind = kind ∧ rt.Accepts request := by
  obtain ⟨name, hname, hmem⟩ := mem_methods_of_makeRequest hmethod
  have hhandlers := @advancedHandlers_service rt
  simp only [List.mem_cons, Prod.mk.injEq, List.not_mem_nil, or_false] at hmem
  rcases hmem with ⟨rfl, rfl⟩ | ⟨rfl, rfl⟩ | ⟨rfl, rfl⟩ | ⟨rfl, rfl⟩ | ⟨rfl, rfl⟩
  · apply answered_advanced_iff (by simp [hhandlers]) hname _ answers_onStandardSignIn_iff
    intro hkind
    rw [onStandardSignIn, Request.cast, if_neg hkind]
  · apply answered_advanced_iff (by simp [hhandlers]) hname _
      (answers_onStandardDidAuth_iff hready)
    intro hkind
    rw [onStandardDidAuth, Request.cast, if_neg hkind]
  · apply answered_advanced_iff (by simp [hhandlers]) hname _ answers_onGetMultiComments_iff
    intro hkind
    rw [onGetMultiComments, Request.cast, if_neg hkind]
  · apply answered_advanced_iff (by simp [hhandlers]) hname _
      answers_onGetMultiLikesAndCommentsCount_iff
    intro hkind
    rw [onGetMultiLikesAndCommentsCount, Request.cast, if_neg hkind]
  · apply answered_advanced_iff (by simp [hhandlers]) hname _
      answers_onGetMultiSubscribersCount_iff
    intro hkind
    rw [onGetMultiSubscribersCount, Request.cast, if_neg hkind]

end Runtime

end Advanced

end FeedsService.Rpc
