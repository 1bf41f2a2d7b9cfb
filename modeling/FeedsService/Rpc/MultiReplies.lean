import FeedsService.Library.Batches
import FeedsService.Rpc.Runtime

/-!
# The replies of the GetMulti methods

The methods of `ChannelMethod.cpp` go through the rows of their query with a lambda that
captures the current response, its size and the array of the responses.  A response that has
reached `MaxAvailableSize` is put into the array in the lambda, the last one after the query.
-/

namespace FeedsService.Rpc

open FeedsService.Library FeedsService.Library.Batches

namespace ErrCode

def rpcUnimplementedError : ℤ := -250

end ErrCode

inductive ResponseClass
  | standardSignIn
  | standardDidAuth
  | getMultiComments
  | getMultiLikesAndCommentsCount
  | getMultiSubscribersCount
  deriving DecidableEq

/-- `Factory::MakeResponse` -/
def Factory.makeResponse (method : Bytes) : Option ResponseClass :=
  if method = bytesOf "standard_sign_in" then some .standardSignIn
  else if method = bytesOf "standard_did_auth" then some .standardDidAuth
  else if method = bytesOf "get_multi_comments" then some .getMultiComments
  else if method = bytesOf "get_multi_likes_and_comments_count" then
    some .getMultiLikesAndCommentsCount
  else if method = bytesOf "get_multi_subscribers_count" then some .getMultiSubscribersCount
  else none

namespace DataBase

variable {ρ σ : Type} (step : ρ → σ → ℤ × σ)

/-- The loop of `executeStep`; SQLite throws at the numbered call of it. -/
def executeSteps : Option ℕ → List ρ → σ → ℤ × σ
  | some 0, _, captured => (ErrCode.dbException, captured)
  | _, [], captured => (0, captured)
  | throws, row :: rows, captured =>
    let (ret, captured) := step row captured
    if ret < 0 then (ret, captured) else executeSteps (throws.map Nat.pred) rows captured

/-- `DataBase::executeStep`: the code that is returned, and what the step captures afterwards.
Call 0 is the constructor of the statement, the others are those of the loop. -/
def executeStep (throws : Option ℕ) (rows : List ρ) (captured : σ) : ℤ × σ :=
  match throws with
  | some 0 => (ErrCode.dbException, captured)
  | _ => executeSteps step (throws.map Nat.pred) rows captured

/-- SQLite throws at one of so many calls. -/
def Throws (throws : Option ℕ) (calls : ℕ) : Prop :=
  ∃ call < calls, throws = some call

section Rules

variable {step} {Inv : List ρ → σ → Prop}
  (hstep : ∀ before row captured, Inv before captured →
    ∃ captured', step row captured = (0, captured') ∧ Inv (before ++ [row]) captured')

include hstep

/-- Without an exception the loop comes to its end, and keeps what the step keeps. -/
theorem executeSteps_ends {throws : Option ℕ} {rows before : List ρ} {captured : σ}
    (hinv : Inv before captured) (hthrows : ¬ Throws throws (rows.length + 1)) :
    ∃ captured', executeSteps step throws rows captured = (0, captured') ∧
      Inv (before ++ rows) captured' := by
  induction rows generalizing throws before captured with
  | nil =>
      cases throws with
      | none => exact ⟨captured, rfl, by rwa [List.append_nil]⟩
      | some call =>
          cases call with
          | zero => exact absurd ⟨0, Nat.succ_pos _, rfl⟩ hthrows
          | succ call => exact ⟨captured, rfl, by rwa [List.append_nil]⟩
  | cons row rows ih =>
      obtain ⟨captured', hrow, hinv'⟩ := hstep before row captured hinv
      have hnext : ¬ Throws (throws.map Nat.pred) (rows.length + 1) → ∃ last,
          executeSteps step (throws.map Nat.pred) rows captured' = (0, last) ∧
            Inv (before ++ row :: rows) last := by
        intro hnone
        obtain ⟨last, hlast, hkept⟩ := ih hinv' hnone
        exact ⟨last, hlast, by rwa [List.append_assoc] at hkept⟩
      cases throws with
      | none =>
          simp only [executeSteps, hrow]
          exact hnext fun ⟨_, _, hnone⟩ => nomatch hnone
      | some call =>
          cases call with
          | zero => exact absurd ⟨0, Nat.succ_pos _, rfl⟩ hthrows
          | succ call =>
              simp only [executeSteps, hrow]
              apply hnext
              rintro ⟨call', hcall', hsame⟩
              obtain rfl : call = call' := Option.some.inj hsame
              exact hthrows ⟨call + 1, Nat.succ_lt_succ hcall', rfl⟩

/-- With one the code says so. -/
theorem executeSteps_throws {throws : Option ℕ} {rows before : List ρ} {captured : σ}
    (hinv : Inv before captured) (hthrows : Throws throws (rows.length + 1)) :
    (executeSteps step throws rows captured).1 = ErrCode.dbException := by
  obtain ⟨call, hcall, rfl⟩ := hthrows
  induction rows generalizing call before captured with
  | nil =>
      obtain rfl : call = 0 := by simpa using hcall
      rfl
  | cons row rows ih =>
      cases call with
      | zero => rfl
      | succ call =>
          obtain ⟨captured', hrow, hinv'⟩ := hstep before row captured hinv
          simp only [executeSteps, hrow]
          exact ih hinv' call (Nat.lt_of_succ_lt_succ hcall)

theorem executeStep_ends {throws : Option ℕ} {rows : List ρ} {captured : σ}
    (hinv : Inv [] captured) (hthrows : ¬ Throws throws (rows.length + 2)) :
    ∃ captured', executeStep step throws rows captured = (0, captured') ∧ Inv rows captured' := by
  cases throws with
  | none => exact executeSteps_ends hstep hinv fun ⟨_, _, hnone⟩ => nomatch hnone
  | some call =>
      cases call with
      | zero => exact absurd ⟨0, Nat.succ_pos _, rfl⟩ hthrows
      | succ call =>
          apply executeSteps_ends hstep hinv
          rintro ⟨call', hcall', hsame⟩
          obtain rfl : call = call' := Option.some.inj hsame
          exact hthrows ⟨call + 1, Nat.succ_lt_succ hcall', rfl⟩

theorem executeStep_throws {throws : Option ℕ} {rows : List ρ} {captured : σ}
    (hinv : Inv [] captured) (hthrows : Throws throws (rows.length + 2)) :
    (executeStep step throws rows captured).1 = ErrCode.dbException := by
  obtain ⟨call, hcall, rfl⟩ := hthrows
  cases call with
  | zero => rfl
  | succ call =>
      exact executeSteps_throws hstep hinv ⟨call, Nat.lt_of_succ_lt_succ hcall, rfl⟩

end Rules

end DataBase

namespace ChannelMethod

/-- The members of the responses of these methods. -/
structure MultiResponse (α : Type) where
  version : Bytes
  id : ℤ
  isLast : Bool
  items : List α
  deriving DecidableEq

/-- What the lambda `step` captures. -/
structure Captured (α : Type) where
  response : Option (MultiResponse α)
  size : ℕ
  responseArray : List (MultiResponse α)

/-- What the methods do not have in common. -/
structure MultiMethod (ρ α : Type) where
  response : ResponseClass
  /-- `sizeof` of the response. -/
  empty : ℕ
  /-- What an item adds to the size. -/
  size : α → ℕ
  /-- The columns of a row. -/
  item : ρ → α

section Method

variable {ρ α : Type} (method : MultiMethod ρ α) (request : Request)

/-- The lambda `makeResponse`. -/
def MultiMethod.makeResponse : Option (MultiResponse α) :=
  match Factory.makeResponse request.method with
  | none => none
  | some made =>
    if made = method.response then some ⟨request.version, request.id, false, []⟩ else none

/-- The lambda `step`. -/
def MultiMethod.step (row : ρ) (captured : Captured α) : ℤ × Captured α :=
  let item := method.item row
  let size := captured.size + method.size item
  match captured.response.orElse fun _ => method.makeResponse request with
  | none => (ErrCode.rpcUnimplementedError, { captured with size })
  | some response =>
    let response := { response with items := response.items ++ [item] }
    if Feeds.maxAvailableSize ≤ size then
      (0, ⟨none, method.empty, captured.responseArray ++ [response]⟩)
    else
      (0, ⟨some response, size, captured.responseArray⟩)

/-- The methods after the cast of the request: the code that is returned, and the responses. -/
def MultiMethod.answer (throws : Option ℕ) (validArgus : Bool) (rows : List ρ) :
    ℤ × List (MultiResponse α) :=
  if ¬ validArgus then
    (ErrCode.invalidArgument, [])
  else
    let (ret, captured) :=
      DataBase.executeStep (method.step request) throws rows ⟨none, method.empty, []⟩
    if ret < 0 then
      (ret, [])
    else
      match captured.response.orElse fun _ => method.makeResponse request with
      | none => (ErrCode.rpcUnimplementedError, captured.responseArray)
      | some response => (0, captured.responseArray ++ [{ response with isLast := true }])

end Method

section Methods

variable (sizes : Feeds.Sizes) (scan : Scan) (db : Feeds.Db) (throws : Option ℕ)
  (request : Request)

/-- `GetMultiCommentsResponse::Result::Comment`; the last members are not packed. -/
structure Comment extends Feeds.MultiComment where
  thumbnails : Bytes
  hashId : String
  proof : String
  deriving DecidableEq

def comment (joined : Feeds.CommentRow × Feeds.UserRow) : Comment where
  toMultiComment := Feeds.multiComment joined
  thumbnails := joined.1.thumbnails
  hashId := joined.1.hashId
  proof := joined.1.proof

def commentSize (comment : Comment) : ℕ :=
  sizes.comment + comment.userDid.utf8ByteSize + comment.userName.utf8ByteSize +
    comment.content.length + comment.hashId.utf8ByteSize + comment.proof.utf8ByteSize +
    comment.thumbnails.length

def comments : MultiMethod (Feeds.CommentRow × Feeds.UserRow) Comment where
  response := .getMultiComments
  empty := sizes.commentsResponse
  size := commentSize sizes
  item := comment

def onGetMultiComments (responseArray : List (MultiResponse Comment)) :
    ℤ × List (MultiResponse Comment) :=
  match request.cast .getMultiComments multiArguments with
  | none => (ErrCode.invalidArgument, responseArray)
  | some (accessToken, params) =>
    (comments sizes).answer request throws (accessToken ≠ [] ∧ params.valid)
      (Feeds.multiCommentRows scan db params)

def posts : MultiMethod Feeds.PostRow Feeds.MultiPost where
  response := .getMultiLikesAndCommentsCount
  empty := sizes.postsResponse
  size _ := sizes.post
  item := Feeds.multiPost

def onGetMultiLikesAndCommentsCount (responseArray : List (MultiResponse Feeds.MultiPost)) :
    ℤ × List (MultiResponse Feeds.MultiPost) :=
  match request.cast .getMultiLikesAndCommentsCount multiArguments with
  | none => (ErrCode.invalidArgument, responseArray)
  | some (accessToken, params) =>
    (posts sizes).answer request throws (accessToken ≠ [] ∧ params.valid)
      (Feeds.multiPostRows scan db params)

def channels : MultiMethod Feeds.ChannelRow Feeds.MultiChannel where
  response := .getMultiSubscribersCount
  empty := sizes.channelsResponse
  size _ := sizes.channel
  item := Feeds.multiChannel

def onGetMultiSubscribersCount (responseArray : List (MultiResponse Feeds.MultiChannel)) :
    ℤ × List (MultiResponse Feeds.MultiChannel) :=
  match request.cast .getMultiSubscribersCount channelArguments with
  | none => (ErrCode.invalidArgument, responseArray)
  | some (accessToken, channelId) =>
    (channels sizes).answer request throws (accessToken ≠ [] ∧ 0 ≤ channelId)
      (Feeds.multiChannelRows scan db channelId)

end Methods

section Replies

variable {ρ α : Type} {method : MultiMethod ρ α} {request : Request} {throws : Option ℕ}
  {rows : List ρ} {captured : Captured α}

/-- A response of the request before it is the last. -/
def unfinished (request : Request) (items : List α) : MultiResponse α :=
  ⟨request.version, request.id, false, items⟩

/-- The items so far are in the array and in the current response. -/
structure Collects (method : MultiMethod ρ α) (request : Request) (items : List α)
    (closed : List (List α)) (rest : List α) (captured : Captured α) : Prop where
  packed : Packed method.empty Feeds.maxAvailableSize method.size items closed rest
  array : captured.responseArray = closed.map (unfinished request)
  size : captured.size = weight method.empty method.size rest
  response : captured.response = none ∧ rest = [] ∨
    captured.response = some (unfinished request rest)

/-- The response that the next item goes to. -/
theorem Collects.current {items rest : List α} {closed : List (List α)}
    (h : Collects method request items closed rest captured)
    (hmake : method.makeResponse request = some (unfinished request [])) :
    (captured.response.orElse fun _ => method.makeResponse request) =
      some (unfinished request rest) := by
  rcases h.response with ⟨hnone, rfl⟩ | hsome
  · rw [hnone]
    exact hmake
  · rw [hsome]
    rfl

/-- One row. -/
theorem Collects.step {items rest : List α} {closed : List (List α)}
    (h : Collects method request items closed rest captured)
    (hmake : method.makeResponse request = some (unfinished request []))
    (hempty : method.empty < Feeds.maxAvailableSize) (row : ρ) :
    ∃ closed' rest' captured', method.step request row captured = (0, captured') ∧
      Collects method request (items ++ [method.item row]) closed' rest' captured' := by
  simp only [MultiMethod.step, h.current hmake, h.size]
  by_cases hfull : Feeds.maxAvailableSize ≤
      weight method.empty method.size rest + method.size (method.item row)
  · rw [if_pos hfull]
    refine ⟨closed ++ [rest ++ [method.item row]], [], _, rfl, ?_⟩
    exact {
      packed := h.packed.close hempty hfull
      array := by
        rw [h.array, List.map_append]
        rfl
      size := rfl
      response := .inl ⟨rfl, rfl⟩ }
  · rw [if_neg hfull]
    refine ⟨closed, rest ++ [method.item row], _, rfl, ?_⟩
    exact {
      packed := h.packed.add (Nat.lt_of_not_le hfull)
      array := h.array
      size := (weight_concat rest _).symm
      response := .inr rfl }

/-- The replies hold the items, and are as full as they may be. -/
structure Delivers (method : MultiMethod ρ α) (request : Request) (items : List α)
    (replies : List (MultiResponse α)) : Prop where
  complete : replies.flatMap MultiResponse.items = items
  addressed : ∀ reply ∈ replies, reply.version = request.version ∧ reply.id = request.id
  closed : ∃ before last, replies = before ++ [last] ∧ last.isLast = true ∧
    weight method.empty method.size last.items < Feeds.maxAvailableSize ∧
    ∀ reply ∈ before, reply.isLast = false ∧
      Full method.empty Feeds.maxAvailableSize method.size reply.items

theorem Collects.delivers {items rest : List α} {closed : List (List α)}
    (h : Collects method request items closed rest captured) :
    Delivers method request items
      (captured.responseArray ++ [{ unfinished request rest with isLast := true }]) where
  complete := by
    rw [h.array, List.flatMap_append, List.flatMap_map, ← h.packed.complete]
    have hitems : (fun items => (unfinished request items).items) = (id : List α → List α) := rfl
    rw [hitems, List.flatMap_id, List.flatMap_singleton]
    rfl
  addressed reply hreply := by
    rw [h.array] at hreply
    rcases List.mem_append.mp hreply with hclosed | hlast
    · obtain ⟨items, -, rfl⟩ := List.mem_map.mp hclosed
      exact ⟨rfl, rfl⟩
    · obtain rfl := List.mem_singleton.mp hlast
      exact ⟨rfl, rfl⟩
  closed := by
    refine ⟨_, _, rfl, rfl, h.packed.room, ?_⟩
    intro reply hreply
    rw [h.array] at hreply
    obtain ⟨items, hitems, rfl⟩ := List.mem_map.mp hreply
    exact ⟨rfl, h.packed.full items hitems⟩

/-- What a method does with its rows. -/
structure Answers (method : MultiMethod ρ α) (request : Request) (throws : Option ℕ)
    (rows : List ρ) (result : ℤ × List (MultiResponse α)) : Prop where
  thrown : DataBase.Throws throws (rows.length + 2) → result.1 < 0 ∧ result.2 = []
  delivered : ¬ DataBase.Throws throws (rows.length + 2) →
    result.1 = 0 ∧ Delivers method request (rows.map method.item) result.2

theorem answers_answer (hmake : method.makeResponse request = some (unfinished request []))
    (hempty : method.empty < Feeds.maxAvailableSize) (throws : Option ℕ) (rows : List ρ) :
    Answers method request throws rows (method.answer request throws true rows) := by
  have hstep : ∀ (before : List ρ) row (captured : Captured α),
      (∃ closed rest, Collects method request (before.map method.item) closed rest captured) →
      ∃ captured', method.step request row captured = (0, captured') ∧
        ∃ closed rest, Collects method request ((before ++ [row]).map method.item) closed rest
          captured' := by
    intro before row captured ⟨closed, rest, hcollects⟩
    obtain ⟨closed', rest', captured', hrow, hcollects'⟩ := hcollects.step hmake hempty row
    rw [List.map_append]
    exact ⟨captured', hrow, closed', rest', hcollects'⟩
  have hinit : ∃ closed rest, Collects method request (([] : List ρ).map method.item) closed rest
      ⟨none, method.empty, []⟩ :=
    ⟨[], [], Packed.nil hempty, rfl, rfl, .inl ⟨rfl, rfl⟩⟩
  constructor
  · intro hthrows
    have hcode := DataBase.executeStep_throws hstep hinit hthrows
    rcases hrun : DataBase.executeStep (method.step request) throws rows
      ⟨none, method.empty, []⟩ with ⟨ret, captured⟩
    rw [hrun] at hcode
    obtain rfl : ret = ErrCode.dbException := hcode
    have hanswer : method.answer request throws true rows = (ErrCode.dbException, []) := by
      simp only [MultiMethod.answer, hrun]
      rfl
    have hnegative : ErrCode.dbException < 0 := by decide
    rw [hanswer]
    exact ⟨hnegative, rfl⟩
  · intro hthrows
    obtain ⟨captured, hrun, closed, rest, hcollects⟩ :=
      DataBase.executeStep_ends hstep hinit hthrows
    simp only [MultiMethod.answer, hrun, hcollects.current hmake]
    exact ⟨rfl, hcollects.delivers⟩

end Replies

section Refinement

variable {ρ α : Type} {method : MultiMethod ρ α} {request : Request}

/-- The responses are those of `multiResponses`, which takes the rows without the lambda. -/
theorem executeSteps_multiResponses
    (hmake : method.makeResponse request = some (unfinished request [])) (rows : List ρ)
    (captured : Captured α) (rest : List α)
    (hresponse : captured.response = none ∧ rest = [] ∨
      captured.response = some (unfinished request rest)) :
    ∃ captured' last, DataBase.executeSteps (method.step request) none rows captured =
        (0, captured') ∧
      (captured'.response.orElse fun _ => method.makeResponse request) = some last ∧
      captured'.responseArray ++ [{ last with isLast := true }] =
        captured.responseArray ++
          (Feeds.multiResponses method.empty (fun row => method.size (method.item row))
            method.item captured.size rest rows).map fun response =>
              ⟨request.version, request.id, response.1, response.2⟩ := by
  have hcurrent : (captured.response.orElse fun _ => method.makeResponse request) =
      some (unfinished request rest) := by
    rcases hresponse with ⟨hnone, rfl⟩ | hsome
    · rw [hnone]
      exact hmake
    · rw [hsome]
      rfl
  induction rows generalizing captured rest with
  | nil => exact ⟨captured, _, rfl, hcurrent, rfl⟩
  | cons row rows ih =>
      simp only [DataBase.executeSteps, MultiMethod.step, hcurrent, Feeds.multiResponses]
      by_cases hfull : Feeds.maxAvailableSize ≤ captured.size + method.size (method.item row)
      · rw [if_pos hfull, if_pos hfull]
        obtain ⟨captured', last, hrun, hlast, harray⟩ :=
          ih ⟨none, method.empty, captured.responseArray ++
            [unfinished request (rest ++ [method.item row])]⟩ [] (.inl ⟨rfl, rfl⟩) hmake
        refine ⟨captured', last, hrun, hlast, harray.trans ?_⟩
        rw [List.map_cons, List.append_assoc]
        rfl
      · rw [if_neg hfull, if_neg hfull]
        exact ih ⟨some (unfinished request (rest ++ [method.item row])),
          captured.size + method.size (method.item row), captured.responseArray⟩ _ (.inr rfl) rfl

theorem answer_multiResponses
    (hmake : method.makeResponse request = some (unfinished request [])) (rows : List ρ) :
    method.answer request none true rows =
      (0, (Feeds.multiResponses method.empty (fun row => method.size (method.item row))
        method.item method.empty [] rows).map fun response =>
          ⟨request.version, request.id, response.1, response.2⟩) := by
  obtain ⟨captured, last, hrun, hlast, harray⟩ :=
    executeSteps_multiResponses hmake rows ⟨none, method.empty, []⟩ [] (.inl ⟨rfl, rfl⟩)
  have hstep : DataBase.executeStep (method.step request) none rows ⟨none, method.empty, []⟩ =
      (0, captured) := hrun
  simp only [MultiMethod.answer, hstep, hlast, harray]
  rfl

/-- Reading something off the items of the responses. -/
theorem map_multiResponses {β : Type} (f : α → β) (empty : ℕ) (size : ρ → ℕ) (item : ρ → α)
    (reached : ℕ) (pending : List α) (rows : List ρ) :
    (Feeds.multiResponses empty size item reached pending rows).map
        (fun response => (response.1, response.2.map f)) =
      Feeds.multiResponses empty size (fun row => f (item row)) reached (pending.map f) rows := by
  induction rows generalizing reached pending with
  | nil => rfl
  | cons row rows ih =>
      simp only [Feeds.multiResponses]
      split
      · rw [List.map_cons, ih, List.map_append]
        rfl
      · rw [ih, List.map_append]
        rfl

end Refinement

section Accepted

/-- `sizeof` of a response is below the limit. -/
structure Small (sizes : Feeds.Sizes) : Prop where
  comments : sizes.commentsResponse < Feeds.maxAvailableSize
  posts : sizes.postsResponse < Feeds.maxAvailableSize
  channels : sizes.channelsResponse < Feeds.maxAvailableSize

/-- The request has come under the name of the method and passes its checks. -/
structure Accepted {π : Type} (request : Request) (name : String) (kind : RequestClass)
    (arguments : List Datum → Option (Bytes × π)) (valid : π → Bool) (params : π) : Prop where
  method : request.method = bytesOf name
  validArgus : ∃ accessToken, request.cast kind arguments = some (accessToken, params) ∧
    accessToken ≠ [] ∧ valid params = true

variable {sizes : Feeds.Sizes} {scan : Scan} {db : Feeds.Db} {throws : Option ℕ}
  {request : Request}   {params : Feeds.MultiParams} {channelId : ℤ}

theorem makeResponse_eq {ρ α : Type} {method : MultiMethod ρ α}
    (hmethod : Factory.makeResponse request.method = some method.response) :
    method.makeResponse request = some (unfinished request []) := by
  simp only [MultiMethod.makeResponse, hmethod, if_true, unfinished]

theorem onGetMultiComments_accepted
    (haccepted : Accepted request "get_multi_comments" .getMultiComments multiArguments
      Feeds.MultiParams.valid params) (responseArray : List (MultiResponse Comment)) :
    (comments sizes).makeResponse request = some (unfinished request []) ∧
      onGetMultiComments sizes scan db throws request responseArray =
        (comments sizes).answer request throws true (Feeds.multiCommentRows scan db params) := by
  obtain ⟨accessToken, hcast, htoken, hvalid⟩ := haccepted.validArgus
  have hargus : decide (accessToken ≠ [] ∧ params.valid = true) = true :=
    decide_eq_true ⟨htoken, hvalid⟩
  constructor
  · exact makeResponse_eq (haccepted.method ▸ rfl)
  · simp only [onGetMultiComments, hcast, hargus]

theorem onGetMultiLikesAndCommentsCount_accepted
    (haccepted : Accepted request "get_multi_likes_and_comments_count"
      .getMultiLikesAndCommentsCount multiArguments Feeds.MultiParams.valid params)
    (responseArray : List (MultiResponse Feeds.MultiPost)) :
    (posts sizes).makeResponse request = some (unfinished request []) ∧
      onGetMultiLikesAndCommentsCount sizes scan db throws request responseArray =
        (posts sizes).answer request throws true (Feeds.multiPostRows scan db params) := by
  obtain ⟨accessToken, hcast, htoken, hvalid⟩ := haccepted.validArgus
  have hargus : decide (accessToken ≠ [] ∧ params.valid = true) = true :=
    decide_eq_true ⟨htoken, hvalid⟩
  constructor
  · exact makeResponse_eq (haccepted.method ▸ rfl)
  · simp only [onGetMultiLikesAndCommentsCount, hcast, hargus]

theorem onGetMultiSubscribersCount_accepted
    (haccepted : Accepted request "get_multi_subscribers_count" .getMultiSubscribersCount
      channelArguments (fun channelId => 0 ≤ channelId) channelId)
    (responseArray : List (MultiResponse Feeds.MultiChannel)) :
    (channels sizes).makeResponse request = some (unfinished request []) ∧
      onGetMultiSubscribersCount sizes scan db throws request responseArray =
        (channels sizes).answer request throws true (Feeds.multiChannelRows scan db channelId) := by
  obtain ⟨accessToken, hcast, htoken, hvalid⟩ := haccepted.validArgus
  have hargus : decide (accessToken ≠ [] ∧ 0 ≤ channelId) = true :=
    decide_eq_true ⟨htoken, of_decide_eq_true hvalid⟩
  constructor
  · exact makeResponse_eq (haccepted.method ▸ rfl)
  · simp only [onGetMultiSubscribersCount, hcast, hargus]

/-- What is packed of the responses is what `Feeds.onGetMultiComments` says. -/
theorem onGetMultiComments_packed
    (haccepted : Accepted request "get_multi_comments" .getMultiComments multiArguments
      Feeds.MultiParams.valid params) (responseArray : List (MultiResponse Comment)) :
    (onGetMultiComments sizes scan db none request responseArray).2.map
        (fun reply => (reply.isLast, reply.items.map Comment.toMultiComment)) =
      Feeds.onGetMultiComments sizes scan db params := by
  obtain ⟨hmake, hanswer⟩ := onGetMultiComments_accepted haccepted responseArray
  obtain ⟨-, -, -, hvalid⟩ := haccepted.validArgus
  rw [hanswer, answer_multiResponses hmake, List.map_map, Feeds.onGetMultiComments, if_pos hvalid]
  exact map_multiResponses Comment.toMultiComment _ _ _ _ _ _

theorem onGetMultiLikesAndCommentsCount_packed
    (haccepted : Accepted request "get_multi_likes_and_comments_count"
      .getMultiLikesAndCommentsCount multiArguments Feeds.MultiParams.valid params)
    (responseArray : List (MultiResponse Feeds.MultiPost)) :
    (onGetMultiLikesAndCommentsCount sizes scan db none request responseArray).2.map
        (fun reply => (reply.isLast, reply.items)) =
      Feeds.onGetMultiLikesAndCommentsCount sizes scan db params := by
  obtain ⟨hmake, hanswer⟩ := onGetMultiLikesAndCommentsCount_accepted haccepted responseArray
  obtain ⟨-, -, -, hvalid⟩ := haccepted.validArgus
  rw [hanswer, answer_multiResponses hmake, List.map_map, Feeds.onGetMultiLikesAndCommentsCount,
    if_pos hvalid]
  exact List.map_id _

theorem onGetMultiSubscribersCount_packed
    (haccepted : Accepted request "get_multi_subscribers_count" .getMultiSubscribersCount
      channelArguments (fun channelId => 0 ≤ channelId) channelId)
    (responseArray : List (MultiResponse Feeds.MultiChannel)) :
    (onGetMultiSubscribersCount sizes scan db none request responseArray).2.map
        (fun reply => (reply.isLast, reply.items)) =
      Feeds.onGetMultiSubscribersCount sizes scan db channelId := by
  obtain ⟨hmake, hanswer⟩ := onGetMultiSubscribersCount_accepted haccepted responseArray
  obtain ⟨-, -, -, hvalid⟩ := haccepted.validArgus
  rw [hanswer, answer_multiResponses hmake, List.map_map, Feeds.onGetMultiSubscribersCount,
    if_pos (of_decide_eq_true hvalid)]
  exact List.map_id _

/-- Whatever the database holds, however SQLite comes by its rows and wherever it throws, an
accepted request is answered by the rows that its query lists, in order and in responses that
are as full as they may be, or by nothing. -/
theorem multi_answers (hsizes : Small sizes) (scan : Scan) (db : Feeds.Db)
    (throws : Option ℕ) (request : Request) :
    (∀ params, Accepted request "get_multi_comments" .getMultiComments multiArguments
        Feeds.MultiParams.valid params → ∀ responseArray,
      params.ListsComments db (Feeds.multiCommentRows scan db params) ∧
      Answers (comments sizes) request throws (Feeds.multiCommentRows scan db params)
        (onGetMultiComments sizes scan db throws request responseArray)) ∧
    (∀ params, Accepted request "get_multi_likes_and_comments_count"
        .getMultiLikesAndCommentsCount multiArguments Feeds.MultiParams.valid params →
      ∀ responseArray,
        params.ListsPosts db (Feeds.multiPostRows scan db params) ∧
        Answers (posts sizes) request throws (Feeds.multiPostRows scan db params)
          (onGetMultiLikesAndCommentsCount sizes scan db throws request responseArray)) ∧
    (∀ channelId, Accepted request "get_multi_subscribers_count" .getMultiSubscribersCount
        channelArguments (fun channelId => 0 ≤ channelId) channelId →
      ∀ responseArray,
        (Feeds.multiChannelRows scan db channelId).Perm
          (db.channels.filter fun row => 0 < channelId → row.channelId = channelId) ∧
        Answers (channels sizes) request throws (Feeds.multiChannelRows scan db channelId)
          (onGetMultiSubscribersCount sizes scan db throws request responseArray)) := by
  refine ⟨?_, ?_, ?_⟩
  · intro params haccepted responseArray
    obtain ⟨hmake, hanswer⟩ := onGetMultiComments_accepted haccepted responseArray
    rw [hanswer]
    exact ⟨params.listed_select _ scan _ _, answers_answer hmake hsizes.comments throws _⟩
  · intro params haccepted responseArray
    obtain ⟨hmake, hanswer⟩ := onGetMultiLikesAndCommentsCount_accepted haccepted responseArray
    rw [hanswer]
    exact ⟨params.listed_select _ scan _ _, answers_answer hmake hsizes.posts throws _⟩
  · intro channelId haccepted responseArray
    obtain ⟨hmake, hanswer⟩ := onGetMultiSubscribersCount_accepted haccepted responseArray
    rw [hanswer]
    exact ⟨(scan.visit_perm _).filter _, answers_answer hmake hsizes.channels throws _⟩

/-- The comments of a post by their ids, of which SQLite does not come to the end, and for a
number whose low 32 bits name the ids. -/
theorem multi_answers_comments :
    let sizes : Feeds.Sizes := ⟨80, 64, 80, 32, 80, 16⟩
    let author : Feeds.UserRow := ⟨2, "did:author", "author", "", "", 0, []⟩
    let comment : ℤ → Feeds.CommentRow :=
      fun id => ⟨1, 1, id, 0, 2, 0, 0, 0, .available, "", "", [], [7]⟩
    let db : Feeds.Db :=
      { Feeds.Db.init with users := [author], comments := [comment 1, comment 2] }
    let request : ℤ → Request := fun conditionBy =>
      { kind := .getMultiComments
        method := bytesOf "get_multi_comments"
        params := [.string [1], .int64 1, .int64 1, .int64 conditionBy, .int64 0, .int64 0,
          .int64 0] }
    let params : ℤ → Feeds.MultiParams := fun conditionBy => ⟨1, 1, conditionBy, 0, 0, 0⟩
    ((params 1).ListsComments db (Feeds.multiCommentRows .stored db (params 1)) ∧
      Answers (comments sizes) (request 1) (some 2)
        (Feeds.multiCommentRows .stored db (params 1))
        (onGetMultiComments sizes .stored db (some 2) (request 1) [])) ∧
    (params (2 ^ 32 + 1)).ListsComments db
        (Feeds.multiCommentRows .stored db (params (2 ^ 32 + 1))) ∧
      Answers (comments sizes) (request (2 ^ 32 + 1)) none
        (Feeds.multiCommentRows .stored db (params (2 ^ 32 + 1)))
        (onGetMultiComments sizes .stored db none (request (2 ^ 32 + 1)) []) := by
  intro sizes author comment db request params
  have hsmall : Small sizes := ⟨by decide, by decide, by decide⟩
  have haccepted : ∀ conditionBy, Accepted (request conditionBy) "get_multi_comments"
      .getMultiComments multiArguments Feeds.MultiParams.valid (params conditionBy) :=
    fun conditionBy => ⟨rfl, [1], rfl, by decide, rfl⟩
  exact ⟨(multi_answers hsmall .stored db (some 2) _).1 _ (haccepted 1) [],
    (multi_answers hsmall .stored db none _).1 _ (haccepted (2 ^ 32 + 1)) []⟩

end Accepted

end ChannelMethod

end FeedsService.Rpc
