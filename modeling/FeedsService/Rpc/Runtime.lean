import FeedsService.Auth.Answers
import FeedsService.Feeds.Answers
import FeedsService.Feeds.ChannelMethod
import FeedsService.Library.MsgPackFormat
import FeedsService.Rpc.Marshal
import FeedsService.Rpc.Reception

/-!
# The service behind the dispatch

The handlers as the dispatch reaches them: what a handler in C reads from the request it
is given, and what it and the advanced handlers put into the queue for the sender.
-/

namespace FeedsService.Rpc

open FeedsService.Library FeedsService.Library.MsgPack FeedsService.Library.Replies

section Members

/-- The request is zeroed before it is filled. -/
def Req.u64 (req : Req) (member : Member) : UInt64 :=
  ((req.params.find? fun set => decide (set.1 = member)).bind fun set =>
    match set.2 with
    | .u64 value => some value
    | _ => none).getD 0

def Req.bool (req : Req) (member : Member) : Bool :=
  ((req.params.find? fun set => decide (set.1 = member)).bind fun set =>
    match set.2 with
    | .bool value => some value
    | _ => none).getD false

def Req.bin (req : Req) (member : Member) : Bytes :=
  ((req.params.find? fun set => decide (set.1 = member)).bind fun set =>
    match set.2 with
    | .bin bytes => some bytes
    | _ => none).getD []

/-- The C string of a member, empty for a null pointer. -/
def Req.text (req : Req) (member : Member) : Bytes :=
  ((req.str member).map cString).getD []

def qryFld (value : UInt64) : Feeds.QryFld :=
  if value = 1 then .id
  else if value = 2 then .updAt
  else if value = 3 then .createdAt
  else .none

def Req.qc (req : Req) : Feeds.QryCriteria where
  «by» := qryFld (req.u64 .by)
  upper := req.u64 .upper
  lower := req.u64 .lower
  maxcnt := req.u64 .maxcnt

end Members

section Requests

/-- What the readers of the DID library make of a text, and the text of a C string. -/
structure Reading where
  text : Bytes → String
  jws : Bytes → Auth.Jws
  credential : Bytes → Auth.Json Auth.Credential
  document : Bytes → Auth.Json Auth.DidDocument

variable (reading : Reading) (req : Req)

def chanParams : Feeds.ChanParams where
  name := reading.text (req.text .name)
  intro := reading.text (req.text .intro)
  avatar := req.bin .avatar
  tipm := reading.text (req.text .tipm)
  proof := reading.text (req.text .proof)

def postParams : Feeds.PostParams where
  content := req.bin .content
  thumbnails := req.bin .thumbnails
  hashId := reading.text (req.text .hashId)
  proof := reading.text (req.text .proof)
  originPostUrl := reading.text (req.text .originPostUrl)

def cmtParams : Feeds.CmtParams where
  content := req.bin .content
  thumbnails := req.bin .thumbnails
  hashId := reading.text (req.text .hashId)
  proof := reading.text (req.text .proof)

def userParams : Feeds.UserParams where
  name := reading.text (req.text .name)
  email := reading.text (req.text .email)
  displayName := reading.text (req.text .displayName)
  avatar := req.bin .avatar

/-- What a handler of `feeds.c` reads, by the name it has in `method_hdlrs`. -/
def feedsReq : String → Option Feeds.Req
  | "create_channel" => some (.createChan (chanParams reading req))
  | "update_feedinfo" => some (.updChan (req.u64 .chanId) (chanParams reading req))
  | "update_user_info" => some (.updUserInfo (userParams reading req))
  | "publish_post" => some (.pubPost (req.u64 .chanId) (postParams reading req))
  | "declare_post" =>
      some (.declarePost (req.u64 .chanId) (req.bool .withNotify) (postParams reading req))
  | "notify_post" => some (.notifyPost (req.u64 .chanId) (req.u64 .postId))
  | "edit_post" =>
      some (.editPost (req.u64 .chanId) (req.u64 .postId) (postParams reading req))
  | "delete_post" => some (.delPost (req.u64 .chanId) (req.u64 .postId))
  | "post_comment" =>
      some (.postCmt (req.u64 .chanId) (req.u64 .postId) (req.u64 .cmtId)
        (cmtParams reading req))
  | "edit_comment" =>
      some (.editCmt (req.u64 .chanId) (req.u64 .postId) (req.u64 .id) (req.u64 .cmtId)
        (cmtParams reading req))
  | "delete_comment" => some (.delCmt (req.u64 .chanId) (req.u64 .postId) (req.u64 .id))
  | "block_comment" => some (.blockCmt (req.u64 .chanId) (req.u64 .postId) (req.u64 .cmtId))
  | "unblock_comment" =>
      some (.unblockCmt (req.u64 .chanId) (req.u64 .postId) (req.u64 .cmtId))
  | "post_like" =>
      some (.postLike (req.u64 .chanId) (req.u64 .postId) (req.u64 .cmtId)
        (reading.text (req.text .proof)))
  | "post_unlike" => some (.postUnlike (req.u64 .chanId) (req.u64 .postId) (req.u64 .cmtId))
  | "get_my_channels" => some (.query (.getMyChans req.qc))
  | "get_my_channels_metadata" => some (.query (.getMyChansMeta req.qc))
  | "get_channels" => some (.query (.getChans req.qc))
  | "get_channel_detail" => some (.query (.getChanDtl (req.u64 .id)))
  | "get_subscribed_channels" => some (.query (.getSubChans req.qc))
  | "get_posts" => some (.getPosts (req.u64 .chanId) req.qc)
  | "get_posts_likes_and_comments" => some (.query (.getPostsLac (req.u64 .chanId) req.qc))
  | "get_liked_posts" => some (.query (.getLikedPosts req.qc))
  | "get_liked_data" => some (.query (.getLikedData req.qc))
  | "get_comments" => some (.getCmts (req.u64 .chanId) (req.u64 .postId) req.qc)
  | "get_comments_likes" =>
      some (.query (.getCmtsLikes (req.u64 .chanId) (req.u64 .postId) req.qc))
  | "get_statistics" => some (.query .getStats)
  | "subscribe_channel" => some (.subChan (req.u64 .id) (reading.text (req.text .proof)))
  | "unsubscribe_channel" => some (.unsubChan (req.u64 .id))
  | "enable_notification" => some .enblNotif
  | "get_service_version" => some (.query .getSrvVer)
  | "report_illegal_comment" =>
      some (.reportIllegalCmt (req.u64 .chanId) (req.u64 .postId) (req.u64 .cmtId)
        (reading.text (req.text .reasons)))
  | "get_reported_comments" => some (.query (.getReportedCmts req.qc))
  | _ => none

end Requests

section Arguments

/-- `dynamic_pointer_cast`, and the members of `params`. -/
def Request.cast {α : Type} (request : Request) (kind : RequestClass)
    (arguments : List Datum → Option α) : Option α :=
  if request.kind = kind then arguments request.params else none

/-- The access token, and the parameters behind it. -/
def multiArguments : List Datum → Option (Bytes × Feeds.MultiParams)
  | [.string accessToken, .int64 channelId, .int64 postId, .int64 conditionBy,
      .int64 upperBound, .int64 lowerBound, .int64 maxCount] =>
    some (accessToken, ⟨channelId, postId, conditionBy, upperBound, lowerBound, maxCount⟩)
  | _ => none

def channelArguments : List Datum → Option (Bytes × ℤ)
  | [.string accessToken, .int64 channelId] => some (accessToken, channelId)
  | _ => none

def documentArgument : List Datum → Option Bytes
  | [.string document] => some document
  | _ => none

def didAuthArguments : List Datum → Option (Bytes × Bytes)
  | [.string userName, .string jwtVp] => some (userName, jwtVp)
  | _ => none

end Arguments

section Responses

/-- The responses of the advanced handlers. -/
inductive AdvancedResponse
  | standardSignIn (id : ℤ) (jwtChallenge : Auth.Jws)
  | standardDidAuth (id : ℤ) (accessToken : Auth.Jws)
  | multiComments (id : ℤ) (isLast : Bool) (comments : List Feeds.MultiComment)
  | multiLikesAndCommentsCount (id : ℤ) (isLast : Bool) (posts : List Feeds.MultiPost)
  | multiSubscribersCount (id : ℤ) (isLast : Bool) (channels : List Feeds.MultiChannel)

def AdvancedResponse.reply : AdvancedResponse → Reply
  | .standardSignIn id _ => ⟨id, .last⟩
  | .standardDidAuth id _ => ⟨id, .last⟩
  | .multiComments id isLast _ => ⟨id, markOf isLast⟩
  | .multiLikesAndCommentsCount id isLast _ => ⟨id, markOf isLast⟩
  | .multiSubscribersCount id isLast _ => ⟨id, markOf isLast⟩

def Resp.tsxId : Resp → UInt64
  | .setBinary tsxId _ => tsxId
  | .getBinary tsxId _ _ _ _ => tsxId

def rpcMarshalSetBinaryResp (tsxId : UInt64) (key : Bytes) : Packed :=
  packResp tsxId <| packKvMap "result" 1 [
    packStr "key" ++ .scalar (.str key) .done]

def rpcMarshalGetBinaryResp (tsxId : UInt64) (key algo checksum content : Bytes) : Packed :=
  packResp tsxId <| packKvMap "result" 4 [
    packStr "key" ++ .scalar (.str key) .done,
    packStr "algo" ++ .scalar (.str algo) .done,
    packStr "checksum" ++ .scalar (.str checksum) .done,
    packKvBinWithzero "content" content]

/-- `resp_serializers_1_0`; the serializer takes the response for its own. -/
def respSerializers : List (String × (Resp → Option Packed)) :=
  [("set_binary", fun resp =>
      match resp with
      | .setBinary tsxId key => some (rpcMarshalSetBinaryResp tsxId key)
      | _ => none),
   ("get_binary", fun resp =>
      match resp with
      | .getBinary tsxId key algo checksum content =>
        some (rpcMarshalGetBinaryResp tsxId key algo checksum content)
      | _ => none)]

/-- `rpc_marshal_resp`, by the method as a C string. -/
def rpcMarshalResp (method : Bytes) (resp : Resp) : Option Packed :=
  (respSerializers.find? fun serializer => method = bytesOf serializer.1).bind
    fun serializer => serializer.2 resp

end Responses

section Service

namespace ErrCode

def invalidArgument : ℤ := -104

def didNotReady : ℤ := -120

def invalidAccessToken : ℤ := -121

def notAuthorizedError : ℤ := -122

def dbException : ℤ := -202

end ErrCode

/-- The service when a message comes in, and what surrounds it then. -/
structure Runtime where
  reading : Reading
  host : Auth.Host
  moment : Auth.Moment
  auth : Auth.State
  mem : Feeds.Mem
  connectingClients : ℤ
  /-- The sender of the message. -/
  «from» : Feeds.NodeId
  /-- `MAX_CONTENT_LEN` -/
  maxContentLen : UInt64
  sizes : Feeds.Sizes
  /-- The order in which SQLite comes by the rows of a query. -/
  scan : Scan
  /-- `NDEBUG` -/
  release : Bool
  /-- `carrierHandler` has not expired. -/
  carrier : Bool
  fileSystem : FileSystem
  massDataDir : Path
  /-- `Random::Gen<uint32_t>()` -/
  random : UInt32
  /-- What publishing the DID hands to `create_id_tsx`. -/
  payload : Option String
  /-- What `import_did` gets from the DID library: a mnemonic, the root identity, the DID. -/
  generated : Bool
  identity : Bool
  doc : Option Auth.DidDocument
  /-- `VLOG_WARN <= log_level` -/
  warns : Bool
  /-- `ErrCode::ToString` -/
  errorText : ℤ → String
  pack : AdvancedResponse → { bytes : Bytes // bytes.length < 2 ^ 31 }

namespace Runtime

variable (rt : Runtime)

def world : Feeds.World := ⟨rt.mem, rt.auth.db⟩

/-- `create_uinfo_from_access_token` -/
def createUinfo (accessToken : Bytes) : Option Auth.AuthUser :=
  Auth.createUinfoFromAccessToken rt.host rt.moment rt.auth (rt.reading.jws accessToken)

/-- What a handler of `feeds.c` is given with a request. -/
def ctx (req : Req) : Feeds.Ctx where
  «from» := rt.from
  tsxId := req.tsxId
  didIsReady := Auth.didIsReady rt.auth
  now := rt.moment.now
  uinfo := (rt.createUinfo (req.text .tk)).map Auth.AuthUser.info
  maxContentLen := rt.maxContentLen
  ownerDid := (rt.auth.ownerInfo.map Auth.AuthUser.did).getD ""
  connectingClients := rt.connectingClients

def signinConfChalReq (req : Req) : Auth.SigninConfChalReq where
  tsxId := req.tsxId
  jws := rt.reading.jws (req.text .jws)
  vc := (req.str .vc).map (rt.reading.credential ∘ cString)

/-- The replies of a call that may end the service; `abort()` ends it as an exception
does. -/
def ended (replies : Option (List Reply)) : Except Stop (List Reply) :=
  orThrow replies

/-- What the handler under a name in `method_hdlrs` puts into the queue for the sender. -/
def hdlr (name : String) (req : Req) : Except Stop (List Reply) :=
  match name with
  | "declare_owner" =>
    ended (Auth.hdlDeclOwnerReq rt.moment rt.auth
      { tsxId := req.tsxId
        nonce := rt.reading.text (req.text .nonce)
        ownerDid := rt.reading.text (req.text .ownerDid)
        payload := rt.payload }).2.replies
  | "import_did" =>
    ended (Auth.hdlImpDidReq rt.auth
      { tsxId := req.tsxId
        mnemo := (req.str .mnemo).map (rt.reading.text ∘ cString)
        passphrase := (req.str .passphrase).map (rt.reading.text ∘ cString)
        idx := req.u64 .idx
        generated := rt.generated
        identity := rt.identity
        doc := rt.doc
        payload := rt.payload }).2.replies
  | "issue_credential" =>
    ended (Auth.hdlIssVcReq rt.host rt.moment rt.auth
      { tsxId := req.tsxId
        vc := rt.reading.credential (req.text .vc) }).2.replies
  | "update_credential" =>
    ended (Auth.hdlUpdateVcReq rt.host rt.moment rt.auth
      { tsxId := req.tsxId
        tk := rt.reading.jws (req.text .tk)
        vc := rt.reading.credential (req.text .vc) }).2.replies
  | "signin_request_challenge" =>
    ended (Auth.hdlSigninReqChalReq rt.host rt.moment rt.auth
      { tsxId := req.tsxId
        iss := rt.reading.text (req.text .iss)
        vcReq := req.bool .vcReq }).2.replies
  | "signin_confirm_challenge" =>
    ended (Auth.hdlSigninConfChalReq rt.host rt.moment rt.auth
      (rt.signinConfChalReq req)).2.replies
  | name =>
    match feedsReq rt.reading req name with
    | some request => ended ((Feeds.respond rt.world (rt.ctx req) request).replies (rt.ctx req))
    | none => .ok []

/-- `Listener::getUserInfo` -/
def getUserInfo (accessToken : Bytes) : Except ℤ Auth.AuthUser :=
  if ¬ Auth.didIsReady rt.auth then
    .error ErrCode.didNotReady
  else
    match rt.createUinfo accessToken with
    | none => .error ErrCode.invalidAccessToken
    | some uinfo => .ok uinfo

/-- `Listener::checkAccessible`, which a debug build leaves out. -/
def checkAccessible (accessible : Accessible) (accessToken : Bytes) : ℤ :=
  if rt.release then
    match accessible, rt.getUserInfo accessToken with
    | .anyone, _ => 0
    | _, .error ret => ret
    | .member, .ok _ => 0
    | .owner, .ok uinfo =>
        if Feeds.userIdIsOwner uinfo.info.uid then 0 else ErrCode.notAuthorizedError
  else
    0

/-- The end of the methods of `ChannelMethod`. -/
def answerMulti {α : Type} (valid : Bool) (responses : List (Bool × List α))
    (make : Bool → List α → AdvancedResponse) : ℤ × List AdvancedResponse :=
  if ¬ valid then (ErrCode.invalidArgument, [])
  else if ¬ rt.moment.dbReads then (ErrCode.dbException, [])
  else (0, responses.map fun response => make response.1 response.2)

def onGetMultiComments (request : Request) : ℤ × List AdvancedResponse :=
  match request.cast .getMultiComments multiArguments with
  | none => (ErrCode.invalidArgument, [])
  | some (accessToken, params) =>
    rt.answerMulti (accessToken ≠ [] ∧ params.valid)
      (Feeds.onGetMultiComments rt.sizes rt.scan rt.auth.db params) (.multiComments request.id)

def onGetMultiLikesAndCommentsCount (request : Request) : ℤ × List AdvancedResponse :=
  match request.cast .getMultiLikesAndCommentsCount multiArguments with
  | none => (ErrCode.invalidArgument, [])
  | some (accessToken, params) =>
    rt.answerMulti (accessToken ≠ [] ∧ params.valid)
      (Feeds.onGetMultiLikesAndCommentsCount rt.sizes rt.scan rt.auth.db params)
      (.multiLikesAndCommentsCount request.id)

def onGetMultiSubscribersCount (request : Request) : ℤ × List AdvancedResponse :=
  match request.cast .getMultiSubscribersCount channelArguments with
  | none => (ErrCode.invalidArgument, [])
  | some (accessToken, channelId) =>
    rt.answerMulti (accessToken ≠ [] ∧ 0 ≤ channelId)
      (Feeds.onGetMultiSubscribersCount rt.sizes rt.scan rt.auth.db channelId)
      (.multiSubscribersCount request.id)

/-- The end of the methods of `StandardAuth`. -/
def answerJwt (result : Except Auth.ErrCode Auth.Jws) (make : Auth.Jws → AdvancedResponse) :
    ℤ × List AdvancedResponse :=
  match result with
  | .error code => (code.code, [])
  | .ok jwt => (0, [make jwt])

def standardSignIn (document : Bytes) : Except Auth.ErrCode Auth.Jws :=
  (Auth.onStandardSignIn rt.host rt.moment rt.auth
    { document := rt.reading.document document }).2

def onStandardSignIn (request : Request) : ℤ × List AdvancedResponse :=
  match request.cast .standardSignIn documentArgument with
  | none => (ErrCode.invalidArgument, [])
  | some document => answerJwt (rt.standardSignIn document) (.standardSignIn request.id)

def standardDidAuth (userName jwtVp : Bytes) : Except Auth.ErrCode Auth.Jws :=
  (Auth.onStandardDidAuth rt.host rt.moment rt.auth
    { userName := rt.reading.text userName
      jwtVp := rt.reading.jws jwtVp }).2

def onStandardDidAuth (request : Request) : ℤ × List AdvancedResponse :=
  match request.cast .standardDidAuth didAuthArguments with
  | none => (ErrCode.invalidArgument, [])
  | some (userName, jwtVp) =>
    answerJwt (rt.standardDidAuth userName jwtVp) (.standardDidAuth request.id)

/-- The service as the dispatch sees it. -/
def service : Service AdvancedResponse where
  warns := rt.warns
  carrier := rt.carrier
  checkAccessible := rt.checkAccessible
  hdlr name req := (fun _ => ()) <$> rt.hdlr name req
  fileSystem := rt.fileSystem
  massDataDir := rt.massDataDir
  random := rt.random
  onGetMultiComments request _ := .ok (rt.onGetMultiComments request)
  onGetMultiLikesAndCommentsCount request _ := .ok (rt.onGetMultiLikesAndCommentsCount request)
  onGetMultiSubscribersCount request _ := .ok (rt.onGetMultiSubscribersCount request)
  onStandardSignIn request _ := .ok (rt.onStandardSignIn request)
  onStandardDidAuth request _ := .ok (rt.onStandardDidAuth request)
  pack := rt.pack
  rpcMarshalResp method resp :=
    (rpcMarshalResp ((method.map cString).getD []) resp).map (Packed.bytes standard)
  rpcMarshalErr tsxId errcode :=
    some ((rpcMarshalErr tsxId (.ofInt errcode) (rt.errorText errcode)).bytes standard)

section Queue

variable (msgpack : MsgPack)

/-- What the handler in C that `LegacyMethod` calls puts into the queue. -/
def legacyReplies (req : Req) : Except Stop (List Reply) :=
  dispatch req.named (fun name => rt.hdlr name req) [] methodHdlrs

/-- The reply that `process` packs, if it does. -/
def packedReplies (req : Option Req) (resp : Option Resp) (errCode : ℤ) : List Reply :=
  if (packResponse rt.service req resp errCode).1 < 0 then []
  else if errCode < 0 then (req.map fun req => ⟨req.tsxId.toNat, .error⟩).toList
  else (resp.map fun resp => ⟨resp.tsxId.toNat, .last⟩).toList

/-- The replies of `process` to a request that is unmarshalled. -/
def processReplies (req : Req) : Except Stop (List Reply) := do
  let (ret, resp) ← firstAnswer ErrCode.unimplementedError
    ((cmdListener rt.service).map fun listener => listener.onDispose req)
    (ErrCode.unimplementedError, none)
  if ret = ErrCode.unimplementedError then return []
  else if ret = ErrCode.completelyFinishedNotify then rt.legacyReplies req
  else return rt.packedReplies (some req) resp ret

/-- The replies of `processAdvance`. -/
def advancedReplies (request : Request) : Except Stop (List Reply) := do
  let (_, responseArray) ← firstAnswer ErrCode.unimplementedError
    ((cmdListener rt.service).map fun listener => listener.onDisposeAdvanced request) (0, [])
  return responseArray.map AdvancedResponse.reply

/-- What the sender of a message gets from the task that `CommandHandler::received`
posts for it. -/
def replies (data : Bytes) : Except Stop (List Reply) := do
  let (ret, request) ← Factory.unmarshal msgpack data
  if ret = ErrCode.unimplementedError then
    let (ret, req) ← unpackRequest msgpack rt.warns data
    if 0 ≤ ret then
      let some req := req | .error (.fault .nullDereference)
      rt.processReplies req
    else return rt.packedReplies req none ret
  else if ret < 0 then return []
  else
    let some request := request | .error (.fault .nullDereference)
    rt.advancedReplies request

end Queue

end Runtime

end Service

end FeedsService.Rpc
