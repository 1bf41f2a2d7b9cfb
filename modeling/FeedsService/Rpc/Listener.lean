import FeedsService.Rpc.Factory
import FeedsService.Rpc.Parsers

/-!
# The listeners of `CommandHandler`

A listener has handlers under the names of their methods.  It declines a
request whose method it does not know, and asks whether the token gives
access before it calls a handler.  `LegacyMethod` has the handlers written in
C.  The dispatch is the same whatever the handlers do, so a `Service` gives
them; those of the repository are in `Runtime.service`.
-/

namespace FeedsService.Rpc

open FeedsService.Library

namespace ErrCode

def pointerReleasedError : ℤ := -105

def fileNotExistsError : ℤ := -107

def sizeOverflowError : ℤ := -109

def stdSystemError : ℤ := -110

def completelyFinishedNotify : ℤ := -112

def unknownError : ℤ := -101

def cmdUnknownReqFailed : ℤ := -150

def cmdUnmarshalReqFailed : ℤ := -151

def cmdMarshalRespFailed : ℤ := -152

def cmdUnsupportedVersion : ℤ := -153

def cmdUnsupportedAlgo : ℤ := -154

def cmdUnknownRespFailed : ℤ := -155

def stdSystemErrorIndex : ℤ := -2000

end ErrCode

inductive Accessible
  | anyone | member | owner
  deriving DecidableEq

/-- The responses of `MassData`. -/
inductive Resp
  | setBinary (tsxId : UInt64) (key : Bytes)
  | getBinary (tsxId : UInt64) (key algo checksum content : Bytes)
  deriving DecidableEq

/-! ## The service -/

/-- A path, or the part of one that a request names. -/
abbrev Path := Bytes

/-- What `std::filesystem` answers, `none` where it throws. -/
structure FileSystem where
  fileExists : Path → Option Bool
  createDirectories : Path → Option Bool
  /-- The value of the error code, 0 for success. -/
  rename : Path → Path → ℕ
  remove : Path → Option Bool
  fileSize : Path → Option ℕ
  read : Path → ℕ → Bytes

/-- The state in which a message is received. -/
structure Service (Response : Type) where
  /-- `VLOG_WARN <= log_level` -/
  warns : Bool
  /-- `carrierHandler` has not expired. -/
  carrier : Bool
  checkAccessible : Accessible → Bytes → ℤ
  /-- The C handler of `method_hdlrs` under a name. -/
  hdlr : String → Req → Except Stop Unit
  fileSystem : FileSystem
  massDataDir : Path
  /-- `Random::Gen<uint32_t>()` -/
  random : UInt32
  onGetMultiComments : Request → List Response → Except Stop (ℤ × List Response)
  onGetMultiLikesAndCommentsCount :
    Request → List Response → Except Stop (ℤ × List Response)
  onGetMultiSubscribersCount : Request → List Response → Except Stop (ℤ × List Response)
  onStandardSignIn : Request → List Response → Except Stop (ℤ × List Response)
  onStandardDidAuth : Request → List Response → Except Stop (ℤ × List Response)
  /-- What `pack` writes; its size is returned as an `int`. -/
  pack : Response → { bytes : Bytes // bytes.length < 2 ^ 31 }
  rpcMarshalResp : Option Bytes → Resp → Option Bytes
  rpcMarshalErr : UInt64 → ℤ → Option Bytes

/-! ## Members of a request -/

/-- The `char *` of a member, null when it was not set. -/
def Req.str (req : Req) (member : Member) : Option Bytes :=
  (req.params.find? fun set => decide (set.1 = member)).bind fun set =>
    match set.2 with
    | .str buffer => some buffer
    | _ => none

/-- `std::string(pointer)`, which throws on a null pointer. -/
def stdString (pointer : Option Bytes) : Except Stop Bytes :=
  orThrow (pointer.map cString)

/-- The string behind a pointer that is followed. -/
def follow (pointer : Option Bytes) : Except Stop Bytes :=
  match pointer with
  | some buffer => .ok (cString buffer)
  | none => .error (.fault .nullDereference)

/-- `!strcmp(req->method, method)` -/
def Req.named (req : Req) (method : String) : Except Stop Bool :=
  match req.method with
  | some buffer => (strcmp buffer (literal method)).mapError .fault
  | none => .error (.fault .nullDereference)

/-! ## Listeners -/

structure NormalHandler where
  callback : Req → Option Resp → Except Stop (ℤ × Option Resp)
  accessible : Accessible

structure AdvancedHandler (Response : Type) where
  callback : Request → List Response → Except Stop (ℤ × List Response)
  accessible : Accessible

/-- The two `onDispose` of a listener. -/
structure Listener (Response : Type) where
  onDispose : Req → Option Resp → Except Stop (ℤ × Option Resp)
  onDisposeAdvanced : Request → List Response → Except Stop (ℤ × List Response)

/-- `RequestWithToken::accessToken`, empty for the other classes. -/
def Request.accessToken (request : Request) : Bytes :=
  match request.kind, request.params with
  | .getMultiComments, .string token :: _
  | .getMultiLikesAndCommentsCount, .string token :: _
  | .getMultiSubscribersCount, .string token :: _ => token
  | _, _ => []

section Dispose

variable {Response : Type} (service : Service Response)

/-- The loop over `normalHandlerMap`. -/
def disposeNormal (normalHandlerMap : List (String × NormalHandler)) (req : Req)
    (resp : Option Resp) : Except Stop (ℤ × Option Resp) :=
  dispatch (fun it => req.named it.1)
    (fun it => do
      let accessToken ← stdString (req.str .tk)
      let ret := service.checkAccessible it.2.accessible accessToken
      if ret < 0 then return (ret, resp) else it.2.callback req resp)
    (ErrCode.unimplementedError, resp) normalHandlerMap

/-- The loop over `advancedHandlerMap`. -/
def disposeAdvanced (advancedHandlerMap : List (String × AdvancedHandler Response))
    (request : Request) (responseArray : List Response) :
    Except Stop (ℤ × List Response) :=
  dispatch (fun it => .ok (decide (bytesOf it.1 = request.method)))
    (fun it =>
      let ret := service.checkAccessible it.2.accessible request.accessToken
      if ret < 0 then .ok (ret, responseArray) else it.2.callback request responseArray)
    (ErrCode.unimplementedError, responseArray) advancedHandlerMap

/-- A listener that overrides nothing. -/
def Listener.ofMaps (normalHandlerMap : List (String × NormalHandler))
    (advancedHandlerMap : List (String × AdvancedHandler Response)) : Listener Response where
  onDispose := disposeNormal service normalHandlerMap
  onDisposeAdvanced := disposeAdvanced service advancedHandlerMap

def methodHdlrs : List String :=
  ["declare_owner", "import_did", "issue_credential", "update_credential",
   "signin_request_challenge", "signin_confirm_challenge", "create_channel",
   "update_feedinfo", "update_user_info", "publish_post", "declare_post", "notify_post",
   "edit_post", "delete_post", "post_comment", "edit_comment", "delete_comment",
   "block_comment", "unblock_comment", "post_like", "post_unlike", "get_my_channels",
   "get_my_channels_metadata", "get_channels", "get_channel_detail",
   "get_subscribed_channels", "get_posts", "get_posts_likes_and_comments",
   "get_liked_posts", "get_liked_data", "get_comments", "get_comments_likes",
   "get_statistics", "subscribe_channel", "unsubscribe_channel", "enable_notification",
   "get_service_version", "report_illegal_comment", "get_reported_comments"]

/-- The loop over `method_hdlrs`. -/
def disposeLegacy (req : Req) : Except Stop ℤ :=
  dispatch req.named
    (fun name => do
      service.hdlr name req
      return ErrCode.completelyFinishedNotify)
    ErrCode.unimplementedError methodHdlrs

def legacyMethod : Listener Response where
  onDispose req resp := do
    if service.carrier then
      let ret ← disposeLegacy service req
      return (ret, resp)
    else return (ErrCode.pointerReleasedError, resp)
  onDisposeAdvanced := disposeAdvanced service []

def ChannelMethod.advancedHandlerMap : List (String × AdvancedHandler Response) :=
  [("get_multi_comments", ⟨service.onGetMultiComments, .member⟩),
   ("get_multi_likes_and_comments_count", ⟨service.onGetMultiLikesAndCommentsCount, .member⟩),
   ("get_multi_subscribers_count", ⟨service.onGetMultiSubscribersCount, .member⟩)]

def channelMethod : Listener Response :=
  .ofMaps service [] (ChannelMethod.advancedHandlerMap service)

def StandardAuth.advancedHandlerMap : List (String × AdvancedHandler Response) :=
  [("standard_sign_in", ⟨service.onStandardSignIn, .anyone⟩),
   ("standard_did_auth", ⟨service.onStandardDidAuth, .anyone⟩)]

def standardAuth : Listener Response :=
  .ofMaps service [] (StandardAuth.advancedHandlerMap service)

end Dispose

/-! ## `MassData` -/

/-- `path / part` -/
def Path.append (path : Path) (part : Bytes) : Path :=
  if part.head? = some 47 then part
  else if path.isEmpty || path.getLast? = some 47 then path ++ part
  else path ++ 47 :: part

section MassData

variable {Response : Type} (service : Service Response)

def saveBinData (req : Req) (resp : Option Resp) (contentFilePath : Path) :
    Except Stop (ℤ × Option Resp) := do
  let algo ← follow (req.str .algo)
  if algo ≠ bytesOf "None" then return (ErrCode.cmdUnsupportedAlgo, resp)
  let key ← follow (req.str .key)
  let ec := service.fileSystem.rename contentFilePath (Path.append service.massDataDir key)
  if ec ≠ 0 then return (ErrCode.stdSystemErrorIndex - ec, resp)
  return (0, some (.setBinary req.tsxId key))

/-- The code that is returned, the response and the file with the content. -/
def loadBinData (req : Req) (resp : Option Resp) : Except Stop (ℤ × Option Resp × Path) := do
  let key ← follow (req.str .key)
  let keyPath := Path.append service.massDataDir key
  let found ← orThrow (service.fileSystem.fileExists keyPath)
  if found = false then return (ErrCode.fileNotExistsError, resp, [])
  return (0, some (.getBinary req.tsxId key (bytesOf "None") [] []), keyPath)

def massDataCacheDir : Path :=
  Path.append service.massDataDir (bytesOf "cache")

def massDataCacheFilePath : Path :=
  Path.append (massDataCacheDir service)
    (bytesOf ("massdata-cache-" ++ toString service.random))

def onSetBinary (req : Req) (resp : Option Resp) : Except Stop (ℤ × Option Resp) := do
  let found ← orThrow (service.fileSystem.fileExists (massDataCacheDir service))
  let created ← if found then .ok true
    else orThrow (service.fileSystem.createDirectories (massDataCacheDir service))
  if created = false then return (ErrCode.fileNotExistsError, resp)
  let (ret, resp) ← saveBinData service req resp (massDataCacheFilePath service)
  let _ ← orThrow (service.fileSystem.remove (massDataCacheFilePath service))
  return (ret, resp)

def maxContentSize : ℕ := 4 * 1024 * 1024

def onGetBinary (req : Req) (resp : Option Resp) : Except Stop (ℤ × Option Resp) := do
  let (ret, resp, massDataFilePath) ← loadBinData service req resp
  if ret < 0 then return (ret, resp)
  let size ← orThrow (service.fileSystem.fileSize massDataFilePath)
  if maxContentSize < size then return (ErrCode.sizeOverflowError, resp)
  match resp with
  | some (.getBinary tsxId key algo checksum _) =>
    let content := service.fileSystem.read massDataFilePath size
    return (0, some (.getBinary tsxId key algo checksum content))
  | _ => return (0, resp)

def MassData.normalHandlerMap : List (String × NormalHandler) :=
  [("set_binary", ⟨onSetBinary service, .owner⟩),
   ("get_binary", ⟨onGetBinary service, .member⟩)]

def massData : Listener Response :=
  .ofMaps service (MassData.normalHandlerMap service) []

end MassData

end FeedsService.Rpc
