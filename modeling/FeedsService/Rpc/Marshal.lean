import FeedsService.Library.MsgPack
import FeedsService.Feeds.Database

/-!
# Marshalling of `rpc.c`

What each `rpc_marshal_*` function packs for a response or a notification.  The
size of a map is a literal in one place and its entries are packed in another;
`pack_kv_str` packs nothing for a null pointer and `pack_kv_bin` nothing for an
empty blob.

A channel points to `feeds_owner_info`, which is an argument here.  An unsigned
field of 64 bits holds the column it was read from.
-/

namespace FeedsService.Rpc

open FeedsService.Library FeedsService.Library.MsgPack FeedsService.Feeds

section Pack

/-- The bytes of a C string. -/
def utf8 (text : String) : Bytes :=
  text.toByteArray.data.toList

def packAll : List Packed → Packed
  | [] => .done
  | call :: calls => call ++ packAll calls

def packStr (text : String) : Packed :=
  .scalar (.str (utf8 text)) .done

/-- `none` is the null pointer. -/
def packKvStr (key : String) (value : Option String) : Packed :=
  match value with
  | none => .done
  | some value => packStr key ++ packStr value

def packKvI64 (key : String) (value : Int64) : Packed :=
  packStr key ++ .scalar (.int value.toInt) .done

def packKvU64 (key : String) (value : UInt64) : Packed :=
  packStr key ++ .scalar (.int value.toNat) .done

def packKvNil (key : String) : Packed :=
  packStr key ++ .scalar .nil .done

def packKvBool (key : String) (value : Bool) : Packed :=
  packStr key ++ .scalar (.boolean value) .done

def packKvBin (key : String) (bin : Bytes) : Packed :=
  if bin = [] then .done else packStr key ++ .scalar (.bin bin) .done

def packKvBinWithzero (key : String) (bin : Bytes) : Packed :=
  packStr key ++ .scalar (.bin bin) .done

def packMap (kvs : ℕ) (calls : List Packed) : Packed :=
  .map kvs (packAll calls) .done

def packKvMap (key : String) (kvs : ℕ) (calls : List Packed) : Packed :=
  packStr key ++ packMap kvs calls

/-- The calls that are made for each element. -/
def packKvArr {α : Type} (key : String) (elems : List α) (calls : α → Packed) : Packed :=
  packStr key ++ .array elems.length (packAll (elems.map calls)) .done

end Pack

/-- The value of an unsigned field. -/
def u64 (value : ℤ) : UInt64 :=
  .ofInt value

def postStat : PostStat → UInt64
  | .available => 0
  | .deleted => 1
  | .declared => 2
  | .wrongStat => 3

def cmtStat : CmtStat → UInt64
  | .available => 0
  | .deleted => 1
  | .blocked => 2
  | .wrongStat => 3

/-- The map around the parameters of a notification. -/
def packNotif (method : String) (params : Packed) : Packed :=
  packMap 3 [packKvStr "version" "1.0", packKvStr "method" method, params]

/-- The map around the result of a response. -/
def packResp (tsxId : UInt64) (result : Packed) : Packed :=
  packMap 3 [packKvStr "version" "1.0", packKvU64 "id" tsxId, result]

section Notifications

def rpcMarshalNewPostNotif (pinfo : PostInfo) : Packed :=
  packNotif "new_post" <| packKvMap "params" 12 [
    packKvU64 "channel_id" (u64 pinfo.chanId),
    packKvU64 "id" (u64 pinfo.postId),
    packKvU64 "status" (postStat pinfo.stat),
    packKvBin "content" pinfo.content,
    packKvU64 "comments" (u64 pinfo.cmts),
    packKvU64 "likes" (u64 pinfo.likes),
    packKvU64 "created_at" (u64 pinfo.createdAt),
    packKvU64 "updated_at" (u64 pinfo.updAt),
    packKvBin "thumbnails" pinfo.thumbnails,
    packKvStr "hash_id" pinfo.hashId,
    packKvStr "proof" pinfo.proof,
    packKvStr "origin_post_url" pinfo.originPostUrl]

def rpcMarshalPostUpdNotif (pinfo : PostInfo) : Packed :=
  packNotif "post_update" <| packKvMap "params" 8 [
    packKvU64 "channel_id" (u64 pinfo.chanId),
    packKvU64 "id" (u64 pinfo.postId),
    packKvU64 "status" (postStat pinfo.stat),
    if pinfo.stat = .deleted then packKvNil "content" else packKvBin "content" pinfo.content,
    packKvU64 "comments" (u64 pinfo.cmts),
    packKvU64 "likes" (u64 pinfo.likes),
    packKvU64 "created_at" (u64 pinfo.createdAt),
    packKvU64 "updated_at" (u64 pinfo.updAt)]

def rpcMarshalNewCmtNotif (cinfo : CmtInfo) : Packed :=
  packNotif "new_comment" <| packKvMap "params" 14 [
    packKvU64 "channel_id" (u64 cinfo.chanId),
    packKvU64 "post_id" (u64 cinfo.postId),
    packKvU64 "id" (u64 cinfo.cmtId),
    packKvU64 "status" (cmtStat cinfo.stat),
    packKvU64 "comment_id" (u64 cinfo.replyToCmt),
    packKvStr "user_did" cinfo.user.did,
    packKvStr "user_name" cinfo.user.name,
    packKvBin "content" cinfo.content,
    packKvU64 "likes" (u64 cinfo.likes),
    packKvU64 "created_at" (u64 cinfo.createdAt),
    packKvU64 "updated_at" (u64 cinfo.updAt),
    packKvBin "thumbnails" cinfo.thumbnails,
    packKvStr "hash_id" cinfo.hashId,
    packKvStr "proof" cinfo.proof]

def rpcMarshalCmtUpdNotif (cinfo : CmtInfo) : Packed :=
  packNotif "comment_update" <| packKvMap "params" 11 [
    packKvU64 "channel_id" (u64 cinfo.chanId),
    packKvU64 "post_id" (u64 cinfo.postId),
    packKvU64 "id" (u64 cinfo.cmtId),
    packKvU64 "status" (cmtStat cinfo.stat),
    packKvU64 "comment_id" (u64 cinfo.replyToCmt),
    packKvStr "user_did" cinfo.user.did,
    packKvStr "user_name" cinfo.user.name,
    if cinfo.stat = .available then packKvBin "content" cinfo.content else packKvNil "content",
    packKvU64 "likes" (u64 cinfo.likes),
    packKvU64 "created_at" (u64 cinfo.createdAt),
    packKvU64 "updated_at" (u64 cinfo.updAt)]

def rpcMarshalNewLikeNotif (li : LikeInfo) : Packed :=
  packNotif "new_like" <| packKvMap "params" 7 [
    packKvU64 "channel_id" (u64 li.chanId),
    packKvU64 "post_id" (u64 li.postId),
    packKvU64 "comment_id" (u64 li.cmtId),
    packKvStr "user_name" li.user.name,
    packKvStr "user_did" li.user.did,
    packKvStr "proof" li.proof,
    packKvU64 "total_count" (u64 li.totalCnt)]

def rpcMarshalNewSubNotif (chanId : UInt64) (uinfo : UserInfo) : Packed :=
  packNotif "new_subscription" <| packKvMap "params" 3 [
    packKvU64 "channel_id" chanId,
    packKvStr "user_name" uinfo.name,
    packKvStr "user_did" uinfo.did]

def rpcMarshalChanUpdNotif (owner : UserInfo) (cinfo : ChanInfo) : Packed :=
  packNotif "feedinfo_update" <| packKvMap "params" 11 [
    packKvU64 "id" (u64 cinfo.chanId),
    packKvStr "name" cinfo.name,
    packKvStr "introduction" cinfo.intro,
    packKvStr "owner_name" owner.name,
    packKvStr "owner_did" owner.did,
    packKvU64 "subscribers" (u64 cinfo.subs),
    packKvU64 "last_update" (u64 cinfo.updAt),
    packKvBin "avatar" cinfo.avatar,
    packKvStr "tip_methods" cinfo.tipMethods,
    packKvStr "proof" cinfo.proof,
    packKvU64 "status" (u64 cinfo.status)]

def rpcMarshalStatsChangedNotif (totalCs : UInt64) : Packed :=
  packNotif "statistics_changed" <| packKvMap "params" 1 [
    packKvU64 "total_clients" totalCs]

/-- The `ReportedCmtInfo` on the stack of `hdl_report_illegal_cmt_req`, which never sets
the last two members. -/
structure ReportCmt where
  chanId : ℤ
  postId : ℤ
  cmtId : ℤ
  reporter : UserInfo
  reasons : Option String
  createdAt : UInt64

def rpcMarshalReportCmtNotif (li : ReportCmt) : Packed :=
  packNotif "report_illegal_comment" <| packKvMap "params" 6 [
    packKvU64 "channel_id" (u64 li.chanId),
    packKvU64 "post_id" (u64 li.postId),
    packKvU64 "comment_id" (u64 li.cmtId),
    packKvStr "reporter_name" li.reporter.name,
    packKvStr "reporter_did" li.reporter.did,
    packKvStr "reasons" li.reasons,
    packKvU64 "created_at" li.createdAt]

end Notifications

section Binding

def rpcMarshalDeclOwnerResp (tsxId : UInt64) (phase : String) (did tsxPayload : Option String) :
    Packed :=
  packResp tsxId <| packKvMap "result" (if did.isSome then 3 else 1) [
    packKvStr "phase" phase,
    packKvStr "did" did,
    packKvStr "transaction_payload" tsxPayload]

def rpcMarshalImpDidResp (tsxId : UInt64) (did tsxPayload : String) : Packed :=
  packResp tsxId <| packKvMap "result" 2 [
    packKvStr "did" did,
    packKvStr "transaction_payload" tsxPayload]

def rpcMarshalSigninReqChalResp (tsxId : UInt64) (vcReq : Bool) (jws : String)
    (vc : Option String) : Packed :=
  packResp tsxId <| packKvMap "result" (if vc.isSome then 3 else 2) [
    packKvBool "credential_required" vcReq,
    packKvStr "jws" jws,
    packKvStr "credential" vc]

def rpcMarshalSigninConfChalResp (tsxId : UInt64) (tk : String) (exp : UInt64) : Packed :=
  packResp tsxId <| packKvMap "result" 2 [
    packKvStr "access_token" tk,
    packKvU64 "exp" exp]

end Binding

section Results

/-- A response whose result is nil. -/
def packNilResp (tsxId : UInt64) : Packed :=
  packResp tsxId (packKvNil "result")

/-- A response whose result is an id. -/
def packIdResp (tsxId id : UInt64) : Packed :=
  packResp tsxId <| packKvMap "result" 1 [packKvU64 "id" id]

def rpcMarshalIssVcResp := packNilResp

def rpcMarshalUpdateVcResp := packNilResp

def rpcMarshalCreateChanResp := packIdResp

def rpcMarshalUpdChanResp := packNilResp

def rpcMarshalUpdUserInfoResp := packNilResp

def rpcMarshalPubPostResp := packIdResp

def rpcMarshalDeclarePostResp := packIdResp

def rpcMarshalNotifyPostResp := packNilResp

def rpcMarshalEditPostResp := packNilResp

def rpcMarshalDelPostResp := packNilResp

def rpcMarshalPostCmtResp := packIdResp

def rpcMarshalEditCmtResp := packNilResp

def rpcMarshalDelCmtResp := packNilResp

def rpcMarshalBlockCmtResp := packNilResp

def rpcMarshalUnblockCmtResp := packNilResp

def rpcMarshalPostLikeResp := packNilResp

def rpcMarshalPostUnlikeResp := packNilResp

def rpcMarshalUnsubChanResp := packNilResp

def rpcMarshalEnblNotifResp := packNilResp

def rpcMarshalReportIllegalCmtResp := packNilResp

def rpcMarshalErr (tsxId : UInt64) (errcode : Int64) (errdesp : String) : Packed :=
  packResp tsxId <| packKvMap "error" 2 [
    packKvI64 "code" errcode,
    packKvStr "message" errdesp]

/-- `errstr` of `err.c`. -/
def errstr : List String := [
  "Entity Already Exists",
  "Entity Not Exists",
  "Operation Not Authorized",
  "Operation In Wrong State",
  "Access Token Expired",
  "Internal Error",
  "Invalid Parameters",
  "Invalid Challenge Response",
  "Invalid Verifiable Credential",
  "Unsupported Method",
  "Database error",
  "Exceeded the max number of feeds"]

/-- The text at the place of a code; none when it is not in the table. -/
def errStrerror (rc : ℤ) : Option String :=
  if rc < 0 then errstr[(-rc - 1).toNat]? else none

end Results

section Lists

/-- A result of two entries, of which the second is a list. -/
def packPage {α : Type} (tsxId : UInt64) (isLast : Bool) (key : String) (elems : List α)
    (calls : α → Packed) : Packed :=
  packResp tsxId <| packKvMap "result" 2 [
    packKvBool "is_last" isLast,
    packKvArr key elems calls]

def rpcMarshalGetMyChansResp (tsxId : UInt64) (isLast : Bool) (cinfos : List ChanInfo) : Packed :=
  packPage tsxId isLast "channels" cinfos fun cinfo => packMap 5 [
    packKvU64 "id" (u64 cinfo.chanId),
    packKvStr "name" cinfo.name,
    packKvStr "introduction" cinfo.intro,
    packKvU64 "subscribers" (u64 cinfo.subs),
    packKvBin "avatar" cinfo.avatar]

def rpcMarshalGetMyChansMetaResp (tsxId : UInt64) (cinfos : List ChanInfo) : Packed :=
  packResp tsxId <| packKvArr "result" cinfos fun cinfo => packMap 2 [
    packKvU64 "id" (u64 cinfo.chanId),
    packKvU64 "subscribers" (u64 cinfo.subs)]

def rpcMarshalGetChansResp (tsxId : UInt64) (isLast : Bool) (owner : UserInfo)
    (cinfos : List ChanInfo) : Packed :=
  packPage tsxId isLast "channels" cinfos fun cinfo => packMap 11 [
    packKvU64 "id" (u64 cinfo.chanId),
    packKvStr "name" cinfo.name,
    packKvStr "introduction" cinfo.intro,
    packKvStr "owner_name" owner.name,
    packKvStr "owner_did" owner.did,
    packKvU64 "subscribers" (u64 cinfo.subs),
    packKvU64 "last_update" (u64 cinfo.updAt),
    packKvBin "avatar" cinfo.avatar,
    packKvStr "tip_methods" cinfo.tipMethods,
    packKvStr "proof" cinfo.proof,
    packKvU64 "status" (u64 cinfo.status)]

def rpcMarshalGetChanDtlResp (tsxId : UInt64) (owner : UserInfo) (cinfo : ChanInfo) : Packed :=
  packResp tsxId <| packKvMap "result" 8 [
    packKvU64 "id" (u64 cinfo.chanId),
    packKvStr "name" cinfo.name,
    packKvStr "introduction" cinfo.intro,
    packKvStr "owner_name" owner.name,
    packKvStr "owner_did" owner.did,
    packKvU64 "subscribers" (u64 cinfo.subs),
    packKvU64 "last_update" (u64 cinfo.updAt),
    packKvBin "avatar" cinfo.avatar]

def rpcMarshalGetSubChansResp (tsxId : UInt64) (isLast : Bool) (owner : UserInfo)
    (cinfos : List ChanInfo) : Packed :=
  packPage tsxId isLast "channels" cinfos fun cinfo => packMap 10 [
    packKvU64 "id" (u64 cinfo.chanId),
    packKvStr "name" cinfo.name,
    packKvStr "introduction" cinfo.intro,
    packKvStr "owner_name" owner.name,
    packKvStr "owner_did" owner.did,
    packKvU64 "subscribers" (u64 cinfo.subs),
    packKvU64 "last_update" (u64 cinfo.updAt),
    packKvBin "avatar" cinfo.avatar,
    packKvStr "proof" cinfo.proof,
    packKvU64 "created_at" (u64 cinfo.createdAt)]

def rpcMarshalGetPostsResp (tsxId : UInt64) (isLast : Bool) (pinfos : List PostInfo) : Packed :=
  packPage tsxId isLast "posts" pinfos fun pinfo => packMap 12 [
    packKvU64 "channel_id" (u64 pinfo.chanId),
    packKvU64 "id" (u64 pinfo.postId),
    packKvU64 "status" (postStat pinfo.stat),
    if pinfo.stat = .deleted then packKvNil "content" else packKvBin "content" pinfo.content,
    packKvU64 "comments" (u64 pinfo.cmts),
    packKvU64 "likes" (u64 pinfo.likes),
    packKvU64 "created_at" (u64 pinfo.createdAt),
    packKvU64 "updated_at" (u64 pinfo.updAt),
    if pinfo.stat = .deleted then packKvNil "thumbnails"
      else packKvBin "thumbnails" pinfo.thumbnails,
    packKvStr "hash_id" pinfo.hashId,
    packKvStr "proof" pinfo.proof,
    packKvStr "origin_post_url" pinfo.originPostUrl]

def rpcMarshalGetPostsLacResp (tsxId : UInt64) (pinfos : List PostInfo) : Packed :=
  packResp tsxId <| packKvMap "result" 1 [
    packKvArr "posts" pinfos fun pinfo => packMap 4 [
      packKvU64 "channel_id" (u64 pinfo.chanId),
      packKvU64 "post_id" (u64 pinfo.postId),
      packKvU64 "comments" (u64 pinfo.cmts),
      packKvU64 "likes" (u64 pinfo.likes)]]

def rpcMarshalGetLikedPostsResp (tsxId : UInt64) (isLast : Bool) (pinfos : List PostInfo) :
    Packed :=
  packPage tsxId isLast "posts" pinfos fun pinfo => packMap 6 [
    packKvU64 "channel_id" (u64 pinfo.chanId),
    packKvU64 "id" (u64 pinfo.postId),
    packKvBin "content" pinfo.content,
    packKvU64 "comments" (u64 pinfo.cmts),
    packKvU64 "likes" (u64 pinfo.likes),
    packKvU64 "created_at" (u64 pinfo.createdAt)]

def rpcMarshalGetLikedDataResp (tsxId : UInt64) (isLast : Bool) (linfos : List LikedInfo) :
    Packed :=
  packPage tsxId isLast "liked" linfos fun linfo => packMap 7 [
    packKvU64 "channel_id" (u64 linfo.chanId),
    packKvU64 "post_id" (u64 linfo.postId),
    packKvU64 "comment_id" (u64 linfo.cmtId),
    packKvStr "user_did" linfo.user.did,
    packKvStr "user_name" linfo.user.name,
    packKvU64 "created_at" (u64 linfo.createdAt),
    packKvStr "proof" linfo.proof]

def rpcMarshalGetCmtsResp (tsxId : UInt64) (isLast : Bool) (cinfos : List CmtInfo) : Packed :=
  packPage tsxId isLast "comments" cinfos fun cinfo => packMap 14 [
    packKvU64 "channel_id" (u64 cinfo.chanId),
    packKvU64 "post_id" (u64 cinfo.postId),
    packKvU64 "id" (u64 cinfo.cmtId),
    packKvU64 "status" (cmtStat cinfo.stat),
    packKvU64 "comment_id" (u64 cinfo.replyToCmt),
    packKvStr "user_did" cinfo.user.did,
    packKvStr "user_name" cinfo.user.name,
    if cinfo.stat = .available then packKvBin "content" cinfo.content else packKvNil "content",
    packKvU64 "likes" (u64 cinfo.likes),
    packKvU64 "created_at" (u64 cinfo.createdAt),
    packKvU64 "updated_at" (u64 cinfo.updAt),
    if cinfo.stat = .available then packKvBin "thumbnails" cinfo.thumbnails
      else packKvNil "thumbnails",
    packKvStr "hash_id" cinfo.hashId,
    packKvStr "proof" cinfo.proof]

def rpcMarshalGetCmtsLikesResp (tsxId : UInt64) (cinfos : List CmtInfo) : Packed :=
  packResp tsxId <| packKvMap "result" 1 [
    packKvArr "comments" cinfos fun cinfo => packMap 4 [
      packKvU64 "channel_id" (u64 cinfo.chanId),
      packKvU64 "post_id" (u64 cinfo.postId),
      packKvU64 "id" (u64 cinfo.cmtId),
      packKvU64 "likes" (u64 cinfo.likes)]]

def rpcMarshalGetStatsResp (tsxId : UInt64) (did : String) (connCs totalCs : UInt64) : Packed :=
  packResp tsxId <| packKvMap "result" 3 [
    packKvStr "did" did,
    packKvU64 "connecting_clients" connCs,
    packKvU64 "total_clients" totalCs]

/-- The only response of version 2.0. -/
def rpcMarshalSubChanResp (tsxId : UInt64) (isLast : Bool) (owner : UserInfo)
    (cinfo : ChanInfo) : Packed :=
  packMap 3 [
    packKvStr "version" "2.0",
    packKvU64 "id" tsxId,
    packKvMap "result" 12 [
      packKvBool "is_last" isLast,
      packKvU64 "id" (u64 cinfo.chanId),
      packKvStr "name" cinfo.name,
      packKvStr "introduction" cinfo.intro,
      packKvStr "owner_name" owner.name,
      packKvStr "owner_did" owner.did,
      packKvU64 "subscribers" (u64 cinfo.subs),
      packKvU64 "last_update" (u64 cinfo.updAt),
      packKvBin "avatar" cinfo.avatar,
      packKvStr "tip_methods" cinfo.tipMethods,
      packKvStr "proof" cinfo.proof,
      packKvU64 "status" (u64 cinfo.status)]]

def rpcMarshalGetSrvVerResp (tsxId : UInt64) (version : String) (versionCode : Int64) : Packed :=
  packResp tsxId <| packKvMap "result" 2 [
    packKvStr "version" version,
    packKvI64 "version_code" versionCode]

def rpcMarshalGetReportedCmtsResp (tsxId : UInt64) (isLast : Bool)
    (rcinfos : List ReportedCmtInfo) : Packed :=
  packPage tsxId isLast "comments" rcinfos fun rcinfo => packMap 11 [
    packKvU64 "channel_id" (u64 rcinfo.chanId),
    packKvU64 "post_id" (u64 rcinfo.postId),
    packKvU64 "comment_id" (u64 rcinfo.cmtId),
    packKvStr "reporter_name" rcinfo.reporter.name,
    packKvStr "reporter_did" rcinfo.reporter.did,
    packKvStr "reasons" rcinfo.reasons,
    packKvU64 "created_at" (u64 rcinfo.createdAt)]

end Lists

end FeedsService.Rpc
