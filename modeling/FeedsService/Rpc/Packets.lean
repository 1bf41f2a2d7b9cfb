import FeedsService.Auth.System
import FeedsService.Feeds.System
import FeedsService.Rpc.Messages
import FeedsService.Rpc.Object

/-!
# The packets of the service

The messages that the handlers of `feeds.c`, `auth.c` and `did.c` construct, and when
the packets that are made of them are well formed.
-/

namespace FeedsService.Rpc

open FeedsService.Library FeedsService.Library.MsgPack FeedsService.Feeds FeedsService.Runs

/-- `msgpack_object` as what is read. -/
def objectShape : Shape Object where
  scalar
    | ⟨.nil, _⟩ => .nil
    | ⟨.boolean value, _⟩ => .boolean value
    | ⟨.int value, _⟩ =>
        if 0 ≤ value then .positiveInteger (.ofInt value) else .negativeInteger (.ofInt value)
    | ⟨.str bytes, h⟩ => .str ⟨bytes, h⟩
    | ⟨.bin bytes, h⟩ => .bin ⟨bytes, h⟩
  array := .array
  map := .map

section Handlers

/-- What messages take from elsewhere: `feeds_owner_info`, the version of the build, the
text of a JWT and of a credential, and what the stack holds where a `ReportedCmtInfo` is
not set. -/
structure Surroundings where
  owner : UserInfo
  version : String
  versionCode : Int64
  jws : Auth.Jws → String
  credential : Auth.Credential → String
  reasons : Option String
  createdAt : UInt64

variable (env : Surroundings)

def queryMessage (tsxId : UInt64) : Query → Resp → Option Message
  | .getMyChans _, .chans isLast cinfos => some (.getMyChansResp tsxId isLast cinfos)
  | .getMyChansMeta _, .chansMeta cinfos => some (.getMyChansMetaResp tsxId cinfos)
  | .getChans _, .chans isLast cinfos => some (.getChansResp tsxId isLast env.owner cinfos)
  | .getChanDtl _, .chanDtl cinfo => some (.getChanDtlResp tsxId env.owner cinfo)
  | .getSubChans _, .chans isLast cinfos => some (.getSubChansResp tsxId isLast env.owner cinfos)
  | .getPostsLac _ _, .postsLac pinfos => some (.getPostsLacResp tsxId pinfos)
  | .getLikedPosts _, .posts isLast pinfos => some (.getLikedPostsResp tsxId isLast pinfos)
  | .getLikedData _, .likedData isLast linfos => some (.getLikedDataResp tsxId isLast linfos)
  | .getCmtsLikes _ _ _, .cmtsLikes cinfos => some (.getCmtsLikesResp tsxId cinfos)
  | .getStats, .stats did connCs totalCs =>
      some (.getStatsResp tsxId did (u64 connCs) (u64 totalCs))
  | .getSrvVer, .srvVer => some (.getSrvVerResp tsxId env.version env.versionCode)
  | .getReportedCmts _, .reportedCmts isLast rcinfos =>
      some (.getReportedCmtsResp tsxId isLast rcinfos)
  | _, _ => none

/-- The response that a handler of `feeds.c` makes of its result. -/
def respMessage (tsxId : UInt64) : Feeds.Req → Resp → Option Message
  | .createChan _, .id id => some (.idResp .createChan tsxId (u64 id))
  | .updChan _ _, .empty => some (.nilResp .updChan tsxId)
  | .pubPost _ _, .id id => some (.idResp .pubPost tsxId (u64 id))
  | .declarePost _ _ _, .id id => some (.idResp .declarePost tsxId (u64 id))
  | .notifyPost _ _, .empty => some (.nilResp .notifyPost tsxId)
  | .editPost _ _ _, .empty => some (.nilResp .editPost tsxId)
  | .delPost _ _, .empty => some (.nilResp .delPost tsxId)
  | .postCmt _ _ _ _, .id id => some (.idResp .postCmt tsxId (u64 id))
  | .editCmt _ _ _ _ _, .empty => some (.nilResp .editCmt tsxId)
  | .delCmt _ _ _, .empty => some (.nilResp .delCmt tsxId)
  | .blockCmt _ _ _, .empty => some (.nilResp .blockCmt tsxId)
  | .unblockCmt _ _ _, .empty => some (.nilResp .unblockCmt tsxId)
  | .postLike _ _ _ _, .empty => some (.nilResp .postLike tsxId)
  | .postUnlike _ _ _, .empty => some (.nilResp .postUnlike tsxId)
  | .getPosts _ _, .posts isLast pinfos => some (.getPostsResp tsxId isLast pinfos)
  | .getCmts _ _ _, .cmts isLast cinfos => some (.getCmtsResp tsxId isLast cinfos)
  | .subChan _ _, .chan isLast cinfo => some (.subChanResp tsxId isLast env.owner cinfo)
  | .unsubChan _, .empty => some (.nilResp .unsubChan tsxId)
  | .enblNotif, .empty => some (.nilResp .enblNotif tsxId)
  | .updUserInfo _, .empty => some (.nilResp .updUserInfo tsxId)
  | .reportIllegalCmt _ _ _ _, .empty => some (.nilResp .reportIllegalCmt tsxId)
  | .query query, resp => queryMessage env tsxId query resp
  | _, _ => none

def errMessage (tsxId : UInt64) (ec : ℤ) : Option Message :=
  (errStrerror ec).map (.err tsxId (.ofInt ec))

/-- What a handler of `feeds.c` hands to the functions that marshal. -/
def msgMessage (req : Feeds.Req) : Msg → Option Message
  | .err tsxId ec => errMessage tsxId ec
  | .resp tsxId resp => respMessage env tsxId req resp
  | .chanUpd cinfo => some (.chanUpdNotif env.owner cinfo)
  | .newPost pinfo => some (.newPostNotif pinfo)
  | .postUpd pinfo => some (.postUpdNotif pinfo)
  | .newCmt cinfo => some (.newCmtNotif cinfo)
  | .cmtUpd cinfo => some (.cmtUpdNotif cinfo)
  | .newLike li => some (.newLikeNotif li)
  | .newSub chanId uinfo => some (.newSubNotif (u64 chanId) uinfo)
  | .reportCmt chanId postId cmtId reporter =>
      some (.reportCmtNotif ⟨chanId, postId, cmtId, reporter, env.reasons, env.createdAt⟩)

/-- The answer to an event of the binding and of the legacy sign-in. -/
def answerTo (host : Auth.Host) (s : Auth.State) (a : Auth.Action) : Auth.Answer :=
  match a.event with
  | .declOwner req => (Auth.hdlDeclOwnerReq a.moment s req).2
  | .impDid req => (Auth.hdlImpDidReq s req).2
  | .issVc req => (Auth.hdlIssVcReq host a.moment s req).2
  | .updateVc req => (Auth.hdlUpdateVcReq host a.moment s req).2
  | .signinReqChal req => (Auth.hdlSigninReqChalReq host a.moment s req).2
  | .signinConfChal req => (Auth.hdlSigninConfChalReq host a.moment s req).2
  | _ => .silent

/-- What a handler of `auth.c` or `did.c` hands to the functions that marshal. -/
def answerMessage : Auth.Answer → Option Message
  | .silent | .nullUserInfo => none
  | .err tsxId ec => errMessage tsxId ec.code
  | .declOwner tsxId phase did tsxPayload => some (.declOwnerResp tsxId phase did tsxPayload)
  | .impDid tsxId did tsxPayload => some (.impDidResp tsxId did tsxPayload)
  | .issVc tsxId => some (.nilResp .issVc tsxId)
  | .updateVc tsxId => some (.nilResp .updateVc tsxId)
  | .signinReqChal tsxId vcReq jws vc =>
      some (.signinReqChalResp tsxId vcReq (env.jws jws) (vc.map env.credential))
  | .signinConfChal tsxId tk exp => some (.signinConfChalResp tsxId (env.jws tk) (u64 exp))

/-- The messages that some handler constructs in a reachable state. -/
inductive Constructed : Message → Prop
  | feeds {events : List Feeds.Event} {ctx : Ctx} {req : Feeds.Req} {peer : NodeId} {msg : Msg}
      {m : Message}
      (hout : .msgqEnq peer msg ∈ (respond (perform (.start Db.init) events) ctx req).outs)
      (hmessage : msgMessage env req msg = some m) : Constructed m
  | auth {host : Auth.Host} {actions : List Auth.Action} {s : Auth.State} {a : Auth.Action}
      {m : Message} (hrun : Run (Auth.Step host) .init actions s)
      (hmessage : answerMessage env (answerTo host s a) = some m) : Constructed m
  | statsChanged (totalCs : UInt64) : Constructed (.statsChangedNotif totalCs)

end Handlers

section Packets

/-- Every packet is well formed. -/
def MarshalsWell : Prop :=
  ∀ env m, Constructed env m → m.marshal.WellFormed standard objectShape

/-- The owner, who comments on his own post, subscribed to his own channel. -/
def commentingOwner : Ctx where
  «from» := "phone"
  tsxId := 1
  didIsReady := true
  now := 0
  uinfo := some ⟨1, "did:owner", "owner", "NA", none, none⟩
  maxContentLen := 1024

def commentingRun : List Feeds.Event :=
  [.request commentingOwner (.createChan ⟨"news", "all the news", [1], "NA", "NA"⟩),
    .request commentingOwner (.subChan 1 "NA"),
    .request commentingOwner .enblNotif,
    .request commentingOwner (.pubPost 1 ⟨[1], [0xA0], "NA", "NA", "NA"⟩),
    .request commentingOwner (.postCmt 1 1 0 ⟨[2], [0xA0], "NA", "NA"⟩)]

/-- A notification of a comment that is available and has no content, as
`hdl_unblock_cmt_req` makes it. -/
def notifiesBlank : Out → Bool
  | .msgqEnq _ (.cmtUpd cinfo) => cinfo.stat = .available && cinfo.content.isEmpty
  | _ => false

/-- Its packet ends before the header of the parameters says. -/
example : (standard.unpack objectShape
    ((Message.cmtUpdNotif (blankCmt 1 1 1 .available ⟨1, "did:owner", "owner", "NA", none, none⟩
      0)).marshal.bytes standard)).isNone = true := by
  decide +kernel

theorem cmtUpd_of_notifiesBlank {out : Out} (h : notifiesBlank out = true) :
    ∃ peer cinfo, out = .msgqEnq peer (.cmtUpd cinfo) ∧ cinfo.stat = .available ∧
      cinfo.content = [] := by
  cases out with
  | msgqEnq peer msg =>
      cases msg with
      | cmtUpd cinfo =>
          simp only [notifiesBlank, Bool.and_eq_true, decide_eq_true_eq, List.isEmpty_iff] at h
          exact ⟨peer, cinfo, rfl, h⟩
      | _ => cases h
  | postStat stat => cases h
  | cmtStat stat => cases h

end Packets

end FeedsService.Rpc
