import FeedsService.Library.MsgPackFormat
import FeedsService.Rpc.Marshal

/-!
# What marshalled messages decode to

A message is the argument of one of the functions of `rpc.c`.  Its packet is well
formed when no optional entry is left out, since every header counts them all, and
two headers are wrong whatever the message.
-/

namespace FeedsService.Rpc

open FeedsService.Library FeedsService.Library.MsgPack FeedsService.Feeds

/-- The string has a 32-bit size. -/
def Text (text : String) : Prop :=
  (utf8 text).length < 2 ^ 32

/-- The blob has a 32-bit size. -/
def Blob (bin : Bytes) : Prop :=
  bin.length < 2 ^ 32

instance : DecidablePred Text := fun text =>
  inferInstanceAs (Decidable ((utf8 text).length < 2 ^ 32))

section Calls

@[simp]
theorem packAll_nil : packAll [] = .done := rfl

@[simp]
theorem packAll_cons (call : Packed) (calls : List Packed) :
    packAll (call :: calls) = call ++ packAll calls := rfl

section Width

@[simp]
theorem width_packKvStr_none (key : String) : (packKvStr key none).width = 0 := rfl

@[simp]
theorem width_packKvStr_some (key value : String) : (packKvStr key (some value)).width = 2 := rfl

@[simp]
theorem width_packKvI64 (key : String) (value : Int64) : (packKvI64 key value).width = 2 := rfl

@[simp]
theorem width_packKvU64 (key : String) (value : UInt64) : (packKvU64 key value).width = 2 := rfl

@[simp]
theorem width_packKvNil (key : String) : (packKvNil key).width = 2 := rfl

@[simp]
theorem width_packKvBool (key : String) (value : Bool) : (packKvBool key value).width = 2 := rfl

@[simp]
theorem width_packKvBin (key : String) (bin : Bytes) :
    (packKvBin key bin).width = if bin = [] then 0 else 2 := by
  rw [packKvBin]
  split <;> rfl

@[simp]
theorem width_packMap (kvs : ℕ) (calls : List Packed) : (packMap kvs calls).width = 1 := rfl

@[simp]
theorem width_packKvMap (key : String) (kvs : ℕ) (calls : List Packed) :
    (packKvMap key kvs calls).width = 2 := rfl

@[simp]
theorem width_packKvArr {α : Type} (key : String) (elems : List α) (calls : α → Packed) :
    (packKvArr key elems calls).width = 2 := rfl

theorem width_packAll_map {α : Type} (elems : List α) {calls : α → Packed}
    (hcalls : ∀ elem, (calls elem).width = 1) :
    (packAll (elems.map calls)).width = elems.length := by
  induction elems with
  | nil => rfl
  | cons elem elems ih => simp [hcalls, ih, Nat.add_comm]

end Width

section Honest

@[simp]
theorem honest_packKvStr (key : String) (value : Option String) :
    (packKvStr key value).Honest := by
  cases value <;> trivial

@[simp]
theorem honest_packKvI64 (key : String) (value : Int64) : (packKvI64 key value).Honest := trivial

@[simp]
theorem honest_packKvU64 (key : String) (value : UInt64) : (packKvU64 key value).Honest := trivial

@[simp]
theorem honest_packKvNil (key : String) : (packKvNil key).Honest := trivial

@[simp]
theorem honest_packKvBool (key : String) (value : Bool) : (packKvBool key value).Honest := trivial

@[simp]
theorem honest_packKvBin (key : String) (bin : Bytes) : (packKvBin key bin).Honest := by
  rw [packKvBin]
  split <;> trivial

@[simp]
theorem honest_packMap (kvs : ℕ) (calls : List Packed) :
    (packMap kvs calls).Honest ↔
      (packAll calls).width = 2 * kvs ∧ (packAll calls).Honest := by
  simp [packMap, Packed.Honest]

@[simp]
theorem honest_packKvMap (key : String) (kvs : ℕ) (calls : List Packed) :
    (packKvMap key kvs calls).Honest ↔
      (packAll calls).width = 2 * kvs ∧ (packAll calls).Honest :=
  honest_packMap kvs calls

theorem honest_packAll_map {α : Type} (elems : List α) (calls : α → Packed) :
    (packAll (elems.map calls)).Honest ↔ ∀ elem ∈ elems, (calls elem).Honest := by
  induction elems with
  | nil => simp
  | cons elem elems ih => simp [ih]

/-- The elements of a list are maps. -/
@[simp]
theorem honest_packKvArr {α : Type} (key : String) (elems : List α) (kvs : ℕ)
    (calls : α → List Packed) :
    (packKvArr key elems fun elem => packMap kvs (calls elem)).Honest ↔
      ∀ elem ∈ elems,
        (packAll (calls elem)).width = 2 * kvs ∧ (packAll (calls elem)).Honest := by
  have hwidth := width_packAll_map elems fun elem => width_packMap kvs (calls elem)
  simp only [packKvArr, packStr, Packed.scalar_append, Packed.done_append, Packed.Honest, hwidth,
    honest_packAll_map, honest_packMap, true_and, and_true]

end Honest

section Sized

@[simp]
theorem sized_packKvStr_none (key : String) : (packKvStr key none).Sized := trivial

@[simp]
theorem sized_packKvStr_some (key value : String) :
    (packKvStr key (some value)).Sized ↔ Text key ∧ Text value := by
  simp [packKvStr, packStr, Packed.Sized, Scalar.Valid, Text]

@[simp]
theorem sized_packKvI64 (key : String) (value : Int64) :
    (packKvI64 key value).Sized ↔ Text key := by
  have hlow := value.le_toInt
  have hhigh := value.toInt_lt
  simp [packKvI64, packStr, Packed.Sized, Scalar.Valid, Text]
  omega

@[simp]
theorem sized_packKvU64 (key : String) (value : UInt64) :
    (packKvU64 key value).Sized ↔ Text key := by
  have hhigh := value.toNat_lt
  simp [packKvU64, packStr, Packed.Sized, Scalar.Valid, Text]
  omega

@[simp]
theorem sized_packKvNil (key : String) : (packKvNil key).Sized ↔ Text key := by
  simp [packKvNil, packStr, Packed.Sized, Scalar.Valid, Text]

@[simp]
theorem sized_packKvBool (key : String) (value : Bool) :
    (packKvBool key value).Sized ↔ Text key := by
  simp [packKvBool, packStr, Packed.Sized, Scalar.Valid, Text]

@[simp]
theorem sized_packKvBin (key : String) (bin : Bytes) :
    (packKvBin key bin).Sized ↔ (bin ≠ [] → Text key) ∧ Blob bin := by
  rw [packKvBin]
  split <;> simp [packStr, Packed.Sized, Scalar.Valid, Text, Blob, *]

@[simp]
theorem sized_packMap (kvs : ℕ) (calls : List Packed) :
    (packMap kvs calls).Sized ↔ kvs < 2 ^ 32 ∧ (packAll calls).Sized := by
  simp [packMap, Packed.Sized]

@[simp]
theorem sized_packKvMap (key : String) (kvs : ℕ) (calls : List Packed) :
    (packKvMap key kvs calls).Sized ↔ Text key ∧ kvs < 2 ^ 32 ∧ (packAll calls).Sized := by
  simp [packKvMap, packStr, packMap, Packed.Sized, Scalar.Valid, Text]

theorem sized_packAll_map {α : Type} (elems : List α) (calls : α → Packed) :
    (packAll (elems.map calls)).Sized ↔ ∀ elem ∈ elems, (calls elem).Sized := by
  induction elems with
  | nil => simp
  | cons elem elems ih => simp [ih]

@[simp]
theorem sized_packKvArr {α : Type} (key : String) (elems : List α) (calls : α → Packed) :
    (packKvArr key elems calls).Sized ↔
      Text key ∧ elems.length < 2 ^ 32 ∧ ∀ elem ∈ elems, (calls elem).Sized := by
  simp [packKvArr, packStr, Packed.Sized, Scalar.Valid, Text, sized_packAll_map]

end Sized

section Envelopes

@[simp]
theorem width_packNotif (method : String) (params : Packed) :
    (packNotif method params).width = 1 := rfl

@[simp]
theorem width_packResp (tsxId : UInt64) (result : Packed) : (packResp tsxId result).width = 1 := rfl

@[simp]
theorem honest_packNotif (method : String) (params : Packed) :
    (packNotif method params).Honest ↔ params.width = 2 ∧ params.Honest := by
  simp only [packNotif, honest_packMap, packAll_cons, packAll_nil, Packed.width_append,
    Packed.width_done, Packed.honest_append, Packed.honest_done, width_packKvStr_some,
    honest_packKvStr]
  constructor
  · rintro ⟨hwidth, _, _, hparams, _⟩
    exact ⟨by omega, hparams⟩
  · rintro ⟨hwidth, hparams⟩
    exact ⟨by omega, trivial, trivial, hparams, trivial⟩

@[simp]
theorem honest_packResp (tsxId : UInt64) (result : Packed) :
    (packResp tsxId result).Honest ↔ result.width = 2 ∧ result.Honest := by
  simp only [packResp, honest_packMap, packAll_cons, packAll_nil, Packed.width_append,
    Packed.width_done, Packed.honest_append, Packed.honest_done, width_packKvStr_some,
    width_packKvU64, honest_packKvStr, honest_packKvU64]
  constructor
  · rintro ⟨hwidth, _, _, hresult, _⟩
    exact ⟨by omega, hresult⟩
  · rintro ⟨hwidth, hresult⟩
    exact ⟨by omega, trivial, trivial, hresult, trivial⟩

@[simp]
theorem honest_packPage {α : Type} (tsxId : UInt64) (isLast : Bool) (key : String)
    (elems : List α) (kvs : ℕ) (calls : α → List Packed) :
    (packPage tsxId isLast key elems fun elem => packMap kvs (calls elem)).Honest ↔
      ∀ elem ∈ elems,
        (packAll (calls elem)).width = 2 * kvs ∧ (packAll (calls elem)).Honest := by
  simp [packPage]

@[simp]
theorem sized_packNotif (method : String) (params : Packed) :
    (packNotif method params).Sized ↔ Text method ∧ params.Sized := by
  simp +decide [packNotif]

@[simp]
theorem sized_packResp (tsxId : UInt64) (result : Packed) :
    (packResp tsxId result).Sized ↔ result.Sized := by
  simp +decide [packResp]

@[simp]
theorem sized_packPage {α : Type} (tsxId : UInt64) (isLast : Bool) (key : String)
    (elems : List α) (calls : α → Packed) :
    (packPage tsxId isLast key elems calls).Sized ↔
      Text key ∧ elems.length < 2 ^ 32 ∧ ∀ elem ∈ elems, (calls elem).Sized := by
  simp +decide [packPage]

end Envelopes

end Calls

/-- The responses whose result is nil. -/
inductive NilResp
  | issVc
  | updateVc
  | updChan
  | updUserInfo
  | notifyPost
  | editPost
  | delPost
  | editCmt
  | delCmt
  | blockCmt
  | unblockCmt
  | postLike
  | postUnlike
  | unsubChan
  | enblNotif
  | reportIllegalCmt

def NilResp.marshal : NilResp → UInt64 → Packed
  | .issVc => rpcMarshalIssVcResp
  | .updateVc => rpcMarshalUpdateVcResp
  | .updChan => rpcMarshalUpdChanResp
  | .updUserInfo => rpcMarshalUpdUserInfoResp
  | .notifyPost => rpcMarshalNotifyPostResp
  | .editPost => rpcMarshalEditPostResp
  | .delPost => rpcMarshalDelPostResp
  | .editCmt => rpcMarshalEditCmtResp
  | .delCmt => rpcMarshalDelCmtResp
  | .blockCmt => rpcMarshalBlockCmtResp
  | .unblockCmt => rpcMarshalUnblockCmtResp
  | .postLike => rpcMarshalPostLikeResp
  | .postUnlike => rpcMarshalPostUnlikeResp
  | .unsubChan => rpcMarshalUnsubChanResp
  | .enblNotif => rpcMarshalEnblNotifResp
  | .reportIllegalCmt => rpcMarshalReportIllegalCmtResp

/-- The responses whose result is an id. -/
inductive IdResp
  | createChan
  | pubPost
  | declarePost
  | postCmt

def IdResp.marshal : IdResp → UInt64 → UInt64 → Packed
  | .createChan => rpcMarshalCreateChanResp
  | .pubPost => rpcMarshalPubPostResp
  | .declarePost => rpcMarshalDeclarePostResp
  | .postCmt => rpcMarshalPostCmtResp

theorem NilResp.marshal_eq (kind : NilResp) : kind.marshal = packNilResp := by
  cases kind <;> rfl

theorem IdResp.marshal_eq (kind : IdResp) : kind.marshal = packIdResp := by
  cases kind <;> rfl

/-- The arguments of the functions that marshal. -/
inductive Message
  | newPostNotif (pinfo : PostInfo)
  | postUpdNotif (pinfo : PostInfo)
  | newCmtNotif (cinfo : CmtInfo)
  | cmtUpdNotif (cinfo : CmtInfo)
  | newLikeNotif (li : LikeInfo)
  | newSubNotif (chanId : UInt64) (uinfo : UserInfo)
  | chanUpdNotif (owner : UserInfo) (cinfo : ChanInfo)
  | statsChangedNotif (totalCs : UInt64)
  | reportCmtNotif (li : ReportCmt)
  | declOwnerResp (tsxId : UInt64) (phase : String) (did tsxPayload : Option String)
  | impDidResp (tsxId : UInt64) (did tsxPayload : String)
  | signinReqChalResp (tsxId : UInt64) (vcReq : Bool) (jws : String) (vc : Option String)
  | signinConfChalResp (tsxId : UInt64) (tk : String) (exp : UInt64)
  | nilResp (kind : NilResp) (tsxId : UInt64)
  | idResp (kind : IdResp) (tsxId id : UInt64)
  | err (tsxId : UInt64) (errcode : Int64) (errdesp : String)
  | getMyChansResp (tsxId : UInt64) (isLast : Bool) (cinfos : List ChanInfo)
  | getMyChansMetaResp (tsxId : UInt64) (cinfos : List ChanInfo)
  | getChansResp (tsxId : UInt64) (isLast : Bool) (owner : UserInfo) (cinfos : List ChanInfo)
  | getChanDtlResp (tsxId : UInt64) (owner : UserInfo) (cinfo : ChanInfo)
  | getSubChansResp (tsxId : UInt64) (isLast : Bool) (owner : UserInfo) (cinfos : List ChanInfo)
  | getPostsResp (tsxId : UInt64) (isLast : Bool) (pinfos : List PostInfo)
  | getPostsLacResp (tsxId : UInt64) (pinfos : List PostInfo)
  | getLikedPostsResp (tsxId : UInt64) (isLast : Bool) (pinfos : List PostInfo)
  | getLikedDataResp (tsxId : UInt64) (isLast : Bool) (linfos : List LikedInfo)
  | getCmtsResp (tsxId : UInt64) (isLast : Bool) (cinfos : List CmtInfo)
  | getCmtsLikesResp (tsxId : UInt64) (cinfos : List CmtInfo)
  | getStatsResp (tsxId : UInt64) (did : String) (connCs totalCs : UInt64)
  | subChanResp (tsxId : UInt64) (isLast : Bool) (owner : UserInfo) (cinfo : ChanInfo)
  | getSrvVerResp (tsxId : UInt64) (version : String) (versionCode : Int64)
  | getReportedCmtsResp (tsxId : UInt64) (isLast : Bool) (rcinfos : List ReportedCmtInfo)

namespace Message

def marshal : Message → Packed
  | .newPostNotif pinfo => rpcMarshalNewPostNotif pinfo
  | .postUpdNotif pinfo => rpcMarshalPostUpdNotif pinfo
  | .newCmtNotif cinfo => rpcMarshalNewCmtNotif cinfo
  | .cmtUpdNotif cinfo => rpcMarshalCmtUpdNotif cinfo
  | .newLikeNotif li => rpcMarshalNewLikeNotif li
  | .newSubNotif chanId uinfo => rpcMarshalNewSubNotif chanId uinfo
  | .chanUpdNotif owner cinfo => rpcMarshalChanUpdNotif owner cinfo
  | .statsChangedNotif totalCs => rpcMarshalStatsChangedNotif totalCs
  | .reportCmtNotif li => rpcMarshalReportCmtNotif li
  | .declOwnerResp tsxId phase did payload => rpcMarshalDeclOwnerResp tsxId phase did payload
  | .impDidResp tsxId did payload => rpcMarshalImpDidResp tsxId did payload
  | .signinReqChalResp tsxId vcReq jws vc => rpcMarshalSigninReqChalResp tsxId vcReq jws vc
  | .signinConfChalResp tsxId tk exp => rpcMarshalSigninConfChalResp tsxId tk exp
  | .nilResp kind tsxId => kind.marshal tsxId
  | .idResp kind tsxId id => kind.marshal tsxId id
  | .err tsxId errcode errdesp => rpcMarshalErr tsxId errcode errdesp
  | .getMyChansResp tsxId isLast cinfos => rpcMarshalGetMyChansResp tsxId isLast cinfos
  | .getMyChansMetaResp tsxId cinfos => rpcMarshalGetMyChansMetaResp tsxId cinfos
  | .getChansResp tsxId isLast owner cinfos => rpcMarshalGetChansResp tsxId isLast owner cinfos
  | .getChanDtlResp tsxId owner cinfo => rpcMarshalGetChanDtlResp tsxId owner cinfo
  | .getSubChansResp tsxId isLast owner cinfos =>
      rpcMarshalGetSubChansResp tsxId isLast owner cinfos
  | .getPostsResp tsxId isLast pinfos => rpcMarshalGetPostsResp tsxId isLast pinfos
  | .getPostsLacResp tsxId pinfos => rpcMarshalGetPostsLacResp tsxId pinfos
  | .getLikedPostsResp tsxId isLast pinfos => rpcMarshalGetLikedPostsResp tsxId isLast pinfos
  | .getLikedDataResp tsxId isLast linfos => rpcMarshalGetLikedDataResp tsxId isLast linfos
  | .getCmtsResp tsxId isLast cinfos => rpcMarshalGetCmtsResp tsxId isLast cinfos
  | .getCmtsLikesResp tsxId cinfos => rpcMarshalGetCmtsLikesResp tsxId cinfos
  | .getStatsResp tsxId did connCs totalCs => rpcMarshalGetStatsResp tsxId did connCs totalCs
  | .subChanResp tsxId isLast owner cinfo => rpcMarshalSubChanResp tsxId isLast owner cinfo
  | .getSrvVerResp tsxId version versionCode => rpcMarshalGetSrvVerResp tsxId version versionCode
  | .getReportedCmtsResp tsxId isLast rcinfos =>
      rpcMarshalGetReportedCmtsResp tsxId isLast rcinfos

/-- No blob that is packed is empty, and the two headers that count other entries than
those that are packed do not matter: there is no reason in the report of a comment, and
no comment in a list of reports. -/
def Complete : Message → Prop
  | .newPostNotif pinfo => pinfo.content ≠ [] ∧ pinfo.thumbnails ≠ []
  | .postUpdNotif pinfo => pinfo.stat = .deleted ∨ pinfo.content ≠ []
  | .newCmtNotif cinfo => cinfo.content ≠ [] ∧ cinfo.thumbnails ≠ []
  | .cmtUpdNotif cinfo => cinfo.stat = .available → cinfo.content ≠ []
  | .chanUpdNotif _ cinfo => cinfo.avatar ≠ []
  | .reportCmtNotif li => li.reasons = none
  | .declOwnerResp _ _ did tsxPayload => did.isSome = tsxPayload.isSome
  | .getMyChansResp _ _ cinfos => ∀ cinfo ∈ cinfos, cinfo.avatar ≠ []
  | .getChansResp _ _ _ cinfos => ∀ cinfo ∈ cinfos, cinfo.avatar ≠ []
  | .getChanDtlResp _ _ cinfo => cinfo.avatar ≠ []
  | .getSubChansResp _ _ _ cinfos => ∀ cinfo ∈ cinfos, cinfo.avatar ≠ []
  | .getPostsResp _ _ pinfos =>
      ∀ pinfo ∈ pinfos, pinfo.stat = .deleted ∨ (pinfo.content ≠ [] ∧ pinfo.thumbnails ≠ [])
  | .getLikedPostsResp _ _ pinfos => ∀ pinfo ∈ pinfos, pinfo.content ≠ []
  | .getCmtsResp _ _ cinfos =>
      ∀ cinfo ∈ cinfos, cinfo.stat = .available → cinfo.content ≠ [] ∧ cinfo.thumbnails ≠ []
  | .subChanResp _ _ _ cinfo => cinfo.avatar ≠ []
  | .getReportedCmtsResp _ _ rcinfos => rcinfos = []
  | _ => True

/-- Every string and every blob that is packed, and every list, has a 32-bit size. -/
def Fits : Message → Prop
  | .newPostNotif pinfo => Blob pinfo.content ∧ Blob pinfo.thumbnails ∧ Text pinfo.hashId ∧
      Text pinfo.proof ∧ Text pinfo.originPostUrl
  | .postUpdNotif pinfo => pinfo.stat = .deleted ∨ Blob pinfo.content
  | .newCmtNotif cinfo => Text cinfo.user.did ∧ Text cinfo.user.name ∧ Blob cinfo.content ∧
      Blob cinfo.thumbnails ∧ Text cinfo.hashId ∧ Text cinfo.proof
  | .cmtUpdNotif cinfo => Text cinfo.user.did ∧ Text cinfo.user.name ∧
      (cinfo.stat = .available → Blob cinfo.content)
  | .newLikeNotif li => Text li.user.name ∧ Text li.user.did ∧ Text li.proof
  | .newSubNotif _ uinfo => Text uinfo.name ∧ Text uinfo.did
  | .chanUpdNotif owner cinfo => Text cinfo.name ∧ Text cinfo.intro ∧ Text owner.name ∧
      Text owner.did ∧ Blob cinfo.avatar ∧ Text cinfo.tipMethods ∧ Text cinfo.proof
  | .statsChangedNotif _ => True
  | .reportCmtNotif li => Text li.reporter.name ∧ Text li.reporter.did ∧
      ∀ reasons ∈ li.reasons, Text reasons
  | .declOwnerResp _ phase did tsxPayload => Text phase ∧ (∀ text ∈ did, Text text) ∧
      ∀ text ∈ tsxPayload, Text text
  | .impDidResp _ did tsxPayload => Text did ∧ Text tsxPayload
  | .signinReqChalResp _ _ jws vc => Text jws ∧ ∀ text ∈ vc, Text text
  | .signinConfChalResp _ tk _ => Text tk
  | .nilResp _ _ => True
  | .idResp _ _ _ => True
  | .err _ _ errdesp => Text errdesp
  | .getMyChansResp _ _ cinfos => cinfos.length < 2 ^ 32 ∧
      ∀ cinfo ∈ cinfos, Text cinfo.name ∧ Text cinfo.intro ∧ Blob cinfo.avatar
  | .getMyChansMetaResp _ cinfos => cinfos.length < 2 ^ 32
  | .getChansResp _ _ owner cinfos => cinfos.length < 2 ^ 32 ∧
      ∀ cinfo ∈ cinfos, Text cinfo.name ∧ Text cinfo.intro ∧ Text owner.name ∧ Text owner.did ∧
        Blob cinfo.avatar ∧ Text cinfo.tipMethods ∧ Text cinfo.proof
  | .getChanDtlResp _ owner cinfo => Text cinfo.name ∧ Text cinfo.intro ∧ Text owner.name ∧
      Text owner.did ∧ Blob cinfo.avatar
  | .getSubChansResp _ _ owner cinfos => cinfos.length < 2 ^ 32 ∧
      ∀ cinfo ∈ cinfos, Text cinfo.name ∧ Text cinfo.intro ∧ Text owner.name ∧ Text owner.did ∧
        Blob cinfo.avatar ∧ Text cinfo.proof
  | .getPostsResp _ _ pinfos => pinfos.length < 2 ^ 32 ∧
      ∀ pinfo ∈ pinfos, (pinfo.stat ≠ .deleted → Blob pinfo.content ∧ Blob pinfo.thumbnails) ∧
        Text pinfo.hashId ∧ Text pinfo.proof ∧ Text pinfo.originPostUrl
  | .getPostsLacResp _ pinfos => pinfos.length < 2 ^ 32
  | .getLikedPostsResp _ _ pinfos => pinfos.length < 2 ^ 32 ∧ ∀ pinfo ∈ pinfos, Blob pinfo.content
  | .getLikedDataResp _ _ linfos => linfos.length < 2 ^ 32 ∧
      ∀ linfo ∈ linfos, Text linfo.user.did ∧ Text linfo.user.name ∧ Text linfo.proof
  | .getCmtsResp _ _ cinfos => cinfos.length < 2 ^ 32 ∧
      ∀ cinfo ∈ cinfos, Text cinfo.user.did ∧ Text cinfo.user.name ∧
        (cinfo.stat = .available → Blob cinfo.content ∧ Blob cinfo.thumbnails) ∧
        Text cinfo.hashId ∧ Text cinfo.proof
  | .getCmtsLikesResp _ cinfos => cinfos.length < 2 ^ 32
  | .getStatsResp _ did _ _ => Text did
  | .subChanResp _ _ owner cinfo => Text cinfo.name ∧ Text cinfo.intro ∧ Text owner.name ∧
      Text owner.did ∧ Blob cinfo.avatar ∧ Text cinfo.tipMethods ∧ Text cinfo.proof
  | .getSrvVerResp _ version _ => Text version
  | .getReportedCmtsResp _ _ rcinfos => rcinfos.length < 2 ^ 32 ∧
      ∀ rcinfo ∈ rcinfos, Text rcinfo.reporter.name ∧ Text rcinfo.reporter.did ∧
        Text rcinfo.reasons

/-- The headers are right exactly when nothing that they count is left out. -/
theorem honest_marshal_iff (m : Message) : m.marshal.Honest ↔ m.Complete := by
  cases m with
  | newPostNotif pinfo =>
      simp [marshal, rpcMarshalNewPostNotif, Complete]
      grind
  | postUpdNotif pinfo =>
      simp [marshal, rpcMarshalPostUpdNotif, Complete, apply_ite Packed.width,
        apply_ite Packed.Honest]
      grind
  | newCmtNotif cinfo =>
      simp [marshal, rpcMarshalNewCmtNotif, Complete]
      grind
  | cmtUpdNotif cinfo =>
      simp [marshal, rpcMarshalCmtUpdNotif, Complete, apply_ite Packed.width,
        apply_ite Packed.Honest]
      grind
  | newLikeNotif li => simp [marshal, rpcMarshalNewLikeNotif, Complete]
  | newSubNotif chanId uinfo => simp [marshal, rpcMarshalNewSubNotif, Complete]
  | chanUpdNotif owner cinfo =>
      simp [marshal, rpcMarshalChanUpdNotif, Complete]
      grind
  | statsChangedNotif totalCs => simp [marshal, rpcMarshalStatsChangedNotif, Complete]
  | reportCmtNotif li =>
      -- seven entries with the reasons, behind a header of six
      simp [marshal, rpcMarshalReportCmtNotif, Complete]
      cases li.reasons <;> simp
  | declOwnerResp tsxId phase did tsxPayload =>
      cases did <;> cases tsxPayload <;> simp [marshal, rpcMarshalDeclOwnerResp, Complete]
  | impDidResp tsxId did tsxPayload => simp [marshal, rpcMarshalImpDidResp, Complete]
  | signinReqChalResp tsxId vcReq jws vc =>
      cases vc <;> simp [marshal, rpcMarshalSigninReqChalResp, Complete]
  | signinConfChalResp tsxId tk exp => simp [marshal, rpcMarshalSigninConfChalResp, Complete]
  | nilResp kind tsxId => simp [marshal, NilResp.marshal_eq, packNilResp, Complete]
  | idResp kind tsxId id => simp [marshal, IdResp.marshal_eq, packIdResp, Complete]
  | err tsxId errcode errdesp => simp [marshal, rpcMarshalErr, Complete]
  | getMyChansResp tsxId isLast cinfos =>
      simp [marshal, rpcMarshalGetMyChansResp, Complete]
      grind
  | getMyChansMetaResp tsxId cinfos => simp [marshal, rpcMarshalGetMyChansMetaResp, Complete]
  | getChansResp tsxId isLast owner cinfos =>
      simp [marshal, rpcMarshalGetChansResp, Complete]
      grind
  | getChanDtlResp tsxId owner cinfo =>
      simp [marshal, rpcMarshalGetChanDtlResp, Complete]
      grind
  | getSubChansResp tsxId isLast owner cinfos =>
      simp [marshal, rpcMarshalGetSubChansResp, Complete]
      grind
  | getPostsResp tsxId isLast pinfos =>
      simp [marshal, rpcMarshalGetPostsResp, Complete, apply_ite Packed.width,
        apply_ite Packed.Honest]
      grind
  | getPostsLacResp tsxId pinfos => simp [marshal, rpcMarshalGetPostsLacResp, Complete]
  | getLikedPostsResp tsxId isLast pinfos =>
      simp [marshal, rpcMarshalGetLikedPostsResp, Complete]
      grind
  | getLikedDataResp tsxId isLast linfos => simp [marshal, rpcMarshalGetLikedDataResp, Complete]
  | getCmtsResp tsxId isLast cinfos =>
      simp [marshal, rpcMarshalGetCmtsResp, Complete, apply_ite Packed.width,
        apply_ite Packed.Honest]
      grind
  | getCmtsLikesResp tsxId cinfos => simp [marshal, rpcMarshalGetCmtsLikesResp, Complete]
  | getStatsResp tsxId did connCs totalCs => simp [marshal, rpcMarshalGetStatsResp, Complete]
  | subChanResp tsxId isLast owner cinfo =>
      simp [marshal, rpcMarshalSubChanResp, Complete]
      grind
  | getSrvVerResp tsxId version versionCode => simp [marshal, rpcMarshalGetSrvVerResp, Complete]
  | getReportedCmtsResp tsxId isLast rcinfos =>
      -- seven entries behind a header of eleven
      simp [marshal, rpcMarshalGetReportedCmtsResp, Complete, List.eq_nil_iff_forall_not_mem]

theorem sized_marshal_iff (m : Message) : m.marshal.Sized ↔ m.Fits := by
  cases m with
  | newPostNotif pinfo => simp +decide [marshal, rpcMarshalNewPostNotif, Fits]
  | postUpdNotif pinfo =>
      simp +decide [marshal, rpcMarshalPostUpdNotif, Fits, apply_ite Packed.Sized]
      grind
  | newCmtNotif cinfo => simp +decide [marshal, rpcMarshalNewCmtNotif, Fits]
  | cmtUpdNotif cinfo =>
      simp +decide [marshal, rpcMarshalCmtUpdNotif, Fits, apply_ite Packed.Sized]
  | newLikeNotif li => simp +decide [marshal, rpcMarshalNewLikeNotif, Fits]
  | newSubNotif chanId uinfo => simp +decide [marshal, rpcMarshalNewSubNotif, Fits]
  | chanUpdNotif owner cinfo => simp +decide [marshal, rpcMarshalChanUpdNotif, Fits]
  | statsChangedNotif totalCs => simp +decide [marshal, rpcMarshalStatsChangedNotif, Fits]
  | reportCmtNotif li =>
      cases hreasons : li.reasons <;>
        simp +decide [marshal, rpcMarshalReportCmtNotif, Fits, hreasons]
  | declOwnerResp tsxId phase did tsxPayload =>
      cases did <;> cases tsxPayload <;> simp +decide [marshal, rpcMarshalDeclOwnerResp, Fits]
  | impDidResp tsxId did tsxPayload => simp +decide [marshal, rpcMarshalImpDidResp, Fits]
  | signinReqChalResp tsxId vcReq jws vc =>
      cases vc <;> simp +decide [marshal, rpcMarshalSigninReqChalResp, Fits]
  | signinConfChalResp tsxId tk exp => simp +decide [marshal, rpcMarshalSigninConfChalResp, Fits]
  | nilResp kind tsxId => simp +decide [marshal, NilResp.marshal_eq, packNilResp, Fits]
  | idResp kind tsxId id => simp +decide [marshal, IdResp.marshal_eq, packIdResp, Fits]
  | err tsxId errcode errdesp => simp +decide [marshal, rpcMarshalErr, Fits]
  | getMyChansResp tsxId isLast cinfos => simp +decide [marshal, rpcMarshalGetMyChansResp, Fits]
  | getMyChansMetaResp tsxId cinfos => simp +decide [marshal, rpcMarshalGetMyChansMetaResp, Fits]
  | getChansResp tsxId isLast owner cinfos =>
      simp +decide [marshal, rpcMarshalGetChansResp, Fits]
  | getChanDtlResp tsxId owner cinfo => simp +decide [marshal, rpcMarshalGetChanDtlResp, Fits]
  | getSubChansResp tsxId isLast owner cinfos =>
      simp +decide [marshal, rpcMarshalGetSubChansResp, Fits]
  | getPostsResp tsxId isLast pinfos =>
      simp +decide [marshal, rpcMarshalGetPostsResp, Fits, apply_ite Packed.Sized]
      grind
  | getPostsLacResp tsxId pinfos => simp +decide [marshal, rpcMarshalGetPostsLacResp, Fits]
  | getLikedPostsResp tsxId isLast pinfos =>
      simp +decide [marshal, rpcMarshalGetLikedPostsResp, Fits]
  | getLikedDataResp tsxId isLast linfos =>
      simp +decide [marshal, rpcMarshalGetLikedDataResp, Fits]
  | getCmtsResp tsxId isLast cinfos =>
      simp +decide [marshal, rpcMarshalGetCmtsResp, Fits, apply_ite Packed.Sized]
      grind
  | getCmtsLikesResp tsxId cinfos => simp +decide [marshal, rpcMarshalGetCmtsLikesResp, Fits]
  | getStatsResp tsxId did connCs totalCs => simp +decide [marshal, rpcMarshalGetStatsResp, Fits]
  | subChanResp tsxId isLast owner cinfo => simp +decide [marshal, rpcMarshalSubChanResp, Fits]
  | getSrvVerResp tsxId version versionCode =>
      simp +decide [marshal, rpcMarshalGetSrvVerResp, Fits]
  | getReportedCmtsResp tsxId isLast rcinfos =>
      simp +decide [marshal, rpcMarshalGetReportedCmtsResp, Fits]

/-- Every message is one object. -/
theorem width_marshal (m : Message) : m.marshal.width = 1 := by
  cases m with
  | nilResp kind tsxId => cases kind <;> rfl
  | idResp kind tsxId id => cases kind <;> rfl
  | _ => rfl

end Message

end FeedsService.Rpc
