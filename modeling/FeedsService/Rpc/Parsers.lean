import FeedsService.Rpc.Object

/-!
# The request parsers of `rpc.c`

The parsers are one routine with different fields: it looks the fields up in
order, checks them, allocates one block for the request and its strings, and
copies the strings to the piece of the block reserved for each.  A parser is
given by its fields, by the structure it fills and by what it does otherwise;
the values are those of its source function, checked against `rpc.h` for the
members.

Binaries are not copied: the request points into the packet.  `alloc` tells
which blocks `rc_zalloc` grants.
-/

namespace FeedsService.Rpc

open FeedsService.Library

/-! ## Requests -/

/-- The members of the request structures behind `method` and `tsx_id`. -/
inductive Member
  | tk | nonce | ownerDid | mnemo | passphrase | idx | vc | iss | vcReq | jws
  | name | intro | avatar | tipm | proof | memo
  | uid | did | email | displayName | updAt
  | chanId | postId | cmtId | id
  | content | thumbnails | hashId | originPostUrl | withNotify
  | «by» | upper | lower | maxcnt
  | key | algo | checksum | reasons
  deriving DecidableEq

/-- A binary takes a pointer and a size, any other member one word. -/
def Member.words : Member → ℕ
  | .avatar | .content | .thumbnails => 2
  | _ => 1

/-- A request structure of `rpc.h`: the members of its `params`. -/
abbrev Struct := List Member

def Struct.sizeof (struct : Struct) : ℕ :=
  8 * (2 + (struct.map Member.words).sum)

namespace Struct

def qryCriteria : Struct := [.«by», .upper, .lower, .maxcnt]

def userInfo : Struct :=
  [.uid, .did, .name, .email, .displayName, .updAt, .memo, .avatar]

def req : Struct := []

def declOwnerReq : Struct := [.nonce, .ownerDid]

def impDIDReq : Struct := [.mnemo, .passphrase, .idx]

def issVCReq : Struct := [.vc]

def updateVCReq : Struct := [.tk, .vc]

def signinReqChalReq : Struct := [.iss, .vcReq]

def signinConfChalReq : Struct := [.jws, .vc]

def createChanReq : Struct := [.tk, .name, .intro, .avatar, .tipm, .proof]

def updChanReq : Struct := [.tk, .chanId, .name, .intro, .avatar, .tipm, .proof]

def updUserInfoReq : Struct := [.tk] ++ userInfo

def pubPostReq : Struct :=
  [.tk, .chanId, .content, .thumbnails, .hashId, .proof, .originPostUrl]

def editPostReq : Struct :=
  [.tk, .chanId, .postId, .content, .thumbnails, .hashId, .proof, .originPostUrl]

def delPostReq : Struct := [.tk, .chanId, .postId]

def postCmtReq : Struct :=
  [.tk, .chanId, .postId, .cmtId, .content, .thumbnails, .hashId, .proof]

def editCmtReq : Struct :=
  [.tk, .chanId, .postId, .id, .cmtId, .content, .thumbnails, .hashId, .proof]

def delCmtReq : Struct := [.tk, .chanId, .postId, .id]

def blockCmtReq : Struct := [.tk, .chanId, .postId, .cmtId]

def unblockCmtReq : Struct := [.tk, .chanId, .postId, .cmtId]

def postLikeReq : Struct := [.tk, .chanId, .postId, .cmtId, .proof, .memo]

def postUnlikeReq : Struct := [.tk, .chanId, .postId, .cmtId]

def getMyChansReq : Struct := [.tk] ++ qryCriteria

def getMyChansMetaReq : Struct := [.tk] ++ qryCriteria

def getChansReq : Struct := [.tk] ++ qryCriteria

def getChanDtlReq : Struct := [.tk, .id]

def getSubChansReq : Struct := [.tk] ++ qryCriteria

def getPostsReq : Struct := [.tk, .chanId] ++ qryCriteria

def getPostsLACReq : Struct := [.tk, .chanId] ++ qryCriteria

def getLikedPostsReq : Struct := [.tk] ++ qryCriteria

def getLikedDataReq : Struct := [.tk] ++ qryCriteria

def getCmtsReq : Struct := [.tk, .chanId, .postId] ++ qryCriteria

def getCmtsLikesReq : Struct := [.tk, .chanId, .postId] ++ qryCriteria

def getStatsReq : Struct := [.tk]

def subChanReq : Struct := [.tk, .id, .proof]

def unsubChanReq : Struct := [.tk, .id]

def enblNotifReq : Struct := [.tk]

def getSrvVerReq : Struct := [.tk]

def reportIllegalCmtReq : Struct := [.tk, .chanId, .postId, .cmtId, .reasons]

def getReportedCmtsReq : Struct := [.tk] ++ qryCriteria

def declarePostReq : Struct :=
  [.tk, .chanId, .content, .withNotify, .thumbnails, .hashId, .proof, .originPostUrl]

def notifyPostReq : Struct := [.tk, .chanId, .postId]

def setBinaryReq : Struct := [.tk, .key, .algo, .checksum, .content]

def getBinaryReq : Struct := [.tk, .key]

end Struct

/-- What a member holds: the buffer a `char *` points to, a number, a flag, or
the bytes a `void *` points to. -/
inductive Slot
  | str (buffer : Bytes)
  | u64 (value : UInt64)
  | bool (value : Bool)
  | bin (bytes : Bytes)
  deriving DecidableEq

/-- A request with the members that were set; the others are zero. -/
structure Req where
  method : Option Bytes
  tsxId : UInt64
  params : List (Member × Slot)
  deriving DecidableEq

/-- What a parser returns and leaves in `*req_unmarshal`. -/
structure Answer where
  rc : ℤ
  req : Option Req
  deriving DecidableEq

/-! ## Fields -/

/-- A value that was looked up. -/
inductive Value
  | str (value : Sized)
  | u64 (value : UInt64)
  | bin (value : Sized)
  | bool (value : Bool)
  deriving DecidableEq

/-- The types parameters are looked up with. -/
inductive Kind
  | str | u64 | bin | bool

def Kind.mapNxtVal (kind : Kind) (map : Option Entries) (nxtIdx : ℕ) (key : String) :
    Except Fault (Option Value × ℕ) :=
  match kind with
  | .str => (Prod.map (Option.map .str) id) <$> mapNxtValStr map nxtIdx key
  | .u64 => (Prod.map (Option.map .u64) id) <$> mapNxtValU64 map nxtIdx key
  | .bin => (Prod.map (Option.map .bin) id) <$> mapNxtValBin map nxtIdx key
  | .bool => (Prod.map (Option.map .bool) id) <$> mapNxtValBool map nxtIdx key

/-- `!value->str_sz` and `!value->bin_sz`. -/
def Value.isEmpty : Value → Bool
  | .str value => value.val.isEmpty
  | .bin value => value.val.isEmpty
  | _ => false

/-- What a parser does with a field. -/
inductive Demand
  /-- It is looked up and not used. -/
  | ignored
  /-- It is used and not checked. -/
  | unchecked
  /-- It is used when it is there. -/
  | optional
  /-- It is used when it is there and must not be empty then. -/
  | optionalNonEmpty
  | present
  | nonEmpty
  /-- It is an integer that passes the test. -/
  | valid (test : UInt64 → Bool)

structure Field where
  key : String
  member : Member
  kind : Kind
  demand : Demand

/-- The parser's check of the field does not fail. -/
def Field.passes (field : Field) (value : Option Value) : Bool :=
  match field.demand, value with
  | .ignored, _ | .unchecked, _ | .optional, _ => true
  | .optionalNonEmpty, none => true
  | .optionalNonEmpty, some value => !value.isEmpty
  | .present, value => value.isSome
  | .nonEmpty, some value => !value.isEmpty
  | .valid test, some (.u64 value) => test value
  | _, _ => false

def chanIdStart : UInt64 := 1

def postIdStart : UInt64 := 1

def cmtIdStart : UInt64 := 1

def createdAt : UInt64 := 3

def chanIdIsValid (id : UInt64) : Bool := chanIdStart ≤ id

def postIdIsValid (id : UInt64) : Bool := postIdStart ≤ id

def cmtIdIsValid (id : UInt64) : Bool := cmtIdStart ≤ id

def qryFldIsValid (qf : UInt64) : Bool := qf ≤ createdAt

namespace Field

def str (key : String) (member : Member) : Field := ⟨key, member, .str, .nonEmpty⟩

def bin (key : String) (member : Member) : Field := ⟨key, member, .bin, .nonEmpty⟩

def u64 (key : String) (member : Member) : Field := ⟨key, member, .u64, .present⟩

def bool (key : String) (member : Member) : Field := ⟨key, member, .bool, .present⟩

def chanId (key : String) (member : Member) : Field :=
  ⟨key, member, .u64, .valid chanIdIsValid⟩

def postId (key : String) : Field := ⟨key, .postId, .u64, .valid postIdIsValid⟩

def cmtId (key : String) (member : Member) : Field :=
  ⟨key, member, .u64, .valid cmtIdIsValid⟩

def accessToken : Field := str "access_token" .tk

def qryCriteria : List Field :=
  [⟨"by", .«by», .u64, .valid qryFldIsValid⟩, u64 "upper_bound" .upper,
    u64 "lower_bound" .lower, u64 "max_count" .maxcnt]

end Field

/-! ## The routine of the parsers -/

/-- What the parsers of version 1.0 put into the members of version 2.0. -/
inductive Default
  | str (text : String)
  | bin (bytes : Bytes)

/-- A parser: the fields it looks up in `params`, the structure `tmp` points
to, the structure whose size it allocates, the bytes it reserves for defaults,
whether it adds the sizes up in an `int`, and whether it sets `tmp->method`. -/
structure ReqHdlr where
  params : List Field
  struct : Struct
  allocated : Struct := struct
  spare : ℕ := 0
  defaults : List (Member × Default) := []
  intStrSize : Bool := false
  setsMethod : Bool := true

/-- The sum is taken in 32 bits. -/
def strReserveSpc (str : Option Sized) : ℕ :=
  match str with
  | some str => (str.val.length + 1) % 2 ^ 32
  | none => 0

def Value.text : Value → Option Sized
  | .str text => some text
  | _ => none

/-- The string of a field that the parser copies. -/
def Field.copied (field : Field) (value : Option Value) : Option Sized :=
  match field.demand with
  | .ignored => none
  | _ => value.bind Value.text

def ReqHdlr.strSize (parser : ReqHdlr) (method : Option Sized) (values : List (Option Value)) :
    ℕ :=
  strReserveSpc method +
    ((parser.params.zip values).map fun (field, value) =>
      strReserveSpc (field.copied value)).sum +
    parser.spare

/-- The size passed to `rc_zalloc`. -/
def ReqHdlr.blockSize (parser : ReqHdlr) (method : Option Sized)
    (values : List (Option Value)) : ℕ :=
  let strSize : ℤ := parser.strSize method values
  toUInt64 (parser.allocated.sizeof + if parser.intStrSize then toInt32 strSize else strSize)

def lookUp (map : Option Entries) : List Field → ℕ → Except Fault (List (Option Value))
  | [], _ => return []
  | field :: fields, nxtIdx => do
    let (value, nxtIdx) ← field.kind.mapNxtVal map nxtIdx field.key
    let values ← lookUp map fields nxtIdx
    return value :: values

/-- The assignment of one member. -/
def Value.store (member : Member) (arena : Arena) :
    Value → Except Fault (Arena × List (Member × Slot))
  | .str text => do
    let (arena, buffer) ← arena.copy (strReserveSpc (some text)) text.val
    return (arena, [(member, .str buffer)])
  | .u64 value => return (arena, [(member, .u64 value)])
  | .bool value => return (arena, [(member, .bool value)])
  | .bin bytes => return (arena, [(member, .bin bytes.val)])

def Field.store (field : Field) (value : Option Value) (arena : Arena) :
    Except Fault (Arena × List (Member × Slot)) :=
  match field.demand, value with
  | .ignored, _ | .optional, none | .optionalNonEmpty, none => return (arena, [])
  | _, none => throw .nullDereference
  | _, some value => value.store field.member arena

def storeParams : List (Field × Option Value) → Arena →
    Except Fault (Arena × List (Member × Slot))
  | [], arena => return (arena, [])
  | (field, value) :: rest, arena => do
    let (arena, slot) ← field.store value arena
    let (arena, slots) ← storeParams rest arena
    return (arena, slot ++ slots)

/-- `strcpy(buf, text)` or `memcpy(buf, bytes, size)`. -/
def Default.slot : Default → Slot
  | .str text => .str (literal text)
  | .bin bytes => .bin bytes

def Default.size : Default → ℕ
  | .str text => (literal text).length
  | .bin bytes => bytes.length

def storeDefaults : List (Member × Default) → Arena →
    Except Fault (Arena × List (Member × Slot))
  | [], arena => return (arena, [])
  | (member, value) :: rest, arena => do
    let arena ← arena.carve value.size
    let (arena, slots) ← storeDefaults rest arena
    return (arena, (member, value.slot) :: slots)

def ReqHdlr.storeMethod (parser : ReqHdlr) (method : Option Sized) (arena : Arena) :
    Except Fault (Arena × Option Bytes) :=
  if parser.setsMethod then
    match method with
    | some method => do
      let (arena, buffer) ← arena.copy (strReserveSpc (some method)) method.val
      return (arena, some buffer)
    | none => throw .nullDereference
  else return (arena, none)

/-- The check, the allocation and the copies. -/
def ReqHdlr.fill (parser : ReqHdlr) (alloc : ℕ → Bool) (method : Option Sized)
    (tsxId : Option UInt64) (values : List (Option Value)) : Except Fault Answer := do
  if !(parser.params.zip values).all fun (field, value) => field.passes value then
    return { rc := -1, req := none }
  let size := parser.blockSize method values
  if !alloc size then
    return { rc := -1, req := none }
  let (arena, methodBuf) ← parser.storeMethod method { size, used := parser.struct.sizeof }
  let some tsxId := tsxId | throw .nullDereference
  let (arena, set) ← storeParams (parser.params.zip values) arena
  let (_, defaults) ← storeDefaults parser.defaults arena
  return { rc := 0, req := some { method := methodBuf, tsxId, params := set ++ defaults } }

/-- The fields before `params`, and the index after them. -/
structure Header where
  version : Option Sized
  method : Option Sized
  tsxId : Option UInt64
  nxtIdx : ℕ

def lookUpHeader (map : Entries) : Except Fault Header := do
  let (version, nxtIdx) ← mapNxtValStr (some map) 0 "version"
  let (method, nxtIdx) ← mapNxtValStr (some map) nxtIdx "method"
  let (tsxId, nxtIdx) ← mapNxtValU64 (some map) nxtIdx "id"
  return { version, method, tsxId, nxtIdx }

def ReqHdlr.unmarshal (parser : ReqHdlr) (alloc : ℕ → Bool) (req : Entries) :
    Except Fault Answer := do
  let header ← lookUpHeader req
  let (params, _) ← mapNxtValMap (some req) header.nxtIdx "params"
  let values ← lookUp params parser.params 0
  parser.fill alloc header.method header.tsxId values

/-! ## The parsers -/

def unmarshalDeclOwnerReq : ReqHdlr where
  params := [.str "nonce" .nonce, .str "owner_did" .ownerDid]
  struct := .declOwnerReq

def unmarshalImpDidReq : ReqHdlr where
  params :=
    [⟨"mnemonic", .mnemo, .str, .optional⟩, ⟨"passphrase", .passphrase, .str, .optional⟩,
      ⟨"index", .idx, .u64, .optional⟩]
  struct := .impDIDReq

def unmarshalIssVcReq : ReqHdlr where
  params := [.str "credential" .vc]
  struct := .issVCReq

def unmarshalUpdateVcReq : ReqHdlr where
  params := [.accessToken, .str "credential" .vc]
  struct := .updateVCReq

def unmarshalSigninReqChalReq : ReqHdlr where
  params := [.str "iss" .iss, .bool "credential_required" .vcReq]
  struct := .signinReqChalReq

def unmarshalSigninConfChalReq : ReqHdlr where
  params := [.str "jws" .jws, ⟨"credential", .vc, .str, .optionalNonEmpty⟩]
  struct := .signinConfChalReq

def unmarshalCreateChanReq : ReqHdlr where
  params :=
    [.accessToken, .str "name" .name, .str "introduction" .intro, .bin "avatar" .avatar]
  struct := .createChanReq
  spare := 6
  defaults := [(.tipm, .str "NA"), (.proof, .str "NA")]

def unmarshalCreateChanReq2 : ReqHdlr where
  params :=
    [.accessToken, .str "name" .name, .str "introduction" .intro, .bin "avatar" .avatar,
      .str "tip_methods" .tipm, .str "proof" .proof]
  struct := .createChanReq

/-- It does not set `tmp->method`. -/
def unmarshalUpdUserInfoReq : ReqHdlr where
  params :=
    [.accessToken, .str "name" .name, .str "email" .email,
      .str "display_name" .displayName, .bin "avatar" .avatar]
  struct := .updUserInfoReq
  setsMethod := false

def unmarshalUpdChanReq : ReqHdlr where
  params :=
    [.accessToken, .chanId "id" .chanId, .str "name" .name, .str "introduction" .intro,
      .bin "avatar" .avatar]
  struct := .updChanReq
  spare := 6
  defaults := [(.tipm, .str "NA"), (.proof, .str "NA")]

def unmarshalUpdChanReq2 : ReqHdlr where
  params :=
    [.accessToken, .chanId "id" .chanId, .str "name" .name, .str "introduction" .intro,
      .bin "avatar" .avatar, .str "tip_methods" .tipm, .str "proof" .proof]
  struct := .updChanReq

def unmarshalPubPostReq : ReqHdlr where
  params := [.accessToken, .chanId "channel_id" .chanId, .bin "content" .content]
  struct := .pubPostReq
  spare := 10
  defaults := [(.hashId, .str "NA"), (.proof, .str "NA"), (.originPostUrl, .str "NA"),
    (.thumbnails, .bin [0xA0])]

def unmarshalPubPostReq2 : ReqHdlr where
  params :=
    [.accessToken, .chanId "channel_id" .chanId, .bin "content" .content,
      .bin "thumbnails" .thumbnails, .str "hash_id" .hashId, .str "proof" .proof,
      .str "origin_post_url" .originPostUrl]
  struct := .pubPostReq

/-- `with_notify` is not checked, here and in the parser of version 2.0. -/
def unmarshalDeclarePostReq : ReqHdlr where
  params :=
    [.accessToken, .chanId "channel_id" .chanId, .bin "content" .content,
      ⟨"with_notify", .withNotify, .bool, .unchecked⟩]
  struct := .declarePostReq
  spare := 10
  defaults := [(.hashId, .str "NA"), (.proof, .str "NA"), (.originPostUrl, .str "NA"),
    (.thumbnails, .bin [0xA0])]

def unmarshalDeclarePostReq2 : ReqHdlr where
  params :=
    [.accessToken, .chanId "channel_id" .chanId, .bin "content" .content,
      ⟨"with_notify", .withNotify, .bool, .unchecked⟩, .bin "thumbnails" .thumbnails,
      .str "hash_id" .hashId, .str "proof" .proof, .str "origin_post_url" .originPostUrl]
  struct := .declarePostReq

def unmarshalNotifyPostReq : ReqHdlr where
  params := [.accessToken, .chanId "channel_id" .chanId, .postId "post_id"]
  struct := .notifyPostReq

def unmarshalEditPostReq : ReqHdlr where
  params := [.accessToken, .chanId "channel_id" .chanId, .postId "id", .bin "content" .content]
  struct := .editPostReq
  spare := 10
  defaults := [(.hashId, .str "NA"), (.proof, .str "NA"), (.originPostUrl, .str "NA"),
    (.thumbnails, .bin [0xA0])]

def unmarshalEditPostReq2 : ReqHdlr where
  params :=
    [.accessToken, .chanId "channel_id" .chanId, .postId "id", .bin "content" .content,
      .bin "thumbnails" .thumbnails, .str "hash_id" .hashId, .str "proof" .proof,
      .str "origin_post_url" .originPostUrl]
  struct := .editPostReq

def unmarshalDelPostReq : ReqHdlr where
  params := [.accessToken, .chanId "channel_id" .chanId, .postId "id"]
  struct := .delPostReq

def unmarshalPostCmtReq : ReqHdlr where
  params :=
    [.accessToken, .chanId "channel_id" .chanId, .postId "post_id",
      .u64 "comment_id" .cmtId, .bin "content" .content]
  struct := .postCmtReq
  spare := 7
  defaults := [(.hashId, .str "NA"), (.proof, .str "NA"), (.thumbnails, .bin [0xA0])]

def unmarshalPostCmtReq2 : ReqHdlr where
  params :=
    [.accessToken, .chanId "channel_id" .chanId, .postId "post_id",
      .u64 "comment_id" .cmtId, .bin "content" .content, .bin "thumbnails" .thumbnails,
      .str "hash_id" .hashId, .str "proof" .proof]
  struct := .postCmtReq

def unmarshalEditCmtReq : ReqHdlr where
  params :=
    [.accessToken, .chanId "channel_id" .chanId, .postId "post_id", .cmtId "id" .id,
      .u64 "comment_id" .cmtId, .bin "content" .content]
  struct := .editCmtReq
  spare := 7
  defaults := [(.hashId, .str "NA"), (.proof, .str "NA"), (.thumbnails, .bin [0xA0])]

def unmarshalEditCmtReq2 : ReqHdlr where
  params :=
    [.accessToken, .chanId "channel_id" .chanId, .postId "post_id", .cmtId "id" .id,
      .u64 "comment_id" .cmtId, .bin "content" .content, .bin "thumbnails" .thumbnails,
      .str "hash_id" .hashId, .str "proof" .proof]
  struct := .editCmtReq

def unmarshalDelCmtReq : ReqHdlr where
  params := [.accessToken, .chanId "channel_id" .chanId, .postId "post_id", .cmtId "id" .id]
  struct := .delCmtReq

def unmarshalBlockCmtReq : ReqHdlr where
  params :=
    [.accessToken, .chanId "channel_id" .chanId, .postId "post_id",
      .cmtId "comment_id" .cmtId]
  struct := .blockCmtReq

def unmarshalUnblockCmtReq : ReqHdlr where
  params :=
    [.accessToken, .chanId "channel_id" .chanId, .postId "post_id",
      .cmtId "comment_id" .cmtId]
  struct := .unblockCmtReq

def unmarshalPostLikeReq : ReqHdlr where
  params :=
    [.accessToken, .chanId "channel_id" .chanId, .postId "post_id",
      .u64 "comment_id" .cmtId]
  struct := .postLikeReq
  spare := 3
  defaults := [(.proof, .str "NA")]

def unmarshalPostLikeReq2 : ReqHdlr where
  params :=
    [.accessToken, .chanId "channel_id" .chanId, .postId "post_id",
      .u64 "comment_id" .cmtId, .str "proof" .proof]
  struct := .postLikeReq

/-- The block is the size of a `PostUnlikeReq` and is filled as a `PostLikeReq`. -/
def unmarshalPostUnlikeReq : ReqHdlr where
  params :=
    [.accessToken, .chanId "channel_id" .chanId, .postId "post_id",
      .u64 "comment_id" .cmtId]
  struct := .postLikeReq
  allocated := .postUnlikeReq

def unmarshalGetMyChansReq : ReqHdlr where
  params := [.accessToken] ++ Field.qryCriteria
  struct := .getMyChansReq

def unmarshalGetMyChansMetaReq : ReqHdlr where
  params := [.accessToken] ++ Field.qryCriteria
  struct := .getMyChansMetaReq

def unmarshalGetChansReq : ReqHdlr where
  params := [.accessToken] ++ Field.qryCriteria
  struct := .getChansReq

def unmarshalGetChanDtlReq : ReqHdlr where
  params := [.accessToken, .chanId "id" .id]
  struct := .getChanDtlReq

def unmarshalGetSubChansReq : ReqHdlr where
  params := [.accessToken] ++ Field.qryCriteria
  struct := .getSubChansReq

def unmarshalGetPostsReq : ReqHdlr where
  params := [.accessToken, .chanId "channel_id" .chanId] ++ Field.qryCriteria
  struct := .getPostsReq

def unmarshalGetPostsLacReq : ReqHdlr where
  params := [.accessToken, .chanId "channel_id" .chanId] ++ Field.qryCriteria
  struct := .getPostsLACReq

def unmarshalGetLikedPostsReq : ReqHdlr where
  params := [.accessToken] ++ Field.qryCriteria
  struct := .getLikedPostsReq

def unmarshalGetLikedDataReq : ReqHdlr where
  params := [.accessToken] ++ Field.qryCriteria
  struct := .getLikedDataReq

def unmarshalGetCmtsReq : ReqHdlr where
  params :=
    [.accessToken, .chanId "channel_id" .chanId, .postId "post_id"] ++ Field.qryCriteria
  struct := .getCmtsReq

def unmarshalGetCmtsLikesReq : ReqHdlr where
  params :=
    [.accessToken, .chanId "channel_id" .chanId, .postId "post_id"] ++ Field.qryCriteria
  struct := .getCmtsLikesReq

def unmarshalGetStatsReq : ReqHdlr where
  params := [.accessToken]
  struct := .getStatsReq

def unmarshalSubChanReq : ReqHdlr where
  params := [.accessToken, .chanId "id" .id]
  struct := .subChanReq
  spare := 3
  defaults := [(.proof, .str "NA")]

def unmarshalSubChanReq2 : ReqHdlr where
  params := [.accessToken, .chanId "id" .id, .str "proof" .proof]
  struct := .subChanReq

def unmarshalUnsubChanReq : ReqHdlr where
  params := [.accessToken, .chanId "id" .id]
  struct := .unsubChanReq

def unmarshalEnblNotifReq : ReqHdlr where
  params := [.accessToken]
  struct := .enblNotifReq

/-- `algo` and `checksum` are not checked. -/
def unmarshalSetBinaryReq : ReqHdlr where
  params :=
    [.accessToken, .str "key" .key, ⟨"algo", .algo, .str, .unchecked⟩,
      ⟨"checksum", .checksum, .str, .unchecked⟩, ⟨"content", .content, .bin, .optional⟩]
  struct := .setBinaryReq

def unmarshalGetBinaryReq : ReqHdlr where
  params := [.accessToken, .str "key" .key]
  struct := .getBinaryReq
  intStrSize := true

/-- The access token is looked up and dropped. -/
def unmarshalGetSrvVerReq : ReqHdlr where
  params := [⟨"access_token", .tk, .str, .ignored⟩]
  struct := .getSrvVerReq
  intStrSize := true

def unmarshalReportIllegalCmtReq : ReqHdlr where
  params :=
    [.accessToken, .chanId "channel_id" .chanId, .postId "post_id",
      .u64 "comment_id" .cmtId, .str "reasons" .reasons]
  struct := .reportIllegalCmtReq

def unmarshalGetReportedCmtsReq : ReqHdlr where
  params := [.accessToken] ++ Field.qryCriteria
  struct := .getReportedCmtsReq

/-- It looks nothing up in `params`. -/
def unmarshalUnknownReq : ReqHdlr where
  params := []
  struct := .req

/-! ## The tables -/

structure ReqParser where
  method : String
  parser : ReqHdlr

def reqParsers10 : List ReqParser :=
  [⟨"declare_owner", unmarshalDeclOwnerReq⟩,
   ⟨"import_did", unmarshalImpDidReq⟩,
   ⟨"issue_credential", unmarshalIssVcReq⟩,
   ⟨"update_credential", unmarshalUpdateVcReq⟩,
   ⟨"signin_request_challenge", unmarshalSigninReqChalReq⟩,
   ⟨"signin_confirm_challenge", unmarshalSigninConfChalReq⟩,
   ⟨"create_channel", unmarshalCreateChanReq⟩,
   ⟨"update_feedinfo", unmarshalUpdChanReq⟩,
   ⟨"update_user_info", unmarshalUpdUserInfoReq⟩,
   ⟨"publish_post", unmarshalPubPostReq⟩,
   ⟨"declare_post", unmarshalDeclarePostReq⟩,
   ⟨"notify_post", unmarshalNotifyPostReq⟩,
   ⟨"edit_post", unmarshalEditPostReq⟩,
   ⟨"delete_post", unmarshalDelPostReq⟩,
   ⟨"post_comment", unmarshalPostCmtReq⟩,
   ⟨"edit_comment", unmarshalEditCmtReq⟩,
   ⟨"delete_comment", unmarshalDelCmtReq⟩,
   ⟨"block_comment", unmarshalBlockCmtReq⟩,
   ⟨"unblock_comment", unmarshalUnblockCmtReq⟩,
   ⟨"post_like", unmarshalPostLikeReq⟩,
   ⟨"post_unlike", unmarshalPostUnlikeReq⟩,
   ⟨"get_my_channels", unmarshalGetMyChansReq⟩,
   ⟨"get_my_channels_metadata", unmarshalGetMyChansMetaReq⟩,
   ⟨"get_channels", unmarshalGetChansReq⟩,
   ⟨"get_channel_detail", unmarshalGetChanDtlReq⟩,
   ⟨"get_subscribed_channels", unmarshalGetSubChansReq⟩,
   ⟨"get_posts", unmarshalGetPostsReq⟩,
   ⟨"get_posts_likes_and_comments", unmarshalGetPostsLacReq⟩,
   ⟨"get_liked_posts", unmarshalGetLikedPostsReq⟩,
   ⟨"get_liked_data", unmarshalGetLikedDataReq⟩,
   ⟨"get_comments", unmarshalGetCmtsReq⟩,
   ⟨"get_comments_likes", unmarshalGetCmtsLikesReq⟩,
   ⟨"get_statistics", unmarshalGetStatsReq⟩,
   ⟨"subscribe_channel", unmarshalSubChanReq⟩,
   ⟨"unsubscribe_channel", unmarshalUnsubChanReq⟩,
   ⟨"enable_notification", unmarshalEnblNotifReq⟩,
   ⟨"set_binary", unmarshalSetBinaryReq⟩,
   ⟨"get_binary", unmarshalGetBinaryReq⟩,
   ⟨"get_service_version", unmarshalGetSrvVerReq⟩,
   ⟨"report_illegal_comment", unmarshalReportIllegalCmtReq⟩,
   ⟨"get_reported_comments", unmarshalGetReportedCmtsReq⟩]

def reqParsers20 : List ReqParser :=
  [⟨"declare_owner", unmarshalDeclOwnerReq⟩,
   ⟨"import_did", unmarshalImpDidReq⟩,
   ⟨"issue_credential", unmarshalIssVcReq⟩,
   ⟨"update_credential", unmarshalUpdateVcReq⟩,
   ⟨"signin_request_challenge", unmarshalSigninReqChalReq⟩,
   ⟨"signin_confirm_challenge", unmarshalSigninConfChalReq⟩,
   ⟨"create_channel", unmarshalCreateChanReq2⟩,
   ⟨"update_feedinfo", unmarshalUpdChanReq2⟩,
   ⟨"update_user_info", unmarshalUpdUserInfoReq⟩,
   ⟨"publish_post", unmarshalPubPostReq2⟩,
   ⟨"declare_post", unmarshalDeclarePostReq2⟩,
   ⟨"notify_post", unmarshalNotifyPostReq⟩,
   ⟨"edit_post", unmarshalEditPostReq2⟩,
   ⟨"delete_post", unmarshalDelPostReq⟩,
   ⟨"post_comment", unmarshalPostCmtReq2⟩,
   ⟨"edit_comment", unmarshalEditCmtReq2⟩,
   ⟨"delete_comment", unmarshalDelCmtReq⟩,
   ⟨"block_comment", unmarshalBlockCmtReq⟩,
   ⟨"unblock_comment", unmarshalUnblockCmtReq⟩,
   ⟨"post_like", unmarshalPostLikeReq2⟩,
   ⟨"post_unlike", unmarshalPostUnlikeReq⟩,
   ⟨"get_my_channels", unmarshalGetMyChansReq⟩,
   ⟨"get_my_channels_metadata", unmarshalGetMyChansMetaReq⟩,
   ⟨"get_channels", unmarshalGetChansReq⟩,
   ⟨"get_channel_detail", unmarshalGetChanDtlReq⟩,
   ⟨"get_subscribed_channels", unmarshalGetSubChansReq⟩,
   ⟨"get_posts", unmarshalGetPostsReq⟩,
   ⟨"get_posts_likes_and_comments", unmarshalGetPostsLacReq⟩,
   ⟨"get_liked_posts", unmarshalGetLikedPostsReq⟩,
   ⟨"get_liked_data", unmarshalGetLikedDataReq⟩,
   ⟨"get_comments", unmarshalGetCmtsReq⟩,
   ⟨"get_comments_likes", unmarshalGetCmtsLikesReq⟩,
   ⟨"get_statistics", unmarshalGetStatsReq⟩,
   ⟨"subscribe_channel", unmarshalSubChanReq2⟩,
   ⟨"unsubscribe_channel", unmarshalUnsubChanReq⟩,
   ⟨"enable_notification", unmarshalEnblNotifReq⟩,
   ⟨"set_binary", unmarshalSetBinaryReq⟩,
   ⟨"get_binary", unmarshalGetBinaryReq⟩,
   ⟨"get_service_version", unmarshalGetSrvVerReq⟩,
   ⟨"report_illegal_comment", unmarshalReportIllegalCmtReq⟩,
   ⟨"get_reported_comments", unmarshalGetReportedCmtsReq⟩]

/-! ## Dispatch -/

/-- "Unsupported version field." -/
def unsupportedVersion (alloc : ℕ → Bool) (obj : Entries) : Except Fault Answer := do
  let unknown ← unmarshalUnknownReq.unmarshal alloc obj
  return { rc := -3, req := unknown.req }

/-- "Not a valid method." -/
def invalidMethod (alloc : ℕ → Bool) (obj : Entries) : Except Fault Answer := do
  let unknown ← unmarshalUnknownReq.unmarshal alloc obj
  return { rc := if unknown.rc < 0 then -1 else -2, req := unknown.req }

/-- The loop over the table, with what follows it. -/
def dispatchReq (alloc : ℕ → Bool) (obj : Entries) (methodStr : Bytes) :
    List ReqParser → Except Fault Answer
  | [] => invalidMethod alloc obj
  | entry :: entries => do
    if ← strcmp methodStr (literal entry.method) then entry.parser.unmarshal alloc obj
    else dispatchReq alloc obj methodStr entries

/-- The size of `method_str`. -/
def methodStrSize : ℕ := 1024

/-- `none` is a packet that does not decode. -/
def rpcUnmarshalReq (alloc : ℕ → Bool) (decoded : Option Object) : Except Fault Answer := do
  let some (.map obj) := decoded | return { rc := -1, req := none }
  let header ← lookUpHeader obj
  match header.version, header.method, header.tsxId with
  | some version, some method, some _ =>
    if version.val.isEmpty || method.val.isEmpty then
      return { rc := -1, req := none }
    let methodStr ← strncpy (zeroed methodStrSize) method.val method.val.length
    if ← memcmp version.val (literal "1.0") version.val.length then
      dispatchReq alloc obj methodStr reqParsers10
    else if ← memcmp version.val (literal "2.0") version.val.length then
      dispatchReq alloc obj methodStr reqParsers20
    else unsupportedVersion alloc obj
  | _, _, _ => return { rc := -1, req := none }

end FeedsService.Rpc
