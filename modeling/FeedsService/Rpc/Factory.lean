import FeedsService.Library.Fallible
import FeedsService.Rpc.Object

/-!
# Requests of `Rpc::Factory`

What `Factory::Unmarshal` makes of a packet.  It asks msgpack-c++ to unpack
the packet, to turn the root into a dictionary and to fill a structure with
the members `MSGPACK_DEFINE` lists; each of these throws on what it cannot
convert, and nothing on the way catches.
-/

namespace FeedsService.Rpc

open FeedsService.Library

/-- What keeps a call from returning: an exception leaves it, or it reads or
writes where it must not. -/
inductive Stop
  | thrown
  | fault (fault : Fault)
  deriving DecidableEq

/-- A conversion of msgpack-c++, which throws when it gives nothing. -/
def orThrow {α : Type} (value : Option α) : Except Stop α :=
  match value with
  | some value => .ok value
  | none => .error .thrown

/-- What a dictionary has under a key. -/
abbrev Dict := Bytes → Option Object

/-- msgpack-c++ and msgpack-c, as far as a packet gets to them. -/
structure MsgPack where
  /-- `msgpack::unpack`, which throws on truncated and on malformed bytes. -/
  unpack : Bytes → Option Object
  /-- `object::as<Dict>()`, which throws on a key that is no string. -/
  asDict : Object → Option Dict
  /-- `object::as<std::string>()` -/
  asString : Object → Option Bytes
  /-- `object::as<int64_t>()`, which throws on an integer that does not fit. -/
  asInt64 : Object → Option ℤ
  /-- The members a structure of `MSGPACK_DEFINE` is filled from, when the
  object is a map. -/
  kvmap : Object → Option Dict
  /-- `msgpack_unpack_next` -/
  unpackNext : Bytes → Option Object

/-! ## Structures -/

/-- A member of a request structure. -/
inductive Datum
  | string (value : Bytes)
  | int64 (value : ℤ)
  deriving DecidableEq

/-- The members of a structure, with the values they are constructed with. -/
abbrev Schema := List (String × Datum)

inductive RequestClass
  | request
  | standardSignIn
  | standardDidAuth
  | getMultiComments
  | getMultiLikesAndCommentsCount
  | getMultiSubscribersCount
  deriving DecidableEq

/-- The members of `Params`; the class `Request` has none. -/
def RequestClass.params : RequestClass → Option Schema
  | .request => none
  | .standardSignIn => some [("document", .string [])]
  | .standardDidAuth => some [("user_name", .string []), ("jwt_vp", .string [])]
  | .getMultiComments | .getMultiLikesAndCommentsCount =>
    some [("access_token", .string []), ("channel_id", .int64 (-1)), ("post_id", .int64 (-1)),
      ("by", .int64 (-1)), ("upper_bound", .int64 (-1)), ("lower_bound", .int64 (-1)),
      ("max_count", .int64 (-1))]
  | .getMultiSubscribersCount =>
    some [("access_token", .string []), ("channel_id", .int64 (-1))]

structure Request where
  kind : RequestClass
  version : Bytes := []
  method : Bytes := []
  id : ℤ := -1
  params : List Datum := []
  deriving DecidableEq

section Unpack

variable (msgpack : MsgPack)

/-- A member keeps its value when the key is missing. -/
def Dict.member {α : Type} (dict : Dict) (name : String) (initial : α)
    (convert : Object → Except Stop α) : Except Stop α :=
  match dict (bytesOf name) with
  | none => .ok initial
  | some object => convert object

def Datum.convert (initial : Datum) (object : Object) : Except Stop Datum :=
  match initial with
  | .string _ => Datum.string <$> orThrow (msgpack.asString object)
  | .int64 _ => Datum.int64 <$> orThrow (msgpack.asInt64 object)

def Schema.convert (dict : Dict) : Schema → Except Stop (List Datum)
  | [] => .ok []
  | (name, initial) :: schema => do
    let value ← dict.member name initial (initial.convert msgpack)
    let values ← Schema.convert dict schema
    return value :: values

/-- `convert` to `Params`. -/
def Schema.unpack (schema : Schema) (object : Object) : Except Stop (List Datum) := do
  let dict ← orThrow (msgpack.kvmap object)
  schema.convert msgpack dict

/-- `Request::unpack` of a class: the members are `version`, `method`, `id`
and, but for `Request` itself, `params`. -/
def RequestClass.unpack (kind : RequestClass) (root : Object) : Except Stop Request := do
  let dict ← orThrow (msgpack.kvmap root)
  let version ← dict.member "version" [] (orThrow ∘ msgpack.asString)
  let method ← dict.member "method" [] (orThrow ∘ msgpack.asString)
  let id ← dict.member "id" (-1) (orThrow ∘ msgpack.asInt64)
  match kind.params with
  | none => return { kind, version, method, id }
  | some schema =>
    let params ← dict.member "params" (schema.map Prod.snd) (schema.unpack msgpack)
    return { kind, version, method, id, params }

end Unpack

/-! ## `Factory` -/

def ErrCode.unimplementedError : ℤ := -102

def ErrCode.msgPackInvalidStruct : ℤ := -231

def ErrCode.msgPackInvalidValue : ℤ := -232

def ErrCode.msgPackParseFailed : ℤ := -233

namespace Factory

def makeRequest (method : Bytes) : Option RequestClass :=
  if method = bytesOf "standard_sign_in" then some .standardSignIn
  else if method = bytesOf "standard_did_auth" then some .standardDidAuth
  else if method = bytesOf "get_multi_comments" then some .getMultiComments
  else if method = bytesOf "get_multi_likes_and_comments_count" then
    some .getMultiLikesAndCommentsCount
  else if method = bytesOf "get_multi_subscribers_count" then some .getMultiSubscribersCount
  else none

/-- The code that is returned, and the request. -/
def unmarshal (msgpack : MsgPack) (data : Bytes) : Except Stop (ℤ × Option Request) := do
  let mpRoot ← orThrow (msgpack.unpack data)
  if mpRoot.asMap.isNone then return (ErrCode.msgPackInvalidStruct, none)
  let root ← orThrow (msgpack.asDict mpRoot)
  let some methodVal := root (bytesOf "method") | return (ErrCode.msgPackInvalidStruct, none)
  if methodVal.asStr.isNone then return (ErrCode.msgPackInvalidValue, none)
  let method ← orThrow (msgpack.asString methodVal)
  if method.isEmpty then return (ErrCode.msgPackInvalidValue, none)
  let made := makeRequest method
  let processed := if made.isSome then 0 else ErrCode.unimplementedError
  let request ← (made.getD .request).unpack msgpack mpRoot
  if request.method.isEmpty then return (ErrCode.msgPackParseFailed, some request)
  return (processed, some request)

end Factory

/-! ## What converts -/

@[simp]
theorem orThrow_eq_ok {α : Type} {value : Option α} {result : α} :
    orThrow value = .ok result ↔ value = some result := by
  cases value with
  | none => simp [orThrow]
  | some value => simp [orThrow]

theorem returns_orThrow_iff {α : Type} {value : Option α} :
    Returns (orThrow value) ↔ value.isSome = true := by
  simp only [Returns, orThrow_eq_ok, Option.isSome_iff_exists]

section Typed

variable (msgpack : MsgPack)

/-- The conversion to the type of the member does not throw. -/
def Datum.accepts (initial : Datum) (object : Object) : Bool :=
  match initial with
  | .string _ => (msgpack.asString object).isSome
  | .int64 _ => (msgpack.asInt64 object).isSome

/-- What the dictionary has for a member is of its type. -/
def Schema.Typed (schema : Schema) (dict : Dict) : Prop :=
  ∀ member ∈ schema, ∀ object ∈ dict (bytesOf member.1),
    member.2.accepts msgpack object = true

/-- The root is a map with members of the types of the class. -/
def RequestClass.Typed (kind : RequestClass) (root : Object) : Prop :=
  ∃ dict, msgpack.kvmap root = some dict ∧
    (∀ object ∈ dict (bytesOf "version"), (msgpack.asString object).isSome = true) ∧
    (∀ object ∈ dict (bytesOf "method"), (msgpack.asString object).isSome = true) ∧
    (∀ object ∈ dict (bytesOf "id"), (msgpack.asInt64 object).isSome = true) ∧
    ∀ schema ∈ kind.params, ∀ object ∈ dict (bytesOf "params"),
      ∃ params, msgpack.kvmap object = some params ∧ schema.Typed msgpack params

/-- `Factory::Unmarshal` returns for these bytes: they unpack, and if they are
a map with a method, to something of the types of its class. -/
def Readable (data : Bytes) : Prop :=
  ∃ root ∈ msgpack.unpack data, root.asMap.isSome = true →
    ∃ dict ∈ msgpack.asDict root,
      ∀ methodVal ∈ dict (bytesOf "method"), methodVal.asStr.isSome = true →
        ∃ method ∈ msgpack.asString methodVal, method ≠ [] →
          ((Factory.makeRequest method).getD .request).Typed msgpack root

/-- The factory has no class for the method: it leaves the message to `rpc.c`. -/
def Unclassed (data : Bytes) : Prop :=
  ∃ root dict methodVal method members memberVal member,
    msgpack.unpack data = some root ∧ root.asMap.isSome = true ∧
    msgpack.asDict root = some dict ∧ dict (bytesOf "method") = some methodVal ∧
    methodVal.asStr.isSome = true ∧ msgpack.asString methodVal = some method ∧ method ≠ [] ∧
    Factory.makeRequest method = none ∧ msgpack.kvmap root = some members ∧
    members (bytesOf "method") = some memberVal ∧ msgpack.asString memberVal = some member ∧
    member ≠ []

end Typed

section Returning

variable {msgpack : MsgPack}

theorem Dict.returns_member_iff {α : Type} {dict : Dict} {name : String} {initial : α}
    {convert : Object → Except Stop α} :
    Returns (dict.member name initial convert) ↔
      ∀ object ∈ dict (bytesOf name), Returns (convert object) := by
  unfold Dict.member
  cases dict (bytesOf name) with
  | none => simpa using returns_ok initial
  | some object => simp only [Option.mem_some_iff, forall_eq']

theorem Datum.returns_convert_iff {initial : Datum} {object : Object} :
    Returns (initial.convert msgpack object) ↔ initial.accepts msgpack object = true := by
  cases initial with
  | string value =>
      exact (returns_bind_of_next fun value => returns_ok _).trans returns_orThrow_iff
  | int64 value =>
      exact (returns_bind_of_next fun value => returns_ok _).trans returns_orThrow_iff

theorem Schema.returns_convert_iff {schema : Schema} {dict : Dict} :
    Returns (schema.convert msgpack dict) ↔ schema.Typed msgpack dict := by
  induction schema with
  | nil => simpa [Schema.convert, Schema.Typed] using returns_ok _
  | cons member schema ih =>
      have hrest : ∀ value : Datum, Returns (Schema.convert msgpack dict schema >>= fun values =>
          pure (value :: values)) ↔ Schema.Typed msgpack schema dict := fun value =>
        (returns_bind_of_next fun values => returns_pure _).trans ih
      calc
        Returns (Schema.convert msgpack dict (member :: schema))
            ↔ Returns (dict.member member.1 member.2 (member.2.convert msgpack)) ∧
                Schema.Typed msgpack schema dict := returns_bind_of_iff hrest
        _ ↔ (∀ object ∈ dict (bytesOf member.1), member.2.accepts msgpack object = true) ∧
              Schema.Typed msgpack schema dict := by
            simp only [Dict.returns_member_iff, Datum.returns_convert_iff]
        _ ↔ Schema.Typed msgpack (member :: schema) dict := by
            simp only [Schema.Typed, List.forall_mem_cons]

theorem Schema.returns_unpack_iff {schema : Schema} {object : Object} :
    Returns (schema.unpack msgpack object) ↔
      ∃ params, msgpack.kvmap object = some params ∧ schema.Typed msgpack params := by
  simp only [Schema.unpack, returns_bind_iff, orThrow_eq_ok, Schema.returns_convert_iff]

theorem RequestClass.returns_unpack_iff {kind : RequestClass} {root : Object} :
    Returns (kind.unpack msgpack root) ↔ kind.Typed msgpack root := by
  have hparams : ∀ (dict : Dict) (version method : Bytes) (id : ℤ),
      Returns (match kind.params with
        | none => pure { kind, version, method, id : Request }
        | some schema => do
          let params ← dict.member "params" (schema.map Prod.snd) (schema.unpack msgpack)
          return { kind, version, method, id, params : Request }) ↔
        ∀ schema ∈ kind.params, ∀ object ∈ dict (bytesOf "params"),
          ∃ params, msgpack.kvmap object = some params ∧ schema.Typed msgpack params := by
    intro dict version method id
    cases kind.params with
    | none =>
        simp only [Option.not_mem_none, false_imp_iff, implies_true, iff_true]
        exact returns_pure _
    | some schema =>
        simp only [Option.mem_some_iff, forall_eq', ← Schema.returns_unpack_iff]
        rw [← Dict.returns_member_iff]
        exact returns_bind_of_next fun params => returns_pure _
  unfold RequestClass.unpack RequestClass.Typed
  rw [returns_bind_iff]
  simp only [orThrow_eq_ok]
  apply exists_congr
  intro dict
  apply and_congr_right
  intro hdict
  rw [returns_bind_of_iff fun version => returns_bind_of_iff fun method =>
    returns_bind_of_iff fun id => hparams dict version method id]
  simp only [Dict.returns_member_iff, Function.comp_apply, returns_orThrow_iff]

/-- Every way through `Factory::Unmarshal`. -/
theorem Factory.returns_unmarshal_iff {data : Bytes} :
    Returns (Factory.unmarshal msgpack data) ↔ Readable msgpack data := by
  unfold Factory.unmarshal Readable
  rw [returns_bind_iff]
  simp only [orThrow_eq_ok]
  apply exists_congr
  intro root
  apply and_congr_right
  intro hroot
  cases hmap : root.asMap with
  | none => simpa using returns_pure _
  | some entries =>
      simp only [Option.isNone_some, Bool.false_eq_true, if_false, Option.isSome_some,
        true_imp_iff]
      rw [returns_bind_iff]
      simp only [orThrow_eq_ok]
      apply exists_congr
      intro dict
      apply and_congr_right
      intro hdict
      cases hmethodVal : dict (bytesOf "method") with
      | none => simpa using returns_pure _
      | some methodVal =>
          simp only [Option.mem_some_iff, forall_eq']
          cases hstr : methodVal.asStr with
          | none => simpa using returns_pure _
          | some text =>
              simp only [Option.isNone_some, Bool.false_eq_true, if_false, Option.isSome_some,
                true_imp_iff]
              rw [returns_bind_iff]
              simp only [orThrow_eq_ok]
              apply exists_congr
              intro method
              apply and_congr_right
              intro hmethod
              by_cases hempty : method = []
              · simpa [hempty] using returns_pure _
              · simp only [List.isEmpty_iff, hempty, if_false, ne_eq, not_false_iff, true_imp_iff]
                rw [returns_bind_of_next, RequestClass.returns_unpack_iff]
                intro request
                split
                · exact returns_pure _
                · exact returns_pure _

/-- What is handed on: a request of one of the five classes, or one to be
unmarshalled otherwise. -/
theorem Factory.unmarshal_cases {data : Bytes} {ret : ℤ} {request : Option Request}
    (h : Factory.unmarshal msgpack data = .ok (ret, request)) :
    (ret < 0 ∧ ret ≠ ErrCode.unimplementedError) ∨
      (ret = 0 ∨ ret = ErrCode.unimplementedError) ∧ request.isSome = true := by
  have hcodes : ∀ code ∈ [ErrCode.msgPackInvalidStruct, ErrCode.msgPackInvalidValue,
      ErrCode.msgPackParseFailed], code < 0 ∧ code ≠ ErrCode.unimplementedError := by
    decide
  unfold Factory.unmarshal at h
  obtain ⟨root, -, h⟩ := bind_eq_ok.mp h
  split at h
  · cases h
    exact Or.inl (hcodes _ (by simp))
  · obtain ⟨dict, -, h⟩ := bind_eq_ok.mp h
    split at h
    next methodVal hmethodVal =>
      split at h
      · cases h
        exact Or.inl (hcodes _ (by simp))
      · obtain ⟨method, -, h⟩ := bind_eq_ok.mp h
        split at h
        · cases h
          exact Or.inl (hcodes _ (by simp))
        · obtain ⟨made, -, h⟩ := bind_eq_ok.mp h
          split at h
          · cases h
            exact Or.inl (hcodes _ (by simp))
          · cases h
            refine Or.inr ⟨?_, rfl⟩
            split
            · exact Or.inl rfl
            · exact Or.inr rfl
    next =>
      cases h
      exact Or.inl (hcodes _ (by simp))

/-- The method of a request is the member of this name. -/
theorem RequestClass.method_of_unpack {kind : RequestClass} {root : Object} {request : Request}
    (h : kind.unpack msgpack root = .ok request) :
    ∃ members, msgpack.kvmap root = some members ∧
      members.member "method" [] (orThrow ∘ msgpack.asString) = .ok request.method := by
  unfold RequestClass.unpack at h
  obtain ⟨members, hmembers, h⟩ := bind_eq_ok.mp h
  obtain ⟨version, -, h⟩ := bind_eq_ok.mp h
  obtain ⟨method, hmethod, h⟩ := bind_eq_ok.mp h
  obtain ⟨id, -, h⟩ := bind_eq_ok.mp h
  refine ⟨members, orThrow_eq_ok.mp hmembers, ?_⟩
  split at h
  · cases h
    exact hmethod
  · obtain ⟨params, -, h⟩ := bind_eq_ok.mp h
    cases h
    exact hmethod

theorem Dict.member_string_ne_nil {dict : Dict} {name : String} {value : Bytes}
    (hvalue : value ≠ []) :
    dict.member name [] (orThrow ∘ msgpack.asString) = .ok value ↔
      ∃ object, dict (bytesOf name) = some object ∧ msgpack.asString object = some value := by
  unfold Dict.member
  cases dict (bytesOf name) with
  | none => simp [Ne.symm hvalue]
  | some object => simp

theorem Factory.unclassed_of_unmarshal {data : Bytes} {request : Request}
    (h : Factory.unmarshal msgpack data = .ok (ErrCode.unimplementedError, some request)) :
    Unclassed msgpack data := by
  unfold Factory.unmarshal at h
  obtain ⟨root, hroot, h⟩ := bind_eq_ok.mp h
  split at h
  · cases h
  · next hmap =>
      obtain ⟨dict, hdict, h⟩ := bind_eq_ok.mp h
      split at h
      next methodVal hmethodVal =>
        split at h
        · cases h
        · next hstr =>
            obtain ⟨method, hmethod, h⟩ := bind_eq_ok.mp h
            split at h
            · cases h
            · next hnonempty =>
                obtain ⟨made, hmade, h⟩ := bind_eq_ok.mp h
                split at h
                · cases h
                · next hmember =>
                    have hclass : makeRequest method = none := by
                      cases hclass : makeRequest method with
                      | some kind =>
                          rw [hclass] at h
                          cases h
                      | none => rfl
                    rw [hclass] at hmade
                    obtain ⟨members, hmembers, hfound⟩ := RequestClass.method_of_unpack hmade
                    have hne : made.method ≠ [] := by simpa using hmember
                    obtain ⟨memberVal, hmemberVal, hstring⟩ :=
                      (Dict.member_string_ne_nil hne).mp hfound
                    exact ⟨root, dict, methodVal, method, members, memberVal, made.method,
                      orThrow_eq_ok.mp hroot,
                      Option.isSome_iff_ne_none.mpr (by simpa using hmap),
                      orThrow_eq_ok.mp hdict, hmethodVal,
                      Option.isSome_iff_ne_none.mpr (by simpa using hstr),
                      orThrow_eq_ok.mp hmethod,
                      by simpa using hnonempty, hclass, hmembers, hmemberVal, hstring, hne⟩
      next => cases h

theorem Factory.unmarshal_of_unclassed {data : Bytes} (hreadable : Readable msgpack data)
    (hunclassed : Unclassed msgpack data) :
    ∃ request, Factory.unmarshal msgpack data =
      .ok (ErrCode.unimplementedError, some request) := by
  obtain ⟨root, dict, methodVal, method, members, memberVal, member, hroot, hmap, hdict,
    hmethodVal, hstr, hmethod, hnonempty, hclass, hmembers, hmemberVal, hmember, hne⟩ := hunclassed
  obtain ⟨unmarshalled, h⟩ := returns_unmarshal_iff.mpr hreadable
  have hroots : root.asMap ≠ none := Option.isSome_iff_ne_none.mp hmap
  have htexts : methodVal.asStr ≠ none := Option.isSome_iff_ne_none.mp hstr
  have hunmarshal : Factory.unmarshal msgpack data =
      RequestClass.request.unpack msgpack root >>= fun request =>
        if request.method.isEmpty then pure (ErrCode.msgPackParseFailed, some request)
        else pure (ErrCode.unimplementedError, some request) := by
    simp [Factory.unmarshal, hroot, orThrow, hdict, hmethodVal, hmethod, hnonempty, hclass,
      hroots, htexts]
  rw [hunmarshal] at h ⊢
  obtain ⟨request, hrequest, -⟩ := bind_eq_ok.mp h
  obtain ⟨members', hmembers', hfound⟩ := RequestClass.method_of_unpack hrequest
  cases hmembers.symm.trans hmembers'
  have hsame := (Dict.member_string_ne_nil hne).mpr ⟨memberVal, hmemberVal, hmember⟩
  obtain rfl : request.method = member := by
    rw [hfound] at hsame
    exact Except.ok.inj hsame
  refine ⟨request, ?_⟩
  rw [hrequest, ok_bind, if_neg (by simpa using hne)]
  rfl

/-- What the factory has no class for is left to `rpc.c` when its members convert. -/
theorem Factory.unmarshal_unclassed_iff {data : Bytes} :
    (∃ request, Factory.unmarshal msgpack data =
      .ok (ErrCode.unimplementedError, some request)) ↔
        Readable msgpack data ∧ Unclassed msgpack data := by
  constructor
  · rintro ⟨request, h⟩
    exact ⟨returns_unmarshal_iff.mp ⟨_, h⟩, Factory.unclassed_of_unmarshal h⟩
  · rintro ⟨hreadable, hunclassed⟩
    exact Factory.unmarshal_of_unclassed hreadable hunclassed

end Returning

end FeedsService.Rpc
