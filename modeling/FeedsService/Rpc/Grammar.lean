import FeedsService.Rpc.Parsers

/-!
# What the parsers look for

The entries a message must begin with, the values its `params` give to the
fields of a parser, and the parser its version and its method select.  Each
lookup routine of the code is shown to compute the one it stands for.
-/

namespace FeedsService.Rpc

open FeedsService.Library

/-! ## Fields -/

def Kind.accept (kind : Kind) (object : Object) : Option Value :=
  match kind with
  | .str => object.asStr.map .str
  | .u64 => object.asU64.map .u64
  | .bin => object.asBin.map .bin
  | .bool => object.asBool.map .bool

/-- The value an entry gives to a field. -/
def Field.pick (field : Field) (entry : Object × Object) : Option Value :=
  pickVal field.kind.accept field.key entry

theorem map_mapNxtVal {α : Type} (type : Object → Option α) (wrap : α → Value)
    (map : Option Entries) (nxtIdx : ℕ) (key : String) :
    (Prod.map (Option.map wrap) id) <$> mapNxtVal type map nxtIdx key =
      mapNxtVal (fun object => (type object).map wrap) map nxtIdx key := by
  cases map with
  | none => rfl
  | some entries =>
      rw [mapNxtVal_eq, mapNxtVal_eq]
      cases entries[nxtIdx]? with
      | none => rfl
      | some entry =>
          simp only [Option.bind_some, pickVal]
          by_cases hname : names key entry.1 = true
          · simp only [hname, if_true]
            cases type entry.2 with
            | none => rfl
            | some value => rfl
          · simp only [hname]
            rfl

theorem Kind.mapNxtVal_eq (kind : Kind) (map : Option Entries) (nxtIdx : ℕ) (key : String) :
    kind.mapNxtVal map nxtIdx key = Rpc.mapNxtVal kind.accept map nxtIdx key := by
  cases kind with
  | str => exact map_mapNxtVal Object.asStr .str map nxtIdx key
  | u64 => exact map_mapNxtVal Object.asU64 .u64 map nxtIdx key
  | bin => exact map_mapNxtVal Object.asBin .bin map nxtIdx key
  | bool => exact map_mapNxtVal Object.asBool .bool map nxtIdx key

/-- The lookups of a parser scan the entries of its map. -/
theorem lookUp_some (entries : Entries) (fields : List Field) (nxtIdx : ℕ) :
    lookUp (some entries) fields nxtIdx = .ok (scan Field.pick fields (entries.drop nxtIdx)) := by
  induction fields generalizing nxtIdx with
  | nil => rfl
  | cons field fields ih =>
      rw [lookUp, Kind.mapNxtVal_eq, mapNxtVal_eq, ok_bind, scan]
      cases hentry : entries[nxtIdx]? with
      | none =>
          have hdrop : entries.drop nxtIdx = [] :=
            List.drop_eq_nil_of_le (List.getElem?_eq_none_iff.mp hentry)
          simp only [Option.bind_none, ih, ok_bind, hdrop, take]
          rfl
      | some entry =>
          have hdrop : entries.drop nxtIdx = entry :: entries.drop (nxtIdx + 1) := by
            rw [List.drop_eq_getElem?_toList_append, hentry]
            rfl
          rw [Option.bind_some]
          cases hpick : pickVal field.kind.accept field.key entry with
          | none =>
              have htake : take Field.pick field (entries.drop nxtIdx) =
                  (none, entries.drop nxtIdx) := by
                simp only [hdrop, take, Field.pick, hpick]
              rw [htake]
              simp only [ih, ok_bind]
              rfl
          | some value =>
              have htake : take Field.pick field (entries.drop nxtIdx) =
                  (some value, entries.drop (nxtIdx + 1)) := by
                simp only [hdrop, take, Field.pick, hpick]
              rw [htake]
              simp only [ih, ok_bind]
              rfl

theorem lookUp_null (fields : List Field) (nxtIdx : ℕ) :
    lookUp none fields nxtIdx = .ok (scan Field.pick fields []) := by
  induction fields with
  | nil => rfl
  | cons field fields ih =>
      rw [lookUp, Kind.mapNxtVal_eq, mapNxtVal_null, ok_bind]
      simp only [ih, ok_bind]
      rfl

/-- A null map is looked up as an empty one. -/
theorem lookUp_eq (map : Option Entries) (fields : List Field) :
    lookUp map fields 0 = .ok (scan Field.pick fields (map.getD [])) := by
  cases map with
  | none => exact lookUp_null fields 0
  | some entries => exact lookUp_some entries fields 0

/-! ## The entries before `params` -/

/-- The message begins with a version, a method and an id, in this order. -/
inductive Envelope : Entries → Sized → Sized → UInt64 → Entries → Prop
  | mk {versionKey methodKey idKey : Object} {version method : Sized} {id : UInt64}
      {rest : Entries} (hversion : names "version" versionKey = true)
      (hmethod : names "method" methodKey = true) (hid : names "id" idKey = true) :
      Envelope
        ((versionKey, .str version) :: (methodKey, .str method) ::
          (idKey, .positiveInteger id) :: rest)
        version method id rest

/-- The entries of `params`, none when there is no such map. -/
def paramsOf (rest : Entries) : Entries :=
  (rest.head?.bind (pickVal Object.asMap "params")).getD []

theorem Envelope.header_eq {obj rest : Entries} {version method : Sized} {id : UInt64}
    (h : Envelope obj version method id rest) :
    lookUpHeader obj = .ok ⟨some version, some method, some id, 3⟩ := by
  cases h with
  | mk hversion hmethod hid =>
      simp [lookUpHeader, mapNxtValStr, mapNxtValU64, mapNxtVal_eq, pickVal, hversion,
        hmethod, hid, Object.asStr, Object.asU64]

theorem pickVal_eq_some {α : Type} {type : Object → Option α} {key : String}
    {entry : Object × Object} {value : α} :
    pickVal type key entry = some value ↔
      names key entry.1 = true ∧ type entry.2 = some value := by
  unfold pickVal
  split
  next h => simp [h]
  next h => simp [h]

theorem asStr_eq_some {object : Object} {value : Sized} :
    object.asStr = some value ↔ object = .str value := by
  cases object <;> simp [Object.asStr]

theorem asU64_eq_some {object : Object} {value : UInt64} :
    object.asU64 = some value ↔ object = .positiveInteger value := by
  cases object <;> simp [Object.asU64]

/-- A lookup that finds its value has seen the entry. -/
theorem mapNxtVal_found {α : Type} {type : Object → Option α} {entries : Entries}
    {nxtIdx next : ℕ} {key : String} {value : α}
    (h : mapNxtVal type (some entries) nxtIdx key = .ok (some value, next)) :
    next = nxtIdx + 1 ∧ ∃ entry, entries[nxtIdx]? = some entry ∧
      names key entry.1 = true ∧ type entry.2 = some value := by
  rw [mapNxtVal_eq, Except.ok.injEq] at h
  cases hpick : entries[nxtIdx]?.bind (pickVal type key) with
  | none =>
      rw [hpick] at h
      cases h
  | some found =>
      rw [hpick] at h
      cases h
      obtain ⟨entry, hentry, hvalue⟩ := Option.bind_eq_some_iff.mp hpick
      exact ⟨rfl, entry, hentry, pickVal_eq_some.mp hvalue⟩

theorem lookUpHeader_total (obj : Entries) : ∃ header, lookUpHeader obj = .ok header := by
  simp only [lookUpHeader, mapNxtValStr, mapNxtValU64, mapNxtVal_eq, ok_bind]
  exact ⟨_, rfl⟩

/-- The three fields are found only in a message that begins with them. -/
theorem envelope_of_lookUpHeader {obj : Entries} {version method : Sized} {id : UInt64}
    {nxtIdx : ℕ}
    (h : lookUpHeader obj = .ok ⟨some version, some method, some id, nxtIdx⟩) :
    ∃ rest, Envelope obj version method id rest := by
  rw [lookUpHeader, bind_eq_ok] at h
  obtain ⟨⟨foundVersion, i⟩, hversion, h⟩ := h
  rw [bind_eq_ok] at h
  obtain ⟨⟨foundMethod, j⟩, hmethod, h⟩ := h
  rw [bind_eq_ok] at h
  obtain ⟨⟨foundId, k⟩, hid, h⟩ := h
  cases h
  obtain ⟨rfl, ⟨versionKey, versionVal⟩, hzero, hversionKey, hversionVal⟩ :=
    mapNxtVal_found hversion
  obtain ⟨rfl, ⟨methodKey, methodVal⟩, hone, hmethodKey, hmethodVal⟩ := mapNxtVal_found hmethod
  obtain ⟨rfl, ⟨idKey, idVal⟩, htwo, hidKey, hidVal⟩ := mapNxtVal_found hid
  cases asStr_eq_some.mp hversionVal
  cases asStr_eq_some.mp hmethodVal
  cases asU64_eq_some.mp hidVal
  match obj, hzero, hone, htwo with
  | first :: second :: third :: rest, hzero, hone, htwo =>
    cases hzero
    cases hone
    cases htwo
    exact ⟨rest, .mk hversionKey hmethodKey hidKey⟩

theorem Envelope.unique {obj rest rest' : Entries} {version version' method method' : Sized}
    {id id' : UInt64} (h : Envelope obj version method id rest)
    (h' : Envelope obj version' method' id' rest') :
    version' = version ∧ method' = method ∧ id' = id ∧ rest' = rest := by
  cases h
  cases h'
  exact ⟨rfl, rfl, rfl, rfl⟩

/-- A parser fills its structure from the fields of `params`. -/
theorem Envelope.unmarshal_eq {obj rest : Entries} {version method : Sized} {id : UInt64}
    (h : Envelope obj version method id rest) (parser : ReqHdlr) (alloc : ℕ → Bool) :
    parser.unmarshal alloc obj =
      parser.fill alloc (some method) (some id)
        (scan Field.pick parser.params (paramsOf rest)) := by
  have hparams : mapNxtValMap (some obj) 3 "params" =
      .ok (match rest.head?.bind (pickVal Object.asMap "params") with
        | some params => (some params, 4)
        | none => (none, 3)) := by
    cases h with
    | mk hversion hmethod hid =>
        rw [mapNxtValMap, mapNxtVal_eq]
        simp only [List.getElem?_cons_succ, List.head?_eq_getElem?]
        cases rest[0]?.bind (pickVal Object.asMap "params") with
        | none => rfl
        | some params => rfl
  rw [ReqHdlr.unmarshal, h.header_eq, ok_bind, hparams, ok_bind, paramsOf]
  cases rest.head?.bind (pickVal Object.asMap "params") with
  | none => simp only [lookUp_eq, ok_bind]
  | some params => simp only [lookUp_eq, ok_bind, Option.getD_some]

/-! ## The version and the method -/

/-- The table of a version: any beginning of the array of its literal counts
as the version. -/
def versionTable (version : Bytes) : Option (List ReqParser) :=
  if version <+: literal "1.0" then some reqParsers10
  else if version <+: literal "2.0" then some reqParsers20
  else none

/-- The entry whose name is the method, as a C string. -/
def selected (version method : Bytes) : Option ReqParser :=
  (versionTable version).bind fun table =>
    table.find? fun entry => decide (cString method = bytesOf entry.method)

theorem memcmp_literal {version : Bytes} {text : String}
    (hshort : version.length ≤ (literal text).length) :
    memcmp version (literal text) version.length =
      .ok (decide (version <+: literal text)) := by
  rw [memcmp_eq_ok]
  refine ⟨le_refl _, hshort, ?_⟩
  rw [List.take_length, Bool.eq_iff_iff, beq_iff_eq, decide_eq_true_iff]
  exact List.prefix_iff_eq_take.symm

/-- Both versions have the same methods. -/
theorem map_method_reqParsers20 :
    reqParsers20.map ReqParser.method = reqParsers10.map ReqParser.method :=
  rfl

/-- What is checked entry by entry holds of both tables. -/
theorem forall_tables {P : ReqParser → Prop} (hfirst : ∀ entry ∈ reqParsers10, P entry)
    (hsecond : ∀ entry ∈ reqParsers20, P entry) {entry : ReqParser}
    (hentry : entry ∈ reqParsers10 ∨ entry ∈ reqParsers20) : P entry :=
  hentry.elim (hfirst entry) (hsecond entry)

/-- The names of the tables are C strings shorter than `method_str`. -/
theorem name_of_mem_tables {entry : ReqParser}
    (hentry : entry ∈ reqParsers10 ∨ entry ∈ reqParsers20) :
    0 ∉ bytesOf entry.method ∧ (bytesOf entry.method).length < methodStrSize := by
  have hall : ∀ name ∈ reqParsers10.map ReqParser.method,
      0 ∉ bytesOf name ∧ (bytesOf name).length < methodStrSize := by
    decide +kernel
  apply hall
  rcases hentry with h | h
  · exact List.mem_map_of_mem h
  · exact map_method_reqParsers20 ▸ List.mem_map_of_mem h

/-- The loop over a table picks the first entry with the name in the buffer. -/
theorem dispatchReq_eq {table : List ReqParser} {buffer : Bytes} (alloc : ℕ → Bool)
    (obj : Entries)
    (htable : ∀ entry ∈ table,
      0 ∉ bytesOf entry.method ∧ (bytesOf entry.method).length < buffer.length) :
    dispatchReq alloc obj buffer table =
      match table.find? fun entry => decide (cString buffer = bytesOf entry.method) with
      | some entry => entry.parser.unmarshal alloc obj
      | none => invalidMethod alloc obj := by
  induction table with
  | nil => rfl
  | cons entry table ih =>
      obtain ⟨hzero, hlength⟩ := htable entry List.mem_cons_self
      have hrest := ih fun other hother => htable other (List.mem_cons_of_mem _ hother)
      rw [dispatchReq, strcmp_literal hzero hlength, ok_bind, List.find?_cons]
      by_cases hname : cString buffer = bytesOf entry.method
      · simp only [hname, decide_true, if_true]
      · simp only [hname, decide_false]
        exact hrest

/-- What `method_str` holds. -/
def methodStr (method : Bytes) : Bytes :=
  cString method ++ zeroed (methodStrSize - (cString method).length)

theorem length_methodStr {method : Bytes} (hlong : method.length ≤ methodStrSize) :
    (methodStr method).length = methodStrSize := by
  have hshort := length_cString_le method
  rw [methodStr, List.length_append, length_zeroed]
  omega

/-- `rpc_unmarshal_req` on a message with a version and a method it can hold:
the selected parser, or the error of an unknown version or method. -/
theorem Envelope.answer_eq {obj rest : Entries} {version method : Sized} {id : UInt64}
    (h : Envelope obj version method id rest) (hversion : version.val ≠ [])
    (hmethod : method.val ≠ []) (hshort : version.val.length ≤ 4)
    (hlong : method.val.length ≤ methodStrSize) (alloc : ℕ → Bool) :
    rpcUnmarshalReq alloc (some (.map obj)) =
      match selected version.val method.val with
      | some entry => entry.parser.unmarshal alloc obj
      | none =>
        if (versionTable version.val).isSome then invalidMethod alloc obj
        else unsupportedVersion alloc obj := by
  have hempty : (version.val.isEmpty || method.val.isEmpty) = false := by
    simp [hversion, hmethod]
  have hcopy : strncpy (zeroed methodStrSize) method.val method.val.length =
      .ok (methodStr method.val) := strncpy_zeroed hlong
  have htable : ∀ table, versionTable version.val = some table →
      dispatchReq alloc obj (methodStr method.val) table =
        match selected version.val method.val with
        | some entry => entry.parser.unmarshal alloc obj
        | none => invalidMethod alloc obj := by
    intro table hversion
    rw [selected, hversion, Option.bind_some]
    have hnames : ∀ entry ∈ table, 0 ∉ bytesOf entry.method ∧
        (bytesOf entry.method).length < (methodStr method.val).length := by
      intro entry hentry
      rw [length_methodStr hlong]
      apply name_of_mem_tables
      unfold versionTable at hversion
      split at hversion
      · cases hversion
        exact Or.inl hentry
      · split at hversion
        · cases hversion
          exact Or.inr hentry
        · cases hversion
    rw [dispatchReq_eq alloc obj hnames, methodStr, zeroed, cString_padded]
  have hfirst : memcmp version.val (literal "1.0") version.val.length =
      .ok (decide (version.val <+: literal "1.0")) := memcmp_literal hshort
  have hsecond : memcmp version.val (literal "2.0") version.val.length =
      .ok (decide (version.val <+: literal "2.0")) := memcmp_literal hshort
  simp only [rpcUnmarshalReq, h.header_eq, ok_bind, hempty, hcopy, hfirst, hsecond,
    decide_eq_true_eq]
  by_cases hone : version.val <+: literal "1.0"
  · have htables : versionTable version.val = some reqParsers10 := by
      rw [versionTable, if_pos hone]
    simp only [hone, if_true, htable _ htables, htables, Option.isSome_some]
    rfl
  · by_cases htwo : version.val <+: literal "2.0"
    · have htables : versionTable version.val = some reqParsers20 := by
        rw [versionTable, if_neg hone, if_pos htwo]
      simp only [hone, htwo, if_true, if_false, htable _ htables, htables, Option.isSome_some]
      rfl
    · have htables : versionTable version.val = none := by
        rw [versionTable, if_neg hone, if_neg htwo]
      simp only [hone, htwo, if_false, selected, htables, Option.bind_none, Option.isSome_none]
      rfl

/-- A method that `method_str` cannot hold is copied over its end. -/
theorem Envelope.overflow_of_long {obj rest : Entries} {version method : Sized}
    {id : UInt64} (h : Envelope obj version method id rest) (hversion : version.val ≠ [])
    (hmethod : method.val ≠ []) (hlong : methodStrSize < method.val.length)
    (alloc : ℕ → Bool) :
    rpcUnmarshalReq alloc (some (.map obj)) = .error .overflow := by
  have hempty : (version.val.isEmpty || method.val.isEmpty) = false := by
    simp [hversion, hmethod]
  have hcopy : strncpy (zeroed methodStrSize) method.val method.val.length =
      .error .overflow := by
    rw [strncpy, if_pos (by simpa using hlong)]
  simp only [rpcUnmarshalReq, h.header_eq, ok_bind, hempty, hcopy]
  rfl

/-- A version longer than the array it is compared with. -/
theorem Envelope.overread_of_wide {obj rest : Entries} {version method : Sized}
    {id : UInt64} (h : Envelope obj version method id rest) (hmethod : method.val ≠ [])
    (hwide : 4 < version.val.length) (hlong : method.val.length ≤ methodStrSize)
    (alloc : ℕ → Bool) :
    rpcUnmarshalReq alloc (some (.map obj)) = .error .overread := by
  have hversion : version.val ≠ [] := by
    intro heq
    rw [heq] at hwide
    simp at hwide
  have hempty : (version.val.isEmpty || method.val.isEmpty) = false := by
    simp [hversion, hmethod]
  have hcopy : strncpy (zeroed methodStrSize) method.val method.val.length =
      .ok (methodStr method.val) := strncpy_zeroed hlong
  have hcompare : memcmp version.val (literal "1.0") version.val.length =
      .error .overread := by
    have hliteral : (literal "1.0").length < version.val.length := hwide
    rw [memcmp, if_pos (Or.inr hliteral)]
  simp only [rpcUnmarshalReq, h.header_eq, ok_bind, hempty, hcopy, hcompare]
  rfl

/-- A message that does not begin with the three fields, or whose version or
method is empty, is refused. -/
theorem rpcUnmarshalReq_refused {obj : Entries}
    (hnone : ∀ version method id rest, Envelope obj version method id rest →
      version.val = [] ∨ method.val = [])
    (alloc : ℕ → Bool) :
    rpcUnmarshalReq alloc (some (.map obj)) = .ok { rc := -1, req := none } := by
  obtain ⟨header, hheader⟩ := lookUpHeader_total obj
  obtain ⟨version, method, tsxId, nxtIdx⟩ := header
  simp only [rpcUnmarshalReq, hheader, ok_bind]
  cases version with
  | none => rfl
  | some version =>
      cases method with
      | none => rfl
      | some method =>
          cases tsxId with
          | none => rfl
          | some id =>
              obtain ⟨rest, henv⟩ := envelope_of_lookUpHeader hheader
              have hempty : (version.val.isEmpty || method.val.isEmpty) = true := by
                rw [Bool.or_eq_true, List.isEmpty_iff, List.isEmpty_iff]
                exact hnone version method id rest henv
              simp only [hempty]
              rfl

end FeedsService.Rpc
