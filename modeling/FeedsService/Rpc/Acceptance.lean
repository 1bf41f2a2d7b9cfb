import FeedsService.Library.KeyedTable
import FeedsService.Rpc.Safety

/-!
# The language of requests

What a message has to look like to be a request, and what the request then
has to hold.  `rpc_unmarshal_req` accepts more than that: a version that is
only the beginning of one, a method that goes on after a NUL, and strings
with a NUL in them lose their end on the way.
-/

namespace FeedsService.Rpc

open FeedsService.Library FeedsService.Library.KeyedTable

/-! ## The language -/

/-- The message is a map that begins with a version, the method of an entry in
the table of that version and an id, and has in `params` the fields of the
entry in their order, as its parser checks them. -/
inductive Derives : Object → ReqParser → Sized → UInt64 → List (Option Value) → Prop
  | mk {obj rest : Entries} {version method : Sized} {id : UInt64} {entry : ReqParser}
      {values : List (Option Value)} (henvelope : Envelope obj version method id rest)
      (hentry : version.val = bytesOf "1.0" ∧ entry ∈ reqParsers10 ∨
        version.val = bytesOf "2.0" ∧ entry ∈ reqParsers20)
      (hname : method.val = bytesOf entry.method)
      (hvalues : Scans Field.pick entry.parser.params (paramsOf rest) values)
      (hchecks : entry.parser.Checks values) :
      Derives (.map obj) entry method id values

/-- A parameter, on either side. -/
inductive Content
  | str (bytes : Bytes)
  | u64 (value : UInt64)
  | bool (value : Bool)
  | bin (bytes : Bytes)
  deriving DecidableEq

def Value.content : Value → Content
  | .str text => .str text.val
  | .u64 value => .u64 value
  | .bool value => .bool value
  | .bin bytes => .bin bytes.val

/-- What a reader of the request sees in a member: a `char *` is a C string. -/
def Slot.content : Slot → Content
  | .str buffer => .str (cString buffer)
  | .u64 value => .u64 value
  | .bool value => .bool value
  | .bin bytes => .bin bytes

def Req.content (req : Req) (member : Member) : Option Content :=
  (req.params.find? fun set => decide (set.1 = member)).map fun set => set.2.content

/-- The request is the message: its method, its id and all of its
parameters. -/
structure Carries (req : Req) (entry : ReqParser) (method : Sized) (id : UInt64)
    (values : List (Option Value)) : Prop where
  method : req.method.map cString = some method.val
  tsxId : req.tsxId = id
  params : ∀ pair ∈ entry.parser.params.zip values,
    req.content pair.1.member = pair.2.map Value.content

/-- With memory to be had, the call succeeds on exactly the messages of the
language, and with what they carry. -/
def Exact (message : Object) : Prop :=
  ∃ answer, rpcUnmarshalReq (fun _ => true) (some message) = .ok answer ∧
    (answer.rc = 0 ↔ ∃ entry method id values, Derives message entry method id values) ∧
    ∀ entry method id values, Derives message entry method id values →
      ∃ req, answer.req = some req ∧ Carries req entry method id values

/-! ## Tables -/

theorem nodup_names : (reqParsers10.map fun entry => bytesOf entry.method).Nodup := by
  decide +kernel

theorem nodup_names20 : (reqParsers20.map fun entry => bytesOf entry.method).Nodup := by
  have hnames : (reqParsers20.map fun entry => bytesOf entry.method) =
      reqParsers10.map fun entry => bytesOf entry.method := rfl
  rw [hnames]
  exact nodup_names

theorem versionTable_10 : versionTable (bytesOf "1.0") = some reqParsers10 := by
  rw [versionTable, if_pos (by decide)]

theorem versionTable_20 : versionTable (bytesOf "2.0") = some reqParsers20 := by
  rw [versionTable, if_neg (by decide), if_pos (by decide)]

/-- The table of a version has one entry for a name. -/
theorem selected_of_mem {version method : Bytes} {entry : ReqParser}
    (hentry : version = bytesOf "1.0" ∧ entry ∈ reqParsers10 ∨
      version = bytesOf "2.0" ∧ entry ∈ reqParsers20)
    (hname : method = bytesOf entry.method) : selected version method = some entry := by
  have hmem : entry ∈ reqParsers10 ∨ entry ∈ reqParsers20 := hentry.imp And.right And.right
  have hself : cString method = bytesOf entry.method := by
    rw [hname]
    exact cString_eq_self.mpr (name_of_mem_tables hmem).1
  have hfind : ∀ table : List ReqParser, entry ∈ table →
      (table.map fun entry => bytesOf entry.method).Nodup →
        (table.find? fun entry => decide (cString method = bytesOf entry.method)) =
          some entry := by
    intro table htable hnodup
    have hget : KeyedTable.get (fun entry => bytesOf entry.method) table (cString method) =
        some entry :=
      (get_eq_some hnodup).mpr ⟨htable, hself.symm⟩
    simpa only [KeyedTable.get, eq_comm] using hget
  rcases hentry with ⟨rfl, hentry⟩ | ⟨rfl, hentry⟩
  · rw [selected, versionTable_10, Option.bind_some]
    exact hfind _ hentry nodup_names
  · rw [selected, versionTable_20, Option.bind_some]
    exact hfind _ hentry nodup_names20

theorem Derives.selected {message : Object} {entry : ReqParser} {method : Sized}
    {id : UInt64} {values : List (Option Value)} (h : Derives message entry method id values) :
    ∃ obj version rest, message = .map obj ∧ Envelope obj version method id rest ∧
      version.val ≠ [] ∧ method.val ≠ [] ∧ Rpc.selected version.val method.val = some entry ∧
        values = entry.parser.valuesIn rest ∧ entry.parser.Checks values := by
  have hnames : ∀ name ∈ reqParsers10.map ReqParser.method, bytesOf name ≠ [] := by decide
  cases h with
  | mk henvelope hentry hname hvalues hchecks =>
      refine ⟨_, _, _, rfl, henvelope, ?_, ?_, selected_of_mem hentry hname,
        hvalues.eq_scan, hchecks⟩
      · rcases hentry with ⟨hversion, -⟩ | ⟨hversion, -⟩ <;> rw [hversion] <;> decide
      · rw [hname]
        apply hnames
        rcases hentry with ⟨-, hmem⟩ | ⟨-, hmem⟩
        · exact List.mem_map_of_mem hmem
        · exact map_method_reqParsers20 ▸ List.mem_map_of_mem hmem

/-! ## What a request holds -/

/-- Fields that set different members are told apart in the request. -/
theorem find?_slots {pairs : List (Field × Option Value)}
    (hnodup : (pairs.map fun pair => pair.1.member).Nodup) {pair : Field × Option Value}
    (hpair : pair ∈ pairs) :
    ((slots pairs).find? fun set => decide (set.1 = pair.1.member)) =
      pair.1.slot pair.2 := by
  have hmember : ∀ (other : Field × Option Value) (set : Member × Slot),
      set ∈ (other.1.slot other.2).toList → set.1 = other.1.member := by
    intro other set hset
    rw [Option.mem_toList, Field.slot] at hset
    split at hset
    · cases hset
    · obtain ⟨value, -, rfl⟩ := Option.mem_map.mp hset
      rfl
  induction pairs with
  | nil => cases hpair
  | cons first pairs ih =>
      obtain ⟨hfirst, hrest⟩ := List.nodup_cons.mp hnodup
      have hcons : slots (first :: pairs) =
          (first.1.slot first.2).toList ++ slots pairs := rfl
      rw [hcons, List.find?_append]
      rcases List.mem_cons.mp hpair with rfl | hmem
      · cases hslot : pair.1.slot pair.2 with
        | none =>
            rw [Option.toList_none, List.find?_nil, Option.none_or, List.find?_eq_none]
            intro set hset hsame
            obtain ⟨other, hother, hset⟩ := List.mem_flatMap.mp hset
            have hsame' : other.1.member = pair.1.member :=
              (hmember other set hset).symm.trans (of_decide_eq_true hsame)
            exact hfirst (List.mem_map.mpr ⟨other, hother, hsame'⟩)
        | some set =>
            have hset : set.1 = pair.1.member := by
              apply hmember pair
              rw [hslot]
              exact List.mem_singleton_self set
            simp [hset]
      · have hnone : ((first.1.slot first.2).toList.find? fun set =>
            decide (set.1 = pair.1.member)) = none := by
          rw [List.find?_eq_none]
          intro set hset hsame
          have hsame' : pair.1.member = first.1.member :=
            (of_decide_eq_true hsame).symm.trans (hmember first set hset)
          exact hfirst (List.mem_map.mpr ⟨pair, hmem, hsame'⟩)
        rw [hnone, Option.none_or]
        exact ih hrest hmem

/-- No member is set twice. -/
theorem nodup_members {entry : ReqParser}
    (hentry : entry ∈ reqParsers10 ∨ entry ∈ reqParsers20) :
    (entry.parser.params.map Field.member ++ entry.parser.defaults.map Prod.fst).Nodup := by
  apply forall_tables _ _ hentry
  · decide +kernel
  · decide +kernel

/-- What a reader sees in the member of a field. -/
theorem content_request {entry : ReqParser}
    (hentry : entry ∈ reqParsers10 ∨ entry ∈ reqParsers20) (method : Sized) (id : UInt64)
    {rest : Entries} {pair : Field × Option Value}
    (hpair : pair ∈ entry.parser.params.zip (entry.parser.valuesIn rest)) :
    (entry.parser.request method id (entry.parser.valuesIn rest)).content pair.1.member =
      (pair.1.slot pair.2).map fun set => set.2.content := by
  obtain ⟨hfields, -, hapart⟩ := List.nodup_append.mp (nodup_members hentry)
  have hmembers : ((entry.parser.params.zip (entry.parser.valuesIn rest)).map
      fun pair => pair.1.member) = entry.parser.params.map Field.member := by
    have hlength : (entry.parser.valuesIn rest).length = entry.parser.params.length :=
      length_scan _ _
    calc
      (entry.parser.params.zip (entry.parser.valuesIn rest)).map (fun pair => pair.1.member)
          = ((entry.parser.params.zip (entry.parser.valuesIn rest)).map Prod.fst).map
              Field.member := by rw [List.map_map]; rfl
      _ = entry.parser.params.map Field.member := by rw [List.map_fst_zip hlength.ge]
  have hdefaults : ((entry.parser.defaults.map fun set => (set.1, set.2.slot)).find?
      fun set => decide (set.1 = pair.1.member)) = none := by
    rw [List.find?_eq_none]
    intro set hset hsame
    obtain ⟨default, hdefault, rfl⟩ := List.mem_map.mp hset
    apply hapart pair.1.member
    · exact List.mem_map_of_mem (List.of_mem_zip hpair).1
    · exact List.mem_map_of_mem hdefault
    · exact (of_decide_eq_true hsame).symm
  rw [Req.content, ReqHdlr.request]
  simp only [List.find?_append, hdefaults, Option.or_none]
  rw [find?_slots (hmembers ▸ hfields) hpair]

theorem cString_pieceOf (text : Sized) : cString (pieceOf text) = cString text.val :=
  cString_padded _ _

/-- A member holds the value unless the field is ignored or its string has a
NUL. -/
theorem content_slot_iff (field : Field) (value : Option Value) :
    ((field.slot value).map fun set => set.2.content) = value.map Value.content ↔
      (field.demand = .ignored → value = none) ∧
        ∀ text ∈ field.copied value, 0 ∉ text.val := by
  have hvalue : ∀ value : Value, value.slot.content = value.content ↔
      ∀ text ∈ value.text, 0 ∉ text.val := by
    intro value
    cases value with
    | str text =>
        simp only [Value.slot, Slot.content, Value.content, Value.text, cString_pieceOf,
          Content.str.injEq, cString_eq_self, Option.mem_some_iff, forall_eq']
    | _ => simp [Value.slot, Slot.content, Value.content, Value.text]
  obtain ⟨key, member, kind, demand⟩ := field
  cases value with
  | none => cases demand <;> simp [Field.slot, Field.copied]
  | some value =>
      cases demand with
      | ignored => simp [Field.slot, Field.copied]
      | _ => simpa [Field.slot, Field.copied] using hvalue value

/-! ## The condition -/

/-- No field that the selected parser follows without a check is missing. -/
def NothingMissing (message : Object) : Prop :=
  ∀ obj version method id rest, message = .map obj →
    Envelope obj version method id rest → version.val ≠ [] → method.val ≠ [] →
      ∀ entry ∈ selected version.val method.val,
        entry.parser.Checks (entry.parser.valuesIn rest) →
          entry.parser.NoneMissing (entry.parser.valuesIn rest)

/-- An accepted request has a whole version, a method without a NUL other than
`update_user_info`, room for what is copied, no parameter that is dropped and
no string parameter with a NUL. -/
structure Undistorted (entry : ReqParser) (version method : Sized)
    (values : List (Option Value)) : Prop where
  wholeVersion : version.val = bytesOf "1.0" ∨ version.val = bytesOf "2.0"
  wholeMethod : 0 ∉ method.val
  named : entry.method ≠ "update_user_info"
  roomy : Roomy entry method values
  kept : ∀ pair ∈ entry.parser.params.zip values, pair.1.demand = .ignored → pair.2 = none
  strings : ∀ pair ∈ entry.parser.params.zip values,
    ∀ text ∈ pair.1.copied pair.2, 0 ∉ text.val

/-- The version and the method are not too long, and a request that gets past
the checks of its parser is not distorted. -/
def Plain (message : Object) : Prop :=
  ∀ obj version method id rest, message = .map obj →
    Envelope obj version method id rest → version.val ≠ [] → method.val ≠ [] →
      version.val.length ≤ 4 ∧ method.val.length ≤ methodStrSize ∧
        ∀ entry ∈ selected version.val method.val,
          entry.parser.Checks (entry.parser.valuesIn rest) →
            Undistorted entry version method (entry.parser.valuesIn rest)

theorem setsMethod_iff {entry : ReqParser}
    (hentry : entry ∈ reqParsers10 ∨ entry ∈ reqParsers20) :
    entry.parser.setsMethod = true ↔ entry.method ≠ "update_user_info" := by
  apply forall_tables _ _ hentry
  · decide
  · decide

/-- The request of a parser carries the message exactly when it keeps its
method, drops nothing and cuts no string off. -/
theorem carries_request_iff {entry : ReqParser}
    (hentry : entry ∈ reqParsers10 ∨ entry ∈ reqParsers20) (method : Sized) (id : UInt64)
    (rest : Entries) :
    Carries (entry.parser.request method id (entry.parser.valuesIn rest)) entry method id
        (entry.parser.valuesIn rest) ↔
      (entry.method ≠ "update_user_info" ∧ 0 ∉ method.val) ∧
        ∀ pair ∈ entry.parser.params.zip (entry.parser.valuesIn rest),
          (pair.1.demand = .ignored → pair.2 = none) ∧
            ∀ text ∈ pair.1.copied pair.2, 0 ∉ text.val := by
  have hmethod : (entry.parser.request method id (entry.parser.valuesIn rest)).method.map
      cString = some method.val ↔
        entry.method ≠ "update_user_info" ∧ 0 ∉ method.val := by
    rw [← setsMethod_iff hentry, ReqHdlr.request]
    by_cases hsets : entry.parser.setsMethod = true
    · simp only [hsets, if_true, Option.map_some, Option.some.injEq, cString_pieceOf,
        cString_eq_self, true_and]
    · simp [hsets]
  have hparams : ∀ pair ∈ entry.parser.params.zip (entry.parser.valuesIn rest),
      ((entry.parser.request method id (entry.parser.valuesIn rest)).content pair.1.member =
        pair.2.map Value.content ↔
          (pair.1.demand = .ignored → pair.2 = none) ∧
            ∀ text ∈ pair.1.copied pair.2, 0 ∉ text.val) := by
    intro pair hpair
    rw [content_request hentry method id hpair]
    exact content_slot_iff pair.1 pair.2
  constructor
  · rintro ⟨hname, -, hcontent⟩
    exact ⟨hmethod.mp hname, fun pair hpair => (hparams pair hpair).mp (hcontent pair hpair)⟩
  · rintro ⟨hname, hcontent⟩
    exact ⟨hmethod.mpr hname, rfl,
      fun pair hpair => (hparams pair hpair).mpr (hcontent pair hpair)⟩

/-- Who gets past the checks of the selected parser is in the language when
the version and the method are whole. -/
theorem Envelope.derives_iff {obj rest : Entries} {version method : Sized} {id : UInt64}
    {entry : ReqParser} (h : Envelope obj version method id rest)
    (hselected : selected version.val method.val = some entry)
    (hchecks : entry.parser.Checks (entry.parser.valuesIn rest)) :
    (∃ other name number values, Derives (.map obj) other name number values) ↔
      (version.val = bytesOf "1.0" ∨ version.val = bytesOf "2.0") ∧ 0 ∉ method.val := by
  constructor
  · rintro ⟨other, name, number, values, hderives⟩
    cases hderives with
    | mk henvelope hentry hname hvalues hchecks =>
        obtain ⟨rfl, rfl, rfl, rfl⟩ := h.unique henvelope
        have hmem : other ∈ reqParsers10 ∨ other ∈ reqParsers20 :=
          hentry.imp And.right And.right
        refine ⟨hentry.imp And.left And.left, ?_⟩
        rw [hname]
        exact (name_of_mem_tables hmem).1
  · rintro ⟨hversion, hzero⟩
    obtain ⟨table, htable, hfind⟩ := Option.bind_eq_some_iff.mp hselected
    have hmem := List.mem_of_find?_eq_some hfind
    have hname : method.val = bytesOf entry.method := by
      rw [← (mem_tables_of_selected hselected).2]
      exact (cString_eq_self.mpr hzero).symm
    refine ⟨entry, method, id, entry.parser.valuesIn rest,
      .mk h ?_ hname (scans_scan _ _) hchecks⟩
    rcases hversion with hversion | hversion
    · rw [hversion, versionTable_10] at htable
      cases htable
      exact Or.inl ⟨hversion, hmem⟩
    · rw [hversion, versionTable_20] at htable
      cases htable
      exact Or.inr ⟨hversion, hmem⟩

/-- A message without a selected parser whose checks pass is not in the
language. -/
theorem Envelope.not_derives {obj rest : Entries} {version method : Sized} {id : UInt64}
    (h : Envelope obj version method id rest)
    (hnone : ∀ entry ∈ selected version.val method.val,
      ¬ entry.parser.Checks (entry.parser.valuesIn rest))
    {entry : ReqParser} {name : Sized} {number : UInt64} {values : List (Option Value)} :
    ¬ Derives (.map obj) entry name number values := by
  intro hderives
  obtain ⟨other, _, _, hobj, henvelope, -, -, hselected, hvalues, hchecks⟩ :=
    hderives.selected
  cases hobj
  obtain ⟨rfl, rfl, rfl, rfl⟩ := h.unique henvelope
  exact hnone entry hselected (hvalues ▸ hchecks)

theorem plain_of_exact {message : Object} (hexact : Exact message) : Plain message := by
  rintro obj version method id rest rfl h hversion hmethod
  obtain ⟨answer, hanswer, hlanguage, hcarries⟩ := hexact
  have hlong : method.val.length ≤ methodStrSize := by
    by_contra hlong
    rw [h.overflow_of_long hversion hmethod (by omega)] at hanswer
    cases hanswer
  have hshort : version.val.length ≤ 4 := by
    by_contra hshort
    rw [h.overread_of_wide hmethod (by omega) hlong] at hanswer
    cases hanswer
  refine ⟨hshort, hlong, fun entry hentry hchecks => ?_⟩
  rw [h.answer_eq hversion hmethod hshort hlong, hentry] at hanswer
  obtain ⟨⟨-, hroomy⟩, rfl⟩ := (h.selected_eq_ok hentry hlong hchecks rfl).mp hanswer
  have hderives := hlanguage.mp rfl
  obtain ⟨hwhole, hzero⟩ := (h.derives_iff hentry hchecks).mp hderives
  obtain ⟨other, name, number, values, hother⟩ := hderives
  obtain ⟨req, hreq, hcarried⟩ := hcarries other name number values hother
  obtain ⟨_, _, _, hobj, henvelope, -, -, hselected, rfl, -⟩ := hother.selected
  cases hobj
  obtain ⟨rfl, rfl, rfl, rfl⟩ := h.unique henvelope
  cases hentry.symm.trans hselected
  cases hreq
  obtain ⟨⟨hnamed, -⟩, hparams⟩ :=
    (carries_request_iff (mem_tables_of_selected hentry).1 _ _ _).mp hcarried
  exact ⟨hwhole, hzero, hnamed, hroomy, fun pair hpair => (hparams pair hpair).1,
    fun pair hpair => (hparams pair hpair).2⟩

/-- A message outside of the language that the call refuses. -/
theorem exact_of_refused {message : Object} {answer : Answer}
    (hanswer : rpcUnmarshalReq (fun _ => true) (some message) = .ok answer)
    (hrc : answer.rc ≠ 0)
    (hnone : ∀ entry method id values, ¬ Derives message entry method id values) :
    Exact message := by
  refine ⟨answer, hanswer, ?_, ?_⟩
  · constructor
    · intro hzero
      exact absurd hzero hrc
    · rintro ⟨entry, method, id, values, h⟩
      exact absurd h (hnone entry method id values)
  · intro entry method id values h
    exact absurd h (hnone entry method id values)

/-- A message whose selected parser gets past its checks. -/
theorem Envelope.exact_of_undistorted {obj rest : Entries} {version method : Sized}
    {id : UInt64} {entry : ReqParser} (h : Envelope obj version method id rest)
    (hanswer : rpcUnmarshalReq (fun _ => true) (some (.map obj)) =
      entry.parser.unmarshal (fun _ => true) obj)
    (hselected : selected version.val method.val = some entry)
    (hlong : method.val.length ≤ methodStrSize)
    (hchecks : entry.parser.Checks (entry.parser.valuesIn rest))
    (hpresent : entry.parser.NoneMissing (entry.parser.valuesIn rest))
    (hplain : Undistorted entry version method (entry.parser.valuesIn rest)) :
    Exact (.map obj) := by
  have hreturn : entry.parser.unmarshal (fun _ => true) obj = .ok
      { rc := 0
        req := some (entry.parser.request method id (entry.parser.valuesIn rest)) } :=
    (h.selected_eq_ok hselected hlong hchecks rfl).mpr ⟨⟨hpresent, hplain.roomy⟩, rfl⟩
  have hcarries := (carries_request_iff (mem_tables_of_selected hselected).1 method id rest).mpr
    ⟨⟨hplain.named, hplain.wholeMethod⟩,
      fun pair hpair => ⟨hplain.kept pair hpair, hplain.strings pair hpair⟩⟩
  refine ⟨_, hanswer.trans hreturn, ?_, ?_⟩
  · have hderives := (h.derives_iff hselected hchecks).mpr
      ⟨hplain.wholeVersion, hplain.wholeMethod⟩
    exact iff_of_true rfl hderives
  · intro other name number values hother
    obtain ⟨_, _, _, hobj, henvelope, -, -, hsame, rfl, -⟩ := hother.selected
    cases hobj
    obtain ⟨rfl, rfl, rfl, rfl⟩ := h.unique henvelope
    cases hselected.symm.trans hsame
    exact ⟨_, rfl, hcarries⟩

theorem exact_of_plain {message : Object} (hpresent : NothingMissing message)
    (hplain : Plain message) : Exact message := by
  have hempty : ∀ {obj : Entries}, (¬ ∃ version method id rest,
      Envelope obj version method id rest ∧ version.val ≠ [] ∧ method.val ≠ []) →
        ∀ entry method id values, ¬ Derives (.map obj) entry method id values := by
    intro obj hfields entry method id values hderives
    obtain ⟨_, version, rest, hobj, h, hversion, hmethod, -⟩ := hderives.selected
    cases hobj
    exact hfields ⟨version, method, id, rest, h, hversion, hmethod⟩
  cases message with
  | map obj =>
      by_cases hfields : ∃ version method id rest, Envelope obj version method id rest ∧
          version.val ≠ [] ∧ method.val ≠ []
      · obtain ⟨version, method, id, rest, h, hversion, hmethod⟩ := hfields
        obtain ⟨hshort, hlong, hundistorted⟩ :=
          hplain obj version method id rest rfl h hversion hmethod
        have hpresent := hpresent obj version method id rest rfl h hversion hmethod
        have hanswer := h.answer_eq hversion hmethod hshort hlong fun _ => true
        cases hselected : selected version.val method.val with
        | some entry =>
            rw [hselected] at hanswer
            by_cases hchecks : entry.parser.Checks (entry.parser.valuesIn rest)
            · exact h.exact_of_undistorted hanswer hselected hlong hchecks
                (hpresent entry hselected hchecks) (hundistorted entry hselected hchecks)
            · have hrefused : entry.parser.unmarshal (fun _ => true) obj =
                  .ok { rc := -1, req := none } := by
                rw [h.unmarshal_eq]
                exact ReqHdlr.fill_of_not_checks hchecks _ _ _
              apply exact_of_refused (hanswer.trans hrefused) (by norm_num)
              intro other name number values
              apply h.not_derives
              intro other hother
              cases hselected.symm.trans hother
              exact hchecks
        | none =>
            rw [hselected] at hanswer
            have hnone : ∀ other name number values,
                ¬ Derives (.map obj) other name number values := by
              intro other name number values
              apply h.not_derives
              intro other hother
              cases hselected.symm.trans hother
            obtain ⟨unknown, hunknown⟩ := h.unknown_eq hlong fun _ => true
            simp only [invalidMethod, unsupportedVersion, hunknown, ok_bind] at hanswer
            split at hanswer
            · refine exact_of_refused hanswer ?_ hnone
              simp only
              split <;> norm_num
            · exact exact_of_refused hanswer (by norm_num) hnone
      · refine exact_of_refused (rpcUnmarshalReq_refused ?_ _) (by norm_num) (hempty hfields)
        intro version method id rest h
        by_contra hboth
        exact hfields ⟨version, method, id, rest, h, not_or.mp hboth⟩
  | _ =>
      have hanswer : ∀ other : Object, (∀ obj, other ≠ .map obj) →
          rpcUnmarshalReq (fun _ => true) (some other) = .ok { rc := -1, req := none } := by
        intro other hother
        cases other with
        | map obj => exact absurd rfl (hother obj)
        | _ => rfl
      refine exact_of_refused (hanswer _ (by simp)) (by norm_num) ?_
      intro entry method id values h
      cases h

theorem exact_iff_plain {message : Object} (hpresent : NothingMissing message) :
    Exact message ↔ Plain message :=
  ⟨plain_of_exact, exact_of_plain hpresent⟩

/-- A `declare_post` of version 1.0, whose `with_notify` is there. -/
def notifyingPost : Object :=
  .map
    [(.str (sized "version"), .str (sized "1.0")),
      (.str (sized "method"), .str (sized "declare_post")),
      (.str (sized "id"), .positiveInteger 1),
      (.str (sized "params"), .map
        [(.str (sized "access_token"), .str (sized "token")),
          (.str (sized "channel_id"), .positiveInteger 1),
          (.str (sized "content"), .bin (sized "text")),
          (.str (sized "with_notify"), .boolean true)])]

theorem selected_declarePost :
    selected (sized "1.0").val (sized "declare_post").val =
      some ⟨"declare_post", unmarshalDeclarePostReq⟩ :=
  selected_of_mem (Or.inl ⟨rfl, List.mem_iff_getElem?.mpr ⟨10, rfl⟩⟩) rfl

theorem exact_iff_plain_declarePost : Exact notifyingPost ↔ Plain notifyingPost := by
  refine exact_iff_plain fun obj version method id rest hobj h hversion hmethod entry hentry _ => ?_
  cases hobj
  cases h
  cases hentry.symm.trans selected_declarePost
  have hthere : ∀ value ∈ unmarshalDeclarePostReq.valuesIn
      [(.str (sized "params"), .map
        [(.str (sized "access_token"), .str (sized "token")),
          (.str (sized "channel_id"), .positiveInteger 1),
          (.str (sized "content"), .bin (sized "text")),
          (.str (sized "with_notify"), .boolean true)])], value.isSome = true := by
    decide
  exact fun pair hpair _ => hthere pair.2 (List.of_mem_zip hpair).2

/-- An `update_user_info` with all of its fields. -/
def updateUserInfo : Object :=
  .map
    [(.str (sized "version"), .str (sized "2.0")),
      (.str (sized "method"), .str (sized "update_user_info")),
      (.str (sized "id"), .positiveInteger 1),
      (.str (sized "params"), .map
        [(.str (sized "access_token"), .str (sized "token")),
          (.str (sized "name"), .str (sized "Ann")),
          (.str (sized "email"), .str (sized "ann@mail")),
          (.str (sized "display_name"), .str (sized "Ann")),
          (.str (sized "avatar"), .bin (sized "image"))])]

theorem selected_updateUserInfo :
    selected (sized "2.0").val (sized "update_user_info").val =
      some ⟨"update_user_info", unmarshalUpdUserInfoReq⟩ :=
  selected_of_mem (Or.inr ⟨rfl, List.mem_iff_getElem?.mpr ⟨8, rfl⟩⟩) rfl

theorem nothingMissing_updateUserInfo : NothingMissing updateUserInfo := by
  have hchecked : ∀ field ∈ unmarshalUpdUserInfoReq.params, field.demand ≠ .unchecked := by
    simp [unmarshalUpdUserInfoReq, Field.accessToken, Field.str, Field.bin]
  intro obj version method id rest hobj h hversion hmethod entry hentry hchecks pair hpair
    hunchecked
  cases hobj
  cases h
  cases hentry.symm.trans selected_updateUserInfo
  exact absurd hunchecked (hchecked pair.1 (List.of_mem_zip hpair).1)

theorem not_always_exact : ¬ ∀ message, NothingMissing message → Exact message := by
  intro h
  have hplain := plain_of_exact (h updateUserInfo nothingMissing_updateUserInfo)
  obtain ⟨-, -, hundistorted⟩ := hplain _ (sized "2.0") (sized "update_user_info") 1 _ rfl
    (.mk rfl rfl rfl) (by decide) (by decide)
  have hchecks : ∀ pair ∈ unmarshalUpdUserInfoReq.params.zip
      (unmarshalUpdUserInfoReq.valuesIn
        [(.str (sized "params"), .map
          [(.str (sized "access_token"), .str (sized "token")),
            (.str (sized "name"), .str (sized "Ann")),
            (.str (sized "email"), .str (sized "ann@mail")),
            (.str (sized "display_name"), .str (sized "Ann")),
            (.str (sized "avatar"), .bin (sized "image"))])]),
      pair.1.passes pair.2 = true := by
    decide
  exact (hundistorted _ selected_updateUserInfo hchecks).named rfl

end FeedsService.Rpc
