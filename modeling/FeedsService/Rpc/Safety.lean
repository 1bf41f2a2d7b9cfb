import FeedsService.Rpc.Filling
import Mathlib.Data.List.Basic

/-!
# Hostile messages

`rpc_unmarshal_req` runs into undefined behaviour on some messages and on no
others.  The version is compared over its own length with literals of four
bytes, the method is copied over its own length into `method_str`, two
parsers follow fields they do not check, and the parser of `post_unlike`
fills a structure longer than the one it allocates.
-/

namespace FeedsService.Rpc

open FeedsService.Library

/-! ## Blocks that are long enough -/

theorem reserved_le (pairs : List (Field × Option Value)) :
    reserved pairs ≤ pairs.length * 2 ^ 32 := by
  induction pairs with
  | nil => exact le_refl _
  | cons pair pairs ih =>
      have hlt := strReserveSpc_lt (pair.1.copied pair.2)
      rw [reserved_cons, List.length_cons]
      omega

namespace ReqHdlr

/-- The parser allocates the structure it fills, adds the sizes up in a
`size_t` and reserves enough for its defaults. -/
def Ordinary (parser : ReqHdlr) : Prop :=
  parser.allocated = parser.struct ∧ parser.intStrSize = false ∧
    (parser.defaults.map fun entry => entry.2.size).sum ≤ parser.spare ∧
    parser.struct.sizeof + parser.spare ≤ 256 ∧ parser.params.length ≤ 9

instance (parser : ReqHdlr) : Decidable parser.Ordinary :=
  inferInstanceAs (Decidable (_ ∧ _))

variable {parser : ReqHdlr} {method : Sized} {values : List (Option Value)}

theorem strSize_eq (parser : ReqHdlr) (method : Option Sized) (values : List (Option Value)) :
    parser.strSize method values =
      strReserveSpc method + reserved (parser.params.zip values) + parser.spare :=
  rfl

theorem roomNeeded_le (hdefaults :
      (parser.defaults.map fun entry => entry.2.size).sum ≤ parser.spare) :
    parser.roomNeeded method values ≤ parser.strSize (some method) values := by
  have hmethod : (if parser.setsMethod then strReserveSpc (some method) else 0) ≤
      strReserveSpc (some method) := by
    split
    · exact le_refl _
    · exact Nat.zero_le _
  rw [roomNeeded, strSize_eq]
  omega

/-- What an ordinary parser copies fits its block. -/
theorem Ordinary.block (h : parser.Ordinary) :
    parser.struct.sizeof + parser.roomNeeded method values ≤
      parser.blockSize (some method) values := by
  obtain ⟨hallocated, hint, hdefaults, hsizes, hparams⟩ := h
  have hroom : parser.roomNeeded method values ≤ parser.strSize (some method) values :=
    roomNeeded_le hdefaults
  have hmethod := strReserveSpc_lt (some method)
  have hreserved := reserved_le (parser.params.zip values)
  have hlength : (parser.params.zip values).length ≤ 9 := by
    rw [List.length_zip]
    omega
  have hsmall : parser.struct.sizeof + parser.strSize (some method) values < 2 ^ 64 := by
    rw [strSize_eq]
    omega
  have hblock : parser.blockSize (some method) values =
      parser.struct.sizeof + parser.strSize (some method) values := by
    rw [blockSize, hint, hallocated]
    exact toUInt64_of_fits hsmall
  omega

theorem Ordinary.fits_iff (h : parser.Ordinary) :
    parser.Fits method values ↔
      ∀ pair ∈ parser.params.zip values, Short (pair.1.copied pair.2) := by
  constructor
  · intro hfits
    exact hfits.short
  · intro hshort
    exact ⟨hshort, h.block⟩

/-- The structure the parser allocates is shorter than the one it fills. -/
def Overfilled (parser : ReqHdlr) : Prop :=
  parser.allocated.sizeof < parser.struct.sizeof ∧ parser.intStrSize = false ∧
    parser.setsMethod = true ∧ parser.spare = 0 ∧
    parser.struct.sizeof ≤ 256 ∧ parser.params.length ≤ 9

instance (parser : ReqHdlr) : Decidable parser.Overfilled :=
  inferInstanceAs (Decidable (_ ∧ _))

/-- Such a parser writes past its block, whatever it copies. -/
theorem Overfilled.not_fits (h : parser.Overfilled) : ¬ parser.Fits method values := by
  rintro ⟨-, hblock⟩
  obtain ⟨hshorter, hint, hsets, hspare, hstruct, hparams⟩ := h
  have hmethod := strReserveSpc_lt (some method)
  have hreserved := reserved_le (parser.params.zip values)
  have hlength : (parser.params.zip values).length ≤ 9 := by
    rw [List.length_zip]
    omega
  have hsize : parser.blockSize (some method) values =
      parser.allocated.sizeof + parser.strSize (some method) values := by
    rw [blockSize, hint]
    apply toUInt64_of_fits
    rw [strSize_eq]
    omega
  rw [hsize, strSize_eq, roomNeeded, hsets, if_pos rfl] at hblock
  omega

/-- The parser adds the sizes of two strings at most and of the method up in an `int`. -/
def Summing (parser : ReqHdlr) : Prop :=
  parser.allocated = parser.struct ∧ parser.intStrSize = true ∧ parser.setsMethod = true ∧
    parser.defaults = [] ∧ parser.spare = 0 ∧ parser.struct.sizeof ≤ 256 ∧
    parser.params.length ≤ 2

instance (parser : ReqHdlr) : Decidable parser.Summing :=
  inferInstanceAs (Decidable (_ ∧ _))

/-- The lengths of the strings that the parser copies, each with its NUL. -/
def copiedLength (parser : ReqHdlr) (method : Sized) (values : List (Option Value)) : ℕ :=
  method.val.length + 1 +
    ((parser.params.zip values).filterMap fun pair =>
      (pair.1.copied pair.2).map fun str => str.val.length + 1).sum

end ReqHdlr

theorem strReserveSpc_of_short {str : Sized} (hshort : Short (some str)) :
    strReserveSpc (some str) = str.val.length + 1 :=
  Nat.mod_eq_of_lt (hshort str rfl)

theorem reserved_of_short {pairs : List (Field × Option Value)}
    (hshort : ∀ pair ∈ pairs, Short (pair.1.copied pair.2)) :
    reserved pairs = (pairs.filterMap fun pair =>
      (pair.1.copied pair.2).map fun str => str.val.length + 1).sum := by
  induction pairs with
  | nil => rfl
  | cons pair pairs ih =>
      have hrest := ih fun other hother => hshort other (List.mem_cons_of_mem _ hother)
      have hfirst := hshort pair List.mem_cons_self
      rw [reserved_cons, hrest, List.filterMap_cons]
      cases hcopied : pair.1.copied pair.2 with
      | none => exact Nat.zero_add _
      | some str =>
          rw [hcopied] at hfirst
          rw [strReserveSpc_of_short hfirst]
          rfl

/-- A size that is the sum of a structure and of an `int` is enough for `total` bytes behind
the structure when the `int` does not wrap, or wraps to less than minus the structure: as a
`size_t` that is huge. -/
theorem le_toUInt64_add_toInt32_iff {base total : ℕ} (hbase : base ≤ 256)
    (htotal : total < 2 ^ 34) :
    base + total ≤ toUInt64 (base + toInt32 total) ↔
      total < 2 ^ 31 ∨ 2 ^ 31 ≤ total % 2 ^ 32 ∧ base + total % 2 ^ 32 < 2 ^ 32 := by
  rw [toUInt64, toInt32, Int.bmod_def]
  norm_num
  split <;> omega

/-- Where a parser has room: it does not overfill its block, as the one of
`post_unlike` does, no string it copies has 2^32 - 1 bytes, and where it adds the
lengths up in an `int`, they stay below 2^31, or the sum is so far below 0 that
the size of the block is huge. -/
structure Roomy (entry : ReqParser) (method : Sized) (values : List (Option Value)) :
    Prop where
  named : entry.method ≠ "post_unlike"
  short : ∀ pair ∈ entry.parser.params.zip values, Short (pair.1.copied pair.2)
  summed : entry.parser.intStrSize = true →
    entry.parser.copiedLength method values < 2 ^ 31 ∨
      2 ^ 31 ≤ entry.parser.copiedLength method values % 2 ^ 32 ∧
        entry.parser.struct.sizeof + entry.parser.copiedLength method values % 2 ^ 32 < 2 ^ 32

theorem ReqHdlr.Summing.block_iff {parser : ReqHdlr} {method : Sized}
    {values : List (Option Value)} (h : parser.Summing) (hmethod : Short (some method))
    (hshort : ∀ pair ∈ parser.params.zip values, Short (pair.1.copied pair.2)) :
    parser.struct.sizeof + parser.roomNeeded method values ≤
        parser.blockSize (some method) values ↔
      parser.copiedLength method values < 2 ^ 31 ∨
        2 ^ 31 ≤ parser.copiedLength method values % 2 ^ 32 ∧
          parser.struct.sizeof + parser.copiedLength method values % 2 ^ 32 < 2 ^ 32 := by
  obtain ⟨hallocated, hint, hsets, hdefaults, hspare, hstruct, hparams⟩ := h
  have hlength : strReserveSpc (some method) + reserved (parser.params.zip values) =
      parser.copiedLength method values := by
    rw [strReserveSpc_of_short hmethod, reserved_of_short hshort, copiedLength]
  have hneeded : parser.roomNeeded method values = parser.copiedLength method values := by
    rw [roomNeeded, hsets, if_pos rfl, hdefaults]
    exact hlength
  have hblock : parser.blockSize (some method) values =
      toUInt64 (parser.struct.sizeof + toInt32 (parser.copiedLength method values)) := by
    rw [blockSize, hint, if_pos rfl, hallocated, strSize_eq, hspare, hlength]
    rfl
  have hsmall : parser.copiedLength method values < 2 ^ 34 := by
    have hfirst := strReserveSpc_lt (some method)
    have hreserved := reserved_le (parser.params.zip values)
    rw [List.length_zip] at hreserved
    omega
  rw [hneeded, hblock]
  exact le_toUInt64_add_toInt32_iff hstruct hsmall

theorem ordinary_of_mem_tables {entry : ReqParser}
    (hentry : entry ∈ reqParsers10 ∨ entry ∈ reqParsers20) :
    entry.method = "post_unlike" ∧ entry.parser.Overfilled ∨
      entry.method ≠ "post_unlike" ∧
        (entry.parser.Summing ∨ entry.parser.Ordinary) := by
  apply forall_tables _ _ hentry
  · decide
  · decide

/-- Of all parsers only the one of `post_unlike` never has room. -/
theorem fits_iff_roomy {entry : ReqParser}
    (hentry : entry ∈ reqParsers10 ∨ entry ∈ reqParsers20) {method : Sized}
    (hmethod : Short (some method)) {values : List (Option Value)} :
    entry.parser.Fits method values ↔ Roomy entry method values := by
  rcases ordinary_of_mem_tables hentry with ⟨hname, hover⟩ | ⟨hname, hkind⟩
  · constructor
    · intro hfits
      exact absurd hfits hover.not_fits
    · rintro ⟨hnamed, -, -⟩
      exact absurd hname hnamed
  · constructor
    · rintro ⟨hshort, hblock⟩
      refine ⟨hname, hshort, fun hint => ?_⟩
      rcases hkind with hsumming | hordinary
      · exact (hsumming.block_iff hmethod hshort).mp hblock
      · cases hint.symm.trans hordinary.2.1
    · rintro ⟨-, hshort, hsummed⟩
      rcases hkind with hsumming | hordinary
      · exact ⟨hshort, (hsumming.block_iff hmethod hshort).mpr (hsummed hsumming.2.1)⟩
      · exact ⟨hshort, hordinary.block⟩

/-- Only an ordinary parser leaves `tmp->method` alone. -/
theorem ordinary_of_not_setsMethod {entry : ReqParser}
    (hentry : entry ∈ reqParsers10 ∨ entry ∈ reqParsers20)
    (hskip : entry.parser.setsMethod = false) : entry.parser.Ordinary := by
  revert hskip
  apply forall_tables _ _ hentry
  · decide
  · decide

theorem mem_tables_of_versionTable {version : Bytes} {table : List ReqParser}
    (h : versionTable version = some table) : table = reqParsers10 ∨ table = reqParsers20 := by
  unfold versionTable at h
  split at h
  · cases h
    exact Or.inl rfl
  · split at h
    · cases h
      exact Or.inr rfl
    · cases h

theorem mem_tables_of_selected {version method : Bytes} {entry : ReqParser}
    (h : selected version method = some entry) :
    (entry ∈ reqParsers10 ∨ entry ∈ reqParsers20) ∧
      cString method = bytesOf entry.method := by
  obtain ⟨table, htable, hfind⟩ := Option.bind_eq_some_iff.mp h
  have hname : cString method = bytesOf entry.method := by
    simpa using List.find?_some hfind
  have hmem := List.mem_of_find?_eq_some hfind
  rcases mem_tables_of_versionTable htable with rfl | rfl
  · exact ⟨Or.inl hmem, hname⟩
  · exact ⟨Or.inr hmem, hname⟩

/-! ## The condition -/

/-- The values the message has for the fields of a parser. -/
def ReqHdlr.valuesIn (parser : ReqHdlr) (rest : Entries) : List (Option Value) :=
  scan Field.pick parser.params (paramsOf rest)

/-- An error, or success with a request. -/
def Answer.Proper (answer : Answer) : Prop :=
  answer.rc < 0 ∨ answer.rc = 0 ∧ answer.req.isSome = true

/-- Whatever blocks are granted, the call returns. -/
def Safe (message : Object) : Prop :=
  ∀ alloc, ∃ answer, rpcUnmarshalReq alloc (some message) = .ok answer ∧ answer.Proper

/-- The version is not longer than the array it is compared with and the
method not longer than `method_str`; where the selected parser gets past its
checks, every field it follows unchecked is there and what it copies fits. -/
def Guarded (message : Object) : Prop :=
  ∀ obj version method id rest, message = .map obj →
    Envelope obj version method id rest → version.val ≠ [] → method.val ≠ [] →
      version.val.length ≤ 4 ∧ method.val.length ≤ methodStrSize ∧
        ∀ entry ∈ selected version.val method.val,
          entry.parser.Checks (entry.parser.valuesIn rest) →
            entry.parser.NoneMissing (entry.parser.valuesIn rest) ∧
              Roomy entry method (entry.parser.valuesIn rest)

theorem short_of_le {method : Sized} (hlong : method.val.length ≤ methodStrSize) :
    Short (some method) := by
  intro bytes hbytes
  cases hbytes
  have hsize : methodStrSize = 1024 := rfl
  omega

/-- The answer of a selected parser whose checks pass and whose block is
granted. -/
theorem Envelope.selected_eq_ok {obj rest : Entries} {version method : Sized} {id : UInt64}
    {entry : ReqParser} {alloc : ℕ → Bool} {answer : Answer}
    (h : Envelope obj version method id rest)
    (hselected : selected version.val method.val = some entry)
    (hlong : method.val.length ≤ methodStrSize)
    (hchecks : entry.parser.Checks (entry.parser.valuesIn rest))
    (halloc : alloc (entry.parser.blockSize (some method) (entry.parser.valuesIn rest)) =
      true) :
    entry.parser.unmarshal alloc obj = .ok answer ↔
      (entry.parser.NoneMissing (entry.parser.valuesIn rest) ∧
        Roomy entry method (entry.parser.valuesIn rest)) ∧
        answer =
          { rc := 0
            req := some (entry.parser.request method id (entry.parser.valuesIn rest)) } := by
  have hmem := (mem_tables_of_selected hselected).1
  rw [h.unmarshal_eq, ← fits_iff_roomy hmem (short_of_le hlong)]
  refine ReqHdlr.fill_eq_ok hchecks halloc (short_of_le hlong) fun hskip => ?_
  have hblock : entry.parser.struct.sizeof +
      entry.parser.roomNeeded method (entry.parser.valuesIn rest) ≤
        entry.parser.blockSize (some method) (entry.parser.valuesIn rest) :=
    (ordinary_of_not_setsMethod hmem hskip).block
  exact le_trans (Nat.le_add_right _ _) hblock

/-- The parser of unknown methods always returns. -/
theorem Envelope.unknown_eq {obj rest : Entries} {version method : Sized} {id : UInt64}
    (h : Envelope obj version method id rest) (hlong : method.val.length ≤ methodStrSize)
    (alloc : ℕ → Bool) :
    ∃ answer, unmarshalUnknownReq.unmarshal alloc obj = .ok answer := by
  have hordinary : unmarshalUnknownReq.Ordinary := by decide
  have hchecks : unmarshalUnknownReq.Checks [] := by
    intro pair hpair
    cases hpair
  rw [h.unmarshal_eq]
  change ∃ answer, unmarshalUnknownReq.fill alloc (some method) (some id) [] = .ok answer
  by_cases halloc : alloc (unmarshalUnknownReq.blockSize (some method) []) = true
  · refine ⟨_, (ReqHdlr.fill_eq_ok hchecks halloc (short_of_le hlong) ?_).mpr
      ⟨⟨?_, ?_⟩, rfl⟩⟩
    · intro hskip
      cases hskip
    · intro pair hpair
      cases hpair
    · apply hordinary.fits_iff.mpr
      intro pair hpair
      cases hpair
  · exact ⟨_, ReqHdlr.fill_of_not_alloc (by simpa using halloc) _⟩

/-- An unknown version or method is refused. -/
theorem Envelope.refused_unknown {obj rest : Entries} {version method : Sized} {id : UInt64}
    (h : Envelope obj version method id rest) (hlong : method.val.length ≤ methodStrSize)
    (alloc : ℕ → Bool) :
    (∃ answer, invalidMethod alloc obj = .ok answer ∧ answer.rc < 0) ∧
      ∃ answer, unsupportedVersion alloc obj = .ok answer ∧ answer.rc < 0 := by
  obtain ⟨unknown, hunknown⟩ := h.unknown_eq hlong alloc
  constructor
  · refine ⟨_, by rw [invalidMethod, hunknown, ok_bind]; rfl, ?_⟩
    simp only
    split <;> decide
  · exact ⟨_, by rw [unsupportedVersion, hunknown, ok_bind]; rfl, by norm_num⟩

/-- The message is one of which `rpc.c` makes this request, with the parser of
this entry. -/
inductive Requests : Object → ReqParser → Req → Prop
  | mk {obj rest : Entries} {version method : Sized} {id : UInt64} {entry : ReqParser}
      (henvelope : Envelope obj version method id rest) (hversion : version.val ≠ [])
      (hmethod : method.val ≠ []) (hselected : selected version.val method.val = some entry)
      (hchecks : entry.parser.Checks (entry.parser.valuesIn rest)) :
      Requests (.map obj) entry
        (entry.parser.request method id (entry.parser.valuesIn rest))

/-- A selected parser makes its request under the condition, or refuses the
message. -/
theorem Envelope.answer_selected {obj rest : Entries} {version method : Sized} {id : UInt64}
    {entry : ReqParser} (h : Envelope obj version method id rest) (hversion : version.val ≠ [])
    (hmethod : method.val ≠ []) (hselected : selected version.val method.val = some entry)
    (hlong : method.val.length ≤ methodStrSize)
    (hguard : entry.parser.Checks (entry.parser.valuesIn rest) →
      entry.parser.NoneMissing (entry.parser.valuesIn rest) ∧
        Roomy entry method (entry.parser.valuesIn rest))
    (alloc : ℕ → Bool) :
    ∃ answer, entry.parser.unmarshal alloc obj = .ok answer ∧
      (answer.rc < 0 ∨
        ∃ entry req, Requests (.map obj) entry req ∧ answer = { rc := 0, req := some req }) := by
  by_cases hchecks : entry.parser.Checks (entry.parser.valuesIn rest)
  · by_cases halloc :
      alloc (entry.parser.blockSize (some method) (entry.parser.valuesIn rest)) = true
    · exact ⟨_, (h.selected_eq_ok hselected hlong hchecks halloc).mpr ⟨hguard hchecks, rfl⟩,
        Or.inr ⟨entry, _, .mk h hversion hmethod hselected hchecks, rfl⟩⟩
    · have hrefused : alloc
          (entry.parser.blockSize (some method) (entry.parser.valuesIn rest)) = false := by
        simpa using halloc
      refine ⟨{ rc := -1, req := none }, ?_, Or.inl (by decide)⟩
      rw [h.unmarshal_eq]
      exact ReqHdlr.fill_of_not_alloc hrefused _
  · refine ⟨{ rc := -1, req := none }, ?_, Or.inl (by decide)⟩
    rw [h.unmarshal_eq]
    exact ReqHdlr.fill_of_not_checks hchecks _ _ _

theorem guarded_of_answer {message : Object} {answer : Answer}
    (hanswer : rpcUnmarshalReq (fun _ => true) (some message) = .ok answer) :
    Guarded message := by
  rintro obj version method id rest rfl h hversion hmethod
  have hlong : method.val.length ≤ methodStrSize := by
    by_contra hlong
    rw [h.overflow_of_long hversion hmethod (by omega)] at hanswer
    cases hanswer
  have hshort : version.val.length ≤ 4 := by
    by_contra hshort
    rw [h.overread_of_wide hmethod (by omega) hlong] at hanswer
    cases hanswer
  refine ⟨hshort, hlong, fun entry hentry hchecks => ?_⟩
  rw [h.answer_eq hversion hmethod hshort hlong, hentry] at hanswer
  exact ((h.selected_eq_ok hentry hlong hchecks rfl).mp hanswer).1

theorem guarded_of_safe {message : Object} (hsafe : Safe message) : Guarded message := by
  obtain ⟨answer, hanswer, -⟩ := hsafe fun _ => true
  exact guarded_of_answer hanswer

/-- A guarded message is refused or becomes a request. -/
theorem answer_cases {message : Object} (hguarded : Guarded message) (alloc : ℕ → Bool) :
    ∃ answer, rpcUnmarshalReq alloc (some message) = .ok answer ∧
      (answer.rc < 0 ∨
        ∃ entry req, Requests message entry req ∧ answer = { rc := 0, req := some req }) := by
  cases message with
  | map obj =>
      by_cases hfields : ∃ version method id rest, Envelope obj version method id rest ∧
          version.val ≠ [] ∧ method.val ≠ []
      · obtain ⟨version, method, id, rest, h, hversion, hmethod⟩ := hfields
        obtain ⟨hshort, hlong, hguard⟩ :=
          hguarded obj version method id rest rfl h hversion hmethod
        rw [h.answer_eq hversion hmethod hshort hlong]
        cases hselected : selected version.val method.val with
        | some entry =>
            exact h.answer_selected hversion hmethod hselected hlong (hguard entry hselected)
              alloc
        | none =>
            obtain ⟨⟨invalid, hinvalid, hrefused⟩, unsupported, hunsupported, hrefused'⟩ :=
              h.refused_unknown hlong alloc
            simp only
            split
            · exact ⟨invalid, hinvalid, Or.inl hrefused⟩
            · exact ⟨unsupported, hunsupported, Or.inl hrefused'⟩
      · refine ⟨{ rc := -1, req := none }, rpcUnmarshalReq_refused ?_ alloc,
          Or.inl (by decide)⟩
        intro version method id rest h
        by_contra hempty
        exact hfields ⟨version, method, id, rest, h, not_or.mp hempty⟩
  | _ => exact ⟨{ rc := -1, req := none }, rfl, Or.inl (by decide)⟩

theorem safe_of_guarded {message : Object} (hguarded : Guarded message) : Safe message := by
  intro alloc
  obtain ⟨answer, hanswer, hrefused | ⟨entry, req, -, rfl⟩⟩ := answer_cases hguarded alloc
  · exact ⟨answer, hanswer, Or.inl hrefused⟩
  · exact ⟨_, hanswer, Or.inr ⟨rfl, rfl⟩⟩

theorem safe_iff_guarded (message : Object) : Safe message ↔ Guarded message :=
  ⟨guarded_of_safe, safe_of_guarded⟩

/-- A text in a message, up to the length that a size can count. -/
def sized (text : String) : Sized :=
  ⟨(bytesOf text).take (2 ^ 32 - 1), by rw [List.length_take]; omega⟩

/-- A `declare_post` of version 1.0 that does not say `with_notify`. -/
def declarePostWithoutNotify : Object :=
  .map
    [(.str (sized "version"), .str (sized "1.0")),
      (.str (sized "method"), .str (sized "declare_post")),
      (.str (sized "id"), .positiveInteger 1),
      (.str (sized "params"), .map
        [(.str (sized "access_token"), .str (sized "token")),
          (.str (sized "channel_id"), .positiveInteger 1),
          (.str (sized "content"), .bin (sized "post"))])]

theorem not_always_safe : ¬ ∀ message, Safe message := by
  intro h
  obtain ⟨answer, hanswer, -⟩ := h declarePostWithoutNotify fun _ => true
  have hfault : (rpcUnmarshalReq (fun _ => true) (some declarePostWithoutNotify)).toOption =
      none := by
    decide +kernel
  rw [hanswer] at hfault
  cases hfault

end FeedsService.Rpc
