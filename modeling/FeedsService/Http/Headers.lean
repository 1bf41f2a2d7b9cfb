import FeedsService.Library.Iteration

/-!
# Reading a request

The string functions of `sandbird.c`.  A pointer into a NUL-terminated buffer is
the list of the bytes from there to the end of the buffer, so that a read past
the end is a fault.  The loop of `find_header_value` need not end: it skips a
line with `strcspn(str, "\r")` and takes a CR that no LF follows neither as the
end of the line nor as part of it.
-/

namespace FeedsService.Http

open FeedsService.Library

abbrev cr : UInt8 := 13
abbrev lf : UInt8 := 10
abbrev colon : UInt8 := 58
abbrev space : UInt8 := 32
abbrev tab : UInt8 := 9

def crlf : Bytes := [cr, lf]

/-- The byte at an index from a pointer. -/
def byteAt (str : Bytes) (index : ℕ) : Except Fault UInt8 :=
  match str[index]? with
  | none => .error .overread
  | some chr => .ok chr

/-- `isdigit`. -/
def isdigit (chr : UInt8) : Bool :=
  48 ≤ chr ∧ chr ≤ 57

/-- `isspace`. -/
def isspace (chr : UInt8) : Bool :=
  chr = space ∨ (9 ≤ chr ∧ chr ≤ 13)

/-- `tolower`. -/
def tolower (chr : UInt8) : UInt8 :=
  if 65 ≤ chr ∧ chr ≤ 90 then chr + 32 else chr

/-- The loop of `mem_equal` and `mem_case_equal`. -/
def memEqualBy (view : UInt8 → UInt8) : Bytes → Bytes → ℕ → Except Fault Bool
  | _, _, 0 => .ok true
  | p :: a, q :: b, len + 1 => if view p ≠ view q then .ok false else memEqualBy view a b len
  | _, _, _ + 1 => .error .overread

def memEqual : Bytes → Bytes → ℕ → Except Fault Bool :=
  memEqualBy id

def memCaseEqual : Bytes → Bytes → ℕ → Except Fault Bool :=
  memEqualBy tolower

/-- How many bytes satisfy a test before one does not or the string ends. -/
def spanLength (test : UInt8 → Bool) : Bytes → Except Fault ℕ
  | [] => .error .overread
  | chr :: str =>
      if chr ≠ 0 ∧ test chr then (spanLength test str).map (· + 1) else .ok 0

/-- `strspn`. -/
def strspn (str accept : Bytes) : Except Fault ℕ :=
  spanLength (fun chr => accept.contains chr) str

/-- `strcspn`. -/
def strcspn (str reject : Bytes) : Except Fault ℕ :=
  spanLength (fun chr => !reject.contains chr) str

section Header

/-- `mem_case_equal(str, field, len) && str[len] == ':'`. -/
def isField (str field : Bytes) : Except Fault Bool := do
  if ← memCaseEqual str field field.length then
    return (← byteAt str field.length) == colon
  else
    return false

/-- One pass of the loop of `find_header_value`, and what it returns. -/
def headerPass (field str : Bytes) : Except Fault (Pass Bytes (Option Bytes)) := do
  let chr ← byteAt str 0
  let blank ← memEqual str crlf 2
  if chr = 0 ∨ blank then
    return .leave none
  else if ← isField str field then
    let value := str.drop (field.length + 1)
    let blanks ← strspn value [space, tab]
    return .leave (some (value.drop blanks))
  else
    let line ← strcspn str [cr]
    let ended ← memEqual (str.drop line) crlf 2
    return .goOn (str.drop (line + if ended then 2 else 0))

/-- `find_header_value`; `none` when it does not return. -/
def findHeaderValue (str field : Bytes) : Option (Except Fault (Option Bytes)) :=
  iterate (headerPass field) (str.length + 1) str

end Header

/-- `str_to_uint` of a string, that is, `%u` of `sscanf`: blanks, a sign, and digits
that `strtoul` reads to at most 64 bits, of which 32 are kept. -/
def strToUint (text : Bytes) : ℕ :=
  let text := text.dropWhile isspace
  let digits := (text.drop (if text.head? = some 43 ∨ text.head? = some 45 then 1 else 0)).takeWhile
    isdigit
  let number : ℕ := digits.foldl (fun number digit => 10 * number + (digit.toNat - 48)) 0
  if 2 ^ 64 ≤ number then 2 ^ 32 - 1
  else if text.head? = some 45 then toUInt32 (-number)
  else toUInt32 number

/-- What `sscanf(s, "%15s %n%*s %15s", method, &path_idx, ver)` converts, with the
string from `path_idx`. -/
structure RequestLine where
  method : Bytes
  path : Bytes
  ver : Bytes
  deriving DecidableEq

/-- `none` unless both fields are converted. -/
def scanRequestLine (text : Bytes) : Option RequestLine :=
  let word (text : Bytes) := text.takeWhile fun chr => !isspace chr
  let start := text.dropWhile isspace
  let method := (word start).take 15
  let path := (start.drop method.length).dropWhile isspace
  let ver := (word ((path.drop (word path).length).dropWhile isspace)).take 15
  if method = [] ∨ path = [] ∨ ver = [] then none else some ⟨method, path, ver⟩

section Url

/-- `hex_to_int`, of which the assignment to a `char` keeps the low byte. -/
def hexToInt (chr : UInt8) : UInt8 :=
  if isdigit chr then chr - 48 else tolower chr - 97 + 10

/-- The bytes that end a path: `"?& \t\r\n"`. -/
def urlStops : Bytes := [63, 38, space, tab, cr, lf]

/-- The byte that one pass of the loop of `url_decode` writes, and where it goes on. -/
def urlDecodeByte (chr : UInt8) (str : Bytes) : Except Fault (UInt8 × Bytes) := do
  if chr = 37 then
    let high ← byteAt str 0
    if high = 0 then
      return (chr, str)
    else
      let low ← byteAt str 1
      if low = 0 then
        return (chr, str)
      else
        return ((hexToInt high <<< 4) ||| hexToInt low, str.drop 2)
  else
    return (if chr = 43 then space else chr, str)

/-- The loop of `url_decode`: the bytes that it writes and what is left of `len`. -/
def urlDecodeLoop : ℕ → Bytes → Except Fault (Bytes × ℕ)
  | 0, str => (byteAt str 0).map fun _ => ([], 0)
  | len + 1, str => do
      let chr ← byteAt str 0
      if chr = 0 ∨ chr ∈ urlStops then
        return ([], len + 1)
      else
        let (byte, next) ← urlDecodeByte chr (str.drop 1)
        let (bytes, left) ← urlDecodeLoop len next
        return (byte :: bytes, left)

/-- `url_decode`: all that it writes to `dst`, and whether it returns
`SB_ETRUNCATED`. -/
def urlDecode (src : Bytes) (len : ℕ) : Except Fault (Bytes × Bool) := do
  let (bytes, left) ← urlDecodeLoop (toUInt64 (len - 1)) src
  return (bytes ++ [0], left = 0)

end Url

section Text

theorem byteAt_eq_ok {str : Bytes} {index : ℕ} {chr : UInt8} :
    byteAt str index = .ok chr ↔ str[index]? = some chr := by
  unfold byteAt
  cases str[index]? <;> simp

/-- A comparison with a pattern stops at the NUL of the string. -/
theorem memEqualBy_text {view : UInt8 → UInt8} {pattern : Bytes}
    (hview : ∀ chr ∈ pattern, view chr ≠ view 0) (text junk : Bytes) :
    memEqualBy view (text ++ 0 :: junk) pattern pattern.length =
      .ok (decide (pattern.map view <+: text.map view)) := by
  induction pattern generalizing text with
  | nil => simp [memEqualBy]
  | cons q pattern ih =>
      have hq : view q ≠ view 0 := hview q List.mem_cons_self
      cases text with
      | nil => simp [memEqualBy, hq.symm]
      | cons p text =>
          rw [List.cons_append, List.length_cons, memEqualBy]
          by_cases hpq : view p = view q
          · rw [if_neg (not_not.mpr hpq), ih (fun chr h => hview chr (List.mem_cons_of_mem q h))]
            simp [hpq]
          · rw [if_pos hpq]
            simp [Ne.symm hpq]

theorem memEqual_text {pattern : Bytes} (hpattern : 0 ∉ pattern) (text junk : Bytes) :
    memEqual (text ++ 0 :: junk) pattern pattern.length = .ok (decide (pattern <+: text)) := by
  have hview : ∀ chr ∈ pattern, id chr ≠ id 0 := by
    intro chr hchr heq
    have hzero : chr = 0 := heq
    exact hpattern (hzero ▸ hchr)
  rw [memEqual, memEqualBy_text hview]
  simp

theorem tolower_eq_iff (chr : UInt8) {other : UInt8} (hother : other < 65) :
    tolower chr = other ↔ chr = other := by
  unfold tolower
  split
  · rename_i hupper
    rw [UInt8.le_iff_toNat_le, UInt8.le_iff_toNat_le] at hupper
    rw [UInt8.lt_iff_toNat_lt] at hother
    simp only [← UInt8.toNat_inj, UInt8.toNat_add]
    simp only [UInt8.reduceToNat] at hupper hother ⊢
    omega
  · exact Iff.rfl

variable {text : Bytes}

theorem spanLength_text (htext : 0 ∉ text) (test : UInt8 → Bool) (junk : Bytes) :
    spanLength test (text ++ 0 :: junk) = .ok (text.takeWhile test).length := by
  induction text with
  | nil => simp [spanLength]
  | cons chr text ih =>
      have hchr : chr ≠ 0 := fun heq => htext (heq ▸ List.mem_cons_self)
      rw [List.cons_append, spanLength, List.takeWhile_cons]
      by_cases htest : test chr
      · rw [if_pos ⟨hchr, htest⟩, ih fun h => htext (List.mem_cons_of_mem chr h), if_pos htest]
        rfl
      · rw [if_neg (fun h => htest h.2), if_neg htest]
        rfl

theorem strspn_text (htext : 0 ∉ text) (accept junk : Bytes) :
    strspn (text ++ 0 :: junk) accept =
      .ok (text.takeWhile fun chr => accept.contains chr).length :=
  spanLength_text htext _ junk

theorem strcspn_text (htext : 0 ∉ text) (reject junk : Bytes) :
    strcspn (text ++ 0 :: junk) reject =
      .ok (text.takeWhile fun chr => !reject.contains chr).length :=
  spanLength_text htext _ junk

theorem drop_text {count : ℕ} (hcount : count ≤ text.length) (junk : Bytes) :
    (text ++ 0 :: junk).drop count = text.drop count ++ 0 :: junk :=
  List.drop_append_of_le_length hcount

/-- A pointer moved over what a test accepts. -/
theorem drop_span (test : UInt8 → Bool) (text junk : Bytes) :
    (text ++ 0 :: junk).drop (text.takeWhile test).length =
      text.dropWhile test ++ 0 :: junk := by
  calc (text ++ 0 :: junk).drop (text.takeWhile test).length
      = (text.takeWhile test ++ (text.dropWhile test ++ 0 :: junk)).drop
          (text.takeWhile test).length := by
        rw [← List.append_assoc, List.takeWhile_append_dropWhile]
    _ = text.dropWhile test ++ 0 :: junk := List.drop_left

end Text

section Search

/-- The text begins with the name of the field and a colon. -/
def Names (field text : Bytes) : Prop :=
  (field ++ [colon]).map tolower <+: text.map tolower

instance (field text : Bytes) : Decidable (Names field text) :=
  inferInstanceAs (Decidable (_ <+: _))

/-- A name that a string comparison can look for in a line. -/
structure IsName (field : Bytes) : Prop where
  zero : 0 ∉ field
  cr : cr ∉ field

/-- What `str += strcspn(str, "\r")` and the step over a line end leave. -/
def afterLine (text : Bytes) : Bytes :=
  let rest := text.dropWhile fun chr => !([cr].contains chr)
  if crlf <+: rest then rest.drop 2 else rest

def blankless (text : Bytes) : Bytes :=
  text.dropWhile fun chr => [space, tab].contains chr

variable {field text : Bytes}

theorem Names.length (hnames : Names field text) : field.length + 1 ≤ text.length := by
  have := hnames.length_le
  simpa using this

theorem isField_text (hfield : IsName field) (text junk : Bytes) :
    isField (text ++ 0 :: junk) field = .ok (decide (Names field text)) := by
  have hview : ∀ chr ∈ field, tolower chr ≠ tolower 0 := by
    intro chr hchr heq
    have hzero : chr = 0 := (tolower_eq_iff chr (by decide)).mp (heq.trans (by decide))
    exact hfield.zero (hzero ▸ hchr)
  rw [isField, memCaseEqual, memEqualBy_text hview, ok_bind]
  by_cases hsame : field.map tolower <+: text.map tolower
  · rw [decide_eq_true hsame, if_pos rfl]
    have hlength : field.length ≤ text.length := by simpa using hsame.length_le
    obtain ⟨tail, htail⟩ := hsame
    have htail' : (text.drop field.length).map tolower = tail := by
      have := congrArg (List.drop field.length) htail
      rw [List.drop_left' (by simp)] at this
      rw [List.map_drop, this]
    have hnames : Names field text ↔ (text.drop field.length).head? = some colon := by
      rw [Names, List.map_append, ← htail, List.prefix_append_right_inj, ← htail']
      cases hdrop : text.drop field.length with
      | nil => simp
      | cons chr rest =>
          have hcolon := tolower_eq_iff chr (by decide : colon < 65)
          have hself : tolower colon = colon := by decide
          simp [hself, eq_comm (a := colon), hcolon]
    cases hdrop : text.drop field.length with
    | nil =>
        have hend : text.length = field.length := by
          have := congrArg List.length hdrop
          rw [List.length_drop, List.length_nil] at this
          omega
        have hbyte : byteAt (text ++ 0 :: junk) field.length = .ok 0 := by
          rw [byteAt_eq_ok, ← hend]
          simp
        rw [hbyte, ok_bind, decide_eq_false (by rw [hnames, hdrop]; simp)]
        rfl
    | cons chr rest =>
        have hbyte : byteAt (text ++ 0 :: junk) field.length = .ok chr := by
          have hlt : field.length < text.length := by
            have := congrArg List.length hdrop
            rw [List.length_drop, List.length_cons] at this
            omega
          rw [byteAt_eq_ok, List.getElem?_append_left hlt, ← List.head?_drop, hdrop]
          rfl
        rw [hbyte, ok_bind]
        have hiff : Names field text ↔ chr = colon := by rw [hnames, hdrop]; simp
        rw [show (chr == colon) = decide (chr = colon) from rfl, decide_eq_decide.mpr hiff]
        rfl
  · rw [decide_eq_false hsame]
    have hnot : ¬ Names field text := by
      intro hnames
      rw [Names, List.map_append] at hnames
      exact hsame ((List.prefix_append _ _).trans hnames)
    rw [decide_eq_false hnot]
    rfl

end Search

end FeedsService.Http
