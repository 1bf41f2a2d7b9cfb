import Mathlib.Data.List.TakeWhile
import FeedsService.Library.Bytes

/-!
# C strings in bounded buffers

The routines of `<string.h>` on buffers that end somewhere: a read or a write
past the end is a fault, as is following a null pointer.  A block that is cut
into pieces, each zeroed, keeps strings apart; `Arena.carve` cuts off the next
piece.
-/

namespace FeedsService.Library

/-- What a C routine can do wrong. -/
inductive Fault
  | nullDereference
  | overread
  | overflow
  deriving DecidableEq

theorem bind_eq_ok {ε α β : Type} {run : Except ε α} {next : α → Except ε β} {result : β} :
    (run >>= next) = .ok result ↔ ∃ value, run = .ok value ∧ next value = .ok result := by
  cases run with
  | error fault =>
      constructor
      · intro h
        cases h
      · rintro ⟨value, h, -⟩
        cases h
  | ok value =>
      constructor
      · intro h
        exact ⟨value, rfl, h⟩
      · rintro ⟨other, h, hnext⟩
        cases h
        exact hnext

@[simp]
theorem ok_bind {ε α β : Type} (value : α) (next : α → Except ε β) :
    (.ok value >>= next) = next value :=
  rfl

@[simp]
theorem error_bind {ε α β : Type} (fault : ε) (next : α → Except ε β) :
    (.error fault >>= next) = .error fault :=
  rfl

/-- The string a pointer to the buffer stands for: what is before the first
NUL. -/
def cString (buffer : Bytes) : Bytes :=
  buffer.takeWhile (· ≠ 0)

/-- The bytes of a string literal, without its NUL. -/
def bytesOf (text : String) : Bytes :=
  text.toList.map fun char => UInt8.ofNat char.toNat

/-- The array of a string literal. -/
def literal (text : String) : Bytes :=
  bytesOf text ++ [0]

/-- `!memcmp(left, right, size)`. -/
def memcmp (left right : Bytes) (size : ℕ) : Except Fault Bool :=
  if left.length < size ∨ right.length < size then .error .overread
  else .ok (left.take size == right.take size)

/-- `!strcmp(left, right)`. -/
def strcmp : Bytes → Bytes → Except Fault Bool
  | [], _ => .error .overread
  | _ :: _, [] => .error .overread
  | x :: left, y :: right =>
    if x ≠ y then .ok false else if x = 0 then .ok true else strcmp left right

/-- `strncpy(buffer, text, size)`: what is left of `size` after the string is
filled with NULs. -/
def strncpy (buffer text : Bytes) (size : ℕ) : Except Fault Bytes :=
  if buffer.length < size then .error .overflow
  else if text.length < size ∧ 0 ∉ text then .error .overread
  else
    let copied := cString (text.take size)
    .ok (copied ++ List.replicate (size - copied.length) 0 ++ buffer.drop size)

theorem length_cString_le (buffer : Bytes) : (cString buffer).length ≤ buffer.length :=
  List.Sublist.length_le (List.takeWhile_sublist _)

theorem cString_eq_self {buffer : Bytes} : cString buffer = buffer ↔ 0 ∉ buffer := by
  rw [cString, List.takeWhile_eq_self_iff]
  constructor
  · intro h hzero
    simpa using h 0 hzero
  · intro h byte hbyte
    have hne : byte ≠ 0 := by
      intro heq
      exact h (heq ▸ hbyte)
    simpa using hne

theorem zero_notMem_cString (buffer : Bytes) : 0 ∉ cString buffer := by
  intro hzero
  have h := List.mem_takeWhile_imp hzero
  simp at h

theorem cString_append_zero {text : Bytes} (htext : 0 ∉ text) (rest : Bytes) :
    cString (text ++ 0 :: rest) = text := by
  rw [cString, List.takeWhile_append_of_pos]
  · simp
  · intro byte hbyte
    have hne : byte ≠ 0 := by
      intro heq
      exact htext (heq ▸ hbyte)
    simpa using hne

/-- A string that is followed by NULs only. -/
theorem cString_padded (buffer : Bytes) (count : ℕ) :
    cString (cString buffer ++ List.replicate count 0) = cString buffer := by
  cases count with
  | zero =>
      rw [List.replicate_zero, List.append_nil]
      exact cString_eq_self.mpr (zero_notMem_cString buffer)
  | succ count => exact cString_append_zero (zero_notMem_cString buffer) _

theorem memcmp_eq_ok {left right : Bytes} {size : ℕ} {equal : Bool} :
    memcmp left right size = .ok equal ↔
      size ≤ left.length ∧ size ≤ right.length ∧
        (left.take size == right.take size) = equal := by
  unfold memcmp
  split
  · constructor
    · intro h
      cases h
    · rintro ⟨hleft, hright, -⟩
      omega
  · rw [Except.ok.injEq]
    constructor
    · intro h
      exact ⟨by omega, by omega, h⟩
    · rintro ⟨-, -, h⟩
      exact h

/-- A comparison stays inside a buffer that is longer than the other string,
whose NUL stops it, or has a NUL of its own. -/
theorem strcmp_terminated {text : Bytes} (htext : 0 ∉ text) {buffer : Bytes}
    (hends : text.length < buffer.length ∨ 0 ∈ buffer) :
    strcmp buffer (text ++ [0]) = .ok (decide (cString buffer = text)) := by
  induction buffer generalizing text with
  | nil => simp at hends
  | cons x buffer ih =>
      cases text with
      | nil =>
          rw [List.nil_append, strcmp, cString, List.takeWhile_cons]
          by_cases hx : x = 0 <;> simp [hx]
      | cons y text =>
          have hy : y ≠ 0 := by
            intro heq
            exact htext (heq ▸ List.mem_cons_self)
          rw [List.cons_append, strcmp]
          by_cases hxy : x = y
          · have hx : x ≠ 0 := hxy ▸ hy
            have hrest : 0 ∉ text := fun h => htext (List.mem_cons_of_mem _ h)
            have hleft : text.length < buffer.length ∨ 0 ∈ buffer := by
              apply hends.imp
              · intro hlong
                simpa using hlong
              · intro hzero
                exact (List.mem_cons.mp hzero).resolve_left (Ne.symm hx)
            rw [if_neg (not_not.mpr hxy), if_neg hx, ih hrest hleft]
            simp [cString, hxy, hy]
          · rw [if_pos hxy]
            by_cases hx : x = 0 <;> simp [cString, hx, hxy]

theorem strcmp_literal {text : String} (htext : 0 ∉ bytesOf text) {buffer : Bytes}
    (hlong : (bytesOf text).length < buffer.length) :
    strcmp buffer (literal text) = .ok (decide (cString buffer = bytesOf text)) :=
  strcmp_terminated htext (Or.inl hlong)

/-- Copying a whole string of known size. -/
theorem strncpy_eq_ok {buffer text result : Bytes} :
    strncpy buffer text text.length = .ok result ↔
      text.length ≤ buffer.length ∧
        result = cString text ++ List.replicate (text.length - (cString text).length) 0 ++
          buffer.drop text.length := by
  unfold strncpy
  rw [List.take_length]
  split
  · constructor
    · intro h
      cases h
    · rintro ⟨h, -⟩
      omega
  · rw [if_neg (by simp)]
    rw [Except.ok.injEq]
    constructor
    · intro h
      exact ⟨by omega, h.symm⟩
    · rintro ⟨-, h⟩
      exact h.symm

/-- A zeroed buffer. -/
def zeroed (size : ℕ) : Bytes :=
  List.replicate size 0

@[simp]
theorem length_zeroed (size : ℕ) : (zeroed size).length = size :=
  List.length_replicate

/-- What a zeroed buffer holds after a copy. -/
theorem strncpy_zeroed {size : ℕ} {text : Bytes} (hfits : text.length ≤ size) :
    strncpy (zeroed size) text text.length =
      .ok (cString text ++ zeroed (size - (cString text).length)) := by
  have hshort := length_cString_le text
  rw [strncpy_eq_ok]
  constructor
  · simpa using hfits
  · rw [zeroed, zeroed, List.drop_replicate, List.append_assoc,
      List.replicate_append_replicate]
    congr 2
    omega

/-- A block of memory with what is cut off its start so far. -/
structure Arena where
  size : ℕ
  used : ℕ
  deriving DecidableEq

/-- The next piece of the block, of `room` bytes. -/
def Arena.carve (arena : Arena) (room : ℕ) : Except Fault Arena :=
  if arena.size < arena.used + room then .error .overflow
  else .ok { arena with used := arena.used + room }

/-- A string copied to the next piece, which is zeroed. -/
def Arena.copy (arena : Arena) (room : ℕ) (text : Bytes) : Except Fault (Arena × Bytes) := do
  let rest ← arena.carve room
  let piece ← strncpy (zeroed room) text text.length
  return (rest, piece)

theorem Arena.carve_eq_ok {arena rest : Arena} {room : ℕ} :
    arena.carve room = .ok rest ↔
      arena.used + room ≤ arena.size ∧ rest = { arena with used := arena.used + room } := by
  unfold Arena.carve
  split
  · constructor
    · intro h
      cases h
    · rintro ⟨h, -⟩
      omega
  · rw [Except.ok.injEq]
    constructor
    · intro h
      exact ⟨by omega, h.symm⟩
    · rintro ⟨-, h⟩
      exact h.symm

theorem Arena.copy_eq_ok {arena rest : Arena} {room : ℕ} {text piece : Bytes} :
    arena.copy room text = .ok (rest, piece) ↔
      (arena.used + room ≤ arena.size ∧ text.length ≤ room) ∧
        rest = { arena with used := arena.used + room } ∧
        piece = cString text ++ zeroed (room - (cString text).length) := by
  unfold Arena.copy
  rw [bind_eq_ok]
  constructor
  · rintro ⟨next, hnext, h⟩
    obtain ⟨hroom, rfl⟩ := carve_eq_ok.mp hnext
    rw [bind_eq_ok] at h
    obtain ⟨copied, hcopied, h⟩ := h
    cases h
    have hfits : text.length ≤ room := by
      have := (strncpy_eq_ok.mp hcopied).1
      simpa using this
    rw [strncpy_zeroed hfits, Except.ok.injEq] at hcopied
    exact ⟨⟨hroom, hfits⟩, rfl, hcopied.symm⟩
  · rintro ⟨⟨hroom, hfits⟩, rfl, rfl⟩
    refine ⟨_, carve_eq_ok.mpr ⟨hroom, rfl⟩, ?_⟩
    rw [bind_eq_ok]
    exact ⟨_, strncpy_zeroed hfits, rfl⟩

end FeedsService.Library
