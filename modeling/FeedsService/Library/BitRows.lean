import FeedsService.Library.CStrings
import Mathlib.Data.Nat.Bitwise

/-!
# Rows of bits

A row of bytes read as bits, the most significant bit of a byte first, and a cursor
that writes bits into it one behind the other.  Writing never leaves the row as
long as the bits fit, and touches no other bit.
-/

namespace FeedsService.Library

/-- The bit at a position of a row. -/
def bitAt (row : Bytes) (i : ℕ) : Option Bool :=
  row[i / 8]?.map fun byte => byte.toNat.testBit (7 - i % 8)

/-- The next bit: its byte, and its number in the byte, counted from below. -/
structure BitCursor where
  byte : ℕ
  bit : ℕ
  inByte : bit < 8

def BitCursor.position (cursor : BitCursor) : ℕ :=
  8 * cursor.byte + (7 - cursor.bit)

/-- The cursor at a position. -/
def BitCursor.at (position : ℕ) : BitCursor :=
  ⟨position / 8, 7 - position % 8, by omega⟩

@[simp]
theorem BitCursor.position_at (position : ℕ) : (BitCursor.at position).position = position := by
  simp only [BitCursor.position, BitCursor.at]
  omega

def BitCursor.next (cursor : BitCursor) : BitCursor :=
  if cursor.bit = 0 then ⟨cursor.byte + 1, 7, by omega⟩
  else ⟨cursor.byte, cursor.bit - 1, (Nat.sub_le _ _).trans_lt cursor.inByte⟩

@[simp]
theorem BitCursor.position_next (cursor : BitCursor) :
    cursor.next.position = cursor.position + 1 := by
  have := cursor.inByte
  unfold BitCursor.next BitCursor.position
  split <;> dsimp only <;> omega

/-- The low bit of a byte. -/
def lowBit (byte : UInt8) : Bool :=
  byte &&& 1 = 1

/-- Exclusive or with the low bit of a byte at the cursor. -/
def xorBit (row : Bytes) (cursor : BitCursor) (byte : UInt8) : Except Fault Bytes :=
  match row[cursor.byte]? with
  | none => .error .overflow
  | some old => .ok (row.set cursor.byte (old ^^^ ((byte &&& 1) <<< UInt8.ofNat cursor.bit)))

theorem testBit_lowBit (byte : UInt8) {bit other : ℕ} (hbit : bit < 8) (hother : other < 8) :
    ((byte &&& 1) <<< UInt8.ofNat bit).toNat.testBit other =
      (lowBit byte && decide (other = bit)) := by
  have hzero : ∀ bit other : Fin 8, ((0 : UInt8) <<< UInt8.ofNat bit).toNat.testBit other =
      false := by decide
  have hone : ∀ bit other : Fin 8, ((1 : UInt8) <<< UInt8.ofNat bit).toNat.testBit other =
      decide (other.val = bit.val) := by decide
  by_cases hlow : byte &&& 1 = 1
  · rw [lowBit, hlow]
    exact hone ⟨bit, hbit⟩ ⟨other, hother⟩
  · have hlow' : byte &&& 1 = 0 := by
      have hand : (byte &&& 1).toNat = byte.toNat % 2 := Nat.and_one_is_mod _
      have hne : (byte &&& 1).toNat ≠ 1 := fun heq => hlow (UInt8.toNat_inj.mp heq)
      exact UInt8.toNat_inj.mp (show _ = 0 by omega)
    rw [lowBit, hlow']
    exact hzero ⟨bit, hbit⟩ ⟨other, hother⟩

/-- A row after writing: which of its bits are turned. -/
structure Flipped (row row' : Bytes) (bits : ℕ → Bool) : Prop where
  length : row'.length = row.length
  flips : ∀ i, bitAt row' i = (bitAt row i).map fun bit => bit ^^ bits i

theorem Flipped.refl (row : Bytes) : Flipped row row fun _ => false where
  length := rfl
  flips i := by cases bitAt row i <;> simp

theorem Flipped.trans {row row' row'' : Bytes} {bits bits' : ℕ → Bool} (h : Flipped row row' bits)
    (h' : Flipped row' row'' bits') : Flipped row row'' fun i => bits i ^^ bits' i where
  length := h'.length.trans h.length
  flips i := by
    rw [h'.flips, h.flips, Option.map_map]
    exact congrArg (Option.map · _) (funext fun bit => Bool.xor_assoc bit (bits i) (bits' i))

theorem Flipped.congr {row row' : Bytes} {bits bits' : ℕ → Bool} (h : Flipped row row' bits)
    (heq : ∀ i, bits i = bits' i) : Flipped row row' bits' :=
  funext heq ▸ h

/-- One bit. -/
theorem xorBit_flipped (row : Bytes) (cursor : BitCursor)
    (hroom : cursor.position < 8 * row.length) (byte : UInt8) :
    ∃ row', xorBit row cursor byte = .ok row' ∧
      Flipped row row' fun i => lowBit byte && decide (i = cursor.position) := by
  have hbit := cursor.inByte
  have hbyte : cursor.byte < row.length := by
    unfold BitCursor.position at hroom
    omega
  rw [xorBit, List.getElem?_eq_getElem hbyte]
  refine ⟨_, rfl, List.length_set, fun i => ?_⟩
  rw [bitAt, bitAt, List.getElem?_set]
  by_cases hi : cursor.byte = i / 8
  · have hi' : i / 8 < row.length := hi ▸ hbyte
    have hsame : (7 - i % 8 = cursor.bit) ↔ i = cursor.position := by
      unfold BitCursor.position
      omega
    have hother : 7 - i % 8 < 8 := by omega
    rw [if_pos hi, if_pos hbyte, List.getElem?_eq_getElem hi', Option.map_some, Option.map_some,
      Option.map_some, UInt8.toNat_xor, Nat.testBit_xor, testBit_lowBit byte hbit hother]
    simp only [hi, hsame]
  · have hne : i ≠ cursor.position := by
      unfold BitCursor.position
      omega
    rw [if_neg hi, decide_eq_false hne, Bool.and_false]
    cases row[i / 8]? <;> simp

/-- The low bits of several bytes, one behind the other. -/
def xorBits : Bytes × BitCursor → Bytes → Except Fault (Bytes × BitCursor)
  | state, [] => .ok state
  | (row, cursor), byte :: bytes => do
      let row ← xorBit row cursor byte
      xorBits (row, cursor.next) bytes

theorem xorBits_append (state : Bytes × BitCursor) (bytes later : Bytes) :
    xorBits state (bytes ++ later) = xorBits state bytes >>= fun state => xorBits state later := by
  induction bytes generalizing state with
  | nil => rfl
  | cons byte bytes ih =>
      rw [List.cons_append, xorBits, xorBits]
      cases xorBit state.1 state.2 byte with
      | error fault => rfl
      | ok row => exact ih _

/-- The bits that are written from a position on. -/
def bitsFrom (start : ℕ) (bytes : Bytes) (i : ℕ) : Bool :=
  decide (start ≤ i) && (bytes[i - start]?.map lowBit).getD false

theorem bitsFrom_cons (start : ℕ) (byte : UInt8) (bytes : Bytes) (i : ℕ) :
    bitsFrom start (byte :: bytes) i =
      ((lowBit byte && decide (i = start)) ^^ bitsFrom (start + 1) bytes i) := by
  unfold bitsFrom
  obtain hlt | rfl | hgt := lt_trichotomy i start
  · simp [show ¬ start ≤ i by omega, show ¬ start + 1 ≤ i by omega, hlt.ne]
  · simp
  · obtain ⟨k, rfl⟩ := Nat.exists_eq_add_of_lt hgt
    simp [show start + k + 1 - start = k + 1 by omega,
      show start + k + 1 - (start + 1) = k by omega, show start ≤ start + k + 1 by omega,
      show start + k + 1 ≠ start by omega]

/-- As long as the bits fit, all are written, and nothing else. -/
theorem xorBits_flipped (row : Bytes) (cursor : BitCursor) {bytes : Bytes}
    (hroom : cursor.position + bytes.length ≤ 8 * row.length) :
    ∃ row' cursor', xorBits (row, cursor) bytes = .ok (row', cursor') ∧
      Flipped row row' (bitsFrom cursor.position bytes) := by
  induction bytes generalizing row cursor with
  | nil =>
      refine ⟨row, cursor, rfl, (Flipped.refl row).congr fun i => ?_⟩
      simp [bitsFrom]
  | cons byte bytes ih =>
      rw [List.length_cons] at hroom
      obtain ⟨first, hfirst, hflipped⟩ := xorBit_flipped row cursor (by omega) byte
      obtain ⟨row', cursor', hrest, hrest'⟩ := ih first cursor.next
        (by rw [BitCursor.position_next, hflipped.length]; omega)
      refine ⟨row', cursor', ?_, (hflipped.trans hrest').congr fun i => ?_⟩
      · rw [xorBits, hfirst, ok_bind, hrest]
      · rw [BitCursor.position_next, bitsFrom_cons]

/-- A row of bits that are all set. -/
theorem bitAt_replicate (n i : ℕ) :
    bitAt (List.replicate n 255) i = if i < 8 * n then some true else none := by
  have hset : ∀ k : Fin 8, (255 : UInt8).toNat.testBit k = true := by decide
  rw [bitAt, List.getElem?_replicate]
  by_cases hi : i < 8 * n
  · rw [if_pos hi, if_pos (by omega)]
    exact congrArg some (hset ⟨7 - i % 8, by omega⟩)
  · rw [if_neg hi, if_neg (by omega)]
    rfl

end FeedsService.Library
