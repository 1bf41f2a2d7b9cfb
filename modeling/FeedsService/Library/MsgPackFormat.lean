import Mathlib.Tactic.SplitIfs
import Mathlib.Tactic.Positivity
import FeedsService.Library.MsgPack

/-!
# The MessagePack format

How the specification of MessagePack writes a token.  A packer takes the shortest
form; a reader accepts all of them.  Floating-point numbers and extensions are
left out.
-/

namespace FeedsService.Library.MsgPack

section Encode

def encodeInt (value : ℤ) : Bytes :=
  if 0 ≤ value then
    if value < 0x80 then [.ofNat value.toNat]
    else if value < 2 ^ 8 then 0xcc :: encodeBE 1 value.toNat
    else if value < 2 ^ 16 then 0xcd :: encodeBE 2 value.toNat
    else if value < 2 ^ 32 then 0xce :: encodeBE 4 value.toNat
    else 0xcf :: encodeBE 8 value.toNat
  else
    if -32 ≤ value then [.ofNat (value + 256).toNat]
    else if -2 ^ 7 ≤ value then 0xd0 :: encodeBE 1 (value + 2 ^ 8).toNat
    else if -2 ^ 15 ≤ value then 0xd1 :: encodeBE 2 (value + 2 ^ 16).toNat
    else if -2 ^ 31 ≤ value then 0xd2 :: encodeBE 4 (value + 2 ^ 32).toNat
    else 0xd3 :: encodeBE 8 (value + 2 ^ 64).toNat

def encodeScalar : Scalar → Bytes
  | .nil => [0xc0]
  | .boolean value => if value then [0xc3] else [0xc2]
  | .int value => encodeInt value
  | .str bytes =>
      (if bytes.length < 32 then [.ofNat (0xa0 + bytes.length)]
      else if bytes.length < 2 ^ 8 then 0xd9 :: encodeBE 1 bytes.length
      else if bytes.length < 2 ^ 16 then 0xda :: encodeBE 2 bytes.length
      else 0xdb :: encodeBE 4 bytes.length) ++ bytes
  | .bin bytes =>
      (if bytes.length < 2 ^ 8 then 0xc4 :: encodeBE 1 bytes.length
      else if bytes.length < 2 ^ 16 then 0xc5 :: encodeBE 2 bytes.length
      else 0xc6 :: encodeBE 4 bytes.length) ++ bytes

def encodeToken : Token → Bytes
  | .scalar value => encodeScalar value
  | .array size =>
      if size < 16 then [.ofNat (0x90 + size)]
      else if size < 2 ^ 16 then 0xdc :: encodeBE 2 size
      else 0xdd :: encodeBE 4 size
  | .map size =>
      if size < 16 then [.ofNat (0x80 + size)]
      else if size < 2 ^ 16 then 0xde :: encodeBE 2 size
      else 0xdf :: encodeBE 4 size

end Encode

section Decode

/-- What the first byte of a token says.  The number behind it has as many bytes as the
field tells. -/
inductive Format
  | whole (token : Token)
  | body (make : Bytes → Scalar) (length : ℕ)
  | unsigned (width : ℕ)
  | signed (width : ℕ)
  | sizedBody (make : Bytes → Scalar) (width : ℕ)
  | sizedArray (width : ℕ)
  | sizedMap (width : ℕ)

/-- The formats that have a byte of their own. -/
def fixedFormat : ℕ → Option Format
  | 0xc0 => some (.whole (.scalar .nil))
  | 0xc2 => some (.whole (.scalar (.boolean false)))
  | 0xc3 => some (.whole (.scalar (.boolean true)))
  | 0xc4 => some (.sizedBody .bin 1)
  | 0xc5 => some (.sizedBody .bin 2)
  | 0xc6 => some (.sizedBody .bin 4)
  | 0xcc => some (.unsigned 1)
  | 0xcd => some (.unsigned 2)
  | 0xce => some (.unsigned 4)
  | 0xcf => some (.unsigned 8)
  | 0xd0 => some (.signed 1)
  | 0xd1 => some (.signed 2)
  | 0xd2 => some (.signed 4)
  | 0xd3 => some (.signed 8)
  | 0xd9 => some (.sizedBody .str 1)
  | 0xda => some (.sizedBody .str 2)
  | 0xdb => some (.sizedBody .str 4)
  | 0xdc => some (.sizedArray 2)
  | 0xdd => some (.sizedArray 4)
  | 0xde => some (.sizedMap 2)
  | 0xdf => some (.sizedMap 4)
  | _ => none

def formatOf (lead : ℕ) : Option Format :=
  if lead < 0x80 then some (.whole (.scalar (.int lead)))
  else if lead < 0x90 then some (.whole (.map (lead - 0x80)))
  else if lead < 0xa0 then some (.whole (.array (lead - 0x90)))
  else if lead < 0xc0 then some (.body .str (lead - 0xa0))
  else if 0xe0 ≤ lead then some (.whole (.scalar (.int (lead - 256))))
  else fixedFormat lead

/-- The first bytes and the rest, when there are enough. -/
def splitBytes (length : ℕ) (bytes : Bytes) : Option (Bytes × Bytes) :=
  if length ≤ bytes.length then some (bytes.take length, bytes.drop length) else none

def readBE (width : ℕ) (bytes : Bytes) : Option (ℕ × Bytes) :=
  (splitBytes width bytes).map fun halves => (decodeBE halves.1, halves.2)

def Format.read : Format → Bytes → Option (Token × Bytes)
  | .whole token, rest => some (token, rest)
  | .body make length, rest =>
      (splitBytes length rest).map fun halves => (.scalar (make halves.1), halves.2)
  | .unsigned width, rest =>
      (readBE width rest).map fun found => (.scalar (.int found.1), found.2)
  | .signed width, rest =>
      (readBE width rest).map fun found =>
        (.scalar (.int (if found.1 < 2 ^ (8 * width - 1) then (found.1 : ℤ)
          else found.1 - 2 ^ (8 * width))), found.2)
  | .sizedBody make width, rest => do
      let (length, rest) ← readBE width rest
      let (bytes, rest) ← splitBytes length rest
      return (.scalar (make bytes), rest)
  | .sizedArray width, rest =>
      (readBE width rest).map fun found => (.array found.1, found.2)
  | .sizedMap width, rest =>
      (readBE width rest).map fun found => (.map found.1, found.2)

def nextToken : Bytes → Option (ValidToken × Bytes)
  | [] => none
  | lead :: rest => do
    let format ← formatOf lead.toNat
    let (token, rest) ← format.read rest
    if h : token.Valid then return (⟨token, h⟩, rest) else none

theorem splitBytes_append (bytes rest : Bytes) :
    splitBytes bytes.length (bytes ++ rest) = some (bytes, rest) := by
  simp [splitBytes]

theorem readBE_append {width value : ℕ} (hvalue : value < 256 ^ width) (rest : Bytes) :
    readBE width (encodeBE width value ++ rest) = some (value, rest) := by
  have hsplit := splitBytes_append (encodeBE width value) rest
  rw [length_encodeBE] at hsplit
  rw [readBE, hsplit, Option.map_some, decodeBE_encodeBE, Nat.mod_eq_of_lt hvalue]

/-- A token is read when its format reads it. -/
theorem nextToken_cons {lead : UInt8} {format : Format} {token : ValidToken}
    {bytes rest : Bytes} (hformat : formatOf lead.toNat = some format)
    (hread : format.read (bytes ++ rest) = some (token.val, rest)) :
    nextToken (lead :: bytes ++ rest) = some (token, rest) := by
  rw [List.cons_append, nextToken, hformat]
  simp [hread, token.property]

theorem formatOf_ofNat {value : ℕ} (hvalue : value < 256) :
    formatOf (UInt8.ofNat value).toNat = formatOf value := by
  rw [UInt8.toNat_ofNat', Nat.mod_eq_of_lt hvalue]

theorem nextToken_whole {lead : ℕ} {token : ValidToken} (hlead : lead < 256)
    (hformat : formatOf lead = some (.whole token.val)) (rest : Bytes) :
    nextToken ([.ofNat lead] ++ rest) = some (token, rest) :=
  nextToken_cons ((formatOf_ofNat hlead).trans hformat) rfl

theorem nextToken_sizedBody {lead : UInt8} {make : Bytes → Scalar} {width : ℕ} {bytes : Bytes}
    (hformat : formatOf lead.toNat = some (.sizedBody make width))
    (hfits : bytes.length < 256 ^ width) (hvalid : (Token.scalar (make bytes)).Valid)
    (rest : Bytes) :
    nextToken (lead :: encodeBE width bytes.length ++ bytes ++ rest) =
      some (⟨.scalar (make bytes), hvalid⟩, rest) := by
  rw [List.cons_append]
  refine nextToken_cons hformat ?_
  rw [List.append_assoc, Format.read, readBE_append hfits]
  simp [splitBytes_append]

theorem nextToken_unsigned {lead : UInt8} {width : ℕ} {value : ℤ}
    (hformat : formatOf lead.toNat = some (.unsigned width)) (hvalue : 0 ≤ value)
    (hfits : value.toNat < 256 ^ width) (hvalid : (Token.scalar (.int value)).Valid)
    (rest : Bytes) :
    nextToken (lead :: encodeBE width value.toNat ++ rest) =
      some (⟨.scalar (.int value), hvalid⟩, rest) := by
  refine nextToken_cons hformat ?_
  simp only [Format.read, readBE_append hfits, Option.map_some, Int.toNat_of_nonneg hvalue]

theorem nextToken_signed {lead : UInt8} {width : ℕ} {value : ℤ}
    (hformat : formatOf lead.toNat = some (.signed width)) (hvalue : value < 0)
    (hlow : 2 ^ (8 * width - 1) ≤ value + 2 ^ (8 * width)) (hpow : 256 ^ width = 2 ^ (8 * width))
    (hvalid : (Token.scalar (.int value)).Valid) (rest : Bytes) :
    nextToken (lead :: encodeBE width (value + 2 ^ (8 * width)).toNat ++ rest) =
      some (⟨.scalar (.int value), hvalid⟩, rest) := by
  have hcast : ((value + 2 ^ (8 * width)).toNat : ℤ) = value + 2 ^ (8 * width) :=
    Int.toNat_of_nonneg (le_trans (by positivity) hlow)
  have hfits : (value + 2 ^ (8 * width)).toNat < 256 ^ width := by
    rw [hpow]
    have hlt : ((value + 2 ^ (8 * width)).toNat : ℤ) < (2 ^ (8 * width) : ℕ) := by
      rw [hcast]
      push_cast
      omega
    exact_mod_cast hlt
  have hhigh : ¬(value + 2 ^ (8 * width)).toNat < 2 ^ (8 * width - 1) := by
    intro hlt
    have hlt' : ((value + 2 ^ (8 * width)).toNat : ℤ) < (2 ^ (8 * width - 1) : ℕ) := by
      exact_mod_cast hlt
    rw [hcast] at hlt'
    push_cast at hlt'
    omega
  have hback : value + 2 ^ (8 * width) - 2 ^ (8 * width) = value := by omega
  refine nextToken_cons hformat ?_
  simp only [Format.read, readBE_append hfits, Option.map_some, if_neg hhigh, hcast, hback]

theorem nextToken_encodeInt (value : ℤ) (hvalid : (Token.scalar (.int value)).Valid)
    (rest : Bytes) :
    nextToken (encodeInt value ++ rest) = some (⟨.scalar (.int value), hvalid⟩, rest) := by
  obtain ⟨hlow, hhigh⟩ := hvalid
  rw [encodeInt]
  split_ifs with hsign hfix h1 h2 h4 hneg hs1 hs2 hs4
  · have hformat : formatOf value.toNat = some (.whole (.scalar (.int value))) := by
      rw [formatOf, if_pos (by omega), Int.toNat_of_nonneg hsign]
    exact nextToken_whole (by omega) hformat rest
  · exact nextToken_unsigned rfl hsign (by omega) ⟨hlow, hhigh⟩ rest
  · exact nextToken_unsigned rfl hsign (by omega) ⟨hlow, hhigh⟩ rest
  · exact nextToken_unsigned rfl hsign (by omega) ⟨hlow, hhigh⟩ rest
  · exact nextToken_unsigned rfl hsign (by omega) ⟨hlow, hhigh⟩ rest
  · have hformat : formatOf (value + 256).toNat = some (.whole (.scalar (.int value))) := by
      have hvalue : ((value + 256).toNat : ℤ) - 256 = value := by omega
      rw [formatOf, if_neg (by omega), if_neg (by omega), if_neg (by omega),
        if_neg (by omega), if_pos (by omega), hvalue]
    exact nextToken_whole (by omega) hformat rest
  · exact nextToken_signed rfl (by omega) (by omega) rfl ⟨hlow, hhigh⟩ rest
  · exact nextToken_signed rfl (by omega) (by omega) rfl ⟨hlow, hhigh⟩ rest
  · exact nextToken_signed rfl (by omega) (by omega) rfl ⟨hlow, hhigh⟩ rest
  · exact nextToken_signed rfl (by omega) (by omega) rfl ⟨hlow, hhigh⟩ rest

theorem nextToken_encodeScalar (value : Scalar) (hvalid : (Token.scalar value).Valid)
    (rest : Bytes) :
    nextToken (encodeScalar value ++ rest) = some (⟨.scalar value, hvalid⟩, rest) := by
  cases value with
  | nil => rfl
  | boolean value => cases value <;> rfl
  | int value => exact nextToken_encodeInt value hvalid rest
  | str bytes =>
      have hlength : bytes.length < 2 ^ 32 := hvalid
      rw [encodeScalar]
      split_ifs with hfix h1 h2
      · have hformat : formatOf (0xa0 + bytes.length) = some (.body .str bytes.length) := by
          rw [formatOf, if_neg (by omega), if_neg (by omega), if_neg (by omega),
            if_pos (by omega), Nat.add_sub_cancel_left]
        refine nextToken_cons ((formatOf_ofNat (by omega)).trans hformat) ?_
        simp [Format.read, splitBytes_append]
      · exact nextToken_sizedBody rfl (by omega) hvalid rest
      · exact nextToken_sizedBody rfl (by omega) hvalid rest
      · exact nextToken_sizedBody rfl (by omega) hvalid rest
  | bin bytes =>
      have hlength : bytes.length < 2 ^ 32 := hvalid
      rw [encodeScalar]
      split_ifs with h1 h2
      · exact nextToken_sizedBody rfl (by omega) hvalid rest
      · exact nextToken_sizedBody rfl (by omega) hvalid rest
      · exact nextToken_sizedBody rfl (by omega) hvalid rest

/-- Every token that has a format is read back. -/
theorem nextToken_encodeToken (token : ValidToken) (rest : Bytes) :
    nextToken (encodeToken token.val ++ rest) = some (token, rest) := by
  obtain ⟨token, hvalid⟩ := token
  cases token with
  | scalar value => exact nextToken_encodeScalar value hvalid rest
  | array size =>
      have hsize : size < 2 ^ 32 := hvalid
      rw [encodeToken]
      split_ifs with hfix h2
      · have hformat : formatOf (0x90 + size) = some (.whole (.array size)) := by
          rw [formatOf, if_neg (by omega), if_neg (by omega), if_pos (by omega),
            Nat.add_sub_cancel_left]
        exact nextToken_whole (by omega) hformat rest
      · exact nextToken_cons rfl (by rw [Format.read, readBE_append (by omega)]; rfl)
      · exact nextToken_cons rfl (by rw [Format.read, readBE_append (by omega)]; rfl)
  | map size =>
      have hsize : size < 2 ^ 32 := hvalid
      rw [encodeToken]
      split_ifs with hfix h2
      · have hformat : formatOf (0x80 + size) = some (.whole (.map size)) := by
          rw [formatOf, if_neg (by omega), if_pos (by omega), Nat.add_sub_cancel_left]
        exact nextToken_whole (by omega) hformat rest
      · exact nextToken_cons rfl (by rw [Format.read, readBE_append (by omega)]; rfl)
      · exact nextToken_cons rfl (by rw [Format.read, readBE_append (by omega)]; rfl)

theorem encodeToken_ne_nil (token : Token) : encodeToken token ≠ [] := by
  cases token with
  | scalar value =>
      cases value with
      | nil => exact List.cons_ne_nil _ _
      | boolean value => cases value <;> exact List.cons_ne_nil _ _
      | int value =>
          rw [encodeToken, encodeScalar, encodeInt]
          split_ifs <;> exact List.cons_ne_nil _ _
      | str bytes =>
          rw [encodeToken, encodeScalar]
          split_ifs <;> exact List.cons_ne_nil _ _
      | bin bytes =>
          rw [encodeToken, encodeScalar]
          split_ifs <;> exact List.cons_ne_nil _ _
  | array size =>
      rw [encodeToken]
      split_ifs <;> exact List.cons_ne_nil _ _
  | map size =>
      rw [encodeToken]
      split_ifs <;> exact List.cons_ne_nil _ _

/-- The format that the specification of MessagePack gives, with the shortest form for
every token. -/
def standard : Codec where
  encode := encodeToken
  next := nextToken
  encode_ne_nil := encodeToken_ne_nil
  next_encode := nextToken_encodeToken

end Decode

section Length

/-- The bytes of a token that are no header. -/
def Token.payload : Token → ℕ
  | .scalar (.str bytes) => bytes.length
  | .scalar (.bin bytes) => bytes.length
  | _ => 0

def Packed.payload : Packed → ℕ
  | .done => 0
  | .scalar value rest => (Token.scalar value).payload + rest.payload
  | .array _ body rest => body.payload + rest.payload
  | .map _ body rest => body.payload + rest.payload

theorem length_encodeToken_le (token : Token) :
    (encodeToken token).length ≤ token.payload + 9 := by
  cases token with
  | scalar value =>
      cases value with
      | nil => simp [encodeToken, encodeScalar]
      | boolean value => cases value <;> simp [encodeToken, encodeScalar]
      | int value =>
          rw [encodeToken, encodeScalar, encodeInt]
          split_ifs <;> simp
      | str bytes =>
          rw [encodeToken, encodeScalar]
          split_ifs <;> simp [Token.payload] <;> omega
      | bin bytes =>
          rw [encodeToken, encodeScalar]
          split_ifs <;> simp [Token.payload] <;> omega
  | array size =>
      rw [encodeToken]
      split_ifs <;> simp
  | map size =>
      rw [encodeToken]
      split_ifs <;> simp

/-- A header is nine bytes at most. -/
theorem Packed.length_bytes_le (packed : Packed) :
    (packed.bytes standard).length ≤ packed.payload + 9 * packed.calls := by
  induction packed with
  | done => exact Nat.le_refl 0
  | scalar value rest ih =>
      have htoken := length_encodeToken_le (.scalar value)
      have hencode : standard.encode (.scalar value) = encodeToken (.scalar value) := rfl
      rw [bytes, List.length_append, hencode, payload, calls]
      omega
  | array size body rest ihBody ihRest =>
      have htoken : (encodeToken (.array size)).length ≤ 0 + 9 := length_encodeToken_le _
      have hencode : standard.encode (.array size) = encodeToken (.array size) := rfl
      rw [bytes, List.length_append, List.length_append, hencode, payload, calls]
      omega
  | map size body rest ihBody ihRest =>
      have htoken : (encodeToken (.map size)).length ≤ 0 + 9 := length_encodeToken_le _
      have hencode : standard.encode (.map size) = encodeToken (.map size) := rfl
      rw [bytes, List.length_append, List.length_append, hencode, payload, calls]
      omega

end Length

end FeedsService.Library.MsgPack
