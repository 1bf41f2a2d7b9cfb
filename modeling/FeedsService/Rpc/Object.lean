import FeedsService.Library.CStrings
import FeedsService.Library.Positional

/-!
# Decoded messages and the lookups of `rpc.c`

A message is what `msgpack_unpack_next` makes of a packet.  `map_nxt_val_*`
look at one entry of a map, the one at `*nxt_idx`, and step over it when its
key and its type are the wanted ones; a null map has no entries.
-/

namespace FeedsService.Rpc

open FeedsService.Library

/-- Bytes with the 32-bit size of a `msgpack_object_str`. -/
abbrev Sized := { bytes : Bytes // bytes.length < 2 ^ 32 }

/-- `msgpack_object`. -/
inductive Object
  | nil
  | boolean (value : Bool)
  | positiveInteger (value : UInt64)
  | negativeInteger (value : Int64)
  | float32 (bits : UInt32)
  | float64 (bits : UInt64)
  | str (value : Sized)
  | array (values : List Object)
  | map (entries : List (Object × Object))
  | bin (value : Sized)
  | ext (type : Int8) (value : Sized)

abbrev Entries := List (Object × Object)

/-- The entry has a string key equal to `key`. -/
def names (key : String) : Object → Bool
  | .str bytes => bytes.val == bytesOf key
  | _ => false

def mapKeyCorrect (map : Entries) (idx : ℕ) (key : String) : Except Fault Bool :=
  match map[idx]? with
  | some (.str bytes, _) =>
    if bytes.val.length = (bytesOf key).length then
      memcmp bytes.val (literal key) (bytesOf key).length
    else .ok false
  | _ => .ok false

section NextValue

variable {α : Type}

/-- The value at `*nxt_idx` when the key is `key` and `type` accepts the
value, and the next index. -/
def mapNxtVal (type : Object → Option α) (map : Option Entries) (nxtIdx : ℕ) (key : String) :
    Except Fault (Option α × ℕ) := do
  let some entries := map | return (none, nxtIdx)
  if ← mapKeyCorrect entries nxtIdx key then
    match entries[nxtIdx]?.bind (type ·.2) with
    | some value => return (some value, nxtIdx + 1)
    | none => return (none, nxtIdx)
  else return (none, nxtIdx)

end NextValue

def Object.asStr : Object → Option Sized
  | .str value => some value
  | _ => none

def Object.asU64 : Object → Option UInt64
  | .positiveInteger value => some value
  | _ => none

def Object.asMap : Object → Option Entries
  | .map entries => some entries
  | _ => none

def Object.asBin : Object → Option Sized
  | .bin value => some value
  | _ => none

def Object.asBool : Object → Option Bool
  | .boolean value => some value
  | _ => none

def mapNxtValStr := mapNxtVal Object.asStr

def mapNxtValU64 := mapNxtVal Object.asU64

def mapNxtValMap := mapNxtVal Object.asMap

def mapNxtValBin := mapNxtVal Object.asBin

def mapNxtValBool := mapNxtVal Object.asBool

/-! ## What the lookups do -/

/-- The comparison of a key stays inside both strings: their sizes agree. -/
theorem mapKeyCorrect_eq (map : Entries) (idx : ℕ) (key : String) :
    mapKeyCorrect map idx key = .ok (map[idx]?.any (names key ·.1)) := by
  unfold mapKeyCorrect
  cases hentry : map[idx]? with
  | none => rfl
  | some entry =>
      obtain ⟨name, value⟩ := entry
      cases name with
      | str bytes =>
          simp only [Option.any_some, names]
          split
          next hlength =>
            rw [memcmp_eq_ok]
            refine ⟨by omega, by simp [literal], ?_⟩
            rw [← hlength, List.take_length, hlength, literal, List.take_left]
          next hlength =>
            have hne : bytes.val ≠ bytesOf key := by
              intro heq
              exact hlength (congrArg List.length heq)
            simp [hne]
      | _ => rfl

/-- The value an entry gives to a lookup. -/
def pickVal {α : Type} (type : Object → Option α) (key : String) (entry : Object × Object) :
    Option α :=
  if names key entry.1 then type entry.2 else none

/-- A lookup takes the entry at its index or leaves the index alone. -/
theorem mapNxtVal_eq {α : Type} (type : Object → Option α) (entries : Entries) (nxtIdx : ℕ)
    (key : String) :
    mapNxtVal type (some entries) nxtIdx key =
      .ok (match entries[nxtIdx]?.bind (pickVal type key) with
        | some value => (some value, nxtIdx + 1)
        | none => (none, nxtIdx)) := by
  simp only [mapNxtVal, mapKeyCorrect_eq, ok_bind]
  cases hentry : entries[nxtIdx]? with
  | none => rfl
  | some entry =>
      simp only [Option.any_some, Option.bind_some, pickVal]
      by_cases hname : names key entry.1 = true
      · simp only [hname, if_true]
        cases hvalue : type entry.2 with
        | none => rfl
        | some value => rfl
      · simp only [hname]
        rfl

theorem mapNxtVal_null {α : Type} (type : Object → Option α) (nxtIdx : ℕ) (key : String) :
    mapNxtVal type none nxtIdx key = .ok (none, nxtIdx) :=
  rfl

end FeedsService.Rpc
