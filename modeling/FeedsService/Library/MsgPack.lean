import FeedsService.Library.Bytes

/-!
# MessagePack

A message is a sequence of tokens.  The header of an array or of a map says how
many objects follow that belong to it, and nothing else marks where it ends, so
that a reader relies on the headers.

A `Codec` says how one token is written and read back; `Codec.read` reads objects.
`Packed` records the calls a packer gets, with what they put into a header beside
what follows it.
-/

namespace FeedsService.Library.MsgPack

inductive Scalar
  | nil
  | boolean (value : Bool)
  | int (value : ℤ)
  | str (bytes : Bytes)
  | bin (bytes : Bytes)
  deriving DecidableEq

inductive Token
  | scalar (value : Scalar)
  | array (size : ℕ)
  | map (size : ℕ)
  deriving DecidableEq

/-- What there is a format for. -/
def Scalar.Valid : Scalar → Prop
  | .nil => True
  | .boolean _ => True
  | .int value => -2 ^ 63 ≤ value ∧ value < 2 ^ 64
  | .str bytes => bytes.length < 2 ^ 32
  | .bin bytes => bytes.length < 2 ^ 32

def Token.Valid : Token → Prop
  | .scalar value => value.Valid
  | .array size => size < 2 ^ 32
  | .map size => size < 2 ^ 32

instance : DecidablePred Scalar.Valid := fun value =>
  match value with
  | .nil => .isTrue trivial
  | .boolean _ => .isTrue trivial
  | .int value => inferInstanceAs (Decidable (-2 ^ 63 ≤ value ∧ value < 2 ^ 64))
  | .str bytes => inferInstanceAs (Decidable (bytes.length < 2 ^ 32))
  | .bin bytes => inferInstanceAs (Decidable (bytes.length < 2 ^ 32))

instance : DecidablePred Token.Valid := fun token =>
  match token with
  | .scalar value => inferInstanceAs (Decidable value.Valid)
  | .array size => inferInstanceAs (Decidable (size < 2 ^ 32))
  | .map size => inferInstanceAs (Decidable (size < 2 ^ 32))

abbrev ValidScalar := { value : Scalar // value.Valid }

abbrev ValidToken := { token : Token // token.Valid }

/-- How a token is written and how the next one is read. -/
structure Codec where
  encode : Token → Bytes
  next : Bytes → Option (ValidToken × Bytes)
  encode_ne_nil : ∀ token, encode token ≠ []
  next_encode : ∀ (token : ValidToken) (rest : Bytes),
    next (encode token.val ++ rest) = some (token, rest)

/-- How the objects that are read are represented. -/
structure Shape (O : Type) where
  scalar : ValidScalar → O
  array : List O → O
  map : List (O × O) → O

/-- The entries of a map: each key is followed by its value. -/
def entries {O : Type} : List O → List (O × O)
  | key :: value :: rest => (key, value) :: entries rest
  | _ => []

section Reading

variable {O : Type} (codec : Codec) (shape : Shape O)

/-- Reads `count` objects; the fuel bounds the tokens. -/
def Codec.read : ℕ → ℕ → Bytes → Option (List O × Bytes)
  | _, 0, bytes => some ([], bytes)
  | 0, _ + 1, _ => none
  | fuel + 1, count + 1, bytes => do
    let (token, rest) ← codec.next bytes
    let (object, rest) ←
      match token with
      | ⟨.scalar value, h⟩ => some (shape.scalar ⟨value, h⟩, rest)
      | ⟨.array size, _⟩ =>
        (read fuel size rest).map fun done => (shape.array done.1, done.2)
      | ⟨.map size, _⟩ =>
        (read fuel (2 * size) rest).map fun done => (shape.map (entries done.1), done.2)
    let (objects, rest) ← read fuel count rest
    return (object :: objects, rest)

/-- The first object, and what is left over. -/
def Codec.unpack (bytes : Bytes) : Option (O × Bytes) :=
  match codec.read shape bytes.length 1 bytes with
  | some ([object], rest) => some (object, rest)
  | _ => none

end Reading

/-- The calls a packer gets, one after the other.  The calls for what is in an array or
a map follow its header, which says how much that is. -/
inductive Packed
  | done
  | scalar (value : Scalar) (rest : Packed)
  | array (size : ℕ) (body rest : Packed)
  | map (size : ℕ) (body rest : Packed)

namespace Packed

def append : Packed → Packed → Packed
  | .done, other => other
  | .scalar value rest, other => .scalar value (rest.append other)
  | .array size body rest, other => .array size body (rest.append other)
  | .map size body rest, other => .map size body (rest.append other)

instance : Append Packed := ⟨append⟩

/-- How many objects the calls pack. -/
def width : Packed → ℕ
  | .done => 0
  | .scalar _ rest => rest.width + 1
  | .array _ _ rest => rest.width + 1
  | .map _ _ rest => rest.width + 1

/-- Every header says how much was packed behind it. -/
def Honest : Packed → Prop
  | .done => True
  | .scalar _ rest => rest.Honest
  | .array size body rest => body.width = size ∧ body.Honest ∧ rest.Honest
  | .map size body rest => body.width = 2 * size ∧ body.Honest ∧ rest.Honest

/-- There is a format for every call. -/
def Sized : Packed → Prop
  | .done => True
  | .scalar value rest => value.Valid ∧ rest.Sized
  | .array size body rest => size < 2 ^ 32 ∧ body.Sized ∧ rest.Sized
  | .map size body rest => size < 2 ^ 32 ∧ body.Sized ∧ rest.Sized

/-- The objects that the calls describe. -/
def objects {O : Type} (shape : Shape O) : (packed : Packed) → packed.Sized → List O
  | .done, _ => []
  | .scalar value rest, h => shape.scalar ⟨value, h.1⟩ :: rest.objects shape h.2
  | .array _ body rest, h => shape.array (body.objects shape h.2.1) :: rest.objects shape h.2.2
  | .map _ body rest, h =>
      shape.map (entries (body.objects shape h.2.1)) :: rest.objects shape h.2.2

/-- What the calls write. -/
def bytes (codec : Codec) : Packed → Bytes
  | .done => []
  | .scalar value rest => codec.encode (.scalar value) ++ rest.bytes codec
  | .array size body rest =>
      codec.encode (.array size) ++ (body.bytes codec ++ rest.bytes codec)
  | .map size body rest =>
      codec.encode (.map size) ++ (body.bytes codec ++ rest.bytes codec)

/-- How many calls there are. -/
def calls : Packed → ℕ
  | .done => 0
  | .scalar _ rest => rest.calls + 1
  | .array _ body rest => body.calls + rest.calls + 1
  | .map _ body rest => body.calls + rest.calls + 1

/-- The bytes are one object with nothing behind it, which is the object that the calls
describe, and no header is wrong. -/
def WellFormed {O : Type} (codec : Codec) (shape : Shape O) (packed : Packed) : Prop :=
  packed.Honest ∧ ∃ hsized : packed.Sized, ∃ object,
    packed.objects shape hsized = [object] ∧
      codec.unpack shape (packed.bytes codec) = some (object, [])

@[simp]
theorem done_append (other : Packed) : .done ++ other = other := rfl

@[simp]
theorem scalar_append (value : Scalar) (rest other : Packed) :
    .scalar value rest ++ other = .scalar value (rest ++ other) := rfl

@[simp]
theorem array_append (size : ℕ) (body rest other : Packed) :
    .array size body rest ++ other = .array size body (rest ++ other) := rfl

@[simp]
theorem map_append (size : ℕ) (body rest other : Packed) :
    .map size body rest ++ other = .map size body (rest ++ other) := rfl

@[simp]
theorem width_done : done.width = 0 := rfl

@[simp]
theorem honest_done : done.Honest := trivial

@[simp]
theorem sized_done : done.Sized := trivial

@[simp]
theorem width_append (first second : Packed) :
    (first ++ second).width = first.width + second.width := by
  induction first with
  | done => simp [width]
  | scalar value rest ih => simp [width, ih]; omega
  | array size body rest _ ih => simp [width, ih]; omega
  | map size body rest _ ih => simp [width, ih]; omega

@[simp]
theorem honest_append (first second : Packed) :
    (first ++ second).Honest ↔ first.Honest ∧ second.Honest := by
  induction first with
  | done => simp [Honest]
  | scalar value rest ih => simp [Honest, ih]
  | array size body rest _ ih => simp [Honest, ih, and_assoc]
  | map size body rest _ ih => simp [Honest, ih, and_assoc]

@[simp]
theorem sized_append (first second : Packed) :
    (first ++ second).Sized ↔ first.Sized ∧ second.Sized := by
  induction first with
  | done => simp [Sized]
  | scalar value rest ih => simp [Sized, ih, and_assoc]
  | array size body rest _ ih => simp [Sized, ih, and_assoc]
  | map size body rest _ ih => simp [Sized, ih, and_assoc]

variable {O : Type} {codec : Codec} {shape : Shape O}

/-- Every call writes something. -/
theorem calls_le_length (packed : Packed) :
    packed.calls ≤ (packed.bytes codec).length := by
  have hpos : ∀ token, 1 ≤ (codec.encode token).length := fun token =>
    List.length_pos_iff.mpr (codec.encode_ne_nil token)
  induction packed with
  | done => exact Nat.le_refl 0
  | scalar value rest ih =>
      have htoken := hpos (.scalar value)
      rw [calls, bytes, List.length_append]
      omega
  | array size body rest ihBody ihRest =>
      have htoken := hpos (.array size)
      rw [calls, bytes, List.length_append, List.length_append]
      omega
  | map size body rest ihBody ihRest =>
      have htoken := hpos (.map size)
      rw [calls, bytes, List.length_append, List.length_append]
      omega

/-- Calls with right headers are read back, whatever follows. -/
theorem read_bytes (packed : Packed) (hhonest : packed.Honest) (hsized : packed.Sized)
    (fuel : ℕ) (hfuel : packed.calls ≤ fuel) (tail : Bytes) :
    codec.read shape fuel packed.width (packed.bytes codec ++ tail) =
      some (packed.objects shape hsized, tail) := by
  induction packed generalizing fuel tail with
  | done => cases fuel <;> rfl
  | scalar value rest ih =>
      obtain _ | fuel := fuel
      · simp [calls] at hfuel
      · have hrest := ih hhonest hsized.2 fuel (Nat.le_of_succ_le_succ hfuel) tail
        have hnext := codec.next_encode ⟨.scalar value, hsized.1⟩ (rest.bytes codec ++ tail)
        simp only [bytes, width, List.append_assoc, Codec.read]
        rw [hnext]
        simp [hrest, objects]
  | array size body rest ihBody ihRest =>
      obtain _ | fuel := fuel
      · simp [calls] at hfuel
      · obtain ⟨hwidth, hbodyHonest, hrestHonest⟩ := hhonest
        rw [calls] at hfuel
        have hbody := ihBody hbodyHonest hsized.2.1 fuel (by omega) (rest.bytes codec ++ tail)
        have hrest := ihRest hrestHonest hsized.2.2 fuel (by omega) tail
        have hnext := codec.next_encode ⟨.array size, hsized.1⟩
          (body.bytes codec ++ (rest.bytes codec ++ tail))
        rw [hwidth] at hbody
        simp only [bytes, width, List.append_assoc, Codec.read]
        rw [hnext]
        simp [hbody, hrest, objects]
  | map size body rest ihBody ihRest =>
      obtain _ | fuel := fuel
      · simp [calls] at hfuel
      · obtain ⟨hwidth, hbodyHonest, hrestHonest⟩ := hhonest
        rw [calls] at hfuel
        have hbody := ihBody hbodyHonest hsized.2.1 fuel (by omega) (rest.bytes codec ++ tail)
        have hrest := ihRest hrestHonest hsized.2.2 fuel (by omega) tail
        have hnext := codec.next_encode ⟨.map size, hsized.1⟩
          (body.bytes codec ++ (rest.bytes codec ++ tail))
        rw [hwidth] at hbody
        simp only [bytes, width, List.append_assoc, Codec.read]
        rw [hnext]
        simp [hbody, hrest, objects]

theorem length_objects (packed : Packed) (hsized : packed.Sized) :
    (packed.objects shape hsized).length = packed.width := by
  induction packed with
  | done => rfl
  | scalar value rest ih => simp [objects, width, ih]
  | array size body rest _ ih => simp [objects, width, ih]
  | map size body rest _ ih => simp [objects, width, ih]

/-- A single object is well formed exactly when its headers are right and everything in
it has a format. -/
theorem wellFormed_iff {packed : Packed} (hwidth : packed.width = 1) :
    packed.WellFormed codec shape ↔ packed.Honest ∧ packed.Sized := by
  constructor
  · rintro ⟨hhonest, hsized, _⟩
    exact ⟨hhonest, hsized⟩
  · rintro ⟨hhonest, hsized⟩
    have hcalls : packed.calls ≤ (packed.bytes codec).length := calls_le_length packed
    have hread : codec.read shape _ packed.width (packed.bytes codec ++ []) = _ :=
      read_bytes packed hhonest hsized _ hcalls []
    rw [List.append_nil, hwidth] at hread
    have hlength : (packed.objects shape hsized).length = 1 :=
      (length_objects packed hsized).trans hwidth
    obtain ⟨object, hobject⟩ := List.length_eq_one_iff.mp hlength
    refine ⟨hhonest, hsized, object, hobject, ?_⟩
    rw [Codec.unpack, hread, hobject]

end Packed

end FeedsService.Library.MsgPack
