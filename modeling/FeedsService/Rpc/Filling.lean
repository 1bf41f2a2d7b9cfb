import FeedsService.Rpc.Grammar

/-!
# Filling a request

When the copies of a parser stay inside the block it allocates, and what the
request holds then.  A parser that passes its checks and gets its block
returns a request exactly when every value it follows is there and every
string has room.
-/

namespace FeedsService.Rpc

open FeedsService.Library

/-! ## One member -/

/-- The assignment of the member follows no null pointer. -/
def Field.mayStore (field : Field) (value : Option Value) : Bool :=
  match field.demand with
  | .ignored | .optional | .optionalNonEmpty => true
  | _ => value.isSome

/-- What a copied string leaves in its piece of the block. -/
def pieceOf (str : Sized) : Bytes :=
  cString str.val ++ zeroed (strReserveSpc (some str) - (cString str.val).length)

def Value.slot : Value → Slot
  | .str text => .str (pieceOf text)
  | .u64 value => .u64 value
  | .bool value => .bool value
  | .bin bytes => .bin bytes.val

/-- The member a field sets. -/
def Field.slot (field : Field) (value : Option Value) : Option (Member × Slot) :=
  match field.demand with
  | .ignored => none
  | _ => value.map fun value => (field.member, value.slot)

/-- Every string but one of 2^32 - 1 bytes is reserved a byte more than it
has. -/
theorem length_le_strReserveSpc {str : Sized} :
    str.val.length ≤ strReserveSpc (some str) ↔ str.val.length + 1 < 2 ^ 32 := by
  have hsize := str.property
  simp only [strReserveSpc]
  omega

theorem strReserveSpc_lt (str : Option Sized) : strReserveSpc str < 2 ^ 32 := by
  cases str with
  | none => simp [strReserveSpc]
  | some str => exact Nat.mod_lt _ (by norm_num)

/-- The string is shorter than any whose reserved size is wrong. -/
def Short (str : Option Sized) : Prop :=
  ∀ bytes ∈ str, bytes.val.length + 1 < 2 ^ 32

instance (str : Option Sized) : Decidable (Short str) :=
  inferInstanceAs (Decidable (∀ bytes ∈ str, bytes.val.length + 1 < 2 ^ 32))

/-- The arena after a string has been copied. -/
def Arena.after (arena : Arena) (room : ℕ) : Arena :=
  { arena with used := arena.used + room }

theorem copy_eq_ok {arena rest : Arena} {str : Sized} {piece : Bytes} :
    arena.copy (strReserveSpc (some str)) str.val = .ok (rest, piece) ↔
      (arena.used + strReserveSpc (some str) ≤ arena.size ∧ Short (some str)) ∧
        rest = Arena.after arena (strReserveSpc (some str)) ∧ piece = pieceOf str := by
  rw [Arena.copy_eq_ok, length_le_strReserveSpc]
  simp only [Short, Option.mem_some_iff, forall_eq', Arena.after, pieceOf]

theorem Value.store_eq_ok {value : Value} {member : Member} {arena rest : Arena}
    {slots : List (Member × Slot)} (harena : arena.used ≤ arena.size) :
    value.store member arena = .ok (rest, slots) ↔
      (Short value.text ∧ arena.used + strReserveSpc value.text ≤ arena.size) ∧
        rest = Arena.after arena (strReserveSpc value.text) ∧
        slots = [(member, value.slot)] := by
  cases value with
  | str text =>
      simp only [Value.store, bind_eq_ok, Value.text, Value.slot]
      constructor
      · rintro ⟨⟨next, piece⟩, hcopy, h⟩
        obtain ⟨⟨hroom, hshort⟩, rfl, rfl⟩ := copy_eq_ok.mp hcopy
        cases h
        exact ⟨⟨hshort, hroom⟩, rfl, rfl⟩
      · rintro ⟨⟨hshort, hroom⟩, rfl, rfl⟩
        exact ⟨_, copy_eq_ok.mpr ⟨⟨hroom, hshort⟩, rfl, rfl⟩, rfl⟩
  | _ =>
      simp only [Value.store, Value.text, Value.slot, Short, strReserveSpc, Arena.after,
        Option.mem_def, reduceCtorEq, false_imp_iff, implies_true, true_and, Nat.add_zero]
      constructor
      · intro h
        cases h
        exact ⟨harena, rfl, rfl⟩
      · rintro ⟨-, rfl, rfl⟩
        rfl

theorem Field.store_eq_ok {field : Field} {value : Option Value} {arena rest : Arena}
    {slots : List (Member × Slot)} (harena : arena.used ≤ arena.size) :
    field.store value arena = .ok (rest, slots) ↔
      (field.mayStore value = true ∧ Short (field.copied value) ∧
        arena.used + strReserveSpc (field.copied value) ≤ arena.size) ∧
        rest = Arena.after arena (strReserveSpc (field.copied value)) ∧
        slots = (field.slot value).toList := by
  have hskip : (pure (arena, []) : Except Fault (Arena × List (Member × Slot))) =
      .ok (rest, slots) ↔ rest = Arena.after arena 0 ∧ slots = [] := by
    constructor
    · intro h
      cases h
      exact ⟨rfl, rfl⟩
    · rintro ⟨rfl, rfl⟩
      rfl
  obtain ⟨key, member, kind, demand⟩ := field
  cases value with
  | none =>
      cases demand with
      | ignored | optional | optionalNonEmpty =>
          simpa [Field.store, Field.mayStore, Field.copied, Field.slot, Short, strReserveSpc,
            harena] using hskip
      | _ => simp [Field.store, Field.mayStore]
  | some value =>
      cases demand with
      | ignored =>
          simpa [Field.store, Field.mayStore, Field.copied, Field.slot, Short, strReserveSpc,
            harena] using hskip
      | _ =>
          simpa [Field.store, Field.mayStore, Field.copied, Field.slot] using
            Value.store_eq_ok harena

/-! ## All members -/

/-- The bytes reserved for the strings of the fields. -/
def reserved (pairs : List (Field × Option Value)) : ℕ :=
  (pairs.map fun pair => strReserveSpc (pair.1.copied pair.2)).sum

/-- The members the fields set, in order. -/
def slots (pairs : List (Field × Option Value)) : List (Member × Slot) :=
  pairs.flatMap fun pair => (pair.1.slot pair.2).toList

theorem reserved_cons (pair : Field × Option Value) (pairs : List (Field × Option Value)) :
    reserved (pair :: pairs) = strReserveSpc (pair.1.copied pair.2) + reserved pairs :=
  rfl

theorem storeParams_eq_ok {pairs : List (Field × Option Value)} {arena rest : Arena}
    {set : List (Member × Slot)} (harena : arena.used ≤ arena.size) :
    storeParams pairs arena = .ok (rest, set) ↔
      ((∀ pair ∈ pairs, pair.1.mayStore pair.2 = true) ∧
        (∀ pair ∈ pairs, Short (pair.1.copied pair.2)) ∧
        arena.used + reserved pairs ≤ arena.size) ∧
        rest = Arena.after arena (reserved pairs) ∧ set = slots pairs := by
  induction pairs generalizing arena rest set with
  | nil =>
      have hnone : (pure (arena, []) : Except Fault (Arena × List (Member × Slot))) =
          .ok (rest, set) ↔ rest = arena ∧ set = [] := by
        constructor
        · intro h
          cases h
          exact ⟨rfl, rfl⟩
        · rintro ⟨rfl, rfl⟩
          rfl
      simpa [storeParams, reserved, slots, Arena.after, harena] using hnone
  | cons pair pairs ih =>
      simp only [storeParams, bind_eq_ok, reserved_cons, List.forall_mem_cons]
      constructor
      · rintro ⟨⟨next, slot⟩, hslot, ⟨last, others⟩, hothers, h⟩
        obtain ⟨⟨hstore, hshort, hroom⟩, rfl, rfl⟩ := (Field.store_eq_ok harena).mp hslot
        obtain ⟨⟨hstores, hshorts, hrooms⟩, rfl, rfl⟩ := (ih hroom).mp hothers
        cases h
        simp only [Arena.after] at hrooms ⊢
        exact ⟨⟨⟨hstore, hstores⟩, ⟨hshort, hshorts⟩, by omega⟩, by rw [Nat.add_assoc], rfl⟩
      · rintro ⟨⟨⟨hstore, hstores⟩, ⟨hshort, hshorts⟩, hrooms⟩, rfl, rfl⟩
        have hroom : arena.used + strReserveSpc (pair.1.copied pair.2) ≤ arena.size := by
          omega
        refine ⟨_, (Field.store_eq_ok harena).mpr ⟨⟨hstore, hshort, hroom⟩, rfl, rfl⟩, _,
          (ih hroom).mpr ⟨⟨hstores, hshorts, ?_⟩, rfl, rfl⟩, ?_⟩
        · simp only [Arena.after]
          omega
        · simp only [Arena.after, Nat.add_assoc]
          rfl

theorem storeDefaults_eq_ok {defaults : List (Member × Default)} {arena rest : Arena}
    {set : List (Member × Slot)} (harena : arena.used ≤ arena.size) :
    storeDefaults defaults arena = .ok (rest, set) ↔
      arena.used + (defaults.map fun entry => entry.2.size).sum ≤ arena.size ∧
        rest = Arena.after arena (defaults.map fun entry => entry.2.size).sum ∧
        set = defaults.map fun entry => (entry.1, entry.2.slot) := by
  induction defaults generalizing arena rest set with
  | nil =>
      have hnone : (pure (arena, []) : Except Fault (Arena × List (Member × Slot))) =
          .ok (rest, set) ↔ rest = arena ∧ set = [] := by
        constructor
        · intro h
          cases h
          exact ⟨rfl, rfl⟩
        · rintro ⟨rfl, rfl⟩
          rfl
      simpa [storeDefaults, Arena.after, harena] using hnone
  | cons entry defaults ih =>
      simp only [storeDefaults, bind_eq_ok, List.map_cons, List.sum_cons]
      constructor
      · rintro ⟨next, hnext, ⟨last, others⟩, hothers, h⟩
        obtain ⟨hroom, rfl⟩ := Arena.carve_eq_ok.mp hnext
        obtain ⟨hrooms, rfl, rfl⟩ := (ih hroom).mp hothers
        cases h
        have hsum : arena.used + (entry.2.size +
            (defaults.map fun entry => entry.2.size).sum) ≤ arena.size := by
          rw [← Nat.add_assoc]
          exact hrooms
        refine ⟨hsum, ?_, rfl⟩
        simp only [Arena.after, Nat.add_assoc]
      · rintro ⟨hrooms, rfl, rfl⟩
        have hroom : arena.used + entry.2.size ≤ arena.size := by omega
        refine ⟨_, Arena.carve_eq_ok.mpr ⟨hroom, rfl⟩, _, (ih hroom).mpr ⟨?_, rfl, rfl⟩, ?_⟩
        · simp only
          omega
        · simp only [Arena.after, Nat.add_assoc]
          rfl

/-! ## The request -/

namespace ReqHdlr

variable (parser : ReqHdlr)

/-- The checks of the parser pass. -/
def Checks (values : List (Option Value)) : Prop :=
  ∀ pair ∈ parser.params.zip values, pair.1.passes pair.2 = true

/-- No field that is followed without a check is missing. -/
def NoneMissing (values : List (Option Value)) : Prop :=
  ∀ pair ∈ parser.params.zip values, pair.1.demand = .unchecked → pair.2.isSome = true

/-- The bytes the parser cuts off the block behind the structure. -/
def roomNeeded (method : Sized) (values : List (Option Value)) : ℕ :=
  (if parser.setsMethod then strReserveSpc (some method) else 0) +
    reserved (parser.params.zip values) +
    (parser.defaults.map fun entry => entry.2.size).sum

/-- What the parser copies has room: each string in the piece reserved for it,
and the pieces in the block. -/
structure Fits (method : Sized) (values : List (Option Value)) : Prop where
  short : ∀ pair ∈ parser.params.zip values, Short (pair.1.copied pair.2)
  block : parser.struct.sizeof + parser.roomNeeded method values ≤
    parser.blockSize (some method) values

/-- What the parser returns when nothing goes wrong. -/
def request (method : Sized) (id : UInt64) (values : List (Option Value)) : Req where
  method := if parser.setsMethod then some (pieceOf method) else none
  tsxId := id
  params := slots (parser.params.zip values) ++
    parser.defaults.map fun entry => (entry.1, entry.2.slot)

end ReqHdlr

theorem Field.mayStore_iff {field : Field} {value : Option Value}
    (hpasses : field.passes value = true) :
    field.mayStore value = true ↔ (field.demand = .unchecked → value.isSome = true) := by
  obtain ⟨key, member, kind, demand⟩ := field
  cases demand with
  | unchecked => simp [Field.mayStore]
  | ignored | optional | optionalNonEmpty => simp [Field.mayStore]
  | present | nonEmpty | valid =>
      cases value with
      | none => simp [Field.passes] at hpasses
      | some value => simp [Field.mayStore]

theorem ReqHdlr.storeMethod_eq_ok {parser : ReqHdlr} {method : Sized} {arena rest : Arena}
    {buffer : Option Bytes} (hmethod : Short (some method))
    (hskip : parser.setsMethod = false → arena.used ≤ arena.size) :
    parser.storeMethod (some method) arena = .ok (rest, buffer) ↔
      arena.used + (if parser.setsMethod then strReserveSpc (some method) else 0) ≤
          arena.size ∧
        rest = Arena.after arena
          (if parser.setsMethod then strReserveSpc (some method) else 0) ∧
        buffer = if parser.setsMethod then some (pieceOf method) else none := by
  rw [ReqHdlr.storeMethod]
  by_cases hsets : parser.setsMethod = true
  · simp only [hsets, if_true, bind_eq_ok]
    constructor
    · rintro ⟨⟨next, piece⟩, hcopy, h⟩
      obtain ⟨⟨hroom, -⟩, rfl, rfl⟩ := copy_eq_ok.mp hcopy
      cases h
      exact ⟨hroom, rfl, rfl⟩
    · rintro ⟨hroom, rfl, rfl⟩
      exact ⟨_, copy_eq_ok.mpr ⟨⟨hroom, hmethod⟩, rfl, rfl⟩, rfl⟩
  · have hfalse : parser.setsMethod = false := by simpa using hsets
    simp only [hfalse]
    constructor
    · intro h
      cases h
      exact ⟨hskip hfalse, rfl, rfl⟩
    · rintro ⟨-, rfl, rfl⟩
      rfl

theorem ReqHdlr.fill_of_not_checks {parser : ReqHdlr} {values : List (Option Value)}
    (hchecks : ¬ parser.Checks values) (alloc : ℕ → Bool) (method : Option Sized)
    (id : Option UInt64) :
    parser.fill alloc method id values = .ok { rc := -1, req := none } := by
  have hall : (parser.params.zip values).all (fun pair => pair.1.passes pair.2) = false := by
    rw [← Bool.not_eq_true, List.all_eq_true]
    exact hchecks
  simp only [ReqHdlr.fill, hall]
  rfl

theorem ReqHdlr.fill_of_not_alloc {parser : ReqHdlr} {values : List (Option Value)}
    {alloc : ℕ → Bool} {method : Option Sized}
    (halloc : alloc (parser.blockSize method values) = false) (id : Option UInt64) :
    parser.fill alloc method id values = .ok { rc := -1, req := none } := by
  simp only [ReqHdlr.fill, halloc]
  split <;> rfl

/-- A parser whose checks pass and whose block is granted returns its request
or goes wrong. -/
theorem ReqHdlr.fill_eq_ok {parser : ReqHdlr} {values : List (Option Value)}
    {alloc : ℕ → Bool} {method : Sized} {id : UInt64} {answer : Answer}
    (hchecks : parser.Checks values)
    (halloc : alloc (parser.blockSize (some method) values) = true)
    (hmethod : Short (some method))
    (hskip : parser.setsMethod = false →
      parser.struct.sizeof ≤ parser.blockSize (some method) values) :
    parser.fill alloc (some method) (some id) values = .ok answer ↔
      (parser.NoneMissing values ∧ parser.Fits method values) ∧
        answer = { rc := 0, req := some (parser.request method id values) } := by
  have hall : (parser.params.zip values).all (fun pair => pair.1.passes pair.2) = true := by
    rw [List.all_eq_true]
    exact hchecks
  have hmissing : (∀ pair ∈ parser.params.zip values, pair.1.mayStore pair.2 = true) ↔
      parser.NoneMissing values := by
    constructor
    · intro h pair hpair
      exact (Field.mayStore_iff (hchecks pair hpair)).mp (h pair hpair)
    · intro h pair hpair
      exact (Field.mayStore_iff (hchecks pair hpair)).mpr (h pair hpair)
  simp only [ReqHdlr.fill, hall, halloc, Bool.not_true, Bool.false_eq_true, if_false,
    bind_eq_ok]
  constructor
  · rintro ⟨⟨afterMethod, buffer⟩, hstore, ⟨afterParams, set⟩, hparams, ⟨last, defaults⟩,
      hdefaults, h⟩
    obtain ⟨hroom, rfl, rfl⟩ := (storeMethod_eq_ok hmethod hskip).mp hstore
    obtain ⟨⟨hstores, hshort, hrooms⟩, rfl, rfl⟩ := (storeParams_eq_ok hroom).mp hparams
    obtain ⟨hblock, rfl, rfl⟩ := (storeDefaults_eq_ok hrooms).mp hdefaults
    cases h
    refine ⟨⟨hmissing.mp hstores, hshort, ?_⟩, rfl⟩
    simp only [Arena.after] at hblock
    rw [roomNeeded]
    omega
  · rintro ⟨⟨hnone, hshort, hblock⟩, rfl⟩
    rw [roomNeeded] at hblock
    have hroom : parser.struct.sizeof +
        (if parser.setsMethod then strReserveSpc (some method) else 0) ≤
          parser.blockSize (some method) values := by
      omega
    have hrooms : parser.struct.sizeof +
        (if parser.setsMethod then strReserveSpc (some method) else 0) +
          reserved (parser.params.zip values) ≤ parser.blockSize (some method) values := by
      omega
    refine ⟨_, (storeMethod_eq_ok hmethod hskip).mpr ⟨hroom, rfl, rfl⟩, _,
      (storeParams_eq_ok hroom).mpr ⟨⟨hmissing.mpr hnone, hshort, hrooms⟩, rfl, rfl⟩, _,
      (storeDefaults_eq_ok hrooms).mpr ⟨?_, rfl, rfl⟩, rfl⟩
    simp only [Arena.after]
    omega

end FeedsService.Rpc
