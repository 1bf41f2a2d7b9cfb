import FeedsService.Session.Rounds

/-!
# The session parser on hostile input

A chunk may hold any bytes.  The sizes in a fixed part are signed, and they meet the sizes of
the buffers as `size_t`: a negative one is then a number just below 2^64, or just below 24
once the fixed part has been added to it.
-/

namespace FeedsService.Session

open FeedsService.Library

/-- The bytes that a round has before it: what is cached, and the rest of the chunk. -/
def incoming (parser : SessionParser) (data : Bytes) (dataPos : ℤ) : Bytes :=
  parser.cachingData ++ data.drop dataPos.toNat

/-- The first fixed part in some bytes, if it is there and of the supported version, with the
bytes from it on. -/
def firstFrame (bytes : Bytes) : Option (Info × Bytes) :=
  if (bytes.drop (garbageSize bytes)).length < sizeofInfo then
    none
  else
    match parseInfo (bytes.drop (garbageSize bytes)) with
    | .error _ => none
    | .ok info => some (info, bytes.drop (garbageSize bytes))

/-- The fixed part of the frame that a round works on, and the bytes of the frame so far. -/
def current (parser : SessionParser) (data : Bytes) (dataPos : ℤ) : Option (Info × Bytes) :=
  match parser.protocol with
  | some protocol => some (protocol.info, incoming parser data dataPos)
  | none => firstFrame (incoming parser data dataPos)

/-- What a round must not do with the bytes it is given. -/
structure SafeRound (parser : SessionParser) (data : Bytes) (dataPos : ℤ) : Prop where
  inside : 0 ≤ dataPos ∧ dataPos ≤ data.length
  bodyInside : ∀ next ret, unpackProtocol parser data dataPos = (next, .returned ret) → 0 ≤ ret →
    dataPos + ret ≤ data.length
  defined : (round parser data true dataPos).2 ≠ .ends .undefined
  delivers : ∀ call ∈ (round parser data true dataPos).1.unpacked.drop parser.unpacked.length,
    ∃ info bytes, current parser data dataPos = some (info, bytes) ∧
      (call.1.length : ℤ) = info.headSize ∧ (call.2.length : ℤ) = info.bodySize

/-- The negative sizes before a round are out of reach: as a `size_t`, a head size is more than
the bytes of the frame that are there, and a body size more than those that can come. -/
structure Tame (parser : SessionParser) (data : Bytes) (dataPos : ℤ) : Prop where
  head : ∀ info bytes, current parser data dataPos = some (info, bytes) → info.headSize < 0 →
    bytes.length < toUInt64 (sizeofInfo + info.headSize)
  body : ∀ protocol, parser.protocol = some protocol → protocol.info.bodySize < 0 →
    protocol.bodyData.length + (data.length - dataPos) < toUInt64 protocol.info.bodySize

/-- `P` before each round of a call. -/
def EachRound (P : SessionParser → Bytes → ℤ → Prop) (data : Bytes) :
    ℕ → SessionParser → ℤ → Prop
  | 0, _, _ => True
  | rounds + 1, parser, dataPos =>
      P parser data dataPos ∧
        match round parser data true dataPos with
        | (next, .goesOn dataPos) => EachRound P data rounds next dataPos
        | (_, .ends _) => True

/-- `P` before each round of all calls. -/
def EachRoundOf (P : SessionParser → Bytes → ℤ → Prop) : SessionParser → List Bytes → Prop
  | _, [] => True
  | parser, chunk :: chunks =>
      EachRound P chunk (2 * chunk.length + 2) parser 0 ∧
        EachRoundOf P (unpack parser chunk true).1 chunks

/-- All rounds are safe, and the loop ends on each chunk. -/
def Safe (chunks : List Bytes) : Prop :=
  EachRoundOf SafeRound .init chunks ∧
    ∀ outcome ∈ (unpackAll .init chunks).2, outcome ≠ .diverged

instance (parser : SessionParser) (data : Bytes) (dataPos : ℤ) :
    Decidable (Tame parser data dataPos) :=
  decidable_of_iff
    ((∀ frame ∈ current parser data dataPos, frame.1.headSize < 0 →
        frame.2.length < toUInt64 (sizeofInfo + frame.1.headSize)) ∧
      ∀ protocol ∈ parser.protocol, protocol.info.bodySize < 0 →
        protocol.bodyData.length + (data.length - dataPos) < toUInt64 protocol.info.bodySize)
    ⟨fun h => ⟨fun info bytes hcurrent => h.1 (info, bytes) hcurrent, h.2⟩,
      fun h => ⟨fun frame hframe => h.head frame.1 frame.2 hframe, h.body⟩⟩

section Decidability

variable (P : SessionParser → Bytes → ℤ → Prop)
  [∀ parser data dataPos, Decidable (P parser data dataPos)]

instance decidableEachRound (data : Bytes) :
    ∀ rounds parser dataPos, Decidable (EachRound P data rounds parser dataPos)
  | 0, _, _ => isTrue trivial
  | rounds + 1, parser, dataPos =>
      have : Decidable (match round parser data true dataPos with
          | (next, .goesOn dataPos) => EachRound P data rounds next dataPos
          | (_, .ends _) => True) :=
        match round parser data true dataPos with
        | (next, .goesOn dataPos) => decidableEachRound data rounds next dataPos
        | (_, .ends _) => isTrue trivial
      inferInstanceAs (Decidable (_ ∧ _))

instance decidableEachRoundOf : ∀ parser chunks, Decidable (EachRoundOf P parser chunks)
  | _, [] => isTrue trivial
  | parser, chunk :: chunks =>
      have := decidableEachRoundOf (unpack parser chunk true).1 chunks
      inferInstanceAs (Decidable (_ ∧ _))

end Decidability

section Phases

/-- The sizes are values of their types. -/
structure Fits (info : Info) : Prop where
  headLow : -2 ^ 31 ≤ info.headSize
  headHigh : info.headSize < 2 ^ 31
  bodyLow : -2 ^ 63 ≤ info.bodySize
  bodyHigh : info.bodySize < 2 ^ 63

/-- A frame whose head is saved. -/
structure Holds (protocol : Protocol) : Prop where
  fits : Fits protocol.info
  head : (protocol.headData.length : ℤ) = protocol.info.headSize
  received : protocol.receivedBodySize = toInt64 protocol.bodyData.length
  room : protocol.bodyData.length ≤ toUInt64 protocol.info.bodySize

/-- Where the parser is between two rounds.  The header of an unsupported frame stays cached. -/
inductive Sane (parser : SessionParser) : Prop
  | searching (protocol : parser.protocol = none)
      (cached : parser.cachingData.length < 24 ∨ Unsupported parser.cachingData)
  | heading {info : Info} (protocol : parser.protocol = some ⟨info, [], [], 0⟩)
      (fits : Fits info) (unsaved : toUInt64 info.headSize ≠ 0)
      (short : parser.cachingData.length < toUInt64 (sizeofInfo + info.headSize))
  | receiving {protocol : Protocol} (received : parser.protocol = some protocol)
      (holds : Holds protocol)
      (cached : parser.cachingData = [] ∨ Unsupported parser.cachingData)

theorem toInt32_bounds (value : ℤ) : -2 ^ 31 ≤ toInt32 value ∧ toInt32 value < 2 ^ 31 := by
  have hlow := Int.le_bmod (x := value) (m := 2 ^ 32) (by decide)
  have hhigh := Int.bmod_lt (x := value) (m := 2 ^ 32) (by decide)
  rw [toInt32]
  norm_num at hlow hhigh ⊢
  exact ⟨hlow, hhigh⟩

theorem toInt64_bounds (value : ℤ) : -2 ^ 63 ≤ toInt64 value ∧ toInt64 value < 2 ^ 63 := by
  have hlow := Int.le_bmod (x := value) (m := 2 ^ 64) (by decide)
  have hhigh := Int.bmod_lt (x := value) (m := 2 ^ 64) (by decide)
  rw [toInt64]
  norm_num at hlow hhigh ⊢
  exact ⟨hlow, hhigh⟩

theorem fits_toInt (magic : ℤ) (version : ℕ) (headSize bodySize : ℤ) :
    Fits ⟨magic, version, toInt32 headSize, toInt64 bodySize⟩ where
  headLow := (toInt32_bounds headSize).1
  headHigh := (toInt32_bounds headSize).2
  bodyLow := (toInt64_bounds bodySize).1
  bodyHigh := (toInt64_bounds bodySize).2

theorem fits_of_parseInfo {bytes : Bytes} {info : Info} (hparse : parseInfo bytes = .ok info) :
    Fits info := by
  rw [parseInfo] at hparse
  split at hparse
  · cases hparse
  · rw [← Except.ok.inj hparse]
    exact fits_toInt _ _ _ _

/-- A negative size as a `size_t`. -/
theorem toUInt64_of_negative {value : ℤ} (hlow : -2 ^ 63 ≤ value) (hnegative : value < 0) :
    (toUInt64 value : ℤ) = value + 2 ^ 64 := by
  rw [toUInt64]
  omega

theorem toUInt64_of_nonneg {value : ℤ} (hnonneg : 0 ≤ value) (hhigh : value < 2 ^ 63) :
    (toUInt64 value : ℤ) = value := by
  rw [toUInt64]
  omega

end Phases

section Heads

variable {parser : SessionParser} {data : Bytes} {offset : ℕ}

/-- What `unpackProtocol` does: all is taken and more is needed, the frame is of another
version, or the head is saved and the body starts after `size` bytes. -/
inductive Heads (parser : SessionParser) (data : Bytes) (offset : ℕ) :
    SessionParser × Outcome → Prop
  | needsMore {next : SessionParser} (sane : Sane next)
      (unpacked : next.unpacked = parser.unpacked) :
      Heads parser data offset (next, .returned carrierSessionDataNotEnough)
  | unsupported {next : SessionParser} (sane : Sane next)
      (unpacked : next.unpacked = parser.unpacked) :
      Heads parser data offset (next, .returned carrierSessionUnsuppertedVersion)
  | saved {next : SessionParser} {protocol : Protocol} {bytes : Bytes} {size : ℕ}
      (inside : offset + size ≤ data.length) (received : next.protocol = some protocol)
      (holds : Holds protocol) (cached : next.cachingData = [] ∨ Unsupported next.cachingData)
      (unpacked : next.unpacked = parser.unpacked)
      (current : current parser data offset = some (protocol.info, bytes))
      (fresh : next = parser ∨ 0 < size ∧ protocol.bodyData = []) :
      Heads parser data offset (next, .returned size)

theorem toUInt64_needed {info : Info} (hfits : Fits info) :
    (toUInt64 (sizeofInfo + info.headSize) : ℤ) =
      if info.headSize < -24 then 24 + info.headSize + 2 ^ 64 else 24 + info.headSize := by
  have hlow := hfits.headLow
  have hhigh := hfits.headHigh
  rw [toUInt64, sizeofInfo]
  split
  · omega
  · omega

theorem toInt64_nil : (0 : ℤ) = toInt64 (([] : Bytes).length : ℤ) := by
  decide

theorem unpackHead_heads {info : Info} {bytes : Bytes} {prevSize : ℤ} (hfits : Fits info)
    (hdata : data.length < 2 ^ 31) (hoffset : offset ≤ data.length)
    (hcurrent : current parser data offset = some (info, bytes))
    (hparsed : toUInt64 info.headSize = 0 → sizeofInfo ≤ bytes.length)
    (hhead : info.headSize < 0 → bytes.length < toUInt64 (sizeofInfo + info.headSize))
    (hlength : (bytes.length : ℤ) = prevSize + (data.length - offset))
    (hprev : prevSize < toUInt64 (sizeofInfo + info.headSize)) :
    Heads parser data offset
      (unpackHead parser ⟨info, [], [], 0⟩ bytes (toUInt64 prevSize)) := by
  have hneeded := toUInt64_needed hfits
  have hlow := hfits.headLow
  have hhigh := hfits.headHigh
  rcases Nat.lt_or_ge bytes.length (toUInt64 (sizeofInfo + info.headSize)) with hshort | hlong
  · rw [unpackHead, if_pos hshort]
    have hunsaved : toUInt64 info.headSize ≠ 0 := by
      intro hzero
      have hwhole := hparsed hzero
      have hnone : info.headSize = 0 := by
        rw [toUInt64] at hzero
        omega
      rw [sizeofInfo] at hwhole
      rw [hnone, if_neg (by decide)] at hneeded
      rw [hnone] at hshort
      omega
    exact .needsMore (.heading rfl hfits hunsaved hshort) rfl
  · have hnonneg : ¬ info.headSize < 0 := fun hnegative => by
      have := hhead hnegative
      omega
    rw [if_neg (by omega)] at hneeded
    have hret : toInt32 (toUInt64 (sizeofInfo + info.headSize - toUInt64 prevSize)) =
        ((24 + info.headSize - prevSize).toNat : ℤ) := by
      rw [toUInt64_sub_toUInt64, sizeofInfo, toInt32_toUInt64 (by omega) (by omega)]
      omega
    rw [unpackHead, if_neg (not_lt.mpr hlong), if_neg hnonneg, hret]
    have hsaved : (((bytes.drop sizeofInfo).take info.headSize.toNat).length : ℤ) =
        info.headSize := by
      rw [List.length_take, List.length_drop, sizeofInfo]
      omega
    exact .saved (by omega) rfl ⟨hfits, hsaved, toInt64_nil, Nat.zero_le _⟩ (Or.inl rfl) rfl
      hcurrent (Or.inr ⟨by omega, rfl⟩)

/-- A head size that is negative and within reach makes an iterator range end before it
starts. -/
theorem unpackHead_undefined {info : Info} {bytes : Bytes} {prevSize : ℕ}
    (hnegative : info.headSize < 0)
    (hreach : toUInt64 (sizeofInfo + info.headSize) ≤ bytes.length) :
    unpackHead parser ⟨info, [], [], 0⟩ bytes prevSize = (parser, .undefined) := by
  rw [unpackHead, if_neg (not_lt.mpr hreach), if_pos hnegative]

theorem unpackProtocol_of_none (hprotocol : parser.protocol = none)
    (hoffset : offset ≤ data.length) :
    unpackProtocol parser data offset =
      unpackInfo parser (incoming parser data offset) parser.cachingData.length := by
  have hinside : ¬ ((offset : ℤ) < 0 ∨ (data.length : ℤ) < offset) := by omega
  rw [unpackProtocol, hprotocol]
  exact if_neg hinside

theorem unpackProtocol_of_unsaved {protocol : Protocol}
    (hprotocol : parser.protocol = some protocol)
    (hunsaved : headSaved protocol = false) (hoffset : offset ≤ data.length) :
    unpackProtocol parser data offset =
      unpackHead parser protocol (incoming parser data offset) parser.cachingData.length := by
  have hinside : ¬ ((offset : ℤ) < 0 ∨ (data.length : ℤ) < offset) := by omega
  have hopen : ¬ headSaved protocol = true := by rw [hunsaved]; exact Bool.false_ne_true
  rw [unpackProtocol, hprotocol]
  dsimp only
  rw [if_neg hopen]
  exact if_neg hinside

theorem unpackProtocol_of_saved {protocol : Protocol} (hprotocol : parser.protocol = some protocol)
    (hsaved : headSaved protocol = true) (dataPos : ℤ) :
    unpackProtocol parser data dataPos = (parser, .returned 0) := by
  rw [unpackProtocol, hprotocol]
  exact if_pos hsaved

theorem length_incoming (parser : SessionParser) (hoffset : offset ≤ data.length) :
    ((incoming parser data offset).length : ℤ) =
      parser.cachingData.length + (data.length - offset) := by
  rw [incoming, List.length_append, List.length_drop, Int.toNat_natCast]
  omega

theorem Holds.headSaved {protocol : Protocol} (hholds : Holds protocol) :
    headSaved protocol = true := by
  have hhead := hholds.head
  have hhigh := hholds.fits.headHigh
  rw [Session.headSaved, decide_eq_true_eq, ← hhead, toUInt64_of_fits (by omega)]

theorem holds_of_unsupported (bytes : Bytes) : Holds ⟨unsupportedInfo bytes, [], [], 0⟩ where
  fits := fits_toInt _ _ 0 0
  head := rfl
  received := toInt64_nil
  room := Nat.zero_le _

/-- An unsupported frame is left with no sizes, so its head counts as saved. -/
theorem sane_of_unsupported {bytes : Bytes} (hbytes : Unsupported bytes) :
    Sane { parser with
      protocol := some ⟨unsupportedInfo bytes, [], [], 0⟩
      cachingData := bytes } :=
  .receiving rfl (holds_of_unsupported bytes) (Or.inr hbytes)

/-- Between two frames: what is left behind the garbage. -/
theorem unpackInfo_heads (hprotocol : parser.protocol = none) (hdata : data.length < 2 ^ 31)
    (hoffset : offset ≤ data.length) (hshort : parser.cachingData.length < 24)
    (hhead : ∀ info bytes, current parser data offset = some (info, bytes) → info.headSize < 0 →
      bytes.length < toUInt64 (sizeofInfo + info.headSize)) :
    Heads parser data offset
      (unpackInfo parser (incoming parser data offset) parser.cachingData.length) := by
  have hlength := length_incoming parser hoffset
  have hsize : (incoming parser data offset).length < 2 ^ 31 + 23 := by omega
  obtain ⟨-, hhigh, -, hfound⟩ := findMagicNum_spec (incoming parser data offset)
    ((incoming parser data offset).length - 23) 0
  rw [← garbageSize_eq hsize] at hhigh hfound
  have hcurrent : current parser data offset = firstFrame (incoming parser data offset) := by
    rw [current, hprotocol]
  rw [firstFrame] at hcurrent
  generalize hgarbage : garbageSize (incoming parser data offset) = garbage
    at hhigh hfound hcurrent
  generalize hbytes : (incoming parser data offset).drop garbage = bytes at hfound hcurrent
  have hrest : bytes.length = (incoming parser data offset).length - garbage := by
    rw [← hbytes, List.length_drop]
  rw [unpackInfo, hgarbage, hbytes, if_neg (by omega)]
  by_cases hwhole : bytes.length < sizeofInfo
  · rw [if_pos hwhole]
    exact .needsMore (.searching hprotocol (Or.inl hwhole)) rfl
  rw [if_neg hwhole] at hcurrent ⊢
  rw [sizeofInfo] at hwhole
  cases hparse : parseInfo bytes with
  | error info =>
      have hversion : decodeBE ((bytes.drop 8).take 4) ≠ version_01_00_00 := by
        intro hsupported
        have hok := hparse.symm.trans (if_neg (not_not_intro hsupported))
        cases hok
      have hbad : parseInfo bytes = .error (unsupportedInfo bytes) := if_pos hversion
      rw [Except.error.inj (hparse.symm.trans hbad)]
      have hunsupported : Unsupported bytes := ⟨by omega, hfound (by omega), hversion⟩
      exact .unsupported (sane_of_unsupported hunsupported) rfl
  | ok info =>
      rw [hparse] at hcurrent
      have hfits := fits_of_parseInfo hparse
      have hneeded := toUInt64_needed hfits
      have hlow := hfits.headLow
      have hnegative := hhead info bytes hcurrent
      have hprev : (parser.cachingData.length : ℤ) - garbage <
          toUInt64 (sizeofInfo + info.headSize) := by
        split at hneeded
        · omega
        · omega
      exact unpackHead_heads hfits hdata hoffset hcurrent (fun _ => not_lt.mp hwhole) hnegative
        (by omega) hprev

/-- The first half of a round, when a negative head size is out of reach. -/
theorem unpackProtocol_heads (hsane : Sane parser) (hdata : data.length < 2 ^ 31)
    (hoffset : offset ≤ data.length)
    (hhead : ∀ info bytes, current parser data offset = some (info, bytes) → info.headSize < 0 →
      bytes.length < toUInt64 (sizeofInfo + info.headSize)) :
    Heads parser data offset (unpackProtocol parser data offset) := by
  cases hsane with
  | searching hprotocol hcached =>
      rw [unpackProtocol_of_none hprotocol hoffset]
      rcases hcached with hshort | hunsupported
      · exact unpackInfo_heads hprotocol hdata hoffset hshort hhead
      · have hincoming : Unsupported (incoming parser data offset) := hunsupported.append _
        rw [hincoming.unpackInfo_eq]
        exact .unsupported (sane_of_unsupported hincoming) rfl
  | @heading info hprotocol hfits hunsaved hshort =>
      have hopen : headSaved ⟨info, [], [], 0⟩ = false := decide_eq_false hunsaved
      have hcurrent : current parser data offset = some (info, incoming parser data offset) := by
        rw [current, hprotocol]
      have hneeded := toUInt64_needed hfits
      have hhigh := hfits.headHigh
      have hprevSize : parser.cachingData.length = toUInt64 (parser.cachingData.length : ℤ) := by
        rw [toUInt64_of_fits]
        split at hneeded
        · omega
        · omega
      rw [unpackProtocol_of_unsaved hprotocol hopen hoffset, hprevSize]
      exact unpackHead_heads hfits hdata hoffset hcurrent (fun hzero => absurd hzero hunsaved)
        (hhead info _ hcurrent) (length_incoming parser hoffset) (Nat.cast_lt.mpr hshort)
  | @receiving protocol hprotocol hholds hcached =>
      have hcurrent : current parser data offset =
          some (protocol.info, incoming parser data offset) := by
        rw [current, hprotocol]
      rw [unpackProtocol_of_saved hprotocol hholds.headSaved]
      exact @Heads.saved parser data offset parser protocol _ 0 (by omega) hprotocol hholds hcached
        rfl hcurrent (Or.inl rfl)

end Heads

section Bodies

variable {parser : SessionParser} {data : Bytes} {offset : ℕ} {protocol : Protocol}

theorem toInt64_emod (value : ℤ) : toInt64 value % 2 ^ 64 = value % 2 ^ 64 :=
  Int.bmod_emod

theorem toInt64_add (left right : ℤ) : toInt64 (toInt64 left + right) = toInt64 (left + right) := by
  rw [toInt64, toInt64, toInt64, Int.bmod_add_bmod]

/-- Counting in `int64_t` reaches a size when the count reaches the size as a `size_t`. -/
theorem toInt64_eq_iff {count : ℕ} {size : ℤ} (hcount : count < 2 ^ 64) (hlow : -2 ^ 63 ≤ size)
    (hhigh : size < 2 ^ 63) : toInt64 count = size ↔ count = toUInt64 size := by
  have hmod := toInt64_emod (count : ℤ)
  obtain ⟨hlow', hhigh'⟩ := toInt64_bounds (count : ℤ)
  rw [toUInt64]
  generalize toInt64 (count : ℤ) = counted at *
  constructor
  · rintro rfl
    omega
  · intro hreached
    omega

theorem toUInt64_lt (value : ℤ) : toUInt64 value < 2 ^ 64 := by
  rw [toUInt64]
  omega

/-- What a frame takes of the chunk. -/
theorem Holds.realSize_eq (hholds : Holds protocol) (hdata : data.length < 2 ^ 31)
    (hoffset : offset ≤ data.length) :
    realSize protocol data offset =
      min (toUInt64 protocol.info.bodySize - protocol.bodyData.length) (data.length - offset) := by
  have hroom := hholds.room
  have hmod := toInt64_emod (protocol.bodyData.length : ℤ)
  have hneeded : toUInt64 (protocol.info.bodySize - protocol.receivedBodySize) =
      toUInt64 protocol.info.bodySize - protocol.bodyData.length := by
    rw [hholds.received]
    simp only [toUInt64] at hroom ⊢
    omega
  have havailable : toUInt64 ((data.length : ℤ) - offset) = data.length - offset := by
    rw [← Nat.cast_sub hoffset, toUInt64_of_fits (by omega)]
  rw [realSize, hneeded, havailable]

/-- The second half of a round on a frame whose head is saved. -/
theorem Holds.unpackBodyData_eq (hholds : Holds protocol)
    (hprotocol : parser.protocol = some protocol) (hdata : data.length < 2 ^ 31)
    (hoffset : offset ≤ data.length) {size : ℕ} {bodyData : Bytes}
    (hsize : size = min (toUInt64 protocol.info.bodySize - protocol.bodyData.length)
      (data.length - offset))
    (hbodyData : bodyData = protocol.bodyData ++ (data.drop offset).take size) :
    unpackBodyData parser data offset true =
      (if bodyData.length = toUInt64 protocol.info.bodySize then
          { parser with
            protocol := none
            unpacked := parser.unpacked ++ [(protocol.headData, bodyData)] }
        else
          { parser with protocol := some { protocol with
              bodyData := bodyData
              receivedBodySize := toInt64 bodyData.length } },
        .returned size) := by
  have hroom := hholds.room
  have hlt := toUInt64_lt protocol.info.bodySize
  have hrealSize : realSize protocol data offset = size :=
    (hholds.realSize_eq hdata hoffset).trans hsize.symm
  have hlength : bodyData.length = protocol.bodyData.length + size := by
    rw [hbodyData, List.length_append, List.length_take, List.length_drop]
    omega
  have hcount : bodyData.length < 2 ^ 64 := by omega
  have hinside : ¬ ((offset : ℤ) < 0 ∨ (data.length : ℤ) < offset + (size : ℤ)) := by omega
  have hret : toInt32 (size : ℤ) = size := toInt32_of_fits (by omega) (by omega)
  have hreceived : toInt64 (protocol.receivedBodySize + (size : ℤ)) = toInt64 bodyData.length := by
    rw [hholds.received, toInt64_add, hlength, Nat.cast_add]
  have hreached := toInt64_eq_iff hcount hholds.fits.bodyLow hholds.fits.bodyHigh
  simp only [unpackBodyData, hprotocol, hrealSize, hinside, if_false, hreceived, hreached,
    Int.toNat_natCast, ← hbodyData, hret, if_true]
  split
  · rfl
  · rfl

/-- What `bodyRound` does: the listener is called when the body has as many bytes as its size
has as a `size_t`, else all is taken. -/
inductive Bodies (parser : SessionParser) (data : Bytes) (offset : ℕ) (protocol : Protocol) :
    SessionParser × Round → Prop
  | delivered {next : SessionParser} {body : Bytes} {size : ℕ} (sane : Sane next)
      (ended : next.protocol = none) (inside : offset + size ≤ data.length)
      (unpacked : next.unpacked = parser.unpacked ++ [(protocol.headData, body)])
      (length : body.length = toUInt64 protocol.info.bodySize)
      (reached : toUInt64 protocol.info.bodySize ≤
        protocol.bodyData.length + (data.length - offset)) :
      Bodies parser data offset protocol (next, if offset + size < data.length
        then .goesOn ((offset + size : ℕ) : ℤ) else .ends (.returned 0))
  | receiving {next : SessionParser} (sane : Sane next)
      (unpacked : next.unpacked = parser.unpacked)
      (short : protocol.bodyData.length + (data.length - offset) <
        toUInt64 protocol.info.bodySize) :
      Bodies parser data offset protocol (next, .ends (.returned 0))

theorem Holds.grow (hholds : Holds protocol) {bodyData : Bytes} {count : ℤ}
    (hcount : count = toInt64 bodyData.length)
    (hroom : bodyData.length ≤ toUInt64 protocol.info.bodySize) :
    Holds { protocol with bodyData := bodyData, receivedBodySize := count } :=
  ⟨hholds.fits, hholds.head, hcount, hroom⟩

theorem bodyRound_bodies (hholds : Holds protocol) (hprotocol : parser.protocol = some protocol)
    (hcached : parser.cachingData = [] ∨ Unsupported parser.cachingData)
    (hdata : data.length < 2 ^ 31) (hoffset : offset ≤ data.length) :
    Bodies parser data offset protocol (bodyRound parser data true offset) := by
  generalize hsize : min (toUInt64 protocol.info.bodySize - protocol.bodyData.length)
    (data.length - offset) = size
  generalize hbodyData : protocol.bodyData ++ (data.drop offset).take size = bodyData
  have hroom := hholds.room
  have hlength : bodyData.length = protocol.bodyData.length + size := by
    rw [← hbodyData, List.length_append, List.length_take, List.length_drop]
    omega
  have hbody := hholds.unpackBodyData_eq hprotocol hdata hoffset hsize.symm hbodyData.symm
  have hinside : offset + size ≤ data.length := by omega
  rw [bodyRound_of_body hinside hdata hbody]
  by_cases hcomplete : bodyData.length = toUInt64 protocol.info.bodySize
  · rw [if_pos hcomplete]
    have hcached' : parser.cachingData.length < 24 ∨ Unsupported parser.cachingData :=
      hcached.imp (fun hnil => by rw [hnil]; decide) id
    exact .delivered (.searching rfl hcached') rfl hinside rfl hcomplete (by omega)
  · have hall : ¬ offset + size < data.length := by omega
    rw [if_neg hcomplete, if_neg hall]
    have hroom' : bodyData.length ≤ toUInt64 protocol.info.bodySize := by omega
    exact .receiving (.receiving rfl (hholds.grow rfl hroom') hcached) rfl (by omega)

end Bodies

section Rounds

variable {parser : SessionParser} {data : Bytes} {offset : ℕ}

/-- Two rounds consume a byte: a round that goes on without one has ended a frame. -/
def remaining (parser : SessionParser) (data : Bytes) (offset : ℕ) : ℕ :=
  2 * (data.length - offset) + if parser.protocol.isSome then 1 else 0

/-- A round goes on inside the chunk, and not for ever. -/
structure Continues (parser : SessionParser) (data : Bytes) (offset : ℕ)
    (result : SessionParser × Round) : Prop where
  sane : Sane result.1
  ends : result.2 ≠ .ends .diverged
  goesOn : ∀ dataPos, result.2 = .goesOn dataPos → ∃ position : ℕ, dataPos = position ∧
    position ≤ data.length ∧ remaining result.1 data position < remaining parser data offset

/-- What a round does with the head that `unpackProtocol` has saved. -/
theorem round_bodies {next : SessionParser} {protocol : Protocol} {size : ℕ}
    (hresult : unpackProtocol parser data offset = (next, .returned size))
    (hdata : data.length < 2 ^ 31) (hinside : offset + size ≤ data.length)
    (hreceived : next.protocol = some protocol) (hholds : Holds protocol)
    (hcached : next.cachingData = [] ∨ Unsupported next.cachingData) :
    Bodies next data (offset + size) protocol (round parser data true offset) := by
  rw [round_of_head hinside hdata hresult]
  exact bodyRound_bodies hholds hreceived hcached hdata hinside

theorem Heads.continues {result : SessionParser × Outcome}
    (hheads : Heads parser data offset result)
    (hresult : unpackProtocol parser data offset = result) (hdata : data.length < 2 ^ 31) :
    Continues parser data offset (round parser data true offset) := by
  cases hheads with
  | needsMore hsane =>
      rw [round_of_needsMore hresult]
      exact ⟨hsane, by simp, by simp⟩
  | unsupported hsane =>
      rw [round_of_unsupported hresult]
      exact ⟨hsane, by simp, by simp⟩
  | @saved next protocol bytes size hinside hreceived hholds hcached hunpacked hcurrent hfresh =>
      have hbodies := round_bodies hresult hdata hinside hreceived hholds hcached
      generalize round parser data true offset = ended at hbodies ⊢
      cases hbodies with
      | @delivered _ _ size' hsane hnone hinside' _ _ _ =>
          refine ⟨hsane, ?_, fun dataPos hdataPos => ?_⟩
          · dsimp only
            split
            · simp
            · simp
          · dsimp only at hdataPos
            split at hdataPos
            · refine ⟨offset + size + size', (Round.goesOn.inj hdataPos).symm, hinside', ?_⟩
              rw [remaining, remaining, hnone]
              rcases hfresh with rfl | ⟨hfresh, -⟩
              · rw [hreceived, Option.isSome_none, Option.isSome_some, if_neg Bool.false_ne_true,
                  if_pos rfl]
                omega
              · rw [Option.isSome_none, if_neg Bool.false_ne_true]
                omega
            · cases hdataPos
      | receiving hsane =>
          exact ⟨hsane, by simp, by simp⟩

/-- Where a negative size is out of reach, a round is safe. -/
theorem safeRound_of_tame (hsane : Sane parser) (hdata : data.length < 2 ^ 31)
    (hoffset : offset ≤ data.length) (htame : Tame parser data offset) :
    SafeRound parser data offset := by
  have hinside : (0 : ℤ) ≤ offset ∧ (offset : ℤ) ≤ data.length :=
    ⟨Int.natCast_nonneg offset, Nat.cast_le.mpr hoffset⟩
  have hheads := unpackProtocol_heads hsane hdata hoffset htame.head
  generalize hresult : unpackProtocol parser data offset = result at hheads
  cases hheads with
  | needsMore hsane hunpacked =>
      have hround := @round_of_needsMore parser _ data true offset hresult
      refine ⟨hinside, fun _ ret hreturned hnonneg => ?_, ?_, ?_⟩
      · cases hresult.symm.trans hreturned
        exact absurd hnonneg (by decide)
      · rw [hround]
        simp
      · rw [hround, hunpacked, List.drop_length]
        exact List.forall_mem_nil _
  | unsupported hsane hunpacked =>
      have hround := @round_of_unsupported parser _ data true offset hresult
      refine ⟨hinside, fun _ ret hreturned hnonneg => ?_, ?_, ?_⟩
      · cases hresult.symm.trans hreturned
        exact absurd hnonneg (by decide)
      · rw [hround]
        simp
      · rw [hround, hunpacked, List.drop_length]
        exact List.forall_mem_nil _
  | @saved next protocol bytes size hfits hreceived hholds hcached hunpacked hcurrent hfresh =>
      have hbodies := round_bodies hresult hdata hfits hreceived hholds hcached
      refine ⟨hinside, fun _ ret hreturned _ => ?_, ?_, ?_⟩
      · cases hresult.symm.trans hreturned
        omega
      · generalize round parser data true offset = ended at hbodies ⊢
        cases hbodies with
        | delivered =>
            dsimp only
            split
            · simp
            · simp
        | receiving => simp
      · generalize round parser data true offset = ended at hbodies ⊢
        cases hbodies with
        | @delivered _ body size' _ _ _ hdelivered hlength hreached =>
            -- a negative body size would have been out of reach
            have hnonneg : 0 ≤ protocol.info.bodySize := by
              by_contra hnegative
              rcases hfresh with rfl | ⟨-, hnil⟩
              · have hshort := htame.body protocol hreceived (not_le.mp hnegative)
                omega
              · have hhuge := toUInt64_of_negative hholds.fits.bodyLow (not_le.mp hnegative)
                have hlow := hholds.fits.bodyLow
                rw [hnil, List.length_nil] at hreached
                omega
            have hsize := toUInt64_of_nonneg hnonneg hholds.fits.bodyHigh
            rw [hdelivered, hunpacked, List.drop_left]
            intro call hcall
            rw [List.mem_singleton.mp hcall]
            exact ⟨protocol.info, bytes, hcurrent, hholds.head, by rw [← hsize, hlength]⟩
        | receiving _ hsame _ =>
            rw [hsame, hunpacked, List.drop_length]
            exact List.forall_mem_nil _

theorem firstFrame_eq_some {bytes rest : Bytes} {info : Info}
    (hfirst : firstFrame bytes = some (info, rest)) :
    bytes.drop (garbageSize bytes) = rest ∧ ¬ rest.length < sizeofInfo ∧
      parseInfo rest = .ok info := by
  rw [firstFrame] at hfirst
  split at hfirst
  · cases hfirst
  · next hwhole =>
      split at hfirst
      · cases hfirst
      · next hparse =>
          cases hfirst
          exact ⟨rfl, hwhole, hparse⟩

/-- Saving a head of a negative size that is within reach is undefined. -/
theorem undefined_of_reached {info : Info} {bytes : Bytes} (hsane : Sane parser)
    (hdata : data.length < 2 ^ 31) (hoffset : offset ≤ data.length)
    (hcurrent : current parser data offset = some (info, bytes)) (hnegative : info.headSize < 0)
    (hreach : toUInt64 (sizeofInfo + info.headSize) ≤ bytes.length) :
    unpackProtocol parser data offset = (parser, .undefined) := by
  cases hsane with
  | searching hprotocol hcached =>
      rw [current, hprotocol] at hcurrent
      obtain ⟨hbytes, hwhole, hparse⟩ := firstFrame_eq_some hcurrent
      rcases hcached with hshort | hunsupported
      · have hlength := length_incoming parser hoffset
        have hsize : (incoming parser data offset).length < 2 ^ 31 + 23 := by omega
        obtain ⟨-, hhigh, -, -⟩ := findMagicNum_spec (incoming parser data offset)
          ((incoming parser data offset).length - 23) 0
        rw [← garbageSize_eq hsize] at hhigh
        have hsmall : ¬ 2 ^ 31 ≤ garbageSize (incoming parser data offset) := by omega
        rw [unpackProtocol_of_none hprotocol hoffset, unpackInfo, hbytes, if_neg hsmall,
          if_neg hwhole, hparse]
        exact unpackHead_undefined hnegative hreach
      · have hincoming : Unsupported (incoming parser data offset) := hunsupported.append _
        rw [garbageSize_of_magic hincoming.magic, List.drop_zero] at hbytes
        rw [← hbytes, parseInfo, if_pos hincoming.version] at hparse
        cases hparse
  | @heading headed hprotocol hfits hunsaved =>
      rw [current, hprotocol] at hcurrent
      cases hcurrent
      have hopen : headSaved ⟨headed, [], [], 0⟩ = false := decide_eq_false hunsaved
      rw [unpackProtocol_of_unsaved hprotocol hopen hoffset]
      exact unpackHead_undefined hnegative hreach
  | receiving hprotocol hholds =>
      rw [current, hprotocol] at hcurrent
      cases hcurrent
      have hhead := hholds.head
      omega

/-- A round is safe only where a negative size is out of reach. -/
theorem tame_of_safeRound (hsane : Sane parser) (hdata : data.length < 2 ^ 31)
    (hoffset : offset ≤ data.length) (hsafe : SafeRound parser data offset) :
    Tame parser data offset := by
  refine ⟨fun info bytes hcurrent hnegative => ?_, fun protocol hprotocol hnegative => ?_⟩
  · by_contra hreach
    have hundefined :=
      undefined_of_reached hsane hdata hoffset hcurrent hnegative (not_lt.mp hreach)
    apply hsafe.defined
    rw [round_of_undefined hundefined]
  · by_contra hreach
    cases hsane with
    | searching hnone => cases hnone.symm.trans hprotocol
    | @heading info hheading hfits =>
        cases hheading.symm.trans hprotocol
        have hhuge := toUInt64_of_negative hfits.bodyLow hnegative
        have hlow := hfits.bodyLow
        simp only [List.length_nil] at hreach
        omega
    | @receiving _ hreceived hholds hcached =>
        cases hreceived.symm.trans hprotocol
        have hhead := @unpackProtocol_of_saved parser data _ hprotocol hholds.headSaved offset
        have hbodies :=
          @round_bodies parser data offset _ _ 0 hhead hdata hoffset hprotocol hholds hcached
        have hdelivers := hsafe.delivers
        generalize round parser data true offset = ended at hbodies hdelivers
        cases hbodies with
        | @delivered _ body _ _ _ _ hdelivered hlength _ =>
            rw [hdelivered, List.drop_left] at hdelivers
            obtain ⟨info, bytes, hcurrent, -, hsize⟩ := hdelivers _ (List.mem_singleton_self _)
            rw [current, hprotocol] at hcurrent
            cases hcurrent
            omega
        | receiving _ _ hshort => omega

theorem continues_of_tame (hsane : Sane parser) (hdata : data.length < 2 ^ 31)
    (hoffset : offset ≤ data.length) (htame : Tame parser data offset) :
    Continues parser data offset (round parser data true offset) :=
  (unpackProtocol_heads hsane hdata hoffset htame.head).continues rfl hdata

/-- Round after round, being safe and being tame are the same. -/
theorem eachRound_iff (hdata : data.length < 2 ^ 31) (rounds : ℕ) (hsane : Sane parser)
    (hoffset : offset ≤ data.length) :
    EachRound SafeRound data rounds parser offset ↔ EachRound Tame data rounds parser offset := by
  induction rounds generalizing parser offset with
  | zero => exact Iff.rfl
  | succ rounds ih =>
      have hround : SafeRound parser data offset ↔ Tame parser data offset :=
        ⟨tame_of_safeRound hsane hdata hoffset, safeRound_of_tame hsane hdata hoffset⟩
      rw [EachRound, EachRound, hround]
      apply and_congr_right
      intro htame
      have hnext := continues_of_tame hsane hdata hoffset htame
      generalize round parser data true offset = result at hnext ⊢
      rcases result with ⟨next, dataPos | outcome⟩
      · obtain ⟨position, rfl, hposition, -⟩ := hnext.goesOn dataPos rfl
        exact ih hnext.sane hposition
      · exact Iff.rfl

/-- Tame rounds come to an end. -/
theorem unpackFrom_ends (hdata : data.length < 2 ^ 31) (rounds : ℕ) (hsane : Sane parser)
    (hoffset : offset ≤ data.length) (htame : EachRound Tame data rounds parser offset)
    (hrounds : remaining parser data offset < rounds) :
    Sane (unpackFrom parser data true rounds offset).1 ∧
      (unpackFrom parser data true rounds offset).2 ≠ .diverged := by
  induction rounds generalizing parser offset with
  | zero => omega
  | succ rounds ih =>
      rw [EachRound] at htame
      have hnext := continues_of_tame hsane hdata hoffset htame.1
      have hlater := htame.2
      rw [unpackFrom_succ]
      generalize round parser data true offset = result at hnext hlater ⊢
      rcases result with ⟨next, dataPos | outcome⟩
      · obtain ⟨position, rfl, hposition, hless⟩ := hnext.goesOn dataPos rfl
        exact ih hnext.sane hposition hlater (by dsimp only at hless; omega)
      · exact ⟨hnext.sane, fun hdiverged => hnext.ends (congrArg Round.ends hdiverged)⟩

end Rounds

theorem remaining_start (parser : SessionParser) (data : Bytes) :
    remaining parser data 0 < 2 * data.length + 2 := by
  rw [remaining]
  split
  · omega
  · omega

theorem eachRoundOf_iff {parser : SessionParser} (chunks : List Bytes)
    (hchunks : ∀ chunk ∈ chunks, chunk.length < 2 ^ 31) (hsane : Sane parser) :
    (EachRoundOf SafeRound parser chunks ∧
        ∀ outcome ∈ (unpackAll parser chunks).2, outcome ≠ .diverged) ↔
      EachRoundOf Tame parser chunks := by
  induction chunks generalizing parser with
  | nil => exact ⟨fun _ => trivial, fun _ => ⟨trivial, List.forall_mem_nil _⟩⟩
  | cons chunk chunks ih =>
      have hchunk := hchunks chunk List.mem_cons_self
      have hlater : ∀ later ∈ chunks, later.length < 2 ^ 31 :=
        fun later hlater => hchunks later (List.mem_cons_of_mem _ hlater)
      have hrounds :=
        @eachRound_iff parser chunk 0 hchunk (2 * chunk.length + 2) hsane (Nat.zero_le _)
      rw [Nat.cast_zero] at hrounds
      rw [EachRoundOf, EachRoundOf, hrounds, unpackAll, List.forall_mem_cons]
      constructor
      · rintro ⟨⟨hnow, hthen⟩, -, hends⟩
        obtain ⟨hnext, -⟩ := unpackFrom_ends hchunk _ hsane (Nat.zero_le _) hnow
          (remaining_start parser chunk)
        exact ⟨hnow, (ih hlater hnext).mp ⟨hthen, hends⟩⟩
      · rintro ⟨hnow, hthen⟩
        obtain ⟨hnext, hend⟩ := unpackFrom_ends hchunk _ hsane (Nat.zero_le _) hnow
          (remaining_start parser chunk)
        obtain ⟨hsafe, hends⟩ := (ih hlater hnext).mpr hthen
        exact ⟨⟨hnow, hsafe⟩, hend, hends⟩

/-- The parser is safe exactly where no negative size comes within reach. -/
theorem safe_iff (chunks : List Bytes) (hchunks : ∀ chunk ∈ chunks, chunk.length < 2 ^ 31) :
    Safe chunks ↔ EachRoundOf Tame .init chunks :=
  eachRoundOf_iff chunks hchunks (.searching rfl (Or.inl (by decide)))

/-- A frame, and then a fixed part in two pieces whose head size is -25. -/
theorem garbage_is_safe :
    Safe [Frame.bytes ⟨[1], [2, 3]⟩ ++ searchMagicNum ++ encodeBE 4 version_01_00_00,
      [255, 255, 255, 231] ++ encodeBE 8 0 ++ [0x41]] :=
  (safe_iff _ (by decide)).mpr (by decide +kernel)

/-- A fixed part whose head size is -1. -/
def negativeHead : Bytes :=
  searchMagicNum ++ (encodeBE 4 version_01_00_00 ++ ([255, 255, 255, 255] ++ encodeBE 8 0))

/-- The head of such a frame would end one byte before it starts. -/
theorem negativeHead_is_undefined :
    unpack .init negativeHead true = (.init, .undefined) ∧ ¬ Safe [negativeHead] := by
  refine ⟨by decide +kernel, fun hsafe => ?_⟩
  have hround : (round .init negativeHead true 0).2 = .ends .undefined := by decide +kernel
  exact hsafe.1.1.1.defined hround

end FeedsService.Session
