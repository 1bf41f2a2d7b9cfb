import FeedsService.Session.RoundTrip

/-!
# One round of the loop of `unpack`

A round reads the head of a frame if it still has to, and then as much of its body as the
chunk has.
-/

namespace FeedsService.Session

open FeedsService.Library

/-- How a round ends: with the position of the next one, or with the call. -/
inductive Round
  | goesOn (dataPos : ℤ)
  | ends (outcome : Outcome)
  deriving DecidableEq

/-- The second half of a round. -/
def bodyRound (parser : SessionParser) (data : Bytes) (listener : Bool) (dataPos : ℤ) :
    SessionParser × Round :=
  match unpackBodyData parser data dataPos listener with
  | (parser, .returned ret) =>
      if ret < 0 then
        (parser, .ends (checkError 58 ret))
      else
        match advance dataPos ret with
        | none => (parser, .ends .undefined)
        | some dataPos =>
            if toUInt64 dataPos < data.length then
              (parser, .goesOn dataPos)
            else
              (parser, .ends (.returned 0))
  | (parser, outcome) => (parser, .ends outcome)

def round (parser : SessionParser) (data : Bytes) (listener : Bool) (dataPos : ℤ) :
    SessionParser × Round :=
  match unpackProtocol parser data dataPos with
  | (parser, .returned ret) =>
      if ret = carrierSessionDataNotEnough then
        (parser, .ends (.returned 0))
      else if ret < 0 then
        (parser, .ends (checkError 54 ret))
      else
        match advance dataPos ret with
        | none => (parser, .ends .undefined)
        | some dataPos => bodyRound parser data listener dataPos
  | (parser, outcome) => (parser, .ends outcome)

section Specifications

variable {parser next : SessionParser} {data : Bytes} {listener : Bool} {offset size : ℕ}

theorem unpackFrom_succ (parser : SessionParser) (data : Bytes) (listener : Bool) (rounds : ℕ)
    (dataPos : ℤ) :
    unpackFrom parser data listener (rounds + 1) dataPos =
      match round parser data listener dataPos with
      | (next, .goesOn dataPos) => unpackFrom next data listener rounds dataPos
      | (next, .ends outcome) => (next, outcome) := by
  rw [unpackFrom, round]
  rcases unpackProtocol parser data dataPos with ⟨head, ret | - | -⟩
  · dsimp only
    by_cases hmore : ret = carrierSessionDataNotEnough
    · rw [if_pos hmore, if_pos hmore]
    by_cases hfailed : ret < 0
    · rw [if_neg hmore, if_neg hmore, if_pos hfailed, if_pos hfailed]
    rw [if_neg hmore, if_neg hmore, if_neg hfailed, if_neg hfailed]
    cases advance dataPos ret with
    | none => rfl
    | some bodyPos =>
        dsimp only [bodyRound]
        rcases unpackBodyData head data bodyPos listener with ⟨body, ret' | - | -⟩
        · dsimp only
          by_cases hfailed' : ret' < 0
          · rw [if_pos hfailed', if_pos hfailed']
          rw [if_neg hfailed', if_neg hfailed']
          cases advance bodyPos ret' with
          | none => rfl
          | some dataPos' =>
              dsimp only
              by_cases hleft : toUInt64 dataPos' < data.length
              · rw [if_pos hleft, if_pos hleft]
              · rw [if_neg hleft, if_neg hleft]
        · rfl
        · rfl
  · rfl
  · rfl

theorem round_of_needsMore {dataPos : ℤ} (hprotocol : unpackProtocol parser data dataPos =
    (next, .returned carrierSessionDataNotEnough)) :
    round parser data listener dataPos = (next, .ends (.returned 0)) := by
  rw [round, hprotocol]
  exact if_pos rfl

theorem round_of_unsupported {dataPos : ℤ} (hprotocol : unpackProtocol parser data dataPos =
    (next, .returned carrierSessionUnsuppertedVersion)) :
    round parser data listener dataPos =
      (next, .ends (.returned carrierSessionUnsuppertedVersion)) := by
  rw [round, hprotocol]
  rfl

theorem round_of_undefined {dataPos : ℤ}
    (hprotocol : unpackProtocol parser data dataPos = (next, .undefined)) :
    round parser data listener dataPos = (next, .ends .undefined) := by
  rw [round, hprotocol]

theorem round_of_head (hfits : offset + size ≤ data.length) (hdata : data.length < 2 ^ 31)
    (hprotocol : unpackProtocol parser data offset = (next, .returned size)) :
    round parser data listener offset =
      bodyRound next data listener ((offset + size : ℕ) : ℤ) := by
  have hnotCode : ¬ (size : ℤ) = carrierSessionDataNotEnough := by
    rw [carrierSessionDataNotEnough]
    omega
  have hnonneg : ¬ (size : ℤ) < 0 := by omega
  rw [round, hprotocol]
  dsimp only
  rw [if_neg hnotCode, if_neg hnonneg, advance_of_fits hfits hdata]

theorem bodyRound_of_body (hfits : offset + size ≤ data.length) (hdata : data.length < 2 ^ 31)
    (hbody : unpackBodyData parser data offset listener = (next, .returned size)) :
    bodyRound parser data listener offset =
      (next, if offset + size < data.length then .goesOn ((offset + size : ℕ) : ℤ)
        else .ends (.returned 0)) := by
  have hnonneg : ¬ (size : ℤ) < 0 := by omega
  rw [bodyRound, hbody]
  dsimp only
  rw [if_neg hnonneg, advance_of_fits hfits hdata]
  dsimp only
  rw [toUInt64_of_fits (by omega)]
  split
  · rfl
  · rfl

end Specifications

section Unsupported

/-- The fixed part of a frame of another version, and what follows it. -/
structure Unsupported (bytes : Bytes) : Prop where
  whole : 24 ≤ bytes.length
  magic : bytes.take 8 = searchMagicNum
  version : decodeBE ((bytes.drop 8).take 4) ≠ version_01_00_00

variable {parser : SessionParser} {bytes more : Bytes}

theorem Unsupported.append (hbytes : Unsupported bytes) (more : Bytes) :
    Unsupported (bytes ++ more) := by
  have hwhole := hbytes.whole
  constructor
  · rw [List.length_append]
    omega
  · rw [List.take_append_of_le_length (by omega), hbytes.magic]
  · rw [List.drop_append_of_le_length (by omega), List.take_append_of_le_length]
    · exact hbytes.version
    · rw [List.length_drop]
      omega

/-- A magic number at the front is found, also when the size is no `int`. -/
theorem garbageSize_of_magic (hmagic : bytes.take 8 = searchMagicNum) : garbageSize bytes = 0 := by
  rw [garbageSize]
  cases (toInt32 (toUInt64 ((bytes.length : ℤ) - sizeofInfo)) + 1).toNat with
  | zero => rfl
  | succ steps => rw [findMagicNum, List.drop_zero, if_pos hmagic]

/-- What is left in the parser of a frame of another version: nothing of it is parsed but its
version, and it stays cached. -/
def unsupportedInfo (bytes : Bytes) : Info :=
  ⟨toInt64 (decodeBE (bytes.take 8)), decodeBE ((bytes.drop 8).take 4), 0, 0⟩

theorem Unsupported.parseInfo_eq (hbytes : Unsupported bytes) :
    parseInfo bytes = .error (unsupportedInfo bytes) :=
  if_pos hbytes.version

/-- The fixed part is found behind some garbage. -/
theorem unpackInfo_of_unsupported (hgarbage : garbageSize bytes < 2 ^ 31)
    (hfound : Unsupported (bytes.drop (garbageSize bytes))) (prevSize : ℕ) :
    unpackInfo parser bytes prevSize =
      ({ parser with
          protocol := some ⟨unsupportedInfo (bytes.drop (garbageSize bytes)), [], [], 0⟩
          cachingData := bytes.drop (garbageSize bytes) },
        .returned carrierSessionUnsuppertedVersion) := by
  have hwhole : ¬ (bytes.drop (garbageSize bytes)).length < sizeofInfo := not_lt.mpr hfound.whole
  rw [unpackInfo, if_neg (not_le.mpr hgarbage), if_neg hwhole, hfound.parseInfo_eq]

theorem Unsupported.unpackInfo_eq (hbytes : Unsupported bytes) (prevSize : ℕ) :
    unpackInfo parser bytes prevSize =
      ({ parser with
          protocol := some ⟨unsupportedInfo bytes, [], [], 0⟩
          cachingData := bytes },
        .returned carrierSessionUnsuppertedVersion) := by
  have hgarbage := garbageSize_of_magic hbytes.magic
  have hfront : bytes.drop (garbageSize bytes) = bytes := by rw [hgarbage, List.drop_zero]
  have hresult := @unpackInfo_of_unsupported parser bytes (by omega)
    (by rw [hfront]; exact hbytes) prevSize
  rw [hfront] at hresult
  exact hresult

end Unsupported

end FeedsService.Session
