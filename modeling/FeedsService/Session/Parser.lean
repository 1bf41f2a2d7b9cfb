import FeedsService.Library.Bytes

/-!
# The session parser of `SessionParser.cpp`

`unpack` takes the chunks of a byte stream one after the other and calls its
listener for each frame it has seen completely.  Positions in a chunk are
`int`, sizes are `size_t`, and the conversions between them are written out.

An iterator or a pointer that leaves its buffer, or an overflow of an `int`,
makes a call `undefined`.  The cache directory can be created, the cache file
of a frame is fresh, and writes to it succeed, so the file holds what was
written while the frame was received.
-/

namespace FeedsService.Session

open FeedsService.Library

def magicNumber : ℤ := 0x00A5202008275A

def version_01_00_00 : ℕ := 10000

/-- `sizeof(Protocol::Info)`. -/
def sizeofInfo : ℕ := 24

def carrierSessionDataNotEnough : ℤ := -138

def carrierSessionUnsuppertedVersion : ℤ := -139

structure Info where
  magicNumber : ℤ
  version : ℕ
  headSize : ℤ
  bodySize : ℤ
  deriving DecidableEq

/-- A frame being received, with the contents of its cache file. -/
structure Protocol where
  info : Info
  headData : Bytes
  bodyData : Bytes
  receivedBodySize : ℤ
  deriving DecidableEq

/-- The parser, with the calls of its listener so far: the head and the file
contents of each. -/
structure SessionParser where
  protocol : Option Protocol
  cachingData : Bytes
  unpacked : List (Bytes × Bytes)
  deriving DecidableEq

def SessionParser.init : SessionParser where
  protocol := none
  cachingData := []
  unpacked := []

inductive Outcome
  | returned (ret : ℤ)
  | undefined
  | diverged
  deriving DecidableEq

/-- `htonll(MagicNumber)` as it lies in memory. -/
def searchMagicNum : Bytes :=
  encodeBE 8 (toUInt64 magicNumber)

def pack (headData body : Bytes) : Bytes :=
  encodeBE 8 (toUInt64 magicNumber) ++
    (encodeBE 4 version_01_00_00 ++
      (encodeBE 4 (toUInt32 (toInt32 headData.length)) ++
        encodeBE 8 (toUInt64 (toInt64 (toUInt64 body.length)))))

/-- The search loop: `steps` is the number of positions left to try. -/
def findMagicNum (cachingData : Bytes) : ℕ → ℕ → ℕ
  | 0, garbageIdx => garbageIdx
  | steps + 1, garbageIdx =>
      if (cachingData.drop garbageIdx).take 8 = searchMagicNum then
        garbageIdx
      else
        findMagicNum cachingData steps (garbageIdx + 1)

/-- The loop condition compares with `size() - sizeof(Info)` cast to `int`. -/
def garbageSize (cachingData : Bytes) : ℕ :=
  findMagicNum cachingData
    (toInt32 (toUInt64 ((cachingData.length : ℤ) - sizeofInfo)) + 1).toNat 0

/-- The fixed part of a frame, or what is set of it when the version is not
the supported one. -/
def parseInfo (cachingData : Bytes) : Except Info Info :=
  let magic := toInt64 (decodeBE (cachingData.take 8))
  let version := decodeBE ((cachingData.drop 8).take 4)
  if version ≠ version_01_00_00 then
    .error ⟨magic, version, 0, 0⟩
  else
    .ok ⟨magic, version, toInt32 (decodeBE ((cachingData.drop 12).take 4)),
      toInt64 (decodeBE ((cachingData.drop 16).take 8))⟩

/-- The second half of `unpackProtocol`: save the head data once it is there. -/
def unpackHead (parser : SessionParser) (protocol : Protocol)
    (cachingData : Bytes) (cachingDataPrevSize : ℕ) : SessionParser × Outcome :=
  if cachingData.length < toUInt64 (sizeofInfo + protocol.info.headSize) then
    ({ parser with protocol := some protocol, cachingData := cachingData },
      .returned carrierSessionDataNotEnough)
  else if protocol.info.headSize < 0 then
    (parser, .undefined)
  else
    ({ parser with
        protocol := some { protocol with
          headData := (cachingData.drop sizeofInfo).take protocol.info.headSize.toNat }
        cachingData := [] },
      .returned (toInt32
        (toUInt64 (sizeofInfo + protocol.info.headSize - cachingDataPrevSize))))

/-- The first half: remove garbage, and parse the fixed part. -/
def unpackInfo (parser : SessionParser) (cachingData : Bytes)
    (cachingDataPrevSize : ℕ) : SessionParser × Outcome :=
  let garbageIdx := garbageSize cachingData
  let cachingData := cachingData.drop garbageIdx
  let cachingDataPrevSize := toUInt64 ((cachingDataPrevSize : ℤ) - garbageIdx)
  if 2 ^ 31 ≤ garbageIdx then
    (parser, .undefined)
  else if cachingData.length < sizeofInfo then
    ({ parser with cachingData := cachingData },
      .returned carrierSessionDataNotEnough)
  else
    match parseInfo cachingData with
    | .error info =>
        ({ parser with
            protocol := some ⟨info, [], [], 0⟩
            cachingData := cachingData },
          .returned carrierSessionUnsuppertedVersion)
    | .ok info =>
        unpackHead parser ⟨info, [], [], 0⟩ cachingData cachingDataPrevSize

/-- Whether the head of the current frame is already saved, compared as
`size_t`. -/
def headSaved (protocol : Protocol) : Bool :=
  toUInt64 protocol.info.headSize = protocol.headData.length

def unpackProtocol (parser : SessionParser) (data : Bytes) (offset : ℤ) :
    SessionParser × Outcome :=
  match parser.protocol with
  | some protocol =>
      if headSaved protocol then
        (parser, .returned 0)
      else if offset < 0 ∨ data.length < offset then
        (parser, .undefined)
      else
        unpackHead parser protocol
          (parser.cachingData ++ data.drop offset.toNat) parser.cachingData.length
  | none =>
      if offset < 0 ∨ data.length < offset then
        (parser, .undefined)
      else
        unpackInfo parser
          (parser.cachingData ++ data.drop offset.toNat) parser.cachingData.length

/-- `min(neededData, data.size() - offset)`, compared as `size_t`. -/
def realSize (protocol : Protocol) (data : Bytes) (offset : ℤ) : ℕ :=
  min (toUInt64 (protocol.info.bodySize - protocol.receivedBodySize))
    (toUInt64 (data.length - offset))

def unpackBodyData (parser : SessionParser) (data : Bytes) (offset : ℤ)
    (listener : Bool) : SessionParser × Outcome :=
  match parser.protocol with
  | none => (parser, .undefined)
  | some protocol =>
      let size := realSize protocol data offset
      if offset < 0 ∨ data.length < offset + size then
        (parser, .undefined)
      else
        let protocol := { protocol with
          bodyData := protocol.bodyData ++ (data.drop offset.toNat).take size
          receivedBodySize := toInt64 (protocol.receivedBodySize + size) }
        if protocol.receivedBodySize = protocol.info.bodySize then
          ({ parser with
              protocol := none
              unpacked := if listener then
                  parser.unpacked ++ [(protocol.headData, protocol.bodyData)]
                else parser.unpacked },
            .returned (toInt32 size))
        else
          ({ parser with protocol := some protocol }, .returned (toInt32 size))

/-- What `CHECK_ERROR` returns for an error met in source line `line`.  It computes with `int`. -/
def checkError (line ret : ℤ) : Outcome :=
  if -1000000 ≤ ret then .returned ret
  else if ret - line * 1000000 < -2 ^ 31 then .undefined
  else .returned (ret - line * 1000000)

/-- `dataPos += ret`. -/
def advance (dataPos ret : ℤ) : Option ℤ :=
  if dataPos + ret < 2 ^ 31 then some (dataPos + ret) else none

/-- The loop of `unpack`, entered for at most `rounds` rounds. -/
def unpackFrom (parser : SessionParser) (data : Bytes) (listener : Bool) :
    ℕ → ℤ → SessionParser × Outcome
  | 0, _ => (parser, .diverged)
  | rounds + 1, dataPos =>
      match unpackProtocol parser data dataPos with
      | (parser, .returned ret) =>
          if ret = carrierSessionDataNotEnough then
            (parser, .returned 0)
          else if ret < 0 then
            (parser, checkError 54 ret)
          else
            match advance dataPos ret with
            | none => (parser, .undefined)
            | some dataPos =>
                match unpackBodyData parser data dataPos listener with
                | (parser, .returned ret) =>
                    if ret < 0 then
                      (parser, checkError 58 ret)
                    else
                      match advance dataPos ret with
                      | none => (parser, .undefined)
                      | some dataPos =>
                          if toUInt64 dataPos < data.length then
                            unpackFrom parser data listener rounds dataPos
                          else
                            (parser, .returned 0)
                | stopped => stopped
      | stopped => stopped

/-- No chunk needs more rounds than this: two rounds consume a byte. -/
def unpack (parser : SessionParser) (data : Bytes) (listener : Bool) :
    SessionParser × Outcome :=
  unpackFrom parser data listener (2 * data.length + 2) 0

end FeedsService.Session
