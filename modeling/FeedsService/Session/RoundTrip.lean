import FeedsService.Session.Parser

/-!
# The session parser gives back the frames

The state of the parser is described by the bytes it still expects: between
two frames, inside the fixed part and the head of a frame, or inside a body.
One round of `unpack` consumes a prefix of what is left of its chunk and leads
from such a description to another; what the description promises does not
mention where the stream is cut.
-/

namespace FeedsService.Session

open FeedsService.Library

structure Frame where
  head : Bytes
  body : Bytes
  deriving DecidableEq

/-- The sizes fit the fields of the fixed part. -/
def Frame.Sized (frame : Frame) : Prop :=
  frame.head.length < 2 ^ 31 ∧ frame.body.length < 2 ^ 31

instance (frame : Frame) : Decidable frame.Sized :=
  inferInstanceAs (Decidable (_ ∧ _))

def Frame.bytes (frame : Frame) : Bytes :=
  pack frame.head frame.body ++ (frame.head ++ frame.body)

def Frame.info (frame : Frame) : Info where
  magicNumber := Session.magicNumber
  version := version_01_00_00
  headSize := frame.head.length
  bodySize := frame.body.length

/-- A frame with the garbage in front of it. -/
structure Piece where
  garbage : Bytes
  frame : Frame
  deriving DecidableEq

def Piece.bytes (piece : Piece) : Bytes :=
  piece.garbage ++ piece.frame.bytes

/-- The magic number does not occur before the frame's own. -/
def Piece.Clean (piece : Piece) : Prop :=
  ∀ position < piece.garbage.length,
    (piece.bytes.drop position).take 8 ≠ searchMagicNum

instance (piece : Piece) : Decidable piece.Clean :=
  inferInstanceAs (Decidable (∀ position < piece.garbage.length, _))

def stream (pieces : List Piece) : Bytes :=
  pieces.flatMap Piece.bytes

def WellFormed (pieces : List Piece) : Prop :=
  ∀ piece ∈ pieces, piece.frame.Sized ∧ piece.Clean

instance (pieces : List Piece) : Decidable (WellFormed pieces) :=
  inferInstanceAs (Decidable (∀ piece ∈ pieces, _))

/-- The calls of the listener that the frames ask for. -/
def calls (pieces : List Piece) : List (Bytes × Bytes) :=
  pieces.map fun piece => (piece.frame.head, piece.frame.body)

/-- Feed the chunks to the parser, in order. -/
def unpackAll (parser : SessionParser) : List Bytes → SessionParser × List Outcome
  | [] => (parser, [])
  | chunk :: chunks =>
      let first := unpack parser chunk true
      let others := unpackAll first.1 chunks
      (others.1, first.2 :: others.2)

section Header

@[simp]
theorem length_pack (headData body : Bytes) : (pack headData body).length = 24 := by
  simp [pack]

@[simp]
theorem Frame.length_bytes (frame : Frame) :
    frame.bytes.length = 24 + (frame.head.length + frame.body.length) := by
  simp [Frame.bytes]

theorem take_pack (headData body : Bytes) :
    (pack headData body).take 8 = searchMagicNum := by
  simp [pack, searchMagicNum]

theorem field_of_take {bytes header : Bytes} (hheader : bytes.take 24 = header)
    (start size : ℕ) (hfits : start + size ≤ 24) :
    (bytes.drop start).take size = (header.drop start).take size := by
  rw [← hheader, List.drop_take, List.take_take]
  congr 1
  omega

theorem magicNumber_field :
    toInt64 (decodeBE (encodeBE 8 (toUInt64 magicNumber))) = magicNumber := by
  decide

theorem version_field :
    decodeBE (encodeBE 4 version_01_00_00) = version_01_00_00 := by
  decide

/-- Four fields of the sizes of the fixed part, one after the other. -/
theorem fields_of_append {magic version headSize bodySize : Bytes}
    (hmagic : magic.length = 8) (hversion : version.length = 4)
    (hheadSize : headSize.length = 4) (hbodySize : bodySize.length = 8) :
    (magic ++ (version ++ (headSize ++ bodySize))).take 8 = magic ∧
      ((magic ++ (version ++ (headSize ++ bodySize))).drop 8).take 4 = version ∧
      ((magic ++ (version ++ (headSize ++ bodySize))).drop 12).take 4 = headSize ∧
      ((magic ++ (version ++ (headSize ++ bodySize))).drop 16).take 8 = bodySize := by
  refine ⟨?_, ?_, ?_, ?_⟩ <;>
    simp [List.drop_append, List.drop_eq_nil_of_le, List.take_of_length_le,
      hmagic, hversion, hheadSize, hbodySize]

/-- Parsing what `pack` wrote gives the sizes back. -/
theorem parseInfo_pack {bytes : Bytes} {frame : Frame} (hsized : frame.Sized)
    (hheader : bytes.take 24 = pack frame.head frame.body) :
    parseInfo bytes = .ok frame.info := by
  obtain ⟨hhead, hbody⟩ := hsized
  have hbodyFits : frame.body.length < 2 ^ 63 := by omega
  obtain ⟨hmagic, hversion, hheadSize, hbodySize⟩ := fields_of_append
    (length_encodeBE 8 (toUInt64 magicNumber))
    (length_encodeBE 4 version_01_00_00)
    (length_encodeBE 4 (toUInt32 (toInt32 frame.head.length)))
    (length_encodeBE 8 (toUInt64 (toInt64 (toUInt64 frame.body.length))))
  have hfield := field_of_take hheader
  have hstart := hfield 0 8 (by omega)
  rw [List.drop_zero, List.drop_zero] at hstart
  simp only [parseInfo, hstart, hfield 8 4 (by omega), hfield 12 4 (by omega),
    hfield 16 8 (by omega), pack, hmagic, hversion, hheadSize, hbodySize,
    int32_field hhead, int64_field hbodyFits, magicNumber_field, version_field,
    ne_eq, not_true_eq_false, if_false, Frame.info]

end Header

section Search

/-- The search stops at the first position with the magic number, or after
its last one. -/
theorem findMagicNum_spec (cachingData : Bytes) (steps start : ℕ) :
    start ≤ findMagicNum cachingData steps start ∧
      findMagicNum cachingData steps start ≤ start + steps ∧
      (∀ position, start ≤ position →
        position < findMagicNum cachingData steps start →
        (cachingData.drop position).take 8 ≠ searchMagicNum) ∧
      (findMagicNum cachingData steps start < start + steps →
        (cachingData.drop (findMagicNum cachingData steps start)).take 8 =
          searchMagicNum) := by
  induction steps generalizing start with
  | zero =>
      simp only [findMagicNum]
      refine ⟨le_refl _, le_refl _, fun position hlow hhigh => ?_, fun h => ?_⟩ <;> omega
  | succ steps ih =>
      simp only [findMagicNum]
      split
      · rename_i hfound
        refine ⟨le_refl _, by omega, fun position hlow hhigh => ?_, fun _ => hfound⟩
        omega
      · rename_i hmiss
        obtain ⟨hlow, hhigh, hbefore, hfound⟩ := ih (start + 1)
        refine ⟨by omega, by omega, fun position hstart hend => ?_, fun h => ?_⟩
        · rcases Nat.eq_or_lt_of_le hstart with rfl | hlater
          · exact hmiss
          · exact hbefore position hlater hend
        · exact hfound (by omega)

theorem garbageSize_eq {cachingData : Bytes}
    (hsize : cachingData.length < 2 ^ 31 + 23) :
    garbageSize cachingData =
      findMagicNum cachingData (cachingData.length - 23) 0 := by
  have hbound : toInt32 (toUInt64 ((cachingData.length : ℤ) - sizeofInfo)) =
      (cachingData.length : ℤ) - 24 := by
    simp only [sizeofInfo]
    exact toInt32_toUInt64 (by omega) (by omega)
  have hsteps : ((cachingData.length : ℤ) - 24 + 1).toNat =
      cachingData.length - 23 := by omega
  rw [garbageSize, hbound, hsteps]

/-- What the search removes in front of a magic number that occurs no earlier: all bytes once
the fixed part is there, else all but 23. -/
theorem garbageSize_first {cachingData rest bytes : Bytes} {start : ℕ}
    (hclean : ∀ position < start, (bytes.drop position).take 8 ≠ searchMagicNum)
    (hown : (bytes.drop start).take 8 = searchMagicNum)
    (hsize : cachingData.length < 2 ^ 31 + 23) (hstream : cachingData ++ rest = bytes) :
    (garbageSize cachingData = start ∧ start + 24 ≤ cachingData.length) ∨
      (garbageSize cachingData ≤ start ∧
        garbageSize cachingData = cachingData.length - 23) := by
  have hwindow : ∀ position, position + 8 ≤ cachingData.length →
      (cachingData.drop position).take 8 = (bytes.drop position).take 8 := by
    intro position hinside
    rw [← hstream, List.drop_append_of_le_length (by omega),
      List.take_append_of_le_length (by simp only [List.length_drop]; omega)]
  rw [garbageSize_eq hsize]
  obtain ⟨-, hhigh, hbefore, hfound⟩ :=
    findMagicNum_spec cachingData (cachingData.length - 23) 0
  generalize findMagicNum cachingData (cachingData.length - 23) 0 = index
    at hhigh hbefore hfound ⊢
  simp only [Nat.zero_le, forall_const, Nat.zero_add] at hhigh hbefore hfound
  -- the search never passes the frame's own magic number
  have hstop : index ≤ start := by
    by_contra hpassed
    refine hbefore start (by omega) ?_
    rw [hwindow _ (by omega), hown]
  rcases Nat.lt_or_ge index (cachingData.length - 23) with hmatch | hnone
  · left
    have hnotBefore : ¬ index < start := by
      intro hearly
      refine hclean index hearly ?_
      rw [← hwindow index (by omega)]
      exact hfound hmatch
    omega
  · right
    omega

/-- What the search removes in front of a frame. -/
theorem garbageSize_clean {cachingData rest more : Bytes} {piece : Piece}
    (hclean : piece.Clean) (hsize : cachingData.length < 2 ^ 31 + 23)
    (hstream : cachingData ++ rest = piece.bytes ++ more) :
    (garbageSize cachingData = piece.garbage.length ∧
        piece.garbage.length + 24 ≤ cachingData.length) ∨
      (garbageSize cachingData ≤ piece.garbage.length ∧
        garbageSize cachingData = cachingData.length - 23) := by
  have hwindow : ∀ position ≤ piece.garbage.length,
      ((piece.bytes ++ more).drop position).take 8 = (piece.bytes.drop position).take 8 := by
    intro position hposition
    have hlong : position + 8 ≤ piece.bytes.length := by
      simp only [Piece.bytes, List.length_append, Frame.length_bytes]
      omega
    rw [List.drop_append_of_le_length (by omega),
      List.take_append_of_le_length (by simp only [List.length_drop]; omega)]
  have hown : ((piece.bytes ++ more).drop piece.garbage.length).take 8 = searchMagicNum := by
    rw [hwindow _ (le_refl _), Piece.bytes, List.drop_left, Frame.bytes,
      List.take_append_of_le_length (by simp), take_pack]
  refine garbageSize_first (fun position hposition => ?_) hown hsize hstream
  rw [hwindow position hposition.le]
  exact hclean position hposition

end Search

/-- The parser holds the head of a frame and a part of its body. -/
structure Receiving (parser : SessionParser) (rest : Bytes) (piece : Piece)
    (pieces : List Piece) (body : Bytes) : Prop where
  protocol : parser.protocol =
    some ⟨piece.frame.info, piece.frame.head, body, body.length⟩
  cachingData : parser.cachingData = []
  stream : body ++ rest = piece.frame.body ++ stream pieces
  fits : body.length ≤ piece.frame.body.length
  formed : WellFormed (piece :: pieces)

/-- What the parser expects of the bytes that follow: between two frames,
inside the head of one, or inside the body of one. -/
inductive Awaits (parser : SessionParser) (rest : Bytes) : List Piece → Prop
  | between {pieces : List Piece} (protocol : parser.protocol = none)
      (stream : parser.cachingData ++ rest = stream pieces)
      (formed : WellFormed pieces)
      (short : parser.cachingData.length < 24) : Awaits parser rest pieces
  | inHead {piece : Piece} {pieces : List Piece}
      (protocol : parser.protocol = some ⟨piece.frame.info, [], [], 0⟩)
      (stream : parser.cachingData ++ rest = piece.frame.bytes ++ stream pieces)
      (formed : WellFormed (piece :: pieces))
      (parsed : 24 ≤ parser.cachingData.length)
      (short : parser.cachingData.length < 24 + piece.frame.head.length) :
      Awaits parser rest (piece :: pieces)
  | inBody {piece : Piece} {pieces : List Piece} {body : Bytes}
      (receiving : Receiving parser rest piece pieces body)
      (short : body.length < piece.frame.body.length) :
      Awaits parser rest (piece :: pieces)

section Rounds

variable {parser : SessionParser} {data rest : Bytes}

@[simp]
theorem calls_cons (piece : Piece) (pieces : List Piece) :
    calls (piece :: pieces) =
      (piece.frame.head, piece.frame.body) :: calls pieces := rfl

theorem needed_head {frame : Frame} (hsized : frame.Sized) :
    toUInt64 ((sizeofInfo : ℤ) + frame.info.headSize) = 24 + frame.head.length := by
  have hhead := hsized.1
  have hfits : 24 + frame.head.length < 2 ^ 64 := by omega
  simp only [sizeofInfo, Frame.info]
  exact_mod_cast toUInt64_of_fits hfits

theorem unpackHead_short {piece : Piece} {bytes : Bytes} {prevSize : ℕ}
    (hsized : piece.frame.Sized)
    (hshort : bytes.length < 24 + piece.frame.head.length) :
    unpackHead parser ⟨piece.frame.info, [], [], 0⟩ bytes prevSize =
      ({ parser with
          protocol := some ⟨piece.frame.info, [], [], 0⟩
          cachingData := bytes },
        .returned carrierSessionDataNotEnough) := by
  simp only [unpackHead, needed_head hsized, hshort, if_true]

/-- The head is complete; `fresh` of the bytes come from the present chunk. -/
theorem unpackHead_complete {piece : Piece} {bytes : Bytes} {prevSize : ℤ}
    {fresh : ℕ} (hsized : piece.frame.Sized)
    (hlong : 24 + piece.frame.head.length ≤ bytes.length)
    (hprevSize : (bytes.length : ℤ) = prevSize + fresh) (hfresh : fresh < 2 ^ 31)
    (hprev : prevSize < 24 + piece.frame.head.length) :
    unpackHead parser ⟨piece.frame.info, [], [], 0⟩ bytes (toUInt64 prevSize) =
      ({ parser with
          protocol := some ⟨piece.frame.info,
            (bytes.drop 24).take piece.frame.head.length, [], 0⟩
          cachingData := [] },
        .returned (24 + piece.frame.head.length - prevSize)) := by
  have hhead := hsized.1
  have hneeded := needed_head hsized
  have hnonneg : ¬ piece.frame.info.headSize < 0 := by
    simp only [Frame.info]
    omega
  have hret : toInt32 (toUInt64 ((sizeofInfo : ℤ) + piece.frame.info.headSize -
      toUInt64 prevSize)) = 24 + piece.frame.head.length - prevSize := by
    rw [toUInt64_sub_toUInt64]
    simp only [sizeofInfo, Frame.info]
    exact toInt32_toUInt64 (by push_cast; omega) (by push_cast; omega)
  simp only [unpackHead, hneeded, Nat.not_lt.mpr hlong, if_false, hnonneg, hret]
  simp only [sizeofInfo, Frame.info, Int.toNat_natCast]

/-- What a part of `unpack` may do to the description: it may end the call
because all bytes are taken and more are needed, or consume `size` bytes. -/
def NeedsMore (parser : SessionParser) (rest : Bytes) (pieces : List Piece)
    (result : SessionParser × Outcome) : Prop :=
  ∃ next pieces', result = (next, .returned carrierSessionDataNotEnough) ∧
    Awaits next rest pieces' ∧
    next.unpacked ++ calls pieces' = parser.unpacked ++ calls pieces

/-- The head is saved and the body starts after `size` further bytes. -/
def EntersBody (parser : SessionParser) (data rest : Bytes) (offset : ℕ)
    (pieces : List Piece) (result : SessionParser × Outcome) : Prop :=
  ∃ next piece pieces' body, ∃ size : ℕ, result = (next, .returned size) ∧
    offset + size ≤ data.length ∧
    Receiving next (data.drop (offset + size) ++ rest) piece pieces' body ∧
    (0 < size ∨ body.length < piece.frame.body.length) ∧
    next.unpacked ++ calls (piece :: pieces') = parser.unpacked ++ calls pieces

/-- From the bytes of a frame on, with `garbage` bytes removed before it. -/
theorem unpackHead_awaits {piece : Piece} {pieces : List Piece} {bytes : Bytes}
    {offset garbage : ℕ} (hoffset : offset ≤ data.length)
    (hdata : data.length < 2 ^ 31) (hformed : WellFormed (piece :: pieces))
    (hbytes : bytes =
      (parser.cachingData ++ data.drop offset).drop garbage)
    (hstream : bytes ++ rest = piece.frame.bytes ++ stream pieces)
    (hparsed : 24 ≤ bytes.length)
    (hprev : parser.cachingData.length < garbage + 24 + piece.frame.head.length) :
    let result := unpackHead parser ⟨piece.frame.info, [], [], 0⟩ bytes
      (toUInt64 ((parser.cachingData.length : ℤ) - garbage))
    NeedsMore parser rest (piece :: pieces) result ∨
      EntersBody parser data rest offset (piece :: pieces) result := by
  have hsized := (hformed piece List.mem_cons_self).1
  have hlength : bytes.length + garbage =
      parser.cachingData.length + (data.length - offset) := by
    have hcount := congrArg List.length hbytes
    simp only [List.length_drop, List.length_append] at hcount
    omega
  rcases Nat.lt_or_ge bytes.length (24 + piece.frame.head.length) with hshort | hlong
  · left
    refine ⟨_, piece :: pieces, unpackHead_short hsized hshort, ?_, rfl⟩
    exact .inHead rfl hstream hformed hparsed hshort
  · right
    have hheadBody : piece.frame.bytes = pack piece.frame.head piece.frame.body ++
        (piece.frame.head ++ piece.frame.body) := rfl
    have hafter : bytes.drop 24 ++ rest =
        piece.frame.head ++ (piece.frame.body ++ stream pieces) := by
      have hdrop := congrArg (List.drop 24) hstream
      rw [List.drop_append_of_le_length hparsed, hheadBody, List.append_assoc,
        List.drop_left' (length_pack _ _), List.append_assoc] at hdrop
      exact hdrop
    have hhead : (bytes.drop 24).take piece.frame.head.length = piece.frame.head := by
      have htake := congrArg (List.take piece.frame.head.length) hafter
      rw [List.take_append_of_le_length (by simp only [List.length_drop]; omega),
        List.take_left] at htake
      exact htake
    have hbody : bytes.drop (24 + piece.frame.head.length) ++ rest =
        piece.frame.body ++ stream pieces := by
      have hdrop := congrArg (List.drop piece.frame.head.length) hafter
      rw [List.drop_append_of_le_length (by simp only [List.length_drop]; omega),
        List.drop_left, List.drop_drop] at hdrop
      exact hdrop
    obtain ⟨size, hsize⟩ : ∃ size : ℕ, (size : ℤ) =
        24 + piece.frame.head.length - ((parser.cachingData.length : ℤ) - garbage) :=
      ⟨garbage + 24 + piece.frame.head.length - parser.cachingData.length, by omega⟩
    have hremaining : bytes.drop (24 + piece.frame.head.length) =
        data.drop (offset + size) := by
      rw [hbytes, List.drop_drop, List.drop_append, List.drop_of_length_le (by omega),
        List.nil_append, List.drop_drop]
      congr 1
      omega
    have hresult := @unpackHead_complete parser piece bytes
      ((parser.cachingData.length : ℤ) - garbage) (data.length - offset) hsized hlong
      (by omega) (by omega) (by omega)
    rw [hhead, ← hsize] at hresult
    refine ⟨_, piece, pieces, [], size, hresult, by omega, ?_, by omega, rfl⟩
    refine ⟨rfl, rfl, ?_, Nat.zero_le _, hformed⟩
    rw [List.nil_append, ← hremaining, hbody]

theorem length_stream_cons (piece : Piece) (pieces : List Piece) :
    (stream (piece :: pieces)).length = piece.garbage.length + 24 +
      (piece.frame.head.length + piece.frame.body.length) + (stream pieces).length := by
  simp only [stream, List.flatMap_cons, List.length_append, Piece.bytes,
    Frame.length_bytes]
  omega

/-- Removing some of its garbage leaves a piece clean. -/
theorem Piece.Clean.drop {piece : Piece} (hclean : piece.Clean) {size : ℕ}
    (hsize : size ≤ piece.garbage.length) :
    Piece.Clean ⟨piece.garbage.drop size, piece.frame⟩ := by
  intro position hposition hfound
  simp only [List.length_drop] at hposition
  refine hclean (size + position) (by omega) ?_
  have hbytes : piece.bytes.drop size =
      piece.garbage.drop size ++ piece.frame.bytes := by
    rw [Piece.bytes, List.drop_append_of_le_length hsize]
  rw [← List.drop_drop, hbytes]
  exact hfound

/-- Between two frames, once the parser has taken the rest of its chunk. -/
theorem unpackInfo_awaits {pieces : List Piece} {offset : ℕ}
    (hoffset : offset ≤ data.length) (hdata : data.length < 2 ^ 31)
    (hprotocol : parser.protocol = none) (hformed : WellFormed pieces)
    (hshort : parser.cachingData.length < 24)
    (hstream : parser.cachingData ++ data.drop offset ++ rest = stream pieces) :
    let result := unpackInfo parser (parser.cachingData ++ data.drop offset)
      parser.cachingData.length
    NeedsMore parser rest pieces result ∨
      EntersBody parser data rest offset pieces result := by
  have hsize : (parser.cachingData ++ data.drop offset).length < 2 ^ 31 + 23 := by
    simp only [List.length_append, List.length_drop]
    omega
  cases pieces with
  | nil =>
      left
      have hnil : parser.cachingData ++ data.drop offset = [] := by
        have hempty := congrArg List.length hstream
        simp only [stream, List.flatMap_nil, List.length_append, List.length_nil]
          at hempty
        exact List.eq_nil_of_length_eq_zero (by
          simp only [List.length_append]
          omega)
      have hrest : rest = [] := by simpa [hnil, stream] using hstream
      refine ⟨{ parser with cachingData := [] }, [], ?_, ?_, rfl⟩
      · have hzero : ¬ 2 ^ 31 ≤ garbageSize [] := by decide
        simp only [hnil, unpackInfo, List.drop_nil, List.length_nil, sizeofInfo,
          hzero, if_false, Nat.zero_lt_succ, if_true]
      · exact .between hprotocol (by simp [hrest, stream]) hformed (by simp)
  | cons piece pieces =>
      obtain ⟨hsized, hclean⟩ := hformed piece List.mem_cons_self
      have hcons : parser.cachingData ++ data.drop offset ++ rest =
          piece.bytes ++ stream pieces := hstream
      rcases garbageSize_clean hclean hsize hcons with ⟨hgarbage, hlong⟩ | ⟨hle, hlast⟩
      · -- the fixed part is there: parse it
        generalize hbytes : (parser.cachingData ++ data.drop offset).drop
          piece.garbage.length = bytes
        have hlength : 24 ≤ bytes.length := by
          rw [← hbytes, List.length_drop]
          omega
        have hframe : bytes ++ rest = piece.frame.bytes ++ stream pieces := by
          have hdrop := congrArg (List.drop piece.garbage.length) hcons
          rw [List.drop_append_of_le_length (by omega), hbytes, Piece.bytes,
            List.append_assoc, List.drop_left] at hdrop
          exact hdrop
        have hheader : bytes.take 24 = pack piece.frame.head piece.frame.body := by
          have htake := congrArg (List.take 24) hframe
          rw [List.take_append_of_le_length hlength, Frame.bytes, List.append_assoc,
            List.take_left' (length_pack _ _)] at htake
          exact htake
        have hunpack : unpackInfo parser (parser.cachingData ++ data.drop offset)
            parser.cachingData.length =
            unpackHead parser ⟨piece.frame.info, [], [], 0⟩ bytes
              (toUInt64 ((parser.cachingData.length : ℤ) - piece.garbage.length)) := by
          have hsmall : ¬ 2 ^ 31 ≤ piece.garbage.length := by omega
          simp only [unpackInfo, hgarbage, hbytes, sizeofInfo, hsmall,
            Nat.not_lt.mpr hlength, if_false, parseInfo_pack hsized hheader]
        rw [hunpack]
        exact unpackHead_awaits hoffset hdata hformed hbytes.symm hframe hlength
          (by omega)
      · -- fewer than 24 bytes are left
        left
        generalize hindex :
          garbageSize (parser.cachingData ++ data.drop offset) = index at hle hlast
        have hleft :
            ((parser.cachingData ++ data.drop offset).drop index).length < 24 := by
          rw [List.length_drop]
          omega
        refine ⟨{ parser with
            cachingData := (parser.cachingData ++ data.drop offset).drop index },
          ⟨piece.garbage.drop index, piece.frame⟩ :: pieces, ?_, ?_, ?_⟩
        · have hsmall : ¬ 2 ^ 31 ≤ index := by omega
          simp only [unpackInfo, hindex, sizeofInfo, hsmall, if_false, hleft, if_true]
        · refine .between hprotocol ?_ ?_ hleft
          · have hdrop := congrArg (List.drop index) hcons
            rw [List.drop_append_of_le_length (by omega), Piece.bytes,
              List.append_assoc, List.drop_append_of_le_length hle] at hdrop
            simpa only [stream, List.flatMap_cons, Piece.bytes, List.append_assoc]
              using hdrop
          · intro other hother
            rcases List.mem_cons.mp hother with rfl | hlater
            · exact ⟨hsized, hclean.drop hle⟩
            · exact hformed other (List.mem_cons_of_mem _ hlater)
        · simp only [calls_cons]

theorem unpackProtocol_awaits {pieces : List Piece} {offset : ℕ}
    (hoffset : offset ≤ data.length) (hdata : data.length < 2 ^ 31)
    (hawaits : Awaits parser (data.drop offset ++ rest) pieces) :
    NeedsMore parser rest pieces (unpackProtocol parser data offset) ∨
      EntersBody parser data rest offset pieces
        (unpackProtocol parser data offset) := by
  have hinside : ¬ ((offset : ℤ) < 0 ∨ (data.length : ℤ) < offset) := by omega
  cases hawaits with
  | between hprotocol hstream hformed hshort =>
      have hunpack : unpackProtocol parser data offset =
          unpackInfo parser (parser.cachingData ++ data.drop offset)
            parser.cachingData.length := by
        simp only [unpackProtocol, hprotocol, hinside, if_false, Int.toNat_natCast]
      rw [hunpack]
      refine unpackInfo_awaits hoffset hdata hprotocol hformed hshort ?_
      rw [List.append_assoc]
      exact hstream
  | @inHead piece pieces hprotocol hstream hformed hparsed hshort =>
      have hhead := (hformed piece List.mem_cons_self).1.1
      have hunsaved : headSaved ⟨piece.frame.info, [], [], 0⟩ = false := by
        have hsize : toUInt64 piece.frame.info.headSize = piece.frame.head.length :=
          toUInt64_of_fits (by omega)
        simp only [headSaved, hsize, List.length_nil, decide_eq_false_iff_not]
        omega
      have hprevSize : parser.cachingData.length =
          toUInt64 ((parser.cachingData.length : ℤ) - (0 : ℕ)) := by
        rw [Nat.cast_zero, sub_zero, toUInt64_of_fits (by omega)]
      have hunpack : unpackProtocol parser data offset =
          unpackHead parser ⟨piece.frame.info, [], [], 0⟩
            (parser.cachingData ++ data.drop offset)
            (toUInt64 ((parser.cachingData.length : ℤ) - (0 : ℕ))) := by
        rw [← hprevSize]
        simp only [unpackProtocol, hprotocol, hunsaved, Bool.false_eq_true, hinside,
          if_false, Int.toNat_natCast]
      rw [hunpack]
      refine unpackHead_awaits hoffset hdata hformed ?_ ?_ ?_ ?_
      · rw [List.drop_zero]
      · rw [List.append_assoc]
        exact hstream
      · rw [List.length_append]
        omega
      · omega
  | @inBody piece pieces body hreceiving hshort =>
      right
      have hhead := (hreceiving.formed piece List.mem_cons_self).1.1
      have hsaved : headSaved ⟨piece.frame.info, piece.frame.head, body,
          body.length⟩ = true := by
        have hsize : toUInt64 piece.frame.info.headSize = piece.frame.head.length :=
          toUInt64_of_fits (by omega)
        simp only [headSaved, hsize, decide_true]
      refine ⟨parser, piece, pieces, body, 0, ?_, by omega, ?_, Or.inr hshort, rfl⟩
      · simp only [unpackProtocol, hreceiving.protocol, hsaved, if_true]
        rfl
      · exact hreceiving

theorem realSize_eq {piece : Piece} {body : Bytes} {offset : ℕ}
    (hsized : piece.frame.Sized) (hfits : body.length ≤ piece.frame.body.length)
    (hoffset : offset ≤ data.length) (hdata : data.length < 2 ^ 31) :
    realSize ⟨piece.frame.info, piece.frame.head, body, body.length⟩ data offset =
      min (piece.frame.body.length - body.length) (data.length - offset) := by
  have hbody := hsized.2
  have hneeded : toUInt64 (piece.frame.info.bodySize - (body.length : ℤ)) =
      piece.frame.body.length - body.length := by
    rw [Frame.info, ← Nat.cast_sub hfits]
    exact toUInt64_of_fits (by omega)
  have havailable : toUInt64 ((data.length : ℤ) - (offset : ℤ)) =
      data.length - offset := by
    rw [← Nat.cast_sub hoffset]
    exact toUInt64_of_fits (by omega)
  simp only [realSize, hneeded, havailable]

/-- The body of a frame grows by what the chunk has of it; when it is complete
the listener is called with the frame. -/
theorem unpackBodyData_awaits {piece : Piece} {pieces : List Piece} {body : Bytes}
    {offset : ℕ} (hoffset : offset ≤ data.length) (hdata : data.length < 2 ^ 31)
    (hreceiving : Receiving parser (data.drop offset ++ rest) piece pieces body) :
    ∃ next pieces', ∃ size : ℕ,
      unpackBodyData parser data offset true = (next, .returned size) ∧
      offset + size ≤ data.length ∧
      Awaits next (data.drop (offset + size) ++ rest) pieces' ∧
      (body.length < piece.frame.body.length → offset < data.length → 0 < size) ∧
      next.unpacked ++ calls pieces' =
        parser.unpacked ++ calls (piece :: pieces) := by
  have hsized := (hreceiving.formed piece List.mem_cons_self).1
  have hbody := hsized.2
  have hfits := hreceiving.fits
  have hsize := realSize_eq hsized hfits hoffset hdata
  generalize hreal : min (piece.frame.body.length - body.length)
    (data.length - offset) = size at hsize
  have hlow : size ≤ data.length - offset := hreal ▸ Nat.min_le_right _ _
  have hhigh : size ≤ piece.frame.body.length - body.length :=
    hreal ▸ Nat.min_le_left _ _
  have hone : size = piece.frame.body.length - body.length ∨
      size = data.length - offset := by
    rcases Nat.le_total (piece.frame.body.length - body.length)
      (data.length - offset) with hle | hle
    · exact Or.inl (hreal ▸ Nat.min_eq_left hle)
    · exact Or.inr (hreal ▸ Nat.min_eq_right hle)
  clear hreal
  have hinside : ¬ ((offset : ℤ) < 0 ∨ (data.length : ℤ) < (offset : ℤ) + size) := by
    omega
  have hreceived : toInt64 ((body.length : ℤ) + size) = ((body.length + size : ℕ) : ℤ) := by
    rw [← Nat.cast_add, toInt64_of_fits (by omega) (by omega)]
  have hret : toInt32 (size : ℤ) = size := toInt32_of_fits (by omega) (by omega)
  have htaken : ((data.drop offset).take size).length = size := by
    rw [List.length_take, List.length_drop]
    omega
  have hsplit : (body ++ (data.drop offset).take size) ++
      (data.drop (offset + size) ++ rest) = piece.frame.body ++ stream pieces := by
    rw [← hreceiving.stream, List.append_assoc, ← List.append_assoc (List.take _ _),
      ← List.drop_drop, List.take_append_drop]
  have hlength : (body ++ (data.drop offset).take size).length = body.length + size := by
    rw [List.length_append, htaken]
  rcases Nat.lt_or_ge (body.length + size) piece.frame.body.length with hpart | hall
  · -- the chunk ends inside the body
    have hmore : ¬ ((body.length + size : ℕ) : ℤ) = piece.frame.info.bodySize := by
      simp only [Frame.info]
      omega
    refine ⟨{ parser with
        protocol := some ⟨piece.frame.info, piece.frame.head,
          body ++ (data.drop offset).take size, ((body.length + size : ℕ) : ℤ)⟩ },
      piece :: pieces, size, ?_, by omega, ?_, by omega, rfl⟩
    · simp only [unpackBodyData, hreceiving.protocol, hsize, hinside, if_false,
        hreceived, hmore, hret, Int.toNat_natCast]
    · exact .inBody ⟨by simp only [hlength], hreceiving.cachingData, hsplit,
        by omega, hreceiving.formed⟩ (by omega)
  · -- the body is complete
    have hcomplete : ((body.length + size : ℕ) : ℤ) = piece.frame.info.bodySize := by
      simp only [Frame.info]
      omega
    have hequal : (body ++ (data.drop offset).take size).length =
        piece.frame.body.length := by omega
    obtain ⟨hfile, hremaining⟩ := List.append_inj hsplit hequal
    refine ⟨{ parser with
        protocol := none
        unpacked := parser.unpacked ++ [(piece.frame.head, piece.frame.body)] },
      pieces, size, ?_, by omega, ?_, by omega, ?_⟩
    · simp only [unpackBodyData, hreceiving.protocol, hsize, hinside, if_false,
        hreceived, hcomplete, hret, Int.toNat_natCast, hfile, if_true]
    · refine .between rfl ?_ ?_ ?_
      · simp only [hreceiving.cachingData, List.nil_append]
        exact hremaining
      · exact fun other hother => hreceiving.formed other (List.mem_cons_of_mem _ hother)
      · simp only [hreceiving.cachingData, List.length_nil, Nat.zero_lt_succ]
    · simp only [calls_cons, List.append_assoc, List.singleton_append]

theorem advance_of_fits {offset size : ℕ} (hfits : offset + size ≤ data.length)
    (hdata : data.length < 2 ^ 31) :
    advance (offset : ℤ) (size : ℤ) = some ((offset + size : ℕ) : ℤ) := by
  have hsum : (offset : ℤ) + size = ((offset + size : ℕ) : ℤ) := by push_cast; rfl
  rw [advance, hsum, if_pos (by omega)]

/-- The loop takes the whole chunk and calls the listener for each frame that
ends in it. -/
theorem unpackFrom_awaits (hdata : data.length < 2 ^ 31) (rounds offset : ℕ)
    (pieces : List Piece) (hoffset : offset ≤ data.length)
    (hrounds : data.length - offset < rounds)
    (hawaits : Awaits parser (data.drop offset ++ rest) pieces) :
    ∃ next pieces', unpackFrom parser data true rounds offset =
        (next, .returned 0) ∧
      Awaits next rest pieces' ∧
      next.unpacked ++ calls pieces' = parser.unpacked ++ calls pieces := by
  induction rounds generalizing parser offset pieces with
  | zero => omega
  | succ rounds ih =>
      rcases unpackProtocol_awaits hoffset hdata hawaits with
        ⟨next, pieces', hresult, hnext, hcalls⟩ |
        ⟨inBody, piece, pieces', body, size, hresult, hfits, hreceiving, hprogress,
          hcalls⟩
      · refine ⟨next, pieces', ?_, hnext, hcalls⟩
        simp only [unpackFrom, hresult, if_true]
      · obtain ⟨next, pieces'', size', hresult', hfits', hnext, hprogress', hcalls'⟩ :=
          unpackBodyData_awaits hfits hdata hreceiving
        have hnotCode : ¬ (size : ℤ) = carrierSessionDataNotEnough := by
          simp only [carrierSessionDataNotEnough]
          omega
        have hnonneg : ∀ count : ℕ, ¬ (count : ℤ) < 0 := fun count => by omega
        have hround : unpackFrom parser data true (rounds + 1) offset =
            if offset + size + size' < data.length then
              unpackFrom next data true rounds ((offset + size + size' : ℕ) : ℤ)
            else (next, .returned 0) := by
          simp only [unpackFrom, hresult, hnotCode, hnonneg, if_false,
            advance_of_fits hfits hdata, hresult', advance_of_fits hfits' hdata]
          rw [toUInt64_of_fits (by omega)]
        rw [hround, ← hcalls, ← hcalls']
        split
        · rename_i hleft
          exact ih (offset + size + size') pieces'' (by omega) (by omega) hnext
        · rename_i hdone
          refine ⟨next, pieces'', rfl, ?_, rfl⟩
          rw [List.drop_of_length_le (by omega), List.nil_append] at hnext
          exact hnext

end Rounds

theorem unpack_awaits {parser : SessionParser} {data rest : Bytes}
    {pieces : List Piece} (hdata : data.length < 2 ^ 31)
    (hawaits : Awaits parser (data ++ rest) pieces) :
    ∃ next pieces', unpack parser data true = (next, .returned 0) ∧
      Awaits next rest pieces' ∧
      next.unpacked ++ calls pieces' = parser.unpacked ++ calls pieces :=
  unpackFrom_awaits hdata (2 * data.length + 2) 0 pieces (Nat.zero_le _) (by omega)
    hawaits

/-- Nothing is awaited once the stream has ended. -/
theorem Awaits.pieces_eq_nil {parser : SessionParser} {pieces : List Piece}
    (hawaits : Awaits parser [] pieces) : pieces = [] := by
  cases hawaits with
  | between hprotocol hstream hformed hshort =>
      cases pieces with
      | nil => rfl
      | cons piece pieces =>
          have hlength := congrArg List.length hstream
          rw [length_stream_cons, List.append_nil] at hlength
          omega
  | inHead hprotocol hstream hformed hparsed hshort =>
      have hlength := congrArg List.length hstream
      rw [List.append_nil, List.length_append, Frame.length_bytes] at hlength
      omega
  | inBody hreceiving hshort =>
      have hlength := congrArg List.length hreceiving.stream
      rw [List.append_nil, List.length_append] at hlength
      omega

theorem unpackAll_awaits {parser : SessionParser} {chunks : List Bytes}
    {pieces : List Piece} (hchunks : ∀ chunk ∈ chunks, chunk.length < 2 ^ 31)
    (hawaits : Awaits parser chunks.flatten pieces) :
    (unpackAll parser chunks).1.unpacked = parser.unpacked ++ calls pieces ∧
      ∀ outcome ∈ (unpackAll parser chunks).2, outcome = .returned 0 := by
  induction chunks generalizing parser pieces with
  | nil =>
      rw [hawaits.pieces_eq_nil]
      simp [unpackAll, calls]
  | cons chunk chunks ih =>
      obtain ⟨next, pieces', hunpack, hnext, hcalls⟩ :=
        unpack_awaits (hchunks chunk List.mem_cons_self) hawaits
      obtain ⟨hunpacked, houtcomes⟩ :=
        ih (fun other hother => hchunks other (List.mem_cons_of_mem _ hother)) hnext
      simp only [unpackAll, hunpack]
      refine ⟨hunpacked.trans hcalls, fun outcome houtcome => ?_⟩
      rcases List.mem_cons.mp houtcome with rfl | hlater
      · rfl
      · exact houtcomes outcome hlater

/-- However the stream is cut into chunks of less than 2^31 bytes, `unpack`
succeeds on each chunk, and the listener is called once for each frame, in
order, with its head and its body. -/
theorem unpackAll_stream (pieces : List Piece) (hformed : WellFormed pieces)
    (chunks : List Bytes) (hcut : chunks.flatten = stream pieces)
    (hchunks : ∀ chunk ∈ chunks, chunk.length < 2 ^ 31) :
    (unpackAll .init chunks).1.unpacked = calls pieces ∧
      ∀ outcome ∈ (unpackAll .init chunks).2, outcome = .returned 0 := by
  have hstart : Awaits .init chunks.flatten pieces :=
    .between rfl hcut hformed (by decide)
  exact unpackAll_awaits hchunks hstart

/-- Garbage, a frame with head and body, and an empty frame. -/
def twoFrames : List Piece :=
  [⟨[0x41], ⟨[1, 2], [3]⟩⟩, ⟨[], ⟨[], []⟩⟩]

/-- The cut falls inside the magic number of the first frame. -/
theorem unpackAll_twoFrames :
    (unpackAll .init [(stream twoFrames).take 5, (stream twoFrames).drop 5]).1.unpacked =
        [([1, 2], [3]), ([], [])] ∧
      ∀ outcome ∈ (unpackAll .init
        [(stream twoFrames).take 5, (stream twoFrames).drop 5]).2,
        outcome = .returned 0 :=
  unpackAll_stream twoFrames
    (by decide)
    [(stream twoFrames).take 5, (stream twoFrames).drop 5]
    (by simp)
    (by
      have hlength : (stream twoFrames).length = 52 := by decide
      simp [hlength])

theorem unpackAll_singleton (parser : SessionParser) (chunk : Bytes) :
    (unpackAll parser [chunk]).1 = (unpack parser chunk true).1 := rfl

section Oversized

variable {frame : Frame}

theorem garbageSize_own (hsize : frame.bytes.length < 2 ^ 31 + 24) :
    garbageSize frame.bytes = 0 := by
  have hlength := frame.length_bytes
  have hbound : toInt32 (toUInt64 ((frame.bytes.length : ℤ) - sizeofInfo)) =
      (frame.bytes.length : ℤ) - 24 := by
    simp only [sizeofInfo]
    exact toInt32_toUInt64 (by omega) (by omega)
  obtain ⟨steps, hsteps⟩ : ∃ steps : ℕ,
      ((frame.bytes.length : ℤ) - 24 + 1).toNat = steps + 1 :=
    ⟨frame.bytes.length - 24, by omega⟩
  have hfound : (frame.bytes.drop 0).take 8 = searchMagicNum := by
    rw [List.drop_zero, Frame.bytes, List.take_append_of_le_length (by simp),
      take_pack]
  rw [garbageSize, hbound, hsteps, findMagicNum, if_pos hfound]

theorem unpackFrom_error {parser next : SessionParser} {data : Bytes}
    {dataPos ret : ℤ} (listener : Bool) (rounds : ℕ)
    (hprotocol : unpackProtocol parser data dataPos = (next, .returned ret))
    (hcode : ¬ ret = carrierSessionDataNotEnough) (hnegative : ret < 0) :
    unpackFrom parser data listener (rounds + 1) dataPos =
      (next, checkError 54 ret) := by
  simp only [unpackFrom, hprotocol, hcode, if_false, hnegative, if_true]

/-- In one chunk, a frame without a body whose body would start at position
2^31 or later: the position is negative as an `int`, and `unpack` takes it for
an error. -/
theorem unpack_oversized (hsized : frame.Sized) (hbody : frame.body = [])
    (hlarge : 2 ^ 31 ≤ 24 + frame.head.length) :
    (unpack .init frame.bytes true).1.unpacked = [] := by
  have hhead := hsized.1
  have hlength : frame.bytes.length = 24 + frame.head.length := by
    rw [frame.length_bytes, hbody]
    simp
  have hheader : frame.bytes.take 24 = pack frame.head frame.body := by
    rw [Frame.bytes, List.take_left' (length_pack _ _)]
  have hsmall : ¬ 2 ^ 31 ≤ 0 := by decide
  have hlong : ¬ frame.bytes.length < 24 + frame.head.length := by omega
  have hparsed : ¬ frame.bytes.length < 24 := by omega
  have hnonneg : ¬ frame.info.headSize < 0 := by
    simp only [Frame.info]
    omega
  obtain ⟨next, hnext⟩ : ∃ next : SessionParser, next =
      { SessionParser.init with
        protocol := some ⟨frame.info,
          (frame.bytes.drop 24).take frame.head.length, [], 0⟩ } := ⟨_, rfl⟩
  have hprevSize : toUInt64 (((0 : ℕ) : ℤ) - (0 : ℕ)) = 0 := by decide
  have hret : toInt32 (toUInt64 ((sizeofInfo : ℤ) + frame.info.headSize -
      (0 : ℕ))) = (frame.head.length : ℤ) + 24 - 2 ^ 32 := by
    rw [Nat.cast_zero, sub_zero, needed_head hsized, toInt32, Int.bmod_def]
    norm_num
    split <;> omega
  have hprotocol : unpackProtocol .init frame.bytes 0 =
      (next, .returned ((frame.head.length : ℤ) + 24 - 2 ^ 32)) := by
    have hinside : ¬ ((0 : ℤ) < 0 ∨ (frame.bytes.length : ℤ) < 0) := by omega
    have hgarbage : garbageSize frame.bytes = 0 := garbageSize_own (by omega)
    simp only [unpackProtocol, SessionParser.init, hinside, if_false,
      List.nil_append, Int.toNat_zero, List.drop_zero, List.length_nil, unpackInfo,
      hgarbage, hsmall, sizeofInfo, hparsed, parseInfo_pack hsized hheader,
      hprevSize]
    rw [unpackHead]
    simp only [needed_head hsized, hlong, if_false, hnonneg, hret, hnext]
    simp only [Frame.info, Int.toNat_natCast, sizeofInfo, SessionParser.init]
  have hcode : ¬ (frame.head.length : ℤ) + 24 - 2 ^ 32 =
      carrierSessionDataNotEnough := by
    simp only [carrierSessionDataNotEnough]
    omega
  have hnegative : (frame.head.length : ℤ) + 24 - 2 ^ 32 < 0 := by omega
  have hround := unpackFrom_error true (2 * frame.bytes.length + 1) hprotocol
    hcode hnegative
  have hunpacked : next.unpacked = [] := by rw [hnext]; rfl
  rw [unpack, hround]
  exact hunpacked

end Oversized

/-- Sizes below 2^31 do not suffice: with a head of 2^31 - 1 bytes a chunk is
too large for the `int` positions of `unpack`. -/
theorem not_unpackAll_stream :
    ¬ ∀ (pieces : List Piece), WellFormed pieces →
      ∀ chunks : List Bytes, chunks.flatten = stream pieces →
        (∀ chunk ∈ chunks, chunk ≠ []) →
        (unpackAll .init chunks).1.unpacked = calls pieces := by
  intro h
  have hlength : (List.replicate (2 ^ 31 - 1) (0 : UInt8)).length = 2 ^ 31 - 1 :=
    List.length_replicate
  generalize List.replicate (2 ^ 31 - 1) (0 : UInt8) = head at hlength
  obtain ⟨frame, hframe⟩ : ∃ frame : Frame, frame = ⟨head, []⟩ := ⟨_, rfl⟩
  have hhead : frame.head.length = 2 ^ 31 - 1 := by rw [hframe, hlength]
  have hbody : frame.body = [] := by rw [hframe]
  have hsized : frame.Sized := by
    refine ⟨by omega, ?_⟩
    rw [hbody, List.length_nil]
    omega
  have hnonempty : frame.bytes ≠ [] := by
    intro hnil
    have hbytes := frame.length_bytes
    rw [hnil, List.length_nil] at hbytes
    omega
  have hformed : WellFormed [⟨[], frame⟩] := by
    intro piece hpiece
    rw [List.mem_singleton.mp hpiece]
    exact ⟨hsized, fun position hposition => absurd hposition (Nat.not_lt_zero _)⟩
  have hcalls := h [⟨[], frame⟩] hformed [frame.bytes]
    (by simp only [stream, Piece.bytes, List.flatten_cons, List.flatten_nil,
      List.flatMap_cons, List.flatMap_nil, List.nil_append])
    (fun chunk hchunk => List.mem_singleton.mp hchunk ▸ hnonempty)
  have hnone := unpack_oversized hsized hbody (by omega)
  rw [unpackAll_singleton, hnone, calls_cons] at hcalls
  cases hcalls

end FeedsService.Session
