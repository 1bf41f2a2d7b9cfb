import FeedsService.Session.Hostile

/-!
# The session parser after an unsupported frame

When the version of a frame is not the supported one, `unpackProtocol` leaves the frame it has
begun, with no sizes, and the cache, with the fixed part at its front.  The next chunk ends that
frame as an empty one, and the rest of it finds the same fixed part again.
-/

namespace FeedsService.Session

open FeedsService.Library

/-- A stream with the fixed part of an unsupported frame in it: frames before it, garbage, the
fixed part, what else there is of that frame, and frames after it. -/
structure Mixed where
  before : List Piece
  garbage : Bytes
  header : Bytes
  rest : Bytes
  after : List Piece

def Mixed.bytes (mixed : Mixed) : Bytes :=
  stream mixed.before ++ (mixed.garbage ++ (mixed.header ++ (mixed.rest ++ stream mixed.after)))

/-- The frames are valid, and the header is found where it is. -/
structure Mixed.Formed (mixed : Mixed) : Prop where
  before : WellFormed mixed.before
  unsupported : Unsupported mixed.header
  whole : mixed.header.length = 24
  clean : ∀ position < mixed.garbage.length,
    ((mixed.garbage ++ mixed.header).drop position).take 8 ≠ searchMagicNum
  after : WellFormed mixed.after

/-- The position behind the header. -/
def Mixed.known (mixed : Mixed) : ℕ :=
  (stream mixed.before).length + mixed.garbage.length + 24

/-- The stream in chunks: the header is complete with `chunk`. -/
structure Cut (mixed : Mixed) (early : List Bytes) (chunk : Bytes) (later : List Bytes) :
    Prop where
  all : early.flatten ++ (chunk ++ later.flatten) = mixed.bytes
  notBefore : early.flatten.length < mixed.known
  known : mixed.known ≤ (early.flatten ++ chunk).length
  early : ∀ other ∈ early, other.length < 2 ^ 31
  chunk : chunk.length < 2 ^ 31

/-- The frames of a stream that start at `position` or behind it; the stream begins at
`start`. -/
def piecesFrom (position : ℕ) : ℕ → List Piece → List Piece
  | _, [] => []
  | start, piece :: pieces =>
      if position ≤ start + piece.garbage.length then piece :: pieces
      else piecesFrom position (start + piece.bytes.length) pieces

/-- The valid frames behind the unsupported one that start in the chunks after `position`. -/
def Mixed.piecesFrom (mixed : Mixed) (position : ℕ) : List Piece :=
  Session.piecesFrom position (mixed.known + mixed.rest.length) mixed.after

/-- The calls of the listener while the chunks after `early` and `chunk` are fed. -/
def laterCalls (early : List Bytes) (chunk : Bytes) (later : List Bytes) :
    List (Bytes × Bytes) :=
  (unpackAll (unpackAll .init (early ++ [chunk])).1 later).1.unpacked.drop
    (unpackAll .init (early ++ [chunk])).1.unpacked.length

/-- The parser recovers: each call of the listener is for a valid frame of its own, in the
order of the stream, and every frame that starts in a chunk after the one with the header is
delivered while these chunks are fed. -/
structure Recovers (mixed : Mixed) (early : List Bytes) (chunk : Bytes) (later : List Bytes) :
    Prop where
  valid : (unpackAll .init (early ++ chunk :: later)).1.unpacked.Sublist
    (calls (mixed.before ++ mixed.after))
  delivered : (calls (mixed.piecesFrom (early.flatten ++ chunk).length)).Sublist
    (laterCalls early chunk later)

/-- How often chunks end a frame with no sizes, if one is open: every chunk ends it, and opens
the next one if it is not empty. -/
def madeUp : Bool → List Bytes → ℕ
  | _, [] => 0
  | true, chunk :: chunks => madeUp (decide (0 < chunk.length)) chunks + 1
  | false, _ :: chunks => madeUp true chunks

section Wedged

variable {parser : SessionParser} {data : Bytes}

/-- The header of an unsupported frame is cached, and the frame is open or ended. -/
inductive Wedged (parser : SessionParser) : Prop
  | opened (unsupported : Unsupported parser.cachingData)
      (protocol : parser.protocol = some ⟨unsupportedInfo parser.cachingData, [], [], 0⟩)
  | ended (unsupported : Unsupported parser.cachingData) (protocol : parser.protocol = none)

/-- The parser with the header found in its cache. -/
def reopened (parser : SessionParser) (data : Bytes) : SessionParser :=
  { parser with
    protocol := some ⟨unsupportedInfo (parser.cachingData ++ data), [], [], 0⟩
    cachingData := parser.cachingData ++ data }

theorem wedged_reopened (hunsupported : Unsupported parser.cachingData) (data : Bytes) :
    Wedged (reopened parser data) :=
  .opened (hunsupported.append data) rfl

/-- Between two frames the same header is found again, whatever the chunk brings. -/
theorem round_of_ended (hunsupported : Unsupported parser.cachingData)
    (hprotocol : parser.protocol = none) :
    round parser data true 0 =
      (reopened parser data, .ends (.returned carrierSessionUnsuppertedVersion)) := by
  have hincoming : Unsupported (incoming parser data (0 : ℕ)) := hunsupported.append _
  apply round_of_unsupported
  have hresult := unpackProtocol_of_none hprotocol (Nat.zero_le data.length)
  rw [hincoming.unpackInfo_eq] at hresult
  exact hresult

/-- The open frame has the sizes of an empty one. -/
theorem round_of_opened (hprotocol : parser.protocol =
    some ⟨unsupportedInfo parser.cachingData, [], [], 0⟩) :
    round parser data true 0 =
      ({ parser with protocol := none, unpacked := parser.unpacked ++ [([], [])] },
        if 0 < data.length then .goesOn 0 else .ends (.returned 0)) := by
  have hsaved := (holds_of_unsupported parser.cachingData).headSaved
  have hhead := @unpackProtocol_of_saved parser data _ hprotocol hsaved 0
  have hsize : realSize ⟨unsupportedInfo parser.cachingData, [], [], 0⟩ data 0 = 0 :=
    Nat.zero_min _
  have hinside : ¬ ((0 : ℤ) < 0 ∨ (data.length : ℤ) < 0 + ((0 : ℕ) : ℤ)) := by omega
  have hreceived : toInt64 (0 + ((0 : ℕ) : ℤ)) = 0 := by decide
  have hret : toInt32 ((0 : ℕ) : ℤ) = 0 := by decide
  have hbody : unpackBodyData parser data 0 true =
      ({ parser with protocol := none, unpacked := parser.unpacked ++ [([], [])] },
        .returned 0) := by
    have hbodySize : (unsupportedInfo parser.cachingData).bodySize = 0 := rfl
    simp only [unpackBodyData, hprotocol, hsize, hinside, if_false, hreceived, hbodySize,
      if_true, List.take_zero, List.append_nil, hret]
  have hstay : advance 0 0 = some 0 := by decide
  have hzero : toUInt64 0 = 0 := by decide
  have hnotCode : ¬ (0 : ℤ) = carrierSessionDataNotEnough := by decide
  simp only [round, hhead, hnotCode, if_false, lt_irrefl, hstay, bodyRound, hbody, hzero]
  split
  · rfl
  · rfl

theorem unpack_eq (parser : SessionParser) (data : Bytes) :
    unpack parser data true =
      match round parser data true 0 with
      | (next, .goesOn dataPos) => unpackFrom next data true (2 * data.length + 1) dataPos
      | (next, .ends outcome) => (next, outcome) :=
  unpackFrom_succ parser data true (2 * data.length + 1) 0

theorem unpack_of_ended (hunsupported : Unsupported parser.cachingData)
    (hprotocol : parser.protocol = none) (data : Bytes) :
    unpack parser data true =
      (reopened parser data, .returned carrierSessionUnsuppertedVersion) := by
  rw [unpack_eq, round_of_ended hunsupported hprotocol]

theorem unpack_of_goesOn {next last : SessionParser} {outcome : Outcome}
    (hround : round parser data true 0 = (next, .goesOn 0))
    (hagain : round next data true 0 = (last, .ends outcome)) :
    unpack parser data true = (last, outcome) := by
  have hlast := unpackFrom_succ next data true (2 * data.length) 0
  rw [hagain] at hlast
  rw [unpack_eq, hround]
  exact hlast

/-- The parser when the open frame has ended. -/
def closed (parser : SessionParser) : SessionParser :=
  { parser with protocol := none, unpacked := parser.unpacked ++ [([], [])] }

theorem unpack_of_opened (hunsupported : Unsupported parser.cachingData)
    (hprotocol : parser.protocol = some ⟨unsupportedInfo parser.cachingData, [], [], 0⟩)
    (data : Bytes) :
    unpack parser data true =
      if 0 < data.length then
        (reopened (closed parser) data, .returned carrierSessionUnsuppertedVersion)
      else
        (closed parser, .returned 0) := by
  have hround := @round_of_opened parser data hprotocol
  by_cases hleft : 0 < data.length
  · have hclosed : Unsupported (closed parser).cachingData := hunsupported
    rw [if_pos hleft] at hround ⊢
    exact unpack_of_goesOn hround (round_of_ended hclosed rfl)
  · rw [if_neg hleft] at hround ⊢
    rw [unpack_eq, hround]
    rfl

/-- What a call adds to the listener's calls in this state, and that it stays in it: an open
frame ends as an empty one, and an ended one is opened again. -/
theorem unpack_wedged (hwedged : Wedged parser) (data : Bytes) (chunks : List Bytes) :
    Wedged (unpack parser data true).1 ∧
      ∃ count, (unpack parser data true).1.unpacked =
          parser.unpacked ++ List.replicate count ([], []) ∧
        madeUp parser.protocol.isSome (data :: chunks) =
          count + madeUp (unpack parser data true).1.protocol.isSome chunks := by
  cases hwedged with
  | ended hunsupported hprotocol =>
      rw [unpack_of_ended hunsupported hprotocol, hprotocol]
      exact ⟨wedged_reopened hunsupported data, 0, (List.append_nil _).symm, (Nat.zero_add _).symm⟩
  | opened hunsupported hprotocol =>
      rw [unpack_of_opened hunsupported hprotocol, hprotocol]
      have hclosed : Unsupported (closed parser).cachingData := hunsupported
      split
      · next hlong =>
          refine ⟨wedged_reopened hclosed data, 1, rfl, ?_⟩
          rw [Option.isSome_some, madeUp, decide_eq_true hlong, Nat.add_comm]
          rfl
      · next hempty =>
          refine ⟨.ended hunsupported rfl, 1, rfl, ?_⟩
          rw [Option.isSome_some, madeUp, decide_eq_false hempty, Nat.add_comm]
          rfl

/-- Fed on, the parser never leaves this state, and calls the listener with nothing but empty
frames. -/
theorem unpackAll_wedged (hwedged : Wedged parser) (later : List Bytes) :
    (unpackAll parser later).1.unpacked =
      parser.unpacked ++ List.replicate (madeUp parser.protocol.isSome later) ([], []) := by
  induction later generalizing parser with
  | nil =>
      rw [madeUp, List.replicate_zero, List.append_nil]
      rfl
  | cons chunk later ih =>
      obtain ⟨hnext, count, hunpacked, hcount⟩ := unpack_wedged hwedged chunk later
      rw [unpackAll, ih hnext, hunpacked, hcount, List.append_assoc,
        List.replicate_append_replicate]

end Wedged

section Crossing

variable {parser next : SessionParser} {front back : Bytes} {size : ℕ}

/-- A head that is saved is saved alike when more bytes follow. -/
theorem unpackHead_append {protocol : Protocol} {bytes : Bytes} {prevSize : ℕ}
    (hhead : protocol.info.headSize < 2 ^ 31)
    (hsaved : unpackHead parser protocol bytes prevSize = (next, .returned size)) (more : Bytes) :
    unpackHead parser protocol (bytes ++ more) prevSize = (next, .returned size) := by
  rw [unpackHead] at hsaved
  split at hsaved
  · have hcode := Outcome.returned.inj (congrArg Prod.snd hsaved)
    rw [carrierSessionDataNotEnough] at hcode
    omega
  split at hsaved
  · cases congrArg Prod.snd hsaved
  next hlong hnonneg =>
    have hneeded : toUInt64 (sizeofInfo + protocol.info.headSize) =
        24 + protocol.info.headSize.toNat := by
      rw [toUInt64, sizeofInfo]
      omega
    have hlonger : ¬ (bytes ++ more).length <
        toUInt64 (sizeofInfo + protocol.info.headSize) := by
      rw [List.length_append]
      omega
    have hbytes : ((bytes ++ more).drop sizeofInfo).take protocol.info.headSize.toNat =
        (bytes.drop sizeofInfo).take protocol.info.headSize.toNat := by
      rw [sizeofInfo, List.drop_append_of_le_length (by omega), List.take_append_of_le_length]
      rw [List.length_drop]
      omega
    rw [unpackHead, if_neg hlonger, if_neg hnonneg, hbytes]
    exact hsaved

theorem parseInfo_append {bytes : Bytes} (hwhole : 24 ≤ bytes.length) (more : Bytes) :
    parseInfo (bytes ++ more) = parseInfo bytes := by
  have hfield : ∀ start size, start + size ≤ 24 →
      ((bytes ++ more).drop start).take size = (bytes.drop start).take size := by
    intro start size hfits
    rw [List.drop_append_of_le_length (by omega), List.take_append_of_le_length]
    rw [List.length_drop]
    omega
  have hmagic := hfield 0 8 (by decide)
  rw [List.drop_zero, List.drop_zero] at hmagic
  rw [parseInfo, parseInfo, hmagic, hfield 8 4 (by decide), hfield 12 4 (by decide),
    hfield 16 8 (by decide)]

/-- The search stops at the same magic number when more bytes follow. -/
theorem garbageSize_append {bytes : Bytes} (more : Bytes)
    (hlength : (bytes ++ more).length < 2 ^ 31 + 23)
    (hwhole : garbageSize bytes + 24 ≤ bytes.length) :
    garbageSize (bytes ++ more) = garbageSize bytes := by
  rw [List.length_append] at hlength
  have hsize : bytes.length < 2 ^ 31 + 23 := by omega
  have hwindow : ∀ position ≤ garbageSize bytes,
      ((bytes ++ more).drop position).take 8 = (bytes.drop position).take 8 := by
    intro position hposition
    rw [List.drop_append_of_le_length (by omega), List.take_append_of_le_length]
    rw [List.length_drop]
    omega
  obtain ⟨-, -, hbefore, hfound⟩ := findMagicNum_spec bytes (bytes.length - 23) 0
  rw [← garbageSize_eq hsize] at hbefore hfound
  have hclean : ∀ position < garbageSize bytes,
      ((bytes ++ more).drop position).take 8 ≠ searchMagicNum := by
    intro position hposition
    rw [hwindow position hposition.le]
    exact hbefore position (Nat.zero_le _) hposition
  have hown : ((bytes ++ more).drop (garbageSize bytes)).take 8 = searchMagicNum := by
    rw [hwindow _ (le_refl _)]
    exact hfound (by omega)
  rcases garbageSize_first hclean hown (by rw [List.length_append]; exact hlength)
    (List.append_nil _) with ⟨hsame, -⟩ | ⟨hle, hlast⟩
  · exact hsame
  · rw [List.length_append] at hlast
    omega

theorem unpackInfo_append {bytes more : Bytes} {prevSize : ℕ}
    (hlength : (bytes ++ more).length < 2 ^ 31 + 23)
    (hsaved : unpackInfo parser bytes prevSize = (next, .returned size)) :
    unpackInfo parser (bytes ++ more) prevSize = (next, .returned size) := by
  rw [unpackInfo] at hsaved
  split at hsaved
  · cases congrArg Prod.snd hsaved
  split at hsaved
  · have hcode := Outcome.returned.inj (congrArg Prod.snd hsaved)
    rw [carrierSessionDataNotEnough] at hcode
    omega
  next hsmall hwhole =>
    rw [List.length_drop, sizeofInfo] at hwhole
    have hgarbage := garbageSize_append more hlength (by omega)
    have hrest : (bytes ++ more).drop (garbageSize bytes) =
        bytes.drop (garbageSize bytes) ++ more := List.drop_append_of_le_length (by omega)
    have hparsed : 24 ≤ (bytes.drop (garbageSize bytes)).length := by
      rw [List.length_drop]
      omega
    have hwhole' : ¬ (bytes.drop (garbageSize bytes) ++ more).length < sizeofInfo := by
      rw [List.length_append, sizeofInfo]
      omega
    rw [unpackInfo, hgarbage, hrest, if_neg hsmall, if_neg hwhole', parseInfo_append hparsed]
    cases hparse : parseInfo (bytes.drop (garbageSize bytes)) with
    | error info =>
        rw [hparse] at hsaved
        have hcode := Outcome.returned.inj (congrArg Prod.snd hsaved)
        rw [carrierSessionUnsuppertedVersion] at hcode
        omega
    | ok info =>
        rw [hparse] at hsaved
        exact unpackHead_append (fits_of_parseInfo hparse).headHigh hsaved more

theorem incoming_append {offset : ℕ} (hoffset : offset ≤ front.length) :
    incoming parser (front ++ back) offset = incoming parser front offset ++ back := by
  rw [incoming, incoming, Int.toNat_natCast, List.drop_append_of_le_length hoffset,
    List.append_assoc]

/-- The first half of a round that saves the head does the same when the chunk is longer. -/
theorem unpackProtocol_append {offset : ℕ} (hoffset : offset ≤ front.length)
    (hdata : (front ++ back).length < 2 ^ 31)
    (hnone : parser.protocol = none → parser.cachingData.length < 24)
    (hsome : ∀ protocol, parser.protocol = some protocol → protocol.info.headSize < 2 ^ 31)
    (hsaved : unpackProtocol parser front offset = (next, .returned size)) :
    unpackProtocol parser (front ++ back) offset = (next, .returned size) := by
  have hlonger : offset ≤ (front ++ back).length := by
    rw [List.length_append]
    omega
  cases hprotocol : parser.protocol with
  | none =>
      have hshort := hnone hprotocol
      have hlength := length_incoming parser hlonger
      rw [incoming_append hoffset] at hlength
      rw [unpackProtocol_of_none hprotocol hoffset] at hsaved
      rw [unpackProtocol_of_none hprotocol hlonger, incoming_append hoffset]
      exact unpackInfo_append (by omega) hsaved
  | some protocol =>
      cases hopen : headSaved protocol with
      | true =>
          rw [unpackProtocol_of_saved hprotocol hopen] at hsaved ⊢
          exact hsaved
      | false =>
          rw [unpackProtocol_of_unsaved hprotocol hopen hoffset] at hsaved
          rw [unpackProtocol_of_unsaved hprotocol hopen hlonger, incoming_append hoffset]
          exact unpackHead_append (hsome protocol hprotocol) hsaved back

theorem unpackHead_unpacked (protocol : Protocol) (bytes : Bytes) (prevSize : ℕ) :
    (unpackHead parser protocol bytes prevSize).1.unpacked = parser.unpacked := by
  rw [unpackHead]
  split
  · rfl
  split
  · rfl
  · rfl

theorem unpackInfo_unpacked (bytes : Bytes) (prevSize : ℕ) :
    (unpackInfo parser bytes prevSize).1.unpacked = parser.unpacked := by
  simp only [unpackInfo, apply_ite Prod.fst, apply_ite SessionParser.unpacked]
  cases parseInfo (bytes.drop (garbageSize bytes)) with
  | error info => simp only [ite_self]
  | ok info => simp only [unpackHead_unpacked, ite_self]

/-- The first half of a round does not call the listener. -/
theorem unpackProtocol_unpacked (data : Bytes) (dataPos : ℤ) :
    (unpackProtocol parser data dataPos).1.unpacked = parser.unpacked := by
  rw [unpackProtocol]
  split
  · split
    · rfl
    split
    · rfl
    · exact unpackHead_unpacked _ _ _
  · split
    · rfl
    · exact unpackInfo_unpacked _ _

/-- A parser that awaits no frame has nothing cached and nothing to come. -/
theorem Awaits.nothing {rest : Bytes} (hawaits : Awaits parser rest []) :
    parser.protocol = none ∧ parser.cachingData = [] ∧ rest = [] := by
  cases hawaits with
  | between hprotocol hstream =>
      exact ⟨hprotocol, List.append_eq_nil_iff.mp hstream⟩

theorem Frame.Sized.fits {frame : Frame} (hsized : frame.Sized) : Fits frame.info := by
  obtain ⟨hhead, hbody⟩ := hsized
  constructor
  · simp only [Frame.info]
    omega
  · simp only [Frame.info]
    omega
  · simp only [Frame.info]
    omega
  · simp only [Frame.info]
    omega

theorem Receiving.holds {piece : Piece} {pieces : List Piece} {body rest : Bytes}
    (hreceiving : Receiving parser rest piece pieces body) :
    Holds ⟨piece.frame.info, piece.frame.head, body, body.length⟩ := by
  obtain ⟨hhead, hbody⟩ := (hreceiving.formed piece List.mem_cons_self).1
  have hfits := hreceiving.fits
  have hsize : toUInt64 (piece.frame.body.length : ℤ) = piece.frame.body.length :=
    toUInt64_of_fits (by omega)
  have hreceived : (body.length : ℤ) = toInt64 body.length :=
    (toInt64_of_fits (by omega) (by omega)).symm
  refine ⟨Frame.Sized.fits ⟨hhead, hbody⟩, rfl, hreceived, ?_⟩
  rw [Frame.info, hsize]
  exact hfits

/-- The rest of a body that lies in the chunk ends its frame, whatever follows. -/
theorem bodyRound_of_receiving {piece : Piece} {pieces : List Piece} {body : Bytes}
    {offset : ℕ} (hdata : (front ++ back).length < 2 ^ 31) (hback : back ≠ [])
    (hoffset : offset ≤ front.length)
    (hreceiving : Receiving parser (front.drop offset) piece pieces body) :
    ∃ position : ℕ, position + body.length = offset + piece.frame.body.length ∧
      position ≤ front.length ∧
      bodyRound parser (front ++ back) true offset =
        ({ parser with
            protocol := none
            unpacked := parser.unpacked ++ [(piece.frame.head, piece.frame.body)] },
          .goesOn position) ∧
      front.drop position = stream pieces := by
  have hfits := hreceiving.fits
  have hstream := hreceiving.stream
  have hholds := hreceiving.holds
  have hbodySize := (hreceiving.formed piece List.mem_cons_self).1.2
  -- the rest of the body is the front of what follows
  have hlength := congrArg List.length hstream
  rw [List.length_append, List.length_append, List.length_drop] at hlength
  generalize hsize : piece.frame.body.length - body.length = size at hlength
  have hroom : offset + size ≤ front.length := by omega
  have hlonger : offset ≤ (front ++ back).length := by
    rw [List.length_append]
    omega
  have hpast : offset + size < (front ++ back).length := by
    have := List.length_pos_iff.mpr hback
    rw [List.length_append]
    omega
  have hneeded : toUInt64 piece.frame.info.bodySize = piece.frame.body.length :=
    toUInt64_of_fits (by omega)
  have htaken : body ++ (front.drop offset).take size = piece.frame.body := by
    have htake := congrArg (List.take piece.frame.body.length) hstream
    rw [List.take_left, List.take_append, List.take_of_length_le hfits, hsize] at htake
    exact htake
  have hdropped : front.drop (offset + size) = stream pieces := by
    have hdrop := congrArg (List.drop piece.frame.body.length) hstream
    rw [List.drop_left, List.drop_append, List.drop_of_length_le hfits, List.nil_append, hsize,
      List.drop_drop] at hdrop
    exact hdrop
  have hmin : size = min (toUInt64 piece.frame.info.bodySize - body.length)
      ((front ++ back).length - offset) := by
    rw [hneeded, hsize]
    omega
  have hwhole : piece.frame.body = body ++ ((front ++ back).drop offset).take size := by
    rw [List.drop_append_of_le_length hoffset, List.take_append_of_le_length, htaken]
    rw [List.length_drop]
    omega
  have hbody := hholds.unpackBodyData_eq hreceiving.protocol hdata hlonger hmin hwhole
  rw [if_pos hneeded.symm] at hbody
  refine ⟨offset + size, by omega, hroom, ?_, hdropped⟩
  rw [bodyRound_of_body hpast.le hdata hbody, if_pos hpast]

theorem calls_eq_nil {pieces : List Piece} (hcalls : calls pieces = []) : pieces = [] :=
  List.map_eq_nil_iff.mp hcalls

/-- The head of a frame that the parser awaits is known to be of a size that fits. -/
theorem Awaits.known {rest : Bytes} {pieces : List Piece} (hawaits : Awaits parser rest pieces) :
    (parser.protocol = none → parser.cachingData.length < 24) ∧
      ∀ protocol, parser.protocol = some protocol → protocol.info.headSize < 2 ^ 31 := by
  cases hawaits with
  | between hprotocol _ _ hshort =>
      refine ⟨fun _ => hshort, fun protocol hsome => ?_⟩
      cases hprotocol.symm.trans hsome
  | @inHead piece pieces hprotocol _ hformed =>
      refine ⟨fun hnone => ?_, fun protocol hsome => ?_⟩
      · cases hnone.symm.trans hprotocol
      · cases hprotocol.symm.trans hsome
        exact (hformed piece List.mem_cons_self).1.fits.headHigh
  | @inBody piece pieces body hreceiving =>
      refine ⟨fun hnone => ?_, fun protocol hsome => ?_⟩
      · cases hnone.symm.trans hreceiving.protocol
      · cases hreceiving.protocol.symm.trans hsome
        exact hreceiving.holds.fits.headHigh

/-- When a chunk has the end of the awaited frames and more, the loop comes to that end. -/
theorem unpackFrom_crosses (hdata : (front ++ back).length < 2 ^ 31) (hback : back ≠ [])
    (rounds offset : ℕ) (pieces : List Piece) (hoffset : offset ≤ front.length)
    (hrounds : front.length - offset < rounds)
    (hawaits : Awaits parser (front.drop offset) pieces) :
    ∃ next rounds', unpackFrom parser (front ++ back) true rounds offset =
        unpackFrom next (front ++ back) true (rounds' + 1) front.length ∧
      next.protocol = none ∧ next.cachingData = [] ∧
      next.unpacked = parser.unpacked ++ calls pieces := by
  induction rounds generalizing parser offset pieces with
  | zero => omega
  | succ rounds ih =>
      cases pieces with
      | nil =>
          obtain ⟨hprotocol, hcached, hdone⟩ := hawaits.nothing
          have hend : offset = front.length :=
            le_antisymm hoffset (List.drop_eq_nil_iff.mp hdone)
          refine ⟨parser, rounds, by rw [hend], hprotocol, hcached, ?_⟩
          exact (List.append_nil _).symm
      | cons piece pieces =>
          obtain ⟨hnone, hsome⟩ := hawaits.known
          have hfront : front.length < 2 ^ 31 := by
            rw [List.length_append] at hdata
            omega
          have hstart : Awaits parser (front.drop offset ++ []) (piece :: pieces) := by
            rw [List.append_nil]
            exact hawaits
          rcases unpackProtocol_awaits hoffset hfront hstart with
            ⟨next, pieces', hresult, hnext, hcalls⟩ |
            ⟨inBody, piece', pieces', body, size, hresult, hinside, hreceiving, hprogress, hcalls⟩
          · -- not all bytes can be taken while a frame is awaited
            have hsame := @unpackProtocol_unpacked parser front offset
            rw [hresult] at hsame
            dsimp only at hsame
            rw [hnext.pieces_eq_nil, hsame] at hcalls
            cases calls_eq_nil (List.append_cancel_left hcalls).symm
          · rw [List.append_nil] at hreceiving
            have hlonger := unpackProtocol_append hoffset hdata hnone hsome hresult
            have hhead : offset + size ≤ (front ++ back).length := by
              rw [List.length_append]
              omega
            obtain ⟨position, hposition, hroom, hround, hrest⟩ :=
              bodyRound_of_receiving hdata hback hinside hreceiving
            have hformed : WellFormed pieces' := fun other hother =>
              hreceiving.formed other (List.mem_cons_of_mem _ hother)
            have hlater : Awaits { inBody with
                protocol := none
                unpacked := inBody.unpacked ++ [(piece'.frame.head, piece'.frame.body)] }
                (front.drop position) pieces' := by
              refine .between rfl ?_ hformed ?_
              · rw [hreceiving.cachingData, List.nil_append, hrest]
              · rw [hreceiving.cachingData]
                exact Nat.succ_pos 23
            have hfits := hreceiving.fits
            obtain ⟨next, rounds', hloop, hprotocol, hcached, hunpacked⟩ :=
              ih position pieces' hroom (by omega) hlater
            refine ⟨next, rounds', ?_, hprotocol, hcached, ?_⟩
            · rw [unpackFrom_succ, round_of_head hhead hdata hlonger, hround]
              exact hloop
            · rw [hunpacked, ← hcalls, calls_cons, List.append_assoc, List.singleton_append]

end Crossing

section Hunting

variable {mixed : Mixed} {parser : SessionParser} {data rest : Bytes}

/-- The stream behind the frames before the header. -/
def Mixed.tail (mixed : Mixed) : Bytes :=
  mixed.garbage ++ (mixed.header ++ (mixed.rest ++ stream mixed.after))

/-- The header is not complete yet: the parser is in the frames before it, or hunts for it. -/
inductive Approaches (mixed : Mixed) (parser : SessionParser) (rest : Bytes) : Prop
  | frames {pieces : List Piece} {front : Bytes} (awaits : Awaits parser front pieces)
      (follows : rest = front ++ mixed.tail)
      (unpacked : parser.unpacked ++ calls pieces = calls mixed.before)
  | hunting {dropped : ℕ} (protocol : parser.protocol = none)
      (short : parser.cachingData.length < 24) (garbage : dropped ≤ mixed.garbage.length)
      (follows : parser.cachingData ++ rest = mixed.tail.drop dropped)
      (unpacked : parser.unpacked = calls mixed.before)

/-- The unsupported frame is open, after the frames before it. -/
structure Opened (mixed : Mixed) (parser : SessionParser) : Prop where
  wedged : Wedged parser
  protocol : parser.protocol ≠ none
  unpacked : parser.unpacked = calls mixed.before

/-- What a call has come to when `rest` follows: the header is complete when no more than what
is behind it follows. -/
def Arrives (mixed : Mixed) (rest : Bytes) (result : SessionParser × Outcome) : Prop :=
  (rest.length ≤ (mixed.rest ++ stream mixed.after).length ∧ Opened mixed result.1 ∧
      result.2 = .returned carrierSessionUnsuppertedVersion) ∨
    ((mixed.rest ++ stream mixed.after).length < rest.length ∧ Approaches mixed result.1 rest)

theorem Mixed.drop_tail (mixed : Mixed) :
    mixed.tail.drop mixed.garbage.length =
      mixed.header ++ (mixed.rest ++ stream mixed.after) := by
  rw [Mixed.tail, List.drop_left]

/-- Behind some of the garbage, the magic number still occurs first where the header starts. -/
theorem Mixed.Formed.first (hformed : mixed.Formed) {dropped : ℕ}
    (hdropped : dropped ≤ mixed.garbage.length) :
    (∀ position < mixed.garbage.length - dropped,
      ((mixed.tail.drop dropped).drop position).take 8 ≠ searchMagicNum) ∧
    ((mixed.tail.drop dropped).drop (mixed.garbage.length - dropped)).take 8 = searchMagicNum := by
  have hwhole := hformed.whole
  constructor
  · intro position hposition
    have hwindow : (mixed.tail.drop (dropped + position)).take 8 =
        ((mixed.garbage ++ mixed.header).drop (dropped + position)).take 8 := by
      have hlength : (mixed.garbage ++ mixed.header).length = mixed.garbage.length + 24 := by
        rw [List.length_append, hwhole]
      rw [Mixed.tail, ← List.append_assoc, List.drop_append_of_le_length (by omega),
        List.take_append_of_le_length]
      rw [List.length_drop]
      omega
    rw [List.drop_drop, hwindow]
    exact hformed.clean (dropped + position) (by omega)
  · have hstart : dropped + (mixed.garbage.length - dropped) = mixed.garbage.length := by omega
    rw [List.drop_drop, hstart, mixed.drop_tail, List.take_append_of_le_length (by omega)]
    exact hformed.unsupported.magic

theorem opened_of_found {bytes : Bytes} (hfound : Unsupported bytes)
    (hunpacked : parser.unpacked = calls mixed.before) :
    Opened mixed { parser with
      protocol := some ⟨unsupportedInfo bytes, [], [], 0⟩
      cachingData := bytes } :=
  ⟨.opened hfound rfl, Option.some_ne_none _, hunpacked⟩

theorem approaches_of_left {bytes : Bytes} {dropped : ℕ} (hprotocol : parser.protocol = none)
    (hleft : bytes.length < sizeofInfo) (hdropped : dropped ≤ mixed.garbage.length)
    (hfollows : bytes ++ rest = mixed.tail.drop dropped)
    (hunpacked : parser.unpacked = calls mixed.before) :
    Approaches mixed { parser with cachingData := bytes } rest :=
  .hunting hprotocol hleft hdropped hfollows hunpacked

/-- The round that hunts for the header in what is left of a chunk. -/
theorem unpackFrom_hunts (hformed : mixed.Formed) {offset dropped : ℕ}
    (hdata : data.length < 2 ^ 31) (hoffset : offset ≤ data.length)
    (hprotocol : parser.protocol = none) (hshort : parser.cachingData.length < 24)
    (hdropped : dropped ≤ mixed.garbage.length)
    (hfollows : parser.cachingData ++ (data.drop offset ++ rest) = mixed.tail.drop dropped)
    (hunpacked : parser.unpacked = calls mixed.before) (rounds : ℕ) :
    Arrives mixed rest (unpackFrom parser data true (rounds + 1) offset) := by
  obtain ⟨hclean, hown⟩ := hformed.first hdropped
  have hwhole := hformed.whole
  have hlength := length_incoming parser hoffset
  have hsize : (incoming parser data offset).length < 2 ^ 31 + 23 := by omega
  have hstream : incoming parser data offset ++ rest = mixed.tail.drop dropped := by
    rw [incoming, Int.toNat_natCast, List.append_assoc]
    exact hfollows
  have hcount := congrArg List.length hstream
  rw [List.length_append, List.length_drop, Mixed.tail, List.length_append, List.length_append,
    hwhole] at hcount
  have hresult := unpackProtocol_of_none hprotocol hoffset
  rcases garbageSize_first hclean hown hsize hstream with ⟨hgarbage, hlong⟩ | ⟨hle, hlast⟩
  · -- the header is there
    left
    have hrest : (incoming parser data offset).drop (garbageSize (incoming parser data offset)) ++
        rest = mixed.header ++ (mixed.rest ++ stream mixed.after) := by
      have hdrop := congrArg (List.drop (mixed.garbage.length - dropped)) hstream
      have hstart : dropped + (mixed.garbage.length - dropped) = mixed.garbage.length := by omega
      rw [List.drop_append_of_le_length (by omega), List.drop_drop, hstart,
        mixed.drop_tail] at hdrop
      rw [hgarbage, hdrop]
    have hfound : Unsupported ((incoming parser data offset).drop
        (garbageSize (incoming parser data offset))) := by
      have htake := congrArg (List.take 24) hrest
      have hparsed : 24 ≤ ((incoming parser data offset).drop
          (garbageSize (incoming parser data offset))).length := by
        rw [List.length_drop]
        omega
      rw [List.take_append_of_le_length hparsed, List.take_left' hwhole] at htake
      rw [← List.take_append_drop 24 ((incoming parser data offset).drop
        (garbageSize (incoming parser data offset))), htake]
      exact hformed.unsupported.append _
    rw [unpackInfo_of_unsupported (by omega) hfound] at hresult
    rw [unpackFrom_succ, round_of_unsupported hresult]
    exact ⟨by omega, opened_of_found hfound hunpacked, rfl⟩
  · -- fewer than 24 bytes are left
    right
    have hleft : ((incoming parser data offset).drop
        (garbageSize (incoming parser data offset))).length < sizeofInfo := by
      rw [List.length_drop, sizeofInfo]
      omega
    have hsmall : ¬ 2 ^ 31 ≤ garbageSize (incoming parser data offset) := by omega
    have hfollows' : (incoming parser data offset).drop
        (garbageSize (incoming parser data offset)) ++ rest =
        mixed.tail.drop (dropped + garbageSize (incoming parser data offset)) := by
      rw [← List.drop_append_of_le_length (by omega), hstream, List.drop_drop]
    have hgarbage : dropped + garbageSize (incoming parser data offset) ≤
        mixed.garbage.length := by omega
    rw [unpackInfo, if_neg hsmall, if_pos hleft] at hresult
    rw [unpackFrom_succ, round_of_needsMore hresult]
    exact ⟨by omega, approaches_of_left hprotocol hleft hgarbage hfollows' hunpacked⟩

/-- A call on a chunk of the stream. -/
theorem unpack_approaches (hformed : mixed.Formed) (hdata : data.length < 2 ^ 31)
    (happroaches : Approaches mixed parser (data ++ rest)) :
    Arrives mixed rest (unpack parser data true) := by
  have hinFront : ∀ {pieces front later}, Awaits parser front pieces →
      parser.unpacked ++ calls pieces = calls mixed.before → front = data ++ later →
      rest = later ++ mixed.tail → Arrives mixed rest (unpack parser data true) := by
    intro pieces front later hawaits hunpacked hfront hrest
    rw [hfront] at hawaits
    obtain ⟨next, pieces', hresult, hnext, hcalls⟩ := unpack_awaits hdata hawaits
    refine Or.inr ⟨?_, ?_⟩
    · have hwhole := hformed.whole
      rw [hrest, Mixed.tail]
      simp only [List.length_append]
      omega
    · rw [hresult]
      exact .frames hnext hrest (hcalls.trans hunpacked)
  cases happroaches with
  | @frames pieces front hawaits hfollows hunpacked =>
      rcases List.append_eq_append_iff.mp hfollows with
        ⟨later, hfront, hrest⟩ | ⟨back, hchunk, htail⟩
      · exact hinFront hawaits hunpacked hfront hrest
      · cases back with
        | nil =>
            rw [List.append_nil] at hchunk
            exact hinFront hawaits hunpacked
              (by rw [hchunk, List.append_nil] : front = data ++ []) htail.symm
        | cons byte back =>
            obtain ⟨next, rounds, hloop, hprotocol, hcached, hcalls⟩ :=
              @unpackFrom_crosses parser front (byte :: back) (hchunk ▸ hdata)
                (List.cons_ne_nil _ _) (2 * data.length + 2) 0 pieces (Nat.zero_le _)
                (by rw [hchunk, List.length_append]; omega) hawaits
            rw [Nat.cast_zero, ← hchunk] at hloop
            rw [unpack, hloop]
            refine unpackFrom_hunts hformed hdata (by rw [hchunk, List.length_append]; omega)
              hprotocol (by rw [hcached]; exact Nat.succ_pos 23) (Nat.zero_le _) ?_
              (hcalls.trans hunpacked) rounds
            rw [hcached, hchunk, List.drop_left, List.nil_append, List.drop_zero]
            exact htail.symm
  | hunting hprotocol hshort hdropped hfollows hunpacked =>
      exact @unpackFrom_hunts mixed parser data rest hformed 0 _ hdata (Nat.zero_le _) hprotocol
        hshort hdropped hfollows hunpacked (2 * data.length + 1)

end Hunting

section Runs

variable {mixed : Mixed} {parser : SessionParser} {early later : List Bytes} {chunk : Bytes}

theorem unpackAll_append (parser : SessionParser) (early later : List Bytes) :
    (unpackAll parser (early ++ later)).1 = (unpackAll (unpackAll parser early).1 later).1 := by
  induction early generalizing parser with
  | nil => rfl
  | cons chunk early ih => exact ih (unpack parser chunk true).1

/-- The chunks before the one that completes the header. -/
theorem approaches_early (hformed : mixed.Formed) {rest : Bytes}
    (hearly : ∀ other ∈ early, other.length < 2 ^ 31)
    (hmore : (mixed.rest ++ stream mixed.after).length < rest.length)
    (happroaches : Approaches mixed parser (early.flatten ++ rest)) :
    Approaches mixed (unpackAll parser early).1 rest := by
  induction early generalizing parser with
  | nil => exact happroaches
  | cons chunk early ih =>
      rw [List.flatten_cons, List.append_assoc] at happroaches
      have hchunk := hearly chunk List.mem_cons_self
      rcases unpack_approaches hformed hchunk happroaches with ⟨hdone, -⟩ | ⟨-, hnext⟩
      · rw [List.length_append] at hdone
        omega
      · exact ih (fun other hother => hearly other (List.mem_cons_of_mem _ hother)) hnext

theorem length_bytes (hformed : mixed.Formed) :
    mixed.bytes.length = mixed.known + (mixed.rest ++ stream mixed.after).length := by
  have hwhole := hformed.whole
  rw [Mixed.bytes, Mixed.known]
  simp only [List.length_append]
  omega

theorem approaches_init (hformed : mixed.Formed) : Approaches mixed .init mixed.bytes :=
  .frames (.between rfl rfl hformed.before (Nat.succ_pos 23)) rfl rfl

/-- The chunk that completes the header opens the unsupported frame. -/
theorem Cut.opened (hformed : mixed.Formed) (hcut : Cut mixed early chunk later) :
    Opened mixed (unpackAll .init (early ++ [chunk])).1 ∧
      (unpack (unpackAll .init early).1 chunk true).2 =
        .returned carrierSessionUnsuppertedVersion := by
  have hlength := length_bytes hformed
  have hbefore := hcut.notBefore
  have hknown := hcut.known
  have hbytes := approaches_init hformed
  rw [← hcut.all] at hbytes hlength
  rw [List.length_append] at hlength hknown
  rw [List.length_append] at hlength
  have hmore : (mixed.rest ++ stream mixed.after).length < (chunk ++ later.flatten).length := by
    rw [@List.length_append _ chunk]
    omega
  have hearly := approaches_early hformed hcut.early hmore hbytes
  rw [unpackAll_append]
  rcases unpack_approaches hformed hcut.chunk hearly with ⟨-, hopened, houtcome⟩ | ⟨hmore, -⟩
  · exact ⟨hopened, houtcome⟩
  · omega

/-- The calls of the listener: the frames before the header, and while later chunks are fed
nothing but empty frames. -/
theorem Cut.unpacked (hformed : mixed.Formed) (hcut : Cut mixed early chunk later) :
    (unpackAll .init (early ++ chunk :: later)).1.unpacked =
        calls mixed.before ++ List.replicate (madeUp true later) ([], []) ∧
      laterCalls early chunk later = List.replicate (madeUp true later) ([], []) := by
  obtain ⟨hopened, -⟩ := hcut.opened hformed
  have hcount := unpackAll_wedged hopened.wedged later
  rw [Option.isSome_iff_ne_none.mpr hopened.protocol] at hcount
  constructor
  · rw [← List.singleton_append, ← List.append_assoc, unpackAll_append, hcount, hopened.unpacked]
  · rw [laterCalls, hcount, List.drop_left]

theorem frame_eq_empty_iff {frame : Frame} :
    (frame.head, frame.body) = ([], []) ↔ frame = ⟨[], []⟩ := by
  cases frame
  simp

/-- Calls that are as many empty frames, or fewer. -/
theorem calls_sublist_replicate_iff {pieces : List Piece} {count : ℕ} :
    (calls pieces).Sublist (List.replicate count ([], [])) ↔
      (∀ piece ∈ pieces, piece.frame = ⟨[], []⟩) ∧ pieces.length ≤ count := by
  rw [List.sublist_replicate_iff]
  constructor
  · rintro ⟨fewer, hle, hcalls⟩
    obtain ⟨hlength, hempty⟩ := List.eq_replicate_iff.mp hcalls
    rw [calls, List.length_map] at hlength
    exact ⟨fun piece hpiece => frame_eq_empty_iff.mp (hempty _ (List.mem_map_of_mem hpiece)),
      hlength.trans_le hle⟩
  · rintro ⟨hempty, hlength⟩
    refine ⟨_, hlength, List.eq_replicate_iff.mpr ⟨List.length_map _, fun call hcall => ?_⟩⟩
    obtain ⟨piece, hpiece, rfl⟩ := List.mem_map.mp hcall
    exact frame_eq_empty_iff.mpr (hempty piece hpiece)

/-- The parser recovers exactly when the empty frames that it makes up pass for frames of the
stream: as many empty ones are behind the header, and no others than empty ones, and not more
than it makes up, start in the later chunks. -/
theorem recovers_after_iff (mixed : Mixed) (hformed : mixed.Formed) (early : List Bytes)
    (chunk : Bytes) (later : List Bytes) (hcut : Cut mixed early chunk later) :
    Recovers mixed early chunk later ↔
      madeUp true later ≤ (calls mixed.after).count ([], []) ∧
        (∀ piece ∈ mixed.piecesFrom (early.flatten ++ chunk).length,
          piece.frame = ⟨[], []⟩) ∧
        (mixed.piecesFrom (early.flatten ++ chunk).length).length ≤ madeUp true later := by
  obtain ⟨hunpacked, hlater⟩ := hcut.unpacked hformed
  have hcalls : calls (mixed.before ++ mixed.after) = calls mixed.before ++ calls mixed.after :=
    List.map_append
  have hvalid : (unpackAll .init (early ++ chunk :: later)).1.unpacked.Sublist
      (calls (mixed.before ++ mixed.after)) ↔
        madeUp true later ≤ (calls mixed.after).count ([], []) := by
    rw [hunpacked, hcalls, List.append_sublist_append_left, List.replicate_sublist_iff]
  have hdelivered : (calls (mixed.piecesFrom (early.flatten ++ chunk).length)).Sublist
      (laterCalls early chunk later) ↔
        (∀ piece ∈ mixed.piecesFrom (early.flatten ++ chunk).length,
          piece.frame = ⟨[], []⟩) ∧
        (mixed.piecesFrom (early.flatten ++ chunk).length).length ≤ madeUp true later := by
    rw [hlater, calls_sublist_replicate_iff]
  constructor
  · intro hrecovers
    exact ⟨hvalid.mp hrecovers.valid, hdelivered.mp hrecovers.delivered⟩
  · rintro ⟨hmade, hothers⟩
    exact ⟨hvalid.mpr hmade, hdelivered.mpr hothers⟩

/-- A frame with a head and a body, after the fixed part of a frame of version 20000. -/
def laterVersion : Mixed where
  before := []
  garbage := []
  header := searchMagicNum ++ (encodeBE 4 20000 ++ List.replicate 12 0)
  rest := []
  after := [⟨[], ⟨[1], [2]⟩⟩]

theorem formed_laterVersion : laterVersion.Formed where
  before := by decide
  unsupported := ⟨by decide, by decide, by decide⟩
  whole := by decide
  clean := fun position hposition => absurd hposition (Nat.not_lt_zero position)
  after := by decide

/-- Nothing is fed after the chunk with the header. -/
theorem laterVersion_in_one_chunk : Recovers laterVersion [] laterVersion.bytes [] := by
  have hcut : Cut laterVersion [] laterVersion.bytes [] :=
    ⟨by decide, by decide, by decide, List.forall_mem_nil _, by decide⟩
  exact (recovers_after_iff laterVersion formed_laterVersion [] laterVersion.bytes [] hcut).mpr
    ⟨by decide, by decide, by decide⟩

/-- When the valid frame is the next chunk, it is lost, and an empty frame is made up. -/
theorem laterVersion_is_lost :
    let frame : Frame := ⟨[1], [2]⟩
    Cut laterVersion [] laterVersion.header [frame.bytes] ∧
      (unpackAll .init [laterVersion.header, frame.bytes]).1.unpacked = [([], [])] ∧
      ¬ Recovers laterVersion [] laterVersion.header [frame.bytes] := by
  intro frame
  have hcut : Cut laterVersion [] laterVersion.header [frame.bytes] :=
    ⟨by decide, by decide, by decide, List.forall_mem_nil _, by decide⟩
  have hunpacked : (unpackAll .init [laterVersion.header, frame.bytes]).1.unpacked =
      [([], [])] := by decide +kernel
  refine ⟨hcut, hunpacked, fun hrecovers => ?_⟩
  have hmadeUp := hrecovers.valid
  rw [List.nil_append, hunpacked] at hmadeUp
  exact absurd hmadeUp (by decide)

end Runs

end FeedsService.Session
