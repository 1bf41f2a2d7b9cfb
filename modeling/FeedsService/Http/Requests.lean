import FeedsService.Http.Streams
import FeedsService.Http.Search
import FeedsService.Http.Urls
import Mathlib.Data.List.Infix

/-!
# The request of a connection

The bytes of a connection come in pieces and over many polls.  Wherever they are
cut, `sb_stream_recv` reports the first complete request among them, once, or
waits for more, or is caught in a header that `find_header_value` does not get
through.
-/

namespace FeedsService.Http

open FeedsService.Library

/-- The whole header of a request: it ends with the first empty line. -/
structure IsHead (head : Bytes) : Prop where
  ends : crlf ++ crlf <:+ head
  first : ∀ early, early <+: head → crlf ++ crlf <:+ early → early = head

instance (head : Bytes) : Decidable (IsHead head) :=
  decidable_of_iff (crlf ++ crlf <:+ head ∧
      ∀ early ∈ head.inits, crlf ++ crlf <:+ early → early = head)
    ⟨fun h => ⟨h.1, fun early hearly => h.2 early (List.mem_inits _ _ |>.mpr hearly)⟩,
      fun h => ⟨h.ends, fun early hearly => h.first early (List.mem_inits _ _ |>.mp hearly)⟩⟩

/-- The search for the length of the content. -/
def searched (head : Bytes) : Option (Except Fault (Option Bytes)) :=
  findHeaderValue (head ++ [0]) contentLength

/-- A header, and as much content as it announces. -/
inductive Complete : Bytes → Prop
  | plain {head : Bytes} (hhead : IsHead head) (hnone : searched head = some (.ok none)) :
      Complete head
  | content {head body value : Bytes} (hhead : IsHead head)
      (hvalue : searched head = some (.ok (some value)))
      (hbody : body.length = strToUint (cString value)) : Complete (head ++ body)

/-- A header in which the search is caught. -/
structure Endless (head : Bytes) : Prop where
  isHead : IsHead head
  caught : searched head = none

theorem IsHead.unique {head other bytes : Bytes} (hhead : IsHead head) (hother : IsHead other)
    (hstarts : head <+: bytes) (hstarts' : other <+: bytes) : head = other := by
  obtain hle | hle := List.prefix_or_prefix_of_prefix hstarts hstarts'
  · exact hother.first head hle hhead.ends
  · exact (hhead.first other hle hother.ends).symm

theorem Complete.exists_head {request : Bytes} (hcomplete : Complete request) :
    ∃ head body, request = head ++ body ∧ IsHead head ∧
      (searched head = some (.ok none) ∧ body.length = 0 ∨
        ∃ value, searched head = some (.ok (some value)) ∧
          body.length = strToUint (cString value)) := by
  cases hcomplete with
  | plain hhead hnone => exact ⟨request, [], by simp, hhead, Or.inl ⟨hnone, rfl⟩⟩
  | content hhead hvalue hbody => exact ⟨_, _, rfl, hhead, Or.inr ⟨_, hvalue, hbody⟩⟩

/-- A stream of bytes begins with one complete request at most. -/
theorem Complete.unique {request other bytes : Bytes} (hrequest : Complete request)
    (hother : Complete other) (hstarts : request <+: bytes) (hstarts' : other <+: bytes) :
    request = other := by
  obtain ⟨head, body, rfl, hhead, hbody⟩ := hrequest.exists_head
  obtain ⟨head', body', rfl, hhead', hbody'⟩ := hother.exists_head
  obtain rfl := hhead.unique hhead' ((List.prefix_append _ _).trans hstarts)
    ((List.prefix_append _ _).trans hstarts')
  have hlength : (head ++ body).length = (head ++ body').length := by
    rw [List.length_append, List.length_append]
    obtain ⟨hnone, hnil⟩ | ⟨value, hvalue, hsize⟩ := hbody
    · obtain ⟨-, hnil'⟩ | ⟨value, hvalue, -⟩ := hbody'
      · omega
      · rw [hnone] at hvalue
        cases hvalue
    · obtain ⟨hnone, -⟩ | ⟨value', hvalue', hsize'⟩ := hbody'
      · rw [hnone] at hvalue
        cases hvalue
      · rw [hvalue] at hvalue'
        cases hvalue'
        omega
  exact List.IsPrefix.eq_of_length
    (List.prefix_of_prefix_length_le hstarts hstarts' hlength.le) hlength

/-- No complete request begins with a header in which the search is caught. -/
theorem Complete.not_endless {request head bytes : Bytes} (hrequest : Complete request)
    (hendless : Endless head) (hstarts : request <+: bytes) : ¬ head <+: bytes := by
  intro hstarts'
  obtain ⟨head', body, rfl, hhead, hbody⟩ := hrequest.exists_head
  obtain rfl := hhead.unique hendless.isHead ((List.prefix_append _ _).trans hstarts) hstarts'
  rw [hendless.caught] at hbody
  obtain ⟨hnone, -⟩ | ⟨value, hvalue, -⟩ := hbody
  · cases hnone
  · cases hvalue

section Line

/-- The method and the path of a request; `none` when the server closes the
connection instead of reporting it. -/
def requestOf (request : Bytes) : Option (Bytes × Bytes) :=
  (scanRequestLine (cString request)).bind fun line =>
    if bytesOf "HTTP" <+: line.ver then
      match urlDecode (line.path ++ [0]) 512 with
      | .error _ => none
      | .ok (path, _) => some (line.method, cString path)
    else
      none

theorem zero_notMem_of_scan {text : Bytes} (htext : 0 ∉ text) {line : RequestLine}
    (hscan : scanRequestLine text = some line) : 0 ∉ line.path := by
  unfold scanRequestLine at hscan
  dsimp only at hscan
  split at hscan
  · cases hscan
  · cases hscan
    intro hmem
    exact htext ((List.dropWhile_sublist _).subset
      (List.mem_of_mem_drop ((List.dropWhile_sublist _).subset hmem)))

variable {grants : ℕ → Bool} (hgrants : ∀ n, grants n = true)

include hgrants

/-- A request is reported with its method and path, or the connection is closed. -/
theorem handleRequest_granted (st : SbStream) :
    ∃ buf, buf.bytes = st.recvBuf.bytes ∧ handleRequest grants st =
      match requestOf st.recvBuf.bytes with
      | none => .returns (sbStreamClose { st with state := .sendingStatus, recvBuf := buf })
          sbESuccess
      | some (method, path) =>
          .requested { st with state := .sendingStatus, recvBuf := buf } method path := by
  obtain ⟨buf, hbuf⟩ := SbBuffer.nullTerminate_granted hgrants st.recvBuf
  have hbytes := SbBuffer.bytes_nullTerminate hbuf
  refine ⟨buf, hbytes, ?_⟩
  have hcstring : 0 ∉ cString st.recvBuf.bytes := zero_notMem_cString _
  rw [handleRequest]
  dsimp only
  rw [hbuf]
  dsimp only
  rw [hbytes, requestOf]
  cases hscan : scanRequestLine (cString st.recvBuf.bytes) with
  | none => rfl
  | some line =>
      have hpath := zero_notMem_of_scan hcstring hscan
      have hver : memEqual (line.ver ++ [0]) (bytesOf "HTTP") 4 =
          .ok (decide (bytesOf "HTTP" <+: line.ver)) := memEqual_text (by decide) line.ver []
      rw [Option.bind_some]
      dsimp only
      rw [hver]
      by_cases hhttp : bytesOf "HTTP" <+: line.ver
      · obtain ⟨path, hdecoded, -⟩ := urlDecode_bounded hpath [] 512 (by omega) (by omega)
        rw [decide_eq_true hhttp, if_pos hhttp, hdecoded]
      · rw [decide_eq_false hhttp, if_neg hhttp]

end Line

section Steps

/-- How much of a request is there while its connection waits for more, with the
state and the length that the connection keeps. -/
inductive Unfinished : Bytes → StreamState → ℕ → Prop
  | header {bytes : Bytes} (hnone : ∀ early, early <+: bytes → ¬ crlf ++ crlf <:+ early) :
      Unfinished bytes .receivingHeader 0
  | content {head body value : Bytes} (hhead : IsHead head)
      (hvalue : searched head = some (.ok (some value)))
      (hless : body.length < strToUint (cString value)) :
      Unfinished (head ++ body) .receivingRequest (head.length + strToUint (cString value))

theorem Unfinished.ne_closing {bytes : Bytes} {state : StreamState} {expected : ℕ}
    (h : Unfinished bytes state expected) : state ≠ .closing := by
  cases h <;> exact fun h => nomatch h

/-- The same connection, of which something else may have been received. -/
structure SameReply (st st' : SbStream) : Prop where
  id : st'.id = st.id
  sockfd : st'.sockfd = st.sockfd
  initTime : st'.initTime = st.initTime
  sendBuf : st'.sendBuf = st.sendBuf
  sendFp : st'.sendFp = st.sendFp

theorem SameReply.trans {st st' st'' : SbStream} (h : SameReply st st')
    (h' : SameReply st' st'') : SameReply st st'' where
  id := h'.id.trans h.id
  sockfd := h'.sockfd.trans h.sockfd
  initTime := h'.initTime.trans h.initTime
  sendBuf := h'.sendBuf.trans h.sendBuf
  sendFp := h'.sendFp.trans h.sendFp

/-- What a connection makes of what it has been sent. -/
inductive Taken (grants : ℕ → Bool) (st : SbStream) (bytes : Bytes) : Received → Prop
  | waits {st' : SbStream} (hsame : SameReply st st') (hbytes : st'.recvBuf.bytes = bytes)
      (hunfinished : Unfinished bytes st'.state st'.expectedRecvLen) :
      Taken grants st bytes (.goesOn st')
  | handles {st' : SbStream} (hsame : SameReply st st') (hcomplete : Complete st'.recvBuf.bytes)
      (hstarts : st'.recvBuf.bytes <+: bytes) : Taken grants st bytes (handleRequest grants st')
  | hangs {head : Bytes} (hendless : Endless head) (hstarts : head <+: bytes) :
      Taken grants st bytes .hangs

theorem IsHead.of_received {bytes : Bytes} {chr : UInt8}
    (hnone : ∀ early, early <+: bytes → ¬ crlf ++ crlf <:+ early)
    (hends : crlf ++ crlf <:+ bytes ++ [chr]) : IsHead (bytes ++ [chr]) where
  ends := hends
  first early hearly hcut := by
    obtain hshort | heq := List.prefix_concat_iff.mp hearly |>.symm
    · exact absurd hcut (hnone early hshort)
    · exact heq

/-- The search in a header reads no byte behind it. -/
theorem searched_ne_error (head : Bytes) (fault : Fault) : searched head ≠ some (.error fault) := by
  have hfield : IsName contentLength := ⟨by decide, by decide⟩
  obtain ⟨junk, hhead⟩ : ∃ junk, head ++ [0] = cString head ++ 0 :: junk := by
    induction head with
    | nil => exact ⟨[], rfl⟩
    | cons chr head ih =>
        by_cases hzero : chr = 0
        · exact ⟨head ++ [0], by simp [cString, hzero]⟩
        · obtain ⟨junk, hjunk⟩ := ih
          exact ⟨junk, by simpa [cString, hzero] using hjunk⟩
  rw [searched, hhead]
  obtain ⟨lines, rest, -, -, hverdict⟩ :=
    findHeaderValue_verdict hfield (zero_notMem_cString head) junk
  intro herror
  rw [herror] at hverdict
  cases hverdict

variable {grants : ℕ → Bool} (hgrants : ∀ n, grants n = true)

include hgrants

/-- The whole header is there. -/
theorem headerReceived_taken (st : SbStream) (hhead : IsHead st.recvBuf.bytes) :
    Taken grants st st.recvBuf.bytes (headerReceived grants st) := by
  obtain ⟨buf, hbuf⟩ := SbBuffer.nullTerminate_granted hgrants st.recvBuf
  have hbytes := SbBuffer.bytes_nullTerminate hbuf
  rw [headerReceived]
  dsimp only
  rw [hbuf]
  dsimp only
  rw [hbytes, ← searched]
  cases hsearched : searched st.recvBuf.bytes with
  | none => exact .hangs ⟨hhead, hsearched⟩ List.prefix_rfl
  | some result =>
      match result with
      | .error fault => exact absurd hsearched (searched_ne_error _ fault)
      | .ok none =>
          refine .handles ⟨rfl, rfl, rfl, rfl, rfl⟩ ?_ ?_
          · exact hbytes.symm ▸ .plain hhead hsearched
          · exact hbytes ▸ List.prefix_rfl
      | .ok (some value) =>
          dsimp only
          rw [checkComplete]
          dsimp only
          rw [hbytes]
          by_cases hempty : strToUint (cString value) = 0
          · rw [if_pos (by omega)]
            refine .handles ⟨rfl, rfl, rfl, rfl, rfl⟩ ?_ ?_
            · have hcomplete : Complete (st.recvBuf.bytes ++ []) :=
                .content hhead hsearched hempty.symm
              simpa [hbytes] using hcomplete
            · exact hbytes ▸ List.prefix_rfl
          · rw [if_neg (by omega)]
            refine .waits ⟨rfl, rfl, rfl, rfl, rfl⟩ hbytes ?_
            have hunfinished : Unfinished (st.recvBuf.bytes ++ []) .receivingRequest
                (st.recvBuf.bytes.length + strToUint (cString value)) :=
              .content hhead hsearched (Nat.pos_of_ne_zero hempty)
            simpa using hunfinished

omit hgrants in
theorem Taken.of_same {st st' : SbStream} {bytes : Bytes} {received : Received}
    (htaken : Taken grants st' bytes received) (hsame : SameReply st st') :
    Taken grants st bytes received := by
  cases htaken with
  | waits hlater hbytes hunfinished => exact .waits (hsame.trans hlater) hbytes hunfinished
  | handles hlater hcomplete hstarts => exact .handles (hsame.trans hlater) hcomplete hstarts
  | hangs hendless hstarts => exact .hangs hendless hstarts

/-- One byte. -/
theorem recvByte_taken {st : SbStream}
    (hunfinished : Unfinished st.recvBuf.bytes st.state st.expectedRecvLen) (chr : UInt8) :
    Taken grants st (st.recvBuf.bytes ++ [chr]) (recvByte grants st chr) := by
  obtain ⟨buf, hbuf⟩ := SbBuffer.pushChar_granted hgrants st.recvBuf chr
  have hbytes := SbBuffer.bytes_pushChar hbuf
  rw [recvByte, hbuf]
  dsimp only
  have hlength : buf.bytes.length = st.recvBuf.bytes.length + 1 := by
    rw [hbytes, List.length_append, List.length_singleton]
  rw [← hbytes]
  obtain ⟨id, state, initTime, lastActivity, expected, sockfd, recvBuf, sendBuf, sendFp⟩ := st
  dsimp only at hunfinished hbytes hlength ⊢
  generalize recvBuf.bytes = old at hunfinished hbytes hlength
  cases hunfinished with
  | header hnone =>
      by_cases hends : crlf ++ crlf <:+ buf.bytes
      · have hhead : IsHead buf.bytes := hbytes ▸ IsHead.of_received hnone (hbytes ▸ hends)
        rw [if_pos ⟨rfl, hends⟩]
        have htaken := headerReceived_taken hgrants
          ⟨id, .receivingHeader, initTime, lastActivity, 0, sockfd, buf, sendBuf, sendFp⟩ hhead
        exact htaken.of_same ⟨rfl, rfl, rfl, rfl, rfl⟩
      · rw [if_neg (fun h => hends h.2), checkComplete, if_neg (by dsimp only; omega)]
        refine .waits ⟨rfl, rfl, rfl, rfl, rfl⟩ rfl (.header ?_)
        intro early hearly hcut
        rw [hbytes] at hearly
        obtain heq | hshort := List.prefix_concat_iff.mp hearly
        · exact hends (hbytes ▸ heq ▸ hcut)
        · exact hnone early hshort hcut
  | @content head body value hhead hvalue hless =>
      rw [if_neg (fun h => nomatch h.1), checkComplete]
      rw [List.append_assoc] at hbytes
      have hpart : (body ++ [chr]).length = body.length + 1 := List.length_append
      by_cases hlast : body.length + 1 = strToUint (cString value)
      · rw [if_pos (by dsimp only; rw [hbytes, List.length_append]; omega)]
        refine .handles ⟨rfl, rfl, rfl, rfl, rfl⟩ ?_ List.prefix_rfl
        exact hbytes ▸ .content hhead hvalue (hpart.trans hlast)
      · rw [if_neg (by dsimp only; rw [hbytes, List.length_append]; omega)]
        refine .waits ⟨rfl, rfl, rfl, rfl, rfl⟩ rfl ?_
        exact hbytes ▸ .content hhead hvalue (by omega)

/-- The loop does not go on behind a request. -/
theorem handleRequest_ne_goesOn (st st' : SbStream) : handleRequest grants st ≠ .goesOn st' := by
  obtain ⟨buf, -, hhandled⟩ := handleRequest_granted hgrants st
  rw [hhandled]
  split <;> exact fun h => nomatch h

/-- A piece of data. -/
theorem recvBytes_taken (st : SbStream)
    (hunfinished : Unfinished st.recvBuf.bytes st.state st.expectedRecvLen) (piece : Bytes) :
    Taken grants st (st.recvBuf.bytes ++ piece) (recvBytes grants st piece) := by
  induction piece generalizing st with
  | nil =>
      rw [List.append_nil]
      exact .waits ⟨rfl, rfl, rfl, rfl, rfl⟩ rfl hunfinished
  | cons chr piece ih =>
      have hbyte := recvByte_taken hgrants hunfinished chr
      have hcons : st.recvBuf.bytes ++ chr :: piece = st.recvBuf.bytes ++ [chr] ++ piece := by simp
      rw [recvBytes, hcons]
      generalize recvByte grants st chr = received at hbyte
      cases hbyte with
      | waits hsame hbytes hlater =>
          dsimp only
          rw [← hbytes] at hlater ⊢
          exact (ih _ hlater).of_same hsame
      | @handles st' hsame hcomplete hstarts =>
          split
          · exact absurd ‹_› (handleRequest_ne_goesOn hgrants st' _)
          · exact .handles hsame hcomplete (hstarts.trans (List.prefix_append _ _))
      | hangs hendless hstarts => exact .hangs hendless (hstarts.trans (List.prefix_append _ _))

/-- The pieces of one poll. -/
theorem sbStreamRecv_taken {st : SbStream}
    (hunfinished : Unfinished st.recvBuf.bytes st.state st.expectedRecvLen) (now : ℤ)
    (pieces : List Bytes) (ended : Bool) :
    ∃ received, Taken grants st (st.recvBuf.bytes ++ pieces.flatten) received ∧
      sbStreamRecv grants now st pieces ended =
        match received with
        | .goesOn st' => .returns (if ended then sbStreamClose st' else st') sbESuccess
        | received => received := by
  induction pieces generalizing st with
  | nil =>
      refine ⟨.goesOn st, ?_, rfl⟩
      rw [List.flatten_nil, List.append_nil]
      exact .waits ⟨rfl, rfl, rfl, rfl, rfl⟩ rfl hunfinished
  | cons piece pieces ih =>
      have hnow : SameReply st { st with lastActivity := now } := ⟨rfl, rfl, rfl, rfl, rfl⟩
      have hpiece := (recvBytes_taken hgrants { st with lastActivity := now } hunfinished
        piece).of_same hnow
      dsimp only at hpiece
      rw [sbStreamRecv, List.flatten_cons, ← List.append_assoc]
      generalize recvBytes grants { st with lastActivity := now } piece = received at hpiece
      cases hpiece with
      | waits hsame hbytes hlater =>
          dsimp only
          rw [← hbytes] at hlater ⊢
          obtain ⟨received, htaken, hrecv⟩ := ih hlater
          exact ⟨received, htaken.of_same hsame, hrecv⟩
      | @handles st' hsame hcomplete hstarts =>
          refine ⟨_, .handles hsame hcomplete (hstarts.trans (List.prefix_append _ _)), ?_⟩
          cases hhandled : handleRequest grants st' with
          | goesOn st'' => exact absurd hhandled (handleRequest_ne_goesOn hgrants st' st'')
          | _ => rfl
      | hangs hendless hstarts =>
          exact ⟨_, .hangs hendless (hstarts.trans (List.prefix_append _ _)), rfl⟩

end Steps

section Polls

/-- The polls of a connection whose other side leaves it open: the time of each
and the pieces that it gives.  No limit of the server ends the connection in between. -/
def recvPolls (grants : ℕ → Bool) : SbStream → List (ℤ × List Bytes) → Received
  | st, [] => .goesOn st
  | st, (now, pieces) :: polls =>
      match sbStreamRecv grants now st pieces false with
      | .returns st code =>
          if code = sbESuccess ∧ st.state ≠ .closing then recvPolls grants st polls
          else .returns st code
      | received => received

/-- All that the polls give. -/
def polledBytes (polls : List (ℤ × List Bytes)) : Bytes :=
  polls.flatMap fun poll => poll.2.flatten

variable {grants : ℕ → Bool} (hgrants : ∀ n, grants n = true)

include hgrants

theorem recvPolls_taken (st : SbStream)
    (hunfinished : Unfinished st.recvBuf.bytes st.state st.expectedRecvLen)
    (polls : List (ℤ × List Bytes)) :
    Taken grants st (st.recvBuf.bytes ++ polledBytes polls) (recvPolls grants st polls) := by
  induction polls generalizing st with
  | nil =>
      rw [polledBytes, List.flatMap_nil, List.append_nil]
      exact .waits ⟨rfl, rfl, rfl, rfl, rfl⟩ rfl hunfinished
  | cons poll polls ih =>
      obtain ⟨now, pieces⟩ := poll
      obtain ⟨received, htaken, hrecv⟩ := sbStreamRecv_taken hgrants hunfinished now pieces false
      have hbytes : polledBytes ((now, pieces) :: polls) =
          pieces.flatten ++ polledBytes polls := rfl
      rw [recvPolls, hrecv, hbytes, ← List.append_assoc]
      cases htaken with
      | waits hsame hbytes hlater =>
          have hopen : _ ≠ StreamState.closing := hlater.ne_closing
          dsimp only
          rw [← hbytes] at hlater ⊢
          rw [if_neg Bool.false_ne_true, if_pos ⟨rfl, hopen⟩]
          exact (ih _ hlater).of_same hsame
      | @handles st' hsame hcomplete hstarts =>
          have hhandled : Taken grants st (st.recvBuf.bytes ++ pieces.flatten ++ polledBytes polls)
              (handleRequest grants st') :=
            .handles hsame hcomplete (hstarts.trans (List.prefix_append _ _))
          obtain ⟨buf, -, heq⟩ := handleRequest_granted hgrants st'
          rw [heq] at hhandled ⊢
          cases hline : requestOf st'.recvBuf.bytes with
          | none =>
              rw [hline] at hhandled
              dsimp only
              rw [if_neg (fun h => h.2 rfl)]
              exact hhandled
          | some line =>
              rw [hline] at hhandled
              exact hhandled
      | hangs hendless hstarts => exact .hangs hendless (hstarts.trans (List.prefix_append _ _))

end Polls

section Reports

/-- What the server has made of a connection. -/
inductive Report
  | waiting (bytes : Bytes)
  | requested (request method path : Bytes)
  | refused (request : Bytes)
  | endless

/-- `none` where something has failed. -/
def Received.report : Received → Option Report
  | .goesOn st => some (.waiting st.recvBuf.bytes)
  | .requested st method path => some (.requested st.recvBuf.bytes method path)
  | .returns st code =>
      if code = sbESuccess ∧ st.state = .closing then some (.refused st.recvBuf.bytes) else none
  | .hangs => some .endless
  | .faults _ => none

/-- What should be made of the bytes of a connection. -/
inductive Reports (bytes : Bytes) : Report → Prop
  | waiting (hrequest : ∀ request, request <+: bytes → ¬ Complete request)
      (hendless : ∀ head, head <+: bytes → ¬ Endless head) : Reports bytes (.waiting bytes)
  | requested {request method path : Bytes} (hstarts : request <+: bytes)
      (hcomplete : Complete request) (hline : requestOf request = some (method, path)) :
      Reports bytes (.requested request method path)
  | refused {request : Bytes} (hstarts : request <+: bytes) (hcomplete : Complete request)
      (hline : requestOf request = none) : Reports bytes (.refused request)
  | endless {head : Bytes} (hstarts : head <+: bytes) (hendless : Endless head) :
      Reports bytes .endless

variable {bytes : Bytes}

/-- While a connection waits, no prefix of its bytes is a request. -/
theorem Unfinished.reports {state : StreamState} {expected : ℕ}
    (h : Unfinished bytes state expected) : Reports bytes (.waiting bytes) := by
  cases h with
  | header hnone =>
      refine .waiting ?_ ?_
      · intro request hstarts hcomplete
        obtain ⟨head, body, rfl, hhead, -⟩ := hcomplete.exists_head
        exact hnone head ((List.prefix_append _ _).trans hstarts) hhead.ends
      · intro head hstarts hendless
        exact hnone head hstarts hendless.isHead.ends
  | @content head body value hhead hvalue hless =>
      refine .waiting ?_ ?_
      · intro request hstarts hcomplete
        have hlength := hstarts.length_le
        obtain ⟨head', body', rfl, hhead', hbody'⟩ := hcomplete.exists_head
        obtain rfl := hhead.unique hhead' (List.prefix_append _ _)
          ((List.prefix_append _ _).trans hstarts)
        rw [List.length_append, List.length_append] at hlength
        obtain ⟨hnone, -⟩ | ⟨value', hvalue', hsize⟩ := hbody'
        · rw [hvalue] at hnone
          cases hnone
        · rw [hvalue] at hvalue'
          cases hvalue'
          omega
      · intro head' hstarts hendless
        obtain rfl := hhead.unique hendless.isHead (List.prefix_append _ _) hstarts
        have hcaught := hendless.caught
        rw [hvalue] at hcaught
        cases hcaught

/-- The bytes of a connection determine what should be made of them. -/
theorem Reports.unique {report other : Report} (hreport : Reports bytes report)
    (hother : Reports bytes other) : report = other := by
  cases hreport with
  | waiting hrequest hendless =>
      cases hother with
      | waiting => rfl
      | requested hstarts hcomplete => exact absurd hcomplete (hrequest _ hstarts)
      | refused hstarts hcomplete => exact absurd hcomplete (hrequest _ hstarts)
      | endless hstarts hcaught => exact absurd hcaught (hendless _ hstarts)
  | requested hstarts hcomplete hline =>
      cases hother with
      | waiting hrequest => exact absurd hcomplete (hrequest _ hstarts)
      | requested hstarts' hcomplete' hline' =>
          obtain rfl := hcomplete.unique hcomplete' hstarts hstarts'
          rw [hline] at hline'
          cases hline'
          rfl
      | refused hstarts' hcomplete' hline' =>
          obtain rfl := hcomplete.unique hcomplete' hstarts hstarts'
          rw [hline] at hline'
          cases hline'
      | endless hstarts' hendless => exact absurd hstarts' (hcomplete.not_endless hendless hstarts)
  | refused hstarts hcomplete hline =>
      cases hother with
      | waiting hrequest => exact absurd hcomplete (hrequest _ hstarts)
      | requested hstarts' hcomplete' hline' =>
          obtain rfl := hcomplete.unique hcomplete' hstarts hstarts'
          rw [hline] at hline'
          cases hline'
      | refused hstarts' hcomplete' =>
          obtain rfl := hcomplete.unique hcomplete' hstarts hstarts'
          rfl
      | endless hstarts' hendless => exact absurd hstarts' (hcomplete.not_endless hendless hstarts)
  | endless hstarts hendless =>
      cases hother with
      | waiting _ hnone => exact absurd hendless (hnone _ hstarts)
      | requested hstarts' hcomplete =>
          exact absurd hstarts (hcomplete.not_endless hendless hstarts')
      | refused hstarts' hcomplete => exact absurd hstarts (hcomplete.not_endless hendless hstarts')
      | endless => rfl

variable {grants : ℕ → Bool} (hgrants : ∀ n, grants n = true)

include hgrants

theorem Taken.reports {st : SbStream} {received : Received} (h : Taken grants st bytes received) :
    ∃ report, received.report = some report ∧ Reports bytes report := by
  cases h with
  | waits hsame hbytes hunfinished =>
      exact ⟨_, rfl, hbytes.symm ▸ hunfinished.reports⟩
  | @handles st' hsame hcomplete hstarts =>
      obtain ⟨buf, hbuf, heq⟩ := handleRequest_granted hgrants st'
      rw [heq]
      cases hline : requestOf st'.recvBuf.bytes with
      | none =>
          have hrefused : Reports bytes (.refused buf.bytes) :=
            hbuf ▸ .refused hstarts hcomplete hline
          refine ⟨.refused buf.bytes, ?_, hrefused⟩
          dsimp only [Received.report]
          exact if_pos ⟨rfl, rfl⟩
      | some line =>
          have hrequested : Reports bytes (.requested buf.bytes line.1 line.2) :=
            hbuf ▸ .requested hstarts hcomplete hline
          exact ⟨.requested buf.bytes line.1 line.2, rfl, hrequested⟩
  | hangs hendless hstarts => exact ⟨_, rfl, .endless hstarts hendless⟩

theorem recvPolls_new (id sockfd : ℕ) (now : ℤ) (polls : List (ℤ × List Bytes)) :
    Taken grants (sbStreamNew id sockfd now) (polledBytes polls)
      (recvPolls grants (sbStreamNew id sockfd now) polls) := by
  have hnew : Unfinished (sbStreamNew id sockfd now).recvBuf.bytes .receivingHeader 0 := by
    refine .header fun early hearly hcut => ?_
    obtain rfl := List.prefix_nil.mp hearly
    exact absurd (List.suffix_nil.mp hcut) (by decide)
  exact recvPolls_taken hgrants (sbStreamNew id sockfd now) hnew polls

/-- However the bytes of a connection are cut into pieces and polls, the server makes
of them what should be made of them. -/
theorem recvPolls_report (id sockfd : ℕ) (now : ℤ) (polls : List (ℤ × List Bytes)) :
    ∃ report, (recvPolls grants (sbStreamNew id sockfd now) polls).report = some report ∧
      ∀ other, Reports (polledBytes polls) other ↔ other = report := by
  obtain ⟨report, hreport, hreports⟩ := (recvPolls_new hgrants id sockfd now polls).reports hgrants
  refine ⟨report, hreport, fun other => ⟨fun hother => hother.unique hreports, ?_⟩⟩
  rintro rfl
  exact hreports

omit hgrants in
/-- A request cut in its line end. -/
theorem recvPolls_report_cut :
    ∃ report, (recvPolls (fun _ => true) (sbStreamNew 1 5 100)
        [(101, [bytesOf "GET /", bytesOf "qrcode HTTP/1.1" ++ [cr]]),
          (103, [lf :: crlf])]).report = some report ∧
      ∀ other, Reports (polledBytes [(101, [bytesOf "GET /", bytesOf "qrcode HTTP/1.1" ++ [cr]]),
          (103, [lf :: crlf])]) other ↔ other = report :=
  recvPolls_report (fun _ => rfl) 1 5 100 _

end Reports

end FeedsService.Http
