import FeedsService.Http.Replies

/-!
# How a connection moves on

Whatever memory and sockets do, a connection keeps its identity and goes through its
states in their order, and receiving into it reads no byte that is not there.
-/

namespace FeedsService.Http

open FeedsService.Library

/-- A later state of the same connection. -/
structure Follows (st st' : SbStream) : Prop where
  id : st'.id = st.id
  sockfd : st'.sockfd = st.sockfd
  initTime : st'.initTime = st.initTime
  rank : st.state.rank ≤ st'.state.rank

theorem Follows.refl (st : SbStream) : Follows st st :=
  ⟨rfl, rfl, rfl, le_rfl⟩

theorem Follows.trans {st st' st'' : SbStream} (h : Follows st st') (h' : Follows st' st'') :
    Follows st st'' where
  id := h'.id.trans h.id
  sockfd := h'.sockfd.trans h.sockfd
  initTime := h'.initTime.trans h.initTime
  rank := h.rank.trans h'.rank

theorem rank_le_closing (state : StreamState) : state.rank ≤ StreamState.closing.rank := by
  cases state <;> decide

theorem sbStreamClose_follows (st : SbStream) : Follows st (sbStreamClose st) :=
  ⟨rfl, rfl, rfl, rank_le_closing _⟩

/-- The connection still receives. -/
def SbStream.Receives (st : SbStream) : Prop :=
  st.state.rank < StreamState.sendingStatus.rank

section Receiving

/-- What receiving can come to. -/
inductive Advances (grants : ℕ → Bool) (st : SbStream) : Received → Prop
  | goesOn {st' : SbStream} (hfollows : Follows st st') (hreceives : st'.Receives) :
      Advances grants st (.goesOn st')
  | requested {st' : SbStream} {method path : Bytes} (hfollows : Follows st st')
      (hstate : st'.state = .sendingStatus) : Advances grants st (.requested st' method path)
  | returns {st' : SbStream} {code : ℤ} (hfollows : Follows st st')
      (hcode : (∀ n, grants n = true) → code = sbESuccess) : Advances grants st (.returns st' code)
  | hangs : Advances grants st .hangs

theorem Advances.of_follows {st st' : SbStream} {received : Received}
    (h : Advances grants st' received) (hfollows : Follows st st') :
    Advances grants st received := by
  cases h with
  | goesOn hlater hreceives => exact .goesOn (hfollows.trans hlater) hreceives
  | requested hlater hstate => exact .requested (hfollows.trans hlater) hstate
  | returns hlater hcode => exact .returns (hfollows.trans hlater) hcode
  | hangs => exact .hangs

variable (grants : ℕ → Bool) {st : SbStream}

theorem handleRequest_advances (hreceives : st.Receives) :
    Advances grants st (handleRequest grants st) := by
  have hrank : st.state.rank ≤ StreamState.sendingStatus.rank := hreceives.le
  rw [handleRequest]
  dsimp only
  cases hbuf : st.recvBuf.nullTerminate grants with
  | none =>
      refine .returns ⟨rfl, rfl, rfl, hrank⟩ fun hgrants => ?_
      obtain ⟨buf, hgranted⟩ := SbBuffer.nullTerminate_granted hgrants st.recvBuf
      cases hbuf.symm.trans hgranted
  | some buf =>
      dsimp only
      cases hscan : scanRequestLine (cString buf.bytes) with
      | none => exact .returns ⟨rfl, rfl, rfl, rank_le_closing _⟩ fun _ => rfl
      | some line =>
          have hpath := zero_notMem_of_scan (zero_notMem_cString _) hscan
          have hver : memEqual (line.ver ++ [0]) (bytesOf "HTTP") 4 =
              .ok (decide (bytesOf "HTTP" <+: line.ver)) := memEqual_text (by decide) line.ver []
          dsimp only
          rw [hver]
          by_cases hhttp : bytesOf "HTTP" <+: line.ver
          · obtain ⟨path, hdecoded, -⟩ := urlDecode_bounded hpath [] 512 (by omega) (by omega)
            rw [decide_eq_true hhttp, hdecoded]
            exact .requested ⟨rfl, rfl, rfl, hrank⟩ rfl
          · rw [decide_eq_false hhttp]
            exact .returns ⟨rfl, rfl, rfl, rank_le_closing _⟩ fun _ => rfl

theorem checkComplete_advances (st : SbStream) (hreceives : st.Receives) :
    Advances grants st (checkComplete grants st) := by
  rw [checkComplete]
  split
  · exact handleRequest_advances grants hreceives
  · exact .goesOn (.refl st) hreceives

theorem headerReceived_advances (st : SbStream) (hreceives : st.Receives) :
    Advances grants st (headerReceived grants st) := by
  have hrank : st.state.rank ≤ StreamState.receivingRequest.rank := Nat.lt_succ_iff.mp hreceives
  rw [headerReceived]
  dsimp only
  cases hbuf : st.recvBuf.nullTerminate grants with
  | none =>
      refine .returns ⟨rfl, rfl, rfl, hrank⟩ fun hgrants => ?_
      obtain ⟨buf, hgranted⟩ := SbBuffer.nullTerminate_granted hgrants st.recvBuf
      cases hbuf.symm.trans hgranted
  | some buf =>
      dsimp only
      rw [← searched]
      cases hsearched : searched buf.bytes with
      | none => exact .hangs
      | some result =>
          have hreceives : StreamState.receivingRequest.rank < StreamState.sendingStatus.rank := by
            decide
          cases result with
          | error fault => exact absurd hsearched (searched_ne_error _ fault)
          | ok found =>
              cases found with
              | none =>
                  refine (handleRequest_advances grants ?_).of_follows ⟨rfl, rfl, rfl, hrank⟩
                  exact hreceives
              | some value =>
                  refine (checkComplete_advances grants _ ?_).of_follows ⟨rfl, rfl, rfl, hrank⟩
                  exact hreceives

theorem recvByte_advances (hreceives : st.Receives) (chr : UInt8) :
    Advances grants st (recvByte grants st chr) := by
  rw [recvByte]
  cases hbuf : st.recvBuf.pushChar grants chr with
  | none =>
      refine .returns (.refl st) fun hgrants => ?_
      obtain ⟨buf, hgranted⟩ := SbBuffer.pushChar_granted hgrants st.recvBuf chr
      cases hbuf.symm.trans hgranted
  | some buf =>
      have hbuf : Follows st { st with recvBuf := buf } := ⟨rfl, rfl, rfl, le_rfl⟩
      dsimp only
      split
      · exact (headerReceived_advances grants { st with recvBuf := buf } hreceives).of_follows hbuf
      · exact (checkComplete_advances grants { st with recvBuf := buf } hreceives).of_follows hbuf

theorem recvBytes_advances (st : SbStream) (hreceives : st.Receives) (piece : Bytes) :
    Advances grants st (recvBytes grants st piece) := by
  induction piece generalizing st with
  | nil => exact .goesOn (.refl st) hreceives
  | cons chr piece ih =>
      have hbyte := recvByte_advances grants hreceives chr
      rw [recvBytes]
      generalize recvByte grants st chr = received at hbyte
      cases hbyte with
      | goesOn hfollows hlater => exact (ih _ hlater).of_follows hfollows
      | requested hfollows hstate => exact .requested hfollows hstate
      | returns hfollows hcode => exact .returns hfollows hcode
      | hangs => exact .hangs

theorem sbStreamRecv_advances (hreceives : st.Receives) (now : ℤ) (pieces : List Bytes)
    (ended : Bool) : Advances grants st (sbStreamRecv grants now st pieces ended) := by
  induction pieces generalizing st with
  | nil =>
      cases ended with
      | false => exact .returns (.refl st) fun _ => rfl
      | true => exact .returns (sbStreamClose_follows st) fun _ => rfl
  | cons piece pieces ih =>
      have hpiece := recvBytes_advances grants { st with lastActivity := now } hreceives piece
      rw [sbStreamRecv]
      generalize recvBytes grants { st with lastActivity := now } piece = received at hpiece
      have hnow : Follows st { st with lastActivity := now } := ⟨rfl, rfl, rfl, le_rfl⟩
      cases hpiece with
      | goesOn hfollows hlater => exact (ih hlater).of_follows (hnow.trans hfollows)
      | requested hfollows hstate => exact .requested (hnow.trans hfollows) hstate
      | returns hfollows hcode => exact .returns (hnow.trans hfollows) hcode
      | hangs => exact .hangs

end Receiving

section Sending

theorem sendData_follows (now : ℤ) (st : SbStream) (result : SendResult) :
    Follows st (sendData now st result).stream := by
  cases result with
  | sent count hpos => exact ⟨rfl, rfl, rfl, le_rfl⟩
  | wouldBlock => exact .refl st
  | failed => exact sbStreamClose_follows st

theorem sbStreamSend_follows (grants : ℕ → Bool) (now : ℤ) (st : SbStream)
    (result : SendResult) : Follows st (sbStreamSend grants now st result).stream := by
  unfold sbStreamSend
  split
  · exact sendData_follows now st result
  · split
    · rename_i file _
      split
      · exact .refl st
      · rename_i buf _
        have hread : Follows st
            { st with sendBuf := buf.read file, sendFp := some (file.drop buf.cap) } :=
          ⟨rfl, rfl, rfl, le_rfl⟩
        dsimp only
        split
        · exact hread.trans (sendData_follows now _ result)
        · exact ⟨rfl, rfl, rfl, le_rfl⟩
    · exact sbStreamClose_follows st

end Sending

section Handling

variable {grants : ℕ → Bool} {st first : SbStream}

theorem push_follows {text : Bytes} {next : SbStream → SbStream × ℤ} (hfirst : Follows st first)
    (hnext : ∀ st', Follows st st' → st'.state = first.state → Follows st (next st').1) :
    Follows st (first.push grants text next).1 := by
  have hpushed : ∀ buf, Follows st { first with sendBuf := buf } :=
    fun buf => hfirst.trans ⟨rfl, rfl, rfl, le_rfl⟩
  rw [SbStream.push]
  dsimp only
  split
  · exact hnext _ (hpushed _) rfl
  · exact hpushed _

theorem orReturn_follows {result : SbStream × ℤ} {next : SbStream → SbStream × ℤ}
    (hresult : Follows st result.1) (hnext : Follows st (next result.1).1) :
    Follows st (orReturn result next).1 := by
  rw [orReturn]
  split
  · exact hnext
  · exact hresult

theorem sbSendStatus_follows (hfirst : Follows st first) (code : ℕ) (msg : String) :
    Follows st (sbSendStatus grants first code msg).1 := by
  rw [sbSendStatus]
  split
  · exact hfirst
  · rename_i hstate
    refine push_follows hfirst fun st' hfollows hsame => hfollows.trans ⟨rfl, rfl, rfl, ?_⟩
    have hrank : st'.state.rank = StreamState.sendingStatus.rank := by
      rw [hsame, not_not.mp hstate]
    rw [hrank]
    exact (by decide : StreamState.sendingStatus.rank ≤ StreamState.sendingHeader.rank)

theorem impliedStatus_follows (grants : ℕ → Bool) (hfirst : Follows st first) :
    Follows st (impliedStatus grants first).1 := by
  rw [impliedStatus]
  split
  · exact sbSendStatus_follows hfirst 200 "OK"
  · exact hfirst

theorem sbStreamFinalizeHeader_follows (grants : ℕ → Bool) (hfirst : Follows st first)
    (hrank : st.state.rank ≤ StreamState.sendingData.rank) :
    Follows st (sbStreamFinalizeHeader grants first).1 := by
  rw [sbStreamFinalizeHeader]
  have himplied := impliedStatus_follows grants hfirst
  refine orReturn_follows himplied (push_follows himplied fun st' hfollows _ => ?_)
  exact ⟨hfollows.id, hfollows.sockfd, hfollows.initTime, hrank⟩

theorem sbSendHeader_follows (grants : ℕ → Bool) (hfirst : Follows st first) (field : String)
    (val : Bytes) :
    Follows st (sbSendHeader grants first field val).1 := by
  rw [sbSendHeader]
  have himplied := impliedStatus_follows grants hfirst
  split
  · exact hfirst
  · exact orReturn_follows himplied (push_follows himplied fun st' hfollows _ => hfollows)

theorem sbSendFile_follows (grants : ℕ → Bool) (hfirst : Follows st first) (file : Option Bytes) :
    Follows st (sbSendFile grants first file).1 := by
  unfold sbSendFile
  split
  · exact hfirst
  · rename_i hrank
    split
    · exact hfirst
    · have hearly : st.state.rank ≤ StreamState.sendingHeader.rank :=
        hfirst.rank.trans (not_lt.mp hrank)
      have hheader := sbSendHeader_follows grants hfirst "Content-Length"
        (bytesOf (toString (List.length ‹Bytes› % 2 ^ 32)))
      have hdata : StreamState.sendingHeader.rank ≤ StreamState.sendingData.rank := by decide
      have hfile : StreamState.sendingHeader.rank ≤ StreamState.sendingFile.rank := by decide
      have hfinal := sbStreamFinalizeHeader_follows grants hheader (hearly.trans hdata)
      refine orReturn_follows hheader (orReturn_follows hfinal ?_)
      exact ⟨hfinal.id, hfinal.sockfd, hfinal.initTime, hearly.trans hfile⟩

theorem sbWrite_follows (hfirst : Follows st first) (data : Bytes) :
    Follows st (sbWrite grants first data).1 := by
  rw [sbWrite]
  have hfinal : Follows st (if first.state.rank < StreamState.sendingData.rank then
      sbStreamFinalizeHeader grants first else (first, sbESuccess)).1 := by
    split
    · rename_i hrank
      exact sbStreamFinalizeHeader_follows grants hfirst (hfirst.rank.trans hrank.le)
    · exact hfirst
  generalize (if first.state.rank < StreamState.sendingData.rank then
    sbStreamFinalizeHeader grants first else (first, sbESuccess)) = result at hfinal ⊢
  refine orReturn_follows hfinal ?_
  by_cases hstate : result.1.state ≠ .sendingData
  · rw [if_pos hstate]
    exact hfinal
  · rw [if_neg hstate]
    exact push_follows hfinal fun st' hfollows _ => hfollows

theorem finish_follows (hfirst : Follows st first) (status : ℕ) :
    Follows st (finish grants first status).1 :=
  sbSendStatus_follows hfirst status _

/-- The handler only moves its connection on. -/
theorem hdlHttpReq_follows (grants : ℕ → Bool) (env : HttpEnv) (event : SbEvent) (st : SbStream) :
    Follows st (hdlHttpReq grants env event st).1 ∧
      (hdlHttpReq grants env event st).2 = sbResOk := by
  cases event with
  | connect | close => exact ⟨.refl st, rfl⟩
  | request method path =>
      have hrefl := Follows.refl st
      rw [hdlHttpReq]
      split
      · have hheader := sbSendHeader_follows grants hrefl "Content-Type"
          (bytesOf "text/json")
        dsimp only
        split
        · exact ⟨finish_follows hheader _, rfl⟩
        · split
          · exact ⟨finish_follows (sbWrite_follows hheader _) _, rfl⟩
          · exact ⟨sbWrite_follows hheader _, rfl⟩
      · split
        · exact ⟨finish_follows hrefl _, rfl⟩
        · rename_i image _
          have hheader := sbSendHeader_follows grants hrefl "Content-Type"
            (bytesOf "image/png")
          have hfile := sbSendFile_follows grants hheader
            (if env.opens then some image else none)
          dsimp only
          split
          · exact ⟨finish_follows hheader _, rfl⟩
          · generalize sbSendFile grants _ (if env.opens then some image else none) = sent
              at hfile ⊢
            split
            · exact ⟨finish_follows hfile _, rfl⟩
            · exact ⟨finish_follows hfile _, rfl⟩

end Handling

end FeedsService.Http
