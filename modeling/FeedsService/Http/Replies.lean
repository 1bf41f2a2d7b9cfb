import FeedsService.Http.Requests

/-!
# The reply of a connection

A reply goes into the buffer of its connection, with a file behind it, and from
there to the socket in as many pieces as `send` takes.  `hdl_http_req` of `did.c`
answers with the URL of the service as text or as a picture.
-/

namespace FeedsService.Http

open FeedsService.Library

section Sending

/-- What a connection has still to send. -/
def SbStream.pending (st : SbStream) : Bytes :=
  st.sendBuf.bytes ++ st.sendFp.getD []

/-- Everything else of a connection stays when it sends. -/
def SendResult.IsSent : SendResult → Prop
  | .sent _ _ => True
  | _ => False

/-- The connection after a send, and what is still to be sent. -/
inductive Sends (st : SbStream) (result : SendResult) (sent : Sent) : Prop
  | goesOn (hcode : sent.code = sbESuccess) (hstate : sent.stream.state = st.state)
      (hpending : sent.wire ++ sent.stream.pending = st.pending)
      (hless : result.IsSent → sent.stream.pending.length + sent.stream.sendFp.toList.length <
        st.pending.length + st.sendFp.toList.length)
  | ends (hcode : sent.code = sbESuccess) (hstate : sent.stream.state = .closing)
      (hwire : sent.wire = st.pending)
  | breaks (hcode : sent.code = sbESuccess) (hstate : sent.stream.state = .closing)
      (hwire : sent.wire = []) (hfailed : result = .failed)

theorem Sends.of_same {st st' : SbStream} {result : SendResult} {sent : Sent}
    (h : Sends st' result sent) (hstate : st'.state = st.state)
    (hpending : st'.pending = st.pending)
    (hfp : st'.sendFp.toList.length = st.sendFp.toList.length) : Sends st result sent := by
  cases h with
  | goesOn hcode hstate' hpending' hless =>
      rw [hpending] at hpending' hless
      rw [hfp] at hless
      exact .goesOn hcode (hstate'.trans hstate) hpending' hless
  | ends hcode hstate' hwire => exact .ends hcode hstate' (hwire.trans hpending)
  | breaks hcode hstate' hwire hfailed => exact .breaks hcode hstate' hwire hfailed

theorem Sends.code {st : SbStream} {result : SendResult} {sent : Sent} (h : Sends st result sent) :
    sent.code = sbESuccess := by
  cases h with
  | goesOn hcode | ends hcode | breaks hcode => exact hcode

/-- Handing the bytes of the buffer to the socket. -/
theorem sendData_sends (st : SbStream) (now : ℤ) (hne : st.sendBuf.bytes ≠ [])
    (result : SendResult) : Sends st result (sendData now st result) := by
  cases result with
  | sent count hpos =>
      have hpending : st.sendBuf.bytes.take count ++ (st.sendBuf.bytes.drop count ++
          st.sendFp.getD []) = st.pending := by
        rw [← List.append_assoc, List.take_append_drop]
        rfl
      have hlength := List.length_pos_iff.mpr hne
      refine .goesOn rfl rfl hpending fun _ => ?_
      simp only [sendData, SbStream.pending, SbBuffer.bytes_shift, List.length_append,
        List.length_drop]
      omega
  | wouldBlock => exact .goesOn rfl rfl rfl fun h => h.elim
  | failed => exact .breaks rfl rfl rfl rfl

variable {grants : ℕ → Bool} (hgrants : ∀ n, grants n = true)

include hgrants

theorem reserve_granted (buf : SbBuffer) (n : ℕ) :
    ∃ reserved, buf.reserve grants n = some reserved := by
  unfold SbBuffer.reserve
  rw [hgrants]
  split <;> exact ⟨_, rfl⟩

/-- One call of `sb_stream_send`. -/
theorem sbStreamSend_sends (now : ℤ) (st : SbStream) (result : SendResult) :
    Sends st result (sbStreamSend grants now st result) := by
  unfold sbStreamSend
  by_cases hne : st.sendBuf.bytes ≠ []
  · rw [if_pos hne]
    exact sendData_sends st now hne result
  · rw [if_neg hne]
    have hempty : st.sendBuf.bytes = [] := not_not.mp hne
    cases hfp : st.sendFp with
    | none =>
        refine .ends rfl rfl ?_
        rw [SbStream.pending, hempty, hfp]
        rfl
    | some file =>
        obtain ⟨buf, hbuf⟩ := reserve_granted hgrants st.sendBuf 8192
        have hcap := (SbBuffer.bytes_reserve hbuf).2
        dsimp only
        rw [hbuf]
        dsimp only
        have hpending : st.pending = file := by
          rw [SbStream.pending, hempty, hfp]
          rfl
        by_cases hread : (buf.read file).bytes ≠ []
        · rw [if_pos hread]
          have hsends := sendData_sends
            { st with sendBuf := buf.read file, sendFp := some (file.drop buf.cap) } now hread
            result
          have hsame : SbStream.pending
              { st with sendBuf := buf.read file, sendFp := some (file.drop buf.cap) } =
              st.pending := by
            rw [hpending, SbStream.pending]
            exact List.take_append_drop buf.cap file
          exact hsends.of_same rfl hsame (by simp [hfp])
        · rw [if_neg hread]
          have hfile : file = [] := by
            have hnil : file.take buf.cap = [] := not_not.mp hread
            rw [List.take_eq_nil_iff] at hnil
            obtain hzero | hnil := hnil
            · omega
            · exact hnil
          have hbytes : (buf.read file).bytes = [] := not_not.mp hread
          subst hfile
          refine .goesOn rfl rfl ?_ fun _ => ?_
          · simp [SbStream.pending, hbytes, hempty, hfp]
          · simp [SbStream.pending, hbytes, hfp]

omit hgrants in
/-- The polls of a connection that sends: the time of each and what the socket does.  No limit
of the server ends the connection in between. -/
def sendPolls (grants : ℕ → Bool) : SbStream → List (ℤ × SendResult) → SbStream × Bytes
  | st, [] => (st, [])
  | st, (now, result) :: polls =>
      if st.state = .closing then
        (st, [])
      else
        let sent := sbStreamSend grants now st result
        let rest := sendPolls grants sent.stream polls
        (rest.1, sent.wire ++ rest.2)

/-- However the socket takes them, the bytes go out in order, none lost and none twice. -/
theorem sendPolls_pending {st : SbStream} (hopen : st.state ≠ .closing)
    (polls : List (ℤ × SendResult)) (hfailed : ∀ poll ∈ polls, poll.2 ≠ .failed) :
    ((sendPolls grants st polls).1.state = .closing ∧ (sendPolls grants st polls).2 = st.pending) ∨
      ((sendPolls grants st polls).1.state = st.state ∧
        (sendPolls grants st polls).2 ++ (sendPolls grants st polls).1.pending = st.pending) := by
  induction polls generalizing st with
  | nil => exact Or.inr ⟨rfl, rfl⟩
  | cons poll polls ih =>
      obtain ⟨now, result⟩ := poll
      rw [sendPolls, if_neg hopen]
      dsimp only
      have hrest : ∀ poll ∈ polls, poll.2 ≠ .failed :=
        fun poll hpoll => hfailed poll (List.mem_cons_of_mem _ hpoll)
      generalize hsent : sbStreamSend grants now st result = sent
      cases hsent ▸ sbStreamSend_sends hgrants now st result with
      | goesOn hcode hstate hpending hless =>
          obtain ⟨hclosed, hwire⟩ | ⟨hsame, hwire⟩ := ih (hstate ▸ hopen) hrest
          · exact Or.inl ⟨hclosed, by rw [hwire, hpending]⟩
          · exact Or.inr ⟨hsame.trans hstate, by rw [List.append_assoc, hwire, hpending]⟩
      | ends hcode hstate hwire =>
          have hclosed : sendPolls grants sent.stream polls = (sent.stream, []) := by
            cases polls with
            | nil => rfl
            | cons poll polls => rw [sendPolls, if_pos hstate]
          rw [hclosed]
          exact Or.inl ⟨hstate, by rw [hwire, List.append_nil]⟩
      | breaks hcode hstate hwire hfail => exact absurd hfail (hfailed _ List.mem_cons_self)

/-- A socket that keeps taking bytes gets all of them, and the connection is closed. -/
theorem sendPolls_closes {st : SbStream} (hopen : st.state ≠ .closing)
    (polls : List (ℤ × SendResult)) (hsent : ∀ poll ∈ polls, poll.2.IsSent)
    (hlong : st.pending.length + st.sendFp.toList.length < polls.length) :
    (sendPolls grants st polls).1.state = .closing := by
  induction polls generalizing st with
  | nil => exact absurd hlong (Nat.not_lt_zero _)
  | cons poll polls ih =>
      obtain ⟨now, result⟩ := poll
      rw [sendPolls, if_neg hopen]
      dsimp only
      have hrest : ∀ poll ∈ polls, poll.2.IsSent :=
        fun poll hpoll => hsent poll (List.mem_cons_of_mem _ hpoll)
      generalize hsend : sbStreamSend grants now st result = sent
      have hclosed : ∀ st' : SbStream, st'.state = .closing →
          (sendPolls grants st' polls).1.state = .closing := by
        intro st' hstate
        cases polls with
        | nil => exact hstate
        | cons poll polls =>
            rw [sendPolls, if_pos hstate]
            exact hstate
      cases hsend ▸ sbStreamSend_sends hgrants now st result with
      | goesOn hcode hstate hpending hless =>
          have := hless (hsent _ List.mem_cons_self)
          rw [List.length_cons] at hlong
          exact ih (hstate ▸ hopen) hrest (by omega)
      | ends hcode hstate hwire => exact hclosed _ hstate
      | breaks hcode hstate hwire hfail => exact hclosed _ hstate

end Sending

section Handler

/-- What `hdl_http_req` depends on: the URL, the picture that `qrencode` writes or that
it fails, and whether the file can be opened again. -/
structure HttpEnv where
  feedsUrl : Bytes
  qrencode : Option Bytes
  opens : Bool

def feedsUrlJson (feedsUrl : Bytes) : Bytes :=
  bytesOf "\x7b\"feedsURL\":\"" ++ feedsUrl ++ bytesOf "\"\x7d"

def qrcodePath : Bytes :=
  bytesOf "/qrcode"

/-- `finally` of `hdl_http_req`. -/
def finish (grants : ℕ → Bool) (st : SbStream) (status : ℕ) : SbStream × ℤ :=
  ((sbSendStatus grants st status (if status = 200 then "OK" else "Internal Server Error")).1,
    sbResOk)

/-- `hdl_http_req`. -/
def hdlHttpReq (grants : ℕ → Bool) (env : HttpEnv) : SbHandler
  | .request _ path, st =>
      if path = qrcodePath then
        let header := sbSendHeader grants st "Content-Type" (bytesOf "text/json")
        if header.2 < 0 then
          finish grants header.1 501
        else
          let written := sbWrite grants header.1 (feedsUrlJson env.feedsUrl)
          if written.2 < 0 then finish grants written.1 501 else (written.1, sbResOk)
      else
        match env.qrencode with
        | none => finish grants st 501
        | some image =>
            let header := sbSendHeader grants st "Content-Type" (bytesOf "image/png")
            if header.2 < 0 then
              finish grants header.1 501
            else
              let sent := sbSendFile grants header.1 (if env.opens then some image else none)
              if sent.2 < 0 then finish grants sent.1 501 else finish grants sent.1 200
  | _, st => (st, sbResOk)

/-- All that the service sends for a path.  A header that has been started cannot be
taken back when the file is missing. -/
def HttpEnv.reply (env : HttpEnv) (path : Bytes) : Bytes :=
  if path = qrcodePath then
    statusLine 200 "OK" ++ headerLine "Content-Type" (bytesOf "text/json") ++ crlf ++
      feedsUrlJson env.feedsUrl
  else
    match env.qrencode with
    | none => statusLine 501 "Internal Server Error"
    | some image =>
        statusLine 200 "OK" ++ headerLine "Content-Type" (bytesOf "image/png") ++
          if env.opens then
            headerLine "Content-Length" (bytesOf (toString (image.length % 2 ^ 32))) ++ crlf ++
              image
          else
            []

end Handler

section Replying

/-- The text has been put behind what the connection had to send. -/
structure Wrote (st : SbStream) (text : Bytes) (state : StreamState) (st' : SbStream) : Prop where
  bytes : st'.sendBuf.bytes = st.sendBuf.bytes ++ text
  sendFp : st'.sendFp = st.sendFp
  state : st'.state = state

theorem Wrote.trans {st st' st'' : SbStream} {text more : Bytes} {state state' : StreamState}
    (h : Wrote st text state st') (h' : Wrote st' more state' st'') :
    Wrote st (text ++ more) state' st'' where
  bytes := by rw [h'.bytes, h.bytes, List.append_assoc]
  sendFp := h'.sendFp.trans h.sendFp
  state := h'.state

variable {grants : ℕ → Bool} (hgrants : ∀ n, grants n = true)

include hgrants

theorem push_granted (st : SbStream) (text : Bytes) (next : SbStream → SbStream × ℤ) :
    ∃ st', Wrote st text st.state st' ∧ st.push grants text next = next st' := by
  obtain ⟨⟨buf, complete⟩, hpush⟩ : ∃ pushed, st.sendBuf.pushStr grants text = pushed :=
    ⟨_, rfl⟩
  have hcomplete := SbBuffer.pushStr_granted hgrants st.sendBuf text
  rw [hpush] at hcomplete
  have hbytes := SbBuffer.bytes_pushStr hpush
  rw [if_pos hcomplete] at hbytes
  refine ⟨{ st with sendBuf := buf }, ⟨hbytes, rfl, rfl⟩, ?_⟩
  rw [SbStream.push, hpush]
  exact if_pos hcomplete

theorem sbSendStatus_wrote {st : SbStream} (hstate : st.state = .sendingStatus) (code : ℕ)
    (msg : String) : ∃ st', sbSendStatus grants st code msg = (st', sbESuccess) ∧
      Wrote st (statusLine code msg) .sendingHeader st' := by
  rw [sbSendStatus, if_neg (not_not.mpr hstate)]
  obtain ⟨st', hwrote, hpush⟩ := push_granted hgrants st (statusLine code msg)
    fun st => ({ st with state := .sendingHeader }, sbESuccess)
  exact ⟨_, hpush, hwrote.bytes, hwrote.sendFp, rfl⟩

theorem sbSendHeader_wrote {st : SbStream} (hstate : st.state = .sendingHeader) (field : String)
    (val : Bytes) : ∃ st', sbSendHeader grants st field val = (st', sbESuccess) ∧
      Wrote st (headerLine field val) .sendingHeader st' := by
  have himplied : impliedStatus grants st = (st, sbESuccess) := by
    rw [impliedStatus, hstate]
    rfl
  rw [sbSendHeader, hstate, if_neg (lt_irrefl _), himplied, orReturn, if_pos rfl]
  obtain ⟨st', hwrote, hpush⟩ := push_granted hgrants st (headerLine field val)
    fun st => (st, sbESuccess)
  exact ⟨st', hpush, hstate ▸ hwrote⟩

/-- The first header of a reply brings its status line with it. -/
theorem sbSendHeader_first {st : SbStream} (hstate : st.state = .sendingStatus) (field : String)
    (val : Bytes) : ∃ st', sbSendHeader grants st field val = (st', sbESuccess) ∧
      Wrote st (statusLine 200 "OK" ++ headerLine field val) .sendingHeader st' := by
  obtain ⟨first, hstatus, hfirst⟩ := sbSendStatus_wrote hgrants hstate 200 "OK"
  have himplied : impliedStatus grants st = (first, sbESuccess) := by
    rw [impliedStatus, hstate, ← hstatus]
    rfl
  rw [sbSendHeader, hstate, if_neg (by decide), himplied, orReturn, if_pos rfl]
  obtain ⟨st', hwrote, hpush⟩ := push_granted hgrants first (headerLine field val)
    fun st => (st, sbESuccess)
  exact ⟨st', hpush, hfirst.trans (hfirst.state ▸ hwrote)⟩

theorem sbStreamFinalizeHeader_wrote {st : SbStream} (hstate : st.state = .sendingHeader) :
    ∃ st', sbStreamFinalizeHeader grants st = (st', sbESuccess) ∧
      Wrote st crlf .sendingData st' := by
  have himplied : impliedStatus grants st = (st, sbESuccess) := by
    rw [impliedStatus, hstate]
    rfl
  rw [sbStreamFinalizeHeader, himplied, orReturn, if_pos rfl]
  obtain ⟨st', hwrote, hpush⟩ := push_granted hgrants st crlf
    fun st => ({ st with state := .sendingData }, sbESuccess)
  exact ⟨_, hpush, hwrote.bytes, hwrote.sendFp, rfl⟩

theorem sbWrite_wrote {st : SbStream} (hstate : st.state = .sendingHeader) (data : Bytes) :
    ∃ st', sbWrite grants st data = (st', sbESuccess) ∧
      Wrote st (crlf ++ data) .sendingData st' := by
  obtain ⟨first, hfinal, hfirst⟩ := sbStreamFinalizeHeader_wrote hgrants hstate
  rw [sbWrite, hstate, if_pos (by decide), hfinal, orReturn, if_pos rfl,
    if_neg (not_not.mpr hfirst.state)]
  obtain ⟨st', hwrote, hpush⟩ := push_granted hgrants first data fun st => (st, sbESuccess)
  exact ⟨st', hpush, hfirst.trans (hfirst.state ▸ hwrote)⟩

theorem sbSendFile_wrote {st : SbStream} (hstate : st.state = .sendingHeader) (content : Bytes) :
    ∃ st', sbSendFile grants st (some content) = (st', sbESuccess) ∧
      st'.sendBuf.bytes = st.sendBuf.bytes ++
        (headerLine "Content-Length" (bytesOf (toString (content.length % 2 ^ 32))) ++ crlf) ∧
      st'.sendFp = some content ∧ st'.state = .sendingFile := by
  obtain ⟨first, hheader, hfirst⟩ := sbSendHeader_wrote hgrants hstate "Content-Length"
    (bytesOf (toString (content.length % 2 ^ 32)))
  obtain ⟨second, hfinal, hsecond⟩ := sbStreamFinalizeHeader_wrote hgrants hfirst.state
  rw [sbSendFile, hstate, if_neg (lt_irrefl _)]
  dsimp only
  rw [hheader, orReturn, if_pos rfl, hfinal, orReturn, if_pos rfl]
  exact ⟨_, rfl, (hfirst.trans hsecond).bytes, rfl, rfl⟩

omit hgrants in
theorem finish_sent {st : SbStream} (hstate : st.state ≠ .sendingStatus) (status : ℕ) :
    finish grants st status = (st, sbResOk) := by
  rw [finish, sbSendStatus, if_pos hstate]

/-- The handler leaves the whole reply to the connection. -/
theorem hdlHttpReq_pending (env : HttpEnv) {st : SbStream} (hstate : st.state = .sendingStatus)
    (hbytes : st.sendBuf.bytes = []) (hfp : st.sendFp = none) (method path : Bytes) :
    ∃ st', hdlHttpReq grants env (.request method path) st = (st', sbResOk) ∧
      st'.pending = env.reply path ∧ st'.state ≠ .closing := by
  rw [hdlHttpReq, HttpEnv.reply]
  by_cases hpath : path = qrcodePath
  · rw [if_pos hpath, if_pos hpath]
    obtain ⟨first, hheader, hfirst⟩ := sbSendHeader_first hgrants hstate "Content-Type"
      (bytesOf "text/json")
    obtain ⟨second, hwrite, hsecond⟩ := sbWrite_wrote hgrants hfirst.state
      (feedsUrlJson env.feedsUrl)
    dsimp only
    rw [hheader]
    dsimp only
    rw [if_neg (by decide), hwrite]
    refine ⟨second, ?_, ?_, hsecond.state ▸ by decide⟩
    · dsimp only
      rw [if_neg (by decide)]
    have hwrote := hfirst.trans hsecond
    rw [SbStream.pending, hwrote.bytes, hwrote.sendFp, hbytes, hfp]
    simp
  · rw [if_neg hpath, if_neg hpath]
    cases hencode : env.qrencode with
    | none =>
        obtain ⟨first, hstatus, hfirst⟩ := sbSendStatus_wrote hgrants hstate 501
          "Internal Server Error"
        refine ⟨first, ?_, ?_, hfirst.state ▸ by decide⟩
        · dsimp only
          rw [finish, if_neg (by decide), hstatus]
        · rw [SbStream.pending, hfirst.bytes, hfirst.sendFp, hbytes, hfp]
          simp
    | some image =>
        obtain ⟨first, hheader, hfirst⟩ := sbSendHeader_first hgrants hstate "Content-Type"
          (bytesOf "image/png")
        dsimp only
        rw [hheader]
        dsimp only
        rw [if_neg (by decide)]
        by_cases hopens : env.opens = true
        · obtain ⟨second, hfile, hsecond, hsendFp, hsending⟩ := sbSendFile_wrote hgrants
            hfirst.state image
          rw [if_pos hopens, if_pos hopens, hfile]
          dsimp only
          rw [if_neg (by decide), finish_sent (hsending ▸ by decide)]
          refine ⟨second, rfl, ?_, hsending ▸ by decide⟩
          rw [SbStream.pending, hsecond, hfirst.bytes, hsendFp, hbytes]
          simp
        · have hmissing : sbSendFile grants first none = (first, sbECantOpen) := by
            rw [sbSendFile, hfirst.state]
            rfl
          rw [if_neg hopens, if_neg hopens, hmissing]
          dsimp only
          rw [if_pos (by decide), finish_sent (hfirst.state ▸ by decide)]
          refine ⟨first, rfl, ?_, hfirst.state ▸ by decide⟩
          rw [SbStream.pending, hfirst.bytes, hfirst.sendFp, hbytes, hfp]
          simp

end Replying

section Exchange

variable {grants : ℕ → Bool} (hgrants : ∀ n, grants n = true)

include hgrants

/-- A request that is in the bytes of a connection is reported with nothing sent yet. -/
theorem recvPolls_requested (id sockfd : ℕ) (now : ℤ) {polls : List (ℤ × List Bytes)}
    {request method path : Bytes}
    (hreports : Reports (polledBytes polls) (.requested request method path)) :
    ∃ st, recvPolls grants (sbStreamNew id sockfd now) polls = .requested st method path ∧
      st.recvBuf.bytes = request ∧ st.state = .sendingStatus ∧ st.sendBuf.bytes = [] ∧
      st.sendFp = none := by
  have htaken := recvPolls_new hgrants id sockfd now polls
  obtain ⟨report, hreport, hreports'⟩ := htaken.reports hgrants
  obtain rfl := hreports.unique hreports'
  generalize recvPolls grants (sbStreamNew id sockfd now) polls = received at htaken hreport
  cases htaken with
  | waits hsame hbytes hunfinished => cases hreport
  | @handles st' hsame hcomplete hstarts =>
      obtain ⟨buf, hbuf, hhandled⟩ := handleRequest_granted hgrants st'
      rw [hhandled] at hreport ⊢
      cases hline : requestOf st'.recvBuf.bytes with
      | none =>
          rw [hline] at hreport
          simp [Received.report] at hreport
      | some line =>
          obtain ⟨method', path'⟩ := line
          rw [hline] at hreport
          cases hreport
          exact ⟨_, rfl, rfl, rfl, hsame.sendBuf ▸ rfl, hsame.sendFp⟩
  | hangs hendless hstarts => cases hreport

/-- A whole exchange: however the request is cut into pieces and however little the socket takes
at a time, what goes out is the reply for the path of the request, and then the connection is
closed. -/
theorem exchange_wire (env : HttpEnv) (id sockfd : ℕ) (now : ℤ) (recvs : List (ℤ × List Bytes))
    (sends : List (ℤ × SendResult)) {request method path : Bytes} (hcomplete : Complete request)
    (hstarts : request <+: polledBytes recvs) (hline : requestOf request = some (method, path))
    (hsent : ∀ poll ∈ sends, poll.2.IsSent) (hlong : (env.reply path).length + 1 < sends.length) :
    ∃ st replied, recvPolls grants (sbStreamNew id sockfd now) recvs = .requested st method path ∧
      sbStreamEmit (hdlHttpReq grants env) st (.request method path) = (replied, sbESuccess) ∧
      (sendPolls grants replied sends).1.state = .closing ∧
      (sendPolls grants replied sends).2 = env.reply path := by
  obtain ⟨st, hrecv, -, hstate, hbytes, hfp⟩ := recvPolls_requested hgrants id sockfd now
    (.requested hstarts hcomplete hline)
  obtain ⟨replied, hhandler, hpending, hopen⟩ := hdlHttpReq_pending hgrants env hstate hbytes hfp
    method path
  refine ⟨st, replied, hrecv, ?_, ?_⟩
  · rw [sbStreamEmit, hhandler]
    rfl
  have hfew : replied.sendFp.toList.length ≤ 1 := by cases replied.sendFp <;> simp
  have hclosed := sendPolls_closes hgrants hopen sends hsent (by rw [hpending]; omega)
  refine ⟨hclosed, ?_⟩
  have hnone : ∀ poll ∈ sends, poll.2 ≠ .failed := by
    intro poll hpoll hfailed
    have := hsent poll hpoll
    rw [hfailed] at this
    exact this
  obtain ⟨-, hwire⟩ | ⟨hsame, -⟩ := sendPolls_pending hgrants hopen sends hnone
  · rw [hwire, hpending]
  · exact absurd (hsame.symm.trans hclosed) hopen

omit hgrants in
/-- A request for the URL that comes in two pieces, and a socket that takes seven bytes at a
time. -/
theorem exchange_wire_qrcode :
    let env : HttpEnv := ⟨bytesOf "feeds://did/address", none, false⟩
    let recvs : List (ℤ × List Bytes) :=
      [(1, [bytesOf "GET /qrc"]), (2, [bytesOf "ode HTTP/1.1" ++ crlf ++ crlf])]
    let sends : List (ℤ × SendResult) := List.replicate 200 (3, .sent 7 (by decide))
    ∃ st replied, recvPolls (fun _ => true) (sbStreamNew 1 5 0) recvs =
        .requested st (bytesOf "GET") qrcodePath ∧
      sbStreamEmit (hdlHttpReq (fun _ => true) env) st (.request (bytesOf "GET") qrcodePath) =
        (replied, sbESuccess) ∧
      (sendPolls (fun _ => true) replied sends).1.state = .closing ∧
      (sendPolls (fun _ => true) replied sends).2 = env.reply qrcodePath := by
  intro env recvs sends
  have hhead : IsHead (bytesOf "GET /qrcode HTTP/1.1" ++ crlf ++ crlf) := by decide
  have hnone : searched (bytesOf "GET /qrcode HTTP/1.1" ++ crlf ++ crlf) = some (.ok none) := by
    decide
  refine exchange_wire (fun _ => rfl) env 1 5 0 recvs sends (.plain hhead hnone) (by decide)
    (by decide) ?_ (by decide +kernel)
  intro poll hpoll
  rw [List.eq_of_mem_replicate hpoll]
  trivial

end Exchange

end FeedsService.Http
