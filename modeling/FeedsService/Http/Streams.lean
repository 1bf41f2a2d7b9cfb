import FeedsService.Http.Buffers
import FeedsService.Http.Headers

/-!
# Connections of the web server

`sb_Stream` of `sandbird.c` and the functions that receive a request into it and
send a reply from it.  A function that returns an error code has changed the
stream up to the call that failed, as in the source.  What a socket does is an
argument: the pieces that `recv` gives before it would block or the connection
ends, and what `send` takes.

The remote address is left out, and so is `data_idx`, which only `sb_get_var`
reads.
-/

namespace FeedsService.Http

open FeedsService.Library

inductive StreamState
  | receivingHeader
  | receivingRequest
  | sendingStatus
  | sendingHeader
  | sendingData
  | sendingFile
  | closing
  deriving DecidableEq

/-- The order in which the states are declared. -/
def StreamState.rank : StreamState → ℕ
  | .receivingHeader => 0
  | .receivingRequest => 1
  | .sendingStatus => 2
  | .sendingHeader => 3
  | .sendingData => 4
  | .sendingFile => 5
  | .closing => 6

/-- `id` stands for the address of the object, and the open file for what is left
to read of it. -/
structure SbStream where
  id : ℕ
  state : StreamState
  initTime : ℤ
  lastActivity : ℤ
  expectedRecvLen : ℕ
  sockfd : ℕ
  recvBuf : SbBuffer
  sendBuf : SbBuffer
  sendFp : Option Bytes
  deriving DecidableEq

def sbESuccess : ℤ := 0
def sbEOutOfMem : ℤ := -2
def sbEBadState : ℤ := -4
def sbEBadResult : ℤ := -5
def sbECantOpen : ℤ := -6
def sbEFdTooBig : ℤ := -8

def sbResOk : ℤ := 0
def sbResClose : ℤ := 1

inductive SbEvent
  | connect
  | close
  | request (method path : Bytes)
  deriving DecidableEq

/-- An event handler: what it does to the stream through the functions of the
library, and its result. -/
abbrev SbHandler := SbEvent → SbStream → SbStream × ℤ

/-- `sb_stream_new`. -/
def sbStreamNew (id sockfd : ℕ) (now : ℤ) : SbStream where
  id := id
  state := .receivingHeader
  initTime := now
  lastActivity := now
  expectedRecvLen := 0
  sockfd := sockfd
  recvBuf := .init
  sendBuf := .init
  sendFp := none

/-- `sb_stream_close`. -/
def sbStreamClose (st : SbStream) : SbStream :=
  { st with state := .closing }

/-- `sb_stream_emit`. -/
def sbStreamEmit (handler : SbHandler) (st : SbStream) (e : SbEvent) : SbStream × ℤ :=
  let (st, res) := handler e st
  if res < 0 then (st, res)
  else if res = sbResClose then (sbStreamClose st, sbESuccess)
  else if res = sbResOk then (st, sbESuccess)
  else (st, sbEBadResult)

section Receiving

/-- Where the loop of `sb_stream_recv` is after a byte: it takes the next one, it
has a request to report, or it returns; or it is caught in the search for a
header field, or faults. -/
inductive Received
  | goesOn (st : SbStream)
  | requested (st : SbStream) (method path : Bytes)
  | returns (st : SbStream) (code : ℤ)
  | hangs
  | faults (fault : Fault)
  deriving DecidableEq

def contentLength : Bytes :=
  bytesOf "Content-Length"

/-- What `sb_stream_recv` does at `handle_request`, up to the event. -/
def handleRequest (grants : ℕ → Bool) (st : SbStream) : Received :=
  let st := { st with state := .sendingStatus }
  match st.recvBuf.nullTerminate grants with
  | none => .returns st sbEOutOfMem
  | some buf =>
      let st := { st with recvBuf := buf }
      match scanRequestLine (cString buf.bytes) with
      | none => .returns (sbStreamClose st) sbESuccess
      | some line =>
          match memEqual (line.ver ++ [0]) (bytesOf "HTTP") 4 with
          | .error fault => .faults fault
          | .ok false => .returns (sbStreamClose st) sbESuccess
          | .ok true =>
              match urlDecode (line.path ++ [0]) 512 with
              | .error fault => .faults fault
              | .ok (path, _) => .requested st line.method (cString path)

/-- Whether all the data that is expected is there. -/
def checkComplete (grants : ℕ → Bool) (st : SbStream) : Received :=
  if st.expectedRecvLen = st.recvBuf.bytes.length then handleRequest grants st else .goesOn st

/-- What `sb_stream_recv` does when it has the whole header. -/
def headerReceived (grants : ℕ → Bool) (st : SbStream) : Received :=
  let st := { st with state := .receivingRequest }
  match st.recvBuf.nullTerminate grants with
  | none => .returns st sbEOutOfMem
  | some buf =>
      let st := { st with recvBuf := buf }
      match findHeaderValue (buf.bytes ++ [0]) contentLength with
      | none => .hangs
      | some (.error fault) => .faults fault
      | some (.ok none) => handleRequest grants st
      | some (.ok (some value)) =>
          checkComplete grants
            { st with expectedRecvLen := buf.bytes.length + strToUint (cString value) }

/-- One byte of the loop of `sb_stream_recv`. -/
def recvByte (grants : ℕ → Bool) (st : SbStream) (chr : UInt8) : Received :=
  match st.recvBuf.pushChar grants chr with
  | none => .returns st sbEOutOfMem
  | some buf =>
      let st := { st with recvBuf := buf }
      if st.state = .receivingHeader ∧ crlf ++ crlf <:+ buf.bytes then
        headerReceived grants st
      else
        checkComplete grants st

/-- One piece of data. -/
def recvBytes (grants : ℕ → Bool) : SbStream → Bytes → Received
  | st, [] => .goesOn st
  | st, chr :: bytes =>
      match recvByte grants st chr with
      | .goesOn st => recvBytes grants st bytes
      | received => received

/-- `sb_stream_recv`, up to the event: the pieces that `recv` gives, and whether the
connection ends behind them. -/
def sbStreamRecv (grants : ℕ → Bool) (now : ℤ) : SbStream → List Bytes → Bool → Received
  | st, [], ended => .returns (if ended then sbStreamClose st else st) sbESuccess
  | st, piece :: pieces, ended =>
      match recvBytes grants { st with lastActivity := now } piece with
      | .goesOn st => sbStreamRecv grants now st pieces ended
      | received => received

end Receiving

section Replying

/-- `err = sb_buffer_push_str(&st->send_buf, text); if (err) return err;`, with what
comes after it. -/
def SbStream.push (grants : ℕ → Bool) (st : SbStream) (text : Bytes)
    (next : SbStream → SbStream × ℤ) : SbStream × ℤ :=
  let (buf, complete) := st.sendBuf.pushStr grants text
  let st := { st with sendBuf := buf }
  if complete then next st else (st, sbEOutOfMem)

/-- `if (err) return err;` -/
def orReturn (result : SbStream × ℤ) (next : SbStream → SbStream × ℤ) : SbStream × ℤ :=
  if result.2 = sbESuccess then next result.1 else result

def statusLine (code : ℕ) (msg : String) : Bytes :=
  bytesOf "HTTP/1.1 " ++ bytesOf (toString code) ++ bytesOf " " ++ bytesOf msg ++ crlf

def headerLine (field : String) (val : Bytes) : Bytes :=
  bytesOf field ++ bytesOf ": " ++ val ++ crlf

def sbSendStatus (grants : ℕ → Bool) (st : SbStream) (code : ℕ) (msg : String) :
    SbStream × ℤ :=
  if st.state ≠ .sendingStatus then
    (st, sbEBadState)
  else
    st.push grants (statusLine code msg) fun st =>
      ({ st with state := .sendingHeader }, sbESuccess)

/-- The status line that a header implies. -/
def impliedStatus (grants : ℕ → Bool) (st : SbStream) : SbStream × ℤ :=
  if st.state.rank < StreamState.sendingHeader.rank then sbSendStatus grants st 200 "OK"
  else (st, sbESuccess)

def sbStreamFinalizeHeader (grants : ℕ → Bool) (st : SbStream) : SbStream × ℤ :=
  orReturn (impliedStatus grants st) fun st =>
    st.push grants crlf fun st => ({ st with state := .sendingData }, sbESuccess)

def sbSendHeader (grants : ℕ → Bool) (st : SbStream) (field : String) (val : Bytes) :
    SbStream × ℤ :=
  if StreamState.sendingHeader.rank < st.state.rank then
    (st, sbEBadState)
  else
    orReturn (impliedStatus grants st) fun st =>
      st.push grants (headerLine field val) fun st => (st, sbESuccess)

/-- `sb_send_file` of a file, where it can be opened; its size goes through an
`unsigned`. -/
def sbSendFile (grants : ℕ → Bool) (st : SbStream) (file : Option Bytes) : SbStream × ℤ :=
  if StreamState.sendingHeader.rank < st.state.rank then
    (st, sbEBadState)
  else
    match file with
    | none => (st, sbECantOpen)
    | some content =>
        let size := bytesOf (toString (content.length % 2 ^ 32))
        orReturn (sbSendHeader grants st "Content-Length" size) fun st =>
          orReturn (sbStreamFinalizeHeader grants st) fun st =>
            ({ st with sendFp := some content, state := .sendingFile }, sbESuccess)

def sbWrite (grants : ℕ → Bool) (st : SbStream) (data : Bytes) : SbStream × ℤ :=
  orReturn
    (if st.state.rank < StreamState.sendingData.rank then sbStreamFinalizeHeader grants st
      else (st, sbESuccess)) fun st =>
    if st.state ≠ .sendingData then (st, sbEBadState)
    else st.push grants data fun st => (st, sbESuccess)

end Replying

section Sending

/-- What `send` does with the bytes it is given: it takes some, up to a number,
it would block, or the connection is lost. -/
inductive SendResult
  | sent (count : ℕ) (hpos : 0 < count)
  | wouldBlock
  | failed

/-- The stream after `sb_stream_send`, its code, and the bytes that went out. -/
structure Sent where
  stream : SbStream
  code : ℤ
  wire : Bytes

/-- What `sb_stream_send` does at `send_data`. -/
def sendData (now : ℤ) (st : SbStream) : SendResult → Sent
  | .sent count _ =>
      ⟨{ st with sendBuf := st.sendBuf.shift count, lastActivity := now }, sbESuccess,
        st.sendBuf.bytes.take count⟩
  | .wouldBlock => ⟨st, sbESuccess, []⟩
  | .failed => ⟨sbStreamClose st, sbESuccess, []⟩

/-- `fread` of as much of the file as the buffer takes. -/
def SbBuffer.read (buf : SbBuffer) (file : Bytes) : SbBuffer where
  bytes := file.take buf.cap
  cap := buf.cap
  fits := List.length_take_le _ _

/-- `sb_stream_send`. -/
def sbStreamSend (grants : ℕ → Bool) (now : ℤ) (st : SbStream) (result : SendResult) : Sent :=
  if st.sendBuf.bytes ≠ [] then
    sendData now st result
  else
    match st.sendFp with
    | some file =>
        match st.sendBuf.reserve grants 8192 with
        | none => ⟨st, sbEOutOfMem, []⟩
        | some buf =>
            let st := { st with sendBuf := buf.read file, sendFp := some (file.drop buf.cap) }
            if st.sendBuf.bytes ≠ [] then sendData now st result
            else ⟨{ st with sendFp := none }, sbESuccess, []⟩
    | none => ⟨sbStreamClose st, sbESuccess, []⟩

end Sending

end FeedsService.Http
