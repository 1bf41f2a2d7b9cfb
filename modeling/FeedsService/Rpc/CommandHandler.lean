import FeedsService.Rpc.Listener

/-!
# `CommandHandler`

The task that `CommandHandler::received` posts for a message.  It gives the
message to `Rpc::Factory`, whose requests go to the advanced handlers; what
the factory has no class for is unmarshalled again by `rpc.c` and goes to the
other handlers.  The pool runs the task as it is: what leaves it leaves the
thread.
-/

namespace FeedsService.Rpc

open FeedsService.Library

section Task

variable {Response : Type} (msgpack : MsgPack) (service : Service Response)

def cmdListener : List (Listener Response) :=
  [legacyMethod service, channelMethod service, massData service, standardAuth service]

/-- `rpc_unmarshal_req` when every block is granted. -/
def unmarshalReq (data : Bytes) : Except Stop Answer :=
  (rpcUnmarshalReq (fun _ => true) (msgpack.unpackNext data)).mapError .fault

/-- The code of `ErrCode` for one that `rpc_unmarshal_req` returns. -/
def unpackCode (rc : ℤ) : ℤ :=
  if rc = -1 then ErrCode.cmdUnmarshalReqFailed
  else if rc = -2 then ErrCode.cmdUnknownReqFailed
  else if rc = -3 then ErrCode.cmdUnsupportedVersion
  else if rc < ErrCode.stdSystemErrorIndex then ErrCode.stdSystemError
  else if rc < 0 then ErrCode.unknownError
  else 0

/-- `Log::W` of the bytes as a C string: without a NUL it reads on behind them. -/
def logBytes (warns : Bool) (data : Bytes) : Except Stop Unit :=
  if warns ∧ 0 ∉ data then .error (.fault .overread) else .ok ()

def unpackRequest (warns : Bool) (data : Bytes) : Except Stop (ℤ × Option Req) := do
  let answer ← unmarshalReq msgpack data
  if unpackCode answer.rc < 0 then logBytes warns data
  return (unpackCode answer.rc, answer.req)

/-- The code that is returned, and the response. -/
def packResponse (req : Option Req) (resp : Option Resp) (errCode : ℤ) : ℤ × Bytes :=
  let marshalled : Except ℤ (Option Bytes) :=
    if 0 ≤ errCode then
      match resp with
      | none => .error ErrCode.cmdUnknownRespFailed
      | some resp => .ok (service.rpcMarshalResp (req.bind Req.method) resp)
    else
      match req with
      | none => .error ErrCode.cmdUnknownReqFailed
      | some req => .ok (service.rpcMarshalErr req.tsxId errCode)
  match marshalled with
  | .error ret => (ret, [])
  | .ok none => (ErrCode.cmdMarshalRespFailed, [])
  | .ok (some data) => (0, data)

/-- What follows the listeners in `process`: the code that is returned, and
what is put into the message queue. -/
def respond (req : Option Req) (resp : Option Resp) (errCode : ℤ) : ℤ × List Bytes :=
  let (ret, data) := packResponse service req resp errCode
  if ret < 0 then (ret, []) else (0, [data])

def process (data : Bytes) : Except Stop (ℤ × List Bytes) := do
  let (ret, req) ← unpackRequest msgpack service.warns data
  if 0 ≤ ret then
    let some req := req | .error (.fault .nullDereference)
    let (ret, resp) ← firstAnswer ErrCode.unimplementedError
      ((cmdListener service).map fun listener => listener.onDispose req)
      (ErrCode.unimplementedError, none)
    if ret = ErrCode.unimplementedError then return (ret, [])
    else if ret = ErrCode.completelyFinishedNotify then return (0, [])
    else return respond service (some req) resp ret
  else return respond service req none ret

def processAdvance (data : Bytes) : Except Stop (ℤ × List Bytes) := do
  let (ret, request) ← Factory.unmarshal msgpack data
  if ret = ErrCode.unimplementedError then return (ret, [])
  if ret < 0 then return (ret, [])
  let some request := request | .error (.fault .nullDereference)
  let (_, responseArray) ← firstAnswer ErrCode.unimplementedError
    ((cmdListener service).map fun listener => listener.onDisposeAdvanced request) (ret, [])
  return (0, responseArray.map fun response => (service.pack response).val)

/-- The task; the messages it puts into the queue. -/
def received (data : Bytes) : Except Stop (List Bytes) := do
  let (ret, sent) ← processAdvance msgpack service data
  if ret ≠ ErrCode.unimplementedError then return sent
  let (_, sent) ← process msgpack service data
  return sent

end Task

end FeedsService.Rpc
