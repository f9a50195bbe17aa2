import LiveKit.Lib.Since
import LiveKit.Lib.Waiters
import LiveKit.RtcSession.Receive

/-!
# Calling a method of another participant

`perform_rpc` of `room/participant/local_participant.rs` and the handlers of the acks and responses
that come in; the errors are those of `room/participant/rpc.rs`. A call waits for the ack and then
for the response, each with a timeout. The room handles a packet in one step, and between any two
awaits of a call other calls and packets may come.
-/

namespace LiveKit.Rpc

open RtcSession (Value SessionEvent RpcRequest RpcResponseValue emitPlainPacket)

/-! ## Errors -/

/-- Maximum payload size in bytes: 15 KB. -/
def MAX_PAYLOAD_BYTES : ℕ := 15360

def MAX_MESSAGE_BYTES : ℕ := 256

def MAX_DATA_BYTES : ℕ := 15360

def truncateLoop (maxBytes : ℕ) (result : String) : List Char → String
  | [] => result
  | c :: rest =>
    if (result.push c).utf8ByteSize > maxBytes then result
    else truncateLoop maxBytes (result.push c) rest

/-- Truncate a string to a maximum number of bytes. -/
def truncateBytes (s : String) (maxBytes : ℕ) : String :=
  if s.utf8ByteSize ≤ maxBytes then s else truncateLoop maxBytes "" s.toList

structure RpcError where
  code : ℕ
  message : String
  data : Option String

def RpcError.new (code : ℕ) (message : String) (data : Option String) : RpcError :=
  ⟨code, truncateBytes message MAX_MESSAGE_BYTES, data.map (truncateBytes · MAX_DATA_BYTES)⟩

def RpcError.fromProto (proto : RtcSession.RpcError) : RpcError :=
  .new proto.code proto.message (some proto.data)

/-- The codes that `perform_rpc` itself returns. -/
inductive RpcErrorCode where
  | connectionTimeout
  | responseTimeout
  | recipientDisconnected
  | sendFailed
  | requestPayloadTooLarge
  | unsupportedServer

def RpcErrorCode.code : RpcErrorCode → ℕ
  | .connectionTimeout => 1501
  | .responseTimeout => 1502
  | .recipientDisconnected => 1503
  | .sendFailed => 1505
  | .requestPayloadTooLarge => 1402
  | .unsupportedServer => 1403

def RpcErrorCode.message : RpcErrorCode → String
  | .connectionTimeout => "Connection timeout"
  | .responseTimeout => "Response timeout"
  | .recipientDisconnected => "Recipient disconnected"
  | .sendFailed => "Failed to send"
  | .requestPayloadTooLarge => "Request payload too large"
  | .unsupportedServer => "RPC not supported by server"

def RpcError.builtIn (code : RpcErrorCode) (data : Option String) : RpcError :=
  .new code.code code.message data

/-! ## The state -/

/-- The response timeout is in milliseconds. -/
structure PerformRpcData where
  destinationIdentity : String
  method : String
  payload : String
  responseTimeout : ℕ

abbrev RpcResult := Except RpcError String

/-- Where a call is. -/
inductive Point where
  /-- The channels are registered, the request is on its way. -/
  | publishing
  | awaitingAck
  | awaitingResponse
  | returned (result : RpcResult)
  /-- The version of the server cannot be parsed. -/
  | panicked

structure Call where
  id : String
  data : PerformRpcData
  /-- The ack is in its channel, or was taken from there. -/
  ack : Bool
  /-- The response is in its channel, or was taken from there. -/
  response : Option RpcResult
  point : Point

/-- `RpcState` and the calls, which have the receiving ends of its channels. -/
structure State where
  pendingAcks : AssocMap String ℕ
  pendingResponses : AssocMap String ℕ
  calls : List Call

def State.new : State := ⟨∅, ∅, []⟩

inductive Action where
  /-- A call, with the version of the server if that has told it, and the id that is drawn if one
  is drawn. -/
  | perform (data : PerformRpcData) (serverVersion : Option String) (id : String)
  /-- The request has been sent, or has failed to be. -/
  | published (i : ℕ) (failed : Option String)
  | takeAck (i : ℕ)
  | ackTimeout (i : ℕ)
  | takeResponse (i : ℕ)
  | responseTimeout (i : ℕ)
  /-- The room handles what has come in. -/
  | receive (value : Value)

/-- The request that a call sends. -/
def request (data : PerformRpcData) (id : String) : RpcRequest :=
  let maxRoundTripLatency := 7000
  let minEffectiveTimeout := 1000
  let effectiveTimeout := max (data.responseTimeout - maxRoundTripLatency) minEffectiveTimeout
  ⟨id, data.method, data.payload, effectiveTimeout % 2 ^ 32, 1⟩

/-! ## The steps -/

/-- What a response is for the call that waits for it. -/
def answer (payload : Option String) (err : Option RtcSession.RpcError) : RpcResult :=
  match err with
  | some e => .error (RpcError.fromProto e)
  | none => .ok (payload.getD "")

namespace State

def goto (s : State) (i : ℕ) (call : Call) (point : Point) : State :=
  { s with calls := s.calls.set i { call with point } }

def handleIncomingRpcAck (s : State) (requestId : String) : State :=
  match AList.lookup requestId s.pendingAcks with
  | some i =>
    { s with
      pendingAcks := AList.erase requestId s.pendingAcks
      calls := s.calls.modify i fun call => { call with ack := true } }
  -- ack for an unexpected request
  | none => s

def handleIncomingRpcResponse (s : State) (requestId : String) (payload : Option String)
    (err : Option RtcSession.RpcError) : State :=
  match AList.lookup requestId s.pendingResponses with
  | some i =>
    { s with
      pendingResponses := AList.erase requestId s.pendingResponses
      calls := s.calls.modify i fun call => { call with response := some (answer payload err) } }
  -- response for an unexpected request
  | none => s

def onEngineEvent (s : State) : SessionEvent → State
  | .rpcResponse requestId payload err => s.handleIncomingRpcResponse requestId payload err
  | .rpcAck requestId => s.handleIncomingRpcAck requestId
  | _ => s

/-- The events of a packet; the kind of the packet and its sender play no role. -/
def receive (s : State) (value : Value) : State :=
  (emitPlainPacket .reliable none none .none value).foldl onEngineEvent s

/-- Add a call that has returned or panicked before it drew an id. -/
def reject (s : State) (data : PerformRpcData) (point : Point) : State :=
  { s with calls := s.calls ++ [⟨"", data, false, none, point⟩] }

/-- How a call ends before it draws an id, if it does. `belowMinimum` parses a version and says
whether it is below `1.8.0`. -/
def precheck (belowMinimum : String → Option Bool) (data : PerformRpcData)
    (serverVersion : Option String) : Option Point :=
  if data.payload.utf8ByteSize > MAX_PAYLOAD_BYTES then
    some (.returned (.error (.builtIn .requestPayloadTooLarge none)))
  else
    match serverVersion with
    | none => none
    | some version =>
      if version = "" then none
      else
        match belowMinimum version with
        | none => some .panicked
        | some true => some (.returned (.error (.builtIn .unsupportedServer none)))
        | some false => none

def perform (belowMinimum : String → Option Bool) (s : State) (data : PerformRpcData)
    (serverVersion : Option String) (id : String) : Option State :=
  match precheck belowMinimum data serverVersion with
  | some point => some (s.reject data point)
  | none =>
    -- an id that no other call has
    if id = "" ∨ s.calls.any (fun call => call.id = id) then none
    else some
      { pendingAcks := AList.insert id s.calls.length s.pendingAcks
        pendingResponses := AList.insert id s.calls.length s.pendingResponses
        calls := s.calls ++ [⟨id, data, false, none, .publishing⟩] }

/-- `pending_acks.remove(&id)`, `pending_responses.remove(&id)` -/
def forget (s : State) (id : String) : State :=
  { s with
    pendingAcks := AList.erase id s.pendingAcks
    pendingResponses := AList.erase id s.pendingResponses }

def published (s : State) (i : ℕ) (failed : Option String) (call : Call) : Option State :=
  match call.point with
  | .publishing =>
    match failed with
    | some e =>
      some ((s.forget call.id).goto i call (.returned (.error (.builtIn .sendFailed (some e)))))
    | none => some (s.goto i call .awaitingAck)
  | _ => none

/-- The ack is there, or its sender is gone. -/
def ackReady (s : State) (i : ℕ) (call : Call) : Bool :=
  call.ack || AList.lookup call.id s.pendingAcks ≠ some i

def takeAck (s : State) (i : ℕ) (call : Call) : Option State :=
  match call.point with
  | .awaitingAck => if s.ackReady i call then some (s.goto i call .awaitingResponse) else none
  | _ => none

def ackTimeout (s : State) (i : ℕ) (call : Call) : Option State :=
  match call.point with
  | .awaitingAck =>
    -- an ack that is there is taken in any case
    if s.ackReady i call then none
    else
      some ((s.forget call.id).goto i call (.returned (.error (.builtIn .connectionTimeout none))))
  | _ => none

/-- What the channel of the response gives: the response, or an error when its sender is gone. -/
def responseReady (s : State) (i : ℕ) (call : Call) : Option RpcResult :=
  call.response.or
    (if AList.lookup call.id s.pendingResponses = some i then none
    else some (.error (.builtIn .recipientDisconnected none)))

def takeResponse (s : State) (i : ℕ) (call : Call) : Option State :=
  match call.point with
  | .awaitingResponse =>
    (s.responseReady i call).map fun result => s.goto i call (.returned result)
  | _ => none

def responseTimeout (s : State) (i : ℕ) (call : Call) : Option State :=
  match call.point with
  | .awaitingResponse =>
    if (s.responseReady i call).isSome then none
    else
      some ({ s with pendingResponses := AList.erase call.id s.pendingResponses }.goto i call
        (.returned (.error (.builtIn .responseTimeout none))))
  | _ => none

def step (belowMinimum : String → Option Bool) (s : State) : Action → Option State
  | .perform data serverVersion id => s.perform belowMinimum data serverVersion id
  | .published i failed => s.calls[i]?.bind (s.published i failed)
  | .takeAck i => s.calls[i]?.bind (s.takeAck i)
  | .ackTimeout i => s.calls[i]?.bind (s.ackTimeout i)
  | .takeResponse i => s.calls[i]?.bind (s.takeResponse i)
  | .responseTimeout i => s.calls[i]?.bind (s.responseTimeout i)
  | .receive value => some (s.receive value)

end State

/-! ## What is recorded -/

inductive Record where
  /-- The channels of the id are registered and the request is sent. -/
  | requested (destinationIdentity : String) (request : RpcRequest)
  /-- The packet has been handled. -/
  | received (value : Value)

/-- What is recorded of a step. -/
def record (belowMinimum : String → Option Bool) (_ : State) : Action → List Record
  | .perform data serverVersion id =>
    match State.precheck belowMinimum data serverVersion with
    | some _ => []
    | none => [.requested data.destinationIdentity (request data id)]
  | .receive value => [.received value]
  | _ => []

/-- The call with this id begins to wait. -/
def Record.isRequest (id : String) : Record → Bool
  | .requested _ request => request.id = id
  | .received _ => false

/-- The response to this id. -/
def Record.responseTo (id : String) : Record → Option (Option RpcResponseValue)
  | .received (.rpcResponse response) =>
    if response.requestId = id then some response.value else none
  | _ => none

/-- The ack for this id. -/
def Record.ackTo (id : String) : Record → Bool
  | .received (.rpcAck ack) => ack.requestId = id
  | _ => false

/-- What has been recorded since the call with this id began to wait. -/
def since (id : String) (records : List Record) : List Record :=
  fromFirst (Record.isRequest id) records

/-- The responses to this id since the call began to wait. -/
def responsesTo (id : String) (records : List Record) : List (Option RpcResponseValue) :=
  (since id records).filterMap (Record.responseTo id)

/-- There has been an ack for this id since the call began to wait. -/
def acked (id : String) (records : List Record) : Bool := (since id records).any (Record.ackTo id)

end LiveKit.Rpc
