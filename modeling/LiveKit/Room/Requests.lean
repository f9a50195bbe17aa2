import LiveKit.DataTrack.Local.Events
import LiveKit.Lib.AssocMap
import LiveKit.Lib.Components
import LiveKit.Lib.Since
import LiveKit.Lib.TransitionSystem

/-!
# Updating the local participant

`set_metadata`, `set_name` and `set_attributes` of `room/participant/local_participant.rs`, which
send the same message and wait for the response to it, with `send_request` and `get_response` of
the engine and the handler of the responses of a session. The running session may be replaced
between any two steps of a call. The request is sent before the timeout starts to run.
-/

namespace LiveKit.Requests

open DataTrack.Local (publishResultFromRequestResponse)

/-! ## Messages -/

/-- `proto::request_response::Reason` -/
inductive Reason where
  | ok
  | notFound
  | notAllowed
  | limitExceeded
  | queued
  | unsupportedType
  | unclassifiedError
  | invalidHandle
  | invalidName
  | duplicateHandle
  | duplicateName

/-- What the protocol's accessor makes of the number in a message. -/
def Reason.ofNumber : Int → Reason
  | 1 => .notFound
  | 2 => .notAllowed
  | 3 => .limitExceeded
  | 4 => .queued
  | 5 => .unsupportedType
  | 6 => .unclassifiedError
  | 7 => .invalidHandle
  | 8 => .invalidName
  | 9 => .duplicateHandle
  | 10 => .duplicateName
  | _ => .ok

/-- The reason, as far as a data track tells them apart. -/
def Reason.forDataTrack : Reason → DataTrack.Local.Reason
  | .notAllowed => .notAllowed
  | .duplicateName => .duplicateName
  | .invalidName => .invalidName
  | _ => .other

/-- `proto::RequestResponse` -/
structure RequestResponse where
  requestId : UInt32
  reason : Int
  message : String
  /-- The handle of the `PublishDataTrack` request that it is a response to, if it is one. -/
  publishDataTrack : Option UInt32
deriving DecidableEq

def RequestResponse.getReason (response : RequestResponse) : Reason := .ofNumber response.reason

/-- The response is for the manager of the local data tracks. -/
def RequestResponse.isForDataTrack (response : RequestResponse) : Bool :=
  (publishResultFromRequestResponse response.publishDataTrack response.getReason.forDataTrack
    response.message).isSome

/-- `proto::UpdateParticipantMetadata` -/
structure UpdateParticipantMetadata where
  metadata : String
  name : String
  attributes : List (String × String)
  requestId : UInt32

inductive Operation where
  | setMetadata (metadata : String)
  | setName (name : String)
  | setAttributes (attributes : List (String × String))

/-- The message of a call, for the metadata and the name that the participant has. -/
def Operation.message (metadata name : String) (requestId : UInt32) :
    Operation → UpdateParticipantMetadata
  | .setMetadata metadata => ⟨metadata, name, [], requestId⟩
  | .setName name => ⟨metadata, name, [], requestId⟩
  | .setAttributes attributes => ⟨metadata, name, attributes, requestId⟩

inductive RoomError where
  | request (reason : Reason) (message : String)
  /-- `SignalError::Timeout("request timeout")` -/
  | timeout

abbrev RoomResult := Except RoomError Unit

/-- What a response is for the call that waits for it. -/
def outcome (response : RequestResponse) : RoomResult :=
  match response.getReason with
  | .ok => .ok ()
  | reason => .error (.request reason response.message)

/-! ## The state -/

inductive Point where
  /-- The call has its request id. -/
  | drawn
  /-- The message is with the signal client. -/
  | sending
  /-- `send` has returned, the timeout begins to run. -/
  | sent
  /-- `get_response` has its session. -/
  | registering (session : ℕ)
  | waiting (session : ℕ)
  | returned (result : RoomResult)
  /-- The sender of the response is gone. -/
  | panicked

structure Call where
  message : UpdateParticipantMetadata
  /-- The session whose signal client has the message. -/
  session : Option ℕ
  /-- The message was written to the signal stream. -/
  written : Bool
  /-- The response is in the channel of the call, or was taken from there. -/
  response : Option RequestResponse
  point : Point

structure Session where
  requestId : UInt32
  /-- The calls whose channels are registered. -/
  pendingRequests : AssocMap UInt32 ℕ

def Session.new : Session := ⟨1, ∅⟩

structure State where
  sessions : List Session
  /-- The session that is running. -/
  running : ℕ
  calls : List Call

def State.new : State := ⟨[.new], 0, []⟩

inductive Action where
  /-- A call, with the metadata and the name that the participant has. -/
  | call (operation : Operation) (metadata name : String)
  | send (i : ℕ)
  /-- The signal client writes the message, at once or when it is taken from the queue. -/
  | write (i : ℕ)
  /-- The signal client has written, queued or dropped the message. -/
  | sendReturns (i : ℕ)
  | getResponse (i : ℕ)
  | register (i : ℕ)
  | takeResponse (i : ℕ)
  | timeout (i : ℕ)
  | unwrap (i : ℕ)
  /-- A session handles a response. -/
  | requestResponse (session : ℕ) (response : RequestResponse)
  /-- A full reconnect puts another session in the place of the running one. -/
  | restart

/-! ## The steps -/

namespace State

def put (s : State) (i : ℕ) (call : Call) : State := { s with calls := s.calls.set i call }

def pending (s : State) (session : ℕ) (requestId : UInt32) : Option ℕ :=
  s.sessions[session]?.bind fun session => AList.lookup requestId session.pendingRequests

def setPending (s : State) (session : ℕ)
    (change : AssocMap UInt32 ℕ → AssocMap UInt32 ℕ) : State :=
  { s with sessions := s.sessions.modify session fun session =>
      { session with pendingRequests := change session.pendingRequests } }

def begin (s : State) (operation : Operation) (metadata name : String) : Option State :=
  s.sessions[s.running]?.map fun session =>
    { s with
      sessions := s.sessions.set s.running { session with requestId := session.requestId + 1 }
      calls := s.calls ++
        [⟨operation.message metadata name session.requestId, none, false, none, .drawn⟩] }

def send (s : State) (i : ℕ) (call : Call) : Option State :=
  match call.point with
  | .drawn => some (s.put i { call with session := some s.running, point := .sending })
  | _ => none

def write (s : State) (i : ℕ) (call : Call) : Option State :=
  if call.session.isSome ∧ ¬ call.written then some (s.put i { call with written := true })
  else none

def sendReturns (s : State) (i : ℕ) (call : Call) : Option State :=
  match call.point with
  | .sending => some (s.put i { call with point := .sent })
  | _ => none

def getResponse (s : State) (i : ℕ) (call : Call) : Option State :=
  match call.point with
  | .sent => some (s.put i { call with point := .registering s.running })
  | _ => none

/-- `pending_requests.insert(request_id, tx)` -/
def register (s : State) (i : ℕ) (call : Call) : Option State :=
  match call.point with
  | .registering session =>
    some ((s.setPending session (AList.insert call.message.requestId i)).put i
      { call with point := .waiting session })
  | _ => none

def takeResponse (s : State) (i : ℕ) (call : Call) : Option State :=
  match call.point with
  | .waiting _ =>
    call.response.map fun response =>
      s.put i { call with point := .returned (outcome response) }
  | _ => none

/-- The channel has no response, and its sender is there. -/
def isOpen (s : State) (i session : ℕ) (call : Call) : Bool :=
  call.response.isNone && s.pending session call.message.requestId = some i

def timeout (s : State) (i : ℕ) (call : Call) : Option State :=
  match call.point with
  | .waiting session =>
    if s.isOpen i session call then
      some (s.put i { call with point := .returned (.error .timeout) })
    else none
  | _ => none

/-- `rx.await.unwrap()` -/
def unwrap (s : State) (i : ℕ) (call : Call) : Option State :=
  match call.point with
  | .waiting session =>
    if call.response.isNone ∧ ¬ s.isOpen i session call then
      some (s.put i { call with point := .panicked })
    else none
  | _ => none

/-- `on_signal_event`, for a `RequestResponse` -/
def onRequestResponse (s : State) (session : ℕ) (response : RequestResponse) : State :=
  if response.isForDataTrack then s
  else
    match s.pending session response.requestId with
    | some i =>
      { s.setPending session (AList.erase response.requestId) with
        calls := s.calls.modify i fun call => { call with response := some response } }
    | none => s

def step (s : State) : Action → Option State
  | .call operation metadata name => s.begin operation metadata name
  | .send i => s.calls[i]?.bind (s.send i)
  | .write i => s.calls[i]?.bind (s.write i)
  | .sendReturns i => s.calls[i]?.bind (s.sendReturns i)
  | .getResponse i => s.calls[i]?.bind (s.getResponse i)
  | .register i => s.calls[i]?.bind (s.register i)
  | .takeResponse i => s.calls[i]?.bind (s.takeResponse i)
  | .timeout i => s.calls[i]?.bind (s.timeout i)
  | .unwrap i => s.calls[i]?.bind (s.unwrap i)
  | .requestResponse session response =>
    if session < s.sessions.length then some (s.onRequestResponse session response) else none
  | .restart => some { s with sessions := s.sessions ++ [.new], running := s.sessions.length }

end State

/-! ## What is recorded -/

inductive Record where
  | written (i : ℕ)
  | handled (session : ℕ) (response : RequestResponse)

/-- What is recorded of a step. -/
def record (_ : State) : Action → List Record
  | .write i => [.written i]
  | .requestResponse session response => [.handled session response]
  | _ => []

/-- The message of the call is written. -/
def Record.isWrite (i : ℕ) : Record → Bool
  | .written j => j = i
  | .handled _ _ => false

/-- The response that a session handles to the request with the id. -/
def Record.responseTo (session : ℕ) (requestId : UInt32) : Record → Option RequestResponse
  | .written _ => none
  | .handled k response =>
    if k = session ∧ response.requestId = requestId then some response else none

/-- The responses to the call that its session has handled since the message was written. -/
def responsesTo (i : ℕ) (call : Call) (records : List Record) : List RequestResponse :=
  match call.session with
  | none => []
  | some session =>
    (fromFirst (Record.isWrite i) records).filterMap
      (Record.responseTo session call.message.requestId)

end LiveKit.Requests
