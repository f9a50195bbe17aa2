import LiveKit.DataStream.Isolation
import LiveKit.Room.Publications
import LiveKit.Room.Rpc

/-!
# The event loops of a session and of its room

`rtc_session_task` takes the messages of the data channels, `engine_task` hands what comes of them
on, and `room_task` takes it from there. Both of the outer loops spawn a task for each event and
await it; `TokioJoinHandle::poll` raises a panic of the task once more in the loop. So a handler
that panics is the end of its loop. The handlers are those for data packets; whatever else goes on
in the room may change it at any time.
-/

namespace LiveKit.EventLoops

open LiveKit.DataStream (Bytes EncryptionType)
open LiveKit.Publications (TrackSid)
open LiveKit.RtcSession

/-- What a task comes to; `none` if it panics, as `unwrap` does without a value. -/
abbrev Task (α : Type) := Option α

/-! ## The session -/

/-- `TtlMap::get`, with its `unwrap`. -/
def ttlMapGet {K V : Type} [DecidableEq K] (m : TtlMap K V) (k : K) (now : ℕ) :
    Task (Option V × TtlMap K V) :=
  match (AList.lookup k m.inner).map (·.expiresAt) with
  | none => some (none, m)
  | some expiresAt =>
    if expiresAt < now then some (none, { m with inner := AList.erase k m.inner })
    else (AList.lookup k m.inner).map fun entry => (some entry.value, m)

def updatePacketRxState (rxState : TtlMap String ℕ) (packet : DataPacket) (now : Readings) :
    Task (TtlMap String ℕ) :=
  if packet.sequence ≤ 0 ∨ packet.participantSid = "" then some rxState
  else
    (ttlMapGet rxState packet.participantSid now.get).map fun (lastSequence, rxState) =>
      -- Ignoring duplicate/out-of-order reliable data message
      if lastSequence.any (packet.sequence ≤ ·) then rxState
      else rxState.set packet.participantSid (some packet.sequence) now.set now.cleanup

/-- How the messages are decoded. -/
structure Codec where
  decode : Bytes → Except String DataPacket
  decodePayload : Bytes → Except String (Option EncryptedValue)

/-- `on_rtc_event`, for `RtcEvent::Data` -/
def onRtcEventData (codec : Codec) (s : RxState) (e2eeManager : Option E2eeManager) (data : Bytes)
    (binary : Bool) (kind : DataPacketKind) (now : Readings) : Task (Except EngineError RxState) :=
  if ¬ binary then some (.error (.internal "text messages aren't supported"))
  else
    match codec.decode data with
    | .error err => some (.error (.internal ("failed to decode data packet: " ++ err)))
    | .ok packet =>
      let packetRxState :=
        if kind = .reliable then updatePacketRxState s.packetRxState packet now
        else some s.packetRxState
      packetRxState.map fun packetRxState =>
        .ok ⟨packetRxState, s.emitted ++ packet.events codec.decodePayload e2eeManager kind⟩

/-! ## The room -/

structure TrackPublication where
  sid : TrackSid
  encryptionType : EncryptionType

structure RemoteParticipant where
  sid : ParticipantSid
  trackPublications : AssocMap TrackSid TrackPublication
  isDataEncrypted : Option Bool
  isEncrypted : Bool

structure LocalParticipant where
  identity : ParticipantIdentity
  trackPublications : AssocMap TrackSid TrackPublication

/-- A participant of the room, by its identity. -/
inductive Participant where
  | local (identity : ParticipantIdentity)
  | remote (identity : ParticipantIdentity)

/-- The events of a room that come of data packets. -/
inductive RoomEvent where
  | dataReceived (payload : Bytes) (topic : Option String) (kind : DataPacketKind)
      (participant : Option ParticipantIdentity)
  | chatMessage (message : RoomChatMessage) (participant : ParticipantIdentity)
  | sipDtmfReceived (code : ℕ) (digit : Option String) (participant : Option ParticipantIdentity)
  | transcriptionReceived (participant : Option Participant)
      (trackPublication : Option TrackPublication) (segments : List TranscriptionSegment)
  | streamHeaderReceived (header : DataStream.Header) (participantIdentity : String)
  | streamChunkReceived (chunk : DataStream.Chunk) (participantIdentity : String)
  | streamTrailerReceived (trailer : DataStream.Trailer) (participantIdentity : String)
  | participantEncryptionStatusChanged (participant : ParticipantIdentity) (isEncrypted : Bool)

/-- A task that handles an incoming request of another participant, which nobody awaits. -/
structure IncomingRpcRequest where
  callerIdentity : ParticipantIdentity
  requestId : String
  method : String
  payload : String
  responseTimeout : ℕ
  version : ℕ

structure RoomSession where
  localParticipant : LocalParticipant
  remoteParticipants : AssocMap ParticipantIdentity RemoteParticipant
  incomingStreamManager : DataStream.State
  rpcState : Rpc.State
  spawned : List IncomingRpcRequest
  dispatched : List RoomEvent

/-- `update_encryption_status`, and the status if it has changed. -/
def RemoteParticipant.updateEncryptionStatus (p : RemoteParticipant) :
    RemoteParticipant × Option Bool :=
  let publications := (AssocMap.toPairs p.trackPublications).map (·.2)
  let tracksEncrypted :=
    ¬ publications.isEmpty ∧ publications.all (·.encryptionType ≠ .none)
  let isEncrypted : Bool := tracksEncrypted ∧ p.isDataEncrypted.getD true
  if p.isEncrypted ≠ isEncrypted then ({ p with isEncrypted }, some isEncrypted) else (p, none)

def RemoteParticipant.updateDataEncryptionStatus (p : RemoteParticipant) (isEncrypted : Bool) :
    RemoteParticipant × Option Bool :=
  match p.isDataEncrypted, isEncrypted with
  | some true, false => { p with isDataEncrypted := some false }.updateEncryptionStatus
  -- data that was not encrypted has been seen
  | some false, _ => (p, none)
  | some true, true => (p, none)
  | none, isEncrypted => { p with isDataEncrypted := some isEncrypted }.updateEncryptionStatus

namespace RoomSession

def dispatch (s : RoomSession) (event : RoomEvent) : RoomSession :=
  { s with dispatched := s.dispatched ++ [event] }

def getParticipantByIdentity (s : RoomSession) (identity : ParticipantIdentity) :
    Option ParticipantIdentity :=
  (AList.lookup identity s.remoteParticipants).map fun _ => identity

/-- `first` says which participant with the `sid` the iteration comes to first. -/
def getParticipantBySid (s : RoomSession) (first : ℕ) (sid : ParticipantSid) :
    Option ParticipantIdentity :=
  let found := (AssocMap.toPairs s.remoteParticipants).filter fun entry => entry.2.sid = sid
  found[first % found.length]?.map (·.1)

def getLocalOrRemoteParticipant (s : RoomSession) (identity : ParticipantIdentity) :
    Option Participant :=
  if identity = s.localParticipant.identity then some (.local identity)
  else (s.getParticipantByIdentity identity).map .remote

def updateDataEncryptionStatus (s : RoomSession) (identity : ParticipantIdentity)
    (encryptionType : EncryptionType) : RoomSession :=
  match AList.lookup identity s.remoteParticipants with
  | none => s
  | some participant =>
    let (participant, changed) := participant.updateDataEncryptionStatus (encryptionType ≠ .none)
    let s := { s with
      remoteParticipants := AList.insert identity participant s.remoteParticipants }
    match changed with
    | none => s
    | some isEncrypted => s.dispatch (.participantEncryptionStatusChanged identity isEncrypted)

def handleData (s : RoomSession) (first : ℕ) (payload : Bytes) (topic : Option String)
    (kind : DataPacketKind) (participantSid : Option ParticipantSid)
    (participantIdentity : Option ParticipantIdentity) (encryptionType : EncryptionType) :
    RoomSession :=
  let participant := (participantIdentity.bind s.getParticipantByIdentity).or
    (participantSid.bind (s.getParticipantBySid first))
  let s := match participant with
    | none => s
    | some identity => s.updateDataEncryptionStatus identity encryptionType
  s.dispatch (.dataReceived payload topic kind participant)

def handleChatMessage (s : RoomSession) (participantIdentity : ParticipantIdentity)
    (chatMessage : RoomChatMessage) : RoomSession :=
  match s.getParticipantByIdentity participantIdentity with
  -- a participant that is not in the participants list
  | none => s
  | some participant => s.dispatch (.chatMessage chatMessage participant)

def handleDtmf (s : RoomSession) (code : ℕ) (digit : Option String)
    (participantIdentity : Option ParticipantIdentity) : RoomSession :=
  let participant := participantIdentity.bind s.getParticipantByIdentity
  if participant.isNone ∧ participantIdentity.isSome then s
  else s.dispatch (.sipDtmfReceived code digit participant)

/-- `handle_transcription`, with its `unwrap`. -/
def handleTranscription (s : RoomSession) (participantIdentity : ParticipantIdentity)
    (trackSid : String) (segments : List TranscriptionSegment) : Task RoomSession :=
  let participant := s.getLocalOrRemoteParticipant participantIdentity
  (TrackSid.tryFrom trackSid).map fun trackSid =>
    let trackPublication :=
      match participant with
      | some (.local _) => AList.lookup trackSid s.localParticipant.trackPublications
      | some (.remote identity) =>
        (AList.lookup identity s.remoteParticipants).bind fun p =>
          AList.lookup trackSid p.trackPublications
      | none => none
    s.dispatch (.transcriptionReceived participant trackPublication segments)

def handleDataStreamHeader (s : RoomSession) (header : DataStream.Header)
    (participantIdentity : String) (encryptionType : EncryptionType) : RoomSession :=
  let s := { s with
    incomingStreamManager :=
      s.incomingStreamManager.handleHeader header participantIdentity encryptionType }
  (s.updateDataEncryptionStatus participantIdentity encryptionType).dispatch
    (.streamHeaderReceived header participantIdentity)

def handleDataStreamChunk (s : RoomSession) (chunk : DataStream.Chunk)
    (participantIdentity : String) (encryptionType : EncryptionType) : RoomSession :=
  { s with
    incomingStreamManager := s.incomingStreamManager.handleChunk chunk encryptionType }.dispatch
      (.streamChunkReceived chunk participantIdentity)

def handleDataStreamTrailer (s : RoomSession) (trailer : DataStream.Trailer)
    (participantIdentity : String) : RoomSession :=
  { s with
    incomingStreamManager := s.incomingStreamManager.handleTrailer trailer }.dispatch
      (.streamTrailerReceived trailer participantIdentity)

/-- `on_engine_event`, for the events of data packets. -/
def onEngineEvent (s : RoomSession) (first : ℕ) : SessionEvent → Task RoomSession
  | .data kind participantSid participantIdentity payload topic encryptionType =>
    some (s.handleData first payload topic kind participantSid participantIdentity encryptionType)
  | .chatMessage participantIdentity message =>
    some (s.handleChatMessage participantIdentity message)
  | .transcription participantIdentity trackSid segments =>
    s.handleTranscription participantIdentity trackSid segments
  | .sipDtmf participantIdentity code digit => some (s.handleDtmf code digit participantIdentity)
  | .rpcRequest callerIdentity requestId method payload responseTimeout version =>
    match callerIdentity with
    | none => some s
    | some callerIdentity =>
      some { s with
        spawned := s.spawned ++
          [⟨callerIdentity, requestId, method, payload, responseTimeout, version⟩] }
  | .rpcResponse requestId payload err =>
    some { s with rpcState := s.rpcState.handleIncomingRpcResponse requestId payload err }
  | .rpcAck requestId =>
    some { s with rpcState := s.rpcState.handleIncomingRpcAck requestId }
  | .dataStreamHeader header participantIdentity encryptionType =>
    some (s.handleDataStreamHeader header participantIdentity encryptionType)
  | .dataStreamChunk chunk participantIdentity encryptionType =>
    some (s.handleDataStreamChunk chunk participantIdentity encryptionType)
  | .dataStreamTrailer trailer participantIdentity =>
    some (s.handleDataStreamTrailer trailer participantIdentity)

end RoomSession

/-! ## The loops -/

structure State where
  /-- `rtc_session_task` runs. -/
  rtcSessionTask : Bool
  /-- The session; what it has emitted waits for `engine_task`. -/
  session : RxState
  /-- What waits for `room_task`. -/
  engineEvents : List SessionEvent
  /-- `room_task` runs. -/
  roomTask : Bool
  room : RoomSession

def State.new (room : RoomSession) (now : ℕ) : State := ⟨true, .new now, [], true, room⟩

inductive Action where
  /-- `rtc_session_task` takes a message that came over a data channel. -/
  | data (e2eeManager : Option E2eeManager) (data : Bytes) (binary : Bool) (kind : DataPacketKind)
      (now : Readings)
  /-- `engine_task` hands an event on. -/
  | engine
  /-- `room_task` takes an event. -/
  | room (first : ℕ)
  /-- Something else has changed the room. -/
  | other (room : RoomSession)

def step (codec : Codec) (s : State) : Action → Option State
  | .data e2eeManager data binary kind now =>
    if s.rtcSessionTask then
      match onRtcEventData codec s.session e2eeManager data binary kind now with
      -- `Tasks should not panic`
      | none => some { s with rtcSessionTask := false }
      | some (.ok session) => some { s with session }
      | some (.error _) => some s
    else none
  | .engine =>
    match s.session.emitted with
    | [] => none
    | event :: emitted =>
      some { s with
        session := { s.session with emitted }
        engineEvents := s.engineEvents ++ [event] }
  | .room first =>
    if s.roomTask then
      match s.engineEvents with
      | [] => none
      | event :: engineEvents =>
        match s.room.onEngineEvent first event with
        | none => some { s with engineEvents, roomTask := false }
        | some room => some { s with engineEvents, room }
    else none
  | .other room => some { s with room }

/-! ## What is claimed of the loops -/

/-- Both loops go on. -/
def Running (s : State) : Prop := s.rtcSessionTask = true ∧ s.roomTask = true

def HasTrackPrefix (trackSid : String) : Prop := "TR_".toList <+: trackSid.toList

/-- A transcription that the room takes is about what can be the `sid` of a track. -/
def TranscriptionsNameTracks (s : State) (a : Action) (_ : State) : Prop :=
  match a with
  | .room _ =>
    ∀ identity trackSid segments,
      s.engineEvents.head? = some (.transcription identity trackSid segments) →
        HasTrackPrefix trackSid
  | _ => True

/-- The message is no transcription, or one about what can be the `sid` of a track. -/
def NamesTrack (codec : Codec) (data : Bytes) : Prop :=
  ∀ packet, codec.decode data = .ok packet → ∀ transcription,
    packet.value = some (.transcription transcription) → HasTrackPrefix transcription.trackId

end LiveKit.EventLoops
