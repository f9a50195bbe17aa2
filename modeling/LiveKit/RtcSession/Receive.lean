import LiveKit.Lib.TransitionSystem
import LiveKit.RtcSession.Basic
import LiveKit.RtcSession.TtlMap
import Mathlib.Algebra.Order.Ring.Nat

/-!
# Receiving data packets

How the session in `rtc_session.rs` handles the messages that come over the data channels. The last
sequence number of a reliable packet is kept for each sender, which the server is told after a
resume. The content of a packet becomes an event for the engine.

How packets are decoded and how the end-to-end encryption decrypts them are parameters. The log
`emitted` of a session is what was sent to the engine.
-/

namespace LiveKit.RtcSession

open LiveKit.DataStream (Bytes EncryptionType)

inductive EngineError where
  /-- Unexpected error, generally we can't recover -/
  | internal (message : String)

/-- `room::ChatMessage` -/
structure RoomChatMessage where
  id : String
  message : String
  timestamp : Int
  editTimestamp : Option Int
  deleted : Option Bool
  generated : Option Bool

/-- `RoomChatMessage::from` -/
def RoomChatMessage.ofProto (message : ChatMessage) : RoomChatMessage :=
  ⟨message.id, message.message, message.timestamp, message.editTimestamp, some message.deleted,
    some message.generated⟩

/-- The events that come of data packets. -/
inductive SessionEvent where
  | data (kind : DataPacketKind) (participantSid : Option ParticipantSid)
      (participantIdentity : Option ParticipantIdentity) (payload : Bytes) (topic : Option String)
      (encryptionType : EncryptionType)
  | chatMessage (participantIdentity : ParticipantIdentity) (message : RoomChatMessage)
  | transcription (participantIdentity : ParticipantIdentity) (trackSid : String)
      (segments : List TranscriptionSegment)
  | sipDtmf (participantIdentity : Option ParticipantIdentity) (code : ℕ) (digit : Option String)
  /-- The timeout is in milliseconds. -/
  | rpcRequest (callerIdentity : Option ParticipantIdentity) (requestId method payload : String)
      (responseTimeout version : ℕ)
  | rpcResponse (requestId : String) (payload : Option String) (err : Option RpcError)
  | rpcAck (requestId : String)
  | dataStreamHeader (header : DataStream.Header) (participantIdentity : String)
      (encryptionType : EncryptionType)
  | dataStreamChunk (chunk : DataStream.Chunk) (participantIdentity : String)
      (encryptionType : EncryptionType)
  | dataStreamTrailer (trailer : DataStream.Trailer) (participantIdentity : String)

/-- The part of the end-to-end encryption manager that decrypts data packets. -/
structure E2eeManager where
  /-- Of the data, the initialization vector, the index of the key and the sender. -/
  decryptData : Bytes → Bytes → ℕ → String → Option Bytes

/-- The time to live of what is kept of a sender: 30 seconds. -/
def RELIABLE_RECEIVED_STATE_TTL : ℕ := 30 * 10 ^ 9

/-- What the session keeps to receive data packets. -/
structure RxState where
  packetRxState : TtlMap String ℕ
  /-- What was sent to the engine. -/
  emitted : List SessionEvent

/-- What the system clock shows each time that it may be read for a packet. -/
structure Readings where
  get : ℕ
  set : ℕ
  cleanup : ℕ

/-! ## Events -/

/-- The event of a packet that is not encrypted. -/
def emitPlainPacket (kind : DataPacketKind) (participantSid : Option ParticipantSid)
    (participantIdentity : Option ParticipantIdentity) (encryptionType : EncryptionType) :
    Value → List SessionEvent
  | .user user =>
    -- Participant SID and identity used to be defined on user packet, but they have been moved to
    -- the packet root. For backwards compatibility, the user packet's values are taken if the
    -- top-level fields are not set.
    let participantSid := participantSid.or (ParticipantSid.tryFrom user.participantSid)
    let participantIdentity := participantIdentity.or (some user.participantIdentity)
    [.data kind participantSid participantIdentity user.payload user.topic encryptionType]
  | .sipDtmf dtmf =>
    [.sipDtmf participantIdentity dtmf.code (if dtmf.digit = "" then none else some dtmf.digit)]
  | .transcription transcription =>
    [.transcription transcription.transcribedParticipantIdentity transcription.trackId
      transcription.segments]
  | .rpcRequest request =>
    [.rpcRequest participantIdentity request.id request.method request.payload
      request.responseTimeoutMs request.version]
  | .rpcResponse response =>
    match response.value with
    | none => [.rpcResponse response.requestId none none]
    | some (.payload payload) => [.rpcResponse response.requestId (some payload) none]
    | some (.error err) => [.rpcResponse response.requestId none (some err)]
    | some (.compressedPayload _) => [.rpcResponse response.requestId none none]
  | .rpcAck ack => [.rpcAck ack.requestId]
  | .chatMessage message =>
    [.chatMessage (participantIdentity.getD "") (.ofProto message)]
  | .streamHeader header =>
    [.dataStreamHeader header (participantIdentity.getD "") encryptionType]
  | .streamChunk chunk =>
    [.dataStreamChunk chunk (participantIdentity.getD "") encryptionType]
  | .streamTrailer trailer =>
    [.dataStreamTrailer trailer (participantIdentity.getD "")]
  | .speaker | .metrics | .encryptedPacket _ => []

section

variable (decodePayload : Bytes → Except String (Option EncryptedValue))

/-- The events that are sent for the value of a packet. The value of an encrypted packet is never
encrypted once more. -/
def emitIncomingPacket (e2eeManager : Option E2eeManager) (kind : DataPacketKind)
    (participantSid : Option ParticipantSid) (participantIdentity : Option ParticipantIdentity)
    (value : Value) (encryptionType : EncryptionType) : List SessionEvent :=
  match value with
  | .encryptedPacket packet =>
    -- the event is not sent if the encryption is not available
    match e2eeManager with
    | none => []
    | some e2eeManager =>
      match e2eeManager.decryptData packet.encryptedValue packet.iv packet.keyIndex
        (participantIdentity.getD "") with
      | none => []
      | some decryptedPayload =>
        match decodePayload decryptedPayload with
        | .ok (some decryptedValue) =>
          emitPlainPacket kind participantSid participantIdentity packet.encryptionType
            (convertEncryptedToDataPacketValue decryptedValue)
        | .ok none => []
        | .error _ => []
  | value => emitPlainPacket kind participantSid participantIdentity encryptionType value

/-- The events that are sent for a packet. -/
def DataPacket.events (packet : DataPacket) (e2eeManager : Option E2eeManager)
    (kind : DataPacketKind) : List SessionEvent :=
  match packet.value with
  | none => []
  | some detail =>
    emitIncomingPacket decodePayload e2eeManager kind (ParticipantSid.tryFrom packet.participantSid)
      (some packet.participantIdentity) detail .none

end

/-! ## Handling a message -/

/-- Updates the packet receive state for reliable packets. -/
def updatePacketRxState (rxState : TtlMap String ℕ) (packet : DataPacket) (now : Readings) :
    TtlMap String ℕ :=
  if packet.sequence ≤ 0 ∨ packet.participantSid = "" then rxState
  else
    let (lastSequence, rxState) := rxState.get packet.participantSid now.get
    -- Ignoring duplicate/out-of-order reliable data message
    if lastSequence.any (packet.sequence ≤ ·) then rxState
    else rxState.set packet.participantSid (some packet.sequence) now.set now.cleanup

namespace RxState

/-- The state of a new session. -/
def new (now : ℕ) : RxState := ⟨.new RELIABLE_RECEIVED_STATE_TTL now, []⟩

variable (decode : Bytes → Except String DataPacket)
  (decodePayload : Bytes → Except String (Option EncryptedValue))

/-- `on_rtc_event`, for `RtcEvent::Data` -/
def onRtcEventData (s : RxState) (e2eeManager : Option E2eeManager) (data : Bytes) (binary : Bool)
    (kind : DataPacketKind) (now : Readings) : Except EngineError RxState :=
  if ¬ binary then .error (.internal "text messages aren't supported")
  else
    match decode data with
    | .error err => .error (.internal ("failed to decode data packet: " ++ err))
    | .ok packet =>
      let packetRxState :=
        if kind = .reliable then updatePacketRxState s.packetRxState packet now
        else s.packetRxState
      .ok ⟨packetRxState, s.emitted ++ packet.events decodePayload e2eeManager kind⟩

/-- What the server is told after a resume, in an order that the map does not promise. -/
def dataChannelReceiveStates (s : RxState) (now : ℕ) (order : List ℕ) :
    List (String × ℕ) × RxState :=
  let (states, packetRxState) := s.packetRxState.iter now order
  (states, { s with packetRxState })

end RxState

inductive RxAction where
  /-- A message comes over a data channel; the encryption may decrypt each differently. -/
  | data (e2eeManager : Option E2eeManager) (data : Bytes) (binary : Bool) (kind : DataPacketKind)
      (now : Readings)
  /-- The session is resumed. -/
  | resume (now : ℕ) (order : List ℕ)

namespace RxState

/-- The session handles a message or is resumed. An error is only logged. -/
def step (decode : Bytes → Except String DataPacket)
    (decodePayload : Bytes → Except String (Option EncryptedValue)) (s : RxState) :
    RxAction → Option RxState
  | .data e2eeManager data binary kind now =>
    match s.onRtcEventData decode decodePayload e2eeManager data binary kind now with
    | .ok s' => some s'
    | .error _ => some s
  | .resume now order => some (s.dataChannelReceiveStates now order).2

end RxState

end LiveKit.RtcSession
