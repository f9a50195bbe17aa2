import LiveKit.DataStream.Basic

/-!
# Data packets

What the peers of a room send each other over the data channels, as far as the session looks into
it, and the identifiers of participants. How packets are encoded is not part of this development:
where it matters, it is a parameter.
-/

namespace LiveKit.RtcSession

open LiveKit.DataStream (Bytes EncryptionType)

inductive DataPacketKind where
  | lossy
  | reliable
deriving DecidableEq

structure ParticipantSid where
  value : String
  hasPrefix : "PA_".toList <+: value.toList
deriving DecidableEq

/-- `ParticipantSid::try_from`, where the string of a failure is not used. -/
def ParticipantSid.tryFrom (value : String) : Option ParticipantSid :=
  if h : "PA_".toList <+: value.toList then some ⟨value, h⟩ else none

abbrev ParticipantIdentity := String

/-! ## Messages -/

structure UserPacket where
  participantSid : String
  participantIdentity : String
  payload : Bytes
  topic : Option String

structure SipDtmf where
  code : ℕ
  digit : String

structure TranscriptionSegment where
  id : String
  text : String
  startTime : ℕ
  endTime : ℕ
  final : Bool
  language : String

structure Transcription where
  transcribedParticipantIdentity : String
  trackId : String
  segments : List TranscriptionSegment

structure ChatMessage where
  id : String
  timestamp : Int
  editTimestamp : Option Int
  message : String
  deleted : Bool
  generated : Bool

structure RpcRequest where
  id : String
  method : String
  payload : String
  responseTimeoutMs : ℕ
  version : ℕ

structure RpcAck where
  requestId : String

structure RpcError where
  code : ℕ
  message : String
  data : String

/-- `rpc_response::Value` -/
inductive RpcResponseValue where
  | payload (payload : String)
  | error (err : RpcError)
  | compressedPayload (payload : Bytes)

structure RpcResponse where
  requestId : String
  value : Option RpcResponseValue

structure EncryptedPacket where
  encryptionType : EncryptionType
  iv : Bytes
  keyIndex : ℕ
  encryptedValue : Bytes

/-- `encrypted_packet_payload::Value` -/
inductive EncryptedValue where
  | user (user : UserPacket)
  | chatMessage (message : ChatMessage)
  | rpcRequest (request : RpcRequest)
  | rpcAck (ack : RpcAck)
  | rpcResponse (response : RpcResponse)
  | streamHeader (header : DataStream.Header)
  | streamChunk (chunk : DataStream.Chunk)
  | streamTrailer (trailer : DataStream.Trailer)

/-- `data_packet::Value` -/
inductive Value where
  | user (user : UserPacket)
  | speaker
  | sipDtmf (dtmf : SipDtmf)
  | transcription (transcription : Transcription)
  | metrics
  | chatMessage (message : ChatMessage)
  | rpcRequest (request : RpcRequest)
  | rpcAck (ack : RpcAck)
  | rpcResponse (response : RpcResponse)
  | streamHeader (header : DataStream.Header)
  | streamChunk (chunk : DataStream.Chunk)
  | streamTrailer (trailer : DataStream.Trailer)
  | encryptedPacket (packet : EncryptedPacket)

/-- `proto::DataPacket` -/
structure DataPacket where
  participantIdentity : String
  destinationIdentities : List String
  /-- sequence number of reliable packet -/
  sequence : ℕ
  participantSid : String
  value : Option Value

def convertEncryptedToDataPacketValue : EncryptedValue → Value
  | .user user => .user user
  | .chatMessage message => .chatMessage message
  | .rpcRequest request => .rpcRequest request
  | .rpcAck ack => .rpcAck ack
  | .rpcResponse response => .rpcResponse response
  | .streamHeader header => .streamHeader header
  | .streamChunk chunk => .streamChunk chunk
  | .streamTrailer trailer => .streamTrailer trailer

end LiveKit.RtcSession
