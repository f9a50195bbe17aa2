import LiveKit.DataStream.Isolation
import LiveKit.RtcSession.Receive

/-!
# Encrypted data streams

What `emit_incoming_packet` makes of a data packet, encrypted or not, goes through the session's
events and the handlers of the room to the manager of incoming streams. A header and a chunk take
along how they were encrypted, a trailer does not. How each packet was received is kept on record
here, to compare with the stream that it was taken for.
-/

namespace LiveKit.DataStream.Encryption

open LiveKit.RtcSession (DataPacketKind E2eeManager EncryptedValue)
open TransitionSystem

/-! ## From the session to the manager -/

/-- The events of the session that `room_task` hands to the handlers of data streams. -/
def toStream : RtcSession.SessionEvent → Option SessionEvent
  | .dataStreamHeader header identity encryptionType =>
    some (.dataStreamHeader header identity encryptionType)
  | .dataStreamChunk chunk identity encryptionType =>
    some (.dataStreamChunk chunk identity encryptionType)
  | .dataStreamTrailer trailer identity => some (.dataStreamTrailer trailer identity)
  | _ => none

/-- How a packet is received: in plain text, or encrypted as it says. -/
def receivedAs (packet : RtcSession.DataPacket) : EncryptionType :=
  match packet.value with
  | some (.encryptedPacket encrypted) => encrypted.encryptionType
  | _ => .none

/-- A packet that comes over a data channel, with the decryption that there is at that time. -/
structure Incoming where
  e2eeManager : Option E2eeManager
  kind : DataPacketKind
  packet : RtcSession.DataPacket

inductive Action where
  | receive (incoming : Incoming)
  | dropManager
  | dropReader (key : ReaderKey)

section

variable (decodePayload : Bytes → Except String (Option EncryptedValue))

/-- The events of a packet that concern data streams. -/
def Incoming.events (incoming : Incoming) : List SessionEvent :=
  (incoming.packet.events decodePayload incoming.e2eeManager incoming.kind).filterMap toStream

def step (s : State) : Action → Option State
  | .receive incoming =>
    if s.running then some (s.receiveFrom (incoming.events decodePayload)) else none
  | .dropManager => s.step .dropManager
  | .dropReader key => s.step (.dropReader key)

/-! ## What is claimed of a run -/

/-- A chunk or a trailer for the open stream of the reader `key`, and how it was received. -/
structure Entry where
  key : ReaderKey
  receivedAs : EncryptionType
  /-- The content of a chunk. -/
  content : Option Bytes

/-- What an event puts on record. -/
def entries (s : State) (receivedAs : EncryptionType) : SessionEvent → List Entry
  | .dataStreamHeader _ _ _ => []
  | .dataStreamChunk chunk _ _ =>
    match AList.lookup chunk.streamId s.openStreams with
    | none => []
    | some descriptor => [⟨descriptor.chunkTx, receivedAs, some chunk.content⟩]
  | .dataStreamTrailer trailer _ =>
    match AList.lookup trailer.streamId s.openStreams with
    | none => []
    | some descriptor => [⟨descriptor.chunkTx, receivedAs, none⟩]

def record (s : State) : Action → List Entry
  | .receive incoming =>
    (incoming.events decodePayload).flatMap (entries s (receivedAs incoming.packet))
  | _ => []

/-- What the chunks on record for the reader carry. -/
def contentsOf (key : ReaderKey) (records : List Entry) : List Bytes :=
  records.filterMap fun entry => if entry.key = key then entry.content else none

/-- All that is on record for the reader was received as the header of its stream. -/
def AllAs (records : List Entry) (key : ReaderKey) (encryptionType : EncryptionType) : Prop :=
  ∀ entry ∈ records, entry.key = key → entry.receivedAs = encryptionType

/-- The reader of an encrypted stream returns `Ok` only with chunks that were received with its
encryption, as was the trailer. -/
def Protected (records : List Entry) (s : State) : Prop :=
  ∀ (key : ReaderKey) (r : Reader), s.readers[key]? = some r → r.alive = true →
    r.info.encryptionType ≠ .none → ∀ output, r.readAll = some (.ok output) →
      (contentsOf key records).flatten = output.data ∧ AllAs records key r.info.encryptionType

/-- A trailer that closes an encrypted stream without an error, while its reader is there and has
no error to report, was received with the encryption of the stream. -/
def TrailersEncrypted (s : State) (a : Action) (_ : State) : Prop :=
  match a with
  | .receive incoming =>
    ∀ trailer identity, .dataStreamTrailer trailer identity ∈ incoming.events decodePayload →
      ∀ (d : Descriptor) (r : Reader), AList.lookup trailer.streamId s.openStreams = some d →
        s.readers[d.chunkTx]? = some r → r.alive = true → ¬ r.Undecodable →
        d.encryptionType ≠ .none → d.Complete → trailer.reason = "" →
          receivedAs incoming.packet = d.encryptionType
  | _ => True

/-! ## What is inserted -/

/-- The second list is the first with elements inserted that have a property. -/
inductive Inserted {α : Type} (P : α → Prop) : List α → List α → Prop
  | nil : Inserted P [] []
  | keep (a : α) {l l' : List α} (h : Inserted P l l') : Inserted P (a :: l) (a :: l')
  | insert {a : α} (ha : P a) {l l' : List α} (h : Inserted P l l') : Inserted P l (a :: l')

/-- What concerns one stream: its packets, with the way they were received, and the end of the
manager. -/
inductive Own where
  | packet (packet : Packet) (receivedAs : EncryptionType)
  | dropManager

/-- What an action of the run means to the stream under the identifier. -/
def own (id : String) : Action → List Own
  | .receive incoming =>
    ((incoming.events decodePayload).filter fun event => event.packet.streamId = id).map
      fun event => .packet event.packet (receivedAs incoming.packet)
  | .dropManager => [.dropManager]
  | .dropReader _ => []

/-- The packet is a header that opens a stream with this information. -/
def Opens (s : State) (incoming : Incoming) (info : AnyStreamInfo) (identity : String) : Prop :=
  ∃ header encryptionType,
    incoming.events decodePayload = [.dataStreamHeader header identity encryptionType] ∧
    AnyStreamInfo.tryFromWithEncryption header encryptionType = .ok info ∧
    info.id ∉ s.openStreams

/-- A packet that was not encrypted. -/
def Own.Plain : Own → Prop
  | .packet _ receivedAs => receivedAs = .none
  | .dropManager => False

end

end LiveKit.DataStream.Encryption
