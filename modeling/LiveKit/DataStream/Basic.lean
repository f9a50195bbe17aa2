import LiveKit.DataStream.Utf8Chunk
import LiveKit.Lib.AssocMap

/-!
# Data streams

The types of `data_stream/mod.rs`, the messages of the protocol that a data stream is sent with,
and the information about a stream that is taken from its header.
-/

namespace LiveKit.DataStream

/-- Error type for data stream operations. -/
inductive StreamError where
  /-- stream has already been closed -/
  | alreadyClosed
  /-- stream closed abnormally -/
  | abnormalEnd (reason : String)
  /-- UTF-8 decoding error -/
  | utf8
  /-- incoming header was invalid -/
  | invalidHeader
  /-- expected chunk index to be exactly one more than the previous -/
  | missedChunk
  /-- read length exceeded total length specified in stream header -/
  | lengthExceeded
  /-- stream data is incomplete -/
  | incomplete
  /-- unable to send packet -/
  | sendFailed
  /-- internal error -/
  | internal
  /-- encryption type mismatch -/
  | encryptionTypeMismatch
deriving DecidableEq

/-- `e2ee::EncryptionType`, and `encryption::Type` of the protocol, which has the same cases. -/
inductive EncryptionType where
  | none
  | gcm
  | custom
deriving DecidableEq

/-- Progress of a data stream. -/
structure StreamProgress where
  chunkIndex : ℕ
  /-- Number of bytes read or written so far. -/
  bytesProcessed : ℕ
  /-- Total number of bytes expected to be read or written for finite streams. -/
  bytesTotal : Option ℕ

/-- Operation type for text streams. -/
inductive OperationType where
  | create
  | update
  | delete
  | reaction

/-- The number of an operation type in a message. -/
def OperationType.toNumber : OperationType → Int
  | .create => 0
  | .update => 1
  | .delete => 2
  | .reaction => 3

/-- What the protocol's accessor makes of the number in a message. -/
def OperationType.ofNumber : Int → OperationType
  | 1 => .update
  | 2 => .delete
  | 3 => .reaction
  | _ => .create

/-! ## Messages -/

/-- Header properties specific to text streams. -/
structure TextHeader where
  operationType : Int
  version : Int
  replyToStreamId : String
  attachedStreamIds : List String
  generated : Bool

/-- Header properties specific to byte or file streams. -/
structure ByteHeader where
  name : String

inductive ContentHeader where
  | textHeader (header : TextHeader)
  | byteHeader (header : ByteHeader)

/-- `data_stream::Header` -/
structure Header where
  streamId : String
  topic : String
  mimeType : String
  totalLength : Option ℕ
  attributes : AssocMap String String
  contentHeader : Option ContentHeader

/-- `data_stream::Chunk` -/
structure Chunk where
  streamId : String
  chunkIndex : ℕ
  content : Bytes
deriving DecidableEq

/-- `data_stream::Trailer` -/
structure Trailer where
  streamId : String
  reason : String

/-! ## Information about a stream -/

/-- Information about a byte data stream. -/
structure ByteStreamInfo where
  id : String
  topic : String
  totalLength : Option ℕ
  attributes : AssocMap String String
  mimeType : String
  name : String
  encryptionType : EncryptionType

/-- Information about a text data stream. -/
structure TextStreamInfo where
  id : String
  topic : String
  totalLength : Option ℕ
  attributes : AssocMap String String
  mimeType : String
  operationType : OperationType
  version : Int
  replyToStreamId : Option String
  attachedStreamIds : List String
  generated : Bool
  encryptionType : EncryptionType

inductive AnyStreamInfo where
  | byte (info : ByteStreamInfo)
  | text (info : TextStreamInfo)

def ByteStreamInfo.fromHeadersWithEncryption (header : Header) (byteHeader : ByteHeader)
    (encryptionType : EncryptionType) : ByteStreamInfo where
  id := header.streamId
  topic := header.topic
  totalLength := header.totalLength
  attributes := header.attributes
  mimeType := header.mimeType
  name := byteHeader.name
  encryptionType := encryptionType

def ByteStreamInfo.fromHeaders (header : Header) (byteHeader : ByteHeader) : ByteStreamInfo :=
  fromHeadersWithEncryption header byteHeader .none

def TextStreamInfo.fromHeadersWithEncryption (header : Header) (textHeader : TextHeader)
    (encryptionType : EncryptionType) : TextStreamInfo where
  id := header.streamId
  topic := header.topic
  totalLength := header.totalLength
  attributes := header.attributes
  mimeType := header.mimeType
  operationType := .ofNumber textHeader.operationType
  version := textHeader.version
  replyToStreamId :=
    if textHeader.replyToStreamId = "" then none else some textHeader.replyToStreamId
  attachedStreamIds := textHeader.attachedStreamIds
  generated := textHeader.generated
  encryptionType := encryptionType

def TextStreamInfo.fromHeaders (header : Header) (textHeader : TextHeader) : TextStreamInfo :=
  fromHeadersWithEncryption header textHeader .none

namespace AnyStreamInfo

def id : AnyStreamInfo → String
  | byte info => info.id
  | text info => info.id

def totalLength : AnyStreamInfo → Option ℕ
  | byte info => info.totalLength
  | text info => info.totalLength

def encryptionType : AnyStreamInfo → EncryptionType
  | byte info => info.encryptionType
  | text info => info.encryptionType

def tryFromWithEncryption (header : Header) (encryptionType : EncryptionType) :
    Except StreamError AnyStreamInfo :=
  match header.contentHeader with
  | none => .error .invalidHeader
  | some (.byteHeader byteHeader) =>
    .ok (.byte (.fromHeadersWithEncryption header byteHeader encryptionType))
  | some (.textHeader textHeader) =>
    .ok (.text (.fromHeadersWithEncryption header textHeader encryptionType))

/-- The information is that of the header. -/
theorem tryFromWithEncryption_spec {header : Header} {encryptionType : EncryptionType}
    {info : AnyStreamInfo} (h : tryFromWithEncryption header encryptionType = .ok info) :
    info.id = header.streamId ∧ info.totalLength = header.totalLength ∧
      info.encryptionType = encryptionType := by
  unfold tryFromWithEncryption at h
  split at h
  · cases h
  · cases h
    exact ⟨rfl, rfl, rfl⟩
  · cases h
    exact ⟨rfl, rfl, rfl⟩

end AnyStreamInfo

end LiveKit.DataStream
