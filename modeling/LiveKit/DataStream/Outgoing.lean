import LiveKit.DataStream.Basic

/-!
# Outgoing data streams

`data_stream/outgoing.rs`. A writer cuts what it is given into chunks and sends each in a packet;
the header goes before them and the trailer after them. A packet goes to the task that publishes
it, and the result comes back: how these requests come out is part of the channel here.
-/

namespace LiveKit.DataStream

/-- Maximum number of bytes to send in a single chunk. -/
def CHUNK_SIZE : ℕ := 15000

theorem four_le_chunkSize : 4 ≤ CHUNK_SIZE := by decide

def BYTE_MIME_TYPE : String := "application/octet-stream"

def TEXT_MIME_TYPE : String := "text/plain"

inductive Value where
  | streamHeader (header : Header)
  | streamChunk (chunk : Chunk)
  | streamTrailer (trailer : Trailer)

/-- `proto::DataPacket`, of the reliable kind. -/
structure DataPacket where
  destinationIdentities : List String
  value : Value

/-- Request channel for sending packets. -/
structure PacketTx where
  /-- What was published. -/
  sent : List DataPacket
  requests : ℕ
  /-- What comes back for the `n`-th request. -/
  outcome : ℕ → Except StreamError Unit

/-- A channel all of whose packets are published. -/
def PacketTx.lossless : PacketTx := ⟨[], 0, fun _ => .ok ()⟩

/-- `RawStream::send_packet` -/
def PacketTx.sendPacket (tx : PacketTx) (packet : DataPacket) :
    Except StreamError Unit × PacketTx :=
  let tx' := { tx with requests := tx.requests + 1 }
  match tx.outcome tx.requests with
  | .ok () => (.ok (), { tx' with sent := tx.sent ++ [packet] })
  | .error err => (.error err, tx')

/-! ## Raw streams -/

structure RawStream where
  id : String
  progress : StreamProgress
  isClosed : Bool
  packetTx : PacketTx

namespace RawStream

def createHeaderPacket (header : Header) (destinationIdentities : List String) : DataPacket :=
  ⟨destinationIdentities, .streamHeader header⟩

def createChunkPacket (id : String) (chunkIndex : ℕ) (content : Bytes) : DataPacket :=
  ⟨[], .streamChunk ⟨id, chunkIndex, content⟩⟩

def createTrailerPacket (id : String) (reason : Option String) : DataPacket :=
  ⟨[], .streamTrailer ⟨id, reason.getD ""⟩⟩

/-- `RawStream::open` -/
def «open» (header : Header) (destinationIdentities : List String) (packetTx : PacketTx) :
    Except StreamError RawStream :=
  match packetTx.sendPacket (createHeaderPacket header destinationIdentities) with
  | (.ok (), packetTx) => .ok ⟨header.streamId, ⟨0, 0, header.totalLength⟩, false, packetTx⟩
  | (.error err, _) => .error err

def writeChunk (self : RawStream) (bytes : Bytes) : Except StreamError Unit × RawStream :=
  match self.packetTx.sendPacket (createChunkPacket self.id self.progress.chunkIndex bytes) with
  | (.ok (), packetTx) =>
    let progress := { self.progress with
      bytesProcessed := self.progress.bytesProcessed + bytes.length
      chunkIndex := self.progress.chunkIndex + 1 }
    (.ok (), { self with progress, packetTx })
  | (.error err, packetTx) => (.error err, { self with packetTx })

def close (self : RawStream) (reason : Option String) : Except StreamError Unit × RawStream :=
  if self.isClosed then (.error .alreadyClosed, self)
  else
    match self.packetTx.sendPacket (createTrailerPacket self.id reason) with
    | (.ok (), packetTx) => (.ok (), { self with isClosed := true, packetTx })
    | (.error err, packetTx) => (.error err, { self with packetTx })

/-- Write the chunks up to the first that is not sent. -/
def writeChunks (self : RawStream) : List Bytes → Except StreamError Unit × RawStream
  | [] => (.ok (), self)
  | chunk :: chunks =>
    match self.writeChunk chunk with
    | (.ok (), self) => self.writeChunks chunks
    | (.error err, self) => (.error err, self)

end RawStream

/-! ## Writers -/

/-- `<[u8]>::chunks`: there are not more chunks than `fuel`. -/
def chunksAux (size : ℕ) : ℕ → Bytes → List Bytes
  | 0, _ => []
  | fuel + 1, bytes =>
    if bytes.isEmpty then [] else bytes.take size :: chunksAux size fuel (bytes.drop size)

def chunks (bytes : Bytes) (size : ℕ) : List Bytes := chunksAux size bytes.length bytes

/-- `utf8_aware_chunks` of a text: its chunks are not more than its bytes (`collect_encode`). -/
def utf8AwareChunks (text : String) (size : ℕ) (h : 4 ≤ size) : List Bytes :=
  (Utf8AwareChunks.collect ⟨Utf8.encode text, size, h⟩ (Utf8.encode text).length).getD []

/-- Writer for an open byte data stream. -/
structure ByteStreamWriter where
  info : ByteStreamInfo
  stream : RawStream

/-- Writer for an open text data stream. -/
structure TextStreamWriter where
  info : TextStreamInfo
  stream : RawStream

namespace ByteStreamWriter

def write (self : ByteStreamWriter) (bytes : Bytes) : Except StreamError Unit × ByteStreamWriter :=
  let (result, stream) := self.stream.writeChunks (chunks bytes CHUNK_SIZE)
  (result, { self with stream })

def close (self : ByteStreamWriter) : Except StreamError Unit × ByteStreamWriter :=
  let (result, stream) := self.stream.close none
  (result, { self with stream })

end ByteStreamWriter

namespace TextStreamWriter

def write (self : TextStreamWriter) (text : String) : Except StreamError Unit × TextStreamWriter :=
  let (result, stream) :=
    self.stream.writeChunks (utf8AwareChunks text CHUNK_SIZE four_le_chunkSize)
  (result, { self with stream })

def close (self : TextStreamWriter) : Except StreamError Unit × TextStreamWriter :=
  let (result, stream) := self.stream.close none
  (result, { self with stream })

end TextStreamWriter

/-! ## The manager of outgoing streams -/

/-- Options used when opening an outgoing byte data stream. -/
structure StreamByteOptions where
  topic : String
  attributes : AssocMap String String
  destinationIdentities : List String
  id : Option String
  mimeType : Option String
  name : Option String
  totalLength : Option ℕ

/-- Options used when opening an outgoing text data stream. -/
structure StreamTextOptions where
  topic : String
  attributes : AssocMap String String
  destinationIdentities : List String
  id : Option String
  operationType : Option OperationType
  version : Option Int
  replyToStreamId : Option String
  attachedStreamIds : List String
  generated : Option Bool

/-- The header of a text stream; without an identifier in the options it gets a random one. -/
def textHeaders (options : StreamTextOptions) (totalLength : Option ℕ) (uuid : String) :
    Header × TextHeader :=
  let textHeader : TextHeader :=
    { operationType := (options.operationType.getD .create).toNumber
      version := options.version.getD 0
      replyToStreamId := options.replyToStreamId.getD ""
      attachedStreamIds := options.attachedStreamIds
      generated := options.generated.getD false }
  let header : Header :=
    { streamId := options.id.getD uuid
      topic := options.topic
      mimeType := TEXT_MIME_TYPE
      totalLength
      attributes := options.attributes
      contentHeader := some (.textHeader textHeader) }
  (header, textHeader)

/-- The header of a byte stream; without an identifier in the options it gets a random one. -/
def byteHeaders (options : StreamByteOptions) (totalLength : Option ℕ) (uuid : String) :
    Header × ByteHeader :=
  let byteHeader : ByteHeader := ⟨options.name.getD ""⟩
  let header : Header :=
    { streamId := options.id.getD uuid
      topic := options.topic
      mimeType := options.mimeType.getD BYTE_MIME_TYPE
      totalLength
      attributes := options.attributes
      contentHeader := some (.byteHeader byteHeader) }
  (header, byteHeader)

namespace OutgoingStreamManager

def openText (packetTx : PacketTx) (options : StreamTextOptions) (totalLength : Option ℕ)
    (uuid : String) : Except StreamError TextStreamWriter :=
  let (header, textHeader) := textHeaders options totalLength uuid
  (RawStream.open header options.destinationIdentities packetTx).map fun stream =>
    ⟨.fromHeaders header textHeader, stream⟩

def openBytes (packetTx : PacketTx) (options : StreamByteOptions) (totalLength : Option ℕ)
    (uuid : String) : Except StreamError ByteStreamWriter :=
  let (header, byteHeader) := byteHeaders options totalLength uuid
  (RawStream.open header options.destinationIdentities packetTx).map fun stream =>
    ⟨.fromHeaders header byteHeader, stream⟩

def streamText (packetTx : PacketTx) (options : StreamTextOptions) (uuid : String) :
    Except StreamError TextStreamWriter :=
  openText packetTx options none uuid

def streamBytes (packetTx : PacketTx) (options : StreamByteOptions) (uuid : String) :
    Except StreamError ByteStreamWriter :=
  openBytes packetTx options options.totalLength uuid

/-- The result of a call that opens a writer, writes once and closes, with the channel after it. -/
def sendText (packetTx : PacketTx) (text : String) (options : StreamTextOptions) (uuid : String) :
    Except StreamError (TextStreamInfo × PacketTx) :=
  match openText packetTx options (some (Utf8.encode text).length) uuid with
  | .error err => .error err
  | .ok writer =>
    match writer.write text with
    | (.error err, _) => .error err
    | (.ok (), writer) =>
      match writer.close with
      | (.error err, _) => .error err
      | (.ok (), writer) => .ok (writer.info, writer.stream.packetTx)

/-- The `total_length` in the header is that of the data, whatever the options say. -/
def sendBytes (packetTx : PacketTx) (bytes : Bytes) (options : StreamByteOptions) (uuid : String) :
    Except StreamError (ByteStreamInfo × PacketTx) :=
  match openBytes packetTx options (some bytes.length) uuid with
  | .error err => .error err
  | .ok writer =>
    match writer.write bytes with
    | (.error err, _) => .error err
    | (.ok (), writer) =>
      match writer.close with
      | (.error err, _) => .error err
      | (.ok (), writer) => .ok (writer.info, writer.stream.packetTx)

end OutgoingStreamManager

end LiveKit.DataStream
