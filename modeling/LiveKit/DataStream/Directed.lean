import LiveKit.DataStream.Outgoing
import LiveKit.RtcSession.Basic
import LiveKit.Lib.TransitionSystem

/-!
# Data streams that are sent to some participants

The writers of several streams put their packets in the queue of `OutgoingStreamManager`, from
which `outgoing_data_stream_task` takes them one after the other for `publish_data`. The server
(SFU) hands a packet to the participants that it names, or to all that are there when it names none.
How the payload of an encrypted packet is encoded is a parameter.
-/

namespace LiveKit.DataStream.Directed

open LiveKit.RtcSession (EncryptedPacket EncryptedValue)

/-! ## Publishing -/

/-- `data_packet::Value` of what a stream sends. -/
def toProto : Value → RtcSession.Value
  | .streamHeader header => .streamHeader header
  | .streamChunk chunk => .streamChunk chunk
  | .streamTrailer trailer => .streamTrailer trailer

def convertDataPacketToEncryptedValue : RtcSession.Value → Option EncryptedValue
  | .user user => some (.user user)
  | .chatMessage message => some (.chatMessage message)
  | .rpcRequest request => some (.rpcRequest request)
  | .rpcResponse response => some (.rpcResponse response)
  | .rpcAck ack => some (.rpcAck ack)
  | .streamHeader header => some (.streamHeader header)
  | .streamChunk chunk => some (.streamChunk chunk)
  | .streamTrailer trailer => some (.streamTrailer trailer)
  | _ => none

structure EncryptedData where
  data : Bytes
  iv : Bytes
  keyIndex : ℕ

/-- `E2eeManager`, as far as data is published with it. -/
structure E2eeManager where
  isDcEncryptionEnabled : Bool
  encryptionType : EncryptionType
  /-- `get_latest_key_index` of the key provider, 0 if there is none. -/
  latestKeyIndex : ℕ
  /-- Of the data, the local identity and the index of the key. -/
  encryptData : Bytes → String → ℕ → Option EncryptedData

/-- The local participant, as it stands in the packets it sends. -/
structure ParticipantInfo where
  identity : String
  sid : String

section

variable (encodePayload : EncryptedValue → Bytes)

/-- `publish_data`, up to the queue of the data channel; `none` if the value is not encrypted where
it should be. -/
def publishData (info : ParticipantInfo) (e2eeManager : Option E2eeManager)
    (packet : DataPacket) : Option RtcSession.DataPacket :=
  let value := toProto packet.value
  let published : RtcSession.DataPacket :=
    { participantIdentity := info.identity
      destinationIdentities := packet.destinationIdentities
      sequence := 0
      participantSid := info.sid
      value := some value }
  match e2eeManager with
  | none => some published
  | some e2eeManager =>
    if ¬ e2eeManager.isDcEncryptionEnabled then some published
    else
      match convertDataPacketToEncryptedValue value with
      -- what has no encrypted form is sent as it is
      | none => some published
      | some encryptedPayloadValue =>
        (e2eeManager.encryptData (encodePayload encryptedPayloadValue) info.identity
          e2eeManager.latestKeyIndex).map fun encryptedData =>
            { published with
              value := some (.encryptedPacket
                { encryptionType := e2eeManager.encryptionType
                  iv := encryptedData.iv
                  keyIndex := encryptedData.keyIndex
                  encryptedValue := encryptedData.data }) }

/-- What is published goes to whom the packet names. -/
theorem publishData_destinationIdentities {info : ParticipantInfo}
    {e2eeManager : Option E2eeManager} {packet : DataPacket} {published : RtcSession.DataPacket}
    (h : publishData encodePayload info e2eeManager packet = some published) :
    published.destinationIdentities = packet.destinationIdentities := by
  unfold publishData at h
  dsimp only at h
  split at h
  · exact Option.some.inj h ▸ rfl
  · split at h
    · exact Option.some.inj h ▸ rfl
    · split at h
      · exact Option.some.inj h ▸ rfl
      · obtain ⟨_, -, rfl⟩ := Option.map_eq_some_iff.mp h
        rfl

end

/-- Those in the room whom the server hands a packet. -/
def recipients (packet : RtcSession.DataPacket) (room : List String) : List String :=
  if packet.destinationIdentities = [] then room
  else room.filter (· ∈ packet.destinationIdentities)

theorem mem_recipients {packet : RtcSession.DataPacket} {room : List String} {p : String} :
    p ∈ recipients packet room ↔
      p ∈ room ∧ (packet.destinationIdentities = [] ∨ p ∈ packet.destinationIdentities) := by
  unfold recipients
  by_cases h : packet.destinationIdentities = []
  · rw [if_pos h]
    exact ⟨fun hp => ⟨hp, .inl h⟩, fun hp => hp.1⟩
  · rw [if_neg h, List.mem_filter, decide_eq_true_iff]
    exact and_congr_right fun _ => ⟨.inr, fun hor => hor.resolve_left h⟩

/-! ## Streams -/

/-- The options a stream is opened with, and the length that its header declares. -/
inductive StreamOptions where
  | text (options : StreamTextOptions) (totalLength : Option ℕ)
  | bytes (options : StreamByteOptions) (totalLength : Option ℕ)

namespace StreamOptions

def destinationIdentities : StreamOptions → List String
  | text options _ => options.destinationIdentities
  | bytes options _ => options.destinationIdentities

def header (uuid : String) : StreamOptions → Header
  | text options totalLength => (textHeaders options totalLength uuid).1
  | bytes options totalLength => (byteHeaders options totalLength uuid).1

end StreamOptions

/-- What is given to a writer. -/
inductive Input where
  | bytes (bytes : Bytes)
  | text (text : String)
  /-- What the file gives to one buffer after the other; a read of nothing is the end. -/
  | file (reads : List Bytes)

namespace Input

def chunks : Input → List Bytes
  | .bytes content => DataStream.chunks content CHUNK_SIZE
  | .text content => utf8AwareChunks content CHUNK_SIZE four_le_chunkSize
  | .file reads => reads.takeWhile (· ≠ [])

end Input

/-- What the calls on a stream have come to. The lock of the stream lets one at a time proceed. -/
inductive Phase where
  /-- The header is to be published. -/
  | opening
  /-- The lock is free. -/
  | idle
  /-- A chunk is to be requested, and others after it. -/
  | writing (bytes : Bytes) (rest : List Bytes)
  /-- A chunk is to be published, and others are to be requested. -/
  | sending (bytes : Bytes) (rest : List Bytes)
  /-- The trailer is to be published. -/
  | closing (reason : Option String)
  /-- `Drop` has spawned a task that requests the trailer. -/
  | dropped
  /-- There is no writer. -/
  | gone
deriving DecidableEq

/-- A stream. Of its header, `RawStream` keeps the identifier. -/
structure OutStream where
  header : Header
  progress : StreamProgress
  isClosed : Bool
  phase : Phase
  /-- To whom the stream was to go; `RawStream` does not keep it. -/
  destinationIdentities : List String
  /-- The chunks of what was given to the writers; not kept by the code. -/
  input : List Bytes
  /-- A request failed, or a call was given up; not kept by the code. -/
  cut : Bool

/-- A packet is requested for a stream; the call may wait for the result. -/
structure Request where
  packet : DataPacket
  awaited : Bool

/-- What a writer does. -/
inductive WriterAction where
  | write (input : Input)
  /-- The next chunk is requested. -/
  | send
  /-- `close` and `close_with_reason` -/
  | close (reason : Option String)
  /-- The last writer is dropped. -/
  | drop (runtime : Bool)
  /-- The task that `Drop` has spawned requests the trailer. -/
  | spawned

namespace OutStream

def id (o : OutStream) : String := o.header.streamId

/-- `RawStream::open`, up to its request. -/
def «open» (header : Header) (destinationIdentities : List String) : OutStream × Request :=
  ({ header := header
     progress := ⟨0, 0, header.totalLength⟩
     isClosed := false
     phase := .opening
     destinationIdentities := destinationIdentities
     input := []
     cut := false },
    ⟨RawStream.createHeaderPacket header destinationIdentities, true⟩)

/-- The loop of a write, where these chunks are left. -/
def proceed : List Bytes → Phase
  | [] => .idle
  | bytes :: rest => .writing bytes rest

/-- The requests that a writer makes, and the stream after it. -/
def act (o : OutStream) : WriterAction → Option (OutStream × List Request)
  | .write input =>
    match o.phase with
    | .idle => some ({ o with phase := proceed input.chunks, input := o.input ++ input.chunks }, [])
    | _ => none
  | .send =>
    match o.phase with
    | .writing bytes rest =>
      some ({ o with phase := .sending bytes rest },
        [⟨RawStream.createChunkPacket o.id o.progress.chunkIndex bytes, true⟩])
    | _ => none
  | .close reason =>
    match o.phase with
    | .idle =>
      if o.isClosed then some (o, []) -- `AlreadyClosed`
      else some ({ o with phase := .closing reason },
        [⟨RawStream.createTrailerPacket o.id reason, true⟩])
    | _ => none
  | .drop runtime =>
    match o.phase with
    | .idle =>
      -- without a runtime there is nobody to request the trailer
      if o.isClosed then some ({ o with phase := .gone }, [])
      else some ({ o with phase := if runtime then .dropped else .gone }, [])
    | _ => none
  | .spawned =>
    match o.phase with
    | .dropped =>
      some ({ o with phase := .gone }, [⟨RawStream.createTrailerPacket o.id none, false⟩])
    | _ => none

/-- The call that waits gets the result of its request. -/
def answer (o : OutStream) (result : Except StreamError Unit) : OutStream :=
  match o.phase, result with
  | .opening, .ok () => { o with phase := .idle }
  | .opening, .error _ => { o with phase := .gone }
  | .sending bytes rest, .ok () =>
    { o with
      phase := proceed rest
      progress := { o.progress with
        bytesProcessed := o.progress.bytesProcessed + bytes.length
        chunkIndex := o.progress.chunkIndex + 1 } }
  | .closing _, .ok () => { o with phase := .idle, isClosed := true }
  | .sending _ _, .error _ | .closing _, .error _ => { o with phase := .idle }
  | _, _ => o

/-- The call that waits is given up; what it requested stays in the queue. -/
def abandon (o : OutStream) : Option OutStream :=
  match o.phase with
  | .opening => some { o with phase := .gone, cut := true }
  | .writing _ _ | .sending _ _ | .closing _ => some { o with phase := .idle, cut := true }
  | _ => none

end OutStream

/-! ## The system -/

/-- A packet of a stream that the server has handed on to those in the room whom it is for. -/
structure Delivery where
  stream : ℕ
  /-- What the stream sent, and the packet that came of it. -/
  value : Value
  packet : RtcSession.DataPacket
  room : List String

structure State where
  info : ParticipantInfo
  /-- The other participants. -/
  room : List String
  streams : List OutStream
  /-- The requests, with the streams they are for. -/
  queue : List (ℕ × Request)
  deliveries : List Delivery

def State.new (info : ParticipantInfo) : State := ⟨info, [], [], [], []⟩

inductive Action where
  | join (identity : String)
  | leave (identity : String)
  /-- `stream_text`, `stream_bytes`, and the first step of `send_text`, `send_bytes` and
  `send_file`. -/
  | openStream (options : StreamOptions) (uuid : String)
  | writer (i : ℕ) (action : WriterAction)
  | abandon (i : ℕ)
  /-- `outgoing_data_stream_task` takes a request, which may fail, also because the room closes. -/
  | task (e2eeManager : Option E2eeManager) (failure : Option StreamError)

namespace State

/-- A request has the result; what was published is handed on. -/
def respond (s : State) (i : ℕ) (request : Request) (result : Except StreamError Unit)
    (queue : List (ℕ × Request)) (deliveries : List Delivery) : State :=
  { s with
    streams := s.streams.modify i fun o =>
      let o := if request.awaited then o.answer result else o
      match result with
      | .ok () => o
      | .error _ => { o with cut := true }
    queue := queue
    deliveries := s.deliveries ++ deliveries }

end State

section

variable (encodePayload : EncryptedValue → Bytes)

def step (s : State) : Action → Option State
  | .join identity =>
    if identity ∈ s.room then none else some { s with room := s.room ++ [identity] }
  | .leave identity => some { s with room := s.room.erase identity }
  | .openStream options uuid =>
    let (o, request) := OutStream.open (options.header uuid) options.destinationIdentities
    some { s with
      streams := s.streams ++ [o]
      queue := s.queue ++ [(s.streams.length, request)] }
  | .writer i action =>
    s.streams[i]?.bind fun o => (o.act action).map fun (o', requests) =>
      { s with
        streams := s.streams.set i o'
        queue := s.queue ++ requests.map (i, ·) }
  | .abandon i =>
    s.streams[i]?.bind fun o => o.abandon.map fun o' =>
      { s with
        streams := s.streams.set i o'
        -- what was requested is published all the same
        queue := s.queue.map fun entry =>
          if entry.1 = i then (i, { entry.2 with awaited := false }) else entry }
  | .task e2eeManager failure =>
    match s.queue with
    | [] => none
    | (i, request) :: queue =>
      match failure, publishData encodePayload s.info e2eeManager request.packet with
      | none, some packet =>
        some (s.respond i request (.ok ()) queue [⟨i, request.packet.value, packet, s.room⟩])
      -- an encryption that fails is a packet that is not sent
      | none, none => some (s.respond i request (.error .sendFailed) queue [])
      | some err, _ => some (s.respond i request (.error err) queue [])

end

/-! ## What is claimed of the system -/

/-- What was handed on of a stream. -/
def State.delivered (s : State) (i : ℕ) : List Value :=
  (s.deliveries.filter (·.stream = i)).map (·.value)

/-- What is still to be published of a stream. -/
def State.pending (s : State) (i : ℕ) : List Request :=
  (s.queue.filter (·.1 = i)).map (·.2)

def chunksOf (values : List Value) : List Chunk :=
  values.filterMap fun
    | .streamChunk chunk => some chunk
    | _ => none

/-- The chunks of a stream with these contents. -/
def numbered (id : String) (contents : List Bytes) : List Chunk :=
  contents.zipIdx.map fun (content, chunkIndex) => ⟨id, chunkIndex, content⟩

namespace OutStream

/-- No call is under way. -/
def AtRest (o : OutStream) : Prop := o.phase = .idle ∨ o.phase = .gone

/-- The stream was closed, or its writers are gone. -/
def Ended (o : OutStream) : Prop := o.isClosed = true ∨ o.phase = .gone

/-- The header, all the chunks of what was given to the writers, in order, and, if the stream has
ended, its trailer. -/
structure Whole (o : OutStream) (values : List Value) : Prop where
  header : values.head? = some (.streamHeader o.header)
  chunks : chunksOf values = numbered o.id o.input
  trailer : o.Ended → ∃ reason, .streamTrailer ⟨o.id, reason⟩ ∈ values

end OutStream

/-- The streams that name their destinations reach them and no others. -/
structure OnlyDestinations (s : State) : Prop where
  /-- Of those in the room, a packet of the stream is handed to the destinations. -/
  only : ∀ d ∈ s.deliveries, ∀ o : OutStream, s.streams[d.stream]? = some o →
    o.destinationIdentities ≠ [] →
      ∀ p ∈ d.room, p ∈ recipients d.packet d.room ↔ p ∈ o.destinationIdentities
  /-- What was handed on and what is still to be published is all of the stream. -/
  whole : ∀ (i : ℕ) (o : OutStream), s.streams[i]? = some o → o.destinationIdentities ≠ [] →
    o.cut = false → o.AtRest → o.Whole (s.delivered i ++ (s.pending i).map (·.packet.value))

def Value.isHeader : Value → Bool
  | .streamHeader _ => true
  | _ => false

/-- A chunk or a trailer of a stream with destinations is published only while nobody else is in
the room, and the last writer of such a stream, if it is not closed, is dropped only where there
is a runtime. -/
def Confined (encodePayload : EncryptedValue → Bytes) (s : State) : Action → State → Prop
  | .task e2eeManager none, _ =>
    ∀ (i : ℕ) (request : Request) (o : OutStream), s.queue.head? = some (i, request) →
      s.streams[i]? = some o → o.destinationIdentities ≠ [] →
      publishData encodePayload s.info e2eeManager request.packet ≠ none →
        Value.isHeader request.packet.value = true ∨ ∀ p ∈ s.room, p ∈ o.destinationIdentities
  | .writer i (.drop false), _ =>
    ∀ o : OutStream, s.streams[i]? = some o → o.destinationIdentities ≠ [] →
      o.isClosed = true ∨ o.cut = true
  | _, _ => True

end LiveKit.DataStream.Directed
