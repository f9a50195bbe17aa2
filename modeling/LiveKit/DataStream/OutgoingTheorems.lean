import LiveKit.DataStream.Outgoing

/-!
# The packets of an outgoing stream

A stream is sent by one of the calls that do it all, or by a writer that is opened, written to any
number of times and closed. On a channel that publishes all packets these are the header, the
chunks of what was written, numbered from zero, and the trailer.
-/

namespace LiveKit.DataStream

open List

/-! ## Chunks -/

/-- With enough fuel nothing is left over. -/
theorem chunksAux_flatten {size : ℕ} (hsize : 0 < size) {fuel : ℕ} {bytes : Bytes}
    (hfuel : bytes.length ≤ fuel) : (chunksAux size fuel bytes).flatten = bytes := by
  induction fuel generalizing bytes with
  | zero =>
    have hnil : bytes = [] := eq_nil_of_length_eq_zero (by omega)
    rw [hnil]
    rfl
  | succ fuel ih =>
    unfold chunksAux
    by_cases hempty : bytes.isEmpty = true
    · rw [if_pos hempty, isEmpty_iff.mp hempty]
      rfl
    · have hpos : 0 < bytes.length := by
        apply length_pos_of_ne_nil
        simpa using hempty
      rw [if_neg hempty, flatten_cons, ih, take_append_drop]
      rw [length_drop]
      omega

/-- The chunks of some bytes are those bytes, cut into pieces. -/
theorem chunks_flatten (bytes : Bytes) {size : ℕ} (hsize : 0 < size) :
    (chunks bytes size).flatten = bytes :=
  chunksAux_flatten hsize (Nat.le_refl _)

/-- The chunks of a text are texts, and together they are that text. -/
theorem utf8AwareChunks_spec (text : String) {size : ℕ} (h : 4 ≤ size) :
    ∃ texts : List String, utf8AwareChunks text size h = texts.map Utf8.encode ∧
      (texts.map Utf8.encode).flatten = Utf8.encode text := by
  obtain ⟨texts, hcollect, hflatten, -⟩ :=
    Utf8AwareChunks.collect_encode text size h (Nat.le_refl _)
  refine ⟨texts, ?_, hflatten⟩
  unfold utf8AwareChunks
  rw [hcollect]
  rfl

/-! ## Raw streams -/

/-- The packets of chunks that are numbered from `index` on. -/
def chunkPackets (id : String) (index : ℕ) : List Bytes → List DataPacket
  | [] => []
  | content :: contents =>
    RawStream.createChunkPacket id index content :: chunkPackets id (index + 1) contents

/-- One more chunk has the next number. -/
theorem chunkPackets_concat (id : String) (index : ℕ) (contents : List Bytes) (content : Bytes) :
    chunkPackets id index (contents ++ [content])
      = chunkPackets id index contents
        ++ [RawStream.createChunkPacket id (index + contents.length) content] := by
  induction contents generalizing index with
  | nil => rfl
  | cons first contents ih =>
    rw [cons_append, chunkPackets, ih, chunkPackets, length_cons, cons_append]
    rw [Nat.add_assoc, Nat.add_comm 1]

/-- A channel that publishes everything publishes a packet after the others. -/
theorem PacketTx.sendPacket_of_ok {tx : PacketTx} (h : ∀ n, tx.outcome n = .ok ())
    (packet : DataPacket) :
    tx.sendPacket packet
      = (.ok (), { tx with requests := tx.requests + 1, sent := tx.sent ++ [packet] }) := by
  unfold PacketTx.sendPacket
  rw [h]

namespace RawStream

/-- The stream is open, and its header and the contents have been sent. -/
structure HasSent (stream : RawStream) (header : Header) (destinations : List String)
    (contents : List Bytes) : Prop where
  id : stream.id = header.streamId
  index : stream.progress.chunkIndex = contents.length
  notClosed : stream.isClosed = false
  outcome : ∀ n, stream.packetTx.outcome n = .ok ()
  sent : stream.packetTx.sent
    = createHeaderPacket header destinations :: chunkPackets header.streamId 0 contents

/-- An opened stream has sent its header. -/
theorem open_lossless (header : Header) (destinations : List String) :
    ∃ stream, RawStream.open header destinations .lossless = .ok stream ∧
      stream.HasSent header destinations [] :=
  ⟨_, rfl, rfl, rfl, rfl, fun _ => rfl, rfl⟩

variable {stream : RawStream} {header : Header} {destinations : List String}
  {contents : List Bytes}

section

variable (h : stream.HasSent header destinations contents)

include h

/-- A chunk that is written is sent after those before it. -/
theorem HasSent.writeChunk (content : Bytes) :
    ∃ stream', stream.writeChunk content = (.ok (), stream') ∧
      stream'.HasSent header destinations (contents ++ [content]) := by
  unfold RawStream.writeChunk
  rw [PacketTx.sendPacket_of_ok h.outcome]
  refine ⟨_, rfl, h.id, ?_, h.notClosed, h.outcome, ?_⟩
  · rw [length_append, ← h.index]
    rfl
  · show stream.packetTx.sent ++ [_] = _
    rw [h.sent, h.id, h.index, chunkPackets_concat, Nat.zero_add]
    rfl

/-- The chunks of a write are sent in their order. -/
theorem HasSent.writeChunks (contents' : List Bytes) :
    ∃ stream', stream.writeChunks contents' = (.ok (), stream') ∧
      stream'.HasSent header destinations (contents ++ contents') := by
  induction contents' generalizing stream contents with
  | nil =>
    rw [append_nil]
    exact ⟨stream, rfl, h⟩
  | cons content contents' ih =>
    obtain ⟨stream₁, hwrite, h₁⟩ := h.writeChunk content
    obtain ⟨stream₂, hwrites, h₂⟩ := ih h₁
    refine ⟨stream₂, ?_, ?_⟩
    · unfold RawStream.writeChunks
      rw [hwrite]
      exact hwrites
    · rw [append_cons]
      exact h₂

/-- The trailer is sent after the last chunk. -/
theorem HasSent.close :
    ∃ stream', stream.close none = (.ok (), stream') ∧
      stream'.packetTx.sent
        = createHeaderPacket header destinations :: chunkPackets header.streamId 0 contents
          ++ [createTrailerPacket header.streamId none] := by
  unfold RawStream.close
  rw [if_neg (by simp [h.notClosed]), PacketTx.sendPacket_of_ok h.outcome]
  refine ⟨_, rfl, ?_⟩
  show stream.packetTx.sent ++ [_] = _
  rw [h.sent, h.id]

end

end RawStream

/-! ## Writers -/

/-- Writes all, one call after the other, as long as they are sent. -/
def ByteStreamWriter.writeAll (writer : ByteStreamWriter) :
    List Bytes → Except StreamError Unit × ByteStreamWriter
  | [] => (.ok (), writer)
  | bytes :: writes =>
    match writer.write bytes with
    | (.ok (), writer) => writer.writeAll writes
    | (.error err, writer) => (.error err, writer)

/-- Writes all, one call after the other, as long as they are sent. -/
def TextStreamWriter.writeAll (writer : TextStreamWriter) :
    List String → Except StreamError Unit × TextStreamWriter
  | [] => (.ok (), writer)
  | text :: writes =>
    match writer.write text with
    | (.ok (), writer) => writer.writeAll writes
    | (.error err, writer) => (.error err, writer)

section Writers

variable {header : Header} {destinations : List String} {contents : List Bytes}

/-- The chunks of some bytes that are written. -/
abbrev byteContents (bytes : Bytes) : List Bytes := chunks bytes CHUNK_SIZE

/-- The chunks of a text that is written. -/
abbrev textContents (text : String) : List Bytes :=
  utf8AwareChunks text CHUNK_SIZE four_le_chunkSize

/-- The chunks of a text that is written are texts, and together they are that text. -/
theorem textContents_spec (text : String) :
    ∃ texts : List String, textContents text = texts.map Utf8.encode ∧
      (texts.map Utf8.encode).flatten = Utf8.encode text :=
  utf8AwareChunks_spec text (by decide)

variable {writer : ByteStreamWriter}

/-- A write sends the chunks of its bytes. -/
theorem ByteStreamWriter.write_sent (h : writer.stream.HasSent header destinations contents)
    (bytes : Bytes) :
    ∃ writer', writer.write bytes = (.ok (), writer') ∧
      writer'.stream.HasSent header destinations (contents ++ byteContents bytes) := by
  obtain ⟨stream, hwrite, h'⟩ := h.writeChunks (byteContents bytes)
  refine ⟨{ writer with stream }, ?_, h'⟩
  unfold ByteStreamWriter.write
  rw [hwrite]

/-- A write sends the chunks of its text. -/
theorem TextStreamWriter.write_sent {writer : TextStreamWriter}
    (h : writer.stream.HasSent header destinations contents) (text : String) :
    ∃ writer', writer.write text = (.ok (), writer') ∧
      writer'.stream.HasSent header destinations (contents ++ textContents text) := by
  obtain ⟨stream, hwrite, h'⟩ := h.writeChunks (textContents text)
  refine ⟨{ writer with stream }, ?_, h'⟩
  unfold TextStreamWriter.write
  rw [hwrite]

/-- All packets of a stream: the header, the chunks and the trailer. -/
def streamPackets (header : Header) (destinations : List String) (contents : List Bytes) :
    List DataPacket :=
  RawStream.createHeaderPacket header destinations :: chunkPackets header.streamId 0 contents
    ++ [RawStream.createTrailerPacket header.streamId none]

/-- A closed writer has sent all packets of its stream. -/
theorem ByteStreamWriter.close_sent (h : writer.stream.HasSent header destinations contents) :
    ∃ writer', writer.close = (.ok (), writer') ∧
      writer'.stream.packetTx.sent = streamPackets header destinations contents := by
  obtain ⟨stream, hclose, h'⟩ := h.close
  refine ⟨{ writer with stream }, ?_, h'⟩
  unfold ByteStreamWriter.close
  rw [hclose]

/-- A closed writer has sent all packets of its stream. -/
theorem TextStreamWriter.close_sent {writer : TextStreamWriter}
    (h : writer.stream.HasSent header destinations contents) :
    ∃ writer', writer.close = (.ok (), writer') ∧
      writer'.stream.packetTx.sent = streamPackets header destinations contents := by
  obtain ⟨stream, hclose, h'⟩ := h.close
  refine ⟨{ writer with stream }, ?_, h'⟩
  unfold TextStreamWriter.close
  rw [hclose]

/-- Writes are sent one after the other. -/
theorem ByteStreamWriter.writeAll_sent (h : writer.stream.HasSent header destinations contents)
    (writes : List Bytes) :
    ∃ writer', writer.writeAll writes = (.ok (), writer') ∧
      writer'.stream.HasSent header destinations (contents ++ writes.flatMap byteContents) := by
  induction writes generalizing writer contents with
  | nil =>
    rw [flatMap_nil, append_nil]
    exact ⟨writer, rfl, h⟩
  | cons bytes writes ih =>
    obtain ⟨writer₁, hwrite, h₁⟩ := ByteStreamWriter.write_sent h bytes
    obtain ⟨writer₂, hwrites, h₂⟩ := ih h₁
    refine ⟨writer₂, ?_, ?_⟩
    · unfold ByteStreamWriter.writeAll
      rw [hwrite]
      exact hwrites
    · rw [flatMap_cons, ← append_assoc]
      exact h₂

/-- Writes are sent one after the other. -/
theorem TextStreamWriter.writeAll_sent {writer : TextStreamWriter}
    (h : writer.stream.HasSent header destinations contents) (writes : List String) :
    ∃ writer', writer.writeAll writes = (.ok (), writer') ∧
      writer'.stream.HasSent header destinations (contents ++ writes.flatMap textContents) := by
  induction writes generalizing writer contents with
  | nil =>
    rw [flatMap_nil, append_nil]
    exact ⟨writer, rfl, h⟩
  | cons text writes ih =>
    obtain ⟨writer₁, hwrite, h₁⟩ := TextStreamWriter.write_sent h text
    obtain ⟨writer₂, hwrites, h₂⟩ := ih h₁
    refine ⟨writer₂, ?_, ?_⟩
    · unfold TextStreamWriter.writeAll
      rw [hwrite]
      exact hwrites
    · rw [flatMap_cons, ← append_assoc]
      exact h₂

end Writers

namespace OutgoingStreamManager

/-- A writer for text has a stream that has sent its header. -/
theorem openText_lossless (options : StreamTextOptions) (totalLength : Option ℕ) (uuid : String) :
    ∃ writer, openText .lossless options totalLength uuid = .ok writer ∧
      writer.stream.HasSent (textHeaders options totalLength uuid).1
        options.destinationIdentities [] := by
  obtain ⟨stream, hopen, h⟩ := RawStream.open_lossless
    (textHeaders options totalLength uuid).1 options.destinationIdentities
  let headers := textHeaders options totalLength uuid
  refine ⟨⟨.fromHeaders headers.1 headers.2, stream⟩, ?_, h⟩
  show (RawStream.open headers.1 options.destinationIdentities .lossless).map _ = _
  rw [hopen]
  rfl

/-- A writer for bytes has a stream that has sent its header. -/
theorem openBytes_lossless (options : StreamByteOptions) (totalLength : Option ℕ) (uuid : String) :
    ∃ writer, openBytes .lossless options totalLength uuid = .ok writer ∧
      writer.stream.HasSent (byteHeaders options totalLength uuid).1
        options.destinationIdentities [] := by
  obtain ⟨stream, hopen, h⟩ := RawStream.open_lossless
    (byteHeaders options totalLength uuid).1 options.destinationIdentities
  let headers := byteHeaders options totalLength uuid
  refine ⟨⟨.fromHeaders headers.1 headers.2, stream⟩, ?_, h⟩
  show (RawStream.open headers.1 options.destinationIdentities .lossless).map _ = _
  rw [hopen]
  rfl

end OutgoingStreamManager

/-! ## Streams -/

/-- What is done with one outgoing stream, from its header to its trailer. -/
inductive Job where
  | sendText (text : String) (options : StreamTextOptions)
  | sendBytes (bytes : Bytes) (options : StreamByteOptions)
  | streamText (writes : List String) (options : StreamTextOptions)
  | streamBytes (writes : List Bytes) (options : StreamByteOptions)

namespace Job

/-- The job is done; a writer is opened, written to and closed. -/
def run (job : Job) (uuid : String) (tx : PacketTx) : Except StreamError PacketTx :=
  match job with
  | sendText text options =>
    (OutgoingStreamManager.sendText tx text options uuid).map fun (_, tx) => tx
  | sendBytes bytes options =>
    (OutgoingStreamManager.sendBytes tx bytes options uuid).map fun (_, tx) => tx
  | streamText writes options =>
    match OutgoingStreamManager.streamText tx options uuid with
    | .error err => .error err
    | .ok writer =>
      match writer.writeAll writes with
      | (.error err, _) => .error err
      | (.ok (), writer) =>
        match writer.close with
        | (.error err, _) => .error err
        | (.ok (), writer) => .ok writer.stream.packetTx
  | streamBytes writes options =>
    match OutgoingStreamManager.streamBytes tx options uuid with
    | .error err => .error err
    | .ok writer =>
      match writer.writeAll writes with
      | (.error err, _) => .error err
      | (.ok (), writer) =>
        match writer.close with
        | (.error err, _) => .error err
        | (.ok (), writer) => .ok writer.stream.packetTx

def header (job : Job) (uuid : String) : Header :=
  match job with
  | sendText text options => (textHeaders options (some (Utf8.encode text).length) uuid).1
  | sendBytes bytes options => (byteHeaders options (some bytes.length) uuid).1
  | streamText _ options => (textHeaders options none uuid).1
  | streamBytes _ options => (byteHeaders options options.totalLength uuid).1

def destinations : Job → List String
  | sendText _ options | streamText _ options => options.destinationIdentities
  | sendBytes _ options | streamBytes _ options => options.destinationIdentities

/-- The contents of the chunks. -/
def contents : Job → List Bytes
  | sendText text _ => textContents text
  | sendBytes bytes _ => byteContents bytes
  | streamText writes _ => writes.flatMap textContents
  | streamBytes writes _ => writes.flatMap byteContents

/-- The packets of the job. -/
theorem run_lossless (job : Job) (uuid : String) :
    ∃ tx, job.run uuid .lossless = .ok tx ∧
      tx.sent = streamPackets (job.header uuid) job.destinations job.contents := by
  cases job with
  | sendText text options =>
    obtain ⟨writer, hopen, h⟩ :=
      OutgoingStreamManager.openText_lossless options (some (Utf8.encode text).length) uuid
    obtain ⟨writer₁, hwrite, h₁⟩ := TextStreamWriter.write_sent h text
    obtain ⟨writer₂, hclose, h₂⟩ := TextStreamWriter.close_sent h₁
    refine ⟨writer₂.stream.packetTx, ?_, h₂⟩
    unfold run OutgoingStreamManager.sendText
    simp only [hopen, hwrite, hclose]
    rfl
  | sendBytes bytes options =>
    obtain ⟨writer, hopen, h⟩ :=
      OutgoingStreamManager.openBytes_lossless options (some bytes.length) uuid
    obtain ⟨writer₁, hwrite, h₁⟩ := ByteStreamWriter.write_sent h bytes
    obtain ⟨writer₂, hclose, h₂⟩ := ByteStreamWriter.close_sent h₁
    refine ⟨writer₂.stream.packetTx, ?_, h₂⟩
    unfold run OutgoingStreamManager.sendBytes
    simp only [hopen, hwrite, hclose]
    rfl
  | streamText writes options =>
    obtain ⟨writer, hopen, h⟩ := OutgoingStreamManager.openText_lossless options none uuid
    obtain ⟨writer₁, hwrite, h₁⟩ := TextStreamWriter.writeAll_sent h writes
    obtain ⟨writer₂, hclose, h₂⟩ := TextStreamWriter.close_sent h₁
    refine ⟨writer₂.stream.packetTx, ?_, h₂⟩
    unfold run OutgoingStreamManager.streamText
    simp only [hopen, hwrite, hclose]
  | streamBytes writes options =>
    obtain ⟨writer, hopen, h⟩ :=
      OutgoingStreamManager.openBytes_lossless options options.totalLength uuid
    obtain ⟨writer₁, hwrite, h₁⟩ := ByteStreamWriter.writeAll_sent h writes
    obtain ⟨writer₂, hclose, h₂⟩ := ByteStreamWriter.close_sent h₁
    refine ⟨writer₂.stream.packetTx, ?_, h₂⟩
    unfold run OutgoingStreamManager.streamBytes
    simp only [hopen, hwrite, hclose]

end Job

end LiveKit.DataStream
