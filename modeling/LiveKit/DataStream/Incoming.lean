import LiveKit.DataStream.Basic
import LiveKit.Lib.TransitionSystem

/-!
# Incoming data streams

`data_stream/incoming.rs`. The manager gets the packets of all streams. For a header it makes a
reader, and it keeps the sender of its channel in the descriptor of the stream, under the
identifier of the stream, until the stream is closed. A reader learns that its stream has ended
from its channel: there is an error in it, or all senders of it are gone.

The readers are kept here with their channels, in the order in which they were dispatched. What
has been read already stays in the channel; `readAll` is what a call on the reader returns.
-/

namespace LiveKit.DataStream

/-- Which channel a sender belongs to: the place of its reader among all that were dispatched. -/
abbrev ReaderKey := ℕ

/-- A reader for an incoming data stream, with its channel. -/
structure Reader where
  info : AnyStreamInfo
  identity : String
  /-- What was sent on the channel. -/
  items : List (Except StreamError Bytes)
  /-- The sender is alive. -/
  isOpen : Bool
  /-- The reader has not been dropped. -/
  alive : Bool

/-- `chunk_tx.send`: without the reader the item is gone. -/
def Reader.send (r : Reader) (item : Except StreamError Bytes) : Reader :=
  if r.alive then { r with items := r.items ++ [item] } else r

/-- The sender is dropped. -/
def Reader.hangUp (r : Reader) : Reader := { r with isOpen := false }

structure Descriptor where
  progress : StreamProgress
  chunkTx : ReaderKey
  encryptionType : EncryptionType

structure State where
  /-- The manager has not been dropped. -/
  running : Bool
  openStreams : AssocMap String Descriptor
  /-- The readers that were dispatched, with the state of their channels. -/
  readers : List Reader

/-! ## Reading -/

/-- The loop of `ByteStreamReader::read_all`; `none` while it waits. -/
def readBytes (isOpen : Bool) (buffer : Bytes) :
    List (Except StreamError Bytes) → Option (Except StreamError Bytes)
  | [] => if isOpen then none else some (.ok buffer)
  | .ok bytes :: items => readBytes isOpen (buffer ++ bytes) items
  | .error err :: _ => some (.error err)

/-- The loop of `TextStreamReader::read_all`; every chunk is decoded by itself. -/
def readText (isOpen : Bool) (result : String) :
    List (Except StreamError Bytes) → Option (Except StreamError String)
  | [] => if isOpen then none else some (.ok result)
  | .ok chunk :: items =>
    match Utf8.decode chunk with
    | some text => readText isOpen (result ++ text) items
    | none => some (.error .utf8)
  | .error err :: _ => some (.error err)

/-- What `read_all` returns when all is well. -/
inductive Output where
  | bytes (bytes : Bytes)
  | text (text : String)

/-- The data of an output as bytes. -/
def Output.data : Output → Bytes
  | .bytes data => data
  | .text data => Utf8.encode data

/-- What a call of `read_all` on the reader has returned so far. -/
def Reader.readAll (r : Reader) : Option (Except StreamError Output) :=
  match r.info with
  | .byte _ => (readBytes r.isOpen [] r.items).map fun result => result.map .bytes
  | .text _ => (readText r.isOpen "" r.items).map fun result => result.map .text

/-! ## The streams that are open -/

namespace State

/-- `IncomingStreamManager::new` -/
def new : State := ⟨true, ∅, []⟩

def modifyReader (s : State) (key : ReaderKey) (f : Reader → Reader) : State :=
  { s with readers := s.readers.modify key f }

/-- The reader of the channel has not been dropped. -/
def hasReader (s : State) (key : ReaderKey) : Bool := s.readers[key]?.any fun r => r.alive

def closeStream (s : State) (id : String) : State :=
  match AList.lookup id s.openStreams with
  | none => s
  | some descriptor =>
    -- dropping the sender closes the channel
    { s with openStreams := AList.erase id s.openStreams }.modifyReader descriptor.chunkTx
      Reader.hangUp

def closeStreamWithError (s : State) (id : String) (err : StreamError) : State :=
  match AList.lookup id s.openStreams with
  | none => s
  | some descriptor =>
    { s with openStreams := AList.erase id s.openStreams }.modifyReader descriptor.chunkTx
      fun r => (r.send (.error err)).hangUp

def yieldChunk (s : State) (id : String) (chunk : Bytes) : State :=
  match AList.lookup id s.openStreams with
  | none => s
  | some descriptor =>
    if s.hasReader descriptor.chunkTx then
      s.modifyReader descriptor.chunkTx fun r => r.send (.ok chunk)
    -- the reader has been dropped
    else s.closeStream id

/-! ## Packets -/

/-- Handles an incoming header packet. -/
def handleHeader (s : State) (header : Header) (identity : String)
    (encryptionType : EncryptionType) : State :=
  match AnyStreamInfo.tryFromWithEncryption header encryptionType with
  | .error _ => s
  | .ok info =>
    if info.id ∈ s.openStreams then s
    else
      let key := s.readers.length
      { s with
        readers := s.readers ++ [⟨info, identity, [], true, true⟩]
        openStreams :=
          AList.insert info.id ⟨⟨0, 0, info.totalLength⟩, key, info.encryptionType⟩ s.openStreams }

/-- Handles an incoming chunk packet. -/
def handleChunk (s : State) (chunk : Chunk) (encryptionType : EncryptionType) : State :=
  match AList.lookup chunk.streamId s.openStreams with
  | none => s
  | some descriptor =>
    if descriptor.encryptionType ≠ encryptionType then
      s.closeStreamWithError chunk.streamId .encryptionTypeMismatch
    else if descriptor.progress.chunkIndex ≠ chunk.chunkIndex then
      s.closeStreamWithError chunk.streamId .missedChunk
    else
      let progress := { descriptor.progress with
        chunkIndex := descriptor.progress.chunkIndex + 1
        bytesProcessed := descriptor.progress.bytesProcessed + chunk.content.length }
      let s := { s with
        openStreams := AList.insert chunk.streamId { descriptor with progress } s.openStreams }
      if progress.bytesTotal.any fun total => progress.bytesProcessed > total then
        s.closeStreamWithError chunk.streamId .lengthExceeded
      else s.yieldChunk chunk.streamId chunk.content

/-- Handles an incoming trailer packet. -/
def handleTrailer (s : State) (trailer : Trailer) : State :=
  match AList.lookup trailer.streamId s.openStreams with
  | none => s
  | some descriptor =>
    if ¬ descriptor.progress.bytesTotal.all fun total =>
        descriptor.progress.bytesProcessed ≥ total then
      s.closeStreamWithError trailer.streamId .incomplete
    else if trailer.reason ≠ "" then
      s.closeStreamWithError trailer.streamId (.abnormalEnd trailer.reason)
    else s.closeStream trailer.streamId

end State

/-- A packet as it reaches the manager. -/
inductive Packet where
  | header (header : Header) (identity : String) (encryptionType : EncryptionType)
  | chunk (chunk : Chunk) (encryptionType : EncryptionType)
  | trailer (trailer : Trailer)

/-- The stream that the packet belongs to. -/
def Packet.streamId : Packet → String
  | .header packet _ _ => packet.streamId
  | .chunk packet _ => packet.streamId
  | .trailer packet => packet.streamId

inductive Action where
  | receive (packet : Packet)
  /-- The last reference to the manager is dropped: the room is closed. -/
  | dropManager
  | dropReader (key : ReaderKey)

namespace State

def handle (s : State) : Packet → State
  | .header header identity encryptionType => s.handleHeader header identity encryptionType
  | .chunk chunk encryptionType => s.handleChunk chunk encryptionType
  | .trailer trailer => s.handleTrailer trailer

/-- The senders in the descriptors are dropped with the manager. -/
def dropManager (s : State) : State :=
  { s with
    running := false
    openStreams := ∅
    readers := s.readers.map Reader.hangUp }

def step (s : State) : Action → Option State
  | .receive packet => if s.running then some (s.handle packet) else none
  | .dropManager => if s.running then some s.dropManager else none
  | .dropReader key =>
    if s.hasReader key then some (s.modifyReader key fun r => { r with alive := false }) else none

end State

end LiveKit.DataStream
