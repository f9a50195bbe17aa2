import LiveKit.DataStream.IncomingTheorems
import LiveKit.Lib.Projection

/-!
# The streams of one participant

`SessionEvent::DataStreamHeader` and its siblings in `rtc_session.rs`, their handlers in
`room/mod.rs`, and the manager behind them. Every event has the identity of its sender, but only
the one of a header is handed on, and the manager looks streams up by their identifiers alone. So
the streams of a participant are their own only as long as the packets of the others do not name
one of them. A run in which they do not is, for the readers of the participant, the run of their
own packets.
-/

namespace LiveKit.DataStream

open AList List Option

/-- The events of a session that carry the packets of data streams. -/
inductive SessionEvent where
  | dataStreamHeader (header : Header) (participantIdentity : String)
    (encryptionType : EncryptionType)
  | dataStreamChunk (chunk : Chunk) (participantIdentity : String)
    (encryptionType : EncryptionType)
  | dataStreamTrailer (trailer : Trailer) (participantIdentity : String)

namespace SessionEvent

def participantIdentity : SessionEvent → String
  | dataStreamHeader _ identity _ => identity
  | dataStreamChunk _ identity _ => identity
  | dataStreamTrailer _ identity => identity

/-- What `RoomSession::handle_data_stream_header`, `handle_data_stream_chunk` and
`handle_data_stream_trailer` hand to the manager. -/
def packet : SessionEvent → Packet
  | dataStreamHeader header identity encryptionType => .header header identity encryptionType
  | dataStreamChunk chunk _ encryptionType => .chunk chunk encryptionType
  | dataStreamTrailer trailer _ => .trailer trailer

end SessionEvent

namespace State

/-- The manager after the events. -/
def receiveFrom (s : State) (events : List SessionEvent) : State :=
  events.foldl (fun s event => s.handle event.packet) s

/-- The readers of the streams that the participant opened. -/
def readersOf (s : State) (participant : String) : List Reader :=
  s.readers.filter fun r => r.identity = participant

/-- The participant who opened the stream that is open under the identifier. -/
def owner (s : State) (id : String) : Option String :=
  (AList.lookup id s.openStreams).bind fun d => s.readers[d.chunkTx]?.map fun r => r.identity

/-- The event does not meet a stream of the other side: an open stream of the participant gets
chunks and trailers from no one else, and no stream of someone else is open under the identifier
for which the participant sends a header. -/
def KeepsApart (participant : String) (s : State) : SessionEvent → Prop
  | .dataStreamHeader header identity _ =>
    identity = participant → ∀ other ∈ s.owner header.streamId, other = participant
  | .dataStreamChunk chunk identity _ =>
    identity ≠ participant → s.owner chunk.streamId ≠ some participant
  | .dataStreamTrailer trailer identity =>
    identity ≠ participant → s.owner trailer.streamId ≠ some participant

/-- No event of the run meets a stream of the other side. -/
def Apart (participant : String) (s : State) : List SessionEvent → Prop
  | [] => True
  | event :: events =>
    s.KeepsApart participant event ∧ Apart participant (s.handle event.packet) events

instance (participant : String) (s : State) (event : SessionEvent) :
    Decidable (s.KeepsApart participant event) :=
  match event with
  | .dataStreamHeader _ _ _ => inferInstanceAs (Decidable (_ → _))
  | .dataStreamChunk _ _ _ => inferInstanceAs (Decidable (_ → _))
  | .dataStreamTrailer _ _ => inferInstanceAs (Decidable (_ → _))

end State

/-! ## What a packet does to the stream that it names -/

/-- What becomes of an open stream, and what its reader learns. -/
structure Change where
  stream : Option Descriptor
  reader : Reader → Reader

namespace Change

/-- The stream is closed with an error. -/
def failed (err : StreamError) : Change := ⟨none, fun r => (r.send (.error err)).hangUp⟩

end Change

namespace Descriptor

instance (d : Descriptor) (content : Bytes) : Decidable (d.Fits content) :=
  inferInstanceAs (Decidable (∀ total ∈ d.progress.bytesTotal,
    d.progress.bytesProcessed + content.length ≤ total))

instance (d : Descriptor) : Decidable d.Complete :=
  inferInstanceAs (Decidable (∀ total ∈ d.progress.bytesTotal,
    total ≤ d.progress.bytesProcessed))

/-- What a packet does to the stream, by what is known of the stream alone. -/
def change (d : Descriptor) : Packet → Change
  | .header _ _ _ => ⟨some d, fun r => r⟩
  | .chunk chunk encryptionType =>
    if d.encryptionType ≠ encryptionType then .failed .encryptionTypeMismatch
    else if d.progress.chunkIndex ≠ chunk.chunkIndex then .failed .missedChunk
    else if d.Fits chunk.content then
      ⟨some (d.advance chunk.content), fun r => r.send (.ok chunk.content)⟩
    else .failed .lengthExceeded
  | .trailer trailer =>
    if ¬ d.Complete then .failed .incomplete
    else if trailer.reason ≠ "" then .failed (.abnormalEnd trailer.reason)
    else ⟨none, Reader.hangUp⟩

/-- The same stream, with its reader in another place. -/
def moved (d : Descriptor) (key : ReaderKey) : Descriptor := { d with chunkTx := key }

/-- Every change that a packet can make; where the reader is has nothing to do with it. -/
theorem change_cases (d : Descriptor) (p : Packet) :
    (∀ key, (d.moved key).change p = ⟨some (d.moved key), fun r => r⟩) ∨
    (∃ err, ∀ key, (d.moved key).change p = .failed err) ∨
    (∃ content, ∀ key, (d.moved key).change p
      = ⟨some ((d.advance content).moved key), fun r => r.send (.ok content)⟩) ∨
    ∀ key, (d.moved key).change p = ⟨none, Reader.hangUp⟩ := by
  cases p with
  | header => exact .inl fun _ => rfl
  | chunk chunk encryptionType =>
    by_cases hencryption : d.encryptionType ≠ encryptionType
    · exact .inr (.inl ⟨_, fun _ => if_pos hencryption⟩)
    · by_cases hindex : d.progress.chunkIndex ≠ chunk.chunkIndex
      · exact .inr (.inl ⟨_, fun _ => (if_neg hencryption).trans (if_pos hindex)⟩)
      · by_cases hfits : d.Fits chunk.content
        · refine .inr (.inr (.inl ⟨chunk.content, fun _ => ?_⟩))
          exact (if_neg hencryption).trans ((if_neg hindex).trans (if_pos hfits))
        · refine .inr (.inl ⟨.lengthExceeded, fun _ => ?_⟩)
          exact (if_neg hencryption).trans ((if_neg hindex).trans (if_neg hfits))
  | trailer trailer =>
    by_cases hcomplete : ¬ d.Complete
    · exact .inr (.inl ⟨_, fun _ => if_pos hcomplete⟩)
    · by_cases hreason : trailer.reason ≠ ""
      · exact .inr (.inl ⟨_, fun _ => (if_neg hcomplete).trans (if_pos hreason)⟩)
      · exact .inr (.inr (.inr fun _ => (if_neg hcomplete).trans (if_neg hreason)))

theorem change_reader_identity (d : Descriptor) (p : Packet) (r : Reader) :
    ((d.change p).reader r).identity = r.identity := by
  show (((d.moved d.chunkTx).change p).reader r).identity = r.identity
  rcases d.change_cases p with h | ⟨err, h⟩ | ⟨content, h⟩ | h
  · rw [h]
  · rw [h]
    exact r.send_identity _
  · rw [h]
    exact r.send_identity _
  · rw [h]
    rfl

theorem change_reader_alive (d : Descriptor) (p : Packet) (r : Reader) :
    ((d.change p).reader r).alive = r.alive := by
  show (((d.moved d.chunkTx).change p).reader r).alive = r.alive
  rcases d.change_cases p with h | ⟨err, h⟩ | ⟨content, h⟩ | h
  · rw [h]
  · rw [h]
    exact r.send_alive _
  · rw [h]
    exact r.send_alive _
  · rw [h]
    rfl

/-- The stream keeps its channel. -/
theorem change_stream_chunkTx {d d' : Descriptor} {p : Packet}
    (h' : (d.change p).stream = some d') : d'.chunkTx = d.chunkTx := by
  have h' : ((d.moved d.chunkTx).change p).stream = some d' := h'
  rcases d.change_cases p with h | ⟨err, h⟩ | ⟨content, h⟩ | h
  · rw [h] at h'
    cases h'
    rfl
  · rw [h] at h'
    cases h'
  · rw [h] at h'
    cases h'
    rfl
  · rw [h] at h'
    cases h'

/-- With its reader in another place the stream goes through the same change. -/
theorem change_moved (d : Descriptor) (key : ReaderKey) (p : Packet) :
    (d.moved key).change p
      = ⟨(d.change p).stream.map fun d' => d'.moved key, (d.change p).reader⟩ := by
  show _ = (⟨((d.moved d.chunkTx).change p).stream.map fun d' => d'.moved key,
    ((d.moved d.chunkTx).change p).reader⟩ : Change)
  rcases d.change_cases p with h | ⟨err, h⟩ | ⟨content, h⟩ | h
  · rw [h, h]
    rfl
  · rw [h, h]
    rfl
  · rw [h, h]
    rfl
  · rw [h, h]
    rfl

end Descriptor

namespace State

/-- The state has gone through the change of a stream. -/
structure Changed (s : State) (id : String) (d : Descriptor) (c : Change) (s' : State) : Prop where
  streams : ∀ id', AList.lookup id' s'.openStreams
    = if id' = id then c.stream else AList.lookup id' s.openStreams
  readers : s'.readers = s.readers.modify d.chunkTx c.reader

theorem Changed.ended (s : State) (id : String) (d : Descriptor) (f : Reader → Reader) :
    Changed s id d ⟨none, f⟩ (s.ended id d f) :=
  ⟨fun id' => s.ended_lookup id id' d f, rfl⟩

variable {d : Descriptor} {s : State}

theorem handleChunk_changed {chunk : Chunk}
    (hd : lookup chunk.streamId s.openStreams = some d)
    (halive : s.hasReader d.chunkTx = true) (encryptionType : EncryptionType) :
    Changed s chunk.streamId d (d.change (.chunk chunk encryptionType))
      (s.handleChunk chunk encryptionType) := by
  by_cases hencryption : d.encryptionType = encryptionType
  · subst hencryption
    by_cases hindex : d.progress.chunkIndex = chunk.chunkIndex
    · by_cases hfits : d.Fits chunk.content
      · have hchange : d.change (.chunk chunk d.encryptionType)
            = ⟨some (d.advance chunk.content), fun r => r.send (.ok chunk.content)⟩ := by
          unfold Descriptor.change
          simp only
          rw [if_neg (by simp), if_neg (by simp [hindex]), if_pos hfits]
        rw [hchange, handleChunk_next hd hindex hfits, if_pos halive]
        exact ⟨fun id' => s.advanced_lookup _ id' d _, rfl⟩
      · have hchange : d.change (.chunk chunk d.encryptionType) = .failed .lengthExceeded := by
          unfold Descriptor.change
          simp only
          rw [if_neg (by simp), if_neg (by simp [hindex]), if_neg hfits]
        rw [hchange, handleChunk_tooLong hd hindex hfits]
        exact Changed.ended s _ d _
    · have hchange : d.change (.chunk chunk d.encryptionType) = .failed .missedChunk := by
        unfold Descriptor.change
        simp only
        rw [if_neg (by simp), if_pos hindex]
      have hhandle : s.handleChunk chunk d.encryptionType
          = s.closeStreamWithError chunk.streamId .missedChunk := by
        unfold handleChunk
        rw [hd]
        simp only
        rw [if_neg (by simp), if_pos hindex]
      rw [hchange, hhandle, closeStreamWithError_eq hd]
      exact Changed.ended s _ d _
  · have hchange : d.change (.chunk chunk encryptionType) = .failed .encryptionTypeMismatch := by
      unfold Descriptor.change
      simp only
      rw [if_pos hencryption]
    have hhandle : s.handleChunk chunk encryptionType
        = s.closeStreamWithError chunk.streamId .encryptionTypeMismatch := by
      unfold handleChunk
      rw [hd]
      simp only
      rw [if_pos hencryption]
    rw [hchange, hhandle, closeStreamWithError_eq hd]
    exact Changed.ended s _ d _

theorem handleTrailer_changed {trailer : Trailer}
    (hd : lookup trailer.streamId s.openStreams = some d) :
    Changed s trailer.streamId d (d.change (.trailer trailer)) (s.handleTrailer trailer) := by
  by_cases hcomplete : d.Complete
  · by_cases hreason : trailer.reason = ""
    · have hchange : d.change (.trailer trailer) = ⟨none, Reader.hangUp⟩ := by
        unfold Descriptor.change
        simp only
        rw [if_neg (by simp [hcomplete]), if_neg (by simp [hreason])]
      rw [hchange, handleTrailer_complete hd hcomplete hreason]
      exact Changed.ended s _ d _
    · have hchange : d.change (.trailer trailer) = .failed (.abnormalEnd trailer.reason) := by
        unfold Descriptor.change
        simp only
        rw [if_neg (by simp [hcomplete]), if_pos hreason]
      rw [hchange, handleTrailer_abnormal hd hcomplete hreason]
      exact Changed.ended s _ d _
  · have hchange : d.change (.trailer trailer) = .failed .incomplete := by
      unfold Descriptor.change
      simp only
      rw [if_pos hcomplete]
    rw [hchange, handleTrailer_incomplete hd hcomplete]
    exact Changed.ended s _ d _

/-- A header for an identifier that is in use is refused. -/
theorem handleHeader_open {header : Header}
    (hd : lookup header.streamId s.openStreams = some d) (identity : String)
    (encryptionType : EncryptionType) : s.handleHeader header identity encryptionType = s := by
  unfold handleHeader
  cases hinfo : AnyStreamInfo.tryFromWithEncryption header encryptionType with
  | error err => rfl
  | ok info =>
    -- the stream is opened under the identifier of the header, which is in use
    have hid := (AnyStreamInfo.tryFromWithEncryption_spec hinfo).1
    have hopen : info.id ∈ s.openStreams := by
      rw [hid, ← lookup_isSome, hd]
      rfl
    simp only
    rw [if_pos hopen]

/-- A packet for a stream that is open. -/
theorem handle_changed {p : Packet} (hd : lookup p.streamId s.openStreams = some d)
    (halive : s.hasReader d.chunkTx = true) : Changed s p.streamId d (d.change p) (s.handle p) := by
  cases p with
  | header header identity encryptionType =>
    show Changed s header.streamId d _ (s.handleHeader header identity encryptionType)
    rw [handleHeader_open hd]
    refine ⟨fun id => ?_, ?_⟩
    · split
      · next hid =>
        rw [hid]
        exact hd
      · rfl
    · exact (modify_id _ _).symm
  | chunk chunk encryptionType => exact handleChunk_changed hd halive encryptionType
  | trailer trailer => exact handleTrailer_changed hd

end State

/-- The stream that the packet opens, where no stream is open under its identifier. -/
def Packet.opens : Packet → Option (AnyStreamInfo × String)
  | .header packet identity encryptionType =>
    match AnyStreamInfo.tryFromWithEncryption packet encryptionType with
    | .error _ => none
    | .ok info => some (info, identity)
  | .chunk _ _ => none
  | .trailer _ => none

theorem Packet.opens_spec {p : Packet} {info : AnyStreamInfo} {identity : String}
    (h : p.opens = some (info, identity)) :
    ∃ header encryptionType, p = .header header identity encryptionType ∧
      info.id = header.streamId := by
  cases p with
  | header header identity' encryptionType =>
    unfold opens at h
    simp only at h
    split at h
    · cases h
    · next info' hinfo =>
      cases h
      exact ⟨header, encryptionType, rfl, (AnyStreamInfo.tryFromWithEncryption_spec hinfo).1⟩
  | chunk | trailer => cases h

namespace State

variable {s : State}

variable {p : Packet} {id : String} {s' : State}

/-- A packet under whose identifier no stream is open. -/
theorem handle_unopened (h : lookup p.streamId s.openStreams = none) :
    s.handle p = match p.opens with
      | none => s
      | some (info, identity) => s.opened info identity := by
  cases p with
  | header header identity encryptionType =>
    show s.handleHeader header identity encryptionType = _
    unfold handleHeader
    unfold Packet.opens
    simp only
    cases hinfo : AnyStreamInfo.tryFromWithEncryption header encryptionType with
    | error err => rfl
    | ok info =>
      have hid := (AnyStreamInfo.tryFromWithEncryption_spec hinfo).1
      have hnew : info.id ∉ s.openStreams := by
        rw [hid]
        exact lookup_eq_none.mp h
      simp only
      rw [if_neg hnew]
      rfl
  | chunk chunk encryptionType =>
    show s.handleChunk chunk encryptionType = s
    unfold handleChunk
    rw [show lookup chunk.streamId s.openStreams = none from h]
  | trailer trailer =>
    show s.handleTrailer trailer = s
    unfold handleTrailer
    rw [show lookup trailer.streamId s.openStreams = none from h]

/-! ## What the participant's own packets would have done -/

/-- The channels are well formed, and no reader has been dropped. -/
structure Live (s : State) : Prop where
  wf : Wf s
  alive : ∀ r ∈ s.readers, r.alive = true

variable {d : Descriptor}

theorem Live.reader (h : Live s) (hd : lookup id s.openStreams = some d) :
    ∃ r, s.readers[d.chunkTx]? = some r ∧ s.owner id = some r.identity ∧
      s.hasReader d.chunkTx = true := by
  obtain ⟨r, hr, -, -⟩ := h.wf.reader id d hd
  refine ⟨r, hr, ?_, ?_⟩
  · unfold owner
    rw [hd, bind_some, hr]
    rfl
  · rw [hasReader_eq hr]
    exact h.alive r (mem_of_getElem? hr)

theorem owner_eq_none (h : lookup id s.openStreams = none) :
    s.owner id = none := by
  unfold owner
  rw [h]
  rfl

theorem Live.handle (h : Live s) (p : Packet) : Live (s.handle p) where
  wf := h.wf.handled (s.handle_cases p)
  alive r hr := by
    cases hd : lookup p.streamId s.openStreams with
    | none =>
      rw [handle_unopened hd] at hr
      split at hr
      · -- nothing is opened
        exact h.alive r hr
      · rcases mem_append.mp hr with hr | hr
        · exact h.alive r hr
        · rw [mem_singleton.mp hr]
    | some d =>
      obtain ⟨-, -, -, halive⟩ := h.reader hd
      rw [(handle_changed hd halive).readers] at hr
      -- the reader of the stream has changed, and no packet drops it
      obtain ⟨key, hkey⟩ := mem_iff_getElem?.mp hr
      rw [getElem?_modify] at hkey
      obtain ⟨r', hr', hchange⟩ := map_eq_some_iff.mp hkey
      have halive' := h.alive r' (mem_of_getElem? hr')
      rw [← hchange]
      split
      · rw [Descriptor.change_reader_alive, halive']
      · exact halive'

theorem Changed.owner_eq (h : Changed s id d (d.change p) s')
    (hd : lookup id s.openStreams = some d) {id' : String} {d' : Descriptor}
    (hd' : lookup id' s'.openStreams = some d') :
    s'.owner id' = s.owner id' := by
  have hidentity : ∀ key : ReaderKey, (s'.readers[key]?.map fun r => r.identity)
      = s.readers[key]?.map fun r => r.identity := by
    intro key
    rw [h.readers, getElem?_modify]
    cases s.readers[key]? with
    | none => rfl
    | some r =>
      show some (if d.chunkTx = key then _ else _ : Reader).identity = some r.identity
      split
      · rw [d.change_reader_identity p r]
      · rfl
  have hstream := h.streams id'
  unfold owner
  rw [hd', bind_some, hidentity]
  rw [hd'] at hstream
  split at hstream
  · next hid =>
    -- the stream itself keeps its channel, and with it its owner
    rw [hid, hd, bind_some, Descriptor.change_stream_chunkTx hstream.symm]
  · rw [← hstream, bind_some]

/-- The readers that the participant's streams have. -/
def sees (participant : String) (r : Reader) : Bool := r.identity = participant

/-- The stream under the identifier if it is one of the participant, with the place of its reader
among the readers of the participant. -/
def streamOf (s : State) (participant id : String) : Option Descriptor :=
  if s.owner id = some participant then
    (AList.lookup id s.openStreams).map fun d =>
      d.moved (s.readers.rank (sees participant) d.chunkTx)
  else none

theorem streamOf_unopened (h : lookup id s.openStreams = none) (participant : String) :
    s.streamOf participant id = none := by
  unfold streamOf
  rw [h]
  split <;> rfl

variable {participant : String}

/-- An open stream that has an owner. -/
theorem exists_of_owner (howner : s.owner id = some participant) :
    ∃ d, lookup id s.openStreams = some d := by
  cases hd : lookup id s.openStreams with
  | none =>
    rw [owner_eq_none hd] at howner
    cases howner
  | some d => exact ⟨d, rfl⟩

/-- A packet does not change who a reader is for. -/
theorem sees_change (d : Descriptor) (p : Packet) (participant : String) (r : Reader) :
    sees participant ((d.change p).reader r) = sees participant r := by
  unfold sees
  rw [d.change_reader_identity p r]

/-- A packet for an open stream changes it for its owner, and for no one else. -/
theorem Changed.streamOf_eq (h : Changed s id d (d.change p) s')
    (hd : lookup id s.openStreams = some d) (participant id' : String) :
    s'.streamOf participant id' = if id' = id then
        if s.owner id = some participant then
          (d.change p).stream.map fun d' =>
            d'.moved (s.readers.rank (sees participant) d.chunkTx)
        else none
      else s.streamOf participant id' := by
  -- the readers keep their places among those of the participant
  have hrank : ∀ key, s'.readers.rank (sees participant) key
      = s.readers.rank (sees participant) key := by
    intro key
    rw [h.readers]
    exact rank_modify (sees_change d p participant) _ _ _
  have hstream := h.streams id'
  cases hd' : lookup id' s'.openStreams with
  | none =>
    rw [streamOf_unopened hd']
    rw [hd'] at hstream
    split at hstream
    · rw [if_pos (by assumption), ← hstream]
      split <;> rfl
    · rw [if_neg (by assumption), streamOf_unopened hstream.symm]
  | some d' =>
    unfold streamOf
    rw [h.owner_eq hd hd', hd', map_some, hrank]
    rw [hd'] at hstream
    split at hstream
    · next hid =>
      rw [if_pos hid, hid, ← hstream, Descriptor.change_stream_chunkTx hstream.symm]
      rfl
    · next hid => rw [if_neg hid, ← hstream, map_some]

/-- A header opens a stream of its sender. -/
theorem Live.streamOf_opened (h : Live s) (info : AnyStreamInfo)
    (identity participant id : String) :
    (s.opened info identity).streamOf participant id = if id = info.id then
        if identity = participant then
          some ⟨⟨0, 0, info.totalLength⟩, (s.readersOf participant).length, info.encryptionType⟩
        else none
      else s.streamOf participant id := by
  unfold streamOf owner
  rw [opened_lookup]
  split
  · -- the new reader is the last of all, and of those of its sender
    rw [bind_some, opened_getElem?, if_pos rfl]
    show (if some identity = some participant then _ else _) = _
    by_cases hidentity : identity = participant
    · rw [if_pos (by rw [hidentity]), if_pos hidentity]
      show some (Descriptor.mk _ (List.rank _ (s.readers ++ _) s.readers.length) _) = _
      rw [rank_append_of_le _ (le_refl _), rank_length]
      rfl
    · rw [if_neg (by simpa using hidentity), if_neg hidentity]
  · cases hd : lookup id s.openStreams with
    | none => rfl
    | some d =>
      -- a stream from before has a reader before the new one
      obtain ⟨r, hr, -⟩ := h.reader hd
      have hlt := (List.getElem?_eq_some_iff.mp hr).1
      have hrank : (s.opened info identity).readers.rank (sees participant) d.chunkTx
          = s.readers.rank (sees participant) d.chunkTx :=
        rank_append_of_le _ (Nat.le_of_lt hlt)
      rw [bind_some, bind_some, opened_getElem?, if_neg (Nat.ne_of_lt hlt),
        map_some, map_some, hrank]

/-- `own` is `s` without the streams of the others. -/
structure Seen (participant : String) (s own : State) : Prop where
  live : Live s
  ownLive : Live own
  readers : own.readers = s.readersOf participant
  streams : ∀ id, AList.lookup id own.openStreams = s.streamOf participant id

theorem Live.new : Live new := ⟨Wf.new, fun _ hmem => absurd hmem not_mem_nil⟩

theorem Seen.new (participant : String) : Seen participant new new where
  live := Live.new
  ownLive := Live.new
  readers := rfl
  streams _ := (streamOf_unopened rfl participant).symm

namespace Seen

variable {participant : String} {s own : State} (h : Seen participant s own)
include h

variable {p : Packet} {other : String} {info : AnyStreamInfo}

/-- A packet for a stream of the participant does the same to both. -/
theorem handle_own (howner : s.owner p.streamId = some participant) :
    Seen participant (s.handle p) (own.handle p) := by
  obtain ⟨d, hd⟩ := exists_of_owner howner
  obtain ⟨r, hr, hidentity, halive⟩ := h.live.reader hd
  have hown : lookup p.streamId own.openStreams
      = some (d.moved (s.readers.rank (sees participant) d.chunkTx)) := by
    rw [h.streams]
    unfold streamOf
    rw [if_pos howner, hd, map_some]
  obtain ⟨-, -, -, hownAlive⟩ := h.ownLive.reader hown
  have hchanged := handle_changed hd halive
  have hownChanged := handle_changed hown hownAlive
  rw [Descriptor.change_moved] at hownChanged
  refine ⟨h.live.handle p, h.ownLive.handle p, ?_, ?_⟩
  · have hsees : sees participant r = true := by
      rw [hidentity, some.injEq] at howner
      exact decide_eq_true howner
    rw [hownChanged.readers, h.readers]
    unfold readersOf
    rw [hchanged.readers]
    exact (filter_modify_of_pos (sees_change d p participant) hr hsees).symm
  · intro id
    rw [hownChanged.streams, hchanged.streamOf_eq hd, if_pos howner, h.streams]

/-- A packet for a stream of someone else is not seen. -/
theorem handle_other (howner : s.owner p.streamId = some other) (hne : other ≠ participant) :
    Seen participant (s.handle p) own := by
  obtain ⟨d, hd⟩ := exists_of_owner howner
  obtain ⟨r, hr, hidentity, halive⟩ := h.live.reader hd
  have hchanged := handle_changed hd halive
  have hnot : s.owner p.streamId ≠ some participant := by
    rw [howner]
    exact fun heq => hne (some.inj heq)
  refine ⟨h.live.handle p, h.ownLive, ?_, ?_⟩
  · have hunseen : ∀ r', s.readers[d.chunkTx]? = some r' → sees participant r' = false := by
      intro r' hr'
      rw [hr, some.injEq] at hr'
      rw [hidentity, hr'] at hnot
      exact decide_eq_false fun heq => hnot (by rw [heq])
    rw [h.readers]
    unfold readersOf
    rw [hchanged.readers]
    exact (filter_modify_of_neg (sees_change d p participant) hunseen).symm
  · intro id
    rw [hchanged.streamOf_eq hd, if_neg hnot, h.streams]
    split
    · next hid =>
      rw [hid]
      unfold streamOf
      rw [if_neg hnot]
    · rfl

/-- A header of the participant opens the same stream in both. -/
theorem opened_own (hs : Live (s.opened info participant))
    (hown : Live (own.opened info participant)) :
    Seen participant (s.opened info participant) (own.opened info participant) where
  live := hs
  ownLive := hown
  readers := by
    show own.readers ++ _ = (s.readers ++ _).filter _
    rw [h.readers, filter_append]
    unfold readersOf
    rw [filter_cons_of_pos (by simp), filter_nil]
  streams id := by
    rw [opened_lookup, h.live.streamOf_opened, if_pos rfl, h.readers, h.streams]

/-- A stream of someone else is opened unseen. -/
theorem opened_other (hne : other ≠ participant) (hs : Live (s.opened info other))
    (hnew : lookup info.id s.openStreams = none) :
    Seen participant (s.opened info other) own where
  live := hs
  ownLive := h.ownLive
  readers := by
    show own.readers = (s.readers ++ _).filter _
    rw [h.readers, filter_append]
    unfold readersOf
    rw [filter_cons_of_neg (by simp [hne]), filter_nil, append_nil]
  streams id := by
    rw [h.streams, h.live.streamOf_opened, if_neg hne]
    split
    · next hid => rw [hid, streamOf_unopened hnew]
    · rfl

end Seen

/-- A packet of the participant, which meets no stream of someone else. -/
theorem Seen.event_own {own : State} (h : Seen participant s own) {event : SessionEvent}
    (hevent : event.participantIdentity = participant) (hapart : s.KeepsApart participant event) :
    Seen participant (s.handle event.packet) (own.handle event.packet) := by
  cases hd : lookup event.packet.streamId s.openStreams with
  | none =>
    have hown : lookup event.packet.streamId own.openStreams = none := by
      rw [h.streams, streamOf_unopened hd]
    have hlive := h.live.handle event.packet
    have hownLive := h.ownLive.handle event.packet
    rw [handle_unopened hd] at hlive ⊢
    rw [handle_unopened hown] at hownLive ⊢
    cases hopens : event.packet.opens with
    | none => exact h
    | some pair =>
      obtain ⟨info, identity⟩ := pair
      rw [hopens] at hlive hownLive
      -- a packet that opens a stream is a header, and carries its sender
      have hidentity : identity = participant := by
        obtain ⟨header, encryptionType, hpacket, -⟩ := Packet.opens_spec hopens
        cases event with
        | dataStreamHeader =>
          cases hpacket
          exact hevent
        | dataStreamChunk | dataStreamTrailer => cases hpacket
      subst hidentity
      exact h.opened_own hlive hownLive
  | some d =>
    obtain ⟨r, -, howner, -⟩ := h.live.reader hd
    by_cases hne : r.identity = participant
    · rw [hne] at howner
      exact h.handle_own howner
    · -- what is left is a chunk or a trailer for a stream of someone else
      have hown : lookup event.packet.streamId own.openStreams = none := by
        rw [h.streams]
        unfold streamOf
        rw [howner, if_neg (by simpa using hne)]
      have hopens : event.packet.opens = none := by
        cases event with
        | dataStreamHeader header identity encryptionType =>
          exact absurd (hapart hevent r.identity howner) hne
        | dataStreamChunk | dataStreamTrailer => rfl
      rw [handle_unopened hown, hopens]
      exact h.handle_other howner hne

/-- A packet of someone else, which meets no stream of the participant. -/
theorem Seen.event_other {own : State} (h : Seen participant s own) {event : SessionEvent}
    (hevent : event.participantIdentity ≠ participant) (hapart : s.KeepsApart participant event) :
    Seen participant (s.handle event.packet) own := by
  cases hd : lookup event.packet.streamId s.openStreams with
  | none =>
    have hlive := h.live.handle event.packet
    rw [handle_unopened hd] at hlive ⊢
    cases hopens : event.packet.opens with
    | none => exact h
    | some pair =>
      obtain ⟨info, identity⟩ := pair
      rw [hopens] at hlive
      obtain ⟨header, encryptionType, hpacket, hid⟩ := Packet.opens_spec hopens
      -- again the header carries its sender, who is someone else
      have hidentity : identity ≠ participant := by
        cases event with
        | dataStreamHeader =>
          cases hpacket
          exact hevent
        | dataStreamChunk | dataStreamTrailer => cases hpacket
      apply h.opened_other hidentity hlive
      rw [hid]
      rw [hpacket] at hd
      exact hd
  | some d =>
    obtain ⟨r, -, howner, -⟩ := h.live.reader hd
    by_cases hne : r.identity = participant
    · rw [hne] at howner
      -- under an identifier in use a header is refused; the others do not meet the stream
      cases event with
      | dataStreamHeader header identity encryptionType =>
        show Seen participant (s.handleHeader header identity encryptionType) own
        rw [handleHeader_open hd]
        exact h
      | dataStreamChunk | dataStreamTrailer => exact absurd howner (hapart hevent)
    · exact h.handle_other howner hne

/-- A run that keeps the streams apart is, for the participant, the run of their own packets. -/
theorem Seen.run {own : State} (h : Seen participant s own) {events : List SessionEvent}
    (hapart : s.Apart participant events) :
    Seen participant (s.receiveFrom events)
      (own.receiveFrom
        (events.filter fun event => event.participantIdentity = participant)) := by
  induction events generalizing s own with
  | nil => exact h
  | cons event events ih =>
    -- both runs take the packets of the participant, the other one those of the others as well
    obtain ⟨hevent, hrest⟩ := hapart
    by_cases hidentity : event.participantIdentity = participant
    · rw [filter_cons_of_pos (by simpa using hidentity)]
      exact ih (h.event_own hidentity hevent) hrest
    · rw [filter_cons_of_neg (by simpa using hidentity)]
      exact ih (h.event_other hidentity hevent) hrest

/-- As long as nobody's packets meet a stream of the other side, the readers of a participant's
streams, with all that there is to read in them, depend on the participant's own packets only. -/
theorem isolated {participant : String} {events events' : List SessionEvent}
    (hsame : events.filter (fun event => event.participantIdentity = participant)
      = events'.filter fun event => event.participantIdentity = participant)
    (hapart : new.Apart participant events) (hapart' : new.Apart participant events') :
    (new.receiveFrom events).readersOf participant
      = (new.receiveFrom events').readersOf participant := by
  rw [← ((Seen.new participant).run hapart).readers,
    ← ((Seen.new participant).run hapart').readers, hsame]

/-- The header of a byte stream in two examples. -/
def sampleHeader (id : String) : Header := ⟨id, "", "", none, ∅, some (.byteHeader ⟨""⟩)⟩

/-- Bob can use an identifier that Alice will not use, and gets nowhere with a header for hers. -/
theorem isolated_of_headers :
    (new.receiveFrom [.dataStreamHeader (sampleHeader "1") "alice" .none,
        .dataStreamChunk ⟨"1", 0, [5]⟩ "alice" .none]).readersOf "alice"
      = (new.receiveFrom [.dataStreamHeader (sampleHeader "2") "bob" .none,
        .dataStreamHeader (sampleHeader "1") "alice" .none,
        .dataStreamHeader (sampleHeader "1") "bob" .none,
        .dataStreamChunk ⟨"2", 0, [7]⟩ "bob" .none,
        .dataStreamChunk ⟨"1", 0, [5]⟩ "alice" .none]).readersOf "alice" := by
  apply isolated
  · rfl
  · refine ⟨?_, ?_, trivial⟩ <;> decide
  · refine ⟨?_, ?_, ?_, ?_, ?_, trivial⟩ <;> decide

/-- A chunk from Bob comes out of the stream that Alice opened, and ends it. -/
theorem chunk_injected : ¬ ∀ (participant : String) (events events' : List SessionEvent),
    events.filter (fun event => event.participantIdentity = participant)
        = events'.filter (fun event => event.participantIdentity = participant) →
      (new.receiveFrom events).readersOf participant
        = (new.receiveFrom events').readersOf participant := by
  intro h
  have hsame := h "alice" [.dataStreamHeader (sampleHeader "1") "alice" .none,
      .dataStreamChunk ⟨"1", 0, [5]⟩ "alice" .none]
    [.dataStreamHeader (sampleHeader "1") "alice" .none,
      .dataStreamChunk ⟨"1", 0, [7]⟩ "bob" .none,
      .dataStreamChunk ⟨"1", 0, [5]⟩ "alice" .none] rfl
  have hitems := congrArg (fun readers => readers.map fun r => r.items.length) hsame
  revert hitems
  decide

end State

end LiveKit.DataStream
