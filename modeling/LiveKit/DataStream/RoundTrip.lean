import LiveKit.DataStream.IncomingTheorems
import LiveKit.DataStream.OutgoingTheorems
import LiveKit.Lib.Interleaving

/-!
# Round trips of data streams

Any number of outgoing streams share the reliable channel, on which their packets may be interleaved
in any way. At the receiver each stream has one reader, which gets what was written.
-/

namespace LiveKit.DataStream

open State List Option TransitionSystem

/-! ## One stream at the receiver -/

/-- A stream as it comes to the receiver. -/
structure Transmission where
  header : Header
  identity : String
  encryptionType : EncryptionType
  info : AnyStreamInfo
  hinfo : AnyStreamInfo.tryFromWithEncryption header encryptionType = .ok info
  contents : List Bytes
  /-- A length that the header declares is that of the contents. -/
  declared : ∀ total, info.totalLength = some total → total = contents.flatten.length

namespace Transmission

variable (t : Transmission)

theorem info_id : t.info.id = t.header.streamId :=
  (AnyStreamInfo.tryFromWithEncryption_spec t.hinfo).1

theorem info_encryptionType : t.info.encryptionType = t.encryptionType :=
  (AnyStreamInfo.tryFromWithEncryption_spec t.hinfo).2.2

/-- The packets that are still to come after the header and `index` chunks. -/
def remaining (index : ℕ) : List Bytes → List Packet
  | [] => [.trailer ⟨t.header.streamId, ""⟩]
  | content :: contents =>
    .chunk ⟨t.header.streamId, index, content⟩ t.encryptionType :: remaining (index + 1) contents

def packets : List Packet :=
  .header t.header t.identity t.encryptionType :: t.remaining 0 t.contents

/-- The only reader of the stream. -/
structure Only (s : State) (key : ReaderKey) (r : Reader) : Prop where
  reader : s.readers[key]? = some r
  info : r.info = t.info
  identity : r.identity = t.identity
  only : ∀ key' r', s.readers[key']? = some r' → r'.info.id = t.header.streamId → key' = key

/-- The descriptor of the stream when some chunks have come. -/
def descriptor (key : ReaderKey) (done : List Bytes) : Descriptor :=
  ⟨⟨done.length, done.flatten.length, t.info.totalLength⟩, key, t.encryptionType⟩

/-- How far the stream is when some of its packets are still to come. A reader that has been
dropped may or may not have a descriptor. -/
inductive Stage (s : State) : List Packet → Prop
  | before (hnone : AList.lookup t.header.streamId s.openStreams = none)
    (hno : ∀ r ∈ s.readers, r.info.id ≠ t.header.streamId) : Stage s t.packets
  | during {done todo : List Bytes} (hcontents : done ++ todo = t.contents) {key : ReaderKey}
    {r : Reader} (honly : t.Only s key r)
    (hlive : r.alive = true → r.items = done.map .ok ∧
      AList.lookup t.header.streamId s.openStreams = some (t.descriptor key done)) :
    Stage s (t.remaining done.length todo)
  | after {key : ReaderKey} {r : Reader} (honly : t.Only s key r)
    (hnone : AList.lookup t.header.streamId s.openStreams = none)
    (hlive : r.alive = true → r.items = t.contents.map .ok ∧ r.isOpen = false) : Stage s []

end Transmission

namespace Transmission

variable {t : Transmission} {s s' : State}

variable {packet : Packet} {rest : List Packet}

/-- The packets of a stream that is under way and those of other streams add no reader to it. -/
theorem Only.handled {packet : Packet} {key : ReaderKey} {r : Reader} (h : t.Only s key r)
    (hs' : State.Handled s packet s')
    (hpacket : packet.streamId ≠ t.header.streamId ∨
      ∀ header identity encryptionType, packet ≠ .header header identity encryptionType) :
    ∃ r', t.Only s' key r' ∧ r'.alive = r.alive := by
  obtain ⟨r', hr', hinfo, hidentity, halive⟩ := hs'.keeps h.reader
  refine ⟨r', ⟨hr', hinfo.trans h.info, hidentity.trans h.identity, ?_⟩, halive⟩
  intro key' r'' hr'' hid
  rcases hs'.origin hr'' with ⟨r₀, hr₀, hinfo₀⟩ | ⟨header, identity, encryptionType, rfl, hid'⟩
  · exact h.only key' r₀ hr₀ (hinfo₀ ▸ hid)
  · rcases hpacket with hother | hnone
    · exact absurd (hid'.symm.trans hid) hother
    · exact absurd rfl (hnone header identity encryptionType)

/-- A packet of another stream leaves the stream where it is. -/
theorem Stage.other (h : t.Stage s rest) (hwf : State.Wf s) (hs' : State.Handled s packet s')
    (hid : packet.streamId ≠ t.header.streamId) : t.Stage s' rest := by
  obtain ⟨hlookup, hreaders⟩ := hs'.other hwf hid
  have hsame : ∀ {key r}, t.Only s key r → t.Only s' key r := by
    intro key r honly
    have hr := hreaders key r honly.reader (honly.info ▸ t.info_id)
    obtain ⟨r', honly', -⟩ := honly.handled hs' (.inl hid)
    refine ⟨hr, honly.info, honly.identity, honly'.only⟩
  cases h with
  | before hnone hno =>
    refine .before (hlookup.trans hnone) ?_
    intro r hr hrid
    obtain ⟨key, hkey⟩ := mem_iff_getElem?.mp hr
    rcases hs'.origin hkey with ⟨r₀, hr₀, hinfo⟩ | ⟨header, identity, encryptionType, rfl, hid'⟩
    · exact hno r₀ (mem_of_getElem? hr₀) (hinfo ▸ hrid)
    · exact hid (hid'.symm.trans hrid)
  | during hcontents honly hlive =>
    refine .during hcontents (hsame honly) ?_
    rw [hlookup]
    exact hlive
  | after honly hnone hlive => exact .after (hsame honly) (hlookup.trans hnone) hlive

/-- The next packet of the stream. -/
theorem Stage.next (h : t.Stage s (packet :: rest)) :
    t.Stage (s.handle packet) rest := by
  generalize hall : packet :: rest = all at h
  cases h with
  | before hnone hno =>
    obtain ⟨rfl, rfl⟩ := List.cons.inj hall
    -- the header opens the stream
    have hopened : s.handle (.header t.header t.identity t.encryptionType)
        = s.opened t.info t.identity := by
      show s.handleHeader _ _ _ = _
      unfold handleHeader
      rw [t.hinfo]
      simp only
      rw [if_neg]
      · rfl
      · rw [t.info_id]
        exact AList.lookup_eq_none.mp hnone
    rw [hopened]
    have hnothing : [] ++ t.contents = t.contents := rfl
    have honly : t.Only (s.opened t.info t.identity) s.readers.length
        ⟨t.info, t.identity, [], true, true⟩ := by
      refine ⟨?_, rfl, rfl, ?_⟩
      · rw [opened_getElem?, if_pos rfl]
      · intro key' r' hr' hid
        rw [opened_getElem?] at hr'
        split at hr'
        · next hkey => exact hkey
        · exact absurd hid (hno r' (mem_of_getElem? hr'))
    refine .during hnothing honly ?_
    intro _
    rw [opened_lookup, if_pos t.info_id.symm, t.info_encryptionType]
    exact ⟨rfl, rfl⟩
  | @during done todo hcontents key r honly hlive =>
    have hs' := s.handle_cases packet
    have hkey : (t.descriptor key done).chunkTx = key := rfl
    cases todo with
    | nil =>
      obtain ⟨rfl, rfl⟩ := List.cons.inj hall
      -- the trailer comes after all that was declared
      rw [append_nil] at hcontents
      obtain ⟨r', honly', halive⟩ := honly.handled hs' (.inr (by simp))
      refine .after honly' hs'.lookup_of_trailer ?_
      intro hr'
      obtain ⟨hitems, hd⟩ := hlive (halive ▸ hr')
      have hcomplete : (t.descriptor key done).Complete := by
        intro total htotal
        rw [t.declared total htotal, ← hcontents]
        rfl
      have hreader := honly'.reader
      rw [show s.handle _ = s.handleTrailer _ from rfl,
        handleTrailer_complete hd hcomplete rfl, ended_getElem?, if_pos hkey,
        honly.reader] at hreader
      rw [← some.inj hreader, ← hcontents]
      exact ⟨hitems, rfl⟩
    | cons content todo =>
      obtain ⟨rfl, rfl⟩ := List.cons.inj hall
      obtain ⟨r', honly', halive⟩ := honly.handled hs' (.inr (by simp))
      rw [append_cons] at hcontents
      have hlength : done.length + 1 = (done ++ [content]).length := by
        rw [length_append, length_singleton]
      rw [hlength]
      refine .during hcontents honly' ?_
      intro hr'
      rw [halive] at hr'
      obtain ⟨hitems, hd⟩ := hlive hr'
      -- the chunk has the next number and goes no further than the declared length
      have hfits : (t.descriptor key done).Fits content := by
        intro total htotal
        rw [t.declared total htotal, ← hcontents, flatten_append, length_append,
          flatten_append, length_append, flatten_singleton]
        exact Nat.le_add_right _ _
      have hadvance : (t.descriptor key done).advance content
          = t.descriptor key (done ++ [content]) := by
        unfold descriptor Descriptor.advance
        simp only [length_append, length_singleton, flatten_append,
          flatten_singleton]
      have hnext : s.handle (.chunk ⟨t.header.streamId, done.length, content⟩ t.encryptionType)
          = s.advanced t.header.streamId (t.descriptor key done) content := by
        let chunk : Chunk := ⟨t.header.streamId, done.length, content⟩
        have hindex : (t.descriptor key done).progress.chunkIndex = chunk.chunkIndex := rfl
        have hhandle : s.handleChunk chunk t.encryptionType
            = if s.hasReader (t.descriptor key done).chunkTx
              then s.advanced chunk.streamId (t.descriptor key done) content
              else s.ended chunk.streamId (t.descriptor key done) Reader.hangUp :=
          handleChunk_next hd hindex hfits
        rw [hkey, if_pos ((hasReader_eq honly.reader).trans hr')] at hhandle
        exact hhandle
      have hreader : r.send (.ok content) = r' := by
        have hr := honly'.reader
        rw [hnext, advanced_getElem?, if_pos hkey, honly.reader] at hr
        exact some.inj hr
      rw [hnext, advanced_lookup, if_pos rfl, hadvance, ← hreader, Reader.send_of_alive hr']
      refine ⟨?_, rfl⟩
      rw [map_append, hitems]
      rfl
  | after => cases hall

/-- A reader may be dropped at any time. -/
theorem Stage.dropReader (h : t.Stage s rest) (dropped : ReaderKey) :
    t.Stage (s.modifyReader dropped fun r => { r with alive := false }) rest := by
  have honly' : ∀ {key r}, t.Only s key r →
      ∃ r', t.Only (s.modifyReader dropped fun r => { r with alive := false }) key r' ∧
        (r'.alive = true → r' = r) := by
    intro key r honly
    have hold : ∀ key' r',
        (s.modifyReader dropped fun r => { r with alive := false }).readers[key']?
        = some r' → r'.info.id = t.header.streamId → key' = key := by
      intro key' r' hr' hid
      rw [modifyReader_getElem?] at hr'
      split at hr'
      · obtain ⟨r₀, hr₀, rfl⟩ := map_eq_some_iff.mp hr'
        exact honly.only key' r₀ hr₀ hid
      · exact honly.only key' r' hr' hid
    by_cases hkey : dropped = key
    · refine ⟨{ r with alive := false }, ⟨?_, honly.info, honly.identity, hold⟩, by simp⟩
      rw [modifyReader_getElem?, if_pos hkey, honly.reader]
      rfl
    · refine ⟨r, ⟨?_, honly.info, honly.identity, hold⟩, fun _ => rfl⟩
      rw [modifyReader_getElem?, if_neg hkey, honly.reader]
  cases h with
  | before hnone hno =>
    refine .before hnone ?_
    intro r' hr' hid
    obtain ⟨key, hkey⟩ := mem_iff_getElem?.mp hr'
    rw [modifyReader_getElem?] at hkey
    split at hkey
    · obtain ⟨r₀, hr₀, rfl⟩ := map_eq_some_iff.mp hkey
      exact hno r₀ (mem_of_getElem? hr₀) hid
    · exact hno r' (mem_of_getElem? hkey) hid
  | during hcontents honly hlive =>
    obtain ⟨r', hr', hsame⟩ := honly' honly
    refine .during hcontents hr' ?_
    intro halive
    have hr := hsame halive
    rw [hr] at halive ⊢
    exact hlive halive
  | after honly hnone hlive =>
    obtain ⟨r', hr', hsame⟩ := honly' honly
    refine .after hr' hnone ?_
    intro halive
    have hr := hsame halive
    rw [hr] at halive ⊢
    exact hlive halive

end Transmission

/-- The packets that come in a run. -/
def received (run : List Action) : List Packet :=
  run.filterMap fun
    | .receive packet => some packet
    | _ => none

/-- When the packets of the stream that come in a run are those that are still to come, nothing
is left of it at the end. -/
theorem Transmission.Stage.run {t : Transmission} {s s' : State} {run : List Action}
    (hwf : State.Wf s)
    (h : t.Stage s ((received run).filter fun packet => packet.streamId = t.header.streamId))
    (hkept : Action.dropManager ∉ run) (hexec : exec step s run = some s') :
    t.Stage s' [] := by
  induction run generalizing s with
  | nil =>
    rw [exec_nil, some.injEq] at hexec
    exact hexec ▸ h
  | cons a run ih =>
    obtain ⟨s₁, hs₁, hrest⟩ := exec_cons_eq_some.mp hexec
    have hkept' : Action.dropManager ∉ run := fun hmem => hkept (mem_cons_of_mem a hmem)
    refine ih (hwf.step hs₁) ?_ hkept' hrest
    rcases step_cases hs₁ with ⟨packet, rfl, rfl⟩ | ⟨rfl, -⟩ | ⟨key, rfl, rfl⟩
    · rw [show received (.receive packet :: run) = packet :: received run from rfl] at h
      by_cases hid : packet.streamId = t.header.streamId
      · rw [filter_cons_of_pos (by simpa using hid)] at h
        exact h.next
      · rw [filter_cons_of_neg (by simpa using hid)] at h
        exact h.other hwf (s.handle_cases packet) hid
    · exact absurd mem_cons_self hkept
    · exact h.dropReader key

/-! ## All streams -/

namespace Job

/-- What was written, all in one. -/
def written : Job → Output
  | sendText text _ => .text text
  | sendBytes bytes _ => .bytes bytes
  | streamText writes _ => .text (String.join writes)
  | streamBytes writes _ => .bytes writes.flatten

/-- A writer of bytes may declare the length in its options: it is that of what is written. -/
def Declared : Job → Prop
  | streamBytes writes options =>
    ∀ total, options.totalLength = some total → total = writes.flatten.length
  | _ => True

theorem flatMap_byteContents (writes : List Bytes) :
    (writes.flatMap byteContents).flatten = writes.flatten := by
  induction writes with
  | nil => rfl
  | cons bytes writes ih =>
    rw [flatMap_cons, flatten_append, ih, chunks_flatten bytes (by decide),
      flatten_cons]

theorem flatMap_textContents (writes : List String) :
    ∃ texts : List String, writes.flatMap textContents = texts.map Utf8.encode ∧
      (texts.map Utf8.encode).flatten = Utf8.encode (String.join writes) := by
  induction writes with
  | nil => exact ⟨[], rfl, by rw [Utf8.encode_join]⟩
  | cons text writes ih =>
    obtain ⟨texts, htexts, hflatten⟩ := ih
    obtain ⟨first, hfirst, hflatten'⟩ := textContents_spec text
    refine ⟨first ++ texts, ?_, ?_⟩
    · rw [flatMap_cons, htexts, hfirst, map_append]
    · rw [map_append, flatten_append, hflatten, hflatten', String.join_cons,
        Utf8.encode_append]

/-- The chunks are the data, and those of a text are texts. -/
theorem contents_spec (job : Job) :
    job.contents.flatten = job.written.data ∧
      ∀ text, job.written = .text text →
        ∃ texts : List String, job.contents = texts.map Utf8.encode := by
  cases job with
  | sendText text options =>
    obtain ⟨texts, htexts, hflatten⟩ := textContents_spec text
    refine ⟨?_, fun _ _ => ⟨texts, htexts⟩⟩
    rw [show contents _ = textContents text from rfl, htexts, hflatten]
    rfl
  | sendBytes bytes options => exact ⟨chunks_flatten bytes (by decide), by simp [written]⟩
  | streamText writes options =>
    obtain ⟨texts, htexts, hflatten⟩ := flatMap_textContents writes
    refine ⟨?_, fun _ _ => ⟨texts, htexts⟩⟩
    rw [show contents _ = writes.flatMap textContents from rfl, htexts, hflatten]
    rfl
  | streamBytes writes options => exact ⟨flatMap_byteContents writes, by simp [written]⟩

/-- The header says what kind of stream it is, and how long it is if that is known. -/
theorem header_spec {job : Job} (hdeclared : job.Declared) (uuid : String)
    (encryptionType : EncryptionType) :
    ∃ info, AnyStreamInfo.tryFromWithEncryption (job.header uuid) encryptionType = .ok info ∧
      (∀ total, info.totalLength = some total → total = job.written.data.length) ∧
      ((∃ bytes info', job.written = .bytes bytes ∧ info = .byte info') ∨
        ∃ text info', job.written = .text text ∧ info = .text info') := by
  cases job with
  | sendText text options =>
    refine ⟨_, rfl, ?_, .inr ⟨text, _, rfl, rfl⟩⟩
    intro total htotal
    exact (some.inj htotal).symm
  | sendBytes bytes options =>
    refine ⟨_, rfl, ?_, .inl ⟨bytes, _, rfl, rfl⟩⟩
    intro total htotal
    exact (some.inj htotal).symm
  | streamText writes options =>
    refine ⟨_, rfl, ?_, .inr ⟨_, _, rfl, rfl⟩⟩
    intro total htotal
    cases htotal
  | streamBytes writes options => exact ⟨_, rfl, hdeclared, .inl ⟨_, _, rfl, rfl⟩⟩

end Job

/-- One outgoing stream, its sender and how its packets are encrypted. -/
structure Transfer where
  job : Job
  /-- The identifier of the stream if the options have none. -/
  uuid : String
  identity : String
  encryptionType : EncryptionType

namespace Transfer

variable (transfer : Transfer)

def id : String := (transfer.job.header transfer.uuid).streamId

/-- A published packet as it comes to the receiver. -/
def incoming (packet : DataPacket) : Packet :=
  match packet.value with
  | .streamHeader header => .header header transfer.identity transfer.encryptionType
  | .streamChunk chunk => .chunk chunk transfer.encryptionType
  | .streamTrailer trailer => .trailer trailer

/-- The packets of the stream on a channel that loses nothing. -/
def packets : List Packet :=
  match transfer.job.run transfer.uuid .lossless with
  | .ok tx => tx.sent.map transfer.incoming
  | .error _ => []

/-- The stream has one reader, and that reads what was written, unless it has been dropped. -/
def ReceivedBy (s : State) : Prop :=
  ∃ key r, s.readers[key]? = some r ∧ r.info.id = transfer.id ∧ r.identity = transfer.identity ∧
    (∀ (key' : ReaderKey) (r' : Reader), s.readers[key']? = some r' →
      r'.info.id = transfer.id → key' = key) ∧
    (r.alive = true → r.readAll = some (.ok transfer.job.written))

/-- The stream as it comes to the receiver. -/
theorem exists_transmission (hdeclared : transfer.job.Declared) :
    ∃ t : Transmission, t.header.streamId = transfer.id ∧ t.packets = transfer.packets ∧
      t.contents = transfer.job.contents ∧ ∀ s, t.Stage s [] → transfer.ReceivedBy s := by
  obtain ⟨hflatten, htexts⟩ := transfer.job.contents_spec
  obtain ⟨info, hinfo, htotal, hkind⟩ :=
    Job.header_spec hdeclared transfer.uuid transfer.encryptionType
  let t : Transmission :=
    ⟨transfer.job.header transfer.uuid, transfer.identity, transfer.encryptionType, info, hinfo,
      transfer.job.contents, hflatten ▸ htotal⟩
  refine ⟨t, rfl, ?_, rfl, ?_⟩
  · obtain ⟨tx, hrun, hsent⟩ := transfer.job.run_lossless transfer.uuid
    have hremaining : ∀ (contents : List Bytes) (index : ℕ),
        t.remaining index contents
          = (chunkPackets transfer.id index contents).map transfer.incoming
            ++ [.trailer ⟨transfer.id, ""⟩] := by
      intro contents
      induction contents with
      | nil => exact fun _ => rfl
      | cons content contents ih =>
        intro index
        rw [Transmission.remaining, ih, chunkPackets, map_cons, cons_append]
        rfl
    unfold packets Transmission.packets
    rw [hrun]
    simp only
    rw [hsent, hremaining]
    unfold streamPackets
    rw [map_append, map_cons, cons_append]
    rfl
  · intro s hstage
    generalize hrest : ([] : List Packet) = rest at hstage
    cases hstage with
    | before => cases hrest
    | @during done todo => cases todo <;> cases hrest
    | @after key r honly _ hlive =>
      have hid : info.id = transfer.id := t.info_id
      refine ⟨key, r, honly.reader, honly.info ▸ hid, honly.identity, honly.only, ?_⟩
      intro halive
      obtain ⟨hitems, hopen⟩ := hlive halive
      unfold Reader.readAll
      rw [honly.info, hitems, hopen]
      rcases hkind with ⟨bytes, info', hwritten, rfl⟩ | ⟨text, info', hwritten, rfl⟩
      · rw [hwritten] at hflatten ⊢
        show (readBytes false [] (transfer.job.contents.map .ok)).map _ = _
        rw [readBytes_closed, hflatten]
        rfl
      · obtain ⟨texts, hcontents⟩ := htexts text hwritten
        rw [hwritten] at hflatten ⊢
        show (readText false "" (transfer.job.contents.map .ok)).map _ = _
        rcases readText_closed "" transfer.job.contents with
          ⟨⟨chunk, hmem, hchunk⟩, -⟩ | ⟨-, text', hread, htext'⟩
        · -- every chunk is a text
          rw [hcontents] at hmem
          obtain ⟨part, -, rfl⟩ := mem_map.mp hmem
          rw [Utf8.decode_encode] at hchunk
          cases hchunk
        · rw [hread, Utf8.encode_injective (htext'.trans hflatten)]
          rfl

end Transfer

/-- Every stream is received by one reader, there are no other readers, and every chunk of a text is
a text. -/
structure RoundTrip {ι : Type} (transfers : ι → Transfer) (s : State) : Prop where
  received : ∀ i, (transfers i).ReceivedBy s
  no_other : ∀ r ∈ s.readers, ∃ i, r.info.id = (transfers i).id
  valid : ∀ i text, (transfers i).job.written = .text text → ∀ chunk encryptionType,
    .chunk chunk encryptionType ∈ (transfers i).packets →
      ∃ part, Utf8.decode chunk.content = some part

theorem Transmission.streamId_of_mem (t : Transmission) {packet : Packet} (h : packet ∈ t.packets) :
    packet.streamId = t.header.streamId := by
  have hremaining : ∀ (contents : List Bytes) (index : ℕ), packet ∈ t.remaining index contents →
      packet.streamId = t.header.streamId := by
    intro contents
    induction contents with
    | nil =>
      intro index hmem
      rw [Transmission.remaining, mem_singleton] at hmem
      rw [hmem]
      rfl
    | cons content contents ih =>
      intro index hmem
      rcases mem_cons.mp hmem with rfl | hmem
      · rfl
      · exact ih (index + 1) hmem
  rcases mem_cons.mp h with rfl | hmem
  · rfl
  · exact hremaining t.contents 0 hmem

/-- The chunks among the packets carry the contents. -/
theorem Transmission.content_of_mem (t : Transmission) {chunk : Chunk}
    {encryptionType : EncryptionType} (h : .chunk chunk encryptionType ∈ t.packets) :
    chunk.content ∈ t.contents := by
  have hremaining : ∀ (contents : List Bytes) (index : ℕ),
      .chunk chunk encryptionType ∈ t.remaining index contents → chunk.content ∈ contents := by
    intro contents
    induction contents with
    | nil =>
      intro index hmem
      rw [Transmission.remaining, mem_singleton] at hmem
      cases hmem
    | cons content contents ih =>
      intro index hmem
      rcases mem_cons.mp hmem with heq | hmem
      · cases heq
        exact mem_cons_self
      · exact mem_cons_of_mem content (ih (index + 1) hmem)
  rcases mem_cons.mp h with heq | hmem
  · cases heq
  · exact hremaining t.contents 0 hmem

/-- Every reader is for a stream whose header has come. -/
theorem readers_from {ι : Type} {ids : ι → String} {run : List Action} {s : State}
    (hrun : ∀ packet ∈ received run, ∃ i, packet.streamId = ids i)
    (hexec : exec step .new run = some s) : ∀ r ∈ s.readers, ∃ i, r.info.id = ids i := by
  refine exec_invariant_of_labels (P := fun a => ∀ packet, a = .receive packet →
    ∃ i, packet.streamId = ids i) (I := fun s => ∀ r ∈ s.readers, ∃ i, r.info.id = ids i)
    ?_ (by simp [new]) ?_ hexec
  · intro s a s' hI ha hstep r hr
    obtain ⟨key, hkey⟩ := mem_iff_getElem?.mp hr
    rcases step_cases hstep with ⟨packet, rfl, rfl⟩ | ⟨-, rfl⟩ | ⟨dropped, -, rfl⟩
    · rcases (s.handle_cases packet).origin hkey with ⟨r₀, hr₀, hinfo⟩ | ⟨header, _, _, rfl, hid⟩
      · exact hinfo ▸ hI r₀ (mem_of_getElem? hr₀)
      · obtain ⟨i, hi⟩ := ha _ rfl
        exact ⟨i, hid.trans hi⟩
    · obtain ⟨r₀, hr₀, rfl⟩ := mem_map.mp hr
      exact hI r₀ hr₀
    · rw [modifyReader_getElem?] at hkey
      split at hkey
      · obtain ⟨r₀, hr₀, rfl⟩ := map_eq_some_iff.mp hkey
        exact hI r₀ (mem_of_getElem? hr₀)
      · exact hI r (mem_of_getElem? hkey)
  · intro a ha packet heq
    apply hrun
    rw [heq] at ha
    exact mem_filterMap.mpr ⟨_, ha, rfl⟩

/-- Whatever the order in which the packets of the streams come, as long as the manager is kept. -/
theorem roundTrip {ι : Type} [DecidableEq ι] (transfers : ι → Transfer)
    (hids : Function.Injective fun i => (transfers i).id)
    (hdeclared : ∀ i, (transfers i).job.Declared) (run : List Action)
    (hrun : Interleaving (fun i => (transfers i).packets) (received run))
    (hkept : Action.dropManager ∉ run) (s : State) (hexec : exec State.step .new run = some s) :
    RoundTrip transfers s := by
  have hstreamId : ∀ i, ∀ packet ∈ (transfers i).packets, packet.streamId = (transfers i).id := by
    intro i packet hpacket
    obtain ⟨t, hid, hpackets, -, -⟩ := (transfers i).exists_transmission (hdeclared i)
    rw [← hid]
    exact t.streamId_of_mem (hpackets ▸ hpacket)
  constructor
  · intro i
    obtain ⟨t, hid, hpackets, -, hreceived⟩ := (transfers i).exists_transmission (hdeclared i)
    apply hreceived
    have hown : (received run).filter (fun packet => packet.streamId = t.header.streamId)
        = t.packets := by
      rw [hrun.filter_eq (i := i), hpackets]
      · intro packet hpacket
        simpa [hid] using hstreamId i packet hpacket
      · intro j hj packet hpacket
        have hne : (transfers j).id ≠ (transfers i).id := fun heq => hj (hids heq)
        simpa [hid, hstreamId j packet hpacket] using hne
    refine Transmission.Stage.run State.Wf.new ?_ hkept hexec
    rw [hown]
    exact .before rfl (by simp [new])
  · refine readers_from ?_ hexec
    intro packet hpacket
    obtain ⟨i, hi⟩ := hrun.exists_source hpacket
    exact ⟨i, hstreamId i packet hi⟩
  · intro i text hwritten chunk encryptionType hchunk
    obtain ⟨t, -, hpackets, hcontents, -⟩ := (transfers i).exists_transmission (hdeclared i)
    obtain ⟨texts, htexts⟩ := (transfers i).job.contents_spec.2 text hwritten
    rw [← hpackets] at hchunk
    have hmem := t.content_of_mem hchunk
    rw [hcontents, htexts] at hmem
    obtain ⟨part, -, hpart⟩ := mem_map.mp hmem
    exact ⟨part, hpart ▸ Utf8.decode_encode part⟩

/-- A text and some bytes at the same time. -/
theorem roundTrip_two :
    let transfers : Bool → Transfer := fun
      | true => ⟨.sendText "né" ⟨"", ∅, [], some "a", none, none, none, [], none⟩, "",
          "alice", .none⟩
      | false => ⟨.streamBytes [[1], [], [2, 3]] ⟨"", ∅, [], some "b", none, none, some 3⟩, "",
          "alice", .gcm⟩
    let text := (transfers true).packets
    let bytes := (transfers false).packets
    let run : List Action :=
      (text.take 1 ++ bytes.take 2 ++ text.drop 1 ++ bytes.drop 2).map .receive
    ∃ s, exec step .new run = some s ∧ RoundTrip transfers s := by
  intro transfers text bytes run
  have hrun : Interleaving (fun i => (transfers i).packets) (received run) := by
    refine .cons true rfl ?_
    refine .cons false rfl ?_
    refine .cons false rfl ?_
    refine .cons true rfl ?_
    refine .cons true rfl ?_
    refine .cons false rfl ?_
    refine .cons false rfl ?_
    exact .nil fun i => by cases i <;> rfl
  obtain ⟨s, hexec⟩ : ∃ s, exec step .new run = some s :=
    isSome_iff_exists.mp (by decide +kernel)
  refine ⟨s, hexec, roundTrip transfers ?_ ?_ run hrun ?_ s hexec⟩
  · intro i j h
    cases i <;> cases j <;> simp_all [transfers, Transfer.id, Job.header, textHeaders, byteHeaders]
  · intro i
    cases i with
    | true => trivial
    | false =>
      intro total htotal
      exact (some.inj htotal).symm
  · intro hmem
    obtain ⟨_, -, h⟩ := mem_map.mp hmem
    cases h

/-- A writer of bytes declares a length of one, writes nothing and is closed: the reader gets an
error. -/
theorem declared_not_written :
    ¬ ∀ (ι : Type) [DecidableEq ι] (transfers : ι → Transfer),
      Function.Injective (fun i => (transfers i).id) → ∀ run : List Action,
        Interleaving (fun i => (transfers i).packets) (received run) →
          Action.dropManager ∉ run → ∀ s, exec State.step .new run = some s →
            RoundTrip transfers s := by
  intro hround
  let transfers : Unit → Transfer := fun _ =>
    ⟨.streamBytes [] ⟨"", ∅, [], some "a", none, none, some 1⟩, "", "alice", .none⟩
  let run : List Action := (transfers ()).packets.map .receive
  have hrun : Interleaving (fun i => (transfers i).packets) (received run) := by
    refine .cons () rfl ?_
    refine .cons () rfl ?_
    exact .nil fun _ => rfl
  have hkept : Action.dropManager ∉ run := by
    intro hmem
    obtain ⟨_, -, h⟩ := mem_map.mp hmem
    cases h
  obtain ⟨s, hexec⟩ : ∃ s, exec step .new run = some s := ⟨_, rfl⟩
  have hreaders : (exec step .new run).map (fun s =>
      s.readers.map fun r => (r.alive, r.readAll)) = some [(true, some (.error .incomplete))] := rfl
  rw [hexec, map_some, some.injEq] at hreaders
  obtain ⟨key, r, hr, -, -, -, hread⟩ :=
    (hround Unit transfers (fun _ _ _ => rfl) run hrun hkept s hexec).received ()
  have hmem : (r.alive, r.readAll) ∈ s.readers.map fun r => (r.alive, r.readAll) :=
    mem_map_of_mem (mem_of_getElem? hr)
  rw [hreaders, mem_singleton, Prod.mk.injEq] at hmem
  have hok := hread hmem.1
  rw [hmem.2] at hok
  cases hok

end LiveKit.DataStream
