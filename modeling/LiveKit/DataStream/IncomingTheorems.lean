import LiveKit.DataStream.Incoming

/-!
# What the packets of a stream do

Every packet is either ignored or does one thing to the stream that it names: it opens it, adds a
chunk, or ends it. The streams that are open and the readers whose channels are open belong
together, so what happens to one stream does not concern the readers of the others.
-/

namespace LiveKit.DataStream

open AList List Option

namespace Reader

variable {r : Reader}

/-- A reader that is there gets what is sent. -/
theorem send_of_alive (h : r.alive = true) (item : Except StreamError Bytes) :
    r.send item = { r with items := r.items ++ [item] } := if_pos h

@[simp] theorem send_info (r : Reader) (item : Except StreamError Bytes) :
    (r.send item).info = r.info := by
  unfold send
  split <;> rfl

@[simp] theorem send_identity (r : Reader) (item : Except StreamError Bytes) :
    (r.send item).identity = r.identity := by
  unfold send
  split <;> rfl

@[simp] theorem send_isOpen (r : Reader) (item : Except StreamError Bytes) :
    (r.send item).isOpen = r.isOpen := by
  unfold send
  split <;> rfl

@[simp] theorem send_alive (r : Reader) (item : Except StreamError Bytes) :
    (r.send item).alive = r.alive := by
  unfold send
  split <;> rfl

theorem hangUp_of_closed (h : r.isOpen = false) : r.hangUp = r := by
  unfold hangUp
  rw [← h]

end Reader

namespace Descriptor

/-- The progress of the stream after one more chunk. -/
def advance (d : Descriptor) (content : Bytes) : Descriptor :=
  { d with progress := { d.progress with
      chunkIndex := d.progress.chunkIndex + 1
      bytesProcessed := d.progress.bytesProcessed + content.length } }

/-- There is place for the content in the length that was declared. -/
def Fits (d : Descriptor) (content : Bytes) : Prop :=
  ∀ total, d.progress.bytesTotal = some total →
    d.progress.bytesProcessed + content.length ≤ total

/-- All that was declared has come. -/
def Complete (d : Descriptor) : Prop :=
  ∀ total, d.progress.bytesTotal = some total → total ≤ d.progress.bytesProcessed

end Descriptor

namespace State

theorem modifyReader_getElem? (s : State) (key key' : ReaderKey) (f : Reader → Reader) :
    (s.modifyReader key f).readers[key']?
      = if key = key' then s.readers[key']?.map f else s.readers[key']? := by
  unfold modifyReader
  simp only
  rw [getElem?_modify]
  split
  · rfl
  · cases s.readers[key']? <;> rfl

theorem dropManager_getElem? (s : State) (key : ReaderKey) :
    s.dropManager.readers[key]? = s.readers[key]?.map Reader.hangUp :=
  getElem?_map

variable {key : ReaderKey} {s : State}

theorem hasReader_eq (h : s.readers[key]? = some r) : s.hasReader key = r.alive := by
  unfold hasReader
  rw [h]
  rfl

/-! ## What a packet does -/

/-- A reader is dispatched, and its stream is open. -/
def opened (s : State) (info : AnyStreamInfo) (identity : String) : State :=
  { s with
    readers := s.readers ++ [⟨info, identity, [], true, true⟩]
    openStreams := AList.insert info.id
      ⟨⟨0, 0, info.totalLength⟩, s.readers.length, info.encryptionType⟩ s.openStreams }

/-- The stream is not open any more, and `f` says what its reader learns of it. -/
def ended (s : State) (id : String) (d : Descriptor) (f : Reader → Reader) : State :=
  { s with openStreams := AList.erase id s.openStreams }.modifyReader d.chunkTx f

/-- The reader gets the next chunk. -/
def advanced (s : State) (id : String) (d : Descriptor) (content : Bytes) : State :=
  let s := { s with openStreams := AList.insert id (d.advance content) s.openStreams }
  s.modifyReader d.chunkTx fun r => r.send (.ok content)

variable {d : Descriptor}

variable {id : String} {chunk : Chunk} {a : Action}

/-- `close_stream` ends the stream and hangs up. -/
theorem closeStream_eq (h : lookup id s.openStreams = some d) :
      s.closeStream id = s.ended id d Reader.hangUp := by
  unfold closeStream
  rw [h]
  rfl

/-- `close_stream_with_error` sends the error before it hangs up. -/
theorem closeStreamWithError_eq (h : lookup id s.openStreams = some d) (err : StreamError) :
    s.closeStreamWithError id err = s.ended id d fun r => (r.send (.error err)).hangUp := by
  unfold closeStreamWithError
  rw [h]
  rfl

/-- Every way in which a packet is handled. -/
inductive Handled (s : State) : Packet → State → Prop
  | ignored {packet : Packet}
    (h : AList.lookup packet.streamId s.openStreams = none ∨
      ∃ header identity encryptionType, packet = .header header identity encryptionType) :
    Handled s packet s
  | opened {header : Header} {identity : String} {encryptionType : EncryptionType}
    {info : AnyStreamInfo}
    (hinfo : AnyStreamInfo.tryFromWithEncryption header encryptionType = .ok info)
    (hnew : AList.lookup info.id s.openStreams = none) :
    Handled s (.header header identity encryptionType) (s.opened info identity)
  | failed {p : Packet} {d : Descriptor} (err : StreamError)
    (hd : AList.lookup p.streamId s.openStreams = some d) :
    Handled s p (s.ended p.streamId d fun r => (r.send (.error err)).hangUp)
  | abandoned {chunk : Chunk} {encryptionType : EncryptionType} {d : Descriptor}
    (hd : AList.lookup chunk.streamId s.openStreams = some d)
    (hgone : s.hasReader d.chunkTx = false) :
    Handled s (.chunk chunk encryptionType) (s.ended chunk.streamId d Reader.hangUp)
  | advanced {chunk : Chunk} {encryptionType : EncryptionType} {d : Descriptor}
    (hd : AList.lookup chunk.streamId s.openStreams = some d)
    (hindex : d.progress.chunkIndex = chunk.chunkIndex) (hfits : d.Fits chunk.content) :
    Handled s (.chunk chunk encryptionType) (s.advanced chunk.streamId d chunk.content)
  | finished {trailer : Trailer} {d : Descriptor}
    (hd : AList.lookup trailer.streamId s.openStreams = some d)
    (hcomplete : d.Complete) (hreason : trailer.reason = "") :
    Handled s (.trailer trailer) (s.ended trailer.streamId d Reader.hangUp)

/-- The next chunk of an open stream. -/
theorem handleChunk_next (hd : lookup chunk.streamId s.openStreams = some d)
    (hindex : d.progress.chunkIndex = chunk.chunkIndex) (hfits : d.Fits chunk.content) :
    s.handleChunk chunk d.encryptionType
      = if s.hasReader d.chunkTx then s.advanced chunk.streamId d chunk.content
        else s.ended chunk.streamId d Reader.hangUp := by
  have hroom : ¬ (d.progress.bytesTotal.any fun total =>
      d.progress.bytesProcessed + chunk.content.length > total) = true := by
    cases htotal : d.progress.bytesTotal with
    | none => simp
    | some total =>
      have := hfits total htotal
      simpa using this
  unfold handleChunk
  rw [hd]
  simp only
  rw [if_neg (by simp), if_neg (by simp [hindex]), if_neg hroom]
  unfold yieldChunk
  simp only [lookup_insert]
  rw [closeStream_eq (lookup_insert _)]
  unfold ended
  simp only [AssocMap.erase_insert]
  rfl

variable {trailer : Trailer}

/-- The trailer of a complete stream. -/
theorem handleTrailer_complete (hd : lookup trailer.streamId s.openStreams = some d)
    (hcomplete : d.Complete) (hreason : trailer.reason = "") :
    s.handleTrailer trailer = s.ended trailer.streamId d Reader.hangUp := by
  have hall :
      (d.progress.bytesTotal.all fun total => d.progress.bytesProcessed ≥ total) = true := by
    cases htotal : d.progress.bytesTotal with
    | none => rfl
    | some total => simpa using hcomplete total htotal
  unfold handleTrailer
  rw [hd]
  simp only
  rw [if_neg (by simp [hall]), if_neg (by simp [hreason]), closeStream_eq hd]

/-- A chunk that is longer than what was left. -/
theorem handleChunk_tooLong (hd : lookup chunk.streamId s.openStreams = some d)
    (hindex : d.progress.chunkIndex = chunk.chunkIndex) (hfits : ¬ d.Fits chunk.content) :
    s.handleChunk chunk d.encryptionType
      = s.ended chunk.streamId d fun r => (r.send (.error .lengthExceeded)).hangUp := by
  have hany : (d.progress.bytesTotal.any fun total =>
      d.progress.bytesProcessed + chunk.content.length > total) = true := by
    unfold Descriptor.Fits at hfits
    push Not at hfits
    obtain ⟨total, htotal, hlt⟩ := hfits
    rw [htotal]
    simpa using hlt
  unfold handleChunk
  rw [hd]
  simp only
  rw [if_neg (by simp), if_neg (by simp [hindex]), if_pos hany,
    closeStreamWithError_eq (lookup_insert _)]
  unfold ended
  simp only [AssocMap.erase_insert]

/-- A trailer with a reason to end the stream. -/
theorem handleTrailer_abnormal (hd : lookup trailer.streamId s.openStreams = some d)
    (hcomplete : d.Complete) (hreason : trailer.reason ≠ "") :
    s.handleTrailer trailer
      = s.ended trailer.streamId d fun r =>
          (r.send (.error (.abnormalEnd trailer.reason))).hangUp := by
  have hall : (d.progress.bytesTotal.all fun total =>
      d.progress.bytesProcessed ≥ total) = true := by
    cases htotal : d.progress.bytesTotal with
    | none => rfl
    | some total => simpa using hcomplete total htotal
  unfold handleTrailer
  rw [hd]
  simp only
  rw [if_neg (by simp [hall]), if_pos hreason, closeStreamWithError_eq hd]

/-- The trailer of a stream that is not complete. -/
theorem handleTrailer_incomplete (hd : lookup trailer.streamId s.openStreams = some d)
    (hcomplete : ¬ d.Complete) :
    s.handleTrailer trailer
      = s.ended trailer.streamId d fun r => (r.send (.error .incomplete)).hangUp := by
  have hall : ¬ (d.progress.bytesTotal.all fun total =>
      d.progress.bytesProcessed ≥ total) = true := by
    unfold Descriptor.Complete at hcomplete
    push Not at hcomplete
    obtain ⟨total, htotal, hlt⟩ := hcomplete
    rw [htotal]
    simpa using hlt
  unfold handleTrailer
  rw [hd]
  simp only
  rw [if_pos hall, closeStreamWithError_eq hd]

/-- A header opens a stream, or is ignored. -/
theorem handleHeader_cases (s : State) (header : Header) (identity : String)
    (encryptionType : EncryptionType) :
    Handled s (.header header identity encryptionType)
      (s.handleHeader header identity encryptionType) := by
  unfold handleHeader
  cases hinfo : AnyStreamInfo.tryFromWithEncryption header encryptionType with
  | error err => exact .ignored (.inr ⟨_, _, _, rfl⟩)
  | ok info =>
    simp only
    split
    · exact .ignored (.inr ⟨_, _, _, rfl⟩)
    · next hnew => exact .opened hinfo (lookup_eq_none.mpr hnew)

/-- A chunk is sent to the reader, ends its stream with an error, or is ignored. -/
theorem handleChunk_cases (s : State) (chunk : Chunk) (encryptionType : EncryptionType) :
    Handled s (.chunk chunk encryptionType) (s.handleChunk chunk encryptionType) := by
  cases hd : lookup chunk.streamId s.openStreams with
  | none =>
    unfold handleChunk
    rw [hd]
    exact .ignored (.inl hd)
  | some d =>
    by_cases hencryption : d.encryptionType = encryptionType
    · subst hencryption
      by_cases hindex : d.progress.chunkIndex = chunk.chunkIndex
      · by_cases hfits : d.Fits chunk.content
        · rw [handleChunk_next hd hindex hfits]
          cases hgone : s.hasReader d.chunkTx with
          | true => exact .advanced hd hindex hfits
          | false => exact .abandoned hd hgone
        · rw [handleChunk_tooLong hd hindex hfits]
          exact .failed (p := .chunk chunk d.encryptionType) .lengthExceeded hd
      · unfold handleChunk
        rw [hd]
        simp only
        rw [if_neg (by simp), if_pos hindex, closeStreamWithError_eq hd]
        exact .failed (p := .chunk chunk d.encryptionType) .missedChunk hd
    · unfold handleChunk
      rw [hd]
      simp only
      rw [if_pos hencryption, closeStreamWithError_eq hd]
      exact .failed (p := .chunk chunk encryptionType) .encryptionTypeMismatch hd

/-- A trailer ends its stream, or is ignored. -/
theorem handleTrailer_cases (s : State) (trailer : Trailer) :
    Handled s (.trailer trailer) (s.handleTrailer trailer) := by
  cases hd : lookup trailer.streamId s.openStreams with
  | none =>
    unfold handleTrailer
    rw [hd]
    exact .ignored (.inl hd)
  | some d =>
    by_cases hcomplete : d.Complete
    · by_cases hreason : trailer.reason = ""
      · rw [handleTrailer_complete hd hcomplete hreason]
        exact .finished hd hcomplete hreason
      · rw [handleTrailer_abnormal hd hcomplete hreason]
        exact .failed (p := .trailer trailer) (.abnormalEnd trailer.reason) hd
    · rw [handleTrailer_incomplete hd hcomplete]
      exact .failed (p := .trailer trailer) .incomplete hd

/-- What a packet does, whatever it is. -/
theorem handle_cases (s : State) (packet : Packet) : Handled s packet (s.handle packet) := by
  cases packet with
  | header header identity encryptionType => exact s.handleHeader_cases header identity _
  | chunk chunk encryptionType => exact s.handleChunk_cases chunk encryptionType
  | trailer trailer => exact s.handleTrailer_cases trailer

/-! ## Streams and their readers -/

theorem opened_lookup (s : State) (info : AnyStreamInfo) (identity id : String) :
    lookup id (s.opened info identity).openStreams
      = if id = info.id then
          some ⟨⟨0, 0, info.totalLength⟩, s.readers.length, info.encryptionType⟩
        else lookup id s.openStreams :=
  AssocMap.lookup_insert_ite _ _ _ _

theorem opened_getElem? (s : State) (info : AnyStreamInfo) (identity : String) (key : ReaderKey) :
    (s.opened info identity).readers[key]?
      = if key = s.readers.length then some ⟨info, identity, [], true, true⟩
        else s.readers[key]? := by
  show (s.readers ++ _)[key]? = _
  split
  · next hkey => rw [hkey, getElem?_concat_length]
  · next hkey =>
    rcases Nat.lt_or_gt_of_ne hkey with hlt | hlt
    · rw [getElem?_append_left hlt]
    · rw [getElem?_eq_none (by simp; omega), getElem?_eq_none (by omega)]

theorem ended_lookup (s : State) (id id' : String) (d : Descriptor) (f : Reader → Reader) :
    lookup id' (s.ended id d f).openStreams
      = if id' = id then none else lookup id' s.openStreams :=
  AssocMap.lookup_erase_ite _ _ _

theorem ended_getElem? (s : State) (id : String) (d : Descriptor) (f : Reader → Reader)
    (key : ReaderKey) :
    (s.ended id d f).readers[key]?
      = if d.chunkTx = key then s.readers[key]?.map f else s.readers[key]? :=
  modifyReader_getElem? _ _ _ _

theorem advanced_lookup (s : State) (id id' : String) (d : Descriptor) (content : Bytes) :
    lookup id' (s.advanced id d content).openStreams
      = if id' = id then some (d.advance content) else lookup id' s.openStreams :=
  AssocMap.lookup_insert_ite _ _ _ _

theorem advanced_getElem? (s : State) (id : String) (d : Descriptor) (content : Bytes)
    (key : ReaderKey) :
    (s.advanced id d content).readers[key]?
      = if d.chunkTx = key then s.readers[key]?.map fun r => r.send (.ok content)
        else s.readers[key]? :=
  modifyReader_getElem? _ _ _ _

/-- The open streams are those of the readers whose channels are open. -/
structure Wf (s : State) : Prop where
  reader : ∀ id d, AList.lookup id s.openStreams = some d →
    ∃ r, s.readers[d.chunkTx]? = some r ∧ r.info.id = id ∧ r.isOpen = true
  stream : ∀ key r, s.readers[key]? = some r → r.isOpen = true →
    ∃ d, AList.lookup r.info.id s.openStreams = some d ∧ d.chunkTx = key

theorem Wf.new : Wf new where
  reader _ _ hd := by cases hd
  stream _ _ hr := by cases hr

/-- A stream that is opened has a reader of its own. -/
theorem Wf.opened (h : Wf s) {info : AnyStreamInfo} (identity : String)
    (hnew : lookup info.id s.openStreams = none) : Wf (s.opened info identity) where
  reader id d hd := by
    rw [opened_lookup] at hd
    rw [opened_getElem?]
    split at hd
    · next hid =>
      rw [← some.inj hd, if_pos rfl]
      exact ⟨_, rfl, hid.symm, rfl⟩
    · obtain ⟨r, hr, hrest⟩ := h.reader id d hd
      have hlt := (List.getElem?_eq_some_iff.mp hr).1
      rw [if_neg (Nat.ne_of_lt hlt)]
      exact ⟨r, hr, hrest⟩
  stream key r hr hopen := by
    rw [opened_getElem?] at hr
    rw [opened_lookup]
    split at hr
    · next hkey =>
      rw [← some.inj hr, if_pos rfl]
      exact ⟨_, rfl, hkey.symm⟩
    · obtain ⟨d, hd, hkey⟩ := h.stream key r hr hopen
      have hne : r.info.id ≠ info.id := by
        intro heq
        rw [heq, hnew] at hd
        cases hd
      rw [if_neg hne]
      exact ⟨d, hd, hkey⟩

/-- No other stream has the channel of a stream. -/
theorem Wf.id_eq (h : Wf s) {id' : String} {d' : Descriptor} (hd : lookup id s.openStreams = some d)
    (hd' : lookup id' s.openStreams = some d') (hkey : d.chunkTx = d'.chunkTx) : id = id' := by
  obtain ⟨r, hr, hid, -⟩ := h.reader id d hd
  obtain ⟨r', hr', hid', -⟩ := h.reader id' d' hd'
  rw [hkey, hr', some.injEq] at hr
  rw [← hid, ← hid', hr]

/-- A stream that ends leaves its reader with a closed channel. -/
theorem Wf.ended (h : Wf s) {f : Reader → Reader} (hd : lookup id s.openStreams = some d)
    (hf : ∀ r, (f r).isOpen = false) :
    Wf (s.ended id d f) where
  reader id' d' hd' := by
    rw [ended_lookup] at hd'
    rw [ended_getElem?]
    split at hd'
    · cases hd'
    · next hid =>
      rw [if_neg fun hkey => hid (h.id_eq hd' hd hkey.symm)]
      exact h.reader id' d' hd'
  stream key r hr hopen := by
    rw [ended_getElem?] at hr
    split at hr
    · next hkey =>
      obtain ⟨r', -, rfl⟩ := map_eq_some_iff.mp hr
      rw [hf] at hopen
      cases hopen
    · next hkey =>
      obtain ⟨d', hd', hkey'⟩ := h.stream key r hr hopen
      rw [ended_lookup, if_neg]
      · exact ⟨d', hd', hkey'⟩
      · intro hid
        rw [hid, hd, some.injEq] at hd'
        rw [hd'] at hkey
        exact hkey hkey'

/-- A stream that goes on has the reader that it had. -/
theorem Wf.advanced (h : Wf s) {id : String} (hd : lookup id s.openStreams = some d)
    (content : Bytes) :
    Wf (s.advanced id d content) where
  reader id' d' hd' := by
    rw [advanced_lookup] at hd'
    rw [advanced_getElem?]
    split at hd'
    · next hid =>
      rw [← some.inj hd']
      obtain ⟨r, hr, hid', hopen⟩ := h.reader id d hd
      refine ⟨r.send (.ok content), ?_, ?_, ?_⟩
      · show (if d.chunkTx = d.chunkTx then _ else _) = _
        rw [if_pos rfl, show (d.advance content).chunkTx = d.chunkTx from rfl, hr]
        rfl
      · rw [Reader.send_info, hid', hid]
      · rw [Reader.send_isOpen, hopen]
    · next hid =>
      rw [if_neg fun hkey => hid (h.id_eq hd' hd hkey.symm)]
      exact h.reader id' d' hd'
  stream key r hr hopen := by
    rw [advanced_getElem?] at hr
    rw [advanced_lookup]
    split at hr
    · next hkey =>
      obtain ⟨r', hr', rfl⟩ := map_eq_some_iff.mp hr
      obtain ⟨r'', hr'', hid, -⟩ := h.reader id d hd
      rw [hkey, hr', some.injEq] at hr''
      rw [Reader.send_info, hr'', if_pos hid]
      exact ⟨_, rfl, hkey⟩
    · next hkey =>
      obtain ⟨d', hd', hkey'⟩ := h.stream key r hr hopen
      have hne : r.info.id ≠ id := by
        intro hid
        rw [hid, hd, some.injEq] at hd'
        rw [hd'] at hkey
        exact hkey hkey'
      rw [if_neg hne]
      exact ⟨d', hd', hkey'⟩

variable {packet : Packet} {s' : State}

/-- However a packet is handled, the open streams are those of the open channels. -/
theorem Wf.handled (h : Wf s) (hs' : Handled s packet s') : Wf s' := by
  cases hs' with
  | ignored => exact h
  | opened _ hnew => exact h.opened _ hnew
  | failed _ hd | abandoned hd | finished hd => exact h.ended hd fun _ => rfl
  | advanced hd => exact h.advanced hd _

theorem Wf.dropManager (s : State) : Wf s.dropManager where
  reader id d hd := by
    have hnone : lookup id s.dropManager.openStreams = none := lookup_empty id
    rw [hnone] at hd
    cases hd
  stream key r hr hopen := by
    have hclosed : s.dropManager.readers[key]? = s.readers[key]?.map Reader.hangUp :=
      getElem?_map
    rw [hclosed] at hr
    obtain ⟨r', -, rfl⟩ := map_eq_some_iff.mp hr
    cases hopen

theorem Wf.dropReader (h : Wf s) (key : ReaderKey) :
    Wf (s.modifyReader key fun r => { r with alive := false }) where
  reader id d hd := by
    obtain ⟨r, hr, hid, hopen⟩ := h.reader id d hd
    rw [modifyReader_getElem?, hr]
    split
    · exact ⟨_, rfl, hid, hopen⟩
    · exact ⟨r, rfl, hid, hopen⟩
  stream key' r hr hopen := by
    rw [modifyReader_getElem?] at hr
    split at hr
    · obtain ⟨r', hr', rfl⟩ := map_eq_some_iff.mp hr
      exact h.stream key' r' hr' hopen
    · exact h.stream key' r hr hopen

/-- What a step can do. -/
theorem step_cases (hstep : s.step a = some s') :
    (∃ packet, a = .receive packet ∧ s' = s.handle packet) ∨
    (a = .dropManager ∧ s' = s.dropManager) ∨
    ∃ key, a = .dropReader key ∧ s' = s.modifyReader key fun r => { r with alive := false } := by
  unfold State.step at hstep
  cases a with
  | receive packet =>
    simp only at hstep
    split at hstep
    · exact .inl ⟨packet, rfl, (some.inj hstep).symm⟩
    · cases hstep
  | dropManager =>
    simp only at hstep
    split at hstep
    · exact .inr (.inl ⟨rfl, (some.inj hstep).symm⟩)
    · cases hstep
  | dropReader key =>
    simp only at hstep
    split at hstep
    · exact .inr (.inr ⟨key, rfl, (some.inj hstep).symm⟩)
    · cases hstep

/-- After every step the open streams are those of the open channels. -/
theorem Wf.step (h : Wf s) (hstep : s.step a = some s') : Wf s' := by
  rcases step_cases hstep with ⟨packet, -, rfl⟩ | ⟨-, rfl⟩ | ⟨key, -, rfl⟩
  · exact h.handled (s.handle_cases packet)
  · exact Wf.dropManager s
  · exact h.dropReader key

/-- A packet changes nothing about a reader but what it gets to read. -/
theorem Handled.keeps (h : Handled s packet s') (hr : s.readers[key]? = some r) :
    ∃ r', s'.readers[key]? = some r' ∧ r'.info = r.info ∧ r'.identity = r.identity ∧
      r'.alive = r.alive := by
  have hchanged : ∀ (key' : ReaderKey) (f : Reader → Reader),
      s'.readers[key]? = (if key' = key then s.readers[key]?.map f else s.readers[key]?) →
      (f r).info = r.info → (f r).identity = r.identity → (f r).alive = r.alive →
      ∃ r', s'.readers[key]? = some r' ∧ r'.info = r.info ∧ r'.identity = r.identity ∧
        r'.alive = r.alive := by
    intro key' f hs' hinfo hidentity halive
    rw [hs', hr]
    split
    · exact ⟨f r, rfl, hinfo, hidentity, halive⟩
    · exact ⟨r, rfl, rfl, rfl, rfl⟩
  cases h with
  | ignored => exact ⟨r, hr, rfl, rfl, rfl⟩
  | opened =>
    rw [opened_getElem?, if_neg (Nat.ne_of_lt (List.getElem?_eq_some_iff.mp hr).1)]
    exact ⟨r, hr, rfl, rfl, rfl⟩
  | failed err =>
    exact hchanged _ _ (ended_getElem? _ _ _ _ _) (r.send_info _) (r.send_identity _)
      (r.send_alive _)
  | abandoned | finished => exact hchanged _ _ (ended_getElem? _ _ _ _ _) rfl rfl rfl
  | advanced =>
    exact hchanged _ _ (advanced_getElem? _ _ _ _ _) (r.send_info _) (r.send_identity _)
      (r.send_alive _)

/-- A reader that is there after a packet was there before, or the packet is its header. -/
theorem Handled.origin (h : Handled s packet s') {r' : Reader} (hr' : s'.readers[key]? = some r') :
    (∃ r, s.readers[key]? = some r ∧ r.info = r'.info) ∨
      ∃ header identity encryptionType, packet = .header header identity encryptionType ∧
        r'.info.id = header.streamId := by
  have hchanged : ∀ (key' : ReaderKey) (f : Reader → Reader),
      s'.readers[key]? = (if key' = key then s.readers[key]?.map f else s.readers[key]?) →
      (∀ r, (f r).info = r.info) → ∃ r, s.readers[key]? = some r ∧ r.info = r'.info := by
    intro key' f hs' hinfo
    rw [hs'] at hr'
    split at hr'
    · obtain ⟨r, hr, rfl⟩ := map_eq_some_iff.mp hr'
      exact ⟨r, hr, (hinfo r).symm⟩
    · exact ⟨r', hr', rfl⟩
  cases h with
  | ignored => exact .inl ⟨r', hr', rfl⟩
  | opened hinfo =>
    rw [opened_getElem?] at hr'
    split at hr'
    · rw [← some.inj hr']
      exact .inr ⟨_, _, _, rfl, (AnyStreamInfo.tryFromWithEncryption_spec hinfo).1⟩
    · exact .inl ⟨r', hr', rfl⟩
  | failed err =>
    exact .inl (hchanged _ _ (ended_getElem? _ _ _ _ _) fun r => r.send_info _)
  | abandoned | finished => exact .inl (hchanged _ _ (ended_getElem? _ _ _ _ _) fun _ => rfl)
  | advanced =>
    exact .inl (hchanged _ _ (advanced_getElem? _ _ _ _ _) fun r => r.send_info _)

/-- After its trailer a stream is not open. -/
theorem Handled.lookup_of_trailer (h : Handled s (.trailer trailer) s') :
    lookup trailer.streamId s'.openStreams = none := by
  cases h with
  | ignored h =>
    rcases h with hnone | ⟨_, _, _, heq⟩
    · exact hnone
    · cases heq
  | failed err =>
    rw [ended_lookup]
    exact if_pos rfl
  | finished => rw [ended_lookup, if_pos rfl]

/-- A packet of one stream does not concern another stream. -/
theorem Handled.other (h : Handled s packet s') (hwf : Wf s) (hid : packet.streamId ≠ id) :
    lookup id s'.openStreams = lookup id s.openStreams ∧
      ∀ (key : ReaderKey) (r : Reader), s.readers[key]? = some r → r.info.id = id →
        s'.readers[key]? = some r := by
  have hother : ∀ d, lookup packet.streamId s.openStreams = some d →
      ∀ (key : ReaderKey) (r : Reader), s.readers[key]? = some r → r.info.id = id →
        d.chunkTx ≠ key := by
    intro d hd key r hr hrid hkey
    obtain ⟨r', hr', hrid', -⟩ := hwf.reader _ d hd
    rw [hkey, hr, some.injEq] at hr'
    rw [← hr', hrid] at hrid'
    exact hid hrid'.symm
  have hended : ∀ d f, lookup packet.streamId s.openStreams = some d →
      lookup id (s.ended packet.streamId d f).openStreams = lookup id s.openStreams ∧
        ∀ (key : ReaderKey) (r : Reader), s.readers[key]? = some r → r.info.id = id →
          (s.ended packet.streamId d f).readers[key]? = some r := by
    intro d f hd
    refine ⟨by rw [ended_lookup, if_neg (Ne.symm hid)], ?_⟩
    intro key r hr hrid
    rw [ended_getElem?, if_neg (hother d hd key r hr hrid), hr]
  cases h with
  | ignored => exact ⟨rfl, fun _ _ hr _ => hr⟩
  | @opened header identity encryptionType info hinfo _ =>
    have hne : id ≠ info.id := by
      rw [(AnyStreamInfo.tryFromWithEncryption_spec hinfo).1]
      exact Ne.symm hid
    refine ⟨by rw [opened_lookup, if_neg hne], ?_⟩
    intro key r hr _
    rw [opened_getElem?, if_neg (Nat.ne_of_lt (List.getElem?_eq_some_iff.mp hr).1), hr]
  | failed _ hd | abandoned hd | finished hd => exact hended _ _ hd
  | @advanced chunk _ d hd =>
    have hne : id ≠ chunk.streamId := Ne.symm hid
    refine ⟨by rw [advanced_lookup, if_neg hne], ?_⟩
    intro key r hr hrid
    rw [advanced_getElem?, if_neg (hother _ hd key r hr hrid), hr]

end State

/-! ## Reading -/

/-- As long as the stream is open there is no result. -/
theorem readBytes_open (buffer : Bytes) (items : List (Except StreamError Bytes)) (out : Bytes) :
    readBytes true buffer items ≠ some (.ok out) := by
  induction items generalizing buffer with
  | nil => simp [readBytes]
  | cons item items ih =>
    cases item with
    | error err => simp [readBytes]
    | ok bytes =>
      rw [readBytes]
      exact ih _

theorem readText_open (result : String) (items : List (Except StreamError Bytes)) (out : String) :
    readText true result items ≠ some (.ok out) := by
  induction items generalizing result with
  | nil => simp [readText]
  | cons item items ih =>
    cases item with
    | error err => simp [readText]
    | ok bytes =>
      rw [readText]
      cases Utf8.decode bytes with
      | none => simp
      | some text => exact ih _

/-- A reader gets the contents, one after the other. -/
theorem readBytes_closed (buffer : Bytes) (contents : List Bytes) :
    readBytes false buffer (contents.map .ok) = some (.ok (buffer ++ contents.flatten)) := by
  induction contents generalizing buffer with
  | nil =>
    rw [map_nil, readBytes, flatten_nil, append_nil]
    rfl
  | cons content contents ih =>
    rw [map_cons, readBytes, ih, flatten_cons, append_assoc]

/-- Every chunk of a text is decoded by itself. -/
theorem readText_closed (result : String) (contents : List Bytes) :
    (∃ chunk ∈ contents, Utf8.decode chunk = none) ∧
        readText false result (contents.map .ok) = some (.error .utf8) ∨
      (∀ chunk ∈ contents, Utf8.decode chunk ≠ none) ∧
        ∃ text, readText false result (contents.map .ok) = some (.ok text) ∧
          Utf8.encode text = Utf8.encode result ++ contents.flatten := by
  induction contents generalizing result with
  | nil => exact .inr ⟨by simp, result, rfl, by simp⟩
  | cons content contents ih =>
    rw [map_cons, readText]
    cases hdecode : Utf8.decode content with
    | none => exact .inl ⟨⟨content, mem_cons_self, hdecode⟩, rfl⟩
    | some text =>
      rcases ih (result ++ text) with ⟨⟨chunk, hmem, hchunk⟩, hread⟩ | ⟨hall, out, hread, hout⟩
      · exact .inl ⟨⟨chunk, mem_cons_of_mem content hmem, hchunk⟩, hread⟩
      · refine .inr ⟨?_, out, hread, ?_⟩
        · rw [forall_mem_cons]
          exact ⟨by simp [hdecode], hall⟩
        · rw [hout, Utf8.encode_append, Utf8.encode_of_decode hdecode, flatten_cons,
            append_assoc]

/-- An error in the channel is the last thing to be read. -/
theorem readBytes_error (isOpen : Bool) (buffer : Bytes) (contents : List Bytes)
    (err : StreamError) :
    readBytes isOpen buffer (contents.map .ok ++ [.error err]) = some (.error err) := by
  induction contents generalizing buffer with
  | nil => rfl
  | cons content contents ih =>
    rw [map_cons, cons_append, readBytes, ih]

theorem readText_error (isOpen : Bool) (result : String) (contents : List Bytes)
    (err : StreamError) :
    ∃ err', readText isOpen result (contents.map .ok ++ [.error err]) = some (.error err') := by
  induction contents generalizing result with
  | nil => exact ⟨err, rfl⟩
  | cons content contents ih =>
    rw [map_cons, cons_append, readText]
    cases Utf8.decode content with
    | none => exact ⟨.utf8, rfl⟩
    | some text => exact ih _

namespace Reader

/-- A chunk of a text that the reader cannot decode. -/
def Undecodable (r : Reader) : Prop :=
  ∃ info chunk, r.info = .text info ∧ .ok chunk ∈ r.items ∧ Utf8.decode chunk = none

variable {r : Reader} {contents : List Bytes}

/-- As long as the stream is open `read_all` does not return. -/
theorem readAll_open (hopen : r.isOpen = true) (output : Output) :
    r.readAll ≠ some (.ok output) := by
  intro hread
  unfold readAll at hread
  rw [hopen] at hread
  split at hread
  · obtain ⟨result, hresult, hok⟩ := map_eq_some_iff.mp hread
    cases result with
    | error err => cases hok
    | ok out => exact readBytes_open _ _ out hresult
  · obtain ⟨result, hresult, hok⟩ := map_eq_some_iff.mp hread
    cases result with
    | error err => cases hok
    | ok out => exact readText_open _ _ out hresult

/-- A closed channel without an error in it. -/
theorem readAll_closed (hitems : r.items = contents.map .ok) (hclosed : r.isOpen = false) :
    r.Undecodable ∧ (∃ err, r.readAll = some (.error err)) ∨
      ¬ r.Undecodable ∧
        ∃ output, r.readAll = some (.ok output) ∧ output.data = contents.flatten := by
  unfold readAll Undecodable
  rw [hitems, hclosed]
  cases hinfo : r.info with
  | byte info =>
    refine .inr ⟨by simp, .bytes contents.flatten, ?_, rfl⟩
    simp only
    rw [readBytes_closed]
    rfl
  | text info =>
    simp only
    rcases readText_closed "" contents with
      ⟨⟨chunk, hmem, hchunk⟩, hread⟩ | ⟨hall, text, hread, htext⟩
    · rw [hread]
      exact .inl ⟨⟨info, chunk, rfl, mem_map_of_mem hmem, hchunk⟩, .utf8, rfl⟩
    · rw [hread]
      refine .inr ⟨?_, .text text, rfl, htext⟩
      rintro ⟨_, chunk, -, hmem, hchunk⟩
      obtain ⟨chunk', hmem', heq⟩ := mem_map.mp hmem
      rw [Except.ok.inj heq] at hmem'
      exact hall chunk hmem' hchunk

/-- `read_all` returns the error that was sent. -/
theorem readAll_error {err : StreamError} (hitems : r.items = contents.map .ok ++ [.error err]) :
    ∃ err', r.readAll = some (.error err') := by
  unfold readAll
  rw [hitems]
  cases r.info with
  | byte info =>
    simp only
    rw [readBytes_error]
    exact ⟨err, rfl⟩
  | text info =>
    simp only
    obtain ⟨err', h⟩ := readText_error r.isOpen "" contents err
    rw [h]
    exact ⟨err', rfl⟩

/-- A reader that is told of an error reports one. -/
theorem readAll_failed (hitems : r.items = contents.map .ok) (halive : r.alive = true)
    (err : StreamError) :
    ∃ err', (r.send (.error err)).hangUp.readAll = some (.error err') := by
  have hitems' : (r.send (.error err)).hangUp.items = contents.map .ok ++ [.error err] := by
    rw [send_of_alive halive, ← hitems]
    rfl
  exact readAll_error hitems'

end Reader

end LiveKit.DataStream
