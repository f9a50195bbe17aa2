import LiveKit.DataStream.Isolation
import Mathlib.Algebra.Order.Ring.Nat
import Mathlib.Data.List.TakeWhile

/-!
# What the reader of a stream gets

The packets of a stream are its chunks and its trailer. The reader gets the contents of the longest
run of chunks that are as the header says, and then the stream ends with what is wrong with the next
chunk, or with what the trailer finds. What comes after that, and what comes for other streams, is
nothing to this reader.
-/

namespace LiveKit.DataStream

open TransitionSystem List Option

/-- A chunk, with the encryption it came with. -/
abbrev ReceivedChunk := Chunk × EncryptionType

def Packet.isTrailer : Packet → Bool
  | .trailer _ => true
  | _ => false

/-- The chunks before the first trailer. -/
def chunksOfPackets (packets : List Packet) : List ReceivedChunk :=
  (packets.takeWhile fun p => !p.isTrailer).filterMap fun
    | .chunk chunk encryptionType => some (chunk, encryptionType)
    | _ => none

def firstTrailer (packets : List Packet) : Option Trailer :=
  packets.findSome? fun
    | .trailer trailer => some trailer
    | _ => none

def bytesOf (chunks : List ReceivedChunk) : ℕ := (chunks.map fun c => c.1.content.length).sum

/-- The chunks have the indices 0, 1, 2, … and the encryption of the stream, and all of them up to
any one are not longer than was declared. -/
def Regular (info : AnyStreamInfo) (chunks : List ReceivedChunk) : Prop :=
  ∀ (n : ℕ) (c : ReceivedChunk), chunks[n]? = some c →
    c.2 = info.encryptionType ∧ c.1.chunkIndex = n ∧
      ∀ total, info.totalLength = some total → bytesOf (chunks.take (n + 1)) ≤ total

/-- The longest beginning of the chunks that is regular. -/
structure LongestRegular (info : AnyStreamInfo) (chunks accepted : List ReceivedChunk) : Prop where
  isPrefix : accepted <+: chunks
  regular : Regular info accepted
  longest : ∀ chunks', chunks' <+: chunks → Regular info chunks' →
    chunks'.length ≤ accepted.length

/-- What is wrong with a chunk after so many that were accepted. -/
def fault (info : AnyStreamInfo) (count : ℕ) (c : ReceivedChunk) : StreamError :=
  if c.2 ≠ info.encryptionType then .encryptionTypeMismatch
  else if c.1.chunkIndex ≠ count then .missedChunk
  else .lengthExceeded

/-- What a trailer finds. -/
def finding (info : AnyStreamInfo) (accepted : List ReceivedChunk) (trailer : Trailer) :
    Except StreamError Unit :=
  if info.totalLength.any fun total => bytesOf accepted < total then .error .incomplete
  else if trailer.reason ≠ "" then .error (.abnormalEnd trailer.reason)
  else .ok ()

/-- How the stream ends, if it does. -/
def ending (info : AnyStreamInfo) (packets : List Packet) (accepted : List ReceivedChunk) :
    Option (Except StreamError Unit) :=
  match (chunksOfPackets packets)[accepted.length]? with
  | some c => some (.error (fault info accepted.length c))
  | none => (firstTrailer packets).map (finding info accepted)

/-- What is read of an ending. -/
def endingItems : Option (Except StreamError Unit) → List (Except StreamError Bytes)
  | some (.error err) => [.error err]
  | _ => []

/-- One item, as `poll_next` of the reader gives it. -/
def AnyStreamInfo.poll (info : AnyStreamInfo) :
    Except StreamError Bytes → Except StreamError Output
  | .error err => .error err
  | .ok chunk =>
    match info with
    | .byte _ => .ok (.bytes chunk)
    | .text _ =>
      match Utf8.decode chunk with
      | some content => .ok (.text content)
      | none => .error .utf8

/-- The items of the reader. -/
def Reader.polled (r : Reader) : List (Except StreamError Output) := r.items.map r.info.poll

/-- The reader has what the packets of its stream give. -/
structure Exact (info : AnyStreamInfo) (packets : List Packet) (r : Reader) : Prop where
  info_eq : r.info = info
  read : ∃ accepted, LongestRegular info (chunksOfPackets packets) accepted ∧
    r.polled.map (fun item => item.map Output.data) =
      accepted.map (fun c => .ok c.1.content) ++ endingItems (ending info packets accepted) ∧
    r.isOpen = (ending info packets accepted).isNone

/-- The stream has ended. -/
def Ended (info : AnyStreamInfo) (packets : List Packet) : Prop :=
  ∃ accepted, LongestRegular info (chunksOfPackets packets) accepted ∧
    ending info packets accepted ≠ none

/-- The packets of a stream among what happens. -/
def packetsOf (id : String) (actions : List Action) : List Packet :=
  actions.filterMap fun
    | .receive packet => if packet.streamId = id then some packet else none
    | _ => none

/-! ## One more packet -/

theorem packetsOf_append (id : String) (as bs : List Action) :
    packetsOf id (as ++ bs) = packetsOf id as ++ packetsOf id bs :=
  filterMap_append

section

variable {packets : List Packet}

theorem firstTrailer_eq_none (h : firstTrailer packets = none) :
    ∀ p ∈ packets, p.isTrailer = false := by
  intro p hp
  unfold firstTrailer at h
  rw [findSome?_eq_none_iff] at h
  have hnone := h p hp
  cases p with
  | trailer => cases hnone
  | _ => rfl

/-- After the first trailer nothing counts. -/
theorem chunksOfPackets_trailer (h : firstTrailer packets ≠ none) (p : Packet) :
    chunksOfPackets (packets ++ [p]) = chunksOfPackets packets ∧
      firstTrailer (packets ++ [p]) = firstTrailer packets := by
  unfold firstTrailer at h ⊢
  obtain ⟨trailer, htrailer⟩ := ne_none_iff_exists'.mp h
  obtain ⟨q, hq, hsome⟩ := exists_of_findSome?_eq_some htrailer
  have hstop : q.isTrailer = true := by
    cases q with
    | trailer => rfl
    | _ => cases hsome
  constructor
  · unfold chunksOfPackets
    rw [takeWhile_append, if_neg]
    intro hall
    have hself := (List.takeWhile_prefix fun p : Packet => !p.isTrailer).eq_of_length hall
    have hgoes := takeWhile_eq_self_iff.mp hself q hq
    rw [hstop] at hgoes
    cases hgoes
  · rw [findSome?_append, htrailer]
    rfl

/-- Before a trailer each packet counts. -/
theorem chunksOfPackets_concat (h : firstTrailer packets = none) (p : Packet) :
    chunksOfPackets (packets ++ [p]) = chunksOfPackets packets ++ chunksOfPackets [p] ∧
      firstTrailer (packets ++ [p]) = firstTrailer [p] := by
  have hnone := firstTrailer_eq_none h
  have hall : ∀ q ∈ packets, (!q.isTrailer) = true := by
    intro q hq
    rw [hnone q hq]
    rfl
  constructor
  · unfold chunksOfPackets
    rw [takeWhile_append_of_pos hall, filterMap_append,
      takeWhile_eq_self_iff.mpr hall]
  · unfold firstTrailer at h ⊢
    rw [findSome?_append, h]
    rfl

end

/-! ## Regular chunks -/

section

variable {info : AnyStreamInfo} {chunks chunks' accepted : List ReceivedChunk} {c : ReceivedChunk}

theorem bytesOf_append (chunks chunks' : List ReceivedChunk) :
    bytesOf (chunks ++ chunks') = bytesOf chunks + bytesOf chunks' := by
  unfold bytesOf
  rw [map_append, sum_append]

theorem Regular.nil : Regular info [] := by
  intro n c hc
  rw [getElem?_nil] at hc
  cases hc

theorem Regular.of_prefix (h : Regular info chunks) (hpre : chunks' <+: chunks) :
    Regular info chunks' := by
  intro n c hc
  obtain ⟨rest, rfl⟩ := hpre
  have hlt := (List.getElem?_eq_some_iff.mp hc).1
  have hright := h n c (by rw [getElem?_append_left hlt, hc])
  rw [take_append_of_le_length (by omega)] at hright
  exact hright

/-- What makes the next chunk regular. -/
theorem regular_concat : Regular info (chunks ++ [c]) ↔ Regular info chunks ∧
    c.2 = info.encryptionType ∧ c.1.chunkIndex = chunks.length ∧
      ∀ total, info.totalLength = some total → bytesOf chunks + c.1.content.length ≤ total := by
  have hlast : (chunks ++ [c])[chunks.length]? = some c := getElem?_concat_length
  have hbytes : bytesOf ((chunks ++ [c]).take (chunks.length + 1)) =
      bytesOf chunks + c.1.content.length := by
    rw [take_of_length_le (by rw [length_append, length_singleton]),
      bytesOf_append]
    rfl
  constructor
  · intro h
    refine ⟨h.of_prefix (prefix_append _ _), ?_⟩
    have hright := h chunks.length c hlast
    rw [hbytes] at hright
    exact hright
  · rintro ⟨h, hright⟩ n c' hc'
    by_cases hlt : n < chunks.length
    · rw [getElem?_append_left hlt] at hc'
      rw [take_append_of_le_length (by omega)]
      exact h n c' hc'
    · have hle := (List.getElem?_eq_some_iff.mp hc').1
      rw [length_append, length_singleton] at hle
      have hn : n = chunks.length := by omega
      subst hn
      rw [hlast, some.injEq] at hc'
      subst hc'
      rw [hbytes]
      exact hright

theorem LongestRegular.all (h : Regular info chunks) : LongestRegular info chunks chunks :=
  ⟨prefix_rfl, h, fun _ hpre _ => hpre.length_le⟩

theorem LongestRegular.unique (h : LongestRegular info chunks accepted)
    (h' : LongestRegular info chunks chunks') : accepted = chunks' := by
  have hlen : accepted.length = chunks'.length :=
    Nat.le_antisymm (h'.longest _ h.isPrefix h.regular) (h.longest _ h'.isPrefix h'.regular)
  exact (prefix_of_prefix_length_le h.isPrefix h'.isPrefix hlen.le).eq_of_length hlen

/-- Where the next chunk is not regular, no more is accepted, whatever comes. -/
theorem LongestRegular.stuck (h : Regular info accepted) (hnot : ¬ Regular info (accepted ++ [c]))
    (hpre : accepted ++ [c] <+: chunks) : LongestRegular info chunks accepted where
  isPrefix := (prefix_append _ _).trans hpre
  regular := h
  longest chunks' hpre' hregular := by
    by_contra hlonger
    apply hnot
    apply hregular.of_prefix
    apply prefix_of_prefix_length_le hpre hpre'
    rw [length_append, length_singleton]
    omega

theorem LongestRegular.append (h : LongestRegular info chunks accepted)
    (hc : chunks[accepted.length]? = some c) (more : List ReceivedChunk) :
    LongestRegular info (chunks ++ more) accepted := by
  have hpre : accepted ++ [c] <+: chunks := by
    obtain ⟨rest, hrest⟩ := h.isPrefix
    rw [← hrest, getElem?_append_right (Nat.le_refl _), Nat.sub_self] at hc
    cases rest with
    | nil => cases hc
    | cons c' rest =>
      rw [getElem?_cons_zero, some.injEq] at hc
      rw [← hrest, hc]
      exact ⟨rest, by rw [append_assoc, singleton_append]⟩
  refine LongestRegular.stuck h.regular ?_ (hpre.trans (prefix_append _ _))
  intro hregular
  have hle := h.longest _ hpre hregular
  rw [length_append, length_singleton] at hle
  omega

end

/-! ## A stream that has ended -/

section

variable {info : AnyStreamInfo} {packets : List Packet} {accepted : List ReceivedChunk}

/-- An ending stays what it is. -/
theorem ending_concat (hlongest : LongestRegular info (chunksOfPackets packets) accepted)
    (hended : ending info packets accepted ≠ none) (p : Packet) :
    LongestRegular info (chunksOfPackets (packets ++ [p])) accepted ∧
      ending info (packets ++ [p]) accepted = ending info packets accepted := by
  cases htrailer : firstTrailer packets with
  | some trailer =>
    have hsame := chunksOfPackets_trailer (by rw [htrailer]; exact some_ne_none _) p
    rw [ending, hsame.1, hsame.2]
    exact ⟨hlongest, rfl⟩
  | none =>
    have hmore := chunksOfPackets_concat htrailer p
    unfold ending at hended ⊢
    cases hc : (chunksOfPackets packets)[accepted.length]? with
    | none =>
      rw [hc, htrailer] at hended
      exact absurd rfl hended
    | some c =>
      have hlt := (List.getElem?_eq_some_iff.mp hc).1
      rw [hmore.1, getElem?_append_left hlt, hc]
      exact ⟨hlongest.append hc _, rfl⟩

end

/-! ## The reader and its stream -/

/-- The stream is open: all that came of it has been accepted. -/
structure Going (info : AnyStreamInfo) (key : ReaderKey) (packets : List Packet) (s : State)
    (d : Descriptor) (r : Reader) : Prop where
  lookup : AList.lookup info.id s.openStreams = some d
  chunkTx : d.chunkTx = key
  encryptionType : d.encryptionType = info.encryptionType
  bytesTotal : d.progress.bytesTotal = info.totalLength
  chunkIndex : d.progress.chunkIndex = (chunksOfPackets packets).length
  bytesProcessed : d.progress.bytesProcessed = bytesOf (chunksOfPackets packets)
  reader : s.readers[key]? = some r
  info_eq : r.info = info
  alive : r.alive = true
  isOpen : r.isOpen = true
  items : r.items = (chunksOfPackets packets).map fun c => .ok c.1.content
  regular : Regular info (chunksOfPackets packets)
  noTrailer : firstTrailer packets = none

/-- The stream has ended, and its reader is left with what it got. -/
structure Over (info : AnyStreamInfo) (key : ReaderKey) (packets : List Packet) (s : State)
    (accepted : List ReceivedChunk) (r : Reader) : Prop where
  reader : s.readers[key]? = some r
  info_eq : r.info = info
  isOpen : r.isOpen = false
  longest : LongestRegular info (chunksOfPackets packets) accepted
  ended : ending info packets accepted ≠ none
  items : r.items =
    accepted.map (fun c => .ok c.1.content) ++ endingItems (ending info packets accepted)

/-- Where the reader of a stream is after these packets of the stream. -/
def Reads (info : AnyStreamInfo) (key : ReaderKey) (packets : List Packet) (s : State) : Prop :=
  (∃ d r, Going info key packets s d r) ∨ ∃ accepted r, Over info key packets s accepted r

section

variable {info : AnyStreamInfo} {key : ReaderKey} {packets : List Packet} {s : State}

variable {d : Descriptor} {r : Reader}

/-- A stream that goes on has not ended. -/
theorem Going.not_ended (h : Going info key packets s d r) :
    LongestRegular info (chunksOfPackets packets) (chunksOfPackets packets) ∧
      ending info packets (chunksOfPackets packets) = none := by
  refine ⟨LongestRegular.all h.regular, ?_⟩
  unfold ending
  rw [getElem?_eq_none (Nat.le_refl _), h.noTrailer]
  rfl

variable {p : Packet}

/-- What a packet of the stream does to it and to its reader. -/
theorem Going.changed (h : Going info key packets s d r) (hp : p.streamId = info.id) :
    AList.lookup info.id (s.handle p).openStreams = (d.change p).stream ∧
      (s.handle p).readers[key]? = some ((d.change p).reader r) := by
  have hlookup : AList.lookup p.streamId s.openStreams = some d := by rw [hp, h.lookup]
  have hreader : s.hasReader d.chunkTx = true := by
    rw [h.chunkTx, State.hasReader_eq h.reader, h.alive]
  have hchanged := State.handle_changed hlookup hreader
  constructor
  · rw [hchanged.streams, if_pos hp.symm]
  · rw [hchanged.readers, h.chunkTx, getElem?_modify, h.reader]
    simp

/-- The stream is closed with an error that the packets give. -/
theorem Going.failed (h : Going info key packets s d r) (hp : p.streamId = info.id)
    (err : StreamError) (hchange : d.change p = .failed err)
    (hlongest : LongestRegular info (chunksOfPackets (packets ++ [p])) (chunksOfPackets packets))
    (hending : ending info (packets ++ [p]) (chunksOfPackets packets) = some (.error err)) :
    Reads info key (packets ++ [p]) (s.handle p) := by
  have hnew := (h.changed hp).2
  rw [hchange] at hnew
  refine .inr ⟨chunksOfPackets packets, _, hnew, ?_, rfl, hlongest, ?_, ?_⟩
  · show (r.send (.error err)).info = info
    rw [r.send_info, h.info_eq]
  · rw [hending]
    exact some_ne_none _
  · show (r.send (.error err)).items = _
    rw [Reader.send_of_alive h.alive, hending, h.items]
    rfl

variable {encryptionType : EncryptionType}

section

variable (h : Going info key packets s d r)

include h

theorem Going.header {header : Header} {identity : String} (hp : header.streamId = info.id) :
    Reads info key (packets ++ [.header header identity encryptionType])
      (s.handle (.header header identity encryptionType)) := by
  obtain ⟨hstream, hnew⟩ := h.changed (p := .header header identity encryptionType) hp
  obtain ⟨hchunks, htrailer⟩ :=
    chunksOfPackets_concat h.noTrailer (.header header identity encryptionType)
  have hsame : chunksOfPackets (packets ++ [.header header identity encryptionType]) =
      chunksOfPackets packets := by
    rw [hchunks]
    exact append_nil _
  refine .inl ⟨d, r, hstream, h.chunkTx, h.encryptionType, h.bytesTotal, ?_, ?_, hnew,
    h.info_eq, h.alive, h.isOpen, ?_, ?_, htrailer⟩
  · rw [hsame, h.chunkIndex]
  · rw [hsame, h.bytesProcessed]
  · rw [hsame, h.items]
  · rw [hsame]
    exact h.regular

/-- The next chunk is accepted. -/
theorem Going.accepted {chunk : Chunk} (hp : chunk.streamId = info.id)
    (hencryption : encryptionType = info.encryptionType)
    (hindex : chunk.chunkIndex = (chunksOfPackets packets).length) (hfits : d.Fits chunk.content) :
    Reads info key (packets ++ [.chunk chunk encryptionType])
      (s.handle (.chunk chunk encryptionType)) := by
  obtain ⟨hstream, hnew⟩ := h.changed (p := .chunk chunk encryptionType) hp
  obtain ⟨hchunks, htrailer⟩ := chunksOfPackets_concat h.noTrailer (.chunk chunk encryptionType)
  have hone : chunksOfPackets [.chunk chunk encryptionType] = [(chunk, encryptionType)] := rfl
  rw [hone] at hchunks
  have hchange : d.change (.chunk chunk encryptionType) =
      ⟨some (d.advance chunk.content), fun r => r.send (.ok chunk.content)⟩ := by
    unfold Descriptor.change
    simp only
    rw [if_neg (by rw [h.encryptionType, hencryption]; exact fun hne => hne rfl),
      if_neg (by rw [h.chunkIndex, hindex]; exact fun hne => hne rfl), if_pos hfits]
  rw [hchange] at hstream hnew
  dsimp only at hnew
  rw [Reader.send_of_alive h.alive] at hnew
  refine .inl ⟨_, _, hstream, h.chunkTx, h.encryptionType, h.bytesTotal, ?_, ?_, hnew,
    h.info_eq, h.alive, h.isOpen, ?_, ?_, htrailer⟩
  · rw [hchunks, length_append, length_singleton, ← h.chunkIndex]
    rfl
  · rw [hchunks, bytesOf_append, ← h.bytesProcessed]
    rfl
  · rw [hchunks, map_append, ← h.items]
    rfl
  · rw [hchunks, regular_concat]
    refine ⟨h.regular, hencryption, hindex, ?_⟩
    intro total htotal
    rw [← h.bytesProcessed]
    exact hfits total (by rw [h.bytesTotal, htotal])

/-- The next chunk, with the first of the checks that it fails. -/
theorem Going.chunk {chunk : Chunk} (hp : chunk.streamId = info.id) :
    Reads info key (packets ++ [.chunk chunk encryptionType])
      (s.handle (.chunk chunk encryptionType)) := by
  have hchunks : chunksOfPackets (packets ++ [.chunk chunk encryptionType]) =
      chunksOfPackets packets ++ [(chunk, encryptionType)] :=
    (chunksOfPackets_concat h.noTrailer (.chunk chunk encryptionType)).1
  have hending : ending info (packets ++ [.chunk chunk encryptionType])
      (chunksOfPackets packets) = some (.error (fault info (chunksOfPackets packets).length
        (chunk, encryptionType))) := by
    unfold ending
    rw [hchunks, getElem?_concat_length]
  have hstuck : ¬ Regular info (chunksOfPackets packets ++ [(chunk, encryptionType)]) →
      LongestRegular info (chunksOfPackets (packets ++ [.chunk chunk encryptionType]))
        (chunksOfPackets packets) := by
    intro hnot
    rw [hchunks]
    exact LongestRegular.stuck h.regular hnot prefix_rfl
  by_cases hencryption : encryptionType = info.encryptionType
  · have hsame : ¬ d.encryptionType ≠ encryptionType := by
      rw [h.encryptionType, hencryption]
      exact fun hne => hne rfl
    by_cases hindex : chunk.chunkIndex = (chunksOfPackets packets).length
    · by_cases hfits : d.Fits chunk.content
      · exact h.accepted hp hencryption hindex hfits
      · refine h.failed hp .lengthExceeded ?_ (hstuck ?_) ?_
        · unfold Descriptor.change
          simp only
          rw [if_neg hsame, if_neg (by rw [h.chunkIndex, hindex]; exact fun hne => hne rfl),
            if_neg hfits]
        · rw [regular_concat]
          rintro ⟨-, -, -, hall⟩
          apply hfits
          intro total htotal
          rw [h.bytesProcessed]
          exact hall total (by rw [← h.bytesTotal, htotal])
        · rw [hending]
          unfold fault
          rw [if_neg (fun hne => hne hencryption), if_neg (fun hne => hne hindex)]
    · refine h.failed hp .missedChunk ?_ (hstuck ?_) ?_
      · unfold Descriptor.change
        simp only
        rw [if_neg hsame, if_pos (by rw [h.chunkIndex]; exact Ne.symm hindex)]
      · rw [regular_concat]
        exact fun hall => hindex hall.2.2.1
      · rw [hending]
        unfold fault
        rw [if_neg (fun hne => hne hencryption), if_pos hindex]
  · refine h.failed hp .encryptionTypeMismatch ?_ (hstuck ?_) ?_
    · unfold Descriptor.change
      simp only
      rw [if_pos (by rw [h.encryptionType]; exact Ne.symm hencryption)]
    · rw [regular_concat]
      exact fun hall => hencryption hall.2.1
    · rw [hending]
      unfold fault
      rw [if_pos hencryption]

/-- The trailer, with what it finds. -/
theorem Going.trailer {trailer : Trailer} (hp : trailer.streamId = info.id) :
    Reads info key (packets ++ [.trailer trailer]) (s.handle (.trailer trailer)) := by
  obtain ⟨hchunks, htrailer⟩ := chunksOfPackets_concat h.noTrailer (.trailer trailer)
  have hsame : chunksOfPackets (packets ++ [.trailer trailer]) = chunksOfPackets packets := by
    rw [hchunks]
    exact append_nil _
  have hlongest : LongestRegular info (chunksOfPackets (packets ++ [.trailer trailer]))
      (chunksOfPackets packets) := by
    rw [hsame]
    exact LongestRegular.all h.regular
  have hending : ending info (packets ++ [.trailer trailer]) (chunksOfPackets packets) =
      some (finding info (chunksOfPackets packets) trailer) := by
    unfold ending
    rw [hsame, getElem?_eq_none (Nat.le_refl _), htrailer]
    rfl
  have hcomplete : d.Complete ↔ ¬ (info.totalLength.any fun total =>
      bytesOf (chunksOfPackets packets) < total) = true := by
    unfold Descriptor.Complete
    rw [h.bytesTotal, h.bytesProcessed]
    cases info.totalLength with
    | none | some => simp
  unfold finding at hending
  by_cases hall : d.Complete
  · rw [if_neg (hcomplete.mp hall)] at hending
    by_cases hreason : trailer.reason = ""
    · -- the stream ends normally
      rw [if_neg (not_not_intro hreason)] at hending
      have hchange : d.change (.trailer trailer) = ⟨none, Reader.hangUp⟩ := by
        unfold Descriptor.change
        simp only
        rw [if_neg (not_not_intro hall), if_neg (not_not_intro hreason)]
      have hnew := (h.changed (p := .trailer trailer) hp).2
      rw [hchange] at hnew
      refine .inr ⟨chunksOfPackets packets, _, hnew, h.info_eq, rfl, hlongest, ?_, ?_⟩
      · rw [hending]
        exact some_ne_none _
      · rw [hending]
        show r.items = _ ++ []
        rw [append_nil, h.items]
    · rw [if_pos hreason] at hending
      refine h.failed hp (.abnormalEnd trailer.reason) ?_ hlongest hending
      unfold Descriptor.change
      simp only
      rw [if_neg (not_not_intro hall), if_pos hreason]
  · rw [if_pos (not_not.mp fun hnot => hall (hcomplete.mpr hnot))] at hending
    refine h.failed hp .incomplete ?_ hlongest hending
    unfold Descriptor.change
    simp only
    rw [if_pos hall]

/-- The stream goes on with a packet of its own. -/
theorem Going.handle (hp : p.streamId = info.id) :
    Reads info key (packets ++ [p]) (s.handle p) := by
  cases p with
  | header => exact h.header hp
  | chunk => exact h.chunk hp
  | trailer => exact h.trailer hp

end

end

/-! ## Runs -/

/-- The reader of a stream that is closed gets nothing more. -/
theorem State.Handled.closed {s s' : State} (h : Handled s p s') (hwf : Wf s) {key : ReaderKey}
    {r : Reader} (hr : s.readers[key]? = some r) (hclosed : r.isOpen = false) :
    s'.readers[key]? = some r := by
  have hother : ∀ (id : String) (d : Descriptor), AList.lookup id s.openStreams = some d →
      d.chunkTx ≠ key := by
    intro id d hd hkey
    obtain ⟨r', hr', -, hopen⟩ := hwf.reader id d hd
    rw [hkey, hr, some.injEq] at hr'
    rw [hr', hopen] at hclosed
    cases hclosed
  cases h with
  | ignored => exact hr
  | opened =>
    rw [opened_getElem?, if_neg (Nat.ne_of_lt (List.getElem?_eq_some_iff.mp hr).1), hr]
  | failed _ hd | abandoned hd | finished hd => rw [ended_getElem?, if_neg (hother _ _ hd), hr]
  | advanced hd => rw [advanced_getElem?, if_neg (hother _ _ hd), hr]

section

variable {info : AnyStreamInfo} {key : ReaderKey} {packets : List Packet} {s s' : State}

/-- A step of the manager, or of another reader. -/
theorem Reads.step (h : Reads info key packets s) (hwf : State.Wf s) {a : Action}
    (hstep : s.step a = some s') (hmanager : a ≠ .dropManager) (hreader : a ≠ .dropReader key) :
    Reads info key (packets ++ packetsOf info.id [a]) s' := by
  rcases State.step_cases hstep with ⟨p, rfl, rfl⟩ | ⟨rfl, -⟩ | ⟨key', rfl, rfl⟩
  · by_cases hp : p.streamId = info.id
    · have hone : packetsOf info.id [.receive p] = [p] := by simp [packetsOf, hp]
      rw [hone]
      rcases h with ⟨d, r, h⟩ | ⟨accepted, r, h⟩
      · exact h.handle hp
      · obtain ⟨hlongest, hsame⟩ := ending_concat h.longest h.ended p
        refine .inr ⟨accepted, r, (s.handle_cases p).closed hwf h.reader h.isOpen, h.info_eq,
          h.isOpen, hlongest, ?_, ?_⟩
        · rw [hsame]
          exact h.ended
        · rw [hsame]
          exact h.items
    · have hone : packetsOf info.id [.receive p] = [] := by simp [packetsOf, hp]
      rw [hone, append_nil]
      rcases h with ⟨d, r, h⟩ | ⟨accepted, r, h⟩
      · obtain ⟨hlookup, hstays⟩ := (s.handle_cases p).other hwf hp
        exact .inl ⟨d, r, { h with
          lookup := by rw [hlookup, h.lookup]
          reader := hstays key r h.reader (by rw [h.info_eq]) }⟩
      · exact .inr ⟨accepted, r, { h with
          reader := (s.handle_cases p).closed hwf h.reader h.isOpen }⟩
  · exact absurd rfl hmanager
  · have hone : packetsOf info.id [.dropReader key'] = [] := rfl
    have hne : key' ≠ key := by
      intro heq
      exact hreader (by rw [heq])
    have hsame : (s.modifyReader key' fun r => { r with alive := false }).readers[key]? =
        s.readers[key]? := by
      rw [State.modifyReader_getElem?, if_neg hne]
    rw [hone, append_nil]
    rcases h with ⟨d, r, h⟩ | ⟨accepted, r, h⟩
    · exact .inl ⟨d, r, { h with reader := by rw [hsame, h.reader] }⟩
    · exact .inr ⟨accepted, r, { h with reader := by rw [hsame, h.reader] }⟩

/-- A run in which the manager and the reader are alive. -/
theorem Reads.run {rest : List Action} (h : Reads info key packets s) (hwf : State.Wf s)
    (hrest : exec State.step s rest = some s') (hmanager : .dropManager ∉ rest)
    (hreader : .dropReader key ∉ rest) :
    Reads info key (packets ++ packetsOf info.id rest) s' ∧ State.Wf s' := by
  induction rest generalizing packets s with
  | nil =>
    rw [exec_nil, some.injEq] at hrest
    subst hrest
    exact ⟨by rw [show packetsOf info.id [] = [] from rfl, append_nil]; exact h, hwf⟩
  | cons a rest ih =>
    obtain ⟨t, ht, hrest⟩ := exec_cons_eq_some.mp hrest
    rw [mem_cons, not_or] at hmanager hreader
    have hnext := h.step hwf ht (Ne.symm hmanager.1) (Ne.symm hreader.1)
    have hsplit : packetsOf info.id (a :: rest) =
        packetsOf info.id [a] ++ packetsOf info.id rest :=
      packetsOf_append info.id [a] rest
    rw [hsplit, ← append_assoc]
    exact ih hnext (hwf.step ht) hrest hmanager.2 hreader.2

/-- The stream of a header that is accepted. -/
theorem reads_opened {header : Header} {identity : String} {encryptionType : EncryptionType}
    (hinfo : AnyStreamInfo.tryFromWithEncryption header encryptionType = .ok info)
    (hnew : info.id ∉ s.openStreams) :
    Reads info s.readers.length [] (s.handle (.header header identity encryptionType)) := by
  have hopened : s.handle (.header header identity encryptionType) = s.opened info identity := by
    show s.handleHeader header identity encryptionType = _
    unfold State.handleHeader
    rw [hinfo]
    simp only
    rw [if_neg hnew]
    rfl
  rw [hopened]
  have hlookup : AList.lookup info.id (s.opened info identity).openStreams =
      some ⟨⟨0, 0, info.totalLength⟩, s.readers.length, info.encryptionType⟩ := by
    rw [State.opened_lookup, if_pos rfl]
  have hreader : (s.opened info identity).readers[s.readers.length]? =
      some ⟨info, identity, [], true, true⟩ := by
    rw [State.opened_getElem?, if_pos rfl]
  exact .inl ⟨_, _, hlookup, rfl, rfl, rfl, rfl, rfl, hreader, rfl, rfl, rfl, rfl, Regular.nil,
    rfl⟩

/-- What the reader has is what it is given to read. -/
theorem Reads.exact (h : Reads info key packets s)
    (htext : ∀ i, info = .text i → ∀ c ∈ chunksOfPackets packets,
      Utf8.decode c.1.content ≠ none) :
    ∃ r, s.readers[key]? = some r ∧ Exact info packets r := by
  have hpolled : ∀ (accepted : List ReceivedChunk) (end' : Option (Except StreamError Unit))
      (r : Reader), r.info = info → accepted <+: chunksOfPackets packets →
      r.items = accepted.map (fun c => .ok c.1.content) ++ endingItems end' →
      r.polled.map (fun item => item.map Output.data) = r.items := by
    intro accepted end' r hinfo hpre hitems
    unfold Reader.polled
    rw [List.map_map, hinfo]
    refine (map_congr_left ?_).trans (map_id r.items)
    intro item hitem
    rw [hitems] at hitem
    cases item with
    | error err => rfl
    | ok content =>
      -- a chunk that was accepted, and not an error
      have hchunk : ∃ c ∈ accepted, c.1.content = content := by
        rcases mem_append.mp hitem with hitem | hitem
        · obtain ⟨c, hc, hok⟩ := mem_map.mp hitem
          exact ⟨c, hc, Except.ok.inj hok⟩
        · unfold endingItems at hitem
          split at hitem
          · cases mem_singleton.mp hitem
          · cases hitem
      obtain ⟨c, hc, rfl⟩ := hchunk
      cases hkind : info with
      | byte i => rfl
      | text i =>
        obtain ⟨content, hdecode⟩ :=
          ne_none_iff_exists'.mp (htext i hkind c (hpre.subset hc))
        have hpoll : AnyStreamInfo.poll (.text i) (.ok c.1.content) = .ok (.text content) := by
          unfold AnyStreamInfo.poll
          simp only
          rw [hdecode]
        show Except.map Output.data (AnyStreamInfo.poll (.text i) (.ok c.1.content)) =
          .ok c.1.content
        rw [hpoll, ← Utf8.encode_of_decode hdecode]
        rfl
  rcases h with ⟨d, r, h⟩ | ⟨accepted, r, h⟩
  · obtain ⟨hlongest, hgoes⟩ := h.not_ended
    have hitems : r.items = (chunksOfPackets packets).map (fun c => .ok c.1.content) ++
        endingItems none := by
      rw [h.items]
      exact (append_nil _).symm
    refine ⟨r, h.reader, h.info_eq, _, hlongest, ?_, ?_⟩
    · rw [hpolled _ none r h.info_eq prefix_rfl hitems, hitems, hgoes]
    · rw [hgoes, h.isOpen]
      rfl
  · refine ⟨r, h.reader, h.info_eq, accepted, h.longest, ?_, ?_⟩
    · rw [hpolled _ _ r h.info_eq h.longest.isPrefix h.items, h.items]
    · obtain ⟨e, he⟩ := ne_none_iff_exists'.mp h.ended
      rw [he, h.isOpen]
      rfl

end

def Packet.isHeader : Packet → Bool
  | .header _ _ _ => true
  | _ => false

namespace State

variable {info : AnyStreamInfo} {key : ReaderKey} {packets : List Packet} {s s' : State}

/-- Where no stream is open under an identifier, only a header opens one. -/
theorem handle_closed (h : AList.lookup p.streamId s.openStreams = none)
    (hheader : p.isHeader = false) : s.handle p = s := by
  rw [handle_unopened h]
  cases p with
  | header => cases hheader
  | _ => rfl

/-- When the stream ends it is no longer open. -/
theorem closed_at_end {d : Descriptor} {r : Reader} (h : Going info key packets s d r) (hwf : Wf s)
    (hp : p.streamId = info.id) (hended : Ended info (packets ++ [p])) :
    AList.lookup info.id (s.handle p).openStreams = none := by
  have hwf' := hwf.handled (s.handle_cases p)
  cases hlookup : AList.lookup info.id (s.handle p).openStreams with
  | none => rfl
  | some d' =>
    obtain ⟨hstream, -⟩ := h.changed hp
    rw [hlookup] at hstream
    have hkey := Descriptor.change_stream_chunkTx hstream.symm
    rcases h.handle hp with ⟨d'', r', h'⟩ | ⟨accepted, r', h'⟩
    · -- nothing of the stream has been refused
      obtain ⟨hlongest, hgoes⟩ := h'.not_ended
      obtain ⟨accepted, hlongest', hend⟩ := hended
      rw [← hlongest.unique hlongest', hgoes] at hend
      exact absurd rfl hend
    · obtain ⟨r'', hr'', -, hopen⟩ := hwf'.reader _ d' hlookup
      rw [hkey, h.chunkTx, h'.reader, some.injEq] at hr''
      rw [← hr'', h'.isOpen] at hopen
      cases hopen

/-- A stream that is closed stays so until there is a header for it. -/
theorem stays_closed {id : String} {rest : List Action} (hwf : Wf s)
    (hrest : exec State.step s rest = some s')
    (hclosed : AList.lookup id s.openStreams = none) (hmanager : .dropManager ∉ rest)
    (hheader : ∀ p ∈ packetsOf id rest, p.isHeader = false) :
    AList.lookup id s'.openStreams = none := by
  induction rest generalizing s with
  | nil =>
    rw [exec_nil, some.injEq] at hrest
    rw [← hrest, hclosed]
  | cons a rest ih =>
    obtain ⟨t, ht, hrest⟩ := exec_cons_eq_some.mp hrest
    rw [mem_cons, not_or] at hmanager
    rw [show packetsOf id (a :: rest) = packetsOf id [a] ++ packetsOf id rest from
      packetsOf_append id [a] rest] at hheader
    refine ih (hwf.step ht) hrest ?_ hmanager.2
      fun p hp => hheader p (mem_append_right _ hp)
    rcases step_cases ht with ⟨p, rfl, rfl⟩ | ⟨rfl, -⟩ | ⟨key, -, rfl⟩
    · by_cases hp : p.streamId = id
      · have hnot := hheader p (mem_append_left _ (by simp [packetsOf, hp]))
        rw [handle_closed (by rw [hp, hclosed]) hnot, hclosed]
      · rw [((s.handle_cases p).other hwf hp).1, hclosed]
    · exact absurd rfl hmanager.1
    · exact hclosed

/-- What the reader of a stream gets: the contents of the longest run of chunks that are as the
header says, and the ending that the packets of the stream give. After the end the other packets of
the stream have no effect until there is a new header, and packets of other streams never have. -/
theorem stream_exact (before rest : List Action) (s s' : State) (header : Header)
    (identity : String) (encryptionType : EncryptionType) (info : AnyStreamInfo)
    (hbefore : TransitionSystem.exec State.step State.new before = some s)
    (hinfo : AnyStreamInfo.tryFromWithEncryption header encryptionType = .ok info)
    (hnew : info.id ∉ s.openStreams)
    (hrest : TransitionSystem.exec State.step s
      (.receive (.header header identity encryptionType) :: rest) = some s')
    (hmanager : .dropManager ∉ rest) (hreader : .dropReader s.readers.length ∉ rest)
    (htext : ∀ i, info = .text i → ∀ c ∈ chunksOfPackets (packetsOf info.id rest),
      Utf8.decode c.1.content ≠ none) :
    (∃ r, s'.readers[s.readers.length]? = some r ∧ Exact info (packetsOf info.id rest) r) ∧
    (∀ (first : List Action) (p : Packet) (last : List Action),
      rest = first ++ .receive p :: last → p.streamId = info.id →
      ¬ Ended info (packetsOf info.id first) → Ended info (packetsOf info.id first ++ [p]) →
      (∀ q ∈ packetsOf info.id last, q.isHeader = false) →
      ∀ q, q.streamId = info.id → q.isHeader = false → s'.handle q = s') ∧
    ∀ q, q.streamId ≠ info.id →
      (s'.handle q).readers[s.readers.length]? = s'.readers[s.readers.length]? ∧
        AList.lookup info.id (s'.handle q).openStreams = AList.lookup info.id s'.openStreams := by
  have hwf : Wf s := exec_invariant (fun _ _ _ h ht => h.step ht) Wf.new hbefore
  obtain ⟨t, ht, hrun⟩ := exec_cons_eq_some.mp hrest
  have hwf' := hwf.step ht
  -- the header opens the stream, with nothing read yet
  have hstart : Reads info s.readers.length [] t := by
    rcases step_cases ht with ⟨p, hp, rfl⟩ | ⟨hp, -⟩ | ⟨_, hp, -⟩
    · cases hp
      exact reads_opened hinfo hnew
    · cases hp
    · cases hp
  have hend := hstart.run hwf' hrun hmanager hreader
  rw [nil_append] at hend
  refine ⟨hend.1.exact htext, ?_, ?_⟩
  · intro first p last hsplit hp hnot hended hheader q hq hqheader
    subst hsplit
    obtain ⟨u, hu, hlast⟩ := exec_append.mp hrun
    obtain ⟨v, hv, hlast⟩ := exec_cons_eq_some.mp hlast
    have hmanager' := hmanager
    rw [mem_append, mem_cons, not_or, not_or] at hmanager'
    have hfirst := hstart.run hwf' hu hmanager'.1
      fun hmem => hreader (mem_append_left _ hmem)
    rw [nil_append] at hfirst
    have hhandled : v = u.handle p := by
      rcases step_cases hv with ⟨p', hp', rfl⟩ | ⟨hp', -⟩ | ⟨_, hp', -⟩
      · cases hp'
        rfl
      · cases hp'
      · cases hp'
    -- the packet that ends the stream closes it
    have hclosed : AList.lookup info.id v.openStreams = none := by
      rcases hfirst.1 with ⟨d, r, hgoing⟩ | ⟨accepted, r, hover⟩
      · rw [hhandled]
        exact closed_at_end hgoing hfirst.2 hp hended
      · exact absurd ⟨accepted, hover.longest, hover.ended⟩ hnot
    have hstill := stays_closed (hfirst.2.step hv) hlast hclosed hmanager'.2.2 hheader
    exact handle_closed (by rw [hq, hstill]) hqheader
  · intro q hq
    -- a packet of another stream does not touch this one
    obtain ⟨hlookup, hstays⟩ := (s'.handle_cases q).other hend.2 hq
    refine ⟨?_, hlookup⟩
    obtain ⟨r, hr, hexact⟩ := hend.1.exact htext
    rw [hr]
    exact hstays _ r hr (by rw [hexact.info_eq])

/-- Two chunks and a trailer. -/
theorem stream_exact_of_chunks :
    ∃ (s' : State) (r : Reader), s'.readers[0]? = some r ∧
      Exact (.byte (.fromHeadersWithEncryption (sampleHeader "a") ⟨""⟩ .none))
        [.chunk ⟨"a", 0, [1]⟩ .none, .chunk ⟨"a", 1, [2]⟩ .none, .trailer ⟨"a", ""⟩] r :=
  ⟨_, (stream_exact [] [.receive (.chunk ⟨"a", 0, [1]⟩ .none),
    .receive (.chunk ⟨"b", 0, [7]⟩ .none), .receive (.chunk ⟨"a", 1, [2]⟩ .none),
    .receive (.trailer ⟨"a", ""⟩)] State.new _
    (sampleHeader "a") "alice" .none _ rfl rfl (by decide) rfl (by simp) (by simp)
    (by intro i hi; cases hi)).1⟩

end State

end LiveKit.DataStream
