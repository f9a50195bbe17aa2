import LiveKit.DataStream.Encryption
import LiveKit.Lib.Components

/-!
# Who can end an encrypted data stream

The chunks of a stream are compared with its header, its trailer is not.
-/

namespace LiveKit.DataStream.Encryption

open Components State AList List Option
open LiveKit.RtcSession (DataPacketKind E2eeManager EncryptedValue ParticipantSid
  ParticipantIdentity)
open TransitionSystem

/-! ## What a packet comes to -/

/-- The event takes along how its packet was received, if it is one of those that do. -/
def As (receivedAs : EncryptionType) : SessionEvent → Prop
  | .dataStreamHeader _ _ encryptionType => encryptionType = receivedAs
  | .dataStreamChunk _ _ encryptionType => encryptionType = receivedAs
  | .dataStreamTrailer _ _ => True

/-- At most one event comes of a packet. -/
def AtMostOne (receivedAs : EncryptionType) (events : List SessionEvent) : Prop :=
  events = [] ∨ ∃ event, events = [event] ∧ As receivedAs event

theorem emitPlainPacket_cases (kind : DataPacketKind) (sid : Option ParticipantSid)
    (identity : Option ParticipantIdentity) (encryptionType : EncryptionType)
    (value : RtcSession.Value) :
    AtMostOne encryptionType
      ((RtcSession.emitPlainPacket kind sid identity encryptionType value).filterMap toStream) := by
  cases value with
  | streamHeader | streamChunk => exact .inr ⟨_, rfl, rfl⟩
  | streamTrailer trailer => exact .inr ⟨_, rfl, trivial⟩
  | rpcResponse response =>
    left
    obtain ⟨requestId, value⟩ := response
    rcases value with _ | _ | _ | _ <;> rfl
  | _ => exact .inl rfl

section

variable (decodePayload : Bytes → Except String (Option EncryptedValue))

theorem events_cases (incoming : Incoming) :
    AtMostOne (receivedAs incoming.packet) (incoming.events decodePayload) := by
  unfold Incoming.events RtcSession.DataPacket.events receivedAs
  have hplain := emitPlainPacket_cases incoming.kind
    (ParticipantSid.tryFrom incoming.packet.participantSid)
    (some incoming.packet.participantIdentity) .none
  cases incoming.packet.value with
  | none => exact .inl rfl
  | some value =>
    cases value with
    | encryptedPacket packet =>
      dsimp only [RtcSession.emitIncomingPacket]
      split
      · exact .inl rfl
      · split
        · exact .inl rfl
        · split
          · exact emitPlainPacket_cases _ _ _ _ _
          · exact .inl rfl
          · exact .inl rfl
    | user user => exact hplain (.user user)
    | speaker => exact hplain .speaker
    | sipDtmf dtmf => exact hplain (.sipDtmf dtmf)
    | transcription transcription => exact hplain (.transcription transcription)
    | metrics => exact hplain .metrics
    | chatMessage message => exact hplain (.chatMessage message)
    | rpcRequest request => exact hplain (.rpcRequest request)
    | rpcAck ack => exact hplain (.rpcAck ack)
    | rpcResponse response => exact hplain (.rpcResponse response)
    | streamHeader header => exact hplain (.streamHeader header)
    | streamChunk chunk => exact hplain (.streamChunk chunk)
    | streamTrailer trailer => exact hplain (.streamTrailer trailer)

variable {s s' : State} {a : Action}

/-- What a step can do: a packet may be none of a data stream. -/
theorem step_cases (h : step decodePayload s a = some s') :
    (∃ incoming, a = .receive incoming ∧ incoming.events decodePayload = [] ∧ s' = s) ∨
    (∃ incoming event, a = .receive incoming ∧ incoming.events decodePayload = [event] ∧
      As (receivedAs incoming.packet) event ∧ s' = s.handle event.packet) ∨
    (a = .dropManager ∧ s' = s.dropManager) ∨
    ∃ key, a = .dropReader key ∧ s' = s.modifyReader key fun r => { r with alive := false } := by
  cases a with
  | receive incoming =>
    unfold step at h
    rw [ite_none_right_eq_some] at h
    obtain rfl := some.inj h.2
    rcases events_cases decodePayload incoming with hnone | ⟨event, hone, has⟩
    · rw [hnone]
      exact .inl ⟨incoming, rfl, hnone, rfl⟩
    · rw [hone]
      exact .inr (.inl ⟨incoming, event, rfl, hone, has, rfl⟩)
  | dropManager =>
    have h' : s.step .dropManager = some s' := h
    rcases step_cases h' with ⟨_, ha, -⟩ | ⟨-, hs'⟩ | ⟨_, ha, -⟩
    · cases ha
    · exact .inr (.inr (.inl ⟨rfl, hs'⟩))
    · cases ha
  | dropReader key =>
    have h' : s.step (.dropReader key) = some s' := h
    rcases step_cases h' with ⟨_, ha, -⟩ | ⟨ha, -⟩ | ⟨key', ha, hs'⟩
    · cases ha
    · cases ha
    · cases ha
      exact .inr (.inr (.inr ⟨key, rfl, hs'⟩))

end

/-! ## Streams and their readers -/

section

variable {s : State} {p : Packet} {d : Descriptor}

/-- A packet for an open stream does nothing to the other readers. -/
theorem handle_getElem?_of_ne (hd : lookup p.streamId s.openStreams = some d)
    {key : ReaderKey} (hkey : d.chunkTx ≠ key) : (s.handle p).readers[key]? = s.readers[key]? := by
  have hsame : ∀ d', lookup p.streamId s.openStreams = some d' → d'.chunkTx ≠ key := by
    intro d' hd'
    rw [hd] at hd'
    exact some.inj hd' ▸ hkey
  have hcases := s.handle_cases p
  generalize s.handle p = s' at hcases
  cases hcases with
  | ignored => rfl
  | opened hinfo hnew =>
    rw [(AnyStreamInfo.tryFromWithEncryption_spec hinfo).1] at hnew
    exact absurd (hnew.symm.trans hd) nofun
  | failed _ hd' | abandoned hd' | finished hd' => rw [ended_getElem?, if_neg (hsame _ hd')]
  | advanced hd' => rw [advanced_getElem?, if_neg (hsame _ hd')]

/-- A packet leaves a closed reader alone. -/
theorem handle_of_closed (hwf : State.Wf s) {key : ReaderKey} {r : Reader}
    (hr : s.readers[key]? = some r) (hclosed : r.isOpen = false) (p : Packet) :
    (s.handle p).readers[key]? = some r := by
  cases hd : lookup p.streamId s.openStreams with
  | none =>
    rw [handle_unopened hd]
    split
    · exact hr
    · rw [opened_getElem?, if_neg (ne_length hr), hr]
  | some d =>
    rw [handle_getElem?_of_ne hd, hr]
    rintro rfl
    obtain ⟨r', hr', -, hopen⟩ := hwf.reader _ d hd
    rw [hr] at hr'
    obtain rfl := some.inj hr'
    rw [hclosed] at hopen
    cases hopen

/-- The stream that is open after a packet was so before, or the packet is its header. -/
theorem handle_lookup {id : String} (h : lookup id (s.handle p).openStreams = some d) :
    (∃ d₀, lookup id s.openStreams = some d₀ ∧ d.chunkTx = d₀.chunkTx ∧
      d.encryptionType = d₀.encryptionType) ∨
    ∃ info identity, s.handle p = s.opened info identity ∧ d.chunkTx = s.readers.length ∧
      d.encryptionType = info.encryptionType := by
  have hcases := s.handle_cases p
  generalize s.handle p = s' at hcases h
  cases hcases with
  | ignored => exact .inl ⟨d, h, rfl, rfl⟩
  | @opened header identity encryptionType info hinfo hnew =>
    rw [opened_lookup] at h
    by_cases hid : id = info.id
    · rw [if_pos hid] at h
      obtain rfl := some.inj h
      exact .inr ⟨info, identity, rfl, rfl, rfl⟩
    · rw [if_neg hid] at h
      exact .inl ⟨d, h, rfl, rfl⟩
  | failed | abandoned | finished =>
    rw [ended_lookup, ite_none_left_eq_some] at h
    exact .inl ⟨d, h.2, rfl, rfl⟩
  | @advanced chunk encryptionType d₀ hd =>
    rw [advanced_lookup] at h
    by_cases hid : id = chunk.streamId
    · rw [if_pos hid] at h
      obtain rfl := some.inj h
      exact .inl ⟨d₀, hid ▸ hd, rfl, rfl⟩
    · rw [if_neg hid] at h
      exact .inl ⟨d, h, rfl, rfl⟩

end

/-! ## What is on record -/

theorem contentsOf_append (key : ReaderKey) (records records' : List Entry) :
    contentsOf key (records ++ records') = contentsOf key records ++ contentsOf key records' :=
  filterMap_append

variable {key : ReaderKey} {records : List Entry}

/-- What is on record for other readers. -/
theorem contentsOf_eq_nil (h : ∀ entry ∈ records, entry.key ≠ key) :
    contentsOf key records = [] := by
  unfold contentsOf
  rw [filterMap_eq_nil_iff]
  intro entry hmem
  exact if_neg (h entry hmem)

theorem contentsOf_single (entry : Entry) :
    contentsOf entry.key [entry] = entry.content.toList := by
  unfold contentsOf
  rw [filterMap_cons, if_pos rfl, filterMap_nil]
  cases entry.content <;> rfl

theorem allAs_append {records' : List Entry} {encryptionType : EncryptionType} :
    AllAs (records ++ records') key encryptionType ↔
      AllAs records key encryptionType ∧ AllAs records' key encryptionType := by
  unfold AllAs
  simp only [mem_append, or_imp, forall_and]

theorem allAs_of_other (h : ∀ entry ∈ records, entry.key ≠ key) (encryptionType : EncryptionType) :
    AllAs records key encryptionType :=
  fun entry hmem hkey => absurd hkey (h entry hmem)

variable {event : SessionEvent}

/-- What goes on record for an event that concerns an open stream is for its reader. -/
theorem entries_key {s : State} {receivedAs : EncryptionType} {entry : Entry}
    (h : entry ∈ entries s receivedAs event) :
    ∃ d, lookup event.packet.streamId s.openStreams = some d ∧ entry.key = d.chunkTx := by
  unfold entries at h
  cases event with
  | dataStreamHeader => exact absurd h not_mem_nil
  | dataStreamChunk | dataStreamTrailer =>
    dsimp only at h
    split at h
    · exact absurd h not_mem_nil
    · next d hd => exact ⟨d, hd, mem_singleton.mp h ▸ rfl⟩

theorem entries_trailer {s : State} {trailer : Trailer} {d : Descriptor}
    (hd : lookup trailer.streamId s.openStreams = some d) (receivedAs : EncryptionType)
    (identity : String) :
    entries s receivedAs (.dataStreamTrailer trailer identity) =
      [⟨d.chunkTx, receivedAs, none⟩] := by
  unfold entries
  dsimp only
  rw [hd]

/-- If the event is a trailer that closes an encrypted stream without an error, it was received
with the encryption of the stream. -/
def TrailerAs (s : State) (receivedAs : EncryptionType) (event : SessionEvent) : Prop :=
  ∀ trailer identity, event = .dataStreamTrailer trailer identity →
    ∀ (d : Descriptor) (r : Reader), AList.lookup trailer.streamId s.openStreams = some d →
      s.readers[d.chunkTx]? = some r → r.alive = true → ¬ r.Undecodable →
      d.encryptionType ≠ .none → d.Complete → trailer.reason = "" →
        receivedAs = d.encryptionType

theorem trailerAs_of_event {decodePayload : Bytes → Except String (Option EncryptedValue)}
    {s s' : State} {incoming : Incoming}
    (htrailers : TrailersEncrypted decodePayload s (.receive incoming) s')
    (hone : incoming.events decodePayload = [event]) :
    TrailerAs s (receivedAs incoming.packet) event := by
  rintro trailer identity rfl
  exact htrailers trailer identity (hone ▸ mem_singleton_self _)

/-! ## What a reader has been told -/

/-- A reader that has not been dropped has an error to report, or it has got the chunks on record,
which were received as the header if that was encrypted. -/
inductive Told (records : List Entry) (key : ReaderKey) (r : Reader) : Prop
  | failed (hclosed : r.isOpen = false) (err : StreamError)
    (herror : r.readAll = some (.error err))
  | got (hitems : r.items = (contentsOf key records).map .ok)
    (has : r.info.encryptionType ≠ .none → AllAs records key r.info.encryptionType)

theorem Told.other {records' : List Entry} {r : Reader} (h : Told records key r)
    (hother : ∀ entry ∈ records', entry.key ≠ key) : Told (records ++ records') key r := by
  rcases h with ⟨hclosed, err, herror⟩ | ⟨hitems, has⟩
  · exact .failed hclosed err herror
  · refine .got ?_ fun hne => allAs_append.mpr ⟨has hne, allAs_of_other hother _⟩
    rw [contentsOf_append, contentsOf_eq_nil hother, append_nil]
    exact hitems

structure Inv (records : List Entry) (s : State) : Prop where
  wf : State.Wf s
  known : ∀ entry ∈ records, entry.key < s.readers.length
  streams : ∀ id d, AList.lookup id s.openStreams = some d →
    ∃ r, s.readers[d.chunkTx]? = some r ∧ r.info.encryptionType = d.encryptionType
  reader : ∀ (key : ReaderKey) (r : Reader), s.readers[key]? = some r → r.alive = true →
    Told records key r

theorem Inv.new : Inv [] new where
  wf := State.Wf.new
  known _ hmem := absurd hmem not_mem_nil
  streams _ _ hd := by cases hd
  reader _ _ hr := by cases hr

section

variable {records : List Entry} {s : State}

/-- The reader that an encrypted stream ends with has got all of it as it was encrypted. -/
theorem Inv.protected (h : Inv records s) : Protected records s := by
  intro key r hr halive hne output hread
  rcases h.reader key r hr halive with ⟨-, err, herror⟩ | ⟨hitems, has⟩
  · rw [herror] at hread
    cases hread
  · have hclosed : r.isOpen = false := by
      rw [Bool.eq_false_iff]
      exact fun hopen => Reader.readAll_open hopen output hread
    refine ⟨?_, has hne⟩
    rcases Reader.readAll_closed hitems hclosed with ⟨-, err, herror⟩ | ⟨-, output', hread', hdata⟩
    · rw [herror] at hread
      cases hread
    · rw [hread] at hread'
      cases hread'
      exact hdata.symm

/-- The reader of an open stream. -/
theorem Inv.reader_of_stream (h : Inv records s) {id : String} {d : Descriptor}
    (hd : lookup id s.openStreams = some d) :
    ∃ r, s.readers[d.chunkTx]? = some r ∧ r.isOpen = true ∧
      r.info.encryptionType = d.encryptionType ∧
      (r.alive = true → r.items = (contentsOf d.chunkTx records).map .ok ∧
        (d.encryptionType ≠ .none → AllAs records d.chunkTx d.encryptionType)) := by
  obtain ⟨r, hr, hencryption⟩ := h.streams id d hd
  obtain ⟨r', hr', -, hopen⟩ := h.wf.reader id d hd
  obtain rfl := some.inj (hr.symm.trans hr')
  refine ⟨r, hr, hopen, hencryption, ?_⟩
  intro halive
  rcases h.reader d.chunkTx r hr halive with ⟨hclosed, -⟩ | ⟨hitems, has⟩
  · rw [hopen] at hclosed
    cases hclosed
  · rw [hencryption] at has
    exact ⟨hitems, has⟩

/-- A reader that is told of an error. -/
theorem Told.of_error {r : Reader} {key : ReaderKey} {contents : List Bytes}
    (hitems : r.items = contents.map .ok) (halive : r.alive = true) (err : StreamError)
    (records' : List Entry) : Told records' key (r.send (.error err)).hangUp := by
  obtain ⟨err', herror⟩ := Reader.readAll_failed hitems halive err
  exact .failed rfl err' herror

/-- The reader of the stream that an event concerns. -/
theorem Inv.told_change (h : Inv records s) {receivedAs : EncryptionType}
    (has : As receivedAs event) {d : Descriptor}
    (hd : lookup event.packet.streamId s.openStreams = some d) {r : Reader}
    (hr : s.readers[d.chunkTx]? = some r) (halive : r.alive = true)
    (htrailer : TrailerAs s receivedAs event) :
    Told (records ++ entries s receivedAs event) d.chunkTx
      ((d.change event.packet).reader r) := by
  obtain ⟨r', hr', hopen, hencryption, htold⟩ := h.reader_of_stream hd
  obtain rfl := some.inj (hr.symm.trans hr')
  obtain ⟨hitems, hall⟩ := htold halive
  cases event with
  | dataStreamHeader header identity encryptionType =>
    rw [show entries s receivedAs (.dataStreamHeader header identity encryptionType) = [] from rfl,
      append_nil]
    exact h.reader d.chunkTx r hr halive
  | dataStreamChunk chunk identity encryptionType =>
    have hentries : entries s receivedAs (.dataStreamChunk chunk identity encryptionType) =
        [⟨d.chunkTx, receivedAs, some chunk.content⟩] := by
      unfold entries
      dsimp only
      rw [show lookup chunk.streamId s.openStreams = some d from hd]
    -- the type of the chunk is compared with that of the header
    have has' : encryptionType = receivedAs := has
    show Told _ _ ((d.change (.chunk chunk encryptionType)).reader r)
    unfold Descriptor.change
    dsimp only
    by_cases hmismatch : d.encryptionType ≠ encryptionType
    · rw [if_pos hmismatch]
      exact Told.of_error hitems halive _ _
    · rw [if_neg hmismatch]
      by_cases hindex : d.progress.chunkIndex ≠ chunk.chunkIndex
      · rw [if_pos hindex]
        exact Told.of_error hitems halive _ _
      · rw [if_neg hindex]
        by_cases hfits : d.Fits chunk.content
        · rw [if_pos hfits, hentries]
          dsimp only
          rw [Reader.send_of_alive halive]
          refine .got ?_ ?_
          · rw [contentsOf_append, contentsOf_single ⟨d.chunkTx, receivedAs, some chunk.content⟩,
              map_append, ← hitems]
            rfl
          · intro hne
            rw [hencryption] at hne ⊢
            refine allAs_append.mpr ⟨hall hne, ?_⟩
            intro entry hmem _
            rw [mem_singleton.mp hmem]
            exact (not_not.mp hmismatch).trans has' |>.symm
        · rw [if_neg hfits]
          exact Told.of_error hitems halive _ _
  | dataStreamTrailer trailer identity =>
    have hentries := entries_trailer hd receivedAs identity
    show Told _ _ ((d.change (.trailer trailer)).reader r)
    unfold Descriptor.change
    dsimp only
    by_cases hcomplete : ¬ d.Complete
    · rw [if_pos hcomplete]
      exact Told.of_error hitems halive _ _
    · rw [if_neg hcomplete]
      by_cases hreason : trailer.reason ≠ ""
      · rw [if_pos hreason]
        exact Told.of_error hitems halive _ _
      · rw [if_neg hreason, hentries]
        -- nobody compares the type of the trailer: `htrailer` is what is needed
        by_cases hundecodable : r.Undecodable
        · rcases Reader.readAll_closed (r := r.hangUp) hitems rfl with
            ⟨-, err, herror⟩ | ⟨hnot, -⟩
          · exact .failed rfl err herror
          · exact absurd hundecodable hnot
        · refine .got ?_ ?_
          · rw [contentsOf_append, contentsOf_single ⟨d.chunkTx, receivedAs, none⟩]
            exact hitems.trans (by rw [toList_none, append_nil])
          · intro hne
            have hne' : d.encryptionType ≠ .none := by
              rw [← hencryption]
              exact hne
            show AllAs _ _ r.info.encryptionType
            rw [hencryption]
            refine allAs_append.mpr ⟨hall hne', ?_⟩
            intro entry hmem _
            rw [mem_singleton.mp hmem]
            exact htrailer trailer identity rfl d r hd hr halive hundecodable hne'
              (not_not.mp hcomplete) (not_not.mp hreason)

/-- Every event of a packet is handled so that what is told stays so, if the trailer that ends an
encrypted stream is encrypted. -/
theorem Inv.handle (h : Inv records s) {receivedAs : EncryptionType} (has : As receivedAs event)
    (htrailer : TrailerAs s receivedAs event) :
    Inv (records ++ entries s receivedAs event) (s.handle event.packet) := by
  have hhandled := s.handle_cases event.packet
  have hkeeps : ∀ key, key < s.readers.length → key < (s.handle event.packet).readers.length := by
    intro key hlt
    obtain ⟨r', hr', -⟩ := hhandled.keeps (getElem?_eq_getElem hlt)
    exact (List.getElem?_eq_some_iff.mp hr').1
  refine ⟨h.wf.handled hhandled, ?_, ?_, ?_⟩
  · intro entry hmem
    apply hkeeps
    rcases mem_append.mp hmem with hold | hnew
    · exact h.known entry hold
    · obtain ⟨d, hd, hkey⟩ := entries_key hnew
      obtain ⟨r, hr, -⟩ := h.wf.reader _ d hd
      rw [hkey]
      exact (List.getElem?_eq_some_iff.mp hr).1
  · intro id d hd
    rcases handle_lookup hd with ⟨d₀, hd₀, hkey, hencryption⟩ |
      ⟨info, identity, hopened, hkey, hencryption⟩
    · obtain ⟨r, hr, hsame⟩ := h.streams id d₀ hd₀
      obtain ⟨r', hr', hinfo, -⟩ := hhandled.keeps hr
      refine ⟨r', hkey ▸ hr', ?_⟩
      rw [hinfo, hencryption]
      exact hsame
    · refine ⟨⟨info, identity, [], true, true⟩, ?_, hencryption.symm⟩
      rw [hopened, opened_getElem?, if_pos hkey]
  · intro key r' hr' halive
    -- only the reader of the stream is told something
    cases hd : lookup event.packet.streamId s.openStreams with
    | none =>
      have hnone : entries s receivedAs event = [] := by
        rw [eq_nil_iff_forall_not_mem]
        intro entry hmem
        obtain ⟨d, hd', -⟩ := entries_key hmem
        rw [hd] at hd'
        cases hd'
      rw [hnone, append_nil]
      rw [handle_unopened hd] at hr'
      split at hr'
      · exact h.reader key r' hr' halive
      · rw [opened_getElem?] at hr'
        by_cases hkey : key = s.readers.length
        · rw [if_pos hkey] at hr'
          obtain rfl := some.inj hr'
          -- nothing is on record for a new reader
          have hother : ∀ entry ∈ records, entry.key ≠ key := by
            intro entry hmem
            rw [hkey]
            exact Nat.ne_of_lt (h.known entry hmem)
          refine .got ?_ fun _ => allAs_of_other hother _
          rw [contentsOf_eq_nil hother]
          rfl
        · rw [if_neg hkey] at hr'
          exact h.reader key r' hr' halive
    | some d =>
      by_cases hkey : d.chunkTx = key
      · subst hkey
        obtain ⟨r, hr, -⟩ := h.wf.reader _ d hd
        obtain ⟨r'', hr'', -, -, hsame⟩ := hhandled.keeps hr
        obtain rfl := some.inj (hr'.symm.trans hr'')
        rw [hsame] at halive
        have hchanged := handle_changed hd (by rw [hasReader_eq hr]; exact halive)
        rw [hchanged.readers, modify_eq_set hr, getElem?_set hr,
          if_pos rfl] at hr'
        obtain rfl := some.inj hr'
        exact h.told_change has hd hr halive htrailer
      · rw [handle_getElem?_of_ne hd hkey] at hr'
        refine (h.reader key r' hr' halive).other ?_
        intro entry hmem
        obtain ⟨d', hd', hentry⟩ := entries_key hmem
        rw [hd] at hd'
        obtain rfl := some.inj hd'
        rw [hentry]
        exact hkey

theorem Inv.dropManager (h : Inv records s) : Inv records s.dropManager where
  wf := State.Wf.dropManager s
  known entry hmem := by
    unfold State.dropManager
    rw [length_map]
    exact h.known entry hmem
  streams id d hd := by
    have hnone : lookup id s.dropManager.openStreams = none := lookup_empty id
    rw [hnone] at hd
    cases hd
  reader key r' hr' halive := by
    rw [dropManager_getElem?] at hr'
    obtain ⟨r, hr, rfl⟩ := map_eq_some_iff.mp hr'
    rcases h.reader key r hr halive with ⟨hclosed, err, herror⟩ | ⟨hitems, has⟩
    · rw [Reader.hangUp_of_closed hclosed]
      exact .failed hclosed err herror
    · exact .got hitems has

theorem Inv.dropReader (h : Inv records s) (dropped : ReaderKey) :
    Inv records (s.modifyReader dropped fun r => { r with alive := false }) where
  wf := h.wf.dropReader dropped
  known entry hmem := by
    unfold modifyReader
    rw [length_modify]
    exact h.known entry hmem
  streams id d hd := by
    obtain ⟨r, hr, hencryption⟩ := h.streams id d hd
    rw [modifyReader_getElem?]
    by_cases hkey : dropped = d.chunkTx
    · rw [if_pos hkey, hr]
      exact ⟨_, rfl, hencryption⟩
    · rw [if_neg hkey]
      exact ⟨r, hr, hencryption⟩
  reader key r hr halive := by
    rw [modifyReader_getElem?] at hr
    by_cases hkey : dropped = key
    · rw [if_pos hkey] at hr
      obtain ⟨r', -, rfl⟩ := map_eq_some_iff.mp hr
      cases halive
    · rw [if_neg hkey] at hr
      exact h.reader key r hr halive

variable (decodePayload : Bytes → Except String (Option EncryptedValue))

theorem inv_step {s' : State} {a : Action} (h : Inv records s)
    (hstep : step decodePayload s a = some s')
    (htrailers : TrailersEncrypted decodePayload s a s') :
    Inv (records ++ record decodePayload s a) s' := by
  rcases step_cases decodePayload hstep with ⟨incoming, rfl, hnone, rfl⟩ |
    ⟨incoming, event, rfl, hone, has, rfl⟩ | ⟨rfl, rfl⟩ | ⟨key, rfl, rfl⟩
  · rw [show record decodePayload s' (.receive incoming) =
      (incoming.events decodePayload).flatMap _ from rfl, hnone, flatMap_nil, append_nil]
    exact h
  · rw [show record decodePayload s (.receive incoming) =
      (incoming.events decodePayload).flatMap _ from rfl, hone, flatMap_singleton]
    exact h.handle has (trailerAs_of_event htrailers hone)
  · rw [show record decodePayload s .dropManager = [] from rfl, append_nil]
    exact h.dropManager
  · rw [show record decodePayload s (.dropReader key) = [] from rfl, append_nil]
    exact h.dropReader key

/-- A trailer in plain text that closes an encrypted stream without an error. -/
theorem not_protected {s' : State} {a : Action} (h : Inv records s)
    (hstep : step decodePayload s a = some s')
    (htrailers : ¬ TrailersEncrypted decodePayload s a s') :
    ¬ Protected (records ++ record decodePayload s a) s' := by
  intro hprotected
  apply htrailers
  cases a with
  | receive incoming =>
    intro trailer identity hmem d r hd hr halive hdecodable hne hcomplete hreason
    rcases step_cases decodePayload hstep with ⟨_, hi, hnone, -⟩ | ⟨_, event, hi, hone, -, rfl⟩ |
      ⟨ha, -⟩ | ⟨_, ha, -⟩
    · cases hi
      rw [hnone] at hmem
      exact absurd hmem not_mem_nil
    · cases hi
      rw [hone] at hmem
      obtain rfl := mem_singleton.mp hmem
      obtain ⟨r', hr', -, hencryption, htold⟩ := h.reader_of_stream hd
      obtain rfl := some.inj (hr.symm.trans hr')
      -- the reader returns `Ok`, with this trailer on record
      have hended : s.handle (.trailer trailer) = s.ended trailer.streamId d Reader.hangUp :=
        handleTrailer_complete hd hcomplete hreason
      have hreader : (s.handle (.trailer trailer)).readers[d.chunkTx]? = some r.hangUp := by
        rw [hended, ended_getElem?, if_pos rfl, hr]
        rfl
      rcases Reader.readAll_closed (r := r.hangUp) (htold halive).1 rfl with
        ⟨hundecodable, -⟩ | ⟨-, output, hread, -⟩
      · exact absurd hundecodable hdecodable
      · have hinfo : r.hangUp.info.encryptionType = d.encryptionType := hencryption
        obtain ⟨-, has⟩ := hprotected d.chunkTx r.hangUp hreader halive (by rw [hinfo]; exact hne)
          output hread
        rw [hinfo] at has
        refine has ⟨d.chunkTx, receivedAs incoming.packet, none⟩ (mem_append_right _ ?_) rfl
        rw [show record decodePayload s (.receive incoming) =
          (incoming.events decodePayload).flatMap _ from rfl, hone, flatMap_singleton,
          entries_trailer hd]
        exact mem_singleton_self _
    · cases ha
    · cases ha
  | dropManager | dropReader => trivial

theorem protected_iff_trailersEncrypted (run : List Action) :
    Always (step decodePayload) (record decodePayload) Protected .new run ↔
      EachStep (step decodePayload) (TrailersEncrypted decodePayload) .new run := by
  refine always_iff_eachStep (I := Inv) (fun _ _ h => h.protected) ?_ Inv.new run
  intro records s a s' h hstep
  by_cases htrailers : TrailersEncrypted decodePayload s a s'
  · exact .inl ⟨htrailers, inv_step decodePayload h hstep htrailers⟩
  · exact .inr ⟨htrailers, not_protected decodePayload h hstep htrailers⟩

end

/-! ## A stream by itself -/

/-- The stream of a reader, as long as it is open, and the reader. -/
structure Alone where
  stream : Option Descriptor
  reader : Reader

def Alone.step (a : Alone) : Own → Alone
  | .packet packet _ =>
    match a.stream with
    | none => a
    | some d => ⟨(d.change packet).stream, (d.change packet).reader a.reader⟩
  | .dropManager => ⟨none, a.reader.hangUp⟩

/-- An encrypted stream, whose reader has no error to report while it is open. -/
structure Alone.Good (a : Alone) : Prop where
  encrypted : ∀ d, a.stream = some d → d.encryptionType ≠ .none
  items : a.stream ≠ none → ∃ contents : List Bytes, a.reader.items = contents.map .ok
  closed : a.stream = none → a.reader.isOpen = false

theorem Alone.Good.step {a : Alone} (h : a.Good) (halive : a.reader.alive = true) (own : Own) :
    (a.step own).Good := by
  cases own with
  | dropManager => exact ⟨nofun, fun hne => absurd rfl hne, fun _ => rfl⟩
  | packet packet receivedAs =>
    unfold Alone.step
    dsimp only
    cases hstream : a.stream with
    | none => exact h
    | some d =>
      obtain ⟨contents, hitems⟩ := h.items (by rw [hstream]; nofun)
      have hencrypted := h.encrypted d hstream
      have hcases := d.change_cases packet
      dsimp only
      rcases hcases with hsame | ⟨err, herr⟩ | ⟨content, hcontent⟩ | hended
      · rw [show d.change packet = _ from hsame d.chunkTx]
        refine ⟨?_, fun _ => ⟨contents, hitems⟩, nofun⟩
        intro d' hd'
        exact some.inj hd' ▸ hencrypted
      · rw [show d.change packet = _ from herr d.chunkTx]
        exact ⟨nofun, fun hne => absurd rfl hne, fun _ => rfl⟩
      · rw [show d.change packet = _ from hcontent d.chunkTx]
        refine ⟨?_, fun _ => ⟨contents ++ [content], ?_⟩, nofun⟩
        · intro d' hd'
          exact some.inj hd' ▸ hencrypted
        · show (a.reader.send (.ok content)).items = _
          rw [Reader.send_of_alive halive, map_append, ← hitems]
          rfl
      · rw [show d.change packet = _ from hended d.chunkTx]
        exact ⟨nofun, fun hne => absurd rfl hne, fun _ => rfl⟩

/-- The stream under the identifier, with the reader `key`, is in the state what it is alone. -/
structure Sees (s : State) (key : ReaderKey) (id : String) (a : Alone) : Prop where
  wf : State.Wf s
  reader : s.readers[key]? = some a.reader
  id_eq : a.reader.info.id = id
  stream : ∀ d, a.stream = some d → AList.lookup id s.openStreams = some (d.moved key)
  good : a.Good

/-- The reader has an error to report. -/
structure Failed (s : State) (key : ReaderKey) : Prop where
  wf : State.Wf s
  reader : ∃ r err, s.readers[key]? = some r ∧ r.isOpen = false ∧ r.readAll = some (.error err)

/-- There is the reader, and it was not dropped. -/
def Alive (s : State) (key : ReaderKey) : Prop :=
  ∃ r, s.readers[key]? = some r ∧ r.alive = true

section

variable {s : State} {key : ReaderKey} {id : String} {a : Alone}

/-- A packet of the stream. -/
theorem Sees.packet_own (h : Sees s key id a) (halive : a.reader.alive = true) {p : Packet}
    (hp : p.streamId = id) (receivedAs : EncryptionType) :
    Sees (s.handle p) key id (a.step (.packet p receivedAs)) := by
  have hhandled := s.handle_cases p
  have hgood := h.good.step halive (.packet p receivedAs)
  cases hstream : a.stream with
  | none =>
    have hsame : a.step (.packet p receivedAs) = a := by
      unfold Alone.step
      dsimp only
      rw [hstream]
    rw [hsame] at hgood ⊢
    refine ⟨h.wf.handled hhandled, ?_, h.id_eq, ?_, hgood⟩
    · exact handle_of_closed h.wf h.reader (h.good.closed hstream) p
    · intro d hd
      rw [hstream] at hd
      cases hd
  | some d =>
    have hstep : a.step (.packet p receivedAs) =
        ⟨(d.change p).stream, (d.change p).reader a.reader⟩ := by
      unfold Alone.step
      dsimp only
      rw [hstream]
    have hd : lookup p.streamId s.openStreams = some (d.moved key) := by
      rw [hp]
      exact h.stream d hstream
    have hchanged := handle_changed hd
      (by rw [show (d.moved key).chunkTx = key from rfl, hasReader_eq h.reader, halive])
    rw [d.change_moved key p] at hchanged
    have hreader : (s.handle p).readers[key]? = some ((d.change p).reader a.reader) := by
      rw [hchanged.readers, show (d.moved key).chunkTx = key from rfl,
        modify_eq_set h.reader, getElem?_set h.reader, if_pos rfl]
    obtain ⟨r', hr', hinfo, -⟩ := hhandled.keeps h.reader
    rw [hstep] at hgood ⊢
    refine ⟨h.wf.handled hhandled, hreader, ?_, ?_, hgood⟩
    · rw [hreader] at hr'
      obtain rfl := some.inj hr'
      exact (congrArg AnyStreamInfo.id hinfo).trans h.id_eq
    · intro d' hd'
      rw [hchanged.streams, if_pos hp.symm]
      show Option.map _ (d.change p).stream = _
      rw [show (d.change p).stream = some d' from hd']
      rfl

/-- A packet of another stream. -/
theorem Sees.packet_other (h : Sees s key id a) {p : Packet} (hp : p.streamId ≠ id) :
    Sees (s.handle p) key id a := by
  have hhandled := s.handle_cases p
  obtain ⟨hlookup, hreaders⟩ := hhandled.other h.wf hp
  refine ⟨h.wf.handled hhandled, hreaders key a.reader h.reader h.id_eq, h.id_eq, ?_, h.good⟩
  intro d hd
  rw [hlookup]
  exact h.stream d hd

theorem Sees.dropManager (h : Sees s key id a) (halive : a.reader.alive = true) :
    Sees s.dropManager key id (a.step .dropManager) := by
  refine ⟨State.Wf.dropManager s, ?_, h.id_eq, nofun, h.good.step halive .dropManager⟩
  rw [dropManager_getElem?, h.reader]
  rfl

theorem Sees.dropReader (h : Sees s key id a) {dropped : ReaderKey} (hkey : dropped ≠ key) :
    Sees (s.modifyReader dropped fun r => { r with alive := false }) key id a := by
  refine ⟨h.wf.dropReader dropped, ?_, h.id_eq, h.stream, h.good⟩
  rw [modifyReader_getElem?, if_neg hkey]
  exact h.reader

theorem Failed.packet (h : Failed s key) (p : Packet) : Failed (s.handle p) key := by
  obtain ⟨r, err, hr, hclosed, herror⟩ := h.reader
  exact ⟨h.wf.handled (s.handle_cases p), r, err, handle_of_closed h.wf hr hclosed p, hclosed,
    herror⟩

variable (decodePayload : Bytes → Except String (Option EncryptedValue))

variable {action : Action} {s' : State}

theorem Failed.step (h : Failed s key) (hstep : step decodePayload s action = some s') :
    Failed s' key := by
  rcases step_cases decodePayload hstep with ⟨_, -, -, rfl⟩ | ⟨_, event, -, -, -, rfl⟩ |
    ⟨-, rfl⟩ | ⟨dropped, -, rfl⟩
  · exact h
  · exact h.packet event.packet
  · obtain ⟨r, err, hr, hclosed, herror⟩ := h.reader
    refine ⟨State.Wf.dropManager s, r, err, ?_, hclosed, herror⟩
    rw [dropManager_getElem?, hr, map_some, Reader.hangUp_of_closed hclosed]
  · obtain ⟨r, err, hr, hclosed, herror⟩ := h.reader
    refine ⟨h.wf.dropReader dropped, ?_⟩
    rw [modifyReader_getElem?]
    by_cases hkey : dropped = key
    · rw [if_pos hkey, hr]
      exact ⟨_, err, rfl, hclosed, herror⟩
    · rw [if_neg hkey]
      exact ⟨r, err, hr, hclosed, herror⟩

/-- A reader that is there after a step was there before it. -/
theorem alive_of_step {r : Reader} (hstep : step decodePayload s action = some s')
    (hr : s.readers[key]? = some r) (halive : Alive s' key) :
    r.alive = true ∧ action ≠ .dropReader key := by
  obtain ⟨r', hr', halive'⟩ := halive
  rcases step_cases decodePayload hstep with ⟨_, rfl, -, rfl⟩ | ⟨_, event, rfl, -, -, rfl⟩ |
    ⟨rfl, rfl⟩ | ⟨dropped, rfl, rfl⟩
  · obtain rfl := some.inj (hr.symm.trans hr')
    exact ⟨halive', nofun⟩
  · obtain ⟨r'', hr'', -, -, hsame⟩ := (s.handle_cases event.packet).keeps hr
    obtain rfl := some.inj (hr'.symm.trans hr'')
    exact ⟨hsame ▸ halive', nofun⟩
  · rw [dropManager_getElem?, hr] at hr'
    obtain rfl := some.inj hr'
    exact ⟨halive', nofun⟩
  · rw [modifyReader_getElem?] at hr'
    by_cases hkey : dropped = key
    · rw [if_pos hkey, hr] at hr'
      obtain rfl := some.inj hr'
      cases halive'
    · rw [if_neg hkey, hr] at hr'
      obtain rfl := some.inj hr'
      refine ⟨halive', ?_⟩
      rintro heq
      exact hkey (Action.dropReader.inj heq)

theorem exists_of_step {r : Reader} (hstep : step decodePayload s action = some s')
    (hr : s.readers[key]? = some r) : ∃ r', s'.readers[key]? = some r' := by
  rcases step_cases decodePayload hstep with ⟨_, rfl, -, rfl⟩ | ⟨_, event, rfl, -, -, rfl⟩ |
    ⟨rfl, rfl⟩ | ⟨dropped, rfl, rfl⟩
  · exact ⟨r, hr⟩
  · obtain ⟨r', hr', -⟩ := (s.handle_cases event.packet).keeps hr
    exact ⟨r', hr'⟩
  · rw [dropManager_getElem?, hr]
    exact ⟨_, rfl⟩
  · rw [modifyReader_getElem?, hr]
    by_cases hkey : dropped = key
    · rw [if_pos hkey]
      exact ⟨_, rfl⟩
    · rw [if_neg hkey]
      exact ⟨_, rfl⟩

theorem alive_of_run {run : List Action} {r : Reader}
    (hexec : exec (step decodePayload) s run = some s') (hr : s.readers[key]? = some r)
    (halive : Alive s' key) : Alive s key := by
  induction run generalizing s r with
  | nil =>
    rw [exec_nil, some.injEq] at hexec
    exact hexec ▸ halive
  | cons action run ih =>
    obtain ⟨m, hm, hrest⟩ := exec_cons_eq_some.mp hexec
    obtain ⟨r', hr'⟩ := exists_of_step decodePayload hm hr
    exact ⟨r, hr, (alive_of_step decodePayload hm hr (ih hrest hr')).1⟩

variable {incoming : Incoming}

/-- A packet that is none of a data stream means nothing to a stream. -/
theorem own_receive_none (h : incoming.events decodePayload = []) (id : String) :
    own decodePayload id (.receive incoming) = [] := by
  unfold own
  dsimp only
  rw [h]
  rfl

theorem own_receive (h : incoming.events decodePayload = [event]) (id : String) :
    own decodePayload id (.receive incoming) =
      if event.packet.streamId = id then [.packet event.packet (receivedAs incoming.packet)]
      else [] := by
  unfold own
  dsimp only
  rw [h]
  by_cases hid : event.packet.streamId = id
  · rw [if_pos hid, filter_cons_of_pos (by simpa using hid)]
    rfl
  · rw [if_neg hid, filter_cons_of_neg (by simpa using hid)]
    rfl

/-- An action means one thing at most to a stream. -/
theorem own_cases (id : String) (action : Action) :
    own decodePayload id action = [] ∨ ∃ x, own decodePayload id action = [x] := by
  cases action with
  | receive incoming =>
    rcases events_cases decodePayload incoming with hnone | ⟨event, hone, -⟩
    · exact .inl (own_receive_none decodePayload hnone id)
    · rw [own_receive decodePayload hone]
      by_cases hid : event.packet.streamId = id
      · rw [if_pos hid]
        exact .inr ⟨_, rfl⟩
      · rw [if_neg hid]
        exact .inl rfl
  | dropManager => exact .inr ⟨_, rfl⟩
  | dropReader key => exact .inl rfl

/-- A step is to the stream what it is to the stream alone. -/
theorem Sees.step (h : Sees s key id a) (hstep : step decodePayload s action = some s')
    (halive : Alive s' key) :
    Sees s' key id ((own decodePayload id action).foldl Alone.step a) := by
  obtain ⟨hbefore, hdropped⟩ := alive_of_step decodePayload hstep h.reader halive
  rcases step_cases decodePayload hstep with ⟨incoming, rfl, hnone, rfl⟩ |
    ⟨incoming, event, rfl, hone, -, rfl⟩ | ⟨rfl, rfl⟩ | ⟨dropped, rfl, rfl⟩
  · rw [own_receive_none decodePayload hnone]
    exact h
  · rw [own_receive decodePayload hone]
    by_cases hid : event.packet.streamId = id
    · rw [if_pos hid]
      exact h.packet_own hbefore hid (receivedAs incoming.packet)
    · rw [if_neg hid]
      exact h.packet_other hid
  · exact h.dropManager hbefore
  · refine h.dropReader ?_
    rintro rfl
    exact hdropped rfl

/-- A packet in plain text for an encrypted stream does nothing to it, or its reader gets an error
to report. -/
theorem Sees.plain (h : Sees s key id a) (halive : a.reader.alive = true) (has : As .none event)
    (hid : event.packet.streamId = id) (htrailer : TrailerAs s .none event) :
    Sees (s.handle event.packet) key id a ∨ Failed (s.handle event.packet) key := by
  have hhandled := s.handle_cases event.packet
  cases hstream : a.stream with
  | none =>
    left
    refine ⟨h.wf.handled hhandled, ?_, h.id_eq, ?_, h.good⟩
    · exact handle_of_closed h.wf h.reader (h.good.closed hstream) event.packet
    · intro d hd
      rw [hstream] at hd
      cases hd
  | some d =>
    have hd : lookup event.packet.streamId s.openStreams = some (d.moved key) := by
      rw [hid]
      exact h.stream d hstream
    have hencrypted := h.good.encrypted d hstream
    obtain ⟨contents, hitems⟩ := h.good.items (by rw [hstream]; nofun)
    have hchanged := handle_changed hd
      (by rw [show (d.moved key).chunkTx = key from rfl, hasReader_eq h.reader, halive])
    have hreader : (s.handle event.packet).readers[key]? =
        some (((d.moved key).change event.packet).reader a.reader) := by
      rw [hchanged.readers, show (d.moved key).chunkTx = key from rfl,
        modify_eq_set h.reader, getElem?_set h.reader, if_pos rfl]
    -- an error that the reader is told is what it reports
    have hfailed : ∀ err, (d.moved key).change event.packet = .failed err →
        Failed (s.handle event.packet) key := by
      intro err hchange
      rw [hchange] at hreader
      obtain ⟨err', herror⟩ := Reader.readAll_failed hitems halive err
      exact ⟨h.wf.handled hhandled, _, err', hreader, rfl, herror⟩
    cases event with
    | dataStreamHeader header identity encryptionType =>
      left
      have hsame : s.handle (.header header identity encryptionType) = s :=
        handleHeader_open hd identity encryptionType
      show Sees (s.handle (.header header identity encryptionType)) key id a
      rw [hsame]
      exact h
    | dataStreamChunk chunk identity encryptionType =>
      right
      have hplain : encryptionType = .none := has
      refine hfailed .encryptionTypeMismatch ?_
      show (d.moved key).change (.chunk chunk encryptionType) = _
      unfold Descriptor.change
      dsimp only
      rw [if_pos]
      rw [hplain]
      exact hencrypted
    | dataStreamTrailer trailer identity =>
      right
      by_cases hcomplete : (d.moved key).Complete
      · by_cases hreason : trailer.reason = ""
        · have hended : (d.moved key).change (.trailer trailer) = ⟨none, Reader.hangUp⟩ := by
            unfold Descriptor.change
            dsimp only
            rw [if_neg (not_not.mpr hcomplete), if_neg (not_not.mpr hreason)]
          have hundecodable : a.reader.Undecodable := by
            by_contra hdecodable
            exact hencrypted (htrailer trailer identity rfl (d.moved key) a.reader hd h.reader
              halive hdecodable hencrypted hcomplete hreason).symm
          have hreader' : (s.handle (.trailer trailer)).readers[key]? = some a.reader.hangUp := by
            rw [show (s.handle (.trailer trailer)).readers[key]? = _ from hreader]
            show some (((d.moved key).change (.trailer trailer)).reader a.reader) = _
            rw [hended]
          rcases Reader.readAll_closed (r := a.reader.hangUp) hitems rfl with
            ⟨-, err, herror⟩ | ⟨hnot, -⟩
          · exact ⟨h.wf.handled hhandled, _, err, hreader', rfl, herror⟩
          · exact absurd hundecodable hnot
        · refine hfailed (.abnormalEnd trailer.reason) ?_
          show (d.moved key).change (.trailer trailer) = _
          unfold Descriptor.change
          dsimp only
          rw [if_neg (not_not.mpr hcomplete), if_pos hreason]
      · refine hfailed .incomplete ?_
        show (d.moved key).change (.trailer trailer) = _
        unfold Descriptor.change
        dsimp only
        rw [if_pos hcomplete]

/-- A run is to the stream what it is to the stream alone. -/
theorem Sees.run {run : List Action} (h : Sees s key id a)
    (hexec : exec (Encryption.step decodePayload) s run = some s') (halive : Alive s' key) :
    Sees s' key id ((run.flatMap (own decodePayload id)).foldl Alone.step a) := by
  induction run generalizing s a with
  | nil =>
    rw [exec_nil, some.injEq] at hexec
    exact hexec ▸ h
  | cons action run ih =>
    obtain ⟨m, hm, hrest⟩ := exec_cons_eq_some.mp hexec
    obtain ⟨r, hr⟩ := exists_of_step decodePayload hm h.reader
    rw [flatMap_cons, foldl_append]
    exact ih (h.step decodePayload hm (alive_of_run decodePayload hrest hr halive)) hrest

theorem Failed.run {run : List Action} (h : Failed s key)
    (hexec : exec (Encryption.step decodePayload) s run = some s') : Failed s' key :=
  exec_invariant (I := (Failed · key))
    (fun _ _ _ hfailed hstep => Failed.step decodePayload hfailed hstep) h hexec

/-- A run with packets in plain text inserted is to the stream what it is without them, or the
reader gets an error to report. -/
theorem Sees.inserted {run : List Action} (h : Sees s key id a)
    (hexec : exec (Encryption.step decodePayload) s run = some s') (halive : Alive s' key)
    (htrailers : EachStep (Encryption.step decodePayload) (TrailersEncrypted decodePayload) s run)
    {l : List Own} (hinserted : Inserted Own.Plain l (run.flatMap (own decodePayload id))) :
    Sees s' key id (l.foldl Alone.step a) ∨ Failed s' key := by
  induction run generalizing s a l with
  | nil =>
    rw [exec_nil, some.injEq] at hexec
    rw [flatMap_nil] at hinserted
    cases hinserted
    exact .inl (hexec ▸ h)
  | cons action run ih =>
    obtain ⟨m, hm, hrest⟩ := exec_cons_eq_some.mp hexec
    obtain ⟨htrailer, htrailers'⟩ := htrailers m hm
    obtain ⟨r, hr⟩ := exists_of_step decodePayload hm h.reader
    have hmid := alive_of_run decodePayload hrest hr halive
    have hstep := h.step decodePayload hm hmid
    rw [flatMap_cons] at hinserted
    -- an action is nothing to the stream, or one element of its list
    rcases own_cases decodePayload id action with hnone | ⟨x, hone⟩
    · rw [hnone] at hstep hinserted
      exact ih hstep hrest htrailers' hinserted
    · rw [hone] at hstep hinserted
      cases hinserted with
      | keep x hinserted' => exact ih hstep hrest htrailers' hinserted'
      | insert hplain hinserted' =>
        -- what is inserted is a packet in plain text
        have hsees : Sees m key id a ∨ Failed m key := by
          rcases step_cases decodePayload hm with ⟨incoming, rfl, hevents, -⟩ |
            ⟨incoming, event, rfl, hevents, has, rfl⟩ | ⟨rfl, -⟩ | ⟨dropped, rfl, -⟩
          · rw [own_receive_none decodePayload hevents] at hone
            cases hone
          · rw [own_receive decodePayload hevents] at hone
            by_cases hid : event.packet.streamId = id
            · rw [if_pos hid] at hone
              obtain ⟨rfl, -⟩ := List.cons.inj hone
              have hnone : receivedAs incoming.packet = .none := hplain
              have hbefore := (alive_of_step decodePayload hm h.reader hmid).1
              have htrailerAs := trailerAs_of_event htrailer hevents
              rw [hnone] at has htrailerAs
              exact h.plain hbefore has hid htrailerAs
            · rw [if_neg hid] at hone
              cases hone
          · obtain ⟨rfl, -⟩ := List.cons.inj hone
            exact False.elim hplain
          · cases hone
        rcases hsees with hsees | hfailed
        · exact ih hsees hrest htrailers' hinserted'
        · exact .inr (hfailed.run decodePayload hrest)

/-- A stream that is opened. -/
theorem Opens.sees {info : AnyStreamInfo} {identity : String} {m : State}
    (h : Opens decodePayload s incoming info identity) (hwf : State.Wf s)
    (hencrypted : info.encryptionType ≠ .none)
    (hstep : Encryption.step decodePayload s (.receive incoming) = some m) :
    Sees m s.readers.length info.id
      ⟨some ⟨⟨0, 0, info.totalLength⟩, 0, info.encryptionType⟩,
        ⟨info, identity, [], true, true⟩⟩ := by
  obtain ⟨header, encryptionType, hevents, hinfo, hnew⟩ := h
  have hm : m = s.opened info identity := by
    rcases step_cases decodePayload hstep with ⟨_, hi, hnone, -⟩ | ⟨_, event, hi, hone, -, rfl⟩ |
      ⟨ha, -⟩ | ⟨_, ha, -⟩
    · cases hi
      rw [hevents] at hnone
      cases hnone
    · cases hi
      rw [hevents] at hone
      obtain ⟨rfl, -⟩ := List.cons.inj hone
      show s.handleHeader header identity encryptionType = _
      unfold handleHeader
      rw [hinfo]
      dsimp only
      rw [if_neg hnew]
      rfl
    · cases ha
    · cases ha
  subst hm
  refine ⟨hwf.opened identity (lookup_eq_none.mpr hnew), ?_, rfl, ?_, ?_⟩
  · rw [opened_getElem?, if_pos rfl]
  · intro d hd
    obtain rfl := some.inj hd
    rw [opened_lookup, if_pos rfl]
    rfl
  · refine ⟨?_, fun _ => ⟨[], rfl⟩, nofun⟩
    intro d hd
    obtain rfl := some.inj hd
    exact hencrypted

theorem wf_of_exec {run : List Action}
    (hexec : exec (Encryption.step decodePayload) .new run = some s) : State.Wf s := by
  refine exec_invariant (I := State.Wf) ?_ State.Wf.new hexec
  intro m action m' hwf hstep
  rcases step_cases decodePayload hstep with ⟨_, -, -, rfl⟩ | ⟨_, event, -, -, -, rfl⟩ |
    ⟨-, rfl⟩ | ⟨dropped, -, rfl⟩
  · exact hwf
  · exact hwf.handled (m.handle_cases event.packet)
  · exact State.Wf.dropManager m
  · exact hwf.dropReader dropped

end

/-- `read_all` on the stream that the packet opens after the first run, when the second is over:
the results that it can have while the reader is there. -/
def Reads (decodePayload : Bytes → Except String (Option EncryptedValue)) (before : List Action)
    (incoming : Incoming) (after : List Action) (info : AnyStreamInfo) (identity : String)
    (result : Option (Except StreamError Output)) : Prop :=
  ∃ s s' r, exec (step decodePayload) .new before = some s ∧
    Opens decodePayload s incoming info identity ∧
    exec (step decodePayload) s (.receive incoming :: after) = some s' ∧
    s'.readers[s.readers.length]? = some r ∧ r.alive = true ∧ r.readAll = result

/-- What is read of an encrypted stream with packets in plain text inserted is read without them,
if no trailer in plain text closes an encrypted stream without an error. -/
theorem reads_of_inserted (decodePayload : Bytes → Except String (Option EncryptedValue))
    {before before' after after' : List Action} {incoming incoming' : Incoming}
    {info : AnyStreamInfo} {identity : String} {output : Output}
    {result : Option (Except StreamError Output)} (hencrypted : info.encryptionType ≠ .none)
    (hinserted : Inserted Own.Plain (after.flatMap (own decodePayload info.id))
      (after'.flatMap (own decodePayload info.id)))
    (htrailers : EachStep (step decodePayload) (TrailersEncrypted decodePayload) .new
      (before' ++ .receive incoming' :: after'))
    (hreads : Reads decodePayload before incoming after info identity result)
    (hreads' : Reads decodePayload before' incoming' after' info identity (some (.ok output))) :
    result = some (.ok output) := by
  obtain ⟨s, s', r, hbefore, hopens, hexec, hr, halive, rfl⟩ := hreads
  obtain ⟨t, t', r', hbefore', hopens', hexec', hr', halive', hread⟩ := hreads'
  obtain ⟨m, hm, hrest⟩ := exec_cons_eq_some.mp hexec
  obtain ⟨m', hm', hrest'⟩ := exec_cons_eq_some.mp hexec'
  have hsees := (hopens.sees decodePayload (wf_of_exec decodePayload hbefore) hencrypted hm).run
    decodePayload hrest ⟨r, hr, halive⟩
  have hafter := ((htrailers.append hbefore').2 m' hm').2
  rcases (hopens'.sees decodePayload (wf_of_exec decodePayload hbefore') hencrypted hm').inserted
    decodePayload hrest' ⟨r', hr', halive'⟩ hafter hinserted with hsees' | hfailed
  · -- both readers are the reader of the stream alone
    have hsame := hsees.reader
    have hsame' := hsees'.reader
    rw [hr] at hsame
    rw [hr'] at hsame'
    rw [some.inj hsame, ← some.inj hsame']
    exact hread
  · obtain ⟨r'', err, hr'', -, herror⟩ := hfailed.reader
    obtain rfl := some.inj (hr'.symm.trans hr'')
    rw [herror] at hread
    cases hread

/-- Encrypted streams are protected in exactly the runs in which no trailer in plain text, or
encrypted otherwise, closes one without an error. In such a run packets in plain text do not make a
reader return what it would not return without them. -/
theorem protected_iff (decodePayload : Bytes → Except String (Option EncryptedValue)) :
    (∀ run : List Action,
      Always (step decodePayload) (record decodePayload) Protected .new run ↔
        EachStep (step decodePayload) (TrailersEncrypted decodePayload) .new run) ∧
    ∀ (before before' after after' : List Action) (incoming incoming' : Incoming)
      (info : AnyStreamInfo) (identity : String) (output : Output)
      (result : Option (Except StreamError Output)), info.encryptionType ≠ .none →
      Inserted Own.Plain (after.flatMap (own decodePayload info.id))
        (after'.flatMap (own decodePayload info.id)) →
      EachStep (step decodePayload) (TrailersEncrypted decodePayload) .new
        (before' ++ .receive incoming' :: after') →
      Reads decodePayload before incoming after info identity result →
      Reads decodePayload before' incoming' after' info identity (some (.ok output)) →
        result = some (.ok output) := by
  refine ⟨protected_iff_trailersEncrypted decodePayload, ?_⟩
  intro before before' after after' incoming incoming' info identity output result hencrypted
    hinserted htrailers hreads hreads'
  exact reads_of_inserted decodePayload hencrypted hinserted htrailers hreads hreads'

/-- A trailer in plain text ends an encrypted stream after its first chunk. -/
theorem truncated_by_plain_trailer :
    let header : Header := ⟨"a", "", "", none, ∅, some (.byteHeader ⟨""⟩)⟩
    let decodePayload : Bytes → Except String (Option EncryptedValue) := fun payload =>
      .ok (some (if payload = [0] then .streamHeader header else .streamChunk ⟨"a", 0, [7]⟩))
    let receive : RtcSession.Value → Action := fun value =>
      .receive ⟨some ⟨fun data _ _ _ => some data⟩, .reliable, ⟨"alice", [], 0, "", some value⟩⟩
    let run : List Action := [receive (.encryptedPacket ⟨.gcm, [], 0, [0]⟩),
      receive (.encryptedPacket ⟨.gcm, [], 0, [1]⟩), receive (.streamTrailer ⟨"a", ""⟩)]
    ((exec (step decodePayload) .new run).bind fun s => s.readers[0]?.map fun r =>
        (r.info.encryptionType, r.readAll)) = some (.gcm, some (.ok (.bytes [7]))) ∧
      ¬ Always (step decodePayload) (record decodePayload) Protected .new run := by
  intro header decodePayload receive run
  obtain ⟨s, hexec⟩ : ∃ s, exec (step decodePayload) .new run = some s := ⟨_, rfl⟩
  have hreader : (exec (step decodePayload) .new run).bind (fun s => s.readers[0]?.map fun r =>
      (r.alive, r.info.encryptionType, r.readAll)) =
        some (true, .gcm, some (.ok (.bytes [7]))) := rfl
  have hrecord : trace (step decodePayload) (record decodePayload) .new run =
      [⟨0, .gcm, some [7]⟩, ⟨0, .none, none⟩] := rfl
  refine ⟨rfl, fun halways => ?_⟩
  rw [hexec, bind_some] at hreader
  obtain ⟨r, hr, hboth⟩ := map_eq_some_iff.mp hreader
  obtain ⟨halive, hrest⟩ := Prod.mk.inj hboth
  obtain ⟨hencryption, hread⟩ := Prod.mk.inj hrest
  obtain ⟨-, has⟩ := halways run [] s (append_nil run).symm hexec 0 r hr halive
    (by rw [hencryption]; decide) (.bytes [7]) hread
  rw [hrecord, hencryption] at has
  exact absurd (has ⟨0, .none, none⟩ (mem_cons_of_mem _ (mem_singleton_self _)) rfl)
    (by decide)

end LiveKit.DataStream.Encryption
