import LiveKit.DataStream.IncomingTheorems

/-!
# How a stream ends for its reader

A reader knows that its stream is complete only because its channel is closed without an error. The
trailer of a complete stream does this, and so does the manager when it is dropped with the stream
still open. What was handled for each reader is kept on record here, to compare with what the
reader says.
-/

namespace LiveKit.DataStream

open State AList List Option TransitionSystem

/-- A packet that is handled for the open stream of the reader `key`. -/
inductive Record where
  | chunk (key : ReaderKey) (chunk : Chunk)
  | trailer (key : ReaderKey) (reason : String)
deriving DecidableEq

def Record.key : Record → ReaderKey
  | .chunk key _ => key
  | .trailer key _ => key

/-- The chunks on record for the reader. -/
def chunksOf (key : ReaderKey) (records : List Record) : List Chunk :=
  records.filterMap fun
    | .chunk key' chunk => if key' = key then some chunk else none
    | .trailer _ _ => none

/-- What the chunks on record carry. -/
def contentsOf (key : ReaderKey) (records : List Record) : List Bytes :=
  (chunksOf key records).map fun chunk => chunk.content

namespace State

/-- What a step puts on record. -/
def record (s : State) : Action → List Record
  | .receive (.chunk chunk _) =>
    match AList.lookup chunk.streamId s.openStreams with
    | some descriptor => [.chunk descriptor.chunkTx chunk]
    | none => []
  | .receive (.trailer trailer) =>
    match AList.lookup trailer.streamId s.openStreams with
    | some descriptor => [.trailer descriptor.chunkTx trailer.reason]
    | none => []
  | _ => []

end State

/-- A trailer without a reason and all chunks were handled for the reader: their data are `data`,
and as long as the header says. -/
structure ReceivedAll (records : List Record) (key : ReaderKey) (info : AnyStreamInfo)
    (data : Bytes) : Prop where
  trailer : .trailer key "" ∈ records
  index : (chunksOf key records).map (fun chunk => chunk.chunkIndex)
    = List.range (chunksOf key records).length
  data_eq : (contentsOf key records).flatten = data
  total : ∀ total, info.totalLength = some total → data.length = total

/-- A reader that has not been dropped returns `Ok` only with everything, and returns an error in
all other cases once it does not wait any more. -/
def Truthful (records : List Record) (s : State) : Prop :=
  ∀ (key : ReaderKey) (r : Reader), s.readers[key]? = some r → r.alive = true →
    match r.readAll with
    | none => r.isOpen = true
    | some (.ok output) => ReceivedAll records key r.info output.data
    | some (.error _) => True

/-- When the manager is dropped, the readers that wait for more have an error to report. -/
def State.CutsNone (s : State) (a : Action) : Prop :=
  a = .dropManager → ∀ id d, AList.lookup id s.openStreams = some d →
    ∀ r : Reader, s.readers[d.chunkTx]? = some r → r.alive = true → r.Undecodable

/-! ## The records of a reader -/

theorem chunksOf_append (key : ReaderKey) (records records' : List Record) :
    chunksOf key (records ++ records') = chunksOf key records ++ chunksOf key records' :=
  filterMap_append

theorem chunksOf_chunk (key : ReaderKey) (chunk : Chunk) :
    chunksOf key [.chunk key chunk] = [chunk] := by
  simp [chunksOf]

variable {key : ReaderKey} {records : List Record}

/-- What is on record for other readers. -/
theorem chunksOf_eq_nil (h : ∀ record ∈ records, record.key ≠ key) : chunksOf key records = [] := by
  unfold chunksOf
  rw [filterMap_eq_nil_iff]
  intro record hmem
  have hkey := h record hmem
  cases record with
  | chunk key' chunk => exact if_neg hkey
  | trailer => rfl

variable {records' : List Record}

theorem chunksOf_append_of_other (records : List Record)
    (h : ∀ record ∈ records', record.key ≠ key) :
    chunksOf key (records ++ records') = chunksOf key records := by
  rw [chunksOf_append, chunksOf_eq_nil h, append_nil]

theorem ReceivedAll.append {info : AnyStreamInfo} {data : Bytes}
    (h : ReceivedAll records key info data) (hother : ∀ record ∈ records', record.key ≠ key) :
    ReceivedAll (records ++ records') key info data where
  trailer := mem_append_left _ h.trailer
  index := by
    rw [chunksOf_append_of_other records hother]
    exact h.index
  data_eq := by
    unfold contentsOf
    rw [chunksOf_append_of_other records hother]
    exact h.data_eq
  total := h.total

/-- The open stream of a reader has got the chunks on record, and its trailer has not come. -/
structure Receiving (records : List Record) (s : State) (key : ReaderKey) (r : Reader) : Prop where
  isOpen : r.isOpen = true
  descriptor : ∀ d, AList.lookup r.info.id s.openStreams = some d →
    d.progress = ⟨(chunksOf key records).length, (contentsOf key records).flatten.length,
      r.info.totalLength⟩
  index : (chunksOf key records).map (fun chunk => chunk.chunkIndex)
    = List.range (chunksOf key records).length
  items : r.items = (contentsOf key records).map .ok
  fits : ∀ total, r.info.totalLength = some total → (contentsOf key records).flatten.length ≤ total
  noTrailer : .trailer key "" ∉ records

/-- What is true of a reader that has not been dropped. -/
inductive ReaderInv (records : List Record) (s : State) (key : ReaderKey) (r : Reader) : Prop
  | receiving (h : Receiving records s key r)
  | failed (hclosed : r.isOpen = false) (err : StreamError)
    (herror : r.readAll = some (.error err))
  | complete (hclosed : r.isOpen = false) (hitems : r.items = (contentsOf key records).map .ok)
    (hall : ReceivedAll records key r.info (contentsOf key records).flatten)

/-- What happens to other streams does not matter. -/
theorem ReaderInv.other {s s' : State} {r : Reader} (h : ReaderInv records s key r)
    (hother : ∀ record ∈ records', record.key ≠ key) (hlookup : r.isOpen = true →
      lookup r.info.id s'.openStreams = lookup r.info.id s.openStreams) :
    ReaderInv (records ++ records') s' key r := by
  have hchunks := chunksOf_append_of_other records hother
  have hcontents : contentsOf key (records ++ records') = contentsOf key records := by
    unfold contentsOf
    rw [hchunks]
  cases h with
  | receiving h =>
    refine .receiving ⟨h.isOpen, ?_, ?_, ?_, ?_, ?_⟩
    · rw [hlookup h.isOpen, hchunks, hcontents]
      exact h.descriptor
    · rw [hchunks]
      exact h.index
    · rw [hcontents]
      exact h.items
    · rw [hcontents]
      exact h.fits
    · rw [mem_append, not_or]
      exact ⟨h.noTrailer, fun hmem => hother _ hmem rfl⟩
  | failed hclosed err herror => exact .failed hclosed err herror
  | complete hclosed hitems hall =>
    refine .complete hclosed ?_ ?_
    · rw [hcontents]
      exact hitems
    · rw [hcontents]
      exact hall.append hother

/-! ## The invariant -/

structure Inv (records : List Record) (s : State) : Prop where
  wf : State.Wf s
  /-- Nothing is on record for a reader that has not been dispatched. -/
  known : ∀ record ∈ records, record.key < s.readers.length
  reader : ∀ (key : ReaderKey) (r : Reader), s.readers[key]? = some r → r.alive = true →
    ReaderInv records s key r

theorem Inv.new : Inv [] new where
  wf := State.Wf.new
  known := by simp
  reader _ _ hr := by cases hr

theorem Inv.truthful {s : State} (h : Inv records s) : Truthful records s := by
  intro key r hr halive
  rcases h.reader key r hr halive with hreceiving | ⟨hclosed, err, herror⟩ | ⟨hclosed, hitems, hall⟩
  · cases hread : r.readAll with
    | none => exact hreceiving.isOpen
    | some result =>
      cases result with
      | error err => trivial
      | ok output => exact absurd hread (Reader.readAll_open hreceiving.isOpen output)
  · rw [herror]
    trivial
  · rcases Reader.readAll_closed hitems hclosed with
      ⟨-, err, hread⟩ | ⟨-, output, hread, hdata⟩
    · rw [hread]
      trivial
    · rw [hread]
      show ReceivedAll records key r.info output.data
      rw [hdata]
      exact hall

namespace State

/-- The records of a packet for an open stream are about the reader of that stream. -/
theorem record_key {s : State} {packet : Packet} {record : Record}
    (h : record ∈ s.record (.receive packet)) :
    ∃ d, lookup packet.streamId s.openStreams = some d ∧ record.key = d.chunkTx := by
  unfold State.record at h
  cases packet with
  | header header identity encryptionType => cases h
  | chunk | trailer =>
    simp only at h
    split at h
    · next d hd =>
      rw [mem_singleton] at h
      exact ⟨d, hd, by rw [h]; rfl⟩
    · cases h

end State

section Packets

variable {records : List Record} {s s' : State} {packet : Packet}

section

variable (h : Inv records s)

include h

/-- A packet does nothing to the readers of other streams. -/
theorem Inv.other (hs' : State.Handled s packet s') {key : ReaderKey} {r : Reader}
    (hr : s.readers[key]? = some r) (halive : r.alive = true)
    (hother : ∀ d, lookup packet.streamId s.openStreams = some d → d.chunkTx ≠ key) :
    ReaderInv (records ++ s.record (.receive packet)) s' key r := by
  refine (h.reader key r hr halive).other ?_ ?_
  · intro record hmem
    obtain ⟨d, hd, hkey⟩ := record_key hmem
    rw [hkey]
    exact hother d hd
  · intro hopen
    obtain ⟨d, hd, hkey⟩ := h.wf.stream key r hr hopen
    refine (hs'.other h.wf ?_).1
    intro hid
    exact hother d (hid ▸ hd) hkey

variable {d : Descriptor}

/-- The reader of the stream that the packet names. -/
theorem Inv.receiving {id : String} (hd : lookup id s.openStreams = some d) :
    ∃ r, s.readers[d.chunkTx]? = some r ∧ r.info.id = id ∧
      (r.alive = true → Receiving records s d.chunkTx r) := by
  obtain ⟨r, hr, hid, hopen⟩ := h.wf.reader id d hd
  refine ⟨r, hr, hid, ?_⟩
  intro halive
  rcases h.reader d.chunkTx r hr halive with hreceiving | ⟨hclosed, -⟩ | ⟨hclosed, -⟩
  · exact hreceiving
  · rw [hopen] at hclosed
    cases hclosed
  · rw [hopen] at hclosed
    cases hclosed

theorem Inv.known_append (hs' : State.Handled s packet s') :
    ∀ record ∈ records ++ s.record (.receive packet), record.key < s'.readers.length := by
  have hkeeps : ∀ key, key < s.readers.length → key < s'.readers.length := by
    intro key hlt
    obtain ⟨r', hr', -⟩ := hs'.keeps (getElem?_eq_getElem hlt)
    exact (List.getElem?_eq_some_iff.mp hr').1
  intro record hmem
  apply hkeeps
  rcases mem_append.mp hmem with hmem | hmem
  · exact h.known record hmem
  · obtain ⟨d, hd, hkey⟩ := record_key hmem
    obtain ⟨r, hr, -⟩ := h.wf.reader _ d hd
    rw [hkey]
    exact (List.getElem?_eq_some_iff.mp hr).1

/-- A stream that was open is ended: it is enough to say what becomes of its reader. -/
theorem Inv.ended {f : Reader → Reader} (hs' : State.Handled s packet (s.ended packet.streamId d f))
    (hd : lookup packet.streamId s.openStreams = some d) (hclosed : ∀ r, (f r).isOpen = false)
    (halive : ∀ r, (f r).alive = r.alive)
    (hreader : ∀ r, r.alive = true → r.info.id = packet.streamId →
      Receiving records s d.chunkTx r →
        ReaderInv (records ++ s.record (.receive packet)) (s.ended packet.streamId d f) d.chunkTx
        (f r)) :
    Inv (records ++ s.record (.receive packet)) (s.ended packet.streamId d f) where
  wf := h.wf.ended hd hclosed
  known := h.known_append hs'
  reader key r' hr' halive' := by
    rw [ended_getElem?] at hr'
    split at hr'
    · next hkey =>
      obtain ⟨r, hr, rfl⟩ := map_eq_some_iff.mp hr'
      obtain ⟨r₀, hr₀, hid, hreceiving⟩ := h.receiving hd
      subst hkey
      cases hr.symm.trans hr₀
      rw [halive] at halive'
      exact hreader r halive' hid (hreceiving halive')
    · next hkey =>
      refine h.other hs' hr' halive' ?_
      intro d' hd'
      rw [hd, some.injEq] at hd'
      exact hd' ▸ hkey

theorem Inv.failed (err : StreamError) (hd : lookup packet.streamId s.openStreams = some d) :
    Inv (records ++ s.record (.receive packet))
      (s.ended packet.streamId d fun r => (r.send (.error err)).hangUp) := by
  refine h.ended (.failed err hd) hd (fun _ => rfl) (fun r => r.send_alive _) ?_
  intro r halive _ hreceiving
  obtain ⟨err', herror⟩ := Reader.readAll_failed hreceiving.items halive err
  exact .failed rfl err' herror

variable {encryptionType : EncryptionType}

theorem Inv.abandoned {chunk : Chunk} (hd : lookup chunk.streamId s.openStreams = some d)
    (hgone : s.hasReader d.chunkTx = false) :
    Inv (records ++ s.record (.receive (.chunk chunk encryptionType)))
      (s.ended chunk.streamId d Reader.hangUp) := by
  have hs' : State.Handled s (.chunk chunk encryptionType)
      (s.ended chunk.streamId d Reader.hangUp) := .abandoned hd hgone
  constructor
  · exact h.wf.ended hd fun _ => rfl
  · exact h.known_append hs'
  · intro key r' hr' halive'
    rw [ended_getElem?] at hr'
    split at hr'
    · next hkey =>
      -- this reader has been dropped
      obtain ⟨r, hr, rfl⟩ := map_eq_some_iff.mp hr'
      rw [hkey, hasReader_eq hr] at hgone
      exact absurd (halive'.symm.trans hgone) (by decide)
    · next hkey =>
      refine h.other hs' hr' halive' ?_
      intro d' hd'
      rw [show AList.lookup _ _ = some d from hd, some.injEq] at hd'
      exact hd' ▸ hkey

theorem Inv.finished {trailer : Trailer} (hd : lookup trailer.streamId s.openStreams = some d)
    (hcomplete : d.Complete) (hreason : trailer.reason = "") :
    Inv (records ++ s.record (.receive (.trailer trailer)))
      (s.ended trailer.streamId d Reader.hangUp) := by
  have hhandled : State.Handled s (.trailer trailer)
      (s.ended trailer.streamId d Reader.hangUp) := .finished hd hcomplete hreason
  refine h.ended hhandled hd (fun _ => rfl) (fun _ => rfl) ?_
  intro r _ hid hreceiving
  have hrecord : s.record (.receive (.trailer trailer)) = [.trailer d.chunkTx ""] := by
    unfold record
    simp only [hd, hreason]
  have hchunks : chunksOf d.chunkTx (records ++ [.trailer d.chunkTx ""])
      = chunksOf d.chunkTx records := by
    rw [chunksOf_append]
    exact append_nil _
  have hprogress := hreceiving.descriptor d (hid ▸ hd)
  rw [hrecord]
  refine .complete rfl ?_ ⟨mem_append_right _ mem_cons_self, ?_, rfl, ?_⟩
  · unfold contentsOf
    rw [hchunks]
    exact hreceiving.items
  · rw [hchunks]
    exact hreceiving.index
  · intro total htotal
    unfold contentsOf
    rw [hchunks]
    have hge := hcomplete total (by rw [hprogress]; exact htotal)
    rw [hprogress] at hge
    exact Nat.le_antisymm (hreceiving.fits total htotal) hge

theorem Inv.advanced {chunk : Chunk} (hd : lookup chunk.streamId s.openStreams = some d)
    (hindex : d.progress.chunkIndex = chunk.chunkIndex) (hfits : d.Fits chunk.content) :
    Inv (records ++ s.record (.receive (.chunk chunk encryptionType)))
      (s.advanced chunk.streamId d chunk.content) := by
  have hs' : State.Handled s (.chunk chunk encryptionType)
      (s.advanced chunk.streamId d chunk.content) := .advanced hd hindex hfits
  have hrecord : s.record (.receive (.chunk chunk encryptionType)) = [.chunk d.chunkTx chunk] := by
    unfold record
    simp only [hd]
  refine ⟨h.wf.advanced hd _, h.known_append hs', ?_⟩
  intro key r' hr' halive'
  rw [advanced_getElem?] at hr'
  split at hr'
  · next hkey =>
    subst hkey
    obtain ⟨r, hr, rfl⟩ := map_eq_some_iff.mp hr'
    obtain ⟨r₀, hr₀, hid, hreceiving⟩ := h.receiving hd
    cases hr.symm.trans hr₀
    rw [Reader.send_alive] at halive'
    obtain ⟨hopen, hdescriptor, hrange, hitems, hle, hno⟩ := hreceiving halive'
    have hprogress := hdescriptor d (hid ▸ hd)
    have hchunks : chunksOf d.chunkTx (records ++ [.chunk d.chunkTx chunk])
        = chunksOf d.chunkTx records ++ [chunk] := by
      rw [chunksOf_append, chunksOf_chunk]
    have hcontents : contentsOf d.chunkTx (records ++ [.chunk d.chunkTx chunk])
        = contentsOf d.chunkTx records ++ [chunk.content] := by
      unfold contentsOf
      rw [hchunks, map_append]
      rfl
    rw [hrecord, Reader.send_of_alive halive']
    refine .receiving ⟨hopen, ?_, ?_, ?_, ?_, ?_⟩
    · intro d' hd'
      rw [advanced_lookup, if_pos hid, some.injEq] at hd'
      rw [← hd', hchunks, hcontents]
      unfold Descriptor.advance
      rw [hprogress]
      simp only [length_append, length_singleton, flatten_append,
        flatten_singleton]
    · rw [hchunks, map_append, hrange, length_append, length_singleton,
        range_succ, map_singleton, ← hindex, hprogress]
    · rw [hcontents, map_append, ← hitems]
      rfl
    · intro total htotal
      rw [hcontents, flatten_append, length_append, flatten_singleton]
      have hroom := hfits total (by rw [hprogress]; exact htotal)
      rw [hprogress] at hroom
      exact hroom
    · rw [mem_append, not_or]
      exact ⟨hno, by simp⟩
  · next hkey =>
    refine h.other hs' hr' halive' ?_
    intro d' hd'
    rw [show AList.lookup _ _ = some d from hd, some.injEq] at hd'
    exact hd' ▸ hkey

theorem Inv.opened {header : Header} {identity : String} {info : AnyStreamInfo}
    (hinfo : AnyStreamInfo.tryFromWithEncryption header encryptionType = .ok info)
    (hnew : lookup info.id s.openStreams = none) :
    Inv (records ++ s.record (.receive (.header header identity encryptionType)))
      (s.opened info identity) := by
  have hs' : State.Handled s (.header header identity encryptionType) (s.opened info identity) :=
    .opened hinfo hnew
  refine ⟨h.wf.opened identity hnew, h.known_append hs', ?_⟩
  intro key r hr halive
  rw [opened_getElem?] at hr
  split at hr
  · next hkey =>
    have hchunks : chunksOf key records = [] := by
      apply chunksOf_eq_nil
      intro record hmem
      rw [hkey]
      exact Nat.ne_of_lt (h.known record hmem)
    rw [← some.inj hr, show s.record _ = [] from rfl, append_nil]
    refine .receiving ⟨rfl, ?_, ?_, ?_, ?_, ?_⟩
    · intro d hd
      rw [opened_lookup, if_pos rfl, some.injEq] at hd
      unfold contentsOf
      rw [← hd, hchunks]
      rfl
    · rw [hchunks]
      rfl
    · unfold contentsOf
      rw [hchunks]
      rfl
    · intro total _
      unfold contentsOf
      rw [hchunks]
      exact Nat.zero_le total
    · intro hmem
      exact absurd (h.known _ hmem) (hkey ▸ Nat.lt_irrefl _)
  · refine h.other hs' hr halive ?_
    intro d hd
    rw [(AnyStreamInfo.tryFromWithEncryption_spec hinfo).1] at hnew
    exact absurd (hnew.symm.trans hd) (by simp)

theorem Inv.handled (hs' : State.Handled s packet s') :
    Inv (records ++ s.record (.receive packet)) s' := by
  cases hs' with
  | ignored hignored =>
    have hnil : s.record (.receive packet) = [] := by
      rcases hignored with hnone | ⟨header, identity, encryptionType, rfl⟩
      · rw [eq_nil_iff_forall_not_mem]
        intro record hmem
        obtain ⟨d, hd, -⟩ := record_key hmem
        rw [hnone] at hd
        cases hd
      · rfl
    rw [hnil, append_nil]
    exact h
  | opened hinfo hnew => exact h.opened hinfo hnew
  | failed err hd => exact h.failed err hd
  | abandoned hd hgone => exact h.abandoned hd hgone
  | advanced hd hindex hfits => exact h.advanced hd hindex hfits
  | finished hd hcomplete hreason => exact h.finished hd hcomplete hreason

end

end Packets

/-! ## Runs -/

section Steps

variable {records : List Record} {s : State}

theorem Inv.dropReader (h : Inv records s) (dropped : ReaderKey) :
    Inv records (s.modifyReader dropped fun r => { r with alive := false }) where
  wf := h.wf.dropReader dropped
  known record hmem := by
    unfold modifyReader
    rw [length_modify]
    exact h.known record hmem
  reader key r hr halive := by
    rw [modifyReader_getElem?] at hr
    split at hr
    · obtain ⟨r', -, rfl⟩ := map_eq_some_iff.mp hr
      cases halive
    · have hinv : ReaderInv (records ++ [])
          (s.modifyReader dropped fun r => { r with alive := false }) key r :=
        (h.reader key r hr halive).other (by simp) fun _ => rfl
      rw [append_nil] at hinv
      exact hinv

/-- The manager is dropped, and the readers that still wait have an error to report. -/
theorem Inv.dropManager (h : Inv records s) (hcuts : s.CutsNone .dropManager) :
    Inv records s.dropManager where
  wf := State.Wf.dropManager s
  known record hmem := by
    unfold State.dropManager
    rw [length_map]
    exact h.known record hmem
  reader key r' hr' halive := by
    rw [dropManager_getElem?] at hr'
    obtain ⟨r, hr, rfl⟩ := map_eq_some_iff.mp hr'
    rcases h.reader key r hr halive with hreceiving | ⟨hclosed, err, herror⟩ |
      ⟨hclosed, hitems, hall⟩
    · obtain ⟨d, hd, hkey⟩ := h.wf.stream key r hr hreceiving.isOpen
      subst hkey
      have hundecodable : r.hangUp.Undecodable := hcuts rfl _ d hd r hr halive
      rcases Reader.readAll_closed (r := r.hangUp) hreceiving.items rfl with
        ⟨-, err, herror⟩ | ⟨hnot, -⟩
      · exact .failed rfl err herror
      · exact absurd hundecodable hnot
    · rw [Reader.hangUp_of_closed hclosed]
      exact .failed hclosed err herror
    · exact .complete rfl hitems hall

/-- A reader that waits for more, and has no error to report, takes it for the end. -/
theorem Inv.not_truthful (h : Inv records s) (hcuts : ¬ s.CutsNone .dropManager) :
    ¬ Truthful records s.dropManager := by
  intro htruthful
  unfold State.CutsNone at hcuts
  push Not at hcuts
  obtain ⟨-, id, d, hd, r, hr, halive, hnot⟩ := hcuts
  obtain ⟨r₀, hr₀, -, hreceiving⟩ := h.receiving hd
  cases hr.symm.trans hr₀
  obtain ⟨-, -, -, hitems, -, hno⟩ := hreceiving halive
  have hafter := htruthful d.chunkTx r.hangUp (by rw [dropManager_getElem?, hr]; rfl) halive
  rcases Reader.readAll_closed (r := r.hangUp) hitems rfl with
    ⟨hundecodable, -⟩ | ⟨-, output, hread, -⟩
  · exact hnot hundecodable
  · rw [hread] at hafter
    exact hno hafter.trailer

end Steps

/-- Readers tell the truth in all states of a run exactly when every time the manager is dropped
those that wait for more have an error to report. -/
theorem truthful_iff (run : List Action) :
    Always State.step State.record Truthful .new run ↔
      EachStep State.step (fun s a _ => s.CutsNone a) .new run := by
  refine always_iff_eachStep (I := Inv) (fun _ _ h => h.truthful) ?_ Inv.new run
  intro records s a s' h hstep
  rcases step_cases hstep with ⟨packet, rfl, rfl⟩ | ⟨rfl, rfl⟩ | ⟨dropped, rfl, rfl⟩
  · refine .inl ⟨?_, h.handled (s.handle_cases packet)⟩
    intro ha
    cases ha
  · rw [show s.record .dropManager = [] from rfl, append_nil]
    by_cases hcuts : s.CutsNone .dropManager
    · exact .inl ⟨hcuts, h.dropManager hcuts⟩
    · exact .inr ⟨hcuts, h.not_truthful hcuts⟩
  · rw [show s.record (.dropReader dropped) = [] from rfl, append_nil]
    refine .inl ⟨?_, h.dropReader dropped⟩
    intro ha
    cases ha

/-- Half of a stream of two bytes has come when the room is closed. -/
theorem truncated_read_all :
    ¬ ∀ run : List Action, Always State.step State.record Truthful .new run := by
  intro halways
  let header : Header := ⟨"a", "", "", some 2, ∅, some (.byteHeader ⟨""⟩)⟩
  let run : List Action :=
    [.receive (.header header "alice" .none), .receive (.chunk ⟨"a", 0, [1]⟩ .none), .dropManager]
  obtain ⟨s, hexec⟩ : ∃ s, exec step .new run = some s := ⟨_, rfl⟩
  have hreader : (exec step .new run).bind (fun s => s.readers[0]?.map fun r =>
      (r.alive, r.readAll)) = some (true, some (.ok (.bytes [1]))) := rfl
  rw [hexec, bind_some] at hreader
  obtain ⟨r, hr, hread⟩ := map_eq_some_iff.mp hreader
  rw [Prod.mk.injEq] at hread
  have htruthful := halways run run [] s (append_nil run).symm hexec 0 r hr hread.1
  rw [hread.2] at htruthful
  have hmem := htruthful.trailer
  revert hmem
  decide

end LiveKit.DataStream
