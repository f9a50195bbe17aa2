import LiveKit.DataStream.Directed
import LiveKit.Lib.Components

/-!
# Who gets the packets of a data stream

The header of a stream names the destinations, its chunks and its trailer name nobody.
-/

namespace LiveKit.DataStream.Directed

open LiveKit.RtcSession (EncryptedValue)
open OutStream Components Directed.State List Option TransitionSystem

/-! ## The packets of a stream -/

/-- A packet of a stream with these destinations. -/
def Made (destinationIdentities : List String) (packet : DataPacket) : Prop :=
  packet.destinationIdentities =
    if Value.isHeader packet.value = true then destinationIdentities else []

namespace OutStream

variable {o o' : OutStream} {a : WriterAction} {requests : List Request}

/-- What a writer does: all of it but the writing of what was given to it waits for the lock. -/
theorem act_cases (h : o.act a = some (o', requests)) :
    (∃ input, a = .write input ∧ o.phase = .idle ∧ requests = [] ∧
      o' = { o with phase := proceed input.chunks, input := o.input ++ input.chunks }) ∨
    (∃ bytes rest, a = .send ∧ o.phase = .writing bytes rest ∧
      requests = [⟨RawStream.createChunkPacket o.id o.progress.chunkIndex bytes, true⟩] ∧
      o' = { o with phase := .sending bytes rest }) ∨
    (∃ reason, a = .close reason ∧ o.phase = .idle ∧ o.isClosed = true ∧ requests = [] ∧
      o' = o) ∨
    (∃ reason, a = .close reason ∧ o.phase = .idle ∧ o.isClosed = false ∧
      requests = [⟨RawStream.createTrailerPacket o.id reason, true⟩] ∧
      o' = { o with phase := .closing reason }) ∨
    (a = .drop true ∧ o.phase = .idle ∧ o.isClosed = false ∧ requests = [] ∧
      o' = { o with phase := .dropped }) ∨
    (∃ runtime, a = .drop runtime ∧ o.phase = .idle ∧ (runtime = false ∨ o.isClosed = true) ∧
      requests = [] ∧ o' = { o with phase := .gone }) ∨
    (a = .spawned ∧ o.phase = .dropped ∧
      requests = [⟨RawStream.createTrailerPacket o.id none, false⟩] ∧
      o' = { o with phase := .gone }) := by
  unfold act at h
  cases a with
  | write input =>
    left
    cases hphase : o.phase with
    | idle =>
      simp only [hphase] at h
      cases h
      exact ⟨input, rfl, rfl, rfl, rfl⟩
    | _ => simp [hphase] at h
  | send =>
    right; left
    cases hphase : o.phase with
    | writing bytes rest =>
      simp only [hphase] at h
      cases h
      exact ⟨bytes, rest, rfl, rfl, rfl, rfl⟩
    | _ => simp [hphase] at h
  | close reason =>
    right; right
    cases hphase : o.phase with
    | idle =>
      simp only [hphase] at h
      by_cases hclosed : o.isClosed = true
      · rw [if_pos hclosed] at h
        cases h
        exact .inl ⟨reason, rfl, rfl, hclosed, rfl, rfl⟩
      · rw [if_neg hclosed] at h
        cases h
        exact .inr (.inl ⟨reason, rfl, rfl, Bool.eq_false_iff.mpr hclosed, rfl, rfl⟩)
    | _ => simp [hphase] at h
  | drop runtime =>
    right; right; right; right
    cases hphase : o.phase with
    | idle =>
      simp only [hphase] at h
      by_cases hclosed : o.isClosed = true
      · rw [if_pos hclosed] at h
        cases h
        exact .inr (.inl ⟨runtime, rfl, rfl, .inr hclosed, rfl, rfl⟩)
      · rw [if_neg hclosed] at h
        cases runtime with
        | true =>
          cases h
          exact .inl ⟨rfl, rfl, Bool.eq_false_iff.mpr hclosed, rfl, rfl⟩
        | false =>
          cases h
          exact .inr (.inl ⟨false, rfl, rfl, .inl rfl, rfl, rfl⟩)
    | _ => simp [hphase] at h
  | spawned =>
    right; right; right; right; right; right
    cases hphase : o.phase with
    | dropped =>
      simp only [hphase] at h
      cases h
      exact ⟨rfl, rfl, rfl, rfl⟩
    | _ => simp [hphase] at h

/-- A writer changes neither the header nor the destinations, and it requests chunks and
trailers. -/
theorem act_frame (h : o.act a = some (o', requests)) :
    o'.destinationIdentities = o.destinationIdentities ∧ o'.cut = o.cut ∧
      ∀ request ∈ requests, Made o.destinationIdentities request.packet := by
  rcases act_cases h with ⟨_, -, -, rfl, rfl⟩ | ⟨_, _, -, -, rfl, rfl⟩ | ⟨_, -, -, -, rfl, rfl⟩ |
    ⟨_, -, -, -, rfl, rfl⟩ | ⟨-, -, -, rfl, rfl⟩ | ⟨_, -, -, -, rfl, rfl⟩ | ⟨-, -, rfl, rfl⟩
  all_goals
    refine ⟨rfl, rfl, ?_⟩
    intro request hmem
    first
      | exact absurd hmem not_mem_nil
      | exact mem_singleton.mp hmem ▸ rfl

theorem answer_frame (o : OutStream) (result : Except StreamError Unit) :
    (o.answer result).destinationIdentities = o.destinationIdentities ∧
      (o.answer result).cut = o.cut := by
  unfold answer
  split <;> exact ⟨rfl, rfl⟩

/-- A call that is given up leaves its mark. -/
theorem abandon_frame (h : o.abandon = some o') :
    o'.destinationIdentities = o.destinationIdentities ∧ o'.cut = true := by
  unfold abandon at h
  split at h <;> cases h <;> exact ⟨rfl, rfl⟩

/-! ## What was requested of a stream -/

/-- The chunks that were given to a writer and are not yet requested. -/
def unsent (o : OutStream) : List Bytes :=
  match o.phase with
  | .writing bytes rest => bytes :: rest
  | .sending _ rest => rest
  | _ => []

/-- The number of chunks that were requested. -/
def requested (o : OutStream) : ℕ :=
  match o.phase with
  | .sending _ _ => o.progress.chunkIndex + 1
  | _ => o.progress.chunkIndex

/-- The request whose result is waited for. -/
def underWay (o : OutStream) : List Request :=
  match o.phase with
  | .opening => [⟨RawStream.createHeaderPacket o.header o.destinationIdentities, true⟩]
  | .sending bytes _ => [⟨RawStream.createChunkPacket o.id o.progress.chunkIndex bytes, true⟩]
  | .closing reason => [⟨RawStream.createTrailerPacket o.id reason, true⟩]
  | _ => []

/-- What is the case where a write goes on with these chunks. -/
theorem of_proceed (o : OutStream) {chunks : List Bytes} (h : o.phase = proceed chunks) :
    o.unsent = chunks ∧ o.requested = o.progress.chunkIndex ∧ o.underWay = [] ∧
      o.phase ≠ .gone ∧ ∀ reason, o.phase ≠ .closing reason := by
  unfold unsent requested underWay
  rw [h]
  cases chunks with
  | nil | cons => exact ⟨rfl, rfl, rfl, nofun, nofun⟩

/-- The trailer was requested. -/
def SaidTrailer (o : OutStream) : Prop :=
  o.isClosed = true ∨ (∃ reason, o.phase = .closing reason) ∨ o.phase = .gone

end OutStream

/-- There is a trailer of the stream among the values. -/
def HasTrailer (id : String) (values : List Value) : Prop :=
  ∃ reason, .streamTrailer ⟨id, reason⟩ ∈ values

namespace OutStream

variable {o : OutStream}

theorem saidTrailer_iff_isClosed (hclosing : ∀ reason, o.phase ≠ .closing reason)
    (hgone : o.phase ≠ .gone) : o.SaidTrailer ↔ o.isClosed = true := by
  unfold SaidTrailer
  rw [iff_false_intro hgone, or_false, or_iff_left]
  rintro ⟨reason, hreason⟩
  exact hclosing reason hreason

end OutStream

/-- What was requested of a stream, in order, none of whose requests failed. -/
structure Said (o : OutStream) (values : List Value) : Prop where
  header : values.head? = some (.streamHeader o.header)
  chunks : ∃ contents, contents ++ o.unsent = o.input ∧ chunksOf values = numbered o.id contents ∧
    (o.phase ≠ .gone → contents.length = o.requested)
  trailer : HasTrailer o.id values ↔ o.SaidTrailer

/-- A stream none of whose requests failed, what is pending of it and what was delivered of it. -/
structure Kept (o : OutStream) (pending : List Request) (values : List Value) : Prop where
  awaited : o.phase ≠ .gone → pending = o.underWay
  orphaned : o.phase = .gone → ∀ request ∈ pending, request.awaited = false
  said : Said o (values ++ pending.map (·.packet.value))

theorem chunksOf_append (values values' : List Value) :
    chunksOf (values ++ values') = chunksOf values ++ chunksOf values' :=
  filterMap_append

theorem numbered_concat (id : String) (contents : List Bytes) (bytes : Bytes) :
    numbered id (contents ++ [bytes]) = numbered id contents ++ [⟨id, contents.length, bytes⟩] := by
  unfold numbered
  rw [zipIdx_append, map_append, Nat.zero_add]
  rfl

variable {values : List Value}

theorem hasTrailer_append {id : String} {values' : List Value} :
    HasTrailer id (values ++ values') ↔ HasTrailer id values ∨ HasTrailer id values' := by
  unfold HasTrailer
  simp only [mem_append, exists_or]

variable {o o' : OutStream}

/-- A stream of which nothing is requested anew. -/
theorem Said.of_eq (h : Said o values) (hheader : o'.header = o.header)
    (hinput : ∀ contents, contents ++ o.unsent = o.input → contents ++ o'.unsent = o'.input)
    (hrequested : o'.phase ≠ .gone → o.phase ≠ .gone ∧ o'.requested = o.requested)
    (htrailer : o'.SaidTrailer ↔ o.SaidTrailer) : Said o' values := by
  have hid : o'.id = o.id := congrArg Header.streamId hheader
  obtain ⟨contents, hcontents, hchunks, hlength⟩ := h.chunks
  refine ⟨?_, ⟨contents, hinput contents hcontents, ?_, ?_⟩, ?_⟩
  · rw [hheader]
    exact h.header
  · rw [hid]
    exact hchunks
  · intro hphase
    rw [(hrequested hphase).2]
    exact hlength (hrequested hphase).1
  · rw [hid, htrailer]
    exact h.trailer

/-- A stream that goes on with the same chunks left to send. -/
theorem Said.of_unsent (h : Said o values) (hheader : o'.header = o.header)
    (hinput : o'.input = o.input) (hunsent : o'.unsent = o.unsent)
    (hrequested : o'.phase ≠ .gone → o.phase ≠ .gone ∧ o'.requested = o.requested)
    (htrailer : o'.SaidTrailer ↔ o.SaidTrailer) : Said o' values := by
  refine h.of_eq hheader ?_ hrequested htrailer
  intro contents hcontents
  rw [hunsent, hinput]
  exact hcontents

/-- A stream of which the trailer is requested. -/
theorem Said.concat_trailer (h : Said o values) (reason : Option String)
    (hheader : o'.header = o.header) (hinput : o'.input = o.input) (hunsent : o'.unsent = o.unsent)
    (hrequested : o'.phase ≠ .gone → o.phase ≠ .gone ∧ o'.requested = o.requested)
    (htrailer : o'.SaidTrailer) :
    Said o' (values ++ [(RawStream.createTrailerPacket o.id reason).value]) := by
  have hid : o'.id = o.id := congrArg Header.streamId hheader
  obtain ⟨contents, hcontents, hchunks, hlength⟩ := h.chunks
  refine ⟨?_, ⟨contents, ?_, ?_, ?_⟩, ?_⟩
  · rw [hheader, head?_append, h.header]
    rfl
  · rw [hunsent, hinput]
    exact hcontents
  · rw [chunksOf_append, hchunks, hid]
    exact append_nil _
  · intro hphase
    rw [(hrequested hphase).2]
    exact hlength (hrequested hphase).1
  · refine iff_of_true ?_ htrailer
    rw [hasTrailer_append, hid]
    exact .inr ⟨reason.getD "", mem_singleton_self _⟩

/-- What a writer does to a stream, if the last writer of a stream that is not closed is dropped
where there is a runtime. -/
theorem Kept.act {a : WriterAction} {pending requests : List Request} (h : Kept o pending values)
    (hact : o.act a = some (o', requests)) (hdrop : a = .drop false → o.isClosed = true) :
    Kept o' (pending ++ requests) values := by
  -- a writer acts only while no request of the stream is under way
  have hnone : o.phase ≠ .gone → o.underWay = [] → pending = [] := by
    intro hphase hunderWay
    rw [h.awaited hphase, hunderWay]
  have hsaid := h.said
  rcases act_cases hact with ⟨input, rfl, hphase, rfl, rfl⟩ |
    ⟨bytes, rest, rfl, hphase, rfl, rfl⟩ | ⟨reason, rfl, hphase, hclosed, rfl, rfl⟩ |
    ⟨reason, rfl, hphase, hclosed, rfl, rfl⟩ | ⟨rfl, hphase, hclosed, rfl, rfl⟩ |
    ⟨runtime, rfl, hphase, hclosed, rfl, rfl⟩ | ⟨rfl, hphase, rfl, rfl⟩
  all_goals
    have hpending := hnone (by rw [hphase]; nofun) (by rw [underWay, hphase])
    subst hpending
    rw [nil_append]
    rw [map_nil, append_nil] at hsaid
  · -- `write`
    set o' : OutStream :=
      { o with phase := proceed input.chunks, input := o.input ++ input.chunks } with ho'
    obtain ⟨hunsent, hrequested, hunderWay, hgone, hclosing⟩ :=
      of_proceed o' (Eq.refl (proceed input.chunks))
    refine ⟨fun _ => hunderWay.symm, fun hphase' => absurd hphase' hgone, ?_⟩
    rw [map_nil, append_nil]
    refine hsaid.of_eq rfl ?_ ?_ ?_
    · intro contents hcontents
      rw [unsent, hphase, append_nil] at hcontents
      rw [hunsent, hcontents]
    · intro _
      rw [hrequested, requested, hphase]
      exact ⟨nofun, rfl⟩
    · rw [saidTrailer_iff_isClosed hclosing hgone,
        saidTrailer_iff_isClosed (by rw [hphase]; nofun) (by rw [hphase]; nofun)]
  · -- `send`
    obtain ⟨contents, hcontents, hchunks, hlength⟩ := hsaid.chunks
    have hindex : contents.length = o.progress.chunkIndex := by
      rw [hlength (by rw [hphase]; nofun), requested, hphase]
    refine ⟨fun _ => rfl, nofun, ⟨?_, ⟨contents ++ [bytes], ?_, ?_, ?_⟩, ?_⟩⟩
    · rw [head?_append, hsaid.header]
      rfl
    · rw [unsent, hphase] at hcontents
      rw [append_assoc]
      exact hcontents
    · rw [chunksOf_append, hchunks, numbered_concat, hindex]
      rfl
    · intro _
      rw [length_append, hindex]
      rfl
    · rw [saidTrailer_iff_isClosed (by nofun) (by nofun)]
      have hbefore : HasTrailer o.id values ↔ o.isClosed = true :=
        hsaid.trailer.trans (saidTrailer_iff_isClosed (by rw [hphase]; nofun)
          (by rw [hphase]; nofun))
      refine hasTrailer_append.trans ((or_iff_left ?_).trans hbefore)
      rintro ⟨reason, hmem⟩
      exact Value.noConfusion (mem_singleton.mp hmem)
  · -- `close` of a closed stream
    exact h
  · -- `close`
    refine ⟨fun _ => rfl, nofun, hsaid.concat_trailer reason rfl rfl ?_ ?_ ?_⟩
    · rw [unsent, unsent, hphase]
    · rw [requested, requested, hphase]
      exact fun _ => ⟨nofun, rfl⟩
    · exact .inr (.inl ⟨reason, rfl⟩)
  · -- `drop`, where there is a runtime
    refine ⟨fun _ => rfl, nofun, ?_⟩
    rw [map_nil, append_nil]
    refine hsaid.of_unsent rfl rfl ?_ ?_ ?_
    · rw [unsent, unsent, hphase]
    · rw [requested, requested, hphase]
      exact fun _ => ⟨nofun, rfl⟩
    · rw [saidTrailer_iff_isClosed (by nofun) (by nofun),
        saidTrailer_iff_isClosed (by rw [hphase]; nofun) (by rw [hphase]; nofun)]
  · -- `drop` of a closed stream
    have hclosed' : o.isClosed = true := by
      rcases hclosed with rfl | hclosed
      · exact hdrop rfl
      · exact hclosed
    refine ⟨fun hphase' => absurd rfl hphase', fun _ _ hmem => absurd hmem not_mem_nil, ?_⟩
    rw [map_nil, append_nil]
    refine hsaid.of_unsent rfl rfl ?_ ?_ ?_
    · rw [unsent, unsent, hphase]
    · exact fun hphase' => absurd rfl hphase'
    · exact iff_of_true (.inl hclosed') (.inl hclosed')
  · -- the spawned task
    refine ⟨fun hphase' => absurd rfl hphase', ?_, hsaid.concat_trailer none rfl rfl ?_ ?_ ?_⟩
    · exact fun _ request hmem => mem_singleton.mp hmem ▸ rfl
    · rw [unsent, unsent, hphase]
    · exact fun hphase' => absurd rfl hphase'
    · exact .inr (.inr rfl)

/-- A stream that is opened. -/
theorem kept_open (header : Header) (destinationIdentities : List String) :
    Kept (OutStream.open header destinationIdentities).1
      [(OutStream.open header destinationIdentities).2] [] := by
  refine ⟨fun _ => rfl, nofun, ⟨rfl, ⟨[], rfl, rfl, fun _ => rfl⟩, ?_⟩⟩
  rw [saidTrailer_iff_isClosed (by nofun) (by nofun)]
  refine iff_of_false ?_ (by nofun)
  rintro ⟨reason, hmem⟩
  exact Value.noConfusion (mem_singleton.mp hmem)

/-- A request of the stream is published: the call that waits for it, if one does, goes on. -/
theorem Kept.answer {request : Request} {pending : List Request}
    (h : Kept o (request :: pending) values) :
    Kept (if request.awaited then o.answer (.ok ()) else o) pending
      (values ++ [request.packet.value]) := by
  have hsaid := h.said
  rw [map_cons, append_cons] at hsaid
  by_cases hgone : o.phase = .gone
  · -- the trailer that the spawned task requested; nobody waits for it
    have hawaited := h.orphaned hgone request mem_cons_self
    rw [hawaited]
    refine ⟨fun hphase => absurd hgone hphase, ?_, hsaid⟩
    exact fun _ other hmem => h.orphaned hgone other (mem_cons_of_mem request hmem)
  · -- the request answered is the one that the writer waits for
    have hunderWay := h.awaited hgone
    cases hphase : o.phase with
    | opening =>
      rw [underWay, hphase] at hunderWay
      obtain ⟨rfl, rfl⟩ := List.cons.inj hunderWay
      have hanswer : o.answer (.ok ()) = { o with phase := .idle } := by
        unfold OutStream.answer
        rw [hphase]
      rw [if_pos rfl, hanswer]
      refine ⟨fun _ => rfl, nofun, hsaid.of_unsent rfl rfl ?_ ?_ ?_⟩
      · rw [unsent, unsent, hphase]
      · rw [requested, requested, hphase]
        exact fun _ => ⟨nofun, rfl⟩
      · rw [saidTrailer_iff_isClosed (by nofun) (by nofun),
          saidTrailer_iff_isClosed (by rw [hphase]; nofun) hgone]
    | sending bytes rest =>
      rw [underWay, hphase] at hunderWay
      obtain ⟨rfl, rfl⟩ := List.cons.inj hunderWay
      have hanswer : o.answer (.ok ()) =
          { o with
            phase := proceed rest
            progress := { o.progress with
              bytesProcessed := o.progress.bytesProcessed + bytes.length
              chunkIndex := o.progress.chunkIndex + 1 } } := by
        unfold OutStream.answer
        rw [hphase]
      rw [if_pos rfl, hanswer]
      set o' : OutStream :=
        { o with
          phase := proceed rest
          progress := { o.progress with
            bytesProcessed := o.progress.bytesProcessed + bytes.length
            chunkIndex := o.progress.chunkIndex + 1 } } with ho'
      obtain ⟨hunsent, hrequested, hunderWay', hgone', hclosing⟩ :=
        of_proceed o' (Eq.refl (proceed rest))
      refine ⟨fun _ => hunderWay'.symm, fun hphase' => absurd hphase' hgone', ?_⟩
      refine hsaid.of_unsent rfl rfl ?_ ?_ ?_
      · rw [hunsent, unsent, hphase]
      · intro _
        rw [hrequested, requested, hphase]
        exact ⟨nofun, rfl⟩
      · rw [saidTrailer_iff_isClosed hclosing hgone',
          saidTrailer_iff_isClosed (by rw [hphase]; nofun) hgone]
    | closing reason =>
      rw [underWay, hphase] at hunderWay
      obtain ⟨rfl, rfl⟩ := List.cons.inj hunderWay
      have hanswer : o.answer (.ok ()) = { o with phase := .idle, isClosed := true } := by
        unfold OutStream.answer
        rw [hphase]
      rw [if_pos rfl, hanswer]
      refine ⟨fun _ => rfl, nofun, hsaid.of_unsent rfl rfl ?_ ?_ ?_⟩
      · rw [unsent, unsent, hphase]
      · rw [requested, requested, hphase]
        exact fun _ => ⟨nofun, rfl⟩
      · exact iff_of_true (.inl rfl) (.inr (.inl ⟨reason, hphase⟩))
    | _ =>
      rw [underWay, hphase] at hunderWay
      cases hunderWay

/-! ## The requests and deliveries of the streams -/

/-- To whom a stream was to go. -/
def State.dests (s : State) (i : ℕ) : Option (List String) :=
  s.streams[i]?.map (·.destinationIdentities)

theorem State.dests_eq {s : State} {i : ℕ} (h : s.streams[i]? = some o) :
    s.dests i = some o.destinationIdentities := by
  unfold dests
  rw [h]
  rfl

/-- A stream that is replaced by one with the same destinations. -/
theorem State.dests_set {s s' : State} {i : ℕ} (h : s.streams[i]? = some o)
    (hset : s'.streams = s.streams.set i o')
    (hsame : o'.destinationIdentities = o.destinationIdentities) (j : ℕ) :
    s'.dests j = s.dests j := by
  unfold dests
  rw [hset, getElem?_set h]
  by_cases hj : j = i
  · rw [if_pos hj, hj, h, map_some, map_some, hsame]
  · rw [if_neg hj]

/-- The requests for a stream in a queue. -/
def requestsFor (queue : List (ℕ × Request)) (i : ℕ) : List Request :=
  (queue.filter (·.1 = i)).map (·.2)

theorem requestsFor_append (queue queue' : List (ℕ × Request)) (i : ℕ) :
    requestsFor (queue ++ queue') i = requestsFor queue i ++ requestsFor queue' i := by
  unfold requestsFor
  rw [filter_append, map_append]

theorem requestsFor_cons (i : ℕ) (request : Request) (queue : List (ℕ × Request)) (j : ℕ) :
    requestsFor ((i, request) :: queue) j =
      if j = i then request :: requestsFor queue j else requestsFor queue j := by
  unfold requestsFor
  by_cases hj : j = i
  · rw [if_pos hj, filter_cons_of_pos (by simp [hj]), map_cons]
  · rw [if_neg hj, filter_cons_of_neg (by simp [Ne.symm hj])]

theorem requestsFor_map (i : ℕ) (requests : List Request) (j : ℕ) :
    requestsFor (requests.map (i, ·)) j = if j = i then requests else [] := by
  induction requests with
  | nil => exact (ite_self _).symm
  | cons request requests ih =>
    rw [map_cons, requestsFor_cons, ih]
    by_cases hj : j = i
    · rw [if_pos hj, if_pos hj, if_pos hj]
    · rw [if_neg hj, if_neg hj, if_neg hj]

/-- The requests for the other streams do not change. -/
theorem requestsFor_modify {i j : ℕ} (hj : j ≠ i) (f : Request → Request)
    (queue : List (ℕ × Request)) :
    requestsFor (queue.map fun entry => if entry.1 = i then (i, f entry.2) else entry) j =
      requestsFor queue j := by
  induction queue with
  | nil => rfl
  | cons entry queue ih =>
    obtain ⟨k, request⟩ := entry
    rw [map_cons, requestsFor_cons]
    by_cases hk : k = i
    · rw [if_pos hk, requestsFor_cons, if_neg hj, if_neg (hk ▸ hj), ih]
    · rw [if_neg hk, requestsFor_cons, ih]

theorem requestsFor_eq_nil {queue : List (ℕ × Request)} {i : ℕ}
    (h : ∀ entry ∈ queue, entry.1 ≠ i) : requestsFor queue i = [] := by
  unfold requestsFor
  rw [filter_eq_nil_iff.mpr]
  · rfl
  · intro entry hmem
    simpa using h entry hmem

/-- A packet that is handed on is one of its stream. -/
theorem State.delivered_append {s : State} {d : Delivery} (s' : State)
    (h : s'.deliveries = s.deliveries ++ [d]) (j : ℕ) :
    s'.delivered j = if j = d.stream then s.delivered j ++ [d.value] else s.delivered j := by
  unfold delivered
  rw [h, filter_append, map_append]
  by_cases hj : j = d.stream
  · rw [if_pos hj, filter_cons_of_pos (by simp [hj])]
    rfl
  · rw [if_neg hj, filter_cons_of_neg (by simp [Ne.symm hj])]
    exact append_nil _

/-- A packet is handed to the destinations, if there are any. -/
def Delivery.Only (d : Delivery) (destinationIdentities : List String) : Prop :=
  destinationIdentities ≠ [] →
    ∀ p ∈ d.room, p ∈ recipients d.packet d.room ↔ p ∈ destinationIdentities

structure Inv (s : State) : Prop where
  requests : ∀ entry ∈ s.queue, ∃ dests, s.dests entry.1 = some dests ∧ Made dests entry.2.packet
  deliveries : ∀ d ∈ s.deliveries, ∃ dests, s.dests d.stream = some dests ∧ d.Only dests
  kept : ∀ (i : ℕ) (o : OutStream), s.streams[i]? = some o → o.destinationIdentities ≠ [] →
    o.cut = false → Kept o (requestsFor s.queue i) (s.delivered i)

theorem inv_new (info : ParticipantInfo) : Inv (.new info) :=
  ⟨fun _ hmem => absurd hmem not_mem_nil, fun _ hmem => absurd hmem not_mem_nil,
    fun _ _ hstream => absurd hstream (by simp [new])⟩

section

variable {s s' : State} {i : ℕ} {o o' : OutStream}

/-- What is in the queue or was handed on is of a stream that there is. -/
theorem Inv.fresh (hinv : Inv s) :
    requestsFor s.queue s.streams.length = [] ∧ s.delivered s.streams.length = [] := by
  have hnone : s.dests s.streams.length = none := by
    unfold dests
    rw [getElem?_eq_none (Nat.le_refl _)]
    rfl
  constructor
  · apply requestsFor_eq_nil
    intro entry hmem hsame
    obtain ⟨dests, hdests, -⟩ := hinv.requests entry hmem
    rw [hsame, hnone] at hdests
    cases hdests
  · unfold delivered
    rw [filter_eq_nil_iff.mpr]
    · rfl
    · intro d hmem hsame
      obtain ⟨dests, hdests, -⟩ := hinv.deliveries d hmem
      rw [of_decide_eq_true hsame, hnone] at hdests
      cases hdests

theorem inv_open (hinv : Inv s) (header : Header) (destinationIdentities : List String)
    (hs' : s' = { s with
      streams := s.streams ++ [(OutStream.open header destinationIdentities).1]
      queue := s.queue ++
        [(s.streams.length, (OutStream.open header destinationIdentities).2)] }) : Inv s' := by
  subst hs'
  obtain ⟨hqueue, hdelivered⟩ := hinv.fresh
  have hdests : ∀ j dests, s.dests j = some dests →
      ((s.streams ++ [(OutStream.open header destinationIdentities).1])[j]?).map
        (·.destinationIdentities) = some dests := by
    intro j dests hj
    obtain ⟨o, ho, hsame⟩ := map_eq_some_iff.mp hj
    rw [getElem?_concat, if_neg (ne_length ho), ho, map_some, hsame]
  refine ⟨?_, ?_, ?_⟩
  · intro entry hmem
    rcases mem_append.mp hmem with hold | hnew
    · obtain ⟨dests, hj, hmade⟩ := hinv.requests entry hold
      exact ⟨dests, hdests _ dests hj, hmade⟩
    · obtain rfl := mem_singleton.mp hnew
      refine ⟨destinationIdentities, ?_, rfl⟩
      show ((s.streams ++ [_])[s.streams.length]?).map _ = some _
      rw [getElem?_concat_length]
      rfl
  · intro d hmem
    obtain ⟨dests, hj, honly⟩ := hinv.deliveries d hmem
    exact ⟨dests, hdests _ dests hj, honly⟩
  · intro j o ho hne hcut
    show Kept o (requestsFor (s.queue ++ [_]) j) (s.delivered j)
    rw [requestsFor_append]
    rcases of_getElem?_concat ho with ⟨rfl, rfl⟩ | ho
    · rw [hqueue, hdelivered, requestsFor_cons, if_pos rfl]
      exact kept_open header destinationIdentities
    · have hj := ne_length ho
      rw [requestsFor_cons, if_neg hj, show requestsFor [] j = [] from rfl, append_nil]
      exact hinv.kept j o ho hne hcut

theorem inv_writer {a : WriterAction} {requests : List Request} (hinv : Inv s)
    (ho : s.streams[i]? = some o) (hact : o.act a = some (o', requests))
    (hdrop : o.destinationIdentities ≠ [] → o.cut = false → a = .drop false →
      o.isClosed = true)
    (hs' : s' = { s with
      streams := s.streams.set i o'
      queue := s.queue ++ requests.map (i, ·) }) : Inv s' := by
  obtain ⟨hsame, hcut, hmade⟩ := act_frame hact
  have hdests := dests_set ho (congrArg streams hs') hsame
  subst hs'
  refine ⟨?_, ?_, ?_⟩
  · intro entry hmem
    rw [hdests]
    rcases mem_append.mp hmem with hold | hnew
    · exact hinv.requests entry hold
    · obtain ⟨request, hrequest, rfl⟩ := mem_map.mp hnew
      exact ⟨o.destinationIdentities, dests_eq ho, hmade request hrequest⟩
  · intro d hmem
    rw [hdests]
    exact hinv.deliveries d hmem
  · intro j other hother hne hfalse
    show Kept other (requestsFor (s.queue ++ requests.map (i, ·)) j) (s.delivered j)
    rw [requestsFor_append, requestsFor_map]
    rcases of_getElem?_set ho hother with ⟨rfl, rfl⟩ | ⟨hj, hother'⟩
    · rw [hsame] at hne
      rw [hcut] at hfalse
      rw [if_pos rfl]
      exact (hinv.kept j o ho hne hfalse).act hact (hdrop hne hfalse)
    · rw [if_neg hj, append_nil]
      exact hinv.kept j other hother' hne hfalse

theorem inv_abandon (hinv : Inv s) (ho : s.streams[i]? = some o) (habandon : o.abandon = some o')
    (hs' : s' = { s with
      streams := s.streams.set i o'
      queue := s.queue.map fun entry =>
        if entry.1 = i then (i, { entry.2 with awaited := false }) else entry }) : Inv s' := by
  obtain ⟨hsame, hcut⟩ := abandon_frame habandon
  have hdests := dests_set ho (congrArg streams hs') hsame
  subst hs'
  refine ⟨?_, ?_, ?_⟩
  · intro entry hmem
    obtain ⟨old, hold, rfl⟩ := mem_map.mp hmem
    obtain ⟨dests, hj, hmade⟩ := hinv.requests old hold
    refine ⟨dests, ?_, ?_⟩
    · rw [hdests, ← hj]
      by_cases hi : old.1 = i
      · rw [if_pos hi, hi]
      · rw [if_neg hi]
    · by_cases hi : old.1 = i
      · rw [if_pos hi]
        exact hmade
      · rw [if_neg hi]
        exact hmade
  · intro d hmem
    rw [hdests]
    exact hinv.deliveries d hmem
  · intro j other hother hne hfalse
    -- the stream of the call that was given up is cut, so nothing is claimed of it
    rcases of_getElem?_set ho hother with ⟨-, rfl⟩ | ⟨hj, hother'⟩
    · rw [hcut] at hfalse
      cases hfalse
    · show Kept other (requestsFor (s.queue.map _) j) (s.delivered j)
      rw [requestsFor_modify hj fun request => { request with awaited := false }]
      exact hinv.kept j other hother' hne hfalse

/-! ## A request has its result -/

/-- The stream after a request for it has the result. -/
def OutStream.respond (o : OutStream) (request : Request) (result : Except StreamError Unit) :
    OutStream :=
  let o := if request.awaited then o.answer result else o
  match result with
  | .ok () => o
  | .error _ => { o with cut := true }

theorem OutStream.respond_destinationIdentities (o : OutStream) (request : Request)
    (result : Except StreamError Unit) :
    (o.respond request result).destinationIdentities = o.destinationIdentities := by
  have hsame : (if request.awaited then o.answer result else o).destinationIdentities =
      o.destinationIdentities := by
    by_cases hawaited : request.awaited = true
    · rw [if_pos hawaited]
      exact (o.answer_frame result).1
    · rw [if_neg hawaited]
  cases result with
  | ok | error => exact hsame

theorem OutStream.respond_cut (o : OutStream) (request : Request) :
    (o.respond request (.ok ())).cut = o.cut := by
  show (if request.awaited then o.answer (.ok ()) else o).cut = o.cut
  by_cases hawaited : request.awaited = true
  · rw [if_pos hawaited]
    exact (o.answer_frame (.ok ())).2
  · rw [if_neg hawaited]

theorem State.respond_streams (ho : s.streams[i]? = some o) (request : Request)
    (result : Except StreamError Unit) (queue : List (ℕ × Request)) (deliveries : List Delivery) :
    (s.respond i request result queue deliveries).streams =
      s.streams.set i (o.respond request result) :=
  modify_eq_set ho fun o => o.respond request result

variable {queue : List (ℕ × Request)} {request : Request}

section

variable (hinv : Inv s) (hqueue : s.queue = (i, request) :: queue)

include hinv hqueue

/-- The stream of the first request in the queue. -/
theorem Inv.head :
    ∃ o, s.streams[i]? = some o ∧ Made o.destinationIdentities request.packet := by
  obtain ⟨dests, hdests, hmade⟩ := hinv.requests (i, request) (hqueue ▸ mem_cons_self)
  obtain ⟨o, ho, rfl⟩ := map_eq_some_iff.mp hdests
  exact ⟨o, ho, hmade⟩

theorem inv_published {d : Delivery} (ho : s.streams[i]? = some o) (hstream : d.stream = i)
    (hvalue : d.value = request.packet.value) (honly : d.Only o.destinationIdentities) :
    Inv (s.respond i request (.ok ()) queue [d]) := by
  have hstreams := respond_streams ho request (.ok ()) queue [d]
  have hdests := dests_set ho hstreams (o.respond_destinationIdentities request (.ok ()))
  refine ⟨?_, ?_, ?_⟩
  · intro entry hmem
    rw [hdests]
    exact hinv.requests entry (hqueue ▸ mem_cons_of_mem _ hmem)
  · intro d' hmem
    rw [hdests]
    rcases mem_append.mp hmem with hold | hnew
    · exact hinv.deliveries d' hold
    · obtain rfl := mem_singleton.mp hnew
      exact ⟨o.destinationIdentities, hstream ▸ dests_eq ho, honly⟩
  · intro j other hother hne hfalse
    rw [hstreams] at hother
    have hdelivered := delivered_append (s := s) (d := d)
      (s.respond i request (.ok ()) queue [d]) rfl j
    rw [hstream] at hdelivered
    rw [hdelivered]
    show Kept other (requestsFor queue j) _
    rcases of_getElem?_set ho hother with ⟨rfl, rfl⟩ | ⟨hj, hother⟩
    · rw [o.respond_destinationIdentities] at hne
      rw [o.respond_cut] at hfalse
      have hkept := hinv.kept j o ho hne hfalse
      rw [hqueue, requestsFor_cons, if_pos rfl] at hkept
      rw [if_pos rfl, hvalue]
      exact hkept.answer
    · have hkept := hinv.kept j other hother hne hfalse
      rw [hqueue, requestsFor_cons, if_neg hj] at hkept
      rw [if_neg hj]
      exact hkept

theorem inv_failed (err : StreamError) :
    Inv (s.respond i request (.error err) queue []) := by
  obtain ⟨o, ho, -⟩ := hinv.head hqueue
  have hstreams := respond_streams ho request (.error err) queue []
  have hdests := dests_set ho hstreams (o.respond_destinationIdentities request (.error err))
  have hdeliveries : s.deliveries ++ [] = s.deliveries := append_nil _
  refine ⟨?_, ?_, ?_⟩
  · intro entry hmem
    rw [hdests]
    exact hinv.requests entry (hqueue ▸ mem_cons_of_mem _ hmem)
  · intro d hmem
    rw [hdests]
    exact hinv.deliveries d (hdeliveries ▸ hmem)
  · intro j other hother hne hfalse
    rw [hstreams] at hother
    rcases of_getElem?_set ho hother with ⟨-, rfl⟩ | ⟨hj, hother⟩
    · -- the stream is cut by the failure
      cases hfalse
    · have hkept := hinv.kept j other hother hne hfalse
      rw [hqueue, requestsFor_cons, if_neg hj] at hkept
      have hdelivered :
          (s.respond i request (.error err) queue []).delivered j = s.delivered j := by
        unfold delivered
        exact congrArg (fun l => (l.filter (·.stream = j)).map (·.value)) hdeliveries
      rw [hdelivered]
      exact hkept

end

/-- What is published of a stream is handed to its destinations if it is the header, or if there
is nobody else, and otherwise not. -/
theorem only_iff {encodePayload : EncryptedValue → Bytes} {info : ParticipantInfo}
    {e2eeManager : Option E2eeManager} {packet : DataPacket} {published : RtcSession.DataPacket}
    {dests room : List String}
    (hpublish : publishData encodePayload info e2eeManager packet = some published)
    (hmade : Made dests packet) (hne : dests ≠ []) :
    (∀ p ∈ room, p ∈ recipients published room ↔ p ∈ dests) ↔
      Value.isHeader packet.value = true ∨ ∀ p ∈ room, p ∈ dests := by
  have hnames := publishData_destinationIdentities encodePayload hpublish
  unfold Made at hmade
  rw [hmade] at hnames
  constructor
  · intro honly
    -- a packet that is no header names nobody, so it goes to all
    by_cases hheader : Value.isHeader packet.value = true
    · exact .inl hheader
    · right
      intro p hp
      rw [if_neg hheader] at hnames
      exact (honly p hp).mp (mem_recipients.mpr ⟨hp, .inl hnames⟩)
  · intro hor p hp
    rw [mem_recipients, and_iff_right hp]
    by_cases hheader : Value.isHeader packet.value = true
    · rw [hnames, if_pos hheader]
      exact or_iff_right hne
    · rw [hnames, if_neg hheader]
      exact iff_of_true (.inl rfl) (hor.resolve_left hheader p hp)

/-! ## Every run -/

/-- What holds of the streams none of whose requests failed gives what is claimed. -/
theorem Inv.onlyDestinations (hinv : Inv s) : OnlyDestinations s := by
  constructor
  · intro d hmem o ho hne
    obtain ⟨dests, hdests, honly⟩ := hinv.deliveries d hmem
    rw [dests_eq ho] at hdests
    obtain rfl := some.inj hdests
    exact honly hne
  · intro i o ho hne hcut hrest
    have hsaid := (hinv.kept i o ho hne hcut).said
    obtain ⟨contents, hcontents, hchunks, -⟩ := hsaid.chunks
    have hunsent : o.unsent = [] := by
      unfold unsent
      rcases hrest with hphase | hphase
      · rw [hphase]
      · rw [hphase]
    rw [hunsent, append_nil] at hcontents
    refine ⟨hsaid.header, hcontents ▸ hchunks, ?_⟩
    rintro (hclosed | hgone)
    · exact hsaid.trailer.mpr (.inl hclosed)
    · exact hsaid.trailer.mpr (.inr (.inr hgone))

variable (encodePayload : EncryptedValue → Bytes)

/-- The first request in the queue is published, or it fails. -/
theorem task_cases {e2eeManager : Option E2eeManager} {failure : Option StreamError}
    (h : step encodePayload s (.task e2eeManager failure) = some s') :
    ∃ i request queue, s.queue = (i, request) :: queue ∧
      ((∃ packet, failure = none ∧
          publishData encodePayload s.info e2eeManager request.packet = some packet ∧
          s' = s.respond i request (.ok ()) queue [⟨i, request.packet.value, packet, s.room⟩]) ∨
        ∃ err, (failure = none →
            publishData encodePayload s.info e2eeManager request.packet = none) ∧
          s' = s.respond i request (.error err) queue []) := by
  unfold step at h
  dsimp only at h
  split at h
  · cases h
  · next i request queue hqueue =>
    refine ⟨i, request, queue, hqueue, ?_⟩
    split at h
    · next packet hpublish =>
      exact .inl ⟨packet, rfl, hpublish, (some.inj h).symm⟩
    · next hpublish =>
      exact .inr ⟨.sendFailed, fun _ => hpublish, (some.inj h).symm⟩
    · next err =>
      exact .inr ⟨err, nofun, (some.inj h).symm⟩

theorem inv_step {a : Action} (hinv : Inv s) (hstep : step encodePayload s a = some s')
    (hconfined : Confined encodePayload s a s') : Inv s' := by
  cases a with
  | join identity =>
    unfold step at hstep
    rw [ite_none_left_eq_some] at hstep
    obtain rfl := some.inj hstep.2
    exact ⟨hinv.requests, hinv.deliveries, hinv.kept⟩
  | leave identity =>
    obtain rfl := some.inj hstep
    exact ⟨hinv.requests, hinv.deliveries, hinv.kept⟩
  | openStream options uuid =>
    exact inv_open hinv (options.header uuid) options.destinationIdentities
      (some.inj hstep).symm
  | writer i action =>
    obtain ⟨o, ho, hmap⟩ := bind_eq_some_iff.mp hstep
    obtain ⟨⟨o', requests⟩, hact, hs'⟩ := map_eq_some_iff.mp hmap
    refine inv_writer hinv ho hact ?_ hs'.symm
    rintro hne hcut rfl
    rcases hconfined o ho hne with hclosed | htrue
    · exact hclosed
    · rw [hcut] at htrue
      cases htrue
  | abandon i =>
    obtain ⟨o, ho, hmap⟩ := bind_eq_some_iff.mp hstep
    obtain ⟨o', habandon, hs'⟩ := map_eq_some_iff.mp hmap
    exact inv_abandon hinv ho habandon hs'.symm
  | task e2eeManager failure =>
    obtain ⟨i, request, queue, hqueue, hpublished | hfailed⟩ := task_cases encodePayload hstep
    · obtain ⟨packet, rfl, hpublish, rfl⟩ := hpublished
      obtain ⟨o, ho, hmade⟩ := hinv.head hqueue
      refine inv_published hinv hqueue ho rfl rfl ?_
      intro hne
      refine (only_iff hpublish hmade hne).mpr ?_
      exact hconfined i request o (by rw [hqueue]; rfl) ho hne (by rw [hpublish]; nofun)
    · obtain ⟨err, -, rfl⟩ := hfailed
      exact inv_failed hinv hqueue err

/-- A step that is not confined hands a packet to others, or it leaves a stream without trailer. -/
theorem not_onlyDestinations {a : Action} (hinv : Inv s)
    (hstep : step encodePayload s a = some s') (hconfined : ¬ Confined encodePayload s a s') :
    ¬ OnlyDestinations s' := by
  intro honly
  apply hconfined
  unfold Confined
  split
  · next e2eeManager =>
    intro i request o hhead ho hne hpublish
    obtain ⟨i', request', queue, hqueue, hpublished | hfailed⟩ := task_cases encodePayload hstep
    · obtain ⟨packet, -, hpacket, rfl⟩ := hpublished
      rw [hqueue] at hhead
      cases hhead
      obtain ⟨o', ho', hmade⟩ := hinv.head hqueue
      obtain rfl := some.inj (ho.symm.trans ho')
      refine (only_iff hpacket hmade hne).mp ?_
      have hsame := o.respond_destinationIdentities request (.ok ())
      rw [← hsame]
      refine honly.only ⟨i, request.packet.value, packet, s.room⟩
        (mem_append_right _ (mem_singleton_self _)) (o.respond request (.ok ())) ?_ ?_
      · rw [respond_streams ho, getElem?_set ho]
        exact if_pos rfl
      · rw [hsame]
        exact hne
    · obtain ⟨err, hnone, -⟩ := hfailed
      rw [hqueue] at hhead
      cases hhead
      exact absurd (hnone rfl) hpublish
  · next i =>
    intro o ho hne
    by_contra hopen
    rw [not_or, Bool.not_eq_true, Bool.not_eq_true] at hopen
    obtain ⟨hclosed, hcut⟩ := hopen
    obtain ⟨o', ho', hmap⟩ := bind_eq_some_iff.mp hstep
    obtain rfl := some.inj (ho.symm.trans ho')
    obtain ⟨⟨o', requests⟩, hact, rfl⟩ := map_eq_some_iff.mp hmap
    have hkept := hinv.kept i o ho hne hcut
    -- the writer is dropped, and no trailer is requested
    have hdropped : o.phase = .idle ∧ requests = [] ∧ o' = { o with phase := .gone } := by
      rcases act_cases hact with h | h | h | h | h | h | h
      · obtain ⟨_, ha, -⟩ := h
        cases ha
      · obtain ⟨_, _, ha, -⟩ := h
        cases ha
      · obtain ⟨_, ha, -⟩ := h
        cases ha
      · obtain ⟨_, ha, -⟩ := h
        cases ha
      · cases h.1
      · obtain ⟨_, -, hphase, -, hrequests, ho'⟩ := h
        exact ⟨hphase, hrequests, ho'⟩
      · cases h.1
    obtain ⟨hphase, rfl, rfl⟩ := hdropped
    have hlookup : (s.streams.set i { o with phase := .gone })[i]? =
        some { o with phase := .gone } := by
      rw [getElem?_set ho]
      exact if_pos rfl
    have htrailer : HasTrailer o.id
        (s.delivered i ++ (requestsFor (s.queue ++ []) i).map (·.packet.value)) :=
      (honly.whole i _ hlookup hne hcut (.inr rfl)).trailer (.inr rfl)
    have hnone : ¬ o.SaidTrailer := by
      rw [saidTrailer_iff_isClosed (by rw [hphase]; nofun) (by rw [hphase]; nofun),
        hclosed]
      exact Bool.false_ne_true
    rw [append_nil] at htrailer
    exact hnone (hkept.said.trailer.mp htrailer)
  · trivial

/-- The streams with destinations reach them and no others if and only if none of their chunks and
trailers is published while somebody else is in the room, and each is closed or its last writer is
dropped where there is a runtime. -/
theorem onlyDestinations_iff (info : ParticipantInfo) (run : List Action) :
    Throughout (step encodePayload) OnlyDestinations (.new info) run ↔
      EachStep (step encodePayload) (Confined encodePayload) (.new info) run := by
  refine throughout_iff_eachStep (I := Inv) (fun s hinv => hinv.onlyDestinations) ?_
    (inv_new info) run
  intro s a s' hinv hstep
  by_cases hconfined : Confined encodePayload s a s'
  · exact .inl ⟨hconfined, inv_step encodePayload hinv hstep hconfined⟩
  · exact .inr ⟨hconfined, not_onlyDestinations encodePayload hinv hstep hconfined⟩

end

/-- What is written to a stream for one of two participants is handed to both. -/
theorem chunk_is_handed_to_all :
    let options : StreamTextOptions :=
      ⟨"topic", ∅, ["bob"], some "id", none, none, none, [], none⟩
    let run : List Action := [.join "bob", .join "carol", .openStream (.text options none) "uuid",
      .task none none, .writer 0 (.write (.text "a")), .writer 0 .send, .task none none]
    ((exec (step fun _ => []) (.new ⟨"alice", "PA_alice"⟩) run).map fun s =>
        s.deliveries.map fun d => (d.stream, recipients d.packet d.room)) =
          some [(0, ["bob"]), (0, ["bob", "carol"])] ∧
      ¬ Throughout (step fun _ => []) OnlyDestinations (.new ⟨"alice", "PA_alice"⟩) run := by
  intro options run
  have hshown : (exec (step fun _ => []) (.new ⟨"alice", "PA_alice"⟩) run).map (fun s =>
      (s.deliveries.map fun d => (d.stream, d.room, recipients d.packet d.room),
        s.streams.map fun o => o.destinationIdentities)) =
      some ([(0, ["bob", "carol"], ["bob"]), (0, ["bob", "carol"], ["bob", "carol"])],
        [["bob"]]) := by decide +kernel
  refine ⟨by decide +kernel, fun hthroughout => ?_⟩
  obtain ⟨s, hs, hpair⟩ := map_eq_some_iff.mp hshown
  obtain ⟨hdeliveries, hstreams⟩ := Prod.mk.inj hpair
  obtain ⟨d, hmem, hd⟩ := mem_map.mp (hdeliveries ▸ mem_cons_of_mem _
    mem_cons_self : (0, ["bob", "carol"], ["bob", "carol"]) ∈ s.deliveries.map
      fun d => (d.stream, d.room, recipients d.packet d.room))
  obtain ⟨hstream, hboth⟩ := Prod.mk.inj hd
  obtain ⟨hroom, hrecipients⟩ := Prod.mk.inj hboth
  have hzero := congrArg (fun l => l[0]?) hstreams
  simp only [getElem?_map] at hzero
  obtain ⟨o, ho, hdests⟩ := map_eq_some_iff.mp hzero
  have honly := (hthroughout run [] s (append_nil _).symm hs).only d hmem o (hstream ▸ ho)
    (by rw [hdests]; decide) "carol" (by rw [hroom]; decide)
  rw [hrecipients, hdests] at honly
  exact absurd (honly.mp (by decide)) (by decide)

end LiveKit.DataStream.Directed
