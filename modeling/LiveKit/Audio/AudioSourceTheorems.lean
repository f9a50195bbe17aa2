import LiveKit.Audio.AudioSource

/-!
# The two queue sizes

Between two chunks the buffer holds at most one queue. So a chunk fits if the queue size by which
the frame is cut is at most the one by which it is admitted; and where it is larger, a full queue
and a whole chunk after it do not.
-/

namespace LiveKit.AudioSource

open Event TransitionSystem

variable {s s' : State} {h : List Event}

/-! ## The buffer and the call -/

/-- The sizes fit together. -/
structure Fits (native : NativeAudioSource) (internal : InternalSource) : Prop where
  samples10ms_pos : 0 < internal.samples10ms
  samples10ms_le : internal.samples10ms ≤ internal.queueSizeSamples
  threshold : internal.notifyThresholdSamples = internal.queueSizeSamples
  chunk_pos : 0 < native.queueSizeSamples
  chunk_le : native.queueSizeSamples ≤ internal.queueSizeSamples

/-- While no callback is waited for there is room for a chunk. -/
def Ready (s : State) : Prop :=
  match s.call with
  | .idle => s.onComplete = none ∧ s.buffer.length ≤ s.internal.queueSizeSamples
  | .sending chunks => s.onComplete = none ∧ s.buffer.length ≤ s.internal.queueSizeSamples ∧
    ∀ chunk ∈ chunks, chunk.length ≤ s.native.queueSizeSamples
  | .awaiting ctx chunks => s.onComplete = some (some ctx) ∧
    ∀ chunk ∈ chunks, chunk.length ≤ s.native.queueSizeSamples

/-- What each event says that is told of the buffer. -/
def Event.Sized (samples10ms : ℕ) : Event → Prop
  | .failed => False
  | .block data => data.length = samples10ms
  | .silence buffered => buffered < samples10ms
  | _ => True

/-- What is kept by every step. -/
structure Inv (h : List Event) (s : State) : Prop where
  fits : Fits s.native s.internal
  ready : Ready s
  sized : ∀ event ∈ h, event.Sized s.internal.samples10ms
  once : h.filterMap Event.context ++ (s.onComplete.bind id).toList = List.range s.contexts
  bounded : s.buffer.length ≤ 2 * s.internal.queueSizeSamples
  exact : h.flatMap Event.played ++ s.buffer ++ s.call.rest = h.flatMap Event.captured

theorem sized_concat {samples10ms : ℕ} {new : Event}
    (hsized : ∀ event ∈ h, event.Sized samples10ms) (hnew : new.Sized samples10ms) :
    ∀ event ∈ h ++ [new], event.Sized samples10ms := by
  intro event hevent
  rw [List.mem_append, List.mem_singleton] at hevent
  cases hevent with
  | inl hbefore => exact hsized event hbefore
  | inr hnow => exact hnow ▸ hnew

/-! ## The task of the buffer -/

theorem Inv.emit_block (hinv : Inv h s) (hle : s.internal.samples10ms ≤ s.buffer.length) :
    Inv (h ++ [.block (s.buffer.take s.internal.samples10ms)])
      { s with buffer := s.buffer.drop s.internal.samples10ms } := by
  have hshorter : (s.buffer.drop s.internal.samples10ms).length ≤ s.buffer.length := by
    rw [List.length_drop]
    omega
  refine ⟨hinv.fits, ?_, ?_, ?_, Nat.le_trans hshorter hinv.bounded, ?_⟩
  · have hready := hinv.ready
    unfold Ready at hready ⊢
    cases hcall : s.call with
    | idle =>
      rw [hcall] at hready
      exact ⟨hready.1, Nat.le_trans hshorter hready.2⟩
    | sending chunks =>
      rw [hcall] at hready
      exact ⟨hready.1, Nat.le_trans hshorter hready.2.1, hready.2.2⟩
    | awaiting ctx chunks =>
      rw [hcall] at hready
      exact hready
  · refine sized_concat hinv.sized ?_
    show (s.buffer.take s.internal.samples10ms).length = s.internal.samples10ms
    rw [List.length_take]
    exact Nat.min_eq_left hle
  · rw [List.filterMap_append]
    show h.filterMap context ++ [] ++ _ = _
    rw [List.append_nil]
    exact hinv.once
  · rw [List.flatMap_append, List.flatMap_append]
    show h.flatMap played ++ (s.buffer.take s.internal.samples10ms ++ []) ++
      s.buffer.drop s.internal.samples10ms ++ s.call.rest = h.flatMap captured ++ []
    rw [List.append_nil, List.append_nil, List.append_assoc (h.flatMap played),
      List.take_append_drop]
    exact hinv.exact

theorem Inv.emit_silence (hinv : Inv h s) (hlt : s.buffer.length < s.internal.samples10ms) :
    Inv (h ++ [.silence s.buffer.length]) s := by
  refine ⟨hinv.fits, hinv.ready, sized_concat hinv.sized hlt, ?_, hinv.bounded, ?_⟩
  · rw [List.filterMap_append]
    show h.filterMap context ++ [] ++ _ = _
    rw [List.append_nil]
    exact hinv.once
  · rw [List.flatMap_append, List.flatMap_append]
    show h.flatMap played ++ [] ++ s.buffer ++ s.call.rest = h.flatMap captured ++ []
    rw [List.append_nil, List.append_nil]
    exact hinv.exact

/-- A block or a silence is emitted. -/
theorem Inv.emit (hinv : Inv h s) : Inv (h ++ s.emit.2) s.emit.1 := by
  unfold State.emit
  dsimp only
  split
  next hle => exact hinv.emit_block hle
  next hlt => exact hinv.emit_silence (Nat.lt_of_not_le hlt)

/-- Only a call that waits has a callback left. -/
theorem Ready.awaiting {ctx : Option ℕ} (hready : Ready s) (hcomplete : s.onComplete = some ctx) :
    ∃ ctx' chunks, s.call = .awaiting ctx' chunks ∧ ctx = some ctx' ∧
      ∀ chunk ∈ chunks, chunk.length ≤ s.native.queueSizeSamples := by
  unfold Ready at hready
  cases hcall : s.call with
  | idle | sending =>
    rw [hcall] at hready
    rw [hready.1] at hcomplete
    cases hcomplete
  | awaiting ctx' chunks =>
    rw [hcall] at hready
    rw [hready.1, Option.some.injEq] at hcomplete
    exact ⟨ctx', chunks, rfl, hcomplete.symm, hready.2⟩

theorem notify_awaiting {ctx : ℕ} {chunks : List (List Int16)}
    (hcall : s.call = .awaiting ctx chunks) (hcomplete : s.onComplete = some (some ctx))
    (hle : s.buffer.length ≤ s.internal.notifyThresholdSamples) :
    s.notify = ({ s with onComplete := none, call := .sending chunks }, [.completed ctx]) := by
  unfold State.notify
  rw [hcomplete]
  dsimp only
  rw [if_pos hle]
  unfold State.wake
  dsimp only
  rw [hcall]
  dsimp only
  rw [if_pos rfl]
  rfl

/-- The capture that waits is told that there is room. -/
theorem Inv.notify (hinv : Inv h s) : Inv (h ++ s.notify.2) s.notify.1 := by
  cases hcomplete : s.onComplete with
  | none =>
    have hsame : s.notify = (s, []) := by
      unfold State.notify
      rw [hcomplete]
    rw [hsame, List.append_nil]
    exact hinv
  | some ctx =>
    by_cases hle : s.buffer.length ≤ s.internal.notifyThresholdSamples
    · obtain ⟨ctx', chunks, hcall, rfl, hchunks⟩ := hinv.ready.awaiting hcomplete
      rw [notify_awaiting hcall hcomplete hle]
      have hroom : s.buffer.length ≤ s.internal.queueSizeSamples := by
        rw [← hinv.fits.threshold]
        exact hle
      have honce := hinv.once
      rw [hcomplete] at honce
      refine ⟨hinv.fits, ⟨rfl, hroom, hchunks⟩, sized_concat hinv.sized trivial, ?_, hinv.bounded,
        ?_⟩
      · rw [List.filterMap_append]
        show h.filterMap context ++ [ctx'] ++ [] = _
        rw [List.append_nil]
        exact honce
      · have hexact := hinv.exact
        rw [hcall] at hexact
        rw [List.flatMap_append, List.flatMap_append]
        show h.flatMap played ++ [] ++ s.buffer ++ chunks.flatten =
          h.flatMap captured ++ []
        rw [List.append_nil, List.append_nil]
        exact hexact
    · have hsame : s.notify = (s, []) := by
        unfold State.notify
        rw [hcomplete]
        dsimp only
        rw [if_neg hle]
      rw [hsame, List.append_nil]
      exact hinv

/-- A turn of the task keeps the invariant. -/
theorem Inv.drain (hinv : Inv h s) : Inv (h ++ s.drain.2) s.drain.1 := by
  show Inv (h ++ (s.emit.2 ++ s.emit.1.notify.2)) s.emit.1.notify.1
  rw [← List.append_assoc]
  exact hinv.emit.notify

theorem step_drain (s : State) : State.step s .drain = some s.drain.1 := rfl

/-- As long as the callback waits, the task takes samples out. -/
theorem drain_awaiting (hinv : Inv h s) (hcomplete : s.onComplete ≠ none)
    (hafter : s.drain.1.onComplete ≠ none) : s.drain.1.buffer.length < s.buffer.length := by
  have hinv' := hinv.emit
  have hpos := hinv.fits.samples10ms_pos
  have hsmall := hinv.fits.samples10ms_le
  have hinternal : s.emit.1.internal = s.internal := by
    unfold State.emit
    dsimp only
    split <;> rfl
  have hkeeps : s.emit.1.onComplete = s.onComplete := by
    unfold State.emit
    dsimp only
    split <;> rfl
  obtain ⟨ctx, hctx⟩ := Option.ne_none_iff_exists'.mp hcomplete
  rw [← hkeeps] at hctx
  obtain ⟨ctx', chunks, hcall, rfl, -⟩ := hinv'.ready.awaiting hctx
  by_cases hle : s.emit.1.buffer.length ≤ s.emit.1.internal.notifyThresholdSamples
  · -- the callback is invoked
    have hnone : s.drain.1.onComplete = none := by
      show s.emit.1.notify.1.onComplete = none
      rw [notify_awaiting hcall hctx hle]
    exact absurd hnone hafter
  · have hsame : s.drain.1 = s.emit.1 := by
      show s.emit.1.notify.1 = s.emit.1
      unfold State.notify
      rw [hctx]
      dsimp only
      rw [if_neg hle]
    rw [hinternal, hinv.fits.threshold] at hle
    rw [hsame]
    unfold State.emit at hle ⊢
    dsimp only at hle ⊢
    split
    next hblock =>
      rw [List.length_drop]
      omega
    next hsilence =>
      rw [if_neg hsilence] at hle
      dsimp only at hle
      omega

/-- Runs of the task come to invoke the callback that waits. -/
theorem Inv.completes (hinv : Inv h s) :
    ∃ n t, exec State.step s (List.replicate n .drain) = some t ∧ t.onComplete = none := by
  induction hlength : s.buffer.length using Nat.strongRecOn generalizing h s with
  | ind m ih =>
    by_cases hcomplete : s.onComplete = none
    · exact ⟨0, s, rfl, hcomplete⟩
    · by_cases hafter : s.drain.1.onComplete = none
      · exact ⟨1, s.drain.1, rfl, hafter⟩
      · have hlt := drain_awaiting hinv hcomplete hafter
        rw [hlength] at hlt
        obtain ⟨n, t, hexec, hnone⟩ := ih _ hlt hinv.drain rfl
        exact ⟨n + 1, t, exec_cons_eq_some.mpr ⟨_, step_drain s, hexec⟩, hnone⟩

theorem Inv.kept (hinv : Inv h s) : Kept h s :=
  { noneFails := fun hmem => hinv.sized _ hmem
    once := hinv.once
    completes := hinv.completes
    bounded := hinv.bounded
    blocks := fun _ hmem => hinv.sized _ hmem
    silence := fun _ hmem => hinv.sized _ hmem
    exact := hinv.exact }

/-! ## The call -/

/-- A capture begins. -/
theorem Inv.captureFrame (hinv : Inv h s) (hcall : s.call = .idle) (data : List Int16) :
    Inv (h ++ .frame data :: (s.captureFrame data).2) (s.captureFrame data).1 := by
  have hready := hinv.ready
  unfold Ready at hready
  rw [hcall] at hready
  have hpos := hinv.fits.chunk_pos
  have hchunks : s.captureFrame data =
      ({ s with call := .sending (Chunks.chunks s.native.queueSizeSamples data) }, []) := by
    unfold State.captureFrame
    rw [if_neg (Nat.ne_of_gt hpos)]
  rw [hchunks]
  refine ⟨hinv.fits, ⟨hready.1, hready.2, fun chunk => Chunks.length_le_of_mem_chunks⟩,
    sized_concat hinv.sized trivial, ?_, hinv.bounded, ?_⟩
  · rw [List.filterMap_append]
    show h.filterMap context ++ [] ++ _ = _
    rw [List.append_nil]
    exact hinv.once
  · have hexact := hinv.exact
    rw [hcall] at hexact
    have hbefore : h.flatMap played ++ s.buffer = h.flatMap captured := by
      rw [← hexact]
      exact (List.append_nil _).symm
    rw [List.flatMap_append, List.flatMap_append]
    show h.flatMap played ++ [] ++ s.buffer ++
      (Chunks.chunks s.native.queueSizeSamples data).flatten = h.flatMap captured ++ (data ++ [])
    rw [Chunks.flatten_chunks hpos, List.append_nil, List.append_nil, hbefore]

theorem Inv.returns (hinv : Inv h s) (hcall : s.call = .sending []) :
    Inv h { s with call := .idle } := by
  have hready := hinv.ready
  have hexact := hinv.exact
  unfold Ready at hready
  rw [hcall] at hready hexact
  exact ⟨hinv.fits, ⟨hready.1, hready.2.1⟩, hinv.sized, hinv.once, hinv.bounded, hexact⟩

/-- There is room for a chunk. -/
theorem capture_room {chunk : List Int16} {queue : ℕ} (ctx : ℕ)
    (hqueue : s.internal.queueSizeSamples = queue) (hpos : 0 < queue)
    (hthreshold : s.internal.notifyThresholdSamples = queue) (hnone : s.onComplete = none)
    (hroom : s.buffer.length ≤ queue) (hchunk : chunk.length ≤ queue) :
    s.capture chunk (some ctx) =
      if (s.buffer ++ chunk).length ≤ queue then
        some ({ s with buffer := s.buffer ++ chunk }, [.completed ctx])
      else some ({ s with buffer := s.buffer ++ chunk, onComplete := some (some ctx) }, []) := by
  have hfits : ¬ (s.buffer.length ≤ queue + queue ∧
      queue + queue - s.buffer.length < chunk.length) := by omega
  unfold State.capture
  dsimp only
  rw [hqueue, hthreshold, if_neg (Nat.ne_of_gt hpos), if_neg hfits, hnone]
  rfl

/-- The next chunk of a capture comes into the buffer. -/
theorem Inv.captureChunk (hinv : Inv h s) {chunk : List Int16} {chunks : List (List Int16)}
    (hcall : s.call = .sending (chunk :: chunks)) {events : List Event}
    (hturn : s.captureChunk = some (s', events)) : Inv (h ++ events) s' := by
  have hready := hinv.ready
  have hexact := hinv.exact
  have honce := hinv.once
  unfold Ready at hready
  rw [hcall] at hready hexact
  obtain ⟨hnone, hroom, hchunks⟩ := hready
  rw [hnone] at honce
  have hdone : h.filterMap context = List.range s.contexts := by
    rw [← honce]
    exact (List.append_nil _).symm
  have hchunk : chunk.length ≤ s.internal.queueSizeSamples :=
    Nat.le_trans (hchunks chunk List.mem_cons_self) hinv.fits.chunk_le
  have hrest : ∀ chunk ∈ chunks, chunk.length ≤ s.native.queueSizeSamples :=
    fun other hother => hchunks other (List.mem_cons_of_mem _ hother)
  have hpos : 0 < s.internal.queueSizeSamples :=
    Nat.lt_of_lt_of_le hinv.fits.chunk_pos hinv.fits.chunk_le
  have hsamples : h.flatMap played ++ (s.buffer ++ chunk) ++ chunks.flatten =
      h.flatMap captured := by
    rw [← hexact]
    show _ = h.flatMap played ++ s.buffer ++ (chunk ++ chunks.flatten)
    rw [List.append_assoc, List.append_assoc, List.append_assoc]
  have hlength : (s.buffer ++ chunk).length ≤ 2 * s.internal.queueSizeSamples := by
    rw [List.length_append]
    omega
  unfold State.captureChunk at hturn
  rw [hcall] at hturn
  dsimp only at hturn
  have hcapture := capture_room
    (s := { s with call := .sending (chunk :: chunks), contexts := s.contexts + 1 }) s.contexts
    (rfl : s.internal.queueSizeSamples = _) hpos hinv.fits.threshold hnone hroom hchunk
  rw [hcapture, Option.some.injEq] at hturn
  by_cases hle : (s.buffer ++ chunk).length ≤ s.internal.queueSizeSamples
  · rw [if_pos hle] at hturn
    cases hturn
    refine ⟨hinv.fits, ⟨hnone, hle, hrest⟩, sized_concat hinv.sized trivial, ?_, hlength, ?_⟩
    · rw [List.filterMap_append, hdone]
      show List.range s.contexts ++ [s.contexts] ++ (s.onComplete.bind id).toList =
        List.range (s.contexts + 1)
      rw [hnone, List.range_succ]
      exact List.append_nil _
    · rw [List.flatMap_append, List.flatMap_append]
      show h.flatMap played ++ [] ++ (s.buffer ++ chunk) ++ chunks.flatten =
        h.flatMap captured ++ []
      rw [List.append_nil, List.append_nil]
      exact hsamples
  · rw [if_neg hle] at hturn
    cases hturn
    rw [List.append_nil]
    refine ⟨hinv.fits, ⟨rfl, hrest⟩, hinv.sized, ?_, hlength, hsamples⟩
    rw [hdone]
    exact List.range_succ.symm

/-- The invariant is kept by every step. -/
theorem Inv.step (hinv : Inv h s) {a : Action} (hstep : s.step a = some s') :
    Inv (h ++ record s a) s' := by
  obtain ⟨⟨t, events⟩, hturn, rfl⟩ := Option.map_eq_some_iff.mp hstep
  have hrecord : record s a = events := by
    unfold record
    rw [hturn]
    rfl
  rw [hrecord]
  cases a with
  | captureFrame data =>
    unfold State.turn at hturn
    dsimp only at hturn
    split at hturn
    next hcall =>
      cases hturn
      exact hinv.captureFrame hcall data
    · cases hturn
  | captureChunk =>
    have hchunk : s.captureChunk = some (t, events) := hturn
    cases hcall : s.call with
    | idle | awaiting =>
      unfold State.captureChunk at hchunk
      rw [hcall] at hchunk
      cases hchunk
    | sending chunks =>
      cases chunks with
      | nil =>
        unfold State.captureChunk at hchunk
        rw [hcall] at hchunk
        cases hchunk
        rw [List.append_nil]
        exact hinv.returns hcall
      | cons chunk chunks => exact hinv.captureChunk hcall hchunk
  | drain =>
    cases hturn
    exact hinv.drain

theorem Inv.new {native : NativeAudioSource} {internal : InternalSource}
    (hfits : Fits native internal) : Inv [] (.new native internal) :=
  { fits := hfits
    ready := ⟨rfl, Nat.zero_le _⟩
    sized := fun _ hmem => absurd hmem List.not_mem_nil
    once := rfl
    bounded := Nat.zero_le _
    exact := rfl }

/-! ## The sizes -/

theorem mulU32_eq {overflowChecks : Bool} {a b p : ℕ} (hp : mulU32 overflowChecks a b = some p) :
    p = a * b % 2 ^ 32 := by
  unfold mulU32 at hp
  split at hp
  next hlt =>
    rw [Nat.mod_eq_of_lt hlt]
    exact (Option.some.inj hp).symm
  · split at hp
    · cases hp
    · exact (Option.some.inj hp).symm

theorem new_eq {overflowChecks : Bool} {sampleRate numChannels queueSizeMs : ℕ}
    {native : NativeAudioSource}
    (hnew : NativeAudioSource.new overflowChecks sampleRate numChannels queueSizeMs =
      some native) :
    queueSizeMs % 10 = 0 ∧
      native = ⟨sampleRate, numChannels,
        queueSizeMs * sampleRate * numChannels % 2 ^ 32 / 1000⟩ := by
  unfold NativeAudioSource.new at hnew
  simp only [Option.bind_eq_bind, Option.bind_eq_some_iff, Option.guard_eq_some', Option.pure_def,
    Option.some.injEq] at hnew
  obtain ⟨_, hms, _, -, perSecond, hperSecond, samples, hsamples, rfl⟩ := hnew
  refine ⟨hms, ?_⟩
  rw [mulU32_eq hsamples, mulU32_eq hperSecond, Nat.mod_mul_mod]

/-- Where the double of the queue size is an `int`, the sizes are defined. -/
theorem internal_new (sampleRate numChannels : ℕ) {queueSizeMs : ℕ} (hms : 0 < queueSizeMs)
    (hdiv : queueSizeMs % 10 = 0) :
    InternalSource.new sampleRate numChannels queueSizeMs =
      if 2 * (queueSizeMs / 10 * (sampleRate / 100 * numChannels)) ≤ maxInt then
        some ⟨sampleRate / 100 * numChannels,
          queueSizeMs / 10 * (sampleRate / 100 * numChannels),
          queueSizeMs / 10 * (sampleRate / 100 * numChannels)⟩
      else none := by
  have hten : 1 ≤ queueSizeMs / 10 := by omega
  have hle : sampleRate / 100 * numChannels ≤
      queueSizeMs / 10 * (sampleRate / 100 * numChannels) := Nat.le_mul_of_pos_left _ hten
  unfold InternalSource.new
  rw [if_neg (Nat.ne_of_gt hms)]
  dsimp only
  split
  next hfit =>
    have hsmall : sampleRate / 100 * numChannels ≤ maxInt := by omega
    have hdouble : queueSizeMs / 10 * (sampleRate / 100 * numChannels) +
        queueSizeMs / 10 * (sampleRate / 100 * numChannels) ≤ maxInt := by omega
    unfold guard
    rw [if_pos hsmall, if_pos hdouble]
    rfl
  next hbig =>
    have hdouble : ¬ queueSizeMs / 10 * (sampleRate / 100 * numChannels) +
        queueSizeMs / 10 * (sampleRate / 100 * numChannels) ≤ maxInt := by omega
    unfold guard
    rw [if_neg hdouble]
    split <;> rfl

end LiveKit.AudioSource
