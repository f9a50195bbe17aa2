import LiveKit.Audio.AudioSourceTheorems
import Mathlib.Tactic.Ring

/-!
# When nothing is lost in the buffer

The queue size of `NativeAudioSource` rounds once, at the end, and wraps around with its product;
the one of `InternalSource` rounds the rate to hundreds. They fit together exactly as `Agree` says.
-/

namespace LiveKit.AudioSource

open State List TransitionSystem

variable {s s' t : State} {native : NativeAudioSource} {internal : InternalSource}

/-! ## Sizes that fit -/

theorem lossless_of_fits {queueSizeMs : ℕ} (hfits : Fits native internal)
    (hinternal : InternalSource.new native.sampleRate native.numChannels queueSizeMs =
      some internal) : Lossless native queueSizeMs := by
  refine ⟨internal, hinternal, ?_⟩
  intro run _
  refine always_of_invariant (I := Inv) ?_ ?_ (Inv.new hfits) run
  · intro h s hinv
    exact hinv.kept
  · intro h s a s' hinv hstep
    exact hinv.step hstep

/-! ## Sizes that do not -/

variable {run : List Action}

/-- The first of the steps of a run. -/
theorem runs_cons {a : Action} {events events' : List Event} (hturn : s.turn a = some (s', events))
    (hrest : exec step s' run = some t ∧ trace step record s' run = events') :
    exec step s (a :: run) = some t ∧
      trace step record s (a :: run) = events ++ events' := by
  have hstep : s.step a = some s' := by
    unfold step
    rw [hturn]
    rfl
  have hrecord : record s a = events := by
    unfold record
    rw [hturn]
    rfl
  constructor
  · rw [exec_cons_eq_some]
    exact ⟨s', hstep, hrest.1⟩
  · rw [trace_cons hstep, hrecord, hrest.2]

theorem not_always {events : List Event}
    (hruns : exec step s run = some t ∧ trace step record s run = events)
    (hkept : ¬ Kept events t) : ¬ Always step record Kept s run := by
  intro halways
  have hend := halways run [] t (append_nil run).symm hruns.1
  rw [hruns.2] at hend
  exact hkept hend

section

variable (frame : List Int16)

/-- A frame in the fast path that has not ten milliseconds is refused. -/
theorem not_always_direct (hnative : native.queueSizeSamples = 0)
    (hlong : frame.length / native.numChannels ≠ native.sampleRate / 100) :
    ¬ Always step record Kept (.new native internal) [.captureFrame frame] := by
  have hturn : (new native internal).turn (.captureFrame frame) =
      some ((new native internal).fails.1, [.frame frame, .failed]) := by
    unfold turn captureFrame
    simp [new, fails, hnative, hlong]
  refine not_always (runs_cons hturn ⟨rfl, rfl⟩) ?_
  intro hkept
  exact hkept.noneFails (mem_cons_of_mem _ mem_cons_self)

/-- The loop over the chunks starts with the first. -/
theorem turn_captureFrame (hcall : s.call = .idle) (hnative : 0 < s.native.queueSizeSamples)
    (data : List Int16) :
    s.turn (.captureFrame data) =
      some ({ s with call := .sending (Chunks.chunks s.native.queueSizeSamples data) },
        [.frame data]) := by
  unfold turn
  dsimp only
  rw [hcall]
  dsimp only
  unfold captureFrame
  rw [if_neg (Nat.ne_of_gt hnative)]

/-- The fast path of `InternalSource` forgets the callback that the call waits for. -/
theorem not_always_forgotten (hnative : 0 < native.queueSizeSamples) (hframe : frame ≠ [])
    (hinternal : internal.queueSizeSamples = 0) :
    ¬ Always step record Kept (.new native internal) [.captureFrame frame, .captureChunk] := by
  have hcapture := turn_captureFrame (s := .new native internal) rfl hnative frame
  obtain ⟨rest, hchunks⟩ := Chunks.exists_chunks_eq_cons hframe native.queueSizeSamples
  have hsending : (new native internal).turn (.captureFrame frame) =
      some ({ new native internal with
          call := .sending (frame.take native.queueSizeSamples :: rest) }, [.frame frame]) := by
    rw [hcapture, ← hchunks]
    rfl
  have hchunk : ({ new native internal with
      call := .sending (frame.take native.queueSizeSamples :: rest) } : State).turn
        .captureChunk =
      some ({ new native internal with call := .awaiting 0 rest, contexts := 1 },
        [.direct (frame.take native.queueSizeSamples)]) := by
    unfold turn captureChunk capture
    dsimp only [new]
    rw [if_pos hinternal]
    rfl
  refine not_always (runs_cons hsending (runs_cons hchunk ⟨rfl, rfl⟩)) ?_
  intro hkept
  have honce := hkept.once
  cases honce

/-- After a frame that fills the queue there is no room for a chunk that is larger. -/
theorem not_always_refused (larger : List Int16)
    (hchunk : internal.queueSizeSamples < native.queueSizeSamples)
    (hinternal : 0 < internal.queueSizeSamples)
    (hthreshold : internal.notifyThresholdSamples = internal.queueSizeSamples)
    (hframe : frame.length = internal.queueSizeSamples)
    (hlarger : native.queueSizeSamples ≤ larger.length) :
    ¬ Always step record Kept (.new native internal)
      [.captureFrame frame, .captureChunk, .captureChunk, .captureFrame larger,
        .captureChunk] := by
  have hnative : 0 < native.queueSizeSamples := Nat.lt_of_le_of_lt (Nat.zero_le _) hchunk
  -- the first frame is one chunk, and fills the queue
  have hfirst : (new native internal).turn (.captureFrame frame) =
      some ({ new native internal with call := .sending [frame] }, [.frame frame]) := by
    rw [turn_captureFrame rfl hnative]
    show some (({ new native internal with
      call := .sending (Chunks.chunks native.queueSizeSamples frame) } : State), _) = _
    rw [Chunks.chunks_of_length_le]
    · exact length_pos_iff.mp (hframe ▸ hinternal)
    · exact hframe ▸ Nat.le_of_lt hchunk
  have hfills : ({ new native internal with call := .sending [frame] } : State).turn
      .captureChunk =
      some ({ new native internal with buffer := frame, call := .sending [], contexts := 1 },
        [.completed 0]) := by
    have hfits : ¬ internal.queueSizeSamples + internal.queueSizeSamples <
        internal.queueSizeSamples := by omega
    unfold turn captureChunk capture
    simp [new, hthreshold, Nat.ne_of_gt hinternal, hfits, hframe]
  have hreturns : ({ new native internal with
      buffer := frame, call := .sending [], contexts := 1 } : State).turn .captureChunk =
      some ({ new native internal with buffer := frame, contexts := 1 }, []) := rfl
  -- the first chunk of the second frame is of full size
  obtain ⟨rest, hchunks⟩ := Chunks.exists_chunks_eq_cons
    (length_pos_iff.mp (Nat.lt_of_lt_of_le hnative hlarger)) native.queueSizeSamples
  have hsecond : ({ new native internal with buffer := frame, contexts := 1 } : State).turn
      (.captureFrame larger) =
      some ({ new native internal with
          buffer := frame, contexts := 1,
          call := .sending (larger.take native.queueSizeSamples :: rest) },
        [.frame larger]) := by
    rw [turn_captureFrame rfl hnative, ← hchunks]
    rfl
  have hrefuses : ({ new native internal with
      buffer := frame, contexts := 1,
      call := .sending (larger.take native.queueSizeSamples :: rest) } : State).turn
        .captureChunk =
      some ({ new native internal with buffer := frame, contexts := 2 }, [.failed]) := by
    have hlength : (larger.take native.queueSizeSamples).length = native.queueSizeSamples := by
      rw [length_take]
      exact Nat.min_eq_left hlarger
    unfold turn captureChunk capture
    dsimp only [new]
    have hfull : internal.queueSizeSamples ≤ internal.queueSizeSamples + internal.queueSizeSamples ∧
        internal.queueSizeSamples + internal.queueSizeSamples - internal.queueSizeSamples <
          native.queueSizeSamples := by omega
    rw [hlength, hthreshold, hframe, if_neg (Nat.ne_of_gt hinternal), if_pos hfull]
    rfl
  refine not_always (runs_cons hfirst (runs_cons hfills (runs_cons hreturns
    (runs_cons hsecond (runs_cons hrefuses ⟨rfl, rfl⟩))))) ?_
  intro hkept
  refine hkept.noneFails ?_
  simp

end

/-! ## The exact condition -/

/-- A negative answer on one run of whole samples. -/
theorem not_lossless {queueSizeMs : ℕ}
    (hinternal : InternalSource.new native.sampleRate native.numChannels queueSizeMs =
      some internal) (hwhole : ∀ data, .captureFrame data ∈ run → native.numChannels ∣ data.length)
    (hnot : ¬ Always step record Kept (.new native internal) run) :
    ¬ Lossless native queueSizeMs := by
  intro hlossless
  obtain ⟨internal', hinternal', halways⟩ := hlossless
  rw [hinternal, Option.some.injEq] at hinternal'
  rw [← hinternal'] at halways
  exact hnot (halways run hwhole)

/-- Nothing is lost exactly if the two queue sizes fit together. -/
theorem lossless_iff (overflowChecks : Bool) (sampleRate numChannels queueSizeMs : ℕ)
    (native : NativeAudioSource)
    (hnew : NativeAudioSource.new overflowChecks sampleRate numChannels queueSizeMs = some native)
    (hms : 0 < queueSizeMs) (hchannels : 0 < numChannels) :
    Lossless native queueSizeMs ↔ Agree sampleRate numChannels queueSizeMs := by
  obtain ⟨hdiv, rfl⟩ := new_eq hnew
  have hten : 1 ≤ queueSizeMs / 10 := by omega
  have hinternal := internal_new sampleRate numChannels hms hdiv
  unfold Agree
  generalize hchunk : queueSizeMs * sampleRate * numChannels % 2 ^ 32 / 1000 = chunk
  generalize hqueue : queueSizeMs / 10 * (sampleRate / 100 * numChannels) = queue
  rw [hqueue] at hinternal
  have hdvd : numChannels ∣ queue := by
    rw [← hqueue]
    exact Nat.dvd_mul_left_of_dvd (Nat.dvd_mul_left _ _) _
  by_cases hdouble : 2 * queue ≤ maxInt
  swap
  · -- the queue size of the other side is not an `int`
    rw [if_neg hdouble] at hinternal
    constructor
    · intro hlossless
      obtain ⟨internal, hsome, -⟩ := hlossless
      rw [hinternal] at hsome
      cases hsome
    · intro hagree
      exact absurd hagree.2.2 hdouble
  rw [if_pos hdouble] at hinternal
  constructor
  · intro hlossless
    by_contra hagree
    by_cases hzero : chunk = 0
    · -- a frame of one sample more than ten milliseconds
      have hlength : (List.replicate ((sampleRate / 100 + 1) * numChannels) (0 : Int16)).length =
          (sampleRate / 100 + 1) * numChannels := length_replicate
      refine not_lossless hinternal ?_
        (not_always_direct (List.replicate ((sampleRate / 100 + 1) * numChannels) 0) hzero ?_)
        hlossless
      · intro data hmem
        rw [mem_singleton, Action.captureFrame.injEq] at hmem
        rw [hmem, hlength]
        exact Nat.dvd_mul_left _ _
      · rw [hlength, Nat.mul_div_cancel _ hchannels]
        exact Nat.succ_ne_self _
    · have hpos : 0 < chunk := Nat.pos_of_ne_zero hzero
      by_cases hempty : queue = 0
      · -- a frame of one sample
        have hlength : (List.replicate numChannels (0 : Int16)).length = numChannels :=
          length_replicate
        refine not_lossless hinternal ?_
          (not_always_forgotten _ hpos (length_pos_iff.mp (hlength ▸ hchannels)) hempty) hlossless
        intro data hmem
        rw [mem_cons, mem_singleton, Action.captureFrame.injEq] at hmem
        cases hmem with
        | inl hframe =>
          rw [hframe, hlength]
        | inr hother => cases hother
      · have hlt : queue < chunk := by omega
        refine not_lossless hinternal ?_
          (not_always_refused (List.replicate queue 0) (List.replicate (chunk * numChannels) 0)
            hlt (Nat.pos_of_ne_zero hempty) rfl length_replicate ?_) hlossless
        · intro data hmem
          simp only [mem_cons, Action.captureFrame.injEq, reduceCtorEq, not_mem_nil,
            false_or, or_false] at hmem
          cases hmem with
          | inl hfirst =>
            rw [hfirst, length_replicate]
            exact hdvd
          | inr hsecond =>
            rw [hsecond, length_replicate]
            exact Nat.dvd_mul_left _ _
        · rw [length_replicate]
          exact Nat.le_mul_of_pos_right _ hchannels
  · intro hagree
    have hsamples : sampleRate / 100 * numChannels ≤ queue := by
      rw [← hqueue]
      exact Nat.le_mul_of_pos_left _ hten
    have hsamples_pos : 0 < sampleRate / 100 * numChannels := by
      by_contra hnot
      have hnone : sampleRate / 100 * numChannels = 0 := by omega
      rw [hnone, Nat.mul_zero] at hqueue
      omega
    exact lossless_of_fits ⟨hsamples_pos, hsamples, rfl, hagree.1, hagree.2.1⟩ hinternal

/-- At 48000 Hz nothing is lost. -/
theorem lossless_at_48000 : Lossless ⟨48000, 2, 9600⟩ 100 :=
  (lossless_iff true 48000 2 100 ⟨48000, 2, 9600⟩ rfl (by decide) (by decide)).mpr (by decide)

/-- At 22050 Hz a frame of a second is refused after a full queue. -/
theorem refused_at_22050 :
    NativeAudioSource.new true 22050 1 1000 = some ⟨22050, 1, 22050⟩ ∧
      ¬ Lossless ⟨22050, 1, 22050⟩ 1000 := by
  have hinternal : InternalSource.new 22050 1 1000 = some ⟨220, 22000, 22000⟩ := rfl
  refine ⟨rfl, not_lossless hinternal ?_
    (not_always_refused (List.replicate 22000 0) (List.replicate 22050 0) (by decide) (by decide)
      rfl length_replicate (Nat.le_of_eq length_replicate.symm))⟩
  intro data _
  exact Nat.one_dvd _

end LiveKit.AudioSource
