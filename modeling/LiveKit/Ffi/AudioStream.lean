import LiveKit.Room.Options

/-!
# Audio frames of a requested size

`native_audio_stream_task` of `server/audio_stream.rs` collects the samples of the frames of a
native stream and sends them on in frames of the size that was requested. The size is an integer
quotient of numbers of the client. A `usize` has 64 bits here.
-/

namespace LiveKit.AudioStream

open List
open LiveKit.Options.screenshare (checkedMul)

structure AudioFrame where
  data : List Int16
  sampleRate : UInt32
  numChannels : UInt32
  samplesPerChannel : UInt32

/-- What becomes of the task. -/
inductive Outcome where
  /-- It waits for the next frame; these were sent and these samples are kept. -/
  | done (sent : List AudioFrame) (buf : List Int16)
  | panicked
  /-- It has not come to an end of the loop. -/
  | running

/-- After these frames were sent. -/
def Outcome.after (sent : List AudioFrame) : Outcome → Outcome
  | .done sent' buf => .done (sent ++ sent') buf
  | .panicked => .panicked
  | .running => .running

/-- `target_samples` -/
def targetSamples (overflowChecks : Bool) (frameSizeMs sampleRate numChannels : UInt32) :
    Option UInt64 := do
  let product ← checkedMul overflowChecks sampleRate.toUInt64 frameSizeMs.toUInt64
  checkedMul overflowChecks (product / 1000) numChannels.toUInt64

/-- The inner loop, for as many turns as there is fuel. -/
def drainBuf (target : UInt64) (sampleRate numChannels : UInt32) : ℕ → List Int16 → Outcome
  | 0, _ => .running
  | fuel + 1, buf =>
    if target.toNat ≤ buf.length then
      -- a division by zero panics
      if numChannels = 0 then .panicked
      else
        (drainBuf target sampleRate numChannels fuel (buf.drop target.toNat)).after
          [⟨buf.take target.toNat, sampleRate, numChannels, target.toUInt32 / numChannels⟩]
    else .done [] buf

/-- The outer loop, over the frames of the native stream. -/
def takeFrames (target : UInt64) (sampleRate numChannels : UInt32) (fuel : ℕ) :
    List AudioFrame → List Int16 → Outcome
  | [], buf => .done [] buf
  | frame :: frames, buf =>
    match drainBuf target sampleRate numChannels fuel (buf ++ frame.data) with
    | .done sent buf' => (takeFrames target sampleRate numChannels fuel frames buf').after sent
    | .panicked => .panicked
    | .running => .running

/-- `native_audio_stream_task` with the frames that come; if no size is requested, they are sent as
they are. -/
def nativeAudioStreamTask (overflowChecks : Bool) (frameSizeMs : Option UInt32)
    (sampleRate numChannels : UInt32) (fuel : ℕ) (frames : List AudioFrame) : Outcome :=
  match frameSizeMs with
  | none => .done frames []
  | some frameSizeMs =>
    match targetSamples overflowChecks frameSizeMs sampleRate numChannels with
    | none => .panicked
    | some target => takeFrames target sampleRate numChannels fuel frames []

/-! ## What is promised -/

/-- The samples of a channel in a frame of the requested size. -/
def samplesPerChannel (frameSizeMs sampleRate : UInt32) : ℕ :=
  sampleRate.toNat * frameSizeMs.toNat / 1000

def samplesPerFrame (frameSizeMs sampleRate numChannels : UInt32) : ℕ :=
  samplesPerChannel frameSizeMs sampleRate * numChannels.toNat

/-- The frame has the rate and the channels of the stream, and as many samples as it says. -/
def AudioFrame.Of (sampleRate numChannels : UInt32) (frame : AudioFrame) : Prop :=
  frame.sampleRate = sampleRate ∧ frame.numChannels = numChannels ∧
    frame.data.length = frame.samplesPerChannel.toNat * numChannels.toNat

structure Exact (frameSizeMs sampleRate numChannels : UInt32) (frames sent : List AudioFrame)
    (buf : List Int16) : Prop where
  sizes : ∀ frame ∈ sent, frame.Of sampleRate numChannels ∧
    frame.samplesPerChannel.toNat = samplesPerChannel frameSizeMs sampleRate
  rest : buf.length < samplesPerFrame frameSizeMs sampleRate numChannels
  samples : sent.flatMap AudioFrame.data ++ buf = frames.flatMap AudioFrame.data

/-- Whatever frames come, the task waits for the next in the end, and has cut them exactly. -/
def Rechunks (overflowChecks : Bool) (frameSizeMs sampleRate numChannels : UInt32) : Prop :=
  ∀ frames : List AudioFrame, (∀ frame ∈ frames, frame.Of sampleRate numChannels) →
    ∃ fuel sent buf, nativeAudioStreamTask overflowChecks (some frameSizeMs) sampleRate numChannels
      fuel frames = .done sent buf ∧ Exact frameSizeMs sampleRate numChannels frames sent buf

/-! ## The loops -/

variable {target : UInt64} {frameSizeMs sampleRate numChannels : UInt32} {fuel : ℕ}
  {frames sent : List AudioFrame} {buf rest : List Int16}

/-- A frame that the inner loop has cut. -/
def Cut (target : UInt64) (sampleRate numChannels : UInt32) (frame : AudioFrame) : Prop :=
  frame.sampleRate = sampleRate ∧ frame.numChannels = numChannels ∧
    frame.data.length = target.toNat ∧ frame.samplesPerChannel = target.toUInt32 / numChannels

theorem after_eq_done {outcome : Outcome} (hdone : outcome.after frames = .done sent buf) :
    ∃ sent', outcome = .done sent' buf ∧ sent = frames ++ sent' := by
  cases outcome with
  | done sent' buf' =>
    cases hdone
    exact ⟨sent', rfl, rfl⟩
  | panicked | running => cases hdone

/-- What the inner loop sends if it comes to an end. -/
theorem drainBuf_done (hdone : drainBuf target sampleRate numChannels fuel buf = .done sent rest) :
    (∀ frame ∈ sent, Cut target sampleRate numChannels frame) ∧ rest.length < target.toNat ∧
      sent.flatMap AudioFrame.data ++ rest = buf := by
  induction fuel generalizing buf sent with
  | zero => cases hdone
  | succ fuel ih =>
    unfold drainBuf at hdone
    split at hdone
    next hfull =>
      split at hdone
      · cases hdone
      · obtain ⟨sent', hrest, rfl⟩ := after_eq_done hdone
        obtain ⟨hcut, hshort, hsamples⟩ := ih hrest
        refine ⟨?_, hshort, ?_⟩
        · intro frame hframe
          rw [singleton_append, mem_cons] at hframe
          cases hframe with
          | inl hfirst =>
            rw [hfirst]
            refine ⟨rfl, rfl, ?_, rfl⟩
            show (buf.take target.toNat).length = target.toNat
            rw [length_take]
            exact Nat.min_eq_left hfull
          | inr hlater => exact hcut frame hlater
        · rw [singleton_append, flatMap_cons, append_assoc, hsamples]
          exact take_append_drop target.toNat buf
    next hshort =>
      cases hdone
      exact ⟨fun _ hframe => absurd hframe not_mem_nil, Nat.lt_of_not_le hshort, rfl⟩

/-- It does, if frames are not empty and there is a channel. -/
theorem drainBuf_ends (sampleRate : UInt32) (htarget : 0 < target.toNat)
    (hchannels : numChannels ≠ 0) (hfuel : buf.length < fuel) :
    ∃ sent rest, drainBuf target sampleRate numChannels fuel buf = .done sent rest := by
  induction fuel generalizing buf with
  | zero => exact absurd hfuel (Nat.not_lt_zero _)
  | succ fuel ih =>
    unfold drainBuf
    rw [if_neg hchannels]
    split
    next hfull =>
      have hless : (buf.drop target.toNat).length < fuel := by
        rw [length_drop]
        omega
      obtain ⟨sent, rest, hrest⟩ := ih hless
      rw [hrest]
      exact ⟨_, rest, rfl⟩
    next hshort => exact ⟨[], buf, rfl⟩

theorem takeFrames_done
    (hdone : takeFrames target sampleRate numChannels fuel frames buf = .done sent rest) :
    (∀ frame ∈ sent, Cut target sampleRate numChannels frame) ∧
      (buf.length < target.toNat → rest.length < target.toNat) ∧
      sent.flatMap AudioFrame.data ++ rest = buf ++ frames.flatMap AudioFrame.data := by
  induction frames generalizing buf sent with
  | nil =>
    cases hdone
    exact ⟨fun _ hframe => absurd hframe not_mem_nil, id, (append_nil _).symm⟩
  | cons frame frames ih =>
    unfold takeFrames at hdone
    split at hdone
    next sent' buf' hdrain =>
      obtain ⟨sent'', htake, rfl⟩ := after_eq_done hdone
      obtain ⟨hcut, hshort, hsamples⟩ := drainBuf_done hdrain
      obtain ⟨hcut', hshort', hsamples'⟩ := ih htake
      refine ⟨?_, fun _ => hshort' hshort, ?_⟩
      · intro frame hframe
        rw [mem_append] at hframe
        cases hframe with
        | inl hfirst => exact hcut frame hfirst
        | inr hlater => exact hcut' frame hlater
      · rw [flatMap_append, append_assoc, hsamples', flatMap_cons,
          ← append_assoc, hsamples, append_assoc]
    · cases hdone
    · cases hdone

theorem takeFrames_ends (sampleRate : UInt32) (htarget : 0 < target.toNat)
    (hchannels : numChannels ≠ 0) (hfuel : (buf ++ frames.flatMap AudioFrame.data).length < fuel) :
    ∃ sent rest, takeFrames target sampleRate numChannels fuel frames buf = .done sent rest := by
  induction frames generalizing buf with
  | nil => exact ⟨[], buf, rfl⟩
  | cons frame frames ih =>
    rw [flatMap_cons, length_append, length_append] at hfuel
    have hfirst : (buf ++ frame.data).length < fuel := by
      rw [length_append]
      omega
    obtain ⟨sent, buf', hdrain⟩ := drainBuf_ends sampleRate htarget hchannels hfirst
    have hshorter : buf'.length ≤ (buf ++ frame.data).length := by
      rw [← (drainBuf_done hdrain).2.2, length_append]
      omega
    have hlater : (buf' ++ frames.flatMap AudioFrame.data).length < fuel := by
      rw [length_append] at hshorter ⊢
      omega
    obtain ⟨sent', rest, htake⟩ := ih hlater
    unfold takeFrames
    rw [hdrain]
    dsimp only
    rw [htake]
    exact ⟨_, rest, rfl⟩

/-! ## The exact condition -/

/-- The target of frames that are not too large. -/
theorem targetSamples_of_lt (overflowChecks : Bool)
    (hlt : samplesPerFrame frameSizeMs sampleRate numChannels < 2 ^ 32) :
    ∃ target, targetSamples overflowChecks frameSizeMs sampleRate numChannels = some target ∧
      target.toNat = samplesPerFrame frameSizeMs sampleRate numChannels := by
  have hfirst : sampleRate.toUInt64.toNat * frameSizeMs.toUInt64.toNat < 2 ^ 64 := by
    have hrate := sampleRate.toNat_lt
    have hms := frameSizeMs.toNat_lt
    rw [UInt32.toNat_toUInt64, UInt32.toNat_toUInt64]
    calc sampleRate.toNat * frameSizeMs.toNat
        ≤ (2 ^ 32 - 1) * (2 ^ 32 - 1) := Nat.mul_le_mul (by omega) (by omega)
      _ < 2 ^ 64 := by decide
  have hproduct : (sampleRate.toUInt64 * frameSizeMs.toUInt64).toNat =
      sampleRate.toNat * frameSizeMs.toNat := by
    rw [UInt64.toNat_mul, Nat.mod_eq_of_lt hfirst, UInt32.toNat_toUInt64, UInt32.toNat_toUInt64]
  have hquotient : (sampleRate.toUInt64 * frameSizeMs.toUInt64 / 1000).toNat =
      samplesPerChannel frameSizeMs sampleRate := by
    rw [UInt64.toNat_div, hproduct]
    rfl
  have hsecond : (sampleRate.toUInt64 * frameSizeMs.toUInt64 / 1000).toNat *
      numChannels.toUInt64.toNat = samplesPerFrame frameSizeMs sampleRate numChannels := by
    rw [hquotient, UInt32.toNat_toUInt64]
    rfl
  refine ⟨sampleRate.toUInt64 * frameSizeMs.toUInt64 / 1000 * numChannels.toUInt64, ?_, ?_⟩
  · unfold targetSamples checkedMul
    rw [if_neg (fun hover => absurd hfirst (Nat.not_lt_of_le hover.2))]
    show (if _ then none else some _) = _
    rw [if_neg]
    rintro ⟨-, hover⟩
    rw [hsecond] at hover
    omega
  · rw [UInt64.toNat_mul, hsecond]
    exact Nat.mod_eq_of_lt (by omega)

/-- The frames are exact as long as a frame has a sample, and fewer than 2^32. -/
theorem rechunks_iff (overflowChecks : Bool) (frameSizeMs sampleRate numChannels : UInt32) :
    Rechunks overflowChecks frameSizeMs sampleRate numChannels ↔
      0 < samplesPerFrame frameSizeMs sampleRate numChannels ∧
        samplesPerFrame frameSizeMs sampleRate numChannels < 2 ^ 32 := by
  constructor
  · intro hrechunks
    obtain ⟨_, _, buf, -, hnothing⟩ := hrechunks [] fun _ hframe => absurd hframe not_mem_nil
    have hpos : 0 < samplesPerFrame frameSizeMs sampleRate numChannels :=
      Nat.lt_of_le_of_lt (Nat.zero_le _) hnothing.rest
    refine ⟨hpos, ?_⟩
    -- frames of one sample in a channel, as many as one frame has
    obtain ⟨fuel, sent, buf, hdone, hexact⟩ := hrechunks
      (List.replicate (samplesPerChannel frameSizeMs sampleRate)
        ⟨List.replicate numChannels.toNat 0, sampleRate, numChannels, 1⟩) (by
        intro frame hframe
        rw [eq_of_mem_replicate hframe]
        refine ⟨rfl, rfl, ?_⟩
        rw [length_replicate]
        exact (Nat.one_mul _).symm)
    have hlength := congrArg List.length hexact.samples
    rw [length_append, length_flatMap, length_flatMap, map_replicate,
      sum_replicate_nat, length_replicate] at hlength
    have hrest := hexact.rest
    unfold samplesPerFrame at hrest hpos ⊢
    cases sent with
    | nil =>
      rw [map_nil, sum_nil] at hlength
      omega
    | cons frame sent =>
      obtain ⟨⟨-, -, hdata⟩, hsamples⟩ := hexact.sizes frame mem_cons_self
      unfold nativeAudioStreamTask at hdone
      dsimp only at hdone
      split at hdone
      · cases hdone
      next target htarget =>
        obtain ⟨-, -, hcut, hcut'⟩ := (takeFrames_done hdone).1 frame mem_cons_self
        have hper : frame.samplesPerChannel.toNat =
            target.toNat % 2 ^ 32 / numChannels.toNat := by
          rw [hcut', UInt32.toNat_div, UInt64.toNat_toUInt32]
        rw [hcut] at hdata
        have hle : target.toNat ≤ target.toNat % 2 ^ 32 := by
          calc target.toNat = frame.samplesPerChannel.toNat * numChannels.toNat := hdata
            _ = target.toNat % 2 ^ 32 / numChannels.toNat * numChannels.toNat := by rw [hper]
            _ ≤ target.toNat % 2 ^ 32 := Nat.div_mul_le_self _ _
        rw [hsamples] at hdata
        have hmod := Nat.mod_lt target.toNat (show 0 < 2 ^ 32 by decide)
        omega
  · rintro ⟨hpos, hlt⟩ frames hframes
    obtain ⟨target, htarget, hvalue⟩ := targetSamples_of_lt overflowChecks hlt
    have hchannels : numChannels ≠ 0 := by
      rintro rfl
      exact absurd hpos (Nat.lt_irrefl 0)
    have hchannels_pos : 0 < numChannels.toNat := by
      rw [Nat.pos_iff_ne_zero, Ne, ← UInt32.toNat_zero, UInt32.toNat_inj]
      exact hchannels
    rw [← hvalue] at hpos
    have hfuel : ([] ++ frames.flatMap AudioFrame.data).length <
        (frames.flatMap AudioFrame.data).length + 1 := Nat.lt_succ_self _
    obtain ⟨sent, buf, hdone⟩ :=
      takeFrames_ends sampleRate hpos hchannels hfuel
    obtain ⟨hcut, hrest, hsamples⟩ := takeFrames_done hdone
    refine ⟨(frames.flatMap AudioFrame.data).length + 1, sent, buf, ?_, ?_, ?_, hsamples⟩
    · show (match targetSamples overflowChecks frameSizeMs sampleRate numChannels with
        | none => _ | some target => _) = _
      rw [htarget]
      exact hdone
    · intro frame hframe
      obtain ⟨hrate, hchannel, hlength, hper⟩ := hcut frame hframe
      have hsize : frame.samplesPerChannel.toNat = samplesPerChannel frameSizeMs sampleRate := by
        rw [hper, UInt32.toNat_div, UInt64.toNat_toUInt32, hvalue, Nat.mod_eq_of_lt hlt]
        exact Nat.mul_div_cancel _ hchannels_pos
      refine ⟨⟨hrate, hchannel, ?_⟩, hsize⟩
      rw [hlength, hvalue, hsize]
      rfl
    · rw [← hvalue]
      exact hrest hpos

/-- Frames without a sample are cut for ever. -/
theorem drainBuf_endless (hchannels : numChannels ≠ 0) (fuel : ℕ) (buf : List Int16) :
    drainBuf 0 sampleRate numChannels fuel buf = .running := by
  induction fuel generalizing buf with
  | zero => rfl
  | succ fuel ih =>
    have hfull : (0 : UInt64).toNat ≤ buf.length := Nat.zero_le _
    unfold drainBuf
    rw [if_pos hfull, if_neg hchannels, ih]
    rfl

/-- A frame of no time is requested, and after the first frame that comes the loop does not end. -/
theorem rechunks_never_ends :
    (∀ fuel, nativeAudioStreamTask true (some 0) 48000 1 fuel [⟨[0], 48000, 1, 1⟩] = .running) ∧
      ¬ Rechunks true 0 48000 1 := by
  have hendless : ∀ fuel, nativeAudioStreamTask true (some 0) 48000 1 fuel
      [⟨[0], 48000, 1, 1⟩] = .running := by
    intro fuel
    show takeFrames 0 48000 1 fuel [⟨[0], 48000, 1, 1⟩] [] = .running
    unfold takeFrames
    rw [drainBuf_endless (by decide)]
  refine ⟨hendless, ?_⟩
  intro hrechunks
  obtain ⟨fuel, _, _, hdone, -⟩ := hrechunks [⟨[0], 48000, 1, 1⟩] (by
    intro frame hframe
    rw [mem_singleton.mp hframe]
    exact ⟨rfl, rfl, rfl⟩)
  rw [hendless] at hdone
  cases hdone

end LiveKit.AudioStream
