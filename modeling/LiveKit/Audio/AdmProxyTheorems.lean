import LiveKit.Audio.AdmProxy

/-!
# Who plays and records

Only one device plays. Recording is not started when it becomes available after WebRTC has asked
for it: `StartRecording` forgets that it was called, and a switch that stops recording does as well.
-/

namespace LiveKit.AdmProxy

open State TransitionSystem

/-! ## What is promised -/

/-- The last call of WebRTC is `StartRecording`, with success. -/
def Started (records : List Record) : Prop := records.getLast? = some (.startRecording 0)

instance (records : List Record) : Decidable (Started records) :=
  inferInstanceAs (Decidable (_ = _))

structure Tracks (records : List Record) (s : State) : Prop where
  /-- Only the chosen device plays. -/
  playout : s.reportsPlaying = true →
    s.platformPlaying = s.isPlatformPlayoutActive ∧
      s.syntheticAdm.playing = !s.isPlatformPlayoutActive
  recording : Started records → s.recordingEnabled = true → 0 < s.platformAdmRefCount →
    s.platformRecording = true

/-! ## The condition -/

/-- The step makes recording available. -/
def State.Enables (s : State) : Action → Prop
  | .acquirePlatformAdm =>
    s.platformAdm.isSome = true ∧ s.platformAdmRefCount = 0 ∧ s.recordingEnabled = true
  | .setRecordingEnabled enabled =>
    enabled = true ∧ s.recordingEnabled = false ∧ 0 < s.platformAdmRefCount
  | _ => False

instance (s : State) : DecidablePred s.Enables
  | .acquirePlatformAdm => inferInstanceAs (Decidable (_ ∧ _ ∧ _))
  | .setRecordingEnabled _ => inferInstanceAs (Decidable (_ ∧ _ ∧ _))
  | .releasePlatformAdm | .setPlayoutEnabled _ | .initPlayout | .startPlayout | .stopPlayout
  | .initRecording | .startRecording | .stopRecording | .setAvailable _ _ => isFalse id

/-- Recording does not become available after WebRTC has started it. -/
def EnablesFirst (records : List Record) (s : State) (a : Action) (_ : State) : Prop :=
  s.Enables a → ¬ Started records

/-! ## The devices -/

/-- All that the playout depends on. -/
structure SamePlayout (s s' : State) : Prop where
  playing : s'.playing = s.playing
  active : s'.isPlatformPlayoutActive = s.isPlatformPlayoutActive
  platform : s'.platformPlaying = s.platformPlaying
  synthetic : s'.syntheticAdm = s.syntheticAdm

/-- All that the recording depends on. -/
structure SameRecording (s s' : State) : Prop where
  recording : s'.recording = s.recording
  available : s'.platformAdm.isSome = s.platformAdm.isSome
  refCount : s'.platformAdmRefCount = s.platformAdmRefCount
  enabled : s'.recordingEnabled = s.recordingEnabled
  platform : s'.platformRecording = s.platformRecording

theorem SamePlayout.trans {r s t : State} (h₁ : SamePlayout r s) (h₂ : SamePlayout s t) :
    SamePlayout r t :=
  ⟨h₂.playing.trans h₁.playing, h₂.active.trans h₁.active, h₂.platform.trans h₁.platform,
    h₂.synthetic.trans h₁.synthetic⟩

theorem SameRecording.trans {r s t : State} (h₁ : SameRecording r s) (h₂ : SameRecording s t) :
    SameRecording r t :=
  ⟨h₂.recording.trans h₁.recording, h₂.available.trans h₁.available,
    h₂.refCount.trans h₁.refCount, h₂.enabled.trans h₁.enabled, h₂.platform.trans h₁.platform⟩

/-- Whatever is done to the line for recording leaves playout alone. -/
theorem samePlayout_onRecording (s : State) (f : Line → Line) :
    SamePlayout s (s.onRecording f) := by
  unfold onRecording
  constructor
  · rfl
  · unfold isPlatformPlayoutActive
    cases s.platformAdm <;> rfl
  · unfold platformPlaying
    cases s.platformAdm <;> rfl
  · rfl

/-- Whatever is done to the line for playout leaves recording alone. -/
theorem sameRecording_onPlayout (s : State) (f : Line → Line) :
    SameRecording s (s.onPlayout f) := by
  unfold onPlayout
  constructor
  · rfl
  · cases s.platformAdm <;> rfl
  · rfl
  · rfl
  · unfold platformRecording
    cases s.platformAdm <;> rfl

/-- Which module plays does not depend on the line for playout. -/
theorem isPlatformPlayoutActive_onPlayout (s : State) (f : Line → Line) :
    (s.onPlayout f).isPlatformPlayoutActive = s.isPlatformPlayoutActive := by
  unfold isPlatformPlayoutActive onPlayout
  cases s.platformAdm <;> rfl

theorem isPlatformPlayoutActive_setSynthetic (s : State) (playing : Bool) :
    (s.setSynthetic playing).isPlatformPlayoutActive = s.isPlatformPlayoutActive := rfl

/-- There is nothing to record with unless the platform module is acquired and recording enabled. -/
theorem recordingAdm_eq_none_iff (s : State)
    (h : 0 < s.platformAdmRefCount → s.platformAdm.isSome) :
    s.recordingAdm = none ↔ ¬ (0 < s.platformAdmRefCount ∧ s.recordingEnabled = true) := by
  unfold recordingAdm
  split
  · next havailable =>
    have hsome := h havailable.1
    constructor
    · intro hnone
      rw [hnone] at hsome
      cases hsome
    · intro hnot
      exact absurd havailable hnot
  · next hnot => exact ⟨fun _ => hnot, fun _ => rfl⟩

/-- Where a device does not run, it is left alone or stopped. -/
theorem platformRecording_stop (s : State) :
    (s.onRecording fun line => line.stop.1).platformRecording = false := by
  unfold platformRecording onRecording
  cases s.platformAdm <;> rfl

/-- A line that was stopped does not play. -/
theorem platformPlaying_stop (s : State) :
    (s.onPlayout fun line => line.stop.1).platformPlaying = false := by
  unfold platformPlaying onPlayout
  cases s.platformAdm <;> rfl

/-! ## Playout -/

/-- A device that plays is the chosen one, and was asked to. -/
structure Playout (s : State) : Prop where
  synthetic : s.syntheticAdm.playing = true → s.playing = true ∧ s.isPlatformPlayoutActive = false
  platform : s.platformPlaying = true → s.playing = true ∧ s.isPlatformPlayoutActive = true

variable {s s' : State}

/-- A step that leaves playout alone keeps its invariant. -/
theorem Playout.of_same (h : Playout s) (hsame : SamePlayout s s') : Playout s' := by
  constructor
  · rw [hsame.synthetic, hsame.playing, hsame.active]
    exact h.synthetic
  · rw [hsame.platform, hsame.playing, hsame.active]
    exact h.platform

variable {s : State}

/-- What the playout is switched to may have changed. -/
theorem playout_switch (hsynthetic : s.syntheticAdm.playing = true → s.playing = true)
    (hplatform : s.platformPlaying = true → s.playing = true) :
    Playout s.switchPlayoutModeIfNeeded := by
  unfold switchPlayoutModeIfNeeded
  split
  · next hidle => exact ⟨fun h => absurd (hsynthetic h) hidle, fun h => absurd (hplatform h) hidle⟩
  · next hplaying =>
    rw [not_not] at hplaying
    split
    · next hactive =>
      -- each device is stopped before the other one is started
      constructor
      · intro h
        cases h
      · intro _
        rw [isPlatformPlayoutActive_onPlayout]
        exact ⟨hplaying, hactive⟩
    · next hnot =>
      constructor
      · intro _
        rw [isPlatformPlayoutActive_setSynthetic, isPlatformPlayoutActive_onPlayout]
        exact ⟨hplaying, eq_false_of_ne_true hnot⟩
      · intro h
        have hstopped := platformPlaying_stop s
        exact absurd (hstopped.symm.trans h) (by decide)

/-- Switching the module that plays leaves recording alone. -/
theorem sameRecording_switchPlayout (s : State) : SameRecording s s.switchPlayoutModeIfNeeded := by
  have hsynthetic : ∀ (s : State) (playing : Bool), SameRecording s (s.setSynthetic playing) :=
    fun _ _ => ⟨rfl, rfl, rfl, rfl, rfl⟩
  unfold switchPlayoutModeIfNeeded
  split
  · exact ⟨rfl, rfl, rfl, rfl, rfl⟩
  · split
    · exact (hsynthetic s false).trans (sameRecording_onPlayout _ _)
    · exact (sameRecording_onPlayout s _).trans (hsynthetic _ true)

/-- `StartPlayout` starts the line of the active module, or the synthetic one, and keeps the
invariant. -/
theorem Playout.startPlayout (h : Playout s) : Playout s.startPlayout.1 := by
  unfold State.startPlayout
  simp only
  split
  · next hactive =>
    split
    · constructor
      · intro hsynthetic
        have hbefore := (h.synthetic hsynthetic).2
        exact absurd (hbefore.symm.trans hactive) (by decide)
      · intro _
        rw [isPlatformPlayoutActive_onPlayout]
        exact ⟨rfl, hactive⟩
    · exact ⟨fun hsynthetic => ⟨rfl, (h.synthetic hsynthetic).2⟩,
        fun hplatform => ⟨rfl, (h.platform hplatform).2⟩⟩
  · next hnot =>
    constructor
    · intro _
      exact ⟨rfl, eq_false_of_ne_true hnot⟩
    · intro hplatform
      exact absurd (h.platform hplatform).2 hnot

/-- Nothing plays after `StopPlayout`, as the invariant says. -/
theorem Playout.stopPlayout (s : State) : Playout s.stopPlayout.1 := by
  constructor
  · intro hsynthetic
    cases hsynthetic
  · intro hplatform
    have hstopped := platformPlaying_stop ({ s with playing := false }.setSynthetic false)
    exact absurd (hstopped.symm.trans hplatform) (by decide)

/-- `InitPlayout` starts no device. -/
theorem samePlayout_initPlayout (s : State) : SamePlayout s s.initPlayout.1 := by
  unfold initPlayout
  split
  · cases hadm : s.platformAdm with
    | none => exact ⟨rfl, rfl, rfl, rfl⟩
    | some adm =>
      refine ⟨rfl, ?_, ?_, rfl⟩
      · exact isPlatformPlayoutActive_onPlayout s fun line => line.init.1
      · unfold platformPlaying
        rw [hadm]
        show ((s.onPlayout fun line => line.init.1).platformAdm.any
          fun adm => adm.playout.running) = _
        unfold onPlayout
        rw [hadm]
        rfl
  · exact ⟨rfl, rfl, rfl, rfl⟩

/-- The calls for playout leave recording alone. -/
theorem sameRecording_playout (s : State) :
    SameRecording s s.initPlayout.1 ∧ SameRecording s s.startPlayout.1 ∧
      SameRecording s s.stopPlayout.1 := by
  refine ⟨?_, ?_, ?_⟩
  · unfold initPlayout
    split
    · split
      · have hsame := sameRecording_onPlayout s fun line => line.init.1
        exact ⟨hsame.recording, hsame.available, hsame.refCount, hsame.enabled, hsame.platform⟩
      · exact ⟨rfl, rfl, rfl, rfl, rfl⟩
    · exact ⟨rfl, rfl, rfl, rfl, rfl⟩
  · unfold startPlayout
    simp only
    split
    · split
      · have hsame := sameRecording_onPlayout { s with playing := true } fun line => line.start.1
        exact ⟨hsame.recording, hsame.available, hsame.refCount, hsame.enabled, hsame.platform⟩
      · exact ⟨rfl, rfl, rfl, rfl, rfl⟩
    · exact ⟨rfl, rfl, rfl, rfl, rfl⟩
  · have hsame := sameRecording_onPlayout ({ s with playing := false }.setSynthetic false)
      fun line => line.stop.1
    exact ⟨hsame.recording, hsame.available, hsame.refCount, hsame.enabled, hsame.platform⟩

/-! ## Recording -/

/-- A device that records was asked to, and recording is available as long as it was. -/
structure Recording (s : State) : Prop where
  available : 0 < s.platformAdmRefCount → s.platformAdm.isSome = true
  recording : s.recording = true → 0 < s.platformAdmRefCount ∧ s.recordingEnabled = true
  platform : s.platformRecording = true → s.recording = true

/-- A step that leaves recording alone keeps its invariant. -/
theorem Recording.of_same (h : Recording s) (hsame : SameRecording s s') :
    Recording s' := by
  constructor
  · rw [hsame.refCount, hsame.available]
    exact h.available
  · rw [hsame.recording, hsame.refCount, hsame.enabled]
    exact h.recording
  · rw [hsame.platform, hsame.recording]
    exact h.platform

/-- Switching the module that records leaves playout alone. -/
theorem samePlayout_switchRecording (s : State) : SamePlayout s s.switchRecordingAdmIfNeeded := by
  unfold switchRecordingAdmIfNeeded
  split
  · exact ⟨rfl, rfl, rfl, rfl⟩
  · simp only
    split
    · exact (samePlayout_onRecording s _).trans (samePlayout_onRecording _ _)
    · have hsame := samePlayout_onRecording s fun line => line.stop.1
      exact ⟨hsame.playing, hsame.active, hsame.platform, hsame.synthetic⟩

/-- Switching the module that records changes neither the count nor the switch. -/
theorem switchRecording_flags (s : State) :
    s.switchRecordingAdmIfNeeded.platformAdmRefCount = s.platformAdmRefCount ∧
      s.switchRecordingAdmIfNeeded.recordingEnabled = s.recordingEnabled := by
  unfold switchRecordingAdmIfNeeded
  split
  · exact ⟨rfl, rfl⟩
  · simp only
    split <;> exact ⟨rfl, rfl⟩

/-- There is nothing to switch where nobody records. -/
theorem switchRecording_idle (h : s.recording = false) :
    s.switchRecordingAdmIfNeeded = s := by
  unfold switchRecordingAdmIfNeeded
  rw [if_pos (by rw [h]; decide)]

/-- When recording becomes unavailable, it is stopped. -/
theorem recording_switch (havailable : 0 < s.platformAdmRefCount → s.platformAdm.isSome)
    (hplatform : s.platformRecording = true → s.recording = true)
    (hnot : ¬ (0 < s.platformAdmRefCount ∧ s.recordingEnabled = true)) :
    Recording s.switchRecordingAdmIfNeeded := by
  unfold switchRecordingAdmIfNeeded
  split
  · next hidle => exact ⟨havailable, fun h => absurd h hidle, hplatform⟩
  · have hnone : (s.onRecording fun line => line.stop.1).recordingAdm = none := if_neg hnot
    simp only [hnone]
    constructor
    · intro hcount
      have hsome := havailable hcount
      unfold onRecording
      rw [Option.isSome_map]
      exact hsome
    · intro h
      cases h
    · intro h
      have hstopped := platformRecording_stop s
      exact absurd (hstopped.symm.trans h) (by decide)

/-- The module that records is the platform one, and it is acquired and enabled. -/
theorem recordingAdm_eq_some {adm : PlatformAdm} (h : s.recordingAdm = some adm) :
    (0 < s.platformAdmRefCount ∧ s.recordingEnabled = true) ∧ s.platformAdm = some adm := by
  unfold recordingAdm at h
  split at h
  · next havailable => exact ⟨havailable, h⟩
  · cases h

/-- A line that starts without an error runs. -/
theorem start_running {line : Line} (h : line.start.2 = 0) : line.start.1.running = true := by
  unfold Line.start at h ⊢
  split
  · assumption
  · next hnot =>
    rw [if_neg hnot] at h
    split
    · rfl
    · next hfail =>
      rw [if_neg hfail] at h
      cases h

/-- `InitRecording` starts no device. -/
theorem sameRecording_initRecording (s : State) : SameRecording s s.initRecording.1 := by
  unfold initRecording
  split
  · exact ⟨rfl, rfl, rfl, rfl, rfl⟩
  · next adm hadm =>
    have hsome := (recordingAdm_eq_some hadm).2
    have hplatform : (s.onRecording fun line => line.init.1).platformRecording =
        s.platformRecording := by
      unfold platformRecording onRecording
      rw [hsome]
      rfl
    have havailable : (s.onRecording fun line => line.init.1).platformAdm.isSome =
        s.platformAdm.isSome := Option.isSome_map
    exact ⟨rfl, havailable, rfl, rfl, hplatform⟩

/-- The calls for recording leave playout alone. -/
theorem samePlayout_recording (s : State) :
    SamePlayout s s.initRecording.1 ∧ SamePlayout s s.startRecording.1 ∧
      SamePlayout s s.stopRecording.1 := by
  refine ⟨?_, ?_, ?_⟩
  · unfold initRecording
    split
    · exact ⟨rfl, rfl, rfl, rfl⟩
    · have hsame := samePlayout_onRecording s fun line => line.init.1
      exact ⟨hsame.playing, hsame.active, hsame.platform, hsame.synthetic⟩
  · unfold startRecording
    split
    · exact ⟨rfl, rfl, rfl, rfl⟩
    · have hsame := samePlayout_onRecording { s with recording := true } fun line => line.start.1
      exact ⟨hsame.playing, hsame.active, hsame.platform, hsame.synthetic⟩
  · unfold stopRecording
    simp only
    split
    · have hsame := samePlayout_onRecording { s with recording := false } fun line => line.stop.1
      exact ⟨hsame.playing, hsame.active, hsame.platform, hsame.synthetic⟩
    · exact ⟨rfl, rfl, rfl, rfl⟩

/-- `StartRecording` starts the line that there is to record with, or says that there is none. -/
theorem Recording.startRecording (h : Recording s) : Recording s.startRecording.1 := by
  unfold State.startRecording
  split
  · exact h
  · next adm hadm =>
    obtain ⟨havailable, hsome⟩ := recordingAdm_eq_some hadm
    refine ⟨fun _ => ?_, fun _ => havailable, fun _ => rfl⟩
    show (s.platformAdm.map _).isSome = true
    rw [hsome]
    rfl

/-- A `StartRecording` that succeeds while recording is available starts the device. -/
theorem startRecording_running (h : Recording s) (hresult : s.startRecording.2 = 0)
    (havailable : 0 < s.platformAdmRefCount ∧ s.recordingEnabled = true) :
    s.startRecording.1.platformRecording = true := by
  obtain ⟨adm, hadm⟩ := Option.isSome_iff_exists.mp (h.available havailable.1)
  have hsome : s.recordingAdm = some adm := by
    unfold recordingAdm
    rw [if_pos havailable, hadm]
  unfold startRecording at hresult ⊢
  rw [hsome] at hresult ⊢
  show ((s.platformAdm.map _).any _) = true
  rw [hadm]
  exact start_running hresult

/-- No line runs for recording after `StopRecording`, as the invariant says. -/
theorem Recording.stopRecording (h : Recording s) : Recording s.stopRecording.1 := by
  unfold State.stopRecording
  simp only
  split
  · next adm hadm =>
    obtain ⟨-, hsome⟩ := recordingAdm_eq_some hadm
    refine ⟨fun _ => ?_, fun hbad => ?_, fun hbad => ?_⟩
    · show (s.platformAdm.map _).isSome = true
      rw [show s.platformAdm = some adm from hsome]
      rfl
    · cases hbad
    · have hstopped := platformRecording_stop { s with recording := false }
      exact absurd (hstopped.symm.trans hbad) (by decide)
  · next hnone =>
    have hnot := (recordingAdm_eq_none_iff { s with recording := false } h.available).mp hnone
    refine ⟨h.available, fun hbad => ?_, fun hbad => ?_⟩
    · cases hbad
    · exact absurd (h.recording (h.platform hbad)) hnot

/-! ## Every step -/

structure Inv (records : List Record) (s : State) : Prop where
  playout : Playout s
  recording : Recording s
  started : Started records → s.recordingEnabled = true → 0 < s.platformAdmRefCount →
    s.platformRecording = true

theorem inv_new (platform : Bool) : Inv [] (new platform) where
  playout := by
    constructor
    · intro h
      cases h
    · intro h
      cases platform <;> cases h
  recording := by
    constructor
    · intro h
      cases h
    · intro h
      cases h
    · intro h
      cases platform <;> cases h
  started := fun h => by cases h

variable {records : List Record}

/-- The invariant says that the state tracks the calls. -/
theorem Inv.tracks (h : Inv records s) : Tracks records s := by
  refine ⟨fun hplaying => ?_, h.started⟩
  unfold reportsPlaying at hplaying
  split at hplaying
  · next hactive =>
    rw [hplaying, hactive]
    refine ⟨rfl, eq_false_of_ne_true fun hsynthetic => ?_⟩
    have hbefore := (h.playout.synthetic hsynthetic).2
    exact absurd (hbefore.symm.trans hactive) (by decide)
  · next hnot =>
    rw [hplaying, eq_false_of_ne_true hnot]
    exact ⟨eq_false_of_ne_true fun hplatform => hnot (h.playout.platform hplatform).2, rfl⟩

/-- A step that does not touch the recording. -/
theorem Inv.of_playout (h : Inv records s) (hsame : SameRecording s s') (hplayout : Playout s') :
    Inv (records ++ []) s' := by
  rw [List.append_nil]
  refine ⟨hplayout, h.recording.of_same hsame, ?_⟩
  rw [hsame.enabled, hsame.refCount, hsame.platform]
  exact h.started

/-- A step that leaves recording unavailable. -/
theorem Inv.of_unavailable {s' : State} (hplayout : Playout s') (hrecording : Recording s')
    (hnot : ¬ (0 < s'.platformAdmRefCount ∧ s'.recordingEnabled = true)) :
    Inv (records ++ []) s' :=
  ⟨hplayout, hrecording, fun _ henabled hcount => absurd ⟨hcount, henabled⟩ hnot⟩

/-- Where recording becomes available after it was started, the device does not record. -/
theorem Inv.of_available (h : Inv records s) (hidle : s.recording = false) (hplayout : Playout s')
    (hrecording : Recording s') (hplatform : s'.platformRecording = s.platformRecording)
    (havailable : 0 < s'.platformAdmRefCount ∧ s'.recordingEnabled = true) :
    ¬ Started records ∧ Inv (records ++ []) s' ∨ Started records ∧ ¬ Tracks (records ++ []) s' := by
  rw [List.append_nil]
  by_cases hstarted : Started records
  · refine .inr ⟨hstarted, fun htracks => ?_⟩
    -- nobody starts the device again
    have hrunning := htracks.recording hstarted havailable.2 havailable.1
    rw [hplatform] at hrunning
    exact absurd (hidle.symm.trans (h.recording.platform hrunning)) (by decide)
  · exact .inl ⟨hstarted, hplayout, hrecording, fun hbad => absurd hbad hstarted⟩

/-- A step either makes recording available after it was started, or keeps the invariant. -/
def StepOk (records : List Record) (s : State) (a : Action) : Prop :=
  (s.Enables a → ¬ Started records) ∧ Inv (records ++ (s.turn a).2) (s.turn a).1 ∨
    ¬ (s.Enables a → ¬ Started records) ∧ ¬ Tracks (records ++ (s.turn a).2) (s.turn a).1

variable {records : List Record} {s : State}

/-- The first reference switches to the platform module, if there is one. -/
theorem acquirePlatformAdm_of_isSome (h : s.platformAdm.isSome = true) :
    s.acquirePlatformAdm.1 =
      if s.platformAdmRefCount = 0 then
        { s with platformAdmRefCount := s.platformAdmRefCount + 1
          }.switchPlayoutModeIfNeeded.switchRecordingAdmIfNeeded
      else { s with platformAdmRefCount := s.platformAdmRefCount + 1 } := by
  unfold acquirePlatformAdm
  split
  · next hnone =>
    rw [hnone] at h
    cases h
  · rfl

/-- Which module plays depends on the module, the switch and whether it is acquired. -/
theorem isPlatformPlayoutActive_congr {s' : State} (hadm : s'.platformAdm = s.platformAdm)
    (henabled : s'.playoutEnabled = s.playoutEnabled)
    (hcount : 0 < s'.platformAdmRefCount ↔ 0 < s.platformAdmRefCount) :
    s'.isPlatformPlayoutActive = s.isPlatformPlayoutActive := by
  unfold isPlatformPlayoutActive
  rw [decide_eq_decide, hadm, henabled, hcount]

/-- `AcquirePlatformAdm` keeps the invariant, unless recording was started before it was
available. -/
theorem Inv.acquirePlatformAdm (h : Inv records s) : StepOk records s .acquirePlatformAdm := by
  by_cases hsome : s.platformAdm.isSome = true
  swap
  · left
    refine ⟨fun hbad => absurd hbad.1 hsome, ?_⟩
    show Inv (records ++ []) s.acquirePlatformAdm.1
    unfold State.acquirePlatformAdm
    rw [Option.not_isSome_iff_eq_none.mp hsome, List.append_nil]
    exact h
  unfold StepOk turn
  simp only
  rw [acquirePlatformAdm_of_isSome hsome]
  set acquired := { s with platformAdmRefCount := s.platformAdmRefCount + 1 } with hacquired
  have hrecording : Recording acquired := by
    refine ⟨fun _ => hsome, fun hrec => ?_, h.recording.platform⟩
    exact ⟨Nat.succ_pos _, (h.recording.recording hrec).2⟩
  by_cases hzero : s.platformAdmRefCount = 0
  · rw [if_pos hzero]
    -- nothing recorded as long as there was no reference
    have hidle : s.recording = false := by
      refine eq_false_of_ne_true fun hrec => ?_
      have hcount := (h.recording.recording hrec).1
      omega
    have hsame : SameRecording acquired acquired.switchPlayoutModeIfNeeded :=
      sameRecording_switchPlayout acquired
    have hplayout : Playout acquired.switchPlayoutModeIfNeeded :=
      playout_switch (fun hsyn => (h.playout.synthetic hsyn).1)
        fun hplat => (h.playout.platform hplat).1
    rw [switchRecording_idle (hsame.recording.trans hidle)]
    by_cases henabled : s.recordingEnabled = true
    · have havailable : 0 < acquired.switchPlayoutModeIfNeeded.platformAdmRefCount ∧
          acquired.switchPlayoutModeIfNeeded.recordingEnabled = true := by
        rw [hsame.refCount, hsame.enabled]
        exact ⟨Nat.succ_pos _, henabled⟩
      have henables : s.Enables .acquirePlatformAdm := ⟨hsome, hzero, henabled⟩
      rcases h.of_available hidle hplayout (hrecording.of_same hsame) hsame.platform havailable with
        ⟨hnot, hinv⟩ | ⟨hstarted, hbroken⟩
      · exact .inl ⟨fun _ => hnot, hinv⟩
      · exact .inr ⟨fun hok => hok henables hstarted, hbroken⟩
    · left
      refine ⟨fun hbad => absurd hbad.2.2 henabled, ?_⟩
      refine Inv.of_unavailable hplayout (hrecording.of_same hsame) fun hbad => henabled ?_
      rw [hsame.enabled] at hbad
      exact hbad.2
  · rw [if_neg hzero]
    left
    refine ⟨fun hbad => absurd hbad.2.1 hzero, ?_⟩
    rw [List.append_nil]
    have hactive : acquired.isPlatformPlayoutActive = s.isPlatformPlayoutActive :=
      isPlatformPlayoutActive_congr rfl rfl (by rw [hacquired]; simp only; omega)
    refine ⟨h.playout.of_same ⟨rfl, hactive, rfl, rfl⟩, hrecording, fun hstarted henabled _ => ?_⟩
    exact h.started hstarted henabled (by omega)

/-- Without a reference nothing runs on the platform module. -/
theorem Inv.releasePlatformAdm (h : Inv records s) :
    Inv (records ++ []) s.releasePlatformAdm := by
  unfold State.releasePlatformAdm
  simp only
  split
  · rw [List.append_nil]
    exact h
  · next hcount =>
    set released := { s with platformAdmRefCount := s.platformAdmRefCount - 1 } with hreleased
    have hsome : s.platformAdm.isSome = true := h.recording.available (by omega)
    split
    · next hzero =>
      have hsame : SameRecording released released.switchPlayoutModeIfNeeded :=
        sameRecording_switchPlayout released
      have hplayout : Playout released.switchPlayoutModeIfNeeded :=
        playout_switch (fun hsyn => (h.playout.synthetic hsyn).1)
          fun hplat => (h.playout.platform hplat).1
      -- the last reference is given back, so recording is not available
      have hnot : ¬ (0 < released.switchPlayoutModeIfNeeded.platformAdmRefCount ∧
          released.switchPlayoutModeIfNeeded.recordingEnabled = true) := by
        rw [hsame.refCount, show released.platformAdmRefCount = 0 from hzero]
        exact fun hbad => absurd hbad.1 (by omega)
      have hrecording : Recording
          released.switchPlayoutModeIfNeeded.switchRecordingAdmIfNeeded := by
        refine recording_switch (fun _ => hsame.available.trans hsome) ?_ hnot
        rw [hsame.platform, hsame.recording]
        exact h.recording.platform
      refine Inv.of_unavailable (hplayout.of_same (samePlayout_switchRecording _)) hrecording ?_
      obtain ⟨hcount', henabled'⟩ := switchRecording_flags released.switchPlayoutModeIfNeeded
      rw [hcount', henabled']
      exact hnot
    · next hpositive =>
      have hactive : released.isPlatformPlayoutActive = s.isPlatformPlayoutActive :=
        isPlatformPlayoutActive_congr rfl rfl (by rw [hreleased]; simp only; omega)
      rw [List.append_nil]
      refine ⟨h.playout.of_same ⟨rfl, hactive, rfl, rfl⟩, ?_, fun hstarted henabled _ => ?_⟩
      · refine ⟨fun _ => hsome, fun hrec => ?_, h.recording.platform⟩
        exact ⟨Nat.pos_of_ne_zero hpositive, (h.recording.recording hrec).2⟩
      · exact h.started hstarted henabled (Nat.pos_of_ne_zero hcount)

/-- The switch keeps the invariant, unless recording was started before it was available. -/
theorem Inv.setRecordingEnabled (h : Inv records s) (enabled : Bool) :
    StepOk records s (.setRecordingEnabled enabled) := by
  unfold StepOk State.turn State.setRecordingEnabled
  simp only
  by_cases heq : s.recordingEnabled = enabled
  · rw [if_pos heq, List.append_nil]
    left
    refine ⟨fun hbad => ?_, h⟩
    obtain ⟨henabled, hdisabled, -⟩ := hbad
    rw [heq, henabled] at hdisabled
    cases hdisabled
  · rw [if_neg heq]
    -- the flag changes; only enabling can break the promise
    set s' := { s with recordingEnabled := enabled } with hs'
    have hplayout : Playout s' := h.playout.of_same ⟨rfl, rfl, rfl, rfl⟩
    cases enabled with
    | true =>
      have hdisabled : s.recordingEnabled = false := eq_false_of_ne_true heq
      have hidle : s.recording = false := by
        refine eq_false_of_ne_true fun hrec => ?_
        exact absurd (hdisabled.symm.trans (h.recording.recording hrec).2) (by decide)
      have hrecording : Recording s' := by
        refine ⟨h.recording.available, fun hrec => ?_, h.recording.platform⟩
        exact absurd (hidle.symm.trans hrec) (by decide)
      rw [switchRecording_idle (s := s') hidle]
      by_cases hcount : 0 < s.platformAdmRefCount
      · rcases h.of_available hidle hplayout hrecording rfl ⟨hcount, rfl⟩ with
          ⟨hnot, hinv⟩ | ⟨hstarted, hbroken⟩
        · exact .inl ⟨fun _ => hnot, hinv⟩
        · exact .inr ⟨fun hok => hok ⟨rfl, hdisabled, hcount⟩ hstarted, hbroken⟩
      · left
        refine ⟨fun hbad => absurd hbad.2.2 hcount, ?_⟩
        exact Inv.of_unavailable hplayout hrecording fun hbad => hcount hbad.1
    | false =>
      left
      have hnot : ¬ (0 < s'.platformAdmRefCount ∧ s'.recordingEnabled = true) :=
        fun hbad => Bool.false_ne_true hbad.2
      refine ⟨fun hbad => absurd hbad.1 (by decide), ?_⟩
      refine Inv.of_unavailable (hplayout.of_same (samePlayout_switchRecording s'))
        (recording_switch h.recording.available h.recording.platform hnot) ?_
      obtain ⟨hcount', henabled'⟩ := switchRecording_flags s'
      rw [hcount', henabled']
      exact hnot

/-- Playout goes to the other module. -/
theorem Inv.setPlayoutEnabled (h : Inv records s) (enabled : Bool) :
    Inv (records ++ []) (s.setPlayoutEnabled enabled) := by
  unfold State.setPlayoutEnabled
  split
  · rw [List.append_nil]
    exact h
  · have hsame := sameRecording_switchPlayout { s with playoutEnabled := enabled }
    refine h.of_playout
      ⟨hsame.recording, hsame.available, hsame.refCount, hsame.enabled, hsame.platform⟩
      (playout_switch ?_ ?_)
    · exact fun hsyn => (h.playout.synthetic hsyn).1
    · exact fun hplat => (h.playout.platform hplat).1

/-- A call that returns no error has started the recording. -/
theorem started_concat {result : Int} :
    Started (records ++ [.startRecording result]) ↔ result = 0 := by
  unfold Started
  rw [List.getLast?_concat, Option.some.injEq, Record.startRecording.injEq]

/-- `StartRecording` says in its result whether it has started. -/
theorem Inv.startRecording (h : Inv records s) :
    Inv (records ++ [.startRecording s.startRecording.2]) s.startRecording.1 := by
  have hflags : s.startRecording.1.recordingEnabled = s.recordingEnabled ∧
      s.startRecording.1.platformAdmRefCount = s.platformAdmRefCount := by
    unfold State.startRecording
    split <;> exact ⟨rfl, rfl⟩
  refine ⟨h.playout.of_same (samePlayout_recording s).2.1, h.recording.startRecording, ?_⟩
  intro hstarted henabled hcount
  rw [hflags.1] at henabled
  rw [hflags.2] at hcount
  exact startRecording_running h.recording (started_concat.mp hstarted) ⟨hcount, henabled⟩

/-- `StopRecording` ends what was started. -/
theorem Inv.stopRecording (h : Inv records s) :
    Inv (records ++ [.stopRecording s.stopRecording.2]) s.stopRecording.1 := by
  refine ⟨h.playout.of_same (samePlayout_recording s).2.2, h.recording.stopRecording, ?_⟩
  intro hstarted
  unfold Started at hstarted
  rw [List.getLast?_concat] at hstarted
  cases hstarted

/-- A device that comes or goes changes nothing that runs. -/
theorem Inv.setAvailable (h : Inv records s) (playout recording : Bool) :
    Inv (records ++ []) (s.turn (.setAvailable playout recording)).1 := by
  have hplatform : (s.turn (.setAvailable playout recording)).1.platformPlaying =
      s.platformPlaying := by
    unfold turn platformPlaying onRecording onPlayout
    cases s.platformAdm <;> rfl
  have hrecording : (s.turn (.setAvailable playout recording)).1.platformRecording =
      s.platformRecording := by
    unfold turn platformRecording onRecording onPlayout
    cases s.platformAdm <;> rfl
  have hactive : (s.turn (.setAvailable playout recording)).1.isPlatformPlayoutActive =
      s.isPlatformPlayoutActive := by
    unfold turn isPlatformPlayoutActive onRecording onPlayout
    cases s.platformAdm <;> rfl
  have havailable : (s.turn (.setAvailable playout recording)).1.platformAdm.isSome =
      s.platformAdm.isSome := by
    unfold turn onRecording onPlayout
    cases s.platformAdm <;> rfl
  exact h.of_playout ⟨rfl, havailable, rfl, rfl, hrecording⟩
    (h.playout.of_same ⟨rfl, hactive, hplatform, rfl⟩)

/-- Every call, one by one. -/
theorem Inv.stepOk (h : Inv records s) (a : Action) : StepOk records s a := by
  have hplayout := sameRecording_playout s
  cases a with
  | acquirePlatformAdm => exact h.acquirePlatformAdm
  | releasePlatformAdm => exact .inl ⟨fun hbad => hbad.elim, h.releasePlatformAdm⟩
  | setRecordingEnabled enabled => exact h.setRecordingEnabled enabled
  | setPlayoutEnabled enabled => exact .inl ⟨fun hbad => hbad.elim, h.setPlayoutEnabled enabled⟩
  | initPlayout =>
    exact .inl ⟨fun hbad => hbad.elim,
      h.of_playout hplayout.1 (h.playout.of_same (samePlayout_initPlayout s))⟩
  | startPlayout =>
    exact .inl ⟨fun hbad => hbad.elim, h.of_playout hplayout.2.1 h.playout.startPlayout⟩
  | stopPlayout =>
    exact .inl ⟨fun hbad => hbad.elim, h.of_playout hplayout.2.2 (.stopPlayout s)⟩
  | initRecording =>
    exact .inl ⟨fun hbad => hbad.elim, h.of_playout (sameRecording_initRecording s)
      (h.playout.of_same (samePlayout_recording s).1)⟩
  | startRecording => exact .inl ⟨fun hbad => hbad.elim, h.startRecording⟩
  | stopRecording => exact .inl ⟨fun hbad => hbad.elim, h.stopRecording⟩
  | setAvailable playout recording =>
    exact .inl ⟨fun hbad => hbad.elim, h.setAvailable playout recording⟩

/-! ## Every run -/

/-- In all states of a run only the chosen device plays, and the platform records what was started,
exactly when no step of it makes recording available after it was started. -/
theorem tracks_iff (platform : Bool) (run : List Action) :
    Always State.step record Tracks (State.new platform) run ↔
      EachStepOn State.step record EnablesFirst [] (State.new platform) run := by
  refine always_iff_eachStepOn (I := Inv) (fun _ _ h => h.tracks) ?_ (inv_new platform) run
  intro records s a s' hinv hstep
  obtain rfl := Option.some.inj hstep
  exact hinv.stepOk a

/-- Recording is disabled and enabled again, while it is started. -/
theorem enabled_again_does_not_record :
    let run : List Action := [.acquirePlatformAdm, .setRecordingEnabled true, .initRecording,
      .startRecording, .setRecordingEnabled false, .setRecordingEnabled true]
    ¬ Always State.step record Tracks (State.new true) run := by
  intro run halways
  have hlast := (halways run [] _ (List.append_nil run).symm rfl).recording (by decide) rfl
    (by decide)
  exact absurd hlast (by decide)

end LiveKit.AdmProxy
