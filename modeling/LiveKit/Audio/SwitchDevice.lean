import LiveKit.Audio.AdmProxyTheorems

/-!
# Switching the audio device

`PlatformAudio` switches the microphone or the speaker during a call: it stops the line if it is
initialized, selects the new device and starts the line again. `switch_leaves_running_iff` says
when a failed switch leaves the audio as it was, and a successful one as it was on the new device.
-/

namespace LiveKit.PlatformAudio

open AdmProxy (Line PlatformAdm)

/-- Which device is selected. -/
structure Selection (Guid : Type) where
  /-- The one that the platform uses. -/
  device : Guid
  /-- What the proxy has noted of the last call. -/
  noted : ℕ × Guid

structure State (Guid : Type) where
  proxy : AdmProxy.State
  playout : Selection Guid
  recording : Selection Guid

/-- How the platform answers the calls for one of its lines. A step that it refuses changes
nothing there. -/
structure Platform (Guid : Type) where
  /-- `StopRecording`, `StopPlayout` -/
  stop : Bool
  /-- The guids of its devices by index, as far as they can be read. -/
  devices : List (Option Guid)
  /-- `SetRecordingDevice`, `SetPlayoutDevice` -/
  setDevice : ℕ → Bool
  /-- `InitRecording`, `InitPlayout` -/
  init : Bool

inductive AudioError where
  | deviceNotFound
  | operationFailed (message : String)
deriving DecidableEq

variable {Guid : Type} [DecidableEq Guid]

/-! ## The proxy -/

namespace Selection

/-- `SetRecordingDevice`, `SetPlayoutDevice`: the proxy makes its note before the platform is
asked. -/
def setDevice (selection : Selection Guid) (adm : Option PlatformAdm) (platform : Platform Guid)
    (index : ℕ) : Selection Guid × Bool :=
  match adm with
  | none => ({ selection with noted := (index, selection.noted.2) }, true)
  | some _ =>
    let guid := (platform.devices.getD index none)
    let selection := { selection with noted := (index, guid.getD selection.noted.2) }
    if platform.setDevice index then
      ({ selection with device := guid.getD selection.device }, true)
    else (selection, false)

/-- `set_recording_device_by_guid`, `set_playout_device_by_guid`; without the platform there are no
devices. -/
def setDeviceByGuid (selection : Selection Guid) (adm : Option PlatformAdm)
    (platform : Platform Guid) (id : Guid) : Selection Guid × Bool :=
  match (if adm.isSome then platform.devices else []).findIdx? (· = some id) with
  | some index => selection.setDevice adm platform index
  | none => (selection, false)

end Selection

namespace State

def recordingIsInitialized (s : State Guid) : Bool :=
  s.proxy.recordingAdm.any fun adm => adm.recording.initialized

/-- `Recording` -/
def isRecording (s : State Guid) : Bool :=
  s.proxy.recordingAdm.any fun adm => adm.recording.running

/-- The synthetic ADM is never initialized. -/
def playoutIsInitialized (s : State Guid) : Bool :=
  s.proxy.isPlatformPlayoutActive ∧ s.proxy.platformAdm.any fun adm => adm.playout.initialized

/-- `Playing` -/
def isPlaying (s : State Guid) : Bool := s.proxy.reportsPlaying

def stopRecording (platform : Platform Guid) (s : State Guid) : State Guid × Bool :=
  if s.proxy.recordingAdm.isSome ∧ ¬ platform.stop then
    ({ s with proxy := { s.proxy with recording := false } }, false)
  else ({ s with proxy := s.proxy.stopRecording.1 }, s.proxy.stopRecording.2 = 0)

/-- What the platform answers is ignored. -/
def stopPlayout (platform : Platform Guid) (s : State Guid) : State Guid × Bool :=
  if platform.stop then ({ s with proxy := s.proxy.stopPlayout.1 }, s.proxy.stopPlayout.2 = 0)
  else ({ s with proxy := { s.proxy with playing := false }.setSynthetic false }, true)

def setRecordingDeviceByGuid (platform : Platform Guid) (id : Guid) (s : State Guid) :
    State Guid × Bool :=
  let result := s.recording.setDeviceByGuid s.proxy.platformAdm platform id
  ({ s with recording := result.1 }, result.2)

def setPlayoutDeviceByGuid (platform : Platform Guid) (id : Guid) (s : State Guid) :
    State Guid × Bool :=
  let result := s.playout.setDeviceByGuid s.proxy.platformAdm platform id
  ({ s with playout := result.1 }, result.2)

def initRecording (platform : Platform Guid) (s : State Guid) : State Guid × Bool :=
  if s.proxy.recordingAdm.isSome ∧ ¬ platform.init then (s, false)
  else ({ s with proxy := s.proxy.initRecording.1 }, s.proxy.initRecording.2 = 0)

def initPlayout (platform : Platform Guid) (s : State Guid) : State Guid × Bool :=
  if s.proxy.isPlatformPlayoutActive ∧ ¬ platform.init then (s, false)
  else ({ s with proxy := s.proxy.initPlayout.1 }, s.proxy.initPlayout.2 = 0)

def startRecording (s : State Guid) : State Guid × Bool :=
  ({ s with proxy := s.proxy.startRecording.1 }, s.proxy.startRecording.2 = 0)

def startPlayout (s : State Guid) : State Guid × Bool :=
  ({ s with proxy := s.proxy.startPlayout.1 }, s.proxy.startPlayout.2 = 0)

/-! ## The switch -/

/-- The sequence of both switches, for the line that is called `line` in the messages. -/
def switchDevice (line : String) (wasInitialized : Bool)
    (stop setDevice init start : State Guid → State Guid × Bool) (s : State Guid) :
    State Guid × Except AudioError Unit :=
  let (s, stopped) := if wasInitialized then stop s else (s, true)
  if ¬ stopped then (s, .error (.operationFailed ("stop_" ++ line ++ " failed")))
  else
    let (s, found) := setDevice s
    if ¬ found then (s, .error .deviceNotFound)
    else if ¬ wasInitialized then (s, .ok ())
    else
      let (s, initialized) := init s
      if ¬ initialized then (s, .error (.operationFailed ("init_" ++ line ++ " failed")))
      else
        let (s, started) := start s
        if ¬ started then (s, .error (.operationFailed ("start_" ++ line ++ " failed")))
        else (s, .ok ())

def switchRecordingDevice (platform : Platform Guid) (id : Guid) (s : State Guid) :
    State Guid × Except AudioError Unit :=
  s.switchDevice "recording" s.recordingIsInitialized (stopRecording platform)
    (setRecordingDeviceByGuid platform id) (initRecording platform) startRecording

def switchPlayoutDevice (platform : Platform Guid) (id : Guid) (s : State Guid) :
    State Guid × Except AudioError Unit :=
  s.switchDevice "playout" s.playoutIsInitialized (stopPlayout platform)
    (setPlayoutDeviceByGuid platform id) (initPlayout platform) startPlayout

/-! ## What a switch leaves -/

/-- What is known of a line: its device, and whether it is initialized and running. -/
structure View (Guid : Type) where
  device : Guid
  initialized : Bool
  running : Bool
deriving DecidableEq

def recordingView (s : State Guid) : View Guid :=
  ⟨s.recording.device, s.recordingIsInitialized, s.isRecording⟩

def playoutView (s : State Guid) : View Guid :=
  ⟨s.playout.device, s.playoutIsInitialized, s.isPlaying⟩

/-- If the device is not found, the line is as it was; if all goes well it is so on the new
device. -/
def LeavesRunning (view : State Guid → View Guid) (id : Guid) (s : State Guid)
    (result : State Guid × Except AudioError Unit) : Prop :=
  (result.2 = .error .deviceNotFound → view result.1 = view s) ∧
    (result.2 = .ok () → view result.1 = { view s with device := id })

instance (view : State Guid → View Guid) (id : Guid) (s : State Guid)
    (result : State Guid × Except AudioError Unit) : Decidable (LeavesRunning view id s result) :=
  inferInstanceAs (Decidable (_ ∧ _))

end State

/-- The platform has the device and takes it. -/
def Platform.Selects (platform : Platform Guid) (id : Guid) : Prop :=
  ∃ index, platform.devices.findIdx? (· = some id) = some index ∧ platform.setDevice index = true

/-! ## Which device is found -/

namespace Selection

variable (selection : Selection Guid) {adm : Option PlatformAdm} {platform : Platform Guid}
  {id : Guid}

theorem setDeviceByGuid_of_selects (hadm : adm.isSome) (h : platform.Selects id) :
    (selection.setDeviceByGuid adm platform id).2 = true ∧
      (selection.setDeviceByGuid adm platform id).1.device = id := by
  obtain ⟨index, hindex, hset⟩ := h
  obtain ⟨adm, rfl⟩ := Option.isSome_iff_exists.mp hadm
  have hguid : platform.devices.getD index none = some id := by
    obtain ⟨hlt, hid, -⟩ := List.findIdx?_eq_some_iff_getElem.mp hindex
    rw [List.getD_eq_getElem?_getD, List.getElem?_eq_getElem hlt, of_decide_eq_true hid]
    rfl
  simp only [setDeviceByGuid, Option.isSome_some, if_true, hindex, setDevice, hset, hguid,
    Option.getD_some, and_self]

theorem setDeviceByGuid_of_not_selects (h : ¬ (adm.isSome ∧ platform.Selects id)) :
    (selection.setDeviceByGuid adm platform id).2 = false ∧
      (selection.setDeviceByGuid adm platform id).1.device = selection.device := by
  unfold setDeviceByGuid
  cases adm with
  | none => exact ⟨rfl, rfl⟩
  | some adm =>
    cases hindex : platform.devices.findIdx? (· = some id) with
    | none => simp [hindex]
    | some index =>
      have hset : platform.setDevice index = false := by
        by_contra hset
        exact h ⟨rfl, index, hindex, by simpa using hset⟩
      simp [hindex, setDevice, hset]

end Selection

namespace State

/-! ## What a switch leaves, line by line -/

variable {line : String} {s : State Guid} {view : State Guid → View Guid} {id : Guid}
  {stop setDevice init start : State Guid → State Guid × Bool} {Selects : Prop}

omit [DecidableEq Guid] in
/-- A line that is not initialized stays so. -/
theorem leavesRunning_of_not_initialized (Selects : Prop)
    (hset : Selects → (setDevice s).2 = true ∧ view (setDevice s).1 = { view s with device := id })
    (hrefused : ¬ Selects → (setDevice s).2 = false ∧ view (setDevice s).1 = view s) :
    LeavesRunning view id s (s.switchDevice line false stop setDevice init start) := by
  unfold LeavesRunning switchDevice
  by_cases h : Selects
  · obtain ⟨hfound, hview⟩ := hset h
    simp [hfound, hview]
  · obtain ⟨hlost, hview⟩ := hrefused h
    simp [hlost, hview]

/-- What the steps of a switch do in a state with a line in use: `At s device line` says which it
is, and which device it has. -/
structure Steps (platform : Platform Guid) (id : Guid) (view : State Guid → View Guid)
    (At : State Guid → Guid → Line → Prop) (Selects : Prop)
    (setDevice init start : State Guid → State Guid × Bool) : Prop where
  views : ∀ {s device l}, At s device l → view s = ⟨device, l.initialized, l.running⟩
  selects : ∀ {s device l}, At s device l → Selects →
    (setDevice s).2 = true ∧ At (setDevice s).1 id l
  refuses : ∀ {s device l}, At s device l → ¬ Selects →
    (setDevice s).2 = false ∧ At (setDevice s).1 device l
  inits : ∀ {s device l}, At s device l → (init s).2 = platform.init ∧
    (platform.init = true → At (init s).1 device l.init.1)
  starts : ∀ {s device l}, At s device l →
    (start s).2 = decide (l.start.2 = 0) ∧ At (start s).1 device l.start.1

variable {device : Guid} {l : Line}

omit [DecidableEq Guid] in
/-- A line that is initialized is as it was when the device is not found, if it has not been
stopped; when all goes well it runs in the end. -/
theorem Steps.leavesRunning_iff {platform : Platform Guid} {At : State Guid → Guid → Line → Prop}
    (h : Steps platform id view At Selects setDevice init start) (hat : At s device l)
    (hinit : l.initialized = true) (hstop : (stop s).2 = true)
    (hstopped : At (stop s).1 device (if platform.stop then l.stop.1 else l)) :
    LeavesRunning view id s (s.switchDevice line true stop setDevice init start) ↔
      (platform.stop = true → Selects) ∧
        (Selects → platform.init = true ∧ l.available = true → l.running = true) := by
  have hview := h.views hat
  unfold LeavesRunning switchDevice
  by_cases hfound : Selects
  · obtain ⟨hset, hat'⟩ := h.selects hstopped hfound
    obtain ⟨hok, hagain⟩ := h.inits hat'
    cases hplatform : platform.init with
    | false => simp [hstop, hset, hok, hplatform, hfound]
    | true =>
      obtain ⟨hstart, hat''⟩ := h.starts (hagain hplatform)
      have hview' := h.views hat''
      cases hp : platform.stop
      all_goals
        cases havailable : l.available
        all_goals
          cases hrunning : l.running
          all_goals simp_all [Line.start, Line.init, Line.stop]
  · obtain ⟨hset, hat'⟩ := h.refuses hstopped hfound
    have hview' := h.views hat'
    cases hp : platform.stop
    · simp [hstop, hset, hview, hview', hfound, hp]
    · simp [hstop, hset, hview, hview', hfound, hp, hinit, Line.stop]

/-! ## The microphone -/

def RecordingAt (s : State Guid) (device : Guid) (l : Line) : Prop :=
  s.recording.device = device ∧ ∃ adm, s.proxy.recordingAdm = some adm ∧ adm.recording = l

omit [DecidableEq Guid] in
/-- A call that changes the line of the platform by `f`. -/
theorem RecordingAt.of_recordingAdm {s s' : State Guid} (f : Line → Line)
    (h : RecordingAt s device l) (hdevice : s'.recording = s.recording)
    (hadm : s'.proxy.recordingAdm = (s.proxy.onRecording f).recordingAdm) :
    RecordingAt s' device (f l) := by
  obtain ⟨rfl, adm, hsome, rfl⟩ := h
  refine ⟨by rw [hdevice], { adm with recording := f adm.recording }, ?_, rfl⟩
  rw [hadm]
  unfold AdmProxy.State.recordingAdm at hsome ⊢
  split at hsome
  · next hactive =>
    rw [if_pos (by exact hactive), AdmProxy.State.onRecording, hsome]
    rfl
  · cases hsome

theorem recordingSteps (platform : Platform Guid) (id : Guid) :
    Steps platform id recordingView RecordingAt (platform.Selects id)
      (setRecordingDeviceByGuid platform id) (initRecording platform) startRecording where
  views := by
    rintro s device l ⟨rfl, adm, hadm, rfl⟩
    simp [recordingView, recordingIsInitialized, isRecording, hadm]
  selects := by
    rintro s device l ⟨rfl, adm, hadm, rfl⟩ h
    have hsome := (AdmProxy.recordingAdm_eq_some hadm).2
    obtain ⟨hfound, hdevice⟩ :=
      s.recording.setDeviceByGuid_of_selects
        (show s.proxy.platformAdm.isSome by rw [hsome]; rfl) h
    exact ⟨hfound, hdevice, adm, hadm, rfl⟩
  refuses := by
    rintro s device l ⟨rfl, adm, hadm, rfl⟩ h
    obtain ⟨hlost, hdevice⟩ := s.recording.setDeviceByGuid_of_not_selects
      (show ¬ (s.proxy.platformAdm.isSome ∧ platform.Selects id) from fun hc => h hc.2)
    exact ⟨hlost, hdevice, adm, hadm, rfl⟩
  inits := by
    intro s device l h
    have ⟨_, adm, hadm, _⟩ := h
    cases hplatform : platform.init with
    | false => simp [initRecording, hadm, hplatform]
    | true =>
      have heq : initRecording platform s = ({ s with proxy :=
          { s.proxy.onRecording fun l => l.init.1 with recordingInitialized := true } }, true) := by
        simp [initRecording, AdmProxy.State.initRecording, hadm, hplatform, Line.init]
      rw [heq]
      exact ⟨rfl, fun _ => h.of_recordingAdm (fun l => l.init.1) rfl rfl⟩
  starts := by
    intro s device l h
    have ⟨_, adm, hadm, hl⟩ := h
    have heq : startRecording s = ({ s with proxy :=
        { s.proxy with recording := true }.onRecording fun l => l.start.1 },
          decide (l.start.2 = 0)) := by
      simp only [startRecording, AdmProxy.State.startRecording, hadm, hl]
    rw [heq]
    exact ⟨rfl, h.of_recordingAdm (fun l => l.start.1) rfl rfl⟩

/-- **Switching the microphone.** -/
theorem switchRecordingDevice_iff (platform : Platform Guid) (id : Guid) (s : State Guid) :
    LeavesRunning recordingView id s (s.switchRecordingDevice platform id) ↔
      (s.recordingIsInitialized → platform.stop → platform.Selects id ∧
        (platform.init ∧ (s.proxy.platformAdm.any fun adm => adm.recording.available) →
          s.isRecording)) := by
  unfold switchRecordingDevice
  cases hinit : s.recordingIsInitialized with
  | false =>
    refine iff_of_true (leavesRunning_of_not_initialized
      (s.proxy.platformAdm.isSome ∧ platform.Selects id) ?_ ?_) nofun
    · intro h
      obtain ⟨hfound, hdevice⟩ := s.recording.setDeviceByGuid_of_selects h.1 h.2
      exact ⟨hfound, congrArg (View.mk · _ _) hdevice⟩
    · intro h
      obtain ⟨hlost, hdevice⟩ := s.recording.setDeviceByGuid_of_not_selects h
      exact ⟨hlost, congrArg (View.mk · _ _) hdevice⟩
  | true =>
    obtain ⟨adm, hadm, hline⟩ := (Option.any_eq_true _ _).mp hinit
    have hat : RecordingAt s s.recording.device adm.recording := ⟨rfl, adm, hadm, rfl⟩
    cases hstop : platform.stop with
    | false =>
      -- the call fails at once
      refine iff_of_true ?_ nofun
      simp [LeavesRunning, switchDevice, stopRecording, hadm, hstop]
    | true =>
      have heq : stopRecording platform s = ({ s with proxy :=
          { s.proxy with recording := false }.onRecording fun l => l.stop.1 }, true) := by
        have hadm' : ({ s.proxy with recording := false } : AdmProxy.State).recordingAdm
            = some adm := hadm
        have hproxy : s.proxy.stopRecording = ({ s.proxy with recording := false }.onRecording
            fun l => l.stop.1, 0) := by
          simp only [AdmProxy.State.stopRecording, hadm']
          rfl
        simp [stopRecording, hproxy, hstop]
      have hstopped : RecordingAt (stopRecording platform s).1 s.recording.device
          adm.recording.stop.1 :=
        hat.of_recordingAdm (fun l => l.stop.1) (by rw [heq]) (by rw [heq]; rfl)
      rw [(recordingSteps platform id).leavesRunning_iff hat hline (by rw [heq])
        (by rwa [if_pos hstop])]
      have hsome := (AdmProxy.recordingAdm_eq_some hadm).2
      simp only [hstop, isRecording, hadm, hsome, Option.any_some, true_imp_iff]
      tauto

/-! ## The speaker -/

def PlayoutAt (s : State Guid) (device : Guid) (l : Line) : Prop :=
  s.playout.device = device ∧ s.proxy.isPlatformPlayoutActive = true ∧
    ∃ adm, s.proxy.platformAdm = some adm ∧ adm.playout = l

omit [DecidableEq Guid] in
theorem PlayoutAt.of_proxy {s s' : State Guid} (f : Line → Line) (h : PlayoutAt s device l)
    (hdevice : s'.playout = s.playout)
    (hactive : s'.proxy.isPlatformPlayoutActive = (s.proxy.onPlayout f).isPlatformPlayoutActive)
    (hadm : s'.proxy.platformAdm = (s.proxy.onPlayout f).platformAdm) :
    PlayoutAt s' device (f l) := by
  obtain ⟨rfl, hs, adm, hsome, rfl⟩ := h
  refine ⟨by rw [hdevice], ?_, { adm with playout := f adm.playout }, ?_, rfl⟩
  · rw [hactive, AdmProxy.isPlatformPlayoutActive_onPlayout, hs]
  · rw [hadm, AdmProxy.State.onPlayout, hsome]
    rfl

theorem playoutSteps (platform : Platform Guid) (id : Guid) :
    Steps platform id playoutView PlayoutAt (platform.Selects id)
      (setPlayoutDeviceByGuid platform id) (initPlayout platform) startPlayout where
  views := by
    rintro s device l ⟨rfl, hactive, adm, hadm, rfl⟩
    simp [playoutView, playoutIsInitialized, isPlaying, AdmProxy.State.reportsPlaying,
      AdmProxy.State.platformPlaying, hadm, hactive]
  selects := by
    rintro s device l ⟨rfl, hactive, adm, hadm, rfl⟩ h
    obtain ⟨hfound, hdevice⟩ :=
      s.playout.setDeviceByGuid_of_selects
        (show s.proxy.platformAdm.isSome by rw [hadm]; rfl) h
    exact ⟨hfound, hdevice, hactive, adm, hadm, rfl⟩
  refuses := by
    rintro s device l ⟨rfl, hactive, adm, hadm, rfl⟩ h
    obtain ⟨hlost, hdevice⟩ := s.playout.setDeviceByGuid_of_not_selects
      (show ¬ (s.proxy.platformAdm.isSome ∧ platform.Selects id) from fun hc => h hc.2)
    exact ⟨hlost, hdevice, hactive, adm, hadm, rfl⟩
  inits := by
    intro s device l h
    have ⟨_, hactive, adm, hadm, _⟩ := h
    cases hplatform : platform.init with
    | false => simp [initPlayout, hactive, hplatform]
    | true =>
      have heq : initPlayout platform s = ({ s with proxy :=
          { s.proxy.onPlayout fun l => l.init.1 with playoutInitialized := true } }, true) := by
        simp [initPlayout, AdmProxy.State.initPlayout, hactive, hadm, hplatform, Line.init]
      rw [heq]
      exact ⟨rfl, fun _ => h.of_proxy (fun l => l.init.1) rfl rfl rfl⟩
  starts := by
    intro s device l h
    have ⟨_, hactive, adm, hadm, hl⟩ := h
    have hproxy : s.proxy.startPlayout = ({ s.proxy with playing := true }.onPlayout
        fun l => l.start.1, l.start.2) := by
      unfold AdmProxy.State.startPlayout
      simp only
      rw [if_pos (by exact hactive)]
      simp only [hadm, hl]
    rw [startPlayout, hproxy]
    exact ⟨rfl, h.of_proxy (fun l => l.start.1) rfl rfl rfl⟩

/-- **Switching the speaker.** -/
theorem switchPlayoutDevice_iff (platform : Platform Guid) (id : Guid) (s : State Guid) :
    LeavesRunning playoutView id s (s.switchPlayoutDevice platform id) ↔
      (s.playoutIsInitialized → (platform.stop → platform.Selects id) ∧
        (platform.Selects id →
          platform.init ∧ (s.proxy.platformAdm.any fun adm => adm.playout.available) →
            s.isPlaying)) := by
  unfold switchPlayoutDevice
  cases hinit : s.playoutIsInitialized with
  | false =>
    refine iff_of_true (leavesRunning_of_not_initialized
      (s.proxy.platformAdm.isSome ∧ platform.Selects id) ?_ ?_) nofun
    · intro h
      obtain ⟨hfound, hdevice⟩ := s.playout.setDeviceByGuid_of_selects h.1 h.2
      exact ⟨hfound, congrArg (View.mk · _ _) hdevice⟩
    · intro h
      obtain ⟨hlost, hdevice⟩ := s.playout.setDeviceByGuid_of_not_selects h
      exact ⟨hlost, congrArg (View.mk · _ _) hdevice⟩
  | true =>
    obtain ⟨hactive, hany⟩ := of_decide_eq_true hinit
    obtain ⟨adm, hadm, hline⟩ := (Option.any_eq_true _ _).mp hany
    have hat : PlayoutAt s s.playout.device adm.playout := ⟨rfl, hactive, adm, hadm, rfl⟩
    have hstopped : (stopPlayout platform s).2 = true ∧ PlayoutAt (stopPlayout platform s).1
        s.playout.device (if platform.stop then adm.playout.stop.1 else adm.playout) := by
      unfold stopPlayout
      split
      · exact ⟨rfl, hat.of_proxy (fun l => l.stop.1) rfl rfl rfl⟩
      · exact ⟨rfl, hat⟩
    rw [(playoutSteps platform id).leavesRunning_iff hat hline hstopped.1 hstopped.2]
    simp only [isPlaying, AdmProxy.State.reportsPlaying, hactive, AdmProxy.State.platformPlaying,
      hadm, Option.any_some, true_imp_iff, if_true]

/-- **Switching the device.** -/
theorem switch_leaves_running_iff (platform : Platform Guid) (id : Guid) (s : State Guid) :
    (LeavesRunning recordingView id s (s.switchRecordingDevice platform id) ↔
      (s.recordingIsInitialized → platform.stop → platform.Selects id ∧
        (platform.init ∧ (s.proxy.platformAdm.any fun adm => adm.recording.available) →
          s.isRecording))) ∧
    (LeavesRunning playoutView id s (s.switchPlayoutDevice platform id) ↔
      (s.playoutIsInitialized → (platform.stop → platform.Selects id) ∧
        (platform.Selects id →
          platform.init ∧ (s.proxy.platformAdm.any fun adm => adm.playout.available) →
            s.isPlaying))) :=
  ⟨switchRecordingDevice_iff platform id s, switchPlayoutDevice_iff platform id s⟩

/-- A call with the microphone on: a device that has been unplugged is switched to. -/
def inCall : State ℕ where
  proxy := { AdmProxy.State.new true with
    platformAdm := some ⟨⟨true, true, true⟩, ⟨true, true, true⟩⟩
    platformAdmRefCount := 1
    recording := true
    playing := true
    recordingEnabled := true
    playoutEnabled := true }
  playout := ⟨0, 0, 0⟩
  recording := ⟨0, 0, 0⟩

/-- The switch fails, and the call is silent. -/
theorem switch_silences :
    ¬ ∀ (platform : Platform ℕ) (id : ℕ) (s : State ℕ),
      LeavesRunning recordingView id s (s.switchRecordingDevice platform id) ∧
      LeavesRunning playoutView id s (s.switchPlayoutDevice platform id) := by
  intro h
  exact absurd (h ⟨true, [some 0], fun _ => true, true⟩ 1 inCall).1 (by decide)

end State

end LiveKit.PlatformAudio
