import LiveKit.Lib.TransitionSystem

/-!
# The audio device proxy

`AdmProxy` plays through the synthetic device or through the platform's, and records through the
platform's only. Every method holds the mutex, so it is one step. Whether the platform's device can
be started is up to the platform.
-/

namespace LiveKit.AdmProxy

/-! ## The devices -/

/-- The playout or the recording of the platform ADM. -/
structure Line where
  initialized : Bool
  running : Bool
  /-- Whether the platform lets it be started. -/
  available : Bool

namespace Line

def init (line : Line) : Line × Int := ({ line with initialized := true }, 0)

def start (line : Line) : Line × Int :=
  if line.running then (line, 0)
  else if line.initialized ∧ line.available then ({ line with running := true }, 0)
  else (line, -1)

def stop (line : Line) : Line × Int := ({ line with initialized := false, running := false }, 0)

end Line

structure PlatformAdm where
  playout : Line
  recording : Line

structure SyntheticAudioDevice where
  playing : Bool

structure State where
  syntheticAdm : SyntheticAudioDevice
  /-- It may have failed to initialize. -/
  platformAdm : Option PlatformAdm
  platformAdmRefCount : ℕ
  playoutInitialized : Bool
  recordingInitialized : Bool
  playing : Bool
  recording : Bool
  recordingEnabled : Bool
  playoutEnabled : Bool

/-- The proxy, for whether the platform ADM could be initialized. -/
def State.new (platform : Bool) : State where
  syntheticAdm := ⟨false⟩
  platformAdm := if platform then some ⟨⟨false, false, true⟩, ⟨false, false, true⟩⟩ else none
  platformAdmRefCount := 0
  playoutInitialized := false
  recordingInitialized := false
  playing := false
  recording := false
  recordingEnabled := false
  playoutEnabled := false

namespace State

def isPlatformPlayoutActive (s : State) : Bool :=
  s.platformAdm.isSome ∧ 0 < s.platformAdmRefCount ∧ s.playoutEnabled

def recordingAdm (s : State) : Option PlatformAdm :=
  if 0 < s.platformAdmRefCount ∧ s.recordingEnabled then s.platformAdm else none

/-- Calls the platform ADM for its playout, if there is one. -/
def onPlayout (s : State) (f : Line → Line) : State :=
  { s with platformAdm := s.platformAdm.map fun adm => { adm with playout := f adm.playout } }

def onRecording (s : State) (f : Line → Line) : State :=
  { s with platformAdm := s.platformAdm.map fun adm => { adm with recording := f adm.recording } }

def setSynthetic (s : State) (playing : Bool) : State := { s with syntheticAdm := ⟨playing⟩ }

/-! ## Switching -/

def switchPlayoutModeIfNeeded (s : State) : State :=
  if ¬ s.playing then s
  else if s.isPlatformPlayoutActive then
    (s.setSynthetic false).onPlayout fun line => line.init.1.start.1
  else (s.onPlayout fun line => line.stop.1).setSynthetic true

def switchRecordingAdmIfNeeded (s : State) : State :=
  if ¬ s.recording then s
  else
    let s := s.onRecording fun line => line.stop.1
    match s.recordingAdm with
    | some _ => s.onRecording fun line => line.init.1.start.1
    -- that recording was started is forgotten
    | none => { s with recording := false }

/-! ## The platform ADM and the flags -/

def acquirePlatformAdm (s : State) : State × Bool :=
  match s.platformAdm with
  | none => (s, false)
  | some _ =>
    let acquired := { s with platformAdmRefCount := s.platformAdmRefCount + 1 }
    (if s.platformAdmRefCount = 0 then
      acquired.switchPlayoutModeIfNeeded.switchRecordingAdmIfNeeded
    else acquired, true)

def releasePlatformAdm (s : State) : State :=
  if s.platformAdmRefCount = 0 then s
  else
    let released := { s with platformAdmRefCount := s.platformAdmRefCount - 1 }
    if released.platformAdmRefCount = 0 then
      released.switchPlayoutModeIfNeeded.switchRecordingAdmIfNeeded
    else released

def setRecordingEnabled (s : State) (enabled : Bool) : State :=
  if s.recordingEnabled = enabled then s
  else { s with recordingEnabled := enabled }.switchRecordingAdmIfNeeded

def setPlayoutEnabled (s : State) (enabled : Bool) : State :=
  if s.playoutEnabled = enabled then s
  else { s with playoutEnabled := enabled }.switchPlayoutModeIfNeeded

/-! ## The device module -/

def initPlayout (s : State) : State × Int :=
  if s.isPlatformPlayoutActive then
    match s.platformAdm with
    | some adm =>
      let result := adm.playout.init.2
      let s := s.onPlayout fun line => line.init.1
      (if result = 0 then { s with playoutInitialized := true } else s, result)
    | none => (s, -1)
  else ({ s with playoutInitialized := true }, 0)

def startPlayout (s : State) : State × Int :=
  let s := { s with playing := true }
  if s.isPlatformPlayoutActive then
    match s.platformAdm with
    | some adm => (s.onPlayout fun line => line.start.1, adm.playout.start.2)
    | none => (s, -1)
  else (s.setSynthetic true, 0)

def stopPlayout (s : State) : State × Int :=
  (({ s with playing := false }.setSynthetic false).onPlayout fun line => line.stop.1, 0)

def platformPlaying (s : State) : Bool := s.platformAdm.any fun adm => adm.playout.running

def platformRecording (s : State) : Bool := s.platformAdm.any fun adm => adm.recording.running

/-- `Playing` -/
def reportsPlaying (s : State) : Bool :=
  if s.isPlatformPlayoutActive then s.platformPlaying else s.syntheticAdm.playing

def initRecording (s : State) : State × Int :=
  match s.recordingAdm with
  | none => (s, 0)
  | some adm =>
    let result := adm.recording.init.2
    let s := s.onRecording fun line => line.init.1
    (if result = 0 then { s with recordingInitialized := true } else s, result)

def startRecording (s : State) : State × Int :=
  match s.recordingAdm with
  -- a success, but `recording` is not set
  | none => (s, 0)
  | some adm =>
    ({ s with recording := true }.onRecording fun line => line.start.1, adm.recording.start.2)

def stopRecording (s : State) : State × Int :=
  let s := { s with recording := false }
  match s.recordingAdm with
  | some adm => (s.onRecording fun line => line.stop.1, adm.recording.stop.2)
  | none => (s, 0)

end State

/-! ## The steps -/

inductive Action where
  | acquirePlatformAdm
  | releasePlatformAdm
  | setRecordingEnabled (enabled : Bool)
  | setPlayoutEnabled (enabled : Bool)
  | initPlayout
  | startPlayout
  | stopPlayout
  | initRecording
  | startRecording
  | stopRecording
  /-- The platform changes its mind about which devices can be started. -/
  | setAvailable (playout recording : Bool)

/-- The calls of WebRTC that start and stop recording, with the result. -/
inductive Record where
  | startRecording (result : Int)
  | stopRecording (result : Int)
deriving DecidableEq

/-- A step, and what is put on record by it. -/
def State.turn (s : State) : Action → State × List Record
  | .acquirePlatformAdm => (s.acquirePlatformAdm.1, [])
  | .releasePlatformAdm => (s.releasePlatformAdm, [])
  | .setRecordingEnabled enabled => (s.setRecordingEnabled enabled, [])
  | .setPlayoutEnabled enabled => (s.setPlayoutEnabled enabled, [])
  | .initPlayout => (s.initPlayout.1, [])
  | .startPlayout => (s.startPlayout.1, [])
  | .stopPlayout => (s.stopPlayout.1, [])
  | .initRecording => (s.initRecording.1, [])
  | .startRecording => (s.startRecording.1, [.startRecording s.startRecording.2])
  | .stopRecording => (s.stopRecording.1, [.stopRecording s.stopRecording.2])
  | .setAvailable playout recording =>
    ((s.onPlayout fun line => { line with available := playout }).onRecording
      fun line => { line with available := recording }, [])

def State.step (s : State) (a : Action) : Option State := some (s.turn a).1

/-- What a step puts on record. -/
def record (s : State) (a : Action) : List Record := (s.turn a).2

end LiveKit.AdmProxy
