import LiveKit.Room.Publications

/-!
# What the server is told about publications

`mute` and `unmute` of a local publication, and `set_subscribed`, `set_enabled`,
`update_video_dimensions` and `set_video_quality` of a remote one, with the handlers that
`add_publication` registers. Every call changes the publication at once and spawns a task that sends
a message, where some of the values are those of the call and some are read when the task runs.
-/

namespace LiveKit.TrackUpdates

open Publications (TrackSid)

inductive VideoQuality where
  | low
  | medium
  | high

structure TrackDimension where
  width : ℕ
  height : ℕ
deriving DecidableEq

/-! ## Messages -/

structure MuteTrackRequest where
  sid : TrackSid
  muted : Bool

structure ParticipantTracks where
  participantSid : String
  trackSids : List TrackSid

structure UpdateSubscription where
  trackSids : List TrackSid
  subscribe : Bool
  participantTracks : List ParticipantTracks

/-- What is not set has its default; for the quality that is the lowest. -/
structure UpdateTrackSettings where
  trackSids : List TrackSid
  disabled : Bool := false
  quality : VideoQuality := .low
  width : ℕ := 0
  height : ℕ := 0

inductive SignalRequest where
  | mute (request : MuteTrackRequest)
  | subscription (update : UpdateSubscription)
  | trackSetting (update : UpdateTrackSettings)

/-! ## The state -/

structure LocalPublication where
  sid : TrackSid
  /-- Of its track. -/
  muted : Bool

structure RemotePublication where
  sid : TrackSid
  participantSid : String
  simulcasted : Bool
  /-- What `is_desired` says. -/
  subscribed : Bool
  /-- The track, by whether it is enabled. -/
  track : Option Bool
  dimension : TrackDimension
deriving DecidableEq

def RemotePublication.isEnabled (p : RemotePublication) : Bool := p.track.getD false

/-- What a handler spawns a task for, with the values that the task captures. -/
inductive Update where
  | muted (muted : Bool)
  | subscription (subscribed : Bool)
  | enabled (enabled : Bool)
  | dimension (dimension : TrackDimension)
  | quality (quality : VideoQuality)

inductive Point where
  | spawned
  /-- The message is made from what the publication has then. -/
  | sending (seen : RemotePublication)
  | done
deriving DecidableEq

structure Task where
  update : Update
  point : Point

structure State where
  localPublication : LocalPublication
  remotePublication : RemotePublication
  tasks : List Task

def State.new (localPublication : LocalPublication) (remotePublication : RemotePublication) :
    State where
  localPublication := localPublication
  remotePublication := remotePublication
  tasks := []

/-! ## Messages of the handlers -/

def RemotePublication.enabledSettings (p : RemotePublication) (enabled : Bool) :
    UpdateTrackSettings where
  trackSids := [p.sid]
  disabled := !enabled
  width := p.dimension.width
  height := p.dimension.height

def RemotePublication.dimensionSettings (p : RemotePublication) (dimension : TrackDimension) :
    UpdateTrackSettings where
  trackSids := [p.sid]
  disabled := !p.isEnabled
  width := dimension.width
  height := dimension.height

def RemotePublication.qualitySettings (p : RemotePublication) (quality : VideoQuality) :
    UpdateTrackSettings where
  trackSids := [p.sid]
  quality := quality

/-- The message of a task. -/
def Update.message (sid : TrackSid) (p : RemotePublication) : Update → SignalRequest
  | .muted value => .mute { sid, muted := value }
  | .subscription subscribed =>
    .subscription
      { trackSids := [p.sid]
        subscribe := subscribed
        participantTracks := [⟨p.participantSid, [p.sid]⟩] }
  | .enabled value => .trackSetting (p.enabledSettings value)
  | .dimension value => .trackSetting (p.dimensionSettings value)
  | .quality value => .trackSetting (p.qualitySettings value)

/-! ## Calls -/

inductive Call where
  | mute
  | unmute
  | setSubscribed (subscribed : Bool)
  | setEnabled (enabled : Bool)
  | updateVideoDimensions (dimension : TrackDimension)
  | setVideoQuality (quality : VideoQuality)

namespace State

def spawn (s : State) (update : Update) : State :=
  { s with tasks := s.tasks ++ [⟨update, .spawned⟩] }

/-- The track tells the publication if it changes, and then the publication runs its handler. -/
def setMuted (s : State) (muted : Bool) : State :=
  if s.localPublication.muted = muted then s.spawn (.muted muted)
  else
    ({ s with localPublication := { s.localPublication with muted } }.spawn (.muted muted)).spawn
      (.muted muted)

def setSubscribed (s : State) (subscribed : Bool) : State :=
  let track := if subscribed then s.remotePublication.track else none
  { s with remotePublication := { s.remotePublication with subscribed, track } }.spawn
    (.subscription subscribed)

def setEnabled (s : State) (enabled : Bool) : State :=
  match s.remotePublication.track with
  | none => s
  | some before =>
    if enabled = before then s
    else
      { s with remotePublication := { s.remotePublication with track := some !before } }.spawn
        (.enabled enabled)

def updateVideoDimensions (s : State) (dimension : TrackDimension) : State :=
  match s.remotePublication.track with
  | none => s
  | some _ =>
    { s with remotePublication := { s.remotePublication with dimension } }.spawn
      (.dimension dimension)

def setVideoQuality (s : State) (quality : VideoQuality) : State :=
  if s.remotePublication.simulcasted then s.spawn (.quality quality) else s

def call (s : State) : Call → State
  | .mute => s.setMuted true
  | .unmute => s.setMuted false
  | .setSubscribed subscribed => s.setSubscribed subscribed
  | .setEnabled enabled => s.setEnabled enabled
  | .updateVideoDimensions dimension => s.updateVideoDimensions dimension
  | .setVideoQuality quality => s.setVideoQuality quality

end State

/-! ## The steps -/

inductive Action where
  | call (call : Call)
  /-- The SDK gives the remote publication a track, which is enabled, or takes it away. -/
  | attach
  | detach
  /-- A task makes its message. -/
  | start (i : ℕ)
  /-- The signal client has sent the message of a task. -/
  | send (i : ℕ)

/-- What is put on record. -/
inductive Record where
  | called (call : Call)
  /-- The message of a task is sent, for what the publication had when it was made. -/
  | sent (update : Update) (seen : RemotePublication) (message : SignalRequest)

namespace State

def start (s : State) (i : ℕ) (task : Task) : Option (State × List Record) :=
  match task.point with
  | .spawned =>
    some ({ s with tasks := s.tasks.set i { task with point := .sending s.remotePublication } }, [])
  | _ => none

def send (s : State) (i : ℕ) (task : Task) : Option (State × List Record) :=
  match task.point with
  | .sending seen =>
    some ({ s with tasks := s.tasks.set i { task with point := .done } },
      [.sent task.update seen (task.update.message s.localPublication.sid seen)])
  | _ => none

/-- A step, and what is put on record by it. -/
def turn (s : State) : Action → Option (State × List Record)
  | .call call => some (s.call call, [.called call])
  | .attach =>
    some ({ s with remotePublication := { s.remotePublication with track := some true } }, [])
  | .detach => some ({ s with remotePublication := { s.remotePublication with track := none } }, [])
  | .start i => s.tasks[i]?.bind (s.start i)
  | .send i => s.tasks[i]?.bind (s.send i)

def step (s : State) (a : Action) : Option State := (s.turn a).map Prod.fst

end State

/-- What a step puts on record. -/
def record (s : State) (a : Action) : List Record := (s.turn a).elim [] Prod.snd

end LiveKit.TrackUpdates
