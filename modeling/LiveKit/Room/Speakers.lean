import LiveKit.Room.Restart
import Mathlib.Data.List.Sort

/-!
# The active speakers of a room

`handle_speakers_changed` of `room/mod.rs`. A participant is a shared object, and the list of
active speakers has the objects: one that the table of participants drops stays on the list as it
is. Which object is kept under an identity is counted here next to the table: `create_participant`
makes a new one, and then `ParticipantConnected` is dispatched. The audio levels are of a linear
order, as those are that a message may have.
-/

namespace LiveKit.Room.Speakers

open LiveKit.RtcSession (ParticipantSid ParticipantIdentity)

/-- A participant object. -/
inductive Handle
  | localParticipant
  | remote (id : ℕ)
deriving DecidableEq

/-- The `speaking` and `audio_level` of a participant. -/
structure Voice (α : Type) where
  speaking : Bool
  audioLevel : α

/-- `proto::SpeakerInfo`; `first` says which participant with the `sid` the iteration of the table
comes to first. -/
structure SpeakerInfo (α : Type) where
  first : ℕ
  sid : ParticipantSid
  level : α
  active : Bool

structure State (α : Type) where
  room : Room.State
  /-- The object that is kept under an identity. -/
  keptUnder : ParticipantIdentity → ℕ
  /-- How many remote participants were created. -/
  created : ℕ
  voices : Handle → Voice α
  activeSpeakers : List Handle

/-- What the room gets. -/
inductive Action (α : Type)
  | engineEvent (event : EngineEvent)
  | speakersChanged (speakersInfo : List (SpeakerInfo α))

/-- The participant that a turn of an update created. -/
def connected? (events : List RoomEvent) : Option RemoteParticipant :=
  events.findSome? fun
    | .participantConnected p => some p
    | _ => none

namespace State

variable {α : Type} [LinearOrder α] [Zero α]

/-- A room with the local participant alone. -/
def new (localParticipant : LocalParticipant) : State α :=
  ⟨⟨localParticipant, ∅⟩, fun _ => 0, 0, fun _ => ⟨false, 0⟩, []⟩

/-! ## The participants -/

/-- One turn of the loop of `handle_participant_update`. -/
def participantInfo (s : State α) (first : ℕ) (pi : ParticipantInfo) : State α :=
  let turn := s.room.handleParticipantInfo first pi
  match connected? turn.2.1 with
  | some p =>
    { s with
      room := turn.1
      keptUnder := Function.update s.keptUnder p.identity s.created
      created := s.created + 1
      voices := Function.update s.voices (.remote s.created) ⟨false, 0⟩ }
  | none => { s with room := turn.1 }

def participantInfos (s : State α) : List (ℕ × ParticipantInfo) → State α
  | [] => s
  | (first, pi) :: updates => (s.participantInfo first pi).participantInfos updates

/-- What an event of the engine does to the participants. -/
def onEngineEvent (s : State α) : EngineEvent → State α
  | .participantUpdate updates => s.participantInfos updates
  | .restarting => { s with room := s.room.handleRestarting.1 }
  | .signalRestarted joinResponse =>
    ({ s with room := s.room.updateLocal joinResponse.participant } : State α).participantInfos
      joinResponse.otherParticipants
  | .resuming | .signalResumed | .resumed | .restarted => s

/-! ## The speakers -/

/-- The participant with the `sid`, the local one first. -/
def participantOf (s : State α) (first : ℕ) (sid : ParticipantSid) : Option Handle :=
  if sid = s.room.localParticipant.sid then some .localParticipant
  else (s.room.getParticipantBySid first sid).map fun entry => .remote (s.keptUnder entry.1)

/-- `set_speaking` and `set_audio_level`. -/
def setVoice (s : State α) (participant : Handle) (speaking : Bool) (level : α) : State α :=
  { s with voices := Function.update s.voices participant ⟨speaking, level⟩ }

/-- The loop of `handle_speakers_changed`: the room with what the participants have now, and those
that are active. -/
def setVoices (s : State α) (speakers : List Handle) :
    List (SpeakerInfo α) → State α × List Handle
  | [] => (s, speakers)
  | speaker :: rest =>
    match s.participantOf speaker.first speaker.sid with
    | none => s.setVoices speakers rest
    | some participant =>
      (s.setVoice participant speaker.active speaker.level).setVoices
        (if speaker.active then speakers ++ [participant] else speakers) rest

/-- `handle_speakers_changed`: the sort is stable. -/
def handleSpeakersChanged (s : State α) (speakersInfo : List (SpeakerInfo α)) : State α :=
  let (s, speakers) := s.setVoices [] speakersInfo
  { s with activeSpeakers := speakers.insertionSort fun a b =>
      (s.voices a).audioLevel ≤ (s.voices b).audioLevel }

def step (s : State α) : Action α → Option (State α)
  | .engineEvent event => some (s.onEngineEvent event)
  | .speakersChanged speakersInfo => some (s.handleSpeakersChanged speakersInfo)

/-- The lists that `ActiveSpeakersChanged` carries. -/
def events (s : State α) : Action α → List (List Handle)
  | .engineEvent _ => []
  | .speakersChanged speakersInfo => [(s.handleSpeakersChanged speakersInfo).activeSpeakers]

/-! ## What the list of active speakers should have -/

/-- The participant is in the room. -/
def InRoom (s : State α) : Handle → Prop
  | .localParticipant => True
  | .remote id => ∃ identity, (AList.lookup identity s.room.remoteParticipants).isSome ∧
      s.keptUnder identity = id

def IsSpeaking (s : State α) (participant : Handle) : Prop :=
  (s.voices participant).speaking = true

/-- The list has each participant of the room that is speaking exactly once, in the order of their
levels, and nobody else. -/
structure SpeakersAgree (s : State α) : Prop where
  once : s.activeSpeakers.Nodup
  speaking : ∀ participant,
    participant ∈ s.activeSpeakers ↔ s.InRoom participant ∧ s.IsSpeaking participant
  ordered : s.activeSpeakers.Pairwise fun a b =>
    (s.voices a).audioLevel ≤ (s.voices b).audioLevel

/-- And the last event had the list. -/
def Agrees (told : List (List Handle)) (s : State α) : Prop :=
  s.SpeakersAgree ∧ told.getLast?.getD [] = s.activeSpeakers

/-! ## When it has -/

/-- Whether each entry of the message that is about the participant has it active. -/
def flags (s : State α) (speakersInfo : List (SpeakerInfo α)) (participant : Handle) : List Bool :=
  (speakersInfo.filter fun speaker =>
    s.participantOf speaker.first speaker.sid = some participant).map (·.active)

/-- A message with every speaker: it has an entry for each participant that was speaking, and none
after an entry that has the participant active. -/
def HasEverySpeaker (s : State α) (speakersInfo : List (SpeakerInfo α)) : Prop :=
  ∀ participant, s.InRoom participant →
    (s.flags speakersInfo participant = [] → ¬ s.IsSpeaking participant) ∧
      ∀ active ∈ (s.flags speakersInfo participant).dropLast, active = false

/-- A step that leaves out no speaker: nobody who is speaking leaves the room, and a message has
every speaker. -/
def LeavesOutNobody (s : State α) (a : Action α) (s' : State α) : Prop :=
  match a with
  | .engineEvent _ =>
    ∀ participant, s.InRoom participant → s.IsSpeaking participant → s'.InRoom participant
  | .speakersChanged speakersInfo => s.HasEverySpeaker speakersInfo

end State

end LiveKit.Room.Speakers
