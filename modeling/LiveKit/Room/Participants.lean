import LiveKit.Lib.TransitionSystem
import LiveKit.RtcSession.Basic

/-!
# The participants of a room

`handle_participant_update` of `room/mod.rs` and what it calls. The remote participants are kept
under their identities. A handle on a participant is shared, so an update of one that was found by
its `sid` is seen under the identity that it is kept under. Tracks, and what is told about changes
of a participant's other data, are left out.
-/

namespace LiveKit.Room

open LiveKit.RtcSession (ParticipantSid ParticipantIdentity)

inductive ParticipantState where
  | joining
  | joined
  | active
  | disconnected
deriving DecidableEq

/-- What the protocol's accessor makes of the number in a message. -/
def ParticipantState.ofNumber : Int → ParticipantState
  | 1 => .joined
  | 2 => .active
  | 3 => .disconnected
  | _ => .joining

/-- `proto::participant_info::State::Disconnected as i32` -/
def disconnectedNumber : Int := 3

/-- `proto::ParticipantInfo` -/
structure ParticipantInfo where
  sid : ParticipantSid
  identity : ParticipantIdentity
  state : Int
  name : String
  metadata : String

structure RemoteParticipant where
  sid : ParticipantSid
  identity : ParticipantIdentity
  state : ParticipantState
  name : String
  metadata : String
deriving DecidableEq

structure LocalParticipant where
  sid : ParticipantSid
  identity : ParticipantIdentity

def RemoteParticipant.updateInfo (p : RemoteParticipant) (pi : ParticipantInfo) :
    RemoteParticipant :=
  { p with
    state := .ofNumber pi.state
    sid := pi.sid
    identity := pi.identity
    name := pi.name
    metadata := pi.metadata }

def LocalParticipant.updateInfo (p : LocalParticipant) (pi : ParticipantInfo) :
    LocalParticipant :=
  { p with sid := pi.sid, identity := pi.identity }

inductive Participant where
  | local (participant : LocalParticipant)
  | remote (participant : RemoteParticipant)

/-- The events of a room that are about its participants. -/
inductive RoomEvent where
  | participantConnected (participant : RemoteParticipant)
  | participantDisconnected (participant : RemoteParticipant)
  | participantActive (participant : RemoteParticipant)
  | participantsUpdated (participants : List Participant)

structure State where
  localParticipant : LocalParticipant
  remoteParticipants : AssocMap ParticipantIdentity RemoteParticipant

namespace State

/-- The participants with the `sid`, under their keys. -/
def withSid (s : State) (sid : ParticipantSid) : List (ParticipantIdentity × RemoteParticipant) :=
  (AssocMap.toPairs s.remoteParticipants).filter fun entry => entry.2.sid = sid

/-- `get_participant_by_sid`; `first` says which participant with the `sid` the iteration comes to
first. -/
def getParticipantBySid (s : State) (first : ℕ) (sid : ParticipantSid) :
    Option (ParticipantIdentity × RemoteParticipant) :=
  (s.withSid sid)[first % (s.withSid sid).length]?

def getParticipantByIdentity (s : State) (identity : ParticipantIdentity) :
    Option RemoteParticipant :=
  AList.lookup identity s.remoteParticipants

/-- `create_participant`, and the update with the same information that always comes next. -/
def createParticipant (s : State) (pi : ParticipantInfo) : State × RemoteParticipant :=
  let p := ⟨pi.sid, pi.identity, .ofNumber pi.state, pi.name, pi.metadata⟩
  ({ s with remoteParticipants := AList.insert pi.identity p s.remoteParticipants }, p)

def handleParticipantDisconnect (s : State) (p : RemoteParticipant) : State × List RoomEvent :=
  ({ s with remoteParticipants := AList.erase p.identity s.remoteParticipants },
    [.participantDisconnected p])

/-- The update is about the local participant. -/
def IsLocal (s : State) (pi : ParticipantInfo) : Prop :=
  pi.sid = s.localParticipant.sid ∨ pi.identity = s.localParticipant.identity

instance (s : State) (pi : ParticipantInfo) : Decidable (s.IsLocal pi) :=
  inferInstanceAs (Decidable (_ ∨ _))

/-- The remote participant sid could have changed: then the old participant is removed. -/
def removeOld (s : State) (pi : ParticipantInfo) : State × List RoomEvent :=
  match s.getParticipantByIdentity pi.identity with
  | some p => if p.sid ≠ pi.sid then s.handleParticipantDisconnect p else (s, [])
  | none => (s, [])

/-- The rest of the turn for a remote participant. -/
def updateRemote (s : State) (first : ℕ) (pi : ParticipantInfo) :
    State × List RoomEvent × List Participant :=
  match s.getParticipantBySid first pi.sid with
  | some (key, p) =>
    let updated := p.updateInfo pi
    let s := { s with remoteParticipants := AList.insert key updated s.remoteParticipants }
    if pi.state = disconnectedNumber then
      let (s, events) := s.handleParticipantDisconnect updated
      (s, events, [])
    else
      (s, if p.state ≠ .active ∧ updated.state = .active then [.participantActive updated] else [],
        [.remote updated])
  | none =>
    if pi.state = disconnectedNumber then (s, [], [])
    else
      let (s, p) := s.createParticipant pi
      (s, .participantConnected p :: if p.state = .active then [.participantActive p] else [], [])

/-- One turn of the loop of `handle_participant_update`: the room, the events, and the participants
that go on the list. -/
def handleParticipantInfo (s : State) (first : ℕ) (pi : ParticipantInfo) :
    State × List RoomEvent × List Participant :=
  if s.IsLocal pi then
    let s := { s with localParticipant := s.localParticipant.updateInfo pi }
    (s, [], [.local s.localParticipant])
  else
    let (s, events) := s.removeOld pi
    let (s, events', participants) := s.updateRemote first pi
    (s, events ++ events', participants)

/-- The loop of `handle_participant_update`. -/
def handleParticipantInfos (s : State) :
    List (ℕ × ParticipantInfo) → State × List RoomEvent × List Participant
  | [] => (s, [], [])
  | (first, pi) :: updates =>
    let (s, events, participants) := s.handleParticipantInfo first pi
    let (s, events', participants') := s.handleParticipantInfos updates
    (s, events ++ events', participants ++ participants')

def handleParticipantUpdate (s : State) (updates : List (ℕ × ParticipantInfo)) :
    State × List RoomEvent :=
  let (s, events, participants) := s.handleParticipantInfos updates
  (s, events ++ if participants.isEmpty then [] else [.participantsUpdated participants])

end State

/-- A turn of the loop in some update. -/
structure Turn where
  first : ℕ
  info : ParticipantInfo

/-- What is recorded of a run. -/
inductive Record where
  | info (info : ParticipantInfo)
  | event (event : RoomEvent)

namespace State

def step (s : State) (turn : Turn) : Option State :=
  some (s.handleParticipantInfo turn.first turn.info).1

end State

/-- What is recorded at a step. -/
def record (s : State) (turn : Turn) : List Record :=
  .info turn.info :: (s.handleParticipantInfo turn.first turn.info).2.1.map .event

/-! ## What the updates say -/

/-- Who is in the room, going by the updates. -/
structure Roster where
  localParticipant : LocalParticipant
  remote : ParticipantIdentity → Option RemoteParticipant

namespace Roster

def ofState (s : State) : Roster :=
  ⟨s.localParticipant, fun identity => AList.lookup identity s.remoteParticipants⟩

/-- The participant is who the information says; one that has disconnected is gone if it is the one
with the `sid`. -/
def apply (r : Roster) (pi : ParticipantInfo) : Roster :=
  if pi.sid = r.localParticipant.sid ∨ pi.identity = r.localParticipant.identity then
    { r with localParticipant := ⟨pi.sid, pi.identity⟩ }
  else
    { r with remote := fun identity =>
        if identity = pi.identity then
          if pi.state = disconnectedNumber then
            (r.remote identity).filter fun p => p.sid ≠ pi.sid
          else some ⟨pi.sid, pi.identity, .ofNumber pi.state, pi.name, pi.metadata⟩
        else r.remote identity }

end Roster

/-- The updates on record. -/
def Record.info? : Record → Option ParticipantInfo
  | info pi => some pi
  | event _ => none

def rosterAfter (start : State) (records : List Record) : Roster :=
  (records.filterMap Record.info?).foldl Roster.apply (Roster.ofState start)

/-- Whether the participant is there after one more entry of the record; `none` if somebody came who
was there, or went who was not. -/
def presenceStep (identity : ParticipantIdentity) (present : Option Bool) : Record → Option Bool
  | .event (.participantConnected p) =>
    if p.identity = identity then if present = some false then some true else none else present
  | .event (.participantDisconnected p) =>
    if p.identity = identity then if present = some true then some false else none else present
  | _ => present

def presence (identity : ParticipantIdentity) (present : Bool) (records : List Record) :
    Option Bool :=
  records.foldl (presenceStep identity) (some present)

/-- The remote participants are those that the updates say. -/
structure Follows (start : State) (records : List Record) (s : State) : Prop where
  /-- Every participant is kept under its identity. -/
  keyed : ∀ identity p, AList.lookup identity s.remoteParticipants = some p →
    p.identity = identity
  roster : ∀ identity, AList.lookup identity s.remoteParticipants
    = (rosterAfter start records).remote identity
  /-- The events of each identity alternate. -/
  alternates : ∀ identity,
    (presence identity (AList.lookup identity start.remoteParticipants).isSome records).isSome

end LiveKit.Room
