import LiveKit.Room.Publications
import LiveKit.RtcEngine.EngineTheorems

/-!
# Moving to another room

`handle_room_moved` of `room/mod.rs`, with the publications of the remote participants next to the
table, and the token of the signal client: `signal_task` stores the one of a `RefreshToken`, a
resume presents the one that the client has, and a restart the one that the client had when
`reconnect_task` began. What comes of a message after `signal_task` does not depend on whether its
connection is up, so messages come at any time.
-/

namespace LiveKit.RoomMove

open LiveKit.Publications (TrackSid)
open LiveKit.Room
open LiveKit.RtcSession (ParticipantSid ParticipantIdentity)

abbrev Token := String

/-! ## Messages -/

/-- `proto::ParticipantInfo` with its tracks. `first` says which participant with the `sid` the
iteration of the table comes to first, and `order` how a pass over publications goes. -/
structure Info where
  first : ℕ
  info : ParticipantInfo
  tracks : List TrackSid
  order : List ℕ

/-- `proto::RoomMovedResponse` -/
structure Moved where
  token : Token
  participant : Option ParticipantInfo
  otherParticipants : List Info

inductive Message where
  | refreshToken (token : Token)
  | roomMoved (moved : Moved)
  | participantUpdate (updates : List Info)

/-- The events of a room that a move may have. -/
inductive Event where
  | participant (event : RoomEvent)
  | trackPublished (sid : ParticipantSid) (track : TrackSid)
  | trackUnpublished (sid : ParticipantSid) (track : TrackSid)
  | tokenRefreshed (token : Token)
  | moved

/-! ## The participants and their publications -/

/-- The publications are those of the participant that is kept under the identity. -/
structure Room where
  base : LiveKit.Room.State
  publications : ParticipantIdentity → List TrackSid

/-- The tracks of an information that are new: they are added, and published. -/
def newTracks (publications : List TrackSid) : List TrackSid → List TrackSid
  | [] => []
  | track :: tracks =>
    if track ∈ publications then newTracks publications tracks
    else track :: newTracks (publications ++ [track]) tracks

namespace Room

/-- `handle_participant_disconnect` of the participant that is kept under the key. -/
def disconnect (r : Room) (key : ParticipantIdentity) (p : RemoteParticipant) (order : List ℕ) :
    Room × List Event :=
  let (base, events) := r.base.handleParticipantDisconnect p
  ({ base, publications := Function.update r.publications key [] },
    (AssocMap.reorder order (r.publications key)).map (.trackUnpublished p.sid) ++
      events.map .participant)

/-- The tracks in `update_info` of the participant that is kept under the key. -/
def updateTracks (r : Room) (key : ParticipantIdentity) (pi : Info) : Room × List Event :=
  let added := newTracks (r.publications key) pi.tracks
  let valid := (r.publications key ++ added).filter (· ∈ pi.tracks)
  let gone := (r.publications key ++ added).filter (· ∉ pi.tracks)
  ({ r with publications := Function.update r.publications key valid },
    added.map (.trackPublished pi.info.sid) ++
      (AssocMap.reorder pi.order gone).map (.trackUnpublished pi.info.sid))

/-- The remote participant sid could have changed: then the old participant is removed. -/
def removeOld (r : Room) (pi : Info) : Room × List Event :=
  match r.base.getParticipantByIdentity pi.info.identity with
  | some p =>
    if p.sid ≠ pi.info.sid then r.disconnect pi.info.identity p pi.order else (r, [])
  | none => (r, [])

/-- The rest of the turn for a remote participant. -/
def updateRemote (r : Room) (pi : Info) : Room × List Event :=
  match r.base.getParticipantBySid pi.first pi.info.sid with
  | some (key, p) =>
    let updated := p.updateInfo pi.info
    let base :=
      { r.base with remoteParticipants := AList.insert key updated r.base.remoteParticipants }
    let (r, events) := { r with base }.updateTracks key pi
    if pi.info.state = disconnectedNumber then
      let (r, events') := r.disconnect key updated pi.order
      (r, events ++ events')
    else
      (r, events ++ if p.state ≠ .active ∧ updated.state = .active then
        [.participant (.participantActive updated)] else [])
  | none =>
    if pi.info.state = disconnectedNumber then (r, [])
    else
      let (base, p) := r.base.createParticipant pi.info
      let publications := Function.update r.publications pi.info.identity []
      let (r, events) := { base, publications : Room }.updateTracks pi.info.identity pi
      (r, .participant (.participantConnected p) ::
        (if p.state = .active then [.participant (.participantActive p)] else []) ++ events)

/-- One turn of the loop of `handle_participant_update`. -/
def handleParticipantInfo (r : Room) (pi : Info) : Room × List Event :=
  if r.base.IsLocal pi.info then ({ r with base := r.base.updateLocal pi.info }, [])
  else
    let (r, events) := r.removeOld pi
    let (r, events') := r.updateRemote pi
    (r, events ++ events')

def handleParticipantInfos (r : Room) : List Info → Room × List Event
  | [] => (r, [])
  | pi :: updates =>
    let (r, events) := r.handleParticipantInfo pi
    let (r, events') := r.handleParticipantInfos updates
    (r, events ++ events')

/-- `handle_participant_update`; who goes on the list does not depend on the tracks. -/
def handleParticipantUpdate (r : Room) (updates : List Info) : Room × List Event :=
  let participants :=
    (r.base.handleParticipantInfos (updates.map fun pi => (pi.first, pi.info))).2.2
  let (r, events) := r.handleParticipantInfos updates
  (r, events ++
    if participants.isEmpty then [] else [.participant (.participantsUpdated participants)])

/-- The first part of `handle_room_moved`. -/
def updateLocal (r : Room) : Option ParticipantInfo → Room × List Event
  | some pi =>
    let r := { r with base := r.base.updateLocal pi }
    (r, [.participant (.participantsUpdated [.local r.base.localParticipant])])
  | none => (r, [])

/-- `handle_room_moved` -/
def handleRoomMoved (r : Room) (moved : Moved) : Room × List Event :=
  let (r, events) := r.updateLocal moved.participant
  let (r, events') := r.handleParticipantUpdate moved.otherParticipants
  (r, .tokenRefreshed moved.token :: events ++ events' ++ [.moved])

/-- What the room makes of a message. -/
def handle (r : Room) : Message → Room × List Event
  | .refreshToken token => (r, [.tokenRefreshed token])
  | .roomMoved moved => r.handleRoomMoved moved
  | .participantUpdate updates => r.handleParticipantUpdate updates

end Room

/-! ## The signal client and the engine -/

open RtcEngine (Engine.Stage Engine.Outcome)

structure State where
  room : Room
  /-- The messages that the room task has yet to handle. -/
  messages : List Message
  engine : RtcEngine.Engine.State
  /-- What the signal client of each session has. -/
  tokens : ℕ → Token
  /-- What `reconnect_task` has taken from the signal client when it began. -/
  taken : Token
  /-- The resume has taken the token from the signal client. -/
  presented : Bool

/-- A room that is connected with the token. -/
def State.new (room : Room) (token : Token) : State where
  room := room
  messages := []
  engine := .new
  tokens := fun _ => token
  taken := token
  presented := false

inductive Action where
  /-- `signal_task` receives a message. -/
  | receive (message : Message)
  /-- The room task handles the next message. -/
  | handle
  /-- Something else leaves the room like this, such as a restart. -/
  | other (room : Room)
  | engine (a : RtcEngine.Engine.Action)
  /-- A resume takes the token from the signal client. -/
  | present

inductive Record where
  | received (message : Message)
  /-- A `RoomMoved` is handled. -/
  | moved (before : Room) (moved : Moved) (after : Room) (events : List Event)
  /-- `reconnect_task` begins. -/
  | began
  /-- An attempt connects with the token. -/
  | authenticated (token : Token)

namespace State

/-- The session that has the signal connection: while a restart waits, the one that it has made. -/
def current (s : RtcEngine.Engine.State) : ℕ :=
  match s.reconnectTask with
  | some (.signalRestarted _) => s.nextSession
  | some (.waitingPc _) => s.nextSession
  | _ => s.handle.session

/-- What the signal client has. -/
def token (s : State) : Token := s.tokens (current s.engine)

/-- `signal_task` -/
def receive (s : State) (message : Message) : State :=
  let s := { s with messages := s.messages ++ [message] }
  match message with
  | .refreshToken token =>
    { s with tokens := Function.update s.tokens (current s.engine) token }
  | _ => s

/-- What a step of the engine does with the tokens, and what is put on record of it. -/
def engineTurn (s : State) (a : RtcEngine.Engine.Action) (engine : RtcEngine.Engine.State) :
    State × List Record :=
  match a, s.engine.reconnectTask with
  | .work, some .locking => ({ s with engine, taken := s.token }, [.began])
  | .work, some (.beginning _ false) => ({ s with engine, presented := false }, [])
  | .work, some (.beginning _ true) =>
    -- without an engine task there is no session to close before
    ({ s with engine },
      if s.engine.handle.engineTask = none then [.authenticated s.taken] else [])
  | .work, some (.closingSession _ _ _) => ({ s with engine }, [.authenticated s.taken])
  | .attemptReturned .ok, some (.connecting _) =>
    ({ s with engine, tokens := Function.update s.tokens s.engine.nextSession s.taken }, [])
  | _, _ => ({ s with engine }, [])

/-- The attempt is in a resume that has yet to take the token. -/
def presenting (s : State) : Bool :=
  match s.engine.reconnectTask with
  | some (.resuming _) => !s.presented
  | _ => false

/-- A step, and what is put on record by it. -/
def turn (s : State) : Action → Option (State × List Record)
  | .receive message => some (s.receive message, [.received message])
  | .handle =>
    match s.messages with
    | [] => none
    | message :: messages =>
      let (room, events) := s.room.handle message
      some ({ s with room, messages },
        match message with
        | .roomMoved moved => [.moved s.room moved room events]
        | _ => [])
  | .other room => some ({ s with room }, [])
  | .engine (.attemptReturned outcome) =>
    if s.presenting then none
    else (s.engine.step (.attemptReturned outcome)).map (s.engineTurn (.attemptReturned outcome))
  | .engine a => (s.engine.step a).map (s.engineTurn a)
  | .present =>
    if s.presenting then some ({ s with presented := true }, [.authenticated s.token]) else none

def step (s : State) (a : Action) : Option State := (s.turn a).map Prod.fst

end State

/-- What a step puts on record. -/
def record (s : State) (a : Action) : List Record := (s.turn a).elim [] Prod.snd

/-! ## A complete move -/

/-- Somebody who goes. -/
def Event.departure? : Event → Option (ParticipantIdentity × ParticipantSid)
  | .participant (.participantDisconnected p) => some (p.identity, p.sid)
  | _ => none

/-- Somebody in the room. -/
def Room.Has (r : Room) (identity : ParticipantIdentity) (sid : ParticipantSid) : Prop :=
  ∃ key p, AList.lookup key r.base.remoteParticipants = some p ∧ p.identity = identity ∧
    p.sid = sid

/-- Somebody who is in the room that the message is about. -/
def Moved.Has (moved : Moved) (identity : ParticipantIdentity) (sid : ParticipantSid) : Prop :=
  ∃ pi ∈ moved.otherParticipants, pi.info.state ≠ disconnectedNumber ∧
    pi.info.identity = identity ∧ pi.info.sid = sid

/-- Somebody goes, and before that its tracks do. -/
def Goes (sid : ParticipantSid) (identity : ParticipantIdentity) (tracks : List TrackSid)
    (events : List Event) : Prop :=
  ∃ before after, events = before ++ after ∧
    (identity, sid) ∈ after.filterMap Event.departure? ∧
    ∀ track ∈ tracks, .trackUnpublished sid track ∈ before

/-- The room has the participants of the message, and of the others each has gone once. -/
structure Complete (before : Room) (moved : Moved) (after : Room) (events : List Event) : Prop where
  others : ∀ identity sid, after.Has identity sid ↔ moved.Has identity sid
  gone : ∀ key p, AList.lookup key before.base.remoteParticipants = some p →
    ¬ moved.Has p.identity p.sid →
      (events.filterMap Event.departure?).count (p.identity, p.sid) = 1 ∧
        Goes p.sid p.identity (before.publications key) events

/-- The token that was received last, so far and before `reconnect_task` began. -/
structure Heard where
  latest : Token
  beforeCycle : Token

def Heard.hear (heard : Heard) : Record → Heard
  | .received (.refreshToken token) => { heard with latest := token }
  | .received (.roomMoved moved) => { heard with latest := moved.token }
  | .began => { heard with beforeCycle := heard.latest }
  | _ => heard

def heard (start : Token) (records : List Record) : Heard :=
  records.foldl Heard.hear ⟨start, start⟩

/-- Every move is complete, and every attempt has the token that was received last before its cycle
began. -/
structure MovesComplete (start : Token) (records : List Record) : Prop where
  complete : ∀ before moved after events, .moved before moved after events ∈ records →
    Complete before moved after events
  authentic : ∀ earlier token later, records = earlier ++ .authenticated token :: later →
    token = (heard start earlier).beforeCycle

/-! ## When it is complete -/

/-- The message has one `sid` and one state for an identity and one identity for a `sid`, as the
room has, and is not about the local participant. -/
structure Consistent (r : Room) (others : List Info) : Prop where
  keyed : r.base.Keyed
  remote : ∀ pi ∈ others, ¬ r.base.IsLocal pi.info
  sids : ∀ pi ∈ others, ∀ pi' ∈ others, pi.info.sid = pi'.info.sid →
    pi.info.identity = pi'.info.identity
  identities : ∀ pi ∈ others, ∀ pi' ∈ others, pi.info.identity = pi'.info.identity →
    pi.info.sid = pi'.info.sid ∧
      (pi.info.state = disconnectedNumber ↔ pi'.info.state = disconnectedNumber)
  known : ∀ pi ∈ others, ∀ key p, AList.lookup key r.base.remoteParticipants = some p →
    p.sid = pi.info.sid → key = pi.info.identity

/-- The message mentions everybody who is in the room, be it as one who has left. -/
def MentionsAll (r : Room) (others : List Info) : Prop :=
  ∀ key p, AList.lookup key r.base.remoteParticipants = some p →
    ∃ pi ∈ others, pi.info.identity = key

namespace State

/-- The signal client still has what `reconnect_task` took from it. -/
def Unchanged (s : State) : Prop := s.token = s.taken

/-- A step that does not make the room incomplete, or the token stale. -/
def Keeps (s : State) (a : Action) (_ : State) : Prop :=
  match a with
  | .receive (.roomMoved moved) => moved.token = s.token
  | .handle => ∀ moved ∈ s.messages.head?, match moved with
    | .roomMoved moved =>
      Consistent (s.room.updateLocal moved.participant).1 moved.otherParticipants ∧
        MentionsAll s.room moved.otherParticipants
    | _ => True
  | .present => s.Unchanged
  | .engine (.attemptReturned .ok) => (∃ i, s.engine.reconnectTask = some (.connecting i)) →
    s.Unchanged
  | .engine (.attemptReturned .failed) => (∃ i, s.engine.reconnectTask = some (.waitingPc i)) →
    s.Unchanged
  | _ => True

end State

end LiveKit.RoomMove
