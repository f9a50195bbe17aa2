import LiveKit.DataTrack.Local.Queries

/-!
# A resume and the local data tracks

While the reconnect task resumes a session it holds `reconnecting_lock` for writing, and waits for
the room to answer `SignalResumed`. The room asks the manager of the local data tracks for the
tracks, to put them into `SyncState`. What the manager and the track tasks send goes through a
bounded channel to `local_dt_forward_task`, which needs the lock for reading before it hands an
event on.

The data tracks are those of `DataTrack.Local`, where what is sent is only recorded: here a turn of
the manager is over when its event has a place in the channel.
-/

namespace LiveKit.RtcEngine.SyncState

open DataTrack.Local

/-- Where `local_dt_forward_task` is. -/
inductive ForwardTask where
  /-- In `select!`. -/
  | selecting
  /-- Before `reconnecting_lock`. -/
  | acquiring (event : OutputEvent)
  /-- In `handle_local_data_track_output` of the session, with the lock. -/
  | handling (event : OutputEvent)
  | ended
deriving DecidableEq

/-- Where the room is with its answer to `SignalResumed`. -/
inductive SendSyncState where
  /-- Before `query_tracks`. -/
  | preparing
  /-- In `event_in_tx.send` of `query_tracks`. -/
  | querying
  /-- In `result_rx` of `query_tracks`. -/
  | waiting (query : QueryId)
  | answered
deriving DecidableEq

/-- Where the reconnect task is, as far as a resume goes. -/
inductive ReconnectTask where
  /-- Nobody holds the lock for writing. -/
  | idle
  /-- In `restart` of the session. -/
  | restarting
  /-- `SignalResumed` is sent. -/
  | signalResumed (room : SendSyncState)
  /-- In `restart_publisher` and what comes after it. -/
  | settling
  /-- The resume has ended, and the lock is still held. -/
  | ended
deriving DecidableEq

structure State where
  dataTracks : DataTrack.Local.State
  /-- What the manager is in `event_out_tx.send` with. -/
  sending : List OutputEvent
  /-- The channel of output events. -/
  eventOut : List OutputEvent
  forwardTask : ForwardTask
  reconnectTask : ReconnectTask

inductive Action where
  /-- The application, the signal connection or a task of the data tracks, but the manager. -/
  | dataTracks (a : DataTrack.Local.Action)
  | manager (turn : Turn)
  /-- `event_out_tx.send` of the manager ends. -/
  | managerSend
  /-- `events.next()` -/
  | takeEvent
  /-- The forward task gets the lock; it may find that the engine is closed. -/
  | acquire (closed : Bool)
  | handled
  /-- `events.next()` where nobody can send any more. -/
  | streamEnded
  /-- The room closes, and the forward task ends. -/
  | closeForward
  /-- The reconnect task gets the lock. -/
  | resume
  /-- Something ends that the resume waits for, the answer of the room apart. -/
  | returned (ok : Bool)
  /-- `send_sync_state` up to `query_tracks`; it may have nothing to send. -/
  | prepare (skip : Bool)
  | query
  /-- The room has the tracks, sends `SyncState` and answers. -/
  | received
  /-- The reconnect task has the answer. -/
  | proceed
  /-- The reconnect task ends. -/
  | release

namespace State

def new (encryptionProvider : Option DataTrack.EncryptionProvider) : State :=
  ⟨.new encryptionProvider, [], [], .selecting, .idle⟩

/-- There is a place in the channel of output events. -/
def HasRoom (s : State) : Prop := s.forwardTask ≠ .ended ∧ s.eventOut.length < EVENT_BUFFER_COUNT

instance (s : State) : Decidable s.HasRoom := inferInstanceAs (Decidable (_ ∧ _))

/-- The manager has turns of its own, and the channel says whether there is a place for the packets
of a frame. -/
def Permits (s : State) : DataTrack.Local.Action → Prop
  | .manager _ => False
  | .task _ (.frame _ _ hasRoom) => hasRoom = decide s.HasRoom
  | _ => True

instance (s : State) : (a : DataTrack.Local.Action) → Decidable (s.Permits a)
  | .manager _ => isFalse id
  | .task _ (.frame _ _ _) => inferInstanceAs (Decidable (_ = _))
  | .task _ .start | .task _ .observe | .task _ .unpublish | .publish _ | .abandon _ | .query
  | .tryPush _ _ | .unpublish _ | .drop _ | .wait _ | .waitEnd _ | .sendInput _ | .forward _ _ =>
    isTrue trivial

/-- What has been sent on the way from one state of the data tracks to another. -/
def sent (dataTracks dataTracks' : DataTrack.Local.State) : List OutputEvent :=
  dataTracks'.outputs.drop dataTracks.outputs.length

/-- The reconnect task. -/
def returned (s : State) (ok : Bool) : ReconnectTask → Option State
  | .restarting =>
    some { s with reconnectTask := if ok then .signalResumed .preparing else .ended }
  | .settling => some { s with reconnectTask := .ended }
  | _ => none

def setRoom (s : State) (room : SendSyncState) : State :=
  { s with reconnectTask := .signalResumed room }

def step (s : State) : Action → Option State
  | .dataTracks a =>
    if s.Permits a then
      (s.dataTracks.step a).map fun dataTracks =>
        { s with dataTracks, eventOut := s.eventOut ++ sent s.dataTracks dataTracks }
    else none
  | .manager turn =>
    if s.sending = [] then
      (s.dataTracks.step (.manager turn)).map fun dataTracks =>
        { s with dataTracks, sending := sent s.dataTracks dataTracks }
    else none
  | .managerSend =>
    match s.sending with
    | [] => none
    | event :: rest =>
      -- without a receiver the event is dropped
      if s.forwardTask = .ended then some { s with sending := rest }
      else if s.HasRoom then some { s with sending := rest, eventOut := s.eventOut ++ [event] }
      else none
  | .takeEvent =>
    match s.forwardTask, s.eventOut with
    | .selecting, event :: rest => some { s with forwardTask := .acquiring event, eventOut := rest }
    | _, _ => none
  | .acquire closed =>
    match s.forwardTask with
    | .acquiring event =>
      if s.reconnectTask = .idle then
        some { s with forwardTask := if closed then .selecting else .handling event }
      else none
    | _ => none
  | .handled =>
    match s.forwardTask with
    | .handling _ => some { s with forwardTask := .selecting }
    | _ => none
  | .streamEnded =>
    if s.forwardTask = .selecting ∧ s.eventOut = [] ∧ s.dataTracks.mode = .ended ∧
        s.sending = [] ∧ ∀ track ∈ s.dataTracks.tracks.entries, track.2.phase = .ended then
      some { s with forwardTask := .ended }
    else none
  | .closeForward =>
    if s.forwardTask = .selecting then
      (s.dataTracks.step (.sendInput .shutdown)).map fun dataTracks =>
        { s with dataTracks, eventOut := [], forwardTask := .ended }
    else none
  | .resume =>
    match s.reconnectTask, s.forwardTask with
    | .idle, .handling _ => none
    | .idle, _ => some { s with reconnectTask := .restarting }
    | _, _ => none
  | .returned ok => s.returned ok s.reconnectTask
  | .prepare skip =>
    if s.reconnectTask = .signalResumed .preparing then
      some (s.setRoom (if skip then .answered else .querying))
    else none
  | .query =>
    if s.reconnectTask = .signalResumed .querying then
      (s.dataTracks.step .query).map fun dataTracks =>
        { s with dataTracks }.setRoom (.waiting s.dataTracks.nextQuery)
    else none
  | .received =>
    match s.reconnectTask with
    | .signalResumed (.waiting query) =>
      if s.dataTracks.Answered query then some (s.setRoom .answered) else none
    | _ => none
  | .proceed =>
    if s.reconnectTask = .signalResumed .answered then some { s with reconnectTask := .settling }
    else none
  | .release => if s.reconnectTask = .ended then some { s with reconnectTask := .idle } else none

/-- The reconnect task, the room, the manager and the forward task; while the manager waits for the
end of a track task, that task has its part. -/
def Party (s : State) : Action → Prop
  | .manager _ | .managerSend | .takeEvent | .acquire _ | .handled | .streamEnded | .returned _
  | .prepare _ | .query | .received | .proceed => True
  | .dataTracks (.task track _) => ∃ todo, s.dataTracks.mode = .awaiting track todo
  | _ => False

/-- The resume has begun, and has not ended. -/
def Resuming (s : State) : Prop := s.reconnectTask ≠ .idle ∧ s.reconnectTask ≠ .ended

end State

end LiveKit.RtcEngine.SyncState
