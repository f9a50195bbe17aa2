import LiveKit.Room.Publications
import Mathlib.Data.Finset.Basic

/-!
# A room of the FFI server

`RoomInner`, `room_task`, `forward_event` and the tasks of the packets of `server/room.rs` in
`livekit-ffi`, with what the SDK does to the local publications: publishing, unpublishing, and
republishing after a full reconnect, and closing. Every request of the client is answered by a
callback that some task sends later. A full reconnect republishes tracks in tasks of its own.
-/

namespace LiveKit.Ffi

open Publications (TrackSid)

abbrev FfiHandleId := ℕ

/-! ## The state -/

structure LocalTrackPublication where
  sid : TrackSid
  /-- The track, by the number of the request that has published it. -/
  track : ℕ
deriving DecidableEq

/-- The events of the SDK; those that change nothing here are `other`. -/
inductive RoomEvent where
  | localTrackPublished (publication : LocalTrackPublication)
  | localTrackUnpublished (publication : LocalTrackPublication)
  | localTrackRepublished (previousSid : TrackSid) (publication : LocalTrackPublication)
  | reconnecting
  | reconnected
  | other

inductive PacketKind where
  | data
  | transcription
  | sipDtmf
deriving DecidableEq

inductive Request where
  | publishTrack
  | unpublishTrack (trackSid : String)
  | publishPacket (kind : PacketKind)
deriving DecidableEq

/-- Where the request is. -/
inductive Point where
  /-- The SDK has not returned, or the packet is on its way to it. -/
  | running
  /-- The track is published, the callback will be sent. -/
  | published (publication : LocalTrackPublication)
  /-- The callback is sent, `pending_published_tracks` will have the track. -/
  | announced (publication : LocalTrackPublication)
  /-- The track is unpublished, the event will be sent. -/
  | waiting (sid : TrackSid)
  /-- The packet could not be queued. -/
  | undelivered
  | done
  | panicked
deriving DecidableEq

structure Job where
  asyncId : ℕ
  request : Request
  point : Point

/-- A track that is published again after a full reconnect. -/
inductive Republish where
  | unpublishing (publication : LocalTrackPublication)
  | publishing (publication : LocalTrackPublication)
  | published (previousSid : TrackSid) (publication : LocalTrackPublication)
  | done

inductive RoomTask where
  | idle
  /-- `forward_event` waits for the callback of a track. -/
  | waiting (publication : LocalTrackPublication)
  | ended
deriving DecidableEq

/-- The task of one kind of packets. -/
inductive PacketTask where
  | idle
  | sending (i : ℕ)
  | ended
deriving DecidableEq

structure State where
  /-- The requests, each with the task that will answer it. -/
  jobs : List Job
  /-- The local publications of the SDK. -/
  trackPublications : AssocMap TrackSid LocalTrackPublication
  republishes : List Republish
  /-- The SDK has closed the room, its dispatcher is cleared. -/
  cleared : Bool
  events : List RoomEvent
  nextId : ℕ
  /-- The publications in the handle store. -/
  handles : AssocMap FfiHandleId LocalTrackPublication
  pendingPublishedTracks : Finset TrackSid
  pendingUnpublishedTracks : Finset TrackSid
  localPublicationLookup : AssocMap TrackSid FfiHandleId
  roomTask : RoomTask
  /-- `ActualState::reconnecting` -/
  reconnecting : Bool
  queues : PacketKind → List ℕ
  packetTasks : PacketKind → PacketTask
  /-- `close_tx` has sent, or is gone. -/
  closed : Bool

def State.new : State where
  jobs := []
  trackPublications := ∅
  republishes := []
  cleared := false
  events := []
  nextId := 1
  handles := ∅
  pendingPublishedTracks := ∅
  pendingUnpublishedTracks := ∅
  localPublicationLookup := ∅
  roomTask := .idle
  reconnecting := false
  queues := fun _ => []
  packetTasks := fun _ => .idle
  closed := false

/-! ## Messages to the client -/

inductive Callback where
  | publishTrack (result : Except String (FfiHandleId × LocalTrackPublication))
  | unpublishTrack (error : Option String)
  | publishPacket (kind : PacketKind) (error : Option String)

inductive Message where
  /-- The response to a request. -/
  | response (asyncId : ℕ)
  | callback (asyncId : ℕ) (callback : Callback)
  | localTrackPublished (trackSid : TrackSid)
  | localTrackUnpublished (publicationSid : TrackSid)
  | localTrackRepublished (publicationHandle : FfiHandleId) (previousSid : TrackSid)
      (info : LocalTrackPublication)
  | reconnecting
  | reconnected
  | roomEos

/-- What is sent when the channel of the packets is closed, for what the channel says. -/
def PacketKind.closedError (err : String) : PacketKind → String
  | .data => "failed to send data, room closed: " ++ err
  | .transcription => "failed to send transcription, room closed: " ++ err
  | .sipDtmf => "failed to send SIP DTMF message, room closed: " ++ err

/-! ## Actions -/

inductive Action where
  /-- A request of the client, with its id if it has one. -/
  | request (request : Request) (asyncId : Option ℕ)
  | close
  /-- The SDK has published the track of a request, under the `sid` that the server gave it. -/
  | publish (i : ℕ) (sid : TrackSid)
  | publishFails (i : ℕ) (error : String)
  | sendPublishCallback (i : ℕ)
  | insertPending (i : ℕ)
  /-- The SDK unpublishes the track of a request, if it can be removed from its sender. -/
  | unpublish (i : ℕ) (error : Option String)
  | finishUnpublish (i : ℕ)
  | takePacket (kind : PacketKind)
  | packetSent (kind : PacketKind) (error : Option String)
  | stopPackets (kind : PacketKind)
  | reportClosed (i : ℕ) (err : String)
  /-- The SDK tells of a reconnect or of something else. -/
  | dispatch (event : RoomEvent)
  /-- The SDK closes the room: it unpublishes what is published, and clears its dispatcher. -/
  | closeUnpublish (sid : TrackSid) (error : Option String)
  | clear
  /-- After a full reconnect the SDK republishes a track. -/
  | startRepublish (sid : TrackSid)
  | republishUnpublish (k : ℕ) (error : Option String)
  | republishPublish (k : ℕ) (sid : TrackSid)
  | republishFails (k : ℕ)
  | republishEvent (k : ℕ)
  | forward
  | finishForward
  | stopRoom

/-! ## What the SDK does -/

namespace State

/-- The events after `Dispatcher::dispatch`. -/
def dispatched (s : State) (event : RoomEvent) : List RoomEvent :=
  if s.cleared then s.events else s.events ++ [event]

/-- `publish_track` of the local participant, up to the event. -/
def sdkPublish (s : State) (p : LocalTrackPublication) : State :=
  { s with
    trackPublications := AList.insert p.sid p s.trackPublications
    events := s.dispatched (.localTrackPublished p) }

/-- `unpublish_track` of the local participant, for what it says when the track cannot be removed
from its sender. -/
def sdkUnpublish (s : State) (sid : TrackSid) (error : Option String) : State × Option String :=
  match AList.lookup sid s.trackPublications with
  | none => (s, some "room failure: track not found")
  | some p =>
    let s' := { s with trackPublications := AList.erase sid s.trackPublications }
    match error with
    | some e => (s', some e)
    | none => ({ s' with events := s.dispatched (.localTrackUnpublished p) }, none)

/-! ## Requests -/

def goto (s : State) (i : ℕ) (job : Job) (point : Point) : State :=
  { s with jobs := s.jobs.set i { job with point } }

/-- The request is answered. -/
def answer (s : State) (i : ℕ) (job : Job) (callback : Callback) : State × List Message :=
  (s.goto i job .done, [.callback job.asyncId callback])

/-- `resolve_async_id` -/
def resolveAsyncId (s : State) (asyncId : Option ℕ) : State × ℕ :=
  match asyncId with
  | some asyncId => (s, asyncId)
  | none => ({ s with nextId := s.nextId + 1 }, s.nextId)

/-- A request starts a task, or queues its packet. -/
def begin (s : State) (request : Request) (asyncId : Option ℕ) : State × List Message :=
  let (s, asyncId) := s.resolveAsyncId asyncId
  let add (s : State) (point : Point) : State :=
    { s with jobs := s.jobs ++ [⟨asyncId, request, point⟩] }
  match request with
  | .publishPacket kind =>
    if s.packetTasks kind = .ended then (add s .undelivered, [.response asyncId])
    else
      (add { s with queues := Function.update s.queues kind (s.queues kind ++ [s.jobs.length]) }
        .running, [.response asyncId])
  | _ => (add s .running, [.response asyncId])

def publish (s : State) (sid : TrackSid) (i : ℕ) (job : Job) : Option (State × List Message) :=
  match job.request, job.point with
  | .publishTrack, .running => some (((s.sdkPublish ⟨sid, i⟩).goto i job (.published ⟨sid, i⟩)), [])
  | _, _ => none

def publishFails (s : State) (error : String) (i : ℕ) (job : Job) :
    Option (State × List Message) :=
  match job.request, job.point with
  | .publishTrack, .running => some (s.answer i job (.publishTrack (.error error)))
  | _, _ => none

def sendPublishCallback (s : State) (i : ℕ) (job : Job) : Option (State × List Message) :=
  match job.point with
  | .published p =>
    let handle := s.nextId
    some ({ s with
        nextId := s.nextId + 1
        handles := AList.insert handle p s.handles }.goto i job (.announced p),
      [.callback job.asyncId (.publishTrack (.ok (handle, p)))])
  | _ => none

def insertPending (s : State) (i : ℕ) (job : Job) : Option (State × List Message) :=
  match job.point with
  | .announced p =>
    some ({ s with pendingPublishedTracks := insert p.sid s.pendingPublishedTracks }.goto i job
      .done, [])
  | _ => none

def unpublish (s : State) (error : Option String) (i : ℕ) (job : Job) :
    Option (State × List Message) :=
  match job.request, job.point with
  | .unpublishTrack trackSid, .running =>
    match TrackSid.tryFrom trackSid with
    | none => some (s.goto i job .panicked, [])
    | some sid =>
      match s.sdkUnpublish sid error with
      | (s', none) => some (s'.goto i job (.waiting sid), [])
      | (s', some e) => some (s'.answer i job (.unpublishTrack (some e)))
  | _, _ => none

def finishUnpublish (s : State) (i : ℕ) (job : Job) : Option (State × List Message) :=
  match job.point with
  | .waiting sid =>
    if sid ∈ s.pendingUnpublishedTracks then
      some ({ s with
        pendingUnpublishedTracks := s.pendingUnpublishedTracks.erase sid }.answer i job
          (.unpublishTrack none))
    else none
  | _ => none

/-! ## Packets -/

def takePacket (s : State) (kind : PacketKind) : Option (State × List Message) :=
  match s.packetTasks kind, s.queues kind with
  | .idle, i :: rest =>
    some ({ s with
      queues := Function.update s.queues kind rest
      packetTasks := Function.update s.packetTasks kind (.sending i) }, [])
  | _, _ => none

def packetSent (s : State) (kind : PacketKind) (error : Option String) :
    Option (State × List Message) :=
  match s.packetTasks kind with
  | .sending i =>
    s.jobs[i]?.map fun job =>
      { s with packetTasks := Function.update s.packetTasks kind .idle }.answer i job
        (.publishPacket kind error)
  | _ => none

/-- The task ends when the room is closed, whatever is queued. -/
def stopPackets (s : State) (kind : PacketKind) : Option (State × List Message) :=
  match s.packetTasks kind with
  | .idle =>
    if s.closed then
      some ({ s with
        queues := Function.update s.queues kind []
        packetTasks := Function.update s.packetTasks kind .ended }, [])
    else none
  | _ => none

def reportClosed (s : State) (err : String) (i : ℕ) (job : Job) : Option (State × List Message) :=
  match job.request, job.point with
  | .publishPacket kind, .undelivered =>
    some (s.answer i job (.publishPacket kind (some (kind.closedError err))))
  | _, _ => none

/-! ## Events -/

/-- `forward_event`, up to where it waits. -/
def forwardEvent (s : State) : RoomEvent → State × List Message
  | .localTrackPublished p =>
    if s.reconnecting then (s, []) else ({ s with roomTask := .waiting p }, [])
  | .localTrackUnpublished p =>
    if s.reconnecting then (s, [])
    else
      ({ s with
        localPublicationLookup := AList.erase p.sid s.localPublicationLookup
        pendingUnpublishedTracks := insert p.sid s.pendingUnpublishedTracks },
        [.localTrackUnpublished p.sid])
  | .localTrackRepublished previousSid p =>
    match AList.lookup previousSid s.localPublicationLookup with
    | none =>
      let handle := s.nextId
      ({ s with
        nextId := s.nextId + 1
        handles := AList.insert handle p s.handles
        localPublicationLookup := AList.insert p.sid handle s.localPublicationLookup },
        [.localTrackRepublished handle previousSid p])
    | some handle =>
      let lookup := AList.erase previousSid s.localPublicationLookup
      ({ s with
        handles := AList.insert handle p s.handles
        localPublicationLookup := AList.insert p.sid handle lookup },
        [.localTrackRepublished handle previousSid p])
  | .reconnecting => ({ s with reconnecting := true }, [.reconnecting])
  | .reconnected => ({ s with reconnecting := false }, [.reconnected])
  | .other => (s, [])

def forward (s : State) : Option (State × List Message) :=
  match s.roomTask, s.events with
  | .idle, event :: events => some ({ s with events }.forwardEvent event)
  | _, _ => none

def finishForward (s : State) : Option (State × List Message) :=
  match s.roomTask with
  | .waiting p =>
    if p.sid ∈ s.pendingPublishedTracks then
      some ({ s with
        pendingPublishedTracks := s.pendingPublishedTracks.erase p.sid
        roomTask := .idle }, [.localTrackPublished p.sid])
    else none
  | _ => none

/-- The task ends when the room is closed, whatever events are left. -/
def stopRoom (s : State) : Option (State × List Message) :=
  match s.roomTask with
  | .idle => if s.closed then some ({ s with roomTask := .ended }, [.roomEos]) else none
  | _ => none

/-! ## Republishing -/

def setRepublish (s : State) (k : ℕ) (republish : Republish) : State :=
  { s with republishes := s.republishes.set k republish }

def republishUnpublish (s : State) (error : Option String) (k : ℕ) :
    Republish → Option (State × List Message)
  | .unpublishing p =>
    -- the result is not looked at
    some ((s.sdkUnpublish p.sid error).1.setRepublish k (.publishing p), [])
  | _ => none

def republishPublish (s : State) (sid : TrackSid) (k : ℕ) :
    Republish → Option (State × List Message)
  | .publishing p =>
    some ((s.sdkPublish ⟨sid, p.track⟩).setRepublish k (.published p.sid ⟨sid, p.track⟩), [])
  | _ => none

def republishFails (s : State) (k : ℕ) : Republish → Option (State × List Message)
  | .publishing _ => some (s.setRepublish k .done, [])
  | _ => none

def republishEvent (s : State) (k : ℕ) : Republish → Option (State × List Message)
  | .published previousSid p =>
    let events := s.dispatched (.localTrackRepublished previousSid p)
    some ({ s with events }.setRepublish k .done, [])
  | _ => none

/-! ## The steps -/

/-- A step, and the messages of it. -/
def turn (s : State) : Action → Option (State × List Message)
  | .request request asyncId => some (s.begin request asyncId)
  | .close => some ({ s with closed := true }, [])
  | .publish i sid => s.jobs[i]?.bind (s.publish sid i)
  | .publishFails i error => s.jobs[i]?.bind (s.publishFails error i)
  | .sendPublishCallback i => s.jobs[i]?.bind (s.sendPublishCallback i)
  | .insertPending i => s.jobs[i]?.bind (s.insertPending i)
  | .unpublish i error => s.jobs[i]?.bind (s.unpublish error i)
  | .finishUnpublish i => s.jobs[i]?.bind (s.finishUnpublish i)
  | .takePacket kind => s.takePacket kind
  | .packetSent kind error => s.packetSent kind error
  | .stopPackets kind => s.stopPackets kind
  | .reportClosed i err => s.jobs[i]?.bind (s.reportClosed err i)
  | .dispatch event =>
    match event with
    | .reconnecting | .reconnected | .other => some ({ s with events := s.dispatched event }, [])
    | _ => none
  | .closeUnpublish sid error => some ((s.sdkUnpublish sid error).1, [])
  | .clear => some ({ s with cleared := true }, [])
  | .startRepublish sid =>
    (AList.lookup sid s.trackPublications).map fun p =>
      ({ s with republishes := s.republishes ++ [.unpublishing p] }, [])
  | .republishUnpublish k error => s.republishes[k]?.bind (s.republishUnpublish error k)
  | .republishPublish k sid => s.republishes[k]?.bind (s.republishPublish sid k)
  | .republishFails k => s.republishes[k]?.bind (s.republishFails k)
  | .republishEvent k => s.republishes[k]?.bind (s.republishEvent k)
  | .forward => s.forward
  | .finishForward => s.finishForward
  | .stopRoom => s.stopRoom

def step (s : State) (a : Action) : Option State := (s.turn a).map Prod.fst

end State

/-- The messages of a step. -/
def messages (s : State) (a : Action) : List Message := (s.turn a).elim [] Prod.snd

end LiveKit.Ffi
