import LiveKit.DataTrack.Local.Events
import LiveKit.DataTrack.Local.Pipeline
import LiveKit.Lib.AssocMap
import LiveKit.Lib.TransitionSystem

/-!
# The local manager, its tasks and the application

`local/manager.rs` with the track handle of `local/mod.rs`. The manager runs in one task, every
published track in a task of its own, and a third kind of task forwards the result of a publish
request to its caller. The room and the application run beside them. They share the bounded
queue of input events, the oneshot channels of the publish requests, and the watch and frame
channels of the tracks. A label of `step` says whose turn it is.

Between two accesses to what others share somebody else may come. So a handler of the manager is
one step as far as it looks at shared state once, and its `Mode` says where it is in between:
after the check of a response and before what follows from it, and in the loops over the
descriptors. What an event sends to the SFU is appended to `outputs`.
-/

namespace LiveKit.DataTrack.Local

open AssocMap

/-- Maximum number of outgoing frames to buffer per track. -/
def FRAME_BUFFER_COUNT : ℕ := 16

/-- Maximum number of input and output events to buffer. -/
def EVENT_BUFFER_COUNT : ℕ := 16

inductive PublishState where
  /-- Track is published. -/
  | published
  /-- Track is being republished. -/
  | republishing
  /-- Track is no longer published. -/
  | unpublished
deriving DecidableEq

/-- How far a track task is. -/
inductive TaskPhase where
  | spawned
  /-- In the `select!` of the loop, with the state that it has seen. -/
  | running (state : PublishState)
  /-- After the loop: in `event_in_tx.send` of the unpublish request. -/
  | unpublishing
  | ended
deriving DecidableEq

/-- A published track: what the handle of the user, the manager and the task share, and the
state of the task. -/
structure TrackState where
  /-- The SID in it may change. -/
  info : DataTrackInfo
  pipeline : Pipeline
  /-- The value in the watch channel. -/
  state : PublishState
  /-- The task has not seen the latest value. -/
  changed : Bool
  phase : TaskPhase
  /-- What is in the frame channel. -/
  frames : List DataTrackFrame
  /-- How many calls of `wait_for_unpublish` are waiting. -/
  waiters : ℕ

/-- Information and state that the manager has for a handle. -/
inductive Descriptor where
  /-- Publication is awaiting SFU response. -/
  | pending (resultTx : RequestId)
  /-- Publication is active. -/
  | active (track : TrackId)
deriving DecidableEq

/-- A publish request as its caller has it. -/
inductive RequestState where
  /-- No result yet. -/
  | waiting
  /-- Answered `Ok`, and some reference to the track is alive. -/
  | returned (track : TrackId)
  | failed (error : PublishError)
  /-- Timed out, or the caller dropped the future. -/
  | abandoned
  /-- The last reference to the track that was returned is gone. -/
  | dropped (track : TrackId)
deriving DecidableEq

inductive ForwardPhase where
  | running
  /-- The caller is gone: before the `try_send` that tells the manager. -/
  | cancelling
  | ended
deriving DecidableEq

/-- The task that forwards the result of a publish request. -/
structure Forward where
  handle : Handle
  /-- What the manager has sent, if it has. -/
  result : Option (Except PublishError TrackId)
  phase : ForwardPhase

/-- Where the manager is. -/
inductive Mode where
  /-- In the run loop. -/
  | running
  /-- In `on_sfu_publish_response`, for a request that somebody waits for. -/
  | creating (info : DataTrackInfo) (resultTx : RequestId)
  /-- In `on_sfu_publish_response`, for a track that is being republished. -/
  | responding (handle : Handle) (track : TrackId) (sid : DataTrackSid)
  /-- In the loop of `on_republish_tracks`, with the descriptors that are left. -/
  | republishing (todo : List (Handle × Descriptor))
  /-- In that loop, before the request for the track is sent. -/
  | requesting (handle : Handle) (track : TrackId) (todo : List (Handle × Descriptor))
  /-- In the loop of `shutdown`, with the descriptors that are left. -/
  | stopping (todo : List (Handle × Descriptor))
  /-- In `task_handle.await` of that loop. -/
  | awaiting (track : TrackId) (todo : List (Handle × Descriptor))
  | ended
deriving DecidableEq

structure State where
  encryptionProvider : Option EncryptionProvider
  handleAllocator : HandleAllocator
  descriptors : AssocMap Handle Descriptor
  mode : Mode
  /-- The channel of input events. -/
  queue : List InputEvent
  outputs : List OutputEvent
  tracks : AssocMap TrackId TrackState
  nextTrack : TrackId
  requests : AssocMap RequestId RequestState
  forwards : AssocMap RequestId Forward
  nextRequest : RequestId
  /-- What queries were answered with. -/
  answers : List (QueryId × List DataTrackInfo)
  nextQuery : QueryId

/-- What the manager finds outside of its state when its turn comes: the order of a pass over a
hash map, the time and a random timestamp. -/
structure Turn where
  order : List ℕ
  now : Instant
  base : Timestamp 90000

namespace TrackState

/-- Some receiver of the watch channel is alive: that of the task, or that of a waiter. -/
def hasReceiver (t : TrackState) : Bool := t.phase ≠ .ended ∨ 0 < t.waiters

/-- `state_tx.send`: without a receiver the value is not stored. -/
def send (state : PublishState) (t : TrackState) : TrackState :=
  if t.hasReceiver then { t with state, changed := true } else t

/-- `*info.sid.write().unwrap() = sid` -/
def setSid (sid : DataTrackSid) (t : TrackState) : TrackState :=
  { t with info := { t.info with sid } }

end TrackState

namespace State

def new (encryptionProvider : Option EncryptionProvider) : State where
  encryptionProvider := encryptionProvider
  handleAllocator := .default
  descriptors := ∅
  mode := .running
  queue := []
  outputs := []
  tracks := ∅
  nextTrack := 0
  requests := ∅
  forwards := ∅
  nextRequest := 0
  answers := []
  nextQuery := 0

/-! ## Channels -/

def emit (s : State) (event : OutputEvent) : State := { s with outputs := s.outputs ++ [event] }

def modifyTrack (s : State) (track : TrackId) (f : TrackState → TrackState) : State :=
  match AList.lookup track s.tracks with
  | none => s
  | some t => { s with tracks := AList.insert track (f t) s.tracks }

def sendState (s : State) (track : TrackId) (state : PublishState) : State :=
  s.modifyTrack track (.send state)

/-- `*state_tx.borrow()` -/
def publishState (s : State) (track : TrackId) : Option PublishState :=
  (AList.lookup track s.tracks).map TrackState.state

/-- `local_unpublish` -/
def localUnpublish (s : State) (track : TrackId) : State := s.sendState track .unpublished

/-- A result that nobody receives is dropped, and the track in it is unpublished by that. -/
def dropResult (s : State) : Except PublishError TrackId → State
  | .ok track => s.localUnpublish track
  | .error _ => s

/-- The result for the caller of a publish request. -/
def resolve (s : State) (request : RequestId) (result : Except PublishError TrackId) : State :=
  match AList.lookup request s.requests with
  | some .waiting =>
    match result with
    | .ok track => { s with requests := AList.insert request (.returned track) s.requests }
    | .error err => { s with requests := AList.insert request (.failed err) s.requests }
  | _ => s.dropResult result

/-- The result for the task that forwards it. -/
def sendResult (s : State) (request : RequestId) (result : Except PublishError TrackId) : State :=
  match AList.lookup request s.forwards with
  | some forward =>
    if forward.phase = .running then
      { s with forwards := AList.insert request { forward with result := some result } s.forwards }
    else s.dropResult result
  | none => s.dropResult result

/-- `result_tx.is_closed()` -/
def isClosed (s : State) (request : RequestId) : Bool :=
  match AList.lookup request s.forwards with
  | some forward => forward.phase ≠ .running
  | none => true

/-! ## The handlers of the manager -/

def onPublishRequest (s : State) (event : PublishRequest) : State :=
  match s.handleAllocator.get with
  | none => s.resolve event.resultTx (.error .limitReached)
  | some (handle, handleAllocator) =>
    let s := { s with handleAllocator }
    if handle ∈ s.descriptors then
      s.resolve event.resultTx (.error (.internal "Descriptor for handle already exists"))
    else
      let s := { s with
        descriptors := AList.insert handle (.pending event.resultTx) s.descriptors
        forwards := AList.insert event.resultTx ⟨handle, none, .running⟩ s.forwards }
      s.emit (.sfuPublishRequest ⟨handle, event.options.name, s.encryptionProvider.isSome⟩)

def onPublishCancelled (s : State) (event : PublishCancelled) : State :=
  { s with descriptors := AList.erase event.handle s.descriptors }

/-- The info of an active descriptor. -/
def activeInfo (s : State) : Descriptor → Option DataTrackInfo
  | .pending _ => none
  | .active track => (AList.lookup track s.tracks).map TrackState.info

def onQueryPublished (s : State) (event : QueryPublished) (order : List ℕ) : State :=
  let publishedInfo := (inOrder s.descriptors order).filterMap fun entry => s.activeInfo entry.2
  { s with answers := s.answers ++ [(event.resultTx, publishedInfo)] }

def removeDescriptor (s : State) (handle : Handle) : State :=
  match AList.lookup handle s.descriptors with
  | none => s
  | some descriptor =>
    let s := { s with descriptors := AList.erase handle s.descriptors }
    match descriptor with
    | .pending _ => s
    | .active track =>
      if s.publishState track ≠ some .unpublished then s.sendState track .unpublished else s

def onUnpublishRequest (s : State) (event : UnpublishRequest) : State :=
  (s.removeDescriptor event.handle).emit (.sfuUnpublishRequest ⟨event.handle⟩)

def onSfuPublishResponse (s : State) (event : SfuPublishResponse) : State :=
  match AList.lookup event.handle s.descriptors with
  | none => s.emit (.sfuUnpublishRequest ⟨event.handle⟩)
  | some descriptor =>
    let s := { s with descriptors := AList.erase event.handle s.descriptors }
    match descriptor with
    | .pending resultTx =>
      if s.isClosed resultTx then s
      else
        match event.result with
        | .ok info => { s with mode := .creating info resultTx }
        | .error err => s.sendResult resultTx (.error err)
    | .active track =>
      if s.publishState track ≠ some .republishing then s
      else
        match event.result with
        | .ok updatedInfo => { s with mode := .responding event.handle track updatedInfo.sid }
        | .error _ => s

/-- The channels of a new track, and its task as it is spawned. -/
def newTrack (s : State) (info : DataTrackInfo) (turn : Turn) : TrackState :=
  let encryptionProvider := if info.usesE2ee then s.encryptionProvider else none
  let pipeline := Pipeline.new info encryptionProvider turn.now turn.base
  ⟨info, pipeline, .published, false, .spawned, [], 0⟩

def createLocalTrack (s : State) (info : DataTrackInfo) (turn : Turn) : State :=
  { s with
    tracks := AList.insert s.nextTrack (s.newTrack info turn) s.tracks
    nextTrack := s.nextTrack + 1
    descriptors := AList.insert info.pubHandle (.active s.nextTrack) s.descriptors }

/-- The second half of `on_sfu_publish_response` for a pending publication. -/
def publishTrack (s : State) (info : DataTrackInfo) (resultTx : RequestId) (turn : Turn) : State :=
  ({ s with mode := .running }.createLocalTrack info turn).sendResult resultTx (.ok s.nextTrack)

/-- The second half of `on_sfu_publish_response` for an active publication. -/
def republished (s : State) (handle : Handle) (track : TrackId) (sid : DataTrackSid) : State :=
  { s.modifyTrack track fun t => (t.setSid sid).send .published with
    mode := .running
    descriptors := AList.insert handle (.active track) s.descriptors }

def onSfuUnpublishResponse (s : State) (event : SfuUnpublishResponse) : State :=
  s.removeDescriptor event.handle

/-- The loop of `on_republish_tracks` begins: the descriptors are taken out. -/
def onRepublishTracks (s : State) (order : List ℕ) : State :=
  { s with mode := .republishing (inOrder s.descriptors order), descriptors := ∅ }

/-- The request that republishes a track; only its SID may change. -/
def requestRepublish (s : State) (track : TrackId) : State :=
  match AList.lookup track s.tracks with
  | none => s
  | some t => s.emit (.sfuPublishRequest ⟨t.info.pubHandle, t.info.name, t.info.usesE2ee⟩)

/-- What is left in the queue is dropped with the manager, and so are the oneshot channels of
the requests in it. -/
def dropEvent (s : State) : InputEvent → State
  | .publishRequest event => s.resolve event.resultTx (.error .disconnected)
  | .queryPublished event => { s with answers := s.answers ++ [(event.resultTx, [])] }
  | _ => s

def dropQueue (s : State) : State := { s.queue.foldl dropEvent s with queue := [] }

/-! ## Steps -/

/-- One turn of the run loop. -/
def handle (s : State) (turn : Turn) : InputEvent → State
  | .publishRequest event => s.onPublishRequest event
  | .publishCancelled event => s.onPublishCancelled event
  | .queryPublished event => s.onQueryPublished event turn.order
  | .unpublishRequest event => s.onUnpublishRequest event
  | .sfuPublishResponse event => s.onSfuPublishResponse event
  | .sfuUnpublishResponse event => s.onSfuUnpublishResponse event
  | .republishTracks => s.onRepublishTracks turn.order
  | .shutdown => { s with mode := .stopping (inOrder s.descriptors turn.order), descriptors := ∅ }

/-- One turn of the manager. -/
def managerStep (s : State) (turn : Turn) : Option State :=
  match s.mode with
  | .running =>
    match s.queue with
    | [] => none
    | event :: rest => some ({ s with queue := rest }.handle turn event)
  | .creating info resultTx => some (s.publishTrack info resultTx turn)
  | .responding handle track sid => some (s.republished handle track sid)
  | .republishing [] => some { s with mode := .running }
  | .republishing ((_, .pending resultTx) :: todo) =>
    -- republish for pending publications is not supported
    some ({ s with mode := .republishing todo }.sendResult resultTx (.error .disconnected))
  | .republishing ((handle, .active track) :: todo) =>
    some ({ s with mode := .requesting handle track todo }.sendState track .republishing)
  | .requesting handle track todo =>
    some { s.requestRepublish track with
      mode := .republishing todo
      descriptors := AList.insert handle (.active track) s.descriptors }
  | .stopping [] => some { s with mode := .ended }.dropQueue
  | .stopping ((_, .pending resultTx) :: todo) =>
    some ({ s with mode := .stopping todo }.sendResult resultTx (.error .disconnected))
  | .stopping ((_, .active track) :: todo) =>
    some ({ s with mode := .awaiting track todo }.sendState track .unpublished)
  | .awaiting track todo =>
    match AList.lookup track s.tracks with
    | none => none
    | some t => if t.phase = .ended then some { s with mode := .stopping todo } else none
  | .ended => none

/-- Put an event into the queue, if there is a place for it. -/
def enqueue (s : State) (event : InputEvent) : Option State :=
  if s.mode ≠ .ended ∧ s.queue.length < EVENT_BUFFER_COUNT then
    some { s with queue := s.queue ++ [event] }
  else none

/-- `while state != PublishState::Unpublished` -/
def loop (state : PublishState) : TaskPhase :=
  if state = .unpublished then .unpublishing else .running state

end State

/-- What a track task does next. -/
inductive TaskMove where
  | start
  /-- `state_rx.changed()` -/
  | observe
  /-- `frame_rx.recv()`, with the state of the encryption provider, the time, and whether the
  channel of output events has a place for the packets. -/
  | frame (st : ProviderState) (now : Instant) (hasRoom : Bool)
  /-- `event_in_tx.send` -/
  | unpublish

/-- What a task that forwards a result does next. -/
inductive ForwardMove where
  | deliver
  | cancel
  /-- `tx.try_send` -/
  | notify

namespace State

/-- The packets of a frame, if it can be processed, and the pipeline after it. -/
def processAndSend (s : State) (track : TrackId) (t : TrackState) (frame : DataTrackFrame)
    (st : ProviderState) (now : Instant) (hasRoom : Bool) : State :=
  let (result, pipeline) := t.pipeline.processFrame st now frame
  let s := { s with tracks := AList.insert track { t with pipeline } s.tracks }
  match result with
  | .error _ => s
  | .ok packets =>
    match packets.mapM Packet.serialize with
    -- no packet panics (`Packet.serialize_eq`)
    | .error _ => s
    | .ok packets => if hasRoom then s.emit (.packetsAvailable packets) else s

/-- One turn of a track task. -/
def taskStep (s : State) (track : TrackId) (move : TaskMove) : Option State :=
  match AList.lookup track s.tracks with
  | none => none
  | some t =>
    match t.phase, move with
    | .spawned, .start =>
      some { s with tracks := AList.insert track { t with phase := loop t.state } s.tracks }
    | .running _, .observe =>
      if t.changed then
        some { s with
          tracks := AList.insert track { t with phase := loop t.state, changed := false } s.tracks }
      else none
    | .running state, .frame st now hasRoom =>
      match t.frames with
      | [] => none
      | frame :: frames =>
        let t := { t with frames }
        -- drop frames while republishing
        if state = .republishing then some { s with tracks := AList.insert track t s.tracks }
        else some (s.processAndSend track t frame st now hasRoom)
    | .unpublishing, .unpublish =>
      if s.mode = .ended then
        some { s with tracks := AList.insert track { t with phase := .ended } s.tracks }
      else
        ({ s with tracks := AList.insert track { t with phase := .ended } s.tracks }).enqueue
          (.unpublishRequest ⟨t.info.pubHandle⟩)
    | _, _ => none

/-- One turn of a task that forwards a result. -/
def forwardStep (s : State) (request : RequestId) (move : ForwardMove) : Option State :=
  match AList.lookup request s.forwards with
  | none => none
  | some forward =>
    let set (phase : ForwardPhase) : State :=
      { s with
        forwards := AList.insert request { forward with result := none, phase } s.forwards }
    match forward.phase, move with
    | .running, .deliver => forward.result.map fun result => (set .ended).resolve request result
    | .running, .cancel =>
      if AList.lookup request s.requests = some .waiting then none
      else
        -- a result may have come since the task looked for one
        match forward.result with
        | none => some (set .cancelling)
        | some result => some ((set .cancelling).dropResult result)
    | .cancelling, .notify =>
      match (set .ended).enqueue (.publishCancelled ⟨forward.handle⟩) with
      | some s => some s
      | none => some (set .ended)
    | _, _ => none

/-! ### The application and the room -/

/-- `publish_track` -/
def publish (s : State) (options : DataTrackOptions) : State :=
  let request := s.nextRequest
  let s := { s with nextRequest := request + 1 }
  match s.enqueue (.publishRequest ⟨options, request⟩) with
  | some s => { s with requests := AList.insert request .waiting s.requests }
  | none => { s with requests := AList.insert request (.failed .disconnected) s.requests }

/-- The caller of a publish request gives up. -/
def abandon (s : State) (request : RequestId) : Option State :=
  match AList.lookup request s.requests with
  | some .waiting => some { s with requests := AList.insert request .abandoned s.requests }
  | _ => none

/-- `query_tracks`: the query waits for a place in the queue. -/
def query (s : State) : Option State :=
  let query := s.nextQuery
  let s := { s with nextQuery := query + 1 }
  if s.mode = .ended then some { s with answers := s.answers ++ [(query, [])] }
  else s.enqueue (.queryPublished ⟨query⟩)

/-- The track that a request was answered with, while a reference to it is alive. -/
def returnedTrack (s : State) (request : RequestId) : Option TrackId :=
  match AList.lookup request s.requests with
  | some (.returned track) => some track
  | _ => none

/-- `try_push` -/
def tryPush (frame : DataTrackFrame) (t : TrackState) : TrackState :=
  if t.state = .published ∧ t.phase ≠ .ended ∧ t.frames.length < FRAME_BUFFER_COUNT then
    { t with frames := t.frames ++ [frame] }
  else t

/-- The last reference to a track is dropped; nobody can be waiting on it then. -/
def dropTrack (s : State) (request : RequestId) : Option State :=
  match s.returnedTrack request with
  | none => none
  | some track =>
    match AList.lookup track s.tracks with
    | none => none
    | some t =>
      if t.waiters = 0 then
        some ({ s with requests := AList.insert request (.dropped track) s.requests }.localUnpublish
          track)
      else none

/-- `ManagerInput::send`: the event is lost when the queue is full. -/
def sendInput (s : State) (event : InputEvent) : Option State :=
  match event with
  | .sfuPublishResponse _ | .sfuUnpublishResponse _ | .republishTracks | .shutdown =>
    some ((s.enqueue event).getD s)
  -- the others are made by the application and the tasks
  | _ => none

end State

/-- Whose turn it is. -/
inductive Action where
  /-- Application. -/
  | publish (options : DataTrackOptions)
  | abandon (request : RequestId)
  | query
  | tryPush (request : RequestId) (frame : DataTrackFrame)
  | unpublish (request : RequestId)
  | drop (request : RequestId)
  /-- A call of `wait_for_unpublish` begins, or it returns or is dropped. -/
  | wait (request : RequestId)
  | waitEnd (request : RequestId)
  /-- Room: an event of the SFU, a reconnect, or the end. -/
  | sendInput (event : InputEvent)
  | manager (turn : Turn)
  | forward (request : RequestId) (move : ForwardMove)
  | task (track : TrackId) (move : TaskMove)

def Action.isManager : Action → Bool
  | .manager _ => true
  | _ => false

def State.step (s : State) : Action → Option State
  | .publish options => some (s.publish options)
  | .abandon request => s.abandon request
  | .query => s.query
  | .tryPush request frame => (s.returnedTrack request).map fun track =>
      s.modifyTrack track (State.tryPush frame)
  | .unpublish request => (s.returnedTrack request).map s.localUnpublish
  | .drop request => s.dropTrack request
  | .wait request => (s.returnedTrack request).map fun track =>
      s.modifyTrack track fun t => { t with waiters := t.waiters + 1 }
  | .waitEnd request => (s.returnedTrack request).map fun track =>
      s.modifyTrack track fun t => { t with waiters := t.waiters - 1 }
  | .sendInput event => s.sendInput event
  | .manager turn => s.managerStep turn
  | .forward request move => s.forwardStep request move
  | .task track move => s.taskStep track move

/-! ## A run -/

def Turn.zero : Turn := ⟨[], 0, ⟨0⟩⟩

/-- A track is published: the application asks for it, the SFU accepts, and the application has
the track, whose task is in its loop. -/
def publishedRun (usesE2ee : Bool) : List Action :=
  [.publish ⟨"track"⟩, .manager .zero,
    .sendInput (.sfuPublishResponse (.ofInfo
      ⟨⟨"DTR_A", DataTrackSid.hasPrefix_A⟩, ⟨1, Handle.one_ne_zero⟩, "track", usesE2ee⟩)),
    .manager .zero, .manager .zero, .forward 0 .deliver, .task 0 .start]

end LiveKit.DataTrack.Local
