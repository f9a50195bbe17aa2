import LiveKit.DataTrack.Remote.Manager
import LiveKit.Lib.TransitionSystem

/-!
# The manager, its track tasks and the application

The remote manager runs in one task, every active subscription in a task of its own, and the
application and the room in others. They share the bounded queue of input events, the oneshot
channels of the subscribe requests, the watch channels of the publications and the packet and
frame channels of the track tasks. A label of `step` says whose turn it is.

A handler of the manager is one step: between its effects nobody else looks at what the manager
owns. The two moments of a track task that others can come between are kept apart: it sees that
its last receiver is gone (`TaskPhase.closing`), and it gets its request into the queue.
-/

namespace LiveKit.DataTrack.Remote

/-- Maximum number of incoming packets to buffer per track. -/
def PACKET_BUFFER_COUNT : ℕ := 16

/-- Maximum number of input and output events to buffer. -/
def EVENT_BUFFER_COUNT : ℕ := 16

inductive TaskPhase where
  /-- In the `select!` of the loop. -/
  | running
  /-- No more subscribers: in `event_in_tx.send` of the unsubscribe request. -/
  | closing
  | ended
deriving DecidableEq

structure TaskState where
  trackTask : TrackTask
  phase : TaskPhase
  /-- What is in the packet channel. -/
  packets : List Packet

/-- The track that the task is for. -/
def TaskState.sid (task : TaskState) : DataTrackSid := task.trackTask.info.sid

/-- The watch channel of the publication that the task observes. -/
def TaskState.published (task : TaskState) : PublicationId := task.trackTask.published

/-- A subscribe request as its caller has it. -/
inductive RequestState where
  /-- No result yet. -/
  | waiting
  /-- Answered `Ok`: a receiver of the frame channel of the task is alive. -/
  | subscribed (task : TaskId)
  | failed (error : DataTrackSubscribeError)
  /-- Timed out, or the caller dropped the future or the receiver. -/
  | dropped
deriving DecidableEq

inductive Mode where
  /-- In the run loop. -/
  | running
  /-- In the loop of `shutdown`, with the descriptors that are left. -/
  | stopping (todo : List Descriptor)
  /-- In `task_handle.await` of that loop. -/
  | awaiting (task : TaskId) (todo : List Descriptor)
  | ended
deriving DecidableEq

/-- A frame that was sent on a frame channel, with what it was made from. -/
structure Delivery where
  info : DataTrackInfo
  published : PublicationId
  /-- The frame as it was reassembled. -/
  source : Option DepacketizerFrame
  providerState : ProviderState
  frame : DataTrackFrame

structure State where
  manager : Manager
  mode : Mode
  /-- The channel of input events. -/
  queue : List InputEvent
  /-- The watch channels that hold `false`. -/
  unpublished : List PublicationId
  tasks : AssocMap TaskId TaskState
  requests : AssocMap RequestId RequestState
  nextRequest : RequestId
  outputs : List OutputEvent
  deliveries : List Delivery

namespace State

def init (decryptionProvider : Option DecryptionProvider) : State where
  manager := Manager.new decryptionProvider
  mode := .running
  queue := []
  unpublished := []
  tasks := ∅
  requests := ∅
  nextRequest := 0
  outputs := []
  deliveries := []

/-! ## What the manager's effects do -/

def resolve (s : State) (request : RequestId)
    (result : Except DataTrackSubscribeError TaskId) : State :=
  match AList.lookup request s.requests with
  | some .waiting =>
    match result with
    | .ok task => { s with requests := AList.insert request (.subscribed task) s.requests }
    | .error err => { s with requests := AList.insert request (.failed err) s.requests }
  -- nobody waits for the result any more
  | _ => s

def sendPacket (s : State) (task : TaskId) (packet : Packet) : State :=
  match AList.lookup task s.tasks with
  | none => s
  | some t =>
    if t.phase ≠ .ended ∧ t.packets.length < PACKET_BUFFER_COUNT then
      { s with tasks := AList.insert task { t with packets := t.packets ++ [packet] } s.tasks }
    else s

def applyEffect (s : State) : Effect → State
  | .emit event => { s with outputs := s.outputs ++ [event] }
  | .resolve request result => s.resolve request result
  | .spawn task trackTask =>
    { s with tasks := AList.insert task ⟨trackTask, .running, []⟩ s.tasks }
  | .sendPacket task packet => s.sendPacket task packet
  | .sendUnpublished published => { s with unpublished := published :: s.unpublished }

def applyEffects (s : State) (effects : List Effect) : State := effects.foldl applyEffect s

/-- Take over the result of a handler. -/
def perform (s : State) (result : Manager × List Effect) : State :=
  ({ s with manager := result.1 }).applyEffects result.2

/-! ## Steps -/

/-- Some receiver of the frame channel of the task is alive. -/
def hasReceiver (s : State) (task : TaskId) : Bool :=
  s.requests.entries.any fun entry => decide (entry.2 = .subscribed task)

/-- The requests are told that the manager is gone. -/
def failAll (s : State) (requests : List RequestId) : State :=
  s.applyEffects (requests.map fun request => .resolve request (.error .disconnected))

/-- What is left in the queue is dropped with the manager, and so are the result channels of
the requests in it. -/
def dropQueue (s : State) : State :=
  let requests := s.queue.filterMap fun event =>
    match event with
    | .subscribeRequest event => some event.resultTx
    | _ => none
  { s.failAll requests with queue := [] }

/-- One turn of the manager: of the run loop, or of `shutdown`. -/
def managerStep (s : State) (orders : Orders) : Option State :=
  match s.mode with
  | .running =>
    match s.queue with
    | [] => none
    | event :: rest =>
      match s.manager.handle orders event with
      | some result => some (({ s with queue := rest }).perform result)
      | none =>
        let descriptors := (AssocMap.inOrder s.manager.descriptors (orders 0)).map Prod.snd
        some { s with queue := rest, mode := .stopping descriptors }
  | .stopping [] => some ({ s with mode := .ended }).dropQueue
  | .stopping (descriptor :: todo) =>
    let s := s.applyEffect (.sendUnpublished descriptor.published)
    match descriptor.subscription with
    | .none => some { s with mode := .stopping todo }
    | .pending resultTxs _ => some { s.failAll resultTxs with mode := .stopping todo }
    | .active _ task => some { s with mode := .awaiting task todo }
  | .awaiting task todo =>
    match AList.lookup task s.tasks with
    | none => none
    | some t => if t.phase = .ended then some { s with mode := .stopping todo } else none
  | .ended => none

/-- The task processes a packet; a frame goes to the subscribers. -/
def receive (s : State) (task : TaskId) (t : TaskState) (st : ProviderState) (packet : Packet)
    (rest : List Packet) : State :=
  let (frame, pipeline) := t.trackTask.pipeline.processPacket st packet
  let t' : TaskState := { t with trackTask := { t.trackTask with pipeline }, packets := rest }
  let s := { s with tasks := AList.insert task t' s.tasks }
  match frame with
  | none => s
  | some frame =>
    { s with
      deliveries := s.deliveries ++
        [⟨t.trackTask.info, t.trackTask.published,
          (t.trackTask.pipeline.depacketize packet).1, st, frame⟩] }

/-- One turn of a track task. -/
def taskStep (s : State) (task : TaskId) (st : ProviderState) : Option State :=
  match AList.lookup task s.tasks with
  | none => none
  | some t =>
    match t.phase with
    | .running =>
      -- state updates take priority
      if t.published ∈ s.unpublished then
        some { s with tasks := AList.insert task { t with phase := .ended } s.tasks }
      else if ¬ s.hasReceiver task then
        some { s with tasks := AList.insert task { t with phase := .closing } s.tasks }
      else
        match t.packets with
        | [] => none
        | packet :: rest => some (s.receive task t st packet rest)
    | .closing =>
      if s.mode = .ended then
        some { s with tasks := AList.insert task { t with phase := .ended } s.tasks }
      else if s.queue.length < EVENT_BUFFER_COUNT then
        some { s with
          queue := s.queue ++ [.unsubscribeRequest ⟨t.sid⟩]
          tasks := AList.insert task { t with phase := .ended } s.tasks }
      else none
    | .ended => none

/-- The application subscribes: the request waits for a place in the queue. -/
def subscribe (s : State) (sid : DataTrackSid) (options : DataTrackSubscribeOptions) :
    Option State :=
  let request := s.nextRequest
  if s.mode = .ended then
    some { s with
      nextRequest := request + 1
      requests := AList.insert request (.failed .disconnected) s.requests }
  else if s.queue.length < EVENT_BUFFER_COUNT then
    some { s with
      nextRequest := request + 1
      requests := AList.insert request .waiting s.requests
      queue := s.queue ++ [.subscribeRequest ⟨sid, options, request⟩] }
  else none

/-- The caller of a request gives up, or drops the receiver it got. -/
def abandon (s : State) (request : RequestId) : Option State :=
  match AList.lookup request s.requests with
  | none => none
  | some _ => some { s with requests := AList.insert request .dropped s.requests }

/-- `ManagerInput::send`: the event is lost when the queue is full. -/
def sendInput (s : State) (event : InputEvent) : Option State :=
  match event with
  | .subscribeRequest _ | .unsubscribeRequest _ => none
  | _ =>
    if s.mode ≠ .ended ∧ s.queue.length < EVENT_BUFFER_COUNT then
      some { s with queue := s.queue ++ [event] }
    else some s

end State

/-- Whose turn it is. -/
inductive Action where
  /-- Application. -/
  | subscribe (sid : DataTrackSid) (options : DataTrackSubscribeOptions)
  | abandon (request : RequestId)
  /-- Room: an event from the SFU or the transport, a reconnect, or the end. -/
  | sendInput (event : InputEvent)
  | manager (orders : Orders)
  | task (task : TaskId) (st : ProviderState)

def Action.isManager : Action → Bool
  | .manager _ => true
  | _ => false

def State.step (s : State) : Action → Option State
  | .subscribe sid options => s.subscribe sid options
  | .abandon request => s.abandon request
  | .sendInput event => s.sendInput event
  | .manager orders => s.managerStep orders
  | .task task st => s.taskStep task st

end LiveKit.DataTrack.Remote
