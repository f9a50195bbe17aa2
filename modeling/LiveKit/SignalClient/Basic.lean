import LiveKit.Lib.FifoLock
import LiveKit.Lib.TransitionSystem

/-!
# The signal client

`SignalInner` of `signal_client/mod.rs`: the slot for the stream behind a read-write lock, the
queue of signals behind a mutex, and the flag that is set during a reconnect. Every place where
an operation awaits, or where another task may run in between, is a point of its own here.

A queued signal is named by the call of `send` that it was handed to, and so is a signal on the
wire. What the write task of `signal_stream.rs` answers is in the labels of the steps.
-/

namespace LiveKit.SignalClient

/-- The kinds of `signal_request::Message`. -/
inductive SignalKind where
  | offer
  | answer
  | trickle
  | addTrack
  | mute
  | subscription
  | trackSetting
  | leave
  | updateLayers
  | subscriptionPermission
  | syncState
  | simulate
  | ping
  | updateMetadata
  | pingReq
  | updateAudioTrack
  | updateVideoTrack
  | publishDataTrackRequest
  | unpublishDataTrackRequest
  | updateDataSubscription
deriving DecidableEq

/-- Signals that must not be queued during a reconnect. -/
def isPassThrough : SignalKind → Bool
  | .syncState => true
  | .trickle => true
  | .offer => true
  | .answer => true
  | .simulate => true
  | .leave => true
  | _ => false

inductive Operation where
  /-- `send`, as one of the calls that `caller` makes one after the other -/
  | send (caller : ℕ) (signal : SignalKind)
  | flushQueue
  | setReconnected
  | restart
  | close
deriving DecidableEq

/-- Where a call is. -/
inductive Point where
  | start
  /-- before `self.queue.lock()`, for a signal during a reconnect -/
  | enterPush
  /-- awaits the queue, to push the signal -/
  | pushQueue
  /-- at the beginning of `flush_queue` -/
  | enterFlush
  /-- `flush_queue` awaits the queue -/
  | flushQueue
  /-- `flush_queue` has the queue and awaits the stream -/
  | flushStream
  /-- `flush_queue` has both and takes the next signal -/
  | flushing
  /-- `flush_queue` awaits the write of a signal it has taken from the queue -/
  | flushSend (signal : ℕ)
  /-- `flush_queue` has let go of the stream -/
  | unlockQueue
  /-- before `self.stream.read()` of `send` -/
  | enterRead
  /-- `send` awaits the stream -/
  | readStream
  /-- `send` has the stream and awaits the write -/
  | sending
  /-- `send` has the stream and is before `self.queue.lock()` -/
  | enterHold
  /-- `send` has the stream and awaits the queue, to push the signal -/
  | holdQueue
  /-- `send` drops the guard of the stream -/
  | unlockRead
  /-- before `self.stream.write()` -/
  | enterWrite
  | writeStream
  /-- awaits the old stream's tasks -/
  | closing
  /-- `restart` connects -/
  | connecting
  /-- `restart` or `close` drops the guard of the stream -/
  | unlockWrite
  /-- `restart` has failed and drops the guard -/
  | failing
  /-- `restart` has failed and resets the flag -/
  | failed
  | done
deriving DecidableEq

/-- What a call at this point has asked of the lock of the queue. -/
def Point.queueRequest : Point → Option LockMode
  | .pushQueue => some .exclusive
  | .flushQueue => some .exclusive
  | .flushStream => some .exclusive
  | .flushing => some .exclusive
  | .flushSend _ => some .exclusive
  | .unlockQueue => some .exclusive
  | .holdQueue => some .exclusive
  | _ => none

/-- What a call at this point has asked of the lock of the stream. -/
def Point.streamRequest : Point → Option LockMode
  | .flushStream => some .shared
  | .flushing => some .shared
  | .flushSend _ => some .shared
  | .readStream => some .shared
  | .sending => some .shared
  | .enterHold => some .shared
  | .holdQueue => some .shared
  | .unlockRead => some .shared
  | .writeStream => some .exclusive
  | .closing => some .exclusive
  | .connecting => some .exclusive
  | .unlockWrite => some .exclusive
  | .failing => some .exclusive
  | _ => none

structure Call where
  operation : Operation
  point : Point

/-- The stream in the slot, as the state of its write task. -/
structure Stream where
  writeTaskRuns : Bool
deriving DecidableEq

structure State where
  reconnecting : Bool
  stream : Option Stream
  queue : List ℕ
  /-- The signals that have been written to a stream. -/
  wire : List ℕ
  streamLock : FifoLock ℕ
  queueLock : FifoLock ℕ
  calls : List Call

/-- `SignalInner::connect` -/
def State.connected : State := ⟨false, some ⟨true⟩, [], [], [], [], []⟩

/-- What comes of `SignalStream::send`. -/
inductive SendResult where
  | ok
  | wsError
  | sendError
deriving DecidableEq

inductive Action where
  | call (operation : Operation)
  /-- The call goes on to its next point. -/
  | proceed (i : ℕ)
  /-- The write that the call awaits is over. -/
  | written (i : ℕ) (result : SendResult)
  /-- The old stream's tasks, which the call awaits, are over. -/
  | closed (i : ℕ)
  /-- The server has accepted the new connection, or has not. -/
  | reconnected (i : ℕ) (ok : Bool)
  /-- The write task ends: the connection is closed, or lost. -/
  | writeTaskEnds

namespace State

/-- The call goes on to the point, with the locks asked for and given back as it says. -/
def goto (s : State) (i : ℕ) (call : Call) (point : Point) : State :=
  { s with
    streamLock := s.streamLock.adjust i point.streamRequest
    queueLock := s.queueLock.adjust i point.queueRequest
    calls := s.calls.set i { call with point } }

/-- What comes after `flush_queue`. -/
def afterFlush : Operation → Point
  | .send _ _ => .enterRead
  | _ => .done

/-- The first step of an operation. -/
def begin (s : State) (i : ℕ) (call : Call) : State :=
  match call.operation with
  | .send _ signal =>
    let passThrough := isPassThrough signal
    if s.reconnecting ∧ ¬ passThrough then s.goto i call .enterPush
    else if ¬ s.reconnecting then s.goto i call .enterFlush
    else s.goto i call .enterRead
  | .flushQueue => s.goto i call .enterFlush
  | .setReconnected => { s with reconnecting := false }.goto i call .enterFlush
  | .restart => { s with reconnecting := true }.goto i call .enterWrite
  | .close => s.goto i call .enterWrite

/-- The signal may be queued. -/
def Queueable : Operation → Bool
  | .send _ signal => !isPassThrough signal
  | _ => false

def proceed (s : State) (i : ℕ) (call : Call) : Option State :=
  match call.point with
  | .start => some (s.begin i call)
  | .enterPush => some (s.goto i call .pushQueue)
  | .pushQueue =>
    if s.queueLock.holds i then some ({ s with queue := s.queue ++ [i] }.goto i call .done)
    else none
  | .enterFlush => some (s.goto i call .flushQueue)
  | .flushQueue =>
    if s.queueLock.holds i then
      if s.queue = [] then some (s.goto i call (afterFlush call.operation))
      else some (s.goto i call .flushStream)
    else none
  | .flushStream =>
    if s.streamLock.holds i then
      if s.stream.isSome then some (s.goto i call .flushing)
      else some (s.goto i call .unlockQueue)
    else none
  | .flushing =>
    match s.queue with
    | signal :: queue => some ({ s with queue }.goto i call (.flushSend signal))
    | [] => some (s.goto i call .unlockQueue)
  | .unlockQueue => some (s.goto i call (afterFlush call.operation))
  | .enterRead => some (s.goto i call .readStream)
  | .readStream =>
    if s.streamLock.holds i then
      if s.stream.isSome then some (s.goto i call .sending)
      else if Queueable call.operation then some (s.goto i call .enterHold)
      else some (s.goto i call .unlockRead)
    else none
  | .enterHold => some (s.goto i call .holdQueue)
  | .holdQueue =>
    if s.queueLock.holds i then some ({ s with queue := s.queue ++ [i] }.goto i call .unlockRead)
    else none
  | .unlockRead => some (s.goto i call .done)
  | .enterWrite => some (s.goto i call .writeStream)
  | .writeStream =>
    if s.streamLock.holds i then
      if s.stream.isSome then some ({ s with stream := none }.goto i call .closing)
      else if call.operation = .restart then some (s.goto i call .connecting)
      else some (s.goto i call .unlockWrite)
    else none
  | .unlockWrite => some (s.goto i call .done)
  | .failing => some (s.goto i call .failed)
  | .failed => some ({ s with reconnecting := false }.goto i call .done)
  -- these await something else, or have returned
  | .flushSend _ => none
  | .sending => none
  | .closing => none
  | .connecting => none
  | .done => none

/-- What the write task does with a signal that is given to the stream. -/
def write (s : State) (signal : ℕ) : SendResult → Option State
  | .ok =>
    if s.stream = some ⟨true⟩ then some { s with wire := s.wire ++ [signal] } else none
  -- the error ends the task
  | .wsError => if s.stream = some ⟨true⟩ then some { s with stream := some ⟨false⟩ } else none
  | .sendError => if s.stream = some ⟨false⟩ then some s else none

/-- The call after the write it awaits. -/
def written (s : State) (i : ℕ) (result : SendResult) (call : Call) : Option State :=
  match call.point with
  | .flushSend signal => (s.write signal result).map fun s => s.goto i call .flushing
  | .sending =>
    (s.write i result).map fun s =>
      if result = .sendError ∧ Queueable call.operation then s.goto i call .enterHold
      else s.goto i call .unlockRead
  | _ => none

def closed (s : State) (i : ℕ) (call : Call) : Option State :=
  match call.point with
  | .closing =>
    if call.operation = .restart then some (s.goto i call .connecting)
    else some (s.goto i call .unlockWrite)
  | _ => none

def reconnected (s : State) (i : ℕ) (ok : Bool) (call : Call) : Option State :=
  match call.point with
  | .connecting =>
    if ok then some ({ s with stream := some ⟨true⟩ }.goto i call .unlockWrite)
    else some (s.goto i call .failing)
  | _ => none

/-- The caller has a call of `send` that has not returned. -/
def Sends (caller : ℕ) (call : Call) : Bool :=
  match call.operation with
  | .send c _ => c = caller ∧ call.point ≠ .done
  | _ => false

/-- A caller awaits each call of `send` before the next. -/
def mayCall (s : State) : Operation → Bool
  | .send caller _ => !s.calls.any (Sends caller)
  | _ => true

def step (s : State) : Action → Option State
  | .call operation =>
    if s.mayCall operation then some { s with calls := s.calls ++ [⟨operation, .start⟩] } else none
  | .proceed i => s.calls[i]?.bind (s.proceed i)
  | .written i result => s.calls[i]?.bind (s.written i result)
  | .closed i => s.calls[i]?.bind (s.closed i)
  | .reconnected i ok => s.calls[i]?.bind (s.reconnected i ok)
  | .writeTaskEnds =>
    if s.stream = some ⟨true⟩ then some { s with stream := some ⟨false⟩ } else none

end State

end LiveKit.SignalClient
