import LiveKit.DataStream.Writers
import LiveKit.DataStream.RoundTrip

/-!
# Stream writers of the clients

`FfiByteStreamWriter` and `FfiTextStreamWriter` of `server/data_stream.rs` in `livekit-ffi`. A
request spawns a task that calls the writer and sends a callback with the result; a close takes the
handle. Which task runs next is up to the runtime. Here all packets are sent.
-/

namespace LiveKit.StreamWriters

open LiveKit.DataStream
open LiveKit.DataStream.Directed (Input)

/-! ## Handles and requests -/

/-- The two handles, with the options the stream was opened with. -/
inductive FfiWriter where
  | bytes (options : StreamByteOptions)
  | text (options : StreamTextOptions)

namespace FfiWriter

/-- What a write request carries. -/
def Data : FfiWriter → Type
  | bytes _ => Bytes
  | text _ => String

def input : (w : FfiWriter) → w.Data → Input
  | bytes _, data => .bytes data
  | text _, data => .text data

/-- The stream is opened, this is written, and it is closed. -/
def job : (w : FfiWriter) → List w.Data → Job
  | bytes options, writes => .streamBytes writes options
  | text options, writes => .streamText writes options

def header (w : FfiWriter) (uuid : String) : Header := (w.job []).header uuid

def destinations (w : FfiWriter) : List String := (w.job []).destinations

end FfiWriter

inductive Request (w : FfiWriter) where
  | write (data : w.Data)
  | close (reason : Option String)

namespace Request

variable {w : FfiWriter}

/-- The call on the writer that the task makes. -/
def call : Request w → Writers.Call
  | write data => .write (w.input data)
  | close reason => .close reason

def isClose : Request w → Bool
  | write _ => false
  | close _ => true

/-- The chunks of what is to be written. -/
def chunks : Request w → List Bytes
  | write data => (w.input data).chunks
  | close _ => []

def trailer (id : String) : Request w → Option Value
  | write _ => none
  | close reason => some (.streamTrailer ⟨id, reason.getD ""⟩)

def data : Request w → Option w.Data
  | write data => some data
  | close _ => none

end Request

/-! ## The system -/

/-- A request and its number, which stands for the `async_id`. -/
abbrev Task (w : FfiWriter) := Request w × ℕ

structure State (w : FfiWriter) where
  writers : Writers.State
  /-- A close has taken the handle. -/
  isTaken : Bool
  requests : List (Request w)
  /-- The tasks that have not run yet. -/
  spawned : List (Task w)
  /-- The tasks that have called the writer, in that order. -/
  started : List (Task w)
  /-- What the packet channel was handed. -/
  packets : List Value
  callbacks : List (ℕ × Except StreamError Unit)

inductive Action (w : FfiWriter) where
  | request (request : Request w)
  /-- A task runs for the first time and waits for the lock of the stream. -/
  | start (i : ℕ)
  /-- The first task that waits gets the lock. -/
  | acquire
  | send
  | answer

/-- The callbacks for the calls that have returned. -/
def callbacksOf {w : FfiWriter} (started : List (Task w)) (events : List Writers.Event) :
    List (ℕ × Except StreamError Unit) :=
  events.filterMap fun
    | .returned n _ result => started[n]?.map fun task => (task.2, result)
    | _ => none

namespace State

variable {w : FfiWriter}

/-- The stream is open: its header was sent. -/
def new (w : FfiWriter) (uuid : String) : State w :=
  let stream := (Directed.OutStream.open (w.header uuid) w.destinations).1
  { writers := ⟨{ stream with phase := .idle }, [], none, none, 0⟩
    isTaken := false
    requests := []
    spawned := []
    started := []
    packets := [.streamHeader (w.header uuid)]
    callbacks := [] }

/-- The stream has taken a step. -/
def after (s : State w) (performed : Writers.State × List Writers.Event) : State w :=
  { s with
    writers := performed.1
    packets := s.packets ++ Writers.handed performed.2
    callbacks := s.callbacks ++ callbacksOf s.started performed.2 }

def step (s : State w) : Action w → Option (State w)
  | .request request =>
    if s.isTaken then none
    else some { s with
      isTaken := request.isClose
      requests := s.requests ++ [request]
      spawned := s.spawned ++ [(request, s.requests.length)] }
  | .start i =>
    (s.spawned.find? (·.2 = i)).bind fun task =>
      (s.writers.perform (.call task.1.call)).map fun performed =>
        ({ s with
          spawned := s.spawned.filter (·.2 ≠ i)
          started := s.started ++ [task] } : State w).after performed
  | .acquire => (s.writers.perform (.acquire (.taken (.ok ())))).map s.after
  | .send => (s.writers.perform (.send (.taken (.ok ())))).map s.after
  | .answer => (s.writers.perform .answer).map s.after

/-- All tasks have ended. -/
def Finished (s : State w) : Prop :=
  s.spawned = [] ∧ s.writers.waiting = [] ∧ s.writers.holder = none

end State

/-! ## The order of the requests -/

section

variable {w : FfiWriter}

/-- The packets of chunks with these contents, from this index on. -/
def chunkValues (id : String) (i : ℕ) (contents : List Bytes) : List Value :=
  (contents.zipIdx i).map fun (content, chunkIndex) => .streamChunk ⟨id, chunkIndex, content⟩

/-- The requests have had their effects in the order in which they were made. -/
structure InRequestOrder (w : FfiWriter) (uuid : String) (requests : List (Request w))
    (s : State w) : Prop where
  /-- The header, what was written, and the trailer if there was a close. -/
  packets : s.packets = .streamHeader (w.header uuid) ::
    (chunkValues (w.header uuid).streamId 0 (requests.flatMap Request.chunks) ++
      requests.filterMap (Request.trailer (w.header uuid).streamId))
  /-- Each request has one callback. -/
  callbacks : (s.callbacks.map (·.1)).Perm (List.range requests.length)
  succeeded : ∀ callback ∈ s.callbacks, callback.2 = .ok ()
  /-- If the stream was closed normally, and is as long as its header says, the receiver reads what
  was written. -/
  read : ∀ reason, .close reason ∈ requests → reason.getD "" = "" →
    (w.job (requests.filterMap Request.data)).Declared →
    ∀ (identity : String) (encryptionType : EncryptionType) (run : List DataStream.Action)
      (s' : DataStream.State),
      let transfer : Transfer :=
        ⟨w.job (requests.filterMap Request.data), uuid, identity, encryptionType⟩
      ((received run).filter fun packet => packet.streamId = transfer.id) =
        s.packets.map (fun value => transfer.incoming ⟨[], value⟩) →
      .dropManager ∉ run → TransitionSystem.exec DataStream.State.step .new run = some s' →
        transfer.ReceivedBy s'

def requestsOf (run : List (Action w)) : List (Request w) :=
  run.filterMap fun
    | .request request => some request
    | _ => none

/-- The order in which the tasks run for the first time. -/
def startsOf (run : List (Action w)) : List ℕ :=
  run.filterMap fun
    | .start i => some i
    | _ => none

/-- The requests in the order in which their tasks run for the first time. -/
def startedRequests (run : List (Action w)) : List (Request w) :=
  (startsOf run).filterMap fun i => (requestsOf run)[i]?

/-- The tasks run for the first time in an order that gives the same chunks as that of the requests,
and after a close there is only what has nothing to send. -/
def StartsInOrder (run : List (Action w)) : Prop :=
  (startedRequests run).flatMap Request.chunks = (requestsOf run).flatMap Request.chunks ∧
    ∀ before reason after, startedRequests run = before ++ .close reason :: after →
      ∀ request ∈ after, request.chunks = []

end

end LiveKit.StreamWriters
