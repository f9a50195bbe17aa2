import LiveKit.DataStream.Directed

/-!
# The writers of one stream

The clones of a `ByteStreamWriter` or `TextStreamWriter` share a `RawStream` behind a mutex of
`tokio`, which gives the lock to those that wait in the order in which they came. A call is under
way from the first time its future is polled, and may be given up wherever it waits.
-/

namespace LiveKit.DataStream.Writers

open LiveKit.DataStream.Directed (OutStream Request Input numbered)

/-! ## Calls -/

inductive Call where
  | write (input : Input)
  /-- `close` and `close_with_reason` -/
  | close (reason : Option String)

namespace Call

def isWrite : Call → Bool
  | .write _ => true
  | .close _ => false

def isClose : Call → Bool
  | .write _ => false
  | .close _ => true

end Call

/-- What becomes of a packet that is sent. -/
inductive Outcome where
  /-- The packet channel is closed. -/
  | refused
  /-- The channel has the packet, and this will come back. -/
  | taken (result : Except StreamError Unit)

inductive Event where
  /-- A write has the lock. -/
  | began (n : ℕ) (input : Input)
  /-- The packet channel has a packet, of a call or of no call, and this will come back. -/
  | handed (caller : Option ℕ) (value : Value) (result : Except StreamError Unit)
  | returned (n : ℕ) (call : Call) (result : Except StreamError Unit)
  /-- The future of a call is dropped, which has the lock or waits for it. -/
  | cancelled (n : ℕ) (call : Call) (locked : Bool)

structure State where
  stream : OutStream
  /-- The calls that wait for the lock. -/
  waiting : List (ℕ × Call)
  /-- The call that has the lock. -/
  holder : Option (ℕ × Call)
  /-- What will come back for the packet that was sent last, if that is awaited. -/
  awaited : Option (Except StreamError Unit)
  calls : ℕ

inductive Action where
  /-- `RawStream::open` sends the header. -/
  | openStream (outcome : Outcome)
  | call (call : Call)
  /-- The first call that waits gets the lock; the outcome is that of the packet of a close. -/
  | acquire (outcome : Outcome)
  /-- The write that has the lock sends the next chunk. -/
  | send (outcome : Outcome)
  /-- What was awaited comes back. -/
  | answer
  /-- The future of a call is dropped. -/
  | cancel (n : ℕ)
  /-- The future of `RawStream::open` is dropped. -/
  | cancelOpen
  /-- The last clone is dropped. -/
  | drop (runtime : Bool)
  /-- The task that `Drop` has spawned sends the trailer. -/
  | spawned (outcome : Outcome)

namespace State

def new (header : Header) (destinationIdentities : List String) : State :=
  ⟨(OutStream.open header destinationIdentities).1, [], none, none, 0⟩

/-- There are clones of the writer. -/
def HasWriters (s : State) : Prop :=
  s.stream.phase ≠ .opening ∧ s.stream.phase ≠ .dropped ∧ s.stream.phase ≠ .gone

instance (s : State) : Decidable s.HasWriters :=
  inferInstanceAs (Decidable (_ ∧ _ ∧ _))

/-- `RawStream::send_packet`, for the call that has the lock if there is one, up to its await. -/
def sendPacket (s : State) (o : OutStream) (request : Request) : Outcome → State × List Event
  | .refused =>
    ({ s with stream := o.answer (.error .internal), holder := none },
      match s.holder with
      | none => []
      | some (n, call) => [.returned n call (.error .internal)])
  | .taken result =>
    ({ s with stream := o, awaited := if request.awaited then some result else none },
      [.handed (s.holder.map (·.1)) request.packet.value result])

/-- A call has the lock. -/
def begin (s : State) (n : ℕ) (outcome : Outcome) : Call → Option (State × List Event)
  | .write input =>
    (s.stream.act (.write input)).map fun (o, _) =>
      -- nothing is sent of nothing
      if o.phase = .idle then
        ({ s with stream := o }, [.began n input, .returned n (.write input) (.ok ())])
      else ({ s with stream := o, holder := some (n, .write input) }, [.began n input])
  | .close reason =>
    match s.stream.act (.close reason) with
    | none => none
    | some (o, []) => some ({ s with stream := o },
        [.returned n (.close reason) (.error .alreadyClosed)])
    | some (o, request :: _) =>
      some (({ s with holder := some (n, .close reason) } : State).sendPacket o request outcome)

/-- A step, and what it puts on record. -/
def perform (s : State) : Action → Option (State × List Event)
  | .openStream outcome =>
    match s.stream.phase, s.awaited with
    | .opening, none => some (s.sendPacket s.stream
        (OutStream.open s.stream.header s.stream.destinationIdentities).2 outcome)
    | _, _ => none
  | .call call =>
    if s.HasWriters then
      some ({ s with waiting := s.waiting ++ [(s.calls, call)], calls := s.calls + 1 }, [])
    else none
  | .acquire outcome =>
    match s.holder, s.waiting with
    | none, (n, call) :: waiting => ({ s with waiting } : State).begin n outcome call
    | _, _ => none
  | .send outcome =>
    match s.stream.act .send with
    | some (o, request :: _) => some (s.sendPacket o request outcome)
    | _ => none
  | .answer =>
    s.awaited.map fun result =>
      let o := s.stream.answer result
      match s.holder with
      | none => ({ s with stream := o, awaited := none }, [])
      | some (n, call) =>
        if o.phase = .idle then
          ({ s with stream := o, holder := none, awaited := none }, [.returned n call result])
        else ({ s with stream := o, awaited := none }, [])
  | .cancel n =>
    match s.holder.filter (·.1 = n), s.waiting.find? (·.1 = n) with
    | some (_, call), _ =>
      s.stream.abandon.map fun o =>
        -- a packet that was sent stays in the channel
        ({ s with stream := o, holder := none, awaited := none }, [.cancelled n call true])
    | none, some (_, call) =>
      some ({ s with waiting := s.waiting.filter (·.1 ≠ n) }, [.cancelled n call false])
    | none, none => none
  | .cancelOpen =>
    if s.stream.phase = .opening then
      s.stream.abandon.map fun o => ({ s with stream := o, awaited := none }, [])
    else none
  | .drop runtime =>
    if s.holder.isNone ∧ s.waiting = [] then
      (s.stream.act (.drop runtime)).map fun (o, _) => ({ s with stream := o }, [])
    else none
  | .spawned outcome =>
    match s.stream.act .spawned with
    | some (o, request :: _) => some (s.sendPacket o request outcome)
    | _ => none

def step (s : State) (a : Action) : Option State := (s.perform a).map (·.1)

end State

def record (s : State) (a : Action) : List Event := ((s.perform a).map (·.2)).getD []

/-! ## The protocol -/

/-- The packets that the channel was handed. -/
def handed (h : List Event) : List Value :=
  h.filterMap fun
    | .handed _ value _ => some value
    | _ => none

/-- The chunks that were sent successfully. -/
def sent (h : List Event) : List Bytes :=
  h.filterMap fun
    | .handed _ (.streamChunk chunk) (.ok ()) => some chunk.content
    | _ => none

/-- The chunks of the writes that have had the lock. -/
def given (h : List Event) : List Bytes :=
  h.flatMap fun
    | .began _ input => input.chunks
    | _ => []

/-- A header, then chunks with the indices 0, 1, 2, ..., then at most one trailer. -/
def Formed (header : Header) (values : List Value) : Prop :=
  values = [] ∨ ∃ (contents : List Bytes) (trailers : List Trailer), trailers.length ≤ 1 ∧
    values = .streamHeader header ::
      ((numbered header.streamId contents).map .streamChunk ++ trailers.map .streamTrailer)

/-- Every chunk of every write was sent successfully, in the order of the writes; a write that is
given up before it has the lock sends nothing. A write that still waits for the lock comes after
what is sent now. -/
def AllSent (h : List Event) : Prop :=
  sent h = given h ∧ ∀ n input, .cancelled n (.write input) false ∈ h → input.chunks = []

/-- What the packets of a stream and the results of the calls on it are to be. -/
structure Protocol (header : Header) (h : List Event) : Prop where
  formed : Formed header (handed h)
  /-- After a successful close nothing is sent, and calls return `AlreadyClosed`. -/
  closed : ∀ (before after : List Event) (m : ℕ) (reason : Option String),
    h = before ++ .returned m (.close reason) (.ok ()) :: after → handed after = [] ∧
      ∀ n call result, .returned n call result ∈ after → result = .error .alreadyClosed
  /-- A stream whose trailer gives no reason is complete. -/
  complete : ∀ (before after : List Event) (caller : Option ℕ) (trailer : Trailer)
    (result : Except StreamError Unit),
    h = before ++ .handed caller (.streamTrailer trailer) result :: after →
      trailer.reason = "" → AllSent before

/-! ## Careful use -/

namespace Event

/-- A call of this kind fails, or is given up when it has the lock. -/
def cuts (kind : Call → Bool) : Event → Bool
  | .returned _ call (.error _) => kind call
  | .cancelled _ call true => kind call
  | _ => false

/-- A write that has something to send is given up before it has the lock. -/
def withdraws : Event → Bool
  | .cancelled _ (.write input) false => ¬ input.chunks.isEmpty
  | _ => false

end Event

/-- No call of this kind has failed, and none was given up that had the lock. -/
def NoneCut (h : List Event) (kind : Call → Bool) : Prop := ∀ e ∈ h, e.cuts kind = false

/-- The stream may be ended: no close has failed or was given up, and unless a reason is given, no
write has failed, nor was one given up that had something to send. -/
def MayEnd (h : List Event) (reason : Option String) : Prop :=
  NoneCut h Call.isClose ∧
    (reason.getD "" = "" → NoneCut h Call.isWrite ∧ ∀ e ∈ h, e.withdraws = false)

/-- A call may get the lock: a write, if the stream is not closed; a close, if it is, or if it may
be ended. -/
def MayBegin (h : List Event) (isClosed : Bool) : Call → Outcome → Prop
  | .write _, _ => isClosed = false
  | .close reason, .taken _ => isClosed = false → MayEnd h reason
  | .close _, .refused => True

/-- No write gets the lock after a close, a chunk is sent only if no call before has failed or was
given up, and a trailer only if the stream may be ended. -/
def Careful (h : List Event) (s : State) : Action → Prop
  | .acquire outcome => ∀ first ∈ s.waiting.head?, MayBegin h s.stream.isClosed first.2 outcome
  | .send (.taken _) => NoneCut h Call.isWrite ∧ NoneCut h Call.isClose
  | .spawned (.taken _) => MayEnd h none
  | _ => True

section

variable (h : List Event)

instance (kind : Call → Bool) : Decidable (NoneCut h kind) :=
  inferInstanceAs (Decidable (∀ e ∈ h, _))

instance (reason : Option String) : Decidable (MayEnd h reason) :=
  inferInstanceAs (Decidable (_ ∧ (_ → _ ∧ ∀ e ∈ h, _)))

instance (isClosed : Bool) : (call : Call) → (outcome : Outcome) →
    Decidable (MayBegin h isClosed call outcome)
  | .write _, _ => inferInstanceAs (Decidable (_ = _))
  | .close _, .taken _ => inferInstanceAs (Decidable (_ → _))
  | .close _, .refused => instDecidableTrue

instance (s : State) : (a : Action) → Decidable (Careful h s a)
  | .acquire outcome =>
    inferInstanceAs (Decidable (∀ first ∈ s.waiting.head?,
      MayBegin h s.stream.isClosed first.2 outcome))
  | .send (.taken _) => inferInstanceAs (Decidable (_ ∧ _))
  | .spawned (.taken _) => inferInstanceAs (Decidable (MayEnd h none))
  | .send .refused | .spawned .refused | .openStream _ | .call _ | .answer | .cancel _
  | .cancelOpen | .drop _ => instDecidableTrue

end

end LiveKit.DataStream.Writers
