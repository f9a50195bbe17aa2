import LiveKit.Lib.TransitionSystem
import LiveKit.Lib.Since

/-!
# Publisher negotiation

`publisher_negotiation_needed` in `rtc_session.rs`, with the `NegotiationQueue` that it uses when
`fast_publish` is set and the `Debouncer` of `utils/debouncer.rs` that it uses otherwise. The
queue's state is behind a lock, its two flags are not, so a caller, the task and the handler of
an answer each take several steps. `Worker` and `DebounceTask` say where the tasks are.
-/

namespace LiveKit.RtcSession.Negotiation

inductive NegotiationState where
  | idle
  | inProgress
  | pendingRetry

structure NegotiationQueue where
  state : NegotiationState
  /-- There is a permit that nobody has taken. -/
  waker : Bool
  taskRunning : Bool
  waitingForAnswer : Bool

def NegotiationQueue.new : NegotiationQueue := ⟨.idle, false, false, false⟩

/-- Where the task that was spawned by `queue_negotiation` is. -/
inductive Worker where
  /-- At the head of the loop of `execute_negotiation_with_retry`. -/
  | starting
  /-- `waiting_for_answer` is set. -/
  | ready
  /-- In `create_and_send_offer`. -/
  | creatingOffer
  /-- In `select!`. -/
  | selecting
  /-- In the branch of the timeout, before `waiting_for_answer` is cleared. -/
  | timedOut
  /-- Before the lock of the state. -/
  | deciding
  /-- Out of the loop, before `task_running` is cleared. -/
  | leaving
deriving DecidableEq

/-- Where `debounce_task` is. -/
inductive DebounceTask where
  /-- In `select!`, with the calls that are in the channel. -/
  | sleeping (calls : ℕ)
  /-- The timer has fired. -/
  | fired
  /-- In `create_and_send_offer`. -/
  | creatingOffer
  /-- Before the end of the task, where the receiver of the channel is dropped. -/
  | leaving
deriving DecidableEq

/-- Where the handler of an answer is. -/
inductive AnswerHandler where
  /-- In `set_remote_description`. -/
  | applying
  /-- Before `waiting_for_answer.swap(false)`. -/
  | applied
  /-- Before `waker.notify_one()`. -/
  | notifying
deriving DecidableEq

structure State where
  fastPublish : Bool
  negotiationQueue : NegotiationQueue
  worker : Option Worker
  /-- `none` also when the task of the last debouncer has ended, so that `call` returns an error. -/
  negotiationDebouncer : Option DebounceTask
  answerHandler : Option AnswerHandler
  /-- How many callers found `waiting_for_answer` set and have not yet marked the queue. -/
  marking : ℕ
  /-- How many callers are about to call `queue_negotiation`. -/
  queueing : ℕ

inductive Action where
  /-- `publisher_negotiation_needed`, up to the load of `waiting_for_answer`; without
  `fast_publish` the whole of it. -/
  | publisherNegotiationNeeded
  /-- A caller that found `waiting_for_answer` set marks the queue for a retry. -/
  | markForRetry
  | queueNegotiation
  /-- The next thing that the task of the queue does, the end of `select!` apart. -/
  | work
  /-- The task of the queue has been notified. -/
  | notified
  /-- The timeout has come. -/
  | timeout
  /-- The debounce task takes a call from its channel and sleeps anew. -/
  | receiveCall
  /-- The debounce task has slept long enough. -/
  | wake
  /-- The next thing that the debounce task does after that. -/
  | negotiate
  | answerReceived
  /-- `set_remote_description` has returned. -/
  | answerApplied (ok : Bool)
  /-- The next thing that the handler of the answer does. -/
  | handleAnswer

namespace State

def new (fastPublish : Bool) : State := ⟨fastPublish, .new, none, none, none, 0, 0⟩

def setQueue (s : State) (queue : NegotiationQueue) : State := { s with negotiationQueue := queue }

/-- `queue_negotiation`; all of it happens under the lock. -/
def queueNegotiation (s : State) : State :=
  match s.negotiationQueue.state with
  | .idle =>
    if s.negotiationQueue.taskRunning then
      s.setQueue { s.negotiationQueue with state := .pendingRetry }
    else
      { s with
        negotiationQueue := { s.negotiationQueue with state := .inProgress, taskRunning := true }
        worker := some .starting }
  | .inProgress => s.setQueue { s.negotiationQueue with state := .pendingRetry }
  | .pendingRetry => s

/-- `debounce_negotiation`; all of it happens under the lock of the debouncer. -/
def debounceNegotiation (s : State) : State :=
  match s.negotiationDebouncer with
  | none => { s with negotiationDebouncer := some (.sleeping 0) }
  | some (.sleeping calls) => { s with negotiationDebouncer := some (.sleeping (calls + 1)) }
  -- the channel is still there, though nothing will be received any more
  | some _ => s

/-- `publisher_negotiation_needed` up to its first lock. -/
def publisherNegotiationNeeded (s : State) : State :=
  if s.fastPublish then
    if s.negotiationQueue.waitingForAnswer then { s with marking := s.marking + 1 }
    else { s with queueing := s.queueing + 1 }
  else s.debounceNegotiation

/-- The end of the loop of `execute_negotiation_with_retry`. -/
def retryOrFinish (s : State) : State :=
  match s.negotiationQueue.state with
  | .pendingRetry =>
    { s with
      negotiationQueue := { s.negotiationQueue with state := .inProgress }
      worker := some .starting }
  | _ =>
    { s with
      negotiationQueue := { s.negotiationQueue with state := .idle }
      worker := some .leaving }

def work (s : State) : Worker → Option State
  | .starting =>
    some { s with
      negotiationQueue := { s.negotiationQueue with waitingForAnswer := true }
      worker := some .ready }
  | .ready => some { s with worker := some .creatingOffer }
  | .creatingOffer => some { s with worker := some .selecting }
  | .selecting => none
  | .timedOut =>
    some { s with
      negotiationQueue := { s.negotiationQueue with waitingForAnswer := false }
      worker := some .deciding }
  | .deciding => some s.retryOrFinish
  | .leaving =>
    some { s with
      negotiationQueue := { s.negotiationQueue with taskRunning := false }
      worker := none }

/-- `debounce_task` after its timer. -/
def negotiate (s : State) : DebounceTask → Option State
  | .sleeping _ => none
  | .fired => some { s with negotiationDebouncer := some .creatingOffer }
  | .creatingOffer => some { s with negotiationDebouncer := some .leaving }
  | .leaving => some { s with negotiationDebouncer := none }

/-- The rest of what is done for an `Answer`, once it has been applied. -/
def handleAnswer (s : State) : AnswerHandler → Option State
  | .applying => none
  | .applied =>
    if s.fastPublish ∧ s.negotiationQueue.waitingForAnswer then
      some { s with
        negotiationQueue := { s.negotiationQueue with waitingForAnswer := false }
        answerHandler := some .notifying }
    else some { s with answerHandler := none }
  | .notifying =>
    some { s with
      negotiationQueue := { s.negotiationQueue with waker := true }
      answerHandler := none }

def step (s : State) : Action → Option State
  | .publisherNegotiationNeeded => some s.publisherNegotiationNeeded
  | .markForRetry =>
    if 0 < s.marking then
      some { s with
        negotiationQueue := { s.negotiationQueue with state := .pendingRetry }
        marking := s.marking - 1 }
    else none
  | .queueNegotiation =>
    if 0 < s.queueing then some { s with queueing := s.queueing - 1 }.queueNegotiation else none
  | .work => s.worker.bind s.work
  | .notified =>
    if s.worker = some .selecting ∧ s.negotiationQueue.waker then
      some { s with
        negotiationQueue := { s.negotiationQueue with waker := false }
        worker := some .deciding }
    else none
  | .timeout =>
    if s.worker = some .selecting then some { s with worker := some .timedOut } else none
  | .receiveCall =>
    match s.negotiationDebouncer with
    | some (.sleeping (calls + 1)) => some { s with negotiationDebouncer := some (.sleeping calls) }
    | _ => none
  | .wake =>
    match s.negotiationDebouncer with
    | some (.sleeping _) => some { s with negotiationDebouncer := some .fired }
    | _ => none
  | .negotiate => s.negotiationDebouncer.bind s.negotiate
  | .answerReceived =>
    if s.answerHandler = none then some { s with answerHandler := some .applying } else none
  | .answerApplied ok =>
    if s.answerHandler = some .applying then
      some { s with answerHandler := if ok then some .applied else none }
    else none
  | .handleAnswer => s.answerHandler.bind s.handleAnswer

end State

/-! ## Requests and offers -/

/-- What is recorded of a run. -/
inductive Record where
  /-- `publisher_negotiation_needed` was called. -/
  | requested
  /-- `create_and_send_offer` was called. -/
  | offerStarted

/-- What is recorded at a step. -/
def record (s : State) : Action → List Record
  | .publisherNegotiationNeeded => [.requested]
  | .work => if s.worker = some .ready then [.offerStarted] else []
  | .negotiate => if s.negotiationDebouncer = some .fired then [.offerStarted] else []
  | _ => []

/-- There has been a request since the last offer was started. -/
def Owed (records : List Record) : Prop :=
  Since (fun record => record = .requested) (fun record => record = .offerStarted) records

namespace State

/-- Nothing is going on: there is no task, no call, and no answer that is being handled. -/
def Quiescent (s : State) : Prop :=
  s.worker = none ∧ s.negotiationDebouncer = none ∧ s.answerHandler = none ∧
    s.marking = 0 ∧ s.queueing = 0

/-- When nothing is going on, there is nothing left to do. -/
def NothingStranded (records : List Record) (s : State) : Prop :=
  s.Quiescent → s.negotiationQueue.state ≠ .pendingRetry ∧ ¬ Owed records

end State

end LiveKit.RtcSession.Negotiation
