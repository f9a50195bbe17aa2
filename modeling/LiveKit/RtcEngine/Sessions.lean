import LiveKit.RtcEngine.Closing

/-!
# The sessions of the engine and the tasks that keep them alive

A session that `RtcSession::connect` returns runs its own tasks and the signal task of its client,
which holds the signal connection. `RtcSession::close` ends them all. A session that is dropped
without it takes its own tasks along, but `SignalClient` has no `Drop`: the signal task goes on
until the connection ends by itself. A stream that was connected and then not kept goes on too.
The steps are those of the engine; sessions are numbered as they are installed, so the new session
of an attempt has the number that comes next.
-/

namespace LiveKit.RtcEngine.Sessions

open Engine (Stage Outcome CloseCall)

/-- Whether the tasks of a session run, and whether its signal task does, with its connection. -/
structure Tasks where
  session : Bool
  signal : Bool

namespace Tasks

def running : Tasks := ⟨true, true⟩

/-- `RtcSession::close` -/
def closed : Tasks := ⟨false, false⟩

/-- A signal connection that no session owns. -/
def stray : Tasks := ⟨false, true⟩

/-- Dropping an `RtcSession`. -/
def drop (t : Tasks) : Tasks := { t with session := false }

end Tasks

/-- What an attempt that fails to connect or to restart leaves of the signal connection it makes. -/
inductive Signal
  | none
  /-- It was made, and then dropped. -/
  | stray
  /-- The signal client has it. -/
  | made
deriving DecidableEq

structure State where
  engine : Engine.State
  tasks : ℕ → Tasks
  /-- The sessions that were dropped, and the signal connections that nobody owns. -/
  dropped : List Tasks
  /-- The sessions on which `close` has been called, and has yet to end their tasks. -/
  closing : List ℕ

inductive Action
  /-- A step of the engine other than the end of what an attempt waits for. -/
  | engine (a : Engine.Action)
  /-- Something ends that an attempt waits for. -/
  | attemptReturned (outcome : Outcome) (signal : Signal)
  /-- `RtcSession::close` ends the tasks of the session. -/
  | sessionClosed (session : ℕ)
  /-- The signal connection of a session ends by itself. -/
  | signalEnds (session : ℕ)
  | droppedEnds (j : ℕ)

/-- The session on which a step of the engine calls `close`. -/
def callsClose (s : Engine.State) : Engine.Action → Option ℕ
  | .proceedClose k =>
    match s.closeCalls[k]?, s.handle.engineTask with
    | some .starting, some _ => some s.handle.session
    | _, _ => none
  | .work =>
    match s.reconnectTask, s.handle.engineTask with
    | some (.beginning _ true), some _ => some s.handle.session
    | _, _ => none
  | _ => none

/-- The session whose `close` has to be over before a step of the engine. -/
def awaitsClose (s : Engine.State) : Engine.Action → Option ℕ
  | .proceedClose k =>
    match s.closeCalls[k]? with
    | some (.closing session _) => some session
    | _ => none
  | .work =>
    match s.reconnectTask with
    | some (.closingSession _ session _) => some session
    | _ => none
  | _ => none

namespace State

/-- After `EngineInner::connect`. -/
def new : State where
  engine := .new
  tasks := Function.update (fun _ => .closed) 0 .running
  dropped := []
  closing := []

def setTasks (s : State) (session : ℕ) (tasks : Tasks) : State :=
  { s with tasks := Function.update s.tasks session tasks }

def setSignal (s : State) (session : ℕ) (signal : Bool) : State :=
  s.setTasks session { s.tasks session with signal := signal }

def leave (s : State) (tasks : Tasks) : State := { s with dropped := s.dropped ++ [tasks] }

/-- What an attempt does to the sessions when something ends that it waits for. -/
def attemptReturned (s : State) (signal : Signal) : Stage → Outcome → State
  | .connecting _, .ok => s.setTasks s.engine.nextSession .running
  | .connecting _, _ => if signal = .none then s else s.leave .stray
  | .waitingPc _, .failed =>
    -- the new session goes out of scope
    (s.leave (s.tasks s.engine.nextSession).drop).setTasks s.engine.nextSession .closed
  | .resuming _, .ok => s.setSignal s.engine.handle.session true
  | .resuming _, _ =>
    -- the restart of the client has closed the old connection
    match signal with
    | .none => s.setSignal s.engine.handle.session false
    | .stray => (s.setSignal s.engine.handle.session false).leave .stray
    | .made => s.setSignal s.engine.handle.session true
  | _, _ => s

def step (s : State) : Action → Option State
  | .engine (.attemptReturned _) => none
  | .engine a =>
    if ∃ session ∈ awaitsClose s.engine a, session ∈ s.closing then none
    else (s.engine.step a).map fun engine =>
      { s with engine := engine, closing := s.closing ++ (callsClose s.engine a).toList }
  | .attemptReturned outcome signal =>
    s.engine.reconnectTask.bind fun stage =>
      (s.engine.attemptReturned stage outcome).map fun engine =>
        { s.attemptReturned signal stage outcome with engine := engine }
  | .sessionClosed session =>
    if session ∈ s.closing then
      some { s.setTasks session .closed with closing := s.closing.erase session }
    else none
  | .signalEnds session => some (s.setSignal session false)
  | .droppedEnds j =>
    some { s with dropped := s.dropped.modify j fun t => { t with signal := false } }

end State

/-- In `try_restart_connection` or `try_resume_connection`. -/
def InAttempt : Stage → Prop
  | .closingSession _ _ _ | .connecting _ | .signalRestarted _ | .waitingPc _ | .resuming _
  | .signalResumed _ | .settling _ => True
  | _ => False

/-- The only signal connection is that of the session in the running handle, and once the engine is
closed there is none but what a call of `close` is about to end. -/
structure NoneLeaked (s : State) : Prop where
  installed : ∀ session, (s.tasks session).signal = true → session = s.engine.handle.session
  dropped : ∀ t ∈ s.dropped, t.signal = false
  closed : s.engine.handle.closed = true →
    ∀ session, (s.tasks session).signal = true → session ∈ s.closing

/-- Nothing has leaked where no attempt is in progress. -/
def LeaksNone (s : State) : Prop :=
  (∀ stage ∈ s.engine.reconnectTask, ¬ InAttempt stage) → NoneLeaked s

/-- The session has a signal connection that no call of `close` is about to end. -/
def State.Stays (s : State) (session : ℕ) : Prop :=
  (s.tasks session).signal = true ∧ session ∉ s.closing

/-- What an attempt that ends must not leave behind: a connection of its own that is not that of
the installed session, or, in an engine that has been closed, that one. -/
def EndsClean (s : State) (a : Action) (_ : State) : Prop :=
  match a with
  | .attemptReturned outcome signal =>
    match s.engine.reconnectTask with
    | some (.connecting _) => outcome = .ok ∨ signal = .none
    | some (.waitingPc _) =>
      if outcome = .ok then
        s.engine.handle.closed = true →
          (s.tasks s.engine.nextSession).signal = false ∧
            (s.tasks s.engine.handle.session).signal = false
      else (s.tasks s.engine.nextSession).signal = false
    | some (.resuming _) =>
      outcome ≠ .ok → signal ≠ .stray ∧
        (signal = .made → s.engine.handle.closed = true → s.engine.handle.session ∈ s.closing)
    | some (.settling _) =>
      s.engine.handle.closed = true → ¬ s.Stays s.engine.handle.session
    | _ => True
  | _ => True

end LiveKit.RtcEngine.Sessions
