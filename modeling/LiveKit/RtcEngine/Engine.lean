import LiveKit.RtcEngine.ReconnectTask
import LiveKit.Lib.Since

/-!
# The engine, its sessions and its reconnect task

`EngineInner` in `rtc_engine/mod.rs`: the running handle, the engine tasks that take the events of
the sessions, the reconnect task with its attempts, and the calls of `close`. The handle is behind a
lock that nobody holds over an await, so what is done under one guard is one step, and the tasks
interleave between their awaits. Sessions are numbered in the order in which they are installed.
-/

namespace LiveKit.RtcEngine.Engine

/-- `EngineHandle` -/
structure EngineHandle where
  session : ℕ
  closed : Bool
  reconnecting : Bool
  canReconnect : Bool
  fullReconnect : Bool
  /-- The session whose events the engine task takes. -/
  engineTask : Option ℕ

/-- Where the task is that `reconnection_needed` spawns; `i` is the number of the attempt. -/
inductive Stage where
  /-- Before `reconnecting_lock`. -/
  | locking
  /-- Before the flags of the handle are read. -/
  | checking (i : ℕ)
  /-- `Restarting` or `Resuming` is sent, and the room has yet to answer. -/
  | announcing (fullReconnect : Bool)
  /-- Before `try_restart_connection` or `try_resume_connection`. -/
  | beginning (i : ℕ) (fullReconnect : Bool)
  /-- The restart closes the session, and waits for its engine task. -/
  | closingSession (i session engineTask : ℕ)
  /-- In `RtcSession::connect`. -/
  | connecting (i : ℕ)
  /-- `SignalRestarted` is sent, and the room has yet to answer. -/
  | signalRestarted (i : ℕ)
  /-- In `wait_pc_connection` of the new session. -/
  | waitingPc (i : ℕ)
  /-- In `restart` of the session. -/
  | resuming (i : ℕ)
  /-- `SignalResumed` is sent, and the room has yet to answer. -/
  | signalResumed (i : ℕ)
  /-- In `restart_publisher` and what comes after it. -/
  | settling (i : ℕ)
  /-- The attempt is over, and `Restarted` or `Resumed` has yet to be sent. -/
  | succeeded (fullReconnect : Bool)
  /-- It is sent, and the room has yet to answer. -/
  | reporting (fullReconnect : Bool)
  /-- The resume has failed, and the flag has yet to be set. -/
  | escalating (i : ℕ)
  /-- In `tick` of the interval. -/
  | interval (i : ℕ)
  /-- The server has asked to disconnect. -/
  | leaving
  /-- In a call of `close` of its own; it was made in the loop, or after it. -/
  | awaitingClose (call : ℕ) (inLoop : Bool)
  /-- `reconnect_task` has returned an error. -/
  | erring
  /-- Before `reconnecting` is cleared. -/
  | finishing

/-- Where a call of `close` is. -/
inductive CloseCall where
  | starting
  /-- In `session.close`, or waiting for the engine task. -/
  | closing (session engineTask : ℕ)
  /-- Before `Disconnected` is sent. -/
  | emitting
  | done
deriving DecidableEq

/-- How something ends that an attempt waits for. -/
inductive Outcome where
  | ok
  | failed
  /-- The server wants the client to stop. -/
  | leave
deriving DecidableEq

structure State where
  handle : EngineHandle
  /-- The number of the next session. -/
  nextSession : ℕ
  /-- The engine tasks that run, by the session. -/
  engineTasks : List ℕ
  /-- The `Close` events whose handler has yet to call `reconnection_needed`, each with its session
  and whether it asks for a full reconnect. -/
  handling : List (ℕ × Bool)
  reconnectTask : Option Stage
  closeCalls : List CloseCall

inductive Action where
  /-- The engine task of a session takes a `Close` event with the action `Resume` or `Reconnect`,
  and its handler reads `can_reconnect`. -/
  | closeEvent (session : ℕ) (fullReconnect : Bool)
  /-- A handler calls `reconnection_needed`. -/
  | reconnectionNeeded (k : ℕ)
  /-- The engine task of a session takes a `Close` event with the action `Disconnect`. -/
  | disconnectEvent (session : ℕ)
  /-- Somebody calls `close`. -/
  | close
  /-- The next thing that a call of `close` does. -/
  | proceedClose (k : ℕ)
  /-- The next thing that the reconnect task does. -/
  | work
  /-- Something ends that an attempt waits for. -/
  | attemptReturned (outcome : Outcome)

inductive Record where
  /-- A `Close` event of the installed session asks for a reconnection, in an engine that is not
  closed and can reconnect. -/
  | requested
  /-- A connection attempt begins. -/
  | attempted
  /-- `closed` is set. -/
  | engineClosed
  | sessionClosed (session : ℕ)
  | installed (session : ℕ)
  /-- `Restarted` or `Resumed` is sent. -/
  | reported (fullReconnect : Bool)
  /-- `Disconnected` is sent. -/
  | disconnected
deriving DecidableEq

namespace State

/-- After `EngineInner::connect`. -/
def new : State where
  handle := ⟨0, false, false, true, false, some 0⟩
  nextSession := 1
  engineTasks := [0]
  handling := []
  reconnectTask := none
  closeCalls := []

def setStage (s : State) (stage : Stage) : State := { s with reconnectTask := some stage }

def setCall (s : State) (k : ℕ) (call : CloseCall) : State :=
  { s with closeCalls := s.closeCalls.set k call }

def setClosed (s : State) : State := { s with handle := { s.handle with closed := true } }

def takeEngineTask (s : State) : State := { s with handle := { s.handle with engineTask := none } }

def stopReconnecting (s : State) : State :=
  { s with handle := { s.handle with canReconnect := false } }

/-- The engine task ends. -/
def endEngineTask (s : State) (engineTask : ℕ) : State :=
  { s with engineTasks := s.engineTasks.erase engineTask }

/-- The engine task handles a `Close` event, and cannot end before that is done. -/
def Busy (s : State) (engineTask : ℕ) : Prop := engineTask ∈ s.handling.map Prod.fst

instance (s : State) (engineTask : ℕ) : Decidable (s.Busy engineTask) :=
  inferInstanceAs (Decidable (_ ∈ _))

def call (s : State) : State := { s with closeCalls := s.closeCalls ++ [.starting] }

/-- `reconnection_needed` -/
def reconnectionNeeded (s : State) (fullReconnect : Bool) : State :=
  if ¬ s.handle.canReconnect then s
  else if s.handle.reconnecting then
    if fullReconnect then { s with handle := { s.handle with fullReconnect := true } } else s
  else
    { s with
      handle := { s.handle with reconnecting := true, fullReconnect := fullReconnect }
      reconnectTask := some .locking }

/-- `EngineInner::close` -/
def proceedClose (s : State) (k : ℕ) : CloseCall → Option State
  | .starting =>
    match s.handle.engineTask with
    | some engineTask =>
      some (s.setClosed.takeEngineTask.setCall k (.closing s.handle.session engineTask))
    | none => some (s.setClosed.setCall k .emitting)
  | .closing _ engineTask =>
    if s.Busy engineTask then none else some ((s.endEngineTask engineTask).setCall k .emitting)
  | .emitting => some (s.setCall k .done)
  | .done => none

/-- `reconnect_task` with its attempts, and the task around it, up to what they wait for. -/
def work (s : State) : Stage → Option State
  | .locking => some (s.setStage (.checking 1))
  | .checking i =>
    if s.handle.closed then some (s.setStage .erring)
    else if i = 1 then some (s.setStage (.announcing s.handle.fullReconnect))
    else some (s.setStage (.beginning i s.handle.fullReconnect))
  | .announcing fullReconnect => some (s.setStage (.beginning 1 fullReconnect))
  | .beginning i true =>
    match s.handle.engineTask with
    | some engineTask =>
      some (s.takeEngineTask.setStage (.closingSession i s.handle.session engineTask))
    | none => some (s.setStage (.connecting i))
  | .beginning i false => some (s.setStage (.resuming i))
  | .closingSession i _ engineTask =>
    if s.Busy engineTask then none
    else some ((s.endEngineTask engineTask).setStage (.connecting i))
  | .signalRestarted i => some (s.setStage (.waitingPc i))
  | .signalResumed i => some (s.setStage (.settling i))
  | .succeeded fullReconnect => some (s.setStage (.reporting fullReconnect))
  | .reporting _ => some (s.setStage .finishing)
  | .escalating i =>
    some ({ s with handle := { s.handle with fullReconnect := true } }.setStage (.interval i))
  | .interval i =>
    if i < reconnectAttempts then some (s.setStage (.checking (i + 1)))
    else some (s.setStage .erring)
  | .leaving => some (s.stopReconnecting.call.setStage (.awaitingClose s.closeCalls.length true))
  | .awaitingClose call inLoop =>
    if s.closeCalls[call]? = some .done then
      some (s.setStage (if inLoop then .erring else .finishing))
    else none
  | .erring => some (s.call.setStage (.awaitingClose s.closeCalls.length false))
  | .finishing =>
    some { s with handle := { s.handle with reconnecting := false }, reconnectTask := none }
  | .connecting _ | .waitingPc _ | .resuming _ | .settling _ => none

/-- The end of `try_restart_connection`. -/
def install (s : State) : State :=
  { s with
    handle := { s.handle with session := s.nextSession, engineTask := some s.nextSession }
    nextSession := s.nextSession + 1
    engineTasks := s.engineTasks ++ [s.nextSession] }

/-- What comes after what an attempt waits for. -/
def attemptReturned (s : State) : Stage → Outcome → Option State
  | .connecting i, .ok => some (s.setStage (.signalRestarted i))
  | .connecting i, .failed => some (s.setStage (.interval i))
  | .connecting _, .leave => some (s.setStage .leaving)
  | .waitingPc _, .ok => some (s.install.setStage (.succeeded true))
  | .waitingPc i, .failed => some (s.setStage (.interval i))
  | .resuming i, .ok => some (s.setStage (.signalResumed i))
  | .resuming i, .failed => some (s.setStage (.escalating i))
  | .resuming _, .leave => some (s.setStage .leaving)
  | .settling _, .ok => some (s.setStage (.succeeded false))
  | .settling i, .failed => some (s.setStage (.escalating i))
  | _, _ => none

def step (s : State) : Action → Option State
  | .closeEvent session fullReconnect =>
    if session ∈ s.engineTasks ∧ ¬ s.Busy session then
      if s.handle.canReconnect then
        some { s with handling := s.handling ++ [(session, fullReconnect)] }
      else some s
    else none
  | .reconnectionNeeded k =>
    s.handling[k]?.map fun event =>
      { s with handling := s.handling.eraseIdx k }.reconnectionNeeded event.2
  | .disconnectEvent session =>
    if session ∈ s.engineTasks ∧ ¬ s.Busy session then some s.stopReconnecting.call else none
  | .close => some s.call
  | .proceedClose k => s.closeCalls[k]?.bind (s.proceedClose k)
  | .work => s.reconnectTask.bind s.work
  | .attemptReturned outcome => s.reconnectTask.bind fun stage => s.attemptReturned stage outcome

/-- What a step puts on record. -/
def records (s : State) : Action → List Record
  | .reconnectionNeeded k =>
    match s.handling[k]? with
    | some (session, _) =>
      if session = s.handle.session ∧ s.handle.closed = false ∧ s.handle.canReconnect = true then
        [.requested]
      else []
    | none => []
  | .proceedClose k =>
    match s.closeCalls[k]? with
    | some .starting => [.engineClosed]
    | some (.closing session _) => [.sessionClosed session]
    | some .emitting => [.disconnected]
    | _ => []
  | .work =>
    match s.reconnectTask with
    | some (.beginning _ _) => [.attempted]
    | some (.closingSession _ session _) => [.sessionClosed session]
    | some (.succeeded fullReconnect) => [.reported fullReconnect]
    | _ => []
  | .attemptReturned .ok =>
    match s.reconnectTask with
    | some (.waitingPc _) => [.installed s.nextSession]
    | _ => []
  | _ => []

end State

/-- What the engine does without the sessions and the callers; the room answers, and what an attempt
waits for ends. -/
def Action.Internal : Action → Prop
  | .closeEvent _ _ | .disconnectEvent _ | .close => False
  | _ => True

end LiveKit.RtcEngine.Engine
