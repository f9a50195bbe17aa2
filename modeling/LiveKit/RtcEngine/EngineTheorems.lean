import LiveKit.RtcEngine.Engine
import LiveKit.Lib.Counting

/-!
# What the steps of the engine do

The steps by kind, what the reconnect task leaves alone, and that the engine comes to rest: with
each step that it takes by itself there is less left to do, and where it can take none there is no
reconnect task, no event in a handler and no call of `close`.
-/

namespace LiveKit.RtcEngine.Engine

open State List Option TransitionSystem

/-! ## The steps by kind -/

inductive Turn (s : State) : Action → State → Prop where
  | event (session : ℕ) (fullReconnect : Bool) (handling : List (ℕ × Bool)) :
      Turn s (.closeEvent session fullReconnect) { s with handling := handling }
  | needed {k session : ℕ} {fullReconnect : Bool}
      (h : s.handling[k]? = some (session, fullReconnect)) :
      Turn s (.reconnectionNeeded k)
        ({ s with handling := s.handling.eraseIdx k }.reconnectionNeeded fullReconnect)
  | called : Turn s .close s.call
  | disconnected (session : ℕ) : Turn s (.disconnectEvent session) s.stopReconnecting.call
  | closing {k : ℕ} {call : CloseCall} {s' : State} (hcall : s.closeCalls[k]? = some call)
      (h : s.proceedClose k call = some s') : Turn s (.proceedClose k) s'
  | working {stage : Stage} {s' : State} (htask : s.reconnectTask = some stage)
      (h : s.work stage = some s') : Turn s .work s'
  | returned {stage : Stage} {outcome : Outcome} {s' : State} (htask : s.reconnectTask = some stage)
      (h : s.attemptReturned stage outcome = some s') : Turn s (.attemptReturned outcome) s'

variable {s s' : State}

theorem turn_of_step {a : Action} (hstep : s.step a = some s') : Turn s a s' := by
  unfold step at hstep
  cases a with
  | closeEvent session fullReconnect =>
    simp only at hstep
    split at hstep
    · split at hstep
      · cases hstep
        exact Turn.event session fullReconnect _
      · cases hstep
        exact Turn.event session fullReconnect s.handling
    · cases hstep
  | reconnectionNeeded k =>
    obtain ⟨event, hevent, rfl⟩ := map_eq_some_iff.mp hstep
    exact Turn.needed hevent
  | disconnectEvent session =>
    obtain ⟨-, rfl⟩ := of_guard hstep
    exact Turn.disconnected session
  | close =>
    cases hstep
    exact Turn.called
  | proceedClose k =>
    obtain ⟨call, hcall, h⟩ := bind_eq_some_iff.mp hstep
    exact Turn.closing hcall h
  | work =>
    obtain ⟨stage, htask, h⟩ := bind_eq_some_iff.mp hstep
    exact Turn.working htask h
  | attemptReturned outcome =>
    obtain ⟨stage, htask, h⟩ := bind_eq_some_iff.mp hstep
    exact Turn.returned htask h

/-! ## The reconnect task -/

/-- Where the reconnect task goes by itself, when it changes nothing but its stage. -/
inductive Next (s : State) : Stage → Stage → Prop where
  | locked : Next s .locking (.checking 1)
  | closed (i : ℕ) (hclosed : s.handle.closed = true) : Next s (.checking i) .erring
  | first (hopen : s.handle.closed = false) :
      Next s (.checking 1) (.announcing s.handle.fullReconnect)
  | again {i : ℕ} (hopen : s.handle.closed = false) (hi : i ≠ 1) :
      Next s (.checking i) (.beginning i s.handle.fullReconnect)
  | announced (fullReconnect : Bool) :
      Next s (.announcing fullReconnect) (.beginning 1 fullReconnect)
  | resume (i : ℕ) : Next s (.beginning i false) (.resuming i)
  | restart (i : ℕ) (hvacant : s.handle.engineTask = none) :
      Next s (.beginning i true) (.connecting i)
  | restarted (i : ℕ) : Next s (.signalRestarted i) (.waitingPc i)
  | resumed (i : ℕ) : Next s (.signalResumed i) (.settling i)
  | succeeded (fullReconnect : Bool) : Next s (.succeeded fullReconnect) (.reporting fullReconnect)
  | reported (fullReconnect : Bool) : Next s (.reporting fullReconnect) .finishing
  | ticked {i : ℕ} (hlt : i < reconnectAttempts) : Next s (.interval i) (.checking (i + 1))
  | exhausted (i : ℕ) : Next s (.interval i) .erring
  | left {k : ℕ} (hdone : s.closeCalls[k]? = some .done) : Next s (.awaitingClose k true) .erring
  | gone {k : ℕ} (hdone : s.closeCalls[k]? = some .done) :
      Next s (.awaitingClose k false) .finishing

/-- What the reconnect task does by itself. -/
inductive Works (s : State) : Stage → State → Prop where
  | goOn {stage stage' : Stage} (h : Next s stage stage') : Works s stage (s.setStage stage')
  | take (i : ℕ) {engineTask : ℕ} (h : s.handle.engineTask = some engineTask) :
      Works s (.beginning i true)
        (s.takeEngineTask.setStage (.closingSession i s.handle.session engineTask))
  | closed (i session engineTask : ℕ) :
      Works s (.closingSession i session engineTask)
        ((s.endEngineTask engineTask).setStage (.connecting i))
  | escalate (i : ℕ) :
      Works s (.escalating i)
        ({ s with handle := { s.handle with fullReconnect := true } }.setStage (.interval i))
  | leave :
      Works s .leaving
        (s.stopReconnecting.call.setStage (.awaitingClose s.closeCalls.length true))
  | err : Works s .erring (s.call.setStage (.awaitingClose s.closeCalls.length false))
  | finish :
      Works s .finishing
        { s with handle := { s.handle with reconnecting := false }, reconnectTask := none }

theorem works_of_work {stage : Stage} (h : s.work stage = some s') : Works s stage s' := by
  unfold work at h
  cases stage with
  | connecting | waitingPc | resuming | settling => cases h
  | checking i =>
    simp only at h
    split_ifs at h with hclosed hfirst <;> cases h
    · exact .goOn (.closed i hclosed)
    · subst hfirst
      exact .goOn (.first (Bool.not_eq_true _ ▸ hclosed))
    · exact .goOn (.again (Bool.not_eq_true _ ▸ hclosed) hfirst)
  | beginning i fullReconnect =>
    cases fullReconnect with
    | false =>
      cases h
      exact .goOn (.resume i)
    | true =>
      simp only at h
      split at h
      · next engineTask hengine =>
        cases h
        exact .take i hengine
      · next hvacant =>
        cases h
        exact .goOn (.restart i hvacant)
  | closingSession i session engineTask =>
    simp only at h
    split_ifs at h
    cases h
    exact .closed i session engineTask
  | interval i =>
    simp only at h
    split_ifs at h with hlt <;> cases h
    · exact .goOn (.ticked hlt)
    · exact .goOn (.exhausted i)
  | awaitingClose k inLoop =>
    simp only at h
    -- the task waits for the close call to return
    by_cases hdone : s.closeCalls[k]? = some .done
    · rw [if_pos hdone, some.injEq] at h
      subst h
      cases inLoop with
      | false => exact .goOn (.gone hdone)
      | true => exact .goOn (.left hdone)
    · rw [if_neg hdone] at h
      cases h
  | locking =>
    cases h
    exact .goOn .locked
  | announcing fullReconnect =>
    cases h
    exact .goOn (.announced fullReconnect)
  | signalRestarted i =>
    cases h
    exact .goOn (.restarted i)
  | signalResumed i =>
    cases h
    exact .goOn (.resumed i)
  | succeeded fullReconnect =>
    cases h
    exact .goOn (.succeeded fullReconnect)
  | reporting fullReconnect =>
    cases h
    exact .goOn (.reported fullReconnect)
  | escalating i =>
    cases h
    exact .escalate i
  | leaving =>
    cases h
    exact .leave
  | erring =>
    cases h
    exact .err
  | finishing =>
    cases h
    exact .finish

/-- Where the reconnect task goes after what it waits for, short of the installation of a
session. -/
inductive After : Stage → Outcome → Stage → Prop where
  | connected (i : ℕ) : After (.connecting i) .ok (.signalRestarted i)
  | connectFailed (i : ℕ) : After (.connecting i) .failed (.interval i)
  | connectLeft (i : ℕ) : After (.connecting i) .leave .leaving
  | pcFailed (i : ℕ) : After (.waitingPc i) .failed (.interval i)
  | resumed (i : ℕ) : After (.resuming i) .ok (.signalResumed i)
  | resumeFailed (i : ℕ) : After (.resuming i) .failed (.escalating i)
  | resumeLeft (i : ℕ) : After (.resuming i) .leave .leaving
  | settled (i : ℕ) : After (.settling i) .ok (.succeeded false)
  | settleFailed (i : ℕ) : After (.settling i) .failed (.escalating i)

/-- What the reconnect task does after what it waits for. -/
inductive Returns (s : State) : Stage → Outcome → State → Prop where
  | goOn {stage stage' : Stage} {outcome : Outcome} (h : After stage outcome stage') :
      Returns s stage outcome (s.setStage stage')
  | install (i : ℕ) : Returns s (.waitingPc i) .ok (s.install.setStage (.succeeded true))

variable {outcome : Outcome}

theorem returns_of_returned {stage : Stage} (h : s.attemptReturned stage outcome = some s') :
    Returns s stage outcome s' := by
  unfold attemptReturned at h
  split at h <;> cases h
  · exact .goOn (.connected _)
  · exact .goOn (.connectFailed _)
  · exact .goOn (.connectLeft _)
  · exact .install _
  · exact .goOn (.pcFailed _)
  · exact .goOn (.resumed _)
  · exact .goOn (.resumeFailed _)
  · exact .goOn (.resumeLeft _)
  · exact .goOn (.settled _)
  · exact .goOn (.settleFailed _)

/-- What the reconnect task does to the flags and the calls of `close`. -/
structure Worked (s s' : State) : Prop where
  closed : s'.handle.closed = s.handle.closed
  handling : s'.handling = s.handling
  calls : s'.closeCalls = s.closeCalls ∨ s'.closeCalls = s.closeCalls ++ [.starting]
  reconnecting : s.handle.reconnecting = true → s'.handle.reconnecting = s'.reconnectTask.isSome
  awaited : ∀ (k : ℕ) (inLoop : Bool), s'.reconnectTask = some (.awaitingClose k inLoop) →
    k < s'.closeCalls.length

/-- The task goes to a stage where it waits for no call of `close`. -/
theorem Worked.stage {stage : Stage} (hclosed : s'.handle.closed = s.handle.closed)
    (hhandling : s'.handling = s.handling) (hcalls : s'.closeCalls = s.closeCalls)
    (hreconnecting : s'.handle.reconnecting = s.handle.reconnecting)
    (htask : s'.reconnectTask = some stage) (hstage : ∀ k inLoop, stage ≠ .awaitingClose k inLoop) :
    Worked s s' where
  closed := hclosed
  handling := hhandling
  calls := .inl hcalls
  reconnecting h := by rw [hreconnecting, h, htask, isSome_some]
  awaited k inLoop h := by
    rw [htask, some.injEq] at h
    exact absurd h (hstage k inLoop)

/-- The task makes a call of `close` and waits for it. -/
theorem Worked.call {inLoop : Bool} :
    Worked s (s.call.setStage (.awaitingClose s.closeCalls.length inLoop)) where
  closed := rfl
  handling := rfl
  calls := .inr rfl
  reconnecting h := h
  awaited k inLoop' h := by
    cases h
    show s.closeCalls.length < (s.closeCalls ++ [CloseCall.starting]).length
    rw [length_append, length_singleton]
    omega

theorem worked_of_work {stage : Stage} (h : s.work stage = some s') : Worked s s' := by
  cases works_of_work h with
  | goOn hnext =>
    refine Worked.stage rfl rfl rfl rfl rfl ?_
    intro k inLoop heq
    subst heq
    cases hnext
  | take | closed | escalate => exact Worked.stage rfl rfl rfl rfl rfl (by simp)
  | leave =>
    -- the flag that `stop_reconnecting` sets is none of those that count here
    have hcall : Worked s.stopReconnecting (s.stopReconnecting.call.setStage
        (.awaitingClose s.closeCalls.length true)) := Worked.call
    exact ⟨hcall.closed, hcall.handling, hcall.calls, hcall.reconnecting, hcall.awaited⟩
  | err => exact Worked.call
  | finish =>
    refine ⟨rfl, rfl, .inl rfl, fun _ => rfl, ?_⟩
    intro k inLoop htask
    cases htask

theorem worked_of_returned {stage : Stage} (h : s.attemptReturned stage outcome = some s') :
    Worked s s' := by
  cases returns_of_returned h with
  | goOn hafter =>
    refine Worked.stage rfl rfl rfl rfl rfl ?_
    intro k inLoop heq
    subst heq
    cases hafter
  | install i => exact Worked.stage rfl rfl rfl rfl rfl (by simp)

/-! ## The flags, the task and the calls -/

/-- The calls of `close` that the reconnect task waits for have been made. -/
def State.AwaitsCalls (s : State) : Prop :=
  ∀ (k : ℕ) (inLoop : Bool), s.reconnectTask = some (.awaitingClose k inLoop) →
    k < s.closeCalls.length

structure Coherent (s : State) : Prop where
  reconnecting : s.handle.reconnecting = s.reconnectTask.isSome
  awaited : s.AwaitsCalls
  /-- A call of `close` that has begun has closed the engine. -/
  begun : ∀ call ∈ s.closeCalls, call ≠ .starting → s.handle.closed = true

theorem Coherent.new : Coherent new where
  reconnecting := rfl
  awaited k inLoop h := by cases h
  begun call h := absurd h not_mem_nil

/-- Calls have at most been made. -/
theorem Coherent.begun_of_calls (h : Coherent s) (hclosed : s'.handle.closed = s.handle.closed)
    (hcalls : s'.closeCalls = s.closeCalls ∨ s'.closeCalls = s.closeCalls ++ [.starting]) :
    ∀ call ∈ s'.closeCalls, call ≠ .starting → s'.handle.closed = true := by
  intro call hmem hne
  rw [hclosed]
  rcases hcalls with hcalls | hcalls
  · rw [hcalls] at hmem
    exact h.begun call hmem hne
  · rw [hcalls] at hmem
    rcases mem_append.mp hmem with hmem | hmem
    · exact h.begun call hmem hne
    · exact absurd (mem_singleton.mp hmem) hne

theorem Coherent.awaited_of_calls (h : Coherent s) (htask : s'.reconnectTask = s.reconnectTask)
    (hcalls : s.closeCalls.length ≤ s'.closeCalls.length) : s'.AwaitsCalls := by
  intro k inLoop hstage
  rw [htask] at hstage
  have hlt := h.awaited k inLoop hstage
  omega

/-- `reconnection_needed` in an engine that can reconnect: a task is there afterwards. -/
theorem reconnectionNeeded_cases (s : State) (fullReconnect : Bool) :
    (s.reconnectionNeeded fullReconnect).handle.closed = s.handle.closed ∧
      (s.reconnectionNeeded fullReconnect).closeCalls = s.closeCalls ∧
      ((s.handle.canReconnect = true ∧ s.handle.reconnecting = false ∧
          (s.reconnectionNeeded fullReconnect).handle.reconnecting = true ∧
          (s.reconnectionNeeded fullReconnect).reconnectTask = some .locking) ∨
        ((s.handle.canReconnect = true → s.handle.reconnecting = true) ∧
          (s.reconnectionNeeded fullReconnect).handle.reconnecting = s.handle.reconnecting ∧
          (s.reconnectionNeeded fullReconnect).reconnectTask = s.reconnectTask)) := by
  unfold reconnectionNeeded
  split_ifs with hcan hreconnecting hfull
  · exact ⟨rfl, rfl, .inr ⟨fun _ => hreconnecting, rfl, rfl⟩⟩
  · exact ⟨rfl, rfl, .inr ⟨fun _ => hreconnecting, rfl, rfl⟩⟩
  · rw [Bool.not_eq_true] at hreconnecting
    exact ⟨rfl, rfl, .inl ⟨by simpa using hcan, hreconnecting, rfl, rfl⟩⟩
  · refine ⟨rfl, rfl, .inr ⟨fun h => ?_, rfl, rfl⟩⟩
    exact absurd h hcan

variable {call : CloseCall}

/-- What a call of `close` does apart from its own progress. -/
theorem proceedClose_frame {k : ℕ} (h : s.proceedClose k call = some s') :
    s'.reconnectTask = s.reconnectTask ∧ s'.handle.reconnecting = s.handle.reconnecting ∧
      (call = .starting ∧ s'.handle.closed = true ∨
        call ≠ .starting ∧ s'.handle.closed = s.handle.closed) ∧
      ∃ call', call' ≠ .starting ∧ s'.closeCalls = s.closeCalls.set k call' := by
  unfold proceedClose at h
  cases call with
  | starting =>
    simp only at h
    split at h <;> cases h
    · exact ⟨rfl, rfl, .inl ⟨rfl, rfl⟩, _, by simp, rfl⟩
    · exact ⟨rfl, rfl, .inl ⟨rfl, rfl⟩, _, by simp, rfl⟩
  | closing session engineTask =>
    simp only at h
    split_ifs at h
    cases h
    exact ⟨rfl, rfl, .inr ⟨by simp, rfl⟩, _, by simp, rfl⟩
  | emitting =>
    cases h
    exact ⟨rfl, rfl, .inr ⟨by simp, rfl⟩, _, by simp, rfl⟩
  | done => cases h

theorem Coherent.step {a : Action} (h : Coherent s) (hstep : s.step a = some s') : Coherent s' := by
  cases turn_of_step hstep with
  | event session fullReconnect handling => exact ⟨h.reconnecting, h.awaited, h.begun⟩
  | @needed k session fullReconnect hevent =>
    obtain ⟨hclosed, hcalls, htask⟩ :=
      reconnectionNeeded_cases { s with handling := s.handling.eraseIdx k } fullReconnect
    generalize reconnectionNeeded _ fullReconnect = s' at hclosed hcalls htask ⊢
    have hbegun := h.begun_of_calls hclosed (.inl hcalls)
    rcases htask with ⟨-, -, hreconnecting, htask⟩ | ⟨-, hreconnecting, htask⟩
    · refine ⟨by rw [hreconnecting, htask]; rfl, ?_, hbegun⟩
      intro call inLoop hstage
      rw [htask] at hstage
      cases hstage
    · refine ⟨by rw [hreconnecting, htask, h.reconnecting], ?_, hbegun⟩
      exact h.awaited_of_calls htask (by rw [hcalls])
  | called =>
    exact ⟨h.reconnecting, h.awaited_of_calls rfl (by simp [call]),
      h.begun_of_calls rfl (.inr rfl)⟩
  | disconnected session =>
    exact ⟨h.reconnecting, h.awaited_of_calls rfl (by simp [call, stopReconnecting]),
      h.begun_of_calls rfl (.inr rfl)⟩
  | @closing k call _ hcall hproceed =>
    obtain ⟨htask, hreconnecting, hclosed, call', -, hcalls⟩ := proceedClose_frame hproceed
    refine ⟨by rw [hreconnecting, htask, h.reconnecting], ?_, ?_⟩
    · exact h.awaited_of_calls htask (by rw [hcalls, length_set])
    · -- the call has closed the engine before, or does so now
      intro _ _ _
      rcases hclosed with ⟨-, hclosed⟩ | ⟨hne, hclosed⟩
      · exact hclosed
      · rw [hclosed]
        exact h.begun call (mem_of_getElem? hcall) hne
  | working htask hwork =>
    have hworked := worked_of_work hwork
    refine ⟨hworked.reconnecting ?_, hworked.awaited, h.begun_of_calls hworked.closed hworked.calls⟩
    rw [h.reconnecting, htask]
    rfl
  | returned htask hreturned =>
    have hworked := worked_of_returned hreturned
    refine ⟨hworked.reconnecting ?_, hworked.awaited, h.begun_of_calls hworked.closed hworked.calls⟩
    rw [h.reconnecting, htask]
    rfl

/-! ## What is left to do -/

/-- How many steps there are at most from the beginning of attempt `i` to the last one, less what an
attempt takes by itself. -/
def remainingAttempts (i : ℕ) : ℕ := (reconnectAttempts - i) * 20

def Stage.remaining : Stage → ℕ
  | .locking => remainingAttempts 1 + 23
  | .checking i => remainingAttempts i + 22
  | .announcing _ => remainingAttempts 1 + 21
  | .beginning i _ => remainingAttempts i + 20
  | .closingSession i _ _ => remainingAttempts i + 19
  | .connecting i => remainingAttempts i + 18
  | .signalRestarted i => remainingAttempts i + 17
  | .waitingPc i => remainingAttempts i + 16
  | .resuming i => remainingAttempts i + 16
  | .signalResumed i => remainingAttempts i + 15
  | .settling i => remainingAttempts i + 14
  | .escalating i => remainingAttempts i + 13
  | .interval i => remainingAttempts i + 12
  | .leaving => 11
  | .awaitingClose _ true => 7
  | .erring => 6
  | .succeeded _ => 3
  | .reporting _ => 2
  | .awaitingClose _ false => 2
  | .finishing => 1

def CloseCall.remaining : CloseCall → ℕ
  | .starting => 3
  | .closing _ _ => 2
  | .emitting => 1
  | .done => 0

/-- An upper bound on the steps that the engine can take by itself. A `Close` event in a handler may
start a reconnect task. -/
def State.remaining (s : State) : ℕ :=
  (s.reconnectTask.map Stage.remaining).getD 0 + (s.closeCalls.map CloseCall.remaining).sum +
    (Stage.remaining .locking + 1) * s.handling.length

/-- There is nothing left to do. -/
structure State.Quiescent (s : State) : Prop where
  reconnectTask : s.reconnectTask = none
  handling : s.handling = []
  closeCalls : ∀ call ∈ s.closeCalls, call = .done

/-- The engine can take no step by itself. -/
def State.Stalled (s : State) : Prop := ∀ a, Action.Internal a → ¬ Enabled State.step s a

theorem remaining_setCall {k : ℕ} {call' : CloseCall} (hcall : s.closeCalls[k]? = some call)
    (hlt : call'.remaining < call.remaining) :
    ((s.closeCalls.set k call').map CloseCall.remaining).sum
      < (s.closeCalls.map CloseCall.remaining).sum := by
  have hsum := Counting.sum_map_set (f := CloseCall.remaining) (b := call') hcall
  omega

theorem remaining_proceedClose {k : ℕ} (hcall : s.closeCalls[k]? = some call)
    (h : s.proceedClose k call = some s') : s'.remaining < s.remaining := by
  -- one call goes on, and the rest stays as it is
  have hset : ∀ call' : CloseCall, call'.remaining < call.remaining →
      s'.reconnectTask = s.reconnectTask → s'.handling = s.handling →
      s'.closeCalls = s.closeCalls.set k call' → s'.remaining < s.remaining := by
    intro call' hlt htask hhandling hcalls
    have hsum := remaining_setCall hcall hlt
    unfold remaining
    rw [htask, hhandling, hcalls]
    omega
  unfold proceedClose at h
  cases call with
  | starting =>
    simp only at h
    split at h <;> cases h
    · exact hset _ (by show 2 < 3; omega) rfl rfl rfl
    · exact hset _ (by show 1 < 3; omega) rfl rfl rfl
  | closing session engineTask =>
    simp only at h
    split_ifs at h
    cases h
    exact hset _ (by show 1 < 2; omega) rfl rfl rfl
  | emitting =>
    cases h
    exact hset _ (by show 0 < 1; omega) rfl rfl rfl
  | done => cases h

variable {stage' : Stage}

/-- The task is at a stage with less to do, and has called `close` only if there is still less. -/
theorem remaining_stage {stage : Stage} (htask : s.reconnectTask = some stage)
    (htask' : s'.reconnectTask = some stage') (hhandling : s'.handling = s.handling)
    (hcalls : s'.closeCalls = s.closeCalls ∧ stage'.remaining < stage.remaining ∨
      s'.closeCalls = s.closeCalls ++ [.starting] ∧ stage'.remaining + 3 < stage.remaining) :
    s'.remaining < s.remaining := by
  unfold remaining
  rw [htask, htask', hhandling, map_some, map_some, getD_some,
    getD_some]
  rcases hcalls with ⟨hcalls, hlt⟩ | ⟨hcalls, hlt⟩
  · rw [hcalls]
    omega
  · have hstarting : CloseCall.starting.remaining = 3 := rfl
    rw [hcalls, map_append, sum_append, map_singleton, sum_singleton,
      hstarting]
    omega

theorem remainingAttempts_succ {i : ℕ} (h : i < reconnectAttempts) :
    remainingAttempts i = remainingAttempts (i + 1) + 20 := by
  unfold remainingAttempts
  omega

theorem Next.remaining_lt {stage : Stage} (h : Next s stage stage') :
    stage'.remaining < stage.remaining := by
  cases h with
  | ticked hlt =>
    -- the interval between two attempts is where the count of them goes up
    have hsucc := remainingAttempts_succ hlt
    simp only [Stage.remaining]
    omega
  | _ =>
    simp only [Stage.remaining]
    omega

theorem remaining_work {stage : Stage} (htask : s.reconnectTask = some stage)
    (h : s.work stage = some s') : s'.remaining < s.remaining := by
  cases works_of_work h with
  | goOn hnext => exact remaining_stage htask rfl rfl (.inl ⟨rfl, hnext.remaining_lt⟩)
  | take | closed | escalate =>
    refine remaining_stage htask rfl rfl (.inl ⟨rfl, ?_⟩)
    simp only [Stage.remaining]
    omega
  | leave => exact remaining_stage htask rfl rfl (.inr ⟨rfl, by show 7 + 3 < 11; omega⟩)
  | err => exact remaining_stage htask rfl rfl (.inr ⟨rfl, by show 2 + 3 < 6; omega⟩)
  | finish =>
    -- the task is gone, and what was left for it with it
    unfold remaining
    rw [htask]
    show 0 + (s.closeCalls.map CloseCall.remaining).sum + _ * s.handling.length
      < 1 + (s.closeCalls.map CloseCall.remaining).sum + _ * s.handling.length
    omega

theorem After.remaining_lt {stage : Stage} (h : After stage outcome stage') :
    stage'.remaining < stage.remaining := by
  cases h <;> simp only [Stage.remaining] <;> omega

theorem remaining_returned {stage : Stage} (htask : s.reconnectTask = some stage)
    (h : s.attemptReturned stage outcome = some s') : s'.remaining < s.remaining := by
  cases returns_of_returned h with
  | goOn hafter => exact remaining_stage htask rfl rfl (.inl ⟨rfl, hafter.remaining_lt⟩)
  | install i =>
    refine remaining_stage htask rfl rfl (.inl ⟨rfl, ?_⟩)
    simp only [Stage.remaining]
    omega

/-- A `Close` event leaves its handler, and starts at most one reconnect task. -/
theorem remaining_needed {k : ℕ} {event : ℕ × Bool} (fullReconnect : Bool)
    (h : s.handling[k]? = some event) :
    ({ s with handling := s.handling.eraseIdx k }.reconnectionNeeded fullReconnect).remaining
      < s.remaining := by
  obtain ⟨hk, -⟩ := List.getElem?_eq_some_iff.mp h
  have hlength := length_eraseIdx_add_one hk
  -- a handler that is over is worth more than a reconnect task at its start
  have hle : ∀ s' : State, s'.reconnectTask = s.reconnectTask ∨ s'.reconnectTask = some .locking →
      s'.closeCalls = s.closeCalls → s'.handling = s.handling.eraseIdx k →
      s'.remaining < s.remaining := by
    intro s' htask hcalls hhandling
    unfold remaining
    rw [hcalls, hhandling, ← hlength, Nat.mul_add, Nat.mul_one]
    rcases htask with htask | htask
    · rw [htask]
      omega
    · rw [htask, map_some, getD_some]
      omega
  unfold reconnectionNeeded
  split_ifs
  · exact hle _ (.inl rfl) rfl rfl
  · exact hle _ (.inl rfl) rfl rfl
  · exact hle _ (.inr rfl) rfl rfl
  · exact hle _ (.inl rfl) rfl rfl

/-- With every step that the engine takes by itself there is less left to do. -/
theorem remaining_lt (s : State) (a : Action) (s' : State) (hinternal : a.Internal)
    (hstep : s.step a = some s') : s'.remaining < s.remaining := by
  cases turn_of_step hstep with
  | event | called | disconnected => exact hinternal.elim
  | needed h => exact remaining_needed _ h
  | closing hcall h => exact remaining_proceedClose hcall h
  | working htask h => exact remaining_work htask h
  | returned htask h => exact remaining_returned htask h

/-- Where the engine can take no step by itself, there is nothing left to do. -/
theorem State.Stalled.quiescent (h : s.Stalled) (hawaits : s.AwaitsCalls) : s.Quiescent := by
  have hhandling : s.handling = [] := by
    cases hevents : s.handling with
    | nil => rfl
    | cons event events =>
      refine absurd ?_ (h (.reconnectionNeeded 0) trivial)
      show ∃ s', s.handling[0]?.map _ = some s'
      rw [hevents]
      exact ⟨_, rfl⟩
  -- without handlers every engine task ends, and no one waits for one
  have hidle : ∀ engineTask, ¬ s.Busy engineTask := by
    intro engineTask hbusy
    unfold State.Busy at hbusy
    rw [hhandling] at hbusy
    exact not_mem_nil hbusy
  -- so a call of `close` that is not over could go on
  have hcalls : ∀ (k : ℕ) (call : CloseCall), s.closeCalls[k]? = some call → call = .done := by
    intro k call hcall
    by_contra hne
    refine h (.proceedClose k) trivial ?_
    show ∃ s', s.closeCalls[k]?.bind (s.proceedClose k) = some s'
    rw [hcall, bind_some]
    unfold proceedClose
    cases call with
    | starting => cases s.handle.engineTask <;> exact ⟨_, rfl⟩
    | closing session engineTask => exact ⟨_, if_neg (hidle engineTask)⟩
    | emitting => exact ⟨_, rfl⟩
    | done => exact absurd rfl hne
  refine ⟨?_, hhandling, ?_⟩
  · cases htask : s.reconnectTask with
    | none => rfl
    | some stage =>
      -- each stage either goes on, or waits for something that ends
      have hwork : ∀ s', s.work stage ≠ some s' := by
        intro s' hs'
        refine h .work trivial ⟨s', ?_⟩
        show s.reconnectTask.bind s.work = some s'
        rw [htask, bind_some, hs']
      have hreturned : ∀ s', s.attemptReturned stage .failed ≠ some s' := by
        intro s' hs'
        refine h (.attemptReturned .failed) trivial ⟨s', ?_⟩
        show s.reconnectTask.bind _ = some s'
        rw [htask, bind_some, hs']
      exfalso
      cases stage with
      | connecting | waitingPc | resuming | settling => exact hreturned _ rfl
      | checking | interval =>
        unfold work at hwork
        simp only at hwork
        split_ifs at hwork <;> exact hwork _ rfl
      | beginning i fullReconnect =>
        cases fullReconnect with
        | false => exact hwork _ rfl
        | true =>
          unfold work at hwork
          simp only at hwork
          cases hengine : s.handle.engineTask with
          | none | some =>
            rw [hengine] at hwork
            exact hwork _ rfl
      | closingSession i session engineTask => exact hwork _ (if_neg (hidle engineTask))
      | awaitingClose k inLoop =>
        -- the call that the task waits for is over, as all are
        have hlt := hawaits k inLoop htask
        have hcall := getElem?_eq_getElem hlt
        rw [hcalls k _ hcall] at hcall
        exact hwork _ (if_pos hcall)
      | locking | announcing fullReconnect | signalRestarted i | signalResumed i
      | succeeded fullReconnect | reporting fullReconnect | escalating i | leaving | erring
      | finishing => exact hwork _ rfl
  · intro call hmem
    obtain ⟨k, hk⟩ := mem_iff_getElem?.mp hmem
    exact hcalls k call hk

/-- From the state on, the engine takes only so many steps by itself. -/
def State.Settles (s : State) : Prop :=
  ∀ as t, (∀ a ∈ as, Action.Internal a) → exec State.step s as = some t → as.length ≤ s.remaining

theorem State.settles (s : State) : s.Settles := by
  intro as t hinternal hexec
  exact exec_length_le remaining remaining_lt hinternal hexec

end LiveKit.RtcEngine.Engine
