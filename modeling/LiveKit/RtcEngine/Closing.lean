import LiveKit.RtcEngine.EngineTheorems

/-!
# The end of the engine

The first call of `close` takes the engine task that it finds, closes its session and sends
`Disconnected`. A restart that has read `closed` before that installs its session all the same, and
tells the room; a reconnect task that comes to its next attempt makes another call of `close`, and
so does whoever calls it again, and each sends `Disconnected`.
-/

namespace LiveKit.RtcEngine.Engine

open Record State List TransitionSystem

/-- In `try_restart_connection`, or on the way to it, with the session yet to be installed. -/
def Stage.Restarting : Stage → Prop
  | .announcing fullReconnect | .beginning _ fullReconnect => fullReconnect = true
  | .closingSession _ _ _ | .connecting _ | .signalRestarted _ | .waitingPc _ => True
  | _ => False

/-- Between the look at `closed` and the end of the attempt, as it is told to the room. -/
def Stage.Attempting : Stage → Prop
  | .announcing _ | .beginning _ _ | .closingSession _ _ _ | .connecting _ | .signalRestarted _
  | .waitingPc _ | .resuming _ | .signalResumed _ | .settling _ | .succeeded _ => True
  | _ => False

instance : (stage : Stage) → Decidable stage.Restarting
  | .announcing fullReconnect | .beginning _ fullReconnect =>
    inferInstanceAs (Decidable (fullReconnect = true))
  | .closingSession _ _ _ | .connecting _ | .signalRestarted _ | .waitingPc _ => isTrue trivial
  | .locking | .checking _ | .resuming _ | .signalResumed _ | .settling _ | .succeeded _
  | .reporting _ | .escalating _ | .interval _ | .leaving | .awaitingClose _ _ | .erring
  | .finishing => isFalse id

instance : (stage : Stage) → Decidable stage.Attempting
  | .announcing _ | .beginning _ _ | .closingSession _ _ _ | .connecting _ | .signalRestarted _
  | .waitingPc _ | .resuming _ | .signalResumed _ | .settling _ | .succeeded _ => isTrue trivial
  | .locking | .checking _ | .reporting _ | .escalating _ | .interval _ | .leaving
  | .awaitingClose _ _ | .erring | .finishing => isFalse id

/-- One call of `close` begins at most, and not during a restart; and no attempt is under way when
it comes to send `Disconnected`. -/
def ClosesOnce (s : State) (a : Action) (_ : State) : Prop :=
  match a with
  | .proceedClose k =>
    (s.closeCalls[k]? = some .starting →
      s.handle.closed = false ∧ ∀ stage ∈ s.reconnectTask, ¬ stage.Restarting) ∧
    (s.closeCalls[k]? = some .emitting → ∀ stage ∈ s.reconnectTask, ¬ stage.Attempting)
  | _ => True

instance (s : State) (a : Action) (s' : State) : Decidable (ClosesOnce s a s') :=
  match a with
  | .proceedClose _ => inferInstanceAs (Decidable (_ ∧ _))
  | .closeEvent _ _ | .reconnectionNeeded _ | .disconnectEvent _ | .close | .work
  | .attemptReturned _ => isTrue trivial

/-- A restart has taken the engine task from the handle, if there was one. -/
def Stage.Vacant : Stage → Prop
  | .closingSession _ _ _ | .connecting _ | .signalRestarted _ | .waitingPc _ => True
  | _ => False

/-! ## What is final -/

/-- A session has had an engine task. -/
def Installed (records : List Record) (session : ℕ) : Prop :=
  session = 0 ∨ .installed session ∈ records

/-- A session is installed. -/
def Record.Installs (record : Record) : Prop := ∃ session, record = .installed session

/-- `Restarted` or `Resumed` is sent. -/
def Record.Reports (record : Record) : Prop := ∃ fullReconnect, record = .reported fullReconnect

variable {record : Record}

theorem Record.not_installs (h : ∀ session, record ≠ .installed session) : ¬ record.Installs := by
  rintro ⟨session, hinstalls⟩
  exact h session hinstalls

theorem Record.not_reports (h : ∀ fullReconnect, record ≠ .reported fullReconnect) :
    ¬ record.Reports := by
  rintro ⟨fullReconnect, hreports⟩
  exact h fullReconnect hreports

/-- Closed is final. -/
structure Final (records : List Record) (s : State) : Prop where
  /-- No session, and with it no engine task, is installed once `closed` is set. -/
  installed : NoneAfter Record.Installs (· = .engineClosed) records
  reported : NoneAfter Record.Reports (· = .disconnected) records
  once : records.count .disconnected ≤ 1
  settles : s.Settles
  /-- A closed engine that is at rest has closed all its sessions, and has sent `Disconnected`. -/
  rest : s.handle.closed = true → s.Stalled → s.Quiescent ∧ s.handle.engineTask = none ∧
    records.count .disconnected = 1 ∧
    ∀ session, Installed records session → .sessionClosed session ∈ records

/-! ## Invariant -/

/-- Somebody closes the session. -/
def State.Closes (s : State) (session : ℕ) : Prop :=
  (∃ i engineTask, s.reconnectTask = some (.closingSession i session engineTask)) ∨
    ∃ engineTask, .closing session engineTask ∈ s.closeCalls

/-- A call of `close` that has begun. -/
def CloseCall.begun (call : CloseCall) : Bool := call != .starting

structure ClosingInv (records : List Record) (s : State) : Prop where
  coherent : Coherent s
  recorded : .engineClosed ∈ records → s.handle.closed = true
  /-- One call at most has begun, and if one has, the engine is closed. -/
  begun : s.closeCalls.countP CloseCall.begun = s.handle.closed.toNat
  emitted : records.count .disconnected = s.closeCalls.count .done
  taken : s.handle.closed = true → s.handle.engineTask = none
  restarting : s.handle.closed = true → ∀ stage ∈ s.reconnectTask, ¬ stage.Restarting
  attempting : .disconnected ∈ records → ∀ stage ∈ s.reconnectTask, ¬ stage.Attempting
  installed : NoneAfter Record.Installs (· = .engineClosed) records
  reported : NoneAfter Record.Reports (· = .disconnected) records
  own : ∀ session, s.handle.engineTask = some session → s.handle.session = session
  vacant : ∀ stage ∈ s.reconnectTask, stage.Vacant → s.handle.engineTask = none
  sessions : ∀ session, Installed records session →
    .sessionClosed session ∈ records ∨ s.handle.engineTask = some session ∨ s.Closes session

/-- Nothing has happened yet in a new engine. -/
theorem ClosingInv.new : ClosingInv [] new where
  coherent := Coherent.new
  recorded h := absurd h not_mem_nil
  begun := rfl
  emitted := rfl
  taken h := by cases h
  restarting h := by cases h
  attempting h := absurd h not_mem_nil
  installed := NoneAfter.nil
  reported := NoneAfter.nil
  own session h := by
    cases h
    rfl
  vacant stage h := by cases h
  sessions session h := by
    rcases h with rfl | h
    · exact .inr (.inl rfl)
    · exact absurd h not_mem_nil

variable {records : List Record} {s : State}

/-- `Disconnected` is sent at the end of a call of `close`. -/
theorem ClosingInv.closed_of_disconnected (h : ClosingInv records s)
    (hmem : .disconnected ∈ records) : s.handle.closed = true := by
  -- the call that has sent it has begun before, and the first one to begin closes the engine
  have hpos : 0 < s.closeCalls.count .done := by
    rw [← h.emitted]
    exact count_pos_iff.mpr hmem
  exact h.coherent.begun .done (count_pos_iff.mp hpos) (by simp)

/-- A close call that returned has begun. -/
theorem count_done_le (calls : List CloseCall) :
    calls.count .done ≤ calls.countP CloseCall.begun := by
  apply countP_mono_left
  intro call _ hdone
  rw [beq_iff_eq] at hdone
  rw [hdone]
  rfl

/-- Where all calls of `close` are over, as many have been made as have begun. -/
theorem count_done_eq {calls : List CloseCall} (h : ∀ call ∈ calls, call = .done) :
    calls.count .done = calls.countP CloseCall.begun := by
  apply countP_congr
  intro call hmem
  rw [h call hmem]
  decide

/-- The invariant gives what the engine promises of its end. -/
theorem ClosingInv.final (h : ClosingInv records s) :
    Final records s where
  installed := h.installed
  reported := h.reported
  once := by
    -- only calls that have begun are over, and one has begun at most
    have hle := count_done_le s.closeCalls
    have hbegun := h.begun
    have hone : s.handle.closed.toNat ≤ 1 := Bool.toNat_le _
    rw [h.emitted]
    omega
  settles := s.settles
  rest hclosed hstalled := by
    have hquiet := hstalled.quiescent h.coherent.awaited
    refine ⟨hquiet, h.taken hclosed, ?_, ?_⟩
    · rw [h.emitted, count_done_eq hquiet.closeCalls, h.begun, hclosed]
      rfl
    · intro session hinstalled
      -- at rest nobody is about to close a session, so none is left over
      rcases h.sessions session hinstalled with hdone | hengine | ⟨i, engineTask, htask⟩ |
        ⟨engineTask, hmem⟩
      · exact hdone
      · rw [h.taken hclosed] at hengine
        cases hengine
      · rw [hquiet.reconnectTask] at htask
        cases htask
      · have hcall := hquiet.closeCalls _ hmem
        cases hcall

/-! ## The reconnect task -/

/-- Where the reconnect task goes from a stage: it begins nothing in an engine that is closed. -/
structure Onward (s : State) (stage stage' : Stage) : Prop where
  restarting : stage'.Restarting → stage.Restarting ∨ s.handle.closed = false
  attempting : stage'.Attempting → stage.Attempting ∨ s.handle.closed = false

variable {stage stage' : Stage}

/-- To a stage outside of the attempts. -/
theorem Onward.away (hrestarting : ¬ stage'.Restarting) (hattempting : ¬ stage'.Attempting) :
    Onward s stage stage' :=
  ⟨fun h => absurd h hrestarting, fun h => absurd h hattempting⟩

/-- Within an attempt. -/
theorem Onward.within (hrestarting : stage'.Restarting → stage.Restarting)
    (hattempting : stage.Attempting) : Onward s stage stage' :=
  ⟨fun h => .inl (hrestarting h), fun _ => .inl hattempting⟩

theorem Next.onward (h : Next s stage stage') : Onward s stage stage' := by
  cases h with
  | first hopen | again hopen => exact ⟨fun _ => .inr hopen, fun _ => .inr hopen⟩
  | announced | restarted | resumed => exact Onward.within id trivial
  | resume i => exact Onward.within (fun h => h.elim) trivial
  | restart i hvacant => exact Onward.within (fun _ => rfl) trivial
  | _ => exact Onward.away id id

variable {s' : State}

/-- A step of the reconnect task only moves its own attempt onward. -/
theorem onward_of_work (h : s.work stage = some s') :
    ∀ stage' ∈ s'.reconnectTask, Onward s stage stage' := by
  intro stage' hstage'
  cases works_of_work h with
  | goOn hnext =>
    cases hstage'
    exact hnext.onward
  | take i hengine =>
    cases hstage'
    exact Onward.within (fun _ => rfl) trivial
  | closed i session engineTask =>
    cases hstage'
    exact Onward.within id trivial
  | escalate | leave | err =>
    cases hstage'
    exact Onward.away id id
  | finish => cases hstage'

variable {outcome : Outcome}

/-- Only an attempt that is under way waits for something. -/
theorem After.onward (s : State) (h : After stage outcome stage') : Onward s stage stage' := by
  cases h with
  | connected | resumed | settled => exact Onward.within id trivial
  | _ => exact Onward.away id id

/-- The end of an attempt only moves the reconnect task onward. -/
theorem onward_of_returned (h : s.attemptReturned stage outcome = some s') :
    ∀ stage' ∈ s'.reconnectTask, Onward s stage stage' := by
  intro stage' hstage'
  cases returns_of_returned h with
  | goOn hafter =>
    cases hstage'
    exact hafter.onward s
  | install i =>
    cases hstage'
    exact Onward.within (fun h => h.elim) trivial

/-- A stage without a session follows one without, or the engine has no task. -/
theorem Next.vacant (h : Next s stage stage') (hvacant : stage'.Vacant) :
    stage.Vacant ∨ s.handle.engineTask = none := by
  cases h with
  | restart i hnone => exact .inr hnone
  | restarted i => exact .inl trivial
  | _ => exact hvacant.elim

/-- What the reconnect task does to the engine task and the sessions, up to the installation of a
session. -/
theorem sessions_of_work (h : s.work stage = some s') :
    s'.handle.session = s.handle.session ∧
      ((s'.handle.engineTask = s.handle.engineTask ∧
          (∀ i session engineTask, stage ≠ .closingSession i session engineTask) ∧
          ∀ stage' ∈ s'.reconnectTask, stage'.Vacant →
            stage.Vacant ∨ s.handle.engineTask = none) ∨
        (∃ i engineTask, stage = .beginning i true ∧ s.handle.engineTask = some engineTask ∧
          s'.handle.engineTask = none ∧
          s'.reconnectTask = some (.closingSession i s.handle.session engineTask)) ∨
        (∃ i session engineTask, stage = .closingSession i session engineTask ∧
          s'.handle.engineTask = s.handle.engineTask)) := by
  have hvacant : ∀ {next : Stage}, s'.reconnectTask = some next → ¬ next.Vacant →
      ∀ stage' ∈ s'.reconnectTask, stage'.Vacant → stage.Vacant ∨ s.handle.engineTask = none := by
    intro next hnext hnot stage' hstage' hvacant
    rw [Option.mem_def, hnext, Option.some.injEq] at hstage'
    exact absurd (hstage' ▸ hvacant) hnot
  cases works_of_work h with
  | goOn hnext =>
    refine ⟨rfl, .inl ⟨rfl, ?_, ?_⟩⟩
    · intro i session engineTask heq
      subst heq
      cases hnext
    · intro stage' hstage'
      cases hstage'
      exact hnext.vacant
  | take i hengine => exact ⟨rfl, .inr (.inl ⟨i, _, rfl, hengine, rfl, rfl⟩)⟩
  | closed i session engineTask =>
    exact ⟨rfl, .inr (.inr ⟨i, session, engineTask, rfl, rfl⟩)⟩
  | escalate | leave | err => exact ⟨rfl, .inl ⟨rfl, by simp, hvacant rfl id⟩⟩
  | finish =>
    refine ⟨rfl, .inl ⟨rfl, by simp, ?_⟩⟩
    intro stage' hstage'
    cases hstage'

/-- The same where something ends that an attempt waits for. -/
theorem sessions_of_returned (h : s.attemptReturned stage outcome = some s') :
    (∀ i session engineTask, stage ≠ .closingSession i session engineTask) ∧
      ((outcome = .ok ∧ ∃ i, stage = .waitingPc i ∧
          s' = s.install.setStage (.succeeded true)) ∨
        ((∀ i, outcome = .ok → stage ≠ .waitingPc i) ∧ s'.handle = s.handle ∧
          ∀ stage' ∈ s'.reconnectTask, stage'.Vacant → stage.Vacant)) := by
  cases returns_of_returned h with
  | install i => exact ⟨by simp, .inl ⟨rfl, i, rfl, rfl⟩⟩
  | goOn hafter =>
    refine ⟨?_, .inr ⟨?_, rfl, ?_⟩⟩
    · intro i session engineTask heq
      subst heq
      cases hafter
    · intro i hok heq
      subst hok heq
      cases hafter
    · intro stage' hstage' hvacant
      cases hstage'
      cases hafter with
      | connected i => exact trivial
      | _ => exact hvacant.elim

/-! ## Each step -/

/-- What a step puts on record that installs, reports, closes and ends nothing changes little. -/
structure Plain (records' : List Record) : Prop where
  engineClosed : .engineClosed ∉ records'
  disconnected : .disconnected ∉ records'
  installs : ∀ record ∈ records', ¬ record.Installs

variable {records' : List Record}

theorem not_mem_concat (h : record ∈ records ++ records') (hnot : record ∉ records') :
    record ∈ records := by
  rcases mem_append.mp h with h | h
  · exact h
  · exact absurd h hnot

/-- Records that install nothing do not say which session is installed. -/
theorem Installed.of_append {session : ℕ} (h : Installed (records ++ records') session)
    (hnot : ∀ record ∈ records', ¬ record.Installs) : Installed records session := by
  rcases h with rfl | h
  · exact .inl rfl
  · refine .inr (not_mem_concat h ?_)
    intro hmem
    exact hnot _ hmem ⟨session, rfl⟩

theorem count_append_of_not_mem (hnot : record ∉ records') :
    (records ++ records').count record = records.count record := by
  rw [count_append, count_eq_zero.mpr hnot, Nat.add_zero]

/-- Calls of `close` that have just been made count for nothing. -/
theorem calls_called {calls calls' : List CloseCall}
    (h : calls' = calls ∨ calls' = calls ++ [.starting]) :
    calls'.countP CloseCall.begun = calls.countP CloseCall.begun ∧
      calls'.count .done = calls.count .done ∧ ∀ call ∈ calls, call ∈ calls' := by
  rcases h with rfl | rfl
  · exact ⟨rfl, rfl, fun _ h => h⟩
  · refine ⟨?_, ?_, fun call h => mem_append_left _ h⟩
    · rw [countP_append]
      rfl
    · rw [count_append]
      rfl

/-- A step that leaves `closed` alone, and puts nothing on record that is final. -/
theorem ClosingInv.plain (h : ClosingInv records s) (hcoherent : Coherent s')
    (hrecords : Plain records') (hclosed : s'.handle.closed = s.handle.closed)
    (hcalls : s'.closeCalls = s.closeCalls ∨ s'.closeCalls = s.closeCalls ++ [.starting])
    (honward : ∀ stage' ∈ s'.reconnectTask, stage' = .locking ∨
      ∃ stage ∈ s.reconnectTask, Onward s stage stage')
    (hreported : ∀ record ∈ records', record.Reports → .disconnected ∉ records)
    (hlength : records'.length ≤ 1)
    (htaken : s.handle.engineTask = none → s'.handle.engineTask = none)
    (hown : ∀ session, s'.handle.engineTask = some session → s'.handle.session = session)
    (hvacant : ∀ stage ∈ s'.reconnectTask, stage.Vacant → s'.handle.engineTask = none)
    (hsessions : ∀ session, Installed records session →
      .sessionClosed session ∈ records ++ records' ∨ s'.handle.engineTask = some session ∨
        s'.Closes session) : ClosingInv (records ++ records') s' := by
  obtain ⟨hbegun, hdone, -⟩ := calls_called hcalls
  refine ⟨hcoherent, ?_, ?_, ?_, ?_, ?_, ?_, ?_, ?_, hown, hvacant, ?_⟩
  · intro hmem
    rw [hclosed]
    exact h.recorded (not_mem_concat hmem hrecords.engineClosed)
  · rw [hbegun, hclosed, h.begun]
  · rw [count_append_of_not_mem hrecords.disconnected, hdone, h.emitted]
  · intro hc
    rw [hclosed] at hc
    exact htaken (h.taken hc)
  · intro hc stage' hstage' hrestarting
    rw [hclosed] at hc
    -- a closed engine begins no attempt: the stage before was within one as well
    rcases honward stage' hstage' with rfl | ⟨stage, hstage, honward⟩
    · exact hrestarting
    rcases honward.restarting hrestarting with hrestarting | hopen
    · exact h.restarting hc stage hstage hrestarting
    · rw [hc] at hopen
      cases hopen
  · intro hmem stage' hstage' hattempting
    -- by then the engine is closed, as `Disconnected` is sent by a call that has begun
    have hmem' := not_mem_concat hmem hrecords.disconnected
    rcases honward stage' hstage' with rfl | ⟨stage, hstage, honward⟩
    · exact hattempting
    rcases honward.attempting hattempting with hattempting | hopen
    · exact h.attempting hmem' stage hstage hattempting
    · rw [h.closed_of_disconnected hmem'] at hopen
      cases hopen
  · exact h.installed.append hrecords.installs
  · -- what is reported comes before any `Disconnected`
    match records', hlength, hreported with
    | [], _, _ =>
      rw [append_nil]
      exact h.reported
    | [record], _, hreported =>
      by_cases hreports : record.Reports
      · apply NoneAfter.concat
        rintro _ hmem rfl
        exact hreported record (mem_singleton_self _) hreports hmem
      · exact h.reported.concat_of_not hreports
  · intro session hinstalled
    exact hsessions session (hinstalled.of_append hrecords.installs)

theorem Plain.nil : Plain [] :=
  ⟨not_mem_nil, not_mem_nil, fun _ h => absurd h not_mem_nil⟩

theorem Plain.singleton (hclosed : record ≠ .engineClosed) (hdisconnected : record ≠ .disconnected)
    (hinstalls : ¬ record.Installs) :
    Plain [record] where
  engineClosed h := hclosed (mem_singleton.mp h).symm
  disconnected h := hdisconnected (mem_singleton.mp h).symm
  installs := forall_mem_singleton.mpr hinstalls

theorem Onward.refl (s : State) (stage : Stage) : Onward s stage stage := ⟨.inl, .inl⟩

/-- A step that leaves the task, the sessions and the calls alone. -/
theorem ClosingInv.idle (h : ClosingInv records s) (hcoherent : Coherent s')
    (hrecords : Plain records') (hreports : ∀ record ∈ records', ¬ record.Reports)
    (hlength : records'.length ≤ 1) (hclosed : s'.handle.closed = s.handle.closed)
    (hcalls : s'.closeCalls = s.closeCalls ∨ s'.closeCalls = s.closeCalls ++ [.starting])
    (htask : s'.reconnectTask = s.reconnectTask ∨
      s.reconnectTask = none ∧ s'.reconnectTask = some .locking)
    (hengine : s'.handle.engineTask = s.handle.engineTask)
    (hsession : s'.handle.session = s.handle.session) : ClosingInv (records ++ records') s' := by
  refine h.plain hcoherent hrecords hclosed hcalls ?_ ?_ hlength ?_ ?_ ?_ ?_
  · intro stage' hstage'
    rcases htask with htask | ⟨-, htask⟩
    · rw [htask] at hstage'
      exact .inr ⟨stage', hstage', Onward.refl s stage'⟩
    · rw [htask] at hstage'
      exact .inl (Option.some.inj hstage').symm
  · intro record hmem hreport
    exact absurd hreport (hreports record hmem)
  · intro hnone
    rw [hengine]
    exact hnone
  · intro session hsome
    rw [hengine] at hsome
    rw [hsession]
    exact h.own session hsome
  · intro stage hstage hvacant
    rw [hengine]
    -- a new reconnect task is at the lock, where it has taken nothing
    rcases htask with htask | ⟨-, htask⟩
    · rw [htask] at hstage
      exact h.vacant stage hstage hvacant
    · rw [htask] at hstage
      cases hstage
      exact hvacant.elim
  · intro session hinstalled
    rw [hengine]
    obtain ⟨-, -, hkept⟩ := calls_called hcalls
    rcases h.sessions session hinstalled with hdone | hsome | ⟨i, engineTask, hcloses⟩ |
      ⟨engineTask, hcloses⟩
    · exact .inl (mem_append_left _ hdone)
    · exact .inr (.inl hsome)
    · rcases htask with htask | ⟨hnone, -⟩
      · rw [← htask] at hcloses
        exact .inr (.inr (.inl ⟨i, engineTask, hcloses⟩))
      · rw [hnone] at hcloses
        cases hcloses
    · exact .inr (.inr (.inr ⟨engineTask, hkept _ hcloses⟩))

variable {k : ℕ}

theorem plain_needed :
    Plain (s.records (.reconnectionNeeded k)) ∧
      (∀ record ∈ s.records (.reconnectionNeeded k), ¬ record.Reports) ∧
      (s.records (.reconnectionNeeded k)).length ≤ 1 := by
  unfold records
  simp only
  split
  · split_ifs
    · exact ⟨Plain.singleton (by simp) (by simp) (not_installs (by simp)),
        forall_mem_singleton.mpr (not_reports (by simp)), by simp⟩
    · exact ⟨Plain.nil, fun _ h => absurd h not_mem_nil, Nat.zero_le _⟩
  · exact ⟨Plain.nil, fun _ h => absurd h not_mem_nil, Nat.zero_le _⟩

/-- Asking for a reconnection does not touch the running session. -/
theorem reconnectionNeeded_sessions (s : State) (fullReconnect : Bool) :
    (s.reconnectionNeeded fullReconnect).handle.engineTask = s.handle.engineTask ∧
      (s.reconnectionNeeded fullReconnect).handle.session = s.handle.session := by
  unfold reconnectionNeeded
  split_ifs <;> exact ⟨rfl, rfl⟩

/-- What the reconnect task puts on record; it reports only an attempt that has succeeded. -/
theorem plain_work :
    Plain (s.records .work) ∧ (s.records .work).length ≤ 1 ∧
      ∀ record ∈ s.records .work, record.Reports →
        ∃ fullReconnect, s.reconnectTask = some (.succeeded fullReconnect) := by
  have hsilent : ∀ record : Record, (∀ fullReconnect, record ≠ .reported fullReconnect) →
      ∀ record' ∈ [record], record'.Reports →
        ∃ fullReconnect, s.reconnectTask = some (.succeeded fullReconnect) := by
    intro record hne record' hmem hreports
    rw [mem_singleton.mp hmem] at hreports
    exact absurd hreports (not_reports hne)
  unfold records
  simp only
  split
  · exact ⟨Plain.singleton (by simp) (by simp) (not_installs (by simp)), by simp,
      hsilent .attempted (by simp)⟩
  · next session _ _ =>
    exact ⟨Plain.singleton (by simp) (by simp) (not_installs (by simp)), by simp,
      hsilent (.sessionClosed session) (by simp)⟩
  · next fullReconnect htask =>
    exact ⟨Plain.singleton (by simp) (by simp) (not_installs (by simp)), by simp,
      fun _ _ _ => ⟨fullReconnect, htask⟩⟩
  · exact ⟨Plain.nil, Nat.zero_le _, fun _ h => absurd h not_mem_nil⟩

/-- The invariant across a step of the reconnect task. -/
theorem ClosingInv.working (h : ClosingInv records s) (hcoherent : Coherent s')
    (htask : s.reconnectTask = some stage) (hwork : s.work stage = some s') :
    ClosingInv (records ++ s.records .work) s' := by
  have hworked := worked_of_work hwork
  obtain ⟨hplain, hlength, hreports⟩ := plain_work (s := s)
  obtain ⟨hsession, hsessions⟩ := sessions_of_work hwork
  refine h.plain hcoherent hplain hworked.closed hworked.calls ?_ ?_ hlength ?_ ?_ ?_ ?_
  · intro stage' hstage'
    exact .inr ⟨stage, htask, onward_of_work hwork stage' hstage'⟩
  · intro record hmem hreport hdisconnected
    -- a report comes from an attempt, and none is under way once `Disconnected` is sent
    obtain ⟨fullReconnect, hsucceeded⟩ := hreports record hmem hreport
    exact h.attempting hdisconnected _ hsucceeded trivial
  · intro hnone
    rcases hsessions with ⟨hengine, -⟩ | ⟨_, _, -, -, hengine, -⟩ | ⟨_, _, _, -, hengine⟩
    · rw [hengine, hnone]
    · exact hengine
    · rw [hengine, hnone]
  · intro session hsome
    rw [hsession]
    rcases hsessions with ⟨hengine, -⟩ | ⟨_, _, -, -, hengine, -⟩ | ⟨_, _, _, -, hengine⟩
    · rw [hengine] at hsome
      exact h.own session hsome
    · rw [hengine] at hsome
      cases hsome
    · rw [hengine] at hsome
      exact h.own session hsome
  · intro stage' hstage' hvacant
    rcases hsessions with ⟨hengine, -, hkept⟩ | ⟨_, _, -, -, hengine, -⟩ | ⟨_, _, _, rfl, hengine⟩
    · rw [hengine]
      rcases hkept stage' hstage' hvacant with hvacant | hnone
      · exact h.vacant stage htask hvacant
      · exact hnone
    · exact hengine
    · rw [hengine]
      exact h.vacant _ htask trivial
  · intro session hinstalled
    obtain ⟨-, -, hkept⟩ := calls_called hworked.calls
    rcases h.sessions session hinstalled with hdone | hsome | ⟨i, engineTask, hcloses⟩ |
      ⟨engineTask, hcloses⟩
    · exact .inl (mem_append_left _ hdone)
    · rcases hsessions with ⟨hengine, -⟩ | ⟨i, engineTask, -, hengine, -, hclosing⟩ |
        ⟨_, _, _, -, hengine⟩
      · rw [hengine]
        exact .inr (.inl hsome)
      · -- the restart has taken it
        rw [h.own session hsome] at hclosing
        exact .inr (.inr (.inl ⟨i, engineTask, hclosing⟩))
      · rw [hengine]
        exact .inr (.inl hsome)
    · -- the restart has closed it
      cases htask.symm.trans hcloses
      refine .inl (mem_append_right _ ?_)
      unfold State.records
      simp only
      rw [htask]
      exact mem_singleton_self _
    · exact .inr (.inr (.inr ⟨engineTask, hkept _ hcloses⟩))

/-- A session is installed: the engine is not closed, and the restart has taken the engine task of
the session before. -/
theorem ClosingInv.install {i : ℕ} (h : ClosingInv records s)
    (hcoherent : Coherent (s.install.setStage (.succeeded true)))
    (htask : s.reconnectTask = some (.waitingPc i)) :
    ClosingInv (records ++ [.installed s.nextSession])
      (s.install.setStage (.succeeded true)) := by
  -- no call of `close` begins during a restart
  have hopen : s.handle.closed = false := by
    by_contra hc
    rw [Bool.not_eq_false] at hc
    exact h.restarting hc _ htask trivial
  have hopen' : (s.install.setStage (.succeeded true)).handle.closed = false := hopen
  have hnot : .engineClosed ∉ records := by
    intro hmem
    have hc := h.recorded hmem
    rw [hopen] at hc
    cases hc
  have hquiet : .disconnected ∉ records := by
    intro hmem
    have hc := h.closed_of_disconnected hmem
    rw [hopen] at hc
    cases hc
  refine ⟨hcoherent, ?_, h.begun, ?_, ?_, ?_, ?_, ?_, ?_, ?_, ?_, ?_⟩
  · intro hmem
    exact absurd (not_mem_concat hmem (by simp)) hnot
  · rw [count_append_of_not_mem (by simp)]
    exact h.emitted
  · intro hc
    rw [hopen'] at hc
    cases hc
  · intro hc
    rw [hopen'] at hc
    cases hc
  · intro hmem
    exact absurd (not_mem_concat hmem (by simp)) hquiet
  · apply NoneAfter.concat
    rintro _ hmem rfl
    exact hnot hmem
  · apply NoneAfter.concat
    rintro _ hmem rfl
    exact hquiet hmem
  · intro session hsome
    exact Option.some.inj hsome
  · intro stage hstage hvacant
    cases hstage
    exact hvacant.elim
  · intro session hinstalled
    -- the new session has the engine task; the old ones are closed, or a call closes them
    by_cases hnew : session = s.nextSession
    · rw [hnew]
      exact .inr (.inl rfl)
    · have hold : Installed records session := by
        rcases hinstalled with hzero | hmem
        · exact .inl hzero
        · exact .inr (not_mem_concat hmem (by simpa using hnew))
      rcases h.sessions session hold with hdone | hsome | ⟨j, engineTask, hcloses⟩ |
        ⟨engineTask, hcloses⟩
      · exact .inl (mem_append_left _ hdone)
      · rw [h.vacant _ htask trivial] at hsome
        cases hsome
      · rw [htask] at hcloses
        cases hcloses
      · exact .inr (.inr (.inr ⟨engineTask, hcloses⟩))

/-- The invariant across the end of an attempt. -/
theorem ClosingInv.returned (h : ClosingInv records s) (hcoherent : Coherent s')
    (htask : s.reconnectTask = some stage) (hreturned : s.attemptReturned stage outcome = some s') :
    ClosingInv (records ++ s.records (.attemptReturned outcome)) s' := by
  have hworked := worked_of_returned hreturned
  obtain ⟨hclosing, hsessions⟩ := sessions_of_returned hreturned
  -- the peer connections are up, and a session is installed, or nothing is
  rcases hsessions with ⟨rfl, i, rfl, rfl⟩ | ⟨hwaiting, hhandle, hvacant⟩
  · have hrecords : s.records (.attemptReturned .ok) = [.installed s.nextSession] := by
      unfold State.records
      simp only
      rw [htask]
    rw [hrecords]
    exact h.install hcoherent htask
  · have hrecords : s.records (.attemptReturned outcome) = [] := by
      unfold State.records
      cases outcome with
      | failed | leave => rfl
      | ok =>
        simp only
        split
        · next i hstage =>
          rw [htask, Option.some.injEq] at hstage
          exact absurd hstage (hwaiting i rfl)
        · rfl
    rw [hrecords]
    refine h.plain hcoherent Plain.nil hworked.closed hworked.calls ?_
      (fun _ hmem => absurd hmem not_mem_nil) (Nat.zero_le _) ?_ ?_ ?_ ?_
    · intro stage' hstage'
      exact .inr ⟨stage, htask, onward_of_returned hreturned stage' hstage'⟩
    · intro hnone
      rw [hhandle]
      exact hnone
    · intro session hsome
      rw [hhandle] at hsome ⊢
      exact h.own session hsome
    · intro stage' hstage' hvacant'
      rw [hhandle]
      exact h.vacant stage htask (hvacant stage' hstage' hvacant')
    · intro session hinstalled
      rw [hhandle]
      obtain ⟨-, -, hkept⟩ := calls_called hworked.calls
      rcases h.sessions session hinstalled with hdone | hsome | ⟨i, engineTask, hcloses⟩ |
        ⟨engineTask, hcloses⟩
      · exact .inl (mem_append_left _ hdone)
      · exact .inr (.inl hsome)
      · rw [htask, Option.some.injEq] at hcloses
        exact absurd hcloses (hclosing i session engineTask)
      · exact .inr (.inr (.inr ⟨engineTask, hkept _ hcloses⟩))

/-! ## The calls of `close` -/

variable {call : CloseCall}

/-- What the next thing is that a call of `close` does: it begins, it has closed the session, or it
sends `Disconnected`. -/
theorem proceedClose_cases (hcall : s.closeCalls[k]? = some call)
    (h : s.proceedClose k call = some s') :
    (call = .starting ∧ s.records (.proceedClose k) = [.engineClosed] ∧
      s'.handle.closed = true ∧ s'.handle.engineTask = none ∧ ∃ call',
        s'.closeCalls = s.closeCalls.set k call' ∧ call'.begun = true ∧ call' ≠ .done ∧
        ∀ engineTask, s.handle.engineTask = some engineTask →
          call' = .closing s.handle.session engineTask) ∨
    (∃ session engineTask, call = .closing session engineTask ∧
      s.records (.proceedClose k) = [.sessionClosed session] ∧ s'.handle = s.handle ∧
      s'.closeCalls = s.closeCalls.set k .emitting) ∨
    (call = .emitting ∧ s.records (.proceedClose k) = [.disconnected] ∧ s'.handle = s.handle ∧
      s'.closeCalls = s.closeCalls.set k .done) := by
  unfold proceedClose at h
  unfold records
  simp only
  rw [hcall]
  cases call with
  | starting =>
    refine .inl ⟨rfl, rfl, ?_⟩
    simp only at h
    split at h
    · next engineTask hengine =>
      cases h
      refine ⟨rfl, rfl, _, rfl, rfl, by simp, ?_⟩
      intro engineTask' hengine'
      rw [hengine, Option.some.injEq] at hengine'
      rw [hengine']
    · next hengine =>
      cases h
      refine ⟨rfl, hengine, _, rfl, rfl, by simp, ?_⟩
      intro engineTask' hengine'
      rw [hengine] at hengine'
      cases hengine'
  | closing session engineTask =>
    simp only at h
    split_ifs at h
    cases h
    exact .inr (.inl ⟨session, engineTask, rfl, rfl, rfl, rfl⟩)
  | emitting =>
    cases h
    exact .inr (.inr ⟨rfl, rfl, rfl, rfl⟩)
  | done => cases h

section

variable (h : ClosingInv records s) (hcoherent : Coherent s')

include h hcoherent

theorem ClosingInv.starting {call' : CloseCall} (hcall : s.closeCalls[k]? = some .starting)
    (htask : s'.reconnectTask = s.reconnectTask) (hclosed : s'.handle.closed = true)
    (hengine : s'.handle.engineTask = none) (hcalls : s'.closeCalls = s.closeCalls.set k call')
    (hbegun : call'.begun = true) (hdone : call' ≠ .done)
    (htaken : ∀ engineTask, s.handle.engineTask = some engineTask →
      call' = .closing s.handle.session engineTask) (hopen : s.handle.closed = false)
    (hrestarting : ∀ stage ∈ s.reconnectTask, ¬ stage.Restarting) :
    ClosingInv (records ++ [.engineClosed]) s' := by
  have hquiet : .disconnected ∉ records := by
    intro hmem
    have hc := h.closed_of_disconnected hmem
    rw [hopen] at hc
    cases hc
  refine ⟨hcoherent, fun _ => hclosed, ?_, ?_, fun _ => hengine, ?_, ?_, ?_, ?_, ?_, ?_, ?_⟩
  · -- the first call to begin
    have hset := Counting.countP_set (p := CloseCall.begun) (b := call') hcall
    have hbefore := h.begun
    have hstarting : CloseCall.begun .starting = false := rfl
    rw [hopen, Bool.toNat_false] at hbefore
    rw [hbegun, hstarting, Bool.toNat_false, Bool.toNat_true] at hset
    rw [hcalls, hclosed, Bool.toNat_true]
    omega
  · have hset := Counting.countP_set (p := (· == .done)) (b := call') hcall
    have hne : (call' == CloseCall.done) = false := by simpa using hdone
    have hstarting : (CloseCall.starting == CloseCall.done) = false := rfl
    rw [hne, hstarting, Bool.toNat_false] at hset
    rw [count_append_of_not_mem (by simp), h.emitted, hcalls]
    unfold List.count
    omega
  · intro _ stage hstage
    rw [htask] at hstage
    exact hrestarting stage hstage
  · intro hmem
    exact absurd (not_mem_concat hmem (by simp)) hquiet
  · exact h.installed.concat_of_not (not_installs (by simp))
  · exact h.reported.concat_of_not (not_reports (by simp))
  · intro session hsome
    rw [hengine] at hsome
    cases hsome
  · exact fun _ _ _ => hengine
  · intro session hinstalled
    have hold := hinstalled.of_append
      (forall_mem_singleton.mpr (not_installs (by simp)))
    rcases h.sessions session hold with hsession | hsome | ⟨i, engineTask, hcloses⟩ |
      ⟨engineTask, hcloses⟩
    · exact .inl (mem_append_left _ hsession)
    · -- the call has taken it
      obtain ⟨hk, -⟩ := List.getElem?_eq_some_iff.mp hcall
      have hmem := mem_set hk call'
      rw [← hcalls, htaken session hsome, h.own session hsome] at hmem
      exact .inr (.inr (.inr ⟨session, hmem⟩))
    · rw [← htask] at hcloses
      exact .inr (.inr (.inl ⟨i, engineTask, hcloses⟩))
    · refine .inr (.inr (.inr ⟨engineTask, ?_⟩))
      rw [hcalls]
      exact Counting.mem_set_of_ne hcall hcloses (by simp)

/-- A call of `close` that has begun goes on. -/
theorem ClosingInv.goOn {call' : CloseCall} (hcall : s.closeCalls[k]? = some call)
    (htask : s'.reconnectTask = s.reconnectTask) (hhandle : s'.handle = s.handle)
    (hcalls : s'.closeCalls = s.closeCalls.set k call') (hbegun : call.begun = true)
    (hbegun' : call'.begun = true) (hdone : call ≠ .done)
    (hrecord : ¬ record.Installs ∧ ¬ record.Reports ∧ record ≠ .engineClosed)
    (hemitted : (record == .disconnected) = (call' == .done))
    (hattempting : record = .disconnected → ∀ stage ∈ s.reconnectTask, ¬ stage.Attempting)
    (hclosing : ∀ session engineTask, call = .closing session engineTask →
      record = .sessionClosed session) : ClosingInv (records ++ [record]) s' := by
  obtain ⟨hinstalls, hreports, hengineClosed⟩ := hrecord
  refine ⟨hcoherent, ?_, ?_, ?_, ?_, ?_, ?_, ?_, ?_, ?_, ?_, ?_⟩
  · intro hmem
    rw [hhandle]
    exact h.recorded (not_mem_concat hmem (by simpa using hengineClosed.symm))
  · have hset := Counting.countP_set (p := CloseCall.begun) (b := call') hcall
    rw [hbegun, hbegun'] at hset
    rw [hcalls, hhandle, ← h.begun]
    omega
  · have hset := Counting.countP_set (p := (· == .done)) (b := call') hcall
    have hne : (call == CloseCall.done) = false := by simpa using hdone
    have hcount : [record].count .disconnected = (call' == CloseCall.done).toNat := by
      rw [← hemitted, List.count, countP_cons, countP_nil]
      cases record == .disconnected <;> rfl
    -- a call is over in the step that sends `Disconnected`
    have hbefore := h.emitted
    rw [hne, Bool.toNat_false] at hset
    rw [count_append, hcount, hcalls]
    unfold List.count at hbefore ⊢
    omega
  · rw [hhandle]
    exact h.taken
  · rw [hhandle, htask]
    exact h.restarting
  · intro hmem stage hstage
    rw [htask] at hstage
    -- either it was sent before, or this is the step that sends it
    rcases mem_append.mp hmem with hmem | hmem
    · exact h.attempting hmem stage hstage
    · exact hattempting (mem_singleton.mp hmem).symm stage hstage
  · exact h.installed.concat_of_not hinstalls
  · exact h.reported.concat_of_not hreports
  · rw [hhandle]
    exact h.own
  · rw [htask, hhandle]
    exact h.vacant
  · intro session hinstalled
    have hold := hinstalled.of_append (forall_mem_singleton.mpr hinstalls)
    rw [hhandle]
    rcases h.sessions session hold with hsession | hsome | ⟨i, engineTask, hcloses⟩ |
      ⟨engineTask, hcloses⟩
    · exact .inl (mem_append_left _ hsession)
    · exact .inr (.inl hsome)
    · rw [← htask] at hcloses
      exact .inr (.inr (.inl ⟨i, engineTask, hcloses⟩))
    · by_cases hown : call = .closing session engineTask
      · -- this is the call that closes it
        rw [hclosing session engineTask hown]
        exact .inl (mem_append_right _ (mem_singleton_self _))
      · refine .inr (.inr (.inr ⟨engineTask, ?_⟩))
        rw [hcalls]
        exact Counting.mem_set_of_ne hcall hcloses (fun heq => hown heq.symm)

/-- The invariant across a step of a close call. -/
theorem ClosingInv.closing (hcall : s.closeCalls[k]? = some call)
    (hproceed : s.proceedClose k call = some s') (hok : ClosesOnce s (.proceedClose k) s') :
    ClosingInv (records ++ s.records (.proceedClose k)) s' := by
  obtain ⟨htask, -⟩ := proceedClose_frame hproceed
  rcases proceedClose_cases hcall hproceed with
    ⟨rfl, hrecords, hclosed, hengine, call', hcalls, hbegun, hdone, htaken⟩ |
    ⟨session, engineTask, rfl, hrecords, hhandle, hcalls⟩ | ⟨rfl, hrecords, hhandle, hcalls⟩
  · obtain ⟨hopen, hrestarting⟩ := hok.1 hcall
    rw [hrecords]
    exact h.starting hcoherent hcall htask hclosed hengine hcalls hbegun hdone htaken hopen
      hrestarting
  · rw [hrecords]
    refine h.goOn hcoherent hcall htask hhandle hcalls rfl rfl (by simp)
      ⟨not_installs (by simp), not_reports (by simp), by simp⟩ rfl (by simp) ?_
    intro session' engineTask' heq
    cases heq
    rfl
  · rw [hrecords]
    exact h.goOn hcoherent hcall htask hhandle hcalls rfl rfl (by simp)
      ⟨not_installs (by simp), not_reports (by simp), by simp⟩ rfl
      (fun _ => hok.2 hcall) (by simp)

end

theorem ClosingInv.step {a : Action} (h : ClosingInv records s) (hstep : s.step a = some s')
    (hok : ClosesOnce s a s') : ClosingInv (records ++ s.records a) s' := by
  have hcoherent := h.coherent.step hstep
  have hnil : ∀ record ∈ ([] : List Record), ¬ record.Reports :=
    fun _ hmem => absurd hmem not_mem_nil
  cases turn_of_step hstep with
  | event session fullReconnect handling =>
    exact h.idle hcoherent Plain.nil hnil (Nat.zero_le _) rfl (.inl rfl) (.inl rfl) rfl rfl
  | @needed k session fullReconnect hevent =>
    obtain ⟨hclosed, hcalls, htask⟩ :=
      reconnectionNeeded_cases { s with handling := s.handling.eraseIdx k } fullReconnect
    obtain ⟨hengine, hsession⟩ :=
      reconnectionNeeded_sessions { s with handling := s.handling.eraseIdx k } fullReconnect
    obtain ⟨hplain, hreports, hlength⟩ := plain_needed (s := s) (k := k)
    refine h.idle hcoherent hplain hreports hlength hclosed (.inl hcalls) ?_ hengine hsession
    rcases htask with ⟨-, hreconnecting, -, htask⟩ | ⟨-, -, htask⟩
    · refine .inr ⟨?_, htask⟩
      -- where there is no reconnect task yet, the flag is down
      have hnone := h.coherent.reconnecting
      rw [show s.handle.reconnecting = false from hreconnecting] at hnone
      exact Option.isNone_iff_eq_none.mp (Option.isSome_eq_false_iff.mp hnone.symm)
    · exact .inl htask
  | called | disconnected =>
    exact h.idle hcoherent Plain.nil hnil (Nat.zero_le _) rfl (.inr rfl) (.inl rfl) rfl rfl
  | closing hcall hproceed => exact h.closing hcoherent hcall hproceed hok
  | working htask hwork => exact h.working hcoherent htask hwork
  | returned htask hreturned => exact h.returned hcoherent htask hreturned

/-! ## Over whole runs -/

/-- Closed is final in every run in which one call of `close` begins at most, outside of a restart,
and no attempt is under way when it sends `Disconnected`. -/
theorem State.closed_final {run : List Action}
    (h : EachStep State.step ClosesOnce State.new run) :
    Always State.step State.records Final State.new run := by
  refine always_of_eachStepOn (I := ClosingInv) (Q := fun _ => ClosesOnce) ?_ ?_ ClosingInv.new
    ((eachStepOn_iff_eachStep [] new run).mpr h)
  · intro records s hinv
    exact hinv.final
  · intro records s a s' hinv hstep hok
    exact hinv.step hstep hok

/-- A full reconnect, and then the server wants the client to stop. -/
def stopRun : List Action :=
  [.closeEvent 0 true, .reconnectionNeeded 0, .work, .work, .work, .work, .work,
    .attemptReturned .ok, .work, .attemptReturned .ok, .work, .work, .work, .disconnectEvent 1,
    .proceedClose 0, .proceedClose 0, .proceedClose 0]

theorem State.closed_final_stop :
    EachStep State.step ClosesOnce State.new stopRun ∧
      ∃ s, exec State.step State.new stopRun = some s ∧ s.handle.closed = true ∧
        .installed 1 ∈ trace State.step State.records State.new stopRun ∧
        Final (trace State.step State.records State.new stopRun) s := by
  have hok : EachStep step ClosesOnce new stopRun := by decide
  obtain ⟨s, hexec⟩ : ∃ s, exec step new stopRun = some s := ⟨_, rfl⟩
  have hfinal := closed_final hok stopRun [] s (by simp) hexec
  refine ⟨hok, s, hexec, ?_, by decide, hfinal⟩
  cases hexec
  rfl

/-- The user closes the engine while a restart waits for the peer connections. The call finds no
engine task; the restart installs its session, and the engine says that it has restarted. -/
def reopenedRun : List Action :=
  [.closeEvent 0 true, .reconnectionNeeded 0, .work, .work, .work, .work, .work,
    .attemptReturned .ok, .work, .close, .proceedClose 0, .proceedClose 0, .attemptReturned .ok,
    .work]

theorem State.closed_reopened :
    ¬ ∀ run, Always State.step State.records Final State.new run := by
  intro hall
  obtain ⟨s, hexec⟩ : ∃ s, exec step new reopenedRun = some s := ⟨_, rfl⟩
  have hfinal := hall reopenedRun reopenedRun [] s (by simp) hexec
  have hrecords : trace step records new reopenedRun
      = [.requested, .attempted, .sessionClosed 0] ++
        .engineClosed :: [.disconnected, .installed 1, .reported true] := by decide
  exact hfinal.installed _ _ _ hrecords rfl (.installed 1) (by simp) ⟨1, rfl⟩

end LiveKit.RtcEngine.Engine
