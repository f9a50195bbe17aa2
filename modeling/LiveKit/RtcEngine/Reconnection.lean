import LiveKit.RtcEngine.EngineTheorems

/-!
# Requests for a reconnection

A reconnect task that has yet to begin an attempt, or whose attempt fails, answers a request with
the next attempt, or with the end of the engine. One whose attempt has succeeded does not look for
requests any more, and `reconnecting` keeps a new task from being started until the room has
answered and the flag is cleared. A request that comes in between, or during an attempt that
succeeds, is left without an answer.
-/

namespace LiveKit.RtcEngine.Engine

open State TransitionSystem

/-- A connection attempt begins, or the engine is closed. -/
def Record.Answers (record : Record) : Prop := record = .attempted ∨ record = .engineClosed

instance (record : Record) : Decidable record.Answers := inferInstanceAs (Decidable (_ ∨ _))

/-- There is a request that has had no answer yet. -/
def Unanswered (records : List Record) : Prop := Since (· = .requested) Record.Answers records

instance (records : List Record) : Decidable (Unanswered records) :=
  inferInstanceAs (Decidable (Since _ _ _))

/-- The task will begin an attempt, or close the engine, unless an attempt succeeds. -/
def Stage.Serving : Stage → Prop
  | .succeeded _ | .reporting _ | .finishing => False
  | _ => True

instance : (stage : Stage) → Decidable stage.Serving
  | .succeeded _ | .reporting _ | .finishing => isFalse id
  | .locking | .checking _ | .announcing _ | .beginning _ _ | .closingSession _ _ _ | .connecting _
  | .signalRestarted _ | .waitingPc _ | .resuming _ | .signalResumed _ | .settling _
  | .escalating _ | .interval _ | .leaving | .awaitingClose _ _ | .erring => isTrue trivial

/-- What the attempt waits for is the last thing before its success. -/
def Stage.Last : Stage → Prop
  | .waitingPc _ | .settling _ => True
  | _ => False

instance : (stage : Stage) → Decidable stage.Last
  | .waitingPc _ | .settling _ => isTrue trivial
  | .succeeded _ | .reporting _ | .finishing | .locking | .checking _ | .announcing _
  | .beginning _ _ | .closingSession _ _ _ | .connecting _ | .signalRestarted _ | .resuming _
  | .signalResumed _ | .escalating _ | .interval _ | .leaving | .awaitingClose _ _
  | .erring => isFalse id

/-- No request comes between the beginning of an attempt that succeeds and the end of its task: a
request finds the task, if there is one, before its success, and an attempt succeeds only if no
request has come since it began. -/
def InTime (records : List Record) (s : State) (a : Action) (_ : State) : Prop :=
  match a with
  | .reconnectionNeeded k =>
    .requested ∈ s.records (.reconnectionNeeded k) → ∀ stage ∈ s.reconnectTask, stage.Serving
  | .attemptReturned .ok => (∃ stage ∈ s.reconnectTask, stage.Last) → ¬ Unanswered records
  | _ => True

instance (records : List Record) (s : State) (a : Action) (s' : State) :
    Decidable (InTime records s a s') :=
  match a with
  | .reconnectionNeeded _ => inferInstanceAs (Decidable (_ → _))
  | .attemptReturned .ok => inferInstanceAs (Decidable (_ → _))
  | .attemptReturned .failed | .attemptReturned .leave | .closeEvent _ _ | .disconnectEvent _
  | .close | .proceedClose _ | .work => isTrue trivial

/-! ## The steps of the reconnect task -/

variable {s s' : State}

variable {stage : Stage} {outcome : Outcome} {records' : List Record} {k : ℕ} {call : CloseCall}

/-- A task that is serving goes on doing so, unless it waits for a call of `close` that is done. -/
theorem serving_work (h : s.work stage = some s') (hserving : stage.Serving) :
    (∃ stage', s'.reconnectTask = some stage' ∧ stage'.Serving) ∨
      ∃ k inLoop, stage = .awaitingClose k inLoop ∧ s.closeCalls[k]? = some .done := by
  cases works_of_work h with
  | goOn hnext =>
    cases hnext with
    | succeeded | reported => exact hserving.elim
    | @left k hdone => exact .inr ⟨k, true, rfl, hdone⟩
    | @gone k hdone => exact .inr ⟨k, false, rfl, hdone⟩
    | _ => exact .inl ⟨_, rfl, trivial⟩
  | finish => exact hserving.elim
  | take | closed | escalate | leave | err => exact .inl ⟨_, rfl, trivial⟩

/-- So does one whose attempt waits for something that ends, unless the attempt succeeds. -/
theorem serving_returned (h : s.attemptReturned stage outcome = some s') :
    (∃ stage', s'.reconnectTask = some stage' ∧ stage'.Serving) ∨ outcome = .ok ∧ stage.Last := by
  cases returns_of_returned h with
  | install i => exact .inr ⟨rfl, trivial⟩
  | goOn hafter =>
    cases hafter with
    | settled i => exact .inr ⟨rfl, trivial⟩
    | _ => exact .inl ⟨_, rfl, trivial⟩

/-! ## Invariant -/

structure Inv (records : List Record) (s : State) : Prop where
  coherent : Coherent s
  closed : s.handle.closed = true → ¬ Unanswered records
  served : Unanswered records → ∃ stage, s.reconnectTask = some stage ∧ stage.Serving

theorem Inv.new : Inv [] new where
  coherent := Coherent.new
  closed _ := Since.not_nil
  served h := absurd h Since.not_nil

variable {records : List Record}

/-- What is on record now has not brought a request. -/
theorem unanswered_of_append (h : Unanswered (records ++ records')) (hnot : .requested ∉ records') :
    Unanswered records := by
  refine Since.of_append h ?_
  intro record hmem heq
  rw [heq] at hmem
  exact hnot hmem

theorem records_proceedClose (hcall : s.closeCalls[k]? = some call) :
    .requested ∉ s.records (.proceedClose k) ∧
      (call = .starting → s.records (.proceedClose k) = [.engineClosed]) := by
  unfold records
  simp only
  rw [hcall]
  cases call <;> simp

theorem records_work : .requested ∉ s.records .work := by
  unfold records
  simp only
  split <;> simp

theorem records_returned :
    .requested ∉ s.records (.attemptReturned outcome) := by
  unfold records
  cases outcome with
  | failed | leave => exact List.not_mem_nil
  | ok =>
    simp only
    split <;> simp

/-- A step that brings no request, and after which a task is serving if one was. -/
theorem Inv.frame {records' : List Record} (h : Inv records s) (hcoherent : Coherent s')
    (hnot : .requested ∉ records') (hclosed : s'.handle.closed = s.handle.closed)
    (hserved : Unanswered (records ++ records') → ∀ stage, s.reconnectTask = some stage →
      stage.Serving → ∃ stage', s'.reconnectTask = some stage' ∧ stage'.Serving) :
    Inv (records ++ records') s' where
  coherent := hcoherent
  closed hc hun := by
    rw [hclosed] at hc
    exact h.closed hc (unanswered_of_append hun hnot)
  served hun := by
    obtain ⟨stage, hstage, hserving⟩ := h.served (unanswered_of_append hun hnot)
    exact hserved hun stage hstage hserving

/-! ## Each step -/

/-- Of the call of `reconnection_needed`: either it brings a request, or nothing is put on
record. -/
theorem records_needed {session : ℕ} {fullReconnect : Bool}
    (hevent : s.handling[k]? = some (session, fullReconnect)) :
    s.records (.reconnectionNeeded k) = [] ∨
      s.records (.reconnectionNeeded k) = [.requested] ∧ s.handle.closed = false ∧
        s.handle.canReconnect = true := by
  unfold records
  simp only
  rw [hevent]
  simp only
  split_ifs with hif
  · exact .inr ⟨rfl, hif.2.1, hif.2.2⟩
  · exact .inl rfl

theorem Inv.needed {k session : ℕ} {fullReconnect : Bool} (h : Inv records s)
    (hevent : s.handling[k]? = some (session, fullReconnect)) (hcoherent : Coherent
      ({ s with handling := s.handling.eraseIdx k }.reconnectionNeeded fullReconnect))
    (hok : .requested ∈ s.records (.reconnectionNeeded k) →
      ∀ stage ∈ s.reconnectTask, stage.Serving) :
    Inv (records ++ s.records (.reconnectionNeeded k))
      ({ s with handling := s.handling.eraseIdx k }.reconnectionNeeded fullReconnect) := by
  obtain ⟨hclosed, hcalls, htask⟩ :=
    reconnectionNeeded_cases { s with handling := s.handling.eraseIdx k } fullReconnect
  have hrecords := records_needed hevent
  generalize reconnectionNeeded _ fullReconnect = s' at hcoherent hclosed htask ⊢
  generalize s.records (.reconnectionNeeded k) = records' at hok hrecords ⊢
  refine ⟨hcoherent, ?_, ?_⟩
  · intro hc hun
    rw [hclosed] at hc
    rcases hrecords with hrecords | ⟨-, hopen, -⟩
    · rw [hrecords, List.append_nil] at hun
      exact h.closed hc hun
    · rw [hopen] at hc
      cases hc
  · intro hun
    rcases htask with ⟨-, -, -, htask⟩ | ⟨hreconnecting, -, htask⟩
    · -- a new task begins at the lock
      exact ⟨.locking, htask, trivial⟩
    · rw [htask]
      rcases hrecords with hrecords | ⟨hrecords, -, hcan⟩
      · rw [hrecords, List.append_nil] at hun
        exact h.served hun
      · -- the request found a task, which is serving
        have hsome := h.coherent.reconnecting
        rw [hreconnecting hcan] at hsome
        obtain ⟨stage, hstage⟩ := Option.isSome_iff_exists.mp hsome.symm
        refine ⟨stage, hstage, hok ?_ stage hstage⟩
        rw [hrecords]
        exact List.mem_singleton_self _

theorem Inv.proceedClose (h : Inv records s) (hcall : s.closeCalls[k]? = some call)
    (hcoherent : Coherent s') (hproceed : s.proceedClose k call = some s') :
    Inv (records ++ s.records (.proceedClose k)) s' := by
  obtain ⟨-, -, hclosed, -⟩ := proceedClose_frame hproceed
  obtain ⟨hnot, hstarting⟩ := records_proceedClose hcall
  -- the engine is closed now, or was closed before
  have hanswered : ¬ Unanswered (records ++ s.records (.proceedClose k)) := by
    intro hun
    rcases hclosed with ⟨hstart, -⟩ | ⟨hne, -⟩
    · rw [hstarting hstart] at hun
      exact Since.not_concat records (.inr rfl) (by simp) hun
    · have hopen := h.coherent.begun call (List.mem_of_getElem? hcall) hne
      exact h.closed hopen (unanswered_of_append hun hnot)
  exact ⟨hcoherent, fun _ => hanswered, fun hun => absurd hun hanswered⟩

theorem Inv.step {a : Action} (h : Inv records s) (hstep : s.step a = some s')
    (hok : InTime records s a s') : Inv (records ++ s.records a) s' := by
  have hcoherent := h.coherent.step hstep
  cases turn_of_step hstep with
  | event | called | disconnected =>
    exact h.frame hcoherent List.not_mem_nil rfl fun _ stage htask hserving =>
      ⟨stage, htask, hserving⟩
  | needed hevent => exact h.needed hevent hcoherent hok
  | closing hcall hproceed => exact h.proceedClose hcall hcoherent hproceed
  | @working stage _ htask hwork =>
    refine h.frame hcoherent records_work (worked_of_work hwork).closed ?_
    intro hun stage' hstage' hserving
    rw [htask, Option.some.injEq] at hstage'
    subst hstage'
    rcases serving_work hwork hserving with hserved | ⟨k, inLoop, -, hdone⟩
    · exact hserved
    · -- the call that is done has closed the engine
      have hclosed := h.coherent.begun .done (List.mem_of_getElem? hdone) (by simp)
      exact absurd (unanswered_of_append hun records_work) (h.closed hclosed)
  | @returned stage outcome _ htask hreturned =>
    refine h.frame hcoherent records_returned (worked_of_returned hreturned).closed ?_
    intro hun _ _ _
    rcases serving_returned hreturned with hserved | ⟨rfl, hlast⟩
    · exact hserved
    · -- the attempt has succeeded
      exact absurd (unanswered_of_append hun records_returned) (hok ⟨stage, htask, hlast⟩)

/-! ## Over whole runs -/

/-- Wherever requests come in time, the engine comes to rest by itself from every state, and where
it is at rest every request has been answered, by an attempt or by the end of the engine. -/
theorem State.requests_answered {run : List Action}
    (h : EachStepOn State.step State.records InTime [] State.new run) :
    Always State.step State.records
      (fun records s => s.Settles ∧ (s.Stalled → s.Quiescent ∧ ¬ Unanswered records))
      State.new run := by
  refine always_of_eachStepOn (I := Inv) (Q := InTime) ?_ ?_ Inv.new h
  · intro records s hinv
    refine ⟨s.settles, ?_⟩
    intro hstalled
    have hquiet := hstalled.quiescent hinv.coherent.awaited
    refine ⟨hquiet, ?_⟩
    intro hun
    obtain ⟨stage, hstage, -⟩ := hinv.served hun
    rw [hquiet.reconnectTask] at hstage
    cases hstage
  · intro records s a s' hinv hstep hok
    exact hinv.step hstep hok

/-- A full reconnect, with a `Close` event that asks for it twice before the first attempt. -/
def restartRun : List Action :=
  [.closeEvent 0 true, .reconnectionNeeded 0, .work, .closeEvent 0 true, .reconnectionNeeded 0,
    .work, .work, .work, .work, .attemptReturned .ok, .work, .attemptReturned .ok, .work, .work,
    .work]

theorem State.requests_answered_restart :
    EachStepOn State.step State.records InTime [] State.new restartRun ∧
      ∃ s, exec State.step State.new restartRun = some s ∧ s.handle.session = 1 ∧
        .requested ∈ trace State.step State.records State.new restartRun ∧
        (s.Stalled →
          s.Quiescent ∧ ¬ Unanswered (trace State.step State.records State.new restartRun)) := by
  have hok : EachStepOn step records InTime [] new restartRun := by decide
  obtain ⟨s, hexec⟩ : ∃ s, exec step new restartRun = some s := ⟨_, rfl⟩
  have hanswered := (requests_answered hok restartRun [] s (by simp) hexec).2
  refine ⟨hok, s, hexec, ?_, by decide, hanswered⟩
  cases hexec
  rfl

/-- A resume succeeds. While the room is told so, the connection is lost once more: the request
finds the task there, and the task ends without another attempt. -/
def lostRun : List Action :=
  [.closeEvent 0 false, .reconnectionNeeded 0, .work, .work, .work, .work, .attemptReturned .ok,
    .work, .attemptReturned .ok, .work, .closeEvent 0 false, .reconnectionNeeded 0, .work, .work]

theorem State.request_lost :
    ¬ ∀ run, Always State.step State.records
      (fun records s => s.Settles ∧ (s.Stalled → s.Quiescent ∧ ¬ Unanswered records))
      State.new run := by
  intro hall
  obtain ⟨s, hexec⟩ : ∃ s, exec step new lostRun = some s := ⟨_, rfl⟩
  have hanswered := (hall lostRun lostRun [] s (by simp) hexec).2
  have hstalled : s.Stalled := by
    cases hexec
    intro a hinternal henabled
    obtain ⟨s', hs'⟩ := henabled
    cases a with
    | closeEvent | disconnectEvent | close => exact hinternal
    | reconnectionNeeded | proceedClose | work | attemptReturned => cases hs'
  exact (hanswered hstalled).2 (by decide)

end LiveKit.RtcEngine.Engine
