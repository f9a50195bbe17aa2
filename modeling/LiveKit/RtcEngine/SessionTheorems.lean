import LiveKit.RtcEngine.Sessions

/-!
# Sessions that are neither installed nor closed

Who still has to end the tasks of the installed session is the invariant: a restart takes the engine
task and closes the session before it connects, and a call of `close` that takes it closes the
session that it finds. What an attempt leaves behind when it ends is then all that can leak.
-/

namespace LiveKit.RtcEngine.Sessions

open Engine (Stage Outcome CloseCall Coherent Next Works After Returns Turn)
open Function List Option TransitionSystem

/-! ## Stages -/

/-- The attempt has a session that is not installed yet. -/
def HasNew : Stage → Prop
  | .signalRestarted _ | .waitingPc _ => True
  | _ => False

def InResume : Stage → Prop
  | .resuming _ | .signalResumed _ | .settling _ => True
  | _ => False

/-- The flag was set when the stage was reached. -/
def ReadFull : Stage → Prop
  | .announcing fullReconnect | .beginning _ fullReconnect => fullReconnect = true
  | _ => False

/-- Where the reconnect task can be after a restart has closed the session. -/
def InRestart : Stage → Prop
  | .announcing fullReconnect | .beginning _ fullReconnect => fullReconnect = true
  | .closingSession _ _ _ | .connecting _ | .signalRestarted _ | .waitingPc _ | .interval _
  | .checking _ | .leaving | .erring | .awaitingClose _ _ => True
  | _ => False

/-- What a stage that the task reaches by itself has in common with the one before. -/
structure Goes (s : Engine.State) (stage stage' : Stage) : Prop where
  hasNew : HasNew stage → HasNew stage'
  inResume : InResume stage → InResume stage'
  readFull : ReadFull stage' → ReadFull stage ∨ s.handle.fullReconnect = true
  inRestart : InRestart stage → s.handle.fullReconnect = true → s.handle.closed = false →
    InRestart stage'
  vacant : stage'.Vacant → stage.Vacant ∨ s.handle.engineTask = none
  opens : ∀ i session engineTask, stage ≠ .closingSession i session engineTask

variable {stage stage' : Stage}

theorem goes_of_next {s : Engine.State} (hcoherent : Coherent s) (h : Next s stage stage') :
    Goes s stage stage' := by
  have hvacant := h.vacant
  cases h with
  | locked => exact ⟨id, id, nofun, nofun, hvacant, nofun⟩
  | closed | restart | ticked | exhausted | left =>
    exact ⟨nofun, nofun, nofun, fun _ _ _ => trivial, hvacant, nofun⟩
  | first | again => exact ⟨nofun, nofun, .inr, fun _ hfull _ => hfull, hvacant, nofun⟩
  | announced fullReconnect => exact ⟨nofun, nofun, .inl, fun hin _ _ => hin, hvacant, nofun⟩
  | resume | succeeded | reported => exact ⟨nofun, nofun, nofun, nofun, hvacant, nofun⟩
  | restarted i => exact ⟨fun _ => trivial, nofun, nofun, fun _ _ _ => trivial, hvacant, nofun⟩
  | resumed i => exact ⟨nofun, fun _ => trivial, nofun, nofun, hvacant, nofun⟩
  | gone hdone =>
    -- the call that is done has closed the engine
    refine ⟨nofun, nofun, nofun, fun _ _ hopen => ?_, hvacant, nofun⟩
    have hclosed := hcoherent.begun _ (mem_of_getElem? hdone) (by simp)
    rw [hopen] at hclosed
    cases hclosed

/-! ## The invariant -/

structure Inv (s : State) : Prop where
  coherent : Coherent s.engine
  lt : s.engine.handle.session < s.engine.nextSession
  installed : ∀ session, (s.tasks session).signal = true →
    session = s.engine.handle.session ∨
      session = s.engine.nextSession ∧ ∃ stage ∈ s.engine.reconnectTask, HasNew stage
  dropped : ∀ t ∈ s.dropped, t.signal = false
  vacant : ∀ stage ∈ s.engine.reconnectTask, stage.Vacant → s.engine.handle.engineTask = none
  readFull : ∀ stage ∈ s.engine.reconnectTask, ReadFull stage →
    s.engine.handle.fullReconnect = true
  /-- Without an engine task, and open, the engine is in a cycle that restarts. -/
  restarting : s.engine.handle.engineTask = none → s.engine.handle.closed = false →
    s.engine.handle.fullReconnect = true ∧ ∃ stage ∈ s.engine.reconnectTask, InRestart stage
  closers : ∀ session ∈ s.closing, session < s.engine.nextSession ∧
    (s.engine.handle.closed = true ∨
      ∃ i engineTask, s.engine.reconnectTask = some (.closingSession i session engineTask))
  /-- Where the engine task has been taken, somebody is about to close the session. -/
  pending : s.engine.handle.closed = true ∨ s.engine.handle.engineTask = none →
    (s.tasks s.engine.handle.session).signal = true →
    s.engine.handle.session ∈ s.closing ∨ ∃ stage ∈ s.engine.reconnectTask, InResume stage

theorem HasNew.inAttempt (h : HasNew stage) : InAttempt stage := by
  cases stage <;> first | exact h | exact trivial

theorem InResume.inAttempt (h : InResume stage) : InAttempt stage := by
  cases stage <;> first | exact h | exact trivial

variable {s : State}

theorem Inv.leaksNone (h : Inv s) : LeaksNone s := by
  intro hnot
  have hnew : ¬ ∃ stage ∈ s.engine.reconnectTask, HasNew stage := by
    intro hex
    obtain ⟨stage, hin, hstage⟩ := hex
    exact hnot stage hin hstage.inAttempt
  have hresume : ¬ ∃ stage ∈ s.engine.reconnectTask, InResume stage := by
    intro hex
    obtain ⟨stage, hin, hstage⟩ := hex
    exact hnot stage hin hstage.inAttempt
  have hinstalled : ∀ session, (s.tasks session).signal = true →
      session = s.engine.handle.session := by
    intro session hsignal
    exact (h.installed session hsignal).resolve_right fun hbad => hnew hbad.2
  refine ⟨hinstalled, h.dropped, fun hclosed session hsignal => ?_⟩
  have heq := hinstalled session hsignal
  rw [heq] at hsignal ⊢
  exact (h.pending (.inl hclosed) hsignal).resolve_right hresume

theorem Inv.new : Inv .new where
  coherent := Coherent.new
  lt := Nat.zero_lt_one
  installed := by
    intro session hsignal
    by_cases heq : session = 0
    · exact .inl heq
    · have hclosed : State.new.tasks session = .closed := by
        show update (fun _ => Tasks.closed) 0 Tasks.running session = _
        rw [update_of_ne heq]
      rw [hclosed] at hsignal
      cases hsignal
  dropped t hin := absurd hin not_mem_nil
  vacant stage hin := by cases hin
  readFull stage hin := by cases hin
  restarting hnone := by cases hnone
  closers session hin := absurd hin not_mem_nil
  pending hor := by
    cases hor with
    | inl hclosed => cases hclosed
    | inr hnone => cases hnone

/-! ## Steps of the engine -/

/-- A step that leaves the sessions, the engine task and the reconnect task as they are. -/
theorem Inv.frame (h : Inv s) {engine : Engine.State} (hcoherent : Coherent engine)
    (hsession : engine.handle.session = s.engine.handle.session)
    (hnext : engine.nextSession = s.engine.nextSession)
    (hclosed : engine.handle.closed = s.engine.handle.closed)
    (hengine : engine.handle.engineTask = s.engine.handle.engineTask)
    (htask : engine.reconnectTask = s.engine.reconnectTask)
    (hfull : s.engine.handle.fullReconnect = true → engine.handle.fullReconnect = true) :
    Inv { s with engine := engine } where
  coherent := hcoherent
  lt := by
    dsimp only
    rw [hsession, hnext]
    exact h.lt
  installed := by
    dsimp only
    rw [hsession, hnext, htask]
    exact h.installed
  dropped := h.dropped
  vacant := by
    dsimp only
    rw [htask, hengine]
    exact h.vacant
  readFull := by
    dsimp only
    rw [htask]
    exact fun stage hin hread => hfull (h.readFull stage hin hread)
  restarting := by
    dsimp only
    rw [hengine, hclosed, htask]
    intro hnone hopen
    obtain ⟨hset, hin⟩ := h.restarting hnone hopen
    exact ⟨hfull hset, hin⟩
  closers := by
    dsimp only
    rw [hnext, hclosed, htask]
    exact h.closers
  pending := by
    dsimp only
    rw [hclosed, hengine, hsession, htask]
    exact h.pending

/-- The reconnect task goes on by itself. -/
theorem Inv.goes (h : Inv s) (htask : s.engine.reconnectTask = some stage)
    (hgoes : Goes s.engine stage stage') (hcoherent : Coherent (s.engine.setStage stage')) :
    Inv { s with engine := s.engine.setStage stage' } where
  coherent := hcoherent
  lt := h.lt
  installed := by
    intro session hsignal
    cases h.installed session hsignal with
    | inl heq => exact .inl heq
    | inr hnew =>
      obtain ⟨hnext, stage₀, hin, hstage⟩ := hnew
      rw [htask, mem_some_iff] at hin
      refine .inr ⟨hnext, stage', rfl, hgoes.hasNew ?_⟩
      rw [hin]
      exact hstage
  dropped := h.dropped
  vacant := by
    intro stage₀ hin hvacant
    cases hin
    cases hgoes.vacant hvacant with
    | inl hbefore => exact h.vacant stage htask hbefore
    | inr hnone => exact hnone
  readFull := by
    intro stage₀ hin hread
    cases hin
    cases hgoes.readFull hread with
    | inl hbefore => exact h.readFull stage htask hbefore
    | inr hset => exact hset
  restarting := by
    intro hnone hopen
    obtain ⟨hset, stage₀, hin, hstage⟩ := h.restarting hnone hopen
    rw [htask, mem_some_iff] at hin
    refine ⟨hset, stage', rfl, hgoes.inRestart ?_ hset hopen⟩
    rw [hin]
    exact hstage
  closers := by
    intro session hin
    obtain ⟨hlt, hwho⟩ := h.closers session hin
    refine ⟨hlt, .inl (hwho.resolve_right fun hbad => ?_)⟩
    obtain ⟨i, engineTask, hstage⟩ := hbad
    rw [htask, some.injEq] at hstage
    exact hgoes.opens _ _ _ hstage
  pending := by
    intro hor hsignal
    cases h.pending hor hsignal with
    | inl hin => exact .inl hin
    | inr hresume =>
      obtain ⟨stage₀, hin, hstage⟩ := hresume
      rw [htask, mem_some_iff] at hin
      refine .inr ⟨stage', rfl, hgoes.inResume ?_⟩
      rw [hin]
      exact hstage

/-- A reconnect task is spawned. -/
theorem Inv.needed (h : Inv s) {k : ℕ} {fullReconnect : Bool}
    (hcoherent : Coherent ({ s.engine with handling := s.engine.handling.eraseIdx k
      }.reconnectionNeeded fullReconnect)) :
    Inv { s with engine := { s.engine with handling := s.engine.handling.eraseIdx k
      }.reconnectionNeeded fullReconnect } := by
  unfold Engine.State.reconnectionNeeded at hcoherent ⊢
  split_ifs at hcoherent ⊢ with hcan hreconnecting hfull
  · exact h.frame hcoherent rfl rfl rfl rfl rfl fun _ => rfl
  · exact h.frame hcoherent rfl rfl rfl rfl rfl id
  · have hidle : s.engine.reconnectTask = none := by
      have hflag := h.coherent.reconnecting
      rw [Bool.not_eq_true] at hreconnecting
      rw [show s.engine.handle.reconnecting = false from hreconnecting] at hflag
      exact isNone_iff_eq_none.mp (by rw [← not_isSome, ← hflag]; rfl)
    refine ⟨hcoherent, h.lt, fun session hsignal => ?_, h.dropped, ?_, ?_, ?_, ?_, ?_⟩
    · refine .inl ((h.installed session hsignal).resolve_right fun hbad => ?_)
      obtain ⟨-, stage, hin, -⟩ := hbad
      rw [hidle] at hin
      cases hin
    · intro stage hin hvacant
      cases hin
      exact hvacant.elim
    · intro stage hin hread
      cases hin
      exact hread.elim
    · intro hnone hopen
      obtain ⟨-, stage, hin, -⟩ := h.restarting hnone hopen
      rw [hidle] at hin
      cases hin
    · intro session hin
      obtain ⟨hlt, hwho⟩ := h.closers session hin
      refine ⟨hlt, .inl (hwho.resolve_right fun hbad => ?_)⟩
      obtain ⟨i, engineTask, hstage⟩ := hbad
      rw [hidle] at hstage
      cases hstage
    · intro hor hsignal
      refine .inl ((h.pending hor hsignal).resolve_right fun hbad => ?_)
      obtain ⟨stage, hin, -⟩ := hbad
      rw [hidle] at hin
      cases hin
  · exact h.frame hcoherent rfl rfl rfl rfl rfl id

/-- A call of `close` begins. -/
theorem Inv.closes (h : Inv s) {engine : Engine.State} {added : List ℕ}
    (hcoherent : Coherent engine) (hsession : engine.handle.session = s.engine.handle.session)
    (hnext : engine.nextSession = s.engine.nextSession) (hclosed : engine.handle.closed = true)
    (hengine : engine.handle.engineTask = none)
    (htask : engine.reconnectTask = s.engine.reconnectTask)
    (hfull : engine.handle.fullReconnect = s.engine.handle.fullReconnect)
    (hadded : s.engine.handle.engineTask = none ∧ added = [] ∨
      added = [s.engine.handle.session]) :
    Inv { s with engine := engine, closing := s.closing ++ added } where
  coherent := hcoherent
  lt := by
    dsimp only
    rw [hsession, hnext]
    exact h.lt
  installed := by
    dsimp only
    rw [hsession, hnext, htask]
    exact h.installed
  dropped := h.dropped
  vacant := fun _ _ _ => hengine
  readFull := by
    dsimp only
    rw [htask, hfull]
    exact h.readFull
  restarting := by
    intro _ hopen
    dsimp only at hopen
    rw [hclosed] at hopen
    cases hopen
  closers := by
    intro session hin
    -- a session that is being closed is an old one or the one taken just now
    refine ⟨?_, .inl hclosed⟩
    dsimp only
    rw [hnext]
    cases mem_append.mp hin with
    | inl hold => exact (h.closers session hold).1
    | inr hnew =>
      cases hadded with
      | inl hnone =>
        rw [hnone.2] at hnew
        cases hnew
      | inr heq =>
        rw [heq, mem_singleton] at hnew
        rw [hnew]
        exact h.lt
  pending := by
    intro _ hsignal
    dsimp only at hsignal ⊢
    rw [hsession] at hsignal ⊢
    rw [htask]
    cases hadded with
    | inl hnone =>
      rw [hnone.2, append_nil]
      exact h.pending (.inr hnone.1) hsignal
    | inr heq =>
      rw [heq]
      exact .inl (mem_append_right _ (mem_singleton_self _))

theorem Inv.proceedClose (h : Inv s) {k : ℕ} {call : CloseCall} {engine : Engine.State}
    (hcall : s.engine.closeCalls[k]? = some call)
    (hproceed : s.engine.proceedClose k call = some engine) (hcoherent : Coherent engine) :
    Inv { s with
      engine := engine
      closing := s.closing ++ (callsClose s.engine (.proceedClose k)).toList } := by
  unfold callsClose
  dsimp only
  rw [hcall]
  unfold Engine.State.proceedClose at hproceed
  cases call with
  | starting =>
    dsimp only at hproceed
    cases hengine : s.engine.handle.engineTask with
    | some engineTask =>
      rw [hengine] at hproceed
      cases hproceed
      exact h.closes hcoherent rfl rfl rfl rfl rfl rfl (.inr rfl)
    | none =>
      rw [hengine] at hproceed
      cases hproceed
      exact h.closes hcoherent rfl rfl rfl hengine rfl rfl (.inl ⟨hengine, rfl⟩)
  | closing session engineTask =>
    dsimp only at hproceed
    split_ifs at hproceed
    cases hproceed
    dsimp only [toList_none]
    rw [append_nil]
    exact h.frame hcoherent rfl rfl rfl rfl rfl id
  | emitting =>
    cases hproceed
    dsimp only [toList_none]
    rw [append_nil]
    exact h.frame hcoherent rfl rfl rfl rfl rfl id
  | done => cases hproceed

theorem callsClose_of_next {s : Engine.State} (htask : s.reconnectTask = some stage)
    (h : Next s stage stage') : callsClose s .work = none := by
  unfold callsClose
  dsimp only
  rw [htask]
  cases h with
  | restart i hvacant => rw [hvacant]
  | resume i => rfl
  | _ => rfl

variable {s' : State}

section

variable (h : Inv s) (htask : s.engine.reconnectTask = some stage)

include h htask

/-- The reconnect task gets to a stage in which only the installed session has a connection that
counts. -/
theorem Inv.ends (hcoherent : Coherent s'.engine)
    (hsession : s'.engine.handle.session = s.engine.handle.session)
    (hnext : s'.engine.nextSession = s.engine.nextSession)
    (hclosed : s'.engine.handle.closed = s.engine.handle.closed)
    (hengine : s'.engine.handle.engineTask = s.engine.handle.engineTask)
    (hfull : s.engine.handle.fullReconnect = true → s'.engine.handle.fullReconnect = true)
    (hclosing : s'.closing = s.closing)
    (hinstalled : ∀ session, (s'.tasks session).signal = true → session = s.engine.handle.session)
    (hdropped : ∀ t ∈ s'.dropped, t.signal = false)
    (hpending : s.engine.handle.closed = true ∨ s.engine.handle.engineTask = none →
      (s'.tasks s.engine.handle.session).signal = true → s.engine.handle.session ∈ s.closing)
    (hvacant : ∀ stage' ∈ s'.engine.reconnectTask, stage'.Vacant →
      s.engine.handle.engineTask = none)
    (hread : ∀ stage' ∈ s'.engine.reconnectTask, ¬ ReadFull stage')
    (hrestart : InRestart stage → ∃ stage' ∈ s'.engine.reconnectTask, InRestart stage')
    (hcloser : ∀ session ∈ s.closing, s.engine.handle.closed = true) : Inv s' where
  coherent := hcoherent
  lt := by
    rw [hsession, hnext]
    exact h.lt
  installed := by
    rw [hsession]
    exact fun session hsignal => .inl (hinstalled session hsignal)
  dropped := hdropped
  vacant := by
    rw [hengine]
    exact hvacant
  readFull stage' hin hset := absurd hset (hread stage' hin)
  restarting := by
    rw [hengine, hclosed]
    intro hnone hopen
    obtain ⟨hset, stage₀, hin, hstage⟩ := h.restarting hnone hopen
    rw [htask, mem_some_iff] at hin
    rw [← hin] at hstage
    exact ⟨hfull hset, hrestart hstage⟩
  closers := by
    rw [hclosing, hnext, hclosed]
    intro session hin
    exact ⟨(h.closers session hin).1, .inl (hcloser session hin)⟩
  pending := by
    rw [hclosed, hengine, hsession, hclosing]
    exact fun hor hsignal => .inl (hpending hor hsignal)

theorem Inv.installed_of_not (hnew : ¬ HasNew stage) :
    ∀ session, (s.tasks session).signal = true → session = s.engine.handle.session := by
  intro session hsignal
  refine (h.installed session hsignal).resolve_right fun hbad => ?_
  obtain ⟨-, stage₀, hin, hstage⟩ := hbad
  rw [htask, mem_some_iff] at hin
  rw [← hin] at hstage
  exact hnew hstage

theorem Inv.pending_of_not (hresume : ¬ InResume stage) :
    s.engine.handle.closed = true ∨ s.engine.handle.engineTask = none →
      (s.tasks s.engine.handle.session).signal = true → s.engine.handle.session ∈ s.closing := by
  intro hor hsignal
  refine (h.pending hor hsignal).resolve_right fun hbad => ?_
  obtain ⟨stage₀, hin, hstage⟩ := hbad
  rw [htask, mem_some_iff] at hin
  rw [← hin] at hstage
  exact hresume hstage

/-- The reconnect task leaves a stage that has nothing to do with the connections. -/
theorem Inv.restage {engine : Engine.State} (hcoherent : Coherent engine)
    (hsession : engine.handle.session = s.engine.handle.session)
    (hnext : engine.nextSession = s.engine.nextSession)
    (hclosed : engine.handle.closed = s.engine.handle.closed)
    (hengine : engine.handle.engineTask = s.engine.handle.engineTask)
    (hfull : s.engine.handle.fullReconnect = true → engine.handle.fullReconnect = true)
    (hnew : ¬ HasNew stage) (hresume : ¬ InResume stage)
    (hvacant : ∀ stage' ∈ engine.reconnectTask, stage'.Vacant → s.engine.handle.engineTask = none)
    (hread : ∀ stage' ∈ engine.reconnectTask, ¬ ReadFull stage')
    (hrestart : InRestart stage → ∃ stage' ∈ engine.reconnectTask, InRestart stage')
    (hcloser : ∀ session ∈ s.closing, s.engine.handle.closed = true) :
    Inv { s with engine := engine } := by
  have hinstalled := h.installed_of_not htask hnew
  have hpending := h.pending_of_not htask hresume
  exact h.ends htask hcoherent hsession hnext hclosed hengine hfull rfl hinstalled h.dropped
    hpending hvacant hread hrestart hcloser

/-- Outside of the first stage of a restart only calls of `close` have sessions to end. -/
theorem Inv.closed_of_closer
    (hopens : ∀ i session engineTask, stage ≠ .closingSession i session engineTask) :
    ∀ session ∈ s.closing, s.engine.handle.closed = true := by
  intro session hin
  refine (h.closers session hin).2.resolve_right fun hbad => ?_
  obtain ⟨i, engineTask, hstage⟩ := hbad
  rw [htask, some.injEq] at hstage
  exact hopens _ _ _ hstage

end

variable {i : ℕ}

/-- A restart takes the engine task, and calls `close` on the session. -/
theorem Inv.take (h : Inv s) {engineTask : ℕ}
    (htask : s.engine.reconnectTask = some (.beginning i true))
    (hcoherent : Coherent (s.engine.takeEngineTask.setStage
      (.closingSession i s.engine.handle.session engineTask))) :
    Inv { s with
      engine := s.engine.takeEngineTask.setStage
        (.closingSession i s.engine.handle.session engineTask)
      closing := s.closing ++ [s.engine.handle.session] } where
  coherent := hcoherent
  lt := h.lt
  installed := by
    intro session hsignal
    refine .inl ((h.installed session hsignal).resolve_right fun hbad => ?_)
    obtain ⟨-, stage, hin, hstage⟩ := hbad
    rw [htask, mem_some_iff] at hin
    rw [← hin] at hstage
    exact hstage
  dropped := h.dropped
  vacant _ _ _ := rfl
  readFull := by
    intro stage hin hread
    cases hin
    exact hread.elim
  restarting _ _ := ⟨h.readFull _ htask rfl, _, rfl, trivial⟩
  closers := by
    intro session hin
    cases mem_append.mp hin with
    | inl hold =>
      exact ⟨(h.closers session hold).1, .inl (h.closed_of_closer htask nofun session hold)⟩
    | inr hnew =>
      rw [mem_singleton] at hnew
      rw [hnew]
      exact ⟨h.lt, .inr ⟨i, engineTask, rfl⟩⟩
  pending _ _ := .inl (mem_append_right _ (mem_singleton_self _))

theorem Inv.work (h : Inv s) {engine : Engine.State} (htask : s.engine.reconnectTask = some stage)
    (hwork : s.engine.work stage = some engine) (hcoherent : Coherent engine)
    (hover : ∀ session ∈ awaitsClose s.engine .work, session ∉ s.closing) :
    Inv { s with
      engine := engine
      closing := s.closing ++ (callsClose s.engine .work).toList } := by
  have hnone : ∀ stage', s.engine.reconnectTask = some stage' →
      (∀ i fullReconnect, stage' ≠ .beginning i fullReconnect) →
      callsClose s.engine .work = none := by
    intro stage' htask' hnot
    unfold callsClose
    dsimp only
    rw [htask']
    split
    next heq _ => exact absurd (some.inj heq) (hnot _ _)
    next => rfl
  cases Engine.works_of_work hwork with
  | goOn hnext =>
    rw [callsClose_of_next htask hnext, toList_none, append_nil]
    exact h.goes htask (goes_of_next h.coherent hnext) hcoherent
  | take i hengine =>
    have hcalls : callsClose s.engine .work = some s.engine.handle.session := by
      unfold callsClose
      dsimp only
      rw [htask, hengine]
    rw [hcalls]
    exact h.take htask hcoherent
  | closed i session engineTask =>
    rw [hnone _ htask nofun, toList_none, append_nil]
    have hclosers : ∀ other ∈ s.closing, s.engine.handle.closed = true := by
      intro other hin
      refine (h.closers other hin).2.resolve_right fun hbad => ?_
      obtain ⟨j, engineTask', hstage⟩ := hbad
      rw [htask] at hstage
      cases hstage
      refine hover session ?_ hin
      unfold awaitsClose
      dsimp only
      rw [htask]
      rfl
    have hvacant := h.vacant _ htask trivial
    exact h.restage htask hcoherent rfl rfl rfl rfl id nofun nofun (fun _ _ _ => hvacant)
      (by intro stage' hin; cases hin; exact nofun) (fun _ => ⟨_, rfl, trivial⟩) hclosers
  | escalate i =>
    rw [hnone _ htask nofun, toList_none, append_nil]
    exact h.restage htask hcoherent rfl rfl rfl rfl (fun _ => rfl) nofun nofun
      (by intro stage' hin hbad; cases hin; exact hbad.elim)
      (by intro stage' hin; cases hin; exact nofun) nofun (h.closed_of_closer htask nofun)
  | leave | err =>
    rw [hnone _ htask nofun, toList_none, append_nil]
    exact h.restage htask hcoherent rfl rfl rfl rfl id nofun nofun
      (by intro stage' hin hbad; cases hin; exact hbad.elim)
      (by intro stage' hin; cases hin; exact nofun) (fun _ => ⟨_, rfl, trivial⟩)
      (h.closed_of_closer htask nofun)
  | finish =>
    rw [hnone _ htask nofun, toList_none, append_nil]
    exact h.restage htask hcoherent rfl rfl rfl rfl id nofun nofun (fun _ hin => by cases hin)
      (fun _ hin => by cases hin) nofun (h.closed_of_closer htask nofun)

/-! ## The end of what an attempt waits for -/

/-- The new session of an attempt is there. -/
theorem Inv.connected (h : Inv s) (htask : s.engine.reconnectTask = some (.connecting i))
    (hcoherent : Coherent (s.engine.setStage (.signalRestarted i))) :
    Inv { s.setTasks s.engine.nextSession .running with
      engine := s.engine.setStage (.signalRestarted i) } where
  coherent := hcoherent
  lt := h.lt
  installed := by
    intro session hsignal
    by_cases heq : session = s.engine.nextSession
    · exact .inr ⟨heq, _, rfl, trivial⟩
    · have hsame : (s.setTasks s.engine.nextSession .running).tasks session = s.tasks session :=
        update_of_ne heq _ _
      dsimp only at hsignal
      rw [hsame] at hsignal
      exact .inl (h.installed_of_not htask nofun session hsignal)
  dropped := h.dropped
  vacant _ _ _ := h.vacant _ htask trivial
  readFull := by
    intro stage hin hread
    cases hin
    exact hread.elim
  restarting hnone hopen := ⟨(h.restarting hnone hopen).1, _, rfl, trivial⟩
  closers session hin :=
    ⟨(h.closers session hin).1, .inl (h.closed_of_closer htask nofun session hin)⟩
  pending := by
    intro hor hsignal
    have hsame : (s.setTasks s.engine.nextSession .running).tasks s.engine.handle.session =
        s.tasks s.engine.handle.session := update_of_ne h.lt.ne _ _
    have hsignal' : ((s.setTasks s.engine.nextSession .running).tasks
        s.engine.handle.session).signal = true := hsignal
    rw [hsame] at hsignal'
    exact .inl (h.pending_of_not htask nofun hor hsignal')

/-- The client of the installed session is connected again. -/
theorem Inv.resumed (h : Inv s) (htask : s.engine.reconnectTask = some (.resuming i))
    (hcoherent : Coherent (s.engine.setStage (.signalResumed i))) :
    Inv { s.setSignal s.engine.handle.session true with
      engine := s.engine.setStage (.signalResumed i) } where
  coherent := hcoherent
  lt := h.lt
  installed := by
    intro session hsignal
    by_cases heq : session = s.engine.handle.session
    · exact .inl heq
    · have hsame : (s.setSignal s.engine.handle.session true).tasks session = s.tasks session :=
        update_of_ne heq _ _
      dsimp only at hsignal
      rw [hsame] at hsignal
      exact .inl (h.installed_of_not htask nofun session hsignal)
  dropped := h.dropped
  vacant := by
    intro stage hin hvacant
    cases hin
    exact hvacant.elim
  readFull := by
    intro stage hin hread
    cases hin
    exact hread.elim
  restarting := by
    intro hnone hopen
    obtain ⟨-, stage, hin, hstage⟩ := h.restarting hnone hopen
    rw [htask, mem_some_iff] at hin
    rw [← hin] at hstage
    exact hstage.elim
  closers session hin :=
    ⟨(h.closers session hin).1, .inl (h.closed_of_closer htask nofun session hin)⟩
  pending _ _ := .inr ⟨_, rfl, trivial⟩

/-- A resume is over; while the engine is open its engine task is there. -/
theorem Inv.resumeEnds (h : Inv s) (htask : s.engine.reconnectTask = some stage)
    (hresume : InResume stage) (hengine : s'.engine = s.engine.setStage stage')
    (hcoherent : Coherent s'.engine) (hclosing : s'.closing = s.closing)
    (hothers : ∀ session ≠ s.engine.handle.session, s'.tasks session = s.tasks session)
    (hdropped : ∀ t ∈ s'.dropped, t.signal = false) (hpending : s.engine.handle.closed = true →
      (s'.tasks s.engine.handle.session).signal = true → s.engine.handle.session ∈ s.closing)
    (hstage' : ¬ stage'.Vacant ∧ ¬ ReadFull stage') : Inv s' := by
  have hnew : ¬ HasNew stage := by
    cases stage <;> first | exact hresume.elim | exact nofun
  have hrestart : ¬ InRestart stage := by
    cases stage <;> first | exact hresume.elim | exact nofun
  have hopens : ∀ i session engineTask, stage ≠ .closingSession i session engineTask := by
    cases stage <;> first | exact hresume.elim | exact nofun
  have hnone : s.engine.handle.engineTask = none → s.engine.handle.closed = true := by
    intro hnone
    by_contra hopen
    rw [Bool.not_eq_true] at hopen
    obtain ⟨-, stage₀, hin, hin'⟩ := h.restarting hnone hopen
    rw [htask, mem_some_iff] at hin
    rw [← hin] at hin'
    exact hrestart hin'
  refine h.ends htask hcoherent (by rw [hengine]; rfl) (by rw [hengine]; rfl)
    (by rw [hengine]; rfl) (by rw [hengine]; rfl) (by rw [hengine]; exact id) hclosing ?_ hdropped
    ?_ ?_ ?_ (fun hin => absurd hin hrestart) (h.closed_of_closer htask hopens)
  · intro session hsignal
    by_contra hne
    rw [hothers session hne] at hsignal
    exact hne (h.installed_of_not htask hnew session hsignal)
  · intro hor
    exact hpending (hor.elim id hnone)
  · rw [hengine]
    intro stage₀ hin hvacant
    cases hin
    exact absurd hvacant hstage'.1
  · rw [hengine]
    intro stage₀ hin
    cases hin
    exact hstage'.2

/-- Where an attempt is over, something that has leaked is seen. -/
theorem NoneLeaked.of_stage (h : LeaksNone s) (htask : s.engine.reconnectTask = some stage)
    (hstage : ¬ InAttempt stage) : NoneLeaked s := by
  apply h
  intro stage₀ hin
  rw [htask, mem_some_iff] at hin
  rw [← hin]
  exact hstage

/-- One step of the invariant: it is kept by a step that ends clean, and another leaks. -/
def Decides (s : State) (a : Action) (s' : State) : Prop :=
  EndsClean s a s' ∧ Inv s' ∨ ¬ EndsClean s a s' ∧ ¬ LeaksNone s'

theorem endsClean_iff (outcome : Outcome) (signal : Signal)
    (htask : s.engine.reconnectTask = some stage) :
    EndsClean s (.attemptReturned outcome signal) s' ↔
      match stage with
      | .connecting _ => outcome = .ok ∨ signal = .none
      | .waitingPc _ =>
        if outcome = .ok then
          s.engine.handle.closed = true →
            (s.tasks s.engine.nextSession).signal = false ∧
              (s.tasks s.engine.handle.session).signal = false
        else (s.tasks s.engine.nextSession).signal = false
      | .resuming _ =>
        outcome ≠ .ok → signal ≠ .stray ∧
          (signal = .made → s.engine.handle.closed = true → s.engine.handle.session ∈ s.closing)
      | .settling _ => s.engine.handle.closed = true → ¬ s.Stays s.engine.handle.session
      | _ => True := by
  cases stage <;> simp only [EndsClean, htask]

variable {outcome : Outcome} {signal : Signal}

/-- A connection that fails. -/
theorem decides_connectFailed (h : Inv s) (htask : s.engine.reconnectTask = some (.connecting i))
    (hne : outcome ≠ .ok) (hcoherent : Coherent (s.engine.setStage stage'))
    (hrestart : InRestart stage')
    (hstage' : ¬ stage'.Vacant ∧ ¬ ReadFull stage' ∧ ¬ InAttempt stage') :
    Decides s (.attemptReturned outcome signal)
      { s.attemptReturned signal (.connecting i) outcome with
        engine := s.engine.setStage stage' } := by
  have hattempt : s.attemptReturned signal (.connecting i) outcome =
      if signal = .none then s else s.leave .stray := by
    cases outcome with
    | ok => exact absurd rfl hne
    | failed => rfl
    | leave => rfl
  rw [hattempt, Decides, endsClean_iff outcome signal htask]
  by_cases hnone : signal = .none
  · rw [if_pos hnone]
    refine .inl ⟨.inr hnone, ?_⟩
    exact h.restage htask hcoherent rfl rfl rfl rfl id nofun nofun
      (by intro stage hin hbad; cases hin; exact absurd hbad hstage'.1)
      (by intro stage hin; cases hin; exact hstage'.2.1) (fun _ => ⟨_, rfl, hrestart⟩)
      (h.closed_of_closer htask nofun)
  · rw [if_neg hnone]
    refine .inr ⟨fun hbad => hbad.elim hne hnone, fun hleaks => ?_⟩
    have hdropped := (NoneLeaked.of_stage hleaks rfl hstage'.2.2).dropped .stray
      (mem_append_right _ (mem_singleton_self _))
    cases hdropped

/-- A restart that fails when its new session is there. -/
theorem decides_pcFailed (h : Inv s) (htask : s.engine.reconnectTask = some (.waitingPc i))
    (hcoherent : Coherent (s.engine.setStage (.interval i))) :
    Decides s (.attemptReturned .failed signal)
      { s.attemptReturned signal (.waitingPc i) .failed with
        engine := s.engine.setStage (.interval i) } := by
  rw [Decides, endsClean_iff .failed signal htask]
  dsimp only
  rw [if_neg (by decide)]
  have hdropped : ∀ t ∈ (s.attemptReturned signal (.waitingPc i) .failed).dropped,
      t ∈ s.dropped ∨ t = (s.tasks s.engine.nextSession).drop := by
    intro t hin
    cases mem_append.mp hin with
    | inl hold => exact .inl hold
    | inr hnew => exact .inr (mem_singleton.mp hnew)
  by_cases hsignal : (s.tasks s.engine.nextSession).signal = false
  · refine .inl ⟨hsignal, ?_⟩
    have htasks : ∀ session ≠ s.engine.nextSession,
        (s.attemptReturned signal (.waitingPc i) .failed).tasks session = s.tasks session :=
      fun session hne => update_of_ne hne _ _
    have hvacant := h.vacant _ htask trivial
    refine h.ends htask hcoherent rfl rfl rfl rfl id rfl ?_ ?_ ?_ (fun _ _ _ => hvacant)
      (by intro stage hin; cases hin; exact nofun) (fun _ => ⟨_, rfl, trivial⟩)
      (h.closed_of_closer htask nofun)
    · intro session hon
      have hne : session ≠ s.engine.nextSession := by
        intro heq
        rw [heq] at hon
        have hclosed : (s.attemptReturned signal (.waitingPc i) .failed).tasks
            s.engine.nextSession = .closed := update_self _ _ _
        dsimp only at hon
        rw [hclosed] at hon
        cases hon
      dsimp only at hon
      rw [htasks session hne] at hon
      exact (h.installed session hon).resolve_right fun hbad => hne hbad.1
    · intro t hin
      cases hdropped t hin with
      | inl hold => exact h.dropped t hold
      | inr heq =>
        rw [heq]
        exact hsignal
    · intro hor hon
      dsimp only at hon
      rw [htasks _ h.lt.ne] at hon
      exact h.pending_of_not htask nofun hor hon
  · refine .inr ⟨hsignal, fun hleaks => hsignal ?_⟩
    exact (NoneLeaked.of_stage hleaks rfl nofun).dropped (s.tasks s.engine.nextSession).drop
      (mem_append_right _ (mem_singleton_self _))

/-- A resume whose client does not connect again, or whose session fails after that. -/
theorem decides_resumeFailed (h : Inv s) (htask : s.engine.reconnectTask = some (.resuming i))
    (hne : outcome ≠ .ok) (hcoherent : Coherent (s.engine.setStage stage'))
    (hstage' : ¬ stage'.Vacant ∧ ¬ ReadFull stage' ∧ ¬ InAttempt stage') :
    Decides s (.attemptReturned outcome signal)
      { s.attemptReturned signal (.resuming i) outcome with
        engine := s.engine.setStage stage' } := by
  have hattempt : s.attemptReturned signal (.resuming i) outcome =
      s.attemptReturned signal (.resuming i) .failed := by
    cases outcome with
    | ok => exact absurd rfl hne
    | failed => rfl
    | leave => rfl
  have hothers : ∀ b, ∀ session ≠ s.engine.handle.session,
      (s.setSignal s.engine.handle.session b).tasks session = s.tasks session :=
    fun b session hsession => update_of_ne hsession _ _
  have hself : ∀ b, ((s.setSignal s.engine.handle.session b).tasks
      s.engine.handle.session).signal = b := by
    intro b
    show (update s.tasks s.engine.handle.session _ s.engine.handle.session).signal = b
    rw [update_self]
  rw [hattempt, Decides, endsClean_iff outcome signal htask]
  cases signal with
  | none =>
    have hclean : Signal.none ≠ .stray ∧ (Signal.none = .made → s.engine.handle.closed = true →
        s.engine.handle.session ∈ s.closing) := ⟨Signal.noConfusion, Signal.noConfusion⟩
    refine .inl ⟨fun _ => hclean, ?_⟩
    refine h.resumeEnds htask trivial rfl hcoherent rfl (hothers false) h.dropped ?_
      ⟨hstage'.1, hstage'.2.1⟩
    intro _ hon
    have hoff := (hself false).symm.trans hon
    cases hoff
  | stray =>
    refine .inr ⟨fun hbad => (hbad hne).1 rfl, fun hleaks => ?_⟩
    have hdropped := (NoneLeaked.of_stage hleaks rfl hstage'.2.2).dropped .stray
      (mem_append_right _ (mem_singleton_self _))
    cases hdropped
  | made =>
    by_cases hpending : s.engine.handle.closed = true → s.engine.handle.session ∈ s.closing
    · refine .inl ⟨fun _ => ⟨Signal.noConfusion, fun _ => hpending⟩, ?_⟩
      exact h.resumeEnds htask trivial rfl hcoherent rfl (hothers true) h.dropped
        (fun hclosed _ => hpending hclosed) ⟨hstage'.1, hstage'.2.1⟩
    · refine .inr ⟨fun hbad => hpending ((hbad hne).2 rfl), fun hleaks => ?_⟩
      apply hpending
      intro hclosed
      exact (NoneLeaked.of_stage hleaks rfl hstage'.2.2).closed hclosed _ (hself true)

/-- A resume that is over when its client had been connected. -/
theorem decides_settled (h : Inv s) (htask : s.engine.reconnectTask = some (.settling i))
    (hcoherent : Coherent (s.engine.setStage stage'))
    (hstage' : ¬ stage'.Vacant ∧ ¬ ReadFull stage' ∧ ¬ InAttempt stage') :
    Decides s (.attemptReturned outcome signal)
      { s.attemptReturned signal (.settling i) outcome with
        engine := s.engine.setStage stage' } := by
  rw [Decides, endsClean_iff outcome signal htask]
  by_cases hclean : s.engine.handle.closed = true → ¬ s.Stays s.engine.handle.session
  · refine .inl ⟨hclean, ?_⟩
    refine h.resumeEnds htask trivial rfl hcoherent rfl (fun _ _ => rfl) h.dropped ?_
      ⟨hstage'.1, hstage'.2.1⟩
    intro hclosed hon
    by_contra hnot
    exact hclean hclosed ⟨hon, hnot⟩
  · refine .inr ⟨hclean, fun hleaks => hclean fun hclosed hstays => hstays.2 ?_⟩
    exact (NoneLeaked.of_stage hleaks rfl hstage'.2.2).closed hclosed _ hstays.1

/-- The new session is installed. -/
theorem decides_install (h : Inv s) (htask : s.engine.reconnectTask = some (.waitingPc i))
    (hcoherent : Coherent (s.engine.install.setStage (.succeeded true))) :
    Decides s (.attemptReturned .ok signal)
      { s.attemptReturned signal (.waitingPc i) .ok with
        engine := s.engine.install.setStage (.succeeded true) } := by
  rw [Decides, endsClean_iff .ok signal htask]
  dsimp only
  rw [if_pos rfl]
  have hvacant := h.vacant _ htask trivial
  have hclosers := h.closed_of_closer htask nofun
  by_cases hclean : s.engine.handle.closed = true →
      (s.tasks s.engine.nextSession).signal = false ∧
        (s.tasks s.engine.handle.session).signal = false
  · -- in an open engine the restart has closed the old session
    have hold : (s.tasks s.engine.handle.session).signal = false := by
      by_cases hclosed : s.engine.handle.closed = true
      · exact (hclean hclosed).2
      · by_contra hon
        rw [Bool.not_eq_false] at hon
        exact hclosed (hclosers _ (h.pending_of_not htask nofun (.inr hvacant) hon))
    refine .inl ⟨hclean, hcoherent, Nat.lt_succ_self _, ?_, h.dropped, ?_, ?_, nofun, ?_, ?_⟩
    · intro session hon
      cases h.installed session hon with
      | inl heq =>
        rw [heq] at hon
        exact absurd (hold.symm.trans hon) Bool.false_ne_true
      | inr hnew => exact .inl hnew.1
    · intro stage hin hbad
      cases hin
      exact hbad.elim
    · intro stage hin hbad
      cases hin
      exact hbad.elim
    · intro session hin
      exact ⟨(h.closers session hin).1.trans (Nat.lt_succ_self _),
        .inl (hclosers session hin)⟩
    · intro hor hon
      cases hor with
      | inl hclosed => exact absurd ((hclean hclosed).1.symm.trans hon) Bool.false_ne_true
      | inr hnone => cases hnone
  · refine .inr ⟨hclean, fun hleaks => hclean fun hclosed => ?_⟩
    have hnone := NoneLeaked.of_stage hleaks rfl nofun
    constructor
    · by_contra hon
      rw [Bool.not_eq_false] at hon
      exact absurd (h.closers _ (hnone.closed hclosed _ hon)).1 (lt_irrefl _)
    · by_contra hon
      rw [Bool.not_eq_false] at hon
      exact absurd (hnone.installed _ hon) h.lt.ne

theorem decides_returned (h : Inv s) {engine : Engine.State}
    (htask : s.engine.reconnectTask = some stage)
    (hreturned : s.engine.attemptReturned stage outcome = some engine)
    (hcoherent : Coherent engine) :
    Decides s (.attemptReturned outcome signal)
      { s.attemptReturned signal stage outcome with engine := engine } := by
  cases Engine.returns_of_returned hreturned with
  | install i => exact decides_install h htask hcoherent
  | goOn hafter =>
    cases hafter with
    | connected i =>
      exact .inl ⟨(endsClean_iff _ _ htask).mpr (.inl rfl), h.connected htask hcoherent⟩
    | resumed i =>
      exact .inl ⟨(endsClean_iff _ _ htask).mpr fun hbad => absurd rfl hbad,
        h.resumed htask hcoherent⟩
    | connectFailed | connectLeft =>
      exact decides_connectFailed h htask nofun hcoherent trivial ⟨nofun, nofun, nofun⟩
    | pcFailed i => exact decides_pcFailed h htask hcoherent
    | resumeFailed | resumeLeft =>
      exact decides_resumeFailed h htask nofun hcoherent ⟨nofun, nofun, nofun⟩
    | settled | settleFailed => exact decides_settled h htask hcoherent ⟨nofun, nofun, nofun⟩

/-! ## Tasks that end -/

/-- Connections end, and nothing is installed. -/
theorem Inv.tasksEnd (h : Inv s) (hengine : s'.engine = s.engine)
    (htasks : ∀ session, (s'.tasks session).signal = true → (s.tasks session).signal = true)
    (hdropped : ∀ t ∈ s'.dropped, t.signal = false)
    (hclosing : ∀ session ∈ s'.closing, session ∈ s.closing)
    (hpending : ∀ session ∈ s.closing, (s'.tasks session).signal = true → session ∈ s'.closing) :
    Inv s' where
  coherent := by
    rw [hengine]
    exact h.coherent
  lt := by
    rw [hengine]
    exact h.lt
  installed := by
    rw [hengine]
    exact fun session hsignal => h.installed session (htasks session hsignal)
  dropped := hdropped
  vacant := by
    rw [hengine]
    exact h.vacant
  readFull := by
    rw [hengine]
    exact h.readFull
  restarting := by
    rw [hengine]
    exact h.restarting
  closers := by
    rw [hengine]
    exact fun session hin => h.closers session (hclosing session hin)
  pending := by
    rw [hengine]
    intro hor hsignal
    cases h.pending hor (htasks _ hsignal) with
    | inl hin => exact .inl (hpending _ hin hsignal)
    | inr hresume => exact .inr hresume

/-- `close` ends the tasks of the session. -/
theorem Inv.sessionClosed (h : Inv s) (session : ℕ) :
    Inv { s.setTasks session .closed with closing := s.closing.erase session } := by
  have hself : (s.setTasks session .closed).tasks session = .closed := update_self _ _ _
  have hothers : ∀ other ≠ session, (s.setTasks session .closed).tasks other = s.tasks other :=
    fun other hne => update_of_ne hne _ _
  have hne : ∀ other, ((s.setTasks session .closed).tasks other).signal = true →
      other ≠ session := by
    intro other hsignal heq
    rw [heq, hself] at hsignal
    cases hsignal
  refine h.tasksEnd ?_ ?_ ?_ ?_ ?_
  · rfl
  · intro other hsignal
    rw [← hothers other (hne other hsignal)]
    exact hsignal
  · exact h.dropped
  · exact fun other hin => mem_of_mem_erase hin
  · intro other hin hsignal
    exact (mem_erase_of_ne (hne other hsignal)).mpr hin

/-- A connection ends by itself. -/
theorem Inv.signalEnds (h : Inv s) (session : ℕ) : Inv (s.setSignal session false) := by
  refine h.tasksEnd ?_ ?_ ?_ ?_ ?_
  · rfl
  · intro other hsignal
    by_cases heq : other = session
    · have hself : (s.setSignal session false).tasks session =
          { s.tasks session with signal := false } := update_self _ _ _
      rw [heq, hself] at hsignal
      cases hsignal
    · have hothers : (s.setSignal session false).tasks other = s.tasks other :=
        update_of_ne heq _ _
      rw [← hothers]
      exact hsignal
  · exact h.dropped
  · exact fun _ hin => hin
  · exact fun _ hin _ => hin

theorem Inv.droppedEnds (h : Inv s) (j : ℕ) :
    Inv { s with dropped := s.dropped.modify j fun t => { t with signal := false } } := by
  refine h.tasksEnd ?_ ?_ ?_ ?_ ?_
  · rfl
  · exact fun _ hsignal => hsignal
  · intro t hin
    obtain ⟨i, hi, heq⟩ := mem_iff_getElem.mp hin
    rw [← heq, getElem_modify]
    split_ifs with hij
    · rfl
    · exact h.dropped _ (getElem_mem _)
  · exact fun _ hin => hin
  · exact fun _ hin _ => hin

/-! ## Runs -/

/-- A step that the engine takes by itself. -/
theorem Inv.engine (h : Inv s) {a : Engine.Action} {engine : Engine.State}
    (hstep : s.engine.step a = some engine) (hnot : ∀ outcome, a ≠ .attemptReturned outcome)
    (hover : ∀ session ∈ awaitsClose s.engine a, session ∉ s.closing) :
    Inv { s with engine := engine, closing := s.closing ++ (callsClose s.engine a).toList } := by
  have hcoherent := h.coherent.step hstep
  cases Engine.turn_of_step hstep with
  | event | called | disconnected =>
    rw [show callsClose s.engine _ = none from rfl, toList_none, append_nil]
    exact h.frame hcoherent rfl rfl rfl rfl rfl id
  | needed hevent =>
    rw [show callsClose s.engine _ = none from rfl, toList_none, append_nil]
    exact h.needed hcoherent
  | closing hcall hproceed => exact h.proceedClose hcall hproceed hcoherent
  | working htask hwork => exact h.work htask hwork hcoherent hover
  | returned htask hreturned => exact absurd rfl (hnot _)

theorem decides_step {a : Action} (h : Inv s) (hstep : s.step a = some s') : Decides s a s' := by
  cases a with
  | engine a =>
    refine .inl ⟨trivial, ?_⟩
    have hnot : ∀ outcome, a ≠ .attemptReturned outcome := by
      intro outcome heq
      rw [heq] at hstep
      cases hstep
    have hunfold : s.step (.engine a) =
        if ∃ session ∈ awaitsClose s.engine a, session ∈ s.closing then none
        else (s.engine.step a).map fun engine =>
          { s with engine := engine, closing := s.closing ++ (callsClose s.engine a).toList } := by
      cases a with
      | attemptReturned outcome => exact absurd rfl (hnot outcome)
      | _ => rfl
    rw [hunfold] at hstep
    split_ifs at hstep with hawaits
    obtain ⟨engine, hengine, heq⟩ := map_eq_some_iff.mp hstep
    rw [← heq]
    refine h.engine hengine hnot fun session hin hclosing => ?_
    exact hawaits ⟨session, hin, hclosing⟩
  | attemptReturned outcome signal =>
    obtain ⟨stage, htask, hreturned⟩ := bind_eq_some_iff.mp hstep
    obtain ⟨engine, hengine, heq⟩ := map_eq_some_iff.mp hreturned
    have hcoherent : Coherent engine := by
      apply h.coherent.step (a := .attemptReturned outcome)
      show s.engine.reconnectTask.bind _ = _
      rw [htask]
      exact hengine
    rw [← heq]
    exact decides_returned h htask hengine hcoherent
  | sessionClosed session =>
    have hunfold : s.step (.sessionClosed session) =
        if session ∈ s.closing then
          some { s.setTasks session .closed with closing := s.closing.erase session }
        else none := rfl
    rw [hunfold] at hstep
    split_ifs at hstep with hin
    cases hstep
    exact .inl ⟨trivial, h.sessionClosed session⟩
  | signalEnds session =>
    cases hstep
    exact .inl ⟨trivial, h.signalEnds session⟩
  | droppedEnds j =>
    cases hstep
    exact .inl ⟨trivial, h.droppedEnds j⟩

/-- Reconnection leaks no session in the runs whose attempts end clean, and in no others; dropping
a session ends its own tasks, and leaves its signal task as it is. -/
theorem leaks_none_iff (run : List Action) :
    (Throughout State.step LeaksNone .new run ↔ EachStep State.step EndsClean .new run) ∧
    ∀ (s : State) (i : ℕ) (signal : Signal), s.engine.reconnectTask = some (.waitingPc i) →
      ∃ s', s.step (.attemptReturned .failed signal) = some s' ∧
        s'.dropped = s.dropped ++ [⟨false, (s.tasks s.engine.nextSession).signal⟩] := by
  constructor
  · exact throughout_iff_eachStep (I := Inv) (fun _ h => h.leaksNone) (fun _ _ _ => decides_step)
      Inv.new run
  · intro s i signal htask
    refine ⟨{ s.attemptReturned signal (.waitingPc i) .failed with
      engine := s.engine.setStage (.interval i) }, ?_, rfl⟩
    show s.engine.reconnectTask.bind _ = _
    rw [htask]
    rfl

/-- A restart whose new session does not get its peer connections. -/
def abandonedRestart : List Action :=
  [.engine (.closeEvent 0 true), .engine (.reconnectionNeeded 0), .engine .work, .engine .work,
    .engine .work, .engine .work, .sessionClosed 0, .engine .work,
    .attemptReturned .ok .made, .engine .work, .attemptReturned .failed .none]

theorem abandoned_session_signals : ¬ ∀ run, Throughout State.step LeaksNone .new run := by
  intro h
  have hleaks := h abandonedRestart abandonedRestart [] _ (append_nil _).symm rfl
  have hnone := NoneLeaked.of_stage hleaks rfl nofun
  have hdropped := hnone.dropped .stray (mem_singleton_self _)
  cases hdropped

end LiveKit.RtcEngine.Sessions
