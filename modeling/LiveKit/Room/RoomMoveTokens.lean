import LiveKit.Room.RoomMoveTheorems

/-!
# The token of an attempt

The token that a cycle begins with is the one received last as long as the messages and the restarts
leave the signal client with it.
-/

namespace LiveKit.RoomMove

open State List LiveKit.Room
open RtcEngine (Engine.Stage Engine.Outcome Engine.Coherent)
open TransitionSystem

/-- While a restart waits, its new session has the signal connection. -/
def IsNew : Engine.Stage → Prop
  | .signalRestarted _ | .waitingPc _ => True
  | _ => False

instance : (stage : Engine.Stage) → Decidable (IsNew stage)
  | .signalRestarted _ | .waitingPc _ => isTrue trivial
  | .locking | .checking _ | .announcing _ | .beginning _ _ | .closingSession _ _ _ | .connecting _
  | .resuming _ | .signalResumed _ | .settling _ | .succeeded _ | .reporting _ | .escalating _
  | .interval _ | .leaving | .awaitingClose _ _ | .erring | .finishing => isFalse id

namespace State

theorem current_of_new {s : RtcEngine.Engine.State} {stage : Engine.Stage}
    (htask : s.reconnectTask = some stage) (h : IsNew stage) : current s = s.nextSession := by
  unfold current
  rw [htask]
  cases stage with
  | signalRestarted | waitingPc => rfl
  | _ => exact h.elim

theorem current_of_not_new {s : RtcEngine.Engine.State}
    (h : ∀ stage ∈ s.reconnectTask, ¬ IsNew stage) : current s = s.handle.session := by
  unfold current
  split
  · next i htask => exact absurd trivial (h _ htask)
  · next i htask => exact absurd trivial (h _ htask)
  · rfl

end State

/-! ## What is heard -/

theorem heard_concat (start : Token) (records : List Record) (r : Record) :
    heard start (records ++ [r]) = (heard start records).hear r := by
  unfold heard
  rw [foldl_append]
  rfl

theorem MovesComplete.nil (start : Token) : MovesComplete start [] where
  complete _ _ _ _ h := absurd h not_mem_nil
  authentic earlier token later h := by
    have hlength := congrArg List.length h
    rw [length_append, length_cons] at hlength
    exact absurd hlength (by simp)

/-- One more record keeps the promise if it is complete and authentic itself. -/
theorem MovesComplete.concat {start : Token} {records : List Record}
    (h : MovesComplete start records) {r : Record}
    (hmoved : ∀ before moved after events, r = .moved before moved after events →
      Complete before moved after events)
    (hauthentic : ∀ token, r = .authenticated token →
      token = (heard start records).beforeCycle) : MovesComplete start (records ++ [r]) where
  complete before moved after events hmem := by
    rcases mem_append.mp hmem with hold | hnew
    · exact h.complete before moved after events hold
    · exact hmoved before moved after events (mem_singleton.mp hnew).symm
  authentic earlier token later heq := by
    rcases eq_nil_or_concat' later with hnil | ⟨rest, last, hconcat⟩
    · rw [hnil] at heq
      obtain ⟨hearlier, hlast⟩ := append_inj' heq rfl
      rw [← hearlier]
      exact hauthentic token (singleton_inj.mp hlast)
    · rw [hconcat, ← cons_append, ← append_assoc] at heq
      exact h.authentic earlier token rest (append_inj' heq rfl).1

/-! ## The invariant -/

/-- The signal client has the token that was received last. -/
structure TokenInv (start : Token) (records : List Record) (s : State) : Prop where
  coherent : Engine.Coherent s.engine
  lt : s.engine.handle.session < s.engine.nextSession
  latest : s.token = (heard start records).latest
  /-- The cycle has the token that was the last one before it began. -/
  taken : ∀ stage ∈ s.engine.reconnectTask, stage ≠ .locking →
    s.taken = (heard start records).beforeCycle
  /-- The session that a restart replaces had the token, too. -/
  replaced : ∀ stage ∈ s.engine.reconnectTask, IsNew stage →
    s.tokens s.engine.handle.session = s.taken

theorem TokenInv.new (room : Room) (token : Token) : TokenInv token [] (new room token) where
  coherent := RtcEngine.Engine.Coherent.new
  lt := Nat.zero_lt_one
  latest := rfl
  taken stage h := by cases h
  replaced stage h := by cases h

variable {start : Token} {records : List Record} {s : State}

/-- The engine goes on, with the signal connection where it was. -/
structure GoesOn (s s' : RtcEngine.Engine.State) : Prop where
  session : s'.handle.session = s.handle.session
  next : s'.nextSession = s.nextSession
  new : (∃ stage' ∈ s'.reconnectTask, IsNew stage') ↔ ∃ stage ∈ s.reconnectTask, IsNew stage
  begun : (∃ stage' ∈ s'.reconnectTask, stage' ≠ .locking) →
    ∃ stage ∈ s.reconnectTask, stage ≠ .locking

/-- An engine that goes on keeps its session. -/
theorem GoesOn.current {s s' : RtcEngine.Engine.State} (h : GoesOn s s') :
    current s' = current s := by
  by_cases hnew : ∃ stage ∈ s.reconnectTask, IsNew stage
  · obtain ⟨stage', htask', hnew'⟩ := h.new.mpr hnew
    obtain ⟨stage, htask, hnew⟩ := hnew
    rw [current_of_new htask' hnew', current_of_new htask hnew, h.next]
  · have hnot : ∀ stage ∈ s.reconnectTask, ¬ IsNew stage :=
      fun stage htask hbad => hnew ⟨stage, htask, hbad⟩
    have hnot' : ∀ stage' ∈ s'.reconnectTask, ¬ IsNew stage' :=
      fun stage' htask' hbad => hnew (h.new.mp ⟨stage', htask', hbad⟩)
    rw [current_of_not_new hnot', current_of_not_new hnot, h.session]

/-- A step of the engine that is nothing to the tokens. -/
theorem TokenInv.goesOn (h : TokenInv start records s) {engine : RtcEngine.Engine.State}
    (hcoherent : Engine.Coherent engine) (hgoes : GoesOn s.engine engine) (presented : Bool) :
    TokenInv start records { s with engine, presented } where
  coherent := hcoherent
  lt := by
    show engine.handle.session < engine.nextSession
    rw [hgoes.session, hgoes.next]
    exact h.lt
  latest := by
    show s.tokens (current engine) = _
    rw [hgoes.current]
    exact h.latest
  taken stage htask hstage := by
    obtain ⟨stage', htask', hstage'⟩ := hgoes.begun ⟨stage, htask, hstage⟩
    exact h.taken stage' htask' hstage'
  replaced stage htask hnew := by
    obtain ⟨stage', htask', hnew'⟩ := hgoes.new.mp ⟨stage, htask, hnew⟩
    show s.tokens engine.handle.session = s.taken
    rw [hgoes.session]
    exact h.replaced stage' htask' hnew'

section

variable {s s' : RtcEngine.Engine.State}
  (hsession : s'.handle.session = s.handle.session) (hnext : s'.nextSession = s.nextSession)

include hsession hnext

/-- An engine with the same reconnect task goes on. -/
theorem GoesOn.same (htask : s'.reconnectTask = s.reconnectTask) : GoesOn s s' := by
  refine ⟨hsession, hnext, ?_, ?_⟩
  · rw [htask]
  · rw [htask]
    exact id

/-- The reconnect task goes from one stage to another. -/
theorem GoesOn.stage {stage stage' : Engine.Stage} (htask : s.reconnectTask = some stage)
    (htask' : s'.reconnectTask = some stage') (hnew : IsNew stage' ↔ IsNew stage)
    (hstage : stage ≠ .locking) : GoesOn s s' := by
  refine ⟨hsession, hnext, ?_, ?_⟩
  · rw [htask, htask']
    constructor
    · intro ⟨other, hother, hisnew⟩
      cases hother
      exact ⟨stage, rfl, hnew.mp hisnew⟩
    · intro ⟨other, hother, hisnew⟩
      cases hother
      exact ⟨stage', rfl, hnew.mpr hisnew⟩
  · intro _
    exact ⟨stage, htask, hstage⟩

/-- There is no reconnect task after it. -/
theorem GoesOn.over {stage : Engine.Stage} (htask : s.reconnectTask = some stage)
    (htask' : s'.reconnectTask = none) (hnew : ¬ IsNew stage) : GoesOn s s' := by
  refine ⟨hsession, hnext, ?_, ?_⟩
  · rw [htask, htask']
    constructor
    · intro ⟨other, hother, _⟩
      cases hother
    · intro ⟨other, hother, hisnew⟩
      cases hother
      exact absurd hisnew hnew
  · rw [htask']
    intro ⟨other, hother, _⟩
    cases hother

/-- A reconnect task that begins where there is none. -/
theorem GoesOn.begin (htask : s.reconnectTask = none)
    (htask' : s'.reconnectTask = some .locking) : GoesOn s s' := by
  refine ⟨hsession, hnext, ?_, ?_⟩
  · rw [htask, htask']
    constructor
    · intro ⟨other, hother, hisnew⟩
      cases hother
      exact hisnew.elim
    · intro ⟨other, hother, _⟩
      cases hother
  · rw [htask']
    intro ⟨other, hother, hne⟩
    cases hother
    exact absurd rfl hne

end

/-! ## The steps of the engine -/

/-- Closing does not change which session is the current one. -/
theorem proceedClose_sessions {s s' : RtcEngine.Engine.State} {k : ℕ}
    {call : RtcEngine.Engine.CloseCall} (h : s.proceedClose k call = some s') :
    s'.handle.session = s.handle.session ∧ s'.nextSession = s.nextSession := by
  unfold RtcEngine.Engine.State.proceedClose at h
  split at h
  · split at h
    · cases h
      exact ⟨rfl, rfl⟩
    · cases h
      exact ⟨rfl, rfl⟩
  · split at h
    · cases h
    · cases h
      exact ⟨rfl, rfl⟩
  · cases h
    exact ⟨rfl, rfl⟩
  · cases h

theorem needed_sessions (s : RtcEngine.Engine.State) (fullReconnect : Bool) :
    (s.reconnectionNeeded fullReconnect).handle.session = s.handle.session ∧
      (s.reconnectionNeeded fullReconnect).nextSession = s.nextSession := by
  unfold RtcEngine.Engine.State.reconnectionNeeded
  split
  · exact ⟨rfl, rfl⟩
  · split
    · split
      · exact ⟨rfl, rfl⟩
      · exact ⟨rfl, rfl⟩
    · exact ⟨rfl, rfl⟩

/-- What asks for a reconnection or closes the engine. -/
theorem goesOn_of_needed {s : RtcEngine.Engine.State} (h : Engine.Coherent s) (k : ℕ)
    (fullReconnect : Bool) :
    GoesOn s ({ s with handling := s.handling.eraseIdx k }.reconnectionNeeded fullReconnect) := by
  obtain ⟨hsession, hnext⟩ := needed_sessions
    { s with handling := s.handling.eraseIdx k } fullReconnect
  obtain ⟨-, -, hcases⟩ := RtcEngine.Engine.reconnectionNeeded_cases
    { s with handling := s.handling.eraseIdx k } fullReconnect
  rcases hcases with ⟨-, hidle, -, htask⟩ | ⟨-, -, htask⟩
  · have hnone : s.reconnectTask = none := by
      have hreconnecting := h.reconnecting
      rw [show s.handle.reconnecting = false from hidle] at hreconnecting
      exact Option.isNone_iff_eq_none.mp (Option.isSome_eq_false_iff.mp hreconnecting.symm)
    exact .begin hsession hnext hnone htask
  · exact .same hsession hnext htask

/-- The next stage is in a new session if this one is, and only then. -/
theorem isNew_of_next {s : RtcEngine.Engine.State} {stage stage' : Engine.Stage}
    (h : RtcEngine.Engine.Next s stage stage') : IsNew stage' ↔ IsNew stage := by
  cases h <;> exact Iff.rfl

/-- What the reconnect task does by itself once it has begun. -/
theorem goesOn_of_work {s s' : RtcEngine.Engine.State} {stage : Engine.Stage}
    (htask : s.reconnectTask = some stage) (h : s.work stage = some s')
    (hstage : stage ≠ .locking) : GoesOn s s' := by
  cases RtcEngine.Engine.works_of_work h with
  | goOn hnext => exact .stage rfl rfl htask rfl (isNew_of_next hnext) hstage
  | take | closed | escalate | leave | err => exact .stage rfl rfl htask rfl Iff.rfl hstage
  | finish => exact .over rfl rfl htask rfl id

/-! ## The invariant over a step -/

section

variable (h : TokenInv start records s)

include h

/-- What is put on record is nothing to the token that was received last. -/
theorem TokenInv.append {new : List Record}
    (hnew : heard start (records ++ new) = heard start records) :
    TokenInv start (records ++ new) s where
  coherent := h.coherent
  lt := h.lt
  latest := by
    rw [hnew]
    exact h.latest
  taken := by
    rw [hnew]
    exact h.taken
  replaced := h.replaced

/-- `reconnect_task` begins. -/
theorem TokenInv.begins {engine : RtcEngine.Engine.State} (hcoherent : Engine.Coherent engine)
    (htask : s.engine.reconnectTask = some .locking)
    (hwork : s.engine.work .locking = some engine) :
    TokenInv start (records ++ [.began]) { s with engine, taken := s.token } := by
  have hengine : s.engine.setStage (.checking 1) = engine := Option.some.inj hwork
  have hcurrent : current engine = current s.engine := by
    rw [← hengine, current_of_not_new, current_of_not_new]
    · rfl
    · intro stage hstage
      rw [htask] at hstage
      cases hstage
      exact id
    · intro stage hstage
      cases hstage
      exact id
  refine
    { coherent := hcoherent
      lt := ?_
      latest := ?_
      taken := ?_
      replaced := ?_ }
  · rw [← hengine]
    exact h.lt
  · show s.tokens (current engine) = _
    rw [hcurrent, heard_concat]
    exact h.latest
  · intro stage _ _
    rw [heard_concat]
    exact h.latest
  · intro stage hstage hnew
    rw [← hengine] at hstage
    cases hstage
    exact hnew.elim

/-- A restart has connected: its session has the token that the cycle has. -/
theorem TokenInv.connects {engine : RtcEngine.Engine.State} {i : ℕ}
    (hcoherent : Engine.Coherent engine) (htask : s.engine.reconnectTask = some (.connecting i))
    (hreturned : s.engine.attemptReturned (.connecting i) .ok = some engine)
    (hkeeps : s.Unchanged) :
    TokenInv start records
      { s with engine, tokens := Function.update s.tokens s.engine.nextSession s.taken } := by
  have hengine : s.engine.setStage (.signalRestarted i) = engine := Option.some.inj hreturned
  have hbefore : current s.engine = s.engine.handle.session := by
    apply current_of_not_new
    intro stage hstage
    rw [htask] at hstage
    cases hstage
    exact id
  have hafter : current engine = s.engine.nextSession := by
    rw [← hengine]
    exact current_of_new rfl trivial
  refine
    { coherent := hcoherent
      lt := ?_
      latest := ?_
      taken := ?_
      replaced := ?_ }
  · rw [← hengine]
    exact h.lt
  · show Function.update s.tokens s.engine.nextSession s.taken (current engine) = _
    rw [hafter, Function.update_self, ← hkeeps]
    exact h.latest
  · intro _ _ _
    exact h.taken _ htask nofun
  · intro _ _ _
    show Function.update s.tokens s.engine.nextSession s.taken engine.handle.session = s.taken
    have hsession : engine.handle.session = s.engine.handle.session := by
      rw [← hengine]
      rfl
    rw [hsession, Function.update_of_ne h.lt.ne, ← hbefore]
    exact hkeeps

/-- The new session is dropped, and the one that it was to replace has the same token. -/
theorem TokenInv.pcFails {engine : RtcEngine.Engine.State} {i : ℕ}
    (hcoherent : Engine.Coherent engine) (htask : s.engine.reconnectTask = some (.waitingPc i))
    (hreturned : s.engine.attemptReturned (.waitingPc i) .failed = some engine)
    (hkeeps : s.Unchanged) : TokenInv start records { s with engine } := by
  have hengine : s.engine.setStage (.interval i) = engine := Option.some.inj hreturned
  have hafter : current engine = s.engine.handle.session := by
    rw [← hengine]
    apply current_of_not_new
    intro stage hstage
    cases hstage
    exact id
  refine
    { coherent := hcoherent
      lt := ?_
      latest := ?_
      taken := ?_
      replaced := ?_ }
  · rw [← hengine]
    exact h.lt
  · show s.tokens (current engine) = _
    rw [hafter, h.replaced _ htask trivial, ← hkeeps]
    exact h.latest
  · intro _ _ _
    exact h.taken _ htask nofun
  · intro stage hstage hnew
    rw [← hengine] at hstage
    cases hstage
    exact hnew.elim

/-- The new session takes the place of the one before. -/
theorem TokenInv.installs {engine : RtcEngine.Engine.State} {i : ℕ}
    (hcoherent : Engine.Coherent engine) (htask : s.engine.reconnectTask = some (.waitingPc i))
    (hreturned : s.engine.attemptReturned (.waitingPc i) .ok = some engine) :
    TokenInv start records { s with engine } := by
  have hengine : s.engine.install.setStage (.succeeded true) = engine := Option.some.inj hreturned
  have hbefore : current s.engine = s.engine.nextSession :=
    current_of_new htask trivial
  have hafter : current engine = s.engine.nextSession := by
    rw [← hengine, current_of_not_new]
    · rfl
    · intro stage hstage
      cases hstage
      exact id
  refine
    { coherent := hcoherent
      lt := ?_
      latest := ?_
      taken := ?_
      replaced := ?_ }
  · rw [← hengine]
    exact Nat.lt_succ_self _
  · show s.tokens (current engine) = _
    rw [hafter, ← hbefore]
    exact h.latest
  · intro _ _ _
    exact h.taken _ htask nofun
  · intro stage hstage hnew
    rw [← hengine] at hstage
    cases hstage
    exact hnew.elim

/-- The room and the messages are nothing to the tokens. -/
theorem TokenInv.room (room : Room) (messages : List Message) (presented : Bool) :
    TokenInv start records { s with room, messages, presented } :=
  ⟨h.coherent, h.lt, h.latest, h.taken, h.replaced⟩

/-- A message that is received. -/
theorem TokenInv.receives {message : Message}
    (hkeeps : ∀ moved, message = .roomMoved moved → moved.token = s.token) :
    TokenInv start (records ++ [.received message]) (s.receive message) := by
  cases message with
  | refreshToken token =>
    refine
      { coherent := h.coherent
        lt := h.lt
        latest := ?_
        taken := ?_
        replaced := ?_ }
    · rw [heard_concat]
      exact Function.update_self _ _ _
    · rw [heard_concat]
      exact h.taken
    · intro stage hstage hnew
      have hcurrent : current s.engine = s.engine.nextSession :=
        current_of_new hstage hnew
      show Function.update s.tokens (current s.engine) token s.engine.handle.session = s.taken
      rw [hcurrent, Function.update_of_ne h.lt.ne]
      exact h.replaced stage hstage hnew
  | roomMoved moved =>
    refine
      { coherent := h.coherent
        lt := h.lt
        latest := ?_
        taken := ?_
        replaced := h.replaced }
    · rw [heard_concat]
      exact (hkeeps moved rfl).symm
    · rw [heard_concat]
      exact h.taken
  | participantUpdate updates =>
    refine
      { coherent := h.coherent
        lt := h.lt
        latest := ?_
        taken := ?_
        replaced := h.replaced }
    · rw [heard_concat]
      exact h.latest
    · rw [heard_concat]
      exact h.taken

end

/-! ## Whole runs -/

structure Inv (start : Token) (records : List Record) (s : State) : Prop where
  token : TokenInv start records s
  moves : MovesComplete start records

section

variable (h : Inv start records s)

include h

variable {s' : State}

/-- An attempt in a cycle that has begun connects with the token of the cycle. -/
theorem Inv.authenticates (htoken : TokenInv start records s') {stage : Engine.Stage}
    (htask : s.engine.reconnectTask = some stage) (hstage : stage ≠ .locking) :
    Inv start (records ++ [.authenticated s.taken]) s' where
  token := htoken.append (heard_concat start records _)
  moves := by
    refine h.moves.concat nofun ?_
    intro token heq
    cases heq
    exact h.token.taken stage htask hstage

theorem Inv.quiet (htoken : TokenInv start records s') :
    Inv start (records ++ []) s' := by
  rw [append_nil]
  exact ⟨htoken, h.moves⟩

/-- What the reconnect task does by itself. -/
theorem Inv.works {engine : RtcEngine.Engine.State} (hcoherent : Engine.Coherent engine)
    {stage : Engine.Stage} (htask : s.engine.reconnectTask = some stage)
    (hwork : s.engine.work stage = some engine) :
    Inv start (records ++ (s.engineTurn .work engine).2) (s.engineTurn .work engine).1 := by
  unfold engineTurn
  rw [htask]
  cases stage with
  | locking =>
    have htoken := h.token.begins hcoherent htask hwork
    exact ⟨htoken, h.moves.concat nofun nofun⟩
  | closingSession i session engineTask =>
    have hgoes := goesOn_of_work htask hwork nofun
    exact h.authenticates (h.token.goesOn hcoherent hgoes s.presented) htask nofun
  | beginning i fullReconnect =>
    have hgoes := goesOn_of_work htask hwork nofun
    cases fullReconnect with
    | false => exact h.quiet (h.token.goesOn hcoherent hgoes false)
    | true =>
      have htoken := h.token.goesOn hcoherent hgoes s.presented
      dsimp only
      split
      · exact h.authenticates htoken htask nofun
      · exact h.quiet htoken
  | _ =>
    have hgoes := goesOn_of_work htask hwork nofun
    exact h.quiet (h.token.goesOn hcoherent hgoes s.presented)

/-- What the reconnect task does after what it waits for. -/
theorem Inv.returns {engine : RtcEngine.Engine.State} (hcoherent : Engine.Coherent engine)
    {stage : Engine.Stage} {outcome : Engine.Outcome} (htask : s.engine.reconnectTask = some stage)
    (hreturned : s.engine.attemptReturned stage outcome = some engine)
    (hkeeps : ∀ s', s.Keeps (.engine (.attemptReturned outcome)) s') :
    Inv start (records ++ (s.engineTurn (.attemptReturned outcome) engine).2)
      (s.engineTurn (.attemptReturned outcome) engine).1 := by
  have hstay : ∀ {stage' : Engine.Stage}, s.engine.setStage stage' = engine →
      (IsNew stage' ↔ IsNew stage) → stage ≠ .locking →
        TokenInv start records { s with engine } := by
    intro stage' hengine hnew hstage
    rw [← hengine] at hcoherent ⊢
    exact h.token.goesOn hcoherent (.stage rfl rfl htask rfl hnew hstage) s.presented
  unfold engineTurn
  rw [htask]
  cases RtcEngine.Engine.returns_of_returned hreturned with
  | install i => exact h.quiet (h.token.installs hcoherent htask hreturned)
  | goOn hafter =>
    cases hafter with
    | connected i =>
      exact h.quiet (h.token.connects hcoherent htask hreturned (hkeeps s ⟨i, htask⟩))
    | pcFailed i => exact h.quiet (h.token.pcFails hcoherent htask hreturned (hkeeps s ⟨i, htask⟩))
    | connectFailed | connectLeft | resumed | resumeFailed | resumeLeft | settled | settleFailed =>
      exact h.quiet (hstay rfl Iff.rfl nofun)

/-- A step of the engine. -/
theorem Inv.engine {a : RtcEngine.Engine.Action} {engine : RtcEngine.Engine.State}
    (hstep : s.engine.step a = some engine) (hkeeps : ∀ s', s.Keeps (.engine a) s') :
    Inv start (records ++ (s.engineTurn a engine).2) (s.engineTurn a engine).1 := by
  have hcoherent := h.token.coherent.step hstep
  cases RtcEngine.Engine.turn_of_step hstep with
  | working htask hwork => exact h.works hcoherent htask hwork
  | returned htask hreturned => exact h.returns hcoherent htask hreturned hkeeps
  | event | called | disconnected =>
    exact h.quiet (h.token.goesOn hcoherent (.same rfl rfl rfl) s.presented)
  | needed hevent =>
    exact h.quiet (h.token.goesOn hcoherent (goesOn_of_needed h.token.coherent _ _) s.presented)
  | closing hcall hclose =>
    obtain ⟨hsession, hnext⟩ := proceedClose_sessions hclose
    have htask := (RtcEngine.Engine.proceedClose_frame hclose).1
    exact h.quiet (h.token.goesOn hcoherent (.same hsession hnext htask) s.presented)

/-- The room task handles a message. -/
theorem Inv.handles {message : Message} {messages : List Message}
    (hmessages : s.messages = message :: messages) (hkeeps : ∀ s', s.Keeps .handle s') :
    Inv start (records ++ record s .handle)
      { s with room := (s.room.handle message).1, messages } := by
  have htoken := h.token.room (s.room.handle message).1 messages s.presented
  unfold record turn
  rw [hmessages]
  cases message with
  | refreshToken | participantUpdate => exact h.quiet htoken
  | roomMoved moved =>
    have hall := hkeeps s (.roomMoved moved) (by rw [hmessages]; rfl)
    refine ⟨htoken.append (heard_concat start records _), ?_⟩
    apply h.moves.concat
    · intro before moved' after events heq
      cases heq
      exact (complete_iff_mentionsAll moved hall.1).mpr hall.2
    · nofun

end

/-- The steps of the engine among those of the room. -/
theorem turn_engine {a : RtcEngine.Engine.Action} {new : List Record}
    (h : s.turn (.engine a) = some (s', new)) :
    ∃ engine, s.engine.step a = some engine ∧ s.engineTurn a engine = (s', new) := by
  unfold turn at h
  cases a with
  | attemptReturned outcome =>
    dsimp only at h
    split at h
    · cases h
    · exact Option.map_eq_some_iff.mp h
  | _ => exact Option.map_eq_some_iff.mp h

/-- The token is presented in a resumption that has not presented it yet. -/
theorem presenting_iff : s.presenting = true ↔
    s.presented = false ∧ ∃ i, s.engine.reconnectTask = some (.resuming i) := by
  unfold presenting
  split
  · next i htask =>
    rw [Bool.not_eq_true']
    exact ⟨fun h => ⟨h, i, htask⟩, fun h => h.1⟩
  · next hother =>
    apply iff_of_false nofun
    intro ⟨_, i, htask⟩
    exact hother i htask

/-- A step that keeps the room complete and the token fresh. -/
theorem Inv.step (h : Inv start records s) {a : Action} (hstep : s.step a = some s')
    (hkeeps : s.Keeps a s') : Inv start (records ++ record s a) s' := by
  obtain ⟨⟨after, new⟩, hturn, hafter⟩ := Option.map_eq_some_iff.mp hstep
  have hrecord : record s a = new := by
    unfold record
    rw [hturn]
    rfl
  have hsame : after = s' := hafter
  cases a with
  | receive message =>
    rw [hrecord, ← hsame]
    cases hturn
    refine ⟨h.token.receives ?_, h.moves.concat nofun nofun⟩
    intro moved heq
    rw [heq] at hkeeps
    exact hkeeps
  | handle =>
    cases hmessages : s.messages with
    | nil =>
      unfold turn at hturn
      rw [hmessages] at hturn
      cases hturn
    | cons message messages =>
      have hall := h.handles hmessages fun _ => hkeeps
      rw [← hsame]
      unfold turn at hturn
      rw [hmessages] at hturn
      cases hturn
      exact hall
  | other room =>
    rw [hrecord, ← hsame]
    cases hturn
    exact h.quiet (h.token.room room s.messages s.presented)
  | engine a =>
    obtain ⟨engine, hengine, hturned⟩ := turn_engine hturn
    have hall := h.engine hengine fun _ => hkeeps
    rw [hturned] at hall
    rw [hrecord, ← hsame]
    exact hall
  | present =>
    rw [hrecord, ← hsame]
    unfold turn at hturn
    dsimp only at hturn
    split at hturn
    · next hpresenting =>
      obtain ⟨-, i, htask⟩ := presenting_iff.mp hpresenting
      have htoken : s.token = s.taken := hkeeps
      rw [htoken] at hturn
      cases hturn
      exact h.authenticates (h.token.room s.room s.messages true) htask nofun
    · cases hturn

/-- In every run whose moves mention everybody and carry the token that the client has, and in whose
cycles no other token comes before the attempt that needs it, the moves are complete. -/
theorem moves_complete (room : Room) (token : Token) {run : List Action}
    (h : EachStep State.step State.Keeps (State.new room token) run) :
    Always State.step record (fun records _ => MovesComplete token records)
      (State.new room token) run := by
  have hinit : Inv token [] (new room token) := ⟨.new room token, .nil token⟩
  exact always_of_eachStepOn (fun _ _ hinv => hinv.moves)
    (fun _ _ _ _ hinv hstep hkeeps => hinv.step hstep hkeeps) hinit
    ((eachStepOn_iff_eachStep [] _ run).mpr h)

/-- The connection is lost, and a resume is tried. -/
def resumes : List Action :=
  [.engine (.closeEvent 0 false), .engine (.reconnectionNeeded 0), .engine .work, .engine .work,
    .engine .work, .engine .work, .present]

theorem hasPrefix_me : "PA_".toList <+: "PA_0".toList := by decide

theorem hasPrefix_bob : "PA_".toList <+: "PA_1".toList := by decide

def bob : RemoteParticipant := ⟨⟨"PA_1", hasPrefix_bob⟩, "bob", .active, "", ""⟩

/-- A room with the remote participants. -/
def roomOf (remoteParticipants : AssocMap String RemoteParticipant) : Room :=
  ⟨⟨⟨⟨"PA_0", hasPrefix_me⟩, "me"⟩, remoteParticipants⟩, fun _ => []⟩

def bobsRoom : Room := roomOf (AList.insert "bob" bob ∅)

/-- A move to a room with Carol, where Bob has left. -/
def toCarol : Moved where
  token := "old"
  participant := none
  otherParticipants :=
    [⟨0, ⟨⟨"PA_1", hasPrefix_bob⟩, "bob", 3, "", ""⟩, [], []⟩,
      ⟨0, ⟨⟨"PA_2", by decide⟩, "carol", 2, "", ""⟩, [], []⟩]

theorem bobsRoom_lookup {key : String} {p : RemoteParticipant}
    (h : AList.lookup key bobsRoom.base.remoteParticipants = some p) : key = "bob" ∧ p = bob := by
  have hlookup : AList.lookup key (AList.insert "bob" bob (∅ : AssocMap String RemoteParticipant)) =
      some p := h
  rcases AssocMap.of_lookup_insert hlookup with hbob | ⟨-, hlookup⟩
  · exact hbob
  · cases hlookup

theorem toCarol_consistent : Consistent bobsRoom toCarol.otherParticipants where
  keyed key p hp := by
    obtain ⟨hkey, hbob⟩ := bobsRoom_lookup hp
    rw [hkey, hbob]
    rfl
  remote := by decide
  sids := by decide
  identities := by decide
  known pi hpi key p hp := by
    obtain ⟨hkey, hbob⟩ := bobsRoom_lookup hp
    rw [hkey, hbob]
    revert pi
    decide

theorem moves_complete_to_carol :
    Always State.step record (fun records _ => MovesComplete "old" records)
      (State.new bobsRoom "old") (.receive (.roomMoved toCarol) :: .handle :: resumes) := by
  have hmentions : MentionsAll bobsRoom toCarol.otherParticipants := by
    intro key p hp
    rw [(bobsRoom_lookup hp).1]
    decide
  apply moves_complete
  refine .cons rfl rfl (.cons rfl ?_ (.cons rfl trivial (.cons rfl trivial (.cons rfl trivial
    (.cons rfl trivial (.cons rfl trivial (.cons rfl trivial (.cons rfl rfl trivial))))))))
  intro moved hmoved
  cases hmoved
  exact ⟨toCarol_consistent, hmentions⟩

/-- A move to a room in which nobody is. -/
def toNobody : Moved := ⟨"new", none, []⟩

/-- Bob is in the new room, and a resume presents the token of the old one. -/
theorem move_leaves_old_room :
    (¬ Always State.step record (fun records _ => MovesComplete "old" records)
      (State.new bobsRoom "old") [.receive (.roomMoved toNobody), .handle]) ∧
    ¬ Always State.step record (fun records _ => MovesComplete "old" records)
      (State.new (roomOf ∅) "old")
      (.receive (.roomMoved toNobody) :: .handle :: resumes) := by
  constructor
  · intro h
    have hmoves := h _ [] _ (append_nil _).symm rfl
    have hcomplete := hmoves.complete bobsRoom toNobody (bobsRoom.handleRoomMoved toNobody).1
      (bobsRoom.handleRoomMoved toNobody).2 (mem_cons_of_mem _ mem_cons_self)
    obtain ⟨pi, hpi, -⟩ := (hcomplete.others bob.identity bob.sid).mp
      ⟨"bob", bob, AList.lookup_insert _, rfl, rfl⟩
    exact absurd hpi not_mem_nil
  · intro h
    have hmoves := h _ [] _ (append_nil _).symm rfl
    have hbad := hmoves.authentic [.received (.roomMoved toNobody),
      .moved (roomOf ∅) toNobody ((roomOf ∅).handleRoomMoved toNobody).1
        ((roomOf ∅).handleRoomMoved toNobody).2, .began] "old" [] rfl
    revert hbad
    decide

end LiveKit.RoomMove
