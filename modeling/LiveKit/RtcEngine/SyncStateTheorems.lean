import LiveKit.RtcEngine.SyncState

/-!
# Where a resume gets stuck

The reconnect task waits for the room, the room for the manager, the manager for a place in the
channel of output events, the forward task for the lock that the reconnect task holds. The circle is
closed when the channel is full and the forward task has taken one event more. The manager may also
be kept from answering by its own shutdown, when the task of a track that it waits for finds no
place for its unpublish request.
-/

namespace LiveKit.RtcEngine.SyncState

open State TransitionSystem DataTrack.Local

/-- The room waits: for a place in the queue of the manager, or for its answer. -/
def SendSyncState.Waits (dataTracks : DataTrack.Local.State) : SendSyncState → Prop
  | .querying => dataTracks.mode ≠ .ended ∧ EVENT_BUFFER_COUNT ≤ dataTracks.queue.length
  | .waiting query => ¬ dataTracks.Answered query
  | .preparing | .answered => False

/-- The reconnect task waits for a room that waits. -/
def ReconnectTask.Waits (dataTracks : DataTrack.Local.State) : ReconnectTask → Prop
  | .signalResumed room => room.Waits dataTracks
  | .idle | .restarting | .settling | .ended => False

/-- The forward task waits for an event or for the lock, or has ended. -/
def ForwardTask.Waits (eventOut : List OutputEvent) : ForwardTask → Prop
  | .selecting => eventOut = []
  | .acquiring _ | .ended => True
  | .handling _ => False

instance (dataTracks : DataTrack.Local.State) :
    (room : SendSyncState) → Decidable (room.Waits dataTracks)
  | .querying => inferInstanceAs (Decidable (_ ∧ _))
  | .waiting _ => inferInstanceAs (Decidable (¬ _))
  | .preparing | .answered => isFalse id

instance (dataTracks : DataTrack.Local.State) :
    (task : ReconnectTask) → Decidable (task.Waits dataTracks)
  | .signalResumed room => inferInstanceAs (Decidable (room.Waits dataTracks))
  | .idle | .restarting | .settling | .ended => isFalse id

instance (eventOut : List OutputEvent) : (task : ForwardTask) → Decidable (task.Waits eventOut)
  | .selecting => inferInstanceAs (Decidable (_ = _))
  | .acquiring _ | .ended => isTrue trivial
  | .handling _ => isFalse id

namespace State

/-- The manager waits for a place in the channel of output events. -/
def SendWaits (s : State) : Prop :=
  s.sending ≠ [] ∧ s.forwardTask ≠ .ended ∧ EVENT_BUFFER_COUNT ≤ s.eventOut.length

/-- The manager waits in its shutdown for the task of a track, which finds no place for its
unpublish request. -/
def ShutdownWaits (s : State) : Prop :=
  s.sending = [] ∧ EVENT_BUFFER_COUNT ≤ s.dataTracks.queue.length ∧
    ∃ track ∈ s.dataTracks.mode.awaited, ∃ t ∈ AList.lookup track s.dataTracks.tracks,
      t.phase = .unpublishing

/-- The circle is closed: the reconnect task, the room, the manager and the forward task all
wait. -/
structure Wedged (s : State) : Prop where
  room : s.reconnectTask.Waits s.dataTracks
  manager : s.SendWaits ∨ s.ShutdownWaits
  forward : s.forwardTask.Waits s.eventOut

/-- A resume that has not ended can go on: one of the parties has a step. -/
def CanGoOn (s : State) : Prop := s.Resuming → ∃ a, s.Party a ∧ Enabled State.step s a

instance (s : State) : Decidable s.SendWaits := inferInstanceAs (Decidable (_ ∧ _))

instance (s : State) : Decidable s.ShutdownWaits := inferInstanceAs (Decidable (_ ∧ _))

instance (s : State) : Decidable s.Wedged :=
  decidable_of_iff (s.reconnectTask.Waits s.dataTracks ∧ (s.SendWaits ∨ s.ShutdownWaits) ∧
    s.forwardTask.Waits s.eventOut)
    ⟨fun h => ⟨h.1, h.2.1, h.2.2⟩, fun h => ⟨h.room, h.manager, h.forward⟩⟩

/-! ## What holds of every reachable state -/

structure Inv (s : State) : Prop where
  halting : s.dataTracks.Halting
  asked : ∀ query, s.reconnectTask = .signalResumed (.waiting query) → s.dataTracks.Asked query
  /-- A manager that waits for a task has nothing to send. -/
  awaiting : s.dataTracks.mode.awaited ≠ [] → s.sending = []

theorem Inv.new (provider : Option DataTrack.EncryptionProvider) : (new provider).Inv where
  halting := DataTrack.Local.State.new_halting provider
  asked query h := by cases h
  awaiting h := rfl

variable {dataTracks dataTracks' : DataTrack.Local.State} {s' : State} {track : TrackId}
  {todo : List (DataTrack.Handle × DataTrack.Local.Descriptor)}

/-- The manager sends nothing in a turn after which it waits for a task. -/
theorem sent_of_awaited {turn : Turn} (hstep : dataTracks.managerStep turn = some dataTracks')
    (h : dataTracks'.mode.awaited ≠ []) :
    sent dataTracks dataTracks' = [] := by
  cases DataTrack.Local.State.managerTurn hstep with
  | event event rest hrunning hqueue _ hturn =>
    -- no event takes the manager to a place where it waits for a task
    exact absurd (DataTrack.Local.State.eventTurn_mode (by exact hrunning) hturn).1 h
  | stopActive =>
    -- the one turn that does tells the track, and puts out nothing
    exact List.drop_length
  | _ => exact absurd rfl h

variable {s : State}

/-- The data tracks and the manager are left alone, and the room has not come to wait. -/
theorem Inv.frame {s' : State} (h : Inv s) (hdata : s'.dataTracks = s.dataTracks)
    (hsending : s'.sending = s.sending)
    (htask : ∀ query, s'.reconnectTask = .signalResumed (.waiting query) →
      s.reconnectTask = .signalResumed (.waiting query)) : Inv s' where
  halting := by
    rw [hdata]
    exact h.halting
  asked query hquery := by
    rw [hdata]
    exact h.asked query (htask query hquery)
  awaiting hawaited := by
    rw [hdata] at hawaited
    rw [hsending]
    exact h.awaiting hawaited

/-- Somebody else than the manager has a step in the data tracks. -/
theorem Inv.other {s' : State} {a : DataTrack.Local.Action} (h : Inv s)
    (hstep : s.dataTracks.step a = some s'.dataTracks) (ha : a.isManager = false)
    (hsending : s'.sending = s.sending)
    (htask : ∀ query, s'.reconnectTask = .signalResumed (.waiting query) →
      s.dataTracks.Asked query ∨ s'.dataTracks.Asked query) : Inv s' where
  halting := DataTrack.Local.State.step_halting h.halting hstep
  asked query hquery := by
    rcases htask query hquery with hasked | hasked
    · exact DataTrack.Local.State.asked_step hstep hasked
    · exact hasked
  awaiting hawaited := by
    rw [(DataTrack.Local.State.step_other hstep ha).mode] at hawaited
    rw [hsending]
    exact h.awaiting hawaited

theorem Inv.step {a : Action} (h : Inv s) (hstep : s.step a = some s') : Inv s' := by
  unfold State.step at hstep
  cases a with
  | dataTracks a =>
    simp only at hstep
    split at hstep
    · next hpermits =>
      obtain ⟨dataTracks, hdata, rfl⟩ := Option.map_eq_some_iff.mp hstep
      have ha : a.isManager = false := by
        cases a with
        | manager turn => exact hpermits.elim
        | _ => rfl
      exact h.other hdata ha rfl fun query hquery => .inl (h.asked query hquery)
    · cases hstep
  | manager turn =>
    simp only at hstep
    split at hstep
    · next hsending =>
      obtain ⟨dataTracks, hdata, rfl⟩ := Option.map_eq_some_iff.mp hstep
      refine ⟨DataTrack.Local.State.step_halting h.halting hdata, ?_, sent_of_awaited hdata⟩
      intro query hquery
      exact DataTrack.Local.State.asked_step hdata (h.asked query hquery)
    · cases hstep
  | managerSend =>
    simp only at hstep
    split at hstep
    · cases hstep
    · next event rest hsending =>
      have hnone : ∀ s' : State, s'.dataTracks = s.dataTracks →
          s'.reconnectTask = s.reconnectTask → Inv s' := by
        intro s' hdata htask
        refine ⟨by rw [hdata]; exact h.halting, ?_, ?_⟩
        · intro query hquery
          rw [htask] at hquery
          rw [hdata]
          exact h.asked query hquery
        · intro hawaited
          rw [hdata] at hawaited
          rw [h.awaiting hawaited] at hsending
          cases hsending
      split_ifs at hstep
      · exact Option.some.inj hstep ▸ hnone _ rfl rfl
      · exact Option.some.inj hstep ▸ hnone _ rfl rfl
  | takeEvent | handled | streamEnded =>
    simp only at hstep
    split at hstep
    · cases hstep
      exact h.frame rfl rfl fun _ hquery => hquery
    · cases hstep
  | acquire closed =>
    simp only at hstep
    split at hstep
    · split at hstep
      · cases hstep
        exact h.frame rfl rfl fun _ hquery => hquery
      · cases hstep
    · cases hstep
  | closeForward =>
    simp only at hstep
    split at hstep
    · obtain ⟨dataTracks, hdata, rfl⟩ := Option.map_eq_some_iff.mp hstep
      exact h.other hdata rfl rfl fun query hquery => .inl (h.asked query hquery)
    · cases hstep
  | resume =>
    simp only at hstep
    split at hstep
    · cases hstep
    · cases hstep
      exact h.frame rfl rfl (by simp)
    · cases hstep
  | returned ok =>
    simp only [returned] at hstep
    split at hstep
    · cases hstep
      exact h.frame rfl rfl (by cases ok <;> simp)
    · cases hstep
      exact h.frame rfl rfl (by simp)
    · cases hstep
  | prepare skip =>
    obtain ⟨-, rfl⟩ := of_guard hstep
    exact h.frame rfl rfl (by cases skip <;> simp [setRoom])
  | query =>
    simp only at hstep
    split at hstep
    · obtain ⟨dataTracks, hdata, rfl⟩ := Option.map_eq_some_iff.mp hstep
      -- the query has its place in the queue
      refine h.other (a := .query) hdata rfl rfl ?_
      intro query hquery
      cases hquery
      exact .inr (DataTrack.Local.State.asked_query hdata)
    · cases hstep
  | received =>
    simp only at hstep
    split at hstep
    · split at hstep
      · cases hstep
        exact h.frame rfl rfl (by simp [setRoom])
      · cases hstep
    · cases hstep
  | proceed | release =>
    obtain ⟨-, rfl⟩ := of_guard hstep
    exact h.frame rfl rfl (by simp)

/-! ## Who can go on -/

/-- A turn of the manager is a step of the parties, when it has nothing to send. -/
theorem goesOn_of_turn (hsending : s.sending = [])
    (hdata : s.dataTracks.managerStep Turn.zero = some dataTracks') :
    ∃ a, s.Party a ∧ Enabled step s a := by
  refine ⟨.manager Turn.zero, trivial, ?_⟩
  unfold Enabled step
  simp only
  rw [if_pos hsending, show s.dataTracks.step (.manager Turn.zero) = some dataTracks' from hdata]
  exact ⟨_, rfl⟩

/-- While the shutdown waits for a task, the task or the manager goes on. -/
theorem awaiting_goesOn (h : Inv s) (hsending : s.sending = [])
    (hmode : s.dataTracks.mode = .awaiting track todo) (hshutdown : ¬ s.ShutdownWaits) :
    ∃ a, s.Party a ∧ Enabled step s a := by
  have hended : s.dataTracks.mode ≠ .ended := by simp [hmode]
  -- the task that the shutdown waits for goes on, up to its unpublish request
  obtain ⟨t, ht, hstate⟩ := h.halting.awaited track todo hmode
  have htask : ∀ move, s.Permits (.task track move) →
      Enabled DataTrack.Local.State.step s.dataTracks (.task track move) →
      ∃ a, s.Party a ∧ Enabled step s a := by
    rintro move hpermits ⟨dataTracks', hdata⟩
    refine ⟨.dataTracks (.task track move), ⟨todo, hmode⟩, ?_⟩
    unfold Enabled step
    simp only
    rw [if_pos hpermits, hdata]
    exact ⟨_, rfl⟩
  cases hphase : t.phase with
  | spawned =>
    apply htask .start trivial
    unfold Enabled
    simp only [DataTrack.Local.State.step, DataTrack.Local.State.taskStep, ht, hphase]
    exact ⟨_, rfl⟩
  | running seen =>
    have hunpublished : t.state = .unpublished := by
      rcases hstate with hstate | hc
      · exact hstate
      · rw [hphase] at hc
        cases hc
    have hchanged := h.halting.attended.changed track t seen ht hphase hunpublished
    apply htask .observe trivial
    unfold Enabled
    simp only [DataTrack.Local.State.step, DataTrack.Local.State.taskStep, ht, hphase]
    rw [if_pos hchanged]
    exact ⟨_, rfl⟩
  | unpublishing =>
    -- a full queue is the case that is left out
    have hroom : s.dataTracks.queue.length < EVENT_BUFFER_COUNT := by
      by_contra hfull
      apply hshutdown
      refine ⟨hsending, by omega, track, ?_, t, ht, hphase⟩
      rw [hmode]
      exact List.mem_singleton_self track
    apply htask .unpublish trivial
    unfold Enabled
    simp only [DataTrack.Local.State.step, DataTrack.Local.State.taskStep, ht, hphase]
    rw [if_neg hended, DataTrack.Local.State.enqueue, if_pos ⟨hended, hroom⟩]
    exact ⟨_, rfl⟩
  | ended =>
    apply goesOn_of_turn hsending
    unfold DataTrack.Local.State.managerStep
    rw [hmode]
    simp only [ht]
    rw [if_pos hphase]

/-- A manager that has nothing to send and events to take, or that is in the middle of something,
has a turn, unless its shutdown waits for a task. -/
theorem manager_goesOn (h : Inv s) (hsending : s.sending = []) (hended : s.dataTracks.mode ≠ .ended)
    (hqueue : s.dataTracks.queue ≠ []) (hshutdown : ¬ s.ShutdownWaits) :
    ∃ a, s.Party a ∧ Enabled step s a := by
  have hturn : ∀ dataTracks', s.dataTracks.managerStep Turn.zero = some dataTracks' →
      ∃ a, s.Party a ∧ Enabled step s a := fun _ => goesOn_of_turn hsending
  cases hmode : s.dataTracks.mode with
  | running =>
    cases hevents : s.dataTracks.queue with
    | nil => exact absurd hevents hqueue
    | cons event rest =>
      exact hturn _ (DataTrack.Local.State.step_event hmode hevents)
  | creating | responding | requesting =>
    apply hturn
    unfold DataTrack.Local.State.managerStep
    rw [hmode]
  | republishing todo =>
    rcases todo with _ | ⟨⟨handle, resultTx | track⟩, todo⟩
    all_goals
      apply hturn
      unfold DataTrack.Local.State.managerStep
      rw [hmode]
  | stopping todo =>
    obtain ⟨dataTracks', hdata⟩ := DataTrack.Local.State.manager_enabled hmode
    exact hturn dataTracks' hdata
  | awaiting track todo => exact awaiting_goesOn h hsending hmode hshutdown
  | ended => exact absurd hmode hended

/-- A query that waits for its answer has a place in the queue. -/
theorem queue_of_waiting {query : QueryId} (h : Inv s)
    (htask : s.reconnectTask = .signalResumed (.waiting query))
    (hwaits : ¬ s.dataTracks.Answered query) :
    s.dataTracks.mode ≠ .ended ∧ s.dataTracks.queue ≠ [] := by
  rcases h.asked query htask with hanswered | ⟨hended, hmem⟩
  · exact absurd hanswered hwaits
  · exact ⟨hended, List.ne_nil_of_mem hmem⟩

/-- Where the room waits, the manager is there and has an event to take. -/
theorem queue_of_waits (h : Inv s) (hroom : s.reconnectTask.Waits s.dataTracks) :
    s.dataTracks.mode ≠ .ended ∧ s.dataTracks.queue ≠ [] := by
  cases htask : s.reconnectTask with
  | signalResumed room =>
    rw [htask] at hroom
    cases room with
    | querying =>
      obtain ⟨hended, hfull⟩ := hroom
      refine ⟨hended, ?_⟩
      intro hnil
      rw [hnil] at hfull
      exact absurd hfull (by decide)
    | waiting query => exact queue_of_waiting h htask hroom
    | preparing | answered => exact hroom.elim
  | idle | restarting | settling | ended =>
    rw [htask] at hroom
    exact hroom.elim

/-- The reconnect task or the room can go on, unless the room waits. -/
theorem room_goesOn (hresuming : s.Resuming) (hroom : ¬ s.reconnectTask.Waits s.dataTracks) :
    ∃ a, s.Party a ∧ Enabled step s a := by
  cases htask : s.reconnectTask with
  | idle => exact absurd htask hresuming.1
  | ended => exact absurd htask hresuming.2
  | restarting | settling =>
    refine ⟨.returned true, trivial, ?_⟩
    unfold Enabled step returned
    simp only [htask]
    exact ⟨_, rfl⟩
  | signalResumed room =>
    rw [htask] at hroom
    cases room with
    | preparing =>
      refine ⟨.prepare false, trivial, ?_⟩
      unfold Enabled step
      simp only
      rw [if_pos htask]
      exact ⟨_, rfl⟩
    | answered =>
      refine ⟨.proceed, trivial, ?_⟩
      unfold Enabled step
      simp only
      rw [if_pos htask]
      exact ⟨_, rfl⟩
    | waiting query =>
      have hanswered : s.dataTracks.Answered query := not_not.mp hroom
      refine ⟨.received, trivial, ?_⟩
      unfold Enabled step
      simp only [htask]
      rw [if_pos hanswered]
      exact ⟨_, rfl⟩
    | querying =>
      obtain ⟨dataTracks', hdata⟩ : ∃ dataTracks', s.dataTracks.query = some dataTracks' := by
        unfold DataTrack.Local.State.query
        simp only
        split
        · exact ⟨_, rfl⟩
        · next hended =>
          have hfree : s.dataTracks.queue.length < EVENT_BUFFER_COUNT := by
            by_contra hfull
            exact hroom ⟨hended, by omega⟩
          unfold DataTrack.Local.State.enqueue
          rw [if_pos ⟨hended, hfree⟩]
          exact ⟨_, rfl⟩
      refine ⟨.query, trivial, ?_⟩
      unfold Enabled step
      simp only
      rw [if_pos htask, show s.dataTracks.step .query = some dataTracks' from hdata]
      exact ⟨_, rfl⟩

/-- The forward task can go on, unless it waits. -/
theorem forward_goesOn (hforward : ¬ s.forwardTask.Waits s.eventOut) :
    ∃ a, s.Party a ∧ Enabled step s a := by
  cases htask : s.forwardTask with
  | selecting =>
    rw [htask] at hforward
    cases hevents : s.eventOut with
    | nil => exact absurd hevents hforward
    | cons event rest =>
      refine ⟨.takeEvent, trivial, ?_⟩
      unfold Enabled step
      simp only [htask, hevents]
      exact ⟨_, rfl⟩
  | handling event =>
    refine ⟨.handled, trivial, ?_⟩
    unfold Enabled step
    simp only [htask]
    exact ⟨_, rfl⟩
  | acquiring | ended =>
    rw [htask] at hforward
    exact absurd trivial hforward

/-- A manager that has an event to send can go on, unless it waits for a place. -/
theorem send_goesOn (hsending : s.sending ≠ []) (hsend : ¬ s.SendWaits) :
    ∃ a, s.Party a ∧ Enabled step s a := by
  refine ⟨.managerSend, trivial, ?_⟩
  unfold Enabled step
  cases hevents : s.sending with
  | nil => exact absurd hevents hsending
  | cons event rest =>
    simp only
    by_cases hended : s.forwardTask = .ended
    · rw [if_pos hended]
      exact ⟨_, rfl⟩
    · have hfree : s.eventOut.length < EVENT_BUFFER_COUNT := by
        by_contra hfull
        exact hsend ⟨hsending, hended, by omega⟩
      rw [if_neg hended, if_pos ⟨hended, hfree⟩]
      exact ⟨_, rfl⟩

/-- A full queue takes no event. -/
theorem enqueue_of_full (event : DataTrack.Local.InputEvent)
    (hfull : EVENT_BUFFER_COUNT ≤ dataTracks.queue.length) : dataTracks.enqueue event = none := by
  unfold DataTrack.Local.State.enqueue
  rw [if_neg]
  rintro ⟨-, hlt⟩
  omega

/-- The task that the shutdown waits for has no step. -/
theorem ShutdownWaits.task_stuck (h : s.ShutdownWaits)
    (hmode : s.dataTracks.mode = .awaiting track todo) (move : TaskMove) :
    s.dataTracks.step (.task track move) = none := by
  obtain ⟨-, hfull, track', hawaited, t, ht, hphase⟩ := h
  rw [hmode] at hawaited
  rw [List.mem_singleton.mp hawaited] at ht
  have hlookup : AList.lookup track s.dataTracks.tracks = some t := ht
  have hended : s.dataTracks.mode ≠ .ended := by simp [hmode]
  show s.dataTracks.taskStep track move = none
  unfold DataTrack.Local.State.taskStep
  simp only [hlookup, hphase]
  cases move with
  | unpublish =>
    simp only
    rw [if_neg hended]
    exact enqueue_of_full _ hfull
  | _ => rfl

/-- Nor has the manager. -/
theorem ShutdownWaits.manager_stuck (h : s.ShutdownWaits) (turn : Turn) :
    s.dataTracks.step (.manager turn) = none := by
  obtain ⟨-, -, track, hawaited, t, ht, hphase⟩ := h
  show s.dataTracks.managerStep turn = none
  cases hmode : s.dataTracks.mode with
  | awaiting track' todo =>
    rw [hmode] at hawaited
    rw [List.mem_singleton.mp hawaited] at ht
    have hlookup : AList.lookup track' s.dataTracks.tracks = some t := ht
    unfold DataTrack.Local.State.managerStep
    simp only [hmode, hlookup]
    rw [if_neg (by simp [hphase])]
  | _ =>
    rw [hmode] at hawaited
    exact absurd hawaited List.not_mem_nil

/-- None of the parties has a step once the circle is closed. -/
theorem Wedged.stuck (h : s.Wedged) (hinv : Inv s) (a : Action) (ha : s.Party a) :
    s.step a = none := by
  -- the reconnect task waits for room in the input channel
  obtain ⟨room, htask, hroom⟩ : ∃ room, s.reconnectTask = .signalResumed room ∧
      room.Waits s.dataTracks := by
    have hwaits := h.room
    cases htask : s.reconnectTask with
    | signalResumed room =>
      rw [htask] at hwaits
      exact ⟨room, rfl, hwaits⟩
    | idle | restarting | settling | ended =>
      rw [htask] at hwaits
      exact hwaits.elim
  unfold step
  cases a with
  | dataTracks a =>
    cases a with
    | task track move =>
      obtain ⟨todo, hmode⟩ := ha
      -- the manager waits for this task, so it has no event to send
      have hidle : s.sending = [] := hinv.awaiting (by rw [hmode]; simp [Mode.awaited])
      rcases h.manager with hsend | hwaits
      · exact absurd hidle hsend.1
      · simp only
        rw [hwaits.task_stuck hmode]
        split <;> rfl
    | _ => exact ha.elim
  | manager turn =>
    simp only
    rcases h.manager with hsend | hwaits
    · rw [if_neg hsend.1]
    · rw [if_pos hwaits.1, hwaits.manager_stuck]
      rfl
  | managerSend =>
    simp only
    split
    · rfl
    · next event rest hevents =>
      -- the channel to the forwarding task is full
      rcases h.manager with ⟨-, hended, hfull⟩ | hwaits
      · have hnoroom : ¬ s.HasRoom := by
          intro hroom
          have hlt := hroom.2
          omega
        rw [if_neg hended, if_neg hnoroom]
      · rw [hwaits.1] at hevents
        cases hevents
  | takeEvent =>
    simp only
    split
    · next event rest hselecting hevents =>
      have hforward := h.forward
      rw [hselecting] at hforward
      have hnil : s.eventOut = [] := hforward
      rw [hevents] at hnil
      cases hnil
    · rfl
  | acquire closed =>
    simp only
    split
    · rw [if_neg (by simp [htask])]
    · rfl
  | handled =>
    simp only
    split
    · next event hhandling =>
      have hforward := h.forward
      rw [hhandling] at hforward
      exact hforward.elim
    · rfl
  | streamEnded =>
    simp only
    rw [if_neg]
    rintro ⟨-, -, hended, hidle, -⟩
    rcases h.manager with hsend | ⟨-, -, track, hawaited, -⟩
    · exact hsend.1 hidle
    · rw [hended] at hawaited
      exact List.not_mem_nil hawaited
  | returned ok =>
    show s.returned ok s.reconnectTask = none
    rw [htask]
    rfl
  | prepare skip =>
    simp only
    rw [if_neg]
    intro hpreparing
    rw [htask, ReconnectTask.signalResumed.injEq] at hpreparing
    rw [hpreparing] at hroom
    exact hroom
  | query =>
    simp only
    split
    · next hquerying =>
      rw [htask, ReconnectTask.signalResumed.injEq] at hquerying
      rw [hquerying] at hroom
      -- the query finds the input channel full
      obtain ⟨hended, hfull⟩ := hroom
      have hnone : s.dataTracks.step .query = none := by
        show s.dataTracks.query = none
        unfold DataTrack.Local.State.query
        simp only
        rw [if_neg hended]
        exact enqueue_of_full _ hfull
      rw [hnone]
      rfl
    · rfl
  | received =>
    simp only
    split
    · next query hwaiting =>
      rw [htask, ReconnectTask.signalResumed.injEq] at hwaiting
      rw [hwaiting] at hroom
      rw [if_neg hroom]
    · rfl
  | proceed =>
    simp only
    rw [if_neg]
    intro hanswered
    rw [htask, ReconnectTask.signalResumed.injEq] at hanswered
    rw [hanswered] at hroom
    exact hroom
  | closeForward | resume | release => exact ha.elim

/-- A closed circle is the one thing that keeps a resume from going on. -/
theorem canGoOn_iff (h : Inv s) : s.CanGoOn ↔ ¬ s.Wedged := by
  constructor
  · intro hgoes hwedged
    have hresuming : s.Resuming := by
      have hroom := hwedged.room
      constructor
      · intro hidle
        rw [hidle] at hroom
        exact hroom
      · intro hended
        rw [hended] at hroom
        exact hroom
    obtain ⟨a, ha, henabled⟩ := hgoes hresuming
    exact not_enabled_iff.mpr (hwedged.stuck h a ha) henabled
  · intro hnot hresuming
    by_cases hroom : s.reconnectTask.Waits s.dataTracks
    · by_cases hforward : s.forwardTask.Waits s.eventOut
      · have hmanager : ¬ (s.SendWaits ∨ s.ShutdownWaits) := fun hc => hnot ⟨hroom, hc, hforward⟩
        rw [not_or] at hmanager
        obtain ⟨hended, hqueue⟩ := queue_of_waits h hroom
        by_cases hsending : s.sending = []
        · exact manager_goesOn h hsending hended hqueue hmanager.2
        · exact send_goesOn hsending hmanager.1
      · exact forward_goesOn hforward
    · exact room_goesOn hresuming hroom

end State

/-! ## Room for what is on its way -/

/-- The next turn of the manager may send something to the SFU. -/
def maySend (dataTracks : DataTrack.Local.State) : Bool :=
  match dataTracks.mode with
  | .running => dataTracks.queue.head?.any fun event =>
      match event with
      | .publishRequest _ | .unpublishRequest _ => true
      | .sfuPublishResponse event => event.handle ∉ dataTracks.descriptors
      | _ => false
  | .requesting _ _ _ => true
  | _ => false

/-- The step may put an event into the queue of the manager. The request of the task that the
manager waits for does not count: with it the wait is over. -/
def mayEnqueue (dataTracks : DataTrack.Local.State) : DataTrack.Local.Action → Bool
  | .publish _ | .query | .sendInput _ => true
  | .forward request _ => (AList.lookup request dataTracks.forwards).any fun forward =>
      forward.phase = .cancelling
  | .task track .unpublish => track ∉ dataTracks.mode.awaited
  | _ => false

/-- The shutdown of the manager waits for a task that has not ended. -/
def awaitsTask (dataTracks : DataTrack.Local.State) : Bool :=
  dataTracks.mode.awaited.any dataTracks.isUnfinished

/-- The next turn of the manager makes it wait for a task that has not ended. -/
def mayAwait (dataTracks : DataTrack.Local.State) : Bool :=
  match dataTracks.mode with
  | .stopping ((_, .active track) :: _) => dataTracks.isUnfinished track
  | _ => false

variable {dataTracks dataTracks' : DataTrack.Local.State} {turn : Turn} {a : DataTrack.Local.Action}

/-- A turn of the manager sends one event at most. -/
theorem sent_of_turn (hstep : dataTracks.managerStep turn = some dataTracks') :
    (sent dataTracks dataTracks').length ≤ 1 ∧
      (maySend dataTracks = false → sent dataTracks dataTracks' = []) := by
  have hnone (h : dataTracks'.outputs = dataTracks.outputs) :
      (sent dataTracks dataTracks').length ≤ 1 ∧
        (maySend dataTracks = false → sent dataTracks dataTracks' = []) := by
    unfold sent
    rw [h, List.drop_length]
    exact ⟨Nat.zero_le 1, fun _ => rfl⟩
  have hone {e : OutputEvent} (h : dataTracks'.outputs = dataTracks.outputs ++ [e])
      (hmay : maySend dataTracks = true) : (sent dataTracks dataTracks').length ≤ 1 ∧
        (maySend dataTracks = false → sent dataTracks dataTracks' = []) := by
    unfold sent
    rw [h, List.drop_left]
    exact ⟨le_refl 1, fun hbad => absurd hmay (by rw [hbad]; exact Bool.false_ne_true)⟩
  cases DataTrack.Local.State.managerTurn hstep with
  | event event rest hmode hqueue _ hturn =>
    have hmay : maySend dataTracks = [event].head?.any fun event =>
        match event with
        | .publishRequest _ | .unpublishRequest _ => true
        | .sfuPublishResponse event => event.handle ∉ dataTracks.descriptors
        | _ => false := by
      unfold maySend
      rw [hmode, hqueue]
      rfl
    cases hturn with
    | pend | unpublish => exact hone rfl hmay
    | unknown event hd =>
      refine hone rfl ?_
      rw [hmay]
      exact decide_eq_true (AList.lookup_eq_none.mp hd)
    | _ => exact hnone rfl
  | request handle track todo hmode outputs' houtputs =>
    rcases houtputs with rfl | ⟨t, -, rfl⟩
    · exact hnone rfl
    · refine hone rfl ?_
      unfold maySend
      rw [hmode]
  | _ => exact hnone rfl

/-- Of the other steps only a frame can send something, if there is a place for it. -/
theorem sent_of_other (hstep : dataTracks.step a = some dataTracks') (ha : a.isManager = false) :
    sent dataTracks dataTracks' = [] ∨ (sent dataTracks dataTracks').length = 1 ∧
      ∃ track st now, a = .task track (.frame st now true) := by
  have hnone (h : dataTracks'.outputs = dataTracks.outputs) :
      sent dataTracks dataTracks' = [] := by
    unfold sent
    rw [h, List.drop_length]
  rcases DataTrack.Local.State.step_cases hstep with ⟨-, happ⟩ | ⟨turn, rfl, -⟩ |
    ⟨request, move, forward, -, -, hturn⟩ | ⟨track, move, t, rfl, -, hturn⟩
  · cases happ with
    | _ => exact .inl (hnone rfl)
  · cases ha
  · cases hturn with
    | _ => exact .inl (hnone rfl)
  · cases hturn with
    | process seen frame frames st now hasRoom =>
      rcases DataTrack.Local.State.sent_cases hasRoom (t.pipeline.processFrame st now frame).1 with
        ⟨-, hsent⟩ | ⟨packets, -, rfl, hsent⟩
      · refine .inl (hnone ?_)
        show dataTracks.outputs ++ _ = dataTracks.outputs
        rw [hsent, List.append_nil]
      · refine .inr ⟨?_, track, st, now, rfl⟩
        unfold sent
        simp only [hsent, List.drop_left, List.length_singleton]
    | _ => exact .inl (hnone rfl)

/-- A task that the manager waits for after a step of another party was waited for before, and the
queue has grown by one event at most. -/
theorem awaitsTask_of_other (hinv : dataTracks.Halting)
    (hstep : dataTracks.step a = some dataTracks') (ha : a.isManager = false)
    (hawaits : awaitsTask dataTracks' = true) : awaitsTask dataTracks = true ∧
      (dataTracks'.queue.length ≤ dataTracks.queue.length ∨
        mayEnqueue dataTracks a = true ∧
          dataTracks'.queue.length = dataTracks.queue.length + 1) := by
  have hmode := (DataTrack.Local.State.step_other hstep ha).mode
  obtain ⟨track, hmem, hunfinished'⟩ := List.any_eq_true.mp hawaits
  rw [hmode] at hmem
  obtain ⟨todo, hawaiting⟩ : ∃ todo, dataTracks.mode = .awaiting track todo := by
    cases hcase : dataTracks.mode with
    | awaiting other todo =>
      rw [hcase] at hmem
      rw [List.mem_singleton.mp hmem]
      exact ⟨todo, rfl⟩
    | _ =>
      rw [hcase] at hmem
      exact absurd hmem List.not_mem_nil
  obtain ⟨t, ht, -⟩ := hinv.awaited track todo hawaiting
  obtain ⟨t', ht', hchange⟩ :=
    DataTrack.Local.State.track_kept hinv.coherent.toConsistent hstep ht
  have hphase' := (DataTrack.Local.State.isUnfinished_iff ht').mp hunfinished'
  have hphase : t.phase ≠ .ended := fun hended =>
    hphase' (DataTrack.Local.State.ended_kept hstep ht ht' hchange hended)
  refine ⟨List.any_eq_true.mpr ⟨track, hmem,
    (DataTrack.Local.State.isUnfinished_iff ht).mpr hphase⟩, ?_⟩
  rcases DataTrack.Local.State.step_cases hstep with ⟨-, happ⟩ | ⟨turn, rfl, -⟩ |
    ⟨request, move, forward, rfl, hf, hturn⟩ | ⟨other, move, u, rfl, hu, hturn⟩
  · cases happ with
    | publish | query | send => exact .inr ⟨rfl, List.length_append⟩
    | _ => exact .inl le_rfl
  · cases ha
  · cases hturn with
    | notify hcancelling =>
      refine .inr ⟨?_, List.length_append⟩
      show Option.any _ (AList.lookup request dataTracks.forwards) = true
      rw [hf]
      exact decide_eq_true hcancelling
    | _ => exact .inl le_rfl
  · cases hturn with
    | unpublish hunpublishing =>
      refine .inr ⟨?_, List.length_append⟩
      apply decide_eq_true
      intro hawaited
      -- the task that is waited for would have ended with this
      rw [hawaiting] at hawaited
      rw [List.mem_singleton.mp hawaited] at ht'
      rw [AList.lookup_insert, Option.some.injEq] at ht'
      exact hphase' (by rw [← ht'])
    | _ => exact .inl le_rfl

/-- The manager begins to wait for a task only where it may, and leaves the queue as it is. -/
theorem awaitsTask_of_turn (hinv : dataTracks.Halting)
    (hstep : dataTracks.managerStep turn = some dataTracks')
    (hawaits : awaitsTask dataTracks' = true) :
    mayAwait dataTracks = true ∧ dataTracks'.queue = dataTracks.queue := by
  have hnone (h : dataTracks'.mode.awaited = []) :
      mayAwait dataTracks = true ∧ dataTracks'.queue = dataTracks.queue := by
    unfold awaitsTask at hawaits
    rw [h] at hawaits
    cases hawaits
  cases DataTrack.Local.State.managerTurn hstep with
  | event event rest hmode _ _ hturn =>
    exact hnone (DataTrack.Local.State.eventTurn_mode (by exact hmode) hturn).1
  | stopActive handle track todo hmode tracks' htracks hsent =>
    have hreg : dataTracks.Registered handle (.active track) := by
      right
      rw [hmode]
      exact List.mem_cons_self
    obtain ⟨t, ht, -⟩ := hinv.coherent.active_track handle track hreg
    refine ⟨?_, rfl⟩
    obtain ⟨other, hmem, hunfinished⟩ := List.any_eq_true.mp hawaits
    rw [List.mem_singleton.mp hmem] at hunfinished
    have ht' : AList.lookup track tracks' = some (t.send .unpublished) := by
      rw [hsent t ht, AList.lookup_insert]
    have hphase := (DataTrack.Local.State.isUnfinished_iff ht').mp hunfinished
    rw [TrackState.send_phase] at hphase
    unfold mayAwait
    rw [hmode]
    exact (DataTrack.Local.State.isUnfinished_iff ht).mpr hphase
  | _ => exact hnone rfl

/-- The room asks for the tracks: it is before the queue of the manager, or before its answer. -/
def ReconnectTask.asks : ReconnectTask → Bool
  | .signalResumed .querying | .signalResumed (.waiting _) => true
  | _ => false

/-- The event that the forward task has before the lock. -/
def ForwardTask.held : ForwardTask → ℕ
  | .acquiring _ => 1
  | _ => 0

/-- The room begins to ask. -/
def Action.asks : Action → Bool
  | .prepare skip => !skip
  | _ => false

namespace State

variable {s : State}

/-- How many output events are on their way to the session. -/
def inFlight (s : State) : ℕ := s.eventOut.length + s.sending.length + s.forwardTask.held

/-- The step may put one more on its way. -/
def maySend (s : State) : Action → Bool
  | .manager _ => SyncState.maySend s.dataTracks
  | .dataTracks (.task _ (.frame _ _ hasRoom)) => hasRoom
  | _ => false

def mayEnqueue (s : State) : Action → Bool
  | .dataTracks a => SyncState.mayEnqueue s.dataTracks a
  | .query | .closeForward => true
  | _ => false

def mayAwait (s : State) : Action → Bool
  | .manager _ => SyncState.mayAwait s.dataTracks
  | _ => false

/-- What is on its way has room. There is room for the events of a full channel, the one that the
forward task has, but not for the one that the manager then waits with; and in the queue for the
request of a task that the shutdown of the manager waits for. -/
structure LeavesRoom (s : State) (a : Action) : Prop where
  /-- The room does not begin to ask where there is no room any more. -/
  begins : a.asks = true → s.inFlight ≤ EVENT_BUFFER_COUNT + 1 ∧
    (awaitsTask s.dataTracks = true → s.dataTracks.queue.length < EVENT_BUFFER_COUNT)
  /-- While it asks there is room for what is sent. -/
  sends : s.reconnectTask.asks = true → s.maySend a = true → s.inFlight ≤ EVENT_BUFFER_COUNT
  /-- The shutdown does not begin to wait for a task when the queue is full. -/
  awaits : s.reconnectTask.asks = true → s.mayAwait a = true →
    s.dataTracks.queue.length < EVENT_BUFFER_COUNT
  /-- Nobody else takes the last place from the task that the shutdown waits for. -/
  enqueues : s.reconnectTask.asks = true → s.mayEnqueue a = true → awaitsTask s.dataTracks = true →
    s.dataTracks.queue.length + 1 < EVENT_BUFFER_COUNT

instance (s : State) (a : Action) : Decidable (s.LeavesRoom a) :=
  decidable_of_iff
    ((a.asks = true → s.inFlight ≤ EVENT_BUFFER_COUNT + 1 ∧
      (awaitsTask s.dataTracks = true → s.dataTracks.queue.length < EVENT_BUFFER_COUNT)) ∧
      (s.reconnectTask.asks = true → s.maySend a = true → s.inFlight ≤ EVENT_BUFFER_COUNT) ∧
      (s.reconnectTask.asks = true → s.mayAwait a = true →
        s.dataTracks.queue.length < EVENT_BUFFER_COUNT) ∧
      (s.reconnectTask.asks = true → s.mayEnqueue a = true → awaitsTask s.dataTracks = true →
        s.dataTracks.queue.length + 1 < EVENT_BUFFER_COUNT))
    ⟨fun h => ⟨h.1, h.2.1, h.2.2.1, h.2.2.2⟩,
      fun h => ⟨h.begins, h.sends, h.awaits, h.enqueues⟩⟩

/-- While the room asks there is room for what is on its way. -/
structure Roomy (s : State) : Prop where
  flight : s.reconnectTask.asks = true → s.inFlight ≤ EVENT_BUFFER_COUNT + 1
  queue : s.reconnectTask.asks = true → awaitsTask s.dataTracks = true →
    s.dataTracks.queue.length < EVENT_BUFFER_COUNT

/-- With room the circle is open: somebody in it has a step. -/
theorem Roomy.not_wedged (h : s.Roomy) : ¬ s.Wedged := by
  intro ⟨hroom, hmanager, hforward⟩
  have hasks : s.reconnectTask.asks = true := by
    cases htask : s.reconnectTask with
    | signalResumed room =>
      rw [htask] at hroom
      cases room with
      | querying | waiting => rfl
      | preparing | answered => exact hroom.elim
    | idle | restarting | settling | ended =>
      rw [htask] at hroom
      exact hroom.elim
  rcases hmanager with ⟨hsending, hended, hfull⟩ | ⟨-, hfull, track, hmem, t, ht, hphase⟩
  · -- all places are taken, and the manager and the forward task have one more event each
    have hheld : s.forwardTask.held = 1 := by
      cases htask : s.forwardTask with
      | acquiring => rfl
      | selecting =>
        rw [htask] at hforward
        have hnil : s.eventOut = [] := hforward
        rw [hnil] at hfull
        exact absurd hfull (by decide)
      | handling =>
        rw [htask] at hforward
        exact hforward.elim
      | ended => exact absurd htask hended
    have hflight := h.flight hasks
    have hone := List.length_pos_iff.mpr hsending
    unfold inFlight at hflight
    omega
  · have hlookup : AList.lookup track s.dataTracks.tracks = some t := ht
    have hunfinished : s.dataTracks.isUnfinished track = true :=
      (DataTrack.Local.State.isUnfinished_iff hlookup).mpr (by rw [hphase]; exact nofun)
    have hlt := h.queue hasks (List.any_eq_true.mpr ⟨track, hmem, hunfinished⟩)
    omega

variable {s' : State} {a : Action}

/-- A step that leaves the data tracks alone, after which no more is on its way. -/
theorem Roomy.frame (h : s.Roomy) (hdata : s'.dataTracks = s.dataTracks)
    (hasks : s'.reconnectTask.asks = true → s.reconnectTask.asks = true)
    (hflight : s'.inFlight ≤ s.inFlight) : s'.Roomy where
  flight hasked := hflight.trans (h.flight (hasks hasked))
  queue hasked hawaits := by
    rw [hdata] at hawaits ⊢
    exact h.queue (hasks hasked) hawaits

/-- Where nobody asks there is nothing to show. -/
theorem Roomy.of_not_asks (h : s.reconnectTask.asks = false) : s.Roomy where
  flight hasked := absurd hasked (by rw [h]; exact Bool.false_ne_true)
  queue hasked := absurd hasked (by rw [h]; exact Bool.false_ne_true)

/-- A step of another party than the manager in the data tracks. -/
theorem Roomy.other {b : DataTrack.Local.Action} (h : s.Roomy) (hinv : Inv s)
    (hroom : s.LeavesRoom a) (hstep : s.dataTracks.step b = some s'.dataTracks)
    (hb : b.isManager = false) (hasks : s'.reconnectTask.asks = true → s.reconnectTask.asks = true)
    (hmay : SyncState.mayEnqueue s.dataTracks b = true → s.mayEnqueue a = true)
    (hflight : s.reconnectTask.asks = true → s'.inFlight ≤ EVENT_BUFFER_COUNT + 1) : s'.Roomy where
  flight hasked := hflight (hasks hasked)
  queue hasked hawaits := by
    obtain ⟨hbefore, hqueue⟩ := awaitsTask_of_other hinv.halting hstep hb hawaits
    rcases hqueue with hle | ⟨henqueue, hlength⟩
    · exact hle.trans_lt (h.queue (hasks hasked) hbefore)
    · have hplace := hroom.enqueues (hasks hasked) (hmay henqueue) hbefore
      omega

theorem Roomy.step (h : s.Roomy) (hinv : Inv s) (hroom : s.LeavesRoom a)
    (hstep : s.step a = some s') : s'.Roomy := by
  unfold State.step at hstep
  cases a with
  | dataTracks b =>
    simp only at hstep
    split at hstep
    · next hpermits =>
      obtain ⟨dataTracks, hdata, rfl⟩ := Option.map_eq_some_iff.mp hstep
      have hb : b.isManager = false := by
        cases b with
        | manager turn => exact hpermits.elim
        | _ => rfl
      refine h.other hinv hroom hdata hb id id ?_
      intro hasks
      have hlength : inFlight { s with
            dataTracks, eventOut := s.eventOut ++ sent s.dataTracks dataTracks }
          = s.inFlight + (sent s.dataTracks dataTracks).length := by
        simp only [inFlight, List.length_append]
        omega
      rw [hlength]
      rcases sent_of_other hdata hb with hnone | ⟨hone, track, st, now, rfl⟩
      · rw [hnone]
        exact h.flight hasks
      · rw [hone]
        exact Nat.succ_le_succ (hroom.sends hasks rfl)
    · cases hstep
  | manager turn =>
    simp only at hstep
    split at hstep
    · next hidle =>
      obtain ⟨dataTracks, hdata, rfl⟩ := Option.map_eq_some_iff.mp hstep
      obtain ⟨hone, hnone⟩ := sent_of_turn hdata
      have hlength : inFlight { s with dataTracks, sending := sent s.dataTracks dataTracks }
          = s.inFlight + (sent s.dataTracks dataTracks).length := by
        simp only [inFlight, hidle, List.length_nil]
        omega
      constructor
      · intro hasks
        rw [hlength]
        cases hmay : SyncState.maySend s.dataTracks with
        | true =>
          have hplace := hroom.sends hasks hmay
          omega
        | false =>
          rw [hnone hmay]
          exact h.flight hasks
      · intro hasks hawaits
        obtain ⟨hmay, hqueue⟩ := awaitsTask_of_turn hinv.halting hdata hawaits
        show dataTracks.queue.length < EVENT_BUFFER_COUNT
        rw [hqueue]
        exact hroom.awaits hasks hmay
    · cases hstep
  | managerSend =>
    simp only at hstep
    split at hstep
    · cases hstep
    · next event rest hsending =>
      split_ifs at hstep
      · cases hstep
        refine h.frame rfl id ?_
        simp only [inFlight, hsending, List.length_cons]
        omega
      · cases hstep
        refine h.frame rfl id ?_
        simp only [inFlight, hsending, List.length_cons, List.length_append, List.length_nil]
        omega
  | takeEvent =>
    simp only at hstep
    split at hstep
    · next event rest hselecting hevents =>
      cases hstep
      refine h.frame rfl id ?_
      simp only [inFlight, hevents, hselecting, List.length_cons, ForwardTask.held]
      omega
    · cases hstep
  | acquire closed =>
    simp only at hstep
    split at hstep
    · split at hstep
      · next hidle =>
        cases hstep
        exact .of_not_asks (by rw [hidle]; rfl)
      · cases hstep
    · cases hstep
  | handled =>
    simp only at hstep
    split at hstep
    · cases hstep
      exact h.frame rfl id (Nat.add_le_add_left (Nat.zero_le _) _)
    · cases hstep
  | streamEnded =>
    obtain ⟨-, rfl⟩ := of_guard hstep
    exact h.frame rfl id (Nat.add_le_add_left (Nat.zero_le _) _)
  | closeForward =>
    simp only at hstep
    split at hstep
    · obtain ⟨dataTracks, hdata, rfl⟩ := Option.map_eq_some_iff.mp hstep
      refine h.other hinv hroom hdata rfl id (fun _ => rfl) ?_
      intro hasks
      refine le_trans ?_ (h.flight hasks)
      simp only [inFlight, List.length_nil, ForwardTask.held]
      omega
    · cases hstep
  | resume =>
    simp only at hstep
    split at hstep
    · cases hstep
    · cases hstep
      exact .of_not_asks rfl
    · cases hstep
  | returned ok =>
    simp only [returned] at hstep
    split at hstep
    · cases hstep
      exact .of_not_asks (by cases ok <;> rfl)
    · cases hstep
      exact .of_not_asks rfl
    · cases hstep
  | prepare skip =>
    obtain ⟨-, rfl⟩ := of_guard hstep
    cases skip with
    | true => exact .of_not_asks rfl
    | false =>
      -- the room begins to ask
      obtain ⟨hflight, hqueue⟩ := hroom.begins rfl
      exact ⟨fun _ => hflight, fun _ => hqueue⟩
  | query =>
    simp only at hstep
    split at hstep
    · next hquerying =>
      obtain ⟨dataTracks, hdata, rfl⟩ := Option.map_eq_some_iff.mp hstep
      have hasks : s.reconnectTask.asks = true := by
        rw [hquerying]
        rfl
      exact h.other hinv hroom hdata rfl (fun _ => hasks) (fun _ => rfl) h.flight
    · cases hstep
  | received =>
    simp only at hstep
    split at hstep
    · split at hstep
      · cases hstep
        exact .of_not_asks rfl
      · cases hstep
    · cases hstep
  | proceed | release =>
    obtain ⟨-, rfl⟩ := of_guard hstep
    exact .of_not_asks rfl

/-! ## Over whole runs -/

/-- In every state of a run a resume that has not ended can go on, if every step of the run leaves
room for what is on its way. -/
theorem resume_goesOn (provider : Option DataTrack.EncryptionProvider) (run : List Action)
    (hroom : EachStep State.step (fun s a _ => s.LeavesRoom a) (new provider) run) :
    Throughout State.step CanGoOn (new provider) run := by
  refine throughout_of_eachStep (I := fun s => Inv s ∧ s.Roomy) ?_ ?_
    ⟨Inv.new provider, .of_not_asks rfl⟩ hroom
  · rintro s ⟨hinv, hroomy⟩
    exact (canGoOn_iff hinv).mpr hroomy.not_wedged
  · rintro s a s' ⟨hinv, hroomy⟩ hstep hplace
    exact ⟨hinv.step hstep, hroomy.step hinv hplace hstep⟩

/-- The application publishes a track, up to the request to the SFU; it has a place in the channel
if there is one. -/
def publishTurns : List Action :=
  [.dataTracks (.publish ⟨"track"⟩), .manager .zero, .managerSend]

/-- The reconnect task has the lock. Eighteen publications are on their way: one with the forward
task, sixteen in the channel, and one that the manager waits with. The session is restarted, and the
room asks for the tracks. -/
def wedgedRun : List Action :=
  .resume :: (publishTurns ++ [.takeEvent] ++ (List.replicate 16 publishTurns).flatten ++
    [.dataTracks (.publish ⟨"track"⟩), .manager .zero, .returned true, .prepare false, .query])

/-- A resume during which a track is published, to its end. -/
def resumedRun : List Action :=
  .resume :: (publishTurns ++ [.takeEvent, .returned true, .prepare false, .query, .manager .zero,
    .received, .proceed, .returned true, .release])

theorem resume_goesOn_published :
    (exec step (new none) resumedRun).isSome = true ∧
      Throughout State.step CanGoOn (new none) resumedRun :=
  ⟨by decide, resume_goesOn none resumedRun (by decide)⟩

theorem resume_stuck :
    ¬ ∀ (provider : Option DataTrack.EncryptionProvider) (run : List Action),
      Throughout State.step CanGoOn (new provider) run := by
  intro hall
  have hwedged : (exec step (new none) wedgedRun).map (fun s => decide s.Wedged)
      = some true := by decide
  obtain ⟨s, hexec, hs⟩ := Option.map_eq_some_iff.mp hwedged
  have hinv : Inv s := exec_invariant (fun _ _ _ h hstep => h.step hstep) (Inv.new none) hexec
  have hgoes := hall none wedgedRun wedgedRun [] s (by simp) hexec
  exact (canGoOn_iff hinv).mp hgoes (of_decide_eq_true hs)

end State

end LiveKit.RtcEngine.SyncState
