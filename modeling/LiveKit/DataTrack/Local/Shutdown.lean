import LiveKit.DataTrack.Local.Orphans
import LiveKit.Lib.Counting

/-!
# Shutdown

When the manager is told to shut down it leaves its run loop, so nothing takes events from its
queue any more. It unpublishes its active tracks one after the other and waits for the task of
each, and a task puts an unpublish request into the queue before it ends. `shutdown_iff` says
when this cannot get stuck: the requests of all tasks that are going to end must fit into the
queue next to the events that are left in it, or there is no task to wait for.
-/

namespace LiveKit.DataTrack.Local

open AList AssocMap TransitionSystem Counting

/-- The track whose task the manager waits for. -/
def Mode.awaited : Mode → List TrackId
  | .awaiting track _ => [track]
  | _ => []

def Descriptor.track : Descriptor → Option TrackId
  | .pending _ => none
  | .active track => some track

/-- The manager or a track task, the parties of a shutdown. -/
def Action.isParty : Action → Bool
  | .manager _ | .task _ _ => true
  | _ => false

namespace State

/-- The tracks that the manager has to unpublish, or whose end it waits for. -/
def activeTracks (s : State) : List TrackId :=
  s.mode.awaited ++ (toPairs s.descriptors ++ s.mode.held).filterMap fun entry => entry.2.track

/-- The task of the track has not ended. -/
def isUnfinished (s : State) (id : TrackId) : Bool :=
  (AList.lookup id s.tracks).any fun t => t.phase ≠ .ended

/-- The task of the track ends without being told: it has left its loop, or its track is
unpublished. -/
def isLeaving (s : State) (id : TrackId) : Bool :=
  (AList.lookup id s.tracks).any fun t =>
    t.phase = .unpublishing ∨ t.phase.isRunning = true ∧ t.state = .unpublished

/-- How many tasks the manager has to wait for. -/
def undone (s : State) : ℕ :=
  count s.nextTrack fun id => id ∈ s.activeTracks ∧ s.isUnfinished id

/-- How many tasks are going to put a request into the queue. -/
def debt (s : State) : ℕ :=
  count s.nextTrack fun id => s.isUnfinished id ∧ (id ∈ s.activeTracks ∨ s.isLeaving id)

/-- Whatever the parties of the shutdown do, one of them can go on until it is finished. -/
def Progresses (s : State) : Prop :=
  ∀ run s', (∀ a ∈ run, a.isParty = true) → exec State.step s run = some s' →
    s'.mode ≠ .ended → ∃ a, a.isParty = true ∧ Enabled State.step s' a

/-- In this step the manager takes up the event to shut down. -/
def Shuts (s : State) (a : Action) : Prop :=
  a.isManager = true ∧ s.mode = .running ∧ ∃ rest, s.queue = .shutdown :: rest

/-- The condition on the state in which the manager takes up the event: there is no task to wait
for, or all requests fit into the queue with the events that are left in it. -/
def HasRoom (s : State) : Prop :=
  s.undone = 0 ∨ s.queue.tail.length + s.debt ≤ EVENT_BUFFER_COUNT

instance (s : State) : Decidable s.HasRoom := inferInstanceAs (Decidable (_ ∨ _))

variable {s s' : State} {a : Action}

variable {id : TrackId} {t t' : TrackState} {turn : Turn} {todo : List (Handle × Descriptor)}
  {move : TaskMove}

theorem mem_activeTracks : id ∈ s.activeTracks ↔
    (∃ h, s.Registered h (.active id)) ∨ ∃ todo, s.mode = .awaiting id todo := by
  unfold activeTracks
  rw [List.mem_append, List.mem_filterMap, or_comm]
  constructor
  · rintro (⟨⟨h, d⟩, hmem, hd⟩ | hawaited)
    · left
      have hactive : d = .active id := by
        cases d with
        | pending resultTx => cases hd
        | active track =>
          cases hd
          rfl
      subst hactive
      refine ⟨h, ?_⟩
      rcases List.mem_append.mp hmem with hmap | hheld
      · exact .inl ((mem_toPairs _ _ _).mp hmap)
      · exact .inr hheld
    · right
      cases hmode : s.mode with
      | awaiting track todo =>
        rw [hmode, Mode.awaited, List.mem_singleton] at hawaited
        exact ⟨todo, by rw [hawaited]⟩
      | _ =>
        rw [hmode] at hawaited
        cases hawaited
  · rintro (⟨h, hd | hheld⟩ | ⟨todo, hmode⟩)
    · exact .inl ⟨(h, .active id), List.mem_append_left _ ((mem_toPairs _ _ _).mpr hd), rfl⟩
    · exact .inl ⟨(h, .active id), List.mem_append_right _ hheld, rfl⟩
    · right
      rw [hmode]
      exact List.mem_singleton_self _

theorem isUnfinished_iff (ht : lookup id s.tracks = some t) :
    s.isUnfinished id = true ↔ t.phase ≠ .ended := by
  unfold isUnfinished
  rw [ht]
  simp

theorem isLeaving_iff (ht : lookup id s.tracks = some t) :
    s.isLeaving id = true ↔
      t.phase = .unpublishing ∨ t.phase.isRunning = true ∧ t.state = .unpublished := by
  unfold isLeaving
  rw [ht]
  simp

theorem lookup_of_isUnfinished (h : s.isUnfinished id = true) :
    ∃ t, lookup id s.tracks = some t ∧ t.phase ≠ .ended := by
  unfold isUnfinished at h
  cases ht : lookup id s.tracks with
  | none =>
    rw [ht] at h
    cases h
  | some t =>
    rw [ht] at h
    exact ⟨t, rfl, by simpa using h⟩

/-! ## What holds of every reachable state -/

/-- The queue is bounded, and a track whose task the manager waits for is unpublished. -/
structure Halting (s : State) : Prop where
  coherent : s.Coherent
  attended : s.Attended
  queue_le : s.queue.length ≤ EVENT_BUFFER_COUNT
  awaited : ∀ id todo, s.mode = .awaiting id todo →
    ∃ t, AList.lookup id s.tracks = some t ∧ (t.state = .unpublished ∨ t.phase = .ended)

theorem new_halting (provider : Option EncryptionProvider) : (new provider).Halting where
  coherent := new_coherent provider
  attended := new_attended provider
  queue_le := Nat.zero_le _
  awaited := by simp [new]

theorem step_queue_le (hs : s.queue.length ≤ EVENT_BUFFER_COUNT) (hstep : s.step a = some s') :
    s'.queue.length ≤ EVENT_BUFFER_COUNT := by
  by_cases ha : a.isManager = false
  · rcases (step_other hstep ha).queue with hsame | ⟨hroom, event, hqueue⟩
    · rw [hsame]
      exact hs
    · rw [hqueue, List.length_append]
      exact hroom
  · cases a with
    | manager turn =>
      obtain ⟨-, ⟨-, event, hqueue⟩ | ⟨-, ⟨-, hsame⟩ | ⟨-, -, hnil⟩⟩⟩ :=
        managerTurn_queue (managerTurn hstep)
      · rw [hqueue, List.length_cons] at hs
        omega
      · rw [hsame]
        exact hs
      · rw [hnil]
        exact Nat.zero_le _
    | _ => exact absurd rfl ha

/-- A task that has ended does not start again. -/
theorem ended_kept (hstep : s.step a = some s') (ht : lookup id s.tracks = some t)
    (ht' : lookup id s'.tracks = some t') (hchange : t' = t ∨ TrackChange s a id t t')
    (hphase : t.phase = .ended) :
    t'.phase = .ended := by
  rcases phase_of_change hstep ht ht' hchange with hsame | htask
  · exact hsame.trans hphase
  · cases htask with
    | start hc | observe _ hc | frame _ hc => rw [hphase] at hc; cases hc
    | unpublish _ hended | finish _ hended => exact hended

theorem send_unpublished_cases (t : TrackState) :
    (t.send .unpublished).state = .unpublished ∨ (t.send .unpublished).phase = .ended := by
  by_cases hphase : t.phase = .ended
  · right
    rw [TrackState.send_phase]
    exact hphase
  · left
    rw [TrackState.send_of_hasReceiver (TrackState.hasReceiver_of_phase hphase)]

/-- No event makes the manager wait for a task, or end. -/
theorem eventTurn_mode {event : InputEvent} (hmode : s.mode = .running)
    (h : EventTurn s turn event s') :
    s'.mode.awaited = [] ∧ s'.mode ≠ .ended := by
  cases h with
  | _ => simp [hmode, Mode.awaited]

theorem step_halting (hs : s.Halting) (hstep : s.step a = some s') : s'.Halting := by
  refine ⟨step_coherent hs.coherent hstep, step_attended hs.coherent hs.attended hstep,
    step_queue_le hs.queue_le hstep, ?_⟩
  intro id todo hmode'
  -- who is waited for was waited for, or the manager has just unpublished the track
  have hkept : ∀ todo, s.mode = .awaiting id todo →
      ∃ t, lookup id s'.tracks = some t ∧ (t.state = .unpublished ∨ t.phase = .ended) := by
    intro todo hmode
    obtain ⟨t, ht, hstate⟩ := hs.awaited id todo hmode
    obtain ⟨t', ht', hchange⟩ := track_kept hs.coherent.toConsistent hstep ht
    refine ⟨t', ht', ?_⟩
    rcases hstate with hstate | hphase
    · left
      rcases hchange with rfl | hchange
      · exact hstate
      · cases hchange with
        | unpublish => exact TrackState.send_unpublished_state hstate
        | mark turn handle todo ha hmark => rw [hmark] at hmode; cases hmode
        | respond turn handle sid ha hrespond => rw [hrespond] at hmode; cases hmode
        | use frames waiters => exact hstate
        | task move t' ha hinfo hsame => exact hsame.trans hstate
    · exact .inr (ended_kept hstep ht ht' hchange hphase)
  by_cases ha : a.isManager = false
  · rw [(step_other hstep ha).mode] at hmode'
    exact hkept todo hmode'
  · cases a with
    | manager turn =>
      cases managerTurn hstep with
      | event event rest hmode hqueue _ hturn =>
        have hnone := (eventTurn_mode (by exact hmode) hturn).1
        rw [hmode'] at hnone
        cases hnone
      | stopActive handle track todo' hmode tracks' htracks hsent =>
        have hreg : s.Registered handle (.active track) := by
          right
          rw [hmode]
          exact List.mem_cons_self
        obtain ⟨t, ht, -⟩ := hs.coherent.active_track handle track hreg
        cases hmode'
        rw [hsent t ht]
        exact ⟨_, lookup_insert _, send_unpublished_cases t⟩
      | _ => cases hmode'
    | _ => exact absurd rfl ha

/-! ## What a step of the parties changes -/

/-- The manager unpublishes and awaits its tracks. -/
def isClosing (s : State) : Prop :=
  (∃ todo, s.mode = .stopping todo) ∨ ∃ track todo, s.mode = .awaiting track todo

/-- What a task can still do. -/
def taskWeight : TaskPhase → ℕ
  | .spawned => 3
  | .running _ => 2
  | .unpublishing => 1
  | .ended => 0

def trackWeight (s : State) (id : TrackId) : ℕ :=
  match AList.lookup id s.tracks with
  | none => 0
  | some t => taskWeight t.phase + (if t.changed then 1 else 0) + t.frames.length

def modeWeight : Mode → ℕ
  | .stopping todo => 4 * todo.length + 1
  | .awaiting _ todo => 4 * todo.length + 3
  | _ => 0

/-- What the parties of the shutdown can still do. -/
def weight (s : State) : ℕ :=
  modeWeight s.mode + ∑ id ∈ Finset.range s.nextTrack, s.trackWeight id

/-- What the numbers of a shutdown become in a step of its parties. -/
structure Closes (s s' : State) : Prop where
  debt_eq : s'.queue.length + s'.debt = s.queue.length + s.debt
  undone_le : s'.undone ≤ s.undone
  undone_ge : s.queue.length + s.undone ≤ s'.queue.length + s'.undone
  weight_lt : s'.weight < s.weight

/-- A step of the manager that changes no number of the shutdown, but gets on with it. -/
theorem Closes.of_same (hnext : s'.nextTrack = s.nextTrack) (hqueue : s'.queue = s.queue)
    (hundone : ∀ id, s'.isUnfinished id = s.isUnfinished id)
    (hactive : ∀ id, s.isUnfinished id = true → (id ∈ s'.activeTracks ↔ id ∈ s.activeTracks))
    (hleaving : ∀ id, id ∉ s.activeTracks → s'.isLeaving id = s.isLeaving id)
    (hweight : s'.weight < s.weight) : Closes s s' := by
  have hun : s'.undone = s.undone := by
    unfold undone
    rw [hnext]
    apply count_congr
    intro id _
    rw [hundone]
    constructor
    · exact fun h => ⟨(hactive id h.2).mp h.1, h.2⟩
    · exact fun h => ⟨(hactive id h.2).mpr h.1, h.2⟩
  have hdebt : s'.debt = s.debt := by
    unfold debt
    rw [hnext]
    apply count_congr
    intro id _
    rw [hundone]
    apply and_congr_right
    intro hunfinished
    rw [hactive id hunfinished]
    by_cases hmem : id ∈ s.activeTracks
    · simp [hmem]
    · rw [hleaving id hmem]
  exact ⟨by rw [hqueue, hdebt], hun.le, by rw [hqueue, hun], hweight⟩

/-- Tracks that are the same are in the same way unfinished and leaving, and can do as much. -/
theorem same_of_lookup {id : TrackId}
    (h : lookup id s'.tracks = lookup id s.tracks) :
    s'.isUnfinished id = s.isUnfinished id ∧ s'.isLeaving id = s.isLeaving id ∧
      s'.trackWeight id = s.trackWeight id := by
  unfold isUnfinished isLeaving trackWeight
  rw [h]
  exact ⟨rfl, rfl, rfl⟩

/-- The track that the shutdown tells may be marked as changed, but the manager has one to do
less. -/
theorem weight_stopActive {handle : Handle} {track : TrackId}
    (hmode : s.mode = .stopping ((handle, .active track) :: todo))
    (ht : lookup track s.tracks = some t) (hlt : track < s.nextTrack) :
    weight { s with
      mode := .awaiting track todo
      tracks := insert track (t.send .unpublished) s.tracks } < s.weight := by
  unfold weight
  have hsum := sum_range_update (n := s.nextTrack) (f := s.trackWeight)
    (g := trackWeight { s with
      mode := .awaiting track todo
      tracks := insert track (t.send .unpublished) s.tracks }) hlt <| by
    intro id hid
    unfold trackWeight
    simp only [lookup_insert_ne hid]
  have hbefore : s.trackWeight track
      = taskWeight t.phase + (if t.changed then 1 else 0) + t.frames.length := by
    unfold trackWeight
    rw [ht]
  have hafter : trackWeight { s with
        mode := .awaiting track todo
        tracks := insert track (t.send .unpublished) s.tracks } track
      = taskWeight t.phase + (if (t.send .unpublished).changed then 1 else 0)
        + t.frames.length := by
    unfold trackWeight
    simp only [lookup_insert, TrackState.send_phase, TrackState.send_frames]
  have hflag : (if (t.send .unpublished).changed then 1 else 0) ≤ 1 := by
    split <;> omega
  rw [hmode]
  simp only [modeWeight, List.length_cons]
  omega

theorem manager_closes (hs : s.Halting) (hclosing : s.isClosing)
    (hstep : s.step (.manager turn) = some s') (hend : s'.mode ≠ .ended) :
    Closes s s' ∧ s'.isClosing := by
  -- a closing manager is in no other mode
  have hnot : ∀ mode, s.mode = mode → (∀ todo, mode ≠ .stopping todo) →
      (∀ track todo, mode ≠ .awaiting track todo) → Closes s s' ∧ s'.isClosing := by
    intro mode hmode hstop hwait
    rcases hclosing with ⟨todo, hc⟩ | ⟨track, todo, hc⟩
    · exact absurd (hmode.symm.trans hc) (hstop todo)
    · exact absurd (hmode.symm.trans hc) (hwait track todo)
  cases managerTurn hstep with
  | event _ _ hmode | publish _ _ hmode | respond _ _ _ hmode | republishEnd hmode
  | republishPending _ _ _ hmode | mark _ _ _ hmode | request _ _ _ hmode =>
    exact hnot _ hmode (by simp) (by simp)
  | stopEnd hmode => exact absurd rfl hend
  | stopPending handle resultTx todo hmode forwards' =>
    refine ⟨.of_same rfl rfl (fun _ => rfl) ?_ (fun _ _ => rfl) ?_, .inl ⟨todo, rfl⟩⟩
    · intro id _
      unfold activeTracks
      rw [hmode]
      simp [Mode.held, Mode.awaited, Descriptor.track]
    · -- one descriptor less, and no track changes
      have hsum : ∑ id ∈ Finset.range s.nextTrack, trackWeight
            { s with mode := .stopping todo, forwards := forwards' } id
          = ∑ id ∈ Finset.range s.nextTrack, s.trackWeight id :=
        Finset.sum_congr rfl fun id _ => (same_of_lookup rfl).2.2
      unfold weight
      rw [hsum, hmode]
      simp only [modeWeight, List.length_cons]
      omega
  | stopActive handle track todo hmode tracks' htracks hsent =>
    -- the manager goes on to wait for the task of this track
    have hreg : s.Registered handle (.active track) := by
      right
      rw [hmode]
      exact List.mem_cons_self
    obtain ⟨t, ht, -⟩ := hs.coherent.active_track handle track hreg
    rw [hsent t ht]
    refine ⟨.of_same rfl rfl ?_ ?_ ?_ ?_, .inr ⟨track, todo, rfl⟩⟩
    · intro id
      unfold isUnfinished
      simp only [lookup_insert_ite]
      split
      · next heq =>
        rw [heq, ht]
        simp
      · rfl
    · intro id _
      unfold activeTracks
      rw [hmode]
      simp only [Mode.awaited, Mode.held, List.nil_append, List.filterMap_append, List.mem_append,
        List.filterMap_cons, Descriptor.track, List.mem_cons, List.not_mem_nil, or_false]
      tauto
    · intro id hid
      have hne : id ≠ track := by
        rintro rfl
        exact hid (mem_activeTracks.mpr (.inl ⟨handle, hreg⟩))
      unfold isLeaving
      simp only [lookup_insert_ne hne]
    · exact weight_stopActive hmode ht (hs.coherent.track_lt track t ht)
  | awaited track todo t hmode ht hphase =>
    refine ⟨.of_same rfl rfl (fun _ => rfl) ?_ (fun _ _ => rfl) ?_, .inl ⟨todo, rfl⟩⟩
    · intro id hid
      have hne : id ≠ track := by
        rintro rfl
        exact (isUnfinished_iff ht).mp hid hphase
      unfold activeTracks
      rw [hmode]
      simp only [Mode.awaited, Mode.held, List.nil_append, List.mem_append, List.mem_singleton]
      tauto
    · unfold weight
      rw [hmode]
      have hsame : ∀ id, trackWeight { s with mode := .stopping todo } id = s.trackWeight id :=
        fun _ => rfl
      simp only [modeWeight, hsame]
      omega

theorem taskWeight_loop (state : PublishState) : taskWeight (loop state) ≤ 2 := by
  unfold loop
  split
  · decide
  · exact Nat.le_refl 2

/-- A task that looks at the state leaves its loop exactly if its track is unpublished. -/
theorem leaving_of_loop (ht : lookup id s.tracks = some t) (ht' : lookup id s'.tracks = some t')
    (hstate : t'.state = t.state) (hphase : t.phase.isRunning = true)
    (hphase' : t'.phase = loop t.state) : s'.isLeaving id = s.isLeaving id := by
  rw [Bool.eq_iff_iff, isLeaving_iff ht, isLeaving_iff ht', hphase', hstate]
  by_cases hunpublished : t.state = .unpublished
  · simp [hunpublished, loop, hphase]
  · have hloop : loop t.state = .running t.state := if_neg hunpublished
    have hne : t.phase ≠ .unpublishing := by
      intro hc
      rw [hc] at hphase
      cases hphase
    simp [hloop, hunpublished, hne]

/-- With the task of one track finished there is one to do less, if the track is active. -/
theorem undone_of_finished (hlt : id < s.nextTrack) (hnext : s'.nextTrack = s.nextTrack)
    (hactive : s'.activeTracks = s.activeTracks)
    (hsame : ∀ j, j ≠ id → s'.isUnfinished j = s.isUnfinished j)
    (hunfinished : s.isUnfinished id = true) (hfinished : ¬ s'.isUnfinished id = true) :
    s'.undone = s.undone ∨ s'.undone + 1 = s.undone := by
  unfold undone
  rw [hnext]
  by_cases hmem : id ∈ s.activeTracks
  · right
    refine count_lose hlt ?_ ⟨hmem, hunfinished⟩ fun hc => hfinished hc.2
    intro j hj
    rw [hsame j hj, hactive]
  · left
    apply count_congr
    intro j _
    rw [hactive]
    by_cases hj : j = id
    · rw [hj]
      simp [hmem]
    · rw [hsame j hj]

/-- What a task step makes of the numbers, in terms of its track before and after. -/
theorem task_closes (hs : s.Halting) (hclosing : s.isClosing)
    (hstep : s.step (.task id move) = some s') : Closes s s' ∧ s'.isClosing := by
  have hother := step_other hstep rfl
  have hnext := hother.nextTrack
  have hmode := hother.mode
  obtain ⟨t, t', ht, htracks, hstate, hchange⟩ := task_step hstep
  have ht' : lookup id s'.tracks = some t' := by rw [htracks, lookup_insert]
  have hlt : id < s.nextTrack := hs.coherent.track_lt id t ht
  have hsame : ∀ j, j ≠ id → s'.isUnfinished j = s.isUnfinished j ∧
      s'.isLeaving j = s.isLeaving j ∧ s'.trackWeight j = s.trackWeight j := by
    intro j hj
    apply same_of_lookup
    rw [htracks, lookup_insert_ne hj]
  have hactive : s'.activeTracks = s.activeTracks := by
    unfold activeTracks
    rw [hmode, hother.descriptors]
  -- the numbers of the track itself
  have hweight : ∀ {u u' : ℕ}, s.trackWeight id = u → s'.trackWeight id = u' → u' < u →
      s'.weight < s.weight := by
    intro u u' hu hu' hdecrease
    have hsum := sum_range_update (f := s.trackWeight) (g := s'.trackWeight) hlt
      fun j hj => (hsame j hj).2.2
    unfold weight
    rw [hmode, hnext]
    omega
  have hw : s.trackWeight id
      = taskWeight t.phase + (if t.changed then 1 else 0) + t.frames.length := by
    unfold trackWeight
    rw [ht]
  have hw' : s'.trackWeight id
      = taskWeight t'.phase + (if t'.changed then 1 else 0) + t'.frames.length := by
    unfold trackWeight
    rw [ht']
  -- a task that does not end changes no number
  have hgoes : t.phase ≠ .ended → t'.phase ≠ .ended → s'.queue = s.queue →
      (s'.isLeaving id = s.isLeaving id) → s'.trackWeight id < s.trackWeight id →
      Closes s s' := by
    intro hphase hphase' hqueue hleaving hdecrease
    have hunfinished : s'.isUnfinished id = s.isUnfinished id := by
      rw [(isUnfinished_iff ht).mpr hphase, (isUnfinished_iff ht').mpr hphase']
    refine .of_same hnext hqueue ?_ (fun j _ => by rw [hactive]) ?_ (hweight rfl rfl hdecrease)
    · intro j
      by_cases hj : j = id
      · rw [hj]
        exact hunfinished
      · exact (hsame j hj).1
    · intro j _
      by_cases hj : j = id
      · rw [hj]
        exact hleaving
      · exact (hsame j hj).2.1
  refine ⟨?_, ?_⟩
  · cases hchange with
    | start hphase hphase' hchanged hframes hqueue =>
      refine hgoes (by simp [hphase]) (hphase' ▸ loop_ne_ended _) hqueue ?_ ?_
      · exact leaving_of_loop ht ht' hstate (by rw [hphase]; rfl) hphase'
      · rw [hw, hw', hchanged, hframes, hphase, hphase']
        have hle := taskWeight_loop t.state
        simp only [taskWeight] at hle ⊢
        omega
    | observe seen hphase hphase' hchanged hframes hqueue =>
      refine hgoes (by simp [hphase]) (hphase' ▸ loop_ne_ended _) hqueue ?_ ?_
      · exact leaving_of_loop ht ht' hstate (by rw [hphase]; rfl) hphase'
      · rw [hw, hw', hchanged.1, hchanged.2, hframes, hphase, hphase']
        have hle := taskWeight_loop t.state
        simp only [taskWeight] at hle ⊢
        simp only [if_pos, Bool.false_eq_true, if_false]
        omega
    | frame seen hphase hphase' hchanged hframes hqueue =>
      refine hgoes (by simp [hphase]) (by simp [hphase', hphase]) hqueue ?_ ?_
      · unfold isLeaving
        rw [ht, ht']
        simp only [Option.any_some, hphase', hstate]
      · rw [hw, hw', hchanged, hphase', hframes]
        omega
    | unpublish hphase hphase' hrun hroom hqueue hchanged hframes =>
      have hunfinished : s.isUnfinished id = true := (isUnfinished_iff ht).mpr (by simp [hphase])
      have hfinished : ¬ s'.isUnfinished id = true := by
        rw [isUnfinished_iff ht']
        exact fun hc => hc hphase'
      have hleaving : s.isLeaving id = true := (isLeaving_iff ht).mpr (.inl hphase)
      have hlength : s'.queue.length = s.queue.length + 1 := by
        rw [hqueue, List.length_append]
        rfl
      have hdebt : s'.debt + 1 = s.debt := by
        unfold debt
        rw [hnext]
        refine count_lose hlt ?_ ⟨hunfinished, .inr hleaving⟩ fun hc => hfinished hc.1
        intro j hj
        rw [(hsame j hj).1, (hsame j hj).2.1, hactive]
      have hundone := undone_of_finished hlt hnext hactive (fun j hj => (hsame j hj).1)
        hunfinished hfinished
      refine ⟨by omega, by omega, by omega, hweight rfl rfl ?_⟩
      rw [hw, hw', hchanged, hframes, hphase, hphase']
      simp only [taskWeight]
      omega
    | finish hphase hphase' hended =>
      rcases hclosing with ⟨todo, hc⟩ | ⟨track, todo, hc⟩
      · rw [hended] at hc
        cases hc
      · rw [hended] at hc
        cases hc
  · unfold isClosing
    rw [hmode]
    exact hclosing

/-- Every step of the parties that does not finish the shutdown. -/
theorem party_closes (hs : s.Halting) (hclosing : s.isClosing) (ha : a.isParty = true)
    (hstep : s.step a = some s') (hend : s'.mode ≠ .ended) : Closes s s' ∧ s'.isClosing := by
  cases a with
  | manager turn => exact manager_closes hs hclosing hstep hend
  | task id move => exact task_closes hs hclosing hstep
  | _ => cases ha

/-! ## Going on -/

/-- A task that is leaving can go on, if there is room for its request. -/
theorem leaving_enabled (hs : s.Halting) (hmode : s.mode ≠ .ended)
    (ht : lookup id s.tracks = some t)
    (hleaving : t.phase = .unpublishing ∨ t.phase.isRunning = true ∧ t.state = .unpublished)
    (hroom : s.queue.length < EVENT_BUFFER_COUNT) :
    ∃ move, Enabled State.step s (.task id move) := by
  cases hphase : t.phase with
  | spawned =>
    refine ⟨.start, ?_⟩
    unfold Enabled
    simp only [step, taskStep, ht, hphase]
    exact ⟨_, rfl⟩
  | running seen =>
    have hstate : t.state = .unpublished := by
      rcases hleaving with hc | ⟨-, hstate⟩
      · rw [hphase] at hc
        cases hc
      · exact hstate
    have hchanged := hs.attended.changed id t seen ht hphase hstate
    refine ⟨.observe, ?_⟩
    unfold Enabled
    simp only [step, taskStep, ht, hphase]
    rw [if_pos hchanged]
    exact ⟨_, rfl⟩
  | unpublishing =>
    refine ⟨.unpublish, ?_⟩
    unfold Enabled
    simp only [step, taskStep, ht, hphase]
    rw [if_neg hmode, enqueue, if_pos ⟨hmode, hroom⟩]
    exact ⟨_, rfl⟩
  | ended =>
    rcases hleaving with hc | ⟨hc, -⟩
    · rw [hphase] at hc
      cases hc
    · rw [hphase] at hc
      cases hc

theorem manager_enabled (hmode : s.mode = .stopping todo) :
    Enabled State.step s (.manager Turn.zero) := by
  unfold Enabled
  simp only [step, managerStep, hmode]
  rcases todo with _ | ⟨⟨handle, resultTx | track⟩, todo⟩
  · exact ⟨_, rfl⟩
  · exact ⟨_, rfl⟩
  · exact ⟨_, rfl⟩

theorem ne_ended_of_isClosing (h : s.isClosing) : s.mode ≠ .ended := by
  intro hc
  rcases h with ⟨todo, hmode⟩ | ⟨track, todo, hmode⟩
  · rw [hmode] at hc
    cases hc
  · rw [hmode] at hc
    cases hc

section

variable (hs : s.Halting) (hclosing : s.isClosing)

include hs hclosing

/-- With room for all requests, or nobody to wait for, one of the parties can go on. -/
theorem party_enabled (hroom : s.undone = 0 ∨ s.queue.length + s.debt ≤ EVENT_BUFFER_COUNT) :
    ∃ a, a.isParty = true ∧ Enabled State.step s a := by
  rcases hclosing with ⟨todo, hmode⟩ | ⟨id, todo, hmode⟩
  · exact ⟨.manager Turn.zero, rfl, manager_enabled hmode⟩
  · obtain ⟨t, ht, hstate⟩ := hs.awaited id todo hmode
    by_cases hphase : t.phase = .ended
    · refine ⟨.manager Turn.zero, rfl, ?_⟩
      unfold Enabled
      simp only [step, managerStep, hmode, ht]
      rw [if_pos hphase]
      exact ⟨_, rfl⟩
    · have hlt := hs.coherent.track_lt id t ht
      have hactive : id ∈ s.activeTracks := mem_activeTracks.mpr (.inr ⟨todo, hmode⟩)
      have hunfinished := (isUnfinished_iff ht).mpr hphase
      have hundone : 0 < s.undone := count_pos hlt ⟨hactive, hunfinished⟩
      have hdebt : 0 < s.debt := count_pos hlt ⟨hunfinished, .inl hactive⟩
      have hunpublished : t.state = .unpublished := hstate.resolve_right hphase
      have hleaving : t.phase = .unpublishing ∨
          t.phase.isRunning = true ∧ t.state = .unpublished := by
        cases hp : t.phase with
        | unpublishing => exact .inl rfl
        | ended => exact absurd hp hphase
        | spawned | running => exact .inr ⟨rfl, hunpublished⟩
      obtain ⟨move, hmove⟩ :=
        leaving_enabled hs (by simp [hmode]) ht hleaving (by omega)
      exact ⟨.task id move, rfl, hmove⟩

theorem progresses_of_room (hroom : s.undone = 0 ∨ s.queue.length + s.debt ≤ EVENT_BUFFER_COUNT) :
    s.Progresses := by
  intro run s' hparty hrun hend
  have hinv : s'.Halting ∧ (s'.mode = .ended ∨ s'.isClosing ∧
      (s'.undone = 0 ∨ s'.queue.length + s'.debt ≤ EVENT_BUFFER_COUNT)) := by
    refine exec_invariant_of_labels (P := fun a : Action => a.isParty = true)
      (I := fun s => s.Halting ∧ (s.mode = .ended ∨ s.isClosing ∧
        (s.undone = 0 ∨ s.queue.length + s.debt ≤ EVENT_BUFFER_COUNT))) ?_
      ⟨hs, .inr ⟨hclosing, hroom⟩⟩ hparty hrun
    rintro s a s' ⟨hs, hcases⟩ ha hstep
    refine ⟨step_halting hs hstep, ?_⟩
    by_cases hend : s'.mode = .ended
    · exact .inl hend
    · right
      rcases hcases with hended | ⟨hclosing, hroom⟩
      · exfalso
        apply hend
        cases a with
        | manager turn => simp [step, managerStep, hended] at hstep
        | task id move => rw [(step_other hstep rfl).mode, hended]
        | _ => cases ha
      · obtain ⟨hcloses, hclosing'⟩ := party_closes hs hclosing ha hstep hend
        refine ⟨hclosing', ?_⟩
        rcases hroom with hundone | hroom
        · left
          have hle := hcloses.undone_le
          omega
        · right
          have heq := hcloses.debt_eq
          omega
  obtain ⟨hs', hended | ⟨hclosing', hroom'⟩⟩ := hinv
  · exact absurd hended hend
  · exact party_enabled hs' hclosing' hroom'

/-! ## Getting stuck -/

/-- With a task to wait for the shutdown is not finished in one step. -/
theorem ne_ended_of_undone (hundone : 0 < s.undone) (ha : a.isParty = true)
    (hstep : s.step a = some s') : s'.mode ≠ .ended := by
  cases a with
  | manager turn =>
    intro hend
    cases managerTurn hstep with
    | stopEnd hmode =>
      have hnone : s.undone = 0 := by
        apply count_eq_zero
        rintro id - ⟨hmem, -⟩
        rcases mem_activeTracks.mp hmem with ⟨h, hd | hheld⟩ | ⟨todo, hc⟩
        · rw [hs.coherent.stopped_absent (by rw [hmode]; rfl)] at hd
          cases hd
        · rw [hmode] at hheld
          cases hheld
        · rw [hmode] at hc
          cases hc
      omega
    | event event rest hmode =>
      rcases hclosing with ⟨_, hc⟩ | ⟨_, _, hc⟩ <;> cases hmode.symm.trans hc
    | _ => cases hend
  | task id move =>
    rw [(step_other hstep rfl).mode]
    exact ne_ended_of_isClosing hclosing
  | _ => cases ha

/-- If the queue has no room for the requests of the tasks to wait for, the shutdown gets stuck,
whatever the parties do. -/
theorem stuck_of_undone (hfull : EVENT_BUFFER_COUNT < s.queue.length + s.undone) :
    ¬ s.Progresses := by
  obtain ⟨run, s', hparty, hrun, ⟨-, hclosing', -⟩, hquiet⟩ := exists_quiescent
    (P := fun a : Action => a.isParty = true)
    (I := fun s : State =>
      s.Halting ∧ s.isClosing ∧ EVENT_BUFFER_COUNT < s.queue.length + s.undone) weight
    (by
      rintro s a s' ⟨hs, hclosing, hfull⟩ ha hstep
      have hle := hs.queue_le
      have hend := ne_ended_of_undone hs hclosing (by omega) ha hstep
      obtain ⟨hcloses, hclosing'⟩ := party_closes hs hclosing ha hstep hend
      have hge := hcloses.undone_ge
      exact ⟨step_halting hs hstep, hclosing', by omega⟩)
    (by
      rintro s a s' ⟨hs, hclosing, hfull⟩ ha hstep
      have hle := hs.queue_le
      have hend := ne_ended_of_undone hs hclosing (by omega) ha hstep
      exact (party_closes hs hclosing ha hstep hend).1.weight_lt)
    s ⟨hs, hclosing, hfull⟩
  intro hprogress
  obtain ⟨a, ha, henabled⟩ := hprogress run s' hparty hrun (ne_ended_of_isClosing hclosing')
  exact hquiet a ha henabled

end

/-- A task that the manager does not wait for. -/
theorem undone_of_detached (hstep : s.step (.task id move) = some s')
    (hdetached : id ∉ s.activeTracks) :
    s'.undone = s.undone ∧ s'.activeTracks = s.activeTracks := by
  have hother := step_other hstep rfl
  obtain ⟨t, t', -, htracks, -⟩ := task_step hstep
  have hactive : s'.activeTracks = s.activeTracks := by
    unfold activeTracks
    rw [hother.mode, hother.descriptors]
  refine ⟨?_, hactive⟩
  unfold undone
  rw [hother.nextTrack]
  apply count_congr
  intro j _
  rw [hactive]
  by_cases hj : j = id
  · rw [hj]
    simp [hdetached]
  · rw [(@same_of_lookup s s' j
      (by rw [htracks, lookup_insert_ne hj])).1]

/-- If all requests do not fit, the tasks that nobody waits for can fill the queue. -/
theorem stuck_of_debt (hs : s.Halting) (hclosing : s.isClosing) (hundone : 0 < s.undone)
    (hfull : EVENT_BUFFER_COUNT < s.queue.length + s.debt) : ¬ s.Progresses := by
  obtain ⟨run, s', hdetached, hrun, ⟨hs', hclosing', hactive, hsame, hfull'⟩, hquiet⟩ :=
    exists_quiescent
    (P := fun a => ∃ id move, a = Action.task id move ∧ id ∉ s.activeTracks)
    (I := fun u : State => u.Halting ∧ u.isClosing ∧ u.activeTracks = s.activeTracks ∧
      u.undone = s.undone ∧ EVENT_BUFFER_COUNT < u.queue.length + u.debt) weight
    (by
      rintro u a u' ⟨hu, hclosing, hactive, hsame, hfull⟩ ⟨id, move, rfl, hid⟩ hstep
      obtain ⟨hcloses, hclosing'⟩ := task_closes hu hclosing hstep
      obtain ⟨hundone', hactive'⟩ := undone_of_detached hstep (hactive ▸ hid)
      have heq := hcloses.debt_eq
      exact ⟨step_halting hu hstep, hclosing', hactive'.trans hactive, hundone'.trans hsame,
        by omega⟩)
    (by
      rintro u a u' ⟨hu, hclosing, -⟩ ⟨id, move, rfl, hid⟩ hstep
      exact (task_closes hu hclosing hstep).1.weight_lt)
    s ⟨hs, hclosing, rfl, rfl, hfull⟩
  -- the queue is full, or only those are left that the manager waits for
  have hstuck : EVENT_BUFFER_COUNT < s'.queue.length + s'.undone := by
    have hle := hs'.queue_le
    by_cases hroom : s'.queue.length < EVENT_BUFFER_COUNT
    · have hdebt : s'.debt = s'.undone := by
        apply count_congr
        intro id _
        constructor
        · rintro ⟨hunfinished, hmem | hleaving⟩
          · exact ⟨hmem, hunfinished⟩
          · by_cases hmem : id ∈ s'.activeTracks
            · exact ⟨hmem, hunfinished⟩
            · exfalso
              obtain ⟨t, ht, -⟩ := lookup_of_isUnfinished hunfinished
              obtain ⟨move, hmove⟩ := leaving_enabled hs' (ne_ended_of_isClosing hclosing') ht
                ((isLeaving_iff ht).mp hleaving) hroom
              exact hquiet (.task id move) ⟨id, move, rfl, hactive ▸ hmem⟩ hmove
        · exact fun h => ⟨h.2, .inl h.1⟩
      omega
    · omega
  intro hprogress
  refine stuck_of_undone hs' hclosing' hstuck ?_
  intro rest s'' hparty hrest hend
  refine hprogress (run ++ rest) s'' ?_ (exec_append.mpr ⟨s', hrun, hrest⟩) hend
  intro a ha
  rcases List.mem_append.mp ha with ha | ha
  · obtain ⟨id, move, rfl, -⟩ := hdetached a ha
    rfl
  · exact hparty a ha

/-! ## The shutdown of a manager in any state -/

/-- Taking up the event leaves the numbers as they are. -/
theorem shuts_step {rest : List InputEvent} (hmode : s.mode = .running)
    (hqueue : s.queue = .shutdown :: rest) (hstep : s.step (.manager turn) = some s') :
    s'.isClosing ∧ s'.queue = rest ∧ s'.undone = s.undone ∧ s'.debt = s.debt := by
  simp only [step, managerStep, hmode, hqueue, Option.some.injEq] at hstep
  subst hstep
  have hactive : ∀ id, id ∈ activeTracks ({ s with mode := .running, queue := rest }.handle turn
      .shutdown) ↔ id ∈ s.activeTracks := by
    intro id
    rw [mem_activeTracks, mem_activeTracks]
    constructor
    · rintro (⟨h, hd | hheld⟩ | ⟨todo, hc⟩)
      · cases hd
      · exact .inl ⟨h, .inl ((mem_inOrder s.descriptors turn.order h _).mp hheld)⟩
      · cases hc
    · rintro (⟨h, hreg⟩ | ⟨todo, hc⟩)
      · have hd := (registered_iff_of_running hmode).mp hreg
        exact .inl ⟨h, .inr ((mem_inOrder s.descriptors turn.order h _).mpr hd)⟩
      · rw [hmode] at hc
        cases hc
  refine ⟨.inl ⟨_, rfl⟩, rfl, ?_, ?_⟩
  · apply count_congr
    intro id _
    rw [hactive]
    rfl
  · apply count_congr
    intro id _
    rw [hactive]
    rfl

theorem progresses_iff (hs : s.Halting) (hstep : s.step a = some s') (hshuts : s.Shuts a) :
    s'.Progresses ↔ s.HasRoom := by
  obtain ⟨ha, hmode, rest, hqueue⟩ := hshuts
  cases a with
  | manager turn =>
    have hs' := step_halting hs hstep
    obtain ⟨hclosing, hrest, hundone, hdebt⟩ := shuts_step hmode hqueue hstep
    have htail : s'.queue.length = s.queue.tail.length := by
      rw [hrest, hqueue]
      rfl
    unfold HasRoom
    rw [← hundone, ← hdebt, ← htail]
    constructor
    · intro hprogress
      by_contra hnone
      push Not at hnone
      exact stuck_of_debt hs' hclosing (Nat.pos_of_ne_zero hnone.1) hnone.2 hprogress
    · exact progresses_of_room hs' hclosing
  | _ => cases ha

/-- **A shutdown does not get stuck.** In every run, when the manager takes up the event to shut
down, it and the track tasks can go on until it is finished whatever they do, exactly when there
is no task to wait for or the requests of all tasks that are going to end fit into the queue. -/
theorem shutdown_iff (provider : Option EncryptionProvider) (run : List Action) :
    EachStep State.step (fun s a s' => s.Shuts a → s'.Progresses) (new provider) run
      ↔ EachStep State.step (fun s a _ => s.Shuts a → s.HasRoom) (new provider) run := by
  refine eachStep_iff ?_ ?_ (new_halting provider)
  · intro s a _ s' hs hstep
    exact forall_congr' fun hshuts => progresses_iff hs hstep hshuts
  · intro s a _ s' hs hstep _
    exact step_halting hs hstep

/-- Two tracks are published, and fifteen events are left in the queue behind the one to shut
down: the requests of the two tasks do not both fit. -/
theorem shutdown_stuck : ¬ ∀ run : List Action,
    EachStep State.step (fun s a s' => s.Shuts a → s'.Progresses) (new none) run := by
  intro hall
  let second : List Action := [.publish ⟨"second"⟩, .manager .zero,
    .sendInput (.sfuPublishResponse (.ofInfo
      ⟨⟨"DTR_B", by decide⟩, ⟨2, by decide⟩, "second", false⟩)),
    .manager .zero, .manager .zero, .forward 1 .deliver, .task 1 .start]
  let before : List Action := publishedRun false ++ second ++
    .sendInput .shutdown :: List.replicate 15 (.sendInput .republishTracks)
  have hbefore : (exec State.step (new none) before).map (fun s => decide
      (s.mode = .running ∧ s.queue = .shutdown :: List.replicate 15 .republishTracks ∧
        ¬ s.HasRoom)) = some true := by decide
  obtain ⟨s, hs, hstate⟩ := Option.map_eq_some_iff.mp hbefore
  obtain ⟨hmode, hqueue, hfull⟩ := of_decide_eq_true hstate
  have hinv : s.Halting :=
    exec_invariant (fun s a s' hs hstep => step_halting hs hstep) (new_halting none) hs
  have hstep : s.step (.manager Turn.zero) = _ := step_event hmode hqueue
  have hshuts : s.Shuts (.manager Turn.zero) := ⟨rfl, hmode, _, hqueue⟩
  obtain ⟨-, hlast⟩ := (hall (before ++ [.manager Turn.zero])).append hs
  exact hfull ((progresses_iff hinv hstep hshuts).mp ((hlast _ hstep).1 hshuts))

end State

end LiveKit.DataTrack.Local
