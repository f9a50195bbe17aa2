import LiveKit.DataTrack.Local.Forwarding

/-!
# Publications that nobody holds

After the SFU has accepted a publication, the manager should have an active track for it, or the
SFU should be asked to end it. That may come later: `Owed` says that an unpublish request is on
its way, in the queue of the manager or in a track task. `noOrphan_iff` says when every accepted
publication is accounted for: a response must not find that the caller of its publish request is
gone, nor a track that is published already.
-/

namespace LiveKit.DataTrack.Local

open AList List Option AssocMap TransitionSystem

/-- The task has not left its loop. -/
def TaskPhase.isRunning : TaskPhase → Bool
  | .spawned | .running _ => true
  | .unpublishing | .ended => false

namespace State

/-- There is an active descriptor for the handle, and the task of its track runs. -/
def Served (s : State) (h : Handle) : Prop :=
  ∃ id t, AList.lookup h s.descriptors = some (.active id) ∧
    AList.lookup id s.tracks = some t ∧ t.phase.isRunning = true

/-- The task is going to request that its track is unpublished: it has left its loop, or it will
see that the track is unpublished and there is no descriptor through which that could change. -/
inductive EndsTrack (s : State) (id : TrackId) (t : TrackState) : Prop
  | unpublishing (hphase : t.phase = .unpublishing)
  | spawned (hphase : t.phase = .spawned) (hstate : t.state = .unpublished)
      (hgone : ¬ s.Registered t.info.pubHandle (.active id))
  | running (seen : PublishState) (hphase : t.phase = .running seen) (hchanged : t.changed = true)
      (hstate : t.state = .unpublished) (hgone : ¬ s.Registered t.info.pubHandle (.active id))

/-- An unpublish request for the handle is on its way to the manager. -/
def Owed (s : State) (h : Handle) : Prop :=
  .unpublishRequest ⟨h⟩ ∈ s.queue ∨
  ∃ id t, AList.lookup id s.tracks = some t ∧ t.info.pubHandle = h ∧ s.EndsTrack id t

/-- The handle is accounted for after the step from `s` to `s'`: there is an active track for it,
or in all that may follow an unpublish request has been sent to the SFU since `s`, or it is on
its way, or the manager was shut down. -/
def Settled (s s' : State) (h : Handle) : Prop :=
  s'.Served h ∨ ∀ rest s'', exec State.step s' rest = some s'' →
    .sfuUnpublishRequest ⟨h⟩ ∈ s''.outputs.drop s.outputs.length ∨ s''.Owed h ∨
      s''.mode.isStopped = true

/-- In this step the manager finishes with a response of the SFU that accepts a publication. -/
inductive Processed (s : State) (a : Action) (s' : State) : Handle → Prop
  | atOnce (turn : Turn) (event : SfuPublishResponse) (rest : List InputEvent)
      (info : DataTrackInfo) (ha : a = .manager turn) (hmode : s.mode = .running)
      (hqueue : s.queue = .sfuPublishResponse event :: rest) (hresult : event.result = .ok info)
      (hmode' : s'.mode = .running) : Processed s a s' event.handle
  | created (turn : Turn) (info : DataTrackInfo) (resultTx : RequestId) (ha : a = .manager turn)
      (hmode : s.mode = .creating info resultTx) : Processed s a s' info.pubHandle
  | republished (turn : Turn) (h : Handle) (track : TrackId) (sid : DataTrackSid)
      (ha : a = .manager turn) (hmode : s.mode = .responding h track sid) : Processed s a s' h

/-- The condition on a step: when the manager takes up a response that accepts a publication, the
channel for the result of a pending publication is open, and the track of an active one whose
task runs is not published already. -/
def Accounted (s : State) (a : Action) : Prop :=
  a.isManager →
    match s.mode, s.queue with
    | .running, .sfuPublishResponse event :: _ =>
      (∃ info, event.result = .ok info) →
        match AList.lookup event.handle s.descriptors with
        | some (.pending resultTx) => s.isClosed resultTx = false
        | some (.active id) => ∀ t, AList.lookup id s.tracks = some t →
            t.phase.isRunning = true → t.state ≠ .published
        | none => True
    | _, _ => True

/-! ## Tasks that end -/

/-- A task that has ended while the manager still has its descriptor has left its request in the
queue, a task that runs will look again when its track is unpublished, and every unpublish
request comes from a task that has ended. -/
structure Attended (s : State) : Prop where
  ended : ∀ h id t, s.Registered h (.active id) → AList.lookup id s.tracks = some t →
    t.phase = .ended → .unpublishRequest ⟨h⟩ ∈ s.queue
  changed : ∀ id t seen, AList.lookup id s.tracks = some t → t.phase = .running seen →
    t.state = .unpublished → t.changed = true
  requested : ∀ h, .unpublishRequest ⟨h⟩ ∈ s.queue →
    ∃ id t, AList.lookup id s.tracks = some t ∧ t.info.pubHandle = h ∧ t.phase = .ended

theorem new_attended (provider : Option EncryptionProvider) : (new provider).Attended where
  ended := by simp [new, Registered, Mode.held]
  changed := by simp [new]
  requested := by simp [new]

variable {s s' : State} {a : Action}

/-- What a step of its task does to a track. -/
inductive TaskChange (s s' : State) (t t' : TrackState) : Prop
  | start (hphase : t.phase = .spawned) (hphase' : t'.phase = loop t.state)
      (hchanged : t'.changed = t.changed) (hframes : t'.frames = t.frames)
      (hqueue : s'.queue = s.queue)
  | observe (seen : PublishState) (hphase : t.phase = .running seen)
      (hphase' : t'.phase = loop t.state) (hchanged : t.changed = true ∧ t'.changed = false)
      (hframes : t'.frames = t.frames) (hqueue : s'.queue = s.queue)
  | frame (seen : PublishState) (hphase : t.phase = .running seen) (hphase' : t'.phase = t.phase)
      (hchanged : t'.changed = t.changed) (hframes : t.frames.length = t'.frames.length + 1)
      (hqueue : s'.queue = s.queue)
  | unpublish (hphase : t.phase = .unpublishing) (hphase' : t'.phase = .ended)
      (hmode : s.mode ≠ .ended) (hroom : s.queue.length < EVENT_BUFFER_COUNT)
      (hqueue : s'.queue = s.queue ++ [.unpublishRequest ⟨t.info.pubHandle⟩])
      (hchanged : t'.changed = t.changed) (hframes : t'.frames = t.frames)
  | finish (hphase : t.phase = .unpublishing) (hphase' : t'.phase = .ended)
      (hmode : s.mode = .ended)

variable {id : TrackId} {move : TaskMove} {resultTx : RequestId} {h : Handle}
  {rest : List InputEvent} {n : ℕ}

/-- A step of a task changes its track only. -/
theorem task_step (hstep : s.step (.task id move) = some s') :
    ∃ t t', lookup id s.tracks = some t ∧ s'.tracks = insert id t' s.tracks ∧
      t'.state = t.state ∧ TaskChange s s' t t' := by
  obtain ⟨t, ht, hturn⟩ := taskTurn hstep
  cases hturn with
  | start hphase => exact ⟨t, _, ht, rfl, rfl, .start hphase rfl rfl rfl rfl⟩
  | observe seen hphase hchanged =>
    exact ⟨t, _, ht, rfl, rfl, .observe seen hphase rfl ⟨hchanged, rfl⟩ rfl rfl⟩
  | skip frame frames _ _ _ hphase hframes | process seen frame frames _ _ _ hphase _ hframes =>
    exact ⟨t, _, ht, rfl, rfl, .frame _ hphase rfl rfl (by rw [hframes]; rfl) rfl⟩
  | unpublish hphase hmode hroom =>
    exact ⟨t, _, ht, rfl, rfl, .unpublish hphase rfl hmode hroom rfl rfl rfl⟩
  | finish hphase hmode => exact ⟨t, _, ht, rfl, rfl, .finish hphase rfl hmode⟩

variable {t t' : TrackState}

theorem taskChange_of_step (hstep : s.step (.task id move) = some s')
    (ht : lookup id s.tracks = some t) (ht' : lookup id s'.tracks = some t') :
    TaskChange s s' t t' := by
  obtain ⟨u, u', hu, htracks, -, hchange⟩ := task_step hstep
  rw [ht, some.injEq] at hu
  rw [htracks, lookup_insert, some.injEq] at ht'
  rw [hu, ← ht']
  exact hchange

/-- The phase of a track changes only in a step of its task. -/
theorem phase_of_change (hstep : s.step a = some s') (ht : lookup id s.tracks = some t)
    (ht' : lookup id s'.tracks = some t') (hchange : t' = t ∨ TrackChange s a id t t') :
    t'.phase = t.phase ∨ TaskChange s s' t t' := by
  rcases hchange with rfl | hchange
  · exact .inl rfl
  · cases hchange with
    | unpublish | mark | respond => exact .inl (TrackState.send_phase _ _)
    | use frames waiters => exact .inl rfl
    | task move t' ha =>
      subst ha
      exact .inr (taskChange_of_step hstep ht ht')

theorem loop_eq_running {state seen : PublishState} (h : loop state = .running seen) :
    state ≠ .unpublished := by
  intro hc
  rw [hc] at h
  cases h

theorem loop_ne_ended (state : PublishState) : loop state ≠ .ended := by
  unfold loop
  split
  · simp
  · simp

variable {info : DataTrackInfo} {turn : Turn}

/-- A new track is spawned, whoever waits for it. -/
theorem phase_created (hstep : s.step (.manager turn) = some s')
    (hmode : s.mode = .creating info resultTx) (ht : lookup s.nextTrack s'.tracks = some t) :
    t.phase = .spawned := by
  obtain ⟨u, hu, hnew⟩ := created_track hstep hmode
  rw [ht, some.injEq] at hu
  rw [hu]
  rcases hnew with rfl | rfl
  · rfl
  · rw [TrackState.send_phase]
    rfl

/-- A track was there before, or this step creates it. -/
theorem track_origin (hstep : s.step a = some s') (ht' : lookup id s'.tracks = some t') :
    (∃ t, lookup id s.tracks = some t ∧ (t' = t ∨ TrackChange s a id t t')) ∨
    id = s.nextTrack ∧ t'.phase = .spawned := by
  obtain ⟨t, ht, hchange⟩ := (step_tracks hstep).to_some ht'
  unfold tracksWithNew at ht
  split at ht
  · next turn info resultTx hmode =>
    rcases of_lookup_insert ht with ⟨rfl, -⟩ | ⟨-, ht⟩
    · exact .inr ⟨rfl, phase_created hstep hmode ht'⟩
    · exact .inl ⟨t, ht, hchange⟩
  · exact .inl ⟨t, ht, hchange⟩

/-- An unpublish request that is in the queue stays there, or the manager handles it. -/
theorem unpublishRequest_kept {h : Handle} (hstep : s.step a = some s')
    (hmem : .unpublishRequest ⟨h⟩ ∈ s.queue) :
    .unpublishRequest ⟨h⟩ ∈ s'.queue ∨
      (∃ turn, a = .manager turn ∧ s.mode = .running ∧
        s.queue = .unpublishRequest ⟨h⟩ :: s'.queue) ∨
      ∃ turn, a = .manager turn ∧ s.mode ≠ .running ∧ s'.mode = .ended := by
  by_cases ha : a.isManager = false
  · left
    have hother := step_other hstep ha
    rcases hother.queue with hsame | ⟨-, event, hmore⟩
    · rw [hsame]
      exact hmem
    · rw [hmore]
      exact mem_append_left _ hmem
  · cases a with
    | manager turn =>
      obtain ⟨-, ⟨hmode, event, hqueue⟩ | ⟨hmode, ⟨-, hsame⟩ | ⟨-, hended, -⟩⟩⟩ :=
        managerTurn_queue (managerTurn hstep)
      · rw [hqueue] at hmem
        rcases mem_cons.mp hmem with heq | hrest
        · exact .inr (.inl ⟨turn, rfl, hmode, by rw [heq]; exact hqueue⟩)
        · exact .inl hrest
      · rw [hsame]
        exact .inl hmem
      · exact .inr (.inr ⟨turn, rfl, hmode, hended⟩)
    | _ => exact absurd rfl ha

/-- Where an unpublish request in the queue comes from. -/
theorem unpublishRequest_origin (hstep : s.step a = some s')
    (hmem : .unpublishRequest ⟨h⟩ ∈ s'.queue) :
    .unpublishRequest ⟨h⟩ ∈ s.queue ∨ ∃ id move t, a = .task id move ∧
      lookup id s.tracks = some t ∧ t.phase = .unpublishing ∧ t.info.pubHandle = h := by
  by_cases ha : a.isManager = false
  · have hchange := (step_queue hstep ha).1
    generalize s'.queue = queue' at hchange hmem
    cases hchange with
    | same => exact .inl hmem
    | publish | cancelled => exact .inl (by simpa using hmem)
    | unpublish track move t ha ht hphase =>
      rcases mem_append.mp hmem with hold | hnew
      · exact .inl hold
      · obtain rfl : h = t.info.pubHandle := by simpa using hnew
        exact .inr ⟨track, move, t, ha, ht, hphase, rfl⟩
    | other event hevent =>
      rcases mem_append.mp hmem with hold | hnew
      · exact .inl hold
      · rw [mem_singleton] at hnew
        rw [← hnew] at hevent
        cases hevent
  · left
    cases a with
    | manager turn =>
      obtain ⟨-, ⟨-, event, hqueue⟩ | ⟨-, ⟨-, hsame⟩ | ⟨-, -, hnil⟩⟩⟩ :=
        managerTurn_queue (managerTurn hstep)
      · rw [hqueue]
        exact mem_cons_of_mem _ hmem
      · rwa [hsame] at hmem
      · rw [hnil] at hmem
        cases hmem
    | _ => exact absurd rfl ha

/-- After an unpublish request the manager has no descriptor for its handle. -/
theorem unpublishRequest_handled (hstep : s.step (.manager turn) = some s')
    (hmode : s.mode = .running) (hqueue : s.queue = .unpublishRequest ⟨h⟩ :: rest) :
    (∀ d, ¬ s'.Registered h d) ∧ s'.outputs = s.outputs ++ [.sfuUnpublishRequest ⟨h⟩] := by
  obtain ⟨_, _, he, herase, -⟩ := removeDescriptor_eq { s with queue := rest } h
  have hs' : s' = ({ s with queue := rest }.onUnpublishRequest ⟨h⟩) := by
    simp only [step, managerStep, hmode, hqueue, some.injEq] at hstep
    rw [← hstep, hmode]
    rfl
  rw [hs', onUnpublishRequest, he]
  refine ⟨?_, rfl⟩
  intro d hreg
  have hd := (registered_iff_of_running (by exact hmode)).mp hreg
  have hnone := (herase h).trans (if_pos rfl)
  cases hd.symm.trans hnone

theorem step_attended (hc : s.Coherent) (hs : s.Attended) (hstep : s.step a = some s') :
    s'.Attended := by
  have hc' : s'.Coherent := step_coherent hc hstep
  constructor
  · -- `ended`
    intro h id t' hreg ht' hphase'
    rcases track_origin hstep ht' with ⟨t, ht, hchange⟩ | ⟨-, hspawned⟩
    · have hnew : id ≠ s.nextTrack := Nat.ne_of_lt (hc.track_lt id t ht)
      -- the descriptor was there before, since the track was
      have hold : s.Registered h (.active id) := by
        rcases step_registered hstep with ⟨hback, -⟩ | ⟨_, _, _, -, -, -, -, -, hback⟩ |
          ⟨_, _, _, -, -, -, -, hback⟩
        · exact hback _ _ hreg
        · rcases hback _ _ hreg with hold | ⟨-, hpending⟩
          · exact hold
          · cases hpending
        · rcases hback _ _ hreg with ⟨-, hactive⟩ | ⟨-, hold⟩
          · cases hactive
            exact absurd rfl hnew
          · exact hold
      obtain ⟨u, hu, hhandle⟩ := hc.active_track h id hold
      cases ht.symm.trans hu
      have hkept : t.phase = .ended → .unpublishRequest ⟨h⟩ ∈ s'.queue := by
        intro hphase
        rcases unpublishRequest_kept hstep (hs.ended h id t hold ht hphase) with
          hmem | ⟨turn, rfl, hmode, hqueue⟩ | ⟨turn, -, -, hended⟩
        · exact hmem
        · exact absurd hreg ((unpublishRequest_handled hstep hmode hqueue).1 _)
        · -- the manager has nothing in the end
          rcases hreg with hd | hmem
          · rw [hc'.stopped_absent (by rw [hended]; rfl)] at hd
            cases hd
          · rw [hended] at hmem
            cases hmem
      -- the task ended before this step, or in it
      rcases phase_of_change hstep ht ht' hchange with hsame | htask
      · exact hkept (hsame ▸ hphase')
      · cases htask with
        | start _ hloop | observe _ _ hloop =>
          exact absurd (hloop.symm.trans hphase') (loop_ne_ended _)
        | frame seen hphase hsame =>
          rw [hsame, hphase] at hphase'
          cases hphase'
        | unpublish hphase hended hmode hroom hqueue =>
          rw [hqueue, hhandle]
          exact mem_append_right _ (mem_singleton_self _)
        | finish hphase hended hmode =>
          rcases hold with hd | hmem
          · rw [hc.stopped_absent (by rw [hmode]; rfl)] at hd
            cases hd
          · rw [hmode] at hmem
            cases hmem
    · rw [hspawned] at hphase'
      cases hphase'
  · -- `changed`
    intro id t' seen ht' hphase' hstate'
    rcases track_origin hstep ht' with ⟨t, ht, hchange⟩ | ⟨-, hspawned⟩
    · -- a state that is sent is news to the task
      have hsent : ∀ (u : TrackState) (state : PublishState), u.phase = t.phase →
          u.changed = t.changed → (u.state = t.state) → t' = u.send state →
          t'.changed = true := by
        intro u state hphase hchanged hstate heq
        by_cases hreceiver : u.hasReceiver = true
        · rw [heq, TrackState.send_of_hasReceiver hreceiver]
        · have hsame := TrackState.send_of_not_hasReceiver (by simpa using hreceiver) state
          rw [heq, hsame] at hphase' hstate' ⊢
          rw [hchanged]
          exact hs.changed id t seen ht (hphase ▸ hphase') (hstate ▸ hstate')
      rcases hchange with rfl | hchange
      · exact hs.changed id t' seen ht hphase' hstate'
      · cases hchange with
        | unpublish => exact hsent t .unpublished rfl rfl rfl rfl
        | mark turn handle todo => exact hsent t .republishing rfl rfl rfl rfl
        | respond turn handle sid => exact hsent (t.setSid sid) .published rfl rfl rfl rfl
        | use frames waiters => exact hs.changed id t seen ht hphase' hstate'
        | task move t' ha hinfo hstate =>
          subst ha
          cases taskChange_of_step hstep ht ht' with
          | start _ hloop | observe _ _ hloop =>
            rw [hloop] at hphase'
            exact absurd (hstate ▸ hstate') (loop_eq_running hphase')
          | frame _ hphase hsame hchanged =>
            rw [hchanged]
            exact hs.changed id t seen ht (hsame ▸ hphase') (hstate ▸ hstate')
          | unpublish _ hended | finish _ hended =>
            rw [hended] at hphase'
            cases hphase'
    · rw [hspawned] at hphase'
      cases hphase'
  · -- `requested`
    intro h hmem
    rcases unpublishRequest_origin hstep hmem with hold | ⟨id, move, t, rfl, ht, hphase, hhandle⟩
    · obtain ⟨id, t, ht, hhandle, hphase⟩ := hs.requested h hold
      -- the track of an old request is still there, in the same phase
      obtain ⟨t', ht', hchange⟩ := track_kept hc.toConsistent hstep ht
      have hsame : t'.info.pubHandle = t.info.pubHandle := by
        rcases hchange with rfl | hchange
        · rfl
        · exact hchange.pubHandle
      refine ⟨id, t', ht', hsame.trans hhandle, ?_⟩
      rcases phase_of_change hstep ht ht' hchange with heq | htask
      · exact heq.trans hphase
      · cases htask with
        | start hc' | observe _ hc' | frame _ hc' | unpublish hc' | finish hc' =>
          rw [hphase] at hc'; cases hc'
    · obtain ⟨t', ht', hsame⟩ := handle_kept hc.toConsistent hstep ht
      refine ⟨id, t', ht', hsame.trans hhandle, ?_⟩
      cases taskChange_of_step hstep ht ht' with
      | start hc' | observe _ hc' | frame _ hc' => rw [hphase] at hc'; cases hc'
      | unpublish _ hended | finish _ hended => exact hended

/-! ## What is owed -/

theorem stopped_kept (hstep : s.step a = some s') (hstopped : s.mode.isStopped = true) :
    s'.mode.isStopped = true := by
  by_cases ha : a.isManager = false
  · rw [(step_other hstep ha).mode]
    exact hstopped
  · cases a with
    | manager turn =>
      cases managerTurn hstep with
      | stopEnd | stopPending | stopActive | awaited => rfl
      | event _ _ hmode | publish _ _ hmode | respond _ _ _ hmode | republishEnd hmode
      | republishPending _ _ _ hmode | mark _ _ _ hmode | request _ _ _ hmode =>
        rw [hmode] at hstopped; cases hstopped
    | _ => exact absurd rfl ha

/-- A track without a descriptor does not get one back. -/
theorem not_registered_kept (hs : s.Coherent) (hstep : s.step a = some s')
    (ht : lookup id s.tracks = some t) (hgone : ¬ s.Registered h (.active id)) :
    ¬ s'.Registered h (.active id) := by
  intro hreg
  rcases step_registered hstep with ⟨hback, -⟩ | ⟨_, _, _, -, -, -, -, -, hback⟩ |
    ⟨_, _, _, -, -, -, -, hback⟩
  · exact hgone (hback _ _ hreg)
  · rcases hback _ _ hreg with hold | ⟨-, hpending⟩
    · exact hgone hold
    · cases hpending
  · rcases hback _ _ hreg with ⟨-, hactive⟩ | ⟨-, hold⟩
    · cases hactive
      exact Nat.lt_irrefl _ (hs.track_lt _ t ht)
    · exact hgone hold

/-- The state of an unpublished track without a descriptor does not change, and its task is not
made to forget it. -/
theorem state_of_change (hs : s.Coherent) (ht : lookup id s.tracks = some t)
    (hchange : t' = t ∨ TrackChange s a id t t') (hstate : t.state = .unpublished)
    (hgone : ¬ s.Registered t.info.pubHandle (.active id)) :
    t'.state = .unpublished ∧
      ((t.changed = true → t'.changed = true) ∨ ∃ move, a = .task id move) := by
  have hheld : ∀ handle, ¬ s.Registered handle (.active id) := by
    intro handle hreg
    obtain ⟨u, hu, hhandle⟩ := hs.active_track handle id hreg
    rw [ht, some.injEq] at hu
    rw [← hhandle, ← hu] at hreg
    exact hgone hreg
  rcases hchange with rfl | hchange
  · exact ⟨hstate, .inl fun hflag => hflag⟩
  · cases hchange with
    | unpublish =>
      refine ⟨TrackState.send_unpublished_state hstate, .inl ?_⟩
      intro hflag
      by_cases hreceiver : t.hasReceiver = true
      · rw [TrackState.send_of_hasReceiver hreceiver]
      · rw [TrackState.send_of_not_hasReceiver (by simpa using hreceiver)]
        exact hflag
    | mark turn handle todo ha hmode =>
      refine absurd (.inr ?_) (hheld handle)
      rw [hmode]
      exact mem_cons_self
    | respond turn handle sid ha hmode =>
      refine absurd (.inr ?_) (hheld handle)
      rw [hmode]
      exact mem_singleton_self _
    | use frames waiters => exact ⟨hstate, .inl fun hflag => hflag⟩
    | task move t' ha hinfo hsame => exact ⟨hsame.trans hstate, .inr ⟨move, ha⟩⟩

/-- A task that is going to request the end of its track does so, or still is going to. -/
theorem endsTrack_kept (hs : s.Coherent) (hstep : s.step a = some s')
    (ht : lookup id s.tracks = some t) (ht' : lookup id s'.tracks = some t')
    (hchange : t' = t ∨ TrackChange s a id t t') (hends : s.EndsTrack id t) :
    s'.EndsTrack id t' ∨ .unpublishRequest ⟨t.info.pubHandle⟩ ∈ s'.queue ∨ s'.mode = .ended := by
  have hhandle : t'.info.pubHandle = t.info.pubHandle := by
    rcases hchange with rfl | hchange
    · rfl
    · exact hchange.pubHandle
  cases hends with
  | unpublishing hphase =>
    rcases phase_of_change hstep ht ht' hchange with hsame | htask
    · exact .inl (.unpublishing (hsame.trans hphase))
    · cases htask with
      | start hc | observe _ hc => rw [hphase] at hc; cases hc
      | frame _ _ hsame => exact .inl (.unpublishing (hsame.trans hphase))
      | unpublish _ _ hmode _ hqueue =>
        right; left
        rw [hqueue]
        exact mem_append_right _ (mem_singleton_self _)
      | finish _ _ hmode =>
        cases a with
        | manager turn =>
          -- an ended manager takes no turn
          obtain ⟨-, ⟨hrun, -⟩ | ⟨-, -⟩⟩ := managerTurn_queue (managerTurn hstep)
          · rw [hmode] at hrun
            cases hrun
          · simp [step, managerStep, hmode] at hstep
        | _ => exact .inr (.inr (((step_other hstep rfl).mode).trans hmode))
  | spawned hphase hstate hgone =>
    -- what is not registered any more does not come back
    have hgone' : ¬ s'.Registered t'.info.pubHandle (.active id) := by
      rw [hhandle]
      exact not_registered_kept hs hstep ht hgone
    have hstate' : t'.state = .unpublished := (state_of_change hs ht hchange hstate hgone).1
    rcases phase_of_change hstep ht ht' hchange with hsame | htask
    · exact .inl (.spawned (hsame.trans hphase) hstate' hgone')
    · cases htask with
      | start _ hloop =>
        rw [hstate] at hloop
        exact .inl (.unpublishing hloop)
      | observe _ hc | frame _ hc | unpublish hc | finish hc => rw [hphase] at hc; cases hc
  | running seen hphase hflag hstate hgone =>
    have hgone' : ¬ s'.Registered t'.info.pubHandle (.active id) := by
      rw [hhandle]
      exact not_registered_kept hs hstep ht hgone
    obtain ⟨hstate', hchanged | ⟨move, rfl⟩⟩ := state_of_change hs ht hchange hstate hgone
    · rcases phase_of_change hstep ht ht' hchange with hsame | htask
      · exact .inl (.running seen (hsame.trans hphase) (hchanged hflag) hstate' hgone')
      · cases htask with
        | start hc | unpublish hc | finish hc => rw [hphase] at hc; cases hc
        | observe _ _ hloop =>
          rw [hstate] at hloop
          exact .inl (.unpublishing hloop)
        | frame _ _ hsame =>
          exact .inl (.running seen (hsame.trans hphase) (hchanged hflag) hstate' hgone')
    · cases taskChange_of_step hstep ht ht' with
      | start hc | unpublish hc | finish hc => rw [hphase] at hc; cases hc
      | observe _ _ hloop =>
        rw [hstate] at hloop
        exact .inl (.unpublishing hloop)
      | frame _ _ hsame hkept =>
        exact .inl (.running seen (hsame.trans hphase) (hkept.trans hflag) hstate' hgone')

/-- What is owed stays owed until it is sent, or the manager is shut down. -/
theorem step_owed (hs : s.Coherent) (hstep : s.step a = some s') (howed : s.Owed h) :
    .sfuUnpublishRequest ⟨h⟩ ∈ s'.outputs.drop s.outputs.length ∨
      s'.Owed h ∨ s'.mode.isStopped = true := by
  rcases howed with hmem | ⟨id, t, ht, rfl, hends⟩
  · rcases unpublishRequest_kept hstep hmem with
      hkept | ⟨turn, rfl, hmode, hqueue⟩ | ⟨turn, -, -, hended⟩
    · exact .inr (.inl (.inl hkept))
    · left
      rw [(unpublishRequest_handled hstep hmode hqueue).2, drop_left]
      exact mem_singleton_self _
    · right; right
      rw [hended]
      rfl
  · right
    obtain ⟨t', ht', hchange⟩ := track_kept hs.toConsistent hstep ht
    have hhandle : t'.info.pubHandle = t.info.pubHandle := by
      rcases hchange with rfl | hchange
      · rfl
      · exact hchange.pubHandle
    rcases endsTrack_kept hs hstep ht ht' hchange hends with hkept | hrequest | hended
    · exact .inl (.inr ⟨id, t', ht', hhandle, hkept⟩)
    · exact .inl (.inl hrequest)
    · right
      rw [hended]
      rfl

/-- What was sent stays sent. -/
theorem mem_drop_outputs (hstep : s.step a = some s') {e : OutputEvent}
    (hmem : e ∈ s.outputs.drop n) : e ∈ s'.outputs.drop n := by
  obtain ⟨new, houtputs, -⟩ := step_outputs hstep
  rw [houtputs, drop_append]
  exact mem_append_left _ hmem

/-- So it is over whole runs. -/
theorem exec_owed {rest : List Action} (hs : s.Coherent) (hn : n ≤ s.outputs.length)
    (howed : .sfuUnpublishRequest ⟨h⟩ ∈ s.outputs.drop n ∨ s.Owed h ∨ s.mode.isStopped = true)
    (hrest : exec State.step s rest = some s') :
    .sfuUnpublishRequest ⟨h⟩ ∈ s'.outputs.drop n ∨ s'.Owed h ∨ s'.mode.isStopped = true := by
  have hall : s'.Coherent ∧ n ≤ s'.outputs.length ∧
      (.sfuUnpublishRequest ⟨h⟩ ∈ s'.outputs.drop n ∨ s'.Owed h ∨ s'.mode.isStopped = true) := by
    refine exec_invariant (I := fun s => s.Coherent ∧ n ≤ s.outputs.length ∧
      (.sfuUnpublishRequest ⟨h⟩ ∈ s.outputs.drop n ∨ s.Owed h ∨ s.mode.isStopped = true)) ?_
      ⟨hs, hn, howed⟩ hrest
    rintro s a s' ⟨hs, hn, howed⟩ hstep
    obtain ⟨new, houtputs, -⟩ := step_outputs hstep
    have hle : s.outputs.length ≤ s'.outputs.length := by
      rw [houtputs, length_append]
      omega
    refine ⟨step_coherent hs hstep, Nat.le_trans hn hle, ?_⟩
    rcases howed with hmem | howed | hstopped
    · exact .inl (mem_drop_outputs hstep hmem)
    · rcases step_owed hs hstep howed with hmem | hlater
      · left
        -- what the step sends comes after the first `n`
        rw [houtputs, drop_left] at hmem
        rw [houtputs, drop_append_of_le_length hn]
        exact mem_append_right _ hmem
      · exact .inr hlater
    · exact .inr (.inr (stopped_kept hstep hstopped))
  exact hall.2.2

/-! ## Responses -/

/-- What is owed at the end of a step settles the handle. -/
theorem settled_of_owed (hs : s.Coherent) (hstep : s.step a = some s')
    (howed : .sfuUnpublishRequest ⟨h⟩ ∈ s'.outputs.drop s.outputs.length ∨ s'.Owed h) :
    s.Settled s' h := by
  right
  intro rest s'' hrest
  obtain ⟨new, houtputs, -⟩ := step_outputs hstep
  have hle : s.outputs.length ≤ s'.outputs.length := by
    rw [houtputs, length_append]
    omega
  apply exec_owed (step_coherent hs hstep) hle ?_ hrest
  rcases howed with hmem | howed
  · exact .inl hmem
  · exact .inr (.inl howed)

/-- A track that is still there without a descriptor, and is unpublished or has left its loop. -/
theorem owed_of_lost (hs : s.Coherent) (hatt : s.Attended) (hreg : s.Registered h (.active id))
    (ht : lookup id s.tracks = some t) (hcond : t.phase.isRunning = true → t.state = .unpublished)
    (hqueue : .unpublishRequest ⟨h⟩ ∈ s.queue → .unpublishRequest ⟨h⟩ ∈ s'.queue)
    (ht' : lookup id s'.tracks = some t) (hgone : ¬ s'.Registered h (.active id)) :
    s'.Owed h := by
  have hhandle : t.info.pubHandle = h := by
    obtain ⟨u, hu, hhandle⟩ := hs.active_track h id hreg
    rw [ht, some.injEq] at hu
    rw [hu, hhandle]
  rw [← hhandle] at hgone
  cases hphase : t.phase with
  | spawned =>
    exact .inr ⟨id, t, ht', hhandle, .spawned hphase (hcond (by rw [hphase]; rfl)) hgone⟩
  | running seen =>
    have hstate := hcond (by rw [hphase]; rfl)
    exact .inr ⟨id, t, ht', hhandle,
      .running seen hphase (hatt.changed id t seen ht hphase hstate) hstate hgone⟩
  | unpublishing => exact .inr ⟨id, t, ht', hhandle, .unpublishing hphase⟩
  | ended => exact .inl (hqueue (hatt.ended h id t hreg ht hphase))

theorem settled_created (hmode : s.mode = .creating info resultTx)
    (hstep : s.step (.manager turn) = some s') : s.Settled s' info.pubHandle := by
  obtain ⟨t, ht, -⟩ := created_track hstep hmode
  have hphase := phase_created hstep hmode ht
  refine .inl ⟨s.nextTrack, t, ?_, ht, by rw [hphase]; rfl⟩
  cases managerTurn hstep with
  | publish info' resultTx' hmode' =>
    cases hmode.symm.trans hmode'
    exact lookup_insert _
  | _ => simp_all

theorem settled_republished (hs : s.Coherent) (hatt : s.Attended) {sid : DataTrackSid}
    (hmode : s.mode = .responding h id sid) (hstep : s.step (.manager turn) = some s') :
    s.Settled s' h := by
  have hreg : s.Registered h (.active id) := by
    right
    rw [hmode]
    exact mem_singleton_self _
  obtain ⟨t, ht, hhandle⟩ := hs.active_track h id hreg
  have hs' : s' = s.republished h id sid := by
    simp only [step, managerStep, hmode, some.injEq] at hstep
    exact hstep.symm
  have ht' : lookup id s'.tracks = some ((t.setSid sid).send .published) := by
    rw [hs', republished, modifyTrack_lookup ht]
    exact lookup_insert _
  have hphase' : ((t.setSid sid).send .published).phase = t.phase := TrackState.send_phase _ _
  have hqueue : s'.queue = s.queue := by
    rw [hs', republished, modifyTrack_lookup ht]
  cases hphase : t.phase with
  | spawned | running =>
    left
    refine ⟨id, _, ?_, ht', by rw [hphase', hphase]; rfl⟩
    rw [hs', republished]
    exact lookup_insert _
  | unpublishing =>
    refine settled_of_owed hs hstep (.inr (.inr ⟨id, _, ht', ?_, .unpublishing ?_⟩))
    · rw [TrackState.send_info]
      exact hhandle
    · rw [hphase', hphase]
  | ended =>
    refine settled_of_owed hs hstep (.inr (.inl ?_))
    rw [hqueue]
    exact hatt.ended h id t hreg ht hphase

/-- A response that the manager is done with at once, under the condition. -/
theorem settled_atOnce (hs : s.Coherent) (hatt : s.Attended) {event : SfuPublishResponse}
    (hmode : s.mode = .running) (hqueue : s.queue = .sfuPublishResponse event :: rest)
    (hresult : event.result = .ok info) (hcond : s.Accounted (.manager turn))
    (hstep : s.step (.manager turn) = some s') (hmode' : s'.mode = .running) :
    s.Settled s' event.handle := by
  unfold Accounted at hcond
  rw [hmode, hqueue] at hcond
  have hcond := hcond rfl ⟨info, hresult⟩
  have hturn := eventTurn { s with queue := rest } turn (.sfuPublishResponse event)
  have hs' := hstep
  rw [step_event hmode hqueue, some.injEq] at hs'
  rw [hs'] at hturn
  cases hturn with
  | unknown =>
    apply settled_of_owed hs hstep
    left
    rw [drop_left]
    exact mem_singleton_self _
  | late _ resultTx hd hclosed =>
    rw [show lookup event.handle s.descriptors = _ from hd] at hcond
    have hopen : s.isClosed resultTx = false := hcond
    cases hopen.symm.trans hclosed
  | accept | respond => cases hmode'
  | reject _ resultTx err forwards' hd herr =>
    rw [hresult] at herr
    cases herr
  | forget _ id hd hstate =>
    rw [show lookup event.handle s.descriptors = _ from hd] at hcond
    have hreg : s.Registered event.handle (.active id) := .inl hd
    obtain ⟨t, ht, -⟩ := hs.active_track event.handle id hreg
    refine settled_of_owed hs hstep (.inr (owed_of_lost hs hatt hreg ht ?_ ?_ ?_ ?_))
    · -- the track is neither published nor being republished
      intro hrun
      have hnotPublished := hcond t ht hrun
      have hnotRepublishing : t.state ≠ .republishing := by
        rcases hstate with hne | ⟨err, herr⟩
        · intro hc
          apply hne
          rw [publishState, show lookup id s.tracks = some t from ht, map_some, hc]
        · rw [hresult] at herr
          cases herr
      cases hstate : t.state with
      | published => exact absurd hstate hnotPublished
      | republishing => exact absurd hstate hnotRepublishing
      | unpublished => rfl
    · intro hmem
      rw [hqueue] at hmem
      exact (mem_cons.mp hmem).resolve_left (by simp)
    · exact ht
    · rw [registered_iff_of_running hmode']
      have hnone : lookup event.handle (erase event.handle s.descriptors) = none :=
        lookup_erase _ _
      exact fun hc => by cases hnone.symm.trans hc

/-- Where nothing has been sent and nothing is on its way, a handle without an active track is not
settled. -/
theorem not_settled (hmode' : s'.mode = .running) (houtputs : s'.outputs = s.outputs)
    (hd : lookup h s'.descriptors = none) (howed : ¬ s'.Owed h) : ¬ s.Settled s' h := by
  intro hsettled
  rcases hsettled with ⟨id, t, hactive, -⟩ | hall
  · rw [hd] at hactive
    cases hactive
  · rcases hall [] s' rfl with hmem | hlater | hstopped
    · rw [houtputs, drop_length] at hmem
      cases hmem
    · exact howed hlater
    · rw [hmode'] at hstopped
      cases hstopped

theorem accounted_of_settled (hs : s.Coherent) (hatt : s.Attended) (hstep : s.step a = some s')
    (hsettled : ∀ h, Processed s a s' h → s.Settled s' h) : s.Accounted a := by
  intro ha
  cases a with
  | manager turn =>
    split
    · next event rest hmode hqueue =>
      intro hok
      obtain ⟨info, hresult⟩ := hok
      have hs' : s' = ({ s with queue := rest } : State).onSfuPublishResponse event := by
        simp only [step, managerStep, hmode, hqueue, some.injEq] at hstep
        rw [← hstep, hmode]
        rfl
      -- what the manager does when it only removes the descriptor
      have hremoved : s' = { s with
            queue := rest, descriptors := erase event.handle s.descriptors } →
          s'.Owed event.handle := by
        intro he
        have hmode' : s'.mode = .running := by rw [he]; exact hmode
        by_contra howed
        refine not_settled hmode' ?_ ?_ howed
          (hsettled _ (.atOnce turn event rest info rfl hmode hqueue hresult hmode'))
        · rw [he]
        · rw [he]
          exact lookup_erase _ _
      have hrequested : .unpublishRequest ⟨event.handle⟩ ∈ rest → ∃ id t,
          lookup id s.tracks = some t ∧ t.info.pubHandle = event.handle ∧
          t.phase = .ended := by
        intro hmem
        apply hatt.requested
        rw [hqueue]
        exact mem_cons_of_mem _ hmem
      split
      · next resultTx hd =>
        by_contra hopen
        have hclosed : s.isClosed resultTx = true := by simpa using hopen
        have hpending : s.Registered event.handle (.pending resultTx) := .inl hd
        have he : s' = { s with
            queue := rest, descriptors := erase event.handle s.descriptors } := by
          rw [hs', onSfuPublishResponse]
          simp only [hd]
          rw [if_pos (by exact hclosed)]
        have howed := hremoved he
        rw [he] at howed
        -- no track has the handle of a pending publication
        rcases howed with hmem | ⟨id, t, ht, hhandle, -⟩
        · obtain ⟨id, t, ht, hhandle, -⟩ := hrequested hmem
          exact hs.pending_fresh _ _ hpending id t ht hhandle
        · exact hs.pending_fresh _ _ hpending id t ht hhandle
      · next id hd =>
        intro t ht hrun hstate
        have hactive : s.Registered event.handle (.active id) := .inl hd
        have hhandle : t.info.pubHandle = event.handle := by
          obtain ⟨u, hu, hhandle⟩ := hs.active_track event.handle id hactive
          rw [ht, some.injEq] at hu
          rw [hu, hhandle]
        have he : s' = { s with
            queue := rest, descriptors := erase event.handle s.descriptors } := by
          rw [hs', onSfuPublishResponse]
          simp only [hd]
          rw [if_pos]
          rw [publishState, show AList.lookup id _ = some t from ht, map_some, hstate]
          simp
        have howed := hremoved he
        rw [he] at howed
        -- the track is the only one with its handle
        rcases howed with hmem | ⟨id', t', ht', hhandle', hends⟩
        · obtain ⟨id', t', ht', hhandle', hphase'⟩ := hrequested hmem
          have hid := hs.handle_unique id' id t' t ht' ht (hhandle'.trans hhandle.symm)
          rw [hid, ht, some.injEq] at ht'
          rw [ht', hphase'] at hrun
          cases hrun
        · have hid := hs.handle_unique id' id t' t ht' ht (hhandle'.trans hhandle.symm)
          rw [hid, show AList.lookup id _ = some t from ht, some.injEq] at ht'
          rw [← ht'] at hends
          cases hends with
          | unpublishing hphase =>
            rw [hphase] at hrun
            cases hrun
          | spawned _ hunpublished | running _ _ _ hunpublished =>
            rw [hstate] at hunpublished
            cases hunpublished
      · trivial
    · trivial
  | _ => cases ha

/-- **No orphaned publication.** In every run, whenever the manager has processed a response that
accepts a publication there is an active track with a running task, or an unpublish request is
sent, or it is on its way and stays so whatever follows, exactly when no such response meets a
pending publication whose result channel is closed or a published track whose task runs. -/
theorem noOrphan_iff (provider : Option EncryptionProvider) (run : List Action) :
    EachStep State.step (fun s a s' => ∀ h, Processed s a s' h → s.Settled s' h) (new provider) run
      ↔ EachStep State.step (fun s a _ => s.Accounted a) (new provider) run := by
  refine eachStep_iff (I := fun s => s.Coherent ∧ s.Attended) ?_ ?_
    ⟨new_coherent provider, new_attended provider⟩
  · intro s a _ s' hs hstep
    constructor
    · exact accounted_of_settled hs.1 hs.2 hstep
    · intro hcond h hprocessed
      cases hprocessed with
      | atOnce turn event rest info ha hmode hqueue hresult hmode' =>
        subst ha
        exact settled_atOnce hs.1 hs.2 hmode hqueue hresult hcond hstep hmode'
      | created turn info resultTx ha hmode =>
        subst ha
        exact settled_created hmode hstep
      | republished turn h track sid ha hmode =>
        subst ha
        exact settled_republished hs.1 hs.2 hmode hstep
  · intro s a _ s' hs hstep _
    exact ⟨step_coherent hs.1 hstep, step_attended hs.1 hs.2 hstep⟩

/-- The caller of a publish request gives up, and the response of the SFU is handled before the
event of the cancellation: the publication is accepted, there is no track for it, and nothing is
sent. -/
theorem orphaned_by_cancellation : ¬ ∀ run : List Action,
    EachStep State.step (fun s a s' => ∀ h, Processed s a s' h → s.Settled s' h)
      (new none) run := by
  intro hall
  let accepted : SfuPublishResponse := .ofInfo
    ⟨⟨"DTR_A", by decide⟩, ⟨1, by decide⟩, "track", false⟩
  let before : List Action := [.publish ⟨"track"⟩, .manager .zero,
    .sendInput (.sfuPublishResponse accepted), .abandon 0, .forward 0 .cancel]
  have hbefore : (exec State.step (new none) before).map (fun s => decide
      (s.mode = .running ∧ s.isClosed 0 = true ∧
        AList.lookup accepted.handle s.descriptors = some (.pending 0))) = some true := by decide
  have hqueue : (exec State.step (new none) before).map State.queue
      = some [.sfuPublishResponse accepted] := rfl
  obtain ⟨s, hs, hstate⟩ := map_eq_some_iff.mp hbefore
  rw [hs, map_some, some.injEq] at hqueue
  obtain ⟨hmode, hclosed, hd⟩ := of_decide_eq_true hstate
  obtain ⟨-, hlast⟩ := (hall (before ++ [.manager Turn.zero])).append hs
  have hinv : s.Coherent ∧ s.Attended := exec_invariant
    (I := fun s => s.Coherent ∧ s.Attended)
    (fun s a s' h hstep => ⟨step_coherent h.1 hstep, step_attended h.1 h.2 hstep⟩)
    ⟨new_coherent none, new_attended none⟩ hs
  have hstep : s.step (.manager Turn.zero)
      = some ({ s with queue := [] }.handle Turn.zero (.sfuPublishResponse accepted)) := by
    simp only [step, managerStep, hmode, hqueue]
  have hcond := accounted_of_settled hinv.1 hinv.2 hstep (hlast _ hstep).1
  unfold Accounted at hcond
  rw [hmode, hqueue] at hcond
  have hpending := hcond rfl ⟨_, rfl⟩
  rw [hd] at hpending
  have hopen : s.isClosed 0 = false := hpending
  rw [hclosed] at hopen
  cases hopen

end State

end LiveKit.DataTrack.Local
