import LiveKit.DataTrack.Remote.System

/-!
# Rules for the system of the remote manager

What the manager's effects change and what they leave alone, the rules for its loops
(`perform_forEach_invariant`, `perform_onSfuPublicationUpdates_invariant`), and all that a step
of anybody else can be (`Other`, `step_cases`).
-/

namespace LiveKit.DataTrack.Remote

open AList Option TransitionSystem

/-- How far a task is, and for what. The packets in its channel are left out. -/
def TaskState.core (t : TaskState) : TrackTask × TaskPhase := (t.trackTask, t.phase)

namespace State

/-! ## Effects -/

/-- A result changes its request at most, and only while somebody waits for it. -/
theorem resolve_cases (s : State) (request : RequestId)
    (result : Except DataTrackSubscribeError TaskId) :
    s.resolve request result = s ∨
    lookup request s.requests = some .waiting ∧ ∃ state,
      state ≠ .waiting ∧ (∀ task, state = .subscribed task → result = .ok task) ∧
      s.resolve request result
        = { s with requests := insert request state s.requests } := by
  unfold resolve
  cases hr : lookup request s.requests with
  | none => exact .inl rfl
  | some state =>
    cases state with
    | waiting =>
      refine .inr ⟨rfl, ?_⟩
      cases result with
      | ok task => exact ⟨.subscribed task, by simp, by simp, rfl⟩
      | error err => exact ⟨.failed err, by simp, by simp, rfl⟩
    | subscribed | failed | dropped => exact .inl rfl

/-- A packet changes nothing but the packet channel of its task. -/
theorem sendPacket_cases (s : State) (task : TaskId) (packet : Packet) :
    s.sendPacket task packet = s ∨
    ∃ t packets, lookup task s.tasks = some t ∧
      s.sendPacket task packet
        = { s with tasks := insert task { t with packets := packets } s.tasks } := by
  unfold sendPacket
  cases ht : lookup task s.tasks with
  | none => exact .inl rfl
  | some t =>
    simp only
    split
    · exact .inr ⟨t, _, rfl, rfl⟩
    · exact .inl rfl

theorem sendPacket_core (s : State) (task task' : TaskId) (packet : Packet) :
    (lookup task' (s.sendPacket task packet).tasks).map TaskState.core
      = (lookup task' s.tasks).map TaskState.core := by
  rcases s.sendPacket_cases task packet with he | ⟨t, _, ht, he⟩
  · rw [he]
  · rw [he, AssocMap.lookup_insert_ite]
    split
    · next heq => rw [heq, ht]; rfl
    · rfl

/-- An effect does not touch what the manager owns, nor the deliveries. -/
theorem applyEffect_frame (s : State) (e : Effect) :
    (s.applyEffect e).manager = s.manager ∧ (s.applyEffect e).mode = s.mode ∧
    (s.applyEffect e).queue = s.queue ∧ (s.applyEffect e).nextRequest = s.nextRequest ∧
    (s.applyEffect e).deliveries = s.deliveries := by
  cases e with
  | emit | spawn | sendUnpublished => exact ⟨rfl, rfl, rfl, rfl, rfl⟩
  | resolve request result =>
    show (s.resolve request result).manager = _ ∧ _
    rcases s.resolve_cases request result with he | ⟨-, _, -, -, he⟩
    · simp only [applyEffect, he, and_self]
    · simp only [applyEffect, he, and_self]
  | sendPacket task packet =>
    rcases s.sendPacket_cases task packet with he | ⟨_, _, -, he⟩
    · simp only [applyEffect, he, and_self]
    · simp only [applyEffect, he, and_self]

theorem applyEffects_cons (s : State) (e : Effect) (es : List Effect) :
    s.applyEffects (e :: es) = (s.applyEffect e).applyEffects es := rfl

theorem applyEffects_append (s : State) (es es' : List Effect) :
    s.applyEffects (es ++ es') = (s.applyEffects es).applyEffects es' :=
  List.foldl_append

variable {es : List Effect} {s : State}

/-- What every effect keeps, a list of effects keeps. -/
theorem applyEffects_invariant (I : State → Prop) (hI : ∀ s, ∀ e ∈ es, I s → I (s.applyEffect e))
    (hs : I s) : I (s.applyEffects es) := by
  induction es generalizing s with
  | nil => exact hs
  | cons e es ih =>
    rw [applyEffects_cons]
    apply ih
    · intro s' e' he'
      exact hI s' e' (List.mem_cons_of_mem e he')
    · exact hI s e List.mem_cons_self hs

@[simp] theorem applyEffects_manager (s : State) (es : List Effect) :
    (s.applyEffects es).manager = s.manager :=
  applyEffects_invariant (fun s' => s'.manager = s.manager)
    (fun s' e _ h => (s'.applyEffect_frame e).1.trans h) rfl

@[simp] theorem applyEffects_mode (s : State) (es : List Effect) :
    (s.applyEffects es).mode = s.mode :=
  applyEffects_invariant (fun s' => s'.mode = s.mode)
    (fun s' e _ h => (s'.applyEffect_frame e).2.1.trans h) rfl

@[simp] theorem applyEffects_queue (s : State) (es : List Effect) :
    (s.applyEffects es).queue = s.queue :=
  applyEffects_invariant (fun s' => s'.queue = s.queue)
    (fun s' e _ h => (s'.applyEffect_frame e).2.2.1.trans h) rfl

@[simp] theorem applyEffects_nextRequest (s : State) (es : List Effect) :
    (s.applyEffects es).nextRequest = s.nextRequest :=
  applyEffects_invariant (fun s' => s'.nextRequest = s.nextRequest)
    (fun s' e _ h => (s'.applyEffect_frame e).2.2.2.1.trans h) rfl

@[simp] theorem applyEffects_deliveries (s : State) (es : List Effect) :
    (s.applyEffects es).deliveries = s.deliveries :=
  applyEffects_invariant (fun s' => s'.deliveries = s.deliveries)
    (fun s' e _ h => (s'.applyEffect_frame e).2.2.2.2.trans h) rfl

/-- The events that the manager emits are added to the outputs. -/
theorem applyEffects_outputs (s : State) (es : List Effect) :
    (s.applyEffects es).outputs = s.outputs ++ es.filterMap fun e =>
      match e with
      | .emit event => some event
      | _ => none := by
  induction es generalizing s with
  | nil => exact (List.append_nil _).symm
  | cons e es ih =>
    rw [applyEffects_cons, ih]
    cases e with
    | emit event => simp [applyEffect]
    | spawn | sendUnpublished => rfl
    | resolve request result =>
      rcases s.resolve_cases request result with he | ⟨-, _, -, -, he⟩
      · rw [applyEffect, he]
        rfl
      · rw [applyEffect, he]
        rfl
    | sendPacket task packet =>
      rcases s.sendPacket_cases task packet with he | ⟨_, _, -, he⟩
      · rw [applyEffect, he]
        rfl
      · rw [applyEffect, he]
        rfl

/-- Publications that have ended stay so. -/
theorem applyEffects_unpublished (s : State) (es : List Effect) :
    s.unpublished ⊆ (s.applyEffects es).unpublished := by
  refine applyEffects_invariant (fun s' => s.unpublished ⊆ s'.unpublished) ?_
    (List.Subset.refl _)
  intro s' e _ h
  cases e with
  | emit | spawn => exact h
  | sendUnpublished published => exact fun p hp => List.mem_cons_of_mem _ (h hp)
  | resolve request result =>
    rcases s'.resolve_cases request result with he | ⟨-, _, -, -, he⟩
    · rwa [applyEffect, he]
    · rwa [applyEffect, he]
  | sendPacket task packet =>
    rcases s'.sendPacket_cases task packet with he | ⟨_, _, -, he⟩
    · rwa [applyEffect, he]
    · rwa [applyEffect, he]

/-- A request that waits has been waiting all along, and one that is subscribed was so before,
unless it was waiting and the manager has just answered it. -/
theorem applyEffects_requests (s : State) (es : List Effect) (request : RequestId) :
    (lookup request (s.applyEffects es).requests = some .waiting →
      lookup request s.requests = some .waiting) ∧
    ∀ task, lookup request (s.applyEffects es).requests = some (.subscribed task) →
      lookup request s.requests = some (.subscribed task) ∨
        lookup request s.requests = some .waiting ∧ .resolve request (.ok task) ∈ es := by
  refine applyEffects_invariant (fun s' =>
    (lookup request s'.requests = some .waiting →
      lookup request s.requests = some .waiting) ∧
    ∀ task, lookup request s'.requests = some (.subscribed task) →
      lookup request s.requests = some (.subscribed task) ∨
        lookup request s.requests = some .waiting ∧ .resolve request (.ok task) ∈ es) ?_
    ⟨id, fun task h => .inl h⟩
  intro s' e he h
  cases e with
  | emit | spawn | sendUnpublished => exact h
  | sendPacket task packet =>
    rcases s'.sendPacket_cases task packet with heq | ⟨_, _, -, heq⟩
    · rwa [applyEffect, heq]
    · rwa [applyEffect, heq]
  | resolve request' result =>
    rcases s'.resolve_cases request' result with heq | ⟨hwaiting, state, hne, hok, heq⟩
    · rwa [applyEffect, heq]
    · rw [applyEffect, heq]
      simp only [AssocMap.lookup_insert_ite]
      by_cases hr : request = request'
      · simp only [if_pos hr, some.injEq]
        refine ⟨fun hc => absurd hc hne, ?_⟩
        intro task htask
        right
        refine ⟨h.1 (hr ▸ hwaiting), ?_⟩
        rw [hr, ← hok task htask]
        exact he
      · simp only [if_neg hr]
        exact h

/-- Without a `spawn` all tasks stay as they are, but for the packets. -/
theorem applyEffects_core (hes : ∀ task trackTask, .spawn task trackTask ∉ es) (task : TaskId) :
    (lookup task (s.applyEffects es).tasks).map TaskState.core
      = (lookup task s.tasks).map TaskState.core := by
  refine applyEffects_invariant (fun s' => (lookup task s'.tasks).map TaskState.core
    = (lookup task s.tasks).map TaskState.core) ?_ rfl
  intro s' e he h
  cases e with
  | emit | sendUnpublished => exact h
  | resolve request result =>
    rcases s'.resolve_cases request result with he' | ⟨-, _, -, -, he'⟩
    · simpa only [applyEffect, he'] using h
    · simpa only [applyEffect, he'] using h
  | spawn task' trackTask => exact absurd he (hes task' trackTask)
  | sendPacket task' packet => exact (s'.sendPacket_core task' task packet).trans h

variable {task : TaskId}

/-- A task is an old one, up to its packets, or it has just been spawned. -/
theorem applyEffects_tasks {t' : TaskState}
    (h : lookup task (s.applyEffects es).tasks = some t') :
    (∃ t, lookup task s.tasks = some t ∧ t'.trackTask = t.trackTask ∧
      t'.phase = t.phase) ∨ .spawn task t'.trackTask ∈ es := by
  refine applyEffects_invariant (fun s' => ∀ t', lookup task s'.tasks = some t' →
    (∃ t, lookup task s.tasks = some t ∧ t'.trackTask = t.trackTask ∧
      t'.phase = t.phase) ∨ .spawn task t'.trackTask ∈ es) ?_
    (fun t' ht' => .inl ⟨t', ht', rfl, rfl⟩) t' h
  intro s' e he hs' u hu
  cases e with
  | emit | sendUnpublished => exact hs' u hu
  | resolve request result =>
    rcases s'.resolve_cases request result with heq | ⟨-, _, -, -, heq⟩
    · rw [applyEffect, heq] at hu
      exact hs' u hu
    · rw [applyEffect, heq] at hu
      exact hs' u hu
  | sendPacket task' packet =>
    have hcore := s'.sendPacket_core task' task packet
    rw [show (s'.sendPacket task' packet) = s'.applyEffect (.sendPacket task' packet) from rfl,
      hu] at hcore
    obtain ⟨v, hv, heq⟩ := map_eq_some_iff.mp hcore.symm
    have htrack : v.trackTask = u.trackTask := congrArg Prod.fst heq
    have hphase : v.phase = u.phase := congrArg Prod.snd heq
    rw [← htrack, ← hphase]
    exact hs' v hv
  | spawn task' trackTask =>
    rw [applyEffect] at hu
    rcases AssocMap.of_lookup_insert hu with ⟨rfl, rfl⟩ | ⟨-, hu⟩
    · exact .inr he
    · exact hs' u hu

/-! ## Performing the result of a handler -/

@[simp] theorem perform_manager (s : State) (result : Manager × List Effect) :
    (s.perform result).manager = result.1 := applyEffects_manager _ _

@[simp] theorem perform_mode (s : State) (result : Manager × List Effect) :
    (s.perform result).mode = s.mode := applyEffects_mode _ _

@[simp] theorem perform_queue (s : State) (result : Manager × List Effect) :
    (s.perform result).queue = s.queue := applyEffects_queue _ _

@[simp] theorem perform_nextRequest (s : State) (result : Manager × List Effect) :
    (s.perform result).nextRequest = s.nextRequest := applyEffects_nextRequest _ _

@[simp] theorem perform_deliveries (s : State) (result : Manager × List Effect) :
    (s.perform result).deliveries = s.deliveries := applyEffects_deliveries _ _

theorem perform_outputs_subset (s : State) (result : Manager × List Effect) :
    s.outputs ⊆ (s.perform result).outputs := by
  unfold perform
  rw [applyEffects_outputs]
  exact List.subset_append_left _ _

theorem perform_unpublished_subset (s : State) (result : Manager × List Effect) :
    s.unpublished ⊆ (s.perform result).unpublished :=
  applyEffects_unpublished { s with manager := result.1 } result.2

variable {request : RequestId}

theorem waiting_of_perform (s : State) {result : Manager × List Effect}
    (h : lookup request (s.perform result).requests = some .waiting) :
    lookup request s.requests = some .waiting :=
  (applyEffects_requests { s with manager := result.1 } result.2 request).1 h

/-- No effect looks at the manager. -/
theorem applyEffects_setManager (s : State) (m : Manager) (es : List Effect) :
    ({ s with manager := m }).applyEffects es = { s.applyEffects es with manager := m } := by
  induction es generalizing s with
  | nil => rfl
  | cons e es ih =>
    rw [applyEffects_cons, applyEffects_cons, ← ih]
    congr 1
    cases e with
    | emit | spawn | sendUnpublished => rfl
    | resolve request result =>
      unfold applyEffect resolve
      simp only
      split
      · split <;> rfl
      · rfl
    | sendPacket task packet =>
      unfold applyEffect sendPacket
      simp only
      split
      · rfl
      · split <;> rfl

/-- Two results one after the other. -/
theorem perform_perform (s : State) (m m' : Manager) (es es' : List Effect) :
    (s.perform (m, es)).perform (m', es') = s.perform (m', es ++ es') := by
  have hfirst := applyEffects_setManager s m es
  have hsecond := applyEffects_setManager (s.applyEffects es) m' es'
  unfold perform
  rw [hfirst, applyEffects_append, applyEffects_setManager s m' es]

/-- The rule for the loops of the manager: the invariant may speak of the elements that are
left. -/
theorem perform_forEach_invariant {A : Type} {f : Manager → A → Manager × List Effect}
    (I : List A → State → Prop) (hI : ∀ s a as, I (a :: as) s → I as (s.perform (f s.manager a)))
    {as : List A} (hs : I as s) : I [] (s.perform (s.manager.forEach f as)) := by
  induction as generalizing s with
  | nil => exact hs
  | cons a as ih =>
    have hnext := ih (hI s a as hs)
    rw [perform_manager] at hnext
    rw [Manager.forEach_cons, ← perform_perform]
    exact hnext

/-- Publication updates are made of tracks that are published and tracks that are
unpublished. -/
theorem perform_onSfuPublicationUpdates_invariant (I : State → Prop)
    (hpublished : ∀ s identity info, I s →
      I (s.perform (s.manager.handleTrackPublished identity info)))
    (hunpublished : ∀ s sid, I s → I (s.perform (s.manager.handleTrackUnpublished sid))) (hs : I s)
    (orders : Orders) (event : SfuPublicationUpdates) :
    I (s.perform (s.manager.onSfuPublicationUpdates orders event)) := by
  unfold Manager.onSfuPublicationUpdates
  split
  · exact hs
  · have hfirst : I (s.perform (s.manager.forEach Manager.detectPublished
        event.updates.toList)) := by
      refine perform_forEach_invariant (fun _ s => I s) ?_ hs
      intro s update _ hs
      refine perform_forEach_invariant (fun _ s => I s) ?_ hs
      intro s info _ hs
      by_cases hmem : info.sid ∈ s.manager.descriptors
      · rw [if_pos hmem]
        exact hs
      · rw [if_neg hmem]
        exact hpublished s update.1 info hs
    have hsecond : ∀ (passes : List ((String × List DataTrackSid) × ℕ)) (s : State), I s →
        I (s.perform (s.manager.forEach (Manager.detectUnpublished orders) passes)) := by
      intro passes s hs
      refine perform_forEach_invariant (fun _ s => I s) ?_ hs
      intro s participant _ hs
      refine perform_forEach_invariant (fun _ s => I s) ?_ hs
      intro s sid _ hs
      exact hunpublished s sid hs
    have hboth := hsecond ((AssocMap.reorder (orders 0) (event.updates.toList.map fun update =>
      (update.1, update.2.map (·.sid)))).zipIdx 1) _ hfirst
    rw [perform_manager, perform_perform] at hboth
    exact hboth

/-! ## All that a step can be -/

/-- Only requests change when requests fail. -/
theorem failAll_frame (s : State) (requests : List RequestId) :
    ∃ requests', s.failAll requests = { s with requests := requests' } := by
  unfold failAll
  induction requests generalizing s with
  | nil => exact ⟨s.requests, rfl⟩
  | cons request rest ih =>
    rw [List.map_cons, applyEffects_cons, applyEffect]
    rcases s.resolve_cases request (.error .disconnected) with he | ⟨-, state, -, -, he⟩
    · rw [he]
      exact ih s
    · rw [he]
      obtain ⟨requests', hrest⟩ := ih { s with requests := insert request state s.requests }
      exact ⟨requests', hrest⟩

/-- All that a turn of the manager can be. -/
inductive ManagerTurn (s : State) (orders : Orders) : State → Prop where
  | handle (event : InputEvent) (rest : List InputEvent) (result : Manager × List Effect)
      (hmode : s.mode = .running) (hqueue : s.queue = event :: rest)
      (hresult : s.manager.handle orders event = some result) :
      ManagerTurn s orders (({ s with queue := rest }).perform result)
  | shutdown (event : InputEvent) (rest : List InputEvent) (hmode : s.mode = .running)
      (hqueue : s.queue = event :: rest) (hresult : s.manager.handle orders event = none) :
      ManagerTurn s orders { s with
        queue := rest
        mode := .stopping ((AssocMap.inOrder s.manager.descriptors (orders 0)).map Prod.snd) }
  | finish (hmode : s.mode = .stopping []) :
      ManagerTurn s orders ({ s with mode := .ended }).dropQueue
  | stopNone (descriptor : Descriptor) (todo : List Descriptor)
      (hmode : s.mode = .stopping (descriptor :: todo)) (hs : descriptor.subscription = .none) :
      ManagerTurn s orders
        { s.applyEffect (.sendUnpublished descriptor.published) with mode := .stopping todo }
  | stopPending (descriptor : Descriptor) (todo : List Descriptor) (resultTxs : List RequestId)
      (bufferSize : ℕ) (hmode : s.mode = .stopping (descriptor :: todo))
      (hs : descriptor.subscription = .pending resultTxs bufferSize) :
      ManagerTurn s orders
        { (s.applyEffect (.sendUnpublished descriptor.published)).failAll resultTxs with
          mode := .stopping todo }
  | stopActive (descriptor : Descriptor) (todo : List Descriptor) (subHandle : Handle)
      (task : TaskId) (hmode : s.mode = .stopping (descriptor :: todo))
      (hs : descriptor.subscription = .active subHandle task) :
      ManagerTurn s orders
        { s.applyEffect (.sendUnpublished descriptor.published) with mode := .awaiting task todo }
  | awaited (task : TaskId) (todo : List Descriptor) (t : TaskState)
      (hmode : s.mode = .awaiting task todo) (ht : AList.lookup task s.tasks = some t)
      (hphase : t.phase = .ended) : ManagerTurn s orders { s with mode := .stopping todo }

variable {orders : Orders} {s' : State}

theorem managerTurn (h : s.managerStep orders = some s') : ManagerTurn s orders s' := by
  unfold managerStep at h
  cases hmode : s.mode with
  | running =>
    simp only [hmode] at h
    cases hqueue : s.queue with
    | nil => simp [hqueue] at h
    | cons event rest =>
      simp only [hqueue] at h
      cases hresult : s.manager.handle orders event with
      | some result =>
        simp only [hresult, some.injEq] at h
        rw [← h]
        simpa only [hmode] using ManagerTurn.handle event rest result hmode hqueue hresult
      | none =>
        simp only [hresult, some.injEq] at h
        rw [← h]
        exact .shutdown event rest hmode hqueue hresult
  | stopping todo =>
    simp only [hmode] at h
    cases todo with
    | nil =>
      simp only [some.injEq] at h
      rw [← h]
      exact .finish hmode
    | cons descriptor todo =>
      simp only at h
      cases hs : descriptor.subscription with
      | none =>
        simp only [hs, some.injEq] at h
        rw [← h]
        exact .stopNone descriptor todo hmode hs
      | pending resultTxs bufferSize =>
        simp only [hs, some.injEq] at h
        rw [← h]
        exact .stopPending descriptor todo resultTxs bufferSize hmode hs
      | active subHandle task =>
        simp only [hs, some.injEq] at h
        rw [← h]
        exact .stopActive descriptor todo subHandle task hmode hs
  | awaiting task todo =>
    simp only [hmode] at h
    cases ht : lookup task s.tasks with
    | none => simp [ht] at h
    | some t =>
      simp only [ht] at h
      split at h
      · next hphase =>
        rw [some.injEq] at h
        rw [← h]
        exact .awaited task todo t hmode ht hphase
      · cases h
  | ended => simp [hmode] at h

theorem dropQueue_frame (s : State) :
    ∃ requests', s.dropQueue = { s with requests := requests', queue := [] } := by
  unfold dropQueue
  simp only
  generalize List.filterMap _ s.queue = requests
  obtain ⟨requests', he⟩ := failAll_frame s requests
  exact ⟨requests', by rw [he]⟩

/-- The manager handles an event, or it shuts down. -/
theorem managerStep_cases (h : s.managerStep orders = some s') :
    (∃ event rest result, s.mode = .running ∧ s.queue = event :: rest ∧
      s.manager.handle orders event = some result ∧
      s' = ({ s with queue := rest }).perform result) ∨
    (s'.mode ≠ .running ∧ s'.manager = s.manager ∧ s'.tasks = s.tasks ∧
      s'.outputs = s.outputs ∧ s'.deliveries = s.deliveries) := by
  rcases managerTurn h with ⟨event, rest, result, hmode, hqueue, hresult⟩ | _ | _ | _ |
    ⟨descriptor, _, resultTxs, _, _, _⟩ | _ | _
  · exact .inl ⟨event, rest, result, hmode, hqueue, hresult, rfl⟩
  · exact .inr ⟨by simp, rfl, rfl, rfl, rfl⟩
  · obtain ⟨requests, he⟩ := dropQueue_frame { s with mode := .ended }
    rw [he]
    exact .inr ⟨by simp, rfl, rfl, rfl, rfl⟩
  · exact .inr ⟨by simp, rfl, rfl, rfl, rfl⟩
  · obtain ⟨requests, he⟩ :=
      failAll_frame (s.applyEffect (.sendUnpublished descriptor.published)) resultTxs
    rw [he]
    exact .inr ⟨by simp, rfl, rfl, rfl, rfl⟩
  · exact .inr ⟨by simp, rfl, rfl, rfl, rfl⟩
  · exact .inr ⟨by simp, rfl, rfl, rfl, rfl⟩

/-- The manager puts no event into its own queue. -/
theorem managerStep_queue_subset (h : s.managerStep orders = some s') : s'.queue ⊆ s.queue := by
  rcases managerTurn h with ⟨event, rest, result, -, hqueue, -⟩ |
    ⟨event, rest, -, hqueue, -⟩ | _ | _ |
    ⟨descriptor, _, resultTxs, _, _, _⟩ | _ | _
  · rw [perform_queue, hqueue]
    exact List.subset_cons_self event rest
  · rw [hqueue]
    exact List.subset_cons_self event rest
  · exact List.nil_subset _
  · exact List.Subset.refl _
  · obtain ⟨requests, he⟩ :=
      failAll_frame (s.applyEffect (.sendUnpublished descriptor.published)) resultTxs
    rw [he]
    exact List.Subset.refl _
  · exact List.Subset.refl _
  · exact List.Subset.refl _

/-- What one turn of a track task can be. -/
theorem taskStep_cases {st : ProviderState} (h : s.taskStep task st = some s') :
    ∃ t, lookup task s.tasks = some t ∧
      ((t.phase = .running ∧ t.published ∈ s.unpublished ∧
        s' = { s with tasks := insert task { t with phase := .ended } s.tasks }) ∨
      (t.phase = .running ∧ t.published ∉ s.unpublished ∧ s.hasReceiver task = false ∧
        s' = { s with tasks := insert task { t with phase := .closing } s.tasks }) ∨
      (∃ packet rest, t.phase = .running ∧ t.packets = packet :: rest ∧
        s' = s.receive task t st packet rest) ∨
      (t.phase = .closing ∧ s.mode = .ended ∧
        s' = { s with tasks := insert task { t with phase := .ended } s.tasks }) ∨
      (t.phase = .closing ∧
        s' = { s with
          queue := s.queue ++ [.unsubscribeRequest ⟨t.sid⟩]
          tasks := insert task { t with phase := .ended } s.tasks })) := by
  unfold taskStep at h
  cases ht : lookup task s.tasks with
  | none => simp [ht] at h
  | some t =>
    refine ⟨t, rfl, ?_⟩
    simp only [ht] at h
    cases hphase : t.phase with
    | running =>
      simp only [hphase] at h
      split at h
      · next hmem => exact .inl ⟨rfl, hmem, (some.inj h).symm⟩
      · next hmem =>
        split at h
        · next hrecv =>
          exact .inr (.inl ⟨rfl, hmem, by simpa using hrecv, (some.inj h).symm⟩)
        · cases hpackets : t.packets with
          | nil => simp [hpackets] at h
          | cons packet rest =>
            simp only [hpackets, some.injEq] at h
            exact .inr (.inr (.inl ⟨packet, rest, rfl, rfl, h.symm⟩))
    | closing =>
      simp only [hphase] at h
      split at h
      · next hmode =>
        exact .inr (.inr (.inr (.inl ⟨rfl, hmode, (some.inj h).symm⟩)))
      · split at h
        · exact .inr (.inr (.inr (.inr ⟨rfl, (some.inj h).symm⟩)))
        · cases h
    | ended => simp [hphase] at h

/-- A request that is subscribed to the task holds a receiver. -/
theorem hasReceiver_of_subscribed (h : lookup request s.requests = some (.subscribed task)) :
    s.hasReceiver task = true := by
  unfold hasReceiver
  rw [List.any_eq_true]
  exact ⟨⟨request, .subscribed task⟩, mem_lookup_iff.mp h, by simp⟩

/-- Receiving a packet moves the depacketizer of the task's pipeline on, and may deliver. -/
theorem receive_eq (s : State) (task : TaskId) (t : TaskState) (st : ProviderState)
    (packet : Packet) (rest : List Packet) :
    ∃ deliveries,
      s.receive task t st packet rest
        = { s with
            tasks := insert task
              { t with
                trackTask := { t.trackTask with
                  pipeline := { t.trackTask.pipeline with
                    depacketizer := (t.trackTask.pipeline.depacketizer.push packet).2 } }
                packets := rest } s.tasks
            deliveries := s.deliveries ++ deliveries } ∧
      ∀ delivery ∈ deliveries, ∃ source frame,
        t.trackTask.pipeline.decryptIfNeeded st source = some frame ∧
        delivery = ⟨t.trackTask.info, t.published, some source, st, .ofDepacketized frame⟩ := by
  have hpipeline := t.trackTask.pipeline.processPacket_pipeline st packet
  have hframe := t.trackTask.pipeline.processPacket_frame st packet
  unfold receive
  rcases hresult : t.trackTask.pipeline.processPacket st packet with ⟨result, pipeline⟩
  rw [hresult] at hpipeline hframe
  simp only at hpipeline hframe
  subst hpipeline
  unfold Pipeline.deliver at hframe
  cases hsource : (t.trackTask.pipeline.depacketizer.push packet).1.frame with
  | none =>
    rw [hsource] at hframe
    subst hframe
    exact ⟨[], by simp, by simp⟩
  | some source =>
    rw [hsource, bind_some] at hframe
    cases hdecrypt : t.trackTask.pipeline.decryptIfNeeded st source with
    | none =>
      rw [hdecrypt] at hframe
      subst hframe
      exact ⟨[], by simp, by simp⟩
    | some frame =>
      rw [hdecrypt] at hframe
      subst hframe
      refine ⟨[⟨t.trackTask.info, t.published, some source, st, .ofDepacketized frame⟩], ?_, ?_⟩
      · rw [Pipeline.depacketize_eq, hsource]
        rfl
      · intro delivery hmem
        exact ⟨source, frame, hdecrypt, List.mem_singleton.mp hmem⟩

/-- A track task changes neither the manager and its mode nor what was sent to the SFU. -/
theorem taskStep_frame {st : ProviderState} (h : s.taskStep task st = some s') :
    s'.mode = s.mode ∧ s'.outputs = s.outputs ∧ s'.manager = s.manager := by
  obtain ⟨t, -, hcases⟩ := taskStep_cases h
  rcases hcases with ⟨-, -, rfl⟩ | ⟨-, -, -, rfl⟩ | ⟨packet, rest, -, -, rfl⟩ | ⟨-, -, rfl⟩ |
    ⟨-, rfl⟩
  · exact ⟨rfl, rfl, rfl⟩
  · exact ⟨rfl, rfl, rfl⟩
  · obtain ⟨deliveries, he, -⟩ := s.receive_eq task t st packet rest
    rw [he]
    exact ⟨rfl, rfl, rfl⟩
  · exact ⟨rfl, rfl, rfl⟩
  · exact ⟨rfl, rfl, rfl⟩

/-- The application's new request waits for the manager, or fails at once. -/
theorem subscribe_cases {sid : DataTrackSid} {options : DataTrackSubscribeOptions}
    (h : s.subscribe sid options = some s') :
    (s.mode = .ended ∧ s' = { s with
      nextRequest := s.nextRequest + 1
      requests := insert s.nextRequest (.failed .disconnected) s.requests }) ∨
    (s' = { s with
      nextRequest := s.nextRequest + 1
      requests := insert s.nextRequest .waiting s.requests
      queue := s.queue ++ [.subscribeRequest ⟨sid, options, s.nextRequest⟩] }) := by
  unfold subscribe at h
  simp only at h
  split at h
  · next hmode => exact .inl ⟨hmode, (some.inj h).symm⟩
  · split at h
    · exact .inr (some.inj h).symm
    · cases h

theorem abandon_cases (h : s.abandon request = some s') :
    s' = { s with requests := insert request .dropped s.requests } := by
  unfold abandon at h
  split at h
  · cases h
  · exact (some.inj h).symm

/-- The room sends an event of the SFU or the transport, or loses it. -/
theorem sendInput_cases {event : InputEvent} (h : s.sendInput event = some s') :
    (∀ request, event ≠ .unsubscribeRequest request) ∧
    (∀ request, event ≠ .subscribeRequest request) ∧
      (s' = s ∨ s' = { s with queue := s.queue ++ [event] }) := by
  unfold sendInput at h
  have hsend : (if s.mode ≠ .ended ∧ s.queue.length < EVENT_BUFFER_COUNT then
      some { s with queue := s.queue ++ [event] } else some s) = some s' →
      s' = s ∨ s' = { s with queue := s.queue ++ [event] } := by
    intro hsome
    split at hsome
    · exact .inr (some.inj hsome).symm
    · exact .inl (some.inj hsome).symm
  cases event with
  | subscribeRequest | unsubscribeRequest => cases h
  | sfuPublicationUpdates | sfuSubscriberHandles | packetReceived | resendSubscriptionUpdates
  | shutdown => exact ⟨by simp, by simp, hsend h⟩

end State

end LiveKit.DataTrack.Remote
