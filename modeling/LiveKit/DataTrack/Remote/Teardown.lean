import LiveKit.DataTrack.Remote.SystemTheorems

/-!
# A subscription lives as long as its receivers

A track task that sees its last receiver go asks the manager to unsubscribe, and ends. A request
that names nothing but the track may reach the manager when somebody has subscribed to the track
again in the meantime: the new receiver was handed out for a task that is about to end, or for a
new one. `NoStaleUnsubscribe` says that no such request is, or will be, on its way, and
`subscription_lives` that it is enough to know it whenever a subscribe request is answered.
-/

namespace LiveKit.DataTrack.Remote

open AssocMap AList List Option TransitionSystem

namespace State

/-- The task is about to ask for an unsubscription, or may still do so. -/
def MayUnsubscribe (s : State) (t : TaskState) : Prop :=
  t.phase = .closing ∨ t.phase = .running ∧ t.published ∉ s.unpublished

/-- No unsubscribe request for the track is in the queue, and no task of the track but `own`
may make one. -/
def NoStaleUnsubscribe (s : State) (sid : DataTrackSid) (own : Option TaskId) : Prop :=
  (∀ event ∈ s.queue, event ≠ .unsubscribeRequest ⟨sid⟩) ∧
  ∀ task t, AList.lookup task s.tasks = some t → some task ≠ own → t.sid = sid →
    ¬ s.MayUnsubscribe t

/-- Every receiver that is alive, on a track that is still published, has its subscription: the
task of the receiver runs and it is that of the active subscription of the track. -/
def Intact (s : State) : Prop :=
  s.mode = .running → ∀ request task t,
    AList.lookup request s.requests = some (.subscribed task) →
    AList.lookup task s.tasks = some t → t.published ∉ s.unpublished →
    t.phase = .running ∧ ∃ d subHandle, AList.lookup t.sid s.manager.descriptors = some d ∧
      d.subscription = .active subHandle task

/-- A step that ends in `s'` tells the SFU to unsubscribe from no track with a live receiver. -/
def NoUnsubscribe (s s' : State) : Prop :=
  s'.mode = .running → ∀ request task t,
    AList.lookup request s'.requests = some (.subscribed task) →
    AList.lookup task s'.tasks = some t → t.published ∉ s'.unpublished →
    .sfuUpdateSubscription t.sid false ∉ s'.outputs.drop s.outputs.length

/-- When the manager answers a request `Ok`, or is going to with the pending ones of a track,
the task that the receiver is for runs, and no stale unsubscribe request is on its way. -/
def AnswersSettled (s : State) : InputEvent → Prop
  | .subscribeRequest event =>
    AList.lookup event.resultTx s.requests = some .waiting →
    ∀ d subHandle task, AList.lookup event.sid s.manager.descriptors = some d →
      d.subscription = .active subHandle task →
      (∃ t, AList.lookup task s.tasks = some t ∧ t.phase = .running) ∧
        s.NoStaleUnsubscribe event.sid (some task)
  | .sfuSubscriberHandles event =>
    ∀ entry ∈ event.mapping.toList, ∀ d resultTxs bufferSize,
      AList.lookup entry.2 s.manager.descriptors = some d →
      d.subscription = .pending resultTxs bufferSize →
      (∃ request ∈ resultTxs, AList.lookup request s.requests = some .waiting) →
      s.NoStaleUnsubscribe entry.2 none
  | _ => True

/-- The condition on a step: if the manager takes an event from the queue, then what is left
does not endanger the receivers that the event is answered with. -/
def Settled (s : State) (a : Action) : Prop :=
  ∀ orders event rest, a = .manager orders → s.mode = .running → s.queue = event :: rest →
    ({ s with queue := rest }).AnswersSettled event

/-! ### Evaluating the condition -/

instance decidableMayUnsubscribe (s : State) (t : TaskState) : Decidable (s.MayUnsubscribe t) :=
  inferInstanceAs (Decidable (_ ∨ _))

instance decidableNoStaleUnsubscribe (s : State) (sid : DataTrackSid) (own : Option TaskId) :
    Decidable (s.NoStaleUnsubscribe sid own) :=
  inferInstanceAs (Decidable (_ ∧ _))

/-- The condition on a subscribe request, for the subscription that its track has. -/
def SubscribeSettled (s : State) (sid : DataTrackSid) : SubscriptionState → Prop
  | .active _ task =>
    (∃ t ∈ AList.lookup task s.tasks, t.phase = .running) ∧ s.NoStaleUnsubscribe sid (some task)
  | _ => True

/-- The condition on a new handle, for the subscription that its track has. -/
def HandleSettled (s : State) (sid : DataTrackSid) : SubscriptionState → Prop
  | .pending resultTxs _ =>
    (∃ request ∈ resultTxs, AList.lookup request s.requests = some .waiting) →
      s.NoStaleUnsubscribe sid none
  | _ => True

instance decidableSubscribeSettled (s : State) (sid : DataTrackSid) :
    (subscription : SubscriptionState) → Decidable (s.SubscribeSettled sid subscription)
  | .none => isTrue trivial
  | .pending _ _ => isTrue trivial
  | .active _ _ => inferInstanceAs (Decidable (_ ∧ _))

instance decidableHandleSettled (s : State) (sid : DataTrackSid) :
    (subscription : SubscriptionState) → Decidable (s.HandleSettled sid subscription)
  | .none => isTrue trivial
  | .pending _ _ => inferInstanceAs (Decidable (_ → _))
  | .active _ _ => isTrue trivial

theorem answersSettled_subscribeRequest {s : State} {event : SubscribeRequest} :
    s.AnswersSettled (.subscribeRequest event) ↔
      (lookup event.resultTx s.requests = some .waiting →
        ∀ d ∈ lookup event.sid s.manager.descriptors,
          s.SubscribeSettled event.sid d.subscription) := by
  constructor
  · intro h hwaiting d hd
    cases hs : d.subscription with
    | active subHandle task => exact h hwaiting d subHandle task hd hs
    | none | pending => trivial
  · intro h hwaiting d subHandle task hd hs
    have hsettled := h hwaiting d hd
    rw [hs] at hsettled
    exact hsettled

theorem answersSettled_sfuSubscriberHandles {s : State} {event : SfuSubscriberHandles} :
    s.AnswersSettled (.sfuSubscriberHandles event) ↔
      ∀ entry ∈ event.mapping.toList, ∀ d ∈ lookup entry.2 s.manager.descriptors,
        s.HandleSettled entry.2 d.subscription := by
  constructor
  · intro h entry hmem d hd
    cases hs : d.subscription with
    | pending resultTxs bufferSize => exact h entry hmem d resultTxs bufferSize hd hs
    | none | active => trivial
  · intro h entry hmem d resultTxs bufferSize hd hs
    have hsettled := h entry hmem d hd
    rw [hs] at hsettled
    exact hsettled

instance decidableAnswersSettled (s : State) : (event : InputEvent) →
    Decidable (s.AnswersSettled event)
  | .subscribeRequest _ => decidable_of_iff _ answersSettled_subscribeRequest.symm
  | .sfuSubscriberHandles _ => decidable_of_iff _ answersSettled_sfuSubscriberHandles.symm
  | .unsubscribeRequest _ => isTrue trivial
  | .sfuPublicationUpdates _ => isTrue trivial
  | .packetReceived _ => isTrue trivial
  | .resendSubscriptionUpdates => isTrue trivial
  | .shutdown => isTrue trivial

/-- The condition on a step, for the event that is next in the queue. -/
theorem settled_iff {s : State} {a : Action} :
    s.Settled a ↔ (a.isManager → s.mode = .running → ∀ event ∈ s.queue.head?,
      ({ s with queue := s.queue.tail }).AnswersSettled event) := by
  constructor
  · intro h hmanager hmode event hevent
    cases a with
    | manager orders =>
      cases hqueue : s.queue with
      | nil => simp [hqueue] at hevent
      | cons event' rest =>
        rw [hqueue, head?_cons, mem_some] at hevent
        rw [← hevent]
        exact h orders event' rest rfl hmode hqueue
    | _ => cases hmanager
  · intro h orders event rest ha hmode hqueue
    have hsettled := h (by rw [ha]; rfl) hmode event (by rw [hqueue]; rfl)
    rwa [hqueue] at hsettled

instance decidableSettled (s : State) (a : Action) : Decidable (s.Settled a) :=
  decidable_of_iff _ settled_iff.symm

/-! ## The invariant -/

/-- The subscription of the task is as it should be as long as a receiver is alive. -/
structure Held (s : State) (task : TaskId) (t : TaskState) : Prop where
  running : t.phase = .running
  active : ∃ d subHandle, AList.lookup t.sid s.manager.descriptors = some d ∧
    d.published = t.published ∧ d.subscription = .active subHandle task
  alone : s.NoStaleUnsubscribe t.sid (some task)

structure TeardownInv (s : State) : Prop where
  task_lt : ∀ task t, AList.lookup task s.tasks = some t → task < s.manager.nextTask
  sid_eq : ∀ sid d, AList.lookup sid s.manager.descriptors = some d → d.info.sid = sid
  active_task : ∀ sid d subHandle task, AList.lookup sid s.manager.descriptors = some d →
    d.subscription = .active subHandle task →
    ∃ t, AList.lookup task s.tasks = some t ∧ t.sid = sid ∧ t.published = d.published
  held : ∀ request task, AList.lookup request s.requests = some (.subscribed task) →
    ∃ t, AList.lookup task s.tasks = some t ∧ (t.published ∉ s.unpublished → s.Held task t)

variable {s s' : State}

theorem init_teardownInv (provider : Option DecryptionProvider) : (init provider).TeardownInv where
  task_lt := by simp [init]
  sid_eq := by simp [init, Manager.new]
  active_task := by simp [init, Manager.new]
  held := by simp [init]

theorem TeardownInv.intact (hI : s.TeardownInv) : s.Intact := by
  intro _ request task t hrequest ht hpublished
  obtain ⟨t', ht', hheld⟩ := hI.held request task hrequest
  rw [ht, some.injEq] at ht'
  subst ht'
  obtain ⟨hrunning, ⟨d, subHandle, hd, -, hs⟩, -⟩ := hheld hpublished
  exact ⟨hrunning, d, subHandle, hd, hs⟩

variable {t t' : TaskState} {task : TaskId}

/-- A held subscription is still held if its own task and its descriptor are as before, no
unsubscribe request for it has come, and no other task may make one that could not before. -/
theorem Held.transfer (h : s.Held task t) (hsid : t'.sid = t.sid)
    (hpublished : t'.published = t.published) (hphase : t'.phase = t.phase)
    (hactive : ∀ d subHandle, lookup t.sid s.manager.descriptors = some d →
      d.subscription = .active subHandle task →
      ∃ d' subHandle', lookup t.sid s'.manager.descriptors = some d' ∧
        d'.published = d.published ∧ d'.subscription = .active subHandle' task)
    (hqueue : ∀ event ∈ s'.queue, event ∈ s.queue ∨ event ≠ .unsubscribeRequest ⟨t.sid⟩)
    (htasks : ∀ task' u', lookup task' s'.tasks = some u' → task' ≠ task → u'.sid = t.sid →
      s'.MayUnsubscribe u' → ∃ u, lookup task' s.tasks = some u ∧ u.sid = t.sid ∧
        s.MayUnsubscribe u) : s'.Held task t' where
  running := hphase.trans h.running
  active := by
    obtain ⟨d, subHandle, hd, hpub, hs⟩ := h.active
    obtain ⟨d', subHandle', hd', hpub', hs'⟩ := hactive d subHandle hd hs
    rw [hsid, hpublished]
    exact ⟨d', subHandle', hd', hpub'.trans hpub, hs'⟩
  alone := by
    rw [hsid]
    constructor
    · intro event hmem
      rcases hqueue event hmem with hold | hne
      · exact h.alone.1 event hold
      · exact hne
    · intro task' u' hu' hne hu'sid hmay
      have hne' : task' ≠ task := fun hc => hne (congrArg some hc)
      obtain ⟨u, hu, husid, hmay'⟩ := htasks task' u' hu' hne' hu'sid hmay
      exact h.alone.2 task' u hu hne husid hmay'

/-! ### The manager's part -/

/-- Where the lookups of a task have the same core, there is a task with the same data. -/
theorem task_of_core {old new : Option TaskState}
    (hcore : new.map TaskState.core = old.map TaskState.core) (ht' : new = some t') :
    ∃ t, old = some t ∧ t'.trackTask = t.trackTask ∧ t'.phase = t.phase := by
  rw [ht'] at hcore
  obtain ⟨t, ht, heq⟩ := map_eq_some_iff.mp hcore.symm
  exact ⟨t, ht, congrArg Prod.fst heq.symm, congrArg Prod.snd heq.symm⟩

theorem MayUnsubscribe.mono (h : s'.MayUnsubscribe t') (hpublished : t'.published = t.published)
    (hphase : t'.phase = t.phase) (hunpublished : s.unpublished ⊆ s'.unpublished) :
    s.MayUnsubscribe t := by
  unfold MayUnsubscribe at *
  rw [hpublished, hphase] at h
  rcases h with hclosing | ⟨hrunning, hnot⟩
  · exact .inl hclosing
  · exact .inr ⟨hrunning, fun hc => hnot (hunpublished hc)⟩

section

variable (hI : s.TeardownInv)

include hI

/-- A result of the manager without a new task keeps the invariant, if active subscriptions
come from before, those that receivers depend on are kept, and new receivers are handed out for
subscriptions that are held. `P` is what is known of the tasks that receivers depend on. -/
theorem TeardownInv.perform {result : Manager × List Effect} (P : TaskState → Prop)
    (hnext : result.1.nextTask = s.manager.nextTask)
    (hspawn : ∀ task trackTask, .spawn task trackTask ∉ result.2)
    (hsid : ∀ sid d, lookup sid result.1.descriptors = some d → d.info.sid = sid)
    (hactive : ∀ sid d subHandle task, lookup sid result.1.descriptors = some d →
      d.subscription = .active subHandle task →
      ∃ d₀ subHandle₀, lookup sid s.manager.descriptors = some d₀ ∧
        d₀.published = d.published ∧ d₀.subscription = .active subHandle₀ task)
    (hold : ∀ request task t, lookup request s.requests = some (.subscribed task) →
      lookup task s.tasks = some t → P t)
    (hnew : ∀ request task, .resolve request (.ok task) ∈ result.2 →
      lookup request s.requests = some .waiting →
      ∃ t, lookup task s.tasks = some t ∧ s.Held task t ∧ P t)
    (hkept : ∀ t d subHandle task, P t → t.published ∉ (s.perform result).unpublished →
      lookup t.sid s.manager.descriptors = some d → d.published = t.published →
      d.subscription = .active subHandle task →
      ∃ d' subHandle', lookup t.sid result.1.descriptors = some d' ∧
        d'.published = d.published ∧ d'.subscription = .active subHandle' task) :
    (s.perform result).TeardownInv := by
  have hcore : ∀ task, (lookup task (s.perform result).tasks).map TaskState.core
      = (lookup task s.tasks).map TaskState.core := applyEffects_core hspawn
  have hunpublished : s.unpublished ⊆ (s.perform result).unpublished :=
    s.perform_unpublished_subset result
  -- a task from before is still there, with the same data
  have hforward : ∀ task t, lookup task s.tasks = some t →
      ∃ t', lookup task (s.perform result).tasks = some t' ∧ t'.trackTask = t.trackTask ∧
        t'.phase = t.phase := by
    intro task t ht
    obtain ⟨t', ht', htrack, hphase⟩ := task_of_core (hcore task).symm ht
    exact ⟨t', ht', htrack.symm, hphase.symm⟩
  have htransfer : ∀ task t t', P t → t.published ∉ (s.perform result).unpublished →
      t'.trackTask = t.trackTask → t'.phase = t.phase → s.Held task t →
      (s.perform result).Held task t' := by
    intro task t t' hP hpub htrack hphase hheld
    refine hheld.transfer ?_ ?_ hphase ?_ ?_ ?_
    · show t'.trackTask.info.sid = t.trackTask.info.sid
      rw [htrack]
    · show t'.trackTask.published = t.trackTask.published
      rw [htrack]
    · intro d subHandle hd hs
      obtain ⟨d₀, _, hd₀, hpub₀, -⟩ := hheld.active
      cases hd.symm.trans hd₀
      rw [perform_manager]
      exact hkept t d subHandle task hP hpub hd hpub₀ hs
    · intro event hmem
      rw [perform_queue] at hmem
      exact .inl hmem
    · intro task' u' hu' _ husid hmay
      obtain ⟨u, hu, hutrack, huphase⟩ := task_of_core (hcore task') hu'
      refine ⟨u, hu, ?_, hmay.mono ?_ huphase hunpublished⟩
      · show u.trackTask.info.sid = t.sid
        rw [← hutrack]
        exact husid
      · show u'.trackTask.published = u.trackTask.published
        rw [hutrack]
  constructor
  · intro task t' ht'
    obtain ⟨t, ht, -⟩ := task_of_core (hcore task) ht'
    rw [perform_manager, hnext]
    exact hI.task_lt task t ht
  · intro sid d hd
    rw [perform_manager] at hd
    exact hsid sid d hd
  · intro sid d subHandle task hd hs
    rw [perform_manager] at hd
    obtain ⟨d₀, subHandle₀, hd₀, hpub₀, hs₀⟩ := hactive sid d subHandle task hd hs
    obtain ⟨t, ht, htsid, htpub⟩ := hI.active_task sid d₀ subHandle₀ task hd₀ hs₀
    obtain ⟨t', ht', htrack, -⟩ := hforward task t ht
    refine ⟨t', ht', ?_, ?_⟩
    · show t'.trackTask.info.sid = sid
      rw [htrack]
      exact htsid
    · show t'.trackTask.published = d.published
      rw [htrack]
      exact htpub.trans hpub₀
  · intro request task hrequest
    obtain ⟨t, ht, hP, hheld⟩ : ∃ t, lookup task s.tasks = some t ∧ P t ∧
        (t.published ∉ s.unpublished → s.Held task t) := by
      rcases (applyEffects_requests { s with manager := result.1 } result.2 request).2 task
        hrequest with hbefore | ⟨hwaiting, hmem⟩
      · obtain ⟨t, ht, hheld⟩ := hI.held request task hbefore
        exact ⟨t, ht, hold request task t hbefore ht, hheld⟩
      · obtain ⟨t, ht, hheld, hP⟩ := hnew request task hmem hwaiting
        exact ⟨t, ht, hP, fun _ => hheld⟩
    obtain ⟨t', ht', htrack, hphase⟩ := hforward task t ht
    refine ⟨t', ht', ?_⟩
    intro hpub
    have hpub' : t.published ∉ (s.perform result).unpublished := by
      have hsame : t'.published = t.published := congrArg TrackTask.published htrack
      rwa [hsame] at hpub
    exact htransfer task t t' hP hpub' htrack hphase (hheld fun hc => hpub' (hunpublished hc))

/-- The same for a result that leaves the manager as it is. -/
theorem TeardownInv.perform_effects {effects : List Effect}
    (hspawn : ∀ task trackTask, .spawn task trackTask ∉ effects)
    (hnew : ∀ request task, .resolve request (.ok task) ∈ effects →
      lookup request s.requests = some .waiting →
      ∃ t, lookup task s.tasks = some t ∧ s.Held task t) :
    (s.perform (s.manager, effects)).TeardownInv := by
  refine hI.perform (fun _ => True) rfl hspawn hI.sid_eq ?_ (fun _ _ _ _ _ => trivial) ?_ ?_
  · intro sid d subHandle task hd hs
    exact ⟨d, subHandle, hd, rfl, hs⟩
  · intro request task hmem hwaiting
    obtain ⟨t, ht, hheld⟩ := hnew request task hmem hwaiting
    exact ⟨t, ht, hheld, trivial⟩
  · intro t d subHandle task _ _ hd _ hs
    exact ⟨d, subHandle, hd, rfl, hs⟩

variable {d : Descriptor} {sid : DataTrackSid}

/-- The same for a subscription that is not active after the change, and was not before unless
no receiver depends on it. -/
theorem TeardownInv.perform_setSubscription (hd : lookup sid s.manager.descriptors = some d)
    {subscription : SubscriptionState} (hafter : subscription.activeHandle = none)
    (hbefore : d.subscription.activeHandle = none ∨
      ∀ request task t, lookup request s.requests = some (.subscribed task) →
        lookup task s.tasks = some t → t.published ∉ s.unpublished → t.sid ≠ sid)
    (subHandles : AssocMap Handle DataTrackSid) (events : List OutputEvent) :
    (s.perform ({ s.manager.setSubscription sid d subscription with subHandles := subHandles },
      events.map .emit)).TeardownInv := by
  have hlookup := Manager.lookup_setSubscription s.manager sid
  refine hI.perform (fun t => d.subscription.activeHandle = none ∨
    (t.published ∉ s.unpublished → t.sid ≠ sid)) rfl (by simp) ?_ ?_ ?_ (by simp) ?_
  · exact forall_insert hI.sid_eq (hI.sid_eq sid d hd)
  · intro sid' d' subHandle task hd' hs'
    rcases of_lookup_insert hd' with ⟨-, rfl⟩ | ⟨-, hd'⟩
    · rw [show subscription = _ from hs'] at hafter
      cases hafter
    · exact ⟨d', subHandle, hd', rfl, hs'⟩
  · intro request task t hrequest ht
    rcases hbefore with hnone | hother
    · exact .inl hnone
    · exact .inr (hother request task t hrequest ht)
  · intro t d' subHandle task hP hpub hd' _ hs'
    have hne : t.sid ≠ sid := by
      intro heq
      rcases hP with hnone | hother
      · rw [heq, hd, some.injEq] at hd'
        rw [hd', hs'] at hnone
        cases hnone
      · exact hother (fun hc => hpub (s.perform_unpublished_subset _ hc)) heq
    exact ⟨d', subHandle, (hlookup _ _ _).trans ((if_neg hne).trans hd'), rfl, hs'⟩

theorem TeardownInv.onSubscribeRequest (event : SubscribeRequest)
    (hsettled : s.AnswersSettled (.subscribeRequest event)) :
    (s.perform (s.manager.onSubscribeRequest event)).TeardownInv := by
  rcases s.manager.onSubscribeRequest_cases event with
    ⟨-, he⟩ | ⟨d, hd, hs, he⟩ | ⟨d, resultTxs, bufferSize, hd, hs, he⟩ | ⟨d, h, task, hd, hs, he⟩
  · rw [he]
    exact hI.perform_effects (by simp) (by simp)
  · rw [he]
    exact hI.perform_setSubscription hd rfl (.inl (by rw [hs]; rfl)) _ [_]
  · rw [he]
    exact hI.perform_setSubscription hd rfl (.inl (by rw [hs]; rfl)) _ []
  · rw [he]
    refine hI.perform_effects (by simp) ?_
    intro request task' hmem hwaiting
    rw [mem_singleton] at hmem
    cases hmem
    -- the manager answers with the task of the active subscription
    obtain ⟨⟨t, ht, hrunning⟩, halone⟩ := hsettled hwaiting d h task hd hs
    obtain ⟨t', ht', hsid, hpub⟩ := hI.active_task event.sid d h task hd hs
    rw [ht, some.injEq] at ht'
    subst ht'
    refine ⟨t, ht, hrunning, ⟨d, h, hsid ▸ hd, hpub.symm, hs⟩, ?_⟩
    rw [hsid]
    exact halone

/-- An unsubscribe request for a track that no receiver depends on. -/
theorem TeardownInv.onUnsubscribeRequest (event : UnsubscribeRequest)
    (hother : ∀ request task t, lookup request s.requests = some (.subscribed task) →
      lookup task s.tasks = some t → t.published ∉ s.unpublished → t.sid ≠ event.sid) :
    (s.perform (s.manager.onUnsubscribeRequest event)).TeardownInv := by
  rcases s.manager.onUnsubscribeRequest_cases event with ⟨-, he⟩ | ⟨d, _, _, hd, -, he⟩
  · rw [he]
    exact hI
  · rw [he]
    exact hI.perform_setSubscription hd rfl (.inr hother) _ [_]

theorem TeardownInv.handleTrackPublished (identity : String) (info : DataTrackInfo) :
    (s.perform (s.manager.handleTrackPublished identity info)).TeardownInv := by
  rcases s.manager.handleTrackPublished_cases identity info with he | ⟨hnone, he⟩
  · rw [he]
    exact hI
  · rw [he]
    refine hI.perform (fun _ => True) rfl (by simp) ?_ ?_ (fun _ _ _ _ _ => trivial) (by simp) ?_
    · exact forall_insert hI.sid_eq rfl
    · intro sid d subHandle task hd hs
      rcases of_lookup_insert hd with ⟨-, rfl⟩ | ⟨-, hd⟩
      · cases hs
      · exact ⟨d, subHandle, hd, rfl, hs⟩
    · intro t d subHandle task _ _ hd _ hs
      have hne : t.sid ≠ info.sid := by
        intro heq
        rw [heq, hnone] at hd
        cases hd
      simp only [lookup_insert_ite, if_neg hne]
      exact ⟨d, subHandle, hd, rfl, hs⟩

theorem TeardownInv.handleTrackUnpublished (sid : DataTrackSid) :
    (s.perform (s.manager.handleTrackUnpublished sid)).TeardownInv := by
  rcases s.manager.handleTrackUnpublished_cases sid with ⟨-, he⟩ | ⟨d, _, hd, -, he⟩
  · rw [he]
    exact hI
  · rw [he]
    refine hI.perform (fun _ => True) rfl (by simp) ?_ ?_ (fun _ _ _ _ _ => trivial) (by simp) ?_
    · intro sid' d' hd'
      exact hI.sid_eq sid' d' (of_lookup_erase hd').2
    · intro sid' d' subHandle task hd' hs'
      exact ⟨d', subHandle, (of_lookup_erase hd').2, rfl, hs'⟩
    · intro t d' subHandle task _ hpub hd' hpub' hs'
      -- the publication of the track that is removed has ended
      have hne : t.sid ≠ sid := by
        intro heq
        rw [heq, hd, some.injEq] at hd'
        subst hd'
        apply hpub
        rw [← hpub']
        exact mem_cons_self
      simp only [lookup_erase_ite, if_neg hne]
      exact ⟨d', subHandle, hd', rfl, hs'⟩

end

/-! ### Handles for pending subscriptions -/

/-- Nothing endangers the receivers that the pending requests of the track are answered with. -/
def PendingSettled (s : State) (sid : DataTrackSid) : Prop :=
  ∀ d resultTxs bufferSize, AList.lookup sid s.manager.descriptors = some d →
    d.subscription = .pending resultTxs bufferSize →
    (∃ request ∈ resultTxs, AList.lookup request s.requests = some .waiting) →
    s.NoStaleUnsubscribe sid none

section

variable (hI : s.TeardownInv)

include hI

/-- A handle for an active subscription only changes the handle. -/
theorem TeardownInv.perform_active (hd : lookup sid s.manager.descriptors = some d) {g : Handle}
    (hs : d.subscription = .active g task) (h : Handle)
    (subHandles : AssocMap Handle DataTrackSid) :
    (s.perform ({ s.manager.setSubscription sid d (.active h task) with
      subHandles := subHandles }, [])).TeardownInv := by
  have hlookup := Manager.lookup_setSubscription s.manager sid
  refine hI.perform (fun _ => True) rfl (by simp) ?_ ?_ (fun _ _ _ _ _ => trivial) (by simp) ?_
  · exact forall_insert hI.sid_eq (hI.sid_eq sid d hd)
  · intro sid' d' g' task' hd' hs'
    rcases of_lookup_insert hd' with ⟨rfl, rfl⟩ | ⟨-, hd'⟩
    · cases hs'
      exact ⟨d, g, hd, rfl, hs⟩
    · exact ⟨d', g', hd', rfl, hs'⟩
  · intro t d' g' task' _ _ hd' _ hs'
    by_cases heq : t.sid = sid
    · rw [heq, hd, some.injEq] at hd'
      subst hd'
      rw [hs] at hs'
      cases hs'
      exact ⟨_, h, (hlookup _ _ _).trans (if_pos heq), rfl, rfl⟩
    · exact ⟨d', g', (hlookup _ _ _).trans ((if_neg heq).trans hd'), rfl, hs'⟩

/-- The first handle for a pending subscription spawns its task and answers the requests. -/
theorem TeardownInv.perform_pending (hd : lookup sid s.manager.descriptors = some d)
    {resultTxs : List RequestId} {bufferSize : ℕ}
    (hs : d.subscription = .pending resultTxs bufferSize) (hsettled : s.PendingSettled sid)
    (h : Handle) (subHandles : AssocMap Handle DataTrackSid) (pipeline : Pipeline) :
    (s.perform ({ s.manager.setSubscription sid d (.active h s.manager.nextTask) with
        subHandles := subHandles, nextTask := s.manager.nextTask + 1 },
      .spawn s.manager.nextTask ⟨d.info, pipeline, d.published, bufferSize⟩
        :: resultTxs.map fun resultTx =>
          .resolve resultTx (.ok s.manager.nextTask))).TeardownInv := by
  generalize hresult : ({ s.manager.setSubscription sid d (.active h s.manager.nextTask) with
        subHandles := subHandles, nextTask := s.manager.nextTask + 1 },
      Effect.spawn s.manager.nextTask ⟨d.info, pipeline, d.published, bufferSize⟩
        :: resultTxs.map fun resultTx => Effect.resolve resultTx (.ok s.manager.nextTask))
    = result
  have hnext : result.1.nextTask = s.manager.nextTask + 1 := by rw [← hresult]
  have hdescriptors : result.1.descriptors = insert sid
      { d with subscription := .active h s.manager.nextTask } s.manager.descriptors := by
    rw [← hresult]
    rfl
  let new : TaskState := ⟨⟨d.info, pipeline, d.published, bufferSize⟩, .running, []⟩
  have hcore : ∀ task, (lookup task (s.perform result).tasks).map TaskState.core
      = (if task = s.manager.nextTask then some new else lookup task s.tasks).map
          TaskState.core := by
    intro task
    rw [← lookup_insert_ite, ← hresult]
    refine applyEffects_core (s := ({ s with manager := _ } : State).applyEffect _) ?_ task
    intro task' trackTask hmem
    obtain ⟨_, -, hc⟩ := mem_map.mp hmem
    cases hc
  have hnewTask : ∃ t', lookup s.manager.nextTask (s.perform result).tasks = some t' ∧
      t'.trackTask = new.trackTask ∧ t'.phase = .running := by
    obtain ⟨t', ht', htrack, hphase⟩ := task_of_core (hcore s.manager.nextTask).symm (if_pos rfl)
    exact ⟨t', ht', htrack.symm, hphase.symm⟩
  -- the tasks from before have smaller numbers
  have holdTask : ∀ task t, lookup task s.tasks = some t →
      ∃ t', lookup task (s.perform result).tasks = some t' ∧
        t'.trackTask = t.trackTask ∧ t'.phase = t.phase := by
    intro task t ht
    have hne : task ≠ s.manager.nextTask := Nat.ne_of_lt (hI.task_lt task t ht)
    obtain ⟨t', ht', htrack, hphase⟩ :=
      task_of_core (hcore task).symm ((if_neg hne).trans ht)
    exact ⟨t', ht', htrack.symm, hphase.symm⟩
  have htasks : ∀ task t', lookup task (s.perform result).tasks = some t' →
      (task = s.manager.nextTask ∧ t'.trackTask = new.trackTask) ∨
      ∃ t, lookup task s.tasks = some t ∧ t'.trackTask = t.trackTask ∧
        t'.phase = t.phase := by
    intro task t' ht'
    obtain ⟨t, ht, htrack, hphase⟩ := task_of_core (hcore task) ht'
    by_cases htask : task = s.manager.nextTask
    · rw [if_pos htask, some.injEq] at ht
      rw [← ht] at htrack
      exact .inl ⟨htask, htrack⟩
    · rw [if_neg htask] at ht
      exact .inr ⟨t, ht, htrack, hphase⟩
  have hunpublished := s.perform_unpublished_subset result
  -- a task of before that may unsubscribe might have done so before
  have hmay : ∀ {t t' : TaskState}, t'.trackTask = t.trackTask → t'.phase = t.phase →
      (s.perform result).MayUnsubscribe t' → s.MayUnsubscribe t := by
    intro t t' htrack hphase hmay
    exact hmay.mono (congrArg TrackTask.published htrack) hphase hunpublished
  constructor
  · intro task t' ht'
    rw [perform_manager, hnext]
    rcases htasks task t' ht' with ⟨rfl, -⟩ | ⟨t, ht, -⟩
    · exact Nat.lt_succ_self _
    · exact Nat.lt_succ_of_lt (hI.task_lt task t ht)
  · rw [perform_manager, hdescriptors]
    exact forall_insert hI.sid_eq (hI.sid_eq sid d hd)
  · intro sid' d' g task hd' hs'
    rw [perform_manager, hdescriptors] at hd'
    rcases of_lookup_insert hd' with ⟨rfl, rfl⟩ | ⟨-, hd'⟩
    · cases hs'
      obtain ⟨t', ht', htrack, -⟩ := hnewTask
      refine ⟨t', ht', ?_, congrArg TrackTask.published htrack⟩
      rw [← hI.sid_eq _ d hd]
      exact congrArg (fun t => t.info.sid) htrack
    · obtain ⟨t, ht, htsid, htpub⟩ := hI.active_task sid' d' g task hd' hs'
      obtain ⟨t', ht', htrack, -⟩ := holdTask task t ht
      refine ⟨t', ht', ?_, (congrArg TrackTask.published htrack).trans htpub⟩
      exact (congrArg (fun t => t.info.sid) htrack).trans htsid
  · intro request task hrequest
    rcases (applyEffects_requests { s with manager := result.1 } result.2 request).2 task hrequest
      with hbefore | ⟨hwaiting, hmem⟩
    · -- a receiver of before: its track is another one
      obtain ⟨t, ht, hheld⟩ := hI.held request task hbefore
      obtain ⟨t', ht', htrack, hphase⟩ := holdTask task t ht
      refine ⟨t', ht', ?_⟩
      intro hpub
      have hpub' : t.published ∉ s.unpublished := by
        intro hc
        apply hpub
        rw [show t'.published = t.published from congrArg TrackTask.published htrack]
        exact hunpublished hc
      have hh := hheld hpub'
      have hne : t.sid ≠ sid := by
        intro heq
        obtain ⟨d₀, g, hd₀, -, hs₀⟩ := hh.active
        rw [heq, hd, some.injEq] at hd₀
        rw [← hd₀, hs] at hs₀
        cases hs₀
      refine hh.transfer (congrArg (fun t => t.info.sid) htrack)
        (congrArg TrackTask.published htrack) hphase ?_ ?_ ?_
      · intro d₀ g hd₀ hs₀
        rw [perform_manager, hdescriptors, lookup_insert_ne hne]
        exact ⟨d₀, g, hd₀, rfl, hs₀⟩
      · intro event hmem
        rw [perform_queue] at hmem
        exact .inl hmem
      · intro task' u' hu' _ husid hmayu
        rcases htasks task' u' hu' with ⟨-, hutrack⟩ | ⟨u, hu, hutrack, huphase⟩
        · exfalso
          apply hne
          rw [← husid, ← hI.sid_eq sid d hd]
          exact congrArg (fun t => t.info.sid) hutrack
        · refine ⟨u, hu, ?_, hmay hutrack huphase hmayu⟩
          rw [← husid]
          exact (congrArg (fun t => t.info.sid) hutrack).symm
    · -- a request that has just been answered
      have hanswer : request ∈ resultTxs ∧ task = s.manager.nextTask := by
        rw [← hresult] at hmem
        rcases mem_cons.mp hmem with hc | hmem
        · cases hc
        · obtain ⟨r, hr, heq⟩ := mem_map.mp hmem
          cases heq
          exact ⟨hr, rfl⟩
      obtain ⟨hpending, rfl⟩ := hanswer
      have hquiet := hsettled d resultTxs bufferSize hd hs ⟨request, hpending, hwaiting⟩
      obtain ⟨t', ht', htrack, hrunning⟩ := hnewTask
      have htsid : t'.sid = sid := by
        rw [← hI.sid_eq sid d hd]
        exact congrArg (fun t => t.info.sid) htrack
      refine ⟨t', ht', fun _ => ⟨hrunning, ?_, ?_⟩⟩
      · rw [perform_manager, hdescriptors, htsid, lookup_insert]
        exact ⟨_, h, rfl, (congrArg TrackTask.published htrack).symm, rfl⟩
      · rw [htsid]
        constructor
        · intro event hevent
          rw [perform_queue] at hevent
          exact hquiet.1 event hevent
        · intro task' u' hu' hne husid hmayu
          rcases htasks task' u' hu' with ⟨heq, -⟩ | ⟨u, hu, hutrack, huphase⟩
          · exact hne (congrArg some heq)
          · refine hquiet.2 task' u hu (by simp) ?_ (hmay hutrack huphase hmayu)
            rw [← husid]
            exact (congrArg (fun t => t.info.sid) hutrack).symm

theorem TeardownInv.registerSubscriberHandle (h : Handle) (sid : DataTrackSid)
    (hsettled : s.PendingSettled sid) :
    (s.perform (s.manager.registerSubscriberHandle (h, sid))).TeardownInv := by
  rcases s.manager.registerSubscriberHandle_cases h sid with
    ⟨-, he⟩ | ⟨d, g, task, hd, hs, he⟩ | ⟨d, resultTxs, bufferSize, hd, hs, he⟩
  · rw [he]
    exact hI
  · rw [he]
    exact hI.perform_active hd hs h _
  · rw [he]
    exact hI.perform_pending hd hs hsettled h _ _

/-- What is known of another track's pending requests stays true when a handle is registered. -/
theorem PendingSettled.register {sid' : DataTrackSid} (hsettled : s.PendingSettled sid')
    (h : Handle) :
    (s.perform (s.manager.registerSubscriberHandle (h, sid))).PendingSettled sid' := by
  intro d resultTxs bufferSize hd hs hwaiting
  rw [perform_manager] at hd
  have hbefore := Manager.registerSubscriberHandle_pending hd hs
  obtain ⟨request, hmem, hrequest⟩ := hwaiting
  have hquiet := hsettled d resultTxs bufferSize hbefore hs
    ⟨request, hmem, s.waiting_of_perform hrequest⟩
  constructor
  · intro event hevent
    rw [perform_queue] at hevent
    exact hquiet.1 event hevent
  · intro task t' ht' hne htsid hmay
    rcases applyEffects_tasks ht' with ⟨t, ht, htrack, hphase⟩ | hspawn
    · refine hquiet.2 task t ht hne ?_ (hmay.mono (congrArg TrackTask.published htrack) hphase
        (s.perform_unpublished_subset _))
      rw [← htsid]
      exact (congrArg (fun t => t.info.sid) htrack).symm
    · -- a new task is for the track that the handle is for, which is not pending any more
      rcases s.manager.registerSubscriberHandle_cases h sid with
        ⟨-, he⟩ | ⟨_, _, _, -, -, he⟩ | ⟨d₁, _, _, hd₁, hs₁, he⟩
      · rw [he] at hspawn
        cases hspawn
      · rw [he] at hspawn
        cases hspawn
      · have htrack : t'.trackTask.info = d₁.info := by
          rw [he] at hspawn
          rcases mem_cons.mp hspawn with heq | hrest
          · rw [(Effect.spawn.inj heq).2]
          · obtain ⟨_, -, hc⟩ := mem_map.mp hrest
            cases hc
        have hsid : sid' = sid := by
          rw [← htsid, ← hI.sid_eq sid d₁ hd₁, ← htrack]
          rfl
        rw [he, hsid] at hd
        have hactive := (Manager.lookup_setSubscription s.manager sid sid d₁
          (.active h s.manager.nextTask)).trans (if_pos rfl)
        rw [show AList.lookup sid _ = _ from hd, some.injEq] at hactive
        rw [hactive] at hs
        cases hs

theorem TeardownInv.onSfuSubscriberHandles (event : SfuSubscriberHandles)
    (hsettled : s.AnswersSettled (.sfuSubscriberHandles event)) :
    (s.perform (s.manager.onSfuSubscriberHandles event)).TeardownInv := by
  -- the condition on the entries that are left is kept along with the invariant
  have hloop := perform_forEach_invariant (f := Manager.registerSubscriberHandle)
    (fun entries s => s.TeardownInv ∧ ∀ entry ∈ entries, s.PendingSettled entry.2) ?_
    ⟨hI, fun entry hmem d resultTxs bufferSize => hsettled entry hmem d resultTxs bufferSize⟩
  · exact hloop.1
  · intro s entry rest hs
    obtain ⟨hI, hentries⟩ := hs
    constructor
    · exact hI.registerSubscriberHandle entry.1 entry.2 (hentries entry mem_cons_self)
    · intro entry' hmem
      exact PendingSettled.register hI (hentries entry' (mem_cons_of_mem _ hmem)) entry.1

/-- Events keep the invariant if the receivers that they are answered with are not endangered,
and if no receiver depends on the track of an unsubscribe request. -/
theorem TeardownInv.handle {orders : Orders} {event : InputEvent} {result : Manager × List Effect}
    (hhandle : s.manager.handle orders event = some result) (hsettled : s.AnswersSettled event)
    (hother : ∀ sid, event = .unsubscribeRequest ⟨sid⟩ → ∀ request task t,
      lookup request s.requests = some (.subscribed task) →
      lookup task s.tasks = some t → t.published ∉ s.unpublished → t.sid ≠ sid) :
    (s.perform result).TeardownInv := by
  cases event with
  | subscribeRequest event =>
    cases hhandle
    exact hI.onSubscribeRequest event hsettled
  | unsubscribeRequest event =>
    cases hhandle
    exact hI.onUnsubscribeRequest event (hother event.sid rfl)
  | sfuPublicationUpdates event =>
    cases hhandle
    refine perform_onSfuPublicationUpdates_invariant _ ?_ ?_ hI orders event
    · intro s identity info hI
      exact hI.handleTrackPublished identity info
    · intro s sid hI
      exact hI.handleTrackUnpublished sid
  | sfuSubscriberHandles event =>
    cases hhandle
    exact hI.onSfuSubscriberHandles event hsettled
  | packetReceived bytes =>
    cases hhandle
    rcases s.manager.onPacketReceived_cases bytes with he | ⟨task, packet, he⟩
    · rw [he]
      exact hI
    · rw [he]
      exact hI.perform_effects (by simp) (by simp)
  | resendSubscriptionUpdates =>
    cases hhandle
    refine hI.perform_effects ?_ ?_
    · intro task t hmem
      obtain ⟨entry, -, hentry⟩ := mem_filterMap.mp hmem
      split at hentry <;> cases hentry
    · intro request task hmem
      obtain ⟨entry, -, hentry⟩ := mem_filterMap.mp hmem
      split at hentry <;> cases hentry
  | shutdown => cases hhandle

/-! ### Everybody else's part -/

/-- Neither the application nor the room endangers a receiver: they hand out none, and make no
unsubscribe request. -/
theorem TeardownInv.of_frame (hmanager : s'.manager = s.manager) (htasks : s'.tasks = s.tasks)
    (hunpublished : s'.unpublished = s.unpublished)
    (hrequests : ∀ request task, lookup request s'.requests = some (.subscribed task) →
      lookup request s.requests = some (.subscribed task))
    (hqueue : ∀ event ∈ s'.queue,
      event ∈ s.queue ∨ ∀ request, event ≠ .unsubscribeRequest request) :
    s'.TeardownInv where
  task_lt := by
    rw [hmanager, htasks]
    exact hI.task_lt
  sid_eq := by
    rw [hmanager]
    exact hI.sid_eq
  active_task := by
    rw [hmanager, htasks]
    exact hI.active_task
  held := by
    intro request task hrequest
    obtain ⟨t, ht, hheld⟩ := hI.held request task (hrequests request task hrequest)
    rw [htasks, hunpublished]
    refine ⟨t, ht, ?_⟩
    intro hpub
    refine (hheld hpub).transfer rfl rfl rfl ?_ ?_ ?_
    · intro d subHandle hd hs
      exact ⟨d, subHandle, by rwa [hmanager], rfl, hs⟩
    · intro event hmem
      rcases hqueue event hmem with hold | hne
      · exact .inl hold
      · exact .inr (hne _)
    · intro task' u hu _ husid hmay
      rw [htasks] at hu
      refine ⟨u, hu, husid, hmay.mono rfl rfl ?_⟩
      rw [hunpublished]
      exact List.Subset.refl _

/-- A track task that moves on, and may enqueue its unsubscribe request when it is closing. Its
phase changes only when no receiver depends on it. -/
theorem TeardownInv.insert_task (ht : lookup task s.tasks = some t) (t' : TaskState)
    (hinfo : t'.trackTask.info = t.trackTask.info) (hpublished : t'.published = t.published)
    (hmay : s.MayUnsubscribe t' → s.MayUnsubscribe t)
    (hphase : t'.phase = t.phase ∨ ∀ request,
      lookup request s.requests = some (.subscribed task) → t.published ∈ s.unpublished)
    {queue : List InputEvent}
    (hqueue : queue = s.queue ∨
      t.phase = .closing ∧ queue = s.queue ++ [.unsubscribeRequest ⟨t.sid⟩])
    (deliveries : List Delivery) :
    ({ s with tasks := insert task t' s.tasks, queue := queue,
              deliveries := deliveries } : State).TeardownInv := by
  have hsid : t'.sid = t.sid := congrArg DataTrackInfo.sid hinfo
  constructor
  · exact forall_insert hI.task_lt (hI.task_lt task t ht)
  · exact hI.sid_eq
  · intro sid d subHandle task' hd hs
    obtain ⟨u, hu, husid, hupub⟩ := hI.active_task sid d subHandle task' hd hs
    rw [lookup_insert_ite]
    split
    · next heq =>
      rw [heq, ht, some.injEq] at hu
      subst hu
      exact ⟨t', rfl, hsid.trans husid, hpublished.trans hupub⟩
    · exact ⟨u, hu, husid, hupub⟩
  · intro request task' hrequest
    obtain ⟨u, hu, hheld⟩ := hI.held request task' hrequest
    -- what a receiver of some task depends on is not touched
    have htransfer : ∀ u', u'.sid = u.sid → u'.published = u.published → u'.phase = u.phase →
        u.published ∉ s.unpublished →
        Held { s with tasks := insert task t' s.tasks, queue := queue,
                      deliveries := deliveries } task' u' := by
      intro u' hu'sid hu'pub hu'phase hpub
      refine (hheld hpub).transfer hu'sid hu'pub hu'phase ?_ ?_ ?_
      · intro d subHandle hd hs
        exact ⟨d, subHandle, hd, rfl, hs⟩
      · intro event hmem
        rcases hqueue with rfl | ⟨hclosing, rfl⟩
        · exact .inl hmem
        · rcases mem_append.mp hmem with hold | hnew
          · exact .inl hold
          · right
            rw [mem_singleton] at hnew
            rw [hnew]
            intro heq
            have husid : t.sid = u.sid := by
              rw [InputEvent.unsubscribeRequest.injEq, UnsubscribeRequest.mk.injEq] at heq
              exact heq
            -- the task that asks is not the one of the receiver, which runs
            have hne : task ≠ task' := by
              intro htask
              rw [← htask, ht, some.injEq] at hu
              subst hu
              rw [(hheld hpub).running] at hclosing
              cases hclosing
            exact (hheld hpub).alone.2 task t ht (fun hc => hne (some.inj hc)) husid
              (.inl hclosing)
      · intro task'' v hv hne hvsid hvmay
        rcases of_lookup_insert hv with ⟨rfl, rfl⟩ | ⟨-, hv⟩
        · exact ⟨t, ht, hsid ▸ hvsid, hmay hvmay⟩
        · exact ⟨v, hv, hvsid, hvmay⟩
    rw [lookup_insert_ite]
    split
    · next heq =>
      subst heq
      cases ht.symm.trans hu
      refine ⟨t', rfl, ?_⟩
      intro hpub
      rw [hpublished] at hpub
      rcases hphase with hsame | hnone
      · exact htransfer t' hsid hpublished hsame hpub
      · exact absurd (hnone request hrequest) hpub
    · exact ⟨u, hu, fun hpub => htransfer u rfl rfl rfl hpub⟩

theorem TeardownInv.taskStep {st : ProviderState} (hstep : s.taskStep task st = some s') :
    s'.TeardownInv := by
  obtain ⟨t, ht, hcases⟩ := taskStep_cases hstep
  have hended : ¬ s.MayUnsubscribe { t with phase := .ended } := by
    unfold MayUnsubscribe
    simp
  -- a receiver depends on a task that runs
  have hclosed : t.phase = .closing → ∀ request,
      lookup request s.requests = some (.subscribed task) →
      t.published ∈ s.unpublished := by
    intro hclosing request hrequest
    obtain ⟨t', ht', hheld⟩ := hI.held request task hrequest
    rw [ht, some.injEq] at ht'
    subst ht'
    by_contra hpub
    rw [(hheld hpub).running] at hclosing
    cases hclosing
  rcases hcases with ⟨-, hmem, rfl⟩ |
    ⟨hrunning, hmem, hrecv, rfl⟩ | ⟨packet, rest, hrunning, -, rfl⟩ |
    ⟨hclosing, -, rfl⟩ | ⟨hclosing, rfl⟩
  · exact hI.insert_task ht { t with phase := .ended } rfl rfl (fun h => absurd h hended)
      (.inr fun _ _ => hmem)
      (.inl rfl) _
  · refine hI.insert_task ht { t with phase := .closing } rfl rfl (fun _ => .inr ⟨hrunning, hmem⟩)
      (.inr ?_)
      (.inl rfl) _
    intro request hrequest
    have hsome := hasReceiver_of_subscribed hrequest
    rw [hrecv] at hsome
    cases hsome
  · obtain ⟨deliveries, he, -⟩ := s.receive_eq task t st packet rest
    rw [he]
    refine hI.insert_task ht _ ?_ ?_ ?_ (.inl ?_) (.inl rfl) _
    · rfl
    · rfl
    · exact fun h => h.mono rfl rfl (List.Subset.refl _)
    · rfl
  · exact hI.insert_task ht { t with phase := .ended } rfl rfl (fun h => absurd h hended)
      (.inr (hclosed hclosing))
      (.inl rfl) _
  · exact hI.insert_task ht { t with phase := .ended } rfl rfl (fun h => absurd h hended)
      (.inr (hclosed hclosing))
      (.inr ⟨hclosing, rfl⟩) _

end

/-! ## Whole runs -/

/-- Only the manager tells the SFU anything. -/
theorem NoUnsubscribe.of_outputs (h : s'.outputs = s.outputs) : s.NoUnsubscribe s' := by
  intro _ request task t _ _ _ hmem
  rw [h, drop_length] at hmem
  cases hmem

/-- One step: every receiver keeps its subscription if the step is settled. -/
theorem TeardownInv.step (hI : s.mode = .running → s.TeardownInv) {a : Action}
    (hstep : s.step a = some s') (hsettled : s.Settled a) :
    (s'.mode = .running → s'.TeardownInv) ∧ s.NoUnsubscribe s' := by
  cases a with
  | manager orders =>
    rcases managerStep_cases hstep with
      ⟨event, rest, result, hmode, hqueue, hhandle, rfl⟩ | ⟨hmode, -⟩
    · have hInv := hI hmode
      have hrest : ({ s with queue := rest } : State).TeardownInv := by
        refine hInv.of_frame rfl rfl rfl (fun _ _ h => h) ?_
        intro event' hmem
        rw [hqueue]
        exact .inl (mem_cons_of_mem event hmem)
      have hafter : (({ s with queue := rest } : State).perform result).TeardownInv := by
        refine hrest.handle hhandle (hsettled orders event rest rfl hmode hqueue) ?_
        intro sid hevent request task t hrequest ht hpub hsid
        -- no receiver depends on the track of a request that is in the queue
        obtain ⟨t', ht', hheld⟩ := hInv.held request task hrequest
        rw [show lookup task s.tasks = some t from ht, some.injEq] at ht'
        subst ht'
        apply (hheld hpub).alone.1 event
        · rw [hqueue]
          exact mem_cons_self
        · rw [hsid]
          exact hevent
      refine ⟨fun _ => hafter, ?_⟩
      intro hmode' request task t hrequest ht hpub hmem
      have hemit : .emit (.sfuUpdateSubscription t.sid false) ∈ result.2 := by
        unfold State.perform at hmem
        rw [applyEffects_outputs, drop_left] at hmem
        obtain ⟨e, he, hevent⟩ := mem_filterMap.mp hmem
        split at hevent
        · cases hevent
          exact he
        · cases hevent
      obtain ⟨d, hd, hnone⟩ := Manager.handle_unsubscribes hhandle hemit
      obtain ⟨-, d', subHandle, hd', hactive⟩ :=
        hafter.intact hmode' request task t hrequest ht hpub
      rw [perform_manager, hd, some.injEq] at hd'
      rw [← hd', hnone] at hactive
      cases hactive
    · exact ⟨fun hc => absurd hc hmode, fun hc => absurd hc hmode⟩
  | task task st =>
    refine ⟨fun hmode => ?_, ?_⟩
    · refine (hI ?_).taskStep hstep
      rwa [(taskStep_frame hstep).1] at hmode
    · exact NoUnsubscribe.of_outputs (taskStep_frame hstep).2.1
  | subscribe sid options =>
    rcases subscribe_cases hstep with ⟨hmode, rfl⟩ | rfl
    · refine ⟨fun hc => ?_, NoUnsubscribe.of_outputs rfl⟩
      rw [show s.mode = .running from hc] at hmode
      cases hmode
    · refine ⟨fun hmode => ?_, NoUnsubscribe.of_outputs rfl⟩
      refine (hI hmode).of_frame rfl rfl rfl ?_ ?_
      · intro request task hrequest
        rcases of_lookup_insert hrequest with ⟨-, hnew⟩ | ⟨-, hrequest⟩
        · cases hnew
        · exact hrequest
      · intro event hmem
        rcases mem_append.mp hmem with hold | hnew
        · exact .inl hold
        · right
          rw [mem_singleton] at hnew
          simp [hnew]
  | abandon request =>
    obtain rfl := abandon_cases hstep
    refine ⟨fun hmode => ?_, NoUnsubscribe.of_outputs rfl⟩
    refine (hI hmode).of_frame rfl rfl rfl ?_ (fun _ hmem => .inl hmem)
    intro request' task hrequest
    rcases of_lookup_insert hrequest with ⟨-, hnew⟩ | ⟨-, hrequest⟩
    · cases hnew
    · exact hrequest
  | sendInput event =>
    obtain ⟨hne, -, rfl | rfl⟩ := sendInput_cases hstep
    · exact ⟨hI, NoUnsubscribe.of_outputs rfl⟩
    · refine ⟨fun hmode => ?_, NoUnsubscribe.of_outputs rfl⟩
      refine (hI hmode).of_frame rfl rfl rfl (fun _ _ h => h) ?_
      intro event' hmem
      rcases mem_append.mp hmem with hold | hnew
      · exact .inl hold
      · right
        rw [mem_singleton] at hnew
        rw [hnew]
        exact hne

/-- **A subscription lives as long as its receivers.** In every run in which no stale
unsubscribe request is on its way when a request is answered `Ok`, every receiver keeps an
active subscription with a task that runs, and the SFU is never told to unsubscribe from its
track, as long as the track is published and the manager runs. -/
theorem subscription_lives (provider : Option DecryptionProvider) (run : List Action)
    (hsettled : EachStep State.step (fun s a _ => s.Settled a) (init provider) run) :
    EachStep State.step (fun s _ s' => s'.Intact ∧ s.NoUnsubscribe s') (init provider) run := by
  refine EachStep.of_invariant (I := fun s => s.mode = .running → s.TeardownInv) ?_
    (fun _ => init_teardownInv provider) hsettled
  intro s a _ s' hI hstep hs
  obtain ⟨hafter, hno⟩ := TeardownInv.step hI hstep hs
  exact ⟨hafter, fun hmode => (hafter hmode).intact hmode, hno⟩

/-- Track `DTR_A` is published, subscribed to and gets its handle. -/
def subscribedRun : List Action :=
  let sid : DataTrackSid := ⟨"DTR_A", DataTrackSid.hasPrefix_A⟩
  [.sendInput (.sfuPublicationUpdates
      ⟨⟨[("publisher", [⟨sid, ⟨7, by decide⟩, "camera", false⟩])], by decide⟩⟩),
    .manager fun _ => [], .subscribe sid .new, .manager fun _ => [],
    .sendInput (.sfuSubscriberHandles ⟨⟨[(⟨1, Handle.one_ne_zero⟩, sid)], by decide⟩⟩),
    .manager fun _ => []]

/-- The first receiver is dropped while a second one is alive: its task goes on. -/
theorem subscription_lives_of_second_receiver :
    EachStep State.step (fun s _ s' => s'.Intact ∧ s.NoUnsubscribe s') (init none)
      (subscribedRun ++ [.subscribe ⟨"DTR_A", by decide⟩ .new, .manager fun _ => [], .abandon 0,
        .task 0 0]) :=
  subscription_lives none _ (by decide)

/-- The only receiver is dropped and the task sees it. A new request is in the queue when the
task gets its own into it: the manager answers the new request with the task that has ended, and
then unsubscribes. -/
theorem subscription_torn_down : ¬ ∀ run : List Action,
    EachStep State.step (fun s _ s' => s'.Intact ∧ s.NoUnsubscribe s') (init none) run := by
  intro hall
  let sid : DataTrackSid := ⟨"DTR_A", by decide⟩
  let run : List Action := subscribedRun ++ [.abandon 0, .task 0 0, .subscribe sid .new, .task 0 0,
    .manager fun _ => [], .manager fun _ => []]
  -- the second request is answered `Ok`, the track is published, and there is no subscription
  have hend : (exec State.step (init none) run).map (fun s => decide (s.mode = .running ∧
      AList.lookup 1 s.requests = some (.subscribed 0) ∧ s.unpublished = [] ∧
      (lookup 0 s.tasks).map TaskState.sid = some sid ∧
      (lookup sid s.manager.descriptors).map Descriptor.subscription = some .none))
      = some true := by decide
  obtain ⟨s, hs, heq⟩ := map_eq_some_iff.mp hend
  obtain ⟨hmode, hrequest, hunpublished, htask, hdescriptor⟩ := of_decide_eq_true heq
  obtain ⟨t, ht, htsid⟩ := map_eq_some_iff.mp htask
  obtain ⟨d, hd, hnone⟩ := map_eq_some_iff.mp hdescriptor
  have hintact : s.Intact :=
    exec_invariant_of_eachStep Intact (fun _ _ _ _ _ h => h.1) (init_teardownInv none).intact
      (hall run) hs
  obtain ⟨-, d', subHandle, hd', hactive⟩ :=
    hintact hmode 1 0 t hrequest ht (by rw [hunpublished]; exact not_mem_nil)
  rw [htsid, hd, some.injEq] at hd'
  rw [← hd', hnone] at hactive
  cases hactive

end State

end LiveKit.DataTrack.Remote
