import LiveKit.DataTrack.Remote.SystemTheorems

/-!
# Frames of encrypted tracks are decrypted

With a decryption provider, whatever is delivered on a track with E2EE is what the provider
decrypted under the identity of the track's publisher. Without a provider such a track should
not be available for subscription, but the only check for it is a debug assertion: as soon as
the SFU assigns a handle to a pending subscription of such a track it becomes active, with a
pipeline that decrypts nothing (`decrypted_iff`).
-/

namespace LiveKit.DataTrack.Remote

open AList TransitionSystem

namespace State

/-- The track was announced to the application, with this identity of its publisher. -/
def Announced (s : State) (info : DataTrackInfo) (identity : String)
    (published : PublicationId) : Prop :=
  .trackPublished ⟨info, identity, published⟩ ∈ s.outputs

/-- The payload that was delivered is what a provider decrypted, for this frame and under the
identity of the track's publisher. -/
def Decrypted (provider : Option DecryptionProvider) (s : State) (delivery : Delivery) : Prop :=
  ∃ decryption identity source e2ee, provider = some decryption ∧
    s.Announced delivery.info identity delivery.published ∧
    delivery.source = some source ∧ source.extensions.e2ee = some e2ee ∧
    decryption.decrypt delivery.providerState ⟨source.payload, e2ee.iv, e2ee.keyIndex⟩ identity
      = .ok delivery.frame.payload

/-- Every frame delivered on a track with E2EE is decrypted, and without a provider no such
track has an active subscription. -/
def NoCiphertext (provider : Option DecryptionProvider) (s : State) : Prop :=
  (∀ delivery ∈ s.deliveries, delivery.info.usesE2ee = true → s.Decrypted provider delivery) ∧
  (provider = none → ∀ sid d subHandle task, AList.lookup sid s.manager.descriptors = some d →
    d.subscription = .active subHandle task → d.info.usesE2ee = false)

/-- The event assigns no handle to a pending subscription of a track with E2EE. -/
def AssignsNoE2ee (m : Manager) : InputEvent → Prop
  | .sfuSubscriberHandles event =>
    ∀ entry ∈ event.mapping.toList, ∀ d, AList.lookup entry.2 m.descriptors = some d →
      ∀ resultTxs bufferSize, d.subscription = .pending resultTxs bufferSize →
        d.info.usesE2ee = false
  | _ => True

/-- The condition on a step: there is a provider, or the event that the manager takes from the
queue, if it does, assigns no handle to a pending subscription of a track with E2EE. -/
def SubscribesNoE2ee (provider : Option DecryptionProvider) (s : State) (a : Action) : Prop :=
  provider = none → ∀ orders event rest, a = .manager orders → s.mode = .running →
    s.queue = event :: rest → AssignsNoE2ee s.manager event

/-! ## The invariant -/

/-- The task is for an announced track, it decrypts with the provider if the track uses E2EE,
and without a provider the track does not. -/
def GoodTask (provider : Option DecryptionProvider) (s : State) (t : TrackTask) : Prop :=
  s.Announced t.info t.pipeline.publisherIdentity t.published ∧
  t.pipeline.e2eeProvider = (if t.info.usesE2ee then provider else none) ∧
  (provider = none → t.info.usesE2ee = false)

/-- The descriptor is of an announced track, and without a provider the track does not use E2EE
if it has an active subscription. -/
def GoodDescriptor (provider : Option DecryptionProvider) (s : State) (d : Descriptor) : Prop :=
  s.Announced d.info d.publisherIdentity d.published ∧
  (provider = none → d.subscription.activeHandle.isSome → d.info.usesE2ee = false)

structure DecryptionInv (provider : Option DecryptionProvider) (s : State) : Prop where
  provider_eq : s.manager.decryptionProvider = provider
  descriptors : ∀ sid d, AList.lookup sid s.manager.descriptors = some d →
    s.GoodDescriptor provider d
  tasks : ∀ task t, AList.lookup task s.tasks = some t → s.GoodTask provider t.trackTask
  deliveries : ∀ delivery ∈ s.deliveries, delivery.info.usesE2ee = true →
    s.Decrypted provider delivery

variable {provider : Option DecryptionProvider} {s s' : State}

theorem init_decryptionInv (provider : Option DecryptionProvider) :
    (init provider).DecryptionInv provider where
  provider_eq := rfl
  descriptors := by simp [init, Manager.new]
  tasks := by simp [init]
  deliveries := by simp [init]

theorem DecryptionInv.noCiphertext (hI : s.DecryptionInv provider) : s.NoCiphertext provider := by
  refine ⟨hI.deliveries, ?_⟩
  intro hnone sid d subHandle task hd hs
  exact (hI.descriptors sid d hd).2 hnone (by rw [hs]; rfl)

variable {t : TrackTask} {d : Descriptor} {result : Manager × List Effect} {sid : DataTrackSid}
  {st : ProviderState} {task : TaskId} {a : Action}

theorem GoodTask.mono {t' : TrackTask} (h : s.GoodTask provider t) (hout : s.outputs ⊆ s'.outputs)
    (hinfo : t'.info = t.info) (hpublished : t'.published = t.published)
    (hidentity : t'.pipeline.publisherIdentity = t.pipeline.publisherIdentity)
    (hprovider : t'.pipeline.e2eeProvider = t.pipeline.e2eeProvider) :
    s'.GoodTask provider t' := by
  unfold GoodTask at *
  rw [hinfo, hpublished, hidentity, hprovider]
  exact ⟨hout h.1, h.2⟩

theorem GoodDescriptor.mono {d' : Descriptor} (h : s.GoodDescriptor provider d)
    (hout : s.outputs ⊆ s'.outputs) (hinfo : d'.info = d.info)
    (hidentity : d'.publisherIdentity = d.publisherIdentity)
    (hpublished : d'.published = d.published)
    (hactive : d'.subscription.activeHandle.isSome → d.subscription.activeHandle.isSome) :
    s'.GoodDescriptor provider d' := by
  unfold GoodDescriptor at *
  rw [hinfo, hidentity, hpublished]
  exact ⟨hout h.1, fun hnone hsome => h.2 hnone (hactive hsome)⟩

theorem Decrypted.mono {delivery : Delivery} (h : s.Decrypted provider delivery)
    (hout : s.outputs ⊆ s'.outputs) : s'.Decrypted provider delivery := by
  obtain ⟨decryption, identity, source, e2ee, hp, hannounced, hrest⟩ := h
  exact ⟨decryption, identity, source, e2ee, hp, hout hannounced, hrest⟩

section

variable (hI : s.DecryptionInv provider)

include hI

/-- A step without the manager keeps the invariant if it keeps the tasks good and what it
delivers is decrypted. -/
theorem DecryptionInv.of_manager (hmanager : s'.manager = s.manager) (hout : s.outputs ⊆ s'.outputs)
    (htasks : ∀ task t, lookup task s'.tasks = some t → s'.GoodTask provider t.trackTask)
    (hdeliveries : ∀ delivery ∈ s'.deliveries, delivery ∈ s.deliveries ∨
      (delivery.info.usesE2ee = true → s'.Decrypted provider delivery)) :
    s'.DecryptionInv provider where
  provider_eq := hmanager ▸ hI.provider_eq
  descriptors := by
    intro sid d hd
    rw [hmanager] at hd
    exact (hI.descriptors sid d hd).mono hout rfl rfl rfl id
  tasks := htasks
  deliveries := by
    intro delivery hmem hused
    rcases hdeliveries delivery hmem with hold | hnew
    · exact (hI.deliveries delivery hold hused).mono hout
    · exact hnew hused

/-! ### The manager's part -/

theorem DecryptionInv.perform {result : Manager × List Effect}
    (hprovider : result.1.decryptionProvider = s.manager.decryptionProvider)
    (hspawn : ∀ task t, .spawn task t ∈ result.2 → (s.perform result).GoodTask provider t)
    (hdescriptors : ∀ sid d, lookup sid result.1.descriptors = some d →
      (s.perform result).GoodDescriptor provider d) :
    (s.perform result).DecryptionInv provider where
  provider_eq := by rw [perform_manager, hprovider, hI.provider_eq]
  descriptors := by
    intro sid d hd
    rw [perform_manager] at hd
    exact hdescriptors sid d hd
  tasks := by
    intro task t' ht'
    rcases applyEffects_tasks ht' with ⟨t, ht, htrack, -⟩ | hmem
    · rw [htrack]
      exact (hI.tasks task t ht).mono (s.perform_outputs_subset result) rfl rfl rfl rfl
    · exact hspawn task t'.trackTask hmem
  deliveries := by
    intro delivery hmem hused
    rw [perform_deliveries] at hmem
    exact (hI.deliveries delivery hmem hused).mono (s.perform_outputs_subset result)

/-- Descriptors that were there before are still good. -/
theorem DecryptionInv.old_descriptor (result : Manager × List Effect)
    (hd : lookup sid s.manager.descriptors = some d) :
    (s.perform result).GoodDescriptor provider d :=
  (hI.descriptors sid d hd).mono (s.perform_outputs_subset result) rfl rfl rfl id

/-- All descriptors but one are old, and that one has a subscription that may be active only if
it was before, or if the track does not use E2EE. -/
theorem DecryptionInv.setSubscription_descriptor (result : Manager × List Effect)
    {sid : DataTrackSid} {d : Descriptor} (hd : lookup sid s.manager.descriptors = some d)
    {subscription : SubscriptionState}
    (hsub : provider = none → subscription.activeHandle.isSome →
      d.subscription.activeHandle.isSome ∨ d.info.usesE2ee = false) (sid' : DataTrackSid)
    (d' : Descriptor)
    (hd' : lookup sid' (s.manager.setSubscription sid d subscription).descriptors = some d') :
    (s.perform result).GoodDescriptor provider d' := by
  rcases AssocMap.of_lookup_insert hd' with ⟨-, rfl⟩ | ⟨-, hd'⟩
  · have hold := hI.old_descriptor result hd
    refine ⟨hold.1, ?_⟩
    intro hnone hsome
    rcases hsub hnone hsome with hbefore | hplain
    · exact hold.2 hnone hbefore
    · exact hplain
  · exact hI.old_descriptor result hd'

theorem DecryptionInv.onSubscribeRequest (event : SubscribeRequest) :
    (s.perform (s.manager.onSubscribeRequest event)).DecryptionInv provider := by
  rcases s.manager.onSubscribeRequest_cases event with
    ⟨-, he⟩ | ⟨d, hd, -, he⟩ | ⟨d, _, _, hd, -, he⟩ | ⟨_, _, _, -, -, he⟩
  · rw [he]
    exact hI.perform rfl (by simp) fun sid d hd => hI.old_descriptor _ hd
  · rw [he]
    exact hI.perform rfl (by simp) (hI.setSubscription_descriptor _ hd (by rintro - ⟨⟩))
  · rw [he]
    exact hI.perform rfl (by simp) (hI.setSubscription_descriptor _ hd (by rintro - ⟨⟩))
  · rw [he]
    exact hI.perform rfl (by simp) fun sid d hd => hI.old_descriptor _ hd

theorem DecryptionInv.onUnsubscribeRequest (event : UnsubscribeRequest) :
    (s.perform (s.manager.onUnsubscribeRequest event)).DecryptionInv provider := by
  rcases s.manager.onUnsubscribeRequest_cases event with ⟨-, he⟩ | ⟨d, _, _, hd, -, he⟩
  · rw [he]
    exact hI.perform rfl (by simp) fun sid d hd => hI.old_descriptor _ hd
  · rw [he]
    exact hI.perform rfl (by simp) (hI.setSubscription_descriptor _ hd (by rintro - ⟨⟩))

theorem DecryptionInv.handleTrackPublished (identity : String) (info : DataTrackInfo) :
    (s.perform (s.manager.handleTrackPublished identity info)).DecryptionInv provider := by
  rcases s.manager.handleTrackPublished_cases identity info with he | ⟨-, he⟩
  · rw [he]
    exact hI
  · rw [he]
    refine hI.perform rfl (by simp) ?_
    intro sid d hd
    rcases AssocMap.of_lookup_insert hd with ⟨-, rfl⟩ | ⟨-, hd⟩
    · -- announced by the very effect of this handler
      refine ⟨?_, by rintro - ⟨⟩⟩
      show _ ∈ s.outputs ++ [_]
      exact List.mem_append_right _ (List.mem_singleton.mpr rfl)
    · exact hI.old_descriptor _ hd

theorem DecryptionInv.handleTrackUnpublished (sid : DataTrackSid) :
    (s.perform (s.manager.handleTrackUnpublished sid)).DecryptionInv provider := by
  rcases s.manager.handleTrackUnpublished_cases sid with ⟨-, he⟩ | ⟨_, _, -, -, he⟩
  · rw [he]
    exact hI
  · rw [he]
    refine hI.perform rfl (by simp) ?_
    intro sid' d hd
    exact hI.old_descriptor _ (AssocMap.of_lookup_erase hd).2

/-- Registering a handle keeps the invariant if it does not make the subscription of a track
with E2EE active while there is no provider. -/
theorem DecryptionInv.registerSubscriberHandle (h : Handle) (sid : DataTrackSid)
    (hplain : provider = none → ∀ d resultTxs bufferSize,
      lookup sid s.manager.descriptors = some d →
      d.subscription = .pending resultTxs bufferSize → d.info.usesE2ee = false) :
    (s.perform (s.manager.registerSubscriberHandle (h, sid))).DecryptionInv provider := by
  rcases s.manager.registerSubscriberHandle_cases h sid with
    ⟨-, he⟩ | ⟨d, _, _, hd, hs, he⟩ | ⟨d, resultTxs, bufferSize, hd, hs, he⟩
  · rw [he]
    exact hI
  · rw [he]
    refine hI.perform rfl (by simp) (hI.setSubscription_descriptor _ hd ?_)
    intro _ _
    exact .inl (by rw [hs]; rfl)
  · rw [he]
    refine hI.perform rfl ?_ (hI.setSubscription_descriptor _ hd ?_)
    · intro task t hmem
      have ht : t = ⟨d.info, s.manager.pipelineFor d, d.published, bufferSize⟩ := by
        rcases List.mem_cons.mp hmem with heq | hrest
        · exact (Effect.spawn.inj heq).2
        · obtain ⟨r, -, hr⟩ := List.mem_map.mp hrest
          cases hr
      subst ht
      refine ⟨(hI.old_descriptor _ hd).1, ?_, fun hnone => hplain hnone d _ _ hd hs⟩
      show (if d.info.usesE2ee then s.manager.decryptionProvider else none) = _
      rw [hI.provider_eq]
    · intro hnone _
      exact .inr (hplain hnone d _ _ hd hs)

theorem DecryptionInv.onSfuSubscriberHandles (event : SfuSubscriberHandles)
    (hplain : provider = none → AssignsNoE2ee s.manager (.sfuSubscriberHandles event)) :
    (s.perform (s.manager.onSfuSubscriberHandles event)).DecryptionInv provider := by
  -- the condition on the entries that are left is kept along with the invariant
  let Plain (entries : List (Handle × DataTrackSid)) (s : State) :=
    provider = none → ∀ entry ∈ entries, ∀ d,
      lookup entry.2 s.manager.descriptors = some d →
      ∀ resultTxs bufferSize, d.subscription = .pending resultTxs bufferSize →
        d.info.usesE2ee = false
  have hloop := perform_forEach_invariant (f := Manager.registerSubscriberHandle)
    (fun entries s => s.DecryptionInv provider ∧ Plain entries s) ?_ ⟨hI, hplain⟩
  · exact hloop.1
  · rintro s ⟨h, sid⟩ rest ⟨hI, hentries⟩
    constructor
    · apply hI.registerSubscriberHandle
      intro hnone d resultTxs bufferSize hd hs
      exact hentries hnone _ List.mem_cons_self d hd resultTxs bufferSize hs
    · intro hnone entry hmem d hd resultTxs bufferSize hs
      rw [perform_manager] at hd
      have hbefore := Manager.registerSubscriberHandle_pending hd hs
      exact hentries hnone entry (List.mem_cons_of_mem _ hmem) d hbefore resultTxs bufferSize hs

/-- Events keep the invariant if they assign no handle to a pending subscription of a track
with E2EE while there is no provider. -/
theorem DecryptionInv.handle {orders : Orders} {event : InputEvent}
    (hhandle : s.manager.handle orders event = some result)
    (hplain : provider = none → AssignsNoE2ee s.manager event) :
    (s.perform result).DecryptionInv provider := by
  cases event with
  | subscribeRequest event =>
    cases hhandle
    exact hI.onSubscribeRequest event
  | unsubscribeRequest event =>
    cases hhandle
    exact hI.onUnsubscribeRequest event
  | sfuPublicationUpdates event =>
    cases hhandle
    refine perform_onSfuPublicationUpdates_invariant _ ?_ ?_ hI orders event
    · intro s identity info hI
      exact hI.handleTrackPublished identity info
    · intro s sid hI
      exact hI.handleTrackUnpublished sid
  | sfuSubscriberHandles event =>
    cases hhandle
    exact hI.onSfuSubscriberHandles event hplain
  | packetReceived bytes =>
    cases hhandle
    rcases s.manager.onPacketReceived_cases bytes with he | ⟨task, packet, he⟩
    · rw [he]
      exact hI
    · rw [he]
      exact hI.perform rfl (by simp) fun sid d hd => hI.old_descriptor _ hd
  | resendSubscriptionUpdates =>
    cases hhandle
    refine hI.perform rfl ?_ fun sid d hd => hI.old_descriptor _ hd
    intro task t hmem
    obtain ⟨entry, -, hentry⟩ := List.mem_filterMap.mp hmem
    split at hentry <;> cases hentry
  | shutdown => cases hhandle

end

/-! ### The tasks' part -/

/-- A task that decrypts with the provider delivers what the provider decrypted. -/
theorem GoodTask.decrypted (hgood : s.GoodTask provider t) {source frame : DepacketizerFrame}
    (hframe : t.pipeline.decryptIfNeeded st source = some frame) (hused : t.info.usesE2ee = true) :
    s.Decrypted provider
      ⟨t.info, t.published, some source, st, .ofDepacketized frame⟩ := by
  obtain ⟨hannounced, he2ee, hplain⟩ := hgood
  cases provider with
  | none =>
    rw [hplain rfl] at hused
    cases hused
  | some decryption =>
    rw [hused] at he2ee
    obtain ⟨e2ee, hext, hdecrypt⟩ := Pipeline.decryptIfNeeded_of_provider he2ee hframe
    exact ⟨decryption, _, source, e2ee, rfl, hannounced, rfl, hext, hdecrypt⟩

section

variable (hI : s.DecryptionInv provider)

include hI

theorem DecryptionInv.insert_task {task : TaskId} {t t' : TaskState}
    (ht : lookup task s.tasks = some t) (hinfo : t'.trackTask.info = t.trackTask.info)
    (hpublished : t'.trackTask.published = t.trackTask.published)
    (hidentity : t'.trackTask.pipeline.publisherIdentity = t.trackTask.pipeline.publisherIdentity)
    (hprovider : t'.trackTask.pipeline.e2eeProvider = t.trackTask.pipeline.e2eeProvider)
    (task' : TaskId) (u : TaskState) (hu : lookup task' (insert task t' s.tasks) = some u) :
    s.GoodTask provider u.trackTask := by
  rcases AssocMap.of_lookup_insert hu with ⟨-, rfl⟩ | ⟨-, hu⟩
  · exact (hI.tasks task t ht).mono (List.Subset.refl _) hinfo hpublished hidentity hprovider
  · exact hI.tasks task' u hu

theorem DecryptionInv.taskStep (h : s.taskStep task st = some s') :
    s'.DecryptionInv provider := by
  obtain ⟨t, ht, hcases⟩ := taskStep_cases h
  have hphase : ∀ phase, ∀ task' u,
      lookup task' (insert task { t with phase := phase } s.tasks) = some u →
      s.GoodTask provider u.trackTask := fun _ => hI.insert_task ht rfl rfl rfl rfl
  rcases hcases with ⟨-, -, rfl⟩ | ⟨-, -, -, rfl⟩ | ⟨packet, rest, -, -, rfl⟩ | ⟨-, -, rfl⟩ |
    ⟨-, rfl⟩
  · exact hI.of_manager rfl (List.Subset.refl _) (hphase .ended) fun _ => .inl
  · exact hI.of_manager rfl (List.Subset.refl _) (hphase .closing) fun _ => .inl
  · obtain ⟨deliveries, he, hdeliveries⟩ := s.receive_eq task t st packet rest
    rw [he]
    refine hI.of_manager rfl (List.Subset.refl _) (hI.insert_task ht rfl rfl rfl rfl) ?_
    intro delivery hmem
    rcases List.mem_append.mp hmem with hold | hnew
    · exact .inl hold
    · obtain ⟨source, frame, hframe, rfl⟩ := hdeliveries delivery hnew
      exact .inr fun hused => (hI.tasks task t ht).decrypted hframe hused
  · exact hI.of_manager rfl (List.Subset.refl _) (hphase .ended) fun _ => .inl
  · exact hI.of_manager rfl (List.Subset.refl _) (hphase .ended) fun _ => .inl

/-! ## Whole runs -/

theorem DecryptionInv.step (hstep : s.step a = some s') (hplain : s.SubscribesNoE2ee provider a) :
    s'.DecryptionInv provider := by
  cases a with
  | manager orders =>
    rcases managerStep_cases hstep with
      ⟨event, rest, result, hmode, hqueue, hhandle, rfl⟩ | ⟨-, hmanager, htasks, hout, hdel⟩
    · have hI' : ({ s with queue := rest } : State).DecryptionInv provider :=
        ⟨hI.provider_eq, hI.descriptors, hI.tasks, hI.deliveries⟩
      apply hI'.handle hhandle
      intro hnone
      exact hplain hnone orders event rest rfl hmode hqueue
    · refine hI.of_manager hmanager (by rw [hout]; exact List.Subset.refl _) ?_ ?_
      · intro task t ht
        rw [htasks] at ht
        exact (hI.tasks task t ht).mono (by rw [hout]; exact List.Subset.refl _) rfl rfl rfl rfl
      · intro delivery hmem
        exact .inl (hdel ▸ hmem)
  | task task st => exact hI.taskStep hstep
  | subscribe sid options =>
    rcases subscribe_cases hstep with ⟨-, rfl⟩ | rfl
    · exact hI.of_manager rfl (List.Subset.refl _) hI.tasks fun _ => .inl
    · exact hI.of_manager rfl (List.Subset.refl _) hI.tasks fun _ => .inl
  | abandon request =>
    obtain rfl := abandon_cases hstep
    exact hI.of_manager rfl (List.Subset.refl _) hI.tasks fun _ => .inl
  | sendInput event =>
    obtain ⟨-, -, rfl | rfl⟩ := sendInput_cases hstep
    · exact hI
    · exact hI.of_manager rfl (List.Subset.refl _) hI.tasks fun _ => .inl

/-- One step: nothing encrypted is delivered, nor can be, exactly when the step does not make
the subscription of a track with E2EE active while there is no provider. -/
theorem step_noCiphertext_iff (hstep : s.step a = some s') :
    s'.NoCiphertext provider ↔ s.SubscribesNoE2ee provider a := by
  constructor
  · intro hclear hnone orders event rest ha hmode hqueue
    subst ha
    cases event with
    | sfuSubscriberHandles event =>
      intro entry hmem d hd resultTxs bufferSize hs
      obtain ⟨d', g, task, hd', hinfo, hs'⟩ :=
        Manager.onSfuSubscriberHandles_active hmem hd (by simp [hs])
      rcases managerStep_cases hstep with
        ⟨event', rest', result, -, hqueue', hhandle, rfl⟩ | ⟨hmode', -⟩
      · rw [hqueue] at hqueue'
        cases hqueue'
        cases hhandle
        rw [← hinfo]
        exact hclear.2 hnone entry.2 d' g task (by rwa [perform_manager]) hs'
      · -- it is not a shutdown
        unfold State.step managerStep at hstep
        simp only [hmode, hqueue, Manager.handle, Option.some.injEq] at hstep
        rw [← hstep, perform_mode] at hmode'
        exact absurd rfl hmode'
    | subscribeRequest | unsubscribeRequest | sfuPublicationUpdates | packetReceived
    | resendSubscriptionUpdates | shutdown => trivial
  · intro hplain
    exact (hI.step hstep hplain).noCiphertext

end

/-- **No ciphertext.** In every run, every frame delivered on a track with E2EE is decrypted,
and no such track has an active subscription without a provider, in every state that is
reached, exactly when there is a provider or no handle is ever assigned to a pending
subscription of such a track. -/
theorem decrypted_iff (provider : Option DecryptionProvider) (run : List Action) :
    EachStep State.step (fun _ _ s' => s'.NoCiphertext provider) (init provider) run
      ↔ EachStep State.step (fun s a _ => s.SubscribesNoE2ee provider a) (init provider) run := by
  refine eachStep_iff ?_ ?_ (init_decryptionInv provider)
  · intro s a _ s' hI hstep
    exact step_noCiphertext_iff hI hstep
  · intro s a _ s' hI hstep hclear
    exact hI.step hstep ((step_noCiphertext_iff hI hstep).mp hclear)

/-- Without a provider: a track with E2EE is published, subscribed to and gets a handle, and the
ciphertext of its first packet goes to the subscriber. -/
theorem ciphertext_delivered : ¬ ∀ run : List Action,
    EachStep State.step (fun _ _ s' => s'.NoCiphertext none) (init none) run := by
  intro hall
  let handle : Handle := ⟨1, by decide⟩
  let sid : DataTrackSid := ⟨"DTR_A", by decide⟩
  -- a single packet with the E2EE extension and the payload CA FE
  let packet : Bytes := [28, 0, 0, 1, 0, 0, 0, 0, 0, 0, 0, 0, 0, 4, 1, 13, 0, 0, 0, 0, 0, 0, 0, 0,
    0, 0, 0, 0, 0, 0, 0, 0, 202, 254]
  let run : List Action :=
    [.sendInput (.sfuPublicationUpdates
        ⟨⟨[("publisher", [⟨sid, ⟨7, by decide⟩, "camera", true⟩])], by decide⟩⟩),
      .manager fun _ => [], .subscribe sid .new, .manager fun _ => [],
      .sendInput (.sfuSubscriberHandles ⟨⟨[(handle, sid)], by decide⟩⟩), .manager fun _ => [],
      .sendInput (.packetReceived packet), .manager fun _ => [], .task 0 0]
  have hframe : ((exec State.step (init none) run).map fun s =>
      s.deliveries.map fun d => (d.info.usesE2ee, d.frame.payload))
        = some [(true, [202, 254])] := by decide
  obtain ⟨s, hs, hdeliveries⟩ := Option.map_eq_some_iff.mp hframe
  have hclear : s.NoCiphertext none :=
    exec_invariant_of_eachStep (NoCiphertext none) (fun _ _ _ _ _ h => h)
      (init_decryptionInv none).noCiphertext (hall run) hs
  obtain ⟨delivery, hmem, hdelivery⟩ :=
    List.mem_map.mp (hdeliveries ▸ List.mem_singleton.mpr rfl :
      (true, [202, 254]) ∈ s.deliveries.map fun d => (d.info.usesE2ee, d.frame.payload))
  obtain ⟨_, _, _, _, hprovider, -⟩ := hclear.1 delivery hmem (congrArg Prod.fst hdelivery)
  cases hprovider

end State

end LiveKit.DataTrack.Remote
