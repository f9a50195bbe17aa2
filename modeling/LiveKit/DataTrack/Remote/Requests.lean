import LiveKit.DataTrack.Remote.Publications

/-!
# Where subscribe requests are

The manager answers a subscribe request at once, or keeps its result channel in the waiter list of
the pending subscription. `Accounted` says where the request is at any time after it was taken
from the queue. It looks at the record of a run: the events that the manager takes from its queue
and what it does, in order.
-/

namespace LiveKit.DataTrack.Remote

open AssocMap AList List TransitionSystem

/-! ## The record -/

/-- The manager takes an event from its queue, or does something. -/
inductive Record where
  | received (event : InputEvent)
  | did (e : Effect)

/-- The requests that wait for the handle of a subscription. -/
def SubscriptionState.waiters : SubscriptionState → List RequestId
  | .pending resultTxs _ => resultTxs
  | _ => []

namespace State

/-- What one step puts on record. -/
def records (s : State) : Action → List Record
  | .manager orders =>
    match s.mode, s.queue with
    | .running, event :: _ =>
      match s.manager.handle orders event with
      | some result => .received event :: result.2.map .did
      | none => [.received event]
    | .stopping (descriptor :: _), _ =>
      .did (.sendUnpublished descriptor.published) ::
        descriptor.subscription.waiters.map fun request =>
          .did (.resolve request (.error .disconnected))
    | _, _ => []
  | _ => []

/-- The record of a run. -/
def history (provider : Option DecryptionProvider) (run : List Action) : List Record :=
  trace State.step records (init provider) run

end State

/-! ## Where a request is -/

/-- The record says that the request has been answered. -/
def Record.answers (request : RequestId) : Record → Bool
  | .did (.resolve request' _) => decide (request' = request)
  | _ => false

/-- How many times a request has been answered. -/
def answers (request : RequestId) (h : List Record) : ℕ := h.countP (Record.answers request)

/-- The track of the request was unpublished after the request had been taken from the queue. -/
def Dropped (h : List Record) (event : SubscribeRequest) : Prop :=
  ∃ before after, h = before ++ .received (.subscribeRequest event) :: after ∧
    .did (.emit (.trackUnpublished event.sid)) ∈ after

namespace State

/-- The descriptors that the manager holds; a shutdown takes them one by one. -/
def remaining (s : State) : List Descriptor :=
  match s.mode with
  | .running => (AssocMap.toPairs s.manager.descriptors).map Prod.snd
  | .stopping todo | .awaiting _ todo => todo
  | .ended => []

/-- The tracks in whose waiter lists the request is, one for each time that it is there. -/
def holders (s : State) (request : RequestId) : List DataTrackSid :=
  s.remaining.flatMap fun d =>
    (d.subscription.waiters.filter fun waiter => decide (waiter = request)).map fun _ => d.info.sid

/-- A request that was taken from the queue has been answered once, or it is in the waiter list of
its track and nowhere else, or its track has been unpublished. -/
def Accounted (s : State) (h : List Record) (event : SubscribeRequest) : Prop :=
  answers event.resultTx h = 1 ∧ s.holders event.resultTx = [] ∨
  answers event.resultTx h = 0 ∧ s.holders event.resultTx = [event.sid] ∨
  answers event.resultTx h = 0 ∧ s.holders event.resultTx = [] ∧ Dropped h event

end State

/-! ## How often a request waits -/

/-- How many times a request is in the waiter lists of the descriptors. -/
def waiting (request : RequestId) (descriptors : AssocMap DataTrackSid Descriptor) : ℕ :=
  ((AssocMap.toPairs descriptors).flatMap fun entry => entry.2.subscription.waiters).count request

/-- The request that an event brings. -/
def InputEvent.requests : InputEvent → List RequestId
  | .subscribeRequest event => [event.resultTx]
  | _ => []

/-- How many of the effects answer the request. -/
def answered (request : RequestId) (effects : List Effect) : ℕ :=
  answers request (effects.map .did)

section Waiting

variable {descriptors : AssocMap DataTrackSid Descriptor} {sid : DataTrackSid} {d d' : Descriptor}
  (request : RequestId)

/-- Who waits after an insertion: for that track, or for another one. -/
theorem waiting_insert :
    waiting request (insert sid d' descriptors)
      = d'.subscription.waiters.count request + waiting request (erase sid descriptors) := by
  unfold waiting
  rw [toPairs_insert, flatMap_cons, count_append]

/-- Who waits: for a given track, or for another one. -/
theorem waiting_of_lookup (h : lookup sid descriptors = some d) :
    waiting request descriptors
      = d.subscription.waiters.count request + waiting request (erase sid descriptors) := by
  unfold waiting
  have hperm := (toPairs_perm descriptors h).flatMap_right
    fun entry => entry.2.subscription.waiters
  rw [hperm.count_eq, flatMap_cons, count_append]

/-- Erasing a track that is not there changes nobody's wait. -/
theorem waiting_of_none (h : lookup sid descriptors = none) :
    waiting request (erase sid descriptors) = waiting request descriptors := by
  unfold waiting
  rw [toPairs_erase_of_none descriptors h]

end Waiting

theorem answers_append (request : RequestId) (h h' : List Record) :
    answers request (h ++ h') = answers request h + answers request h' := countP_append

theorem answered_append (request : RequestId) (effects effects' : List Effect) :
    answered request (effects ++ effects')
      = answered request effects + answered request effects' := by
  unfold answered
  rw [map_append, answers_append]

/-- Answering the requests of a list answers each as often as it is in the list. -/
theorem answered_resolve (request : RequestId) (requests : List RequestId)
    (result : Except DataTrackSubscribeError TaskId) :
    answered request (requests.map fun r => .resolve r result) = requests.count request := by
  unfold answered answers
  rw [map_map, countP_map, List.count]
  apply countP_congr
  intro r _
  simp [Record.answers]

namespace Manager

/-- No handler makes more of a request than there was. -/
def Conserves (request : RequestId) (m : Manager) (result : Manager × List Effect) : Prop :=
  waiting request result.1.descriptors + answered request result.2
    ≤ waiting request m.descriptors

variable {request : RequestId}

variable {A : Type} {f : Manager → A → Manager × List Effect}

/-- A loop makes no more of a request than there was, if no turn of it does. -/
theorem forEach_conserves (hf : ∀ m a, Conserves request m (f m a)) (m : Manager) (as : List A) :
    Conserves request m (m.forEach f as) := by
  induction as generalizing m with
  | nil => exact Nat.le_refl _
  | cons a as ih =>
    have hfirst := hf m a
    have hrest := ih (f m a).1
    unfold Conserves at hfirst hrest ⊢
    rw [forEach_cons, answered_append]
    show waiting request (forEach f (f m a).1 as).1.descriptors + _ ≤ _
    omega

variable {d : Descriptor} {m : Manager} {sid : DataTrackSid}

/-- Another subscription changes who waits for that track alone. -/
theorem setSubscription_waiting (hd : lookup sid m.descriptors = some d)
    (subscription : SubscriptionState) (request : RequestId) :
    waiting request (m.setSubscription sid d subscription).descriptors
        + d.subscription.waiters.count request
      = waiting request m.descriptors + subscription.waiters.count request := by
  have hbefore := waiting_of_lookup request hd
  have hafter : waiting request (m.setSubscription sid d subscription).descriptors = _ :=
    waiting_insert request
  rw [hafter, hbefore]
  show subscription.waiters.count request + _ + _ = _
  omega

/-- Nobody waits for a track that is new. -/
theorem handleTrackPublished_conserves (m : Manager) (publisherIdentity : String)
    (info : DataTrackInfo) (request : RequestId) :
    Conserves request m (m.handleTrackPublished publisherIdentity info) := by
  unfold Conserves
  rcases m.handleTrackPublished_cases publisherIdentity info with he | ⟨hnone, he⟩
  · rw [he]
    exact Nat.le_refl _
  · rw [he]
    show waiting request (insert info.sid _ m.descriptors) + 0 ≤ _
    rw [waiting_insert, waiting_of_none request hnone]
    show List.count request [] + _ + 0 ≤ _
    simp

/-- Those who wait for a track are not answered when it goes. -/
theorem handleTrackUnpublished_conserves (m : Manager) (sid : DataTrackSid)
    (request : RequestId) : Conserves request m (m.handleTrackUnpublished sid) := by
  unfold Conserves
  rcases m.handleTrackUnpublished_cases sid with ⟨-, he⟩ | ⟨d, _, hd, -, he⟩
  · rw [he]
    exact Nat.le_refl _
  · rw [he, waiting_of_lookup request hd]
    show waiting request (erase sid m.descriptors) + 0 ≤ _
    omega

/-- An update of the publications answers or keeps every request. -/
theorem onSfuPublicationUpdates_conserves (m : Manager) (orders : Orders)
    (event : SfuPublicationUpdates) (request : RequestId) :
    Conserves request m (m.onSfuPublicationUpdates orders event) := by
  have hpublish : ∀ m update, Conserves request m (detectPublished m update) := by
    intro m update
    rw [detectPublished_eq]
    apply forEach_conserves
    intro m info
    unfold publishNew
    split
    · exact Nat.le_refl _
    · exact m.handleTrackPublished_conserves update.1 info request
  have hunpublish : ∀ m participant, Conserves request m (detectUnpublished orders m participant) :=
    fun m participant =>
      forEach_conserves (fun m sid => m.handleTrackUnpublished_conserves sid request) m _
  unfold onSfuPublicationUpdates
  split
  · exact Nat.le_refl _
  · have hfirst := forEach_conserves hpublish m event.updates.toList
    have hsecond := forEach_conserves hunpublish (m.forEach detectPublished event.updates.toList).1
      ((reorder (orders 0) (event.updates.toList.map fun update =>
        (update.1, update.2.map (·.sid)))).zipIdx 1)
    unfold Conserves at hfirst hsecond ⊢
    rw [answered_append]
    show waiting request (forEach _ _ _).1.descriptors + _ ≤ _
    omega

/-- A handle answers all who wait for its track. -/
theorem registerSubscriberHandle_conserves (m : Manager) (entry : Handle × DataTrackSid)
    (request : RequestId) : Conserves request m (m.registerSubscriberHandle entry) := by
  obtain ⟨h, sid⟩ := entry
  unfold Conserves
  rcases m.registerSubscriberHandle_cases h sid with
    ⟨-, he⟩ | ⟨d, subHandle, task, hd, hs, he⟩ | ⟨d, resultTxs, bufferSize, hd, hs, he⟩
  · rw [he]
    exact Nat.le_refl _
  · have hset := setSubscription_waiting hd (.active h task) request
    have hactive : SubscriptionState.waiters (.active h task) = [] := rfl
    rw [hs, hactive] at hset
    rw [he]
    show waiting request (m.setSubscription sid d (.active h task)).descriptors + 0 ≤ _
    simp only [SubscriptionState.waiters, count_nil] at hset
    omega
  · have hset := setSubscription_waiting hd (.active h m.nextTask) request
    have hanswered : answered request (.spawn m.nextTask
        ⟨d.info, m.pipelineFor d, d.published, bufferSize⟩
          :: resultTxs.map fun resultTx => .resolve resultTx (.ok m.nextTask))
        = resultTxs.count request := answered_resolve request resultTxs _
    rw [hs] at hset
    rw [he, hanswered]
    show waiting request (m.setSubscription sid d (.active h m.nextTask)).descriptors + _ ≤ _
    simp only [SubscriptionState.waiters, count_nil] at hset
    omega

variable {event : InputEvent} {orders : Orders} {result : Manager × List Effect}

/-- An event answers no more requests than stop waiting or come with it. -/
theorem handle_conserves (h : m.handle orders event = some result) (request : RequestId) :
    waiting request result.1.descriptors + answered request result.2
      ≤ waiting request m.descriptors + event.requests.count request := by
  cases event with
  | subscribeRequest event =>
    cases h
    have hcount : InputEvent.requests (.subscribeRequest event) = [event.resultTx] := rfl
    rw [hcount]
    rcases m.onSubscribeRequest_cases event with
      ⟨-, he⟩ | ⟨d, hd, hs, he⟩ | ⟨d, resultTxs, bufferSize, hd, hs, he⟩ | ⟨_, _, task, -, -, he⟩
    · rw [he]
      exact Nat.add_le_add_left (Nat.le_of_eq (answered_resolve request [event.resultTx] _)) _
    · have hset := setSubscription_waiting hd
        (.pending [event.resultTx] event.options.bufferSize) request
      rw [hs] at hset
      simp only [SubscriptionState.waiters, count_nil] at hset
      rw [he]
      show waiting request (m.setSubscription event.sid d _).descriptors + 0 ≤ _
      omega
    · have hset := setSubscription_waiting hd
        (.pending (resultTxs ++ [event.resultTx]) bufferSize) request
      rw [hs] at hset
      simp only [SubscriptionState.waiters, count_append] at hset
      rw [he]
      show waiting request (m.setSubscription event.sid d _).descriptors + 0 ≤ _
      omega
    · rw [he]
      exact Nat.add_le_add_left (Nat.le_of_eq (answered_resolve request [event.resultTx] _)) _
  | unsubscribeRequest event =>
    cases h
    rcases m.onUnsubscribeRequest_cases event with ⟨-, he⟩ | ⟨d, _, _, hd, hs, he⟩
    · rw [he]
      exact Nat.le_add_right _ _
    · have hset := setSubscription_waiting hd .none request
      rw [hs] at hset
      simp only [SubscriptionState.waiters, count_nil] at hset
      rw [he]
      show waiting request (m.setSubscription event.sid d .none).descriptors + 0 ≤ _
      omega
  | sfuPublicationUpdates event =>
    cases h
    exact Nat.le_add_right_of_le (m.onSfuPublicationUpdates_conserves orders event request)
  | sfuSubscriberHandles event =>
    cases h
    exact Nat.le_add_right_of_le (forEach_conserves
      (fun m entry => m.registerSubscriberHandle_conserves entry request) m event.mapping.toList)
  | packetReceived bytes =>
    cases h
    rcases m.onPacketReceived_cases bytes with he | ⟨_, _, he⟩
    · rw [he]
      exact Nat.le_add_right _ _
    · rw [he]
      exact Nat.le_add_right _ _
  | resendSubscriptionUpdates =>
    cases h
    have hnone : answered request (m.onResendSubscriptionUpdates orders).2 = 0 := by
      unfold answered answers onResendSubscriptionUpdates
      rw [countP_map, countP_eq_zero]
      intro e he
      obtain ⟨entry, -, hentry⟩ := mem_filterMap.mp he
      split at hentry
      · cases hentry
      · cases hentry
        simp [Record.answers]
      · cases hentry
        simp [Record.answers]
    rw [hnone]
    exact Nat.le_add_right _ _
  | shutdown => cases h

/-! ## What becomes of a waiter -/

/-- The request waits for the handle of the track. -/
def Waits (m : Manager) (sid : DataTrackSid) (request : RequestId) : Prop :=
  ∃ d, AList.lookup sid m.descriptors = some d ∧ request ∈ d.subscription.waiters

/-- The effects end the wait: the request is answered, or the track is unpublished. -/
def Ends (sid : DataTrackSid) (request : RequestId) (effects : List Effect) : Prop :=
  (∃ result, .resolve request result ∈ effects) ∨ .emit (.trackUnpublished sid) ∈ effects

variable {effects : List Effect}

theorem Ends.left (h : Ends sid request effects) (effects' : List Effect) :
    Ends sid request (effects ++ effects') := by
  rcases h with ⟨result, hmem⟩ | hmem
  · exact .inl ⟨result, mem_append_left _ hmem⟩
  · exact .inr (mem_append_left _ hmem)

theorem Ends.right (h : Ends sid request effects) (effects' : List Effect) :
    Ends sid request (effects' ++ effects) := by
  rcases h with ⟨result, hmem⟩ | hmem
  · exact .inl ⟨result, mem_append_right _ hmem⟩
  · exact .inr (mem_append_right _ hmem)

/-- A request that waits goes on waiting unless its wait ends. -/
def KeepsWaiter (sid : DataTrackSid) (request : RequestId) (m : Manager)
    (result : Manager × List Effect) : Prop :=
  m.Waits sid request → result.1.Waits sid request ∨ Ends sid request result.2

/-- A loop forgets no waiter, if no turn of it does. -/
theorem forEach_keepsWaiter (hf : ∀ m a, KeepsWaiter sid request m (f m a)) (m : Manager)
    (as : List A) :
    KeepsWaiter sid request m (m.forEach f as) := by
  induction as generalizing m with
  | nil => exact fun h => .inl h
  | cons a as ih =>
    intro h
    rw [forEach_cons]
    rcases hf m a h with hwaits | hends
    · rcases ih (f m a).1 hwaits with hwaits | hends
      · exact .inl hwaits
      · exact .inr (hends.right _)
    · exact .inr (hends.left _)

/-- What leaves a track alone forgets nobody who waits for it. -/
theorem KeepsWaiter.of_lookup
    (h : lookup sid result.1.descriptors = lookup sid m.descriptors) :
    KeepsWaiter sid request m result := by
  rintro ⟨d, hd, hwaiter⟩
  exact .inl ⟨d, h.trans hd, hwaiter⟩

/-- A subscription that is replaced keeps its waiters or answers them. -/
theorem setSubscription_keepsWaiter {sid' : DataTrackSid}
    (hd : lookup sid' m.descriptors = some d) (subscription : SubscriptionState)
    (h : request ∈ d.subscription.waiters →
      request ∈ subscription.waiters ∨ Ends sid' request effects) :
    KeepsWaiter sid request m (m.setSubscription sid' d subscription, effects) := by
  rintro ⟨d', hd', hwaiter⟩
  by_cases hsid : sid = sid'
  · subst hsid
    rw [hd, Option.some.injEq] at hd'
    subst hd'
    rcases h hwaiter with hwaiter | hends
    · exact .inl ⟨_, (lookup_setSubscription m sid sid d _).trans (if_pos rfl), hwaiter⟩
    · exact .inr hends
  · exact .inl ⟨d', (lookup_setSubscription m sid' sid d _).trans ((if_neg hsid).trans hd'),
      hwaiter⟩

/-- A published track drops no waiting request. -/
theorem handleTrackPublished_keepsWaiter (m : Manager) (publisherIdentity : String)
    (info : DataTrackInfo) (sid : DataTrackSid) (request : RequestId) :
    KeepsWaiter sid request m (m.handleTrackPublished publisherIdentity info) := by
  rcases m.handleTrackPublished_cases publisherIdentity info with he | ⟨hnone, he⟩
  · rw [he]
    exact .of_lookup rfl
  · rw [he]
    rintro ⟨d, hd, hwaiter⟩
    refine .inl ⟨d, ?_, hwaiter⟩
    show lookup sid (insert info.sid _ m.descriptors) = some d
    rw [lookup_insert_ite, if_neg, hd]
    rintro rfl
    rw [hnone] at hd
    cases hd

/-- A wait goes on, or ends with the unpublished track. -/
theorem handleTrackUnpublished_keepsWaiter (m : Manager) (sid' sid : DataTrackSid)
    (request : RequestId) : KeepsWaiter sid request m (m.handleTrackUnpublished sid') := by
  rcases m.handleTrackUnpublished_cases sid' with ⟨-, he⟩ | ⟨d, _, -, -, he⟩
  · rw [he]
    exact .of_lookup rfl
  · rw [he]
    by_cases hsid : sid = sid'
    · subst hsid
      exact fun _ => .inr (.inr (by simp))
    · exact .of_lookup ((lookup_erase_ite _ _ _).trans (if_neg hsid))

theorem onSfuPublicationUpdates_keepsWaiter (m : Manager) (orders : Orders)
    (event : SfuPublicationUpdates) (sid : DataTrackSid) (request : RequestId) :
    KeepsWaiter sid request m (m.onSfuPublicationUpdates orders event) := by
  have hpublish : ∀ m update, KeepsWaiter sid request m (detectPublished m update) := by
    intro m update
    rw [detectPublished_eq]
    apply forEach_keepsWaiter
    intro m info
    unfold publishNew
    split
    · exact .of_lookup rfl
    · exact m.handleTrackPublished_keepsWaiter update.1 info sid request
  have hunpublish : ∀ m participant,
      KeepsWaiter sid request m (detectUnpublished orders m participant) :=
    fun m participant =>
      forEach_keepsWaiter (fun m sid' => m.handleTrackUnpublished_keepsWaiter sid' sid request) m _
  intro h
  unfold onSfuPublicationUpdates
  split
  · exact .inl h
  · rcases forEach_keepsWaiter hpublish m event.updates.toList h with hwaits | hends
    · rcases forEach_keepsWaiter hunpublish _ ((reorder (orders 0)
        (event.updates.toList.map fun update => (update.1, update.2.map (·.sid)))).zipIdx 1)
        hwaits with hwaits | hends
      · exact .inl hwaits
      · exact .inr (hends.right _)
    · exact .inr (hends.left _)

/-- A wait goes on, or is answered with the handle. -/
theorem registerSubscriberHandle_keepsWaiter (m : Manager) (entry : Handle × DataTrackSid)
    (sid : DataTrackSid) (request : RequestId) :
    KeepsWaiter sid request m (m.registerSubscriberHandle entry) := by
  obtain ⟨h, sid'⟩ := entry
  rcases m.registerSubscriberHandle_cases h sid' with
    ⟨-, he⟩ | ⟨d, _, task, hd, hs, he⟩ | ⟨d, resultTxs, _, hd, hs, he⟩
  · rw [he]
    exact .of_lookup rfl
  · rw [he]
    refine setSubscription_keepsWaiter hd (.active h task) ?_
    intro hwaiter
    rw [hs] at hwaiter
    cases hwaiter
  · rw [he]
    refine setSubscription_keepsWaiter hd (.active h m.nextTask) ?_
    intro hwaiter
    rw [hs] at hwaiter
    exact .inr (.inl ⟨_, mem_cons_of_mem _ (mem_map_of_mem hwaiter)⟩)

/-- A waiter goes on waiting, is answered, or loses the track. -/
theorem handle_keepsWaiter (h : m.handle orders event = some result) (sid : DataTrackSid)
    (request : RequestId) : KeepsWaiter sid request m result := by
  cases event with
  | subscribeRequest event =>
    cases h
    rcases m.onSubscribeRequest_cases event with
      ⟨-, he⟩ | ⟨d, hd, hs, he⟩ | ⟨d, resultTxs, _, hd, hs, he⟩ | ⟨_, _, task, -, -, he⟩
    · rw [he]
      exact .of_lookup rfl
    · rw [he]
      refine setSubscription_keepsWaiter hd _ ?_
      intro hwaiter
      rw [hs] at hwaiter
      cases hwaiter
    · rw [he]
      refine setSubscription_keepsWaiter hd _ ?_
      intro hwaiter
      rw [hs] at hwaiter
      exact .inl (mem_append_left _ hwaiter)
    · rw [he]
      exact .of_lookup rfl
  | unsubscribeRequest event =>
    cases h
    rcases m.onUnsubscribeRequest_cases event with ⟨-, he⟩ | ⟨d, _, _, hd, hs, he⟩
    · rw [he]
      exact .of_lookup rfl
    · rw [he]
      refine setSubscription_keepsWaiter hd .none ?_
      intro hwaiter
      rw [hs] at hwaiter
      cases hwaiter
  | sfuPublicationUpdates event =>
    cases h
    exact m.onSfuPublicationUpdates_keepsWaiter orders event sid request
  | sfuSubscriberHandles event =>
    cases h
    exact forEach_keepsWaiter
      (fun m entry => m.registerSubscriberHandle_keepsWaiter entry sid request) m _
  | packetReceived bytes =>
    cases h
    rcases m.onPacketReceived_cases bytes with he | ⟨_, _, he⟩
    · rw [he]
      exact .of_lookup rfl
    · rw [he]
      exact .of_lookup rfl
  | resendSubscriptionUpdates =>
    cases h
    exact .of_lookup rfl
  | shutdown => cases h

/-- A new request is answered, or it waits for its track. -/
theorem onSubscribeRequest_waits (m : Manager) (event : SubscribeRequest) :
    (m.onSubscribeRequest event).1.Waits event.sid event.resultTx ∨
      ∃ result, .resolve event.resultTx result ∈ (m.onSubscribeRequest event).2 := by
  rcases m.onSubscribeRequest_cases event with
    ⟨-, he⟩ | ⟨d, hd, hs, he⟩ | ⟨d, resultTxs, bufferSize, hd, hs, he⟩ | ⟨_, _, task, -, -, he⟩
  · rw [he]
    exact .inr ⟨_, mem_singleton_self _⟩
  · rw [he]
    refine .inl ⟨_, (lookup_setSubscription m _ _ d _).trans (if_pos rfl), ?_⟩
    exact mem_singleton_self _
  · rw [he]
    refine .inl ⟨_, (lookup_setSubscription m _ _ d _).trans (if_pos rfl), ?_⟩
    exact mem_append_right _ (mem_singleton_self _)
  · rw [he]
    exact .inr ⟨_, mem_singleton_self _⟩

/-! ## Where waiters come from -/

/-- A waiter was there before, or it is that of the request the event brings. -/
def WaiterFrom (event : InputEvent) (m m' : Manager) : Prop :=
  ∀ sid request, m'.Waits sid request →
    m.Waits sid request ∨ ∃ e, event = .subscribeRequest e ∧ e.sid = sid ∧ e.resultTx = request

/-- No waiter is new. -/
def NoNewWaiter (m m' : Manager) : Prop := ∀ sid request, m'.Waits sid request → m.Waits sid request

/-- A loop adds no waiter, if no turn of it does. -/
theorem forEach_noNewWaiter (hf : ∀ (m : Manager) a, m.NoNewWaiter (f m a).1) (m : Manager)
    (as : List A) :
    m.NoNewWaiter (m.forEach f as).1 := by
  refine forEach_invariant (fun m' => m.NoNewWaiter m') ?_ (fun _ _ h => h)
  intro m' a _ h sid request hwaits
  exact h sid request (hf m' a sid request hwaits)

/-- A subscription with fewer waiters is no new one for anybody. -/
theorem setSubscription_noNewWaiter (hd : lookup sid m.descriptors = some d)
    (subscription : SubscriptionState) (h : subscription.waiters ⊆ d.subscription.waiters) :
    m.NoNewWaiter (m.setSubscription sid d subscription) := by
  rintro sid' request ⟨d', hd', hwaiter⟩
  rcases of_lookup_insert hd' with ⟨rfl, rfl⟩ | ⟨-, hd'⟩
  · exact ⟨d, hd, h hwaiter⟩
  · exact ⟨d', hd', hwaiter⟩

/-- A published track makes nobody wait anew. -/
theorem handleTrackPublished_noNewWaiter (m : Manager) (publisherIdentity : String)
    (info : DataTrackInfo) : m.NoNewWaiter (m.handleTrackPublished publisherIdentity info).1 := by
  rcases m.handleTrackPublished_cases publisherIdentity info with he | ⟨-, he⟩
  · rw [he]
    exact fun _ _ h => h
  · rw [he]
    rintro sid request ⟨d, hd, hwaiter⟩
    rcases of_lookup_insert hd with ⟨-, rfl⟩ | ⟨-, hd⟩
    · cases hwaiter
    · exact ⟨d, hd, hwaiter⟩

theorem handleTrackUnpublished_noNewWaiter (m : Manager) (sid' : DataTrackSid) :
    m.NoNewWaiter (m.handleTrackUnpublished sid').1 := by
  rintro sid request ⟨d, hd, hwaiter⟩
  rw [handleTrackUnpublished_lookup] at hd
  split at hd
  · cases hd
  · exact ⟨d, hd, hwaiter⟩

theorem onSfuPublicationUpdates_noNewWaiter (m : Manager) (orders : Orders)
    (event : SfuPublicationUpdates) :
    m.NoNewWaiter (m.onSfuPublicationUpdates orders event).1 := by
  have hpublish : ∀ (m : Manager) update, m.NoNewWaiter (detectPublished m update).1 := by
    intro m update
    rw [detectPublished_eq]
    apply forEach_noNewWaiter
    intro m info
    unfold publishNew
    split
    · exact fun _ _ h => h
    · exact m.handleTrackPublished_noNewWaiter update.1 info
  have hunpublish : ∀ (m : Manager) participant,
      m.NoNewWaiter (detectUnpublished orders m participant).1 :=
    fun m participant => forEach_noNewWaiter handleTrackUnpublished_noNewWaiter m _
  unfold onSfuPublicationUpdates
  split
  · exact fun _ _ h => h
  · intro sid request h
    exact forEach_noNewWaiter hpublish m _ sid request
      (forEach_noNewWaiter hunpublish _ _ sid request h)

theorem registerSubscriberHandle_noNewWaiter (m : Manager) (entry : Handle × DataTrackSid) :
    m.NoNewWaiter (m.registerSubscriberHandle entry).1 := by
  obtain ⟨h, sid⟩ := entry
  rcases m.registerSubscriberHandle_cases h sid with
    ⟨-, he⟩ | ⟨d, _, task, hd, -, he⟩ | ⟨d, _, _, hd, -, he⟩
  · rw [he]
    exact fun _ _ h => h
  · rw [he]
    exact setSubscription_noNewWaiter hd _ (nil_subset _)
  · rw [he]
    exact setSubscription_noNewWaiter hd _ (nil_subset _)

/-- Whoever comes to wait comes with the event. -/
theorem handle_waiterFrom (h : m.handle orders event = some result) :
    WaiterFrom event m result.1 := by
  have hold : ∀ {m' : Manager}, m.NoNewWaiter m' → WaiterFrom event m m' :=
    fun hnew sid request hwaits => .inl (hnew sid request hwaits)
  cases event with
  | subscribeRequest event =>
    cases h
    rcases m.onSubscribeRequest_cases event with
      ⟨-, he⟩ | ⟨d, hd, hs, he⟩ | ⟨d, resultTxs, bufferSize, hd, hs, he⟩ | ⟨_, _, _, -, -, he⟩
    · rw [he]
      exact fun _ _ h => .inl h
    · rw [he]
      rintro sid request ⟨d', hd', hwaiter⟩
      rcases of_lookup_insert hd' with ⟨rfl, rfl⟩ | ⟨-, hd'⟩
      · exact .inr ⟨event, rfl, rfl, (mem_singleton.mp hwaiter).symm⟩
      · exact .inl ⟨d', hd', hwaiter⟩
    · rw [he]
      rintro sid request ⟨d', hd', hwaiter⟩
      rcases of_lookup_insert hd' with ⟨rfl, rfl⟩ | ⟨-, hd'⟩
      · rcases mem_append.mp hwaiter with hwaiter | hwaiter
        · exact .inl ⟨d, hd, by rw [hs]; exact hwaiter⟩
        · exact .inr ⟨event, rfl, rfl, (mem_singleton.mp hwaiter).symm⟩
      · exact .inl ⟨d', hd', hwaiter⟩
    · rw [he]
      exact fun _ _ h => .inl h
  | unsubscribeRequest event =>
    cases h
    rcases m.onUnsubscribeRequest_cases event with ⟨-, he⟩ | ⟨d, _, _, hd, -, he⟩
    · rw [he]
      exact fun _ _ h => .inl h
    · rw [he]
      have hnew := setSubscription_noNewWaiter hd .none (nil_subset _)
      exact hold fun sid request hwaits => hnew sid request hwaits
  | sfuPublicationUpdates event =>
    cases h
    exact hold (m.onSfuPublicationUpdates_noNewWaiter orders event)
  | sfuSubscriberHandles event =>
    cases h
    exact hold (forEach_noNewWaiter registerSubscriberHandle_noNewWaiter m _)
  | packetReceived bytes =>
    cases h
    rcases m.onPacketReceived_cases bytes with he | ⟨_, _, he⟩
    · rw [he]
      exact fun _ _ h => .inl h
    · rw [he]
      exact fun _ _ h => .inl h
  | resendSubscriptionUpdates =>
    cases h
    exact fun _ _ h => .inl h
  | shutdown => cases h

/-- Every descriptor is stored under the SID of its track. -/
def Named (m : Manager) : Prop :=
  ∀ sid d, AList.lookup sid m.descriptors = some d → d.info.sid = sid

/-- Descriptors stay under the SIDs of their tracks. -/
theorem handle_named (hm : m.Named) (h : m.handle orders event = some result) : result.1.Named := by
  by_cases hupdate : ∃ update, event = .sfuPublicationUpdates update
  · obtain ⟨update, rfl⟩ := hupdate
    cases h
    obtain ⟨m₁, _, _, hhalves⟩ := m.onSfuPublicationUpdates_halves orders update
    intro sid d hd
    rcases hhalves.published.origin sid d ((hhalves.lookup sid d).mp hd).1 with
      hold | ⟨_, -, -, -, hsid⟩
    · exact hm sid d hold
    · exact hsid
  · obtain ⟨hsame, -⟩ := handle_quiet h fun update hc => hupdate ⟨update, hc⟩
    intro sid d' hd'
    obtain ⟨d, hd, hinfo, -⟩ := hsame.origin hd'
    rw [hinfo]
    exact hm sid d hd

end Manager

/-! ## The state of a run -/

namespace State

variable {s s' : State} {a : Action} {h : List Record}

/-- How many requests in the queue have the number. -/
def queued (s : State) (request : RequestId) : ℕ :=
  (s.queue.flatMap InputEvent.requests).count request

/-- How often a request waits with the tracks that are left. -/
theorem length_holders (s : State) (request : RequestId) :
    (s.holders request).length
      = (s.remaining.flatMap fun d => d.subscription.waiters).count request := by
  unfold holders
  rw [length_flatMap, count_flatMap]
  congr 1
  apply map_congr_left
  intro d _
  show ((d.subscription.waiters.filter _).map _).length = d.subscription.waiters.count request
  rw [length_map, count_eq_length_filter]
  congr 1

variable {request : RequestId} {sid : DataTrackSid}

/-- The tracks for which a request waits. -/
theorem mem_holders :
    sid ∈ s.holders request ↔
      ∃ d ∈ s.remaining, d.info.sid = sid ∧ request ∈ d.subscription.waiters := by
  unfold holders
  rw [mem_flatMap]
  constructor
  · rintro ⟨d, hd, hsid⟩
    obtain ⟨waiter, hwaiter, hsid⟩ := mem_map.mp hsid
    obtain ⟨hmem, heq⟩ := mem_filter.mp hwaiter
    exact ⟨d, hd, hsid, of_decide_eq_true heq ▸ hmem⟩
  · rintro ⟨d, hd, hsid, hmem⟩
    exact ⟨d, hd, mem_map.mpr
      ⟨request, mem_filter.mpr ⟨hmem, decide_eq_true rfl⟩, hsid⟩⟩

/-- While the manager runs all descriptors are there. -/
theorem remaining_of_running (hmode : s.mode = .running) :
    s.remaining = (toPairs s.manager.descriptors).map Prod.snd := by
  unfold remaining
  rw [hmode]

/-- While the manager runs, a request is held when it waits for a handle. -/
theorem length_holders_of_running (hmode : s.mode = .running) (request : RequestId) :
    (s.holders request).length = waiting request s.manager.descriptors := by
  rw [length_holders, remaining_of_running hmode, flatMap_map]
  rfl

/-- While the manager runs a request is held by the tracks for which it waits. -/
theorem mem_holders_of_running (hmode : s.mode = .running) (hnamed : s.manager.Named) :
    sid ∈ s.holders request ↔ s.manager.Waits sid request := by
  rw [mem_holders, remaining_of_running hmode]
  constructor
  · rintro ⟨d, hd, rfl, hwaiter⟩
    obtain ⟨⟨sid, d'⟩, hpair, rfl⟩ := mem_map.mp hd
    have hlookup := (mem_toPairs _ _ _).mp hpair
    refine ⟨d', ?_, hwaiter⟩
    rw [hnamed sid d' hlookup]
    exact hlookup
  · rintro ⟨d, hd, hwaiter⟩
    exact ⟨d, mem_map_of_mem ((mem_toPairs _ _ _).mpr hd), hnamed sid d hd, hwaiter⟩

structure RequestInv (h : List Record) (s : State) : Prop where
  named : s.manager.Named
  /-- A request is in one place at most: in the queue, in a waiter list, or answered. -/
  once : ∀ request, s.queued request + (s.holders request).length + answers request h ≤ 1
  /-- The number of a request that is still to come is nowhere. -/
  fresh : ∀ request, s.nextRequest ≤ request →
    s.queued request + (s.holders request).length + answers request h = 0
  taken : ∀ event, .received (.subscribeRequest event) ∈ h →
    s.queued event.resultTx = 0 ∧ event.resultTx < s.nextRequest
  unique : ∀ event event', .received (.subscribeRequest event) ∈ h →
    .received (.subscribeRequest event') ∈ h → event.resultTx = event'.resultTx → event = event'
  origin : ∀ request sid, sid ∈ s.holders request →
    ∃ event, .received (.subscribeRequest event) ∈ h ∧ event.sid = sid ∧ event.resultTx = request
  fate : ∀ event, .received (.subscribeRequest event) ∈ h →
    0 < answers event.resultTx h ∨ event.sid ∈ s.holders event.resultTx ∨ Dropped h event

/-- The invariant at first, when there are no requests. -/
theorem init_requestInv (provider : Option DecryptionProvider) : RequestInv [] (init provider) where
  named := by
    intro sid d hd
    cases hd
  once _ := Nat.zero_le _
  fresh _ _ := rfl
  taken _ hmem := by cases hmem
  unique _ _ hmem := by cases hmem
  origin _ _ hmem := by cases hmem
  fate _ hmem := by cases hmem

variable {event : SubscribeRequest}

/-- The invariant says where a request is. -/
theorem RequestInv.accounted (hs : s.RequestInv h)
    (hmem : .received (.subscribeRequest event) ∈ h) : s.Accounted h event := by
  have honce := hs.once event.resultTx
  unfold Accounted
  by_cases hanswered : 0 < answers event.resultTx h
  · refine .inl ⟨by omega, ?_⟩
    exact length_eq_zero_iff.mp (by omega)
  · by_cases hheld : event.sid ∈ s.holders event.resultTx
    · have hlength : (s.holders event.resultTx).length = 1 := by
        have hpos := length_pos_of_mem hheld
        omega
      obtain ⟨sid, hsid⟩ := length_eq_one_iff.mp hlength
      rw [hsid, mem_singleton] at hheld
      exact .inr (.inl ⟨by omega, by rw [hsid, hheld]⟩)
    · rcases hs.fate event hmem with hc | hc | hdropped
      · exact absurd hc hanswered
      · exact absurd hc hheld
      · refine .inr (.inr ⟨by omega, ?_, hdropped⟩)
        -- nobody else holds the request, for a holder comes from a request for its track
        apply eq_nil_iff_forall_not_mem.mpr
        intro sid hsid
        obtain ⟨event', hmem', rfl, heq⟩ := hs.origin _ sid hsid
        rw [hs.unique event' event hmem' hmem heq] at hsid
        exact hheld hsid

theorem dropped_append (hdropped : Dropped h event) (h' : List Record) :
    Dropped (h ++ h') event := by
  obtain ⟨before, after, rfl, hmem⟩ := hdropped
  exact ⟨before, after ++ h', by simp, mem_append_left _ hmem⟩

variable {h' : List Record} {rest : List InputEvent}

/-- A request received before its track is unpublished is dropped. -/
theorem dropped_of_mem (hmem : .received (.subscribeRequest event) ∈ h)
    (hunpublished : .did (.emit (.trackUnpublished event.sid)) ∈ h') : Dropped (h ++ h') event := by
  obtain ⟨before, after, rfl⟩ := append_of_mem hmem
  exact ⟨before, after ++ h', by simp, mem_append_right _ hunpublished⟩

/-- Steps that take nothing from the queue, whose record is of answers at most. -/
theorem RequestInv.of_answers (hs : s.RequestInv h) {h' : List Record}
    (hmanager : s'.manager = s.manager) (hnext : s'.nextRequest = s.nextRequest)
    (hqueue : ∀ request, s'.queued request ≤ s.queued request)
    (hrecords : ∀ event, .received (.subscribeRequest event) ∉ h')
    (hmoves : ∀ request, (s'.holders request).length + answers request h'
      ≤ (s.holders request).length)
    (horigin : ∀ request, s'.holders request ⊆ s.holders request)
    (hkept : ∀ request sid, sid ∈ s.holders request →
      sid ∈ s'.holders request ∨ 0 < answers request h') : s'.RequestInv (h ++ h') := by
  have hold : ∀ {event}, .received (.subscribeRequest event) ∈ h ++ h' →
      .received (.subscribeRequest event) ∈ h := by
    intro event hmem
    rcases mem_append.mp hmem with hmem | hmem
    · exact hmem
    · exact absurd hmem (hrecords event)
  constructor
  · rw [hmanager]
    exact hs.named
  · intro request
    have honce := hs.once request
    have hq := hqueue request
    have hm := hmoves request
    rw [answers_append]
    omega
  · intro request hle
    have hfresh := hs.fresh request (hnext ▸ hle)
    have hq := hqueue request
    have hm := hmoves request
    rw [answers_append]
    omega
  · intro event hmem
    obtain ⟨hzero, hlt⟩ := hs.taken event (hold hmem)
    have hq := hqueue event.resultTx
    rw [hnext]
    exact ⟨by omega, hlt⟩
  · intro event event' hmem hmem'
    exact hs.unique event event' (hold hmem) (hold hmem')
  · intro request sid hsid
    obtain ⟨event, hmem, hrest⟩ := hs.origin request sid (horigin request hsid)
    exact ⟨event, mem_append_left _ hmem, hrest⟩
  · intro event hmem
    rw [answers_append]
    rcases hs.fate event (hold hmem) with hanswered | hheld | hdropped
    · exact .inl (by omega)
    · rcases hkept _ _ hheld with hheld | hanswered
      · exact .inr (.inl hheld)
      · exact .inl (by omega)
    · exact .inr (.inr (dropped_append hdropped h'))

/-- Steps that leave the manager, its mode and the requests in the queue alone. -/
theorem RequestInv.of_frame (hs : s.RequestInv h) (hmanager : s'.manager = s.manager)
    (hmode : s'.mode = s.mode) (hnext : s'.nextRequest = s.nextRequest)
    (hqueue : ∀ request, s'.queued request = s.queued request) : s'.RequestInv h := by
  have hholders : ∀ request, s'.holders request = s.holders request := by
    intro request
    unfold holders remaining
    rw [hmode, hmanager]
  have hinv : s'.RequestInv (h ++ []) := by
    refine hs.of_answers hmanager hnext (fun request => (hqueue request).le) (by simp) ?_ ?_ ?_
    · intro request
      rw [hholders]
      exact Nat.le_refl _
    · intro request
      rw [hholders]
      exact List.Subset.refl _
    · intro request sid hsid
      rw [hholders]
      exact .inl hsid
  rwa [append_nil] at hinv

variable {orders : Orders}

/-- What is recorded when the manager processes an event. -/
theorem records_of_handle {event : InputEvent} {result : Manager × List Effect}
    (hmode : s.mode = .running) (hqueue : s.queue = event :: rest)
    (hresult : s.manager.handle orders event = some result) :
    s.records (.manager orders) = [.received event] ++ result.2.map .did := by
  unfold records
  simp only [hmode, hqueue, hresult]
  rfl

theorem answers_received (request : RequestId) (event : InputEvent) :
    answers request [.received event] = 0 := rfl

/-- A request that is resolved is answered. -/
theorem answers_pos {result : Except DataTrackSubscribeError TaskId} {effects : List Effect}
    (hmem : .resolve request result ∈ effects) : 0 < answered request effects := by
  unfold answered answers
  rw [countP_pos_iff]
  exact ⟨_, mem_map_of_mem hmem, decide_eq_true rfl⟩

/-- A turn of the run loop. -/
theorem RequestInv.handle (hs : s.RequestInv h) {event : InputEvent}
    {result : Manager × List Effect} (hmode : s.mode = .running) (hqueue : s.queue = event :: rest)
    (hresult : s.manager.handle orders event = some result) :
    (({ s with queue := rest }).perform result).RequestInv
      (h ++ s.records (.manager orders)) := by
  rw [records_of_handle hmode hqueue hresult]
  have hmode' : (({ s with queue := rest }).perform result).mode = .running := by
    rw [perform_mode]
    exact hmode
  have hnamed' : (({ s with queue := rest }).perform result).manager.Named := by
    rw [perform_manager]
    exact Manager.handle_named hs.named hresult
  have hqueued : ∀ request, s.queued request = event.requests.count request
      + (({ s with queue := rest }).perform result).queued request := by
    intro request
    unfold queued
    rw [perform_queue, hqueue, flatMap_cons, count_append]
  have hconserves : ∀ request,
      ((({ s with queue := rest }).perform result).holders request).length
          + answered request result.2
        ≤ (s.holders request).length + event.requests.count request := by
    intro request
    rw [length_holders_of_running hmode', length_holders_of_running hmode, perform_manager]
    exact Manager.handle_conserves hresult request
  have hanswers : ∀ request, answers request ([.received event] ++ result.2.map .did)
      = answered request result.2 := by
    intro request
    rw [answers_append, answers_received, Nat.zero_add]
    rfl
  have hsplit : ∀ {e}, .received (.subscribeRequest e) ∈ h ++ ([.received event]
      ++ result.2.map .did) → .received (.subscribeRequest e) ∈ h ∨
      event = .subscribeRequest e := by
    intro e hmem
    rcases mem_append.mp hmem with hmem | hmem
    · exact .inl hmem
    · rcases mem_append.mp hmem with hmem | hmem
      · rw [mem_singleton] at hmem
        injection hmem with heq
        exact .inr heq.symm
      · obtain ⟨_, -, heq⟩ := mem_map.mp hmem
        cases heq
  -- the request of the event was in the queue, so it is nowhere else
  have hnew : ∀ {e}, event = .subscribeRequest e → s.queued e.resultTx = 1 ∧
      (({ s with queue := rest }).perform result).queued e.resultTx = 0 := by
    rintro e rfl
    have hcount : List.count e.resultTx (InputEvent.requests (.subscribeRequest e)) = 1 :=
      count_singleton_self
    have honce := hs.once e.resultTx
    have hq := hqueued e.resultTx
    omega
  constructor
  · exact hnamed'
  · intro request
    have honce := hs.once request
    have hq := hqueued request
    have hc := hconserves request
    rw [answers_append, hanswers]
    omega
  · intro request hle
    rw [perform_nextRequest] at hle
    have hfresh := hs.fresh request hle
    have hq := hqueued request
    have hc := hconserves request
    rw [answers_append, hanswers]
    omega
  · intro e hmem
    rw [perform_nextRequest]
    rcases hsplit hmem with hmem | heq
    · obtain ⟨hzero, hlt⟩ := hs.taken e hmem
      have hq := hqueued e.resultTx
      exact ⟨by omega, hlt⟩
    · obtain ⟨hone, hzero⟩ := hnew heq
      refine ⟨hzero, ?_⟩
      by_contra hge
      have hfresh := hs.fresh e.resultTx (Nat.le_of_not_lt hge)
      omega
  · intro e e' hmem hmem' hsame
    rcases hsplit hmem with hmem | heq
    · rcases hsplit hmem' with hmem' | heq'
      · exact hs.unique e e' hmem hmem' hsame
      · have hzero := (hs.taken e hmem).1
        have hone := (hnew heq').1
        rw [hsame] at hzero
        omega
    · rcases hsplit hmem' with hmem' | heq'
      · have hzero := (hs.taken e' hmem').1
        have hone := (hnew heq).1
        rw [← hsame] at hzero
        omega
      · rw [heq] at heq'
        injection heq'
  · intro request sid hsid
    rw [mem_holders_of_running hmode' hnamed', perform_manager] at hsid
    rcases Manager.handle_waiterFrom hresult sid request hsid with hwaits | ⟨e, heq, hsid, hrequest⟩
    · rw [← mem_holders_of_running hmode hs.named] at hwaits
      obtain ⟨e, hmem, hrest⟩ := hs.origin request sid hwaits
      exact ⟨e, mem_append_left _ hmem, hrest⟩
    · refine ⟨e, mem_append_right _ (mem_append_left _ ?_), hsid, hrequest⟩
      rw [heq]
      exact mem_singleton_self _
  · intro e hmem
    rw [answers_append, hanswers, mem_holders_of_running hmode' hnamed', perform_manager]
    rcases hsplit hmem with hmem | heq
    · rcases hs.fate e hmem with hanswered | hheld | hdropped
      · exact .inl (by omega)
      · rw [mem_holders_of_running hmode hs.named] at hheld
        rcases Manager.handle_keepsWaiter hresult e.sid e.resultTx hheld with
          hwaits | ⟨_, hresolve⟩ | hunpublished
        · exact .inr (.inl hwaits)
        · have hpos := answers_pos hresolve
          exact .inl (by omega)
        · exact .inr (.inr (dropped_of_mem hmem
            (mem_append_right _ (mem_map_of_mem hunpublished))))
      · exact .inr (.inr (dropped_append hdropped _))
    · subst heq
      cases hresult
      rcases s.manager.onSubscribeRequest_waits e with hwaits | ⟨_, hresolve⟩
      · exact .inr (.inl hwaits)
      · have hpos := answers_pos hresolve
        exact .inl (by
          show 0 < _ + answered e.resultTx (s.manager.onSubscribeRequest e).2
          omega)

/-- The descriptors that a shutdown starts with are those of the manager. -/
theorem holders_of_shutdown (hmode : s.mode = .running) {cs : List ℕ}
    (hmode' : s'.mode = .stopping ((inOrder s.manager.descriptors cs).map Prod.snd))
    (request : RequestId) : (s'.holders request).Perm (s.holders request) := by
  have hremaining : s'.remaining = (inOrder s.manager.descriptors cs).map Prod.snd := by
    unfold remaining
    rw [hmode']
  unfold holders
  rw [hremaining, remaining_of_running hmode]
  exact (List.Perm.map _ (inOrder_iterOrder s.manager.descriptors cs)).flatMap_right _

/-- A shutdown answers the waiters of the descriptor that it takes. -/
theorem RequestInv.stop (hs : s.RequestInv h) {d : Descriptor} {todo : List Descriptor}
    (hmode : s.mode = .stopping (d :: todo)) (hmanager : s'.manager = s.manager)
    (hnext : s'.nextRequest = s.nextRequest) (hqueue : s'.queue = s.queue)
    (hremaining : s'.remaining = todo) : s'.RequestInv (h ++ s.records (.manager orders)) := by
  have hbefore : s.remaining = d :: todo := by
    unfold remaining
    rw [hmode]
  have hrecords : s.records (.manager orders) = .did (.sendUnpublished d.published) ::
      (d.subscription.waiters.map fun request => .resolve request (.error .disconnected)).map
        .did := by
    unfold records
    simp only [hmode, map_map]
    rfl
  have hanswers : ∀ request, answers request (s.records (.manager orders))
      = d.subscription.waiters.count request := by
    intro request
    rw [hrecords]
    exact answered_resolve request d.subscription.waiters _
  refine hs.of_answers hmanager hnext ?_ ?_ ?_ ?_ ?_
  · intro request
    unfold queued
    rw [hqueue]
  · intro event hmem
    rw [hrecords] at hmem
    rcases mem_cons.mp hmem with hc | hmem
    · cases hc
    · obtain ⟨_, -, hc⟩ := mem_map.mp hmem
      cases hc
  · intro request
    rw [hanswers, length_holders, length_holders, hremaining, hbefore, flatMap_cons,
      count_append]
    omega
  · intro request sid hsid
    rw [mem_holders, hremaining] at hsid
    obtain ⟨d', hd', hrest⟩ := hsid
    rw [mem_holders, hbefore]
    exact ⟨d', mem_cons_of_mem d hd', hrest⟩
  · intro request sid hsid
    rw [mem_holders, hbefore] at hsid
    obtain ⟨d', hd', hsid, hwaiter⟩ := hsid
    rcases mem_cons.mp hd' with rfl | hd'
    · rw [hanswers]
      exact .inr (count_pos_iff.mpr hwaiter)
    · rw [mem_holders, hremaining]
      exact .inl ⟨d', hd', hsid, hwaiter⟩

/-- The invariant is kept by the steps of the manager. -/
theorem RequestInv.managerStep (hs : s.RequestInv h) (hstep : s.managerStep orders = some s') :
    s'.RequestInv (h ++ s.records (.manager orders)) := by
  rcases managerTurn hstep with ⟨event, rest, result, hmode, hqueue, hresult⟩ |
    ⟨event, rest, hmode, hqueue, hresult⟩ | hmode | ⟨d, todo, hmode, hsub⟩ |
    ⟨d, todo, resultTxs, _, hmode, hsub⟩ | ⟨d, todo, _, _, hmode, hsub⟩ | ⟨_, todo, _, hmode, -, -⟩
  · exact hs.handle hmode hqueue hresult
  · have hrecords : s.records (.manager orders) = [.received event] := by
      unfold records
      simp only [hmode, hqueue, hresult]
    -- only the shutdown has no result of its own
    have hshutdown : event = .shutdown := by
      cases event <;> first | rfl | cases hresult
    rw [hrecords, hshutdown]
    let descriptors := (inOrder s.manager.descriptors (orders 0)).map Prod.snd
    let stopped : State := { s with queue := rest, mode := .stopping descriptors }
    have hperm : ∀ request, (stopped.holders request).Perm (s.holders request) :=
      holders_of_shutdown hmode rfl
    refine hs.of_answers rfl rfl ?_ (by simp) ?_ ?_ ?_
    · intro request
      unfold queued
      rw [hqueue, flatMap_cons, count_append]
      exact Nat.le_add_left _ _
    · exact fun request => (hperm request).length_eq.le
    · exact fun request => (hperm request).subset
    · exact fun request sid hsid => .inl ((hperm request).symm.subset hsid)
  · have hrecords : s.records (.manager orders) = [] := by
      unfold records
      simp only [hmode]
    -- the manager ends: nobody waits with it, the queue is dropped
    have hbefore : ∀ request, s.holders request = [] := by
      intro request
      unfold holders remaining
      rw [hmode]
      rfl
    obtain ⟨requests, he⟩ := dropQueue_frame { s with mode := .ended }
    rw [hrecords, he]
    refine hs.of_answers rfl rfl (fun _ => Nat.zero_le _) (by simp) (fun _ => Nat.zero_le _)
      (fun _ => nil_subset _) ?_
    intro request sid hsid
    rw [hbefore] at hsid
    cases hsid
  · exact hs.stop hmode rfl rfl rfl rfl
  · obtain ⟨requests, he⟩ := failAll_frame (s.applyEffect (.sendUnpublished d.published)) resultTxs
    rw [he]
    exact hs.stop hmode rfl rfl rfl rfl
  · exact hs.stop hmode rfl rfl rfl rfl
  · have hrecords : s.records (.manager orders) = [] := by
      unfold records
      simp only [hmode]
    -- the same descriptors are left to stop
    have hsame : ∀ request, ({ s with mode := .stopping todo } : State).holders request
        = s.holders request := by
      intro request
      unfold holders remaining
      rw [hmode]
    rw [hrecords]
    refine hs.of_answers rfl rfl (fun _ => Nat.le_refl _) (by simp) ?_ ?_ ?_
    · intro request
      rw [hsame]
      exact Nat.le_refl _
    · intro request
      rw [hsame]
      exact List.Subset.refl _
    · intro request sid hsid
      rw [hsame]
      exact .inl hsid

/-- A new request gets a number that is nowhere yet. -/
theorem RequestInv.subscribe (hs : s.RequestInv h) {options : DataTrackSubscribeOptions}
    (hstep : s.subscribe sid options = some s') : s'.RequestInv h := by
  have hlater : ∀ s' : State, s'.manager = s.manager → s'.mode = s.mode →
      s'.nextRequest = s.nextRequest + 1 →
      (∀ request, s'.queued request
        ≤ s.queued request + (if request = s.nextRequest then 1 else 0)) →
      s'.RequestInv h := by
    intro s' hmanager hmode hnext hqueue
    have hholders : ∀ request, s'.holders request = s.holders request := by
      intro request
      unfold holders remaining
      rw [hmode, hmanager]
    constructor
    · rw [hmanager]
      exact hs.named
    · intro request
      have hq := hqueue request
      have honce := hs.once request
      rw [hholders]
      by_cases hrequest : request = s.nextRequest
      · have hfresh := hs.fresh request (Nat.le_of_eq hrequest.symm)
        rw [if_pos hrequest] at hq
        omega
      · rw [if_neg hrequest] at hq
        omega
    · intro request hle
      rw [hnext] at hle
      have hq := hqueue request
      have hfresh := hs.fresh request (Nat.le_of_succ_le hle)
      rw [if_neg (Nat.ne_of_gt hle)] at hq
      rw [hholders]
      omega
    · intro event hmem
      obtain ⟨hzero, hlt⟩ := hs.taken event hmem
      have hq := hqueue event.resultTx
      rw [if_neg (Nat.ne_of_lt hlt)] at hq
      rw [hnext]
      exact ⟨by omega, Nat.lt_succ_of_lt hlt⟩
    · exact hs.unique
    · intro request sid hsid
      rw [hholders] at hsid
      exact hs.origin request sid hsid
    · intro event hmem
      rw [hholders]
      exact hs.fate event hmem
  rcases subscribe_cases hstep with ⟨-, rfl⟩ | rfl
  · exact hlater _ rfl rfl rfl fun request => Nat.le_add_right _ _
  · refine hlater _ rfl rfl rfl fun request => ?_
    unfold queued
    rw [flatMap_append, count_append]
    show _ + List.count request [s.nextRequest] ≤ _
    rw [count_singleton]
    by_cases hrequest : request = s.nextRequest
    · simp [hrequest]
    · simp [hrequest, Ne.symm hrequest]

/-- The invariant is kept by every step. -/
theorem step_requestInv (hs : s.RequestInv h) (hstep : s.step a = some s') :
    s'.RequestInv (h ++ s.records a) := by
  have hnone : ∀ {s' : State}, s'.RequestInv h → s'.RequestInv (h ++ []) := by
    intro s' hs'
    rwa [append_nil]
  cases a with
  | manager orders => exact hs.managerStep hstep
  | subscribe sid options => exact hnone (hs.subscribe hstep)
  | abandon request =>
    rw [abandon_cases hstep]
    exact hnone (hs.of_frame rfl rfl rfl fun _ => rfl)
  | sendInput event =>
    obtain ⟨-, hother, rfl | rfl⟩ := sendInput_cases hstep
    · exact hnone hs
    · refine hnone (hs.of_frame rfl rfl rfl fun request => ?_)
      have hrequests : event.requests = [] := by
        cases event with
        | subscribeRequest event => exact absurd rfl (hother event)
        | _ => rfl
      unfold queued
      rw [flatMap_append, flatMap_singleton, hrequests, append_nil]
  | task task st =>
    obtain ⟨t, -, hcases⟩ := taskStep_cases hstep
    rcases hcases with ⟨-, -, rfl⟩ | ⟨-, -, -, rfl⟩ | ⟨packet, rest, -, -, rfl⟩ | ⟨-, -, rfl⟩ |
      ⟨-, rfl⟩
    · exact hnone (hs.of_frame rfl rfl rfl fun _ => rfl)
    · exact hnone (hs.of_frame rfl rfl rfl fun _ => rfl)
    · obtain ⟨deliveries, he, -⟩ := s.receive_eq task t st packet rest
      rw [he]
      exact hnone (hs.of_frame rfl rfl rfl fun _ => rfl)
    · exact hnone (hs.of_frame rfl rfl rfl fun _ => rfl)
    · refine hnone (hs.of_frame rfl rfl rfl fun request => ?_)
      unfold queued
      rw [flatMap_append]
      show List.count request (_ ++ []) = _
      rw [append_nil]

end State

end LiveKit.DataTrack.Remote
