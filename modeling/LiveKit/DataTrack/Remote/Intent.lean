import LiveKit.DataTrack.Remote.Requests

/-!
# What the SFU is told about subscriptions

For each track, the manager tells the SFU whether it wants packets. `Intent` is what it has said
since the track was published, and `Intent.Agrees` compares this with the subscription.
-/

namespace LiveKit.DataTrack.Remote

open AssocMap AList List TransitionSystem

/-! ## What the SFU has been told -/

/-- The event that goes to the room. -/
def Record.output : Record → Option OutputEvent
  | .did (.emit event) => some event
  | _ => none

/-- What the SFU has been told about a track since it was published last, and whether a request to
subscribe to it has been taken from the queue since. -/
structure Intent where
  updates : List Bool
  requested : Bool

namespace Intent

def next (sid : DataTrackSid) (i : Intent) : Record → Intent
  | .did (.emit (.trackPublished track)) => if track.info.sid = sid then ⟨[], false⟩ else i
  | .did (.emit (.sfuUpdateSubscription sid' subscribe)) =>
    if sid' = sid then { i with updates := i.updates ++ [subscribe] } else i
  | .received (.subscribeRequest event) =>
      if event.sid = sid then { i with requested := true } else i
  | _ => i

def of (sid : DataTrackSid) (h : List Record) : Intent := h.foldl (next sid) ⟨[], false⟩

/-- The SFU was last told to subscribe exactly when there is a subscription, and it was told
nothing if nobody has asked for one. -/
def Agrees (i : Intent) (subscription : SubscriptionState) : Prop :=
  (i.updates.getLast? = some true ↔ subscription ≠ .none) ∧
    (i.requested = false → i.updates = [])

end Intent

namespace State

/-- A request for a track with a subscription tells the SFU nothing, and a resend tells it once to
subscribe to each of these tracks, and nothing else. -/
structure TellsOnce (s : State) (a : Action) (s' : State) : Prop where
  again : ∀ orders event rest d, a = .manager orders → s.mode = .running →
    s.queue = .subscribeRequest event :: rest →
    AList.lookup event.sid s.manager.descriptors = some d → d.subscription ≠ .none →
      s'.outputs = s.outputs
  resend : ∀ orders rest, a = .manager orders → s.mode = .running →
    s.queue = .resendSubscriptionUpdates :: rest →
      ∃ sids : List DataTrackSid, sids.Nodup ∧
        (∀ sid, sid ∈ sids ↔
          ∃ d, AList.lookup sid s.manager.descriptors = some d ∧ d.subscription ≠ .none) ∧
        s'.outputs = s.outputs ++ sids.map fun sid => .sfuUpdateSubscription sid true

end State

/-! ## How an intent changes -/

namespace Intent

theorem agrees_init : (⟨[], false⟩ : Intent).Agrees .none := by
  unfold Agrees
  simp

variable {i : Intent} {subscription subscription' : SubscriptionState}

/-- Another message keeps the agreement when it says what the subscription is now. -/
theorem Agrees.tell (h : i.Agrees subscription) (hsome : subscription ≠ .none) {subscribe : Bool}
    (hsubscribe : subscribe = true ↔ subscription' ≠ .none) :
    ({ i with updates := i.updates ++ [subscribe] } : Intent).Agrees subscription' := by
  obtain ⟨hlast, hnone⟩ := h
  have hrequested : i.requested = true := by
    by_contra hfalse
    have hlast' := hlast.mpr hsome
    rw [hnone (by simpa using hfalse)] at hlast'
    cases hlast'
  unfold Agrees
  show ((i.updates ++ [subscribe]).getLast? = some true ↔ _) ∧ (i.requested = false → _)
  rw [getLast?_concat, Option.some.injEq, hrequested]
  exact ⟨hsubscribe, nofun⟩

theorem Agrees.congr (h : i.Agrees subscription)
    (hsome : subscription ≠ .none ↔ subscription' ≠ .none) :
    i.Agrees subscription' :=
  ⟨h.1.trans hsome, h.2⟩

/-- Records that say nothing to the room and bring no request leave an intent as it is. -/
theorem foldl_next_of_quiet {sid : DataTrackSid} {records : List Record}
    (h : ∀ r ∈ records, r.output = none ∧ ∀ event, r ≠ .received (.subscribeRequest event))
    (i : Intent) : records.foldl (next sid) i = i := by
  induction records with
  | nil => rfl
  | cons r rest ih =>
    have hr : next sid i r = i := by
      obtain ⟨houtput, hrequest⟩ := h r mem_cons_self
      cases r with
      | received event =>
        cases event with
        | subscribeRequest event => exact absurd rfl (hrequest event)
        | _ => rfl
      | did e =>
        cases e with
        | emit event => cases houtput
        | _ => rfl
    rw [foldl_cons, hr]
    exact ih fun r hr => h r (mem_cons_of_mem _ hr)

end Intent

namespace Manager

/-- What the manager does keeps an intent in agreement with the subscription. -/
def Follows (sid : DataTrackSid) (m : Manager) (result : Manager × List Effect) : Prop :=
  ∀ i : Intent,
    (∀ d, AList.lookup sid m.descriptors = some d → i.Agrees d.subscription) →
    ∀ d, AList.lookup sid result.1.descriptors = some d →
      ((result.2.map Record.did).foldl (Intent.next sid) i).Agrees d.subscription

variable {sid : DataTrackSid}

variable {m : Manager} {result : Manager × List Effect}

/-- Nothing is said, and the subscriptions there are were there before. -/
theorem Follows.of_quiet {m : Manager} {result : Manager × List Effect}
    (hquiet : ∀ e ∈ result.2, (Record.did e).output = none)
    (hsame : ∀ d, lookup sid result.1.descriptors = some d →
      ∃ d', lookup sid m.descriptors = some d' ∧
        (d'.subscription ≠ .none ↔ d.subscription ≠ .none)) : Follows sid m result := by
  intro i hi d hd
  obtain ⟨d', hd', hsome⟩ := hsame d hd
  have hrecords : ∀ r ∈ result.2.map Record.did,
      r.output = none ∧ ∀ event, r ≠ .received (.subscribeRequest event) := by
    intro r hr
    obtain ⟨e, he, rfl⟩ := mem_map.mp hr
    exact ⟨hquiet e he, by simp⟩
  rw [Intent.foldl_next_of_quiet hrecords]
  exact (hi d' hd').congr hsome

theorem forEach_follows {A : Type} {f : Manager → A → Manager × List Effect}
    (hf : ∀ m a, Follows sid m (f m a)) (m : Manager) (as : List A) :
    Follows sid m (m.forEach f as) := by
  induction as generalizing m with
  | nil =>
    intro i hi d hd
    exact hi d hd
  | cons a as ih =>
    intro i hi d hd
    rw [forEach_cons] at hd ⊢
    show (List.foldl _ i (List.map _ ((f m a).2 ++ _))).Agrees _
    rw [map_append, foldl_append]
    exact ih (f m a).1 _ (hf m a i hi) d hd

theorem handleTrackPublished_follows (m : Manager) (publisherIdentity : String)
    (info : DataTrackInfo) : Follows sid m (m.handleTrackPublished publisherIdentity info) := by
  rcases m.handleTrackPublished_cases publisherIdentity info with he | ⟨-, he⟩
  · rw [he]
    exact fun i hi => hi
  · rw [he]
    intro i hi d hd
    show (if info.sid = sid then (⟨[], false⟩ : Intent) else i).Agrees d.subscription
    by_cases hsid : info.sid = sid
    · rw [if_pos hsid]
      rw [← hsid, lookup_insert, Option.some.injEq] at hd
      rw [← hd]
      exact Intent.agrees_init
    · rw [if_neg hsid]
      rw [lookup_insert_ne (Ne.symm hsid)] at hd
      exact hi d hd

theorem handleTrackUnpublished_follows (m : Manager) (sid' : DataTrackSid) :
    Follows sid m (m.handleTrackUnpublished sid') := by
  rcases m.handleTrackUnpublished_cases sid' with ⟨-, he⟩ | ⟨d', subHandles, -, -, he⟩
  · rw [he]
    exact fun i hi => hi
  · rw [he]
    intro i hi d hd
    exact hi d (of_lookup_erase hd).2

theorem onSfuPublicationUpdates_follows (m : Manager) (orders : Orders)
    (event : SfuPublicationUpdates) : Follows sid m (m.onSfuPublicationUpdates orders event) := by
  have hpublish : ∀ m update, Follows sid m (detectPublished m update) := by
    intro m update
    rw [detectPublished_eq]
    apply forEach_follows
    intro m info
    unfold publishNew
    split
    · exact fun i hi => hi
    · exact m.handleTrackPublished_follows update.1 info
  have hunpublish : ∀ m participant, Follows sid m (detectUnpublished orders m participant) :=
    fun m participant => forEach_follows handleTrackUnpublished_follows m _
  unfold onSfuPublicationUpdates
  split
  · exact fun i hi => hi
  · intro i hi d hd
    have hfirst := forEach_follows hpublish m event.updates.toList i hi
    have hsecond := forEach_follows hunpublish (m.forEach detectPublished event.updates.toList).1
      _ _ hfirst d hd
    show (List.foldl _ i (List.map _ ((m.forEach detectPublished _).2 ++ _))).Agrees _
    rw [map_append, foldl_append]
    exact hsecond

theorem registerSubscriberHandle_follows (m : Manager) (entry : Handle × DataTrackSid) :
    Follows sid m (m.registerSubscriberHandle entry) := by
  obtain ⟨h, sid'⟩ := entry
  apply Follows.of_quiet
  · intro e he
    rcases m.registerSubscriberHandle_cases h sid' with
      ⟨-, hm⟩ | ⟨_, _, _, -, -, hm⟩ | ⟨_, _, _, -, -, hm⟩
    · rw [hm] at he
      cases he
    · rw [hm] at he
      cases he
    · rw [hm] at he
      rcases mem_cons.mp he with rfl | hresolve
      · rfl
      · obtain ⟨_, -, rfl⟩ := mem_map.mp hresolve
        rfl
  · intro d hd
    rcases m.registerSubscriberHandle_lookup h sid' sid with
      ⟨hsame, -⟩ | ⟨rfl, d', _, hd', hs, -, hlookup⟩
    · exact ⟨d, hsame.symm.trans hd, Iff.rfl⟩
    · rw [hlookup, Option.some.injEq] at hd
      rw [← hd]
      exact ⟨d', hd', by simp [hs]⟩

/-- A resend says of each subscription that it is wanted. -/
theorem onResendSubscriptionUpdates_follows (m : Manager) (orders : Orders) :
    Follows sid m (m.onResendSubscriptionUpdates orders) := by
  intro i hi d hd
  have hagrees := hi d hd
  have hentry : ∀ entry ∈ inOrder m.descriptors (orders 0),
      lookup entry.1 m.descriptors = some entry.2 :=
    fun entry hmem => (mem_inOrder _ _ _ _).mp hmem
  show (List.foldl _ i (List.map _ (List.filterMap _ _))).Agrees _
  clear hi
  revert hentry
  generalize inOrder m.descriptors (orders 0) = entries
  intro hentry
  induction entries generalizing i with
  | nil => exact hagrees
  | cons entry rest ih =>
    have hrest := fun entry hmem => hentry entry (mem_cons_of_mem _ hmem)
    rw [filterMap_cons]
    split
    · exact ih i hagrees hrest
    · next e he =>
      rw [map_cons, foldl_cons]
      refine ih _ ?_ hrest
      have hwanted : entry.2.subscription ≠ .none ∧
          e = .emit (.sfuUpdateSubscription entry.1 true) := by
        cases hs : entry.2.subscription with
        | none => simp [hs] at he
        | pending | active => simp_all
      rw [hwanted.2]
      show (if entry.1 = sid then _ else i).Agrees d.subscription
      by_cases hsid : entry.1 = sid
      · rw [if_pos hsid]
        have hlookup := hentry entry mem_cons_self
        rw [hsid] at hlookup
        obtain rfl : d = entry.2 := Option.some.inj (hd.symm.trans hlookup)
        exact hagrees.tell hwanted.1 (by simp [hwanted.1])
      · rw [if_neg hsid]
        exact hagrees

theorem onUnsubscribeRequest_follows (m : Manager) (event : UnsubscribeRequest) :
    Follows sid m (m.onUnsubscribeRequest event) := by
  rcases m.onUnsubscribeRequest_cases event with ⟨-, he⟩ | ⟨d', _, _, hd', hs, he⟩
  · rw [he]
    exact fun i hi => hi
  · rw [he]
    intro i hi d hd
    show (if event.sid = sid then _ else i).Agrees d.subscription
    rcases of_lookup_insert hd with ⟨rfl, rfl⟩ | ⟨hsid, hd⟩
    · rw [if_pos rfl]
      exact (hi d' hd').tell (by simp [hs]) (by simp)
    · rw [if_neg hsid.symm]
      exact hi d hd

/-- A request for a track without a subscription tells the SFU to subscribe. -/
theorem onSubscribeRequest_follows (m : Manager) (event : SubscribeRequest) (i : Intent)
    (hi : ∀ d, lookup sid m.descriptors = some d → i.Agrees d.subscription) (d : Descriptor)
    (hd : lookup sid (m.onSubscribeRequest event).1.descriptors = some d) :
    (((m.onSubscribeRequest event).2.map Record.did).foldl (Intent.next sid)
      (i.next sid (.received (.subscribeRequest event)))).Agrees d.subscription := by
  -- the request itself is noted
  have hnoted : ∀ d, lookup sid m.descriptors = some d →
      (i.next sid (.received (.subscribeRequest event))).Agrees d.subscription := by
    intro d hd
    obtain ⟨hlast, hnone⟩ := hi d hd
    unfold Intent.next
    simp only
    split
    · exact ⟨hlast, nofun⟩
    · exact ⟨hlast, hnone⟩
  rcases m.onSubscribeRequest_cases event with
    ⟨-, he⟩ | ⟨d', hd', hs, he⟩ | ⟨d', resultTxs, bufferSize, hd', hs, he⟩ | ⟨_, _, task, -, -, he⟩
  · rw [he] at hd ⊢
    exact hnoted d hd
  · rw [he] at hd ⊢
    rcases of_lookup_insert hd with ⟨rfl, rfl⟩ | ⟨hsid, hd⟩
    · unfold Intent.Agrees
      simp [Intent.next]
    · show (if event.sid = sid then _ else _ : Intent).Agrees _
      rw [if_neg (Ne.symm hsid)]
      exact hnoted d hd
  · rw [he] at hd ⊢
    rcases of_lookup_insert hd with ⟨rfl, rfl⟩ | ⟨-, hd⟩
    · exact (hnoted d' hd').congr (by simp [hs])
    · exact hnoted d hd
  · rw [he] at hd ⊢
    exact hnoted d hd

theorem handle_follows {orders : Orders} {event : InputEvent}
    (h : m.handle orders event = some result) (i : Intent)
    (hi : ∀ d, lookup sid m.descriptors = some d → i.Agrees d.subscription) (d : Descriptor)
    (hd : lookup sid result.1.descriptors = some d) :
    ((.received event :: result.2.map .did).foldl (Intent.next sid) i).Agrees d.subscription := by
  rw [foldl_cons]
  cases event with
  | subscribeRequest event =>
    cases h
    exact m.onSubscribeRequest_follows event i hi d hd
  | unsubscribeRequest event =>
    cases h
    exact m.onUnsubscribeRequest_follows event i hi d hd
  | sfuPublicationUpdates event =>
    cases h
    exact m.onSfuPublicationUpdates_follows orders event i hi d hd
  | sfuSubscriberHandles event =>
    cases h
    exact forEach_follows registerSubscriberHandle_follows m _ i hi d hd
  | packetReceived bytes =>
    cases h
    rcases m.onPacketReceived_cases bytes with he | ⟨task, packet, he⟩
    · rw [he] at hd ⊢
      exact hi d hd
    · rw [he] at hd ⊢
      exact hi d hd
  | resendSubscriptionUpdates =>
    cases h
    exact m.onResendSubscriptionUpdates_follows orders i hi d hd
  | shutdown => cases h

end Manager

namespace State

/-! ## Over a run -/

/-- What the SFU has been told agrees with the subscriptions. -/
def IntentInv (h : List Record) (s : State) : Prop :=
  ∀ sid d, AList.lookup sid s.manager.descriptors = some d →
    (Intent.of sid h).Agrees d.subscription

theorem init_intentInv (provider : Option DecryptionProvider) : IntentInv [] (init provider) := by
  intro sid d hd
  cases hd

variable {a : Action} {s s' : State}

/-- What a step puts on record: an event with what its handler does, or nothing that concerns
the tracks or the SFU. -/
theorem step_records (hstep : s.step a = some s') :
    (∃ orders event result, s.manager.handle orders event = some result ∧
      s.records a = .received event :: result.2.map .did ∧ s'.manager = result.1 ∧
      s'.outputs = s.outputs ++ emitted result.2) ∨
    (s'.manager = s.manager ∧ s'.outputs = s.outputs ∧
      ∀ r ∈ s.records a, r.output = none ∧ ∀ event, r ≠ .received (.subscribeRequest event)) := by
  cases a with
  | manager orders =>
    have hstopping : ∀ d todo, s.mode = .stopping (d :: todo) →
        ∀ r ∈ s.records (.manager orders),
          r.output = none ∧ ∀ event, r ≠ .received (.subscribeRequest event) := by
      intro d todo hmode r hr
      unfold records at hr
      simp only [hmode, mem_cons, mem_map] at hr
      rcases hr with rfl | ⟨_, -, rfl⟩
      · exact ⟨rfl, by simp⟩
      · exact ⟨rfl, by simp⟩
    rcases managerTurn hstep with ⟨event, rest, result, hmode, hqueue, hresult⟩ |
      ⟨event, rest, hmode, hqueue, hresult⟩ | hmode | ⟨d, todo, hmode, -⟩ |
      ⟨d, todo, resultTxs, _, hmode, -⟩ | ⟨d, todo, _, _, hmode, -⟩ |
      ⟨task, todo, t, hmode, -, -⟩
    · refine .inl ⟨orders, event, result, hresult, ?_, perform_manager _ _, perform_outputs _ _⟩
      unfold records
      simp only [hmode, hqueue, hresult]
    · refine .inr ⟨rfl, rfl, ?_⟩
      have hshutdown : event = .shutdown := by
        cases event <;> first | rfl | cases hresult
      unfold records
      simp only [hmode, hqueue, hresult]
      intro r hr
      rw [mem_singleton.mp hr, hshutdown]
      exact ⟨rfl, by simp⟩
    · obtain ⟨requests, he⟩ := dropQueue_frame { s with mode := .ended }
      rw [he]
      refine .inr ⟨rfl, rfl, ?_⟩
      unfold records
      simp [hmode]
    · exact .inr ⟨rfl, rfl, hstopping d todo hmode⟩
    · obtain ⟨requests, he⟩ :=
        failAll_frame (s.applyEffect (.sendUnpublished d.published)) resultTxs
      rw [he]
      exact .inr ⟨rfl, rfl, hstopping d todo hmode⟩
    · exact .inr ⟨rfl, rfl, hstopping d todo hmode⟩
    · refine .inr ⟨rfl, rfl, ?_⟩
      unfold records
      simp [hmode]
  | subscribe sid options =>
    rcases subscribe_cases hstep with ⟨-, rfl⟩ | rfl
    · exact .inr ⟨rfl, rfl, by simp [records]⟩
    · exact .inr ⟨rfl, rfl, by simp [records]⟩
  | abandon request =>
    rw [abandon_cases hstep]
    exact .inr ⟨rfl, rfl, by simp [records]⟩
  | sendInput event =>
    obtain ⟨-, -, rfl | rfl⟩ := sendInput_cases hstep
    · exact .inr ⟨rfl, rfl, by simp [records]⟩
    · exact .inr ⟨rfl, rfl, by simp [records]⟩
  | task task st =>
    obtain ⟨-, houtputs, hmanager⟩ := taskStep_frame hstep
    exact .inr ⟨hmanager, houtputs, by simp [records]⟩

theorem step_intentInv {h : List Record} (hs : IntentInv h s) (hstep : s.step a = some s') :
    IntentInv (h ++ s.records a) s' := by
  intro sid d hd
  unfold Intent.of
  rw [foldl_append]
  rcases step_records hstep with ⟨orders, event, result, hresult, hrecords, hmanager, -⟩ |
    ⟨hmanager, -, hquiet⟩
  · rw [hmanager] at hd
    rw [hrecords]
    exact Manager.handle_follows hresult _ (hs sid) d hd
  · rw [hmanager] at hd
    rw [Intent.foldl_next_of_quiet hquiet]
    exact hs sid d hd

/-- The events on record are those that went to the room. -/
theorem step_outputs {h : List Record} (hs : s.outputs = h.filterMap Record.output)
    (hstep : s.step a = some s') : s'.outputs = (h ++ s.records a).filterMap Record.output := by
  rw [filterMap_append, ← hs]
  rcases step_records hstep with ⟨_, event, result, -, hrecords, -, houtputs⟩ |
    ⟨-, houtputs, hquiet⟩
  · rw [houtputs, hrecords]
    congr 1
    unfold emitted
    rw [filterMap_cons_none rfl, filterMap_map]
    apply filterMap_congr
    intro e _
    cases e <;> rfl
  · have hnone : (s.records a).filterMap Record.output = [] :=
      filterMap_eq_nil_iff.mpr fun r hr => (hquiet r hr).1
    rw [houtputs, hnone, append_nil]

theorem step_tellsOnce (hstep : s.step a = some s') : TellsOnce s a s' := by
  have hturn : ∀ orders event rest result, a = .manager orders → s.mode = .running →
      s.queue = event :: rest → s.manager.handle orders event = some result →
      s'.outputs = s.outputs ++ emitted result.2 := by
    intro orders event rest result ha hmode hqueue hresult
    subst ha
    have hstep' : s.managerStep orders = some s' := hstep
    unfold managerStep at hstep'
    simp only [hmode, hqueue, hresult, Option.some.injEq] at hstep'
    rw [← hstep']
    exact perform_outputs _ _
  constructor
  · intro orders event rest d ha hmode hqueue hd hs
    rw [hturn orders _ rest _ ha hmode hqueue rfl]
    rcases s.manager.onSubscribeRequest_cases event with
      ⟨hnone, -⟩ | ⟨d', hd', hs', -⟩ | ⟨_, _, _, -, -, he⟩ | ⟨_, _, _, -, -, he⟩
    · rw [hd] at hnone
      cases hnone
    · rw [hd, Option.some.injEq] at hd'
      rw [hd'] at hs
      exact absurd hs' hs
    · rw [he]
      exact append_nil _
    · rw [he]
      exact append_nil _
  · intro orders rest ha hmode hqueue
    let entries := (inOrder s.manager.descriptors (orders 0)).filter fun entry =>
      decide (entry.2.subscription ≠ .none)
    have hnodup : (entries.map Prod.fst).Nodup := by
      have hkeys := (inOrder_iterOrder s.manager.descriptors (orders 0)).keys_nodup
      exact (filter_sublist.map Prod.fst).nodup hkeys
    refine ⟨entries.map Prod.fst, hnodup, ?_, ?_⟩
    · intro sid
      rw [mem_map]
      constructor
      · rintro ⟨⟨sid', d⟩, hmem, rfl⟩
        obtain ⟨hin, hsome⟩ := mem_filter.mp hmem
        exact ⟨d, (mem_inOrder _ _ _ _).mp hin, of_decide_eq_true hsome⟩
      · rintro ⟨d, hd, hsome⟩
        exact ⟨(sid, d), mem_filter.mpr
          ⟨(mem_inOrder _ _ _ _).mpr hd, decide_eq_true hsome⟩, rfl⟩
    · rw [hturn orders _ rest _ ha hmode hqueue rfl]
      congr 1
      show emitted (List.filterMap _ _) = _
      unfold emitted entries
      generalize inOrder s.manager.descriptors (orders 0) = all
      induction all with
      | nil => rfl
      | cons entry rest ih =>
        rw [filterMap_cons, filter_cons]
        cases hsub : entry.2.subscription with
        | none | pending | active => simpa [hsub] using ih

/-- **Subscribe requests and what the SFU is told.** Over any run, a request that the manager has
taken from its queue is answered once, or waits for the handle of its track and nowhere else, or
was dropped with its track. For each track there is, the SFU was last told to subscribe exactly
when there is a subscription, and it was told nothing if nobody has asked for one. A request for
a track with a subscription tells the SFU nothing more; a resend tells it to subscribe to exactly
the tracks with a subscription. -/
theorem requests_accounted (provider : Option DecryptionProvider) (run : List Action) :
    EachStep State.step TellsOnce (init provider) run ∧
      ∀ s, exec State.step (init provider) run = some s →
        s.outputs = (history provider run).filterMap Record.output ∧
        (∀ event, .received (.subscribeRequest event) ∈ history provider run →
          s.Accounted (history provider run) event) ∧
        ∀ sid d, AList.lookup sid s.manager.descriptors = some d →
          (Intent.of sid (history provider run)).Agrees d.subscription := by
  constructor
  · refine eachStep_of_invariant (I := fun _ => True) ?_ trivial
    intro s a _ s' _ hstep
    exact ⟨trivial, step_tellsOnce hstep⟩
  · intro s hexec
    have hrequests : s.RequestInv (history provider run) :=
      trace_invariant (I := fun h s => s.RequestInv h)
        (fun h s a s' hs hstep => step_requestInv hs hstep) (init_requestInv provider) hexec
    have hintent : s.IntentInv (history provider run) :=
      trace_invariant (I := IntentInv) (fun h s a s' hs hstep => step_intentInv hs hstep)
        (init_intentInv provider) hexec
    have houtputs : s.outputs = (history provider run).filterMap Record.output :=
      trace_invariant (h := []) (I := fun h s => s.outputs = h.filterMap Record.output)
        (fun h s a s' hs hstep => step_outputs hs hstep) rfl hexec
    exact ⟨houtputs, fun event => hrequests.accounted, hintent⟩

end State

end LiveKit.DataTrack.Remote
