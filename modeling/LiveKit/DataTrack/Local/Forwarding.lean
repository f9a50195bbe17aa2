import LiveKit.DataTrack.Local.Registry

/-!
# From a publish request to a track

A publish request goes through the queue to the manager, which gives it a handle and a task that
forwards the result. `ForwardsTrack` says how requests, forwarding tasks, handles and tracks
belong together, and `not_handedOut_of_cancelled` what comes of it: when the manager is told that
a publication was cancelled, the application does not have the track, nor will it get it.
-/

namespace LiveKit.DataTrack.Local

open AList List AssocMap TransitionSystem

namespace State

/-- The caller of the request has the track, or had it. -/
def HasTrack (s : State) (request : RequestId) (id : TrackId) : Prop :=
  AList.lookup request s.requests = some (.returned id) ∨
    AList.lookup request s.requests = some (.dropped id)

/-- The track was returned for a publish request: it is on its way to the caller, or the caller
has it. -/
def HandedOut (s : State) (id : TrackId) : Prop :=
  (∃ request forward, AList.lookup request s.forwards = some forward ∧
    forward.phase = .running ∧ forward.result = some (.ok id)) ∨
  ∃ request, AList.lookup request s.requests = some (.returned id)

/-! ## What a step does to requests -/

/-- All that a step can do to a request, as far as tracks are concerned. -/
inductive RequestChange (s s' : State) (a : Action) (request : RequestId) :
    Option RequestState → RequestState → Prop
  | other (old : Option RequestState) (state : RequestState)
      (hreturned : ∀ id, state ≠ .returned id) (hdropped : ∀ id, state ≠ .dropped id) :
      RequestChange s s' a request old state
  | returned (old : Option RequestState) (forward : Forward) (id : TrackId)
      (hf : AList.lookup request s.forwards = some forward)
      (hphase : forward.phase = .running) (hresult : forward.result = some (.ok id))
      (hf' : AList.lookup request s'.forwards
        = some { forward with result := none, phase := .ended }) :
      RequestChange s s' a request old (.returned id)
  | dropped (id : TrackId) : RequestChange s s' a request (some (.returned id)) (.dropped id)

/-! ## What a step does to the tasks that forward -/

/-- All that a step can do to a forwarding task. -/
inductive ForwardChange (s s' : State) (a : Action) (request : RequestId) :
    Option Forward → Forward → Prop
  | spawn (old : Option Forward) (options : DataTrackOptions) (rest : List InputEvent)
      (handle : Handle) (allocator : HandleAllocator)
      (ha : a.isManager) (hqueue : s.queue = .publishRequest ⟨options, request⟩ :: rest)
      (hget : s.handleAllocator.get = some (handle, allocator)) (hrest : s'.queue = rest)
      (halloc : s'.handleAllocator = allocator) :
      ForwardChange s s' a request old ⟨handle, none, .running⟩
  | failed (forward : Forward) (err : PublishError) :
      ForwardChange s s' a request (some forward) { forward with result := some (.error err) }
  | created (forward : Forward) (info : DataTrackInfo) (turn : Turn) (ha : a = .manager turn)
      (hmode : s.mode = .creating info request) :
      ForwardChange s s' a request (some forward) { forward with result := some (.ok s.nextTrack) }
  | turn (forward : Forward) (move : ForwardMove) (phase : ForwardPhase)
      (ha : a = .forward request move) (hphase : forward.phase ≠ .ended)
      (hrunning : phase ≠ .running) :
      ForwardChange s s' a request (some forward) { forward with result := none, phase }

/-- Where neither map is touched. -/
theorem requests_same {s t : State} {a : Action} (hrequests : t.requests = s.requests)
    (hforwards : t.forwards = s.forwards) :
    Changes (RequestChange s t a) s.requests t.requests ∧
      Changes (ForwardChange s t a) s.forwards t.forwards := by
  rw [hrequests, hforwards]
  exact ⟨Changes.refl _ _, Changes.refl _ _⟩

variable {request : RequestId}

/-- Where a publication fails, its forwarding task has the error. -/
theorem forwards_failed {s t : State} {a : Action} {err : PublishError}
    {forwards' : AssocMap RequestId Forward}
    (h : Changes (HasResult request (.error err)) s.forwards forwards') :
    Changes (ForwardChange s t a) s.forwards forwards' := by
  apply h.mono
  rintro r old f' ⟨rfl, f, rfl, rfl⟩
  exact .failed f err

variable {turn : Turn} {forward : Forward} {id : TrackId} {s s' : State}

theorem eventTurn_requests {rest : List InputEvent} {event : InputEvent}
    (hqueue : s.queue = event :: rest) (hturn : EventTurn { s with queue := rest } turn event s') :
    Changes (RequestChange s s' (.manager turn)) s.requests s'.requests ∧
      Changes (ForwardChange s s' (.manager turn)) s.forwards s'.forwards := by
  cases hturn with
  | refuse event allocator requests' hle hrequests =>
    exact ⟨hrequests.mono fun _ _ _ h => .other _ _ h.1 h.2, Changes.refl _ _⟩
  | pend event handle allocator hget =>
    exact ⟨Changes.refl _ _, Changes.insert s.forwards
      (.spawn _ event.options rest handle allocator rfl hqueue hget rfl rfl)⟩
  | reject event resultTx err forwards' hd hresult hforwards =>
    exact ⟨Changes.refl _ _, forwards_failed hforwards⟩
  | _ => exact requests_same rfl rfl

theorem manager_requests (hturn : ManagerTurn s turn s') :
    Changes (RequestChange s s' (.manager turn)) s.requests s'.requests ∧
      Changes (ForwardChange s s' (.manager turn)) s.forwards s'.forwards := by
  cases hturn with
  | event event rest hmode hqueue s' hturn => exact eventTurn_requests hqueue hturn
  | publish info resultTx hmode forwards' tracks' hforwards =>
    refine ⟨Changes.refl _ _, hforwards.mono ?_⟩
    rintro r old f' ⟨rfl, f, rfl, rfl⟩
    exact .created f info turn rfl hmode
  | republishPending handle resultTx todo hmode forwards' hforwards
  | stopPending handle resultTx todo hmode forwards' hforwards =>
    exact ⟨Changes.refl _ _, forwards_failed hforwards⟩
  | stopEnd hmode requests' answers' hrequests =>
    exact ⟨hrequests.mono fun _ _ _ h => .other _ _ h.1 h.2, Changes.refl _ _⟩
  | _ => exact requests_same rfl rfl

theorem forward_requests {move : ForwardMove} (hf : lookup request s.forwards = some forward)
    (hturn : ForwardTurn s request forward s') :
    Changes (RequestChange s s' (.forward request move)) s.requests s'.requests ∧
      Changes (ForwardChange s s' (.forward request move)) s.forwards s'.forwards := by
  have hset : ∀ {t : State} {phase}, forward.phase ≠ .ended → phase ≠ .running →
      Changes (ForwardChange s t (.forward request move)) s.forwards
        (insert request { forward with result := none, phase } s.forwards) := by
    intro t phase hphase hrunning
    apply Changes.insert
    rw [hf]
    exact .turn forward move phase rfl hphase hrunning
  cases hturn with
  | deliver result state hphase hresult hstate =>
    refine ⟨Changes.insert s.requests ?_, hset (by simp [hphase]) (by simp)⟩
    rcases hstate with ⟨err, rfl⟩ | ⟨track, rfl, rfl⟩
    · exact .other _ _ (by simp) (by simp)
    · exact .returned _ forward track hf hphase hresult (lookup_insert _)
  | _ => exact ⟨Changes.refl _ _, hset (by simp [*]) (by simp)⟩

theorem step_requests {a : Action} (hstep : s.step a = some s') :
    Changes (RequestChange s s' a) s.requests s'.requests ∧
      Changes (ForwardChange s s' a) s.forwards s'.forwards := by
  rcases step_cases hstep with ⟨-, happ⟩ | ⟨turn, rfl, hturn⟩ |
    ⟨request, move, forward, rfl, hf, hturn⟩ | ⟨track, move, t, rfl, ht, hturn⟩
  · cases happ with
    | publish | refused | abandon =>
      exact ⟨Changes.insert s.requests (.other _ _ (by simp) (by simp)), Changes.refl _ _⟩
    | drop request track tracks' hreturned =>
      refine ⟨Changes.insert s.requests ?_, Changes.refl _ _⟩
      rw [hreturned]
      exact .dropped track
    | _ => exact requests_same rfl rfl
  · exact manager_requests hturn
  · exact forward_requests hf hturn
  · cases hturn with
    | _ => exact requests_same rfl rfl

/-! ## The invariant -/

/-- The request that a publish request in the queue is for. -/
def queuedRequest : InputEvent → Option RequestId
  | .publishRequest event => some event.resultTx
  | _ => none

structure ForwardsTrack (s : State) : Prop where
  request_lt : ∀ request forward, AList.lookup request s.forwards = some forward →
    request < s.nextRequest
  handle_le : ∀ request forward, AList.lookup request s.forwards = some forward →
    forward.handle.value ≤ s.handleAllocator.value
  forward_unique : ∀ request request' forward forward',
    AList.lookup request s.forwards = some forward →
    AList.lookup request' s.forwards = some forward' → forward.handle = forward'.handle →
    request = request'
  result_track : ∀ request forward id, AList.lookup request s.forwards = some forward →
    forward.result = some (.ok id) →
    ∃ t, AList.lookup id s.tracks = some t ∧ t.info.pubHandle = forward.handle
  returned_track : ∀ request id, s.HasTrack request id → ∃ forward t,
    AList.lookup request s.forwards = some forward ∧ forward.phase = .ended ∧
    AList.lookup id s.tracks = some t ∧ t.info.pubHandle = forward.handle
  pending_forward : ∀ handle request, s.Registered handle (.pending request) →
    ∃ forward, AList.lookup request s.forwards = some forward ∧ forward.handle = handle
  cancelled : ∀ handle, .publishCancelled ⟨handle⟩ ∈ s.queue → ∃ request forward,
    AList.lookup request s.forwards = some forward ∧ forward.handle = handle ∧
    forward.phase ≠ .running ∧ ∀ id, ¬ s.HasTrack request id
  queued_lt : ∀ request, request ∈ s.queue.filterMap queuedRequest → request < s.nextRequest
  queued_fresh : ∀ request, request ∈ s.queue.filterMap queuedRequest →
    AList.lookup request s.forwards = none
  queued_nodup : (s.queue.filterMap queuedRequest).Nodup

theorem new_forwardsTrack (provider : Option EncryptionProvider) :
    (new provider).ForwardsTrack where
  request_lt := by simp [new]
  handle_le := by simp [new]
  forward_unique := by simp [new]
  result_track := by simp [new]
  returned_track := by simp [new, HasTrack]
  pending_forward := by simp [new, Registered, Mode.held]
  cancelled := by simp [new]
  queued_lt := by simp [new]
  queued_fresh := by simp [new]
  queued_nodup := by simp [new]

variable {a : Action}

/-- Where a forwarding task comes from: it was there, or the request is the first in the queue. -/
theorem forward_origin (hstep : s.step a = some s') {forward' : Forward}
    (hf' : lookup request s'.forwards = some forward') :
    (∃ forward, lookup request s.forwards = some forward ∧
      forward'.handle = forward.handle ∧
      ∀ id, forward'.result = some (.ok id) → forward.result = some (.ok id) ∨
        ∃ turn info, a = .manager turn ∧ s.mode = .creating info request ∧ id = s.nextTrack) ∨
    ∃ options rest handle allocator, a.isManager = true ∧
      s.queue = .publishRequest ⟨options, request⟩ :: rest ∧ s'.queue = rest ∧
      s.handleAllocator.get = some (handle, allocator) ∧ s'.handleAllocator = allocator ∧
      forward' = ⟨handle, none, .running⟩ := by
  have hchange := (step_requests hstep).2.to_some hf'
  generalize hold : lookup request s.forwards = old at hchange ⊢
  rcases hchange with hsame | hchange
  · left
    exact ⟨forward', hsame, rfl, fun id hid => .inl hid⟩
  · cases hchange with
    | spawn old options rest handle allocator ha hqueue hget hrest halloc =>
      exact .inr ⟨options, rest, handle, allocator, ha, hqueue, hrest, hget, halloc, rfl⟩
    | failed forward | turn forward =>
      left
      refine ⟨forward, rfl, rfl, ?_⟩
      intro id hid
      cases hid
    | created forward info turn ha hmode =>
      left
      refine ⟨forward, rfl, rfl, ?_⟩
      intro id hid
      cases hid
      exact .inr ⟨turn, info, ha, hmode, rfl⟩

/-- A forwarding task stays; it does not start again. -/
theorem forward_kept (hs : s.ForwardsTrack) (hstep : s.step a = some s')
    (hf : lookup request s.forwards = some forward) :
    ∃ forward', lookup request s'.forwards = some forward' ∧
      forward'.handle = forward.handle ∧ (forward'.phase = .running → forward.phase = .running) ∧
      (forward.phase = .ended → forward'.phase = .ended) := by
  obtain ⟨forward', hf', hsame | hchange⟩ := (step_requests hstep).2.of_some hf
  · rw [hsame] at hf'
    exact ⟨forward, hf', rfl, id, id⟩
  · refine ⟨forward', hf', ?_⟩
    generalize hold : some forward = old at hchange
    cases hchange with
    | spawn old options rest handle allocator ha hqueue =>
      exfalso
      have hfresh := hs.queued_fresh request (by rw [hqueue]; simp [queuedRequest])
      rw [hf] at hfresh
      cases hfresh
    | failed | created =>
      cases hold
      exact ⟨rfl, id, id⟩
    | turn f move phase ha hphase hrunning =>
      cases hold
      exact ⟨rfl, fun h => absurd h hrunning, fun h => absurd h hphase⟩

/-- A caller that has a track after a step had it before, or the task that forwards it has just
delivered it. -/
theorem hasTrack_origin (hstep : s.step a = some s') (h : s'.HasTrack request id) :
    s.HasTrack request id ∨ ∃ forward, lookup request s.forwards = some forward ∧
      forward.phase = .running ∧ forward.result = some (.ok id) ∧
      lookup request s'.forwards = some { forward with result := none, phase := .ended } := by
  have horigin : ∀ state, (state = .returned id ∨ state = .dropped id) →
      lookup request s'.requests = some state →
      s.HasTrack request id ∨ ∃ forward, lookup request s.forwards = some forward ∧
        forward.phase = .running ∧ forward.result = some (.ok id) ∧
        lookup request s'.forwards
          = some { forward with result := none, phase := .ended } := by
    intro state hstate hlookup
    have hchange := (step_requests hstep).1.to_some hlookup
    unfold HasTrack
    generalize lookup request s.requests = old at hchange ⊢
    rcases hchange with hsame | hchange
    · rw [hsame]
      rcases hstate with rfl | rfl
      · exact .inl (.inl rfl)
      · exact .inl (.inr rfl)
    · cases hchange with
      | other old state hreturned hdropped =>
        rcases hstate with rfl | rfl
        · exact absurd rfl (hreturned id)
        · exact absurd rfl (hdropped id)
      | returned old forward track hf hphase hresult hf' =>
        rcases hstate with heq | heq
        · cases heq
          exact .inr ⟨forward, hf, hphase, hresult, hf'⟩
        · cases heq
      | dropped track =>
        rcases hstate with heq | heq
        · cases heq
        · cases heq
          exact .inl (.inl rfl)
  rcases h with h | h
  · exact horigin _ (.inl rfl) h
  · exact horigin _ (.inr rfl) h

/-- The requests in the queue are taken from its front, and a new one is put at its end. -/
theorem step_queuedRequests (hstep : s.step a = some s') :
    s.nextRequest ≤ s'.nextRequest ∧
      (List.Sublist (s'.queue.filterMap queuedRequest) (s.queue.filterMap queuedRequest) ∨
        s'.queue.filterMap queuedRequest = s.queue.filterMap queuedRequest ++ [s.nextRequest] ∧
          s'.nextRequest = s.nextRequest + 1) := by
  by_cases ha : a.isManager = false
  · obtain ⟨hchange, hnext⟩ := step_queue hstep ha
    have hle : s.nextRequest ≤ s'.nextRequest := by
      rcases hnext with hsame | ⟨_, -, hsucc⟩
      · rw [hsame]
      · rw [hsucc]
        exact Nat.le_succ _
    refine ⟨hle, ?_⟩
    generalize hq : s'.queue = queue' at hchange ⊢
    cases hchange with
    | same => exact .inl (List.Sublist.refl _)
    | publish options ha =>
      right
      rw [filterMap_append]
      refine ⟨rfl, ?_⟩
      subst ha
      rw [← Option.some.inj hstep]
      unfold publish
      simp only
      split
      · next hsome =>
        obtain ⟨-, -, rfl⟩ := enqueue_eq_some hsome
        rfl
      · rfl
    | cancelled | unpublish => exact .inl (by simp [queuedRequest])
    | other event hevent =>
      left
      cases event with
      | publishRequest event => cases hevent
      | _ => simp [queuedRequest]
  · cases a with
    | manager turn =>
      obtain ⟨hnext, ⟨-, event, hqueue⟩ | ⟨-, ⟨-, hqueue⟩ | ⟨-, -, hqueue⟩⟩⟩ :=
        managerTurn_queue (managerTurn hstep)
      · rw [hnext, hqueue]
        exact ⟨Nat.le_refl _, .inl ((sublist_cons_self event s'.queue).filterMap _)⟩
      · rw [hnext, hqueue]
        exact ⟨Nat.le_refl _, .inl (List.Sublist.refl _)⟩
      · rw [hnext, hqueue]
        exact ⟨Nat.le_refl _, .inl (nil_sublist _)⟩
    | _ => exact absurd rfl ha

variable {handle : Handle}

/-- The event of a cancelled publication was in the queue, or its task has just put it there. -/
theorem cancelled_origin (hstep : s.step a = some s') (h : .publishCancelled ⟨handle⟩ ∈ s'.queue) :
    .publishCancelled ⟨handle⟩ ∈ s.queue ∨ ∃ request forward,
      lookup request s.forwards = some forward ∧ forward.handle = handle ∧
      forward.phase = .cancelling := by
  by_cases ha : a.isManager = false
  · have hchange := (step_queue hstep ha).1
    generalize s'.queue = queue' at hchange h
    cases hchange with
    | same => exact .inl h
    | publish | unpublish => exact .inl (by simpa using h)
    | cancelled request move forward ha' hf hphase =>
      rcases mem_append.mp h with hmem | hmem
      · exact .inl hmem
      · obtain rfl : handle = forward.handle := by simpa using hmem
        exact .inr ⟨request, forward, hf, rfl, hphase⟩
    | other event hevent =>
      rcases mem_append.mp h with hmem | hmem
      · exact .inl hmem
      · rw [mem_singleton] at hmem
        rw [← hmem] at hevent
        cases hevent
  · left
    cases a with
    | manager turn =>
      obtain ⟨-, ⟨-, event, hqueue⟩ | ⟨-, ⟨-, hqueue⟩ | ⟨-, -, hqueue⟩⟩⟩ :=
        managerTurn_queue (managerTurn hstep)
      · rw [hqueue]
        exact mem_cons_of_mem _ h
      · rwa [hqueue] at h
      · rw [hqueue] at h
        cases h
    | _ => exact absurd rfl ha

/-- Handles are given out in increasing order. -/
theorem handleAllocator_le (hstep : s.step a = some s') :
    s.handleAllocator.value ≤ s'.handleAllocator.value := by
  rcases step_registered hstep with ⟨-, hle, -⟩ | ⟨_, _, _, hget, heq, -⟩ | ⟨_, _, _, -, heq, -⟩
  · exact hle
  · obtain ⟨hlt, hvalue⟩ := HandleAllocator.get_lt hget
    rw [heq, hvalue]
    exact UInt16.le_of_lt hlt
  · rw [heq]
    exact UInt16.le_refl _

section

variable (hs : s.ForwardsTrack) (hstep : s.step a = some s')

include hs hstep

/-- A new forwarding task has a handle above all others. -/
theorem forward_unique_step {request₁ request₂ : RequestId} {forward₁ forward₂ : Forward}
    (hf₁ : lookup request₁ s'.forwards = some forward₁)
    (hf₂ : lookup request₂ s'.forwards = some forward₂) (heq : forward₁.handle = forward₂.handle) :
    request₁ = request₂ := by
  have hnew : ∀ request forward handle allocator,
      lookup request s.forwards = some forward →
      s.handleAllocator.get = some (handle, allocator) → forward.handle ≠ handle := by
    intro request forward handle allocator hf hget heq
    have hle := hs.handle_le request forward hf
    rw [heq] at hle
    exact UInt16.not_le.mpr (HandleAllocator.get_lt hget).1 hle
  rcases forward_origin hstep hf₁ with
    ⟨old₁, hold₁, hhandle₁, -⟩ | ⟨_, _, handle₁, allocator₁, -, hqueue₁, -, hget₁, -, rfl⟩
  · rcases forward_origin hstep hf₂ with
      ⟨old₂, hold₂, hhandle₂, -⟩ | ⟨_, _, handle₂, allocator₂, -, -, -, hget₂, -, rfl⟩
    · rw [hhandle₁, hhandle₂] at heq
      exact hs.forward_unique request₁ request₂ old₁ old₂ hold₁ hold₂ heq
    · rw [hhandle₁] at heq
      exact absurd heq (hnew request₁ old₁ handle₂ allocator₂ hold₁ hget₂)
  · rcases forward_origin hstep hf₂ with
      ⟨old₂, hold₂, hhandle₂, -⟩ | ⟨_, _, handle₂, allocator₂, -, hqueue₂, -, hget₂, -, rfl⟩
    · rw [hhandle₂] at heq
      exact absurd heq.symm (hnew request₂ old₂ handle₁ allocator₁ hold₂ hget₁)
    · rw [hqueue₁] at hqueue₂
      cases hqueue₂
      rfl

/-- Of a cancelled publication in the queue the task goes on to be cancelled, and no application
has the track. -/
theorem cancelled_step (hmem : .publishCancelled ⟨handle⟩ ∈ s'.queue) : ∃ request forward,
      lookup request s'.forwards = some forward ∧ forward.handle = handle ∧
      forward.phase ≠ .running ∧ ∀ id, ¬ s'.HasTrack request id := by
  have hold : ∀ request forward, lookup request s.forwards = some forward →
      forward.handle = handle → forward.phase ≠ .running →
      (∀ id, ¬ s.HasTrack request id) → ∃ request forward,
        lookup request s'.forwards = some forward ∧ forward.handle = handle ∧
        forward.phase ≠ .running ∧ ∀ id, ¬ s'.HasTrack request id := by
    intro request forward hf hhandle hphase hnone
    obtain ⟨forward', hf', hsame, hrunning, -⟩ := forward_kept hs hstep hf
    refine ⟨request, forward', hf', hsame.trans hhandle, fun h => hphase (hrunning h), ?_⟩
    intro id hhas
    rcases hasTrack_origin hstep hhas with hbefore | ⟨f, hf₂, hphase₂, -⟩
    · exact hnone id hbefore
    · rw [hf, Option.some.injEq] at hf₂
      exact hphase (hf₂ ▸ hphase₂)
  rcases cancelled_origin hstep hmem with hqueue | ⟨request, forward, hf, hhandle, hphase⟩
  · obtain ⟨request, forward, hf, hhandle, hphase, hnone⟩ := hs.cancelled handle hqueue
    exact hold request forward hf hhandle hphase hnone
  · refine hold request forward hf hhandle (by simp [hphase]) ?_
    intro id hhas
    obtain ⟨f, t, hf₂, hended, -⟩ := hs.returned_track request id hhas
    rw [hf, Option.some.injEq] at hf₂
    rw [← hf₂, hphase] at hended
    cases hended

/-- A request in the queue has no forwarding task yet. -/
theorem queued_fresh_step (hmem : request ∈ s'.queue.filterMap queuedRequest) :
    lookup request s'.forwards = none := by
  obtain ⟨-, hqueued⟩ := step_queuedRequests hstep
  cases hf' : lookup request s'.forwards with
  | none => rfl
  | some forward' =>
    exfalso
    rcases forward_origin hstep hf' with
      ⟨forward, hf, -⟩ | ⟨_, rest, _, _, -, hqueue, hrest, -⟩
    · have hlt := hs.request_lt request forward hf
      rcases hqueued with hsub | ⟨heq, -⟩
      · have hfresh := hs.queued_fresh request (hsub.subset hmem)
        rw [hf] at hfresh
        cases hfresh
      · rw [heq, mem_append] at hmem
        rcases hmem with hmem | hmem
        · have hfresh := hs.queued_fresh request hmem
          rw [hf] at hfresh
          cases hfresh
        · rw [mem_singleton.mp hmem] at hlt
          exact Nat.lt_irrefl _ hlt
    · have hnodup := hs.queued_nodup
      rw [hqueue] at hnodup
      rw [hrest] at hmem
      exact (nodup_cons.mp hnodup).1 hmem

end

theorem step_forwardsTrack (hc : s.Consistent) (hs : s.ForwardsTrack)
    (hstep : s.step a = some s') : s'.ForwardsTrack := by
  obtain ⟨hnext, hqueued⟩ := step_queuedRequests hstep
  have hkept : ∀ request forward, lookup request s.forwards = some forward →
      ∃ forward', lookup request s'.forwards = some forward' ∧
        forward'.handle = forward.handle ∧
        (forward'.phase = .running → forward.phase = .running) ∧
        (forward.phase = .ended → forward'.phase = .ended) :=
    fun _ _ => forward_kept hs hstep
  have halloc := handleAllocator_le hstep
  constructor
  · -- `request_lt`
    intro request forward' hf'
    rcases forward_origin hstep hf' with
      ⟨forward, hf, -⟩ | ⟨options, rest, handle, allocator, -, hqueue, -⟩
    · exact Nat.lt_of_lt_of_le (hs.request_lt request forward hf) hnext
    · refine Nat.lt_of_lt_of_le (hs.queued_lt request ?_) hnext
      rw [hqueue]
      exact mem_cons_self
  · -- `handle_le`
    intro request forward' hf'
    rcases forward_origin hstep hf' with
      ⟨forward, hf, hhandle, -⟩ | ⟨options, rest, handle, allocator, -, -, -, hget, heq, rfl⟩
    · rw [hhandle]
      exact UInt16.le_trans (hs.handle_le request forward hf) halloc
    · rw [heq, (HandleAllocator.get_lt hget).2]
      exact UInt16.le_refl _
  · -- `forward_unique`
    exact fun _ _ _ _ hf₁ hf₂ heq => forward_unique_step hs hstep hf₁ hf₂ heq
  · -- `result_track`
    intro request forward' id hf' hresult
    rcases forward_origin hstep hf' with
      ⟨forward, hf, hhandle, horigin⟩ | ⟨_, _, handle, allocator, -, -, -, -, -, rfl⟩
    · rcases horigin id hresult with hold | ⟨turn, info, ha, hmode, rfl⟩
      · obtain ⟨t, ht, hsame⟩ := hs.result_track request forward id hf hold
        obtain ⟨t', ht', hkeep⟩ := handle_kept hc hstep ht
        exact ⟨t', ht', by rw [hkeep, hsame, hhandle]⟩
      · -- the track that this step creates
        subst ha
        obtain ⟨old, hold, hpending⟩ := hs.pending_forward info.pubHandle request <| by
          right
          rw [hmode]
          exact mem_singleton_self _
        rw [hf, Option.some.injEq] at hold
        obtain ⟨t', ht', hnew⟩ := created_track hstep hmode
        refine ⟨t', ht', ?_⟩
        rw [hhandle, hold, hpending]
        rcases hnew with rfl | rfl
        · rfl
        · rw [TrackState.send_info]
          rfl
    · cases hresult
  · -- `returned_track`
    intro request id hhas
    rcases hasTrack_origin hstep hhas with hold | ⟨forward, hf, hphase, hresult, hf'⟩
    · obtain ⟨forward, t, hf, hphase, ht, hhandle⟩ := hs.returned_track request id hold
      obtain ⟨forward', hf', hsame, -, hended⟩ := hkept request forward hf
      obtain ⟨t', ht', hkeep⟩ := handle_kept hc hstep ht
      exact ⟨forward', t', hf', hended hphase, ht', by rw [hkeep, hhandle, hsame]⟩
    · obtain ⟨t, ht, hhandle⟩ := hs.result_track request forward id hf hresult
      obtain ⟨t', ht', hkeep⟩ := handle_kept hc hstep ht
      exact ⟨_, t', hf', rfl, ht', by rw [hkeep, hhandle]⟩
  · -- `pending_forward`
    intro handle request hreg
    have hold : s.Registered handle (.pending request) →
        ∃ forward, lookup request s'.forwards = some forward ∧ forward.handle = handle := by
      intro hpending
      obtain ⟨forward, hf, hhandle⟩ := hs.pending_forward handle request hpending
      obtain ⟨forward', hf', hsame, -⟩ := hkept request forward hf
      exact ⟨forward', hf', hsame.trans hhandle⟩
    rcases step_registered hstep with
      ⟨hback, -⟩ | ⟨handle', _, resultTx, -, -, -, -, hf, hback⟩ | ⟨_, _, _, -, -, -, -, hback⟩
    · exact hold (hback _ _ hreg)
    · rcases hback _ _ hreg with hpending | ⟨rfl, hnew⟩
      · exact hold hpending
      · cases hnew
        exact ⟨_, hf, rfl⟩
    · rcases hback _ _ hreg with ⟨-, hc⟩ | ⟨-, hpending⟩
      · cases hc
      · exact hold hpending
  · -- `cancelled`
    exact fun _ hmem => cancelled_step hs hstep hmem
  · -- `queued_lt`
    intro request hmem
    rcases hqueued with hsub | ⟨heq, hsucc⟩
    · exact Nat.lt_of_lt_of_le (hs.queued_lt request (hsub.subset hmem)) hnext
    · rw [heq, mem_append] at hmem
      rw [hsucc]
      rcases hmem with hmem | hmem
      · exact Nat.lt_succ_of_lt (hs.queued_lt request hmem)
      · rw [mem_singleton.mp hmem]
        exact Nat.lt_succ_self _
  · -- `queued_fresh`
    exact fun _ hmem => queued_fresh_step hs hstep hmem
  · -- `queued_nodup`
    rcases hqueued with hsub | ⟨heq, -⟩
    · exact hs.queued_nodup.sublist hsub
    · rw [heq, nodup_append]
      refine ⟨hs.queued_nodup, nodup_singleton _, ?_⟩
      intro request hmem request' hmem' hsame
      rw [mem_singleton.mp hmem'] at hsame
      rw [hsame] at hmem
      exact Nat.lt_irrefl _ (hs.queued_lt _ hmem)

/-- When the manager is told that a publication was cancelled, the application does not have its
track, nor will it get it. -/
theorem not_handedOut_of_cancelled (hs : s.ForwardsTrack) {t : TrackState}
    (hmem : .publishCancelled ⟨handle⟩ ∈ s.queue) (ht : lookup id s.tracks = some t)
    (hhandle : t.info.pubHandle = handle) : ¬ s.HandedOut id := by
  obtain ⟨request, forward, hf, hsame, hphase, hnone⟩ := hs.cancelled handle hmem
  -- the track can have been sent to this request only
  have honly : ∀ request' forward' t', lookup request' s.forwards = some forward' →
      lookup id s.tracks = some t' → t'.info.pubHandle = forward'.handle →
      request' = request := by
    intro request' forward' t' hf' ht' hhandle'
    rw [ht, Option.some.injEq] at ht'
    apply hs.forward_unique request' request forward' forward hf' hf
    rw [hsame, ← hhandle', ← ht', hhandle]
  intro hout
  rcases hout with ⟨request', forward', hf', hrunning, hresult⟩ | ⟨request', hhas⟩
  · obtain ⟨t', ht', hhandle'⟩ := hs.result_track request' forward' id hf' hresult
    have heq := honly request' forward' t' hf' ht' hhandle'
    rw [heq, hf, Option.some.injEq] at hf'
    exact hphase (hf' ▸ hrunning)
  · obtain ⟨forward', t', hf', -, ht', hhandle'⟩ := hs.returned_track request' id (.inl hhas)
    have heq := honly request' forward' t' hf' ht' hhandle'
    exact hnone id (heq ▸ .inl hhas)

theorem HandedOut.track (hs : s.ForwardsTrack) (h : s.HandedOut id) :
    ∃ t, lookup id s.tracks = some t := by
  rcases h with ⟨request, forward, hf, -, hresult⟩ | ⟨request, hreturned⟩
  · obtain ⟨t, ht, -⟩ := hs.result_track request forward id hf hresult
    exact ⟨t, ht⟩
  · obtain ⟨-, t, -, -, ht, -⟩ := hs.returned_track request id (.inl hreturned)
    exact ⟨t, ht⟩

/-- A track that is handed out was handed out before, or this step creates it. -/
theorem handedOut_origin (hs : s.ForwardsTrack) (hstep : s.step a = some s') (h : s'.HandedOut id) :
    s.HandedOut id ∨
      ∃ turn info request, a = .manager turn ∧ s.mode = .creating info request ∧
        id = s.nextTrack := by
  rcases h with ⟨request, forward', hf', hphase', hresult'⟩ | ⟨request, hreturned⟩
  · rcases forward_origin hstep hf' with
      ⟨forward, hf, -, horigin⟩ | ⟨_, _, _, _, -, -, -, -, -, rfl⟩
    · rcases horigin id hresult' with hresult | ⟨turn, info, ha, hmode, hid⟩
      · obtain ⟨f, hf₂, -, hrunning, -⟩ := forward_kept hs hstep hf
        rw [hf', Option.some.injEq] at hf₂
        exact .inl (.inl ⟨request, forward, hf, hrunning (hf₂ ▸ hphase'), hresult⟩)
      · exact .inr ⟨turn, info, request, ha, hmode, hid⟩
    · cases hresult'
  · left
    have hchange := (step_requests hstep).1.to_some hreturned
    generalize hold : lookup request s.requests = old at hchange
    rcases hchange with hsame | hchange
    · exact .inr ⟨request, hold.trans hsame⟩
    · cases hchange with
      | other _ _ hnone => exact absurd rfl (hnone id)
      | returned _ forward _ hf hphase hresult =>
        exact .inl ⟨request, forward, hf, hphase, hresult⟩

/-! ## All of it -/

/-- What holds of every reachable state. -/
structure Coherent (s : State) : Prop extends Consistent s, Exclusive s, ForwardsTrack s

theorem new_coherent (provider : Option EncryptionProvider) : (new provider).Coherent :=
  ⟨new_consistent provider, new_exclusive provider, new_forwardsTrack provider⟩

theorem step_coherent (hs : s.Coherent) (hstep : s.step a = some s') : s'.Coherent :=
  ⟨step_consistent hs.toConsistent hstep, step_exclusive hs.toExclusive hstep,
    step_forwardsTrack hs.toConsistent hs.toForwardsTrack hstep⟩

end State

end LiveKit.DataTrack.Local
