import LiveKit.DataTrack.Local.System

/-!
# Rules for the system of the local manager

What each part of a step changes and what it leaves alone. `ManagerTurn` lists all that a turn of
the manager can be, `TaskTurn` all that a turn of a track task can be. `step_tracks` says what any
step does to the tracks, so that a result about tracks needs no case for each step.
-/

namespace LiveKit.DataTrack.Local

open AList List Option AssocMap TransitionSystem

namespace TrackState

@[simp] theorem send_info (state : PublishState) (t : TrackState) :
    (t.send state).info = t.info := by
  unfold send
  split <;> rfl

@[simp] theorem send_phase (state : PublishState) (t : TrackState) :
    (t.send state).phase = t.phase := by
  unfold send
  split <;> rfl

@[simp] theorem send_pipeline (state : PublishState) (t : TrackState) :
    (t.send state).pipeline = t.pipeline := by
  unfold send
  split <;> rfl

@[simp] theorem send_frames (state : PublishState) (t : TrackState) :
    (t.send state).frames = t.frames := by
  unfold send
  split <;> rfl

variable {t : TrackState}

theorem hasReceiver_of_phase (h : t.phase ≠ .ended) : t.hasReceiver = true := by
  simp [hasReceiver, h]

/-- A sent state is stored and marks the channel as changed. -/
theorem send_of_hasReceiver (h : t.hasReceiver = true) (state : PublishState) :
    t.send state = { t with state := state, changed := true } := if_pos h

/-- With no receiver left a sent state is lost. -/
theorem send_of_not_hasReceiver (h : t.hasReceiver = false) (state : PublishState) :
    t.send state = t := by
  unfold send
  rw [if_neg (by simp [h])]

/-- Unpublishing never takes a track out of the unpublished state. -/
theorem send_unpublished_state (h : t.state = .unpublished) :
    (t.send .unpublished).state = .unpublished := by
  unfold send
  split
  · rfl
  · exact h

end TrackState

/-! ## Changes of the tracks -/

/-- Every track is as before, or it was there and `P` says how it has changed. -/
def TracksChange (P : TrackId → TrackState → TrackState → Prop)
    (tracks tracks' : AssocMap TrackId TrackState) : Prop :=
  ∀ id, AList.lookup id tracks' = AList.lookup id tracks ∨
    ∃ t t', AList.lookup id tracks = some t ∧ AList.lookup id tracks' = some t' ∧ P id t t'

namespace TracksChange

variable {P Q : TrackId → TrackState → TrackState → Prop}
  {tracks tracks' tracks'' : AssocMap TrackId TrackState}

theorem refl (P : TrackId → TrackState → TrackState → Prop)
    (tracks : AssocMap TrackId TrackState) : TracksChange P tracks tracks := fun _ => .inl rfl

theorem mono (h : TracksChange P tracks tracks') (hPQ : ∀ id t t', P id t t' → Q id t t') :
    TracksChange Q tracks tracks' := by
  intro id
  rcases h id with hsame | ⟨t, t', ht, ht', hP⟩
  · exact .inl hsame
  · exact .inr ⟨t, t', ht, ht', hPQ id t t' hP⟩

/-- What becomes of a track. -/
theorem of_some (h : TracksChange P tracks tracks') {id : TrackId} {t : TrackState}
    (ht : lookup id tracks = some t) :
    ∃ t', lookup id tracks' = some t' ∧ (t' = t ∨ P id t t') := by
  rcases h id with hsame | ⟨u, t', hu, ht', hP⟩
  · exact ⟨t, hsame.trans ht, .inl rfl⟩
  · cases ht.symm.trans hu
    exact ⟨t', ht', .inr hP⟩

/-- Where a track comes from. -/
theorem to_some (h : TracksChange P tracks tracks') {id : TrackId} {t' : TrackState}
    (ht' : lookup id tracks' = some t') :
    ∃ t, lookup id tracks = some t ∧ (t' = t ∨ P id t t') := by
  rcases h id with hsame | ⟨t, u, ht, hu, hP⟩
  · exact ⟨t', hsame.symm.trans ht', .inl rfl⟩
  · cases ht'.symm.trans hu
    exact ⟨t, ht, .inr hP⟩

/-- A track that is replaced. -/
theorem insert {id : TrackId} {t t' : TrackState} (ht : lookup id tracks = some t)
    (hP : P id t t') : TracksChange P tracks (insert id t' tracks) := by
  intro id'
  rw [lookup_insert_ite]
  by_cases heq : id' = id
  · rw [if_pos heq, heq]
    exact .inr ⟨t, t', ht, rfl, hP⟩
  · rw [if_neg heq]
    exact .inl rfl

end TracksChange

namespace State

/-! ## Channels -/

/-- Modifying a track touches nothing else. -/
theorem modifyTrack_eq (s : State) (track : TrackId) (f : TrackState → TrackState) :
    ∃ tracks', s.modifyTrack track f = { s with tracks := tracks' } ∧
      TracksChange (fun id t t' => id = track ∧ t' = f t) s.tracks tracks' := by
  unfold modifyTrack
  cases ht : lookup track s.tracks with
  | none => exact ⟨s.tracks, rfl, TracksChange.refl _ _⟩
  | some t => exact ⟨_, rfl, TracksChange.insert ht ⟨rfl, rfl⟩⟩

variable {s : State} {track : TrackId}

/-- A known track is replaced by what the change makes of it. -/
theorem modifyTrack_lookup {t : TrackState} (ht : lookup track s.tracks = some t)
    (f : TrackState → TrackState) :
    s.modifyTrack track f = { s with tracks := insert track (f t) s.tracks } := by
  unfold modifyTrack
  rw [ht]

/-- `t'` is `t`, after its watch channel was sent the end of the publication. -/
abbrev Unpublishes (_id : TrackId) (t t' : TrackState) : Prop := t' = t.send .unpublished

/-- Dropping a result at most unpublishes the track in it. -/
theorem dropResult_eq (s : State) (result : Except PublishError TrackId) :
    ∃ tracks', s.dropResult result = { s with tracks := tracks' } ∧
      TracksChange Unpublishes s.tracks tracks' := by
  cases result with
  | error err => exact ⟨s.tracks, rfl, TracksChange.refl _ _⟩
  | ok track =>
    obtain ⟨tracks', he, hchange⟩ := s.modifyTrack_eq track (.send .unpublished)
    exact ⟨tracks', he, hchange.mono fun _ _ _ h => h.2⟩

/-- The caller gets the result, or it is dropped. -/
theorem resolve_cases (s : State) (request : RequestId) (result : Except PublishError TrackId) :
    (∃ state, ((∃ err, state = .failed err) ∨ ∃ track, state = .returned track ∧
        result = .ok track) ∧
      s.resolve request result
        = { s with requests := insert request state s.requests }) ∨
    s.resolve request result = s.dropResult result := by
  unfold resolve
  cases hr : lookup request s.requests with
  | none => exact .inr rfl
  | some state =>
    cases state with
    | waiting =>
      left
      cases result with
      | ok track => exact ⟨_, .inr ⟨track, rfl, rfl⟩, rfl⟩
      | error err => exact ⟨_, .inl ⟨err, rfl⟩, rfl⟩
    | returned | failed | abandoned | dropped => exact .inr rfl

/-- The forwarding task gets the result, or it is dropped because that task is gone. -/
theorem sendResult_cases (s : State) (request : RequestId)
    (result : Except PublishError TrackId) :
    (∃ forward, lookup request s.forwards = some forward ∧ forward.phase = .running ∧
      s.sendResult request result = { s with
        forwards := insert request { forward with result := some result } s.forwards }) ∨
    s.isClosed request = true ∧ s.sendResult request result = s.dropResult result := by
  unfold sendResult isClosed
  cases hf : lookup request s.forwards with
  | none => exact .inr ⟨rfl, rfl⟩
  | some forward =>
    by_cases hphase : forward.phase = .running
    · exact .inl ⟨forward, rfl, hphase, if_pos hphase⟩
    · exact .inr ⟨by simp [hphase], if_neg hphase⟩

/-- A request without a track. -/
abbrev NoTrack (_request : RequestId) (_old : Option RequestState) (state : RequestState) : Prop :=
  (∀ id, state ≠ .returned id) ∧ ∀ id, state ≠ .dropped id

/-- An error for a caller changes its request only. -/
theorem resolve_error_eq (s : State) (request : RequestId) (err : PublishError) :
    ∃ requests', s.resolve request (.error err) = { s with requests := requests' } ∧
      Changes NoTrack s.requests requests' := by
  rcases s.resolve_cases request (.error err) with ⟨state, ⟨err', rfl⟩ | ⟨track, -, hc⟩, he⟩ | he
  · exact ⟨_, he, Changes.insert s.requests ⟨by simp, by simp⟩⟩
  · cases hc
  · exact ⟨s.requests, he, Changes.refl _ _⟩

/-- The task that forwards the result of the request has got it. -/
abbrev HasResult (request : RequestId) (result : Except PublishError TrackId) (r : RequestId)
    (old : Option Forward) (forward' : Forward) : Prop :=
  r = request ∧ ∃ forward, old = some forward ∧ forward' = { forward with result := some result }

/-- An error for a forwarding task changes that task only. -/
theorem sendResult_error_eq (s : State) (request : RequestId) (err : PublishError) :
    ∃ forwards', s.sendResult request (.error err) = { s with forwards := forwards' } ∧
      Changes (HasResult request (.error err)) s.forwards forwards' := by
  rcases s.sendResult_cases request (.error err) with ⟨forward, hf, -, he⟩ | ⟨-, he⟩
  · exact ⟨_, he, Changes.insert s.forwards ⟨rfl, forward, hf, rfl⟩⟩
  · exact ⟨s.forwards, he, Changes.refl _ _⟩

/-- What is dropped with the queue answers those who wait for an answer of the events in it. -/
theorem dropEvents_eq (events : List InputEvent) (s : State) : ∃ requests' answers',
    events.foldl dropEvent s = { s with requests := requests', answers := answers' } ∧
      Changes NoTrack s.requests requests' ∧ s.answers <+: answers' ∧
      ∀ query, .queryPublished ⟨query⟩ ∈ events → query ∈ answers'.map Prod.fst := by
  induction events generalizing s with
  | nil => exact ⟨s.requests, s.answers, rfl, Changes.refl _ _, prefix_rfl, by simp⟩
  | cons event rest ih =>
    obtain ⟨requests', answers', he, hrequests, hgrows, hanswered⟩ := ih (s.dropEvent event)
    rw [foldl_cons, he]
    cases event with
    | publishRequest event =>
      obtain ⟨requests₁, he₁, hrequests₁⟩ := s.resolve_error_eq event.resultTx .disconnected
      rw [dropEvent, he₁] at hrequests hgrows ⊢
      refine ⟨requests', answers', rfl, ?_, hgrows, by simpa using hanswered⟩
      intro request
      rcases hrequests request with hsame | ⟨state, hstate, hnone⟩
      · rw [hsame]
        exact hrequests₁ request
      · exact .inr ⟨state, hstate, hnone⟩
    | queryPublished event =>
      refine ⟨requests', answers', rfl, hrequests, (prefix_append _ _).trans hgrows, ?_⟩
      intro query hmem
      rcases mem_cons.mp hmem with heq | hmem
      · cases heq
        apply (hgrows.map Prod.fst).subset
        show query ∈ (s.answers ++ [(query, [])]).map Prod.fst
        simp
      · exact hanswered query hmem
    | _ => exact ⟨requests', answers', rfl, hrequests, hgrows, by simpa using hanswered⟩

/-- A descriptor is removed; an active track is unpublished by that, if it was not. -/
theorem removeDescriptor_eq (s : State) (handle : Handle) :
    ∃ descriptors' tracks', s.removeDescriptor handle
        = { s with descriptors := descriptors', tracks := tracks' } ∧
      (∀ h, lookup h descriptors'
        = if h = handle then none else lookup h s.descriptors) ∧
      TracksChange Unpublishes s.tracks tracks' ∧
      ∀ track t, lookup handle s.descriptors = some (.active track) →
        lookup track s.tracks = some t → ∃ t', lookup track tracks' = some t' ∧
          (t' = t ∧ t.state = .unpublished ∨ t' = t.send .unpublished) := by
  have herase : ∀ h, lookup h (erase handle s.descriptors)
      = if h = handle then none else lookup h s.descriptors :=
    lookup_erase_ite s.descriptors handle
  unfold removeDescriptor
  cases hd : lookup handle s.descriptors with
  | none =>
    refine ⟨s.descriptors, s.tracks, rfl, ?_, TracksChange.refl _ _, by simp⟩
    intro h
    split
    · next heq => rw [heq, hd]
    · rfl
  | some descriptor =>
    cases descriptor with
    | pending resultTx => exact ⟨_, s.tracks, rfl, herase, TracksChange.refl _ _, by simp⟩
    | active track =>
      simp only
      split
      · next hstate =>
        obtain ⟨tracks', he, hchange⟩ := modifyTrack_eq
          { s with descriptors := erase handle s.descriptors } track (.send .unpublished)
        refine ⟨_, tracks', he, herase, hchange.mono fun _ _ _ h => h.2, ?_⟩
        intro track' t htrack ht
        cases htrack
        have hlookup := modifyTrack_lookup
          (s := { s with descriptors := erase handle s.descriptors }) ht (.send .unpublished)
        rw [he] at hlookup
        refine ⟨t.send .unpublished, ?_, .inr rfl⟩
        rw [show tracks' = _ from congrArg State.tracks hlookup, lookup_insert]
      · next hstate =>
        refine ⟨_, s.tracks, rfl, herase, TracksChange.refl _ _, ?_⟩
        intro track' t htrack ht
        cases htrack
        refine ⟨t, ht, .inl ⟨rfl, ?_⟩⟩
        rw [not_not] at hstate
        unfold publishState at hstate
        rw [show lookup track s.tracks = some t from ht] at hstate
        exact some.inj hstate

/-! ## All that a turn of the manager can be -/

/-- What the manager makes of an event, written out. -/
inductive EventTurn (s : State) (turn : Turn) : InputEvent → State → Prop
  | refuse (event : PublishRequest) (allocator : HandleAllocator)
      (requests' : AssocMap RequestId RequestState)
      (hle : s.handleAllocator.value ≤ allocator.value)
      (hrequests : Changes NoTrack s.requests requests') :
      EventTurn s turn (.publishRequest event)
        { s with handleAllocator := allocator, requests := requests' }
  | pend (event : PublishRequest) (handle : Handle) (allocator : HandleAllocator)
      (hget : s.handleAllocator.get = some (handle, allocator)) :
      EventTurn s turn (.publishRequest event) { s with
        handleAllocator := allocator
        descriptors := AList.insert handle (.pending event.resultTx) s.descriptors
        forwards := AList.insert event.resultTx ⟨handle, none, .running⟩ s.forwards
        outputs := s.outputs ++ [.sfuPublishRequest
          ⟨handle, event.options.name, s.encryptionProvider.isSome⟩] }
  | cancel (event : PublishCancelled) : EventTurn s turn (.publishCancelled event)
      { s with descriptors := AList.erase event.handle s.descriptors }
  | answer (event : QueryPublished) (published : List DataTrackInfo) :
      EventTurn s turn (.queryPublished event)
        { s with answers := s.answers ++ [(event.resultTx, published)] }
  | unpublish (event : UnpublishRequest) (descriptors' : AssocMap Handle Descriptor)
      (tracks' : AssocMap TrackId TrackState)
      (hdescriptors : ∀ h, AList.lookup h descriptors'
        = if h = event.handle then none else AList.lookup h s.descriptors)
      (htracks : TracksChange Unpublishes s.tracks tracks') :
      EventTurn s turn (.unpublishRequest event) { s with
        descriptors := descriptors'
        tracks := tracks'
        outputs := s.outputs ++ [.sfuUnpublishRequest ⟨event.handle⟩] }
  | unpublished (event : SfuUnpublishResponse) (descriptors' : AssocMap Handle Descriptor)
      (tracks' : AssocMap TrackId TrackState)
      (hdescriptors : ∀ h, AList.lookup h descriptors'
        = if h = event.handle then none else AList.lookup h s.descriptors)
      (htracks : TracksChange Unpublishes s.tracks tracks') :
      EventTurn s turn (.sfuUnpublishResponse event)
        { s with descriptors := descriptors', tracks := tracks' }
  | unknown (event : SfuPublishResponse) (hd : AList.lookup event.handle s.descriptors = none) :
      EventTurn s turn (.sfuPublishResponse event)
        { s with outputs := s.outputs ++ [.sfuUnpublishRequest ⟨event.handle⟩] }
  | late (event : SfuPublishResponse) (resultTx : RequestId)
      (hd : AList.lookup event.handle s.descriptors = some (.pending resultTx))
      (hclosed : s.isClosed resultTx = true) :
      EventTurn s turn (.sfuPublishResponse event)
        { s with descriptors := AList.erase event.handle s.descriptors }
  | accept (event : SfuPublishResponse) (resultTx : RequestId) (info : DataTrackInfo)
      (hd : AList.lookup event.handle s.descriptors = some (.pending resultTx))
      (hresult : event.result = .ok info) :
      EventTurn s turn (.sfuPublishResponse event) { s with
        descriptors := AList.erase event.handle s.descriptors
        mode := .creating info resultTx }
  | reject (event : SfuPublishResponse) (resultTx : RequestId) (err : PublishError)
      (forwards' : AssocMap RequestId Forward)
      (hd : AList.lookup event.handle s.descriptors = some (.pending resultTx))
      (hresult : event.result = .error err)
      (hforwards : Changes (HasResult resultTx (.error err)) s.forwards forwards') :
      EventTurn s turn (.sfuPublishResponse event) { s with
        descriptors := AList.erase event.handle s.descriptors
        forwards := forwards' }
  | forget (event : SfuPublishResponse) (track : TrackId)
      (hd : AList.lookup event.handle s.descriptors = some (.active track))
      (hresult : s.publishState track ≠ some .republishing ∨ ∃ err, event.result = .error err) :
      EventTurn s turn (.sfuPublishResponse event)
        { s with descriptors := AList.erase event.handle s.descriptors }
  | respond (event : SfuPublishResponse) (track : TrackId) (info : DataTrackInfo)
      (hd : AList.lookup event.handle s.descriptors = some (.active track))
      (hstate : s.publishState track = some .republishing) (hresult : event.result = .ok info) :
      EventTurn s turn (.sfuPublishResponse event) { s with
        descriptors := AList.erase event.handle s.descriptors
        mode := .responding event.handle track info.sid }
  | republish : EventTurn s turn .republishTracks
      { s with mode := .republishing (inOrder s.descriptors turn.order), descriptors := ∅ }
  | shutdown : EventTurn s turn .shutdown
      { s with mode := .stopping (inOrder s.descriptors turn.order), descriptors := ∅ }

/-- Every event the manager handles is one of the turns. -/
theorem eventTurn (s : State) (turn : Turn) (event : InputEvent) :
    EventTurn s turn event (s.handle turn event) := by
  cases event with
  | publishRequest event =>
    show EventTurn s turn _ (s.onPublishRequest event)
    unfold onPublishRequest
    cases hget : s.handleAllocator.get with
    | none =>
      obtain ⟨requests', he, hrequests⟩ := s.resolve_error_eq event.resultTx .limitReached
      simp only [he]
      exact .refuse event s.handleAllocator requests' (UInt16.le_refl _) hrequests
    | some result =>
      obtain ⟨handle, allocator⟩ := result
      obtain ⟨hlt, heq⟩ := HandleAllocator.get_lt hget
      by_cases hmem : handle ∈ s.descriptors
      · obtain ⟨requests', he, hrequests⟩ := resolve_error_eq
          { s with handleAllocator := allocator } event.resultTx
          (.internal "Descriptor for handle already exists")
        simp only [if_pos hmem, he]
        exact .refuse event allocator requests' (heq ▸ UInt16.le_of_lt hlt) hrequests
      · simp only [if_neg hmem]
        exact .pend event handle allocator hget
  | publishCancelled event => exact .cancel event
  | queryPublished event => exact .answer event _
  | unpublishRequest event =>
    obtain ⟨descriptors', tracks', he, hdescriptors, htracks, -⟩ :=
      s.removeDescriptor_eq event.handle
    rw [State.handle, onUnpublishRequest, he]
    exact .unpublish event descriptors' tracks' hdescriptors htracks
  | sfuPublishResponse event =>
    show EventTurn s turn _ (s.onSfuPublishResponse event)
    unfold onSfuPublishResponse
    cases hd : lookup event.handle s.descriptors with
    | none => exact .unknown event hd
    | some descriptor =>
      cases descriptor with
      | pending resultTx =>
        simp only
        split
        · next hclosed => exact .late event resultTx hd hclosed
        · cases hresult : event.result with
          | ok info => exact .accept event resultTx info hd hresult
          | error err =>
            obtain ⟨forwards', he, hforwards⟩ := sendResult_error_eq
              { s with descriptors := erase event.handle s.descriptors } resultTx err
            simp only [he]
            exact .reject event resultTx err forwards' hd hresult hforwards
      | active track =>
        simp only
        split
        · next hstate => exact .forget event track hd (.inl hstate)
        · next hstate =>
          cases hresult : event.result with
          | ok info => exact .respond event track info hd (not_not.mp hstate) hresult
          | error err => exact .forget event track hd (.inr ⟨err, hresult⟩)
  | sfuUnpublishResponse event =>
    obtain ⟨descriptors', tracks', he, hdescriptors, htracks, -⟩ :=
      s.removeDescriptor_eq event.handle
    rw [State.handle, onSfuUnpublishResponse, he]
    exact .unpublished event descriptors' tracks' hdescriptors htracks
  | republishTracks => exact .republish
  | shutdown => exact .shutdown

/-- The turns of the manager, by its mode. -/
inductive ManagerTurn (s : State) (turn : Turn) : State → Prop
  | event (event : InputEvent) (rest : List InputEvent) (hmode : s.mode = .running)
      (hqueue : s.queue = event :: rest) (s' : State)
      (hturn : EventTurn { s with queue := rest } turn event s') : ManagerTurn s turn s'
  | publish (info : DataTrackInfo) (resultTx : RequestId)
      (hmode : s.mode = .creating info resultTx) (forwards' : AssocMap RequestId Forward)
      (tracks' : AssocMap TrackId TrackState)
      (hforwards : Changes (HasResult resultTx (.ok s.nextTrack)) s.forwards forwards')
      (htracks : TracksChange Unpublishes
        (AList.insert s.nextTrack (s.newTrack info turn) s.tracks) tracks') :
      ManagerTurn s turn { s with
        mode := .running
        nextTrack := s.nextTrack + 1
        descriptors := AList.insert info.pubHandle (.active s.nextTrack) s.descriptors
        forwards := forwards'
        tracks := tracks' }
  | respond (handle : Handle) (track : TrackId) (sid : DataTrackSid)
      (hmode : s.mode = .responding handle track sid) (tracks' : AssocMap TrackId TrackState)
      (htracks : TracksChange (fun id t t' => id = track ∧ t' = (t.setSid sid).send .published)
        s.tracks tracks') :
      ManagerTurn s turn { s with
        mode := .running
        descriptors := AList.insert handle (.active track) s.descriptors
        tracks := tracks' }
  | republishEnd (hmode : s.mode = .republishing []) :
      ManagerTurn s turn { s with mode := .running }
  | republishPending (handle : Handle) (resultTx : RequestId) (todo : List (Handle × Descriptor))
      (hmode : s.mode = .republishing ((handle, .pending resultTx) :: todo))
      (forwards' : AssocMap RequestId Forward)
      (hforwards : Changes (HasResult resultTx (.error .disconnected)) s.forwards forwards') :
      ManagerTurn s turn { s with mode := .republishing todo, forwards := forwards' }
  | mark (handle : Handle) (track : TrackId) (todo : List (Handle × Descriptor))
      (hmode : s.mode = .republishing ((handle, .active track) :: todo))
      (tracks' : AssocMap TrackId TrackState)
      (htracks : TracksChange (fun id t t' => id = track ∧ t' = t.send .republishing)
        s.tracks tracks') :
      ManagerTurn s turn { s with mode := .requesting handle track todo, tracks := tracks' }
  | request (handle : Handle) (track : TrackId) (todo : List (Handle × Descriptor))
      (hmode : s.mode = .requesting handle track todo) (outputs' : List OutputEvent)
      (houtputs : outputs' = s.outputs ∨ ∃ t, AList.lookup track s.tracks = some t ∧
        outputs' = s.outputs ++
          [.sfuPublishRequest ⟨t.info.pubHandle, t.info.name, t.info.usesE2ee⟩]) :
      ManagerTurn s turn { s with
        mode := .republishing todo
        outputs := outputs'
        descriptors := AList.insert handle (.active track) s.descriptors }
  | stopEnd (hmode : s.mode = .stopping []) (requests' : AssocMap RequestId RequestState)
      (answers' : List (QueryId × List DataTrackInfo))
      (hrequests : Changes NoTrack s.requests requests') (hgrows : s.answers <+: answers')
      (hanswered : ∀ query, .queryPublished ⟨query⟩ ∈ s.queue → query ∈ answers'.map Prod.fst) :
      ManagerTurn s turn
        { s with mode := .ended, requests := requests', answers := answers', queue := [] }
  | stopPending (handle : Handle) (resultTx : RequestId) (todo : List (Handle × Descriptor))
      (hmode : s.mode = .stopping ((handle, .pending resultTx) :: todo))
      (forwards' : AssocMap RequestId Forward)
      (hforwards : Changes (HasResult resultTx (.error .disconnected)) s.forwards forwards') :
      ManagerTurn s turn { s with mode := .stopping todo, forwards := forwards' }
  | stopActive (handle : Handle) (track : TrackId) (todo : List (Handle × Descriptor))
      (hmode : s.mode = .stopping ((handle, .active track) :: todo))
      (tracks' : AssocMap TrackId TrackState) (htracks : TracksChange Unpublishes s.tracks tracks')
      (hsent : ∀ t, AList.lookup track s.tracks = some t →
        tracks' = AList.insert track (t.send .unpublished) s.tracks) :
      ManagerTurn s turn { s with mode := .awaiting track todo, tracks := tracks' }
  | awaited (track : TrackId) (todo : List (Handle × Descriptor)) (t : TrackState)
      (hmode : s.mode = .awaiting track todo) (ht : AList.lookup track s.tracks = some t)
      (hphase : t.phase = .ended) : ManagerTurn s turn { s with mode := .stopping todo }

/-- A new track; it is unpublished at once if nobody waits for it any more. -/
theorem publishTrack_turn {info : DataTrackInfo} {resultTx : RequestId}
    (hmode : s.mode = .creating info resultTx) (turn : Turn) :
    ManagerTurn s turn (s.publishTrack info resultTx turn) := by
  unfold publishTrack
  rcases sendResult_cases (createLocalTrack { s with mode := .running } info turn) resultTx
    (.ok s.nextTrack) with ⟨forward, hf, -, he⟩ | ⟨-, he⟩
  · rw [he]
    exact .publish info resultTx hmode _ _
      (Changes.insert s.forwards ⟨rfl, forward, hf, rfl⟩) (TracksChange.refl _ _)
  · obtain ⟨tracks', he', htracks⟩ := dropResult_eq
      (createLocalTrack { s with mode := .running } info turn) (.ok s.nextTrack)
    rw [he, he']
    exact .publish info resultTx hmode s.forwards tracks' (Changes.refl _ _) htracks

variable {s' : State} {turn : Turn}

/-- Every step of the manager is one of its turns. -/
theorem managerTurn (h : s.managerStep turn = some s') : ManagerTurn s turn s' := by
  unfold managerStep at h
  cases hmode : s.mode with
  | running =>
    simp only [hmode] at h
    cases hqueue : s.queue with
    | nil => simp [hqueue] at h
    | cons event rest =>
      simp only [hqueue, some.injEq] at h
      rw [← hmode] at h
      exact .event event rest hmode hqueue s' (h ▸ eventTurn { s with queue := rest } turn event)
  | creating info resultTx =>
    simp only [hmode, some.injEq] at h
    exact h ▸ publishTrack_turn hmode turn
  | responding handle track sid =>
    simp only [hmode, some.injEq] at h
    obtain ⟨tracks', he, htracks⟩ :=
      s.modifyTrack_eq track fun t => (t.setSid sid).send .published
    rw [← h, republished, he]
    exact .respond handle track sid hmode tracks' htracks
  | republishing todo =>
    rcases todo with _ | ⟨⟨handle, resultTx | track⟩, todo⟩
    · simp only [hmode, some.injEq] at h
      exact h ▸ .republishEnd hmode
    · simp only [hmode, some.injEq] at h
      obtain ⟨forwards', he, hforwards⟩ :=
        sendResult_error_eq { s with mode := .republishing todo } resultTx .disconnected
      rw [← h, he]
      exact .republishPending handle resultTx todo hmode forwards' hforwards
    · simp only [hmode, some.injEq] at h
      obtain ⟨tracks', he, htracks⟩ :=
        modifyTrack_eq { s with mode := .requesting handle track todo } track (.send .republishing)
      rw [← h, sendState, he]
      exact .mark handle track todo hmode tracks' htracks
  | requesting handle track todo =>
    simp only [hmode, some.injEq] at h
    rw [← h]
    unfold requestRepublish
    split
    · exact .request handle track todo hmode s.outputs (.inl rfl)
    · next t ht => exact .request handle track todo hmode _ (.inr ⟨t, ht, rfl⟩)
  | stopping todo =>
    rcases todo with _ | ⟨⟨handle, resultTx | track⟩, todo⟩
    · simp only [hmode, some.injEq] at h
      obtain ⟨requests', answers', he, hrequests, hgrows, hanswered⟩ :=
        dropEvents_eq s.queue { s with mode := .ended }
      rw [← h, dropQueue, he]
      exact .stopEnd hmode requests' answers' hrequests hgrows hanswered
    · simp only [hmode, some.injEq] at h
      obtain ⟨forwards', he, hforwards⟩ :=
        sendResult_error_eq { s with mode := .stopping todo } resultTx .disconnected
      rw [← h, he]
      exact .stopPending handle resultTx todo hmode forwards' hforwards
    · simp only [hmode, some.injEq] at h
      obtain ⟨tracks', he, htracks⟩ :=
        modifyTrack_eq { s with mode := .awaiting track todo } track (.send .unpublished)
      rw [← h, sendState, he]
      refine .stopActive handle track todo hmode tracks' (htracks.mono fun _ _ _ h => h.2) ?_
      intro t ht
      have hlookup := modifyTrack_lookup (s := { s with mode := .awaiting track todo }) ht
        (.send .unpublished)
      rw [he] at hlookup
      exact congrArg State.tracks hlookup
  | awaiting track todo =>
    simp only [hmode] at h
    cases ht : lookup track s.tracks with
    | none => simp [ht] at h
    | some t =>
      simp only [ht] at h
      split at h
      · next hphase =>
        rw [some.injEq] at h
        exact h ▸ .awaited track todo t hmode ht hphase
      · cases h
  | ended => simp [hmode] at h

variable {event : InputEvent}

/-- A manager that runs handles the first event of its queue. -/
theorem step_event {rest : List InputEvent} (hmode : s.mode = .running)
    (hqueue : s.queue = event :: rest) :
    s.step (.manager turn) = some ({ s with queue := rest }.handle turn event) := by
  simp only [step, managerStep, hmode, hqueue]

/-! ## All that a turn of another task can be -/

theorem mapM_serialize (ps : List Packet) :
    ps.mapM Packet.serialize = .ok (ps.map fun p => p.header.bytes ++ p.payload) := by
  induction ps with
  | nil => rfl
  | cons p ps ih => rw [mapM_cons, Packet.serialize_eq, ih]; rfl

/-- What is sent of what the pipeline makes of a frame. -/
def sent (hasRoom : Bool) : Except PipelineError (List Packet) → List OutputEvent
  | .ok ps => if hasRoom then [.packetsAvailable (ps.map fun p => p.header.bytes ++ p.payload)]
    else []
  | .error _ => []

/-- A frame reaches the outputs only if the pipeline accepted it and there was room. -/
theorem sent_cases (hasRoom : Bool) (result : Except PipelineError (List Packet)) :
    ((∀ ps, result = .ok ps → hasRoom = false) ∧ sent hasRoom result = []) ∨
      ∃ ps, result = .ok ps ∧ hasRoom = true ∧
        sent hasRoom result =
          [.packetsAvailable (ps.map fun p => p.header.bytes ++ p.payload)] := by
  cases result with
  | error err => exact .inl ⟨nofun, rfl⟩
  | ok ps =>
    cases hasRoom with
    | true => exact .inr ⟨ps, rfl, rfl, rfl⟩
    | false => exact .inl ⟨fun _ _ => rfl, rfl⟩

/-- The turns of a track task, by its phase. -/
inductive TaskTurn (s : State) (track : TrackId) (t : TrackState) : TaskMove → State → Prop
  | start (hphase : t.phase = .spawned) :
      TaskTurn s track t .start
        { s with tracks := AList.insert track { t with phase := loop t.state } s.tracks }
  | observe (seen : PublishState) (hphase : t.phase = .running seen) (hchanged : t.changed = true) :
      TaskTurn s track t .observe { s with
        tracks := AList.insert track { t with phase := loop t.state, changed := false } s.tracks }
  | skip (frame : DataTrackFrame) (frames : List DataTrackFrame)
      (st : ProviderState) (now : Instant) (hasRoom : Bool)
      (hphase : t.phase = .running .republishing) (hframes : t.frames = frame :: frames) :
      TaskTurn s track t (.frame st now hasRoom)
        { s with tracks := AList.insert track { t with frames } s.tracks }
  | process (seen : PublishState) (frame : DataTrackFrame) (frames : List DataTrackFrame)
      (st : ProviderState) (now : Instant) (hasRoom : Bool) (hphase : t.phase = .running seen)
      (hseen : seen ≠ .republishing) (hframes : t.frames = frame :: frames) :
      TaskTurn s track t (.frame st now hasRoom) { s with
        tracks := AList.insert track
          { t with frames, pipeline := (t.pipeline.processFrame st now frame).2 } s.tracks
        outputs := s.outputs ++ sent hasRoom (t.pipeline.processFrame st now frame).1 }
  | unpublish (hphase : t.phase = .unpublishing) (hmode : s.mode ≠ .ended)
      (hroom : s.queue.length < EVENT_BUFFER_COUNT) :
      TaskTurn s track t .unpublish { s with
        tracks := AList.insert track { t with phase := .ended } s.tracks
        queue := s.queue ++ [.unpublishRequest ⟨t.info.pubHandle⟩] }
  | finish (hphase : t.phase = .unpublishing) (hmode : s.mode = .ended) :
      TaskTurn s track t .unpublish
        { s with tracks := AList.insert track { t with phase := .ended } s.tracks }

/-- An input event is queued while the manager runs and its channel has room. -/
theorem enqueue_eq_some (h : s.enqueue event = some s') :
    s.mode ≠ .ended ∧ s.queue.length < EVENT_BUFFER_COUNT ∧
      s' = { s with queue := s.queue ++ [event] } := by
  unfold enqueue at h
  split at h
  · next hroom => exact ⟨hroom.1, hroom.2, (some.inj h).symm⟩
  · cases h

/-- Processing a frame moves the pipeline of the track on, and sends its packets at most. -/
theorem processAndSend_eq (s : State) (track : TrackId) (t : TrackState) (frame : DataTrackFrame)
    (st : ProviderState) (now : Instant) (hasRoom : Bool) :
    s.processAndSend track t frame st now hasRoom = { s with
      tracks := insert track
        { t with pipeline := (t.pipeline.processFrame st now frame).2 } s.tracks
      outputs := s.outputs ++ sent hasRoom (t.pipeline.processFrame st now frame).1 } := by
  unfold processAndSend
  rcases t.pipeline.processFrame st now frame with ⟨result, pipeline⟩
  cases result with
  | error err => simp only [sent, append_nil]
  | ok ps =>
    simp only [mapM_serialize, sent]
    cases hasRoom with
    | true => rfl
    | false =>
      simp only [Bool.false_eq_true, if_false, append_nil]

/-- Every move of a track task is one of its turns. -/
theorem taskTurn {move : TaskMove} (h : s.taskStep track move = some s') :
    ∃ t, lookup track s.tracks = some t ∧ TaskTurn s track t move s' := by
  unfold taskStep at h
  cases ht : lookup track s.tracks with
  | none => simp [ht] at h
  | some t =>
    refine ⟨t, rfl, ?_⟩
    simp only [ht] at h
    cases hphase : t.phase with
    | spawned =>
      cases move with
      | start =>
        simp only [hphase, some.injEq] at h
        exact h ▸ .start hphase
      | _ => simp [hphase] at h
    | running seen =>
      cases move with
      | observe =>
        simp only [hphase] at h
        split at h
        · next hchanged => exact some.inj h ▸ .observe seen hphase hchanged
        · cases h
      | frame st now hasRoom =>
        simp only [hphase] at h
        cases hframes : t.frames with
        | nil => simp [hframes] at h
        | cons frame frames =>
          simp only [hframes] at h
          split at h
          · next hseen =>
            have hturn : TaskTurn s track t (.frame st now hasRoom) _ :=
              .skip frame frames st now hasRoom (hseen ▸ hphase) hframes
            rw [hphase] at hturn
            exact some.inj h ▸ hturn
          · next hseen =>
            rw [some.injEq, ← hphase, processAndSend_eq] at h
            exact h ▸ .process seen frame frames st now hasRoom hphase hseen hframes
      | _ => simp [hphase] at h
    | unpublishing =>
      cases move with
      | unpublish =>
        simp only [hphase] at h
        split at h
        · next hmode => exact some.inj h ▸ .finish hphase hmode
        · obtain ⟨hmode, hroom, rfl⟩ := enqueue_eq_some h
          exact .unpublish hphase hmode hroom
      | _ => simp [hphase] at h
    | ended => cases move <;> simp [hphase] at h

/-- The turns of a task that forwards a result, by its phase. -/
inductive ForwardTurn (s : State) (request : RequestId) (forward : Forward) : State → Prop
  | deliver (result : Except PublishError TrackId) (state : RequestState)
      (hphase : forward.phase = .running) (hresult : forward.result = some result)
      (hstate : (∃ err, state = .failed err) ∨
        ∃ track, state = .returned track ∧ result = .ok track) :
      ForwardTurn s request forward { s with
        forwards := AList.insert request { forward with result := none, phase := .ended } s.forwards
        requests := AList.insert request state s.requests }
  /-- The caller is gone. -/
  | lost (hphase : forward.phase = .running) (tracks' : AssocMap TrackId TrackState)
      (htracks : TracksChange Unpublishes s.tracks tracks') :
      ForwardTurn s request forward { s with
        forwards := AList.insert request { forward with result := none, phase := .ended } s.forwards
        tracks := tracks' }
  | cancel (hphase : forward.phase = .running) (hresult : forward.result = none)
      (hgone : AList.lookup request s.requests ≠ some .waiting) :
      ForwardTurn s request forward { s with
        forwards := AList.insert request { forward with result := none, phase := .cancelling }
          s.forwards }
  | discard (hphase : forward.phase = .running)
      (hgone : AList.lookup request s.requests ≠ some .waiting)
      (tracks' : AssocMap TrackId TrackState)
      (htracks : TracksChange Unpublishes s.tracks tracks') :
      ForwardTurn s request forward { s with
        forwards := AList.insert request { forward with result := none, phase := .cancelling }
          s.forwards
        tracks := tracks' }
  | notify (hphase : forward.phase = .cancelling) (hroom : s.queue.length < EVENT_BUFFER_COUNT) :
      ForwardTurn s request forward { s with
        forwards := AList.insert request { forward with result := none, phase := .ended } s.forwards
        queue := s.queue ++ [.publishCancelled ⟨forward.handle⟩] }
  | lose (hphase : forward.phase = .cancelling) :
      ForwardTurn s request forward { s with
        forwards := AList.insert request { forward with result := none, phase := .ended }
          s.forwards }

variable {request : RequestId}

/-- Every move of a forwarding task is one of its turns. -/
theorem forwardTurn {move : ForwardMove} (h : s.forwardStep request move = some s') :
    ∃ forward, lookup request s.forwards = some forward ∧
      ForwardTurn s request forward s' := by
  unfold forwardStep at h
  cases hf : lookup request s.forwards with
  | none => simp [hf] at h
  | some forward =>
    refine ⟨forward, rfl, ?_⟩
    simp only [hf] at h
    cases hphase : forward.phase with
    | running =>
      cases move with
      | deliver =>
        simp only [hphase] at h
        obtain ⟨result, hresult, rfl⟩ := map_eq_some_iff.mp h
        have hcases := resolve_cases { s with
          forwards := insert request { forward with result := none, phase := .ended }
            s.forwards } request result
        rcases hcases with ⟨state, hstate, he⟩ | he
        · rw [he]
          exact .deliver result state hphase hresult hstate
        · obtain ⟨tracks', he', htracks⟩ := dropResult_eq _ result
          rw [he, he']
          exact .lost hphase tracks' htracks
      | cancel =>
        simp only [hphase] at h
        split at h
        · cases h
        · next hgone =>
          cases hresult : forward.result with
          | none =>
            simp only [hresult, some.injEq] at h
            exact h ▸ .cancel hphase hresult hgone
          | some result =>
            simp only [hresult, some.injEq] at h
            obtain ⟨tracks', he, htracks⟩ := dropResult_eq _ result
            rw [← h, he]
            exact .discard hphase hgone tracks' htracks
      | notify => simp [hphase] at h
    | cancelling =>
      cases move with
      | notify =>
        simp only [hphase] at h
        split at h
        · next s'' hsome =>
          obtain ⟨-, hroom, rfl⟩ := enqueue_eq_some hsome
          exact some.inj h ▸ .notify hphase hroom
        · exact some.inj h ▸ .lose hphase
      | _ => simp [hphase] at h
    | ended => cases move <;> simp [hphase] at h

/-! ## All that a turn of the application and the room can be -/

/-- An event that neither a publish request nor a task makes. -/
def isOther : InputEvent → Bool
  | .publishRequest _ | .publishCancelled _ | .unpublishRequest _ => false
  | _ => true

/-- The turns of the application and the room. -/
inductive AppTurn (s : State) : Action → State → Prop
  | publish (options : DataTrackOptions) (hroom : s.queue.length < EVENT_BUFFER_COUNT) :
      AppTurn s (.publish options) { s with
        nextRequest := s.nextRequest + 1
        requests := AList.insert s.nextRequest .waiting s.requests
        queue := s.queue ++ [.publishRequest ⟨options, s.nextRequest⟩] }
  | refused (options : DataTrackOptions) : AppTurn s (.publish options) { s with
      nextRequest := s.nextRequest + 1
      requests := AList.insert s.nextRequest (.failed .disconnected) s.requests }
  | abandon (request : RequestId) (hwaiting : AList.lookup request s.requests = some .waiting) :
      AppTurn s (.abandon request)
        { s with requests := AList.insert request .abandoned s.requests }
  | query (hmode : s.mode ≠ .ended) (hroom : s.queue.length < EVENT_BUFFER_COUNT) :
      AppTurn s .query { s with
        nextQuery := s.nextQuery + 1
        queue := s.queue ++ [.queryPublished ⟨s.nextQuery⟩] }
  | answered (hmode : s.mode = .ended) : AppTurn s .query { s with
      nextQuery := s.nextQuery + 1
      answers := s.answers ++ [(s.nextQuery, [])] }
  /-- A frame is pushed, or somebody begins or ends to wait. -/
  | use (a : Action) (tracks' : AssocMap TrackId TrackState)
      (htracks : TracksChange (fun _ t t' => ∃ frames waiters, t' = { t with frames, waiters })
        s.tracks tracks') : AppTurn s a { s with tracks := tracks' }
  | unpublish (request : RequestId) (tracks' : AssocMap TrackId TrackState)
      (htracks : TracksChange Unpublishes s.tracks tracks') :
      AppTurn s (.unpublish request) { s with tracks := tracks' }
  | drop (request : RequestId) (track : TrackId) (tracks' : AssocMap TrackId TrackState)
      (hreturned : AList.lookup request s.requests = some (.returned track))
      (htracks : TracksChange Unpublishes s.tracks tracks') :
      AppTurn s (.drop request)
        { s with requests := AList.insert request (.dropped track) s.requests, tracks := tracks' }
  | send (event : InputEvent) (hevent : isOther event)
      (hroom : s.queue.length < EVENT_BUFFER_COUNT) :
      AppTurn s (.sendInput event) { s with queue := s.queue ++ [event] }
  | lose (event : InputEvent) : AppTurn s (.sendInput event) s

theorem returnedTrack_eq (h : s.returnedTrack request = some track) :
    lookup request s.requests = some (.returned track) := by
  unfold returnedTrack at h
  split at h
  · next track' hreturned =>
    cases h
    exact hreturned
  · cases h

theorem publish_turn (s : State) (options : DataTrackOptions) :
    AppTurn s (.publish options) (s.publish options) := by
  unfold publish
  simp only
  split
  · next s' hsome =>
    obtain ⟨-, hroom, rfl⟩ := enqueue_eq_some hsome
    exact .publish options hroom
  · exact .refused options

theorem sendInput_turn (h : s.sendInput event = some s') : AppTurn s (.sendInput event) s' := by
  have hsend : isOther event → s' = (s.enqueue event).getD s → AppTurn s (.sendInput event) s' := by
    intro hevent heq
    cases hsome : s.enqueue event with
    | none =>
      rw [hsome] at heq
      exact heq ▸ .lose event
    | some s'' =>
      obtain ⟨-, hroom, rfl⟩ := enqueue_eq_some hsome
      rw [hsome] at heq
      exact heq ▸ .send event hevent hroom
  unfold sendInput at h
  cases event with
  | sfuPublishResponse | sfuUnpublishResponse | republishTracks | shutdown =>
    exact hsend rfl (some.inj h).symm
  | _ => cases h

theorem use_turn (a : Action) (track : TrackId) {f : TrackState → TrackState}
    (hf : ∀ t, ∃ frames waiters, f t = { t with frames, waiters }) :
    AppTurn s a (s.modifyTrack track f) := by
  obtain ⟨tracks', he, htracks⟩ := s.modifyTrack_eq track f
  rw [he]
  exact .use a tracks' (htracks.mono fun _ t _ h => h.2 ▸ hf t)

variable {a : Action}

/-- Whose turn a step is, and what it does. -/
theorem step_cases (h : s.step a = some s') :
    (a.isManager = false ∧ AppTurn s a s') ∨
    (∃ turn, a = .manager turn ∧ ManagerTurn s turn s') ∨
    (∃ request move forward, a = .forward request move ∧
      lookup request s.forwards = some forward ∧ ForwardTurn s request forward s') ∨
    ∃ track move t, a = .task track move ∧ lookup track s.tracks = some t ∧
      TaskTurn s track t move s' := by
  cases a with
  | manager turn => exact .inr (.inl ⟨turn, rfl, managerTurn h⟩)
  | forward request move =>
    obtain ⟨forward, hf, hturn⟩ := forwardTurn h
    exact .inr (.inr (.inl ⟨request, move, forward, rfl, hf, hturn⟩))
  | task track move =>
    obtain ⟨t, ht, hturn⟩ := taskTurn h
    exact .inr (.inr (.inr ⟨track, move, t, rfl, ht, hturn⟩))
  | publish options => exact .inl ⟨rfl, some.inj h ▸ s.publish_turn options⟩
  | abandon request =>
    simp only [step, abandon] at h
    split at h
    · next hwaiting => exact .inl ⟨rfl, some.inj h ▸ .abandon request hwaiting⟩
    · cases h
  | query =>
    simp only [step, query] at h
    split at h
    · next hmode => exact .inl ⟨rfl, some.inj h ▸ .answered hmode⟩
    · obtain ⟨hmode, hroom, rfl⟩ := enqueue_eq_some h
      exact .inl ⟨rfl, .query hmode hroom⟩
  | tryPush request frame =>
    obtain ⟨track, -, rfl⟩ := map_eq_some_iff.mp h
    refine .inl ⟨rfl, use_turn _ track fun t => ?_⟩
    unfold tryPush
    split
    · exact ⟨t.frames ++ [frame], t.waiters, rfl⟩
    · exact ⟨t.frames, t.waiters, rfl⟩
  | unpublish request =>
    obtain ⟨track, -, rfl⟩ := map_eq_some_iff.mp h
    obtain ⟨tracks', he, htracks⟩ := s.modifyTrack_eq track (.send .unpublished)
    rw [localUnpublish, sendState, he]
    exact .inl ⟨rfl, .unpublish request tracks' (htracks.mono fun _ _ _ h => h.2)⟩
  | drop request =>
    simp only [step, dropTrack] at h
    split at h
    · cases h
    · next track htrack =>
      split at h
      · cases h
      · split at h
        · obtain ⟨tracks', he, htracks⟩ := modifyTrack_eq
            { s with requests := insert request (.dropped track) s.requests } track
            (.send .unpublished)
          rw [localUnpublish, sendState, he] at h
          exact .inl ⟨rfl, some.inj h ▸ .drop request track tracks'
            (returnedTrack_eq htrack) (htracks.mono fun _ _ _ h => h.2)⟩
        · cases h
  | wait request =>
    obtain ⟨track, -, rfl⟩ := map_eq_some_iff.mp h
    exact .inl ⟨rfl, use_turn _ track fun t => ⟨t.frames, t.waiters + 1, rfl⟩⟩
  | waitEnd request =>
    obtain ⟨track, -, rfl⟩ := map_eq_some_iff.mp h
    exact .inl ⟨rfl, use_turn _ track fun t => ⟨t.frames, t.waiters - 1, rfl⟩⟩
  | sendInput event => exact .inl ⟨rfl, sendInput_turn h⟩

/-! ## Everybody but the manager -/

/-- What only the manager changes, and what the others add to the channels of events. -/
structure Other (s s' : State) : Prop where
  encryptionProvider : s'.encryptionProvider = s.encryptionProvider
  handleAllocator : s'.handleAllocator = s.handleAllocator
  descriptors : s'.descriptors = s.descriptors
  mode : s'.mode = s.mode
  nextTrack : s'.nextTrack = s.nextTrack
  outputs : s'.outputs = s.outputs ∨
    ∃ packets, s'.outputs = s.outputs ++ [.packetsAvailable packets]
  queue : s'.queue = s.queue ∨
    s.queue.length < EVENT_BUFFER_COUNT ∧ ∃ event, s'.queue = s.queue ++ [event]
  answers : s.answers <+: s'.answers

/-- A step of anybody but the manager leaves the manager's own fields alone. -/
theorem step_other (h : s.step a = some s') (ha : a.isManager = false) : Other s s' := by
  rcases step_cases h with ⟨-, happ⟩ | ⟨turn, rfl, -⟩ | ⟨request, move, forward, -, -, hturn⟩ |
    ⟨track, move, t, -, -, hturn⟩
  · cases happ with
    | publish options hroom | send event hevent hroom | query hmode hroom =>
      exact ⟨rfl, rfl, rfl, rfl, rfl, .inl rfl, .inr ⟨hroom, _, rfl⟩, prefix_rfl⟩
    | answered =>
      exact ⟨rfl, rfl, rfl, rfl, rfl, .inl rfl, .inl rfl, prefix_append _ _⟩
    | _ => exact ⟨rfl, rfl, rfl, rfl, rfl, .inl rfl, .inl rfl, prefix_rfl⟩
  · cases ha
  · cases hturn with
    | notify hphase hroom =>
      exact ⟨rfl, rfl, rfl, rfl, rfl, .inl rfl, .inr ⟨hroom, _, rfl⟩, prefix_rfl⟩
    | _ => exact ⟨rfl, rfl, rfl, rfl, rfl, .inl rfl, .inl rfl, prefix_rfl⟩
  · cases hturn with
    | process seen frame frames st now hasRoom =>
      refine ⟨rfl, rfl, rfl, rfl, rfl, ?_, .inl rfl, prefix_rfl⟩
      rcases sent_cases hasRoom (t.pipeline.processFrame st now frame).1 with
        ⟨-, hsent⟩ | ⟨ps, -, -, hsent⟩
      · left
        rw [hsent, append_nil]
      · exact .inr ⟨_, congrArg (s.outputs ++ ·) hsent⟩
    | unpublish hphase hmode hroom =>
      exact ⟨rfl, rfl, rfl, rfl, rfl, .inl rfl, .inr ⟨hroom, _, rfl⟩, prefix_rfl⟩
    | _ => exact ⟨rfl, rfl, rfl, rfl, rfl, .inl rfl, .inl rfl, prefix_rfl⟩

/-! ## What a step does to the tracks -/

/-- All that a step can do to a track `t` that there was before. -/
inductive TrackChange (s : State) (a : Action) (id : TrackId) (t : TrackState) :
    TrackState → Prop
  | unpublish : TrackChange s a id t (t.send .unpublished)
  | mark (turn : Turn) (handle : Handle) (todo : List (Handle × Descriptor))
      (ha : a = .manager turn) (hmode : s.mode = .republishing ((handle, .active id) :: todo)) :
      TrackChange s a id t (t.send .republishing)
  | respond (turn : Turn) (handle : Handle) (sid : DataTrackSid) (ha : a = .manager turn)
      (hmode : s.mode = .responding handle id sid) :
      TrackChange s a id t ((t.setSid sid).send .published)
  /-- The application pushes a frame, or begins or ends to wait. -/
  | use (frames : List DataTrackFrame) (waiters : ℕ) (ha : a.isManager = false) :
      TrackChange s a id t { t with frames, waiters }
  /-- The task moves on. -/
  | task (move : TaskMove) (t' : TrackState) (ha : a = .task id move) (hinfo : t'.info = t.info)
      (hstate : t'.state = t.state) (hwaiters : t'.waiters = t.waiters)
      (hprovider : t'.pipeline.encryptionProvider = t.pipeline.encryptionProvider) :
      TrackChange s a id t t'

theorem taskTurn_tracks {t : TrackState} {move : TaskMove}
    (ht : lookup track s.tracks = some t) (h : TaskTurn s track t move s') :
    TracksChange (TrackChange s (.task track move)) s.tracks s'.tracks := by
  cases h with
  | process seen frame frames st now =>
    exact TracksChange.insert ht (.task _ _ rfl rfl rfl rfl
      (t.pipeline.processFrame_encryptionProvider st now frame))
  | _ => exact TracksChange.insert ht (.task _ _ rfl rfl rfl rfl rfl)

theorem forwardTurn_tracks {forward : Forward} (h : ForwardTurn s request forward s') :
    TracksChange Unpublishes s.tracks s'.tracks := by
  cases h with
  | lost _ _ htracks | discard _ _ _ htracks => exact htracks
  | _ => exact TracksChange.refl _ _

/-- An event changes tracks by unpublishing them at most. -/
theorem eventTurn_tracks (h : EventTurn s turn event s') :
    TracksChange Unpublishes s.tracks s'.tracks := by
  cases h with
  | unpublish _ _ _ _ htracks | unpublished _ _ _ _ htracks => exact htracks
  | _ => exact TracksChange.refl _ _

/-- The tracks that there are before a step, with the one that it creates. -/
def tracksWithNew (s : State) (a : Action) : AssocMap TrackId TrackState :=
  match a, s.mode with
  | .manager turn, .creating info _ => AList.insert s.nextTrack (s.newTrack info turn) s.tracks
  | _, _ => s.tracks

theorem tracksWithNew_of_mode (a : Action) (h : ∀ info resultTx, s.mode ≠ .creating info resultTx) :
    s.tracksWithNew a = s.tracks := by
  unfold tracksWithNew
  split
  · next hmode => exact absurd hmode (h _ _)
  · rfl

/-- A step changes each track only as the action allows. -/
theorem step_tracks (h : s.step a = some s') :
    TracksChange (TrackChange s a) (s.tracksWithNew a) s'.tracks := by
  have hunpublishes : ∀ {tracks tracks' : AssocMap TrackId TrackState},
      TracksChange Unpublishes tracks tracks' → TracksChange (TrackChange s a) tracks tracks' := by
    intro tracks tracks' hchange
    apply hchange.mono
    intro id t t' ht'
    rw [ht']
    exact .unpublish
  have hsame : (∀ info resultTx, s.mode ≠ .creating info resultTx) →
      TracksChange (TrackChange s a) s.tracks s'.tracks →
      TracksChange (TrackChange s a) (s.tracksWithNew a) s'.tracks := by
    intro hmode hchange
    rwa [tracksWithNew_of_mode _ hmode]
  rcases step_cases h with ⟨ha, happ⟩ | ⟨turn, rfl, hturn⟩ |
    ⟨request, move, forward, rfl, -, hturn⟩ | ⟨track, move, t, rfl, ht, hturn⟩
  · have hnew : s.tracksWithNew a = s.tracks := by
      cases a with
      | manager turn => cases ha
      | _ => rfl
    rw [hnew]
    cases happ with
    | use _ tracks' htracks =>
      apply htracks.mono
      rintro id t t' ⟨frames, waiters, rfl⟩
      exact .use frames waiters ha
    | unpublish _ _ htracks | drop _ _ _ _ htracks => exact hunpublishes htracks
    | _ => exact TracksChange.refl _ _
  · cases hturn with
    | event event rest hmode hqueue s' hturn =>
      have hchange := eventTurn_tracks hturn
      exact hsame (by simp [hmode]) (hunpublishes hchange)
    | publish info resultTx hmode forwards' tracks' hforwards htracks =>
      unfold tracksWithNew
      rw [hmode]
      exact hunpublishes htracks
    | respond handle track sid hmode tracks' htracks =>
      refine hsame (by simp [hmode]) (htracks.mono ?_)
      rintro id t t' ⟨rfl, rfl⟩
      exact .respond turn handle sid rfl hmode
    | mark handle track todo hmode tracks' htracks =>
      refine hsame (by simp [hmode]) (htracks.mono ?_)
      rintro id t t' ⟨rfl, rfl⟩
      exact .mark turn handle todo rfl hmode
    | stopActive handle track todo hmode tracks' htracks =>
      exact hsame (by simp [hmode]) (hunpublishes htracks)
    | _ => exact hsame (by simp [*]) (TracksChange.refl _ _)
  · exact hunpublishes (forwardTurn_tracks hturn)
  · exact taskTurn_tracks ht hturn

/-! ## What a step sends to the SFU and the transport -/

/-- All that a step can emit. -/
inductive Emits (s : State) (a : Action) : OutputEvent → Prop
  | publish (handle : Handle) (allocator : HandleAllocator) (name : String)
      (hget : s.handleAllocator.get = some (handle, allocator)) :
      Emits s a (.sfuPublishRequest ⟨handle, name, s.encryptionProvider.isSome⟩)
  | republish (handle : Handle) (track : TrackId) (todo : List (Handle × Descriptor))
      (t : TrackState) (hmode : s.mode = .requesting handle track todo)
      (ht : AList.lookup track s.tracks = some t) :
      Emits s a (.sfuPublishRequest ⟨t.info.pubHandle, t.info.name, t.info.usesE2ee⟩)
  | unpublish (handle : Handle) : Emits s a (.sfuUnpublishRequest ⟨handle⟩)
  | packets (packets : List Bytes) (ha : a.isManager = false) :
      Emits s a (.packetsAvailable packets)

theorem eventTurn_outputs (a : Action) (h : EventTurn s turn event s') :
    s'.outputs = s.outputs ∨ ∃ e, s'.outputs = s.outputs ++ [e] ∧ Emits s a e := by
  cases h with
  | pend event handle allocator hget =>
    exact .inr ⟨_, rfl, .publish handle allocator event.options.name hget⟩
  | unpublish event | unknown event => exact .inr ⟨_, rfl, .unpublish event.handle⟩
  | _ => exact .inl rfl

/-- A step appends to the outputs, and only what the action may emit. -/
theorem step_outputs (hstep : s.step a = some s') :
    ∃ new, s'.outputs = s.outputs ++ new ∧ ∀ e ∈ new, Emits s a e := by
  suffices h : s'.outputs = s.outputs ∨ ∃ e, s'.outputs = s.outputs ++ [e] ∧ Emits s a e by
    rcases h with houtputs | ⟨e, houtputs, he⟩
    · exact ⟨[], by rw [houtputs, append_nil], by simp⟩
    · refine ⟨[e], houtputs, ?_⟩
      intro e' hmem
      rwa [mem_singleton.mp hmem]
  by_cases ha : a.isManager = false
  · rcases (step_other hstep ha).outputs with houtputs | ⟨packets, houtputs⟩
    · exact .inl houtputs
    · exact .inr ⟨_, houtputs, .packets packets ha⟩
  · cases a with
    | manager turn =>
      cases managerTurn hstep with
      | event event rest hmode hqueue s' hturn =>
        rcases eventTurn_outputs (.manager turn) hturn with houtputs | ⟨e, houtputs, he⟩
        · exact .inl houtputs
        · refine .inr ⟨e, houtputs, ?_⟩
          cases he with
          | publish handle allocator name hget => exact .publish handle allocator name hget
          | republish handle track todo t hmode ht => exact .republish handle track todo t hmode ht
          | unpublish handle => exact .unpublish handle
          | packets packets ha => exact .packets packets ha
      | request handle track todo hmode outputs' houtputs =>
        rcases houtputs with rfl | ⟨t, ht, rfl⟩
        · exact .inl rfl
        · exact .inr ⟨_, rfl, .republish handle track todo t hmode ht⟩
      | _ => exact .inl rfl
    | _ => exact absurd rfl ha

/-! ## What a step does to the queue -/

/-- Handling an event leaves the rest of the queue as it is. -/
theorem eventTurn_queue (h : EventTurn s turn event s') :
    s'.queue = s.queue ∧ s'.nextRequest = s.nextRequest := by
  cases h with
  | _ => exact ⟨rfl, rfl⟩

/-- The manager takes the first event from the queue in its run loop, and drops the queue in the
end. -/
theorem managerTurn_queue {s s' : State} {turn : Turn} (h : ManagerTurn s turn s') :
    s'.nextRequest = s.nextRequest ∧
      ((s.mode = .running ∧ ∃ event, s.queue = event :: s'.queue) ∨
        s.mode ≠ .running ∧ (s.mode ≠ .stopping [] ∧ s'.queue = s.queue ∨
          s.mode = .stopping [] ∧ s'.mode = .ended ∧ s'.queue = [])) := by
  cases h with
  | event event rest hmode hqueue s' hturn =>
    obtain ⟨hrest, hnext⟩ := eventTurn_queue hturn
    refine ⟨hnext, .inl ⟨hmode, event, ?_⟩⟩
    rw [hrest, hqueue]
  | stopEnd hmode => exact ⟨rfl, .inr ⟨by simp [hmode], .inr ⟨hmode, rfl, rfl⟩⟩⟩
  | _ => exact ⟨rfl, .inr ⟨by simp [*], .inl ⟨by simp [*], rfl⟩⟩⟩

/-- All that a step of anybody but the manager can do to the queue. -/
inductive QueueChange (s : State) (a : Action) : List InputEvent → Prop
  | same : QueueChange s a s.queue
  | publish (options : DataTrackOptions) (ha : a = .publish options) :
      QueueChange s a (s.queue ++ [.publishRequest ⟨options, s.nextRequest⟩])
  | cancelled (request : RequestId) (move : ForwardMove) (forward : Forward)
      (ha : a = .forward request move) (hf : AList.lookup request s.forwards = some forward)
      (hphase : forward.phase = .cancelling) :
      QueueChange s a (s.queue ++ [.publishCancelled ⟨forward.handle⟩])
  | unpublish (track : TrackId) (move : TaskMove) (t : TrackState) (ha : a = .task track move)
      (ht : AList.lookup track s.tracks = some t) (hphase : t.phase = .unpublishing) :
      QueueChange s a (s.queue ++ [.unpublishRequest ⟨t.info.pubHandle⟩])
  | other (event : InputEvent) (hevent : isOther event) : QueueChange s a (s.queue ++ [event])

/-- Only the manager takes events off its queue; the others append at most one. -/
theorem step_queue {s s' : State} {a : Action} (hstep : s.step a = some s')
    (ha : a.isManager = false) : QueueChange s a s'.queue ∧
      (s'.nextRequest = s.nextRequest ∨
        ∃ options, a = .publish options ∧ s'.nextRequest = s.nextRequest + 1) := by
  rcases step_cases hstep with ⟨-, happ⟩ | ⟨turn, rfl, -⟩ |
    ⟨request, move, forward, rfl, hf, hturn⟩ | ⟨track, move, t, rfl, ht, hturn⟩
  · cases happ with
    | publish options => exact ⟨.publish options rfl, .inr ⟨options, rfl, rfl⟩⟩
    | refused options => exact ⟨.same, .inr ⟨options, rfl, rfl⟩⟩
    | query => exact ⟨.other _ rfl, .inl rfl⟩
    | send event hevent => exact ⟨.other event hevent, .inl rfl⟩
    | _ => exact ⟨.same, .inl rfl⟩
  · cases ha
  · cases hturn with
    | notify hphase => exact ⟨.cancelled request move forward rfl hf hphase, .inl rfl⟩
    | _ => exact ⟨.same, .inl rfl⟩
  · cases hturn with
    | unpublish hphase => exact ⟨.unpublish track _ t rfl ht hphase, .inl rfl⟩
    | _ => exact ⟨.same, .inl rfl⟩

end State

end LiveKit.DataTrack.Local
