import LiveKit.DataTrack.Local.Forwarding

/-!
# The manager knows the live tracks

A track that the application has and that is not unpublished should have its descriptor with the
manager, which reports, republishes and unpublishes the tracks that it has descriptors for.
`known_iff` says when this is so: it is lost in a response that does not come for a track that is
being republished, or that says that this failed, and where nobody is left to be told that the
track is unpublished.
-/

namespace LiveKit.DataTrack.Local

open AList Option AssocMap TransitionSystem

namespace State

/-- The track was returned to the application and is not unpublished. -/
structure Live (s : State) (id : TrackId) (t : TrackState) : Prop where
  lookup : AList.lookup id s.tracks = some t
  handedOut : s.HandedOut id
  state : t.state ≠ .unpublished

/-- The manager has an active descriptor for every live track: in its map, as long as it is in
its run loop, and in its hands while a handler or the shutdown is under way. -/
def Known (s : State) : Prop :=
  ∀ id t, s.Live id t → s.Registered t.info.pubHandle (.active id)

/-- What becomes of live tracks when an event is handled: a query reports them, and they are
among those that are republished and those that are unpublished in the end. -/
def Serves (s : State) (a : Action) (s' : State) : Prop :=
  a.isManager → ∀ id t, s.Live id t →
    match s.mode, s.queue with
    | .running, .queryPublished event :: _ =>
      ∃ infos, s'.answers = s.answers ++ [(event.resultTx, infos)] ∧ t.info ∈ infos
    | .running, .republishTracks :: _ =>
      ∃ todo, s'.mode = .republishing todo ∧ (t.info.pubHandle, .active id) ∈ todo
    | .running, .shutdown :: _ =>
      ∃ todo, s'.mode = .stopping todo ∧ (t.info.pubHandle, .active id) ∈ todo
    | _, _ => True

/-- Somebody is told when the live track with the handle is unpublished. -/
def Unpublishable (s : State) (handle : Handle) : Prop :=
  ∀ id t, AList.lookup handle s.descriptors = some (.active id) → s.Live id t →
    t.hasReceiver = true

/-- The condition on a step: a response for a live track comes while it is being republished and
says that this succeeded, and when the manager unpublishes a live track somebody is told. -/
def Remembers (s : State) (a : Action) : Prop :=
  a.isManager →
    match s.mode, s.queue with
    | .running, .sfuPublishResponse event :: _ =>
      ∀ id t, AList.lookup event.handle s.descriptors = some (.active id) → s.Live id t →
        t.state = .republishing ∧ ∃ info, event.result = .ok info
    | .running, .unpublishRequest event :: _ => s.Unpublishable event.handle
    | .running, .sfuUnpublishResponse event :: _ => s.Unpublishable event.handle
    | .stopping ((_, .active id) :: _), _ => ∀ t, s.Live id t → t.hasReceiver = true
    | _, _ => True

variable {s s' : State} {a : Action}

theorem new_known (provider : Option EncryptionProvider) : (new provider).Known := by
  intro id t hlive
  cases hlive.lookup

variable {turn : Turn} {handle h : Handle} {track id : TrackId} {todo : List (Handle × Descriptor)}
  {t t' : TrackState} {rest : List InputEvent}

theorem step_stopActive (hmode : s.mode = .stopping ((handle, .active track) :: todo)) :
    s.step (.manager turn)
      = some ({ s with mode := .awaiting track todo }.sendState track .unpublished) := by
  simp only [step, managerStep, hmode]

/-! ## Under the condition -/

/-- A descriptor that is lost is not that of a live track. -/
theorem unpublished_of_forgets (hs : s.Coherent) (hstep : s.step a = some s')
    (hcond : s.Remembers a) (hlive : s.Live id t) (hforgets : s.Forgets a t.info.pubHandle id) :
    ∃ t', lookup id s'.tracks = some t' ∧ t'.state = .unpublished := by
  have hsent : t.hasReceiver = true → (t.send .unpublished).state = .unpublished := by
    intro h
    rw [TrackState.send_of_hasReceiver h]
  cases hforgets with
  | response turn event rest ha hmode hqueue hhandle hd hresult =>
    exfalso
    unfold Remembers at hcond
    rw [ha, hmode, hqueue] at hcond
    obtain ⟨hstate, info, hok⟩ := hcond rfl id t (by rw [hhandle]; exact hd) hlive
    rcases hresult with hne | ⟨err, herr⟩
    · apply hne
      unfold publishState
      rw [hlive.lookup, map_some, hstate]
    · rw [hok] at herr
      cases herr
  | cancelled turn rest ha hmode hqueue =>
    exfalso
    refine not_handedOut_of_cancelled hs.toForwardsTrack ?_ hlive.lookup rfl hlive.handedOut
    rw [hqueue]
    exact List.mem_cons_self
  | removed turn event rest ha hmode hqueue hevent hd =>
    obtain ⟨descriptors', tracks', he, -, -, hremoved⟩ :=
      removeDescriptor_eq { s with queue := rest } t.info.pubHandle
    obtain ⟨t', ht', hcases⟩ := hremoved id t hd hlive.lookup
    have hreceiver : t.hasReceiver = true := by
      unfold Remembers at hcond
      rw [ha, hmode, hqueue] at hcond
      rcases hevent with rfl | rfl
      · exact hcond rfl id t hd hlive
      · exact hcond rfl id t hd hlive
    have hstate : t'.state = .unpublished := by
      rcases hcases with ⟨-, hunpublished⟩ | rfl
      · exact absurd hunpublished hlive.state
      · exact hsent hreceiver
    refine ⟨t', ?_, hstate⟩
    rw [ha, step_event hmode hqueue, some.injEq] at hstep
    rw [← hstep]
    rcases hevent with rfl | rfl
    · rw [handle, onUnpublishRequest, he]
      exact ht'
    · rw [handle, onSfuUnpublishResponse, he]
      exact ht'
  | stopped turn todo ha hmode =>
    have hreceiver : t.hasReceiver = true := by
      unfold Remembers at hcond
      rw [ha, hmode] at hcond
      exact hcond rfl t hlive
    refine ⟨t.send .unpublished, ?_, hsent hreceiver⟩
    rw [ha, step_stopActive hmode, some.injEq] at hstep
    rw [← hstep, sendState, modifyTrack_lookup (by exact hlive.lookup), lookup_insert]

/-- Where a live track comes from: the manager has its descriptor before the step. -/
theorem registered_of_live (hs : s.Coherent) (hknown : s.Known) (ht : lookup id s.tracks = some t)
    (hout : s.HandedOut id) (hchange : t' = t ∨ TrackChange s a id t t')
    (hstate' : t'.state ≠ .unpublished) : s.Registered t.info.pubHandle (.active id) := by
  have hlive : t'.state = t.state → s.Registered t.info.pubHandle (.active id) := by
    intro hsame
    exact hknown id t ⟨ht, hout, hsame ▸ hstate'⟩
  have hheld : ∀ handle, s.Registered handle (.active id) →
      s.Registered t.info.pubHandle (.active id) := by
    intro handle hreg
    obtain ⟨u, hu, hhandle⟩ := hs.active_track handle id hreg
    rw [ht, some.injEq] at hu
    rw [hu, hhandle]
    exact hreg
  rcases hchange with rfl | hchange
  · exact hlive rfl
  · cases hchange with
    | unpublish =>
      by_cases hreceiver : t.hasReceiver = true
      · rw [TrackState.send_of_hasReceiver hreceiver] at hstate'
        exact absurd rfl hstate'
      · apply hlive
        rw [TrackState.send_of_not_hasReceiver (by simpa using hreceiver)]
    | mark turn handle todo ha hmode =>
      apply hheld handle
      right
      rw [hmode]
      exact List.mem_cons_self
    | respond turn handle sid ha hmode =>
      apply hheld handle
      right
      rw [hmode]
      exact List.mem_singleton_self _
    | use frames waiters => exact hlive rfl
    | task move t' ha hinfo hsame => exact hlive hsame

/-- While the manager loses a descriptor, an unpublished track stays unpublished. -/
theorem unpublished_of_change (hforgets : s.Forgets a h id)
    (hchange : t' = t ∨ TrackChange s a track t t') (hstate : t.state = .unpublished) :
    t'.state = .unpublished := by
  have hmode : s.mode = .running ∨ ∃ todo, s.mode = .stopping todo := by
    cases hforgets with
    | response _ _ _ _ hmode | cancelled _ _ _ hmode | removed _ _ _ _ hmode => exact .inl hmode
    | stopped turn todo ha hmode => exact .inr ⟨_, hmode⟩
  rcases hchange with rfl | hchange
  · exact hstate
  · cases hchange with
    | unpublish => exact TrackState.send_unpublished_state hstate
    | mark turn handle todo ha hmark =>
      rw [hmark] at hmode
      rcases hmode with hc | ⟨_, hc⟩ <;> cases hc
    | respond turn handle sid ha hrespond =>
      rw [hrespond] at hmode
      rcases hmode with hc | ⟨_, hc⟩ <;> cases hc
    | use frames waiters => exact hstate
    | task move t' ha hinfo hsame => rw [hsame, hstate]

theorem step_known (hs : s.Coherent) (hknown : s.Known) (hstep : s.step a = some s')
    (hcond : s.Remembers a) : s'.Known := by
  intro id t' hlive'
  rcases handedOut_origin hs.toForwardsTrack hstep hlive'.handedOut with
    hout | ⟨turn, info, request, rfl, hmode, rfl⟩
  · obtain ⟨t, ht⟩ := hout.track hs.toForwardsTrack
    obtain ⟨u, hu, hchange⟩ := track_kept hs.toConsistent hstep ht
    rw [hlive'.lookup, some.injEq] at hu
    rw [← hu] at hchange
    have hreg := registered_of_live hs hknown ht hout hchange hlive'.state
    have hhandle : t'.info.pubHandle = t.info.pubHandle := by
      rcases hchange with rfl | hchange
      · rfl
      · exact hchange.pubHandle
    rcases keeps_registered hs.toConsistent hstep hreg with hkept | hforgets
    · rw [hhandle]
      exact hkept
    · exfalso
      -- the state of a track that is forgotten was or is unpublished
      by_cases hstate : t.state = .unpublished
      · exact hlive'.state (unpublished_of_change hforgets hchange hstate)
      · obtain ⟨u, hu, hunpublished⟩ :=
          unpublished_of_forgets hs hstep hcond ⟨ht, hout, hstate⟩ hforgets
        rw [hlive'.lookup, some.injEq] at hu
        exact hlive'.state (hu ▸ hunpublished)
  · -- the track that this step creates
    obtain ⟨u, hu, hnew⟩ := created_track hstep hmode
    rw [hlive'.lookup, some.injEq] at hu
    have hhandle : t'.info.pubHandle = info.pubHandle := by
      rw [hu]
      rcases hnew with rfl | rfl
      · rfl
      · rw [TrackState.send_info]
        rfl
    have hturn : ManagerTurn s turn s' := managerTurn hstep
    cases hturn with
    | publish info' resultTx hmode' =>
      cases hmode.symm.trans hmode'
      left
      rw [hhandle]
      exact lookup_insert _
    | _ => simp_all

/-! ## The condition is needed -/

/-- A live track whose descriptor is gone, and that is as before, is not known any more. -/
theorem not_known_of_lost (hlive : s.Live id t) (hrequests : s'.requests = s.requests)
    (hforwards : s'.forwards = s.forwards) (ht : lookup id s'.tracks = some t)
    (hlost : ¬ s'.Registered t.info.pubHandle (.active id)) : ¬ s'.Known := by
  have hout : s'.HandedOut id := by
    have hout := hlive.handedOut
    unfold HandedOut at *
    rw [hrequests, hforwards]
    exact hout
  intro hknown
  exact hlost (hknown id t ⟨ht, hout, hlive.state⟩)

/-- A response that removes the descriptor of a live track. -/
theorem remembers_response (hs : s.Coherent) {event : SfuPublishResponse}
    (hmode : s.mode = .running)
    (hknown : ({ s with queue := rest }.handle turn (.sfuPublishResponse event)).Known)
    (hd : lookup event.handle s.descriptors = some (.active id)) (hlive : s.Live id t) :
    t.state = .republishing ∧ ∃ info, event.result = .ok info := by
  have hhandle : t.info.pubHandle = event.handle := by
    obtain ⟨u, hu, hhandle⟩ := hs.active_track event.handle id (.inl hd)
    rw [hlive.lookup, some.injEq] at hu
    rw [hu, hhandle]
  have hd' : lookup event.handle ({ s with queue := rest } : State).descriptors
      = some (.active id) := hd
  have hturn := eventTurn { s with queue := rest } turn (.sfuPublishResponse event)
  generalize ({ s with queue := rest } : State).handle turn (.sfuPublishResponse event) = s'
    at hknown hturn
  cases hturn with
  | unknown _ hnone => cases hd'.symm.trans hnone
  | late _ _ hpending | accept _ _ _ hpending | reject _ _ _ _ hpending =>
    cases hd'.symm.trans hpending
  | forget _ track hactive =>
    exfalso
    refine absurd hknown (not_known_of_lost hlive rfl rfl hlive.lookup ?_)
    intro hreg
    rcases hreg with hkept | hmem
    · rw [hhandle, lookup_erase] at hkept
      cases hkept
    · rw [hmode] at hmem
      cases hmem
  | respond _ track info hactive hstate hok =>
    cases hd'.symm.trans hactive
    refine ⟨?_, info, hok⟩
    have hpublish : (some t).map TrackState.state = some .republishing := hlive.lookup ▸ hstate
    exact some.inj hpublish

/-- A live track that is removed while nobody is left to be told. -/
theorem unpublishable_of_known (hs : s.Coherent) {event : InputEvent} (hmode : s.mode = .running)
    (hevent : event = .unpublishRequest ⟨h⟩ ∨ event = .sfuUnpublishResponse ⟨h⟩)
    (hknown : ({ s with queue := rest }.handle turn event).Known) : s.Unpublishable h := by
  intro id t hd hlive
  by_contra hreceiver
  have hnone : t.hasReceiver = false := by simpa using hreceiver
  have hhandle : t.info.pubHandle = h := by
    obtain ⟨u, hu, hhandle⟩ := hs.active_track h id (.inl hd)
    rw [hlive.lookup, some.injEq] at hu
    rw [hu, hhandle]
  obtain ⟨descriptors', tracks', he, herase, -, hremoved⟩ :=
    removeDescriptor_eq { s with queue := rest } h
  obtain ⟨t', ht', hcases⟩ := hremoved id t hd hlive.lookup
  have hsame : t' = t := by
    rcases hcases with ⟨hsame, -⟩ | hsent
    · exact hsame
    · rw [hsent, TrackState.send_of_not_hasReceiver hnone]
  have hlost : ∀ s' : State, s'.mode = s.mode → s'.descriptors = descriptors' →
      ¬ s'.Registered t.info.pubHandle (.active id) := by
    intro s' hmode' hdescriptors hreg
    rcases hreg with hd' | hmem
    · rw [hdescriptors, herase, hhandle, if_pos rfl] at hd'
      cases hd'
    · rw [hmode', hmode] at hmem
      cases hmem
  rcases hevent with rfl | rfl
  · rw [handle, onUnpublishRequest, he] at hknown
    exact absurd hknown
      (not_known_of_lost hlive rfl rfl (hsame ▸ ht') (hlost _ rfl rfl))
  · rw [handle, onSfuUnpublishResponse, he] at hknown
    exact absurd hknown
      (not_known_of_lost hlive rfl rfl (hsame ▸ ht') (hlost _ rfl rfl))

/-- A live track that the shutdown unpublishes while nobody is left to be told. -/
theorem hasReceiver_of_stopped (hs : s.Coherent)
    (hmode : s.mode = .stopping ((handle, .active id) :: todo))
    (hknown : ({ s with mode := .awaiting id todo }.sendState id .unpublished).Known)
    (hlive : s.Live id t) : t.hasReceiver = true := by
  by_contra hreceiver
  have hnone : t.hasReceiver = false := by simpa using hreceiver
  have hheld : s.mode.held = (handle, .active id) :: todo := by rw [hmode]; rfl
  have hhandle : t.info.pubHandle = handle := by
    obtain ⟨u, hu, hhandle⟩ := hs.active_track handle id <| by
      right
      rw [hheld]
      exact List.mem_cons_self
    rw [hlive.lookup, some.injEq] at hu
    rw [hu, hhandle]
  rw [sendState, modifyTrack_lookup (by exact hlive.lookup),
    TrackState.send_of_not_hasReceiver hnone] at hknown
  refine absurd hknown (not_known_of_lost hlive rfl rfl (lookup_insert _) ?_)
  rw [hhandle]
  intro hreg
  rcases hreg with hd | hmem
  · have habsent := hs.held_absent handle (.active id) (by rw [hheld]; exact List.mem_cons_self)
    have hc := hd.symm.trans habsent
    cases hc
  · have hnodup := hs.held_nodup
    rw [hheld, List.map_cons, List.nodup_cons] at hnodup
    exact hnodup.1 (List.mem_map.mpr ⟨_, hmem, rfl⟩)

theorem remembers_of_known (hs : s.Coherent) (hstep : s.step a = some s') (hknown : s'.Known) :
    s.Remembers a := by
  intro ha
  cases a with
  | manager turn =>
    split
    · next event rest hmode hqueue =>
      rw [step_event hmode hqueue, some.injEq] at hstep
      rw [← hstep] at hknown
      exact fun id t hd hlive => remembers_response hs hmode hknown hd hlive
    · next event rest hmode hqueue =>
      rw [step_event hmode hqueue, some.injEq] at hstep
      rw [← hstep] at hknown
      exact unpublishable_of_known hs hmode (.inl rfl) hknown
    · next event rest hmode hqueue =>
      rw [step_event hmode hqueue, some.injEq] at hstep
      rw [← hstep] at hknown
      exact unpublishable_of_known hs hmode (.inr rfl) hknown
    · next handle id todo hmode =>
      rw [step_stopActive hmode, some.injEq] at hstep
      rw [← hstep] at hknown
      exact fun t hlive => hasReceiver_of_stopped hs hmode hknown hlive
    · trivial
  | _ => cases ha

/-! ## Runs -/

/-- What the manager knows it reports, republishes and unpublishes. -/
theorem serves_of_known (hknown : s.Known) (hstep : s.step a = some s') : s.Serves a s' := by
  intro ha id t hlive
  have hreg := hknown id t hlive
  have hlookup : s.mode = .running →
      lookup t.info.pubHandle s.descriptors = some (.active id) := by
    intro hmode
    rcases hreg with hd | hmem
    · exact hd
    · rw [hmode] at hmem
      cases hmem
  cases a with
  | manager turn =>
    split
    · next event rest hmode hqueue =>
      rw [step_event hmode hqueue, some.injEq] at hstep
      refine ⟨_, by rw [← hstep]; rfl, ?_⟩
      rw [List.mem_filterMap]
      refine ⟨_, (mem_inOrder s.descriptors turn.order _ _).mpr (hlookup hmode), ?_⟩
      show (lookup id s.tracks).map TrackState.info = some t.info
      rw [hlive.lookup]
      rfl
    · next rest hmode hqueue =>
      rw [step_event hmode hqueue, some.injEq] at hstep
      refine ⟨_, by rw [← hstep]; rfl, ?_⟩
      exact (mem_inOrder s.descriptors turn.order _ _).mpr (hlookup hmode)
    · next rest hmode hqueue =>
      rw [step_event hmode hqueue, some.injEq] at hstep
      refine ⟨_, by rw [← hstep]; rfl, ?_⟩
      exact (mem_inOrder s.descriptors turn.order _ _).mpr (hlookup hmode)
    · trivial
  | _ => cases ha

/-- **No live track is forgotten.** In every run, the manager has an active descriptor for every
live track in every state, and reports, republishes and unpublishes it, exactly when every
response for a live track comes while it is being republished and says that this succeeded, and
somebody is told when the manager unpublishes a live track. -/
theorem known_iff (provider : Option EncryptionProvider) (run : List Action) :
    EachStep State.step (fun s a s' => s'.Known ∧ s.Serves a s') (new provider) run
      ↔ EachStep State.step (fun s a _ => s.Remembers a) (new provider) run := by
  refine eachStep_iff (I := fun s => s.Coherent ∧ s.Known) ?_ ?_
    ⟨new_coherent provider, new_known provider⟩
  · intro s a _ s' hs hstep
    constructor
    · exact fun h => remembers_of_known hs.1 hstep h.1
    · exact fun h => ⟨step_known hs.1 hs.2 hstep h, serves_of_known hs.2 hstep⟩
  · intro s a _ s' hs hstep h
    exact ⟨step_coherent hs.1 hstep, h.1⟩

/-- A second response for a published track: the application has the track, its state is
`Published`, and the manager has no descriptor for it. -/
theorem forgotten_by_duplicate_response : ¬ ∀ run : List Action,
    EachStep State.step (fun s a s' => s'.Known ∧ s.Serves a s') (new none) run := by
  intro hall
  let duplicate : List Action := publishedRun false ++
    [.sendInput (.sfuPublishResponse (.ofInfo
      ⟨⟨"DTR_A", by decide⟩, ⟨1, by decide⟩, "track", false⟩)), .manager Turn.zero]
  have hrun : (exec State.step (new none) duplicate).map (fun s => decide
      (s.publishState 0 = some .published ∧ lookup 0 s.requests = some (.returned 0) ∧
        s.mode = .running ∧ (lookup 0 s.tracks).all fun t =>
          lookup t.info.pubHandle s.descriptors = none)) = some true := by decide
  obtain ⟨s, hs, hstate⟩ := map_eq_some_iff.mp hrun
  obtain ⟨hstate, hreturned, hmode, hlost⟩ := of_decide_eq_true hstate
  obtain ⟨t, ht, hpublished⟩ := map_eq_some_iff.mp hstate
  rw [ht] at hlost
  have hknown : s.Known := exec_invariant_of_eachStep (Q := fun s a s' => s'.Known ∧ s.Serves a s')
    Known (fun _ _ _ _ _ h => h.1) (new_known none) (hall duplicate) hs
  rcases hknown 0 t ⟨ht, .inr ⟨0, hreturned⟩, by simp [hpublished]⟩ with hd | hmem
  · simp [hd] at hlost
  · rw [hmode] at hmem
    cases hmem

end State

end LiveKit.DataTrack.Local
