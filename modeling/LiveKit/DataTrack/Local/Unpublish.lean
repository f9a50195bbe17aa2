import LiveKit.DataTrack.Local.Registry

/-!
# Unpublishing is final

The state of a track lives in a watch channel that the application, the manager and the end of
the manager write to. `unpublish_final_iff` says when a track that was unpublished stays so, and
is not published again with the SFU: the manager must not come across an unpublished track in
the three places where it takes a track for a published one.
-/

namespace LiveKit.DataTrack.Local

open AssocMap TransitionSystem

namespace State

/-- The step from `s` to `s'` keeps every unpublished track unpublished, and sends no publish
request for the handle of one. -/
def KeepsUnpublished (s s' : State) : Prop :=
  ∀ id t, AList.lookup id s.tracks = some t → t.state = .unpublished →
    (∃ t', AList.lookup id s'.tracks = some t' ∧ t'.state = .unpublished) ∧
    ∀ event, .sfuPublishRequest event ∈ s'.outputs.drop s.outputs.length →
      event.handle ≠ t.info.pubHandle

/-- The track has not been unpublished, or nobody receives what is sent on its watch channel. -/
def NotOverwritten (s : State) (track : TrackId) : Prop :=
  ∀ t, AList.lookup track s.tracks = some t → t.state = .unpublished → t.hasReceiver = false

/-- The condition on a step: when the manager is about to mark a track as being republished, or
to mark it as published after a response, it has not been unpublished; and it is not when the
manager is about to send the request that republishes it. -/
def TakesPublished (s : State) (a : Action) : Prop :=
  a.isManager →
    match s.mode with
    | .republishing ((_, .active track) :: _) => s.NotOverwritten track
    | .requesting _ track _ =>
      ∀ t, AList.lookup track s.tracks = some t → t.state ≠ .unpublished
    | .responding _ track _ => s.NotOverwritten track
    | _ => True

variable {s s' : State} {a : Action}

/-- A track is not taken out of the unpublished state under the condition. -/
theorem TrackChange.keepsUnpublished {id : TrackId} {t t' : TrackState}
    (h : TrackChange s a id t t') (ht : AList.lookup id s.tracks = some t)
    (hcond : s.TakesPublished a) (hstate : t.state = .unpublished) : t'.state = .unpublished := by
  cases h with
  | unpublish => exact TrackState.send_unpublished_state hstate
  | mark turn handle todo ha hmode =>
    unfold TakesPublished at hcond
    rw [hmode] at hcond
    have hnone := hcond (by rw [ha]; rfl) t ht hstate
    rw [TrackState.send_of_not_hasReceiver hnone]
    exact hstate
  | respond turn handle sid ha hmode =>
    unfold TakesPublished at hcond
    rw [hmode] at hcond
    have hnone := hcond (by rw [ha]; rfl) t ht hstate
    rw [TrackState.send_of_not_hasReceiver (by exact hnone)]
    exact hstate
  | use frames waiters => exact hstate
  | task move t' ha hinfo hsame => rw [hsame, hstate]

/-- A publish request is for a new handle or for the track that the manager republishes, which is
not an unpublished one under the condition. -/
theorem publishRequest_handle_ne (hs : s.Consistent) (hstep : s.step a = some s')
    (hcond : s.TakesPublished a) {id : TrackId} {t : TrackState}
    (ht : AList.lookup id s.tracks = some t) (hstate : t.state = .unpublished)
    {event : SfuPublishRequest}
    (hmem : .sfuPublishRequest event ∈ s'.outputs.drop s.outputs.length) :
    event.handle ≠ t.info.pubHandle := by
  obtain ⟨new, houtputs, hnew⟩ := step_outputs hstep
  rw [houtputs, List.drop_left] at hmem
  have hle := hs.track_le id t ht
  cases hnew _ hmem with
  | publish handle allocator name hget =>
    obtain ⟨hlt, -⟩ := HandleAllocator.get_lt hget
    intro heq
    rw [← heq] at hle
    exact UInt16.not_le.mpr hlt hle
  | republish handle track todo u hmode hu =>
    intro heq
    -- the two tracks have the same handle, so they are one
    have hid : track = id := hs.handle_unique track id u t hu ht heq
    have ha : a.isManager = true := by
      cases a with
      | manager turn => rfl
      | _ =>
        exfalso
        have hsame := (step_other hstep rfl).outputs
        rw [houtputs] at hsame
        rcases hsame with hsame | ⟨packets, hsame⟩
        · rw [List.append_right_eq_self.mp hsame] at hmem
          cases hmem
        · rw [List.append_cancel_left hsame, List.mem_singleton] at hmem
          cases hmem
    unfold TakesPublished at hcond
    rw [hmode] at hcond
    rw [hid, ht, Option.some.injEq] at hu
    rw [hid] at hcond
    exact hcond ha t ht hstate

/-- One step keeps what is unpublished exactly when the manager takes no unpublished track for a
published one. -/
theorem keepsUnpublished_iff (hs : s.Consistent) (hstep : s.step a = some s') :
    s.KeepsUnpublished s' ↔ s.TakesPublished a := by
  constructor
  · intro hkeep ha
    cases a with
    | manager turn =>
      have hstep : s.managerStep turn = some s' := hstep
      unfold managerStep at hstep
      split
      · next handle track todo hmode =>
        intro t ht hstate
        obtain ⟨⟨t', ht', hstate'⟩, -⟩ := hkeep track t ht hstate
        by_contra hreceiver
        simp only [hmode, Option.some.injEq] at hstep
        rw [← hstep, sendState, modifyTrack_lookup (by exact ht), AList.lookup_insert,
          Option.some.injEq] at ht'
        rw [← ht', TrackState.send_of_hasReceiver (by simpa using hreceiver)] at hstate'
        cases hstate'
      · next handle track todo hmode =>
        intro t ht hstate
        obtain ⟨-, hrequest⟩ := hkeep track t ht hstate
        simp only [hmode, Option.some.injEq] at hstep
        apply hrequest ⟨t.info.pubHandle, t.info.name, t.info.usesE2ee⟩ ?_ rfl
        simp only [← hstep, requestRepublish, ht, emit, List.drop_left]
        exact List.mem_singleton_self _
      · next handle track sid hmode =>
        intro t ht hstate
        obtain ⟨⟨t', ht', hstate'⟩, -⟩ := hkeep track t ht hstate
        by_contra hreceiver
        simp only [hmode, Option.some.injEq] at hstep
        rw [← hstep, republished, modifyTrack_lookup ht, AList.lookup_insert,
          Option.some.injEq] at ht'
        have hsome : t.hasReceiver = true := by simpa using hreceiver
        rw [← ht', TrackState.send_of_hasReceiver (by exact hsome)] at hstate'
        cases hstate'
      · trivial
    | _ => cases ha
  · intro hcond id t ht hstate
    constructor
    · obtain ⟨t', ht', hchange⟩ := track_kept hs hstep ht
      refine ⟨t', ht', ?_⟩
      rcases hchange with rfl | hchange
      · exact hstate
      · exact TrackChange.keepsUnpublished hchange ht hcond hstate
    · intro event hmem
      exact publishRequest_handle_ne hs hstep hcond ht hstate hmem

/-- **Unpublishing is final.** In every run, no track that is unpublished is marked as published
or as being republished later, and no publish request is sent for its handle, exactly when the
manager never takes an unpublished track for a published one. -/
theorem unpublish_final_iff (provider : Option EncryptionProvider) (run : List Action) :
    EachStep State.step (fun s _ s' => s.KeepsUnpublished s') (new provider) run
      ↔ EachStep State.step (fun s a _ => s.TakesPublished a) (new provider) run := by
  refine eachStep_iff ?_ ?_ (new_consistent provider)
  · intro s a _ s' hs hstep
    exact keepsUnpublished_iff hs hstep
  · intro s a _ s' hs hstep _
    exact step_consistent hs hstep

/-- The application unpublishes a track, and a reconnect comes before the task of the track has
looked: the track is marked as being republished. -/
theorem unpublish_overwritten : ¬ ∀ run : List Action,
    EachStep State.step (fun s _ s' => s.KeepsUnpublished s') (new none) run := by
  intro hall
  let before : List Action := publishedRun false ++
    [.unpublish 0, .sendInput .republishTracks, .manager Turn.zero]
  have hbefore : (exec State.step (new none) before).map (fun s => s.publishState 0)
      = some (some .unpublished) := by decide
  have hafter : (exec State.step (new none) (before ++ [.manager Turn.zero])).map
      (fun s => s.publishState 0) = some (some .republishing) := by decide
  obtain ⟨s, hs, hstate⟩ := Option.map_eq_some_iff.mp hbefore
  obtain ⟨s', hs', hstate'⟩ := Option.map_eq_some_iff.mp hafter
  obtain ⟨t, ht, hunpublished⟩ := Option.map_eq_some_iff.mp hstate
  obtain ⟨m, hm, hlast⟩ := exec_append.mp hs'
  cases hs.symm.trans hm
  obtain ⟨s'', hstep, hend⟩ := exec_cons_eq_some.mp hlast
  cases hend
  obtain ⟨-, hkeep⟩ := (hall (before ++ [.manager Turn.zero])).append hs
  obtain ⟨⟨t', ht', hkept⟩, -⟩ := (hkeep s' hstep).1 0 t ht hunpublished
  rw [publishState, ht', Option.map_some, hkept] at hstate'
  cases hstate'

end State

end LiveKit.DataTrack.Local
