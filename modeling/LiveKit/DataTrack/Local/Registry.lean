import LiveKit.DataTrack.Local.SystemTheorems

/-!
# What the manager has for a handle

While a handler is under way a descriptor may be out of the map, in the hands of the manager.
`Registered` covers both, and `Consistent` says how descriptors, tracks and handles belong
together: a handle has one descriptor and one track at most, and an active descriptor is for the
track with its handle. It holds in every reachable state (`step_consistent`).
-/

namespace LiveKit.DataTrack.Local

open AList List AssocMap TransitionSystem

/-- The descriptors that the manager has taken out of the map. -/
def Mode.held : Mode → List (Handle × Descriptor)
  | .creating info resultTx => [(info.pubHandle, .pending resultTx)]
  | .responding handle track _ => [(handle, .active track)]
  | .republishing todo => todo
  | .requesting handle track todo => (handle, .active track) :: todo
  | .stopping todo => todo
  | .awaiting _ todo => todo
  | .running => []
  | .ended => []

/-- The manager has left its run loop. -/
def Mode.isStopped : Mode → Bool
  | .stopping _ | .awaiting _ _ | .ended => true
  | _ => false

namespace State

/-- The manager has the descriptor for the handle. -/
def Registered (s : State) (h : Handle) (d : Descriptor) : Prop :=
  AList.lookup h s.descriptors = some d ∨ (h, d) ∈ s.mode.held

variable {d : Descriptor} {s : State}

variable {h : Handle} {todo : List (Handle × Descriptor)} {id : TrackId} {t' : TrackState}

/-- In its run loop the manager has what is in the map. -/
theorem registered_iff_of_running (hmode : s.mode = .running) :
    s.Registered h d ↔ lookup h s.descriptors = some d := by
  unfold Registered
  rw [hmode]
  simp [Mode.held]

variable {s' : State}

/-- With the map as it was and nothing more held, the manager has no new descriptor. -/
theorem Registered.of_subset (hreg : s'.Registered h d)
    (hdescriptors : s'.descriptors = s.descriptors) (hheld : s'.mode.held ⊆ s.mode.held) :
    s.Registered h d := by
  rcases hreg with hd | hmem
  · left
    rw [← hdescriptors]
    exact hd
  · exact .inr (hheld hmem)

/-- A descriptor is the first that the manager holds, or it stays when that one is taken. -/
theorem Registered.head_or_rest {x : Handle × Descriptor} (hreg : s.Registered h d)
    (hheld : s.mode.held = x :: todo) :
    (h, d) = x ∨ lookup h s.descriptors = some d ∨ (h, d) ∈ todo := by
  rcases hreg with hd | hmem
  · exact .inr (.inl hd)
  · rw [hheld] at hmem
    rcases mem_cons.mp hmem with heq | hmem
    · exact .inl heq
    · exact .inr (.inr hmem)

/-- A descriptor that is put into the map, one that was there, or one that is held. -/
theorem Registered.of_insert {handle : Handle} {d' : Descriptor}
    {descriptors : AssocMap Handle Descriptor} (hreg : s.Registered h d)
    (hdescriptors : s.descriptors = insert handle d' descriptors) :
    (h = handle ∧ d = d') ∨ lookup h descriptors = some d ∨ (h, d) ∈ s.mode.held := by
  rcases hreg with hd | hmem
  · rw [hdescriptors] at hd
    exact (of_lookup_insert hd).imp_right fun hold => .inl hold.2
  · exact .inr (.inr hmem)

structure Consistent (s : State) : Prop where
  track_lt : ∀ id t, AList.lookup id s.tracks = some t → id < s.nextTrack
  functional : ∀ h d d', s.Registered h d → s.Registered h d' → d = d'
  active_track : ∀ h id, s.Registered h (.active id) →
    ∃ t, AList.lookup id s.tracks = some t ∧ t.info.pubHandle = h
  pending_fresh : ∀ h resultTx, s.Registered h (.pending resultTx) →
    ∀ id t, AList.lookup id s.tracks = some t → t.info.pubHandle ≠ h
  handle_unique : ∀ id id' t t', AList.lookup id s.tracks = some t →
    AList.lookup id' s.tracks = some t' → t.info.pubHandle = t'.info.pubHandle → id = id'
  registered_le : ∀ h d, s.Registered h d → h.value ≤ s.handleAllocator.value
  track_le : ∀ id t, AList.lookup id s.tracks = some t →
    t.info.pubHandle.value ≤ s.handleAllocator.value

theorem new_consistent (provider : Option EncryptionProvider) : (new provider).Consistent where
  track_lt := by simp [new]
  functional := by simp [new, Registered, Mode.held]
  active_track := by simp [new, Registered, Mode.held]
  pending_fresh := by simp [new]
  handle_unique := by simp [new]
  registered_le := by simp [new, Registered, Mode.held]
  track_le := by simp [new]

/-! ## What a step does to the descriptors -/

variable {event : InputEvent} {turn : Turn}

/-- Apart from a new pending publication, an event leads to no descriptor that was not there. -/
theorem eventTurn_registered (hturn : EventTurn s turn event s') :
    ((∀ h d, s'.Registered h d → s.Registered h d) ∧
      s.handleAllocator.value ≤ s'.handleAllocator.value ∧ s'.nextTrack = s.nextTrack) ∨
    ∃ handle allocator resultTx, s.handleAllocator.get = some (handle, allocator) ∧
      s'.handleAllocator = allocator ∧ s'.nextTrack = s.nextTrack ∧
      lookup resultTx s'.forwards = some ⟨handle, none, .running⟩ ∧
      ∀ h d, s'.Registered h d → s.Registered h d ∨ h = handle ∧ d = .pending resultTx := by
  -- a descriptor is removed, and nothing is held, or that one
  have herase : ∀ {s' : State} {handle : Handle},
      (∀ h, lookup h s'.descriptors
        = if h = handle then none else lookup h s.descriptors) →
      (∀ h d, (h, d) ∈ s'.mode.held → s.Registered h d) →
      ∀ h d, s'.Registered h d → s.Registered h d := by
    intro s' handle hlookup hheld h d hreg
    rcases hreg with hd | hmem
    · rw [hlookup] at hd
      split at hd
      · cases hd
      · exact .inl hd
    · exact hheld h d hmem
  have hnone : ∀ h d, (h, d) ∈ s.mode.held → s.Registered h d := fun _ _ hmem => .inr hmem
  -- all descriptors are taken out of the map
  have htake : ∀ h d, (h, d) ∈ inOrder s.descriptors turn.order → s.Registered h d := by
    intro h d hmem
    exact .inl ((mem_inOrder s.descriptors turn.order h d).mp hmem)
  have hle := UInt16.le_refl s.handleAllocator.value
  have hsame : ∀ h d, s.Registered h d → s.Registered h d := fun _ _ hreg => hreg
  cases hturn with
  | refuse _ _ _ hle | answer | unknown => exact .inl ⟨hsame, hle, rfl⟩
  | pend event handle allocator hget =>
    refine .inr ⟨handle, allocator, event.resultTx, hget, rfl, rfl, lookup_insert _, ?_⟩
    intro h d hreg
    rcases hreg with hd | hmem
    · exact (of_lookup_insert hd).symm.imp_left fun hold => .inl hold.2
    · exact .inl (.inr hmem)
  | unpublish event descriptors' tracks' hdescriptors
  | unpublished event descriptors' tracks' hdescriptors =>
    exact .inl ⟨herase hdescriptors hnone, hle, rfl⟩
  | cancel event | late event | reject event | forget event =>
    exact .inl ⟨herase (lookup_erase_ite s.descriptors event.handle) hnone, hle, rfl⟩
  | accept event resultTx info hd hresult =>
    refine .inl ⟨herase (lookup_erase_ite s.descriptors event.handle) ?_, hle, rfl⟩
    intro h d hmem
    obtain ⟨rfl, rfl⟩ := Prod.mk.inj (mem_singleton.mp hmem)
    rw [event.handle_eq info hresult]
    exact .inl hd
  | respond event track info hd =>
    refine .inl ⟨herase (lookup_erase_ite s.descriptors event.handle) ?_, hle, rfl⟩
    intro h d hmem
    obtain ⟨rfl, rfl⟩ := Prod.mk.inj (mem_singleton.mp hmem)
    exact .inl hd
  | republish | shutdown =>
    refine .inl ⟨?_, hle, rfl⟩
    intro h d hreg
    rcases hreg with hd | hmem
    · cases hd
    · exact htake h d hmem

variable {a : Action}

/-- The three kinds of steps, as far as descriptors are concerned: one that brings no new
descriptor, one that brings a pending publication with a new handle, and one that makes the
pending publication that the manager holds an active one. -/
theorem step_registered (hstep : s.step a = some s') :
    ((∀ h d, s'.Registered h d → s.Registered h d) ∧
      s.handleAllocator.value ≤ s'.handleAllocator.value ∧ s'.nextTrack = s.nextTrack ∧
      s.tracksWithNew a = s.tracks) ∨
    (∃ handle allocator resultTx, s.handleAllocator.get = some (handle, allocator) ∧
      s'.handleAllocator = allocator ∧ s'.nextTrack = s.nextTrack ∧
      s.tracksWithNew a = s.tracks ∧
      lookup resultTx s'.forwards = some ⟨handle, none, .running⟩ ∧
      ∀ h d, s'.Registered h d → s.Registered h d ∨ h = handle ∧ d = .pending resultTx) ∨
    ∃ turn info resultTx, s.mode = .creating info resultTx ∧
      s'.handleAllocator = s.handleAllocator ∧ s'.nextTrack = s.nextTrack + 1 ∧
      s.tracksWithNew a = insert s.nextTrack (s.newTrack info turn) s.tracks ∧
      ∀ h d, s'.Registered h d → h = info.pubHandle ∧ d = .active s.nextTrack ∨
        h ≠ info.pubHandle ∧ s.Registered h d := by
  by_cases ha : a.isManager = false
  · left
    have hother := step_other hstep ha
    refine ⟨?_, ?_, hother.nextTrack, ?_⟩
    · intro h d hreg
      unfold Registered at *
      rwa [hother.descriptors, hother.mode] at hreg
    · rw [hother.handleAllocator]
      exact UInt16.le_refl _
    · cases a with
      | manager turn => cases ha
      | _ => rfl
  · -- a turn that brings no descriptor and no track
    have hback : (∀ info resultTx, s.mode ≠ .creating info resultTx) →
        s'.handleAllocator = s.handleAllocator → s'.nextTrack = s.nextTrack →
        (∀ h d, s'.Registered h d → s.Registered h d) →
        (∀ h d, s'.Registered h d → s.Registered h d) ∧
          s.handleAllocator.value ≤ s'.handleAllocator.value ∧ s'.nextTrack = s.nextTrack ∧
          s.tracksWithNew a = s.tracks :=
      fun hmode halloc hnext hreg => ⟨hreg, by rw [halloc]; exact UInt16.le_refl _, hnext,
        tracksWithNew_of_mode a hmode⟩
    cases a with
    | manager turn =>
      cases managerTurn hstep with
      | event event rest hmode hqueue s' hturn =>
        have hnew : s.tracksWithNew (.manager turn) = s.tracks :=
          tracksWithNew_of_mode _ (by simp [hmode])
        rcases eventTurn_registered hturn with
          ⟨hreg, hle, hnext⟩ | ⟨handle, allocator, resultTx, hget, halloc, hnext, hf, hreg⟩
        · exact .inl ⟨hreg, hle, hnext, hnew⟩
        · exact .inr (.inl
            ⟨handle, allocator, resultTx, hget, halloc, hnext, hnew, hf, hreg⟩)
      | publish info resultTx hmode =>
        right; right
        refine ⟨turn, info, resultTx, hmode, rfl, rfl, by unfold tracksWithNew; rw [hmode], ?_⟩
        intro h d hreg
        rcases hreg with hd | hmem
        · exact (of_lookup_insert hd).imp_right fun hold => ⟨hold.1, .inl hold.2⟩
        · cases hmem
      | respond handle track sid hmode =>
        refine .inl <| hback (by simp [hmode]) rfl rfl fun h d hreg => ?_
        rcases hreg.of_insert rfl with ⟨rfl, rfl⟩ | hd | hmem
        · right
          rw [hmode]
          exact mem_singleton_self _
        · exact .inl hd
        · cases hmem
      | request handle track todo hmode =>
        refine .inl <| hback (by simp [hmode]) rfl rfl fun h d hreg => ?_
        rcases hreg.of_insert rfl with ⟨rfl, rfl⟩ | hd | hmem
        · right
          rw [hmode]
          exact mem_cons_self
        · exact .inl hd
        · right
          rw [hmode]
          exact mem_cons_of_mem _ hmem
      | republishEnd hmode | stopEnd hmode =>
        exact .inl <| hback (by simp [hmode]) rfl rfl fun _ _ hreg =>
          hreg.of_subset rfl (nil_subset _)
      | republishPending handle resultTx todo hmode | stopPending handle resultTx todo hmode
      | stopActive handle track todo hmode =>
        refine .inl <| hback (by simp [hmode]) rfl rfl fun _ _ hreg => hreg.of_subset rfl ?_
        rw [hmode]
        exact subset_cons_self _ _
      | mark handle track todo hmode | awaited track todo t hmode =>
        refine .inl <| hback (by simp [hmode]) rfl rfl fun _ _ hreg => hreg.of_subset rfl ?_
        rw [hmode]
        exact List.Subset.refl _
    | _ => exact absurd rfl ha

/-! ## The invariant -/

variable {t : TrackState}

theorem TrackChange.pubHandle (h : TrackChange s a id t t') :
    t'.info.pubHandle = t.info.pubHandle := by
  cases h with
  | unpublish | mark => rw [TrackState.send_info]
  | respond turn handle sid => rw [TrackState.send_info]; rfl
  | use => rfl
  | task move t' ha hinfo => rw [hinfo]

/-- Tracks that change keep their handles. -/
theorem pubHandle_of_step (hstep : s.step a = some s') (ht' : lookup id s'.tracks = some t') :
    ∃ t, lookup id (s.tracksWithNew a) = some t ∧
      t'.info.pubHandle = t.info.pubHandle := by
  obtain ⟨t, ht, hchange⟩ := (step_tracks hstep).to_some ht'
  rcases hchange with rfl | hchange
  · exact ⟨t', ht, rfl⟩
  · exact ⟨t, ht, hchange.pubHandle⟩

/-- The other way round: the tracks that there are, with a new one, are there after the step. -/
theorem pubHandle_to_step (hstep : s.step a = some s') {id : TrackId}
    (ht : lookup id (s.tracksWithNew a) = some t) :
    ∃ t', lookup id s'.tracks = some t' ∧ t'.info.pubHandle = t.info.pubHandle := by
  obtain ⟨t', ht', hchange⟩ := (step_tracks hstep).of_some ht
  rcases hchange with rfl | hchange
  · exact ⟨t', ht', rfl⟩
  · exact ⟨t', ht', hchange.pubHandle⟩

/-- The track that the manager creates; nobody may be waiting for it any more. -/
theorem created_track (hstep : s.step (.manager turn) = some s') {info : DataTrackInfo}
    {resultTx : RequestId} (hmode : s.mode = .creating info resultTx) :
    ∃ t', lookup s.nextTrack s'.tracks = some t' ∧
      (t' = s.newTrack info turn ∨ t' = (s.newTrack info turn).send .unpublished) := by
  cases managerTurn hstep with
  | publish info' resultTx' hmode' forwards' tracks' hforwards htracks =>
    cases hmode.symm.trans hmode'
    exact htracks.of_some (lookup_insert _)
  | _ => simp_all

/-- The new track takes no other track's place. -/
theorem Consistent.lookup_tracksWithNew (hs : s.Consistent) (a : Action)
    (ht : lookup id s.tracks = some t) : lookup id (s.tracksWithNew a) = some t := by
  unfold tracksWithNew
  split
  · rw [lookup_insert_ite, if_neg (Nat.ne_of_lt (hs.track_lt id t ht))]
    exact ht
  · exact ht

/-- A track stays, and a step changes it as it can. -/
theorem track_kept (hs : s.Consistent) (hstep : s.step a = some s')
    (ht : lookup id s.tracks = some t) :
    ∃ t', lookup id s'.tracks = some t' ∧ (t' = t ∨ TrackChange s a id t t') :=
  (step_tracks hstep).of_some (hs.lookup_tracksWithNew a ht)

/-- A track stays, with its handle. -/
theorem handle_kept (hs : s.Consistent) (hstep : s.step a = some s')
    (ht : lookup id s.tracks = some t) :
    ∃ t', lookup id s'.tracks = some t' ∧ t'.info.pubHandle = t.info.pubHandle :=
  pubHandle_to_step hstep (hs.lookup_tracksWithNew a ht)

/-- The invariant goes on when the tracks keep their handles and every new descriptor is a pending
publication with a handle above the ones given out. -/
theorem Consistent.of_fresh (hs : s.Consistent) {fresh : Handle → Descriptor → Prop}
    (hback : ∀ id t', lookup id s'.tracks = some t' →
      ∃ t, lookup id s.tracks = some t ∧ t'.info.pubHandle = t.info.pubHandle)
    (hforth : ∀ id t, lookup id s.tracks = some t →
      ∃ t', lookup id s'.tracks = some t' ∧ t'.info.pubHandle = t.info.pubHandle)
    (hnext : s'.nextTrack = s.nextTrack) (hle : s.handleAllocator.value ≤ s'.handleAllocator.value)
    (hreg : ∀ h d, s'.Registered h d → s.Registered h d ∨ fresh h d) (habove : ∀ h d, fresh h d →
      s.handleAllocator.value < h.value ∧ h.value ≤ s'.handleAllocator.value)
    (hpending : ∀ h id, ¬fresh h (.active id)) (hone : ∀ h d d', fresh h d → fresh h d' → d = d') :
    s'.Consistent := by
  -- a new descriptor has a handle that no old one has
  have hnew : ∀ h d, fresh h d → ¬h.value ≤ s.handleAllocator.value :=
    fun h d hf => UInt16.not_le.mpr (habove h d hf).1
  constructor
  · intro id t' ht'
    obtain ⟨t, ht, -⟩ := hback id t' ht'
    rw [hnext]
    exact hs.track_lt id t ht
  · intro h d d' hd hd'
    rcases hreg h d hd with hold | hf
    · rcases hreg h d' hd' with hold' | hf'
      · exact hs.functional h d d' hold hold'
      · exact absurd (hs.registered_le h d hold) (hnew h d' hf')
    · rcases hreg h d' hd' with hold' | hf'
      · exact absurd (hs.registered_le h d' hold') (hnew h d hf)
      · exact hone h d d' hf hf'
  · intro h id hd
    rcases hreg _ _ hd with hold | hf
    · obtain ⟨t, ht, hhandle⟩ := hs.active_track h id hold
      obtain ⟨t', ht', hsame⟩ := hforth id t ht
      exact ⟨t', ht', hsame.trans hhandle⟩
    · exact absurd hf (hpending h id)
  · intro h resultTx hd id t' ht'
    obtain ⟨t, ht, hsame⟩ := hback id t' ht'
    rw [hsame]
    rcases hreg _ _ hd with hold | hf
    · exact hs.pending_fresh h resultTx hold id t ht
    · intro heq
      have htrack := hs.track_le id t ht
      rw [heq] at htrack
      exact hnew h _ hf htrack
  · intro id id' t₁ t₂ ht₁ ht₂ heq
    obtain ⟨u₁, hu₁, hsame₁⟩ := hback id t₁ ht₁
    obtain ⟨u₂, hu₂, hsame₂⟩ := hback id' t₂ ht₂
    rw [hsame₁, hsame₂] at heq
    exact hs.handle_unique id id' u₁ u₂ hu₁ hu₂ heq
  · intro h d hd
    rcases hreg h d hd with hold | hf
    · exact UInt16.le_trans (hs.registered_le h d hold) hle
    · exact (habove h d hf).2
  · intro id t' ht'
    obtain ⟨t, ht, hsame⟩ := hback id t' ht'
    rw [hsame]
    exact UInt16.le_trans (hs.track_le id t ht) hle

theorem step_consistent (hs : s.Consistent) (hstep : s.step a = some s') : s'.Consistent := by
  have hback : ∀ id t', lookup id s'.tracks = some t' →
      ∃ t, lookup id (s.tracksWithNew a) = some t ∧
        t'.info.pubHandle = t.info.pubHandle := fun _ _ => pubHandle_of_step hstep
  have hforth : ∀ id t, lookup id (s.tracksWithNew a) = some t →
      ∃ t', lookup id s'.tracks = some t' ∧
        t'.info.pubHandle = t.info.pubHandle := fun _ _ => pubHandle_to_step hstep
  rcases step_registered hstep with
    ⟨hreg, hle, hnext, hnew⟩ | ⟨handle, allocator, resultTx, hget, halloc, hnext, hnew, -, hreg⟩ |
      ⟨turn, info, resultTx, hmode, halloc, hnext, hnew, hreg⟩
  · -- no descriptor is new
    rw [hnew] at hback hforth
    have hold : ∀ h d, s'.Registered h d → s.Registered h d ∨ False :=
      fun h d hd => .inl (hreg h d hd)
    exact hs.of_fresh hback hforth hnext hle hold
      (fun _ _ hf => hf.elim) (fun _ _ hf => hf) (fun _ _ _ hf => hf.elim)
  · -- the pending publication is, and its handle is the one that the allocator gives out
    obtain ⟨hlt, hvalue⟩ := HandleAllocator.get_lt hget
    have hle : s.handleAllocator.value ≤ s'.handleAllocator.value := by
      rw [halloc, hvalue]
      exact UInt16.le_of_lt hlt
    rw [hnew] at hback hforth
    apply hs.of_fresh hback hforth hnext hle hreg
    · rintro h d ⟨rfl, -⟩
      refine ⟨hlt, ?_⟩
      rw [halloc, hvalue]
      exact UInt16.le_refl _
    · rintro h id ⟨-, hc⟩
      cases hc
    · rintro h d d' ⟨-, hd⟩ ⟨-, hd'⟩
      rw [hd, hd']
  · have hpending : s.Registered info.pubHandle (.pending resultTx) := by
      right
      rw [hmode]
      exact mem_singleton_self _
    have hlookup : ∀ id, lookup id (s.tracksWithNew a)
        = if id = s.nextTrack then some (s.newTrack info turn)
          else lookup id s.tracks := by
      intro id
      rw [hnew, lookup_insert_ite]
    -- a track is the new one, or it is an old one with another handle
    have hcases : ∀ id t', lookup id s'.tracks = some t' →
        id = s.nextTrack ∧ t'.info.pubHandle = info.pubHandle ∨
        ∃ t, lookup id s.tracks = some t ∧ t'.info.pubHandle = t.info.pubHandle ∧
          t.info.pubHandle ≠ info.pubHandle := by
      intro id t' ht'
      obtain ⟨t, ht, hsame⟩ := hback id t' ht'
      rw [hlookup] at ht
      split at ht
      · next heq =>
        cases ht
        exact .inl ⟨heq, hsame⟩
      · exact .inr ⟨t, ht, hsame, hs.pending_fresh _ _ hpending id t ht⟩
    constructor
    · intro id t' ht'
      rw [hnext]
      rcases hcases id t' ht' with ⟨heq, -⟩ | ⟨t, ht, -⟩
      · rw [heq]
        exact Nat.lt_succ_self _
      · exact Nat.lt_succ_of_lt (hs.track_lt id t ht)
    · intro h d d' hd hd'
      rcases hreg h d hd with ⟨heq, hactive⟩ | ⟨hne, hold⟩
      · rcases hreg h d' hd' with ⟨-, hactive'⟩ | ⟨hne', -⟩
        · rw [hactive, hactive']
        · exact absurd heq hne'
      · rcases hreg h d' hd' with ⟨heq', -⟩ | ⟨-, hold'⟩
        · exact absurd heq' hne
        · exact hs.functional h d d' hold hold'
    · intro h id hd
      rcases hreg _ _ hd with ⟨heq, hactive⟩ | ⟨hne, hold⟩
      · cases hactive
        obtain ⟨t', ht', hsame⟩ := hforth s.nextTrack (s.newTrack info turn)
          ((hlookup _).trans (if_pos rfl))
        rw [heq]
        exact ⟨t', ht', hsame⟩
      · obtain ⟨t, ht, hhandle⟩ := hs.active_track h id hold
        have hne : id ≠ s.nextTrack := Nat.ne_of_lt (hs.track_lt id t ht)
        have ht₁ := (hlookup id).trans ((if_neg hne).trans ht)
        obtain ⟨t', ht', hsame⟩ := hforth id t ht₁
        exact ⟨t', ht', hsame.trans hhandle⟩
    · intro h resultTx' hd id t' ht'
      rcases hreg _ _ hd with ⟨-, hc⟩ | ⟨hne, hold⟩
      · cases hc
      · rcases hcases id t' ht' with ⟨-, hsame⟩ | ⟨t, ht, hsame, -⟩
        · rw [hsame]
          exact fun hc => hne hc.symm
        · rw [hsame]
          exact hs.pending_fresh h resultTx' hold id t ht
    · intro id id' t₁ t₂ ht₁ ht₂ heq
      rcases hcases id t₁ ht₁ with ⟨hid, hsame⟩ | ⟨u, hu, hsame, hne⟩
      · rcases hcases id' t₂ ht₂ with ⟨hid', -⟩ | ⟨u', hu', hsame', hne'⟩
        · rw [hid, hid']
        · rw [hsame, hsame'] at heq
          exact absurd heq.symm hne'
      · rcases hcases id' t₂ ht₂ with ⟨-, hsame'⟩ | ⟨u', hu', hsame', -⟩
        · rw [hsame, hsame'] at heq
          exact absurd heq hne
        · rw [hsame, hsame'] at heq
          exact hs.handle_unique id id' u u' hu hu' heq
    · intro h d hd
      rw [halloc]
      rcases hreg h d hd with ⟨heq, -⟩ | ⟨-, hold⟩
      · rw [heq]
        exact hs.registered_le _ _ hpending
      · exact hs.registered_le h d hold
    · intro id t' ht'
      rw [halloc]
      rcases hcases id t' ht' with ⟨-, hsame⟩ | ⟨t, ht, hsame, -⟩
      · rw [hsame]
        exact hs.registered_le _ _ hpending
      · rw [hsame]
        exact hs.track_le id t ht

/-! ## No descriptor twice -/

/-- What the manager holds is not in the map, and it holds one descriptor for a handle at most.
In the end it holds all that there are. -/
structure Exclusive (s : State) : Prop where
  held_nodup : (s.mode.held.map Prod.fst).Nodup
  held_absent : ∀ h d, (h, d) ∈ s.mode.held → AList.lookup h s.descriptors = none
  stopped_absent : s.mode.isStopped = true → ∀ h, AList.lookup h s.descriptors = none

theorem Exclusive.of_running (hmode : s.mode = .running) : s.Exclusive := by
  constructor
  · rw [hmode]
    exact nodup_nil
  · rw [hmode]
    simp [Mode.held]
  · rw [hmode]
    simp [Mode.isStopped]

theorem new_exclusive (provider : Option EncryptionProvider) : (new provider).Exclusive :=
  .of_running rfl

/-- The part of the descriptors that a loop has not come to is exclusive as well. -/
theorem Exclusive.tail {h : Handle} {todo : List (Handle × Descriptor)} (hs : s.Exclusive)
    (hheld : s.mode.held = (h, d) :: todo) (hheld' : s'.mode.held = todo)
    (hdescriptors : ∀ k, k ≠ h → lookup k s'.descriptors = lookup k s.descriptors)
    (hstopped : s'.mode.isStopped = true →
      s.mode.isStopped = true ∧ s'.descriptors = s.descriptors) : s'.Exclusive := by
  have hnodup := hs.held_nodup
  have habsent := hs.held_absent
  rw [hheld] at hnodup habsent
  rw [map_cons, nodup_cons] at hnodup
  constructor
  · rw [hheld']
    exact hnodup.2
  · intro k e hmem
    rw [hheld'] at hmem
    rw [hdescriptors k]
    · exact habsent k e (mem_cons_of_mem _ hmem)
    · intro heq
      apply hnodup.1
      rw [← heq]
      exact mem_map.mpr ⟨(k, e), hmem, rfl⟩
  · intro hend
    obtain ⟨hstop, hsame⟩ := hstopped hend
    rw [hsame]
    exact hs.stopped_absent hstop

theorem eventTurn_exclusive (hmode : s.mode = .running) (hturn : EventTurn s turn event s') :
    s'.Exclusive := by
  -- the descriptor that the manager holds is the one that it has taken out
  have htaken : ∀ (handle : Handle) (mode : Mode) (d : Descriptor), mode.held = [(handle, d)] →
      mode.isStopped = false →
      Exclusive { s with descriptors := erase handle s.descriptors, mode } := by
    intro handle mode d hone hrunning
    constructor
    · rw [hone]
      simp
    · intro h d' hmem
      rw [hone, mem_singleton] at hmem
      cases hmem
      exact lookup_erase _ _
    · exact fun hend => absurd hend (by simp [hrunning])
  cases hturn with
  | accept event resultTx info hd hresult =>
    refine htaken event.handle _ (.pending resultTx) ?_ rfl
    rw [Mode.held, event.handle_eq info hresult]
  | respond event track info => exact htaken event.handle _ (.active track) rfl rfl
  | republish | shutdown =>
    exact ⟨(inOrder_iterOrder s.descriptors turn.order).keys_nodup, fun _ _ _ => rfl,
      fun _ _ => rfl⟩
  | _ => exact .of_running hmode

theorem step_exclusive (hs : s.Exclusive) (hstep : s.step a = some s') : s'.Exclusive := by
  by_cases ha : a.isManager = false
  · have hother := step_other hstep ha
    constructor
    · rw [hother.mode]
      exact hs.held_nodup
    · rw [hother.mode, hother.descriptors]
      exact hs.held_absent
    · rw [hother.mode, hother.descriptors]
      exact hs.stopped_absent
  · cases a with
    | manager turn =>
      have hnodup := hs.held_nodup
      have habsent := hs.held_absent
      cases managerTurn hstep with
      | event event rest hmode hqueue s' hturn =>
        exact eventTurn_exclusive (s := { s with queue := rest }) hmode hturn
      | publish | respond | republishEnd => exact .of_running rfl
      | republishPending handle resultTx todo hmode =>
        exact hs.tail (by rw [hmode]; rfl) rfl (fun _ _ => rfl) (by simp [Mode.isStopped])
      | mark handle track todo hmode =>
        rw [hmode] at hnodup habsent
        exact ⟨hnodup, habsent, by simp [Mode.isStopped]⟩
      | request handle track todo hmode =>
        exact hs.tail (by rw [hmode]; rfl) rfl (fun k hne => lookup_insert_ne hne)
          (by simp [Mode.isStopped])
      | stopEnd hmode =>
        exact ⟨nodup_nil, by simp [Mode.held],
          fun _ => hs.stopped_absent (by rw [hmode]; rfl)⟩
      | stopPending handle resultTx todo hmode | stopActive handle track todo hmode =>
        exact hs.tail (by rw [hmode]; rfl) rfl (fun _ _ => rfl)
          fun _ => ⟨by rw [hmode]; rfl, rfl⟩
      | awaited track todo t hmode =>
        rw [hmode] at hnodup habsent
        exact ⟨hnodup, habsent, fun _ => hs.stopped_absent (by rw [hmode]; rfl)⟩
    | _ => exact absurd rfl ha

/-! ## How the manager loses a descriptor -/

/-- The ways in which an active descriptor is lost in a step. -/
inductive Forgets (s : State) (a : Action) (h : Handle) (id : TrackId) : Prop
  | response (turn : Turn) (event : SfuPublishResponse) (rest : List InputEvent)
      (ha : a = .manager turn) (hmode : s.mode = .running)
      (hqueue : s.queue = .sfuPublishResponse event :: rest) (hhandle : event.handle = h)
      (hd : AList.lookup h s.descriptors = some (.active id))
      (hresult : s.publishState id ≠ some .republishing ∨ ∃ err, event.result = .error err)
  | cancelled (turn : Turn) (rest : List InputEvent) (ha : a = .manager turn)
      (hmode : s.mode = .running) (hqueue : s.queue = .publishCancelled ⟨h⟩ :: rest)
  | removed (turn : Turn) (event : InputEvent) (rest : List InputEvent) (ha : a = .manager turn)
      (hmode : s.mode = .running) (hqueue : s.queue = event :: rest)
      (hevent : event = .unpublishRequest ⟨h⟩ ∨ event = .sfuUnpublishResponse ⟨h⟩)
      (hd : AList.lookup h s.descriptors = some (.active id))
  | stopped (turn : Turn) (todo : List (Handle × Descriptor)) (ha : a = .manager turn)
      (hmode : s.mode = .stopping ((h, .active id) :: todo))

/-- An event costs the manager the active descriptor in these ways only. -/
theorem eventTurn_keeps (hs : s.Consistent) (hmode : s.mode = .running) {rest : List InputEvent}
    (hqueue : s.queue = event :: rest) (hd : lookup h s.descriptors = some (.active id))
    (hturn : EventTurn { s with queue := rest } turn event s') :
    s'.Registered h (.active id) ∨ s.Forgets (.manager turn) h id := by
  -- the descriptor of another handle is removed
  have hne : ∀ {s' : State} {h' : Handle}, h ≠ h' →
      (∀ k, lookup k s'.descriptors
        = if k = h' then none else lookup k s.descriptors) →
      s'.Registered h (.active id) ∨ s.Forgets (.manager turn) h id := by
    intro s' h' hne herase
    left; left
    rw [herase, if_neg hne, hd]
  have hother : ∀ {h' : Handle} {descriptor : Descriptor},
      lookup h' s.descriptors = some descriptor → descriptor ≠ .active id → h ≠ h' := by
    rintro h' descriptor hd' hnot rfl
    exact hnot (Option.some.inj (hd'.symm.trans hd))
  cases hturn with
  | refuse | answer | unknown => exact .inl (.inl hd)
  | pend event handle allocator hget =>
    refine .inl (.inl ((lookup_insert_ne ?_).trans hd))
    intro heq
    have hle := hs.registered_le _ _ (.inl hd)
    rw [heq] at hle
    exact UInt16.not_le.mpr (HandleAllocator.get_lt hget).1 hle
  | cancel event =>
    by_cases heq : h = event.handle
    · right
      rw [heq]
      exact .cancelled turn rest rfl hmode hqueue
    · exact hne heq (lookup_erase_ite s.descriptors event.handle)
  | unpublish event descriptors' tracks' hdescriptors =>
    by_cases heq : h = event.handle
    · right
      rw [heq] at hd ⊢
      exact .removed turn _ rest rfl hmode hqueue (.inl rfl) hd
    · exact hne heq hdescriptors
  | unpublished event descriptors' tracks' hdescriptors =>
    by_cases heq : h = event.handle
    · right
      rw [heq] at hd ⊢
      exact .removed turn _ rest rfl hmode hqueue (.inr rfl) hd
    · exact hne heq hdescriptors
  | late event resultTx hd' | accept event resultTx info hd' | reject event resultTx err _ hd' =>
    exact hne (hother hd' nofun) (lookup_erase_ite s.descriptors event.handle)
  | forget event track hd' hresult =>
    by_cases heq : h = event.handle
    · right
      subst heq
      cases hd.symm.trans hd'
      exact .response turn event rest rfl hmode hqueue rfl hd hresult
    · exact hne heq (lookup_erase_ite s.descriptors event.handle)
  | respond event track info hd' =>
    by_cases heq : h = event.handle
    · subst heq
      cases hd.symm.trans hd'
      exact .inl (.inr (mem_singleton_self _))
    · exact hne heq (lookup_erase_ite s.descriptors event.handle)
  | republish | shutdown =>
    exact .inl (.inr ((mem_inOrder s.descriptors turn.order h _).mpr hd))

/-- Apart from that, the manager keeps the active descriptors that it has. -/
theorem keeps_registered (hs : s.Consistent) (hstep : s.step a = some s')
    (hreg : s.Registered h (.active id)) :
    s'.Registered h (.active id) ∨ s.Forgets a h id := by
  by_cases ha : a.isManager = false
  · have hother := step_other hstep ha
    unfold Registered at *
    rw [hother.descriptors, hother.mode]
    exact .inl hreg
  · cases a with
    | manager turn =>
      -- the descriptor is in the map, or the manager holds it
      have hlookup : s.mode.held = [] → lookup h s.descriptors = some (.active id) := by
        intro hheld
        rcases hreg with hd | hmem
        · exact hd
        · rw [hheld] at hmem
          cases hmem
      -- a descriptor that is put into the map is the only one for its handle
      have hput : ∀ {handle : Handle} {d : Descriptor} {mode : Mode}, s.Registered handle d →
          (h ≠ handle → lookup h s.descriptors = some (.active id) ∨
            (h, .active id) ∈ mode.held) →
          lookup h (insert handle d s.descriptors) = some (.active id) ∨
            (h, .active id) ∈ mode.held := by
        intro handle d mode hheld hrest
        by_cases heq : h = handle
        · left
          rw [heq] at hreg ⊢
          rw [hs.functional _ _ _ hreg hheld, lookup_insert]
        · rw [lookup_insert_ne heq]
          exact hrest heq
      cases managerTurn hstep with
      | event event rest hmode hqueue s' hturn =>
        exact eventTurn_keeps hs hmode hqueue (hlookup (by rw [hmode]; rfl)) hturn
      | publish info resultTx hmode =>
        -- the handle of the new track was a pending one
        have hpending : s.Registered info.pubHandle (.pending resultTx) := by
          right
          rw [hmode]
          exact mem_singleton_self _
        have hne : h ≠ info.pubHandle := by
          intro heq
          rw [heq] at hreg
          cases hs.functional _ _ _ hreg hpending
        refine .inl (.inl ((lookup_insert_ne hne).trans ?_))
        rcases hreg with hd | hmem
        · exact hd
        · rw [hmode, Mode.held, mem_singleton] at hmem
          cases hmem
      | respond handle track sid hmode =>
        refine .inl (hput (.inr ?_) fun hne => ?_)
        · rw [hmode]
          exact mem_singleton_self _
        · rcases hreg with hd | hmem
          · exact .inl hd
          · rw [hmode, Mode.held, mem_singleton] at hmem
            cases hmem
            exact absurd rfl hne
      | request handle track todo hmode =>
        refine .inl (hput (.inr ?_) fun hne => ?_)
        · rw [hmode]
          exact mem_cons_self
        · rcases hreg.head_or_rest (by rw [hmode]; rfl) with heq | hreg
          · cases heq
            exact absurd rfl hne
          · exact hreg
      | republishEnd hmode | stopEnd hmode => exact .inl (.inl (hlookup (by rw [hmode]; rfl)))
      | republishPending handle resultTx todo hmode | stopPending handle resultTx todo hmode =>
        rcases hreg.head_or_rest (by rw [hmode]; rfl) with heq | hreg
        · cases heq
        · exact .inl hreg
      | stopActive handle track todo hmode =>
        rcases hreg.head_or_rest (by rw [hmode]; rfl) with heq | hreg
        · cases heq
          exact .inr (.stopped turn todo rfl hmode)
        · exact .inl hreg
      | mark handle track todo hmode | awaited track todo t hmode =>
        rcases hreg with hd | hmem
        · exact .inl (.inl hd)
        · rw [hmode] at hmem
          exact .inl (.inr hmem)
    | _ => exact absurd rfl ha

end State

end LiveKit.DataTrack.Local
