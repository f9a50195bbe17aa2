import LiveKit.DataTrack.Remote.Manager
import LiveKit.Lib.TransitionSystem

/-!
# The index of subscriber handles

`sub_handles` is an index into `descriptors`: it should map a handle to a track exactly when
the track has an active subscription with that handle (`ConsistentIndex`).

Every handler but one keeps the index whatever the state. `register_subscriber_handle` takes
the track's old handle out of the index without a look at whom it belongs to by then, so it
matters in which order the entries of a mapping are visited: `NoForeignHandle` says that
nobody else holds the handle of an entry when its turn comes. `index_consistent_iff` says that
this is exactly what the index needs, in whole runs.
-/

namespace LiveKit.DataTrack.Remote

open AList List TransitionSystem

namespace Manager

/-- A handle that is assigned to the track will be taken: it has a pending or an active
subscription. -/
def Subscribable (m : Manager) (sid : DataTrackSid) : Prop :=
  ∃ descriptor, AList.lookup sid m.descriptors = some descriptor ∧
    descriptor.subscription ≠ .none

instance (m : Manager) (sid : DataTrackSid) : Decidable (m.Subscribable sid) :=
  match h : AList.lookup sid m.descriptors with
  | none => isFalse fun ⟨_, hd, _⟩ => by rw [h] at hd; cases hd
  | some descriptor =>
    decidable_of_iff (descriptor.subscription ≠ .none) <| by
      constructor
      · intro hd
        exact ⟨descriptor, h, hd⟩
      · rintro ⟨d, hd, hne⟩
        rw [h, Option.some.injEq] at hd
        exact hd ▸ hne

/-- The index and the descriptors agree. -/
def ConsistentIndex (m : Manager) : Prop :=
  ∀ h sid, AList.lookup h m.subHandles = some sid ↔ m.activeHandle sid = some h

/-! ## What the handlers do to the index -/

/-- Nothing changes for the index. -/
def SameIndex (m m' : Manager) : Prop :=
  (∀ sid, m'.activeHandle sid = m.activeHandle sid) ∧
  ∀ h, AList.lookup h m'.subHandles = AList.lookup h m.subHandles

/-- The subscription of the track ends, and its handle leaves the index. -/
def Released (m : Manager) (sid : DataTrackSid) (m' : Manager) : Prop :=
  (∀ sid', m'.activeHandle sid' = if sid' = sid then none else m.activeHandle sid') ∧
  ∀ h, AList.lookup h m'.subHandles
    = if m.activeHandle sid = some h then none else AList.lookup h m.subHandles

/-- The track gets the handle; its old one leaves the index, the new one enters it. -/
def Assigned (m : Manager) (h : Handle) (sid : DataTrackSid) (m' : Manager) : Prop :=
  (∀ sid', m'.activeHandle sid' = if sid' = sid then some h else m.activeHandle sid') ∧
  ∀ h', AList.lookup h' m'.subHandles
    = if h' = h then some sid
      else if m.activeHandle sid = some h' then none else AList.lookup h' m.subHandles

variable {m m' : Manager}

theorem SameIndex.consistent (h : m.SameIndex m') (hm : m.ConsistentIndex) :
    m'.ConsistentIndex := by
  intro g sid
  rw [h.1, h.2]
  exact hm g sid

variable {sid : DataTrackSid}

theorem Released.consistent (h : m.Released sid m') (hm : m.ConsistentIndex) :
    m'.ConsistentIndex := by
  intro g sid'
  rw [h.1, h.2]
  by_cases hsid : sid' = sid
  · rw [if_pos hsid]
    by_cases hg : m.activeHandle sid = some g
    · rw [if_pos hg]
      simp
    · rw [if_neg hg, hm g sid', hsid]
      simp [hg]
  · rw [if_neg hsid]
    by_cases hg : m.activeHandle sid = some g
    · rw [if_pos hg]
      -- the handle belongs to `sid` alone
      have hother : m.activeHandle sid' ≠ some g := by
        intro hc
        have := ((hm g sid').mpr hc).symm.trans ((hm g sid).mpr hg)
        exact hsid (Option.some.inj this)
      simp [hother]
    · rw [if_neg hg]
      exact hm g sid'

variable {h : Handle} {d : Descriptor}

/-- A track that nobody else's handle is assigned to: the index stays consistent. -/
theorem Assigned.consistent (ha : m.Assigned h sid m') (hm : m.ConsistentIndex)
    (hfree : ∀ t, t ≠ sid → m.activeHandle t ≠ some h) : m'.ConsistentIndex := by
  intro g sid'
  rw [ha.1, ha.2]
  by_cases hg : g = h
  · rw [if_pos hg, hg]
    by_cases hsid : sid' = sid
    · simp [hsid]
    · rw [if_neg hsid]
      simp [hfree sid' hsid, Ne.symm hsid]
  · rw [if_neg hg]
    by_cases hsid : sid' = sid
    · rw [if_pos hsid]
      by_cases hold : m.activeHandle sid = some g
      · simp [hold, Ne.symm hg]
      · rw [if_neg hold, hm g sid', hsid]
        simp [hold, Ne.symm hg]
    · rw [if_neg hsid]
      by_cases hold : m.activeHandle sid = some g
      · rw [if_pos hold]
        have hother : m.activeHandle sid' ≠ some g := by
          intro hc
          have := ((hm g sid').mpr hc).symm.trans ((hm g sid).mpr hold)
          exact hsid (Option.some.inj this)
        simp [hother]
      · rw [if_neg hold]
        exact hm g sid'

/-- Another map of descriptors that differs at one track. -/
theorem activeHandle_of_update (descriptor : Option Descriptor)
    (h : ∀ sid', lookup sid' m'.descriptors
      = if sid' = sid then descriptor else lookup sid' m.descriptors) (sid' : DataTrackSid) :
    m'.activeHandle sid'
      = if sid' = sid then descriptor.bind fun d => d.subscription.activeHandle
        else m.activeHandle sid' := by
  unfold activeHandle
  rw [h]
  split <;> rfl

theorem SameIndex.refl (m : Manager) : m.SameIndex m := ⟨fun _ => rfl, fun _ => rfl⟩

/-- A track without an active subscription is released without any change. -/
theorem SameIndex.released (h : m.SameIndex m') (hnone : m.activeHandle sid = none) :
    m.Released sid m' := by
  refine ⟨?_, ?_⟩
  · intro sid'
    rw [h.1]
    by_cases hsid : sid' = sid
    · rw [if_pos hsid, hsid, hnone]
    · rw [if_neg hsid]
  · intro g
    rw [h.2, hnone, if_neg (by simp)]

/-- A subscription that was not active and still is not. -/
theorem setSubscription_sameIndex (hd : lookup sid m.descriptors = some d)
    {subscription : SubscriptionState} (hbefore : d.subscription.activeHandle = none)
    (hafter : subscription.activeHandle = none) :
    m.SameIndex (m.setSubscription sid d subscription) := by
  refine ⟨?_, fun _ => rfl⟩
  intro sid'
  rw [activeHandle_of_update _ (lookup_setSubscription m sid · d subscription)]
  by_cases hsid : sid' = sid
  · rw [if_pos hsid, hsid, activeHandle_of_lookup hd, hbefore]
    exact hafter
  · rw [if_neg hsid]

theorem onSubscribeRequest_index (m : Manager) (event : SubscribeRequest) :
    m.SameIndex (m.onSubscribeRequest event).1 := by
  rcases m.onSubscribeRequest_cases event with
    ⟨-, he⟩ | ⟨d, hd, hs, he⟩ | ⟨d, _, _, hd, hs, he⟩ | ⟨_, _, _, -, -, he⟩
  · rw [he]
    exact SameIndex.refl m
  · rw [he]
    exact setSubscription_sameIndex hd (by rw [hs]; rfl) rfl
  · rw [he]
    exact setSubscription_sameIndex hd (by rw [hs]; rfl) rfl
  · rw [he]
    exact SameIndex.refl m

theorem onUnsubscribeRequest_index (m : Manager) (event : UnsubscribeRequest) :
    m.Released event.sid (m.onUnsubscribeRequest event).1 := by
  rcases m.onUnsubscribeRequest_cases event with ⟨hnone, he⟩ | ⟨d, subHandle, task, hd, hs, he⟩
  · rw [he]
    exact (SameIndex.refl m).released hnone
  · rw [he]
    refine ⟨activeHandle_of_update _ (lookup_setSubscription m event.sid · d .none), ?_⟩
    intro g
    rw [activeHandle_of_lookup hd, hs]
    show lookup g (erase subHandle m.subHandles) = _
    rw [AssocMap.lookup_erase_ite]
    simp [SubscriptionState.activeHandle, eq_comm]

theorem handleTrackUnpublished_index (m : Manager) (sid : DataTrackSid) :
    m.Released sid (m.handleTrackUnpublished sid).1 := by
  rcases m.handleTrackUnpublished_cases sid with ⟨hd, he⟩ | ⟨d, subHandles, hd, hsub, he⟩
  · rw [he]
    exact (SameIndex.refl m).released (by rw [activeHandle, hd]; rfl)
  · rw [he]
    refine ⟨?_, ?_⟩
    · exact activeHandle_of_update none fun _ => AssocMap.lookup_erase_ite _ _ _
    · intro g
      rw [activeHandle_of_lookup hd]
      exact hsub g

theorem handleTrackPublished_index (m : Manager) (publisherIdentity : String)
    (info : DataTrackInfo) : m.SameIndex (m.handleTrackPublished publisherIdentity info).1 := by
  rcases m.handleTrackPublished_cases publisherIdentity info with he | ⟨hd, he⟩
  · rw [he]
    exact SameIndex.refl m
  · rw [he]
    refine ⟨?_, fun _ => rfl⟩
    intro sid
    rw [activeHandle_of_update _ (fun _ => AssocMap.lookup_insert_ite _ _ _ _)]
    by_cases hsid : sid = info.sid
    · rw [if_pos hsid, activeHandle, hsid, hd]
      rfl
    · rw [if_neg hsid]

theorem onSfuPublicationUpdates_consistent (hm : m.ConsistentIndex) (orders : Orders)
    (event : SfuPublicationUpdates) :
    (m.onSfuPublicationUpdates orders event).1.ConsistentIndex := by
  unfold onSfuPublicationUpdates
  split
  · exact hm
  · have hpublished : (m.forEach detectPublished event.updates.toList).1.ConsistentIndex := by
      refine forEach_invariant ConsistentIndex ?_ hm
      intro m update _ hm
      refine forEach_invariant ConsistentIndex ?_ hm
      intro m info _ hm
      by_cases hmem : info.sid ∈ m.descriptors
      · rw [if_pos hmem]
        exact hm
      · rw [if_neg hmem]
        exact (handleTrackPublished_index m _ info).consistent hm
    refine forEach_invariant ConsistentIndex ?_ hpublished
    intro m participant _ hm
    refine forEach_invariant ConsistentIndex ?_ hm
    intro m sid _ hm
    exact (handleTrackUnpublished_index m sid).consistent hm

/-! ## A mapping of handles -/

theorem registerSubscriberHandle_skip (hsub : ¬ m.Subscribable sid) :
    m.registerSubscriberHandle (h, sid) = (m, []) := by
  rcases m.registerSubscriberHandle_cases h sid with
    ⟨-, he⟩ | ⟨d, _, _, hd, hs, -⟩ | ⟨d, _, _, hd, hs, -⟩
  · exact he
  · exact absurd ⟨d, hd, by simp [hs]⟩ hsub
  · exact absurd ⟨d, hd, by simp [hs]⟩ hsub

theorem registerSubscriberHandle_index (hsub : m.Subscribable sid) :
    m.Assigned h sid (m.registerSubscriberHandle (h, sid)).1 := by
  rcases m.registerSubscriberHandle_cases h sid with
    ⟨hnone, -⟩ | ⟨d, subHandle, task, hd, hs, he⟩ | ⟨d, _, _, hd, hs, he⟩
  · obtain ⟨d, hd, hne⟩ := hsub
    exact absurd (hnone d hd) hne
  · rw [he]
    refine ⟨activeHandle_of_update _ (lookup_setSubscription m sid · d (.active h task)), ?_⟩
    intro g
    rw [activeHandle_of_lookup hd, hs]
    show lookup g (insert h sid (erase subHandle m.subHandles)) = _
    rw [AssocMap.lookup_insert_ite, AssocMap.lookup_erase_ite]
    simp [SubscriptionState.activeHandle, eq_comm]
  · rw [he]
    refine ⟨activeHandle_of_update _ (lookup_setSubscription m sid · d (.active h m.nextTask)), ?_⟩
    intro g
    rw [activeHandle_of_lookup hd, hs]
    show lookup g (insert h sid m.subHandles) = _
    rw [AssocMap.lookup_insert_ite]
    simp [SubscriptionState.activeHandle]

/-- Whether handles are taken for a track does not change while another track gets one. -/
theorem registerSubscriberHandle_subscribable {sid' : DataTrackSid} (hne : sid' ≠ sid) :
    (m.registerSubscriberHandle (h, sid)).1.Subscribable sid' ↔ m.Subscribable sid' := by
  have hlookup : lookup sid' (m.registerSubscriberHandle (h, sid)).1.descriptors
      = lookup sid' m.descriptors := by
    rcases m.registerSubscriberHandle_cases h sid with
      ⟨-, he⟩ | ⟨_, _, _, -, -, he⟩ | ⟨_, _, _, -, -, he⟩
    · rw [he]
    · rw [he]
      exact (lookup_setSubscription m sid sid' _ _).trans (if_neg hne)
    · rw [he]
      exact (lookup_setSubscription m sid sid' _ _).trans (if_neg hne)
  unfold Subscribable
  rw [hlookup]

/-! ### The entries of a mapping one after the other -/

/-- Nobody else holds the handle of an entry when its turn comes: every other track that held
it before the event has been given another handle by then. `earlier` are the tracks of the
entries that have been visited. -/
def NoForeignHandle (m : Manager) : List DataTrackSid → List (Handle × DataTrackSid) → Prop
  | _, [] => True
  | earlier, (h, sid) :: rest =>
    (m.Subscribable sid → ∀ t ∈ m.descriptors.keys, t ≠ sid → m.activeHandle t = some h →
      t ∈ earlier) ∧
    NoForeignHandle m (sid :: earlier) rest

theorem noForeignHandle_cons (m : Manager) (earlier : List DataTrackSid) (h : Handle)
    (sid : DataTrackSid) (rest : List (Handle × DataTrackSid)) :
    m.NoForeignHandle earlier ((h, sid) :: rest) ↔
      (m.Subscribable sid → ∀ t ∈ m.descriptors.keys, t ≠ sid → m.activeHandle t = some h →
        t ∈ earlier) ∧
      m.NoForeignHandle (sid :: earlier) rest := Iff.rfl

instance decidableNoForeignHandle (m : Manager) : (earlier : List DataTrackSid) →
    (entries : List (Handle × DataTrackSid)) → Decidable (m.NoForeignHandle earlier entries)
  | _, [] => isTrue trivial
  | earlier, (_, sid) :: rest =>
    have : Decidable (m.NoForeignHandle (sid :: earlier) rest) :=
      decidableNoForeignHandle m (sid :: earlier) rest
    inferInstanceAs (Decidable (_ ∧ _))

/-- Only tracks with a descriptor have an active handle. -/
theorem mem_keys_of_activeHandle (hactive : m.activeHandle sid = some h) :
    sid ∈ m.descriptors.keys := by
  rw [← AList.mem_keys, ← AList.lookup_isSome]
  cases hd : AList.lookup sid m.descriptors with
  | none => simp [activeHandle, hd] at hactive
  | some d => rfl

/-- The index has lost the handle `h` of the track `sid`, or two tracks have it. -/
def Broken (m : Manager) (h : Handle) (sid : DataTrackSid) : Prop :=
  m.activeHandle sid = some h ∧
  (AList.lookup h m.subHandles ≠ some sid ∨ ∃ t, t ≠ sid ∧ m.activeHandle t = some h)

theorem Broken.not_consistent (hb : m.Broken h sid) : ¬ m.ConsistentIndex := by
  intro hm
  obtain ⟨hactive, hlost | ⟨t, hne, ht⟩⟩ := hb
  · exact hlost ((hm h sid).mpr hactive)
  · have := ((hm h t).mpr ht).symm.trans ((hm h sid).mpr hactive)
    exact hne (Option.some.inj this)

/-- Entries of other handles and other tracks do not repair the index. -/
theorem Broken.register {h g : Handle} {sid' : DataTrackSid} (hb : m.Broken h sid) (hg : h ≠ g)
    (hsid : sid ≠ sid') : (m.registerSubscriberHandle (g, sid')).1.Broken h sid := by
  by_cases hsub : m.Subscribable sid'
  · obtain ⟨hactive', hlookup'⟩ := registerSubscriberHandle_index (h := g) hsub
    obtain ⟨hactive, hdefect⟩ := hb
    refine ⟨by rw [hactive', if_neg hsid, hactive], ?_⟩
    rw [hlookup', if_neg hg]
    rcases hdefect with hlost | ⟨t, hne, ht⟩
    · left
      by_cases hold : m.activeHandle sid' = some h
      · rw [if_pos hold]
        simp
      · rwa [if_neg hold]
    · by_cases ht' : t = sid'
      · -- the other track with `h` gets another handle, and `h` leaves the index
        left
        rw [if_pos (ht' ▸ ht)]
        simp
      · right
        exact ⟨t, hne, by rw [hactive', if_neg ht', ht]⟩
  · rw [registerSubscriberHandle_skip hsub]
    exact hb

variable {entries : List (Handle × DataTrackSid)}

theorem Broken.forEach (hb : m.Broken h sid) (hhandles : h ∉ entries.map Prod.fst)
    (hsids : sid ∉ entries.map Prod.snd) :
    (m.forEach registerSubscriberHandle entries).1.Broken h sid := by
  refine forEach_invariant (fun m => m.Broken h sid) ?_ hb
  intro m ⟨g, sid'⟩ hmem hb
  apply hb.register
  · rintro rfl
    exact hhandles (mem_map.mpr ⟨_, hmem, rfl⟩)
  · rintro rfl
    exact hsids (mem_map.mpr ⟨_, hmem, rfl⟩)

/-- Of the tracks visited so far, those with an active subscription matter. -/
theorem noForeignHandle_congr {earlier earlier' : List DataTrackSid}
    (h : ∀ t g, m.activeHandle t = some g → (t ∈ earlier ↔ t ∈ earlier'))
    (entries : List (Handle × DataTrackSid)) :
    m.NoForeignHandle earlier entries ↔ m.NoForeignHandle earlier' entries := by
  induction entries generalizing earlier earlier' with
  | nil => exact Iff.rfl
  | cons entry rest ih =>
    obtain ⟨g, sid⟩ := entry
    have hrest := @ih (sid :: earlier) (sid :: earlier') fun t g' ht => by
      rw [mem_cons, mem_cons, h t g' ht]
    rw [noForeignHandle_cons, noForeignHandle_cons, hrest]
    refine and_congr_left fun _ => imp_congr_right fun _ => forall₂_congr fun t _ => ?_
    exact imp_congr_right fun _ => ⟨fun hearlier ht => (h t g ht).mp (hearlier ht),
      fun hearlier ht => (h t g ht).mpr (hearlier ht)⟩

/-- When a track has got its handle, the condition on the other entries is the one on the
manager as it is then. -/
theorem noForeignHandle_register (hsub : m.Subscribable sid) (earlier : List DataTrackSid)
    (entries : List (Handle × DataTrackSid)) (hhandles : h ∉ entries.map Prod.fst)
    (hsids : sid ∉ entries.map Prod.snd) :
    (m.registerSubscriberHandle (h, sid)).1.NoForeignHandle earlier entries
      ↔ m.NoForeignHandle (sid :: earlier) entries := by
  have hactive := (registerSubscriberHandle_index (h := h) hsub).1
  induction entries generalizing earlier with
  | nil => exact Iff.rfl
  | cons entry rest ih =>
    obtain ⟨g, sid'⟩ := entry
    rw [map_cons, mem_cons, not_or] at hhandles hsids
    have hrest : (m.registerSubscriberHandle (h, sid)).1.NoForeignHandle (sid' :: earlier) rest
        ↔ m.NoForeignHandle (sid' :: sid :: earlier) rest := by
      refine (ih (sid' :: earlier) hhandles.2 hsids.2).trans ?_
      apply noForeignHandle_congr
      intro t _ _
      rw [mem_cons, mem_cons, mem_cons, mem_cons, or_left_comm]
    rw [noForeignHandle_cons, noForeignHandle_cons, hrest,
      registerSubscriberHandle_subscribable (Ne.symm hsids.1)]
    refine and_congr_left fun _ => imp_congr_right fun _ => ?_
    constructor
    · intro hearlier t _ ht hg
      by_cases htsid : t = sid
      · exact htsid ▸ mem_cons_self
      · have hg' : (m.registerSubscriberHandle (h, sid)).1.activeHandle t = some g := by
          rw [hactive, if_neg htsid, hg]
        exact mem_cons_of_mem sid (hearlier t (mem_keys_of_activeHandle hg') ht hg')
    · intro hearlier t _ ht hg
      -- `sid` itself has the handle `h` now
      have htsid : t ≠ sid := by
        rintro rfl
        rw [hactive, if_pos rfl, Option.some.injEq] at hg
        exact hhandles.1 hg
      rw [hactive, if_neg htsid] at hg
      rcases mem_cons.mp (hearlier t (mem_keys_of_activeHandle hg) ht hg) with hc | hmem
      · exact absurd hc htsid
      · exact hmem

/-- One event: the index stays consistent exactly when no entry's handle is somebody else's. -/
theorem register_consistent_iff (hm : m.ConsistentIndex) (hhandles : (entries.map Prod.fst).Nodup)
    (hsids : (entries.map Prod.snd).Nodup) :
    (m.forEach registerSubscriberHandle entries).1.ConsistentIndex
      ↔ m.NoForeignHandle [] entries := by
  induction entries generalizing m with
  | nil => exact iff_of_true hm trivial
  | cons entry rest ih =>
    obtain ⟨h, sid⟩ := entry
    rw [map_cons, nodup_cons] at hhandles hsids
    rw [forEach_cons]
    by_cases hsub : m.Subscribable sid
    · have hassigned := registerSubscriberHandle_index (h := h) hsub
      by_cases hfree : ∀ t, t ≠ sid → m.activeHandle t ≠ some h
      · rw [ih (hassigned.consistent hm hfree) hhandles.2 hsids.2,
          noForeignHandle_register hsub [] rest hhandles.1 hsids.1]
        refine (and_iff_right ?_).symm
        intro _ t _ hne ht
        exact absurd ht (hfree t hne)
      · push Not at hfree
        obtain ⟨t, hne, ht⟩ := hfree
        have hbroken : (m.registerSubscriberHandle (h, sid)).1.Broken h sid := by
          refine ⟨by rw [hassigned.1, if_pos rfl], .inr ⟨t, hne, ?_⟩⟩
          rw [hassigned.1, if_neg hne, ht]
        refine iff_of_false (hbroken.forEach hhandles.1 hsids.1).not_consistent ?_
        intro hforeign
        have := hforeign.1 hsub t (mem_keys_of_activeHandle ht) hne ht
        cases this
    · have hnone : m.activeHandle sid = none := by
        cases hd : lookup sid m.descriptors with
        | none => rw [activeHandle, hd]; rfl
        | some d =>
          have hs : d.subscription = .none := by
            by_contra hc
            exact hsub ⟨d, hd, hc⟩
          rw [activeHandle_of_lookup hd, hs]
          rfl
      rw [registerSubscriberHandle_skip hsub, ih hm hhandles.2 hsids.2, noForeignHandle_cons,
        and_iff_right fun hc => absurd hc hsub]
      apply noForeignHandle_congr
      intro t g ht
      have hne : t ≠ sid := by
        rintro rfl
        rw [hnone] at ht
        cases ht
      rw [mem_cons, or_iff_right hne]

/-- After an event each track that takes handles has the one that the event assigns to it. -/
theorem register_activeHandle (hsids : (entries.map Prod.snd).Nodup) (hmem : (h, sid) ∈ entries)
    (hsub : m.Subscribable sid) :
    (m.forEach registerSubscriberHandle entries).1.activeHandle sid = some h := by
  induction entries generalizing m with
  | nil => cases hmem
  | cons entry rest ih =>
    obtain ⟨g, sid'⟩ := entry
    rw [map_cons, nodup_cons] at hsids
    rw [forEach_cons]
    rcases mem_cons.mp hmem with heq | hrest
    · cases heq
      have hfirst := (registerSubscriberHandle_index (h := h) hsub).1 sid
      rw [if_pos rfl] at hfirst
      -- the entries of other tracks leave it alone
      refine forEach_invariant (fun m => m.activeHandle sid = some h) ?_ hfirst
      intro m ⟨g, t⟩ ht hm
      have hne : sid ≠ t := by
        rintro rfl
        exact hsids.1 (mem_map.mpr ⟨_, ht, rfl⟩)
      by_cases hsub' : m.Subscribable t
      · rw [(registerSubscriberHandle_index hsub').1, if_neg hne, hm]
      · rw [registerSubscriberHandle_skip hsub', hm]
    · have hne : sid ≠ sid' := by
        rintro rfl
        exact hsids.1 (mem_map.mpr ⟨_, hrest, rfl⟩)
      exact ih hsids.2 hrest ((registerSubscriberHandle_subscribable hne).mpr hsub)

/-- Handles do not make a subscription of a track that has none. -/
theorem subscribable_of_register
    (hsub : (m.forEach registerSubscriberHandle entries).1.Subscribable sid) :
    m.Subscribable sid := by
  by_contra hnot
  refine forEach_invariant (fun m => ¬ m.Subscribable sid) ?_ hnot hsub
  intro m ⟨g, t⟩ _ hm
  by_cases ht : sid = t
  · rwa [registerSubscriberHandle_skip (ht ▸ hm)]
  · rwa [registerSubscriberHandle_subscribable ht]

/-! ## Whole runs -/

/-- A turn of the run loop as a step of the manager. -/
def step (m : Manager) (label : Orders × InputEvent) : Option Manager :=
  (m.handle label.1 label.2).map Prod.fst

/-- No track occurs twice in a mapping. -/
def DistinctSids : InputEvent → Prop
  | .sfuSubscriberHandles event => (event.mapping.toList.map Prod.snd).Nodup
  | _ => True

/-- Nobody else holds the handles of a mapping when they are assigned. -/
def HandlesFree (m : Manager) : InputEvent → Prop
  | .sfuSubscriberHandles event => m.NoForeignHandle [] event.mapping.toList
  | _ => True

/-- A packet that bears a handle of the mapping goes to the task of the track that the mapping
assigns it to, if the track is subscribed. -/
def RoutesMapping (m : Manager) : InputEvent → Prop
  | .sfuSubscriberHandles event =>
    ∀ h sid, (h, sid) ∈ event.mapping.toList →
      ∀ d g task, AList.lookup sid m.descriptors = some d → d.subscription = .active g task →
        ∀ bytes packet, Packet.deserialize bytes = .ok packet → packet.header.trackHandle = h →
          m.onPacketReceived bytes = (m, [.sendPacket task packet])
  | _ => True

instance (event : InputEvent) : Decidable (DistinctSids event) := by
  unfold DistinctSids
  split <;> infer_instance

instance (m : Manager) (event : InputEvent) : Decidable (m.HandlesFree event) := by
  unfold HandlesFree
  split <;> infer_instance

/-- With a consistent index a packet goes where the descriptors say. -/
theorem onPacketReceived_of_consistent (hm : m.ConsistentIndex) {task : TaskId} {bytes : Bytes}
    {packet : Packet} (hd : lookup sid m.descriptors = some d)
    (hs : d.subscription = .active h task) (hpacket : Packet.deserialize bytes = .ok packet)
    (hh : packet.header.trackHandle = h) :
    m.onPacketReceived bytes = (m, [.sendPacket task packet]) := by
  have hindex : lookup packet.header.trackHandle m.subHandles = some sid := by
    rw [hh]
    apply (hm h sid).mpr
    rw [activeHandle_of_lookup hd, hs]
    rfl
  unfold onPacketReceived
  simp only [hpacket, hindex, hd, hs]

/-- One step: the index stays consistent, and packets are routed by the new mapping, exactly
when the handles of the mapping are free. -/
theorem step_consistent_iff {label : Orders × InputEvent} (hm : m.ConsistentIndex)
    (hsids : DistinctSids label.2) (hstep : m.step label = some m') :
    m'.ConsistentIndex ∧ m'.RoutesMapping label.2 ↔ m.HandlesFree label.2 := by
  obtain ⟨orders, event⟩ := label
  unfold step at hstep
  cases event with
  | sfuSubscriberHandles event =>
    cases hstep
    have hiff := register_consistent_iff hm event.mapping.keys_nodup hsids
    refine ⟨fun h => hiff.mp h.1, fun hfree => ?_⟩
    have hm' := hiff.mpr hfree
    refine ⟨hm', ?_⟩
    intro h sid hmem d g task hd hs bytes packet hpacket hh
    have hsub : m.Subscribable sid := subscribable_of_register ⟨d, hd, by simp [hs]⟩
    have hactive := register_activeHandle hsids hmem hsub
    -- the subscription has the handle of the entry
    have hg : g = h := by
      have hsame := hactive.symm.trans (activeHandle_of_lookup hd)
      rw [hs] at hsame
      exact (Option.some.inj hsame).symm
    exact onPacketReceived_of_consistent hm' hd (hg ▸ hs) hpacket hh
  | subscribeRequest event =>
    cases hstep
    exact iff_of_true ⟨(onSubscribeRequest_index m event).consistent hm, trivial⟩ trivial
  | unsubscribeRequest event =>
    cases hstep
    exact iff_of_true ⟨(onUnsubscribeRequest_index m event).consistent hm, trivial⟩ trivial
  | sfuPublicationUpdates event =>
    cases hstep
    exact iff_of_true ⟨onSfuPublicationUpdates_consistent hm orders event, trivial⟩ trivial
  | packetReceived bytes =>
    cases hstep
    have hsame : (m.onPacketReceived bytes).1 = m := by
      rcases m.onPacketReceived_cases bytes with he | ⟨_, _, he⟩ <;> rw [he]
    rw [hsame]
    exact iff_of_true ⟨hm, trivial⟩ trivial
  | resendSubscriptionUpdates =>
    cases hstep
    exact iff_of_true ⟨hm, trivial⟩ trivial
  | shutdown => cases hstep

theorem new_consistent (decryptionProvider : Option DecryptionProvider) :
    (new decryptionProvider).ConsistentIndex := by
  intro h sid
  exact iff_of_false (by simp [new]) (by simp [activeHandle, new])

/-- **Handle index.** In every run, the index agrees with the descriptors in every state that
is reached, and packets follow each mapping right after it, exactly when in every mapping the
handle of an entry is nobody else's by the time the entry is visited. -/
theorem index_consistent_iff (decryptionProvider : Option DecryptionProvider)
    (run : List (Orders × InputEvent)) (hsids : ∀ label ∈ run, DistinctSids label.2) :
    EachStep step (fun _ label m' => m'.ConsistentIndex ∧ m'.RoutesMapping label.2)
        (new decryptionProvider) run
      ↔ EachStep step (fun m label _ => m.HandlesFree label.2) (new decryptionProvider) run := by
  refine eachStep_iff ?_ ?_ (new_consistent decryptionProvider)
  · intro m label hlabel m' hm hstep
    exact step_consistent_iff hm (hsids label hlabel) hstep
  · intro m label _ m' _ _ h
    exact h.1

/-! ### Two active tracks and a new mapping -/

section TwoTracks

def sidA : DataTrackSid := ⟨"DTR_A", DataTrackSid.hasPrefix_A⟩
def sidB : DataTrackSid := ⟨"DTR_B", by decide⟩

def handle1 : Handle := ⟨1, Handle.one_ne_zero⟩
def handle2 : Handle := ⟨2, by decide⟩
def handle3 : Handle := ⟨3, by decide⟩

/-- Two tracks of one publisher are subscribed to and get handles 1 and 2; then comes another
mapping. -/
def twoTracks (second : Entries Handle DataTrackSid) : List (Orders × InputEvent) :=
  [.sfuPublicationUpdates ⟨⟨[("publisher",
      [⟨sidA, handle1, "a", false⟩, ⟨sidB, handle2, "b", false⟩])], by decide⟩⟩,
    .subscribeRequest ⟨sidA, .new, 0⟩,
    .subscribeRequest ⟨sidB, .new, 1⟩,
    .sfuSubscriberHandles ⟨⟨[(handle1, sidA), (handle2, sidB)], by decide⟩⟩,
    .sfuSubscriberHandles ⟨second⟩].map fun event => (fun _ => [], event)

/-- A mapping that moves the first track out of the way before the second takes its handle. -/
theorem index_consistent_of_moved :
    EachStep step (fun _ label m' => m'.ConsistentIndex ∧ m'.RoutesMapping label.2) (new none)
      (twoTracks ⟨[(handle3, sidA), (handle1, sidB)], by decide⟩) :=
  (index_consistent_iff none _ (by decide)).mpr (by decide)

/-- The same two tracks swap their handles: the index loses one of them. -/
theorem index_inconsistent_of_swap :
    ¬ ∀ run : List (Orders × InputEvent), (∀ label ∈ run, DistinctSids label.2) →
      EachStep step (fun _ label m' => m'.ConsistentIndex ∧ m'.RoutesMapping label.2)
        (new none) run := by
  intro hall
  have hrun := hall (twoTracks ⟨[(handle2, sidA), (handle1, sidB)], by decide⟩) (by decide)
  obtain ⟨m, hm⟩ : ∃ m, exec step (new none)
      (twoTracks ⟨[(handle2, sidA), (handle1, sidB)], by decide⟩) = some m := ⟨_, rfl⟩
  have hconsistent : m.ConsistentIndex :=
    exec_invariant_of_eachStep ConsistentIndex (fun _ _ _ _ _ h => h.1) (new_consistent none)
      hrun hm
  -- track A has handle 2, which is not in the index any more
  have hiff := hconsistent handle2 sidA
  cases hm
  revert hiff
  decide

end TwoTracks

end Manager

end LiveKit.DataTrack.Remote
