import LiveKit.DataTrack.Remote.SystemTheorems
import LiveKit.Lib.Switch

/-!
# Publications

An update of the publications lists, for some of the participants, the tracks that they publish
now. `Reconciles` says what the manager makes of it: the descriptors of these participants are
the tracks listed, and there is one event for each track that is new and each that is gone.

`publications_reconciled` is about whole runs: every update is reconciled, and for each track the
events that it is published and that it is unpublished alternate.
-/

namespace LiveKit.DataTrack.Remote

open AssocMap AList List Option TransitionSystem

/-! ## Events about one track -/

/-- Whether the event says that the track is published, or that it no longer is. -/
def OutputEvent.publication (sid : DataTrackSid) : OutputEvent → Option Bool
  | .trackPublished track => if track.info.sid = sid then some true else none
  | .trackUnpublished sid' => if sid' = sid then some false else none
  | .sfuUpdateSubscription _ _ => none

def publications (sid : DataTrackSid) (outputs : List OutputEvent) : List Bool :=
  outputs.filterMap (OutputEvent.publication sid)

/-- The events that a handler emits. -/
def emitted (effects : List Effect) : List OutputEvent :=
  effects.filterMap fun e =>
    match e with
    | .emit event => some event
    | _ => none

theorem publications_append (sid : DataTrackSid) (outputs outputs' : List OutputEvent) :
    publications sid (outputs ++ outputs')
      = publications sid outputs ++ publications sid outputs' := filterMap_append

theorem emitted_append (effects effects' : List Effect) :
    emitted (effects ++ effects') = emitted effects ++ emitted effects' := filterMap_append

theorem State.perform_outputs (s : State) (result : Manager × List Effect) :
    (s.perform result).outputs = s.outputs ++ emitted result.2 :=
  State.applyEffects_outputs _ _

namespace SfuPublicationUpdates

/-- Some participant of the update publishes the track. -/
def Lists (event : SfuPublicationUpdates) (sid : DataTrackSid) : Prop :=
  ∃ update ∈ event.updates.toList, sid ∈ update.2.map (·.sid)

/-- Each track of the update is listed by the participant who owns it. -/
def ListedBy (event : SfuPublicationUpdates) (owner : DataTrackSid → String) : Prop :=
  ∀ update ∈ event.updates.toList, ∀ info ∈ update.2, owner info.sid = update.1

/-- There is one list for each participant. -/
theorem update_unique (event : SfuPublicationUpdates) {update update' : String × List DataTrackInfo}
    (h : update ∈ event.updates.toList) (h' : update' ∈ event.updates.toList)
    (heq : update.1 = update'.1) : update = update' :=
  inj_on_of_nodup_map event.updates.keys_nodup h h' heq

end SfuPublicationUpdates

/-- The track and its publisher, without the subscription. -/
def Descriptor.track (d : Descriptor) : DataTrackInfo × String := (d.info, d.publisherIdentity)

namespace Manager

/-- The manager has a descriptor of the track. -/
def registered (m : Manager) (sid : DataTrackSid) : Bool := (AList.lookup sid m.descriptors).isSome

/-- The track has a descriptor, its publisher is in the update, and it is not listed there. -/
def Vanishes (m : Manager) (event : SfuPublicationUpdates) (sid : DataTrackSid) : Prop :=
  ∃ d, AList.lookup sid m.descriptors = some d ∧
    ∃ update ∈ event.updates.toList, update.1 = d.publisherIdentity ∧
      sid ∉ update.2.map (·.sid)

/-- What is to become of the descriptors, and what is to be emitted, when there is an update. -/
structure Reconciles (m : Manager) (event : SfuPublicationUpdates) (m' : Manager)
    (outputs : List OutputEvent) : Prop where
  /-- A participant in the update has the tracks that are listed. -/
  listed : ∀ update ∈ event.updates.toList, ∀ sid,
    (∃ d, AList.lookup sid m'.descriptors = some d ∧ d.publisherIdentity = update.1)
      ↔ sid ∈ update.2.map (·.sid)
  /-- The tracks of other participants are left alone. -/
  untouched : ∀ sid d, d.publisherIdentity ∉ event.updates.toList.map Prod.fst →
    (AList.lookup sid m'.descriptors = some d ↔ AList.lookup sid m.descriptors = some d)
  /-- A track that stays keeps its subscription. -/
  kept : ∀ sid d, AList.lookup sid m.descriptors = some d → ¬ m.Vanishes event sid →
    AList.lookup sid m'.descriptors = some d
  published : ∀ sid, event.Lists sid → m.registered sid = false →
    publications sid outputs = [true]
  unpublished : ∀ sid, m.Vanishes event sid → publications sid outputs = [false]
  silent : ∀ sid, ¬ (event.Lists sid ∧ m.registered sid = false) → ¬ m.Vanishes event sid →
    publications sid outputs = []

/-- What a handler emits about a track agrees with its descriptor before and after. -/
def Toggles (sid : DataTrackSid) (m : Manager) (result : Manager × List Effect) : Prop :=
  Switches (m.registered sid) (publications sid (emitted result.2)) (result.1.registered sid)

/-- All descriptors are those of the owners of their tracks. -/
def Owned (m : Manager) (owner : DataTrackSid → String) : Prop :=
  ∀ sid d, AList.lookup sid m.descriptors = some d → d.publisherIdentity = owner sid

/-! ## Loops -/

variable {sid : DataTrackSid}

variable {A : Type} {f : Manager → A → Manager × List Effect} {event : SfuPublicationUpdates}

/-- A loop toggles publications as its turns do. -/
theorem forEach_toggles (hf : ∀ m a, Toggles sid m (f m a)) (m : Manager) (as : List A) :
    Toggles sid m (m.forEach f as) := by
  induction as generalizing m with
  | nil => exact Switches.refl _
  | cons a as ih =>
    unfold Toggles
    rw [forEach_cons, emitted_append, publications_append]
    exact (hf m a).append (ih (f m a).1)

/-- What one call brings about and the others keep is there after the loop. -/
theorem forEach_establishes (I : Manager → Prop) {as : List A} {a : A} (ha : a ∈ as)
    (hset : ∀ m, I (f m a).1) (hkeep : ∀ m, ∀ b ∈ as, I m → I (f m b).1) (m : Manager) :
    I (m.forEach f as).1 := by
  induction as generalizing m with
  | nil => cases ha
  | cons b as ih =>
    have hrest : ∀ m, ∀ c ∈ as, I m → I (f m c).1 :=
      fun m c hc => hkeep m c (mem_cons_of_mem b hc)
    rw [forEach_cons]
    rcases mem_cons.mp ha with rfl | hmem
    · exact forEach_invariant I hrest (hset m)
    · exact ih hmem hrest (f m b).1

theorem registered_iff (m : Manager) (sid : DataTrackSid) :
    m.registered sid = true ↔ ∃ d, lookup sid m.descriptors = some d :=
  isSome_iff_exists

theorem registered_eq_false (m : Manager) (sid : DataTrackSid) :
    m.registered sid = false ↔ lookup sid m.descriptors = none := by
  unfold registered
  rw [isSome_eq_false_iff, isNone_iff_eq_none]

/-! ## Publishing -/

/-- A track that is new is registered, and announced. -/
theorem handleTrackPublished_toggles (m : Manager) (publisherIdentity : String)
    (info : DataTrackInfo) (sid : DataTrackSid) :
    Toggles sid m (m.handleTrackPublished publisherIdentity info) := by
  rcases m.handleTrackPublished_cases publisherIdentity info with he | ⟨hnone, he⟩
  · rw [he]
    exact Switches.refl _
  · rw [he]
    unfold Toggles registered
    rw [lookup_insert_ite]
    by_cases hsid : sid = info.sid
    · subst hsid
      rw [if_pos rfl, hnone]
      simp [publications, emitted, OutputEvent.publication, Switches]
    · rw [if_neg hsid]
      simp [publications, emitted, OutputEvent.publication, Switches, Ne.symm hsid]

/-- One track of an update. -/
def publishNew (publisherIdentity : String) (m : Manager) (info : DataTrackInfo) :
    Manager × List Effect :=
  if info.sid ∈ m.descriptors then (m, []) else m.handleTrackPublished publisherIdentity info

theorem detectPublished_eq (m : Manager) (update : String × List DataTrackInfo) :
    m.detectPublished update = m.forEach (publishNew update.1) update.2 := rfl

/-- A track that is listed gets a descriptor if it has none. -/
theorem publishNew_lookup (publisherIdentity : String) (m : Manager) (info : DataTrackInfo)
    (sid : DataTrackSid) :
    lookup sid (m.publishNew publisherIdentity info).1.descriptors
      = if sid = info.sid ∧ m.registered sid = false
        then some ⟨info, publisherIdentity, m.nextPublication, .none⟩
        else lookup sid m.descriptors := by
  unfold publishNew
  by_cases hmem : info.sid ∈ m.descriptors
  · rw [if_pos hmem, if_neg]
    rintro ⟨rfl, hnone⟩
    rw [registered_eq_false, lookup_eq_none] at hnone
    exact hnone hmem
  · have hnone : lookup info.sid m.descriptors = none := lookup_eq_none.mpr hmem
    rw [if_neg hmem]
    unfold handleTrackPublished
    rw [hnone]
    show lookup sid (insert info.sid _ m.descriptors) = _
    rw [lookup_insert_ite]
    by_cases hsid : sid = info.sid
    · rw [if_pos hsid, if_pos ⟨hsid, (m.registered_eq_false sid).mpr (hsid ▸ hnone)⟩]
    · rw [if_neg hsid, if_neg fun hc => hsid hc.1]

variable {d : Descriptor} {m : Manager}

/-- A known track is kept as it is when it is announced again. -/
theorem publishNew_kept {publisherIdentity : String} {info : DataTrackInfo}
    (h : lookup sid m.descriptors = some d) :
    lookup sid (m.publishNew publisherIdentity info).1.descriptors = some d := by
  rw [publishNew_lookup, if_neg, h]
  rintro ⟨-, hnone⟩
  rw [registered_eq_false, h] at hnone
  cases hnone

theorem detectPublished_kept {update : String × List DataTrackInfo}
    (h : lookup sid m.descriptors = some d) :
    lookup sid (m.detectPublished update).1.descriptors = some d :=
  forEach_invariant (fun m => lookup sid m.descriptors = some d)
    (fun _ _ _ h => publishNew_kept h) h

/-- The search for new tracks publishes each of them once. -/
theorem detectPublished_toggles (m : Manager) (update : String × List DataTrackInfo)
    (sid : DataTrackSid) : Toggles sid m (m.detectPublished update) := by
  rw [detectPublished_eq]
  apply forEach_toggles
  intro m info
  unfold publishNew
  by_cases hmem : info.sid ∈ m.descriptors
  · rw [if_pos hmem]
    exact Switches.refl _
  · rw [if_neg hmem]
    exact m.handleTrackPublished_toggles update.1 info sid

/-- The first half of an update: after it every track listed has a descriptor, those that had
one keep it, and a new one is as listed. -/
structure Published (m : Manager) (event : SfuPublicationUpdates) (m' : Manager) : Prop where
  kept : ∀ sid d, AList.lookup sid m.descriptors = some d → AList.lookup sid m'.descriptors = some d
  listed : ∀ sid, event.Lists sid → m'.registered sid = true
  origin : ∀ sid d, AList.lookup sid m'.descriptors = some d →
    AList.lookup sid m.descriptors = some d ∨
      ∃ update ∈ event.updates.toList, d.publisherIdentity = update.1 ∧
        d.info ∈ update.2 ∧ d.info.sid = sid

/-- After the first half of an update all its tracks are registered. -/
theorem forEach_detectPublished (m : Manager) (event : SfuPublicationUpdates) :
    m.Published event (m.forEach detectPublished event.updates.toList).1 where
  kept sid d h := forEach_invariant (fun m => lookup sid m.descriptors = some d)
    (fun _ _ _ h => detectPublished_kept h) h
  listed sid hlists := by
    obtain ⟨update, hupdate, hsid⟩ := hlists
    obtain ⟨info, hinfo, rfl⟩ := mem_map.mp hsid
    have hkeep : ∀ (m : Manager) (update : String × List DataTrackInfo),
        m.registered info.sid = true →
        (m.detectPublished update).1.registered info.sid = true := by
      intro m update h
      obtain ⟨d, hd⟩ := (registered_iff _ _).mp h
      exact (registered_iff _ _).mpr ⟨d, detectPublished_kept hd⟩
    refine forEach_establishes (fun m => m.registered info.sid = true) hupdate ?_
      (fun m update _ => hkeep m update) m
    intro m
    rw [detectPublished_eq]
    refine forEach_establishes (fun m => m.registered info.sid = true) hinfo ?_ ?_ m
    · intro m
      unfold registered
      rw [publishNew_lookup]
      cases hr : m.registered info.sid with
      | false => rw [if_pos ⟨rfl, rfl⟩]; rfl
      | true =>
        rw [if_neg (by simp)]
        exact hr
    · intro m info' _ h
      obtain ⟨d, hd⟩ := (registered_iff _ _).mp h
      exact (registered_iff _ _).mpr ⟨d, publishNew_kept hd⟩
  origin := by
    refine forEach_invariant (fun m' => ∀ sid d, lookup sid m'.descriptors = some d →
      lookup sid m.descriptors = some d ∨
        ∃ update ∈ event.updates.toList, d.publisherIdentity = update.1 ∧
          d.info ∈ update.2 ∧ d.info.sid = sid) ?_ (fun sid d h => .inl h)
    intro m₁ update hupdate h₁
    rw [detectPublished_eq]
    refine forEach_invariant (fun m' => ∀ sid d, lookup sid m'.descriptors = some d →
      lookup sid m.descriptors = some d ∨
        ∃ update ∈ event.updates.toList, d.publisherIdentity = update.1 ∧
          d.info ∈ update.2 ∧ d.info.sid = sid) ?_ h₁
    intro m₂ info hinfo h₂ sid d hd
    rw [publishNew_lookup] at hd
    by_cases hnew : sid = info.sid ∧ m₂.registered sid = false
    · rw [if_pos hnew, some.injEq] at hd
      subst hd
      exact .inr ⟨update, hupdate, rfl, hinfo, hnew.1.symm⟩
    · rw [if_neg hnew] at hd
      exact h₂ sid d hd

/-! ## Unpublishing -/

/-- A track that goes is taken from the descriptors, and this is announced. -/
theorem handleTrackUnpublished_toggles (m : Manager) (sid' sid : DataTrackSid) :
    Toggles sid m (m.handleTrackUnpublished sid') := by
  rcases m.handleTrackUnpublished_cases sid' with ⟨-, he⟩ | ⟨d, _, hd, -, he⟩
  · rw [he]
    exact Switches.refl _
  · rw [he]
    unfold Toggles registered
    rw [lookup_erase_ite]
    by_cases hsid : sid = sid'
    · subst hsid
      rw [if_pos rfl, hd]
      simp [publications, emitted, OutputEvent.publication, Switches]
    · rw [if_neg hsid]
      simp [publications, emitted, OutputEvent.publication, Switches, Ne.symm hsid]

/-- Unpublishing takes away one track and no other. -/
theorem handleTrackUnpublished_lookup (m : Manager) (sid' sid : DataTrackSid) :
    lookup sid (m.handleTrackUnpublished sid').1.descriptors
      = if sid = sid' then none else lookup sid m.descriptors := by
  rcases m.handleTrackUnpublished_cases sid' with ⟨hnone, he⟩ | ⟨d, _, -, -, he⟩
  · rw [he]
    by_cases hsid : sid = sid'
    · rw [if_pos hsid, hsid, hnone]
    · rw [if_neg hsid]
  · rw [he]
    exact lookup_erase_ite _ _ _

/-- The tracks that go are gone, and all others stay. -/
theorem forEach_unpublished_lookup (m : Manager) (sids : List DataTrackSid) (sid : DataTrackSid) :
    lookup sid (m.forEach handleTrackUnpublished sids).1.descriptors
      = if sid ∈ sids then none else lookup sid m.descriptors := by
  induction sids generalizing m with
  | nil => rfl
  | cons sid' sids ih =>
    rw [forEach_cons, ih, handleTrackUnpublished_lookup]
    by_cases hmem : sid ∈ sids
    · rw [if_pos hmem, if_pos (mem_cons_of_mem _ hmem)]
    · rw [if_neg hmem]
      by_cases hsid : sid = sid'
      · rw [if_pos hsid, if_pos (hsid ▸ mem_cons_self)]
      · rw [if_neg hsid, if_neg]
        intro hc
        rcases mem_cons.mp hc with hc | hc
        · exact hsid hc
        · exact hmem hc

/-- What is left of the tracks after those of one participant have been looked through. -/
theorem detectUnpublished_lookup (m : Manager) (orders : Orders)
    (participant : (String × List DataTrackSid) × ℕ) (sid : DataTrackSid) (d : Descriptor) :
    lookup sid (m.detectUnpublished orders participant).1.descriptors = some d ↔
      lookup sid m.descriptors = some d ∧
        (d.publisherIdentity = participant.1.1 → sid ∈ participant.1.2) := by
  obtain ⟨⟨identity, sids⟩, pass⟩ := participant
  have hmem : sid ∈ ((inOrder m.descriptors (orders pass)).filter fun entry =>
      decide (entry.2.publisherIdentity = identity ∧ entry.1 ∉ sids)).map Prod.fst ↔
      ∃ d, lookup sid m.descriptors = some d ∧ d.publisherIdentity = identity ∧
        sid ∉ sids := by
    rw [List.mem_map]
    constructor
    · rintro ⟨⟨sid', d'⟩, hentry, rfl⟩
      obtain ⟨hin, hcond⟩ := mem_filter.mp hentry
      exact ⟨d', (mem_inOrder _ _ _ _).mp hin, of_decide_eq_true hcond⟩
    · rintro ⟨d', hd', hcond⟩
      exact ⟨(sid, d'), mem_filter.mpr
        ⟨(mem_inOrder _ _ _ _).mpr hd', decide_eq_true hcond⟩, rfl⟩
  show lookup sid (m.forEach handleTrackUnpublished _).1.descriptors = some d ↔ _
  rw [forEach_unpublished_lookup]
  by_cases hgone : ∃ d, lookup sid m.descriptors = some d ∧
      d.publisherIdentity = identity ∧ sid ∉ sids
  · rw [if_pos (hmem.mpr hgone)]
    obtain ⟨d', hd', hidentity, hsid⟩ := hgone
    constructor
    · intro hc
      cases hc
    · rintro ⟨hd, hlisted⟩
      rw [hd', some.injEq] at hd
      exact absurd (hlisted (hd ▸ hidentity)) hsid
  · rw [if_neg fun hc => hgone (hmem.mp hc)]
    constructor
    · intro hd
      refine ⟨hd, fun hidentity => ?_⟩
      by_contra hsid
      exact hgone ⟨d, hd, hidentity, hsid⟩
    · exact fun h => h.1

/-- The second half toggles what is not listed any more. -/
theorem detectUnpublished_toggles (m : Manager) (orders : Orders)
    (participant : (String × List DataTrackSid) × ℕ) (sid : DataTrackSid) :
    Toggles sid m (m.detectUnpublished orders participant) := by
  obtain ⟨⟨identity, sids⟩, pass⟩ := participant
  exact forEach_toggles (fun m sid' => m.handleTrackUnpublished_toggles sid' sid) m _

/-- What is left is listed, or its publisher is not in the update. -/
theorem forEach_detectUnpublished_lookup (m : Manager) (orders : Orders)
    (participants : List ((String × List DataTrackSid) × ℕ)) (sid : DataTrackSid)
    (d : Descriptor) :
    lookup sid (m.forEach (detectUnpublished orders) participants).1.descriptors = some d ↔
      lookup sid m.descriptors = some d ∧
        ∀ participant ∈ participants, d.publisherIdentity = participant.1.1 →
          sid ∈ participant.1.2 := by
  induction participants generalizing m with
  | nil => simp [forEach_nil]
  | cons participant participants ih =>
    rw [forEach_cons, ih, detectUnpublished_lookup, forall_mem_cons, and_assoc]

/-! ## The whole update -/

/-- A participant of the second half is one of the update, with the SIDs that it lists. -/
theorem forall_participants (event : SfuPublicationUpdates) (cs : List ℕ)
    (P : String → List DataTrackSid → Prop) :
    (∀ participant ∈ (reorder cs (event.updates.toList.map fun update =>
        (update.1, update.2.map (·.sid)))).zipIdx 1, P participant.1.1 participant.1.2)
      ↔ ∀ update ∈ event.updates.toList, P update.1 (update.2.map (·.sid)) := by
  have hperm := reorder_perm cs (event.updates.toList.map fun update =>
    (update.1, update.2.map (·.sid)))
  constructor
  · intro h update hupdate
    have hmem : (update.1, update.2.map (·.sid)) ∈ reorder cs
        (event.updates.toList.map fun update => (update.1, update.2.map (·.sid))) :=
      hperm.mem_iff.mpr (mem_map_of_mem hupdate)
    rw [← List.zipIdx_map_fst 1 (reorder cs _), List.mem_map] at hmem
    obtain ⟨participant, hparticipant, heq⟩ := hmem
    have hP := h participant hparticipant
    rwa [heq] at hP
  · rintro h ⟨pair, n⟩ hparticipant
    have hmem := hperm.mem_iff.mp (fst_mem_of_mem_zipIdx hparticipant)
    obtain ⟨update, hupdate, rfl⟩ := mem_map.mp hmem
    exact h update hupdate

/-- All that an effect emits about tracks is of one kind. -/
def Only (v : Bool) (e : Effect) : Prop := ∀ sid, ∀ c ∈ publications sid (emitted [e]), c = v

/-- Effects that publish only, or unpublish only, tell nothing else. -/
theorem eq_of_only {v : Bool} {effects : List Effect} (h : ∀ e ∈ effects, Only v e)
    (sid : DataTrackSid) : ∀ c ∈ publications sid (emitted effects), c = v := by
  induction effects with
  | nil =>
    intro c hc
    cases hc
  | cons e effects ih =>
    intro c hc
    have hsplit : emitted (e :: effects) = emitted [e] ++ emitted effects :=
      emitted_append [e] effects
    rw [hsplit, publications_append] at hc
    rcases mem_append.mp hc with hc | hc
    · exact h e mem_cons_self sid c hc
    · exact ih (fun e' he' => h e' (mem_cons_of_mem e he')) c hc

theorem only_published (track : RemoteDataTrack) : Only true (.emit (.trackPublished track)) := by
  intro sid c hc
  simp only [publications, emitted, OutputEvent.publication, filterMap_cons,
    filterMap_nil] at hc
  split_ifs at hc
  · simpa using hc
  · cases hc

theorem only_unpublished (sid' : DataTrackSid) : Only false (.emit (.trackUnpublished sid')) := by
  intro sid c hc
  simp only [publications, emitted, OutputEvent.publication, filterMap_cons,
    filterMap_nil] at hc
  split_ifs at hc
  · simpa using hc
  · cases hc

/-- The first half announces that tracks are published, and nothing else. -/
theorem detectPublished_only (m : Manager) (update : String × List DataTrackInfo) :
    ∀ e ∈ (m.detectPublished update).2, Only true e := by
  rw [detectPublished_eq]
  apply forEach_effects
  intro m info e he
  unfold publishNew at he
  by_cases hmem : info.sid ∈ m.descriptors
  · rw [if_pos hmem] at he
    cases he
  · rw [if_neg hmem] at he
    rcases m.handleTrackPublished_cases update.1 info with hm | ⟨-, hm⟩
    · rw [hm] at he
      cases he
    · rw [hm, mem_singleton] at he
      rw [he]
      exact only_published _

/-- The second half announces that tracks are unpublished, and nothing else. -/
theorem detectUnpublished_only (m : Manager) (orders : Orders)
    (participant : (String × List DataTrackSid) × ℕ) :
    ∀ e ∈ (m.detectUnpublished orders participant).2, Only false e := by
  obtain ⟨⟨identity, sids⟩, pass⟩ := participant
  apply forEach_effects
  intro m sid e he
  rcases m.handleTrackUnpublished_cases sid with ⟨-, hm⟩ | ⟨d, _, -, -, hm⟩
  · rw [hm] at he
    cases he
  · rw [hm] at he
    rcases mem_cons.mp he with rfl | he
    · intro sid' c hc
      cases hc
    · rw [mem_singleton] at he
      rw [he]
      exact only_unpublished sid

/-- An update publishes first and unpublishes then. -/
structure Halves (m : Manager) (event : SfuPublicationUpdates) (result : Manager × List Effect)
    (m₁ : Manager) (effects₁ effects₂ : List Effect) : Prop where
  published : m.Published event m₁
  first : ∀ sid, Toggles sid m (m₁, effects₁)
  second : ∀ sid, Toggles sid m₁ (result.1, effects₂)
  effects : result.2 = effects₁ ++ effects₂
  first_only : ∀ e ∈ effects₁, Only true e
  second_only : ∀ e ∈ effects₂, Only false e
  lookup : ∀ sid d, AList.lookup sid result.1.descriptors = some d ↔
    AList.lookup sid m₁.descriptors = some d ∧
      ∀ update ∈ event.updates.toList, d.publisherIdentity = update.1 →
        sid ∈ update.2.map (·.sid)

/-- An update is processed in two halves. -/
theorem onSfuPublicationUpdates_halves (m : Manager) (orders : Orders)
    (event : SfuPublicationUpdates) :
    ∃ m₁ effects₁ effects₂,
      m.Halves event (m.onSfuPublicationUpdates orders event) m₁ effects₁ effects₂ := by
  unfold onSfuPublicationUpdates
  by_cases hempty : event.updates.toList.isEmpty = true
  · rw [if_pos hempty]
    have hnil : event.updates.toList = [] := isEmpty_iff.mp hempty
    refine ⟨m, [], [], ?_, fun _ => Switches.refl _, fun _ => Switches.refl _, rfl, by simp,
      by simp, ?_⟩
    · have hpublished := m.forEach_detectPublished event
      rwa [hnil] at hpublished
    · intro sid d
      rw [hnil]
      simp
  · rw [if_neg hempty]
    refine ⟨_, _, _, m.forEach_detectPublished event,
      fun sid => forEach_toggles (fun m update => m.detectPublished_toggles update sid) m _,
      fun sid => forEach_toggles (fun m participant =>
        m.detectUnpublished_toggles orders participant sid) _ _, rfl,
      forEach_effects detectPublished_only m _,
      forEach_effects (fun m participant => m.detectUnpublished_only orders participant) _ _, ?_⟩
    intro sid d
    refine (forEach_detectUnpublished_lookup _ orders _ sid d).trans (and_congr_right fun _ => ?_)
    exact forall_participants event (orders 0) fun identity sids =>
      d.publisherIdentity = identity → sid ∈ sids

/-- A switch history of effects splits with the effects. -/
theorem toggles_append {m₁ m₂ : Manager} {effects₁ effects₂ : List Effect}
    (h₁ : Toggles sid m (m₁, effects₁)) (h₂ : Toggles sid m₁ (m₂, effects₂)) :
    Toggles sid m (m₂, effects₁ ++ effects₂) := by
  unfold Toggles
  rw [emitted_append, publications_append]
  exact h₁.append h₂

/-- An update publishes what was unknown and unpublishes what was known. -/
theorem onSfuPublicationUpdates_toggles (m : Manager) (orders : Orders)
    (event : SfuPublicationUpdates) (sid : DataTrackSid) :
    Toggles sid m (m.onSfuPublicationUpdates orders event) := by
  obtain ⟨m₁, effects₁, effects₂, h⟩ := m.onSfuPublicationUpdates_halves orders event
  have htoggles := toggles_append (h.first sid) (h.second sid)
  rwa [← h.effects] at htoggles

variable {owner : DataTrackSid → String}

/-- The owners of tracks stay their owners. -/
theorem onSfuPublicationUpdates_owned (hm : m.Owned owner) (orders : Orders)
    (hevent : event.ListedBy owner) :
    (m.onSfuPublicationUpdates orders event).1.Owned owner := by
  obtain ⟨m₁, _, _, h⟩ := m.onSfuPublicationUpdates_halves orders event
  intro sid d hd
  rcases h.published.origin sid d ((h.lookup sid d).mp hd).1 with
    hold | ⟨update, hupdate, hidentity, hinfo, rfl⟩
  · exact hm sid d hold
  · rw [hidentity]
    exact (hevent update hupdate d.info hinfo).symm

/-- When every track has one publisher, an update is reconciled. -/
theorem onSfuPublicationUpdates_reconciles (hm : m.Owned owner) (orders : Orders)
    (hevent : event.ListedBy owner) :
    m.Reconciles event (m.onSfuPublicationUpdates orders event).1
      (emitted (m.onSfuPublicationUpdates orders event).2) := by
  have howned := onSfuPublicationUpdates_owned hm orders hevent
  obtain ⟨m₁, effects₁, effects₂, h⟩ := m.onSfuPublicationUpdates_halves orders event
  generalize m.onSfuPublicationUpdates orders event = result at h howned ⊢
  -- a track that is listed is listed by its owner
  have hlisted : ∀ {sid}, event.Lists sid → ∀ update ∈ event.updates.toList,
      owner sid = update.1 → sid ∈ update.2.map (·.sid) := by
    rintro sid ⟨update, hupdate, hsid⟩ update' hupdate' heq
    obtain ⟨info, hinfo, rfl⟩ := mem_map.mp hsid
    rw [hevent update hupdate info hinfo] at heq
    rw [← event.update_unique hupdate hupdate' heq]
    exact hsid
  have hkept : ∀ {sid d}, lookup sid m.descriptors = some d → ¬ m.Vanishes event sid →
      lookup sid result.1.descriptors = some d := by
    intro sid d hd hstays
    refine (h.lookup sid d).mpr ⟨h.published.kept sid d hd, ?_⟩
    intro update hupdate heq
    by_contra hsid
    exact hstays ⟨d, hd, update, hupdate, heq.symm, hsid⟩
  have hpublications : ∀ sid, publications sid (emitted result.2)
      = publications sid (emitted effects₁) ++ publications sid (emitted effects₂) := by
    intro sid
    rw [h.effects, emitted_append, publications_append]
  -- what is listed is there after the first half, and stays
  have hstays : ∀ {sid}, event.Lists sid → result.1.registered sid = true := by
    intro sid hlists
    obtain ⟨d, hd⟩ := (registered_iff _ _).mp (h.published.listed sid hlists)
    have howner : d.publisherIdentity = owner sid := by
      rcases h.published.origin sid d hd with hold | ⟨update, hupdate, hidentity, hinfo, rfl⟩
      · exact hm sid d hold
      · rw [hidentity]
        exact (hevent update hupdate d.info hinfo).symm
    refine (registered_iff _ _).mpr ⟨d, (h.lookup sid d).mpr ⟨hd, ?_⟩⟩
    intro update hupdate heq
    exact hlisted hlists update hupdate (howner ▸ heq)
  -- what is not listed was there before, if it is there after the first half
  have hbefore : ∀ {sid}, ¬ event.Lists sid → m₁.registered sid = m.registered sid := by
    intro sid hunlisted
    apply Bool.eq_iff_iff.mpr
    rw [registered_iff, registered_iff]
    constructor
    · rintro ⟨d, hd⟩
      rcases h.published.origin sid d hd with hold | ⟨update, hupdate, -, hinfo, rfl⟩
      · exact ⟨d, hold⟩
      · exact absurd ⟨update, hupdate, mem_map_of_mem hinfo⟩ hunlisted
    · rintro ⟨d, hd⟩
      exact ⟨d, h.published.kept sid d hd⟩
  have hfirst := fun sid => (h.first sid).of_constant (eq_of_only h.first_only sid)
  have hsecond := fun sid => (h.second sid).of_constant (eq_of_only h.second_only sid)
  constructor
  · intro update hupdate sid
    constructor
    · rintro ⟨d, hd, hidentity⟩
      exact ((h.lookup sid d).mp hd).2 update hupdate hidentity
    · intro hsid
      obtain ⟨d, hd⟩ := (registered_iff _ _).mp (hstays ⟨update, hupdate, hsid⟩)
      obtain ⟨info, hinfo, heq⟩ := mem_map.mp hsid
      refine ⟨d, hd, ?_⟩
      rw [howned sid d hd, ← heq]
      exact hevent update hupdate info hinfo
  · intro sid d hother
    constructor
    · intro hd
      rcases h.published.origin sid d ((h.lookup sid d).mp hd).1 with
        hold | ⟨update, hupdate, hidentity, -, -⟩
      · exact hold
      · exact absurd (hidentity ▸ mem_map_of_mem hupdate) hother
    · intro hd
      apply hkept hd
      rintro ⟨d', hd', update, hupdate, hidentity, -⟩
      rw [hd, some.injEq] at hd'
      exact hother (hd' ▸ hidentity ▸ mem_map_of_mem hupdate)
  · exact fun sid d hd hstays => hkept hd hstays
  · intro sid hlists hnew
    have hone := h.published.listed sid hlists
    have hend := hstays hlists
    rw [hpublications]
    rcases hfirst sid with ⟨-, heq⟩ | ⟨hfirst, -, -⟩
    · rw [hnew] at heq
      exact absurd (heq.trans hone) (by decide)
    · rcases hsecond sid with ⟨hsecond, -⟩ | ⟨-, -, hoff⟩
      · rw [hfirst, hsecond]
        rfl
      · exact absurd (hend.symm.trans hoff) (by decide)
  · rintro sid ⟨d, hd, update, hupdate, hidentity, hsid⟩
    have hunlisted : ¬ event.Lists sid := by
      intro hlists
      exact hsid (hlisted hlists update hupdate ((hm sid d hd).symm.trans hidentity.symm))
    have hone : m₁.registered sid = true :=
      (registered_iff _ _).mpr ⟨d, h.published.kept sid d hd⟩
    have hgone : result.1.registered sid = false := by
      rw [← Bool.not_eq_true, registered_iff]
      rintro ⟨d', hd'⟩
      have hd₁ := h.published.kept sid d hd
      rw [((h.lookup sid d').mp hd').1, some.injEq] at hd₁
      exact hsid (((h.lookup sid d').mp hd').2 update hupdate (hd₁ ▸ hidentity.symm))
    rw [hpublications]
    rcases hfirst sid with ⟨hfirst, -⟩ | ⟨-, hoff, -⟩
    · rcases hsecond sid with ⟨-, heq⟩ | ⟨hsecond, -, -⟩
      · rw [hone, hgone] at heq
        cases heq
      · rw [hfirst, hsecond]
        rfl
    · exact absurd ((registered_iff _ _).mpr ⟨d, hd⟩) hoff
  · intro sid hold hstill
    rw [hpublications]
    by_cases hlists : event.Lists sid
    · have hthere : m.registered sid = true := by
        rw [← Bool.not_eq_false]
        exact fun hnew => hold ⟨hlists, hnew⟩
      rcases hfirst sid with ⟨hfirst, -⟩ | ⟨-, hoff, -⟩
      · rcases hsecond sid with ⟨hsecond, -⟩ | ⟨-, -, hoff⟩
        · rw [hfirst, hsecond]
          rfl
        · exact absurd ((hstays hlists).symm.trans hoff) (by decide)
      · exact absurd hthere hoff
    · have hsame := hbefore hlists
      rcases hfirst sid with ⟨hfirst, -⟩ | ⟨-, hoff, hon⟩
      · rcases hsecond sid with ⟨hsecond, -⟩ | ⟨-, hon, hoff⟩
        · rw [hfirst, hsecond]
          rfl
        · -- a track that is left alone by the second half is still there
          have hthere : m.registered sid = true := by
            rw [← hsame]
            exact Bool.eq_true_of_not_eq_false hon
          obtain ⟨d, hd⟩ := (registered_iff _ _).mp hthere
          have hend : result.1.registered sid = true :=
            (registered_iff _ _).mpr ⟨d, hkept hd hstill⟩
          exact absurd (hend.symm.trans hoff) (by decide)
      · exact absurd (hsame.symm.trans hon) hoff

/-! ## Other events -/

/-- Nothing but subscriptions changes. -/
def SameTracks (m m' : Manager) : Prop :=
  ∀ sid, (AList.lookup sid m'.descriptors).map Descriptor.track
    = (AList.lookup sid m.descriptors).map Descriptor.track

variable {m' : Manager}

theorem SameTracks.registered (h : m.SameTracks m') (sid : DataTrackSid) :
    m'.registered sid = m.registered sid := by
  unfold Manager.registered
  rw [← isSome_map, h sid, isSome_map]

/-- A descriptor comes from one of the same track. -/
theorem SameTracks.origin (h : m.SameTracks m') {d' : Descriptor}
    (hd' : lookup sid m'.descriptors = some d') :
    ∃ d, lookup sid m.descriptors = some d ∧ d'.info = d.info ∧
      d'.publisherIdentity = d.publisherIdentity := by
  have hsame := h sid
  rw [hd'] at hsame
  obtain ⟨d, hd, heq⟩ := map_eq_some_iff.mp hsame.symm
  exact ⟨d, hd, (congrArg Prod.fst heq).symm, (congrArg Prod.snd heq).symm⟩

theorem SameTracks.owned (h : m.SameTracks m') (hm : m.Owned owner) : m'.Owned owner := by
  intro sid d' hd'
  obtain ⟨d, hd, -, hidentity⟩ := h.origin hd'
  rw [hidentity]
  exact hm sid d hd

/-- Another subscription is no other track. -/
theorem setSubscription_sameTracks (hd : lookup sid m.descriptors = some d)
    (subscription : SubscriptionState) : m.SameTracks (m.setSubscription sid d subscription) := by
  intro sid'
  rw [lookup_setSubscription]
  by_cases hsid : sid' = sid
  · rw [if_pos hsid, hsid, hd]
    rfl
  · rw [if_neg hsid]

/-- A pass of steps that keep the tracks keeps the tracks. -/
theorem forEach_sameTracks (hf : ∀ (m : Manager) a, m.SameTracks (f m a).1) (m : Manager)
    (as : List A) :
    m.SameTracks (m.forEach f as).1 := by
  refine forEach_invariant (fun m' => m.SameTracks m') ?_ (fun _ => rfl)
  intro m' a _ h sid
  exact (hf m' a sid).trans (h sid)

/-- Registering a handle neither publishes nor unpublishes. -/
theorem registerSubscriberHandle_quiet (m : Manager) (entry : Handle × DataTrackSid) :
    m.SameTracks (m.registerSubscriberHandle entry).1 ∧
      emitted (m.registerSubscriberHandle entry).2 = [] := by
  obtain ⟨h, sid⟩ := entry
  rcases m.registerSubscriberHandle_cases h sid with
    ⟨-, he⟩ | ⟨d, _, task, hd, -, he⟩ | ⟨d, resultTxs, _, hd, -, he⟩
  · rw [he]
    exact ⟨fun _ => rfl, rfl⟩
  · rw [he]
    exact ⟨setSubscription_sameTracks hd _, rfl⟩
  · rw [he]
    refine ⟨setSubscription_sameTracks hd _, ?_⟩
    unfold emitted
    rw [filterMap_cons, filterMap_map]
    exact filterMap_eq_nil_iff.mpr fun _ _ => rfl

/-- An event that is not an update of the publications changes no track and tells of none. -/
theorem handle_quiet {orders : Orders} {event : InputEvent} {result : Manager × List Effect}
    (h : m.handle orders event = some result)
    (hother : ∀ update, event ≠ .sfuPublicationUpdates update) :
    m.SameTracks result.1 ∧ ∀ sid, publications sid (emitted result.2) = [] := by
  have hnone : ∀ {m : Manager}, m.SameTracks m := fun _ => rfl
  cases event with
  | subscribeRequest event =>
    cases h
    rcases m.onSubscribeRequest_cases event with
      ⟨-, he⟩ | ⟨d, hd, -, he⟩ | ⟨d, _, _, hd, -, he⟩ | ⟨_, _, _, -, -, he⟩
    · rw [he]
      exact ⟨hnone, fun _ => rfl⟩
    · rw [he]
      exact ⟨setSubscription_sameTracks hd _, fun _ => rfl⟩
    · rw [he]
      exact ⟨setSubscription_sameTracks hd _, fun _ => rfl⟩
    · rw [he]
      exact ⟨hnone, fun _ => rfl⟩
  | unsubscribeRequest event =>
    cases h
    rcases m.onUnsubscribeRequest_cases event with ⟨-, he⟩ | ⟨d, _, _, hd, -, he⟩
    · rw [he]
      exact ⟨hnone, fun _ => rfl⟩
    · rw [he]
      exact ⟨setSubscription_sameTracks hd _, fun _ => rfl⟩
  | sfuPublicationUpdates update => exact absurd rfl (hother update)
  | sfuSubscriberHandles event =>
    cases h
    refine ⟨forEach_sameTracks (fun m entry => (m.registerSubscriberHandle_quiet entry).1) m _, ?_⟩
    intro sid
    have hquiet : ∀ entries m, emitted (forEach registerSubscriberHandle m entries).2 = [] := by
      intro entries
      induction entries with
      | nil =>
        intro m
        rfl
      | cons entry entries ih =>
        intro m
        rw [forEach_cons, emitted_append, (m.registerSubscriberHandle_quiet entry).2, ih]
        rfl
    show publications sid (emitted (forEach registerSubscriberHandle m _).2) = []
    rw [hquiet]
    rfl
  | packetReceived bytes =>
    cases h
    rcases m.onPacketReceived_cases bytes with he | ⟨_, _, he⟩
    · rw [he]
      exact ⟨hnone, fun _ => rfl⟩
    · rw [he]
      exact ⟨hnone, fun _ => rfl⟩
  | resendSubscriptionUpdates =>
    cases h
    refine ⟨hnone, fun sid => ?_⟩
    show publications sid (emitted (m.onResendSubscriptionUpdates orders).2) = []
    unfold publications emitted onResendSubscriptionUpdates
    rw [filterMap_filterMap, filterMap_filterMap]
    apply filterMap_eq_nil_iff.mpr
    rintro ⟨sid', d⟩ -
    cases d.subscription <;> rfl
  | shutdown => cases h

end Manager

/-! ## Whole runs -/

/-- The room passes on updates in which the tracks are listed by their owners. -/
def Action.ListedBy (owner : DataTrackSid → String) : Action → Prop
  | .sendInput (.sfuPublicationUpdates event) => event.ListedBy owner
  | _ => True

namespace State

variable {s s' : State} {a : Action} {owner : DataTrackSid → String}

/-- The step handles an update of the publications, and this is reconciled. -/
def Reconciled (s : State) (a : Action) (s' : State) : Prop :=
  ∀ orders event rest, a = .manager orders → s.mode = .running →
    s.queue = .sfuPublicationUpdates event :: rest →
      ∃ outputs, s'.outputs = s.outputs ++ outputs ∧
        s.manager.Reconciles event s'.manager outputs

structure PublicationInv (owner : DataTrackSid → String) (s : State) : Prop where
  owned : s.manager.Owned owner
  /-- The updates that are still to be handled are listed by the owners too. -/
  queued : ∀ event, .sfuPublicationUpdates event ∈ s.queue → event.ListedBy owner
  /-- A track is published and unpublished in turn, and registered when it was published last. -/
  history : ∀ sid, Switches false (publications sid s.outputs) (s.manager.registered sid)

/-- The invariant at first, when there are no tracks. -/
theorem init_publicationInv (provider : Option DecryptionProvider)
    (owner : DataTrackSid → String) : (init provider).PublicationInv owner where
  owned := by
    intro sid d hd
    cases hd
  queued := by simp [init]
  history _ := Switches.refl _

section

variable (hs : s.PublicationInv owner)

include hs

/-- Steps that leave the manager alone and emit nothing. -/
theorem PublicationInv.of_frame (hmanager : s'.manager = s.manager)
    (houtputs : s'.outputs = s.outputs)
    (hqueue : ∀ event, .sfuPublicationUpdates event ∈ s'.queue → event.ListedBy owner) :
    s'.PublicationInv owner where
  owned := hmanager ▸ hs.owned
  queued := hqueue
  history := by
    rw [hmanager, houtputs]
    exact hs.history

/-- The invariant is kept when an event is processed. -/
theorem PublicationInv.handle {orders : Orders} {event : InputEvent} {rest : List InputEvent}
    {result : Manager × List Effect} (hqueue : s.queue = event :: rest)
    (hresult : s.manager.handle orders event = some result) :
    (({ s with queue := rest }).perform result).PublicationInv owner := by
  have htracks : result.1.Owned owner ∧ ∀ sid, Manager.Toggles sid s.manager result := by
    by_cases hupdate : ∃ update, event = .sfuPublicationUpdates update
    · obtain ⟨update, rfl⟩ := hupdate
      cases hresult
      have hlisted : update.ListedBy owner := hs.queued update (hqueue ▸ mem_cons_self)
      exact ⟨Manager.onSfuPublicationUpdates_owned hs.owned orders hlisted,
        s.manager.onSfuPublicationUpdates_toggles orders update⟩
    · obtain ⟨hsame, hquiet⟩ :=
        Manager.handle_quiet hresult fun update hc => hupdate ⟨update, hc⟩
      refine ⟨hsame.owned hs.owned, fun sid => ?_⟩
      unfold Manager.Toggles
      rw [hquiet, hsame.registered]
      exact Switches.refl _
  constructor
  · rw [perform_manager]
    exact htracks.1
  · rw [perform_queue]
    intro update hmem
    exact hs.queued update (hqueue ▸ mem_cons_of_mem event hmem)
  · intro sid
    rw [perform_outputs, publications_append, perform_manager]
    exact (hs.history sid).append (htracks.2 sid)

/-- The invariant is kept by every step. -/
theorem step_publicationInv (ha : a.ListedBy owner) (hstep : s.step a = some s') :
    s'.PublicationInv owner := by
  cases a with
  | manager orders =>
    rcases managerStep_cases hstep with
      ⟨event, rest, result, -, hqueue, hresult, rfl⟩ | ⟨-, hmanager, -, houtputs, -⟩
    · exact hs.handle hqueue hresult
    · refine hs.of_frame hmanager houtputs ?_
      intro event hmem
      exact hs.queued event (managerStep_queue_subset hstep hmem)
  | task task st =>
    obtain ⟨t, -, hcases⟩ := taskStep_cases hstep
    rcases hcases with ⟨-, -, rfl⟩ | ⟨-, -, -, rfl⟩ | ⟨packet, rest, -, -, rfl⟩ | ⟨-, -, rfl⟩ |
      ⟨-, rfl⟩
    · exact hs.of_frame rfl rfl hs.queued
    · exact hs.of_frame rfl rfl hs.queued
    · obtain ⟨deliveries, he, -⟩ := s.receive_eq task t st packet rest
      rw [he]
      exact hs.of_frame rfl rfl hs.queued
    · exact hs.of_frame rfl rfl hs.queued
    · refine hs.of_frame rfl rfl ?_
      intro event hmem
      rcases mem_append.mp hmem with hmem | hmem
      · exact hs.queued event hmem
      · simp at hmem
  | subscribe sid options =>
    rcases subscribe_cases hstep with ⟨-, rfl⟩ | rfl
    · exact hs.of_frame rfl rfl hs.queued
    · refine hs.of_frame rfl rfl ?_
      intro event hmem
      rcases mem_append.mp hmem with hmem | hmem
      · exact hs.queued event hmem
      · simp at hmem
  | abandon request =>
    rw [abandon_cases hstep]
    exact hs.of_frame rfl rfl hs.queued
  | sendInput event =>
    obtain ⟨-, -, rfl | rfl⟩ := sendInput_cases hstep
    · exact hs
    · refine hs.of_frame rfl rfl ?_
      intro update hmem
      rcases mem_append.mp hmem with hmem | hmem
      · exact hs.queued update hmem
      · rw [mem_singleton] at hmem
        subst hmem
        exact ha

/-- An update that is processed in a step is reconciled. -/
theorem step_reconciled (hstep : s.step a = some s') :
    s.Reconciled a s' := by
  intro orders event rest ha hmode hqueue
  subst ha
  have hlisted : event.ListedBy owner := hs.queued event (hqueue ▸ mem_cons_self)
  rcases managerStep_cases hstep with
    ⟨event', rest', result, -, hqueue', hresult, rfl⟩ | ⟨hstopped, -⟩
  · rw [hqueue, List.cons.injEq] at hqueue'
    obtain ⟨rfl, rfl⟩ := hqueue'
    cases hresult
    refine ⟨_, perform_outputs _ _, ?_⟩
    rw [perform_manager]
    exact Manager.onSfuPublicationUpdates_reconciles hs.owned orders hlisted
  · -- the manager handles every event but the one to shut down
    have hstep' : s.managerStep orders = some s' := hstep
    unfold managerStep at hstep'
    simp only [hmode, hqueue, Manager.handle, some.injEq] at hstep'
    rw [← hstep', perform_mode] at hstopped
    exact absurd rfl hstopped

end

/-- **Updates of the publications are reconciled.** If every track has one owner, who is the only
participant to list it, then each update that is handled in a run, and each that could be handled
at the end of it, leaves exactly the tracks listed of the participants in it, with one event for
each track that is new or gone. For every track the events that it is published and unpublished
alternate over the run, the first being that it is published. -/
theorem publications_reconciled (provider : Option DecryptionProvider)
    (owner : DataTrackSid → String) (run : List Action) (hrun : ∀ a ∈ run, a.ListedBy owner) :
    EachStep State.step Reconciled (init provider) run ∧
      ∀ s, exec State.step (init provider) run = some s →
        (∀ orders event, event.ListedBy owner →
          s.manager.Reconciles event (s.manager.onSfuPublicationUpdates orders event).1
            (emitted (s.manager.onSfuPublicationUpdates orders event).2)) ∧
        ∀ sid, Switches false (publications sid s.outputs) (s.manager.registered sid) := by
  have hinit := init_publicationInv provider owner
  constructor
  · refine eachStep_of_invariant (I := PublicationInv owner) ?_ hinit
    intro s a ha s' hs hstep
    exact ⟨step_publicationInv hs (hrun a ha) hstep, step_reconciled hs hstep⟩
  · intro s hexec
    have hs : s.PublicationInv owner :=
      exec_invariant_of_labels (P := Action.ListedBy owner) (I := PublicationInv owner)
        (fun s a s' hs ha hstep => step_publicationInv hs ha hstep) hinit hrun hexec
    refine ⟨?_, hs.history⟩
    intro orders event hevent
    exact Manager.onSfuPublicationUpdates_reconciles hs.owned orders hevent

/-- A track is published, listed once more, gone, and published again. -/
theorem publications_reconciled_of_one_publisher :
    let info : DataTrackInfo := ⟨⟨"DTR_A", by decide⟩, ⟨7, by decide⟩, "camera", false⟩
    let update (infos : List DataTrackInfo) : List Action :=
      [.sendInput (.sfuPublicationUpdates ⟨⟨[("publisher", infos)], by simp⟩⟩),
        .manager fun _ => []]
    let run := update [info] ++ update [info, info] ++ update [] ++ update [info]
    (exec State.step (init none) run).map (fun s => publications info.sid s.outputs)
        = some [true, false, true] ∧
      EachStep State.step Reconciled (init none) run := by
  intro info update run
  refine ⟨by decide, (publications_reconciled none (fun _ => "publisher") run ?_).1⟩
  intro a ha
  simp only [run, update, cons_append, nil_append, mem_cons, not_mem_nil,
    or_false] at ha
  rcases ha with rfl | rfl | rfl | rfl | rfl | rfl | rfl | rfl
  all_goals simp [Action.ListedBy, SfuPublicationUpdates.ListedBy]

end State

end LiveKit.DataTrack.Remote
