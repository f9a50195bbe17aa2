import LiveKit.Ffi.Answers

/-!
# Every request is answered

What the requests to publish and to unpublish wait for comes, the ledger is right, and so nothing is
left to answer where no task can take a step: `answers`.
-/

namespace LiveKit.Ffi

open List Option State TransitionSystem
open Publications (TrackSid)

variable {records new : List Message} {s s' : State}

/-! ## The requests themselves -/

/-- The task of the request has not panicked, and will not. -/
structure Job.Ok (job : Job) : Prop where
  alive : job.point ≠ .panicked
  packet : job.point = .undelivered → ∃ kind, job.request = .publishPacket kind
  valid : ∀ trackSid, job.request = .unpublishTrack trackSid →
    (TrackSid.tryFrom trackSid).isSome = true

def JobsOk (s : State) : Prop := ∀ job ∈ s.jobs, job.Ok

variable {job : Job}

theorem JobsOk.begun (h : JobsOk s) (hjobs : s'.jobs = s.jobs ++ [job]) (hok : job.Ok) :
    JobsOk s' := by
  intro job' hmem
  rw [hjobs] at hmem
  rcases mem_append.mp hmem with hmem | hmem
  · exact h job' hmem
  · rw [mem_singleton.mp hmem]
    exact hok

variable {i : ℕ} {point : Point}

theorem JobsOk.goto (h : JobsOk s) (hjob : s.jobs[i]? = some job)
    (hjobs : s'.jobs = s.jobs.set i { job with point }) (halive : point ≠ .panicked)
    (hdelivered : point ≠ .undelivered) : JobsOk s' := by
  intro job' hmem
  rw [hjobs] at hmem
  rcases mem_or_eq_of_mem_set hmem with hmem | rfl
  · exact h job' hmem
  · exact ⟨halive, fun hbad => absurd hbad hdelivered,
      (h job (mem_of_getElem? hjob)).valid⟩

theorem JobsOk.same (h : JobsOk s) (hjobs : s'.jobs = s.jobs) : JobsOk s' := by
  intro job hmem
  rw [hjobs] at hmem
  exact h job hmem

variable {a : Action}

theorem JobsOk.step (h : JobsOk s) (hturn : Turn s a s' new) (hnone : NoneAbandoned s a s') :
    JobsOk s' := by
  cases hturn with
  | @begun request asyncId id nextId hrequest hnext =>
    refine h.begun rfl ⟨fun hbad => (by cases hbad), fun hbad => (by cases hbad), ?_⟩
    rintro trackSid rfl
    exact hnone
  | @refused kind asyncId id nextId hended hnext =>
    refine h.begun rfl ⟨fun hbad => (by cases hbad), fun _ => ⟨kind, rfl⟩, ?_⟩
    intro trackSid hbad
    cases hbad
  | queued id nextId hended hnext =>
    refine h.begun rfl ⟨fun hbad => (by cases hbad), fun hbad => (by cases hbad), ?_⟩
    intro trackSid hbad
    cases hbad
  | @badSid i error job trackSid hjob hrequest hpoint hsid =>
    have hvalid := (h job (mem_of_getElem? hjob)).valid trackSid hrequest
    rw [hsid] at hvalid
    cases hvalid
  | @closeUnpublish sid error =>
    obtain ⟨trackPublications, events, heq, -, -⟩ := sdkUnpublish_eq s sid error
    rw [heq]
    exact h.same rfl
  | @republishUnpublish k error p hrepublish =>
    obtain ⟨trackPublications, events, heq, -, -⟩ := sdkUnpublish_eq s p.sid error
    rw [heq]
    exact h.same rfl
  | @forward event events hroom hevents =>
    exact h.same (forwardEvent_same { s with events } event).1
  | publish hjob | publishFails hjob | sendPublishCallback hjob | insertPending hjob
  | notFound hjob | notRemoved hjob | unpublish hjob | finishUnpublish hjob | reportClosed hjob
  | packetSent _ hjob =>
    exact h.goto hjob rfl nofun nofun
  | _ => exact h.same rfl

/-! ## The ledger -/

theorem forwardEvent_isEvent (s : State) (event : RoomEvent) :
    ∀ m ∈ (s.forwardEvent event).2, m.IsEvent := by
  intro m hmem asyncId
  cases event with
  | localTrackPublished p =>
    unfold forwardEvent at hmem
    dsimp only at hmem
    split at hmem
    · cases hmem
    · cases hmem
  | localTrackUnpublished p =>
    unfold forwardEvent at hmem
    dsimp only at hmem
    split at hmem
    · cases hmem
    · rw [mem_singleton.mp hmem]
      exact ⟨rfl, rfl⟩
  | localTrackRepublished previousSid p =>
    unfold forwardEvent at hmem
    dsimp only at hmem
    split at hmem
    · rw [mem_singleton.mp hmem]
      exact ⟨rfl, rfl⟩
    · rw [mem_singleton.mp hmem]
      exact ⟨rfl, rfl⟩
  | reconnecting | reconnected =>
    rw [mem_singleton.mp hmem]
    exact ⟨rfl, rfl⟩
  | other => cases hmem

theorem nil_isEvent : ∀ m ∈ ([] : List Message), m.IsEvent := fun _ hmem => by cases hmem

theorem single_isEvent {m : Message} (h : m.IsEvent) : ∀ m' ∈ [m], m'.IsEvent := by
  intro m' hmem
  rw [mem_singleton.mp hmem]
  exact h

theorem Ledger.step (h : Ledger records s) (hpackets : PacketInv s) (hturn : Turn s a s' new) :
    Ledger (records ++ new) s' := by
  cases hturn with
  | begun id | queued id => exact h.begun ⟨id, _, .running⟩ rfl rfl
  | refused id nextId hended hnext => exact h.begun ⟨id, _, .undelivered⟩ rfl rfl
  | publish hjob _ hpoint | insertPending hjob hpoint | badSid hjob _ hpoint
  | unpublish hjob _ hpoint =>
    refine h.move hjob rfl ?_
    rw [hpoint]
    rfl
  | publishFails hjob _ hpoint | sendPublishCallback hjob hpoint | notFound hjob _ hpoint
  | notRemoved hjob _ hpoint | finishUnpublish hjob hpoint | reportClosed hjob _ hpoint =>
    refine h.answer hjob rfl ?_ rfl _
    rw [hpoint]
    rfl
  | packetSent htask hjob =>
    refine h.answer hjob rfl ?_ rfl _
    rw [(hpackets.sending htask hjob).2]
    rfl
  | @closeUnpublish sid error =>
    obtain ⟨trackPublications, events, heq, -, -⟩ := sdkUnpublish_eq s sid error
    rw [heq]
    exact h.same rfl nil_isEvent
  | @republishUnpublish k error p hrepublish =>
    obtain ⟨trackPublications, events, heq, -, -⟩ := sdkUnpublish_eq s p.sid error
    rw [heq]
    exact h.same rfl nil_isEvent
  | @forward event events hroom hevents =>
    exact h.same (forwardEvent_same { s with events } event).1 (forwardEvent_isEvent _ event)
  | finishForward | stopRoom => exact h.same rfl (single_isEvent fun _ => ⟨rfl, rfl⟩)
  | _ => exact h.same rfl nil_isEvent

/-! ## The room task waits for a mark that comes -/

def PublishInv (s : State) : Prop :=
  ∀ p, s.roomTask = .waiting p → p.sid ∈ s.pendingPublishedTracks ∨ s.Publishing p.sid

variable {sid : TrackSid}

theorem publishing_begun (hjobs : s'.jobs = s.jobs ++ [job]) (h : s.Publishing sid) :
    s'.Publishing sid := by
  have hat : ∀ i point, s.At i point → s'.At i point := by
    intro i point hpoint
    rw [at_begun hjobs]
    split
    · next heq =>
      obtain ⟨job', hjob', -⟩ := hpoint
      exact absurd heq (Components.ne_length hjob')
    · exact hpoint
  obtain ⟨i, p, hpoint | hpoint, hsid⟩ := h
  · exact ⟨i, p, .inl (hat i _ hpoint), hsid⟩
  · exact ⟨i, p, .inr (hat i _ hpoint), hsid⟩

/-- A request goes on that is not about to set a mark. -/
theorem publishing_goto (hjob : s.jobs[i]? = some job)
    (hjobs : s'.jobs = s.jobs.set i { job with point })
    (hpoint : ∀ p, job.point ≠ .published p ∧ job.point ≠ .announced p) (h : s.Publishing sid) :
    s'.Publishing sid := by
  obtain ⟨j, p, hat, hsid⟩ := h
  have hne : j ≠ i := by
    rintro rfl
    rcases hat with hat | hat
    · exact (hpoint p).1 (at_unique ⟨job, hjob, rfl⟩ hat)
    · exact (hpoint p).2 (at_unique ⟨job, hjob, rfl⟩ hat)
  refine ⟨j, p, ?_, hsid⟩
  rw [at_goto hjob point hjobs, at_goto hjob point hjobs, if_neg hne, if_neg hne]
  exact hat

/-- A step that leaves the room task and the marks. -/
theorem PublishInv.frame (h : PublishInv s) (hroom : s'.roomTask = s.roomTask)
    (hpending : s'.pendingPublishedTracks = s.pendingPublishedTracks)
    (hpublishing : ∀ sid, s.Publishing sid → s'.Publishing sid) : PublishInv s' := by
  intro p hp
  rw [hroom] at hp
  rcases h p hp with hmem | hpub
  · rw [hpending]
    exact .inl hmem
  · exact .inr (hpublishing p.sid hpub)

theorem PublishInv.goto (h : PublishInv s) (hjob : s.jobs[i]? = some job)
    (hjobs : s'.jobs = s.jobs.set i { job with point }) (hroom : s'.roomTask = s.roomTask)
    (hpending : s'.pendingPublishedTracks = s.pendingPublishedTracks)
    (hpoint : ∀ p, job.point ≠ .published p ∧ job.point ≠ .announced p) : PublishInv s' :=
  h.frame hroom hpending fun _ => publishing_goto hjob hjobs hpoint

variable {event : RoomEvent} {events : List RoomEvent}

theorem PublishInv.forward (hroom : s.roomTask = .idle) (hevents : s.events = event :: events)
    (hnone : NoneAbandoned s .forward s') :
    PublishInv ({ s with events }.forwardEvent event).1 := by
  have hcomes : s.MarkComes event := hnone event (by rw [hevents]; rfl)
  have hidle : ∀ t : State, t.roomTask = .idle → PublishInv t := by
    intro t ht p hp
    rw [ht] at hp
    cases hp
  cases event with
  | localTrackPublished p =>
    unfold forwardEvent
    dsimp only
    split
    · exact hidle _ hroom
    · next hreconnecting =>
      intro q hq
      obtain rfl := RoomTask.waiting.inj hq
      exact hcomes (Bool.eq_false_of_not_eq_true hreconnecting)
  | localTrackUnpublished | localTrackRepublished =>
    unfold forwardEvent
    dsimp only
    split
    · exact hidle _ hroom
    · exact hidle _ hroom
  | reconnecting | reconnected | other => exact hidle _ hroom

variable {p : LocalTrackPublication}

/-- The mark of a publication is set. -/
theorem PublishInv.insertPending (h : PublishInv s) (hjob : s.jobs[i]? = some job)
    (hpoint : job.point = .announced p) (hjobs : s'.jobs = s.jobs.set i { job with point := .done })
    (hroom : s'.roomTask = s.roomTask)
    (hpending : s'.pendingPublishedTracks = insert p.sid s.pendingPublishedTracks) :
    PublishInv s' := by
  intro q hq
  rw [hroom] at hq
  rw [hpending]
  rcases h q hq with hmem | ⟨j, p', hat, hsid⟩
  · exact .inl (Finset.mem_insert_of_mem hmem)
  · by_cases hj : j = i
    · have hsame : p' = p := by
        subst hj
        rcases hat with hat | hat
        · cases at_unique ⟨job, hjob, hpoint⟩ hat
        · exact (Point.announced.inj (at_unique ⟨job, hjob, hpoint⟩ hat)).symm
      rw [← hsid, hsame]
      exact .inl (Finset.mem_insert_self _ _)
    · refine .inr ⟨j, p', ?_, hsid⟩
      rw [at_goto hjob .done hjobs, at_goto hjob .done hjobs, if_neg hj, if_neg hj]
      exact hat

/-- The callback of a publication is sent. -/
theorem PublishInv.announce (h : PublishInv s) (hjob : s.jobs[i]? = some job)
    (hpoint : job.point = .published p)
    (hjobs : s'.jobs = s.jobs.set i { job with point := .announced p })
    (hroom : s'.roomTask = s.roomTask)
    (hpending : s'.pendingPublishedTracks = s.pendingPublishedTracks) : PublishInv s' := by
  refine h.frame hroom hpending ?_
  rintro sid ⟨j, p', hat, hsid⟩
  by_cases hj : j = i
  · have hsame : p' = p := by
      subst hj
      rcases hat with hat | hat
      · exact (Point.published.inj (at_unique ⟨job, hjob, hpoint⟩ hat)).symm
      · cases at_unique ⟨job, hjob, hpoint⟩ hat
    refine ⟨i, p, .inr ?_, hsame ▸ hsid⟩
    rw [at_goto hjob (.announced p) hjobs, if_pos rfl]
  · refine ⟨j, p', ?_, hsid⟩
    rw [at_goto hjob (.announced p) hjobs, at_goto hjob (.announced p) hjobs, if_neg hj, if_neg hj]
    exact hat

/-- What is not published is not about to set a mark. -/
theorem not_publishing {point' : Point} (h : point = point')
    (hpoint' : ∀ p, point' ≠ .published p ∧ point' ≠ .announced p) (p : LocalTrackPublication) :
    point ≠ .published p ∧ point ≠ .announced p := by
  rw [h]
  exact hpoint' p

theorem PublishInv.step (h : PublishInv s) (hpackets : PacketInv s) (hturn : Turn s a s' new)
    (hnone : NoneAbandoned s a s') : PublishInv s' := by
  have hrunning : ∀ p, Point.running ≠ .published p ∧ Point.running ≠ .announced p :=
    fun p => ⟨fun hbad => (by cases hbad), fun hbad => (by cases hbad)⟩
  cases hturn with
  | begun | refused | queued => exact h.frame rfl rfl fun _ => publishing_begun rfl
  | publish hjob _ hpoint | publishFails hjob _ hpoint | badSid hjob _ hpoint
  | notFound hjob _ hpoint | notRemoved hjob _ hpoint | unpublish hjob _ hpoint =>
    exact h.goto hjob rfl rfl rfl (not_publishing hpoint hrunning)
  | sendPublishCallback hjob hpoint => exact h.announce hjob hpoint rfl rfl rfl
  | insertPending hjob hpoint => exact h.insertPending hjob hpoint rfl rfl rfl
  | finishUnpublish hjob hpoint | reportClosed hjob _ hpoint =>
    refine h.goto hjob rfl rfl rfl (not_publishing hpoint fun p => ⟨?_, ?_⟩)
    · exact nofun
    · exact nofun
  | packetSent htask hjob =>
    exact h.goto hjob rfl rfl rfl (not_publishing (hpackets.sending htask hjob).2 hrunning)
  | @closeUnpublish sid error =>
    obtain ⟨trackPublications, events, heq, -, -⟩ := sdkUnpublish_eq s sid error
    rw [heq]
    exact h.frame rfl rfl fun _ hpub => hpub
  | @republishUnpublish k error p hrepublish =>
    obtain ⟨trackPublications, events, heq, -, -⟩ := sdkUnpublish_eq s p.sid error
    rw [heq]
    exact h.frame rfl rfl fun _ hpub => hpub
  | forward hroom hevents => exact PublishInv.forward hroom hevents hnone
  | finishForward | stopRoom =>
    intro p hbad
    cases hbad
  | _ => exact h.frame rfl rfl fun _ hpub => hpub

/-! ## A request to unpublish waits for a mark that comes -/

structure UnpublishInv (s : State) : Prop where
  keyed : ∀ sid p, AList.lookup sid s.trackPublications = some p → p.sid = sid
  apart : ∀ i j sid, s.At i (.waiting sid) → s.At j (.waiting sid) → i = j
  comes : ∀ i sid, s.At i (.waiting sid) →
    sid ∈ s.pendingUnpublishedTracks ∨ s.WillUnpublish sid

/-- A step after which no other requests wait, and what comes is there or still comes. -/
theorem UnpublishInv.frame (h : UnpublishInv s)
    (hat : ∀ i sid, s'.At i (.waiting sid) → s.At i (.waiting sid))
    (hkeyed : ∀ sid p, AList.lookup sid s'.trackPublications = some p → p.sid = sid)
    (hpending : s.pendingUnpublishedTracks ⊆ s'.pendingUnpublishedTracks)
    (hevents : s.events ⊆ s'.events) (hroom : s'.roomTask = .ended → s.roomTask = .ended) :
    UnpublishInv s' := by
  refine ⟨hkeyed, ?_, ?_⟩
  · intro i j sid hi hj
    exact h.apart i j sid (hat i sid hi) (hat j sid hj)
  · intro i sid hi
    rcases h.comes i sid (hat i sid hi) with hmem | ⟨⟨p, hp, hsid⟩, hended⟩
    · exact .inl (hpending hmem)
    · exact .inr ⟨⟨p, hevents hp, hsid⟩, fun hbad => hended (hroom hbad)⟩

theorem waiting_begun (hjobs : s'.jobs = s.jobs ++ [job]) (hpoint : ∀ sid, job.point ≠ .waiting sid)
    (i : ℕ) (sid : TrackSid) (h : s'.At i (.waiting sid)) : s.At i (.waiting sid) := by
  rw [at_begun hjobs] at h
  split at h
  · exact absurd h (hpoint sid)
  · exact h

theorem waiting_goto (hjob : s.jobs[i]? = some job)
    (hjobs : s'.jobs = s.jobs.set i { job with point }) (hpoint : ∀ sid, point ≠ .waiting sid)
    (j : ℕ) (sid : TrackSid) (h : s'.At j (.waiting sid)) : j ≠ i ∧ s.At j (.waiting sid) := by
  rw [at_goto hjob point hjobs] at h
  split at h
  · exact absurd h (hpoint sid)
  · next hne => exact ⟨hne, h⟩

section

variable (h : UnpublishInv s)

include h

/-- A request is begun. -/
theorem UnpublishInv.begun (hjobs : s'.jobs = s.jobs ++ [job])
    (hpoint : ∀ sid, job.point ≠ .waiting sid)
    (hpublications : s'.trackPublications = s.trackPublications)
    (hpending : s'.pendingUnpublishedTracks = s.pendingUnpublishedTracks)
    (hevents : s'.events = s.events) (hroom : s'.roomTask = s.roomTask) : UnpublishInv s' := by
  refine h.frame (waiting_begun hjobs hpoint) ?_ ?_ ?_ ?_
  · rw [hpublications]
    exact h.keyed
  · rw [hpending]
  · rw [hevents]
    exact List.Subset.refl _
  · rw [hroom]
    exact id

/-- A request goes on, and does not wait then. -/
theorem UnpublishInv.goto (hjob : s.jobs[i]? = some job)
    (hjobs : s'.jobs = s.jobs.set i { job with point }) (hpoint : ∀ sid, point ≠ .waiting sid)
    (hkeyed : ∀ sid p, AList.lookup sid s'.trackPublications = some p → p.sid = sid)
    (hpending : s'.pendingUnpublishedTracks = s.pendingUnpublishedTracks)
    (hevents : s.events ⊆ s'.events) (hroom : s'.roomTask = s.roomTask) : UnpublishInv s' := by
  refine h.frame (fun j sid hat => (waiting_goto hjob hjobs hpoint j sid hat).2) hkeyed ?_
    hevents ?_
  · rw [hpending]
  · rw [hroom]
    exact id

/-- What is published is found under its sid. -/
theorem UnpublishInv.keyed_insert (p : LocalTrackPublication) (sid : TrackSid)
    (q : LocalTrackPublication)
    (hlookup : AList.lookup sid (AList.insert p.sid p s.trackPublications) = some q) :
    q.sid = sid := by
  rcases AssocMap.of_lookup_insert hlookup with ⟨rfl, rfl⟩ | ⟨-, hlookup⟩
  · rfl
  · exact h.keyed sid q hlookup

theorem UnpublishInv.keyed_erase (sid' sid : TrackSid) (q : LocalTrackPublication)
    (hlookup : AList.lookup sid (AList.erase sid' s.trackPublications) = some q) :
    q.sid = sid :=
  h.keyed sid q (AssocMap.of_lookup_erase hlookup).2

/-- A request waits for the event that the track is unpublished. -/
theorem UnpublishInv.unpublish (hjob : s.jobs[i]? = some job) (hsid : p.sid = sid)
    (hclear : s.cleared = false) (hended : s.roomTask ≠ .ended)
    (hapart : ∀ j, ¬ s.At j (.waiting sid))
    (hjobs : s'.jobs = s.jobs.set i { job with point := .waiting sid })
    (hpublications : s'.trackPublications = AList.erase sid s.trackPublications)
    (hpending : s'.pendingUnpublishedTracks = s.pendingUnpublishedTracks)
    (hevents : s'.events = s.dispatched (.localTrackUnpublished p))
    (hroom : s'.roomTask = s.roomTask) : UnpublishInv s' := by
  have hat : ∀ j sid', s'.At j (.waiting sid') →
      j = i ∧ sid' = sid ∨ j ≠ i ∧ s.At j (.waiting sid') := by
    intro j sid' hat
    rw [at_goto hjob (.waiting sid) hjobs] at hat
    split at hat
    · next heq => exact .inl ⟨heq, (Point.waiting.inj hat).symm⟩
    · next hne => exact .inr ⟨hne, hat⟩
  refine ⟨?_, ?_, ?_⟩
  · rw [hpublications]
    exact h.keyed_erase sid
  · intro j k sid' hj hk
    rcases hat j sid' hj with ⟨hji, rfl⟩ | ⟨-, hj⟩
    · rcases hat k sid' hk with ⟨hki, -⟩ | ⟨-, hk⟩
      · rw [hji, hki]
      · exact absurd hk (hapart k)
    · rcases hat k sid' hk with ⟨-, rfl⟩ | ⟨-, hk⟩
      · exact absurd hj (hapart j)
      · exact h.apart j k sid' hj hk
  · intro j sid' hj
    unfold State.WillUnpublish
    rw [hpending, hevents, hroom]
    rcases hat j sid' hj with ⟨-, rfl⟩ | ⟨-, hj⟩
    · exact .inr ⟨⟨p, mem_dispatched hclear _, hsid⟩, hended⟩
    · rcases h.comes j sid' hj with hmem | ⟨⟨q, hq, hsid'⟩, hended⟩
      · exact .inl hmem
      · exact .inr ⟨⟨q, events_subset_dispatched s _ hq, hsid'⟩, hended⟩

/-- A request finds the mark. -/
theorem UnpublishInv.finish (hjob : s.jobs[i]? = some job) (hpoint : job.point = .waiting sid)
    (hjobs : s'.jobs = s.jobs.set i { job with point := .done })
    (hpublications : s'.trackPublications = s.trackPublications)
    (hpending : s'.pendingUnpublishedTracks = s.pendingUnpublishedTracks.erase sid)
    (hevents : s'.events = s.events) (hroom : s'.roomTask = s.roomTask) : UnpublishInv s' := by
  have hat := waiting_goto hjob hjobs fun _ hbad => by cases hbad
  refine ⟨?_, ?_, ?_⟩
  · rw [hpublications]
    exact h.keyed
  · intro j k sid' hj hk
    exact h.apart j k sid' (hat j sid' hj).2 (hat k sid' hk).2
  · intro j sid' hj
    unfold State.WillUnpublish
    rw [hpending, hevents, hroom]
    obtain ⟨hne, hj⟩ := hat j sid' hj
    -- the mark that is taken is not that of another request
    have hother : sid' ≠ sid := by
      rintro rfl
      exact hne (h.apart j i sid' hj ⟨job, hjob, hpoint⟩)
    rcases h.comes j sid' hj with hmem | hcomes
    · exact .inl (Finset.mem_erase.mpr ⟨hother, hmem⟩)
    · exact .inr hcomes

/-- The room task takes an event, and marks it if a request waits for it. -/
theorem UnpublishInv.taken (hevents : s.events = event :: events) (hjobs : s'.jobs = s.jobs)
    (hpublications : s'.trackPublications = s.trackPublications)
    (hpending : s.pendingUnpublishedTracks ⊆ s'.pendingUnpublishedTracks)
    (hrest : s'.events = events) (hroom : s'.roomTask ≠ .ended)
    (hmark : ∀ p, event = .localTrackUnpublished p → ∀ i, s.At i (.waiting p.sid) →
      p.sid ∈ s'.pendingUnpublishedTracks) : UnpublishInv s' := by
  have hat : ∀ i point, s'.At i point ↔ s.At i point := by
    intro i point
    unfold State.At
    rw [hjobs]
  refine ⟨?_, ?_, ?_⟩
  · rw [hpublications]
    exact h.keyed
  · intro i j sid hi hj
    exact h.apart i j sid ((hat i _).mp hi) ((hat j _).mp hj)
  · intro i sid hi
    rcases h.comes i sid ((hat i _).mp hi) with hmem | ⟨⟨p, hp, rfl⟩, -⟩
    · exact .inl (hpending hmem)
    · rw [hevents, mem_cons] at hp
      rcases hp with hp | hp
      · exact .inl (hmark p hp.symm i ((hat i _).mp hi))
      · exact .inr ⟨⟨p, hrest ▸ hp, rfl⟩, hroom⟩

theorem UnpublishInv.forward (hroom : s.roomTask = .idle) (hevents : s.events = event :: events)
    (hnone : NoneAbandoned s .forward s') :
    UnpublishInv ({ s with events }.forwardEvent event).1 := by
  have hcomes : s.MarkComes event := hnone event (by rw [hevents]; rfl)
  have hidle : s.roomTask ≠ .ended := by
    rw [hroom]
    exact nofun
  cases event with
  | localTrackPublished p =>
    have hother : ∀ q, RoomEvent.localTrackPublished p ≠ .localTrackUnpublished q :=
      fun q hbad => by cases hbad
    unfold forwardEvent
    dsimp only
    split
    · exact h.taken hevents rfl rfl (Finset.Subset.refl _) rfl hidle
        fun q hq => absurd hq (hother q)
    · exact h.taken hevents rfl rfl (Finset.Subset.refl _) rfl nofun
        fun q hq => absurd hq (hother q)
  | localTrackUnpublished p =>
    unfold forwardEvent
    dsimp only
    split
    · next hreconnecting =>
      refine h.taken hevents rfl rfl (Finset.Subset.refl _) rfl hidle ?_
      intro q hq i hi
      obtain rfl := RoomEvent.localTrackUnpublished.inj hq
      exact hcomes hreconnecting i hi
    · refine h.taken hevents rfl rfl (Finset.subset_insert _ _) rfl hidle ?_
      intro q hq i hi
      obtain rfl := RoomEvent.localTrackUnpublished.inj hq
      exact Finset.mem_insert_self _ _
  | localTrackRepublished previousSid p =>
    have hother : ∀ q, RoomEvent.localTrackRepublished previousSid p ≠ .localTrackUnpublished q :=
      fun q hbad => by cases hbad
    unfold forwardEvent
    dsimp only
    split
    · exact h.taken hevents rfl rfl (Finset.Subset.refl _) rfl hidle
        fun q hq => absurd hq (hother q)
    · exact h.taken hevents rfl rfl (Finset.Subset.refl _) rfl hidle
        fun q hq => absurd hq (hother q)
  | reconnecting | reconnected | other =>
    exact h.taken hevents rfl rfl (Finset.Subset.refl _) rfl hidle fun q hbad => by cases hbad

theorem UnpublishInv.step (hturn : Turn s a s' new) (hnone : NoneAbandoned s a s') :
    UnpublishInv s' := by
  cases hturn with
  | begun id nextId hrequest hnext | refused id nextId hended hnext
  | queued id nextId hended hnext =>
    exact h.begun rfl nofun rfl rfl rfl rfl
  | @publish i sid job hjob hrequest hpoint =>
    exact h.goto hjob rfl nofun (h.keyed_insert ⟨sid, i⟩) rfl
      (events_subset_dispatched s _) rfl
  | publishFails hjob | sendPublishCallback hjob | insertPending hjob | badSid hjob
  | notFound hjob | reportClosed hjob | packetSent _ hjob =>
    exact h.goto hjob rfl nofun h.keyed rfl (List.Subset.refl _) rfl
  | @notRemoved i e job trackSid sid p hjob hrequest hpoint hsid hlookup =>
    exact h.goto hjob rfl nofun (h.keyed_erase sid) rfl
      (List.Subset.refl _) rfl
  | @unpublish i job trackSid sid p hjob hrequest hpoint hsid hlookup =>
    have hfinds : s.Finds i sid := ⟨job, trackSid, p, hjob, hrequest, hpoint, hsid, hlookup⟩
    obtain ⟨hclear, hended, hapart⟩ := hnone sid hfinds
    exact h.unpublish hjob (h.keyed sid p hlookup) hclear hended hapart rfl rfl rfl rfl rfl
  | finishUnpublish hjob hpoint hpending => exact h.finish hjob hpoint rfl rfl rfl rfl rfl
  | dispatch | republishEvent =>
    exact h.frame (fun _ _ hat => hat) h.keyed (Finset.Subset.refl _)
      (events_subset_dispatched s _) id
  | @closeUnpublish sid error =>
    obtain ⟨trackPublications, events, heq, hlookup, hsub⟩ := sdkUnpublish_eq s sid error
    rw [heq]
    exact h.frame (fun _ _ hat => hat) (fun sid' p hp => h.keyed sid' p (hlookup sid' p hp))
      (Finset.Subset.refl _) hsub id
  | @republishUnpublish k error p hrepublish =>
    obtain ⟨trackPublications, events, heq, hlookup, hsub⟩ := sdkUnpublish_eq s p.sid error
    rw [heq]
    exact h.frame (fun _ _ hat => hat) (fun sid' q hq => h.keyed sid' q (hlookup sid' q hq))
      (Finset.Subset.refl _) hsub id
  | @republishPublish k sid p hrepublish =>
    exact h.frame (fun _ _ hat => hat) (h.keyed_insert ⟨sid, p.track⟩) (Finset.Subset.refl _)
      (events_subset_dispatched s _) id
  | forward hroom hevents => exact h.forward hroom hevents hnone
  | finishForward hroom hpending =>
    refine h.frame (fun _ _ hat => hat) h.keyed (Finset.Subset.refl _) (List.Subset.refl _) ?_
    intro hbad
    cases hbad
  | stopRoom hroom hclosed =>
    exact ⟨h.keyed, h.apart, fun i sid hat => .inl (hnone i sid hat)⟩
  | _ => exact h.frame (fun _ _ hat => hat) h.keyed (Finset.Subset.refl _) (List.Subset.refl _) id

end

/-! ## Where no task can take a step -/

structure AnswerInv (records : List Message) (s : State) : Prop where
  jobs : JobsOk s
  ledger : Ledger records s
  packets : PacketInv s
  publish : PublishInv s
  unpublish : UnpublishInv s

section

variable (h : AnswerInv records s) (hquiet : s.Quiescent)

include h hquiet

/-- The room task is idle where no task can take a step, unless it has ended. -/
theorem AnswerInv.room_not_waiting (p : LocalTrackPublication) : s.roomTask ≠ .waiting p := by
  intro hroom
  rcases h.publish p hroom with hmem | ⟨i, q, ⟨job, hjob, hpoint⟩ | ⟨job, hjob, hpoint⟩, -⟩
  · have hstuck := hquiet .finishForward trivial
    simp only [step, turn, finishForward, hroom, if_pos hmem, map_some] at hstuck
    cases hstuck
  · have hstuck := hquiet (.sendPublishCallback i) trivial
    simp only [step, turn, hjob, bind_some, sendPublishCallback, hpoint,
      map_some] at hstuck
    cases hstuck
  · have hstuck := hquiet (.insertPending i) trivial
    simp only [step, turn, hjob, bind_some, insertPending, hpoint,
      map_some] at hstuck
    cases hstuck

/-- No packet is left where no task can take a step. -/
theorem AnswerInv.no_packet (kind : PacketKind) (i : ℕ) : ¬ s.Packet kind i := by
  intro hpacket
  have hmem := (h.packets.inFlight kind i).mpr hpacket
  cases htask : s.packetTasks kind with
  | idle =>
    cases hqueue : s.queues kind with
    | nil =>
      unfold State.inFlight at hmem
      rw [htask, hqueue] at hmem
      cases hmem
    | cons j rest =>
      have hstuck := hquiet (.takePacket kind) trivial
      simp only [step, turn, takePacket, htask, hqueue, map_some] at hstuck
      cases hstuck
  | sending j =>
    have hsending : j ∈ s.inFlight kind := by
      unfold State.inFlight
      rw [htask]
      exact mem_cons_self
    obtain ⟨job, hjob, -⟩ := (h.packets.inFlight kind j).mp hsending
    have hstuck := hquiet (.packetSent kind none) trivial
    simp only [step, turn, packetSent, htask, hjob, map_some] at hstuck
    cases hstuck
  | ended =>
    unfold State.inFlight at hmem
    rw [htask, h.packets.ended kind htask] at hmem
    cases hmem

/-- No request waits where no task can take a step. -/
theorem AnswerInv.none_waits (hjob : s.jobs[i]? = some job) (sid : TrackSid) :
    job.point ≠ .waiting sid := by
  intro hpoint
  rcases h.unpublish.comes i sid ⟨job, hjob, hpoint⟩ with hmem | ⟨⟨p, hp, -⟩, hended⟩
  · have hstuck := hquiet (.finishUnpublish i) trivial
    simp only [step, turn, hjob, bind_some, finishUnpublish, hpoint, if_pos hmem,
      map_some] at hstuck
    cases hstuck
  · cases hroom : s.roomTask with
    | idle =>
      cases hevents : s.events with
      | nil =>
        rw [hevents] at hp
        cases hp
      | cons event events =>
        have hstuck := hquiet .forward trivial
        simp only [step, turn, State.forward, hroom, hevents, map_some] at hstuck
        cases hstuck
    | waiting q => exact h.room_not_waiting hquiet q hroom
    | ended => exact hended hroom

/-- Every request is done where no task can take a step. -/
theorem AnswerInv.all_done (hjob : s.jobs[i]? = some job) : job.point = .done := by
  have hok := h.jobs job (mem_of_getElem? hjob)
  cases hpoint : job.point with
  | running =>
    cases hrequest : job.request with
    | publishTrack =>
      have hstuck := hquiet (.publishFails i "") trivial
      simp only [step, turn, hjob, bind_some, State.publishFails, hrequest, hpoint,
        map_some] at hstuck
      cases hstuck
    | unpublishTrack trackSid =>
      have hstuck := hquiet (.unpublish i none) trivial
      obtain ⟨sid, hsid⟩ := isSome_iff_exists.mp (hok.valid trackSid hrequest)
      simp only [step, turn, hjob, bind_some, State.unpublish, hrequest, hpoint,
        hsid] at hstuck
      cases hlookup : AList.lookup sid s.trackPublications with
      | none | some =>
        simp only [sdkUnpublish, hlookup, map_some] at hstuck
        cases hstuck
    | publishPacket kind => exact absurd ⟨job, hjob, hrequest, hpoint⟩ (h.no_packet hquiet kind i)
  | published p =>
    have hstuck := hquiet (.sendPublishCallback i) trivial
    simp only [step, turn, hjob, bind_some, sendPublishCallback, hpoint,
      map_some] at hstuck
    cases hstuck
  | announced p =>
    have hstuck := hquiet (.insertPending i) trivial
    simp only [step, turn, hjob, bind_some, insertPending, hpoint,
      map_some] at hstuck
    cases hstuck
  | waiting sid => exact absurd hpoint (h.none_waits hquiet hjob sid)
  | undelivered =>
    obtain ⟨kind, hrequest⟩ := hok.packet hpoint
    have hstuck := hquiet (.reportClosed i "") trivial
    simp only [step, turn, hjob, bind_some, reportClosed, hrequest, hpoint,
      map_some] at hstuck
    cases hstuck
  | done => rfl
  | panicked => exact absurd hpoint hok.alive

end

theorem AnswerInv.answers_all (h : AnswerInv records s) : Answers records s where
  atMostOnce := by
    intro asyncId
    have hledger := h.ledger asyncId
    omega
  answered := by
    intro hquiet asyncId
    have hledger := h.ledger asyncId
    have hnone : s.jobs.countP (·.owes asyncId) = 0 := by
      rw [countP_eq_zero]
      intro job hmem
      obtain ⟨i, hjob⟩ := mem_iff_getElem?.mp hmem
      unfold Job.owes
      rw [h.all_done hquiet hjob]
      show ¬ (job.asyncId == asyncId && false) = true
      rw [Bool.and_false]
      exact Bool.false_ne_true
    omega
  publish := h.publish
  unpublish := h.unpublish.comes

/-! ## Every run -/

theorem answerInv_new : AnswerInv [] State.new where
  jobs := fun _ hmem => by cases hmem
  ledger := fun _ => rfl
  packets := by
    refine ⟨fun kind i => ?_, fun _ => nodup_nil, fun _ _ => rfl⟩
    constructor
    · intro hmem
      cases hmem
    · rintro ⟨job, hjob, -⟩
      cases hjob
  publish := fun _ hbad => by cases hbad
  unpublish := by
    refine ⟨fun _ _ hlookup => (by cases hlookup), ?_, ?_⟩
    · rintro i j sid ⟨job, hjob, -⟩
      cases hjob
    · rintro i sid ⟨job, hjob, -⟩
      cases hjob

theorem AnswerInv.step (h : AnswerInv records s) (hturn : Turn s a s' new)
    (hnone : NoneAbandoned s a s') : AnswerInv (records ++ new) s' where
  jobs := h.jobs.step hturn hnone
  ledger := h.ledger.step h.packets hturn
  packets := h.packets.step hturn hnone
  publish := h.publish.step h.packets hturn hnone
  unpublish := h.unpublish.step hturn hnone

/-- In every run whose steps abandon no request, every request is answered at most once, and once by
the time that no task can take a step. -/
theorem answers (run : List Action) (h : EachStep State.step NoneAbandoned State.new run) :
    Always State.step messages Answers State.new run := by
  have heach : EachStepOn State.step messages (fun _ => NoneAbandoned) [] State.new run :=
    (eachStepOn_iff_eachStep _ _ _).mpr h
  refine always_of_eachStepOn (I := AnswerInv) (fun _ _ hinv => hinv.answers_all) ?_ answerInv_new
    heach
  intro records s a s' hinv hstep hnone
  exact hinv.step (step_cases hstep) hnone

/-- A track is published and unpublished. -/
theorem answers_unpublished :
    Always State.step messages Answers State.new
      [.request .publishTrack (some 7), .publish 0 ⟨"TR_a", by decide⟩, .sendPublishCallback 0,
        .insertPending 0, .forward, .finishForward, .request (.unpublishTrack "TR_a") (some 9),
        .unpublish 1 none, .forward, .finishUnpublish 1] := by
  apply answers
  refine .cons rfl trivial <| .cons rfl trivial <| .cons rfl trivial <| .cons rfl trivial <|
    .cons rfl ?_ <| .cons rfl trivial <| .cons rfl ?_ <| .cons rfl ?_ <| .cons rfl ?_ <|
    .cons rfl trivial trivial
  · intro event hevent
    cases hevent
    exact fun _ => .inl (by decide)
  · exact (rfl : (TrackSid.tryFrom "TR_a").isSome = true)
  · refine fun sid _ => ⟨rfl, by decide, ?_⟩
    rintro j ⟨job, hjob, hpoint⟩
    have hmem : job ∈ [(⟨7, .publishTrack, .done⟩ : Job), ⟨9, .unpublishTrack "TR_a", .running⟩] :=
      mem_of_getElem? hjob
    rw [mem_cons, mem_singleton] at hmem
    rcases hmem with rfl | rfl
    · cases hpoint
    · cases hpoint
  · intro event hevent
    cases hevent
    intro hreconnecting
    cases hreconnecting

/-- The event that a request to unpublish waits for is dropped while the room reconnects. -/
theorem swallowed_unpublish_is_not_answered :
    ∃ run s, exec State.step State.new run = some s ∧ s.Quiescent ∧
      responses (trace State.step messages State.new run) 9 = 1 ∧
      callbacks (trace State.step messages State.new run) 9 = 0 := by
  refine ⟨[.request .publishTrack (some 7), .publish 0 ⟨"TR_a", by decide⟩, .sendPublishCallback 0,
    .insertPending 0, .forward, .finishForward, .dispatch .reconnecting, .forward,
    .request (.unpublishTrack "TR_a") (some 9), .unpublish 1 none, .forward], _, rfl, ?_, rfl, rfl⟩
  intro a hinternal
  cases a with
  | request _ _ | close | dispatch _ | closeUnpublish _ _ | clear | startRepublish _ =>
    exact hinternal.elim
  | publish i | publishFails i | sendPublishCallback i | insertPending i | unpublish i
  | finishUnpublish i | reportClosed i =>
    match i with
    | 0 => rfl
    | 1 => rfl
    | i + 2 => rfl
  | _ => rfl

end LiveKit.Ffi
