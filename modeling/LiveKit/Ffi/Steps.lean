import LiveKit.Ffi.Room

/-!
# What a step of a room does

`turn_cases` is the inversion of `State.turn`: a step is one of the client, of the task of a
request, of the task of a kind of packets, of the room task, or of the SDK.
-/

namespace LiveKit.Ffi

open TransitionSystem Option State
open Publications (TrackSid)

/-- The ways to go on, with the messages. -/
inductive Turn (s : State) : Action → State → List Message → Prop
  | begun {request : Request} {asyncId : Option ℕ} (id nextId : ℕ)
      (hrequest : ∀ kind, request ≠ .publishPacket kind) (hnext : s.nextId ≤ nextId) :
      Turn s (.request request asyncId)
        { s with nextId, jobs := s.jobs ++ [⟨id, request, .running⟩] } [.response id]
  | refused {kind : PacketKind} {asyncId : Option ℕ} (id nextId : ℕ)
      (hended : s.packetTasks kind = .ended) (hnext : s.nextId ≤ nextId) :
      Turn s (.request (.publishPacket kind) asyncId)
        { s with nextId, jobs := s.jobs ++ [⟨id, .publishPacket kind, .undelivered⟩] }
        [.response id]
  | queued {kind : PacketKind} {asyncId : Option ℕ} (id nextId : ℕ)
      (hended : s.packetTasks kind ≠ .ended) (hnext : s.nextId ≤ nextId) :
      Turn s (.request (.publishPacket kind) asyncId)
        { s with
          nextId
          queues := Function.update s.queues kind (s.queues kind ++ [s.jobs.length])
          jobs := s.jobs ++ [⟨id, .publishPacket kind, .running⟩] } [.response id]
  | close : Turn s .close { s with closed := true } []
  | publish {i : ℕ} {sid : TrackSid} {job : Job} (hjob : s.jobs[i]? = some job)
      (hrequest : job.request = .publishTrack) (hpoint : job.point = .running) :
      Turn s (.publish i sid) ((s.sdkPublish ⟨sid, i⟩).goto i job (.published ⟨sid, i⟩)) []
  | publishFails {i : ℕ} {error : String} {job : Job} (hjob : s.jobs[i]? = some job)
      (hrequest : job.request = .publishTrack) (hpoint : job.point = .running) :
      Turn s (.publishFails i error) (s.goto i job .done)
        [.callback job.asyncId (.publishTrack (.error error))]
  | sendPublishCallback {i : ℕ} {job : Job} {p : LocalTrackPublication}
      (hjob : s.jobs[i]? = some job) (hpoint : job.point = .published p) :
      Turn s (.sendPublishCallback i)
        ({ s with
          nextId := s.nextId + 1
          handles := AList.insert s.nextId p s.handles }.goto i job (.announced p))
        [.callback job.asyncId (.publishTrack (.ok (s.nextId, p)))]
  | insertPending {i : ℕ} {job : Job} {p : LocalTrackPublication}
      (hjob : s.jobs[i]? = some job) (hpoint : job.point = .announced p) :
      Turn s (.insertPending i)
        ({ s with pendingPublishedTracks := insert p.sid s.pendingPublishedTracks }.goto i job
          .done) []
  | badSid {i : ℕ} {error : Option String} {job : Job} {trackSid : String}
      (hjob : s.jobs[i]? = some job) (hrequest : job.request = .unpublishTrack trackSid)
      (hpoint : job.point = .running) (hsid : TrackSid.tryFrom trackSid = none) :
      Turn s (.unpublish i error) (s.goto i job .panicked) []
  | notFound {i : ℕ} {error : Option String} {job : Job} {trackSid : String} {sid : TrackSid}
      (hjob : s.jobs[i]? = some job) (hrequest : job.request = .unpublishTrack trackSid)
      (hpoint : job.point = .running) (hsid : TrackSid.tryFrom trackSid = some sid)
      (hlookup : AList.lookup sid s.trackPublications = none) :
      Turn s (.unpublish i error) (s.goto i job .done)
        [.callback job.asyncId (.unpublishTrack (some "room failure: track not found"))]
  | notRemoved {i : ℕ} {e : String} {job : Job} {trackSid : String} {sid : TrackSid}
      {p : LocalTrackPublication} (hjob : s.jobs[i]? = some job)
      (hrequest : job.request = .unpublishTrack trackSid) (hpoint : job.point = .running)
      (hsid : TrackSid.tryFrom trackSid = some sid)
      (hlookup : AList.lookup sid s.trackPublications = some p) :
      Turn s (.unpublish i (some e))
        ({ s with trackPublications := AList.erase sid s.trackPublications }.goto i job .done)
        [.callback job.asyncId (.unpublishTrack (some e))]
  | unpublish {i : ℕ} {job : Job} {trackSid : String} {sid : TrackSid} {p : LocalTrackPublication}
      (hjob : s.jobs[i]? = some job) (hrequest : job.request = .unpublishTrack trackSid)
      (hpoint : job.point = .running) (hsid : TrackSid.tryFrom trackSid = some sid)
      (hlookup : AList.lookup sid s.trackPublications = some p) :
      Turn s (.unpublish i none)
        ({ s with
          trackPublications := AList.erase sid s.trackPublications
          events := s.dispatched (.localTrackUnpublished p) }.goto i job (.waiting sid)) []
  | finishUnpublish {i : ℕ} {job : Job} {sid : TrackSid} (hjob : s.jobs[i]? = some job)
      (hpoint : job.point = .waiting sid) (hpending : sid ∈ s.pendingUnpublishedTracks) :
      Turn s (.finishUnpublish i)
        ({ s with pendingUnpublishedTracks := s.pendingUnpublishedTracks.erase sid }.goto i job
          .done) [.callback job.asyncId (.unpublishTrack none)]
  | takePacket {kind : PacketKind} {i : ℕ} {rest : List ℕ} (htask : s.packetTasks kind = .idle)
      (hqueue : s.queues kind = i :: rest) :
      Turn s (.takePacket kind)
        { s with
          queues := Function.update s.queues kind rest
          packetTasks := Function.update s.packetTasks kind (.sending i) } []
  | packetSent {kind : PacketKind} {error : Option String} {i : ℕ} {job : Job}
      (htask : s.packetTasks kind = .sending i) (hjob : s.jobs[i]? = some job) :
      Turn s (.packetSent kind error)
        ({ s with packetTasks := Function.update s.packetTasks kind .idle }.goto i job .done)
        [.callback job.asyncId (.publishPacket kind error)]
  | stopPackets {kind : PacketKind} (htask : s.packetTasks kind = .idle)
      (hclosed : s.closed = true) :
      Turn s (.stopPackets kind)
        { s with
          queues := Function.update s.queues kind []
          packetTasks := Function.update s.packetTasks kind .ended } []
  | reportClosed {i : ℕ} {err : String} {job : Job} {kind : PacketKind}
      (hjob : s.jobs[i]? = some job) (hrequest : job.request = .publishPacket kind)
      (hpoint : job.point = .undelivered) :
      Turn s (.reportClosed i err) (s.goto i job .done)
        [.callback job.asyncId (.publishPacket kind (some (kind.closedError err)))]
  | dispatch {event : RoomEvent}
      (hevent : event = .reconnecting ∨ event = .reconnected ∨ event = .other) :
      Turn s (.dispatch event) { s with events := s.dispatched event } []
  | closeUnpublish {sid : TrackSid} {error : Option String} :
      Turn s (.closeUnpublish sid error) (s.sdkUnpublish sid error).1 []
  | clear : Turn s .clear { s with cleared := true } []
  | startRepublish {sid : TrackSid} {p : LocalTrackPublication}
      (hlookup : AList.lookup sid s.trackPublications = some p) :
      Turn s (.startRepublish sid)
        { s with republishes := s.republishes ++ [.unpublishing p] } []
  | republishUnpublish {k : ℕ} {error : Option String} {p : LocalTrackPublication}
      (hrepublish : s.republishes[k]? = some (.unpublishing p)) :
      Turn s (.republishUnpublish k error)
        ((s.sdkUnpublish p.sid error).1.setRepublish k (.publishing p)) []
  | republishPublish {k : ℕ} {sid : TrackSid} {p : LocalTrackPublication}
      (hrepublish : s.republishes[k]? = some (.publishing p)) :
      Turn s (.republishPublish k sid)
        ((s.sdkPublish ⟨sid, p.track⟩).setRepublish k (.published p.sid ⟨sid, p.track⟩)) []
  | republishFails {k : ℕ} {p : LocalTrackPublication}
      (hrepublish : s.republishes[k]? = some (.publishing p)) :
      Turn s (.republishFails k) (s.setRepublish k .done) []
  | republishEvent {k : ℕ} {previousSid : TrackSid} {p : LocalTrackPublication}
      (hrepublish : s.republishes[k]? = some (.published previousSid p)) :
      Turn s (.republishEvent k)
        ({ s with events := s.dispatched (.localTrackRepublished previousSid p) }.setRepublish k
          .done) []
  | forward {event : RoomEvent} {events : List RoomEvent} (hroom : s.roomTask = .idle)
      (hevents : s.events = event :: events) :
      Turn s .forward ({ s with events }.forwardEvent event).1
        ({ s with events }.forwardEvent event).2
  | finishForward {p : LocalTrackPublication} (hroom : s.roomTask = .waiting p)
      (hpending : p.sid ∈ s.pendingPublishedTracks) :
      Turn s .finishForward
        { s with
          pendingPublishedTracks := s.pendingPublishedTracks.erase p.sid
          roomTask := .idle } [.localTrackPublished p.sid]
  | stopRoom (hroom : s.roomTask = .idle) (hclosed : s.closed = true) :
      Turn s .stopRoom { s with roomTask := .ended } [.roomEos]

theorem turn_of_begin (s : State) (request : Request) (asyncId : Option ℕ) :
    Turn s (.request request asyncId) (s.begin request asyncId).1 (s.begin request asyncId).2 := by
  have hresolve : ∃ id nextId, s.nextId ≤ nextId ∧
      s.resolveAsyncId asyncId = ({ s with nextId }, id) := by
    cases asyncId with
    | none => exact ⟨s.nextId, s.nextId + 1, Nat.le_succ _, rfl⟩
    | some id => exact ⟨id, s.nextId, le_refl _, rfl⟩
  obtain ⟨id, nextId, hnext, hresolve⟩ := hresolve
  unfold begin
  rw [hresolve]
  cases request with
  | publishTrack | unpublishTrack => exact .begun id nextId nofun hnext
  | publishPacket kind =>
    dsimp only
    split
    · next hended => exact .refused id nextId hended hnext
    · next hended => exact .queued id nextId hended hnext

variable {s s' : State} {new : List Message} {a : Action}

theorem turn_of_unpublish {error : Option String} {i : ℕ} {job : Job} (hjob : s.jobs[i]? = some job)
    (h : s.unpublish error i job = some (s', new)) : Turn s (.unpublish i error) s' new := by
  unfold unpublish at h
  split at h
  · next trackSid hrequest hpoint =>
    cases hsid : TrackSid.tryFrom trackSid with
    | none =>
      simp only [hsid, some.injEq, Prod.mk.injEq] at h
      obtain ⟨rfl, rfl⟩ := h
      exact .badSid hjob hrequest hpoint hsid
    | some sid =>
      simp only [hsid] at h
      unfold sdkUnpublish at h
      cases hlookup : AList.lookup sid s.trackPublications with
      | none =>
        simp only [hlookup] at h
        cases h
        exact .notFound hjob hrequest hpoint hsid hlookup
      | some p =>
        simp only [hlookup] at h
        cases error with
        | none =>
          cases h
          exact .unpublish hjob hrequest hpoint hsid hlookup
        | some e =>
          cases h
          exact .notRemoved hjob hrequest hpoint hsid hlookup
  · cases h

theorem turn_cases (h : s.turn a = some (s', new)) : Turn s a s' new := by
  cases a with
  | request request asyncId =>
    -- what a request begins depends on its kind
    have heq := some.inj h
    have hturn := turn_of_begin s request asyncId
    rwa [heq] at hturn
  | close =>
    cases h
    exact .close
  | publish i sid =>
    obtain ⟨job, hjob, h⟩ := bind_eq_some_iff.mp h
    unfold publish at h
    split at h
    · next hrequest hpoint =>
      cases h
      exact .publish hjob hrequest hpoint
    · cases h
  | publishFails i error =>
    obtain ⟨job, hjob, h⟩ := bind_eq_some_iff.mp h
    unfold publishFails at h
    split at h
    · next hrequest hpoint =>
      cases h
      exact .publishFails hjob hrequest hpoint
    · cases h
  | sendPublishCallback i =>
    obtain ⟨job, hjob, h⟩ := bind_eq_some_iff.mp h
    unfold sendPublishCallback at h
    split at h
    · next p hpoint =>
      cases h
      exact .sendPublishCallback hjob hpoint
    · cases h
  | insertPending i =>
    obtain ⟨job, hjob, h⟩ := bind_eq_some_iff.mp h
    unfold insertPending at h
    split at h
    · next p hpoint =>
      cases h
      exact .insertPending hjob hpoint
    · cases h
  | unpublish i error =>
    obtain ⟨job, hjob, h⟩ := bind_eq_some_iff.mp h
    exact turn_of_unpublish hjob h
  | finishUnpublish i =>
    obtain ⟨job, hjob, h⟩ := bind_eq_some_iff.mp h
    unfold finishUnpublish at h
    split at h
    · next sid hpoint =>
      obtain ⟨hpending, heq⟩ := of_guard h
      cases heq
      exact .finishUnpublish hjob hpoint hpending
    · cases h
  | takePacket kind =>
    have h : s.takePacket kind = some (s', new) := h
    unfold takePacket at h
    split at h
    · next i rest htask hqueue =>
      cases h
      exact .takePacket htask hqueue
    · cases h
  | packetSent kind error =>
    have h : s.packetSent kind error = some (s', new) := h
    unfold packetSent at h
    split at h
    · next i htask =>
      obtain ⟨job, hjob, heq⟩ := map_eq_some_iff.mp h
      cases heq
      exact .packetSent htask hjob
    · cases h
  | stopPackets kind =>
    have h : s.stopPackets kind = some (s', new) := h
    unfold stopPackets at h
    split at h
    · next htask =>
      obtain ⟨hclosed, heq⟩ := of_guard h
      cases heq
      exact .stopPackets htask hclosed
    · cases h
  | reportClosed i err =>
    obtain ⟨job, hjob, h⟩ := bind_eq_some_iff.mp h
    unfold reportClosed at h
    split at h
    · next kind hrequest hpoint =>
      cases h
      exact .reportClosed hjob hrequest hpoint
    · cases h
  | dispatch event =>
    cases event with
    | reconnecting =>
      cases h
      exact .dispatch (.inl rfl)
    | reconnected =>
      cases h
      exact .dispatch (.inr (.inl rfl))
    | other =>
      cases h
      exact .dispatch (.inr (.inr rfl))
    | _ => cases h
  | closeUnpublish sid error =>
    cases h
    exact .closeUnpublish
  | clear =>
    cases h
    exact .clear
  | startRepublish sid =>
    obtain ⟨p, hlookup, heq⟩ := map_eq_some_iff.mp h
    cases heq
    exact .startRepublish hlookup
  | republishUnpublish k error =>
    obtain ⟨republish, hrepublish, h⟩ := bind_eq_some_iff.mp h
    cases republish with
    | unpublishing p =>
      cases h
      exact .republishUnpublish hrepublish
    | _ => cases h
  | republishPublish k sid =>
    obtain ⟨republish, hrepublish, h⟩ := bind_eq_some_iff.mp h
    cases republish with
    | publishing p =>
      cases h
      exact .republishPublish hrepublish
    | _ => cases h
  | republishFails k =>
    obtain ⟨republish, hrepublish, h⟩ := bind_eq_some_iff.mp h
    cases republish with
    | publishing p =>
      cases h
      exact .republishFails hrepublish
    | _ => cases h
  | republishEvent k =>
    obtain ⟨republish, hrepublish, h⟩ := bind_eq_some_iff.mp h
    cases republish with
    | published previousSid p =>
      cases h
      exact .republishEvent hrepublish
    | _ => cases h
  | forward =>
    have h : s.forward = some (s', new) := h
    unfold forward at h
    split at h
    · next event events hroom hevents =>
      have heq := some.inj h
      have hturn := Turn.forward hroom hevents
      rwa [heq] at hturn
    · cases h
  | finishForward =>
    have h : s.finishForward = some (s', new) := h
    unfold finishForward at h
    split at h
    · next p hroom =>
      obtain ⟨hpending, heq⟩ := of_guard h
      cases heq
      exact .finishForward hroom hpending
    · cases h
  | stopRoom =>
    have h : s.stopRoom = some (s', new) := h
    unfold stopRoom at h
    split at h
    · next hroom =>
      obtain ⟨hclosed, heq⟩ := of_guard h
      cases heq
      exact .stopRoom hroom hclosed
    · cases h

theorem step_cases (h : s.step a = some s') :
    Turn s a s' (messages s a) := by
  obtain ⟨⟨t, new⟩, hturn, rfl⟩ := map_eq_some_iff.mp h
  have hmessages : messages s a = new := by
    unfold messages
    rw [hturn]
    rfl
  rw [hmessages]
  exact turn_cases hturn

/-! ## What the SDK does to the state -/

theorem events_subset_dispatched (s : State) (event : RoomEvent) :
    s.events ⊆ s.dispatched event := by
  unfold dispatched
  split
  · exact List.Subset.refl _
  · exact List.subset_append_left _ _

theorem mem_dispatched (hcleared : s.cleared = false) (event : RoomEvent) :
    event ∈ s.dispatched event := by
  unfold dispatched
  rw [hcleared]
  exact List.mem_append_right _ List.mem_cons_self

/-- Unpublishing changes the publications and the events, and nothing else. -/
theorem sdkUnpublish_eq (s : State) (sid : TrackSid) (error : Option String) :
    ∃ trackPublications events,
      (s.sdkUnpublish sid error).1 = { s with trackPublications, events } ∧
      (∀ sid' p, AList.lookup sid' trackPublications = some p →
        AList.lookup sid' s.trackPublications = some p) ∧ s.events ⊆ events := by
  have herase : ∀ sid' p, AList.lookup sid' (AList.erase sid s.trackPublications) = some p →
      AList.lookup sid' s.trackPublications = some p := by
    intro sid' p hlookup
    exact (AssocMap.of_lookup_erase hlookup).2
  unfold sdkUnpublish
  cases hlookup : AList.lookup sid s.trackPublications with
  | none => exact ⟨s.trackPublications, s.events, rfl, fun _ _ h => h, List.Subset.refl _⟩
  | some p =>
    cases error with
    | some e => exact ⟨_, s.events, rfl, herase, List.Subset.refl _⟩
    | none => exact ⟨_, _, rfl, herase, events_subset_dispatched s _⟩

/-- What forwarding an event leaves as it is. -/
theorem forwardEvent_same (s : State) (event : RoomEvent) :
    (s.forwardEvent event).1.jobs = s.jobs ∧ (s.forwardEvent event).1.queues = s.queues ∧
      (s.forwardEvent event).1.packetTasks = s.packetTasks := by
  cases event with
  | localTrackPublished | localTrackUnpublished | localTrackRepublished =>
    unfold forwardEvent
    dsimp only
    split
    · exact ⟨rfl, rfl, rfl⟩
    · exact ⟨rfl, rfl, rfl⟩
  | reconnecting | reconnected | other => exact ⟨rfl, rfl, rfl⟩

end LiveKit.Ffi
