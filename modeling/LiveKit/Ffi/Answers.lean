import LiveKit.Ffi.Steps
import LiveKit.Lib.Counting

/-!
# The answers to requests

Every request of the client is answered once by the time that nothing goes on, as long as no step
abandons one: `NoneAbandoned`. The invariant is a ledger of the requests that have not been
answered, with what each of them waits for: a packet is in a queue or being sent, a track that is
unpublished has its event in the room task or its mark in `pending_unpublished_tracks`.
-/

namespace LiveKit.Ffi

open Function Components List State TransitionSystem
open Publications (TrackSid)

/-! ## What is promised -/

def Message.isResponse (asyncId : ℕ) : Message → Bool
  | .response id => id == asyncId
  | _ => false

def Message.isCallback (asyncId : ℕ) : Message → Bool
  | .callback id _ => id == asyncId
  | _ => false

/-- How many requests have been given the id. -/
def responses (records : List Message) (asyncId : ℕ) : ℕ := records.countP (·.isResponse asyncId)

/-- How many callbacks with the id have been sent. -/
def callbacks (records : List Message) (asyncId : ℕ) : ℕ := records.countP (·.isCallback asyncId)

/-- The steps of the tasks; the others are up to the client, or begin with the SDK. -/
def Action.Internal : Action → Prop
  | .request _ _ | .close | .dispatch _ | .startRepublish _ | .closeUnpublish _ _ | .clear => False
  | _ => True

/-- No task can take a step. -/
def State.Quiescent (s : State) : Prop := ∀ a : Action, a.Internal → s.step a = none

/-- The request is at the point. -/
def State.At (s : State) (i : ℕ) (point : Point) : Prop :=
  ∃ job, s.jobs[i]? = some job ∧ job.point = point

/-- The callback for the publication has not been sent, or its mark is to come. -/
def State.Publishing (s : State) (sid : TrackSid) : Prop :=
  ∃ i p, (s.At i (.published p) ∨ s.At i (.announced p)) ∧ p.sid = sid

/-- The room task will process that the track is unpublished. -/
def State.WillUnpublish (s : State) (sid : TrackSid) : Prop :=
  (∃ p, RoomEvent.localTrackUnpublished p ∈ s.events ∧ p.sid = sid) ∧ s.roomTask ≠ .ended

structure Answers (records : List Message) (s : State) : Prop where
  atMostOnce : ∀ asyncId, callbacks records asyncId ≤ responses records asyncId
  answered : s.Quiescent → ∀ asyncId, callbacks records asyncId = responses records asyncId
  /-- `forward_event` waits for a mark that is there or to come. -/
  publish : ∀ p, s.roomTask = .waiting p →
    p.sid ∈ s.pendingPublishedTracks ∨ s.Publishing p.sid
  /-- `unpublish_track` waits for a mark that is there or to come. -/
  unpublish : ∀ i sid, s.At i (.waiting sid) →
    sid ∈ s.pendingUnpublishedTracks ∨ s.WillUnpublish sid

/-! ## The condition -/

/-- The SDK would find the track that the request is to unpublish. -/
def State.Finds (s : State) (i : ℕ) (sid : TrackSid) : Prop :=
  ∃ job trackSid p, s.jobs[i]? = some job ∧ job.request = .unpublishTrack trackSid ∧
    job.point = .running ∧ TrackSid.tryFrom trackSid = some sid ∧
    AList.lookup sid s.trackPublications = some p

/-- Forwarding the event leaves nobody to wait for a mark that will not come. -/
def State.MarkComes (s : State) : RoomEvent → Prop
  | .localTrackPublished p => s.reconnecting = false →
      p.sid ∈ s.pendingPublishedTracks ∨ s.Publishing p.sid
  | .localTrackUnpublished p => s.reconnecting = true →
      ∀ i, s.At i (.waiting p.sid) → p.sid ∈ s.pendingUnpublishedTracks
  | _ => True

/-- The step does not make a request wait for what will not come. -/
def NoneAbandoned (s : State) (a : Action) (_ : State) : Prop :=
  match a with
  | .request (.unpublishTrack trackSid) _ => (TrackSid.tryFrom trackSid).isSome = true
  | .unpublish i none => ∀ sid, s.Finds i sid →
      s.cleared = false ∧ s.roomTask ≠ .ended ∧ ∀ j, ¬ s.At j (.waiting sid)
  | .stopPackets kind => s.queues kind = []
  | .forward => ∀ event ∈ s.events.head?, s.MarkComes event
  | .stopRoom => ∀ i sid, s.At i (.waiting sid) → sid ∈ s.pendingUnpublishedTracks
  | _ => True

/-! ## The ledger -/

/-- The callback of the request has been sent. -/
def Point.answered : Point → Bool
  | .announced _ | .done => true
  | _ => false

/-- The callback of the request with the id has not been sent. -/
def Job.owes (asyncId : ℕ) (job : Job) : Bool := job.asyncId == asyncId && !job.point.answered

def Ledger (records : List Message) (s : State) : Prop :=
  ∀ asyncId, callbacks records asyncId + s.jobs.countP (·.owes asyncId) = responses records asyncId

/-- The message is an event of the room. -/
def Message.IsEvent (m : Message) : Prop :=
  ∀ asyncId, m.isResponse asyncId = false ∧ m.isCallback asyncId = false

variable {records new : List Message} {s s' : State}

/-- A step that sends events, and moves no request. -/
theorem Ledger.same (h : Ledger records s) (hjobs : s'.jobs = s.jobs)
    (hnew : ∀ m ∈ new, m.IsEvent) : Ledger (records ++ new) s' := by
  intro asyncId
  have hcallbacks : new.countP (·.isCallback asyncId) = 0 := by
    rw [countP_eq_zero]
    intro m hmem
    rw [(hnew m hmem asyncId).2]
    exact Bool.false_ne_true
  have hresponses : new.countP (·.isResponse asyncId) = 0 := by
    rw [countP_eq_zero]
    intro m hmem
    rw [(hnew m hmem asyncId).1]
    exact Bool.false_ne_true
  have hbefore := h asyncId
  unfold callbacks responses at hbefore ⊢
  rw [countP_append, countP_append, hjobs]
  omega

/-- A request is begun. -/
theorem Ledger.begun (h : Ledger records s) (job : Job) (hjobs : s'.jobs = s.jobs ++ [job])
    (hpoint : job.point.answered = false) :
    Ledger (records ++ [.response job.asyncId]) s' := by
  intro asyncId
  have hbefore := h asyncId
  have howes : job.owes asyncId = (job.asyncId == asyncId) := by
    unfold Job.owes
    rw [hpoint, Bool.not_false, Bool.and_true]
  unfold callbacks responses at hbefore ⊢
  rw [countP_append, countP_append, hjobs, countP_append, countP_singleton,
    countP_singleton, countP_singleton, howes]
  show _ + 0 + (_ + if (job.asyncId == asyncId) = true then 1 else 0) =
    _ + if (job.asyncId == asyncId) = true then 1 else 0
  omega

variable {i : ℕ} {job : Job} {point : Point}

/-- A request goes on, and is not answered by that. -/
theorem Ledger.move (h : Ledger records s) (hjob : s.jobs[i]? = some job)
    (hjobs : s'.jobs = s.jobs.set i { job with point })
    (hpoint : point.answered = job.point.answered) : Ledger (records ++ []) s' := by
  intro asyncId
  have hbefore := h asyncId
  have hcount :=
    Counting.countP_set (p := fun job => job.owes asyncId) (b := { job with point }) hjob
  have howes : Job.owes asyncId { job with point } = job.owes asyncId := by
    unfold Job.owes
    rw [hpoint]
  rw [howes] at hcount
  rw [append_nil, hjobs]
  omega

/-- A request is answered. -/
theorem Ledger.answer (h : Ledger records s) (hjob : s.jobs[i]? = some job)
    (hjobs : s'.jobs = s.jobs.set i { job with point }) (hbefore : job.point.answered = false)
    (hafter : point.answered = true) (callback : Callback) :
    Ledger (records ++ [.callback job.asyncId callback]) s' := by
  intro asyncId
  have hledger := h asyncId
  have hcount :=
    Counting.countP_set (p := fun job => job.owes asyncId) (b := { job with point }) hjob
  have hopen : job.owes asyncId = (job.asyncId == asyncId) := by
    unfold Job.owes
    rw [hbefore, Bool.not_false, Bool.and_true]
  have hclosed : Job.owes asyncId { job with point } = false := by
    show (job.asyncId == asyncId && !point.answered) = false
    rw [hafter, Bool.not_true, Bool.and_false]
  rw [hopen, hclosed] at hcount
  unfold callbacks responses at hledger ⊢
  rw [countP_append, countP_append, hjobs, countP_singleton, countP_singleton]
  show _ + (if (job.asyncId == asyncId) = true then 1 else 0) + _ = _ + 0
  cases hid : job.asyncId == asyncId with
  | true =>
    rw [hid] at hcount
    simp only [Bool.toNat_true, Bool.toNat_false] at hcount
    rw [if_pos rfl]
    omega
  | false =>
    rw [hid] at hcount
    rw [if_neg Bool.false_ne_true]
    omega

/-! ## Where the requests are -/

theorem at_goto (hjob : s.jobs[i]? = some job) (point : Point)
    (hjobs : s'.jobs = s.jobs.set i { job with point }) (j : ℕ) (point' : Point) :
    s'.At j point' ↔ if j = i then point = point' else s.At j point' := by
  unfold State.At
  rw [hjobs, getElem?_set hjob]
  split
  · constructor
    · rintro ⟨_, hsome, hpoint⟩
      rw [← Option.some.inj hsome] at hpoint
      exact hpoint
    · exact fun hpoint => ⟨_, rfl, hpoint⟩
  · exact Iff.rfl

theorem at_begun (hjobs : s'.jobs = s.jobs ++ [job]) (j : ℕ) (point : Point) :
    s'.At j point ↔ if j = s.jobs.length then job.point = point else s.At j point := by
  unfold State.At
  rw [hjobs, getElem?_concat]
  split
  · constructor
    · rintro ⟨_, hsome, hpoint⟩
      rw [← Option.some.inj hsome] at hpoint
      exact hpoint
    · exact fun hpoint => ⟨_, rfl, hpoint⟩
  · exact Iff.rfl

theorem at_unique {point' : Point} (h : s.At i point) (h' : s.At i point') : point = point' := by
  obtain ⟨job, hjob, hpoint⟩ := h
  obtain ⟨job', hjob', hpoint'⟩ := h'
  rw [hjob, Option.some.injEq] at hjob'
  rw [← hpoint, ← hpoint', hjob']

/-! ## Packets -/

/-- The request is one for a packet that has not been sent. -/
def State.Packet (s : State) (kind : PacketKind) (i : ℕ) : Prop :=
  ∃ job, s.jobs[i]? = some job ∧ job.request = .publishPacket kind ∧ job.point = .running

/-- The packet that is being sent. -/
def PacketTask.packets : PacketTask → List ℕ
  | .sending i => [i]
  | _ => []

/-- The packets that the task of the kind has or will get, in order. -/
def State.inFlight (s : State) (kind : PacketKind) : List ℕ :=
  (s.packetTasks kind).packets ++ s.queues kind

structure PacketInv (s : State) : Prop where
  inFlight : ∀ kind i, i ∈ s.inFlight kind ↔ s.Packet kind i
  nodup : ∀ kind, (s.inFlight kind).Nodup
  ended : ∀ kind, s.packetTasks kind = .ended → s.queues kind = []

variable {kind : PacketKind}

theorem packet_goto (hjob : s.jobs[i]? = some job)
    (hjobs : s'.jobs = s.jobs.set i { job with point })
    (hother : job.request ≠ .publishPacket kind ∨ job.point ≠ .running ∧ point ≠ .running) (j : ℕ) :
    s'.Packet kind j ↔ s.Packet kind j := by
  unfold State.Packet
  rw [hjobs, getElem?_set hjob]
  split
  · next heq =>
    rw [heq, hjob]
    constructor
    · rintro ⟨_, hsome, hrequest, hpoint⟩
      rw [← Option.some.inj hsome] at hrequest hpoint
      rcases hother with hother | ⟨-, hother⟩
      · exact absurd hrequest hother
      · exact absurd hpoint hother
    · rintro ⟨_, hsome, hrequest, hpoint⟩
      rw [← Option.some.inj hsome] at hrequest hpoint
      rcases hother with hother | ⟨hother, -⟩
      · exact absurd hrequest hother
      · exact absurd hpoint hother
  · exact Iff.rfl

theorem packet_begun (hjobs : s'.jobs = s.jobs ++ [job])
    (hother : job.request ≠ .publishPacket kind ∨ job.point ≠ .running) (j : ℕ) :
    s'.Packet kind j ↔ s.Packet kind j := by
  unfold State.Packet
  rw [hjobs, getElem?_concat]
  split
  · next heq =>
    rw [heq, getElem?_eq_none (le_refl _)]
    constructor
    · rintro ⟨_, hsome, hrequest, hpoint⟩
      rw [← Option.some.inj hsome] at hrequest hpoint
      rcases hother with hother | hother
      · exact absurd hrequest hother
      · exact absurd hpoint hother
    · rintro ⟨_, hbad, -⟩
      cases hbad
  · exact Iff.rfl

section

variable (h : PacketInv s)

include h

/-- A step that leaves the packets alone. -/
theorem PacketInv.frame (hqueues : s'.queues = s.queues) (htasks : s'.packetTasks = s.packetTasks)
    (hpacket : ∀ kind i, s'.Packet kind i ↔ s.Packet kind i) : PacketInv s' := by
  have hinFlight : ∀ kind, s'.inFlight kind = s.inFlight kind := by
    intro kind
    unfold State.inFlight
    rw [hqueues, htasks]
  refine ⟨fun kind i => ?_, fun kind => ?_, fun kind => ?_⟩
  · rw [hinFlight, hpacket]
    exact h.inFlight kind i
  · rw [hinFlight]
    exact h.nodup kind
  · rw [hqueues, htasks]
    exact h.ended kind

/-- A step that changes what is in flight of one kind, and keeps its packets. -/
theorem PacketInv.change (kind : PacketKind)
    (hqueues : ∀ kind', kind' ≠ kind → s'.queues kind' = s.queues kind')
    (htasks : ∀ kind', kind' ≠ kind → s'.packetTasks kind' = s.packetTasks kind')
    (hpacket : ∀ kind' i, kind' ≠ kind → (s'.Packet kind' i ↔ s.Packet kind' i))
    (hinFlight : ∀ i, i ∈ s'.inFlight kind ↔ s'.Packet kind i) (hnodup : (s'.inFlight kind).Nodup)
    (hended : s'.packetTasks kind = .ended → s'.queues kind = []) : PacketInv s' := by
  have hsame : ∀ kind', kind' ≠ kind → s'.inFlight kind' = s.inFlight kind' := by
    intro kind' hne
    unfold State.inFlight
    rw [hqueues kind' hne, htasks kind' hne]
  refine ⟨fun kind' i => ?_, fun kind' => ?_, fun kind' => ?_⟩
  · by_cases hkind : kind' = kind
    · subst hkind
      exact hinFlight i
    · rw [hsame kind' hkind, hpacket kind' i hkind]
      exact h.inFlight kind' i
  · by_cases hkind : kind' = kind
    · subst hkind
      exact hnodup
    · rw [hsame kind' hkind]
      exact h.nodup kind'
  · by_cases hkind : kind' = kind
    · subst hkind
      exact hended
    · rw [hqueues kind' hkind, htasks kind' hkind]
      exact h.ended kind'

/-- A request that is not one for a packet goes on, or one that is not waiting to be sent. -/
theorem PacketInv.goto (hjob : s.jobs[i]? = some job)
    (hjobs : s'.jobs = s.jobs.set i { job with point }) (hqueues : s'.queues = s.queues)
    (htasks : s'.packetTasks = s.packetTasks)
    (hother : (∀ kind, job.request ≠ .publishPacket kind) ∨
      job.point ≠ .running ∧ point ≠ .running) :
    PacketInv s' := by
  refine h.frame hqueues htasks fun kind j => packet_goto hjob hjobs ?_ j
  rcases hother with hother | hother
  · exact .inl (hother kind)
  · exact .inr hother

/-- A packet is queued. -/
theorem PacketInv.queued (id : ℕ) (hended : s.packetTasks kind ≠ .ended)
    (hqueues : s'.queues = update s.queues kind (s.queues kind ++ [s.jobs.length]))
    (htasks : s'.packetTasks = s.packetTasks)
    (hjobs : s'.jobs = s.jobs ++ [⟨id, .publishPacket kind, .running⟩]) : PacketInv s' := by
  have hinFlight : s'.inFlight kind = s.inFlight kind ++ [s.jobs.length] := by
    unfold State.inFlight
    rw [hqueues, htasks, update_self, append_assoc]
  have hlast : ∀ i, s'.Packet kind i ↔ i = s.jobs.length ∨ s.Packet kind i := by
    intro i
    unfold State.Packet
    rw [hjobs, getElem?_concat]
    split
    · next heq => exact ⟨fun _ => .inl heq, fun _ => ⟨_, rfl, rfl, rfl⟩⟩
    · next hne =>
      constructor
      · exact .inr
      · rintro (heq | hpacket)
        · exact absurd heq hne
        · exact hpacket
  refine h.change kind ?_ (fun _ _ => by rw [htasks]) ?_ ?_ ?_ ?_
  · intro kind' hne
    rw [hqueues, update_of_ne hne]
  · intro kind' i hne
    refine packet_begun hjobs (.inl fun hbad => ?_) i
    cases hbad
    exact hne rfl
  · intro i
    rw [hinFlight, mem_append, mem_singleton, hlast, h.inFlight kind i]
    exact or_comm
  · rw [hinFlight, nodup_append]
    refine ⟨h.nodup kind, nodup_singleton _, ?_⟩
    intro i hi j hj
    obtain ⟨job, hjob, -⟩ := (h.inFlight kind i).mp hi
    rw [mem_singleton.mp hj]
    exact ne_length hjob
  · intro hbad
    rw [htasks] at hbad
    exact absurd hbad hended

/-- What is being sent is a packet that has not been sent. -/
theorem PacketInv.sending (htask : s.packetTasks kind = .sending i) (hjob : s.jobs[i]? = some job) :
    job.request = .publishPacket kind ∧ job.point = .running := by
  have hmem : i ∈ s.inFlight kind := by
    unfold State.inFlight
    rw [htask]
    exact mem_cons_self
  obtain ⟨job', hjob', hpacket⟩ := (h.inFlight kind i).mp hmem
  rw [hjob, Option.some.injEq] at hjob'
  rw [hjob']
  exact hpacket

/-- A packet is sent. -/
theorem PacketInv.sent (htask : s.packetTasks kind = .sending i) (hjob : s.jobs[i]? = some job)
    (hqueues : s'.queues = s.queues) (htasks : s'.packetTasks = update s.packetTasks kind .idle)
    (hjobs : s'.jobs = s.jobs.set i { job with point := .done }) : PacketInv s' := by
  have hbefore : s.inFlight kind = i :: s.queues kind := by
    unfold State.inFlight
    rw [htask]
    rfl
  have hafter : s'.inFlight kind = s.queues kind := by
    unfold State.inFlight
    rw [hqueues, htasks, update_self]
    rfl
  have hnodup := h.nodup kind
  rw [hbefore, nodup_cons] at hnodup
  have hrequest := (h.sending htask hjob).1
  refine h.change kind (fun _ _ => by rw [hqueues]) ?_ ?_ ?_ ?_ ?_
  · intro kind' hne
    rw [htasks, update_of_ne hne]
  · intro kind' j hne
    refine packet_goto hjob hjobs (.inl fun hbad => ?_) j
    rw [hrequest] at hbad
    cases hbad
    exact hne rfl
  · intro j
    have hiff := h.inFlight kind j
    rw [hbefore, mem_cons] at hiff
    rw [hafter]
    unfold State.Packet at hiff ⊢
    rw [hjobs, getElem?_set hjob]
    split
    · next heq =>
      rw [heq]
      constructor
      · exact fun hmem => absurd hmem hnodup.1
      · rintro ⟨_, hsome, -, hbad⟩
        rw [← Option.some.inj hsome] at hbad
        cases hbad
    · next hne =>
      rw [← hiff]
      constructor
      · exact .inr
      · rintro (hbad | hmem)
        · exact absurd hbad hne
        · exact hmem
  · rw [hafter]
    exact hnodup.2
  · intro hbad
    rw [htasks, update_self] at hbad
    cases hbad

/-- Every step that leaves no packet in a queue that is dropped. -/
theorem PacketInv.step {a : Action} (hturn : Turn s a s' new) (hnone : NoneAbandoned s a s') :
    PacketInv s' := by
  cases hturn with
  | begun id nextId hrequest hnext =>
    exact h.frame rfl rfl fun kind i => packet_begun rfl (.inl (hrequest kind)) i
  | refused id nextId hended hnext =>
    exact h.frame rfl rfl fun kind i => packet_begun rfl (.inr fun hbad => by cases hbad) i
  | queued id nextId hended hnext => exact h.queued id hended rfl rfl rfl
  | publish hjob hrequest | publishFails hjob hrequest | badSid hjob hrequest
  | notFound hjob hrequest | notRemoved hjob hrequest | unpublish hjob hrequest =>
    refine h.goto hjob rfl rfl rfl (.inl fun kind hbad => ?_)
    rw [hrequest] at hbad
    cases hbad
  | sendPublishCallback hjob hpoint | insertPending hjob hpoint | finishUnpublish hjob hpoint
  | reportClosed hjob _ hpoint =>
    refine h.goto hjob rfl rfl rfl (.inr ⟨?_, nofun⟩)
    rw [hpoint]
    exact nofun
  | @takePacket kind i rest htask hqueue =>
    -- the packet is under way, in the queue or with the task
    have hbefore : s.inFlight kind = i :: rest := by
      unfold State.inFlight
      rw [htask, hqueue]
      rfl
    have hafter : State.inFlight { s with
        queues := update s.queues kind rest
        packetTasks := update s.packetTasks kind (.sending i) } kind = i :: rest := by
      unfold State.inFlight
      simp only [update_self]
      rfl
    refine h.change kind ?_ ?_ (fun _ _ _ => Iff.rfl) ?_ ?_ ?_
    · exact fun kind' hne => update_of_ne hne _ _
    · exact fun kind' hne => update_of_ne hne _ _
    · intro j
      rw [hafter, ← hbefore]
      exact h.inFlight kind j
    · rw [hafter, ← hbefore]
      exact h.nodup kind
    · intro hbad
      simp only [update_self] at hbad
      cases hbad
  | packetSent htask hjob => exact h.sent htask hjob rfl rfl rfl
  | @stopPackets kind htask hclosed =>
    -- nothing is left in the queue of a task that stops
    have hempty : s.queues kind = [] := hnone
    have hbefore : s.inFlight kind = [] := by
      unfold State.inFlight
      rw [htask, hempty]
      rfl
    have hafter : State.inFlight { s with
        queues := update s.queues kind []
        packetTasks := update s.packetTasks kind .ended } kind = [] := by
      unfold State.inFlight
      simp only [update_self]
      rfl
    refine h.change kind ?_ ?_ (fun _ _ _ => Iff.rfl) ?_ ?_ ?_
    · exact fun kind' hne => update_of_ne hne _ _
    · exact fun kind' hne => update_of_ne hne _ _
    · intro j
      rw [hafter, ← hbefore]
      exact h.inFlight kind j
    · rw [hafter]
      exact nodup_nil
    · exact fun _ => update_self _ _ _
  | @closeUnpublish sid error =>
    obtain ⟨trackPublications, events, heq, -, -⟩ := sdkUnpublish_eq s sid error
    rw [heq]
    exact h.frame rfl rfl fun _ _ => Iff.rfl
  | @republishUnpublish k error p hrepublish =>
    obtain ⟨trackPublications, events, heq, -, -⟩ := sdkUnpublish_eq s p.sid error
    rw [heq]
    exact h.frame rfl rfl fun _ _ => Iff.rfl
  | @forward event events hroom hevents =>
    obtain ⟨hjobs, hqueues, htasks⟩ := forwardEvent_same { s with events } event
    refine h.frame hqueues htasks fun kind i => ?_
    unfold State.Packet
    rw [hjobs]
  | _ => exact h.frame rfl rfl fun _ _ => Iff.rfl

end

end LiveKit.Ffi
