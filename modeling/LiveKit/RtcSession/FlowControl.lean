import LiveKit.RtcSession.DataChannelTheorems

/-!
# The buffered amounts of the data channel task

The task adds the size of every packet that it hands to a data channel to the buffered amount,
before it knows whether the channel accepts the packet, and takes away what the channel reports.
Which packets a channel accepts makes no difference to the task: it is given by their numbers.
-/

namespace LiveKit.RtcSession

open LiveKit.DataStream (Bytes)
open List FlowControl TransitionSystem

namespace State

def channel (s : State) : DataPacketKind → Channel
  | .lossy => s.lossy
  | .reliable => s.reliable

end State

/-- The bytes of a report. -/
def DataChannelEvent.reported (kind : DataPacketKind) : DataChannelEvent → ℕ
  | ⟨kind', .bufferedAmountChange sent⟩ => if kind' = kind then sent else 0
  | _ => 0

/-- The bytes that a channel reports in a step. -/
def Action.reported (kind : DataPacketKind) : Action → ℕ
  | .bufferedAmountChange sent kind' => if kind' = kind then sent else 0
  | _ => 0

/-- What a step puts on record: the bytes that the lossy and the reliable channel report. -/
def reports (_ : State) (a : Action) : List (ℕ × ℕ) :=
  [(a.reported .lossy, a.reported .reliable)]

/-- What a channel has reported so far. -/
def reportedBy (kind : DataPacketKind) (records : List (ℕ × ℕ)) : ℕ :=
  (records.map fun record =>
    match kind with
    | .lossy => record.1
    | .reliable => record.2).sum

namespace State

/-- The reports that the task has not handled. -/
def unhandled (s : State) (kind : DataPacketKind) : ℕ :=
  (s.dcEvents.map (DataChannelEvent.reported kind)).sum

/-- What a channel has accepted. -/
def acceptedBy (s : State) (accepts : DataPacketKind → ℕ → Bool) (kind : DataPacketKind) : ℕ :=
  accepted TxQueueItem.bufferedSize (accepts kind) 0 (s.channel kind).sent

/-- The buffered amount is what the channel has accepted and has not reported, as far as the task
knows. When all is reported, nothing waits. -/
structure Accounted (accepts : DataPacketKind → ℕ → Bool) (kind : DataPacketKind)
    (records : List (ℕ × ℕ)) (s : State) : Prop where
  amount : (s.channel kind).bufferedAmount + reportedBy kind records
    = s.acceptedBy accepts kind + s.unhandled kind
  goesOn : reportedBy kind records = s.acceptedBy accepts kind → s.unhandled kind = 0 →
    (s.channel kind).bufferedAmount = 0 ∧ (s.channel kind).requestQueue = []

/-- A channel reports no more than it has accepted and not reported yet. -/
def ReportsAccepted (accepts : DataPacketKind → ℕ → Bool) (records : List (ℕ × ℕ)) (s : State)
    (a : Action) : Prop :=
  ∀ kind, reportedBy kind records + a.reported kind ≤ s.acceptedBy accepts kind

instance (accepts : DataPacketKind → ℕ → Bool) (records : List (ℕ × ℕ)) (s : State) (a : Action) :
    Decidable (s.ReportsAccepted accepts records a) :=
  decidable_of_iff
    (reportedBy .lossy records + a.reported .lossy ≤ s.acceptedBy accepts .lossy ∧
      reportedBy .reliable records + a.reported .reliable ≤ s.acceptedBy accepts .reliable) <| by
    constructor
    · rintro ⟨hlossy, hreliable⟩ kind
      cases kind with
      | lossy => exact hlossy
      | reliable => exact hreliable
    · exact fun h => ⟨h .lossy, h .reliable⟩

/-- Every packet that a channel refuses is empty. -/
def NothingRefused (accepts : DataPacketKind → ℕ → Bool) (s : State) : Prop :=
  ∀ kind, NothingLost TxQueueItem.bufferedSize (accepts kind) 0 (s.channel kind).sent

end State

/-! ## What a step does to a channel -/

/-- What happens to a channel when the task handles reports of `handled` bytes, and puts packets
into the channel. Requests wait only when something is buffered, or when they waited before. -/
structure Flow (before after : Channel) (handled : ℕ) (now : List EncodedPacket) : Prop where
  sent : after.sent = before.sent ++ now
  amount : after.bufferedAmount
    = before.bufferedAmount - handled + Backlog.total TxQueueItem.bufferedSize now
  requests : after.requestQueue ≠ [] → 0 < after.bufferedAmount ∨
    (before.requestQueue ≠ [] ∧ handled = 0)

theorem Flow.unchanged {before after : Channel} (hsent : after.sent = before.sent)
    (hamount : after.bufferedAmount = before.bufferedAmount)
    (hrequests : after.requestQueue = before.requestQueue) : Flow before after 0 [] := by
  refine ⟨?_, ?_, ?_⟩
  · rw [hsent, append_nil]
  · rw [hamount]
    rfl
  · rw [hrequests]
    exact fun hwaiting => .inr ⟨hwaiting, rfl⟩

/-- The task handles a report of `handled` bytes, if any, and sends until the threshold. -/
theorem Flow.sendLoop (kind : DataPacketKind) (before : Channel) (threshold handled : ℕ)
    (retryQueue : TxQueue EncodedPacket) (requests : List EncodedPacket) :
    Flow before (Channel.sendLoop kind threshold (before.bufferedAmount - handled) before.sent
        retryQueue requests).1 handled
      (FlowControl.sendable TxQueueItem.bufferedSize threshold (before.bufferedAmount - handled)
        requests) := by
  rw [(Channel.sendLoop_eq _ _ _ _ _ _).1]
  refine ⟨rfl, rfl, ?_⟩
  intro hheld
  -- what is held back is held back by an amount above the threshold
  exact .inl (Nat.lt_of_le_of_lt (Nat.zero_le _) (lt_of_held_ne_nil _ hheld))

namespace State

variable {encode : DataPacket → Bytes}

theorem unhandled_append (s : State) (events : List DataChannelEvent) (kind : DataPacketKind)
    (hnone : ∀ event ∈ events, event.reported kind = 0) :
    ((s.dcEvents ++ events).map (DataChannelEvent.reported kind)).sum = s.unhandled kind := by
  have hzero : (events.map (DataChannelEvent.reported kind)).sum = 0 := by
    apply sum_eq_zero
    intro bytes hmem
    obtain ⟨event, hevent, rfl⟩ := mem_map.mp hmem
    exact hnone event hevent
  rw [map_append, sum_append, hzero, Nat.add_zero]
  rfl

/-- The task handles an event. -/
theorem handle_flow (s : State) (event : DataChannelEvent) (kind : DataPacketKind) :
    (s.handle encode event).unhandled kind = s.unhandled kind ∧
      ∃ now, Flow (s.channel kind) ((s.handle encode event).channel kind)
        (event.reported kind) now := by
  obtain ⟨kind', detail⟩ := event
  cases detail with
  | publishPacket packet =>
    refine ⟨?_, [], ?_⟩
    · cases kind' <;>
        (apply unhandled_append
         intro event hmem
         rw [mem_singleton.mp hmem]
         rfl)
    · cases kind' <;> cases kind <;> exact .unchanged rfl rfl rfl
  | publishData request =>
    cases kind' with
    | lossy =>
      refine ⟨rfl, ?_⟩
      cases kind with
      | lossy => exact ⟨_, .sendLoop .lossy s.lossy _ 0 _ _⟩
      | reliable => exact ⟨[], .unchanged rfl rfl rfl⟩
    | reliable =>
      refine ⟨rfl, ?_⟩
      cases kind with
      | lossy => exact ⟨[], .unchanged rfl rfl rfl⟩
      | reliable => exact ⟨_, .sendLoop .reliable s.reliable _ 0 _ _⟩
  | bufferedAmountChange sent =>
    cases kind' with
    | lossy =>
      refine ⟨rfl, ?_⟩
      cases kind with
      | lossy =>
        have hflow := Flow.sendLoop .lossy s.lossy s.lossy.bufferedAmountLowThreshold sent
          s.retryQueue s.lossy.requestQueue
        rw [← Channel.sendUntilThreshold_reportSent] at hflow
        exact ⟨_, hflow⟩
      | reliable => exact ⟨[], .unchanged rfl rfl rfl⟩
    | reliable =>
      refine ⟨rfl, ?_⟩
      cases kind with
      | lossy => exact ⟨[], .unchanged rfl rfl rfl⟩
      | reliable =>
        have hflow := Flow.sendLoop .reliable s.reliable s.reliable.bufferedAmountLowThreshold sent
          s.retryQueue s.reliable.requestQueue
        rw [← Channel.sendUntilThreshold_reportSent] at hflow
        exact ⟨_, hflow⟩
  | retryFrom lastSequence =>
    cases kind' with
    | lossy =>
      refine ⟨rfl, [], ?_⟩
      cases kind <;> exact .unchanged rfl rfl rfl
    | reliable =>
      refine ⟨?_, [], ?_⟩
      · apply unhandled_append
        intro event hmem
        obtain ⟨packet, -, rfl⟩ := mem_map.mp hmem
        rfl
      · cases kind <;> exact .unchanged rfl rfl rfl

/-- What a step does to a channel, and to the reports that have not been handled. -/
theorem step_flow {s s' : State} {a : Action} (hstep : s.step encode a = some s')
    (kind : DataPacketKind) :
    ∃ handled now, Flow (s.channel kind) (s'.channel kind) handled now ∧
      s.unhandled kind + a.reported kind = handled + s'.unhandled kind := by
  -- every action but a turn of the task only adds an event at the end
  have hemit : ∀ event : DataChannelEvent,
      (s.emit event).unhandled kind = s.unhandled kind + event.reported kind := by
    intro event
    show ((s.dcEvents ++ [event]).map (DataChannelEvent.reported kind)).sum = _
    rw [map_append, sum_append, map_singleton, sum_singleton]
    rfl
  have hsame : ∀ event : DataChannelEvent,
      Flow (s.channel kind) ((s.emit event).channel kind) 0 [] := by
    intro event
    cases kind <;> exact .unchanged rfl rfl rfl
  cases a with
  | publishData | bufferedAmountChange | restart =>
    rw [← Option.some.inj hstep]
    exact ⟨0, [], hsame _, by rw [hemit, Nat.zero_add]; rfl⟩
  | setThreshold threshold kind' =>
    refine ⟨0, [], ?_⟩
    cases kind' <;>
      (rw [← Option.some.inj hstep]
       refine ⟨?_, (Nat.zero_add _).symm⟩
       cases kind <;> exact .unchanged rfl rfl rfl)
  | close =>
    rw [← Option.some.inj hstep]
    refine ⟨0, [], ?_, (Nat.zero_add _).symm⟩
    cases kind <;> exact .unchanged rfl rfl rfl
  | task =>
    unfold step at hstep
    simp only at hstep
    split at hstep
    · next event events hrunning hevents =>
      rw [← Option.some.inj hstep]
      -- the report that is handled leaves those that have not been
      let s₀ : State := { s with dcEvents := events }
      obtain ⟨hunhandled, now, hflow⟩ : (s₀.handle encode event).unhandled kind
            = s₀.unhandled kind ∧
          ∃ now, Flow (s₀.channel kind) ((s₀.handle encode event).channel kind)
            (event.reported kind) now := s₀.handle_flow event kind
      have hchannel : s₀.channel kind = s.channel kind := by cases kind <;> rfl
      rw [hchannel] at hflow
      refine ⟨event.reported kind, now, hflow, ?_⟩
      rw [hunhandled]
      show (s.dcEvents.map (DataChannelEvent.reported kind)).sum + 0 = _
      rw [hevents, map_cons, sum_cons]
      rfl
    · cases hstep

/-! ## The account of a channel -/

structure FlowInv (accepts : DataPacketKind → ℕ → Bool) (records : List (ℕ × ℕ)) (s : State) :
    Prop where
  account : ∀ kind, Account TxQueueItem.bufferedSize (accepts kind) (s.channel kind).sent
    (s.channel kind).bufferedAmount (reportedBy kind records) (s.unhandled kind)
  requests : ∀ kind, (s.channel kind).requestQueue ≠ [] → 0 < (s.channel kind).bufferedAmount

variable {accepts : DataPacketKind → ℕ → Bool} {records : List (ℕ × ℕ)}

theorem reportedBy_append (kind : DataPacketKind) (s : State) (a : Action) :
    reportedBy kind (records ++ reports s a) = reportedBy kind records + a.reported kind := by
  unfold reportedBy reports
  rw [map_append, sum_append, map_singleton, sum_singleton]
  cases kind <;> rfl

theorem step_flowInv {s s' : State} {a : Action} (h : FlowInv accepts records s)
    (hstep : s.step encode a = some s') (hreports : ReportsAccepted accepts records s a) :
    FlowInv accepts (records ++ reports s a) s' := by
  refine ⟨?_, ?_⟩
  · intro kind
    obtain ⟨handled, now, hflow, hunhandled⟩ := step_flow hstep kind
    have haccount := (h.account kind).report (hreports kind)
    rw [hunhandled] at haccount
    rw [hflow.sent, hflow.amount, reportedBy_append]
    exact haccount.handle.put now
  · -- the requests that wait now: something is buffered, or nothing has happened to them
    intro kind hwaiting
    obtain ⟨handled, now, hflow, -⟩ := step_flow hstep kind
    rcases hflow.requests hwaiting with hpos | ⟨hbefore, hnone⟩
    · exact hpos
    · have hpos := h.requests kind hbefore
      rw [hflow.amount, hnone]
      omega

/-- The amounts are right exactly if nothing was refused. -/
theorem FlowInv.accounted_iff {s : State} (h : FlowInv accepts records s) :
    (∀ kind, Accounted accepts kind records s) ↔ s.NothingRefused accepts := by
  refine forall_congr' fun kind => ?_
  have hbalance := (h.account kind).balance_iff
  constructor
  · intro haccounted
    exact hbalance.mp haccounted.amount
  · intro hnothing
    have hamount := hbalance.mpr hnothing
    refine ⟨hamount, ?_⟩
    intro hreported hunhandled
    -- all is accepted and reported, so nothing is left in the amount
    have hzero : (s.channel kind).bufferedAmount = 0 := by
      unfold acceptedBy at hreported
      omega
    refine ⟨hzero, ?_⟩
    by_contra hwaiting
    have hpos := h.requests kind hwaiting
    omega

end State

/-- The buffered amounts are right, and nothing is stuck, as long as no channel refuses a packet
that is not empty. -/
theorem accounted_iff (encode : DataPacket → Bytes) (accepts : DataPacketKind → ℕ → Bool)
    (run : List Action)
    (hreports : EachStepOn (State.step encode) reports (fun records s a _ =>
      s.ReportsAccepted accepts records a) [] .new run) :
    Always (State.step encode) reports (fun records s =>
        ∀ kind, s.Accounted accepts kind records) .new run ↔
      Always (State.step encode) reports (fun _ s => s.NothingRefused accepts) .new run := by
  refine always_congr (I := State.FlowInv accepts) ?_ ?_ ?_ hreports
  · intro records s h
    exact h.accounted_iff
  · intro records s a s' h hstep hreports
    exact State.step_flowInv h hstep hreports
  · refine ⟨?_, ?_⟩
    · intro kind
      cases kind <;> exact .empty _ _
    · intro kind hwaiting
      cases kind <;> exact absurd rfl hwaiting

end LiveKit.RtcSession
