import LiveKit.Lib.FlowControl
import LiveKit.RtcSession.DataChannel

/-!
# What the data channel task does with reliable packets

A reliable packet waits until it is handed to the data channel, in the requests of the channel or
as an event that has not been handled. It joins those that wait when it gets its number, or when
it is to be sent once more, and it leaves them at the front.
-/

namespace LiveKit.RtcSession

open List FlowControl

/-- The size of all packets together. -/
abbrev totalSize (packets : List EncodedPacket) : ℕ :=
  Backlog.total TxQueueItem.bufferedSize packets

theorem totalSize_append (packets packets' : List EncodedPacket) :
    totalSize (packets ++ packets') = totalSize packets + totalSize packets' :=
  Backlog.total_append _ packets packets'

namespace Channel

/-- The requests that go out by the threshold are sent and counted, and the others are held; those
of the reliable channel are kept for a retry. -/
theorem sendLoop_eq (kind : DataPacketKind) (threshold amount : ℕ) (sent : List EncodedPacket)
    (retryQueue : TxQueue EncodedPacket) (requests : List EncodedPacket) :
    let now := sendable TxQueueItem.bufferedSize threshold amount requests
    let result := sendLoop kind threshold amount sent retryQueue requests
    result.1 = ⟨amount + totalSize now, held TxQueueItem.bufferedSize threshold amount requests,
        threshold, sent ++ now⟩ ∧
      result.2.inner = retryQueue.inner ++ (if kind = .reliable then now else []) := by
  induction requests generalizing amount sent retryQueue with
  | nil => simp [sendable, held, sendLoop]
  | cons request requests ih =>
    simp only [sendLoop, sendable, held]
    -- below the threshold the first request goes out, and the loop goes on with the amount
    by_cases hroom : amount ≤ threshold
    · simp only [if_pos hroom]
      obtain ⟨hresult, hretry⟩ := ih (amount + request.data.length) (sent ++ [request])
        (if kind = .reliable then retryQueue.enqueue request else retryQueue)
      constructor
      · rw [hresult, append_assoc, Nat.add_assoc]
        rfl
      · rw [hretry]
        cases kind with
        | lossy => rfl
        | reliable =>
          simp only [if_pos, TxQueue.enqueue_inner, append_assoc]
          rfl
    · simp [hroom]

theorem reportSent_spec (self : Channel) (sent : ℕ) :
    self.reportSent sent = { self with bufferedAmount := self.bufferedAmount - sent } := by
  unfold reportSent
  split
  · next hlt => rw [Nat.sub_eq_zero_of_le (Nat.le_of_lt hlt)]
  · rfl

/-- A report is handled, and what has room then is sent. -/
theorem sendUntilThreshold_reportSent (self : Channel) (sent : ℕ) (kind : DataPacketKind)
    (retryQueue : TxQueue EncodedPacket) :
    (self.reportSent sent).sendUntilThreshold kind retryQueue
      = sendLoop kind self.bufferedAmountLowThreshold (self.bufferedAmount - sent) self.sent
          retryQueue self.requestQueue := by
  rw [reportSent_spec]
  rfl

end Channel

/-- The packet of an event if it is a reliable one that has its number. -/
def DataChannelEvent.reliableData : DataChannelEvent → Option EncodedPacket
  | ⟨.reliable, .publishData packet⟩ => some packet
  | _ => none

namespace State

/-- The reliable packets that wait to be handed to the data channel, in this order. -/
def waiting (s : State) : List EncodedPacket :=
  s.reliable.requestQueue ++ s.dcEvents.filterMap DataChannelEvent.reliableData

/-- What the task has to do for the reliable channel in a step. -/
def taken (s : State) : Action → Option DataChannelEventDetail
  | .task =>
    match s.running, s.dcEvents with
    | true, ⟨.reliable, detail⟩ :: _ => some detail
    | _, _ => none
  | _ => none

/-- What is handed to the reliable channel in a step. -/
def handedOver (s : State) (a : Action) : List EncodedPacket :=
  match s.taken a with
  | some (.publishData request) =>
    sendable TxQueueItem.bufferedSize s.reliable.bufferedAmountLowThreshold
      s.reliable.bufferedAmount (s.reliable.requestQueue ++ [request])
  | some (.bufferedAmountChange sent) =>
    sendable TxQueueItem.bufferedSize s.reliable.bufferedAmountLowThreshold
      (s.reliable.bufferedAmount - sent) s.reliable.requestQueue
  | _ => []

/-- The packets that are sent once more after a resume. -/
def retried (s : State) (lastSequence : ℕ) : List EncodedPacket :=
  s.retryQueue.inner.filter fun packet => lastSequence < packet.sequence

/-- What a step can do to the reliable packets. -/
inductive Turn (s : State) (a : Action) (s' : State) : Prop
  | idle (htaken : s.taken a = none) (hsent : s'.reliable.sent = s.reliable.sent)
    (hamount : s'.reliable.bufferedAmount = s.reliable.bufferedAmount)
    (hretry : s'.retryQueue.inner = s.retryQueue.inner) (hwaiting : s'.waiting = s.waiting)
    (hnext : s'.nextPacketSequence = s.nextPacketSequence)
  | numbered (packet : DataPacket) (encoded : EncodedPacket)
    (htaken : s.taken a = some (.publishPacket packet))
    (hencoded : encoded.sequence = s.nextPacketSequence)
    (hsent : s'.reliable.sent = s.reliable.sent)
    (hamount : s'.reliable.bufferedAmount = s.reliable.bufferedAmount)
    (hretry : s'.retryQueue.inner = s.retryQueue.inner)
    (hwaiting : s'.waiting = s.waiting ++ [encoded])
    (hnext : s'.nextPacketSequence = (s.nextPacketSequence + 1) % SEQUENCE_LIMIT)
  | requested (packet : EncodedPacket) (htaken : s.taken a = some (.publishData packet))
    (hsent : s'.reliable.sent = s.reliable.sent ++ s.handedOver a)
    (hamount : s'.reliable.bufferedAmount
      = s.reliable.bufferedAmount + totalSize (s.handedOver a))
    (hretry : s'.retryQueue.inner = s.retryQueue.inner ++ s.handedOver a)
    (hwaiting : s.handedOver a ++ s'.waiting = s.waiting)
    (hnext : s'.nextPacketSequence = s.nextPacketSequence)
  | reported (sent : ℕ) (retryQueue : TxQueue EncodedPacket)
    (htaken : s.taken a = some (.bufferedAmountChange sent))
    (hsent : s'.reliable.sent = s.reliable.sent ++ s.handedOver a)
    (hamount : s'.reliable.bufferedAmount
      = s.reliable.bufferedAmount - sent + totalSize (s.handedOver a))
    (henqueued : retryQueue.inner = s.retryQueue.inner ++ s.handedOver a)
    (hretry : s'.retryQueue = retryQueue.trim sent)
    (hwaiting : s.handedOver a ++ s'.waiting = s.waiting)
    (hnext : s'.nextPacketSequence = s.nextPacketSequence)
  | resumed (lastSequence : ℕ) (htaken : s.taken a = some (.retryFrom lastSequence))
    (hsent : s'.reliable.sent = s.reliable.sent)
    (hamount : s'.reliable.bufferedAmount = s.reliable.bufferedAmount)
    (hretry : s'.retryQueue.inner = [])
    (hwaiting : s'.waiting = s.waiting ++ s.retried lastSequence)
    (hnext : s'.nextPacketSequence = s.nextPacketSequence)

variable {encode : DataPacket → LiveKit.DataStream.Bytes}

/-- The packets for a retry join those that wait. -/
theorem enqueueForRetryFrom_waiting (s : State) (lastSequence : ℕ) :
    (s.enqueueForRetryFrom lastSequence).waiting = s.waiting ++ s.retried lastSequence := by
  unfold enqueueForRetryFrom waiting retried
  simp only
  rw [filterMap_append, filterMap_map, ← append_assoc]
  congr 1
  have hsome : (DataChannelEvent.reliableData ∘ fun packet =>
      (⟨.reliable, .publishData packet⟩ : DataChannelEvent)) = some := rfl
  rw [hsome, filterMap_some]
  congr 1
  funext packet
  rw [decide_eq_decide]
  exact Nat.not_le

/-- The events of the lossy channel. -/
theorem handle_lossy (s : State) (detail : DataChannelEventDetail) :
    (s.handle encode ⟨.lossy, detail⟩).reliable = s.reliable ∧
      (s.handle encode ⟨.lossy, detail⟩).retryQueue.inner = s.retryQueue.inner ∧
      (s.handle encode ⟨.lossy, detail⟩).waiting = s.waiting ∧
      (s.handle encode ⟨.lossy, detail⟩).nextPacketSequence = s.nextPacketSequence := by
  cases detail with
  | publishPacket packet =>
    refine ⟨rfl, rfl, ?_, rfl⟩
    show _ ++ List.filterMap _ (s.dcEvents ++ [_]) = _
    rw [filterMap_append]
    exact congrArg _ (append_nil _)
  | publishData request =>
    have hretry := (Channel.sendLoop_eq .lossy s.lossy.bufferedAmountLowThreshold
      s.lossy.bufferedAmount s.lossy.sent s.retryQueue (s.lossy.requestQueue ++ [request])).2
    refine ⟨rfl, ?_, rfl, rfl⟩
    rw [if_neg (by decide), append_nil] at hretry
    exact hretry
  | bufferedAmountChange sent =>
    have hretry := (Channel.sendLoop_eq .lossy
      (s.lossy.reportSent sent).bufferedAmountLowThreshold (s.lossy.reportSent sent).bufferedAmount
      (s.lossy.reportSent sent).sent s.retryQueue (s.lossy.reportSent sent).requestQueue).2
    refine ⟨rfl, ?_, rfl, rfl⟩
    rw [if_neg (by decide), append_nil] at hretry
    exact hretry
  | retryFrom lastSequence => exact ⟨rfl, rfl, rfl, rfl⟩

/-- The event at the front of the queue is for the reliable channel. -/
theorem taskStep_reliable {s : State} {detail : DataChannelEventDetail}
    {events : List DataChannelEvent} (hrunning : s.running = true)
    (hevents : s.dcEvents = ⟨.reliable, detail⟩ :: events) :
    s.Turn .task ({ s with dcEvents := events }.handle encode ⟨.reliable, detail⟩) := by
  have htaken : s.taken .task = some detail := by
    unfold taken
    simp only [hrunning, hevents]
  have hwaiting : s.waiting = s.reliable.requestQueue ++
      List.filterMap DataChannelEvent.reliableData (⟨.reliable, detail⟩ :: events) := by
    rw [← hevents]
    rfl
  cases detail with
  | publishPacket packet =>
    refine .numbered packet
      ⟨encode { packet with sequence := s.nextPacketSequence }, s.nextPacketSequence⟩ htaken rfl
      rfl rfl rfl ?_ rfl
    rw [hwaiting]
    show _ ++ List.filterMap _ (events ++ [_]) = _
    rw [filterMap_append, ← append_assoc]
    rfl
  | publishData request =>
    have hover : s.handedOver .task = sendable TxQueueItem.bufferedSize
        s.reliable.bufferedAmountLowThreshold s.reliable.bufferedAmount
        (s.reliable.requestQueue ++ [request]) := by
      unfold handedOver
      rw [htaken]
    obtain ⟨hresult, hretry⟩ := Channel.sendLoop_eq .reliable
      s.reliable.bufferedAmountLowThreshold s.reliable.bufferedAmount s.reliable.sent s.retryQueue
      (s.reliable.requestQueue ++ [request])
    have hrest := sendable_append_held TxQueueItem.bufferedSize
      s.reliable.bufferedAmountLowThreshold s.reliable.bufferedAmount
      (s.reliable.requestQueue ++ [request])
    rw [← hover] at hresult hrest hretry
    refine .requested request htaken (congrArg Channel.sent hresult)
      (congrArg Channel.bufferedAmount hresult) hretry ?_ rfl
    have hdata : DataChannelEvent.reliableData ⟨.reliable, .publishData request⟩ = some request :=
      rfl
    -- the request leaves the events, and waits behind the others until it is sent
    rw [hwaiting, filterMap_cons_some hdata, append_cons, ← hrest, append_assoc]
    exact congrArg (fun c : Channel => s.handedOver .task ++ (c.requestQueue ++ _)) hresult
  | bufferedAmountChange sent =>
    have hover : s.handedOver .task = sendable TxQueueItem.bufferedSize
        s.reliable.bufferedAmountLowThreshold (s.reliable.bufferedAmount - sent)
        s.reliable.requestQueue := by
      unfold handedOver
      rw [htaken]
    obtain ⟨hresult, hretry⟩ := Channel.sendLoop_eq .reliable
      s.reliable.bufferedAmountLowThreshold (s.reliable.bufferedAmount - sent) s.reliable.sent
      s.retryQueue s.reliable.requestQueue
    have hrest := sendable_append_held TxQueueItem.bufferedSize
      s.reliable.bufferedAmountLowThreshold (s.reliable.bufferedAmount - sent)
      s.reliable.requestQueue
    rw [← hover] at hresult hrest hretry
    -- the report makes room, and what was sent so far may leave the retry queue
    have hhandle : { s with dcEvents := events }.handle encode
        ⟨.reliable, .bufferedAmountChange sent⟩
        = (let result := Channel.sendLoop .reliable s.reliable.bufferedAmountLowThreshold
            (s.reliable.bufferedAmount - sent) s.reliable.sent s.retryQueue s.reliable.requestQueue
          { s with
            dcEvents := events
            reliable := result.1
            retryQueue := result.2.trim sent }) := by
      unfold handle
      simp only
      rw [Channel.sendUntilThreshold_reportSent]
    rw [hhandle]
    refine .reported sent _ htaken (congrArg Channel.sent hresult)
      (congrArg Channel.bufferedAmount hresult) hretry rfl ?_ rfl
    show s.handedOver .task ++ ((Channel.sendLoop _ _ _ _ _ _).1.requestQueue ++ _) = _
    rw [hresult, hwaiting, filterMap_cons_none rfl, ← append_assoc, hrest]
  | retryFrom lastSequence =>
    refine .resumed lastSequence htaken rfl rfl rfl ?_ rfl
    have h := enqueueForRetryFrom_waiting { s with dcEvents := events } lastSequence
    refine h.trans ?_
    rw [hwaiting, filterMap_cons_none rfl]
    rfl

theorem step_cases {s s' : State} {a : Action} (hstep : s.step encode a = some s') :
    s.Turn a s' := by
  have hemit : ∀ event : DataChannelEvent, event.reliableData = none →
      (s.emit event).waiting = s.waiting := by
    intro event hnone
    show _ ++ List.filterMap _ (s.dcEvents ++ [event]) = _
    rw [filterMap_append, filterMap_cons_none hnone]
    exact congrArg _ (append_nil _)
  cases a with
  | publishData _ kind | bufferedAmountChange _ kind =>
    rw [← Option.some.inj hstep]
    exact .idle rfl rfl rfl rfl (hemit _ (by cases kind <;> rfl)) rfl
  | restart lastMessageSeq =>
    rw [← Option.some.inj hstep]
    exact .idle rfl rfl rfl rfl (hemit _ rfl) rfl
  | setThreshold threshold kind =>
    cases kind <;>
      (rw [← Option.some.inj hstep]
       exact .idle rfl rfl rfl rfl rfl rfl)
  | close =>
    rw [← Option.some.inj hstep]
    exact .idle rfl rfl rfl rfl rfl rfl
  | task =>
    unfold step at hstep
    simp only at hstep
    split at hstep
    · next event events hrunning hevents =>
      rw [← Option.some.inj hstep]
      obtain ⟨kind, detail⟩ := event
      cases kind with
      | reliable => exact taskStep_reliable hrunning hevents
      | lossy =>
        -- the reliable packets are as before
        let s₀ : State := { s with dcEvents := events }
        have hlossy : (s₀.handle encode ⟨.lossy, detail⟩).reliable = s₀.reliable ∧
            (s₀.handle encode ⟨.lossy, detail⟩).retryQueue.inner = s₀.retryQueue.inner ∧
            (s₀.handle encode ⟨.lossy, detail⟩).waiting = s₀.waiting ∧
            (s₀.handle encode ⟨.lossy, detail⟩).nextPacketSequence = s₀.nextPacketSequence :=
          handle_lossy s₀ detail
        obtain ⟨hreliable, hretry, hwaiting, hnext⟩ := hlossy
        refine .idle ?_ (by rw [hreliable]) (by rw [hreliable]) hretry ?_ hnext
        · unfold taken
          simp only [hrunning, hevents]
        · rw [hwaiting]
          unfold waiting
          rw [hevents, filterMap_cons_none rfl]
    · cases hstep

/-- The log of the channel grows by what is handed over. -/
theorem Turn.sent {s s' : State} {a : Action} (h : s.Turn a s') :
    s'.reliable.sent = s.reliable.sent ++ s.handedOver a := by
  have hnothing : (∀ packet, s.taken a ≠ some (.publishData packet)) →
      (∀ sent, s.taken a ≠ some (.bufferedAmountChange sent)) → s.handedOver a = [] := by
    intro hdata hreport
    unfold handedOver
    split
    · next packet htaken => exact absurd htaken (hdata packet)
    · next sent htaken => exact absurd htaken (hreport sent)
    · rfl
  cases h with
  | idle htaken hsent | numbered _ _ htaken _ hsent | resumed _ htaken hsent =>
    rw [hsent, hnothing (by simp [htaken]) (by simp [htaken]), append_nil]
  | requested _ _ hsent | reported _ _ _ hsent => exact hsent

end State

end LiveKit.RtcSession
