import LiveKit.DcSender.Steps
import LiveKit.RtcSession.FlowControl

/-!
# The buffered amounts of all channels

The sender of the data track channel keeps its buffered amount as the data channel task does, and
neither of them stalls as long as no channel refuses a packet that is not empty.
-/

namespace LiveKit.DcSender

open LiveKit.DataStream (Bytes)
open List FlowControl TransitionSystem

/-- What a step puts on record: the bytes that the data channel reports to the task. -/
def reports (s : DataChannelSender) : Action → List ℕ
  | .bytesSent bytesSent => if s.running then [bytesSent] else []
  | _ => []

namespace DataChannelSender

/-- What the data channel has accepted. -/
def acceptedBytes (s : DataChannelSender) (accepts : ℕ → Bool) : ℕ :=
  accepted List.length accepts 0 s.passed

/-- The buffered amount is what the data channel has accepted and has not reported, as far as the
task knows. When all is reported, nothing is in flight and the next frame goes out. -/
structure Accounted (accepts : ℕ → Bool) (records : List ℕ) (s : DataChannelSender) : Prop where
  amount : s.bufferedAmount + records.sum = s.acceptedBytes accepts + s.dcEvents.sum
  goesOn : records.sum = s.acceptedBytes accepts → s.dcEvents.sum = 0 →
    s.bufferedAmount = 0 ∧ s.inFlight = [] ∧
      (s.running = true → s.queue.queue ≠ [] →
        ∃ packet s', s.step .recv = some s' ∧ s.passed ++ [packet] <+: s'.passed)

/-- The data channel reports no more than it has accepted and not reported yet. -/
def ReportsAccepted (accepts : ℕ → Bool) (records : List ℕ) (s : DataChannelSender)
    (a : Action) : Prop :=
  records.sum + (reports s a).sum ≤ s.acceptedBytes accepts

instance (accepts : ℕ → Bool) (records : List ℕ) (s : DataChannelSender) (a : Action) :
    Decidable (s.ReportsAccepted accepts records a) := by
  unfold ReportsAccepted
  infer_instance

/-- Every packet that the data channel refuses is empty. -/
def NothingRefused (accepts : ℕ → Bool) (s : DataChannelSender) : Prop :=
  NothingLost List.length accepts 0 s.passed

structure FlowInv (accepts : ℕ → Bool) (records : List ℕ) (s : DataChannelSender) : Prop where
  account : Account List.length accepts s.passed s.bufferedAmount records.sum s.dcEvents.sum
  inFlight : s.inFlight ≠ [] → 0 < s.bufferedAmount
  frames : ∀ packets ∈ s.queue.queue, packets ≠ []

variable {accepts : ℕ → Bool} {records : List ℕ}

/-- The frames that are sent are not empty. -/
theorem frames_send {queue : DataTrackSendQueue} (h : ∀ packets ∈ queue.queue, packets ≠ [])
    (packets : DataTrackFramePackets) : ∀ packets' ∈ (queue.send packets).2.queue,
      packets' ≠ [] := by
  intro packets' hmem
  unfold DataTrackSendQueue.send at hmem
  split at hmem
  · exact h packets' hmem
  · next hnonempty =>
    have hnew : packets ≠ [] := by
      intro hnil
      rw [hnil] at hnonempty
      exact hnonempty rfl
    split at hmem
    · rcases mem_append.mp hmem with hold | hlast
      · exact h packets' (mem_of_mem_tail hold)
      · rw [mem_singleton.mp hlast]
        exact hnew
    · rcases mem_append.mp hmem with hold | hlast
      · exact h packets' hold
      · rw [mem_singleton.mp hlast]
        exact hnew

variable {s : DataChannelSender}

/-- The packets in flight go out. -/
theorem FlowInv.drain
    (haccount : Account List.length accepts s.passed s.bufferedAmount records.sum s.dcEvents.sum)
    (hframes : ∀ packets ∈ s.queue.queue, packets ≠ []) :
    FlowInv accepts records s.drainInFlight := by
  rw [drainInFlight_eq]
  refine ⟨haccount.put _, ?_, hframes⟩
  intro hheld
  exact Nat.lt_of_le_of_lt (Nat.zero_le _) (lt_of_held_ne_nil _ hheld)

theorem step_flowInv {s' : DataChannelSender} {a : Action} (h : FlowInv accepts records s)
    (hturn : s.Turn a s') (hreports : ReportsAccepted accepts records s a) :
    FlowInv accepts (records ++ reports s a) s' := by
  cases hturn with
  | send packets =>
    rw [show reports s (.send packets) = [] from rfl, append_nil]
    exact ⟨h.account, h.inFlight, frames_send h.frames packets⟩
  | reported bytesSent hrunning =>
    have hnew : reports s (.bytesSent bytesSent) = [bytesSent] := if_pos hrunning
    unfold ReportsAccepted at hreports
    rw [hnew, sum_singleton] at hreports
    rw [hnew]
    refine ⟨?_, h.inFlight, h.frames⟩
    rw [sum_append, sum_append, sum_singleton]
    exact h.account.report hreports
  | ignored bytesSent hended =>
    have hnone : reports s (.bytesSent bytesSent) = [] := by
      show (if s.running then _ else _) = _
      rw [hended]
      rfl
    rw [hnone, append_nil]
    exact h
  | event bytesSent dcEvents hrunning hevents =>
    rw [show reports s .event = [] from rfl, append_nil]
    -- the report comes off the amount before the packets in flight go on
    have haccount := h.account
    rw [hevents, sum_cons] at haccount
    exact FlowInv.drain haccount.handle h.frames
  | recv packets queue hrunning hinFlight hroom hqueue =>
    rw [show reports s .recv = [] from rfl, append_nil]
    refine FlowInv.drain h.account ?_
    intro packets' hmem
    apply h.frames
    rw [hqueue]
    exact mem_cons_of_mem _ hmem
  | close hrunning =>
    rw [show reports s .close = [] from rfl, append_nil]
    refine ⟨h.account, h.inFlight, ?_⟩
    intro packets hmem
    cases hmem

/-- When nothing is buffered or in flight, the task takes the next frame and passes on its first
packet. -/
theorem recv_of_empty (hframes : ∀ packets ∈ s.queue.queue, packets ≠ [])
    (hamount : s.bufferedAmount = 0) (hinFlight : s.inFlight = []) (hrunning : s.running = true)
    (hqueue : s.queue.queue ≠ []) :
    ∃ packet s', s.step .recv = some s' ∧ s.passed ++ [packet] <+: s'.passed := by
  obtain ⟨packets, queue, hcons⟩ := exists_cons_of_ne_nil hqueue
  have hnonempty : packets ≠ [] := by
    apply hframes
    rw [hcons]
    exact mem_cons_self
  obtain ⟨packet, rest, hpacket⟩ := exists_cons_of_ne_nil hnonempty
  let s₀ : DataChannelSender :=
    { s with queue := { s.queue with queue }, inFlight := packet :: rest }
  refine ⟨packet, s₀.drainInFlight, ?_, ?_⟩
  · simp only [step, DataTrackSendQueue.tryPop, hcons]
    rw [if_pos ⟨hrunning, hinFlight, hamount ▸ Nat.zero_le _⟩, hinFlight, hpacket]
    rfl
  · rw [drainInFlight_eq]
    -- with nothing buffered there is room for the first packet of the frame, whatever its size
    have hroom : s₀.bufferedAmount ≤ s₀.lowBufferThreshold := by
      show s.bufferedAmount ≤ _
      rw [hamount]
      exact Nat.zero_le _
    have hfirst := FlowControl.sendable_cons List.length packet rest hroom
    show s.passed ++ [packet] <+: s.passed ++ FlowControl.sendable List.length _ _ (packet :: rest)
    rw [hfirst]
    refine (prefix_append_right_inj _).mpr ?_
    exact ⟨_, rfl⟩

/-- The amount is right exactly if nothing was refused. -/
theorem FlowInv.accounted_iff (h : FlowInv accepts records s) :
    s.Accounted accepts records ↔ s.NothingRefused accepts := by
  have hbalance := h.account.balance_iff
  constructor
  · intro haccounted
    exact hbalance.mp haccounted.amount
  · intro hnothing
    have hamount := hbalance.mpr hnothing
    refine ⟨hamount, ?_⟩
    intro hreported hunhandled
    have hzero : s.bufferedAmount = 0 := by
      unfold acceptedBytes at hreported
      omega
    -- a packet in flight would mean that something is buffered
    have hinFlight : s.inFlight = [] := by
      by_contra hwaiting
      have hpos := h.inFlight hwaiting
      omega
    exact ⟨hzero, hinFlight, recv_of_empty h.frames hzero hinFlight⟩

end DataChannelSender

theorem accounted_iff (capacity lowBufferThreshold : ℕ) (accepts : ℕ → Bool) (run : List Action)
    (hreports : EachStepOn DataChannelSender.step reports (fun records s a _ =>
      s.ReportsAccepted accepts records a) [] (.new capacity lowBufferThreshold) run) :
    Always DataChannelSender.step reports (fun records s => s.Accounted accepts records)
        (.new capacity lowBufferThreshold) run ↔
      Always DataChannelSender.step reports (fun _ s => s.NothingRefused accepts)
        (.new capacity lowBufferThreshold) run := by
  refine always_congr (I := DataChannelSender.FlowInv accepts) ?_ ?_ ?_ hreports
  · intro records s h
    exact h.accounted_iff
  · intro records s a s' h hstep hreports
    exact DataChannelSender.step_flowInv h (DataChannelSender.step_cases hstep) hreports
  · refine ⟨.empty _ _, fun h => absurd rfl h, ?_⟩
    intro packets hmem
    cases hmem

end LiveKit.DcSender

/-! ## All channels -/

namespace LiveKit

open LiveKit.DataStream (Bytes)
open LiveKit.RtcSession (DataPacket DataPacketKind)
open LiveKit.DcSender (DataChannelSender)
open TransitionSystem

/-- The buffered amounts of the lossy, the reliable and the data track channel are right, and
nothing is stuck, exactly as long as no channel refuses a packet that is not empty. -/
theorem flowControl_iff (encode : DataPacket → Bytes) (accepts : DataPacketKind → ℕ → Bool)
    (run : List RtcSession.Action) (capacity lowBufferThreshold : ℕ) (accepts' : ℕ → Bool)
    (run' : List DcSender.Action) :
    (EachStepOn (RtcSession.State.step encode) RtcSession.reports
        (fun records s a _ => s.ReportsAccepted accepts records a) [] .new run →
      (Always (RtcSession.State.step encode) RtcSession.reports
          (fun records s => ∀ kind, s.Accounted accepts kind records) .new run ↔
        Always (RtcSession.State.step encode) RtcSession.reports
          (fun _ s => s.NothingRefused accepts) .new run)) ∧
    (EachStepOn DataChannelSender.step DcSender.reports
        (fun records s a _ => s.ReportsAccepted accepts' records a) []
        (.new capacity lowBufferThreshold) run' →
      (Always DataChannelSender.step DcSender.reports
          (fun records s => s.Accounted accepts' records) (.new capacity lowBufferThreshold)
          run' ↔
        Always DataChannelSender.step DcSender.reports
          (fun _ s => s.NothingRefused accepts') (.new capacity lowBufferThreshold) run')) :=
  ⟨RtcSession.accounted_iff encode accepts run,
    DcSender.accounted_iff capacity lowBufferThreshold accepts' run'⟩

/-- A packet of three bytes goes over the reliable channel, and a frame of one packet over the data
track channel, and both are reported. -/
theorem flowControl_of_accepted :
    let encode : DataPacket → Bytes := fun packet => [0x80, 0x01, .ofNat packet.sequence]
    let run : List RtcSession.Action :=
      [.publishData ⟨"", [], 0, "", none⟩ .reliable, .task, .task,
        .bufferedAmountChange 3 .reliable, .task]
    let frames : List DcSender.Action := [.send [[1]], .recv, .bytesSent 1, .event]
    Always (RtcSession.State.step encode) RtcSession.reports
        (fun records s => ∀ kind, s.Accounted (fun _ _ => true) kind records) .new run ∧
      Always DataChannelSender.step DcSender.reports
        (fun records s => s.Accounted (fun _ => true) records) (.new 1 0) frames := by
  intro encode run frames
  obtain ⟨htask, hsender⟩ := flowControl_iff encode (fun _ _ => true) run 1 0 (fun _ => true) frames
  refine ⟨(htask (by decide)).mpr ?_, (hsender (by decide)).mpr ?_⟩
  · intro _ _ s _ _ kind i packet _ hrefused
    cases hrefused
  · intro _ _ s _ _ i packet _ hrefused
    cases hrefused

/-- One packet is refused by each channel, and counts as buffered for ever. -/
theorem refused_counted :
    (¬ ∀ (encode : DataPacket → Bytes) (accepts : DataPacketKind → ℕ → Bool)
        (run : List RtcSession.Action),
      EachStepOn (RtcSession.State.step encode) RtcSession.reports
          (fun records s a _ => s.ReportsAccepted accepts records a) [] .new run →
        Always (RtcSession.State.step encode) RtcSession.reports
          (fun records s => ∀ kind, s.Accounted accepts kind records) .new run) ∧
    ¬ ∀ (capacity lowBufferThreshold : ℕ) (accepts : ℕ → Bool) (run : List DcSender.Action),
      EachStepOn DataChannelSender.step DcSender.reports
          (fun records s a _ => s.ReportsAccepted accepts records a) []
          (.new capacity lowBufferThreshold) run →
        Always DataChannelSender.step DcSender.reports
          (fun records s => s.Accounted accepts records)
          (.new capacity lowBufferThreshold) run := by
  constructor
  · intro haccounted
    let encode : DataPacket → Bytes := fun packet => [0x80, 0x01, .ofNat packet.sequence]
    let run : List RtcSession.Action :=
      [.publishData ⟨"", [], 0, "", none⟩ .reliable, .task, .task]
    obtain ⟨s, hexec⟩ : ∃ s, exec (RtcSession.State.step encode) .new run = some s := ⟨_, rfl⟩
    have hamount := (haccounted encode (fun _ _ => false) run (by decide) run [] s
      (List.append_nil run).symm hexec .reliable).amount
    cases hexec
    revert hamount
    decide
  · intro haccounted
    let run : List DcSender.Action := [.send [[1]], .recv]
    obtain ⟨s, hexec⟩ : ∃ s, exec DataChannelSender.step (.new 1 0) run = some s := ⟨_, rfl⟩
    have hamount := (haccounted 1 0 (fun _ => false) run (by decide) run [] s
      (List.append_nil run).symm hexec).amount
    cases hexec
    revert hamount
    decide

end LiveKit
