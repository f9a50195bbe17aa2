import LiveKit.DcSender.Steps

/-!
# Whole frames

Frames leave the queue at the front, one after the other: the task takes a frame, or a send call
gets it back when it finds the queue full. The packets that are passed to the data channel are
those of the frames that the task has taken.
-/

namespace LiveKit.DcSender

open LiveKit.DataStream (Bytes)
open DataChannelSender List TransitionSystem

/-! ## What is on record -/

/-- What is kept on record of a run. -/
inductive Record where
  /-- A frame is sent, which gives back another one. -/
  | sent (packets : DataTrackFramePackets) (evicted : Option DataTrackFramePackets)
  /-- The task takes a frame. -/
  | taken (packets : DataTrackFramePackets)
  /-- A frame is left in the queue when the task ends. -/
  | drained (packets : DataTrackFramePackets)

/-- What becomes of a frame that leaves the queue. -/
inductive Fate where
  | taken
  /-- The send call with this number gets it back. -/
  | evicted (call : ℕ)
  | drained
deriving DecidableEq

/-- The frames that were sent. -/
def sentIn (records : List Record) : List DataTrackFramePackets :=
  records.filterMap fun
    | .sent packets _ => some packets
    | _ => none

/-- The frames that have left the queue, in this order, where `call` is the number of the first
send call. -/
def departures (call : ℕ) : List Record → List (DataTrackFramePackets × Fate)
  | [] => []
  | .sent _ none :: records => departures (call + 1) records
  | .sent _ (some packets) :: records => (packets, .evicted call) :: departures (call + 1) records
  | .taken packets :: records => (packets, .taken) :: departures call records
  | .drained packets :: records => (packets, .drained) :: departures call records

/-- The frames that the task has taken. -/
def takenIn (records : List Record) : List DataTrackFramePackets :=
  ((departures 0 records).filter fun departure => departure.2 = .taken).map Prod.fst

/-- What has become of the frame that was sent as number `i`, if it is not still in the queue. -/
def fate (records : List Record) (i : ℕ) : Option Fate :=
  (departures 0 records)[i]?.map Prod.snd

/-- The frames are kept together, and each of them is in one place. -/
structure WholeFrames (records : List Record) (s : DataChannelSender) : Prop where
  /-- The frames that were sent are those that have left the queue, and those in it. -/
  sent : sentIn records = (departures 0 records).map Prod.fst ++ s.queue.queue
  /-- The packets of the frames that the task has taken were passed to the data channel, or are in
  flight. -/
  passed : s.passed ++ s.inFlight = (takenIn records).flatten
  /-- Only packets of the last frame are in flight, and not all of them. -/
  inFlight : s.inFlight ≠ [] →
    ∃ before now, takenIn records = before ++ [now ++ s.inFlight] ∧ now ≠ []
  /-- A send call gets back a frame that was sent before. -/
  older : ∀ i call, fate records i = some (.evicted call) → i < call
  /-- Nothing else happens to a frame as long as the task runs. -/
  running : s.running = true → ∀ i, fate records i ≠ some .drained

namespace DataChannelSender

/-- What a step puts on record. -/
def record (s : DataChannelSender) : Action → List Record
  | .send packets => if packets.isEmpty then [] else [.sent packets (s.queue.send packets).1]
  | .recv =>
    match s.queue.tryPop with
    | none => []
    | some (packets, _) => [.taken packets]
  | .close => s.queue.drain.1.map .drained
  | .bytesSent _ | .event => []

end DataChannelSender

/-! ## Records -/

theorem sentIn_append (records records' : List Record) :
    sentIn (records ++ records') = sentIn records ++ sentIn records' :=
  filterMap_append

theorem departures_append (call : ℕ) (records records' : List Record) :
    departures call (records ++ records')
      = departures call records ++ departures (call + (sentIn records).length) records' := by
  induction records generalizing call with
  | nil => rfl
  | cons record records ih =>
    rw [cons_append]
    cases record with
    | sent packets evicted =>
      have hnext : call + 1 + (sentIn records).length
          = call + (sentIn (.sent packets evicted :: records)).length := by
        show _ = call + ((sentIn records).length + 1)
        omega
      cases evicted with
      | none => rw [departures, departures, ih, hnext]
      | some packets' => rw [departures, departures, ih, hnext, cons_append]
    | taken | drained =>
      rw [departures, departures, ih, cons_append]
      rfl

/-- What has become of a frame does not change any more. -/
theorem departures_prefix (records records' : List Record) :
    departures 0 records <+: departures 0 (records ++ records') := by
  rw [departures_append]
  exact prefix_append _ _

/-- When the task ends, the frames that are left leave the queue. -/
theorem departures_drained (call : ℕ) (frames : List DataTrackFramePackets) :
    departures call (frames.map .drained) = frames.map fun packets => (packets, .drained) := by
  induction frames with
  | nil => rfl
  | cons packets frames ih => rw [map_cons, departures, ih, map_cons]

theorem takenIn_append (records records' : List Record) :
    takenIn (records ++ records') = takenIn records
      ++ ((departures (sentIn records).length records').filter fun departure =>
        departure.2 = .taken).map Prod.fst := by
  unfold takenIn
  rw [departures_append, filter_append, map_append, Nat.zero_add]

/-- What has become of a frame was known before, or is on the new records. -/
theorem fate_append {records records' : List Record} {i : ℕ} {f : Fate}
    (h : fate (records ++ records') i = some f) :
    fate records i = some f ∨ ∃ k, i = (departures 0 records).length + k ∧
      (departures (sentIn records).length records')[k]?.map Prod.snd = some f := by
  unfold fate at h ⊢
  rw [departures_append, Nat.zero_add] at h
  by_cases hold : i < (departures 0 records).length
  · rw [getElem?_append_left hold] at h
    exact .inl h
  · rw [getElem?_append_right (Nat.not_lt.mp hold)] at h
    exact .inr ⟨i - (departures 0 records).length, by omega, h⟩

/-! ## The task -/

namespace DataChannelSender

/-- The packets of the frames that were taken so far. -/
structure Dispatching (s : DataChannelSender) (taken : List DataTrackFramePackets) : Prop where
  passed : s.passed ++ s.inFlight = taken.flatten
  /-- The first packet of the last frame has been passed on, or there is room for it. -/
  inFlight : s.inFlight ≠ [] → ∃ before now, taken = before ++ [now ++ s.inFlight] ∧
    (now ≠ [] ∨ s.bufferedAmount ≤ s.lowBufferThreshold)

variable {s : DataChannelSender}

theorem Dispatching.drained {taken : List DataTrackFramePackets} (h : s.Dispatching taken) :
    s.drainInFlight.passed ++ s.drainInFlight.inFlight = taken.flatten ∧
      (s.drainInFlight.inFlight ≠ [] →
        ∃ before now, taken = before ++ [now ++ s.drainInFlight.inFlight] ∧ now ≠ []) := by
  have hall := FlowControl.sendable_append_held List.length s.lowBufferThreshold
    s.bufferedAmount s.inFlight
  rw [drainInFlight_eq]
  refine ⟨?_, ?_⟩
  · show (s.passed ++ _) ++ _ = taken.flatten
    rw [append_assoc, hall]
    exact h.passed
  · intro hheld
    have hinFlight : s.inFlight ≠ [] := by
      intro hnil
      rw [hnil] at hheld
      exact hheld rfl
    obtain ⟨before, now, htaken, hnow⟩ := h.inFlight hinFlight
    refine ⟨before, now ++ FlowControl.sendable List.length s.lowBufferThreshold
      s.bufferedAmount s.inFlight, ?_, ?_⟩
    · rw [append_assoc, hall]
      exact htaken
    · rcases hnow with hnow | hroom
      · exact append_ne_nil_of_left_ne_nil hnow _
      · obtain ⟨packet, packets, hcons⟩ := exists_cons_of_ne_nil hinFlight
        rw [hcons, FlowControl.sendable_cons List.length packet packets hroom]
        exact append_ne_nil_of_right_ne_nil _ (cons_ne_nil _ _)

/-! ## The queue -/

variable {a : Action} {s' : DataChannelSender}

/-- What was in the queue and what comes in either leaves it or is in it afterwards. -/
theorem queue_conserved (call : ℕ) (h : s.Turn a s') :
    s.queue.queue ++ sentIn (s.record a)
      = (departures call (s.record a)).map Prod.fst ++ s'.queue.queue := by
  cases h with
  | send packets =>
    unfold record DataTrackSendQueue.send
    -- `send` gives an empty frame back
    by_cases hempty : packets.isEmpty
    · simp only [if_pos hempty]
      exact append_nil _
    · simp only [if_neg hempty]
      -- a full queue gives its oldest frame up
      by_cases hfull : s.queue.capacity ≤ s.queue.queue.length
      · simp only [if_pos hfull]
        cases s.queue.queue with
        | nil | cons => rfl
      · simp only [if_neg hfull]
        rfl
  | reported | ignored => exact append_nil _
  | event bytesSent dcEvents _ _ =>
    rw [drainInFlight_eq]
    exact append_nil _
  | recv packets queue _ _ _ hqueue =>
    unfold record DataTrackSendQueue.tryPop
    rw [drainInFlight_eq, hqueue]
    exact append_nil _
  | close _ =>
    show s.queue.queue ++ sentIn (s.queue.queue.map .drained)
      = (departures call (s.queue.queue.map .drained)).map Prod.fst ++ []
    have hnone : sentIn (s.queue.queue.map .drained) = [] := by
      unfold sentIn
      rw [filterMap_map]
      exact filterMap_eq_nil_iff.mpr fun _ _ => rfl
    rw [hnone, departures_drained, map_map, append_nil, append_nil]
    exact (map_id _).symm

/-- A send call gets back the oldest frame, or none. -/
theorem record_send (s : DataChannelSender) (packets : DataTrackFramePackets) :
    s.record (.send packets) = [] ∨ s.record (.send packets) = [.sent packets none] ∨
      ∃ oldest queue, s.queue.queue = oldest :: queue ∧
        s.record (.send packets) = [.sent packets (some oldest)] := by
  simp only [record, DataTrackSendQueue.send]
  by_cases hempty : packets.isEmpty
  · rw [if_pos hempty]
    exact .inl rfl
  · rw [if_neg hempty, if_neg hempty]
    by_cases hfull : s.queue.capacity ≤ s.queue.queue.length
    · rw [if_pos hfull]
      cases s.queue.queue with
      | nil => exact .inr (.inl rfl)
      | cons oldest queue => exact .inr (.inr ⟨oldest, queue, rfl, rfl⟩)
    · rw [if_neg hfull]
      exact .inr (.inl rfl)

/-- What can become of a frame in a step. -/
theorem record_fate (call : ℕ) (h : s.Turn a s') {k : ℕ} {f : Fate}
    (hf : (departures call (s.record a))[k]?.map Prod.snd = some f) :
    f = .taken ∨ (f = .evicted call ∧ k = 0 ∧ s.queue.queue ≠ []) ∨
      (f = .drained ∧ s'.running = false) := by
  cases h with
  | send packets =>
    rcases s.record_send packets with hnone | hnone | ⟨oldest, queue, hqueue, hevicted⟩
    · rw [hnone] at hf
      cases hf
    · rw [hnone] at hf
      cases hf
    · rw [hevicted] at hf
      cases k with
      | zero =>
        cases hf
        exact .inr (.inl ⟨rfl, rfl, by rw [hqueue]; exact cons_ne_nil _ _⟩)
      | succ k => cases hf
  | reported | ignored | event => cases hf
  | recv packets queue _ _ _ hqueue =>
    unfold record DataTrackSendQueue.tryPop at hf
    rw [hqueue] at hf
    cases k with
    | zero =>
      cases hf
      exact .inl rfl
    | succ k => cases hf
  | close _ =>
    have hdrained : (departures call (s.queue.queue.map .drained))[k]?.map Prod.snd = some f := hf
    rw [departures_drained, getElem?_map, Option.map_map] at hdrained
    obtain ⟨packets, -, heq⟩ := Option.map_eq_some_iff.mp hdrained
    exact .inr (.inr ⟨heq.symm, rfl⟩)

/-- Only when the task takes a frame, a frame is taken. -/
theorem record_taken (call : ℕ) (h : s.Turn a s') (hrecv : a ≠ .recv) :
    (departures call (s.record a)).filter (fun departure => departure.2 = .taken) = [] := by
  rw [filter_eq_nil_iff]
  intro departure hmem htaken
  rw [decide_eq_true_eq] at htaken
  cases h with
  | recv => exact hrecv rfl
  | send packets =>
    rcases s.record_send packets with hnone | hnone | ⟨oldest, queue, -, hevicted⟩
    · rw [hnone] at hmem
      cases hmem
    · rw [hnone] at hmem
      cases hmem
    · rw [hevicted] at hmem
      rw [mem_singleton.mp hmem] at htaken
      cases htaken
  | reported | ignored | event => cases hmem
  | close _ =>
    have hdrained : departure ∈ departures call (s.queue.queue.map .drained) := hmem
    rw [departures_drained] at hdrained
    obtain ⟨packets, -, heq⟩ := mem_map.mp hdrained
    rw [← heq] at htaken
    cases htaken

/-! ## The packets -/

/-- What the task has taken after a step, and what it has passed on. -/
theorem step_dispatching {records : List Record} (h : WholeFrames records s) (hturn : s.Turn a s') :
    s'.passed ++ s'.inFlight = (takenIn (records ++ s.record a)).flatten ∧
      (s'.inFlight ≠ [] → ∃ before now,
        takenIn (records ++ s.record a) = before ++ [now ++ s'.inFlight] ∧ now ≠ []) := by
  rw [takenIn_append]
  have hnone : a ≠ .recv → takenIn records
      ++ ((departures (sentIn records).length (s.record a)).filter fun departure =>
        departure.2 = .taken).map Prod.fst = takenIn records := by
    intro hrecv
    rw [record_taken _ hturn hrecv]
    exact append_nil _
  cases hturn with
  | send | reported | ignored | close =>
    rw [hnone (by simp)]
    exact ⟨h.passed, h.inFlight⟩
  | event bytesSent dcEvents _ _ =>
    rw [hnone (by simp)]
    apply Dispatching.drained
    refine ⟨h.passed, ?_⟩
    intro hinFlight
    obtain ⟨before, now, htaken, hnow⟩ := h.inFlight hinFlight
    exact ⟨before, now, htaken, .inl hnow⟩
  | recv packets queue _ hinFlight hroom hqueue =>
    -- the frame that is taken is what is in flight then, before its first packets go
    have hnew : ((departures (sentIn records).length (s.record .recv)).filter fun departure =>
        departure.2 = .taken).map Prod.fst = [packets] := by
      unfold record DataTrackSendQueue.tryPop
      rw [hqueue]
      rfl
    rw [hnew]
    apply Dispatching.drained
    refine ⟨?_, ?_⟩
    · have hpassed := h.passed
      rw [hinFlight, append_nil] at hpassed
      rw [flatten_append, flatten_singleton, ← hpassed]
    · intro _
      exact ⟨takenIn records, [], rfl, .inr hroom⟩

theorem step_wholeFrames {records : List Record} (h : WholeFrames records s) (hturn : s.Turn a s') :
    WholeFrames (records ++ s.record a) s' := by
  obtain ⟨hpassed, hinFlight⟩ := step_dispatching h hturn
  refine ⟨?_, hpassed, hinFlight, ?_, ?_⟩
  · have hconserved := queue_conserved (sentIn records).length hturn
    rw [sentIn_append, departures_append, Nat.zero_add, map_append, append_assoc,
      ← hconserved, ← append_assoc, ← h.sent]
  · intro i call hfate
    rcases fate_append hfate with hold | ⟨k, hk, hnew⟩
    · exact h.older i call hold
    · rcases record_fate _ hturn hnew with htaken | ⟨hevicted, hzero, hqueue⟩ | ⟨hdrained, -⟩
      · cases htaken
      · cases hevicted
        -- what is evicted has been sent before, and so by an earlier call
        have hlength := congrArg List.length h.sent
        rw [length_append, length_map] at hlength
        have hpos := length_pos_of_ne_nil hqueue
        omega
      · cases hdrained
  · intro hrunning i hfate
    -- only `close` ends the task
    have hbefore : s.running = true := by
      cases hturn with
      | close _ => cases hrunning
      | send | ignored | reported _ hrunning => exact hrunning
      | event _ _ hbefore | recv _ _ hbefore => exact hbefore
    rcases fate_append hfate with hold | ⟨k, -, hnew⟩
    · exact h.running hbefore i hold
    · rcases record_fate _ hturn hnew with htaken | ⟨hevicted, -⟩ | ⟨-, hended⟩
      · cases htaken
      · cases hevicted
      · rw [hrunning] at hended
        cases hended

end DataChannelSender

/-- In every run the frames are kept together, each of them is in one place, and what has become of
a frame does not change any more. -/
theorem whole_frames (capacity lowBufferThreshold : ℕ) (run : List Action) :
    Always DataChannelSender.step DataChannelSender.record WholeFrames
        (.new capacity lowBufferThreshold) run ∧
      ∀ before after, run = before ++ after →
        departures 0 (trace DataChannelSender.step DataChannelSender.record
            (.new capacity lowBufferThreshold) before)
          <+: departures 0 (trace DataChannelSender.step DataChannelSender.record
            (.new capacity lowBufferThreshold) run) := by
  constructor
  · refine always_of_invariant (I := WholeFrames) (fun _ _ h => h) ?_ ?_ run
    · intro records s a s' h hstep
      exact step_wholeFrames h (step_cases hstep)
    · refine ⟨rfl, rfl, ?_, ?_, ?_⟩
      · intro hinFlight
        exact absurd rfl hinFlight
      · intro i call hfate
        cases hfate
      · intro _ i hfate
        cases hfate
  · intro before after hrun
    have hprefix : trace step record
          (.new capacity lowBufferThreshold) before
        <+: trace step record
          (.new capacity lowBufferThreshold) (before ++ after) := trace_prefix _ before after
    obtain ⟨records, hrecords⟩ := hprefix
    rw [hrun, ← hrecords]
    exact departures_prefix _ records

end LiveKit.DcSender
