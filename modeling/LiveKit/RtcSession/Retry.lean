import LiveKit.RtcSession.DataChannelTheorems

/-!
# Which packets are kept for a retry

The data channel reports how many bytes it has sent. The others are the last bytes of what was
handed to it, and after a resume the packets they belong to may have to be sent once more. Each
report also cuts the retry queue, to the number of bytes that were sent and not to the number of
those that were not.
-/

namespace LiveKit.RtcSession

open TransitionSystem

namespace State

/-- The packets that have bytes which the channel has not sent. -/
def unsent (s : State) : List EncodedPacket :=
  Backlog.backlog TxQueueItem.bufferedSize s.reliable.bufferedAmount s.reliable.sent

/-- The unsent packets are in the retry queue, from which a resume takes them. -/
structure KeepsUnsent (s : State) : Prop where
  /-- A packet has unsent bytes if what was handed over after it is less than what is buffered. -/
  present : ∀ before packet after, s.reliable.sent = before ++ packet :: after →
    totalSize after < s.reliable.bufferedAmount → packet ∈ s.retryQueue.inner
  inOrder : s.unsent <:+ s.retryQueue.inner
  size : s.reliable.bufferedAmount ≤ s.retryQueue.bufferedSize
  retried : ∀ lastSequence, ∀ packet ∈ s.unsent, lastSequence < packet.sequence →
    ⟨.reliable, .publishData packet⟩ ∈ (s.enqueueForRetryFrom lastSequence).dcEvents

/-- The packets with unsent bytes when `sent` bytes have been reported and the requests for which
there is now a place have been handed over. -/
def unsentAfter (s : State) (a : Action) (sent : ℕ) : List EncodedPacket :=
  Backlog.backlog TxQueueItem.bufferedSize
    (s.reliable.bufferedAmount - sent + totalSize (s.handedOver a))
    (s.reliable.sent ++ s.handedOver a)

/-- A report is at least as large as the packets that are unsent after it, and nothing is unsent
when the task gets to a resume. -/
structure SparesUnsent (s : State) (a : Action) : Prop where
  report : ∀ sent, s.taken a = some (.bufferedAmountChange sent) →
    totalSize (s.unsentAfter a sent) ≤ sent
  resume : ∀ lastSequence, s.taken a = some (.retryFrom lastSequence) →
    s.reliable.bufferedAmount = 0

/-- The unsent packets are the last ones of the retry queue. -/
structure RetryInv (s : State) : Prop where
  suffix : s.unsent <:+ s.retryQueue.inner
  amount : s.reliable.bufferedAmount ≤ totalSize s.reliable.sent

theorem RetryInv.keepsUnsent {s : State} (h : s.RetryInv) : s.KeepsUnsent where
  present before packet after hsent hlt := by
    apply h.suffix.subset
    unfold unsent
    rw [hsent]
    exact Backlog.mem_backlog _ hlt
  inOrder := h.suffix
  size := by
    rw [s.retryQueue.size_eq]
    calc s.reliable.bufferedAmount
        ≤ totalSize s.unsent := Backlog.le_total_backlog _ h.amount
      _ ≤ totalSize s.retryQueue.inner := Backlog.total_le_of_suffix _ h.suffix
  retried lastSequence packet hmem hlt := by
    apply List.mem_append_right
    apply List.mem_map_of_mem
    rw [List.mem_filter, decide_eq_true_eq]
    exact ⟨h.suffix.subset hmem, Nat.not_le.mpr hlt⟩

variable {encode : DataPacket → LiveKit.DataStream.Bytes}

/-- What is handed over is unsent, and so is nothing that was not unsent before. -/
theorem unsentAfter_suffix (s : State) (a : Action) (sent : ℕ) :
    s.unsentAfter a sent <:+ s.unsent ++ s.handedOver a := by
  have hless : Backlog.backlog TxQueueItem.bufferedSize (s.reliable.bufferedAmount - sent)
      s.reliable.sent <:+ s.unsent := Backlog.backlog_mono _ (Nat.sub_le _ _) _
  refine (Backlog.backlog_append _ _ _ _).trans ?_
  obtain ⟨before, hbefore⟩ := hless
  exact ⟨before, by rw [← List.append_assoc, hbefore]⟩

theorem step_keepsUnsent {s s' : State} {a : Action} (h : s.RetryInv)
    (hstep : s.step encode a = some s') :
    s.SparesUnsent a ∧ s'.RetryInv ∨ ¬ s.SparesUnsent a ∧ ¬ s'.KeepsUnsent := by
  have happend : s.unsent ++ s.handedOver a <:+ s.retryQueue.inner ++ s.handedOver a := by
    obtain ⟨before, hbefore⟩ := h.suffix
    exact ⟨before, by rw [← List.append_assoc, hbefore]⟩
  cases step_cases hstep with
  | idle htaken hsent hamount hretry | numbered _ _ htaken _ hsent hamount hretry =>
    refine .inl ⟨⟨by simp [htaken], by simp [htaken]⟩, ?_, ?_⟩
    · unfold unsent
      rw [hsent, hamount, hretry]
      exact h.suffix
    · rw [hsent, hamount]
      exact h.amount
  | requested packet htaken hsent hamount hretry =>
    refine .inl ⟨⟨by simp [htaken], by simp [htaken]⟩, ?_, ?_⟩
    · have hafter := s.unsentAfter_suffix a 0
      unfold unsentAfter at hafter
      rw [Nat.sub_zero] at hafter
      unfold unsent
      rw [hsent, hamount, hretry]
      exact hafter.trans happend
    · rw [hsent, hamount, totalSize_append]
      exact Nat.add_le_add_right h.amount _
  | reported sent retryQueue htaken hsent hamount henqueued hretry =>
    have hunsent : s'.unsent = s.unsentAfter a sent := by
      unfold unsent unsentAfter
      rw [hsent, hamount]
    obtain ⟨-, hsize, hlongest⟩ := retryQueue.trim_spec sent
    by_cases hle : totalSize (s.unsentAfter a sent) ≤ sent
    · refine .inl ⟨⟨?_, by simp [htaken]⟩, ?_, ?_⟩
      · intro sent' htaken'
        rw [htaken, Option.some.injEq, DataChannelEventDetail.bufferedAmountChange.injEq]
          at htaken'
        exact htaken' ▸ hle
      · rw [hunsent, hretry]
        apply hlongest _ _ hle
        rw [henqueued]
        exact (s.unsentAfter_suffix a sent).trans happend
      · rw [hsent, hamount, totalSize_append]
        have hamount := h.amount
        omega
    · refine .inr ⟨fun hspares => hle (hspares.report sent htaken), ?_⟩
      intro hkeeps
      -- the unsent packets do not all fit into what is left of the queue
      have hsuffix := Backlog.total_le_of_suffix TxQueueItem.bufferedSize hkeeps.inOrder
      rw [hunsent, ← s'.retryQueue.size_eq, hretry] at hsuffix
      exact hle (hsuffix.trans hsize)
  | resumed lastSequence htaken hsent hamount hretry =>
    by_cases hzero : s.reliable.bufferedAmount = 0
    · refine .inl ⟨⟨by simp [htaken], fun _ _ => hzero⟩, ?_, ?_⟩
      · unfold unsent
        rw [hamount, hzero, Backlog.backlog_zero]
        exact List.nil_suffix
      · rw [hamount, hzero]
        exact Nat.zero_le _
    · refine .inr ⟨fun hspares => hzero (hspares.resume lastSequence htaken), ?_⟩
      intro hkeeps
      have hsize := hkeeps.size
      rw [s'.retryQueue.size_eq, hretry, hamount, Backlog.total_nil] at hsize
      exact hzero (Nat.le_zero.mp hsize)

/-- The unsent packets are kept in all states of a run exactly when each step spares them. -/
theorem keepsUnsent_iff (encode : DataPacket → LiveKit.DataStream.Bytes) (run : List Action) :
    Throughout (State.step encode) KeepsUnsent .new run ↔
      EachStep (State.step encode) (fun s a _ => s.SparesUnsent a) .new run := by
  refine throughout_iff_eachStep (I := RetryInv) (fun _ h => h.keepsUnsent) ?_ ?_ run
  · intro s a s' h hstep
    exact step_keepsUnsent h hstep
  · exact ⟨List.suffix_refl [], Nat.le_refl 0⟩

/-- Three packets of three bytes have been handed over, and three bytes are sent: the retry queue
is cut to three bytes, and the second packet is not in it any more. -/
theorem unsent_trimmed :
    ¬ ∀ (encode : DataPacket → LiveKit.DataStream.Bytes) (run : List Action),
      Throughout (State.step encode) KeepsUnsent .new run := by
  intro hkeeps
  -- a packet that has nothing but its number in it
  let encode : DataPacket → LiveKit.DataStream.Bytes :=
    fun packet => [0x80, 0x01, .ofNat packet.sequence]
  let packet : DataPacket := ⟨"", [], 0, "", none⟩
  let publish : List Action := [.publishData packet .reliable, .task, .task]
  let run : List Action := publish ++ publish ++ publish ++
    [.bufferedAmountChange 3 .reliable, .task]
  obtain ⟨s, hexec⟩ : ∃ s, exec (State.step encode) .new run = some s := ⟨_, rfl⟩
  have hstate : (exec (State.step encode) .new run).map (fun s =>
      (s.reliable.bufferedAmount, s.reliable.sent, s.retryQueue.inner))
      = some (6, [⟨[0x80, 0x01, 1], 1⟩, ⟨[0x80, 0x01, 2], 2⟩, ⟨[0x80, 0x01, 3], 3⟩],
        [⟨[0x80, 0x01, 3], 3⟩]) := by decide
  rw [hexec, Option.map_some, Option.some.injEq, Prod.mk.injEq, Prod.mk.injEq] at hstate
  obtain ⟨hamount, hsent, hretry⟩ := hstate
  have hmem := (hkeeps encode run run [] s (List.append_nil run).symm hexec).present
    [⟨[0x80, 0x01, 1], 1⟩] ⟨[0x80, 0x01, 2], 2⟩ [⟨[0x80, 0x01, 3], 3⟩] hsent
    (by rw [hamount]; decide)
  rw [hretry] at hmem
  revert hmem
  decide

end State

end LiveKit.RtcSession
