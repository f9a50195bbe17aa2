import LiveKit.RtcSession.DataChannelTheorems

/-!
# The order of reliable packets after a resume

After a resume the packets that the server has not got join those that wait, at the end, as every
packet does that has just got its number. Their numbers are lower than those of the packets that
have not been sent before.
-/

namespace LiveKit.RtcSession

open List TransitionSystem

/-- What is kept on record of a run: the packets that are handed to the reliable channel, and the
resumes that the task gets to. -/
inductive Record where
  | handed (packet : EncodedPacket)
  | resumed (lastSequence : ℕ)
deriving DecidableEq

def handedIn (records : List Record) : List EncodedPacket :=
  records.filterMap fun
    | .handed packet => some packet
    | .resumed _ => none

def resumesIn (records : List Record) : List ℕ :=
  records.filterMap fun
    | .handed _ => none
    | .resumed lastSequence => some lastSequence

/-- The packets after `lastSequence`. -/
abbrev later (lastSequence : ℕ) (packets : List EncodedPacket) : List EncodedPacket :=
  packets.filter fun packet => lastSequence < packet.sequence

/-- The sequence numbers increase strictly. -/
def Increasing (packets : List EncodedPacket) : Prop :=
  packets.Pairwise fun packet packet' => packet.sequence < packet'.sequence

/-- After each resume, the packets that the server has not got are handed over in order. -/
def InOrder (records : List Record) : Prop :=
  ∀ before lastSequence after, records = before ++ .resumed lastSequence :: after →
    Increasing (later lastSequence (handedIn after))

namespace State

/-- What a step puts on record. -/
def record (s : State) (a : Action) : List Record :=
  (s.handedOver a).map .handed ++
    match s.taken a with
    | some (.retryFrom lastSequence) => [.resumed lastSequence]
    | _ => []

/-- The counter has not wrapped around when a packet is numbered. When the task gets to a resume,
those that wait and those that are sent once more are in order, as far as the server has not got
them, and the latter were not sent once more for an earlier resume. -/
def ResumesInOrder (s : State) (records : List Record) (a : Action) : Prop :=
  match s.taken a with
  | some (.publishPacket _) => s.nextPacketSequence ≠ 0
  | some (.retryFrom lastSequence) =>
    Increasing (later lastSequence s.waiting ++ s.retried lastSequence) ∧
      ∀ earlier ∈ resumesIn records, ∀ packet ∈ s.retried lastSequence, packet.sequence ≤ earlier
  | _ => True

instance (s : State) (records : List Record) (a : Action) :
    Decidable (s.ResumesInOrder records a) := by
  unfold ResumesInOrder Increasing
  split <;> infer_instance

end State

/-! ## The invariant -/

theorem handedIn_append (records records' : List Record) :
    handedIn (records ++ records') = handedIn records ++ handedIn records' :=
  filterMap_append

theorem handedIn_map (packets : List EncodedPacket) :
    handedIn (packets.map .handed) = packets := by
  unfold handedIn
  rw [filterMap_map]
  exact filterMap_some

/-- A resume on record is an old or a new one. -/
theorem split_append {records new before after : List Record} {lastSequence : ℕ}
    (h : records ++ new = before ++ .resumed lastSequence :: after) :
    (∃ after', records = before ++ .resumed lastSequence :: after' ∧ after = after' ++ new) ∨
      ∃ new', before = records ++ new' ∧ new = new' ++ .resumed lastSequence :: after := by
  rcases append_eq_append_iff.mp h with ⟨new', hbefore, hnew⟩ | ⟨tail, hrecords, htail⟩
  · exact .inr ⟨new', hbefore, hnew⟩
  · cases tail with
    | nil =>
      rw [nil_append] at htail
      rw [append_nil] at hrecords
      exact .inr ⟨[], by rw [append_nil, hrecords], htail.symm⟩
    | cons first tail =>
      obtain ⟨rfl, rfl⟩ := List.cons.inj htail
      exact .inl ⟨tail, hrecords, rfl⟩

/-- All packets that were handed over, wait, or are kept have numbers below the next one, and what
was handed over since a resume and what waits is in order. -/
structure ResumeInv (records : List Record) (s : State) : Prop where
  limit : s.nextPacketSequence < SEQUENCE_LIMIT
  below : s.nextPacketSequence ≠ 0 →
    ∀ packet ∈ handedIn records ++ (s.waiting ++ s.retryQueue.inner),
      packet.sequence < s.nextPacketSequence
  ordered : ∀ before lastSequence after, records = before ++ .resumed lastSequence :: after →
    Increasing (later lastSequence (handedIn after ++ s.waiting))

theorem ResumeInv.inOrder {records : List Record} {s : State} (h : ResumeInv records s) :
    InOrder records := by
  intro before lastSequence after hrecords
  have hordered := h.ordered before lastSequence after hrecords
  unfold Increasing at hordered
  rw [later, filter_append, pairwise_append] at hordered
  exact hordered.1

namespace State

variable {encode : DataPacket → LiveKit.DataStream.Bytes} {records : List Record} {s s' : State}
  {a : Action}

/-- What was handed over and what waits are together what waited before. -/
theorem resumeInv_handed (h : ResumeInv records s) (hrecord : s.record a
    = (s.handedOver a).map .handed) (hwaiting : s.handedOver a ++ s'.waiting = s.waiting)
    (hretry : ∀ packet ∈ s'.retryQueue.inner,
      packet ∈ s.retryQueue.inner ∨ packet ∈ s.handedOver a)
    (hnext : s'.nextPacketSequence = s.nextPacketSequence) :
    ResumeInv (records ++ s.record a) s' := by
  have hover : ∀ packet ∈ s.handedOver a, packet ∈ s.waiting := by
    intro packet hmem
    rw [← hwaiting]
    exact mem_append_left _ hmem
  rw [hrecord]
  refine ⟨hnext ▸ h.limit, ?_, ?_⟩
  · intro hzero packet hmem
    rw [hnext] at hzero ⊢
    apply h.below hzero
    rw [handedIn_append, handedIn_map, mem_append, mem_append, mem_append] at hmem
    rw [mem_append, mem_append]
    rcases hmem with (hold | hnew) | hwait | hkept
    · exact .inl hold
    · exact .inr (.inl (hover packet hnew))
    · refine .inr (.inl ?_)
      rw [← hwaiting]
      exact mem_append_right _ hwait
    · rcases hretry packet hkept with hkept | hnew
      · exact .inr (.inr hkept)
      · exact .inr (.inl (hover packet hnew))
  · intro before lastSequence after hsplit
    rcases split_append hsplit with ⟨after', hrecords, rfl⟩ | ⟨new', -, hnew⟩
    · rw [handedIn_append, handedIn_map, append_assoc, hwaiting]
      exact h.ordered before lastSequence after' hrecords
    · -- a packet that is handed over is not a resume
      have hmem : Record.resumed lastSequence ∈ (s.handedOver a).map Record.handed := by
        rw [hnew]
        exact mem_append_right _ mem_cons_self
      obtain ⟨packet, -, heq⟩ := mem_map.mp hmem
      cases heq

/-- A packet that gets its number is the last one. -/
theorem resumeInv_numbered (h : ResumeInv records s) (hnumber : s.nextPacketSequence ≠ 0)
    {encoded : EncodedPacket} (hencoded : encoded.sequence = s.nextPacketSequence)
    (hretry : s'.retryQueue.inner = s.retryQueue.inner)
    (hwaiting : s'.waiting = s.waiting ++ [encoded])
    (hnext : s'.nextPacketSequence = (s.nextPacketSequence + 1) % SEQUENCE_LIMIT) :
    ResumeInv records s' := by
  have hlimit := h.limit
  refine ⟨?_, ?_, ?_⟩
  · rw [hnext]
    exact Nat.mod_lt _ (by decide)
  · intro hzero packet hmem
    -- unless the counter wraps around, and then it is zero
    have hsucc : s'.nextPacketSequence = s.nextPacketSequence + 1 := by
      rw [hnext] at hzero ⊢
      apply Nat.mod_eq_of_lt
      by_contra hge
      have heq : s.nextPacketSequence + 1 = SEQUENCE_LIMIT := by omega
      rw [heq, Nat.mod_self] at hzero
      exact hzero rfl
    rw [hsucc]
    rw [hretry, hwaiting, mem_append, mem_append, mem_append,
      mem_singleton] at hmem
    have hbelow := h.below hnumber packet
    rw [mem_append, mem_append] at hbelow
    rcases hmem with hold | (hwait | rfl) | hkept
    · exact Nat.lt_succ_of_lt (hbelow (.inl hold))
    · exact Nat.lt_succ_of_lt (hbelow (.inr (.inl hwait)))
    · rw [hencoded]
      exact Nat.lt_succ_self _
    · exact Nat.lt_succ_of_lt (hbelow (.inr (.inr hkept)))
  · intro before lastSequence after hrecords
    have hordered := h.ordered before lastSequence after hrecords
    rw [hwaiting, ← append_assoc, later, filter_append]
    unfold Increasing at hordered ⊢
    rw [pairwise_append]
    -- all that was handed over or waits has a lower number
    refine ⟨hordered, List.Pairwise.filter _ (pairwise_singleton _ _), ?_⟩
    intro packet hpacket last hlast
    rw [mem_singleton.mp (mem_of_mem_filter hlast), hencoded]
    apply h.below hnumber
    have hmem := mem_of_mem_filter hpacket
    rw [mem_append] at hmem
    rw [mem_append, mem_append]
    rcases hmem with hhanded | hwait
    · refine .inl ?_
      rw [hrecords, handedIn_append]
      exact mem_append_right _ hhanded
    · exact .inr (.inl hwait)

/-- The packets that are sent once more are the last ones. -/
theorem resumeInv_resumed (h : ResumeInv records s) {lastSequence : ℕ}
    (hresume : Increasing (later lastSequence s.waiting ++ s.retried lastSequence))
    (hagain : ∀ earlier ∈ resumesIn records, ∀ packet ∈ s.retried lastSequence,
      packet.sequence ≤ earlier) (hretry : s'.retryQueue.inner = [])
    (hwaiting : s'.waiting = s.waiting ++ s.retried lastSequence)
    (hnext : s'.nextPacketSequence = s.nextPacketSequence) :
    ResumeInv (records ++ [.resumed lastSequence]) s' := by
  refine ⟨hnext ▸ h.limit, ?_, ?_⟩
  · intro hzero packet hmem
    rw [hnext] at hzero ⊢
    apply h.below hzero
    rw [handedIn_append, hretry, hwaiting, append_nil, mem_append, mem_append,
      mem_append] at hmem
    rw [mem_append, mem_append]
    rcases hmem with (hold | hnew) | hwait | hretried
    · exact .inl hold
    · cases hnew
    · exact .inr (.inl hwait)
    · exact .inr (.inr (mem_of_mem_filter hretried))
  · intro before earlier after hsplit
    rw [hwaiting]
    rcases split_append hsplit with ⟨after', hrecords, rfl⟩ | ⟨new', -, hnew⟩
    · -- nothing is sent again that was sent again before
      have hnone : later earlier (s.retried lastSequence) = [] := by
        rw [filter_eq_nil_iff]
        intro packet hpacket
        rw [decide_eq_true_eq]
        apply Nat.not_lt.mpr
        refine hagain earlier ?_ packet hpacket
        rw [hrecords]
        exact mem_filterMap.mpr
          ⟨.resumed earlier, mem_append_right _ mem_cons_self, rfl⟩
      have hordered := h.ordered before earlier after' hrecords
      rw [handedIn_append, show handedIn [Record.resumed lastSequence] = [] from rfl,
        append_nil, ← append_assoc, later, filter_append]
      rw [show List.filter _ (s.retried lastSequence) = [] from hnone, append_nil]
      exact hordered
    · cases new' with
      | nil =>
        -- the resume that has just come
        obtain ⟨hlast, rfl⟩ := List.cons.inj hnew
        cases hlast
        rw [show handedIn [] = [] from rfl, nil_append, later, filter_append]
        have hall : List.filter (fun packet => decide (lastSequence < packet.sequence))
            (s.retried lastSequence) = s.retried lastSequence := by
          rw [filter_eq_self]
          intro packet hpacket
          exact (mem_filter.mp hpacket).2
        rw [hall]
        exact hresume
      | cons first new' =>
        have hnil := (List.cons.inj hnew).2
        cases new' <;> cases hnil

theorem step_inOrder (h : ResumeInv records s) (hcondition : s.ResumesInOrder records a)
    (hstep : s.step encode a = some s') : ResumeInv (records ++ s.record a) s' := by
  have hrecord : (∀ lastSequence, s.taken a ≠ some (.retryFrom lastSequence)) →
      s.record a = (s.handedOver a).map .handed := by
    intro hnone
    unfold record
    split
    · next lastSequence htaken => exact absurd htaken (hnone lastSequence)
    · exact append_nil _
  have hnothing : s'.reliable.sent = s.reliable.sent → s.handedOver a = [] := by
    intro hsent
    have hall := (step_cases hstep).sent
    rw [hsent] at hall
    exact self_eq_append_right.mp hall
  unfold ResumesInOrder at hcondition
  cases step_cases hstep with
  | idle htaken hsent _ hretry hwaiting hnext =>
    have hnil := hnothing hsent
    refine resumeInv_handed h (hrecord (by simp [htaken])) ?_ ?_ hnext
    · rw [hnil, hwaiting, nil_append]
    · rw [hretry]
      exact fun _ hmem => .inl hmem
  | numbered packet encoded htaken hencoded hsent _ hretry hwaiting hnext =>
    rw [htaken] at hcondition
    rw [hrecord (by simp [htaken]), hnothing hsent, map_nil, append_nil]
    exact resumeInv_numbered h hcondition hencoded hretry hwaiting hnext
  | requested packet htaken _ _ hretry hwaiting hnext =>
    refine resumeInv_handed h (hrecord (by simp [htaken])) hwaiting ?_ hnext
    rw [hretry]
    exact fun _ hmem => mem_append.mp hmem
  | reported sent retryQueue htaken _ _ henqueued hretry hwaiting hnext =>
    refine resumeInv_handed h (hrecord (by simp [htaken])) hwaiting ?_ hnext
    intro packet hmem
    rw [hretry] at hmem
    -- what is trimmed leaves the retry queue, and nothing else
    have hkept := (retryQueue.trim_spec sent).1.subset hmem
    rw [henqueued] at hkept
    exact mem_append.mp hkept
  | resumed lastSequence htaken hsent _ hretry hwaiting hnext =>
    have hresumed : s.record a = [.resumed lastSequence] := by
      unfold record
      rw [hnothing hsent, htaken]
      rfl
    rw [htaken] at hcondition
    rw [hresumed]
    exact resumeInv_resumed h hcondition.1 hcondition.2 hretry hwaiting hnext

end State

/-- A run whose resumes find no packet waiting that should come after those to be sent again. -/
theorem inOrder_of_resumesInOrder (encode : DataPacket → LiveKit.DataStream.Bytes)
    (run : List Action)
    (hrun : EachStepOn (State.step encode) State.record (fun records s a _ =>
      s.ResumesInOrder records a) [] .new run) :
    Always (State.step encode) State.record (fun records _ => InOrder records) .new run := by
  refine always_of_eachStepOn (I := ResumeInv) (fun _ _ h => h.inOrder) ?_ ?_ hrun
  · intro records s a s' h hstep hcondition
    exact State.step_inOrder h hcondition hstep
  · refine ⟨by decide, ?_, ?_⟩
    · intro _ packet hmem
      cases hmem
    · intro before lastSequence after hrecords
      cases before <;> cases hrecords

/-- A packet is sent once more when nothing waits. -/
theorem inOrder_of_one_packet :
    let encode : DataPacket → LiveKit.DataStream.Bytes :=
      fun packet => [0x80, 0x01, .ofNat packet.sequence]
    let packet : DataPacket := ⟨"", [], 0, "", none⟩
    let run : List Action :=
      [.publishData packet .reliable, .task, .task, .restart 0, .task, .task]
    Always (State.step encode) State.record (fun records _ => InOrder records) .new run ∧
      trace (State.step encode) State.record .new run
        = [.handed ⟨[0x80, 0x01, 1], 1⟩, .resumed 0, .handed ⟨[0x80, 0x01, 1], 1⟩] := by
  intro encode packet run
  refine ⟨inOrder_of_resumesInOrder encode run ?_, by decide⟩
  decide

/-- The second packet has been numbered when the task gets to the resume, so that the first one is
sent again after it. -/
theorem retried_after_queued :
    ¬ ∀ (encode : DataPacket → LiveKit.DataStream.Bytes) (run : List Action),
      Always (State.step encode) State.record (fun records _ => InOrder records) .new run := by
  intro halways
  let encode : DataPacket → LiveKit.DataStream.Bytes :=
    fun packet => [0x80, 0x01, .ofNat packet.sequence]
  let packet : DataPacket := ⟨"", [], 0, "", none⟩
  let run : List Action :=
    [.publishData packet .reliable, .task, .task, .publishData packet .reliable, .restart 0,
      .task, .task, .task, .task]
  obtain ⟨s, hexec⟩ : ∃ s, exec (State.step encode) .new run = some s := ⟨_, rfl⟩
  have hrecords : trace (State.step encode) State.record .new run
      = [.handed ⟨[0x80, 0x01, 1], 1⟩] ++ .resumed 0 ::
        [.handed ⟨[0x80, 0x01, 2], 2⟩, .handed ⟨[0x80, 0x01, 1], 1⟩] := by decide
  have horder := halways encode run run [] s (append_nil run).symm hexec _ 0 _ hrecords
  revert horder
  unfold Increasing
  decide

end LiveKit.RtcSession
