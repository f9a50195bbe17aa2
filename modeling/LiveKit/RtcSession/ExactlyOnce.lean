import LiveKit.RtcSession.ReceiveTheorems

/-!
# Reliable packets that come more than once

The session keeps the last sequence number of each sender, and looks at it when a packet comes. A
packet that is found to be a duplicate does not change it, but becomes an event all the same.
-/

namespace LiveKit.RtcSession

open LiveKit.DataStream (Bytes)
open List TransitionSystem

/-- The sequence numbers of the packets of the sender that become events. -/
def sequencesOf (sid : String) (deliveries : List Delivery) : List ℕ :=
  (deliveries.filter fun delivery => delivery.packet.participantSid = sid
    ∧ 0 < delivery.packet.sequence ∧ ¬ delivery.emitted.isEmpty).map fun delivery =>
      delivery.packet.sequence

structure ExactlyOnce (deliveries : List Delivery) : Prop where
  increasing : ∀ sid, (sequencesOf sid deliveries).Pairwise (· < ·)
  noDuplicate : ∀ delivery ∈ deliveries, ∀ last, delivery.recorded = some last →
    delivery.packet.sequence ≤ last → delivery.emitted = []

variable {deliveries : List Delivery}

theorem mem_sequencesOf {sid : String} {sequence : ℕ} :
    sequence ∈ sequencesOf sid deliveries ↔ ∃ delivery ∈ deliveries,
      delivery.packet.participantSid = sid ∧ 0 < delivery.packet.sequence ∧
        delivery.emitted ≠ [] ∧ delivery.packet.sequence = sequence := by
  unfold sequencesOf
  rw [List.mem_map]
  refine exists_congr fun delivery => ?_
  rw [List.mem_filter, decide_eq_true_eq, List.isEmpty_iff, and_assoc, and_assoc, and_assoc]

/-- What one more packet must be like. -/
def Delivery.InOrder (delivery : Delivery) (deliveries : List Delivery) : Prop :=
  (∀ last, delivery.recorded = some last → last < delivery.packet.sequence) ∧
    (0 < delivery.packet.sequence → ∀ earlier ∈ deliveries,
      earlier.packet.participantSid = delivery.packet.participantSid → earlier.emitted ≠ [] →
        earlier.packet.sequence < delivery.packet.sequence)

theorem sequencesOf_append (sid : String) (deliveries : List Delivery) (delivery : Delivery) :
    sequencesOf sid (deliveries ++ [delivery]) = sequencesOf sid deliveries
      ++ sequencesOf sid [delivery] := by
  unfold sequencesOf
  rw [filter_append, map_append]

theorem exactlyOnce_append (h : ExactlyOnce deliveries) (delivery : Delivery) :
    ExactlyOnce (deliveries ++ [delivery]) ↔
      (delivery.emitted ≠ [] → delivery.InOrder deliveries) := by
  constructor
  · intro hafter hemitted
    refine ⟨?_, ?_⟩
    · intro last hlast
      by_contra hle
      apply hemitted
      apply hafter.noDuplicate delivery (mem_append_right _ (mem_singleton_self _)) last
        hlast
      omega
    · intro hpos earlier hearlier hsid hevents
      have hincreasing := hafter.increasing delivery.packet.participantSid
      rw [sequencesOf_append, pairwise_append] at hincreasing
      -- a packet without a number is ahead of every other; one with a number is on record
      by_cases hzero : earlier.packet.sequence = 0
      · omega
      · apply hincreasing.2.2 _ _ _ _
        · rw [mem_sequencesOf]
          exact ⟨earlier, hearlier, hsid, Nat.pos_of_ne_zero hzero, hevents, rfl⟩
        · rw [mem_sequencesOf]
          exact ⟨delivery, mem_singleton_self _, rfl, hpos, hemitted, rfl⟩
  · intro hinOrder
    refine ⟨?_, ?_⟩
    · intro sid
      rw [sequencesOf_append, pairwise_append]
      refine ⟨h.increasing sid, ?_, ?_⟩
      · -- there is at most one
        unfold sequencesOf
        exact (pairwise_singleton _ _).sublist (filter_sublist.map _)
      · intro sequence hsequence sequence' hsequence'
        obtain ⟨earlier, hearlier, hsid, -, hevents, rfl⟩ := mem_sequencesOf.mp hsequence
        obtain ⟨latest, hlatest, hsid', hpos, hemitted, rfl⟩ := mem_sequencesOf.mp hsequence'
        rw [mem_singleton.mp hlatest] at hsid' hpos hemitted ⊢
        exact (hinOrder hemitted).2 hpos earlier hearlier (hsid.trans hsid'.symm) hevents
    · intro latest hlatest last hlast hle
      rcases mem_append.mp hlatest with hold | hnew
      · exact h.noDuplicate latest hold last hlast hle
      · rw [mem_singleton.mp hnew] at hlast hle ⊢
        by_contra hemitted
        have hlt := (hinOrder hemitted).1 last hlast
        omega

/-! ## The runs -/

namespace RxState

variable (decode : Bytes → Except String DataPacket)
  (decodePayload : Bytes → Except String (Option EncryptedValue))

/-- A packet that becomes an event is not a duplicate of what is on record of its sender, and comes
after the earlier ones that became events. -/
def Fresh (s : RxState) (deliveries : List Delivery) (a : RxAction) : Prop :=
  match a.delivered decode with
  | none => True
  | some (packet, e2eeManager, now) =>
    packet.events decodePayload e2eeManager .reliable ≠ [] →
      (∀ last, s.lastSequence packet now = some last → last < packet.sequence) ∧
        (0 < packet.sequence → ∀ earlier ∈ deliveries,
          earlier.packet.participantSid = packet.participantSid →
          earlier.packet.events decodePayload earlier.e2eeManager .reliable ≠ [] →
            earlier.packet.sequence < packet.sequence)

variable {decode decodePayload} {s s' : RxState} {a : RxAction}

/-- What is on record is exactly what comes of the packets, and has come once so far. -/
structure OnceInv (decodePayload : Bytes → Except String (Option EncryptedValue))
    (deliveries : List Delivery) : Prop where
  once : ExactlyOnce deliveries
  events : ∀ delivery ∈ deliveries, delivery.emitted
    = delivery.packet.events decodePayload delivery.e2eeManager .reliable

/-- A step either delivers a fresh packet, or one that breaks the property. -/
theorem step_exactlyOnce (h : OnceInv decodePayload deliveries)
    (hstep : s.step decode decodePayload a = some s') :
    s.Fresh decode decodePayload deliveries a ∧
        OnceInv decodePayload (deliveries ++ s.record decode decodePayload a) ∨
      ¬ s.Fresh decode decodePayload deliveries a ∧
        ¬ ExactlyOnce (deliveries ++ s.record decode decodePayload a) := by
  rw [record_eq hstep]
  unfold Fresh
  cases a.delivered decode with
  | none =>
    refine .inl ⟨trivial, ?_⟩
    rw [append_nil]
    exact h
  | some delivered =>
    obtain ⟨packet, e2eeManager, now⟩ := delivered
    have hfresh := exactlyOnce_append h.once ⟨packet, e2eeManager, now, s.lastSequence packet now,
      packet.events decodePayload e2eeManager .reliable⟩
    unfold Delivery.InOrder at hfresh
    -- what the earlier packets became is what can be told from the packets
    have hearlier : ∀ earlier ∈ deliveries, (earlier.emitted ≠ [] ↔
        earlier.packet.events decodePayload earlier.e2eeManager .reliable ≠ []) := by
      intro earlier hmem
      rw [h.events earlier hmem]
    by_cases honce : ExactlyOnce (deliveries ++ [⟨packet, e2eeManager,
        now, s.lastSequence packet now, packet.events decodePayload e2eeManager .reliable⟩])
    · refine .inl ⟨?_, honce, ?_⟩
      · intro hevents
        obtain ⟨hlast, hinOrder⟩ := hfresh.mp honce hevents
        refine ⟨hlast, ?_⟩
        intro hpos earlier hmem hsid hemitted
        exact hinOrder hpos earlier hmem hsid ((hearlier earlier hmem).mpr hemitted)
      · intro delivery hmem
        rcases mem_append.mp hmem with hold | hnew
        · exact h.events delivery hold
        · rw [mem_singleton.mp hnew]
    · refine .inr ⟨?_, honce⟩
      intro hcondition
      apply honce
      apply hfresh.mpr
      intro hevents
      obtain ⟨hlast, hinOrder⟩ := hcondition hevents
      refine ⟨hlast, ?_⟩
      intro hpos earlier hmem hsid hemitted
      exact hinOrder hpos earlier hmem hsid ((hearlier earlier hmem).mp hemitted)

/-- The packets of a run become events once, in order, if those that become events come once and in
order, and otherwise they do not. -/
theorem exactlyOnce_iff (decode : Bytes → Except String DataPacket)
    (decodePayload : Bytes → Except String (Option EncryptedValue)) (now : ℕ)
    (run : List RxAction) :
    Always (step decode decodePayload) (record decode decodePayload)
        (fun deliveries _ => ExactlyOnce deliveries) (.new now) run ↔
      EachStepOn (step decode decodePayload) (record decode decodePayload)
        (fun deliveries s a _ => s.Fresh decode decodePayload deliveries a) [] (.new now) run := by
  apply always_iff_eachStepOn (I := fun deliveries _ => OnceInv decodePayload deliveries)
  · intro deliveries _ h
    exact h.once
  · intro deliveries s a s' h hstep
    exact step_exactlyOnce h hstep
  · refine ⟨⟨?_, ?_⟩, ?_⟩
    · intro sid
      exact List.Pairwise.nil
    · intro delivery hmem
      cases hmem
    · intro delivery hmem
      cases hmem

/-- The server sends a packet once more, within a second. -/
theorem duplicate_emitted :
    ¬ ∀ (decode : Bytes → Except String DataPacket)
        (decodePayload : Bytes → Except String (Option EncryptedValue)) (now : ℕ)
        (run : List RxAction),
      Always (step decode decodePayload) (record decode decodePayload)
        (fun deliveries _ => ExactlyOnce deliveries) (.new now) run := by
  intro halways
  let packet : DataPacket := ⟨"", [], 1, "PA_a", some (.rpcAck ⟨"r"⟩)⟩
  let decode : Bytes → Except String DataPacket := fun _ => .ok packet
  let decodePayload : Bytes → Except String (Option EncryptedValue) := fun _ => .ok none
  let second : Readings := ⟨10 ^ 9, 10 ^ 9, 10 ^ 9⟩
  let run : List RxAction :=
    [.data none [] true .reliable ⟨0, 0, 0⟩, .data none [] true .reliable second]
  obtain ⟨s, hexec⟩ : ∃ s, exec (step decode decodePayload) (.new 0) run = some s := ⟨_, rfl⟩
  have honce := halways decode decodePayload 0 run run [] s (append_nil run).symm hexec
  have hincreasing := honce.increasing "PA_a"
  revert hincreasing
  decide

end RxState

end LiveKit.RtcSession
