import LiveKit.RtcSession.Receive

/-!
# What a run of the session puts on record

For every packet of the reliable channel: the last sequence number that the session finds for its
sender, and what is sent to the engine.
-/

namespace LiveKit.RtcSession

open LiveKit.DataStream (Bytes)
open TransitionSystem

/-! ## Deliveries -/

/-- What is kept on record of a packet that comes over the reliable data channel. -/
structure Delivery where
  packet : DataPacket
  e2eeManager : Option E2eeManager
  /-- What the clock shows. -/
  now : Readings
  /-- The last sequence number that the session finds for the sender. -/
  recorded : Option ℕ
  /-- What is sent to the engine. -/
  emitted : List SessionEvent

/-- The packet that comes over the reliable data channel. -/
def RxAction.delivered (decode : Bytes → Except String DataPacket) :
    RxAction → Option (DataPacket × Option E2eeManager × Readings)
  | .data e2eeManager bytes true .reliable now =>
    match decode bytes with
    | .ok packet => some (packet, e2eeManager, now)
    | .error _ => none
  | _ => none

namespace RxState

variable (decode : Bytes → Except String DataPacket)
  (decodePayload : Bytes → Except String (Option EncryptedValue))

/-- The last sequence number that is found for the sender of the packet. -/
def lastSequence (s : RxState) (packet : DataPacket) (now : Readings) : Option ℕ :=
  (s.packetRxState.get packet.participantSid now.get).1

/-- What a step puts on record. -/
def record (s : RxState) (a : RxAction) : List Delivery :=
  match a.delivered decode, s.step decode decodePayload a with
  | some (packet, e2eeManager, now), some s' =>
    [⟨packet, e2eeManager, now, s.lastSequence packet now, s'.emitted.drop s.emitted.length⟩]
  | _, _ => []

variable {decode decodePayload} {s s' : RxState} {a : RxAction}

/-- How a packet that comes over the reliable data channel is handled. -/
theorem step_delivered {packet : DataPacket} {e2eeManager : Option E2eeManager} {now : Readings}
    (h : a.delivered decode = some (packet, e2eeManager, now)) :
    s.step decode decodePayload a = some ⟨updatePacketRxState s.packetRxState packet now,
      s.emitted ++ packet.events decodePayload e2eeManager .reliable⟩ := by
  unfold RxAction.delivered at h
  split at h
  · next e2eeManager' bytes now' =>
    cases hdecode : decode bytes with
    | error err =>
      rw [hdecode] at h
      cases h
    | ok packet' =>
      rw [hdecode] at h
      cases h
      simp only [step, onRtcEventData, hdecode]
      rfl
  · cases h

/-- A packet becomes events whether it is a duplicate or not. -/
theorem record_eq (hstep : s.step decode decodePayload a = some s') :
    s.record decode decodePayload a = match a.delivered decode with
      | none => []
      | some (packet, e2eeManager, now) =>
        [⟨packet, e2eeManager, now, s.lastSequence packet now,
          packet.events decodePayload e2eeManager .reliable⟩] := by
  unfold record
  rw [hstep]
  cases hdelivered : a.delivered decode with
  | none => rfl
  | some delivered =>
    obtain ⟨packet, e2eeManager, now⟩ := delivered
    rw [step_delivered hdelivered, Option.some.injEq] at hstep
    rw [← hstep]
    show [_] = [_]
    rw [List.drop_left]

end RxState

end LiveKit.RtcSession
