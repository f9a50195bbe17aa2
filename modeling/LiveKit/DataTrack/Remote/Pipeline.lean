import LiveKit.DataTrack.Track
import LiveKit.DataTrack.Remote.Depacketizer

/-!
# Subscription pipeline

`remote/pipeline.rs`: packets received on a subscribed track are reassembled into frames, and
a frame's payload is decrypted if the pipeline has a decryption provider.

`Pipeline.processPacket_of_provider` says where a delivered payload comes from in that case.
-/

namespace LiveKit.DataTrack

/-- `From<DepacketizerFrame> for DataTrackFrame` -/
def DataTrackFrame.ofDepacketized (frame : DepacketizerFrame) : DataTrackFrame :=
  ⟨frame.payload, frame.extensions.userTimestamp.map (·.value)⟩

namespace Remote

/-- Pipeline for an individual data track subscription. -/
structure Pipeline where
  publisherIdentity : String
  e2eeProvider : Option DecryptionProvider
  depacketizer : Depacketizer

namespace Pipeline

/-- A new pipeline for a track. The assertion on `uses_e2ee` is for debug builds only. -/
def new (publisherIdentity : String) (decryptionProvider : Option DecryptionProvider) :
    Pipeline :=
  ⟨publisherIdentity, decryptionProvider, Depacketizer.new⟩

/-- Depacketize the given packet; drops are only logged. -/
def depacketize (p : Pipeline) (packet : Packet) : Option DepacketizerFrame × Pipeline :=
  let (result, depacketizer) := p.depacketizer.push packet
  (result.frame, { p with depacketizer })

/-- Decrypt the frame's payload if E2EE is enabled for this track. -/
def decryptIfNeeded (p : Pipeline) (st : ProviderState) (frame : DepacketizerFrame) :
    Option DepacketizerFrame :=
  match p.e2eeProvider with
  | none => some frame
  | some decryption =>
    match frame.extensions.e2ee with
    | none => none
    | some e2ee =>
      match decryption.decrypt st ⟨frame.payload, e2ee.iv, e2ee.keyIndex⟩ p.publisherIdentity with
      | .error _ => none
      | .ok decrypted => some { frame with payload := decrypted }

def processPacket (p : Pipeline) (st : ProviderState) (packet : Packet) :
    Option DataTrackFrame × Pipeline :=
  match p.depacketize packet with
  | (none, p) => (none, p)
  | (some frame, p) =>
    match p.decryptIfNeeded st frame with
    | none => (none, p)
    | some frame => (some (.ofDepacketized frame), p)

theorem depacketize_eq (p : Pipeline) (packet : Packet) :
    p.depacketize packet
      = ((p.depacketizer.push packet).1.frame,
          { p with depacketizer := (p.depacketizer.push packet).2 }) := rfl

/-- Only the depacketizer of a pipeline changes. -/
theorem processPacket_pipeline (p : Pipeline) (st : ProviderState) (packet : Packet) :
    (p.processPacket st packet).2
      = { p with depacketizer := (p.depacketizer.push packet).2 } := by
  unfold processPacket
  rw [depacketize_eq]
  cases (p.depacketizer.push packet).1.frame with
  | none => rfl
  | some frame =>
    simp only
    split <;> rfl

/-- What is delivered for the outcome of a push. -/
def deliver (p : Pipeline) (st : ProviderState) (frame : Option DepacketizerFrame) :
    Option DataTrackFrame :=
  (frame.bind fun frame => p.decryptIfNeeded st frame).map .ofDepacketized

theorem processPacket_frame (p : Pipeline) (st : ProviderState) (packet : Packet) :
    (p.processPacket st packet).1 = p.deliver st (p.depacketizer.push packet).1.frame := by
  unfold processPacket deliver
  rw [depacketize_eq]
  cases hframe : (p.depacketizer.push packet).1.frame with
  | none => rfl
  | some frame =>
    simp only [Option.bind_some]
    have hsame : Pipeline.decryptIfNeeded { p with depacketizer := (p.depacketizer.push packet).2 }
        st frame = p.decryptIfNeeded st frame := rfl
    rw [hsame]
    cases p.decryptIfNeeded st frame <;> rfl

/-- With a provider, what is delivered is what the provider decrypted, from a frame that says
how it was encrypted. -/
theorem decryptIfNeeded_of_provider {p : Pipeline} {d : DecryptionProvider} {st : ProviderState}
    {frame frame' : DepacketizerFrame} (hp : p.e2eeProvider = some d)
    (h : p.decryptIfNeeded st frame = some frame') :
    ∃ e2ee, frame.extensions.e2ee = some e2ee ∧
      d.decrypt st ⟨frame.payload, e2ee.iv, e2ee.keyIndex⟩ p.publisherIdentity
        = .ok frame'.payload := by
  unfold decryptIfNeeded at h
  simp only [hp] at h
  cases he : frame.extensions.e2ee with
  | none => simp [he] at h
  | some e2ee =>
    refine ⟨e2ee, rfl, ?_⟩
    cases hd : d.decrypt st ⟨frame.payload, e2ee.iv, e2ee.keyIndex⟩ p.publisherIdentity with
    | error err => simp [he, hd] at h
    | ok decrypted =>
      simp only [he, hd, Option.some.injEq] at h
      rw [← h]

/-- Process packets one after the other, each with the provider's state of its own. -/
def processPackets (p : Pipeline) : List (ProviderState × Packet) →
    List (Option DataTrackFrame) × Pipeline
  | [] => ([], p)
  | (st, packet) :: rest =>
    let (frame, p) := p.processPacket st packet
    let (frames, p) := p.processPackets rest
    (frame :: frames, p)

/-- The frames of a sequence of packets are those of the depacketizer, each decrypted. -/
theorem processPackets_eq (p : Pipeline) (inputs : List (ProviderState × Packet)) :
    (p.processPackets inputs).1
      = List.zipWith p.deliver (inputs.map Prod.fst)
          ((p.depacketizer.pushAll (inputs.map Prod.snd)).1.map (·.frame)) := by
  induction inputs generalizing p with
  | nil => rfl
  | cons input rest ih =>
    obtain ⟨st, packet⟩ := input
    have hrest := ih (p.processPacket st packet).2
    rw [List.map_cons, List.map_cons, Depacketizer.pushAll_cons, List.map_cons,
      List.zipWith_cons_cons, ← processPacket_frame]
    show (p.processPacket st packet).1
      :: ((p.processPacket st packet).2.processPackets rest).1 = _
    rw [hrest, processPacket_pipeline]
    -- the provider and the identity are those of `p`
    rfl

end Pipeline

end Remote

end LiveKit.DataTrack
