import LiveKit.DataTrack.Track
import LiveKit.DataTrack.Local.Packetizer

/-!
# Publishing pipeline

`local/pipeline.rs`: a frame pushed on a published track is encrypted if the pipeline has an
encryption provider, and then packetized.

`Pipeline.processFrame_ok` says what a successful call did: the frame that it packetized.
-/

namespace LiveKit.DataTrack

/-- `From<DataTrackFrame> for PacketizerFrame` -/
def PacketizerFrame.ofFrame (frame : DataTrackFrame) : PacketizerFrame :=
  ⟨frame.payload, ⟨frame.userTimestamp.map UserTimestampExt.mk, none⟩⟩

/-- `From<EncryptedPayload>` for the extension that carries its metadata. -/
def E2eeExt.ofEncrypted (encrypted : EncryptedPayload) : E2eeExt :=
  ⟨encrypted.keyIndex, encrypted.iv⟩

namespace Local

/-- Pipeline for an individual published data track. -/
structure Pipeline where
  encryptionProvider : Option EncryptionProvider
  packetizer : Packetizer

inductive PipelineError where
  | packetizer (err : PacketizerError)
  | encryption (err : EncryptionError)

namespace Pipeline

/-- Maximum transmission unit (MTU) of the transport. -/
def TRANSPORT_MTU : ℕ := 16000

/-- A new pipeline for a track. The assertion on `uses_e2ee` is for debug builds only. -/
def new (info : DataTrackInfo) (encryptionProvider : Option EncryptionProvider) (now : Instant)
    (base : Timestamp 90000) : Pipeline :=
  ⟨encryptionProvider, Packetizer.new info.pubHandle TRANSPORT_MTU now base⟩

/-- Encrypt the frame's payload if E2EE is enabled for this track. -/
def encryptIfNeeded (p : Pipeline) (st : ProviderState) (frame : PacketizerFrame) :
    Except EncryptionError PacketizerFrame :=
  match p.encryptionProvider with
  | none => .ok frame
  | some e2eeProvider =>
    match e2eeProvider.encrypt st frame.payload with
    | .error err => .error err
    | .ok encrypted =>
      .ok ⟨encrypted.payload, { frame.extensions with e2ee := some (.ofEncrypted encrypted) }⟩

def processFrame (p : Pipeline) (st : ProviderState) (now : Instant) (frame : DataTrackFrame) :
    Except PipelineError (List Packet) × Pipeline :=
  match p.encryptIfNeeded st (.ofFrame frame) with
  | .error err => (.error (.encryption err), p)
  | .ok frame =>
    match p.packetizer.packetize now frame with
    | (.error err, packetizer) => (.error (.packetizer err), { p with packetizer })
    | (.ok packets, packetizer) => (.ok packets, { p with packetizer })

variable {p : Pipeline} {st : ProviderState} {frame frame' : PacketizerFrame}

/-- The user timestamp of a frame is not touched by encryption. -/
theorem encryptIfNeeded_userTimestamp (h : p.encryptIfNeeded st frame = .ok frame') :
    frame'.extensions.userTimestamp = frame.extensions.userTimestamp := by
  unfold encryptIfNeeded at h
  cases hp : p.encryptionProvider with
  | none =>
    simp only [hp, Except.ok.injEq] at h
    rw [h]
  | some e =>
    cases he : e.encrypt st frame.payload with
    | error err => simp [hp, he] at h
    | ok encrypted =>
      simp only [hp, he, Except.ok.injEq] at h
      rw [← h]

/-- With a provider, the payload is the provider's output and the frame says how to decrypt. -/
theorem encryptIfNeeded_of_provider {e : EncryptionProvider} (hp : p.encryptionProvider = some e)
    (h : p.encryptIfNeeded st frame = .ok frame') :
    ∃ encrypted, e.encrypt st frame.payload = .ok encrypted ∧
      frame'.payload = encrypted.payload ∧
      frame'.extensions.e2ee = some (.ofEncrypted encrypted) := by
  unfold encryptIfNeeded at h
  simp only [hp] at h
  cases he : e.encrypt st frame.payload with
  | error err => simp [he] at h
  | ok encrypted =>
    simp only [he, Except.ok.injEq] at h
    exact ⟨encrypted, rfl, by rw [← h], by rw [← h]⟩

/-- A successful call packetizes the encrypted frame, and leaves the provider as it was. -/
theorem processFrame_ok {p' : Pipeline} {now : Instant} {frame : DataTrackFrame}
    {packets : List Packet} (h : p.processFrame st now frame = (.ok packets, p')) :
    ∃ frame', p.encryptIfNeeded st (.ofFrame frame) = .ok frame' ∧
      p.packetizer.packetize now frame' = (.ok packets, p'.packetizer) := by
  unfold processFrame at h
  cases hencrypt : p.encryptIfNeeded st (.ofFrame frame) with
  | error err => simp [hencrypt] at h
  | ok frame' =>
    refine ⟨frame', rfl, ?_⟩
    rw [hencrypt] at h
    rcases hpacketize : p.packetizer.packetize now frame' with ⟨result, packetizer⟩
    simp only [hpacketize] at h
    cases result with
    | error err => simp at h
    | ok ps =>
      simp only [Prod.mk.injEq, Except.ok.injEq] at h
      rw [← h.1, ← h.2]

/-- Processing never changes the provider. -/
@[simp] theorem processFrame_encryptionProvider (p : Pipeline) (st : ProviderState)
    (now : Instant) (frame : DataTrackFrame) :
    (p.processFrame st now frame).2.encryptionProvider = p.encryptionProvider := by
  unfold processFrame
  split
  · rfl
  · split <;> rfl

/-- Nor does it change the limits of the packetizer. -/
theorem processFrame_mtuSize (p : Pipeline) (st : ProviderState) (now : Instant)
    (frame : DataTrackFrame) :
    (p.processFrame st now frame).2.packetizer.mtuSize = p.packetizer.mtuSize := by
  unfold processFrame
  split
  · rfl
  · next frame' hencrypt =>
    obtain ⟨p', hmtu, ⟨he, -⟩ | ⟨ps, he⟩⟩ := p.packetizer.packetize_cases now frame'
    · rw [he]
      exact hmtu
    · rw [he]
      exact hmtu

end Pipeline

end Local

end LiveKit.DataTrack
