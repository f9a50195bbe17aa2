import LiveKit.DataTrack.Local.SystemTheorems
import LiveKit.DataTrack.Packet.Deserialize

/-!
# What leaves encrypted

A manager with an encryption provider asks the SFU to publish its tracks with E2EE. But whether
the pipeline of a track encrypts is decided by what the response of the SFU says about the track.
`encrypted_iff` says when every packet that leaves is ciphertext: no frame may be processed for a
track whose response said that it does not use E2EE.
-/

namespace LiveKit.DataTrack.Local

open AssocMap TransitionSystem

/-- The packets of one frame carry what the provider made of some payload, and how to decrypt
it. -/
def Ciphertext (provider : EncryptionProvider) (packets : List Bytes) : Prop :=
  ∃ st payload encrypted, ∃ ps : List Packet, provider.encrypt st payload = .ok encrypted ∧
    ps.mapM Packet.serialize = .ok packets ∧
    (∀ p ∈ ps, p.header.extensions.e2ee = some (.ofEncrypted encrypted)) ∧
    (ps.map Packet.payload).flatten = encrypted.payload

namespace State

/-- What the step from `s` to `s'` makes available to the transport is ciphertext. -/
def Encrypts (provider : EncryptionProvider) (s s' : State) : Prop :=
  ∀ packets, .packetsAvailable packets ∈ s'.outputs.drop s.outputs.length →
    packets ≠ [] → Ciphertext provider packets

/-- The condition on a step: a frame with a payload that is processed and sent is one of a track
that uses E2EE, as the response of the SFU has it. -/
def ProcessesE2ee (s : State) : Action → Prop
  | .task id (.frame _ _ hasRoom) =>
    ∀ t seen frame frames, AList.lookup id s.tracks = some t → t.phase = .running seen →
      seen ≠ .republishing → t.frames = frame :: frames → frame.payload ≠ [] → hasRoom = true →
      t.info.usesE2ee = true
  | _ => True

/-- The pipeline of a track encrypts if the track uses E2EE. -/
structure E2eeInv (provider : EncryptionProvider) (s : State) : Prop where
  encryptionProvider : s.encryptionProvider = some provider
  pipeline : ∀ id t, AList.lookup id s.tracks = some t →
    t.pipeline.encryptionProvider = (if t.info.usesE2ee then some provider else none)
  mtu : ∀ id t, AList.lookup id s.tracks = some t →
    t.pipeline.packetizer.mtuSize = Pipeline.TRANSPORT_MTU

variable {s s' : State} {a : Action} {provider : EncryptionProvider}

theorem new_e2eeInv (provider : EncryptionProvider) : (new (some provider)).E2eeInv provider where
  encryptionProvider := rfl
  pipeline := by simp [new]
  mtu := by simp [new]

/-! ## The invariant -/

theorem step_encryptionProvider (hstep : s.step a = some s') :
    s'.encryptionProvider = s.encryptionProvider := by
  by_cases ha : a.isManager = false
  · exact (step_other hstep ha).encryptionProvider
  · cases a with
    | manager turn =>
      cases managerTurn hstep with
      | event event rest hmode hqueue s' hturn => cases hturn <;> rfl
      | _ => rfl
    | _ => exact absurd rfl ha

variable {t : TrackState}

variable {id : TrackId} {t' : TrackState} {packets : List Bytes}

theorem TrackChange.usesE2ee (h : TrackChange s a id t t') :
    t'.info.usesE2ee = t.info.usesE2ee := by
  cases h with
  | unpublish | mark => rw [TrackState.send_info]
  | respond turn handle sid =>
    rw [TrackState.send_info]
    rfl
  | use => rfl
  | task move t' ha hinfo => rw [hinfo]

/-- The pipeline of a track is used by its task only, which keeps its limits. -/
theorem pipeline_of_change (hstep : s.step a = some s')
    (ht : a.isManager = false → AList.lookup id s.tracks = some t)
    (ht' : AList.lookup id s'.tracks = some t') (h : TrackChange s a id t t') :
    t'.pipeline.encryptionProvider = t.pipeline.encryptionProvider ∧
      t'.pipeline.packetizer.mtuSize = t.pipeline.packetizer.mtuSize := by
  cases h with
  | unpublish | mark | respond =>
    rw [TrackState.send_pipeline]
    exact ⟨rfl, rfl⟩
  | use => exact ⟨rfl, rfl⟩
  | task move t' ha hinfo hstate hwaiters hprovider =>
    subst ha
    refine ⟨hprovider, ?_⟩
    obtain ⟨u, hu, hturn⟩ := taskTurn hstep
    rw [ht rfl, Option.some.injEq] at hu
    subst hu
    have hput : ∀ {w : TrackState}, s'.tracks = AList.insert id w s.tracks → w = t' := by
      intro w htracks
      rw [htracks, AList.lookup_insert, Option.some.injEq] at ht'
      exact ht'
    cases hturn with
    | process seen frame frames st now =>
      rw [← hput rfl]
      exact t.pipeline.processFrame_mtuSize st now frame
    | _ => rw [← hput rfl]

theorem step_e2eeInv (hs : s.E2eeInv provider) (hstep : s.step a = some s') :
    s'.E2eeInv provider := by
  -- a new track has the provider if its info says so
  have hnew : ∀ id t, AList.lookup id (s.tracksWithNew a) = some t →
      t.pipeline.encryptionProvider = (if t.info.usesE2ee then some provider else none) ∧
      t.pipeline.packetizer.mtuSize = Pipeline.TRANSPORT_MTU ∧
      (a.isManager = false → AList.lookup id s.tracks = some t) := by
    intro id t ht
    unfold tracksWithNew at ht
    split at ht
    · next turn info resultTx hmode =>
      rcases of_lookup_insert ht with ⟨-, rfl⟩ | ⟨-, ht⟩
      · refine ⟨?_, rfl, nofun⟩
        show (if info.usesE2ee then s.encryptionProvider else none) = _
        rw [hs.encryptionProvider]
        rfl
      · exact ⟨hs.pipeline id t ht, hs.mtu id t ht, fun _ => ht⟩
    · exact ⟨hs.pipeline id t ht, hs.mtu id t ht, fun _ => ht⟩
  have hall : ∀ id t', AList.lookup id s'.tracks = some t' →
      t'.pipeline.encryptionProvider = (if t'.info.usesE2ee then some provider else none) ∧
      t'.pipeline.packetizer.mtuSize = Pipeline.TRANSPORT_MTU := by
    intro id t' ht'
    obtain ⟨t, ht, hchange⟩ := (step_tracks hstep).to_some ht'
    obtain ⟨hprovider, hmtu, hold⟩ := hnew id t ht
    rcases hchange with rfl | hchange
    · exact ⟨hprovider, hmtu⟩
    · obtain ⟨hkept, hkept'⟩ := pipeline_of_change hstep hold ht' hchange
      rw [hkept, hkept', TrackChange.usesE2ee hchange]
      exact ⟨hprovider, hmtu⟩
  exact ⟨(step_encryptionProvider hstep).trans hs.encryptionProvider,
    fun id t ht => (hall id t ht).1, fun id t ht => (hall id t ht).2⟩

/-! ## What a step makes available to the transport -/

variable {now : Instant} {st : ProviderState}

/-- A task sends what it makes of the frame that it takes, unless its track is being republished
or the channel of output events is full. -/
theorem frame_outputs {id : TrackId} {hasRoom : Bool}
    (hstep : s.step (.task id (.frame st now hasRoom)) = some s') :
    ∃ t seen frame frames, AList.lookup id s.tracks = some t ∧ t.phase = .running seen ∧
      t.frames = frame :: frames ∧ (seen = .republishing ∧ s'.outputs = s.outputs ∨
        seen ≠ .republishing ∧
          s'.outputs = s.outputs ++ sent hasRoom (t.pipeline.processFrame st now frame).1) := by
  obtain ⟨t, ht, hturn⟩ := taskTurn hstep
  cases hturn with
  | skip frame frames _ _ _ hphase hframes =>
    exact ⟨t, _, frame, frames, ht, hphase, hframes, .inl ⟨rfl, rfl⟩⟩
  | process seen frame frames _ _ _ hphase hseen hframes =>
    exact ⟨t, seen, frame, frames, ht, hphase, hframes, .inr ⟨hseen, rfl⟩⟩

variable {frame : DataTrackFrame}

/-- A task that does not wait for a republication can take a frame. -/
theorem frame_enabled {seen : PublishState} {frames : List DataTrackFrame} (st : ProviderState)
    (now : Instant) (hasRoom : Bool) (ht : AList.lookup id s.tracks = some t)
    (hphase : t.phase = .running seen) (hframes : t.frames = frame :: frames) :
    ∃ s', s.step (.task id (.frame st now hasRoom)) = some s' := by
  simp only [step, taskStep, ht, hphase, hframes]
  split
  · exact ⟨_, rfl⟩
  · exact ⟨_, rfl⟩

/-- Packets become available only when a task takes a frame. -/
theorem packets_of_step (hstep : s.step a = some s')
    (hmem : .packetsAvailable packets ∈ s'.outputs.drop s.outputs.length) :
    ∃ id st now hasRoom, a = .task id (.frame st now hasRoom) := by
  have hsame : s'.outputs ≠ s.outputs := by
    intro hsame
    rw [hsame, List.drop_length] at hmem
    cases hmem
  rcases step_cases hstep with ⟨-, happ⟩ | ⟨turn, rfl, hturn⟩ | ⟨_, _, _, rfl, _, hturn⟩ |
    ⟨id, move, t, rfl, _, hturn⟩
  · cases happ <;> exact absurd rfl hsame
  · obtain ⟨new, houtputs, hnew⟩ := step_outputs hstep
    rw [houtputs, List.drop_left] at hmem
    cases hnew _ hmem with
    | packets packets ha => cases ha
  · cases hturn <;> exact absurd rfl hsame
  · cases hturn with
    | process seen frame frames st now hasRoom => exact ⟨id, st, now, hasRoom, rfl⟩
    | _ => exact absurd rfl hsame

/-! ## The packets of a frame -/

theorem flatten_payloads (header : Header) (packetCount : ℕ) (start : UInt16)
    (chunks : List Bytes) :
    ((chunks.mapIdx fun i c => Packetizer.framePacket header packetCount start i c).map
      Packet.payload).flatten = chunks.flatten := by
  congr 1
  apply List.ext_getElem
  · simp
  · intro i h h'
    simp [Packetizer.framePacket]

variable {pipeline : Pipeline} {ps : List Packet}

/-- With a provider the packets of a frame are ciphertext. -/
theorem ciphertext_of_provider (hprovider : pipeline.encryptionProvider = some provider)
    (hprocess : (pipeline.processFrame st now frame).1 = .ok ps) :
    Ciphertext provider (ps.map fun p => p.header.bytes ++ p.payload) := by
  obtain ⟨frame', hencrypt, hpacketize⟩ :=
    Pipeline.processFrame_ok (show pipeline.processFrame st now frame = (.ok ps, _) from
      Prod.ext hprocess rfl)
  obtain ⟨encrypted, hok, hpayload, he2ee⟩ :=
    Pipeline.encryptIfNeeded_of_provider hprovider hencrypt
  obtain ⟨header, chunks, hflatten, hextensions, -, -, rfl⟩ := Packetizer.packetize_eq hpacketize
  refine ⟨st, _, encrypted, _, hok, mapM_serialize _, ?_, ?_⟩
  · intro p hp
    obtain ⟨i, hi, rfl⟩ := List.mem_mapIdx.mp hp
    show header.extensions.e2ee = _
    rw [hextensions, he2ee]
  · rw [flatten_payloads, hflatten, hpayload]

/-- Serialized packets that are equal were equal. -/
theorem serialize_injective {ps' : List Packet} (h : ps.mapM Packet.serialize = .ok packets)
    (h' : ps'.mapM Packet.serialize = .ok packets) :
    ps = ps' := by
  rw [mapM_serialize, Except.ok.injEq] at h h'
  have hinj : Function.Injective fun p : Packet => p.header.bytes ++ p.payload := by
    intro p p' heq
    obtain ⟨raw, hraw, hread⟩ := p.deserialize_serialize
    obtain ⟨raw', hraw', hread'⟩ := p'.deserialize_serialize
    rw [Packet.serialize_eq, Except.ok.injEq] at hraw hraw'
    have hsame : raw = raw' := by
      rw [← hraw, ← hraw']
      exact heq
    rw [hsame, hread', Except.ok.injEq] at hread
    exact hread.symm
  exact List.map_injective_iff.mpr hinj (h.trans h'.symm)

/-- Without a provider the packets of a frame with a payload are not. -/
theorem plaintext_of_none (provider : EncryptionProvider) (st : ProviderState) (now : Instant)
    (hprovider : pipeline.encryptionProvider = none)
    (hmtu : pipeline.packetizer.mtuSize = Pipeline.TRANSPORT_MTU) (hpayload : frame.payload ≠ []) :
    ∃ ps, (pipeline.processFrame st now frame).1 = .ok ps ∧ ps ≠ [] ∧
      ¬ Ciphertext provider (ps.map fun p => p.header.bytes ++ p.payload) := by
  have hencrypt : pipeline.encryptIfNeeded st (.ofFrame frame) = .ok (.ofFrame frame) := by
    unfold Pipeline.encryptIfNeeded
    rw [hprovider]
  obtain ⟨p', -, ⟨-, hle⟩ | ⟨ps, hpacketize⟩⟩ :=
    pipeline.packetizer.packetize_cases now (.ofFrame frame)
  · rw [hmtu] at hle
    cases hle.not_gt (by decide)
  · obtain ⟨header, chunks, hflatten, hextensions, -, -, hps⟩ :=
      Packetizer.packetize_eq hpacketize
    have hnonempty : ps ≠ [] := by
      intro hnil
      have hchunks : chunks = [] := by
        rw [hnil] at hps
        exact List.mapIdx_eq_nil_iff.mp hps.symm
      rw [hchunks] at hflatten
      exact hpayload hflatten.symm
    refine ⟨ps, ?_, hnonempty, ?_⟩
    · unfold Pipeline.processFrame
      simp only [hencrypt, hpacketize]
    · rintro ⟨st', payload, encrypted, ps', -, hserialize, he2ee, -⟩
      have hsame := serialize_injective hserialize (mapM_serialize ps)
      obtain ⟨p, hp⟩ := List.exists_mem_of_ne_nil ps hnonempty
      have hsome := he2ee p (hsame ▸ hp)
      rw [hps] at hp
      obtain ⟨i, hi, rfl⟩ := List.mem_mapIdx.mp hp
      have hnone : header.extensions.e2ee = none := by rw [hextensions]; rfl
      rw [show (Packetizer.framePacket header _ _ i _).header.extensions.e2ee = none from hnone]
        at hsome
      cases hsome

/-- Without a payload there is no packet. -/
theorem no_packets (hpayload : frame.payload = []) (hprovider : pipeline.encryptionProvider = none)
    (hprocess : (pipeline.processFrame st now frame).1 = .ok ps) : ps = [] := by
  obtain ⟨frame', hencrypt, hpacketize⟩ :=
    Pipeline.processFrame_ok (show pipeline.processFrame st now frame = (.ok ps, _) from
      Prod.ext hprocess rfl)
  have hsame : frame' = .ofFrame frame := by
    unfold Pipeline.encryptIfNeeded at hencrypt
    rw [hprovider] at hencrypt
    exact (Except.ok.inj hencrypt).symm
  exact Packetizer.packetize_nil hpacketize (by rw [hsame]; exact hpayload)

/-! ## Runs -/

theorem encrypts_iff (hs : s.E2eeInv provider) (hstep : s.step a = some s') :
    Encrypts provider s s' ↔ s.ProcessesE2ee a := by
  constructor
  · intro hencrypts
    cases a with
    | task id move =>
      cases move with
      | frame st now hasRoom =>
        intro t seen frame frames ht hphase hseen hframes hpayload hroom
        by_contra hplain
        have hnone : t.pipeline.encryptionProvider = none := by
          rw [hs.pipeline id t ht, if_neg hplain]
        obtain ⟨ps, hprocess, hnonempty, hnot⟩ :=
          plaintext_of_none provider st now hnone (hs.mtu id t ht) hpayload
        obtain ⟨u, seen', frame', frames', hu, hphase', hframes', hcases⟩ := frame_outputs hstep
        cases ht.symm.trans hu
        cases hphase.symm.trans hphase'
        cases hframes.symm.trans hframes'
        have houtputs := (hcases.resolve_left fun h => hseen h.1).2
        rw [hprocess, hroom] at houtputs
        refine hnot (hencrypts _ ?_ (by simpa using hnonempty))
        rw [houtputs, List.drop_left]
        exact List.mem_singleton_self _
      | _ => trivial
    | _ => trivial
  · intro hcond packets hmem hnonempty
    obtain ⟨id, st, now, hasRoom, rfl⟩ := packets_of_step hstep hmem
    obtain ⟨t, seen, frame, frames, ht, hphase, hframes, ⟨-, hsame⟩ | ⟨hseen, he⟩⟩ :=
      frame_outputs hstep
    · rw [hsame, List.drop_length] at hmem
      cases hmem
    · rw [he, List.drop_left] at hmem
      rcases sent_cases hasRoom (t.pipeline.processFrame st now frame).1 with
        ⟨-, hsent⟩ | ⟨ps, hprocess, hroom, hsent⟩
      · rw [hsent] at hmem
        cases hmem
      rw [hsent, List.mem_singleton, OutputEvent.packetsAvailable.injEq] at hmem
      subst hmem
      cases huses : t.info.usesE2ee with
      | true =>
        refine ciphertext_of_provider ?_ hprocess
        rw [hs.pipeline id t ht, huses]
        rfl
      | false =>
        -- then the frame has no payload, and there is no packet
        exfalso
        have hempty : frame.payload = [] := by
          by_contra hpayload
          have htrue := hcond t seen frame frames ht hphase hseen hframes hpayload hroom
          rw [huses] at htrue
          cases htrue
        apply hnonempty
        rw [no_packets hempty _ hprocess]
        · rfl
        · rw [hs.pipeline id t ht, huses]
          rfl

/-- **E2EE is not downgraded.** In every run of a manager with an encryption provider, every
packet that becomes available to the transport is ciphertext of the provider, exactly when no
frame is sent for a track that does not use E2EE according to the response of the SFU. -/
theorem encrypted_iff (provider : EncryptionProvider) (run : List Action) :
    EachStep State.step (fun s _ s' => Encrypts provider s s') (new (some provider)) run
      ↔ EachStep State.step (fun s a _ => s.ProcessesE2ee a) (new (some provider)) run := by
  refine eachStep_iff ?_ ?_ (new_e2eeInv provider)
  · intro s a _ s' hs hstep
    exact encrypts_iff hs hstep
  · intro s a _ s' hs hstep _
    exact step_e2eeInv hs hstep

/-- A provider that flips all bits. -/
def flipProvider : EncryptionProvider where
  encrypt _ payload := .ok ⟨payload.map (~~~ ·), List.Vector.replicate 12 0, 0⟩

/-- The response of the SFU says that the track does not use E2EE: a frame that is pushed on it
leaves as it is. -/
theorem plaintext_sent : ¬ ∀ (provider : EncryptionProvider) (run : List Action),
    EachStep State.step (fun s _ s' => Encrypts provider s s') (new (some provider)) run := by
  intro hall
  let frame : DataTrackFrame := ⟨[0xCA, 0xFE], none⟩
  let before : List Action := publishedRun false ++ [.tryPush 0 frame]
  let last : Action := .task 0 (.frame 0 0 true)
  have hbefore : (exec State.step (new (some flipProvider)) before).map (fun s =>
      (AList.lookup 0 s.tracks).map fun t => decide (t.phase = .running .published ∧
        t.frames = [frame] ∧ t.info.usesE2ee = false)) = some (some true) := by decide
  obtain ⟨s, hs, htrack⟩ := Option.map_eq_some_iff.mp hbefore
  obtain ⟨t, ht, hstate⟩ := Option.map_eq_some_iff.mp htrack
  obtain ⟨hphase, hframes, hplain⟩ := of_decide_eq_true hstate
  have hinv : s.E2eeInv flipProvider := exec_invariant (I := fun s => s.E2eeInv flipProvider)
    (fun s a s' hs hstep => step_e2eeInv hs hstep) (new_e2eeInv flipProvider) hs
  obtain ⟨s', hstep⟩ : ∃ s', s.step last = some s' := frame_enabled 0 0 true ht hphase hframes
  obtain ⟨-, hlast⟩ := (hall flipProvider (before ++ [last])).append hs
  have hcond := (encrypts_iff hinv hstep).mp (hlast _ hstep).1
  have huses := hcond t .published frame [] ht hphase (by simp) hframes (by simp [frame]) rfl
  rw [hplain] at huses
  cases huses

end State

end LiveKit.DataTrack.Local
