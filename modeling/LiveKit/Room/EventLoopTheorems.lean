import LiveKit.Room.EventLoops

/-!
# What ends an event loop

No message ends the loop of the session. The loop of the room is ended by a transcription about
something that cannot be the `sid` of a track, and by no other event of a data packet.
-/

namespace LiveKit.EventLoops

open LiveKit.DataStream (Bytes EncryptionType)
open LiveKit.Publications (TrackSid)
open List LiveKit.RtcSession
open TransitionSystem

/-! ## The session -/

/-- What is looked up a second time is there. -/
theorem ttlMapGet_eq {K V : Type} [DecidableEq K] (m : TtlMap K V) (k : K) (now : ℕ) :
    ttlMapGet m k now = some (m.get k now) := by
  unfold ttlMapGet TtlMap.get
  cases hentry : AList.lookup k m.inner with
  | none => rfl
  | some entry =>
    rw [Option.map_some]
    dsimp only
    by_cases hexpired : entry.expiresAt < now
    · rw [if_pos hexpired, if_pos hexpired]
    · rw [if_neg hexpired, if_neg hexpired]
      rfl

theorem updatePacketRxState_eq (rxState : TtlMap String ℕ) (packet : DataPacket) (now : Readings) :
    updatePacketRxState rxState packet now =
      some (RtcSession.updatePacketRxState rxState packet now) := by
  unfold updatePacketRxState RtcSession.updatePacketRxState
  by_cases hskip : packet.sequence ≤ 0 ∨ packet.participantSid = ""
  · rw [if_pos hskip, if_pos hskip]
  · rw [if_neg hskip, if_neg hskip, ttlMapGet_eq]
    rfl

variable (codec : Codec)

/-- The session handles every message without a panic. -/
theorem onRtcEventData_eq (s : RxState) (e2eeManager : Option E2eeManager) (data : Bytes)
    (binary : Bool) (kind : DataPacketKind) (now : Readings) :
    onRtcEventData codec s e2eeManager data binary kind now =
      some
        (s.onRtcEventData codec.decode codec.decodePayload e2eeManager data binary kind now) := by
  unfold onRtcEventData RxState.onRtcEventData
  by_cases hbinary : ¬ binary = true
  · rw [if_pos hbinary, if_pos hbinary]
  · rw [if_neg hbinary, if_neg hbinary]
    cases codec.decode data with
    | error err => rfl
    | ok packet =>
      dsimp only
      by_cases hkind : kind = .reliable
      · rw [if_pos hkind, if_pos hkind, updatePacketRxState_eq]
        rfl
      · rw [if_neg hkind, if_neg hkind]
        rfl

/-- What a message does to the session. -/
theorem onRtcEventData_cases {s s' : RxState} {e2eeManager : Option E2eeManager} {data : Bytes}
    {binary : Bool} {kind : DataPacketKind} {now : Readings}
    (h : s.onRtcEventData codec.decode codec.decodePayload e2eeManager data binary kind now =
      .ok s') : ∃ packet, codec.decode data = .ok packet ∧
        s'.emitted = s.emitted ++ packet.events codec.decodePayload e2eeManager kind := by
  unfold RxState.onRtcEventData at h
  split at h
  · cases h
  · split at h
    · cases h
    · next packet hpacket =>
      cases h
      exact ⟨packet, hpacket, rfl⟩

/-! ## The room -/

/-- A transcription about what can be the `sid` of a track. -/
def Harmless : SessionEvent → Prop
  | .transcription _ trackSid _ => HasTrackPrefix trackSid
  | _ => True

/-- The room handles all other events of data packets without a panic. -/
theorem onEngineEvent_isSome (s : RoomSession) (first : ℕ) (event : SessionEvent) :
    (s.onEngineEvent first event).isSome = true ↔ Harmless event := by
  cases event with
  | transcription identity trackSid segments =>
    show (s.handleTranscription identity trackSid segments).isSome = true ↔ HasTrackPrefix trackSid
    unfold RoomSession.handleTranscription TrackSid.tryFrom
    dsimp only
    -- `unwrap` on what is no `sid` of a track
    by_cases hprefix : "TR_".toList <+: trackSid.toList
    · rw [dif_pos hprefix]
      exact iff_of_true rfl hprefix
    · rw [dif_neg hprefix]
      exact iff_of_false Bool.false_ne_true hprefix
  | rpcRequest callerIdentity =>
    refine iff_of_true ?_ trivial
    unfold RoomSession.onEngineEvent
    cases callerIdentity <;> rfl
  | _ => exact iff_of_true rfl trivial

/-! ## The loops -/

section

variable {s s' : State} {a : Action}

/-- What a step can do: only the room can panic. -/
theorem step_cases (h : step codec s a = some s') :
    (∃ e2eeManager data binary kind now, a = .data e2eeManager data binary kind now ∧
      s.rtcSessionTask = true ∧ (s' = s ∨ ∃ session,
        s.session.onRtcEventData codec.decode codec.decodePayload e2eeManager data binary kind now =
          .ok session ∧ s' = { s with session })) ∨
    (∃ event emitted, a = .engine ∧ s.session.emitted = event :: emitted ∧
      s' = { s with
        session := { s.session with emitted }
        engineEvents := s.engineEvents ++ [event] }) ∨
    (∃ first event engineEvents, a = .room first ∧ s.roomTask = true ∧
      s.engineEvents = event :: engineEvents ∧
      (Harmless event ∧ (∃ room, s' = { s with engineEvents, room }) ∨
        ¬ Harmless event ∧ s' = { s with engineEvents, roomTask := false })) ∨
    ∃ room, a = .other room ∧ s' = { s with room } := by
  cases a with
  | data e2eeManager data binary kind now =>
    left
    unfold step at h
    rw [Option.ite_none_right_eq_some, onRtcEventData_eq] at h
    obtain ⟨hrunning, h⟩ := h
    refine ⟨e2eeManager, data, binary, kind, now, rfl, hrunning, ?_⟩
    cases hhandled : s.session.onRtcEventData codec.decode codec.decodePayload e2eeManager data
      binary kind now with
    | error err =>
      rw [hhandled] at h
      exact .inl (Option.some.inj h).symm
    | ok session =>
      rw [hhandled] at h
      exact .inr ⟨session, rfl, (Option.some.inj h).symm⟩
  | engine =>
    right; left
    unfold step at h
    dsimp only at h
    split at h
    · cases h
    · next event emitted hemitted =>
      exact ⟨event, emitted, rfl, hemitted, (Option.some.inj h).symm⟩
  | room first =>
    right; right; left
    unfold step at h
    rw [Option.ite_none_right_eq_some] at h
    obtain ⟨hrunning, h⟩ := h
    split at h
    · cases h
    · next event engineEvents hevents =>
      refine ⟨first, event, engineEvents, rfl, hrunning, hevents, ?_⟩
      -- a panic ends the task of the room
      have hiff := onEngineEvent_isSome s.room first event
      split at h
      · next hnone =>
        rw [hnone] at hiff
        exact .inr ⟨fun hharmless => Bool.false_ne_true (hiff.mpr hharmless),
          (Option.some.inj h).symm⟩
      · next room hsome =>
        rw [hsome] at hiff
        exact .inl ⟨hiff.mp rfl, room, (Option.some.inj h).symm⟩
  | other room =>
    right; right; right
    exact ⟨room, rfl, (Option.some.inj h).symm⟩

theorem transcriptionsNameTracks_iff {first : ℕ} {event : SessionEvent}
    {engineEvents : List SessionEvent} (h : s.engineEvents = event :: engineEvents) :
    TranscriptionsNameTracks s (.room first) s' ↔ Harmless event := by
  unfold TranscriptionsNameTracks
  dsimp only
  rw [h, head?_cons]
  cases event with
  | transcription identity trackSid segments =>
    constructor
    · intro hall
      exact hall identity trackSid segments rfl
    · intro hprefix _ _ _ heq
      cases heq
      exact hprefix
  | _ => exact iff_of_true (fun _ _ _ heq => by cases heq) trivial

/-- The loops go on if and only if the room takes no transcription about something else. -/
theorem running_step (hrunning : Running s) (h : step codec s a = some s') :
    TranscriptionsNameTracks s a s' ∧ Running s' ∨
      ¬ TranscriptionsNameTracks s a s' ∧ ¬ Running s' := by
  rcases step_cases codec h with ⟨_, _, _, _, _, rfl, -, rfl | ⟨session, -, rfl⟩⟩ |
    ⟨_, _, rfl, -, rfl⟩ | ⟨first, event, engineEvents, rfl, -, hevents, hor⟩ | ⟨_, rfl, rfl⟩
  · exact .inl ⟨trivial, hrunning⟩
  · exact .inl ⟨trivial, hrunning⟩
  · exact .inl ⟨trivial, hrunning⟩
  · rw [transcriptionsNameTracks_iff hevents]
    rcases hor with ⟨hharmless, room, rfl⟩ | ⟨hnot, rfl⟩
    · exact .inl ⟨hharmless, hrunning⟩
    · exact .inr ⟨hnot, fun hafter => Bool.false_ne_true hafter.2⟩
  · exact .inl ⟨trivial, hrunning⟩

/-! ## Messages -/

/-- No transcription comes out of an encrypted packet, and one that is not about a track comes of
no message that is about one. -/
theorem harmless_of_packet {packet : DataPacket} {e2eeManager : Option E2eeManager}
    {kind : DataPacketKind} (hnames : ∀ transcription,
      packet.value = some (.transcription transcription) → HasTrackPrefix transcription.trackId) :
    ∀ event ∈ packet.events codec.decodePayload e2eeManager kind, Harmless event := by
  have hplain : ∀ (value : Value) (sid : Option ParticipantSid)
      (identity : Option ParticipantIdentity) (encryptionType : EncryptionType),
      (∀ transcription, value = .transcription transcription →
        HasTrackPrefix transcription.trackId) →
      ∀ event ∈ emitPlainPacket kind sid identity encryptionType value, Harmless event := by
    intro value sid identity encryptionType hvalue event hmem
    cases value with
    | transcription transcription =>
      obtain rfl := mem_singleton.mp hmem
      exact hvalue transcription rfl
    | rpcResponse response =>
      obtain ⟨requestId, value⟩ := response
      rcases value with _ | _ | _ | _ <;>
        exact mem_singleton.mp hmem ▸ trivial
    | speaker | metrics | encryptedPacket => exact absurd hmem not_mem_nil
    | _ => exact mem_singleton.mp hmem ▸ trivial
  intro event hmem
  unfold DataPacket.events at hmem
  cases hvalue : packet.value with
  | none =>
    rw [hvalue] at hmem
    exact absurd hmem not_mem_nil
  | some value =>
    rw [hvalue] at hmem
    dsimp only at hmem
    unfold emitIncomingPacket at hmem
    split at hmem
    · split at hmem
      · exact absurd hmem not_mem_nil
      · split at hmem
        · exact absurd hmem not_mem_nil
        · split at hmem
          · next decrypted _ =>
            -- no transcription is among the values that can be encrypted
            refine hplain _ _ _ _ ?_ event hmem
            intro transcription heq
            cases decrypted <;> cases heq
          · exact absurd hmem not_mem_nil
          · exact absurd hmem not_mem_nil
    · refine hplain _ _ _ _ ?_ event hmem
      rintro transcription rfl
      exact hnames transcription hvalue

/-- The messages of a run so far name tracks, and both loops go on. -/
structure Quiet (s : State) : Prop where
  running : Running s
  emitted : ∀ event ∈ s.session.emitted, Harmless event
  engineEvents : ∀ event ∈ s.engineEvents, Harmless event

theorem Quiet.step (hquiet : Quiet s) (h : EventLoops.step codec s a = some s')
    (hnames : ∀ e2eeManager data binary kind now, a = .data e2eeManager data binary kind now →
      NamesTrack codec data) : Quiet s' := by
  rcases step_cases codec h with ⟨e2eeManager, data, binary, kind, now, rfl, -, hor⟩ |
    ⟨event, emitted, rfl, hemitted, rfl⟩ | ⟨first, event, engineEvents, rfl, -, hevents, hor⟩ |
    ⟨_, rfl, rfl⟩
  · rcases hor with rfl | ⟨session, hhandled, rfl⟩
    · exact hquiet
    · obtain ⟨packet, hpacket, hemitted⟩ := onRtcEventData_cases codec hhandled
      refine ⟨hquiet.running, ?_, hquiet.engineEvents⟩
      intro event hmem
      have hmem' : event ∈ session.emitted := hmem
      rw [hemitted] at hmem'
      rcases mem_append.mp hmem' with hold | hnew
      · exact hquiet.emitted event hold
      · exact harmless_of_packet codec
          (hnames e2eeManager data binary kind now rfl packet hpacket) event hnew
  · refine ⟨hquiet.running, ?_, ?_⟩
    · intro other hmem
      exact hquiet.emitted other (hemitted ▸ mem_cons_of_mem event hmem)
    · intro other hmem
      rcases mem_append.mp hmem with hold | hnew
      · exact hquiet.engineEvents other hold
      · rw [mem_singleton.mp hnew]
        exact hquiet.emitted event (hemitted ▸ mem_cons_self)
  · have hrest : ∀ other ∈ engineEvents, Harmless other := by
      intro other hmem
      exact hquiet.engineEvents other (hevents ▸ mem_cons_of_mem event hmem)
    rcases hor with ⟨-, room, rfl⟩ | ⟨hnot, rfl⟩
    · exact ⟨hquiet.running, hquiet.emitted, hrest⟩
    · exact absurd (hquiet.engineEvents event (hevents ▸ mem_cons_self)) hnot
  · exact ⟨hquiet.running, hquiet.emitted, hquiet.engineEvents⟩

end

/-- Both loops go on for as long as the room takes no transcription about something that cannot be
the `sid` of a track, and not longer. So they do in every run whose messages are no such
transcriptions. -/
theorem running_iff (room : RoomSession) (now : ℕ) (run : List Action) :
    (Throughout (step codec) Running (.new room now) run ↔
      EachStep (step codec) TranscriptionsNameTracks (.new room now) run) ∧
    ((∀ e2eeManager data binary kind now', .data e2eeManager data binary kind now' ∈ run →
        NamesTrack codec data) →
      Throughout (step codec) Running (.new room now) run) := by
  have hnew : Running (.new room now) := ⟨rfl, rfl⟩
  constructor
  · refine throughout_iff_eachStep (I := Running) (fun _ h => h) ?_ hnew run
    intro s a s' hrunning hstep
    exact running_step codec hrunning hstep
  · intro hnames before after s hrun hexec
    have hquiet : Quiet (.new room now) :=
      ⟨hnew, fun _ hmem => absurd hmem not_mem_nil, fun _ hmem => absurd hmem not_mem_nil⟩
    have hbefore : ∀ a ∈ before, ∀ e2eeManager data binary kind now',
        a = .data e2eeManager data binary kind now' → NamesTrack codec data := by
      rintro a hmem e2eeManager data binary kind now' rfl
      exact hnames e2eeManager data binary kind now' (hrun ▸ mem_append_left after hmem)
    have hafter : Quiet s := by
      refine exec_invariant_of_labels (I := Quiet) ?_ hquiet hbefore hexec
      intro m a m' hm hlabel hstep
      exact hm.step codec hstep hlabel
    exact hafter.running

/-- A transcription about the track "x" ends the loop of an empty room. -/
theorem transcription_ends_room_task :
    let codec : Codec := ⟨fun _ => .ok ⟨"bob", [], 0, "", some (.transcription ⟨"bob", "x", []⟩)⟩,
      fun _ => .ok none⟩
    let room : RoomSession := ⟨⟨"alice", ∅⟩, ∅, .new, .new, [], []⟩
    let run : List Action := [.data none [] true .reliable ⟨0, 0, 0⟩, .engine, .room 0]
    (exec (step codec) (.new room 0) run).map State.roomTask = some false ∧
      ¬ Throughout (step codec) Running (.new room 0) run := by
  intro codec room run
  have hended : (exec (step codec) (.new room 0) run).map State.roomTask = some false := by
    decide +kernel
  refine ⟨hended, fun hthroughout => ?_⟩
  obtain ⟨s, hs, hroom⟩ := Option.map_eq_some_iff.mp hended
  have hrunning := (hthroughout run [] s (append_nil _).symm hs).2
  rw [hroom] at hrunning
  exact Bool.false_ne_true hrunning

end LiveKit.EventLoops
