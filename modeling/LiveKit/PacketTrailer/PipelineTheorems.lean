import LiveKit.Lib.Components
import LiveKit.PacketTrailer.Pipeline

/-!
# Which metadata survives

What is attached to a frame is what was embedded for it, read as zeros and the largest timestamp are
read, if it is still known; and what was embedded is what was stored last for its millisecond.
-/

namespace LiveKit.PacketTrailer

open EvictingMap List Option TransitionSystem

variable {ssrc : UInt32} {s s' : State} {i : ℕ} {frames : List Shown}

/-! ## What the receiver knows -/

structure Inv (ssrc : UInt32) (s : State) : Prop where
  frames : ∀ packet ∈ s.packets, packet.frame < s.captured.length
  trailers : ∀ packet ∈ s.packets, ∃ payload, packet.encoded.data =
    appendTrailer payload packet.embedded.userTimestamp packet.embedded.frameId
  received : ∀ packet ∈ s.received, packet ∈ s.packets
  distinct : (s.received.map fun packet => packet.encoded.timestamp).Nodup
  active : s.receiver.transformer.recvActiveSsrc = 0 ∨
    s.receiver.transformer.recvActiveSsrc = ssrc
  ordered : EvictingMap.Ordered s.receiver.transformer.recvMap s.receiver.transformer.recvMapOrder
  entries : ∀ rtpTimestamp metadata,
    AList.lookup rtpTimestamp s.receiver.transformer.recvMap = some metadata →
      ∃ packet ∈ s.received, packet.encoded.timestamp = rtpTimestamp ∧
        metadata.userTimestamp = packet.embedded.userTimestamp ∧
        metadata.frameId = packet.embedded.frameId

theorem inv_new (ssrc : UInt32) : Inv ssrc State.new := by
  refine ⟨?_, ?_, ?_, nodup_nil, .inl rfl, ordered_empty, ?_⟩
  · intro packet hmem
    cases hmem
  · intro packet hmem
    cases hmem
  · intro packet hmem
    cases hmem
  · intro rtpTimestamp metadata hlookup
    cases hlookup

theorem transformReceive_of_trailer (t : Transformer Unit) (frame : Frame) {payload : List UInt8}
    {userTimestamp : UInt64} {frameId : UInt32}
    (hdata : frame.data = appendTrailer payload userTimestamp frameId) :
    ∃ out, t.transformReceive frame =
      some (t.storeReceived frame.timestamp ⟨userTimestamp, frameId, frame.ssrc⟩, out) := by
  unfold Transformer.transformReceive
  rw [hdata, extractTrailer_appendTrailer]
  exact ⟨_, rfl⟩

/-- The transformer after a packet with a new timestamp. -/
def State.stored (s : State) (packet : Packet) : Transformer Unit :=
  let t := s.receiver.transformer
  let metadata : PacketTrailerMetadata :=
    ⟨packet.embedded.userTimestamp, packet.embedded.frameId, packet.encoded.ssrc⟩
  let stored := EvictingMap.store kMaxRecvMapEntries t.recvMap t.recvMapOrder
    packet.encoded.timestamp metadata
  { t with recvMap := stored.1, recvMapOrder := stored.2, recvActiveSsrc := packet.encoded.ssrc }

theorem receive_cases (h : Inv ssrc s) (hstep : step ssrc s (.transformReceive i) = some s') :
    ∃ packet, s.packets[i]? = some packet ∧ packet.encoded.ssrc = ssrc ∧
      packet.encoded.timestamp ∉ s.received.map (fun packet => packet.encoded.timestamp) ∧
      AList.lookup packet.encoded.timestamp s.receiver.transformer.recvMap = none ∧
      s' = { s with
        receiver := { s.receiver with transformer := s.stored packet }
        received := s.received ++ [packet] } := by
  obtain ⟨packet, hpacket, hstep⟩ := bind_eq_some_iff.mp hstep
  rw [ite_none_right_eq_some] at hstep
  obtain ⟨⟨hssrc, hnew⟩, hstep⟩ := hstep
  have hlookup : AList.lookup packet.encoded.timestamp s.receiver.transformer.recvMap = none := by
    cases hentry : AList.lookup packet.encoded.timestamp s.receiver.transformer.recvMap with
    | none => rfl
    | some metadata =>
      obtain ⟨other, hmem, htimestamp, -⟩ := h.entries _ metadata hentry
      exact absurd (List.mem_map.mpr ⟨other, hmem, htimestamp⟩) hnew
  refine ⟨packet, hpacket, hssrc, hnew, hlookup, ?_⟩
  obtain ⟨payload, hdata⟩ := h.trailers packet (mem_of_getElem? hpacket)
  obtain ⟨out, hreceive⟩ := transformReceive_of_trailer s.receiver.transformer packet.encoded hdata
  rw [hreceive, storeReceived_eq _ _ _ (hssrc ▸ h.active) h.ordered hlookup] at hstep
  exact (some.inj hstep).symm

theorem inv_receive (h : Inv ssrc s) (hstep : step ssrc s (.transformReceive i) = some s') :
    Inv ssrc s' := by
  obtain ⟨packet, hpacket, hssrc, hnew, -, rfl⟩ := receive_cases h hstep
  refine ⟨h.frames, h.trailers, ?_, ?_, .inr hssrc, store_ordered _ h.ordered _ _, ?_⟩
  · intro other hmem
    rcases mem_append.mp hmem with hold | hlast
    · exact h.received other hold
    · obtain rfl := mem_singleton.mp hlast
      exact mem_of_getElem? hpacket
  · show ((s.received ++ [packet]).map fun packet => packet.encoded.timestamp).Nodup
    rw [map_append, map_singleton]
    refine h.distinct.append (nodup_singleton _) ?_
    rw [disjoint_singleton]
    exact hnew
  · intro rtpTimestamp metadata hlookup
    by_cases hsame : rtpTimestamp = packet.encoded.timestamp
    · rw [hsame] at hlookup ⊢
      have hself : AList.lookup packet.encoded.timestamp (s.stored packet).recvMap =
        some ⟨packet.embedded.userTimestamp, packet.embedded.frameId, packet.encoded.ssrc⟩ :=
        lookup_store_self
      obtain rfl := some.inj (hself.symm.trans hlookup)
      exact ⟨packet, mem_append_right _ (mem_singleton_self _), rfl, rfl, rfl⟩
    · obtain ⟨other, hmem, hother⟩ := h.entries rtpTimestamp metadata
        (lookup_of_store hsame hlookup)
      exact ⟨other, mem_append_left _ hmem, hother⟩

variable {a : Action}

theorem inv_step (h : Inv ssrc s) (hstep : step ssrc s a = some s') : Inv ssrc s' := by
  cases a with
  | capture timestampUs metadata =>
    unfold step at hstep
    rw [ite_none_left_eq_some] at hstep
    obtain rfl := some.inj hstep.2
    refine ⟨fun packet hmem => ?_, h.trailers, h.received, h.distinct, h.active, h.ordered,
      h.entries⟩
    have hlt := h.frames packet hmem
    show packet.frame < (s.captured ++ [_]).length
    rw [length_append]
    omega
  | transformSend i layer =>
    obtain ⟨frame, hframe, heq⟩ := bind_eq_some_iff.mp hstep
    obtain rfl := some.inj heq
    refine ⟨fun packet hmem => ?_, fun packet hmem => ?_, fun packet hmem => ?_, h.distinct,
      h.active, h.ordered, h.entries⟩
    · rcases mem_append.mp hmem with hold | hlast
      · exact h.frames packet hold
      · obtain rfl := mem_singleton.mp hlast
        exact (List.getElem?_eq_some_iff.mp hframe).1
    · rcases mem_append.mp hmem with hold | hlast
      · exact h.trailers packet hold
      · obtain rfl := mem_singleton.mp hlast
        exact ⟨layer.data, rfl⟩
    · exact mem_append_left _ (h.received packet hmem)
  | transformReceive i => exact inv_receive h hstep
  | onFrame rtpTimestamp =>
    unfold step at hstep
    rw [ite_none_right_eq_some] at hstep
    obtain rfl := some.inj hstep.2
    have hreceiver := onFrame_snd s.receiver rtpTimestamp h.ordered
    refine ⟨h.frames, h.trailers, h.received, h.distinct, ?_, ?_, ?_⟩
    · rw [hreceiver]
      exact h.active
    · rw [hreceiver]
      exact erase_ordered h.ordered rtpTimestamp
    · intro other metadata hlookup
      rw [hreceiver] at hlookup
      exact h.entries other metadata (AssocMap.of_lookup_erase hlookup).2

/-! ## What is shown -/

/-- The packet that arrived with a timestamp. -/
theorem received_unique (h : Inv ssrc s) {packet other : Packet} (hpacket : packet ∈ s.received)
    (hother : other ∈ s.received) (hsame : other.encoded.timestamp = packet.encoded.timestamp) :
    other = packet :=
  inj_on_of_nodup_map h.distinct hother hpacket hsame

theorem faithful_iff (embedded : PacketTrailerMetadata) (metadata : Option FrameMetadata)
    (entry : Option PacketTrailerMetadata)
    (hentry : ∀ found, entry = some found →
      found.userTimestamp = embedded.userTimestamp ∧ found.frameId = embedded.frameId) :
    entry.bind PacketTrailerMetadata.attached = metadata ↔
      Faithful (entry.isSome = true) embedded metadata := by
  cases entry with
  | none =>
    cases metadata with
    | none => exact iff_of_true rfl fun hbad => by cases hbad
    | some metadata =>
      obtain ⟨userTimestamp, frameId⟩ := metadata
      refine iff_of_false nofun ?_
      cases userTimestamp with
      | none => exact id
      | some userTimestamp => exact fun hbad => by cases hbad.1
  | some found =>
    obtain ⟨hts, hfid⟩ := hentry found rfl
    show found.attached = metadata ↔ _
    unfold PacketTrailerMetadata.attached
    rw [hts, hfid]
    -- the largest timestamp stands for no metadata, and 0 for no frame id
    by_cases hmax : embedded.userTimestamp = uint64Max
    · rw [if_pos hmax]
      cases metadata with
      | none => exact iff_of_true rfl fun _ => hmax
      | some metadata =>
        obtain ⟨userTimestamp, frameId⟩ := metadata
        refine iff_of_false nofun ?_
        cases userTimestamp with
        | none => exact id
        | some userTimestamp => exact fun hbad => hbad.2.1 (hbad.2.2.2.1.symm.trans hmax)
    · rw [if_neg hmax]
      cases metadata with
      | none => exact iff_of_false nofun fun hbad => hmax (hbad rfl)
      | some metadata =>
        obtain ⟨userTimestamp, frameId⟩ := metadata
        rw [some.injEq, FrameMetadata.mk.injEq]
        cases userTimestamp with
        | none => exact iff_of_false (fun hbad => by cases hbad.1) id
        | some userTimestamp =>
          rw [some.injEq]
          unfold Faithful
          constructor
          · rintro ⟨rfl, rfl⟩
            refine ⟨rfl, hmax, ?_, rfl, ?_⟩
            · split
              · exact nofun
              · next hne => exact fun hbad => hne (some.inj hbad)
            · split
              · next hzero => exact hzero
              · rfl
          · rintro ⟨-, -, hzero, rfl, hid⟩
            refine ⟨rfl, ?_⟩
            rw [hid]
            cases frameId with
            | none => exact if_pos rfl
            | some frameId => exact if_neg fun hbad => hzero (congrArg some hbad)

/-- A frame is shown with its metadata if and only if the step is good. -/
theorem shown_iff {rtpTimestamp : UInt32} (h : Inv ssrc s)
    (hreceived : rtpTimestamp ∈ s.received.map fun packet => packet.encoded.timestamp) :
    Good s (.onFrame rtpTimestamp) s' ↔ Survives (shown s (.onFrame rtpTimestamp)) s := by
  obtain ⟨packet, hmem, rfl⟩ := mem_map.mp hreceived
  -- timestamps that arrived are distinct, so what is shown is this packet
  have hfind : s.received.find? (fun other =>
      other.encoded.timestamp = packet.encoded.timestamp) = some packet := by
    cases hfound : s.received.find? (fun other =>
        other.encoded.timestamp = packet.encoded.timestamp) with
    | none =>
      have hbad := find?_eq_none.mp hfound packet hmem
      rw [decide_eq_true_iff] at hbad
      exact absurd rfl hbad
    | some other =>
      have hsame := find?_some hfound
      rw [decide_eq_true_iff] at hsame
      exact congrArg some (received_unique h hmem (mem_of_find?_eq_some hfound) hsame)
  have hentry : ∀ found, AList.lookup packet.encoded.timestamp s.receiver.transformer.recvMap =
      some found → found.userTimestamp = packet.embedded.userTimestamp ∧
        found.frameId = packet.embedded.frameId := by
    intro found hfound
    obtain ⟨other, hother, hsame, hmetadata⟩ := h.entries _ found hfound
    obtain rfl := received_unique h hmem hother hsame
    exact hmetadata
  have hshown : shown s (.onFrame packet.encoded.timestamp) =
      [(packet.frame, (s.receiver.onFrame packet.encoded.timestamp).1)] := by
    simp only [shown, hfind]
  rw [hshown]
  constructor
  · intro hgood frame hframe captured hcaptured
    obtain rfl := mem_singleton.mp hframe
    have hfaithful := hgood packet hmem rfl captured hcaptured
    rw [h.ordered.mem_iff] at hfaithful
    show (s.receiver.onFrame packet.encoded.timestamp).1 = captured.metadata
    rw [onFrame_fst]
    exact (faithful_iff packet.embedded captured.metadata _ hentry).mpr hfaithful
  · intro hsurvives other hother hsame captured hcaptured
    obtain rfl := received_unique h hmem hother hsame
    have hequal := hsurvives _ (mem_singleton_self _) captured hcaptured
    change (s.receiver.onFrame other.encoded.timestamp).1 = captured.metadata at hequal
    rw [onFrame_fst] at hequal
    rw [h.ordered.mem_iff]
    exact (faithful_iff other.embedded captured.metadata _ hentry).mp hequal

/-- The frames that are shown have been captured. -/
def InRange (frames : List Shown) (s : State) : Prop :=
  ∀ frame ∈ frames, frame.1 < s.captured.length

theorem captured_step (hstep : step ssrc s a = some s') :
    s.captured <+: s'.captured := by
  cases a with
  | capture timestampUs metadata =>
    unfold step at hstep
    rw [ite_none_left_eq_some] at hstep
    obtain rfl := some.inj hstep.2
    exact prefix_append _ _
  | transformSend i layer =>
    obtain ⟨frame, -, heq⟩ := bind_eq_some_iff.mp hstep
    obtain rfl := some.inj heq
    exact prefix_rfl
  | transformReceive i =>
    obtain ⟨packet, -, hstep⟩ := bind_eq_some_iff.mp hstep
    rw [ite_none_right_eq_some] at hstep
    obtain ⟨result, -, heq⟩ := bind_eq_some_iff.mp hstep.2
    obtain rfl := some.inj heq
    exact prefix_rfl
  | onFrame rtpTimestamp =>
    unfold step at hstep
    rw [ite_none_right_eq_some] at hstep
    obtain rfl := some.inj hstep.2
    exact prefix_rfl

theorem InRange.mono (h : InRange frames s) (hgrow : s.captured <+: s'.captured) :
    InRange frames s' := fun frame hmem => Nat.lt_of_lt_of_le (h frame hmem) hgrow.length_le

/-- What is captured later changes nothing. -/
theorem survives_congr (h : InRange frames s) (hgrow : s.captured <+: s'.captured) :
    Survives frames s' ↔ Survives frames s := by
  obtain ⟨tail, htail⟩ := hgrow
  have hsame : ∀ frame ∈ frames, s'.captured[frame.1]? = s.captured[frame.1]? := by
    intro frame hmem
    rw [← htail, getElem?_append_left (h frame hmem)]
  constructor
  · intro hsurvives frame hmem captured hcaptured
    exact hsurvives frame hmem captured ((hsame frame hmem).trans hcaptured)
  · intro hsurvives frame hmem captured hcaptured
    exact hsurvives frame hmem captured ((hsame frame hmem).symm.trans hcaptured)

theorem shown_inRange (h : Inv ssrc s) : InRange (shown s a) s := by
  intro frame hmem
  cases a with
  | onFrame rtpTimestamp =>
    cases hfind : s.received.find? (fun packet => packet.encoded.timestamp = rtpTimestamp) with
    | none =>
      simp only [shown, hfind] at hmem
      cases hmem
    | some packet =>
      simp only [shown, hfind] at hmem
      obtain rfl := mem_singleton.mp hmem
      exact h.frames packet (h.received packet (mem_of_find?_eq_some hfind))
  | _ => cases hmem

theorem good_iff (h : Inv ssrc s) (hstep : step ssrc s a = some s') :
    Good s a s' ↔ Survives (shown s a) s := by
  cases a with
  | onFrame rtpTimestamp =>
    unfold step at hstep
    rw [ite_none_right_eq_some] at hstep
    exact shown_iff h hstep.1.1
  | _ => exact iff_of_true trivial fun frame hmem => by cases hmem

theorem survives_append {frames' : List Shown} :
    Survives (frames ++ frames') s ↔ Survives frames s ∧ Survives frames' s := by
  unfold Survives
  rw [forall_mem_append]

/-- The metadata of all frames survives if and only if every lookup is good. -/
theorem survives_iff_good (ssrc : UInt32) (run : List Action) :
    Always (step ssrc) shown Survives State.new run ↔ EachStep (step ssrc) Good State.new run := by
  refine always_iff_eachStep
    (I := fun frames s => Inv ssrc s ∧ InRange frames s ∧ Survives frames s)
    (fun frames s h => h.2.2) ?_ ⟨inv_new ssrc, ?_, ?_⟩ run
  · rintro frames s a s' ⟨hinv, hrange, hsurvives⟩ hstep
    have hgrow := captured_step hstep
    have hrange' : InRange (frames ++ shown s a) s :=
      forall_mem_append.mpr ⟨hrange, shown_inRange hinv⟩
    -- what was shown before is as it was; only what this step shows counts
    have hiff : Survives (frames ++ shown s a) s' ↔ Good s a s' := by
      rw [survives_congr hrange' hgrow, survives_append, good_iff hinv hstep]
      exact and_iff_right hsurvives
    by_cases hgood : Good s a s'
    · exact .inl ⟨hgood, inv_step hinv hstep, hrange'.mono hgrow, hiff.mpr hgood⟩
    · exact .inr ⟨hgood, fun hbad => hgood (hiff.mp hbad)⟩
  · intro frame hmem
    cases hmem
  · intro frame hmem
    cases hmem

/-! ## What is recent is known -/

/-- What is stored for metadata. -/
def FrameMetadata.stored (metadata : FrameMetadata) : PacketTrailerMetadata :=
  ⟨metadata.userTimestamp.getD 0, metadata.frameId.getD 0, 0⟩

/-- Frames with metadata that are alone in their milliseconds are known until 300 more have been
captured. -/
structure Stored (captured : List Captured) (sender : SendTransformer) : Prop where
  ordered : EvictingMap.Ordered sender.sendMap sender.sendMapOrder
  keys : ∀ key ∈ sender.sendMapOrder, ∃ (j : ℕ) (frame : Captured), captured[j]? = some frame ∧
    frame.metadata ≠ none ∧ captureTime frame.timestampUs = key
  known : ∀ (i : ℕ) frame metadata, captured[i]? = some frame → frame.metadata = some metadata →
    (∀ (j : ℕ) other, captured[j]? = some other → j ≠ i → other.metadata ≠ none →
      captureTime other.timestampUs ≠ captureTime frame.timestampUs) →
    captured.length < i + 1 + kMaxSendMapEntries →
      AList.lookup (captureTime frame.timestampUs) sender.sendMap = some metadata.stored ∧
        captureTime frame.timestampUs ∈ sender.sendMapOrder ∧
        EvictingMap.behind (captureTime frame.timestampUs) sender.sendMapOrder + i + 1 ≤
          captured.length

theorem stored_empty : Stored [] ⟨∅, []⟩ := by
  refine ⟨ordered_empty, ?_, ?_⟩
  · intro key hmem
    cases hmem
  · intro i frame metadata hframe
    cases hframe

theorem stored_capture {captured : List Captured} {sender : SendTransformer}
    (h : Stored captured sender) (timestampUs : Int) (metadata : Option FrameMetadata) :
    Stored (captured ++ [Captured.mk timestampUs metadata])
      (sender.onCapturedFrame timestampUs (captureFrame metadata)) := by
  have hlength : (captured ++ [Captured.mk timestampUs metadata]).length = captured.length + 1 :=
    length_append
  have hold : ∀ (j : ℕ) frame, captured[j]? = some frame →
      (captured ++ [Captured.mk timestampUs metadata])[j]? = some frame := by
    intro j frame hframe
    rw [Components.getElem?_concat, if_neg (Components.ne_length hframe)]
    exact hframe
  have hlast : (captured ++ [Captured.mk timestampUs metadata])[captured.length]? =
      some ⟨timestampUs, metadata⟩ := getElem?_concat_length
  have hcases : ∀ (j : ℕ) frame, (captured ++ [Captured.mk timestampUs metadata])[j]? = some frame →
      captured[j]? = some frame ∨ j = captured.length ∧ frame = ⟨timestampUs, metadata⟩ := by
    intro j frame hframe
    exact (Components.of_getElem?_concat hframe).symm
  cases metadata with
  | none =>
    have hsender : sender.onCapturedFrame timestampUs (captureFrame none) = sender := rfl
    rw [hsender]
    refine ⟨h.ordered, fun key hkey => ?_, ?_⟩
    · obtain ⟨j, frame, hframe, hsome, htime⟩ := h.keys key hkey
      exact ⟨j, frame, hold j frame hframe, hsome, htime⟩
    · intro i frame metadata hframe hmetadata halone hrecent
      rcases hcases i frame hframe with hframe' | ⟨-, rfl⟩
      · obtain ⟨hlookup, hmem, hbehind⟩ := h.known i frame metadata hframe' hmetadata
          (fun j other hother => halone j other (hold j other hother)) (by omega)
        exact ⟨hlookup, hmem, by omega⟩
      · cases hmetadata
  | some new =>
    -- the new frame is stored under its millisecond
    set key := captureTime timestampUs with hkey
    set result := store kMaxSendMapEntries sender.sendMap sender.sendMapOrder key
      new.stored with hresult
    have hsender : sender.onCapturedFrame timestampUs (captureFrame (some new)) =
        ⟨result.1, result.2⟩ := rfl
    rw [hsender]
    have hordered : EvictingMap.Ordered result.1 result.2 :=
      store_ordered kMaxSendMapEntries h.ordered key new.stored
    refine ⟨hordered, ?_, ?_⟩
    · intro key' hmem
      by_cases hsame : key' = key
      · exact ⟨captured.length, ⟨timestampUs, some new⟩, hlast, fun hbad => (by cases hbad),
          hsame.symm⟩
      · have hsome := (hordered.mem_iff key').mp hmem
        obtain ⟨found, hfound⟩ := isSome_iff_exists.mp hsome
        -- an old key was there before
        have hbefore := lookup_of_store hsame hfound
        obtain ⟨j, frame, hframe, hframe'⟩ := h.keys key'
          ((h.ordered.mem_iff key').mpr (by rw [hbefore]; rfl))
        exact ⟨j, frame, hold j frame hframe, hframe'⟩
    · intro i frame metadata hframe hmetadata halone hrecent
      rcases hcases i frame hframe with hframe' | ⟨rfl, rfl⟩
      · obtain ⟨hlookup, hmem, hbehind⟩ := h.known i frame metadata hframe' hmetadata
          (fun j other hother => halone j other (hold j other hother)) (by omega)
        have hne : captureTime frame.timestampUs ≠ key :=
          Ne.symm (halone captured.length _ hlast (Ne.symm (Components.ne_length hframe'))
            fun hbad => by cases hbad)
        -- fewer than the capacity were stored after it, so it is not evicted
        have hroom : behind (captureTime frame.timestampUs) sender.sendMapOrder + 1 <
            kMaxSendMapEntries := by omega
        obtain ⟨hlookup', hmem', hbehind'⟩ := store_kept new.stored h.ordered hne
          hmem hroom
        rw [← hresult] at hlookup' hmem' hbehind'
        refine ⟨hlookup'.trans hlookup, hmem', ?_⟩
        show behind _ result.2 + i + 1 ≤ _
        omega
      · obtain rfl := some.inj hmetadata
        -- no frame was stored there before
        have hnew : AList.lookup key sender.sendMap = none := by
          cases hbefore : AList.lookup key sender.sendMap with
          | none => rfl
          | some found =>
            obtain ⟨j, other, hother, hsome, htime⟩ := h.keys key
              ((h.ordered.mem_iff key).mpr (by rw [hbefore]; rfl))
            exact absurd htime
              (halone j other (hold j other hother) (Components.ne_length hother) hsome)
        obtain ⟨horder, hbehind⟩ := store_new kMaxSendMapEntries new.stored
          h.ordered hnew
        rw [← hresult] at horder hbehind
        refine ⟨lookup_store_self, ?_, ?_⟩
        · show key ∈ result.2
          rw [horder]
          exact mem_append_right _ (mem_singleton_self _)
        · show behind key result.2 + captured.length + 1 ≤ _
          rw [hbehind]
          omega

/-- What is recent is known on both sides, and what has been embedded is plain. -/
structure Recent (s : State) : Prop where
  stored : Stored s.captured s.sender
  arrived : ∀ (i : ℕ) packet, s.received[i]? = some packet →
    packet.encoded.timestamp ∉ s.presented → s.received.length < i + 1 + kMaxRecvMapEntries →
      packet.encoded.timestamp ∈ s.receiver.transformer.recvMapOrder ∧
        EvictingMap.behind packet.encoded.timestamp s.receiver.transformer.recvMapOrder + i + 1 ≤
          s.received.length
  embedded : ∀ packet ∈ s.packets, ∀ captured, s.captured[packet.frame]? = some captured →
    ∃ metadata, captured.metadata = some metadata ∧ metadata.Plain ∧
      packet.embedded = metadata.stored

theorem recent_new : Recent State.new := by
  refine ⟨stored_empty, ?_, ?_⟩
  · intro i packet hpacket
    cases hpacket
  · intro packet hmem
    cases hmem

theorem recent_receive (hinv : Inv ssrc s) (h : Recent s)
    (hstep : step ssrc s (.transformReceive i) = some s') : Recent s' := by
  obtain ⟨packet, hpacket, -, hnew, hlookup, rfl⟩ := receive_cases hinv hstep
  refine ⟨h.stored, ?_, h.embedded⟩
  intro j other hother hpresented hrecent
  change (s.received ++ [packet])[j]? = some other at hother
  change (s.received ++ [packet]).length < _ at hrecent
  show other.encoded.timestamp ∈ (s.stored packet).recvMapOrder ∧
    behind other.encoded.timestamp (s.stored packet).recvMapOrder + j + 1 ≤
      (s.received ++ [packet]).length
  have hlength : (s.received ++ [packet]).length = s.received.length + 1 := length_append
  rcases Components.of_getElem?_concat hother with ⟨rfl, hnewest⟩ | hother
  · -- the new packet comes last
    rw [hnewest]
    obtain ⟨horder, hbehind⟩ := store_new kMaxRecvMapEntries
      ⟨packet.embedded.userTimestamp, packet.embedded.frameId, packet.encoded.ssrc⟩ hinv.ordered
      hlookup
    constructor
    · have hmem : packet.encoded.timestamp ∈ (s.stored packet).recvMapOrder := by
        show packet.encoded.timestamp ∈ (store kMaxRecvMapEntries _ _ _
          (⟨packet.embedded.userTimestamp, packet.embedded.frameId, packet.encoded.ssrc⟩ :
            PacketTrailerMetadata)).2
        rw [horder]
        exact mem_append_right _ (mem_singleton_self _)
      exact hmem
    · have hzero : behind packet.encoded.timestamp (s.stored packet).recvMapOrder = 0 :=
        hbehind
      omega
  · obtain ⟨hmem, hbehind⟩ := h.arrived j other hother hpresented (by omega)
    have hne : other.encoded.timestamp ≠ packet.encoded.timestamp := by
      intro hsame
      exact hnew (mem_map.mpr ⟨other, mem_of_getElem? hother, hsame⟩)
    have hroom : behind other.encoded.timestamp
        s.receiver.transformer.recvMapOrder + 1 < kMaxRecvMapEntries := by omega
    obtain ⟨-, hmem', hbehind'⟩ := store_kept
      (⟨packet.embedded.userTimestamp, packet.embedded.frameId, packet.encoded.ssrc⟩ :
        PacketTrailerMetadata) hinv.ordered hne hmem hroom
    have hle : behind other.encoded.timestamp (s.stored packet).recvMapOrder ≤
        behind other.encoded.timestamp s.receiver.transformer.recvMapOrder + 1 :=
      hbehind'
    exact ⟨hmem', by omega⟩

theorem recent_step (hinv : Inv ssrc s) (h : Recent s) (hstep : step ssrc s a = some s')
    (husual : Usual s a s') : Recent s' := by
  cases a with
  | capture timestampUs metadata =>
    unfold step at hstep
    rw [ite_none_left_eq_some] at hstep
    obtain rfl := some.inj hstep.2
    refine ⟨stored_capture h.stored timestampUs metadata, h.arrived, ?_⟩
    intro packet hmem captured hcaptured
    change (s.captured ++ [_])[packet.frame]? = some captured at hcaptured
    rw [getElem?_append_left (hinv.frames packet hmem)] at hcaptured
    exact h.embedded packet hmem captured hcaptured
  | transformSend i layer =>
    obtain ⟨frame, hframe, heq⟩ := bind_eq_some_iff.mp hstep
    obtain rfl := some.inj heq
    refine ⟨h.stored, h.arrived, ?_⟩
    intro packet hmem captured hcaptured
    rcases mem_append.mp hmem with hold | hlast
    · exact h.embedded packet hold captured hcaptured
    · obtain rfl := mem_singleton.mp hlast
      obtain rfl := some.inj (hframe.symm.trans hcaptured)
      obtain ⟨⟨metadata, hmetadata, hplain⟩, halone, hrecent⟩ := husual frame hframe
      refine ⟨metadata, hmetadata, hplain, ?_⟩
      show (AList.lookup (captureTime frame.timestampUs) s.sender.sendMap).getD ⟨0, 0, 0⟩ = _
      rw [(h.stored.known i frame metadata hframe hmetadata halone hrecent).1]
      rfl
  | transformReceive i => exact recent_receive hinv h hstep
  | onFrame rtpTimestamp =>
    unfold step at hstep
    rw [ite_none_right_eq_some] at hstep
    obtain rfl := some.inj hstep.2
    have hreceiver := onFrame_snd s.receiver rtpTimestamp hinv.ordered
    refine ⟨h.stored, ?_, h.embedded⟩
    intro j other hother hpresented hrecent
    rw [hreceiver]
    have hpresented' : other.encoded.timestamp ∉ s.presented ++ [rtpTimestamp] := hpresented
    rw [mem_append, mem_singleton, not_or] at hpresented'
    obtain ⟨hmem, hbehind⟩ := h.arrived j other hother hpresented'.1 hrecent
    refine ⟨(hinv.ordered.nodup.mem_erase_iff).mpr ⟨hpresented'.2, hmem⟩, ?_⟩
    have hle : behind other.encoded.timestamp
        (s.receiver.transformer.recvMapOrder.erase rtpTimestamp) ≤
          behind other.encoded.timestamp s.receiver.transformer.recvMapOrder :=
      behind_erase hpresented'.2
    show behind _ (s.receiver.transformer.recvMapOrder.erase _) + j + 1 ≤
      s.received.length
    omega

/-- What is plain and recent is shown as it is. -/
theorem good_of_usual (hinv : Inv ssrc s) (h : Recent s) (hstep : step ssrc s a = some s')
    (husual : Usual s a s') : Good s a s' := by
  cases a with
  | onFrame rtpTimestamp =>
    unfold step at hstep
    rw [ite_none_right_eq_some] at hstep
    intro packet hmem hsame captured hcaptured
    obtain ⟨j, hj⟩ := getElem?_of_mem hmem
    obtain ⟨hpresent, -⟩ := h.arrived j packet hj (hsame ▸ hstep.1.2) (husual j packet hj hsame)
    obtain ⟨metadata, hmetadata, ⟨hsome, hmax, hzero⟩, hembedded⟩ :=
      h.embedded packet (hinv.received packet hmem) captured hcaptured
    obtain ⟨userTimestamp, frameId⟩ := metadata
    rw [hmetadata, hembedded]
    cases userTimestamp with
    | none => exact absurd rfl hsome
    | some userTimestamp =>
      exact ⟨hsame ▸ hpresent, fun hbad => hmax (congrArg some hbad), hzero, rfl, rfl⟩
  | _ => trivial

/-- The metadata of every frame survives if and only if, at every lookup, the metadata has a user
timestamp, which is not the largest, and no frame id 0, it is what was embedded for the frame, and
it is still known. This is so where frames with such metadata are alone in their milliseconds and
are encoded and looked up before 300 more have come. -/
theorem survives_iff (ssrc : UInt32) (run : List Action) :
    (Always (step ssrc) shown Survives State.new run ↔
      EachStep (step ssrc) Good State.new run) ∧
    (EachStep (step ssrc) Usual State.new run →
      Always (step ssrc) shown Survives State.new run) := by
  refine ⟨survives_iff_good ssrc run, fun husual => (survives_iff_good ssrc run).mpr ?_⟩
  refine EachStep.of_invariant (I := fun s => Inv ssrc s ∧ Recent s) ?_
    ⟨inv_new ssrc, recent_new⟩ husual
  rintro s a - s' ⟨hinv, hrecent⟩ hstep husual
  exact ⟨⟨inv_step hinv hstep, recent_step hinv hrecent hstep husual⟩,
    good_of_usual hinv hrecent hstep husual⟩

/-- A frame without metadata is shown with a user timestamp 0. -/
theorem absent_is_shown_as_zero :
    let run : List Action := [.capture 5000 none, .transformSend 0 ⟨1, 90, [7]⟩,
      .transformReceive 0, .onFrame 90]
    trace (step 1) shown State.new run = [(0, some ⟨some 0, none⟩)] ∧
      ¬ Always (step 1) shown Survives State.new run := by
  intro run
  have htrace : trace (step 1) shown State.new run = [(0, some ⟨some 0, none⟩)] := by
    decide +kernel
  have hmetadata : (exec (step 1) State.new run).map (fun s => s.captured.map Captured.metadata) =
      some [none] := by decide +kernel
  refine ⟨htrace, fun halways => ?_⟩
  obtain ⟨s, hs, hcaptured⟩ := map_eq_some_iff.mp hmetadata
  have hsurvives := halways run [] s (append_nil _).symm hs
  rw [htrace] at hsurvives
  obtain ⟨captured, hframe, hnone⟩ : ∃ captured, s.captured[0]? = some captured ∧
      captured.metadata = none := by
    have hzero := congrArg (fun l => l[0]?) hcaptured
    simp only [getElem?_map] at hzero
    exact map_eq_some_iff.mp hzero
  have hequal := hsurvives _ (mem_singleton_self _) captured hframe
  rw [hnone] at hequal
  cases hequal

end LiveKit.PacketTrailer
