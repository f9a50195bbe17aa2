import LiveKit.DataTrack.Local.Pipeline
import LiveKit.DataTrack.Packet.Deserialize
import LiveKit.DataTrack.Remote.DepacketizerTheorems
import LiveKit.DataTrack.Remote.Pipeline

/-!
# From the publisher's pipeline to the subscriber's

A frame that is packetized on one side, sent over the wire packet by packet and pushed into
the pipeline of the other side comes out as it went in (`round_trip`).

The two halves meet at `Depacketizer.IsFrame`: the packetizer produces such packets
(`packetize_isFrame`), and the depacketizer delivers them when there are at most 128
(`IsFrame.pushAll_shuffled`) and drops them otherwise (`IsFrame.pushAll_overflow`).
-/

namespace LiveKit.DataTrack

open List SerialNumber Depacketizer

/-- A packet as it arrives: serialized on one side and deserialized on the other. -/
def transfer (packet : Packet) : Option Packet :=
  match packet.serialize with
  | .error _ => none
  | .ok raw => (Packet.deserialize raw).toOption

/-- Nothing is lost on the wire. -/
theorem transfer_eq (packet : Packet) : transfer packet = some packet := by
  obtain ⟨raw, hraw, hpacket⟩ := Packet.deserialize_serialize packet
  unfold transfer
  rw [hraw]
  show (Packet.deserialize raw).toOption = some packet
  rw [hpacket]
  rfl

theorem mapM_transfer (packets : List Packet) : packets.mapM transfer = some packets := by
  induction packets with
  | nil => rfl
  | cons p ps ih => rw [mapM_cons, transfer_eq, ih]; rfl

/-! ## The packets of one frame -/

section Packetized

variable {header : Header} {s : UInt16} {chunks : List Bytes} {packets : List Packet}

/-- The packets of a frame that fits in one. -/
theorem packets_single (hn : chunks.length = 1)
    (hpackets : packets = chunks.mapIdx fun i c =>
      Packetizer.framePacket header chunks.length s i c) :
    ∃ p, packets = [p] ∧ p.header.marker = .single ∧ p.payload = chunks.flatten ∧
      p.header.extensions = header.extensions := by
  obtain ⟨c, rfl⟩ := length_eq_one_iff.mp hn
  refine ⟨Packetizer.framePacket header 1 s 0 c, hpackets, rfl, ?_, rfl⟩
  rw [flatten_singleton]
  rfl

/-- The packets of a frame that takes several have the markers and the sequence numbers that
the depacketizer looks for. -/
theorem packets_isFrame (hn : 2 ≤ chunks.length)
    (hpackets : packets = chunks.mapIdx fun i c =>
      Packetizer.framePacket header chunks.length s i c) :
    ∃ start inters final, packets = start :: (inters ++ [final]) ∧
      IsFrame start inters final ∧ start.header.extensions = header.extensions := by
  have hlength : packets.length = chunks.length := by rw [hpackets, length_mapIdx]
  have hget : ∀ i (hi : i < packets.length), packets[i].header
      = { header with
          marker := Packetizer.frameMarker i chunks.length, sequence := after s i } := by
    intro i hi
    simp only [hpackets, getElem_mapIdx]
    rfl
  -- cut off the first and the last packet
  obtain ⟨start, rest, rfl⟩ : ∃ a l, packets = a :: l := by
    apply exists_cons_of_length_pos
    omega
  obtain ⟨inters, final, rfl⟩ : ∃ l b, rest = l ++ [b] := by
    refine ⟨rest.dropLast, rest.getLast ?_, (dropLast_append_getLast _).symm⟩
    intro hnil
    rw [hnil, length_singleton] at hlength
    omega
  rw [length_cons, length_append, length_singleton] at hlength
  have hstart := hget 0 (by simp)
  have hfinal := hget (inters.length + 1) (by simp)
  rw [getElem_cons_zero] at hstart
  rw [getElem_cons_succ, getElem_concat_length rfl] at hfinal
  refine ⟨start, inters, final, rfl, ⟨?_, ?_, ?_, ?_, ?_⟩, ?_⟩
  · rw [hstart]
    show Packetizer.frameMarker 0 chunks.length = .start
    unfold Packetizer.frameMarker
    rw [if_neg (by omega), if_pos rfl]
  · intro q hq
    obtain ⟨i, hi, rfl⟩ := mem_iff_getElem.mp hq
    have hinter := hget (i + 1) (by simp; omega)
    rw [getElem_cons_succ, getElem_append_left hi] at hinter
    refine ⟨?_, by rw [hinter, hstart]⟩
    rw [hinter]
    show Packetizer.frameMarker (i + 1) chunks.length = .inter
    unfold Packetizer.frameMarker
    rw [if_neg (by omega), if_neg (by omega), if_neg (by omega)]
  · rw [hfinal]
    show Packetizer.frameMarker (inters.length + 1) chunks.length = .final
    unfold Packetizer.frameMarker
    rw [if_neg (by omega), if_neg (by omega), if_pos (by omega)]
  · rw [hfinal, hstart]
  · intro i hi
    rw [hget i hi, hstart, after_zero]
  · rw [hstart]

end Packetized

/-- What the depacketizer makes of the packets of one frame, in order: the frame comes with the
last packet if there are at most 128, and never otherwise. -/
theorem pushAll_packetize {p p' : Packetizer} {now : Instant} {frame : PacketizerFrame}
    {packets : List Packet} (h : p.packetize now frame = (.ok packets, p'))
    (hn : packets ≠ []) (d : Depacketizer) :
    (d.pushAll packets).1.map (·.frame)
      = if packets.length ≤ 128 then
          List.replicate (packets.length - 1) none ++ [some ⟨frame.payload, frame.extensions⟩]
        else List.replicate packets.length none := by
  obtain ⟨header, chunks, hflatten, hext, -, -, hpackets⟩ := Packetizer.packetize_eq h
  have hlength : packets.length = chunks.length := by rw [hpackets, length_mapIdx]
  have hpos : 0 < packets.length := length_pos_of_ne_nil hn
  have hpayload : (packets.map (·.payload)).flatten = frame.payload := by
    have hmap : packets.map (·.payload) = chunks := by
      rw [hpackets]
      apply ext_getElem
      · rw [length_map, length_mapIdx]
      · intro i hi hi'
        rw [getElem_map, getElem_mapIdx]
        rfl
    rw [hmap, hflatten]
  by_cases hone : chunks.length = 1
  · obtain ⟨q, rfl, hmarker, hq, hqext⟩ := packets_single hone hpackets
    rw [if_pos (by simp), pushAll_cons, push, hmarker]
    simp only [frameFromSingle, hq, hqext, hflatten, hext]
    rfl
  · obtain ⟨start, inters, final, rfl, hframe, hstart⟩ := packets_isFrame (by omega) hpackets
    have hcount : (start :: (inters ++ [final])).length = inters.length + 2 := by simp
    by_cases hle : (start :: (inters ++ [final])).length ≤ 128
    · rw [if_pos hle, hframe.pushAll_shuffled (by omega) (fun q => Iff.rfl), hcount, hpayload,
        hstart, hext]
      simp [DepacketizerPushResult.default, DepacketizerPushResult.ofFrame,
        replicate_succ]
    · rw [if_neg hle]
      apply eq_replicate_iff.mpr
      refine ⟨by rw [length_map, length_pushAll], ?_⟩
      intro f hf
      obtain ⟨r, hr, rfl⟩ := mem_map.mp hf
      exact hframe.pushAll_overflow (by omega) d r hr

/-! ## Both pipelines -/

namespace Remote.Pipeline

theorem deliver_replicate_none (receiver : Pipeline) (sts : List ProviderState) :
    List.zipWith receiver.deliver sts (List.replicate sts.length none)
      = List.replicate sts.length none := by
  induction sts with
  | nil => rfl
  | cons st sts ih =>
    rw [length_cons, replicate_succ, zipWith_cons_cons, ih]
    rfl

/-- Only the last push delivers. -/
theorem deliver_last (receiver : Pipeline) (sts : List ProviderState) (st : ProviderState)
    (frame : DepacketizerFrame) :
    List.zipWith receiver.deliver (sts ++ [st])
        (List.replicate sts.length none ++ [some frame])
      = List.replicate sts.length none ++ [receiver.deliver st (some frame)] := by
  rw [zipWith_append (by simp), deliver_replicate_none]
  rfl

end Remote.Pipeline

/-- The receiver can undo what the sender's provider does to this payload: neither side
encrypts, or the receiver decrypts the encrypted payload, with the key index and the
initialization vector that came with it, to the payload. -/
def Undoes (receiver : Remote.Pipeline) (sender : Local.Pipeline) (st : ProviderState)
    (payload : Bytes) : Prop :=
  match sender.encryptionProvider, receiver.e2eeProvider with
  | none, none => True
  | some e, some d => ∀ encrypted, e.encrypt st payload = .ok encrypted →
      ∀ st', d.decrypt st' encrypted receiver.publisherIdentity = .ok payload
  | _, _ => False

/-- What was encrypted on one side is decrypted on the other. -/
theorem deliver_encryptIfNeeded {sender : Local.Pipeline} {receiver : Remote.Pipeline}
    {st : ProviderState} {frame : DataTrackFrame} {sent : PacketizerFrame}
    (hundo : Undoes receiver sender st frame.payload)
    (hsent : sender.encryptIfNeeded st (.ofFrame frame) = .ok sent) (st' : ProviderState) :
    receiver.deliver st' (some ⟨sent.payload, sent.extensions⟩) = some frame := by
  have htimestamp : (frame.userTimestamp.map UserTimestampExt.mk).map (·.value)
      = frame.userTimestamp := by
    cases frame.userTimestamp <;> rfl
  unfold Undoes at hundo
  unfold Remote.Pipeline.deliver Remote.Pipeline.decryptIfNeeded
  cases he : sender.encryptionProvider with
  | none =>
    cases hd : receiver.e2eeProvider with
    | some d => simp [he, hd] at hundo
    | none =>
      simp only [Local.Pipeline.encryptIfNeeded, he, Except.ok.injEq] at hsent
      subst hsent
      show some (DataTrackFrame.mk _ _) = _
      rw [show (PacketizerFrame.ofFrame frame).extensions.userTimestamp
        = frame.userTimestamp.map UserTimestampExt.mk from rfl, htimestamp]
      rfl
  | some e =>
    cases hd : receiver.e2eeProvider with
    | none => simp [he, hd] at hundo
    | some d =>
      simp only [he, hd] at hundo
      have htime := Local.Pipeline.encryptIfNeeded_userTimestamp hsent
      obtain ⟨encrypted, hencrypted, hpayload, he2ee⟩ :=
        Local.Pipeline.encryptIfNeeded_of_provider he hsent
      have hdecrypt := hundo encrypted hencrypted st'
      simp only [Option.bind_some, hpayload, he2ee, E2eeExt.ofEncrypted, hdecrypt,
        Option.map_some]
      show some (DataTrackFrame.mk _ _) = _
      rw [htime, show (PacketizerFrame.ofFrame frame).extensions.userTimestamp
        = frame.userTimestamp.map UserTimestampExt.mk from rfl, htimestamp]

/-- **End to end.** Whatever the state of the sender's counters and clock and of the receiver's
depacketizer: if a frame becomes `n ≥ 1` packets, all of them survive the wire, and pushing
them in order delivers one frame with the last of them if `n ≤ 128` and no frame otherwise.
The depacketizer's frame is what the sender packetized, with the frame's user timestamp; the
frame out of the receiver's pipeline is the sender's, if the receiver can undo the encryption. -/
theorem round_trip {sender sender' : Local.Pipeline} {st : ProviderState} {now : Instant}
    {frame : DataTrackFrame} {packets : List Packet}
    (h : sender.processFrame st now frame = (.ok packets, sender')) (hn : packets ≠ []) :
    ∃ received, packets.mapM transfer = some received ∧
      (∃ sent : DepacketizerFrame,
        sender.encryptIfNeeded st (.ofFrame frame) = .ok ⟨sent.payload, sent.extensions⟩ ∧
        (sender.encryptionProvider = none → sent.payload = frame.payload) ∧
        sent.extensions.userTimestamp = frame.userTimestamp.map UserTimestampExt.mk ∧
        ∀ d : Depacketizer, (d.pushAll received).1.map (·.frame)
          = if packets.length ≤ 128 then
              List.replicate (packets.length - 1) none ++ [some sent]
            else List.replicate packets.length none) ∧
      ∀ (receiver : Remote.Pipeline) (inputs : List (ProviderState × Packet)),
        inputs.map Prod.snd = received →
        (packets.length ≤ 128 → Undoes receiver sender st frame.payload →
          (receiver.processPackets inputs).1
            = List.replicate (packets.length - 1) none ++ [some frame]) ∧
        (128 < packets.length →
          (receiver.processPackets inputs).1 = List.replicate packets.length none) := by
  obtain ⟨sent, hsent, hpacketize⟩ := Local.Pipeline.processFrame_ok h
  have hpush := pushAll_packetize hpacketize hn
  refine ⟨packets, mapM_transfer packets, ⟨⟨sent.payload, sent.extensions⟩, hsent, ?_, ?_, hpush⟩,
    ?_⟩
  · intro hnone
    simp only [Local.Pipeline.encryptIfNeeded, hnone, Except.ok.injEq] at hsent
    rw [← hsent]
    rfl
  · exact Local.Pipeline.encryptIfNeeded_userTimestamp hsent
  · intro receiver inputs hinputs
    have hcount : (inputs.map Prod.fst).length = packets.length := by
      rw [length_map, ← hinputs, length_map]
    have hframes := receiver.processPackets_eq inputs
    rw [hinputs, hpush] at hframes
    constructor
    · intro hle hundo
      rw [if_pos hle] at hframes
      -- the state of the provider at the last packet
      obtain ⟨sts, last, hsts⟩ : ∃ sts last, inputs.map Prod.fst = sts ++ [last] := by
        rcases eq_nil_or_concat' (inputs.map Prod.fst) with hnil | hconcat
        · rw [hnil] at hcount
          exact absurd (eq_nil_of_length_eq_zero hcount.symm) hn
        · exact hconcat
      have hsize : packets.length - 1 = sts.length := by
        rw [← hcount, hsts, length_append, length_singleton]
        omega
      rw [hframes, hsts, hsize, receiver.deliver_last, deliver_encryptIfNeeded hundo hsent]
    · intro hgt
      rw [hframes, if_neg (by omega), ← hcount, receiver.deliver_replicate_none]

/-- An encrypted frame of two packets whose sequence numbers wrap, received in the middle of
another frame. -/
theorem round_trip_wrapping :
    let key : UInt8 := 90
    let iv : List.Vector UInt8 12 := List.Vector.replicate 12 7
    let handle : Handle := ⟨3, by decide⟩
    let sender : Local.Pipeline :=
      { encryptionProvider := some ⟨fun _ payload => .ok ⟨payload.map (· ^^^ key), iv, 1⟩⟩
        packetizer := ⟨handle, 36, ⟨65535⟩, ⟨9⟩, Clock.withEpoch 0 ⟨0⟩⟩ }
    let receiver : Remote.Pipeline :=
      { publisherIdentity := "publisher"
        e2eeProvider := some ⟨fun _ encrypted _ => .ok (encrypted.payload.map (· ^^^ key))⟩
        depacketizer := ⟨some ⟨4, 4, .default, ∅⟩⟩ }
    let frame : DataTrackFrame := ⟨[1, 2, 3, 4, 5, 6, 7, 8], none⟩
    ∃ packets, (sender.processFrame 0 0 frame).1 = .ok packets ∧ packets.length = 2 ∧
      (receiver.processPackets (packets.map (0, ·))).1 = [none, some frame] := by
  intro key iv handle sender receiver frame
  obtain ⟨packets, hpackets, hcount⟩ :
      ∃ packets, (sender.processFrame 0 0 frame).1 = .ok packets ∧ packets.length = 2 := by
    have hlength : (sender.processFrame 0 0 frame).1.toOption.map List.length = some 2 := by
      decide
    cases hresult : (sender.processFrame 0 0 frame).1 with
    | error err => simp [hresult, Except.toOption] at hlength
    | ok packets => exact ⟨packets, rfl, by simpa [hresult, Except.toOption] using hlength⟩
  have hne : packets ≠ [] := by
    intro hnil
    rw [hnil] at hcount
    cases hcount
  have hundo : Undoes receiver sender 0 frame.payload := by
    intro encrypted hencrypted st'
    have hpayload : encrypted.payload.map (· ^^^ key) = frame.payload := by
      cases hencrypted
      decide
    exact congrArg Except.ok hpayload
  obtain ⟨received, hreceived, -, hdeliver⟩ :=
    round_trip (Prod.ext hpackets rfl : sender.processFrame 0 0 frame = (.ok packets, _)) hne
  rw [mapM_transfer, Option.some.injEq] at hreceived
  refine ⟨packets, hpackets, hcount, ?_⟩
  have hlast := (hdeliver receiver (packets.map (0, ·)) (by simp [← hreceived])).1
    (by omega) hundo
  rw [hlast, hcount]
  rfl

end LiveKit.DataTrack
