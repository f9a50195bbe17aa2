import LiveKit.DataTrack.Remote.Depacketizer

/-!
# Reassembly is sound and does not depend on the order

The partial frame is determined by the packets pushed since its start packet
(`PartialFrame.of`): that is the invariant behind both results.

* `reassembly_sound_and_order_insensitive` : every delivered multi-packet frame is the
  gathered payloads of one start packet's segment, and the packets between the first and the
  last of a frame may come in any order and any number of times.
* `IsFrame.pushAll_shuffled` : what pushing a whole frame in such an order returns.
-/

namespace LiveKit.DataTrack

open PartialFrame AssocMap List SerialNumber

/-! ## The latest payload of each sequence number -/

/-- The payload of the last packet of the list with this sequence number. -/
def latestPayload (ps : List Packet) (k : UInt16) : Option Bytes :=
  (ps.reverse.find? fun p => p.header.sequence = k).map (·.payload)

theorem latestPayload_append_singleton (ps : List Packet) (p : Packet) (k : UInt16) :
    latestPayload (ps ++ [p]) k
      = if k = p.header.sequence then some p.payload else latestPayload ps k := by
  rw [latestPayload, reverse_append, reverse_singleton, singleton_append]
  by_cases h : k = p.header.sequence
  · rw [if_pos h, find?_cons_of_pos (by simpa using h.symm)]
    rfl
  · rw [if_neg h, find?_cons_of_neg (by simpa using fun hc : _ = k => h hc.symm)]
    rfl

/-- When all packets with the number carry the same payload, that is the latest one. -/
theorem latestPayload_eq_some {ps : List Packet} {k : UInt16} {c : Bytes}
    (hex : ∃ p ∈ ps, p.header.sequence = k)
    (hall : ∀ p ∈ ps, p.header.sequence = k → p.payload = c) : latestPayload ps k = some c := by
  unfold latestPayload
  cases hfind : ps.reverse.find? fun p => p.header.sequence = k with
  | none =>
    obtain ⟨p, hp, hk⟩ := hex
    have hnone := find?_eq_none.mp hfind p (mem_reverse.mpr hp)
    simp [hk] at hnone
  | some q =>
    have hq : q ∈ ps := mem_reverse.mp (mem_of_find?_eq_some hfind)
    have hk : q.header.sequence = k := by simpa using find?_some hfind
    rw [Option.map_some, hall q hq hk]

namespace PartialFrame

/-- The payloads left by inserting the packets one after the other. -/
def insertAll (m : AssocMap UInt16 Bytes) (ps : List Packet) : AssocMap UInt16 Bytes :=
  ps.foldl (fun m p => AList.insert p.header.sequence p.payload m) m

theorem insertAll_append_singleton (m : AssocMap UInt16 Bytes) (ps : List Packet) (p : Packet) :
    insertAll m (ps ++ [p]) = AList.insert p.header.sequence p.payload (insertAll m ps) := by
  rw [insertAll, foldl_append]
  rfl

theorem lookup_insertAll (ps : List Packet) (k : UInt16) :
    AList.lookup k (insertAll ∅ ps) = latestPayload ps k := by
  induction ps using List.reverseRecOn with
  | nil => rfl
  | append_singleton ps p ih =>
    rw [insertAll_append_singleton, lookup_insert_ite, latestPayload_append_singleton, ih]

/-- The keys are the sequence numbers of the inserted packets. -/
theorem mem_insertAll {ps : List Packet} {k : UInt16} :
    k ∈ insertAll ∅ ps ↔ k ∈ ps.map fun p => p.header.sequence := by
  induction ps using List.reverseRecOn with
  | nil => exact iff_of_false (AList.notMem_empty k) not_mem_nil
  | append_singleton ps p ih =>
    rw [insertAll_append_singleton, AList.mem_insert, map_append, mem_append,
      map_singleton, mem_singleton, ih, or_comm]

/-- The partial frame of a start packet and the packets pushed to it since. -/
def of (start : Packet) (inters : List Packet) : PartialFrame where
  frameNumber := start.header.frameNumber
  startSequence := start.header.sequence
  extensions := start.header.extensions
  payloads := insertAll ∅ (start :: inters)

end PartialFrame

/-- An inner packet of the same frame as `start`. -/
def Packet.InterOf (start q : Packet) : Prop :=
  q.header.marker = .inter ∧ q.header.frameNumber = start.header.frameNumber

namespace Depacketizer

/-! ## One push -/

theorem push_start (d : Depacketizer) {p : Packet} (h : p.header.marker = .start) :
    d.push p = (⟨none, d.interruptedError⟩, ⟨some (of p [])⟩) := by
  unfold push
  rw [h]
  rfl

/-- All that a packet after the first one of a frame can do: it is dropped with whatever was
being assembled, or it is added to a partial frame with its frame number and with room left,
which it completes when it is the final packet. -/
theorem pushToPartial_cases (d : Depacketizer) (q : Packet) :
    (∃ e, d.pushToPartial q = (.ofDrop e, ⟨none⟩)) ∨
    ∃ p, d.partialFrame = some p ∧ q.header.frameNumber = p.frameNumber ∧
      size p.payloads < MAX_BUFFER_PACKETS ∧
      d.pushToPartial q
        = if q.header.marker = .final then (finalize (p.insert q) q.header.sequence, ⟨none⟩)
          else (.default, ⟨some (p.insert q)⟩) := by
  unfold pushToPartial
  cases hp : d.partialFrame with
  | none => exact .inl ⟨_, rfl⟩
  | some p =>
    by_cases hnumber : q.header.frameNumber ≠ p.frameNumber
    · exact .inl ⟨_, if_pos hnumber⟩
    · by_cases hfull : size p.payloads ≥ MAX_BUFFER_PACKETS
      · exact .inl ⟨_, (if_neg hnumber).trans (if_pos hfull)⟩
      · refine .inr ⟨p, rfl, not_not.mp hnumber, Nat.not_le.mp hfull, ?_⟩
        simp only [if_neg hnumber, if_neg hfull]

/-- Adding a packet to the partial frame of a segment gives that of the longer segment. -/
theorem of_insert (start q : Packet) (inters : List Packet) :
    (of start inters).insert q = of start (inters ++ [q]) := by
  unfold PartialFrame.insert PartialFrame.of
  rw [← cons_append, insertAll_append_singleton]

variable {q : Packet} {pushed mid : List Packet} {d : Depacketizer}

theorem pushToPartial_of_room {start : Packet} {inters : List Packet}
    (hnumber : q.header.frameNumber = start.header.frameNumber)
    (hroom : size (insertAll ∅ (start :: inters)) < MAX_BUFFER_PACKETS) :
    pushToPartial ⟨some (of start inters)⟩ q
      = if q.header.marker = .final then
          (finalize (of start (inters ++ [q])) q.header.sequence, ⟨none⟩)
        else (.default, ⟨some (of start (inters ++ [q]))⟩) := by
  have hsame : ¬ q.header.frameNumber ≠ (of start inters).frameNumber :=
    not_not.mpr hnumber
  have hfull : ¬ size (of start inters).payloads ≥ MAX_BUFFER_PACKETS :=
    Nat.not_le.mpr hroom
  unfold pushToPartial
  simp only [if_neg hsame, if_neg hfull, of_insert]

/-- A frame comes out of `finalize` exactly when the run of payloads can be gathered. -/
theorem finalize_of (start : Packet) (rest : List Packet) (e : UInt16) :
    (finalize (of start rest) e).frame
      = (gather (latestPayload (start :: rest)) start.header.sequence
          (dist start.header.sequence e)).map (⟨·, start.header.extensions⟩) := by
  have hlookup : (fun k => AList.lookup k (of start rest).payloads)
      = latestPayload (start :: rest) := funext fun k => lookup_insertAll _ k
  have hwalk := finalizeLoop_eq (of start rest).payloads start.header.sequence e []
  rw [hlookup] at hwalk
  unfold finalize
  rw [show (of start rest).startSequence = start.header.sequence from rfl, hwalk]
  cases gather (latestPayload (start :: rest)) start.header.sequence
    (dist start.header.sequence e) <;> rfl

/-! ## The invariant of the partial frame -/

/-- The partial frame is that of a start packet with everything pushed after it, all inner
packets of its frame. -/
def Segmented (pushed : List Packet) (d : Depacketizer) : Prop :=
  ∀ p, d.partialFrame = some p → ∃ pre start inters,
    pushed = pre ++ start :: inters ∧ start.header.marker = .start ∧
    (∀ q ∈ inters, start.InterOf q) ∧ p = PartialFrame.of start inters

theorem Segmented.push (hd : Segmented pushed d) (q : Packet) :
    Segmented (pushed ++ [q]) (d.push q).2 := by
  intro p hp
  cases hmarker : q.header.marker with
  | single =>
    rw [Depacketizer.push, hmarker] at hp
    cases hp
  | start =>
    rw [push_start d hmarker] at hp
    cases hp
    exact ⟨pushed, q, [], rfl, hmarker, by simp, rfl⟩
  | final =>
    rw [Depacketizer.push, hmarker] at hp
    rcases pushToPartial_cases d q with ⟨e, he⟩ | ⟨p₀, -, -, -, he⟩
    · simp [he] at hp
    · simp [he, hmarker] at hp
  | inter =>
    rw [Depacketizer.push, hmarker] at hp
    rcases pushToPartial_cases d q with ⟨e, he⟩ | ⟨p₀, hp₀, hnumber, -, he⟩
    · simp [he] at hp
    · obtain ⟨pre, start, inters, hpushed, hstart, hinters, rfl⟩ := hd p₀ hp₀
      have hq : start.InterOf q := ⟨hmarker, hnumber⟩
      rw [if_neg (by rw [hmarker]; decide), of_insert] at he
      simp only [he, Option.some.injEq] at hp
      refine ⟨pre, start, inters ++ [q], ?_, hstart, ?_, hp.symm⟩
      · rw [hpushed, append_assoc, cons_append]
      · intro r hr
        rcases mem_append.mp hr with hr | hr
        · exact hinters r hr
        · exact mem_singleton.mp hr ▸ hq

/-- The invariant over every sequence of packets pushed into a fresh depacketizer. -/
theorem segmented_pushAll (ps : List Packet) : Segmented ps (new.pushAll ps).2 := by
  induction ps using List.reverseRecOn with
  | nil =>
    intro p hp
    cases hp
  | append_singleton ps q ih =>
    rw [pushAll_append]
    exact ih.push q

/-- A frame delivered by a packet that is not a single one comes from the segment that the
packet ends. -/
theorem Segmented.frame (hd : Segmented pushed d) {frame : DepacketizerFrame}
    (hmulti : q.header.marker ≠ .single) (h : (d.push q).1.frame = some frame) :
    q.header.marker = .final ∧ ∃ pre start inters,
      pushed = pre ++ start :: inters ∧ start.header.marker = .start ∧
      (∀ r ∈ inters, start.InterOf r) ∧
      q.header.frameNumber = start.header.frameNumber ∧
      frame.extensions = start.header.extensions ∧
      gather (latestPayload (start :: (inters ++ [q]))) start.header.sequence
        (dist start.header.sequence q.header.sequence) = some frame.payload := by
  have hmore : d.push q = d.pushToPartial q ∨ q.header.marker = .start := by
    cases hmarker : q.header.marker with
    | single => exact absurd hmarker hmulti
    | start => exact .inr rfl
    | inter | final => exact .inl (by rw [Depacketizer.push, hmarker])
  rcases hmore with hmore | hstart
  · rw [hmore] at h
    rcases pushToPartial_cases d q with ⟨e, he⟩ | ⟨p, hp, hnumber, -, he⟩
    · simp [he, DepacketizerPushResult.ofDrop] at h
    · obtain ⟨pre, start, inters, hpushed, hstart, hinters, rfl⟩ := hd p hp
      by_cases hmarker : q.header.marker = .final
      · rw [if_pos hmarker, of_insert] at he
        rw [he, finalize_of, Option.map_eq_some_iff] at h
        obtain ⟨payload, hgather, rfl⟩ := h
        exact ⟨hmarker, pre, start, inters, hpushed, hstart, hinters, hnumber, rfl, hgather⟩
      · rw [if_neg hmarker] at he
        simp [he, DepacketizerPushResult.default] at h
  · rw [push_start d hstart] at h
    cases h

/-! ## Pushing a whole frame -/

/-- The packets of one frame of at least two packets: markers, one frame number, and
consecutive sequence numbers from that of the start packet. -/
structure IsFrame (start : Packet) (inters : List Packet) (final : Packet) : Prop where
  start_marker : start.header.marker = .start
  inter_of : ∀ q ∈ inters, start.InterOf q
  final_marker : final.header.marker = .final
  final_number : final.header.frameNumber = start.header.frameNumber
  sequence : ∀ i (h : i < (start :: (inters ++ [final])).length),
    (start :: (inters ++ [final]))[i].header.sequence = after start.header.sequence i

/-- The number of distinct sequence numbers bounds the buffer. -/
theorem size_insertAll_le (ps : List Packet) (keys : List UInt16)
    (h : ∀ q ∈ ps, q.header.sequence ∈ keys) :
    size (insertAll ∅ ps) ≤ keys.length := by
  apply size_le_of_subset
  intro k hk
  obtain ⟨q, hq, rfl⟩ := mem_map.mp (mem_insertAll.mp hk)
  exact h q hq

/-- Inner packets are collected, whatever their order, as long as fewer than 128 different
sequence numbers occur. -/
theorem pushAll_inters {start : Packet} {keys : List UInt16} (inters mid : List Packet)
    (hkeys : keys.length < MAX_BUFFER_PACKETS)
    (hinters : ∀ q ∈ start :: inters, q.header.sequence ∈ keys)
    (hmid : ∀ q ∈ mid, start.InterOf q ∧ q.header.sequence ∈ keys) :
    pushAll ⟨some (of start inters)⟩ mid
      = (List.replicate mid.length .default, ⟨some (of start (inters ++ mid))⟩) := by
  induction mid generalizing inters with
  | nil => rw [append_nil]; rfl
  | cons q mid ih =>
    obtain ⟨⟨hmarker, hnumber⟩, hq⟩ := hmid q mem_cons_self
    have hroom := lt_of_le_of_lt (size_insertAll_le _ keys hinters) hkeys
    have hpush : push ⟨some (of start inters)⟩ q
        = (.default, ⟨some (of start (inters ++ [q]))⟩) := by
      rw [push, hmarker]
      show pushToPartial _ q = _
      rw [pushToPartial_of_room hnumber hroom, if_neg (by rw [hmarker]; decide)]
    have hnext : ∀ r ∈ start :: (inters ++ [q]), r.header.sequence ∈ keys := by
      intro r hr
      rw [← cons_append, mem_append] at hr
      rcases hr with hr | hr
      · exact hinters r hr
      · exact mem_singleton.mp hr ▸ hq
    have hrest := ih (inters ++ [q]) hnext fun r hr => hmid r (mem_cons_of_mem q hr)
    rw [pushAll, hpush]
    simp only [hrest, append_assoc, singleton_append, length_cons,
      replicate_succ]

/-- Inner packets without a start packet are all dropped. -/
theorem pushAll_inters_none (hmid : ∀ q ∈ mid, q.header.marker = .inter) :
    (∀ r ∈ (pushAll ⟨none⟩ mid).1, r.frame = none) ∧ (pushAll ⟨none⟩ mid).2 = ⟨none⟩ := by
  induction mid with
  | nil => exact ⟨by simp [pushAll], rfl⟩
  | cons q mid ih =>
    have hpush : push ⟨none⟩ q = (.ofDrop ⟨q.header.frameNumber, .unknownFrame⟩, ⟨none⟩) := by
      rw [push, hmid q mem_cons_self]
      rfl
    obtain ⟨hresults, hstate⟩ := ih fun r hr => hmid r (mem_cons_of_mem q hr)
    rw [pushAll, hpush]
    refine ⟨?_, hstate⟩
    intro r hr
    rcases mem_cons.mp hr with rfl | hr
    · rfl
    · exact hresults r hr

/-- Without any bound on their number, inner packets deliver nothing, and they are either all
collected or the partial frame is gone. -/
theorem pushAll_inters_cases {start : Packet} (hmid : ∀ q ∈ mid, start.InterOf q)
    (inters : List Packet) :
    (∀ r ∈ (pushAll ⟨some (of start inters)⟩ mid).1, r.frame = none) ∧
    ((pushAll ⟨some (of start inters)⟩ mid).2 = ⟨none⟩ ∨
      (pushAll ⟨some (of start inters)⟩ mid).2
        = ⟨some (of start (inters ++ mid))⟩) := by
  induction mid generalizing inters with
  | nil =>
    rw [append_nil]
    exact ⟨by simp [pushAll], .inr rfl⟩
  | cons q mid ih =>
    obtain ⟨hmarker, hnumber⟩ := hmid q mem_cons_self
    have hmid' : ∀ r ∈ mid, start.InterOf r := fun r hr => hmid r (mem_cons_of_mem q hr)
    have hpush : push ⟨some (of start inters)⟩ q
        = pushToPartial ⟨some (of start inters)⟩ q := by rw [push, hmarker]
    rw [pushAll, hpush]
    rcases pushToPartial_cases ⟨some (of start inters)⟩ q with
      ⟨e, he⟩ | ⟨p, hp, -, -, he⟩
    · -- the packet was dropped, and so is every later one
      obtain ⟨hresults, hstate⟩ := pushAll_inters_none (fun r hr => (hmid' r hr).1)
      simp only [he, hstate, true_or, and_true]
      intro r hr
      rcases mem_cons.mp hr with rfl | hr
      · rfl
      · exact hresults r hr
    · cases hp
      rw [if_neg (by rw [hmarker]; decide), of_insert] at he
      obtain ⟨hresults, hstate⟩ := ih hmid' (inters ++ [q])
      rw [append_assoc, singleton_append] at hstate
      simp only [he]
      refine ⟨?_, hstate⟩
      intro r hr
      rcases mem_cons.mp hr with rfl | hr
      · rfl
      · exact hresults r hr

namespace IsFrame

variable {start final : Packet} {inters : List Packet}

/-- Every packet of the frame sits at some index. -/
theorem exists_index (h : IsFrame start inters final) {q : Packet}
    (hq : q ∈ start :: (inters ++ [final])) :
    ∃ i, ∃ hi : i < (start :: (inters ++ [final])).length,
      (start :: (inters ++ [final]))[i] = q ∧
      q.header.sequence = after start.header.sequence i := by
  obtain ⟨i, hi, hget⟩ := mem_iff_getElem.mp hq
  exact ⟨i, hi, hget, hget ▸ h.sequence i hi⟩

/-- The final packet is `n - 1` places after the start packet. -/
theorem final_sequence (h : IsFrame start inters final) :
    final.header.sequence = after start.header.sequence (inters.length + 1) := by
  have := h.sequence (inters.length + 1) (by simp)
  simpa using this

/-- With more than 128 packets, those before the final one fill the buffer. -/
theorem size_of_inters_ge (h : IsFrame start inters final) (hlen : 128 < inters.length + 2) :
    MAX_BUFFER_PACKETS ≤ size (of start inters).payloads := by
  let firsts := (List.range MAX_BUFFER_PACKETS).map fun i => after start.header.sequence i
  have hnodup : firsts.Nodup := by
    refine List.Nodup.map_on ?_ nodup_range
    intro i hi j hj hij
    rw [mem_range, MAX_BUFFER_PACKETS] at hi hj
    exact after_injective (by omega) (by omega) hij
  have hmem : ∀ k ∈ firsts, k ∈ (of start inters).payloads := by
    intro k hk
    obtain ⟨i, hi, rfl⟩ := mem_map.mp hk
    rw [mem_range, MAX_BUFFER_PACKETS] at hi
    have hi' : i < (start :: inters).length := by
      rw [length_cons]
      omega
    have hall : i < (start :: (inters ++ [final])).length := by
      rw [← cons_append, length_append]
      omega
    have hget : (start :: (inters ++ [final]))[i] = (start :: inters)[i] := by
      simp only [← cons_append, getElem_append_left hi']
    have hseq := h.sequence i hall
    rw [hget] at hseq
    apply mem_insertAll.mpr
    exact mem_map.mpr ⟨_, getElem_mem hi', hseq⟩
  have hsize := le_size_of_subset _ hnodup hmem
  rwa [length_map, length_range] at hsize

variable {mid : List Packet}

section

variable (h : IsFrame start inters final)

include h

/-- The latest payload of each number, once every packet has been pushed at least once. -/
theorem latestPayload_eq (hlen : inters.length + 2 ≤ 65536) (hmid : ∀ q, q ∈ mid ↔ q ∈ inters)
    (i : ℕ) (hi : i < ((start :: (inters ++ [final])).map (·.payload)).length) :
    latestPayload (start :: (mid ++ [final])) (after start.header.sequence i)
      = some ((start :: (inters ++ [final])).map (·.payload))[i] := by
  have hmem : ∀ q, q ∈ start :: (mid ++ [final]) ↔ q ∈ start :: (inters ++ [final]) := by
    intro q
    simp only [mem_cons, mem_append, hmid]
  have hi' : i < (start :: (inters ++ [final])).length := by rwa [length_map] at hi
  have hbound : ∀ j < (start :: (inters ++ [final])).length, j < 65536 := by
    intro j hj
    rw [length_cons, length_append, length_singleton] at hj
    omega
  rw [getElem_map]
  apply latestPayload_eq_some
  · exact ⟨_, (hmem _).mpr (getElem_mem hi'), h.sequence i hi'⟩
  · intro q hq hk
    obtain ⟨j, hj, hget, hseq⟩ := h.exists_index ((hmem q).mp hq)
    -- two packets of the frame with one sequence number are the same packet
    have hij : j = i := after_injective (hbound j hj) (hbound i hi') (hseq.symm.trans hk)
    subst hij
    rw [hget]

/-- The start packet followed by the inner packets in any order, any number of times each, and
the final packet: only the last push delivers, and it delivers the whole frame. -/
theorem pushAll_shuffled (hlen : inters.length + 2 ≤ 128) (hmid : ∀ q, q ∈ mid ↔ q ∈ inters)
    (d : Depacketizer) :
    d.pushAll (start :: (mid ++ [final]))
      = (⟨none, d.interruptedError⟩ :: (List.replicate mid.length .default ++
          [.ofFrame ⟨((start :: (inters ++ [final])).map (·.payload)).flatten,
            start.header.extensions⟩]), ⟨none⟩) := by
  -- at most 127 different numbers are in the buffer before the final packet
  let keys := (start :: inters).map fun q => q.header.sequence
  have hkeys : keys.length < MAX_BUFFER_PACKETS := by
    rw [length_map, length_cons, MAX_BUFFER_PACKETS]
    omega
  have hstart : start.header.sequence ∈ keys := mem_map_of_mem mem_cons_self
  have hinters : ∀ q ∈ mid, start.InterOf q ∧ q.header.sequence ∈ keys := by
    intro q hq
    have hq' := (hmid q).mp hq
    exact ⟨h.inter_of q hq', mem_map_of_mem (mem_cons_of_mem start hq')⟩
  have hcollect := pushAll_inters [] mid hkeys (by simpa using hstart) hinters
  rw [nil_append] at hcollect
  have hroom : size (insertAll ∅ (start :: mid)) < MAX_BUFFER_PACKETS := by
    refine lt_of_le_of_lt (size_insertAll_le _ keys fun q hq => ?_) hkeys
    rcases mem_cons.mp hq with rfl | hq
    · exact hstart
    · exact (hinters q hq).2
  -- the walk finds the payload of every packet of the frame
  have hgather : gather (latestPayload (start :: (mid ++ [final]))) start.header.sequence
      (dist start.header.sequence final.header.sequence)
      = some ((start :: (inters ++ [final])).map (·.payload)).flatten := by
    have hn : dist start.header.sequence final.header.sequence
        = ((inters ++ [final]).map (·.payload)).length := by
      rw [h.final_sequence, dist_after (by omega), length_map, length_append,
        length_singleton]
    rw [hn, map_cons]
    exact gather_eq_flatten fun i hi => h.latestPayload_eq (by omega) hmid i (by simpa using hi)
  have hframe := finalize_of start (mid ++ [final]) final.header.sequence
  rw [hgather, Option.map_some] at hframe
  have hfinalize : finalize (of start (mid ++ [final])) final.header.sequence
      = .ofFrame ⟨((start :: (inters ++ [final])).map (·.payload)).flatten,
          start.header.extensions⟩ := by
    unfold finalize at hframe ⊢
    split at hframe
    · next hw =>
      simp only [DepacketizerPushResult.ofFrame, Option.some.injEq] at hframe ⊢
      simp only [hframe]
    · cases hframe
  have hlast : pushAll ⟨some (of start mid)⟩ [final]
      = ([.ofFrame ⟨((start :: (inters ++ [final])).map (·.payload)).flatten,
          start.header.extensions⟩], ⟨none⟩) := by
    rw [pushAll, push, h.final_marker]
    simp only [pushToPartial_of_room h.final_number hroom, h.final_marker, if_true, hfinalize,
      pushAll]
  rw [pushAll, push_start d h.start_marker]
  simp only [pushAll_append, hcollect, hlast]

/-- The same with the final packet's push told apart from those before it. -/
theorem push_final (hlen : inters.length + 2 ≤ 128) (hmid : ∀ q, q ∈ mid ↔ q ∈ inters)
    (d : Depacketizer) :
    (d.pushAll (start :: mid)).1
      = ⟨none, d.interruptedError⟩ :: List.replicate mid.length .default ∧
    ((d.pushAll (start :: mid)).2.push final).1
      = .ofFrame ⟨((start :: (inters ++ [final])).map (·.payload)).flatten,
          start.header.extensions⟩ := by
  have hall := h.pushAll_shuffled hlen hmid d
  rw [← cons_append, pushAll_append, ← cons_append] at hall
  have hpair := Prod.ext_iff.mp hall
  obtain ⟨hresults, hlast⟩ := append_inj' hpair.1 (by simp [pushAll])
  exact ⟨hresults, head_eq_of_cons_eq hlast⟩

/-- A frame of more than 128 packets is never delivered: its final packet finds either no
partial frame or a full one. -/
theorem pushAll_overflow (hlen : 128 < inters.length + 2) (d : Depacketizer)
    (r : DepacketizerPushResult) (hr : r ∈ (d.pushAll (start :: (inters ++ [final]))).1) :
    r.frame = none := by
  have hinters := pushAll_inters_cases h.inter_of []
  rw [nil_append] at hinters
  have hlast : ((pushAll ⟨some (of start [])⟩ inters).2.push final).1.frame
      = none := by
    rw [push, h.final_marker]
    rcases hinters.2 with hnone | hsome
    · rw [hnone]
      rfl
    · have hfull := h.size_of_inters_ge hlen
      rw [hsome]
      rcases pushToPartial_cases ⟨some (of start inters)⟩ final with
        ⟨e, he⟩ | ⟨p, hp, -, hroom, -⟩
      · simp only [he]
        rfl
      · cases hp
        exact absurd hroom (Nat.not_lt.mpr hfull)
  rw [pushAll_cons, push_start d h.start_marker, pushAll_append] at hr
  rcases mem_cons.mp hr with rfl | hr
  · rfl
  · rcases mem_append.mp hr with hr | hr
    · exact hinters.1 r hr
    · rw [pushAll_cons, pushAll, mem_singleton] at hr
      rw [hr]
      exact hlast

end

end IsFrame

/-- **Reassembly.** For every sequence of packets pushed into a fresh depacketizer, a
multi-packet frame that is delivered consists of the latest payloads of the consecutive
sequence numbers from its start packet's to its final packet's, all pushed since that start
packet and all with its frame number, and carries the start packet's extensions. And from any
state, a frame of at most 128 packets whose inner packets arrive in any order and with any
repetitions between its start and its final packet is delivered as it is in order. -/
theorem reassembly_sound_and_order_insensitive :
    (∀ (pushed : List Packet) (q : Packet) (frame : DepacketizerFrame),
      q.header.marker ≠ .single → ((new.pushAll pushed).2.push q).1.frame = some frame →
      q.header.marker = .final ∧ ∃ pre start inters,
        pushed = pre ++ start :: inters ∧ start.header.marker = .start ∧
        (∀ r ∈ inters, start.InterOf r) ∧
        q.header.frameNumber = start.header.frameNumber ∧
        frame.extensions = start.header.extensions ∧
        gather (latestPayload (start :: (inters ++ [q]))) start.header.sequence
          (dist start.header.sequence q.header.sequence) = some frame.payload) ∧
    (∀ (d : Depacketizer) (start final : Packet) (inters mid : List Packet),
      IsFrame start inters final → inters.length + 2 ≤ 128 → (∀ q, q ∈ mid ↔ q ∈ inters) →
      ((d.pushAll (start :: mid)).2.push final).1
        = ((d.pushAll (start :: inters)).2.push final).1 ∧
      ((d.pushAll (start :: mid)).2.push final).1
        = .ofFrame ⟨((start :: (inters ++ [final])).map (·.payload)).flatten,
            start.header.extensions⟩ ∧
      ∀ r ∈ (d.pushAll (start :: mid)).1, r.frame = none) := by
  constructor
  · intro pushed q frame hmulti h
    exact (segmented_pushAll pushed).frame hmulti h
  · intro d start final inters mid hframe hlen hmid
    -- what any order gives, and in particular the order of the frame itself
    obtain ⟨hresults, hlast⟩ := hframe.push_final hlen hmid d
    obtain ⟨-, hlast'⟩ := hframe.push_final hlen (fun q => Iff.rfl) d
    refine ⟨hlast.trans hlast'.symm, hlast, ?_⟩
    intro r hr
    rw [hresults] at hr
    rcases mem_cons.mp hr with rfl | hr
    · rfl
    · rw [eq_of_mem_replicate hr]
      rfl

/-- A frame of three packets around the wrap of the sequence number, its inner packet twice. -/
theorem reassembly_of_repeated_inter :
    let packet (marker : FrameMarker) (sequence : UInt16) (payload : Bytes) : Packet :=
      ⟨⟨marker, ⟨1, by decide⟩, sequence, 7, ⟨0⟩, .default⟩, payload⟩
    let start := packet .start 65535 [1]
    let inter := packet .inter 0 [2]
    let final := packet .final 1 [3]
    ((new.pushAll [start, inter, inter]).2.push final).1 = .ofFrame ⟨[1, 2, 3], .default⟩ := by
  intro packet start inter final
  have hframe : IsFrame start [inter] final := by
    refine ⟨rfl, ?_, rfl, rfl, ?_⟩
    · intro q hq
      rw [mem_singleton.mp hq]
      exact ⟨rfl, rfl⟩
    · decide
  exact (reassembly_sound_and_order_insensitive.2 new start final [inter] [inter, inter] hframe
    (by decide) (by simp)).2.1

end Depacketizer

end LiveKit.DataTrack
