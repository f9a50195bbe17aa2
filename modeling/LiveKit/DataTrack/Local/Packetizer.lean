import LiveKit.DataTrack.Packet.Serialize
import LiveKit.Lib.SerialNumber

/-!
# Packetizer

`utils/counter.rs`, `utils/bytes.rs` and `local/packetizer.rs`: a frame is cut into chunks of
the largest payload that fits the transport next to the header, and every chunk becomes one
packet with the next sequence number.

`Packetizer.packetize_eq` says all of what a successful call returns: the chunks concatenate
to the payload, and the `i`-th packet has the frame's header with its own marker and
sequence number.
-/

namespace LiveKit.DataTrack

open List SerialNumber

/-! ## Wrapping counters -/

/-- A type that supports incrementing with wrap-around. -/
class WrappingIncrement (T : Type) where
  wrappingInc : T → T

instance : WrappingIncrement UInt8 := ⟨(· + 1)⟩
instance : WrappingIncrement UInt16 := ⟨(· + 1)⟩
instance : WrappingIncrement UInt32 := ⟨(· + 1)⟩
instance : WrappingIncrement UInt64 := ⟨(· + 1)⟩

/-- A counter that increases monotonically and wraps on overflow. -/
structure Counter (T : Type) where
  value : T

/-- Returns current value, then increments with wrap-around. -/
def Counter.getThenIncrement {T : Type} [WrappingIncrement T] (c : Counter T) : T × Counter T :=
  (c.value, ⟨WrappingIncrement.wrappingInc c.value⟩)

/-! ## Chunks -/

/-- An iterator over chunks of a certain size; a size of zero is ruled out by the assertion in
`into_chunks`. -/
structure ChunkIter where
  source : Bytes
  maxSize : ℕ
  maxSize_ne_zero : maxSize ≠ 0

/-- The next chunk and the iterator that is left. -/
def ChunkIter.next (it : ChunkIter) : Option (Bytes × ChunkIter) :=
  if it.source.isEmpty then none
  else
    let n := min it.maxSize it.source.length
    some (it.source.take n, { it with source := it.source.drop n })

/-- Run the iterator to its end. A chunk has at least one byte, so as many calls as there
are bytes always suffice (`ChunkIter.flatten_collect`). -/
def ChunkIter.collect : ℕ → ChunkIter → List Bytes
  | 0, _ => []
  | fuel + 1, it =>
    match it.next with
    | none => []
    | some (chunk, it) => chunk :: ChunkIter.collect fuel it

def intoChunks (source : Bytes) (maxSize : ℕ) (h : maxSize ≠ 0) : List Bytes :=
  ChunkIter.collect source.length ⟨source, maxSize, h⟩

theorem ChunkIter.next_cons {b : UInt8} {bs : Bytes} {m : ℕ} {h : m ≠ 0} :
    ChunkIter.next ⟨b :: bs, m, h⟩
      = some ((b :: bs).take m, ⟨(b :: bs).drop m, m, h⟩) := by
  unfold ChunkIter.next
  rw [if_neg (by simp)]
  rcases Nat.le_total m (b :: bs).length with hle | hle
  · simp only [Nat.min_eq_left hle]
  · simp only [Nat.min_eq_right hle, take_of_length_le hle, drop_eq_nil_of_le hle,
      take_length, drop_length]

/-- The chunks concatenate to the source. -/
theorem ChunkIter.flatten_collect (fuel : ℕ) (source : Bytes) (m : ℕ) (h : m ≠ 0)
    (hfuel : source.length ≤ fuel) :
    (ChunkIter.collect fuel ⟨source, m, h⟩).flatten = source := by
  induction fuel generalizing source with
  | zero =>
    rw [eq_nil_of_length_eq_zero (Nat.le_zero.mp hfuel)]
    rfl
  | succ fuel ih =>
    cases source with
    | nil => rfl
    | cons b bs =>
      have hdrop : ((b :: bs).drop m).length ≤ fuel := by
        rw [length_drop, length_cons] at *
        omega
      rw [ChunkIter.collect, ChunkIter.next_cons]
      show ((b :: bs).take m :: ChunkIter.collect fuel ⟨(b :: bs).drop m, m, h⟩).flatten = _
      rw [flatten_cons, ih _ hdrop, take_append_drop]

/-- There are as many chunks as a rounded-up division gives. -/
theorem ChunkIter.length_collect (fuel : ℕ) (source : Bytes) (m : ℕ) (h : m ≠ 0)
    (hfuel : source.length ≤ fuel) :
    (ChunkIter.collect fuel ⟨source, m, h⟩).length = source.length ⌈/⌉ m := by
  induction fuel generalizing source with
  | zero =>
    rw [eq_nil_of_length_eq_zero (Nat.le_zero.mp hfuel)]
    simp [ChunkIter.collect]
  | succ fuel ih =>
    cases source with
    | nil => simp [ChunkIter.collect, ChunkIter.next]
    | cons b bs =>
      have hdrop : ((b :: bs).drop m).length ≤ fuel := by
        rw [length_drop, length_cons] at *
        omega
      rw [ChunkIter.collect, ChunkIter.next_cons]
      show ((b :: bs).take m :: ChunkIter.collect fuel ⟨(b :: bs).drop m, m, h⟩).length = _
      rw [length_cons, ih _ hdrop, length_drop, length_cons,
        Nat.ceilDiv_eq_add_pred_div, Nat.ceilDiv_eq_add_pred_div,
        show bs.length + 1 + m - 1 = bs.length + m by omega,
        Nat.add_div_right _ (Nat.pos_of_ne_zero h)]
      -- a last, short chunk leaves nothing, a full one leaves `bs.length + 1 - m` bytes
      rcases Nat.lt_or_ge (bs.length + 1) m with hlt | hge
      · rw [Nat.div_eq_of_lt (show bs.length < m by omega), Nat.div_eq_of_lt (by omega)]
      · rw [show bs.length + 1 - m + m - 1 = bs.length by omega]

theorem flatten_intoChunks (source : Bytes) (m : ℕ) (h : m ≠ 0) :
    (intoChunks source m h).flatten = source :=
  ChunkIter.flatten_collect _ source m h (le_refl _)

theorem length_intoChunks (source : Bytes) (m : ℕ) (h : m ≠ 0) :
    (intoChunks source m h).length = source.length ⌈/⌉ m :=
  ChunkIter.length_collect _ source m h (le_refl _)

/-! ## Packetizing -/

/-- Converts application-level frames into packets for transport. -/
structure Packetizer where
  handle : Handle
  mtuSize : ℕ
  sequence : Counter UInt16
  frameNumber : Counter UInt16
  clock : Clock 90000

/-- Frame packetized by `Packetizer`. -/
structure PacketizerFrame where
  payload : Bytes
  extensions : Extensions

inductive PacketizerError where
  | mtuTooShort

namespace Packetizer

/-- A new packetizer; the random timestamp base is a parameter. -/
def new (trackHandle : Handle) (mtuSize : ℕ) (now : Instant) (base : Timestamp 90000) :
    Packetizer :=
  ⟨trackHandle, mtuSize, ⟨0⟩, ⟨0⟩, Clock.withEpoch now base⟩

def frameMarker (index packetCount : ℕ) : FrameMarker :=
  if packetCount ≤ 1 then .single
  else if index = 0 then .start
  else if index = packetCount - 1 then .final
  else .inter

/-- The packets of the remaining chunks, each taking the next sequence number. -/
def packets (header : Header) (packetCount : ℕ) :
    ℕ → Counter UInt16 → List Bytes → List Packet × Counter UInt16
  | _, sequence, [] => ([], sequence)
  | index, sequence, payload :: rest =>
    let (seq, sequence) := sequence.getThenIncrement
    let packet : Packet :=
      ⟨{ header with marker := frameMarker index packetCount, sequence := seq }, payload⟩
    let (tail, sequence) := packets header packetCount (index + 1) sequence rest
    (packet :: tail, sequence)

/-- Packetizes a frame into one or more packets. -/
def packetize (p : Packetizer) (now : Instant) (frame : PacketizerFrame) :
    Except PacketizerError (List Packet) × Packetizer :=
  let (timestamp, clock) := p.clock.timestampAt now
  let p := { p with clock := clock }
  let header : Header := ⟨.inter, p.handle, 0, 0, timestamp, frame.extensions⟩
  let maxPayloadSize := p.mtuSize - header.serializedLen
  if h : maxPayloadSize = 0 then (.error .mtuTooShort, p)
  else
    let (number, frameNumber) := p.frameNumber.getThenIncrement
    let header := { header with frameNumber := number }
    let packetCount := frame.payload.length ⌈/⌉ maxPayloadSize
    let (packets, sequence) :=
      packets header packetCount 0 p.sequence (intoChunks frame.payload maxPayloadSize h)
    (.ok packets, { p with frameNumber := frameNumber, sequence := sequence })

/-! ## What a frame becomes -/

/-- The packet of the chunk at `index`, in a frame whose first sequence number is `start`. -/
def framePacket (header : Header) (packetCount : ℕ) (start : UInt16) (index : ℕ)
    (payload : Bytes) : Packet :=
  ⟨{ header with marker := frameMarker index packetCount, sequence := after start index }, payload⟩

/-- Chunks become packets one by one, with consecutive sequence numbers. -/
theorem packets_eq (header : Header) (packetCount index : ℕ) (start : UInt16)
    (chunks : List Bytes) :
    packets header packetCount index ⟨after start index⟩ chunks
      = (chunks.mapIdx fun i c => framePacket header packetCount start (index + i) c,
          ⟨after start (index + chunks.length)⟩) := by
  induction chunks generalizing index with
  | nil => rfl
  | cons c cs ih =>
    have hnext : after start index + 1 = after start (index + 1) := after_after start index 1
    have htail := ih (index + 1)
    rw [← hnext] at htail
    rw [packets]
    simp only [Counter.getThenIncrement, WrappingIncrement.wrappingInc, htail, mapIdx_cons,
      length_cons, Nat.add_zero]
    simp only [framePacket, Nat.add_assoc, Nat.add_comm 1]

variable {p p' : Packetizer} {now : Instant} {frame : PacketizerFrame} {ps : List Packet}

/-- A successful call: the payload is cut into chunks, each the payload of one packet. -/
theorem packetize_eq (h : p.packetize now frame = (.ok ps, p')) :
    ∃ (header : Header) (chunks : List Bytes),
      chunks.flatten = frame.payload ∧ header.extensions = frame.extensions ∧
      header.trackHandle = p.handle ∧ header.frameNumber = p.frameNumber.value ∧
      ps = chunks.mapIdx fun i c => framePacket header chunks.length p.sequence.value i c := by
  unfold packetize at h
  simp only at h
  split at h
  · cases h
  · next hmax =>
    simp only [Counter.getThenIncrement, Prod.mk.injEq, Except.ok.injEq] at h
    obtain ⟨rfl, -⟩ := h
    refine ⟨⟨.inter, p.handle, 0, p.frameNumber.value, (p.clock.timestampAt now).1,
      frame.extensions⟩, _, flatten_intoChunks frame.payload _ hmax, rfl, rfl, rfl, ?_⟩
    rw [length_intoChunks]
    have hstart : p.sequence = ⟨after p.sequence.value 0⟩ := by rw [after_zero]
    rw [hstart, packets_eq]
    simp only [Nat.zero_add, after_zero]

/-- A frame without a payload has no chunk, and becomes no packet. -/
theorem packetize_nil (h : p.packetize now frame = (.ok ps, p')) (hpayload : frame.payload = []) :
    ps = [] := by
  have hchunks : ∀ m (hm : m ≠ 0), intoChunks frame.payload m hm = [] := by
    intro m hm
    rw [hpayload]
    rfl
  unfold packetize at h
  simp only [hchunks] at h
  split at h
  · cases h
  · exact (Except.ok.inj (Prod.mk.inj h).1).symm

/-- A call either fails, or it yields packets; the limits of the packetizer stay. -/
theorem packetize_cases (p : Packetizer) (now : Instant) (frame : PacketizerFrame) :
    ∃ p', p'.mtuSize = p.mtuSize ∧ (p.packetize now frame = (.error .mtuTooShort, p') ∧
        p.mtuSize ≤ 40 ∨ ∃ ps, p.packetize now frame = (.ok ps, p')) := by
  unfold packetize
  generalize hclock : p.clock.timestampAt now = clock
  simp only
  split
  · next hmax =>
    have hle := Header.serializedLen_le ⟨.inter, p.handle, 0, 0, clock.1, frame.extensions⟩
    refine ⟨_, ?_, .inl ⟨rfl, by omega⟩⟩
    rfl
  · next hmax =>
    generalize packets _ _ _ _ _ = result
    refine ⟨_, ?_, .inr ⟨_, rfl⟩⟩
    rfl

end Packetizer

end LiveKit.DataTrack
