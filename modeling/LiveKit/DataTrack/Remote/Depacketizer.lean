import LiveKit.DataTrack.Packet.Basic
import LiveKit.Lib.AssocMap
import LiveKit.Lib.SerialNumber

/-!
# Depacketizer

`remote/depacketizer.rs`: reassembles packets into frames. At most one frame is being
assembled at a time; its payloads are kept by sequence number, and the final packet of the
frame triggers a walk from the start packet's number to its own.

`gather` is what that walk is for: the payloads of a run of consecutive numbers, put
together, if none is missing. `finalizeLoop_eq` says that the walk computes it.
-/

namespace LiveKit.DataTrack

open SerialNumber

/-- Reason why a frame was dropped. -/
inductive DepacketizerDropReason where
  /-- Interrupted by the start of a new frame. -/
  | interrupted
  /-- Initial packet was never received. -/
  | unknownFrame
  /-- Reorder buffer is full. -/
  | bufferFull
  /-- Not all packets received before final packet. -/
  | incomplete (received expected : UInt16)
deriving DecidableEq

structure DepacketizerDropError where
  frameNumber : UInt16
  reason : DepacketizerDropReason

/-- A frame that has been fully reassembled. -/
structure DepacketizerFrame where
  payload : Bytes
  extensions : Extensions

/-- Result of a push: it can both deliver a frame and drop a previous one. -/
structure DepacketizerPushResult where
  frame : Option DepacketizerFrame
  dropError : Option DepacketizerDropError

def DepacketizerPushResult.default : DepacketizerPushResult := ⟨none, none⟩

def DepacketizerPushResult.ofFrame (frame : DepacketizerFrame) : DepacketizerPushResult :=
  ⟨some frame, none⟩

def DepacketizerPushResult.ofDrop (dropError : DepacketizerDropError) : DepacketizerPushResult :=
  ⟨none, some dropError⟩

/-- Frame being assembled as packets are received. -/
structure PartialFrame where
  /-- Frame number from the start packet. -/
  frameNumber : UInt16
  /-- Sequence of the start packet. -/
  startSequence : UInt16
  /-- Extensions from the start packet. -/
  extensions : Extensions
  /-- Mapping between sequence number and packet payload. -/
  payloads : AssocMap UInt16 Bytes

/-- Record a packet's payload; a duplicate sequence number is replaced with the latest. -/
def PartialFrame.insert (p : PartialFrame) (packet : Packet) : PartialFrame :=
  { p with payloads := AList.insert packet.header.sequence packet.payload p.payloads }

structure Depacketizer where
  /-- Partial frame currently being assembled. -/
  partialFrame : Option PartialFrame

namespace Depacketizer

/-- Maximum number of packets to buffer per frame before dropping. -/
def MAX_BUFFER_PACKETS : ℕ := 128

def new : Depacketizer := ⟨none⟩

/-- The drop error for a partial frame that a new frame replaces, if there is one. -/
def interruptedError (d : Depacketizer) : Option DepacketizerDropError :=
  d.partialFrame.map fun p => ⟨p.frameNumber, .interrupted⟩

def frameFromSingle (d : Depacketizer) (packet : Packet) :
    DepacketizerPushResult × Depacketizer :=
  (⟨some ⟨packet.payload, packet.header.extensions⟩, d.interruptedError⟩, ⟨none⟩)

/-- Begin assembling a new packet. -/
def beginPartial (d : Depacketizer) (packet : Packet) : DepacketizerPushResult × Depacketizer :=
  let startSequence := packet.header.sequence
  let partialFrame : PartialFrame :=
    { frameNumber := packet.header.frameNumber
      startSequence
      extensions := packet.header.extensions
      payloads := AList.insert startSequence packet.payload ∅ }
  (⟨none, d.interruptedError⟩, ⟨some partialFrame⟩)

/-- The walk of `finalize`: take the payloads out in sequence order until the end sequence has
been taken; `none` when a number is missing. -/
def finalizeLoop (payloads : AssocMap UInt16 Bytes) (sequence endSequence : UInt16)
    (payload : Bytes) : Option Bytes :=
  match _h : AList.lookup sequence payloads with
  | none => none
  | some partialPayload =>
    let payload := payload ++ partialPayload
    if sequence ≠ endSequence then
      finalizeLoop (AList.erase sequence payloads) (sequence + 1) endSequence payload
    else some payload
termination_by AssocMap.size payloads
decreasing_by exact AssocMap.size_erase_lt payloads _h

/-- Try to reassemble the complete frame. -/
def finalize (p : PartialFrame) (endSequence : UInt16) : DepacketizerPushResult :=
  let received := UInt16.ofNat (AssocMap.size p.payloads)
  match finalizeLoop p.payloads p.startSequence endSequence [] with
  | some payload => .ofFrame ⟨payload, p.extensions⟩
  | none =>
    .ofDrop ⟨p.frameNumber, .incomplete received (endSequence - p.startSequence + 1)⟩

/-- Push to the existing partial frame. The frame is taken out first, so every early return
leaves no partial frame. -/
def pushToPartial (d : Depacketizer) (packet : Packet) : DepacketizerPushResult × Depacketizer :=
  match d.partialFrame with
  | none => (.ofDrop ⟨packet.header.frameNumber, .unknownFrame⟩, ⟨none⟩)
  | some p =>
    if packet.header.frameNumber ≠ p.frameNumber then
      (.ofDrop ⟨p.frameNumber, .interrupted⟩, ⟨none⟩)
    else if AssocMap.size p.payloads ≥ MAX_BUFFER_PACKETS then
      (.ofDrop ⟨p.frameNumber, .bufferFull⟩, ⟨none⟩)
    else
      let p := p.insert packet
      if packet.header.marker = .final then (finalize p packet.header.sequence, ⟨none⟩)
      else (.default, ⟨some p⟩)

/-- Push a packet into the depacketizer. -/
def push (d : Depacketizer) (packet : Packet) : DepacketizerPushResult × Depacketizer :=
  match packet.header.marker with
  | .single => d.frameFromSingle packet
  | .start => d.beginPartial packet
  | .inter | .final => d.pushToPartial packet

/-- Push packets one after the other, keeping every result. -/
def pushAll (d : Depacketizer) : List Packet → List DepacketizerPushResult × Depacketizer
  | [] => ([], d)
  | packet :: rest =>
    let (result, d) := d.push packet
    let (results, d) := pushAll d rest
    (result :: results, d)

theorem pushAll_cons (d : Depacketizer) (p : Packet) (ps : List Packet) :
    d.pushAll (p :: ps)
      = ((d.push p).1 :: ((d.push p).2.pushAll ps).1, ((d.push p).2.pushAll ps).2) := rfl

theorem pushAll_append (d : Depacketizer) (ps qs : List Packet) :
    d.pushAll (ps ++ qs) = ((d.pushAll ps).1 ++ ((d.pushAll ps).2.pushAll qs).1,
      ((d.pushAll ps).2.pushAll qs).2) := by
  induction ps generalizing d with
  | nil => rfl
  | cons p ps ih =>
    rw [List.cons_append, pushAll_cons, pushAll_cons, ih, List.cons_append]

@[simp] theorem length_pushAll (d : Depacketizer) (ps : List Packet) :
    (d.pushAll ps).1.length = ps.length := by
  induction ps generalizing d with
  | nil => rfl
  | cons p ps ih => rw [pushAll_cons, List.length_cons, ih, List.length_cons]

/-! ## Gathering a run of payloads -/

/-- The concatenation of `f s, f (s + 1), …, f (s + n)` with wrapping numbers, if all of them
are there. -/
def gather (f : UInt16 → Option Bytes) (s : UInt16) : ℕ → Option Bytes
  | 0 => f s
  | n + 1 => (f s).bind fun c => (gather f (s + 1) n).map (c ++ ·)

theorem gather_congr {f g : UInt16 → Option Bytes} {s : UInt16} {n : ℕ}
    (h : ∀ i ≤ n, f (after s i) = g (after s i)) : gather f s n = gather g s n := by
  induction n generalizing s with
  | zero =>
    have := h 0 (le_refl 0)
    rwa [after_zero] at this
  | succ n ih =>
    have hfirst := h 0 (Nat.zero_le _)
    rw [after_zero] at hfirst
    rw [gather, gather, hfirst, ih]
    intro i hi
    rw [after_succ]
    exact h (i + 1) (by omega)

/-- When the run is there as a list of pieces, it gathers to their concatenation. -/
theorem gather_eq_flatten {f : UInt16 → Option Bytes} {s : UInt16} {c : Bytes} {cs : List Bytes}
    (h : ∀ i (hi : i < (c :: cs).length), f (after s i) = some (c :: cs)[i]) :
    gather f s cs.length = some (c :: cs).flatten := by
  induction cs generalizing s c with
  | nil =>
    have := h 0 (by simp)
    rw [after_zero] at this
    simpa [gather] using this
  | cons c' cs ih =>
    have hfirst := h 0 (by simp)
    rw [after_zero] at hfirst
    have hrest : gather f (s + 1) cs.length = some (c' :: cs).flatten := by
      apply ih
      intro i hi
      rw [after_succ]
      exact h (i + 1) (by simpa using hi)
    rw [List.length_cons, gather, hfirst, hrest]
    rfl

/-- The walk gathers the payloads from the current number to the end number. -/
theorem finalizeLoop_eq (payloads : AssocMap UInt16 Bytes) (s e : UInt16) (acc : Bytes) :
    finalizeLoop payloads s e acc
      = (gather (fun k => AList.lookup k payloads) s (dist s e)).map (acc ++ ·) := by
  induction hn : dist s e generalizing payloads s acc with
  | zero =>
    have hse : s = e := by
      have := after_dist s e
      rwa [hn, after_zero] at this
    subst hse
    rw [finalizeLoop, gather]
    split
    · next h => rw [h]; rfl
    · next c h => rw [h, if_neg (not_not.mpr rfl)]; rfl
  | succ n ih =>
    have hne : s ≠ e := by
      rintro rfl
      rw [dist_self] at hn
      omega
    have hnext : dist (s + 1) e = n := by
      have := dist_succ_left hne
      omega
    rw [finalizeLoop, gather]
    split
    · next h => rw [h]; rfl
    · next c h =>
      rw [if_pos hne, ih _ _ _ hnext, h]
      -- what was taken out is not met again within one turn
      have hrest : gather (fun k => AList.lookup k (AList.erase s payloads)) (s + 1) n
          = gather (fun k => AList.lookup k payloads) (s + 1) n := by
        apply gather_congr
        intro i hi
        have hlt := dist_lt s e
        apply AList.lookup_erase_ne
        intro hback
        rw [after_succ] at hback
        have h0 : after s (i + 1) = after s 0 := by rw [hback, after_zero]
        have := after_injective (by omega) (by omega) h0
        omega
      rw [hrest, Option.bind_some, Option.map_map]
      simp only [Function.comp_def, List.append_assoc]

end Depacketizer

end LiveKit.DataTrack
