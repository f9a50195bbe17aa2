import LiveKit.DataTrack.Remote.DepacketizerTheorems

/-!
# What becomes of every frame

The partial frame is taken out on every exit of `push`, and put back, delivered or dropped. A frame
that begins is delivered, reported as dropped, or still being assembled, and only one of these.
-/

namespace LiveKit.DataTrack

/-- A frame begins with the packet. -/
def Packet.begins (p : Packet) : Bool :=
  p.header.marker = .start || p.header.marker = .single

namespace DepacketizerPushResult

def delivers (r : DepacketizerPushResult) : Bool := r.frame.isSome

/-- A frame was dropped whose start packet is known. -/
def loses (r : DepacketizerPushResult) : Bool :=
  r.dropError.any fun e => e.reason ≠ .unknownFrame

end DepacketizerPushResult

namespace Depacketizer

open DepacketizerPushResult

/-- A frame is being assembled. -/
def holds (d : Depacketizer) : Bool := d.partialFrame.isSome

/-! ## One push -/

theorem finalize_accounts (p : PartialFrame) (endSequence : UInt16) :
    (finalize p endSequence).delivers.toNat + (finalize p endSequence).loses.toNat = 1 := by
  unfold finalize
  dsimp only
  split
  · rfl
  · rfl

theorem interruptedError_accounts (d : Depacketizer) :
    (d.interruptedError.any fun e => e.reason ≠ .unknownFrame) = d.holds := by
  unfold interruptedError holds
  cases d.partialFrame with
  | none => rfl
  | some p => rfl

theorem pushToPartial_accounts (d : Depacketizer) (p : Packet) :
    d.holds.toNat =
      (d.pushToPartial p).1.delivers.toNat + (d.pushToPartial p).1.loses.toNat +
        (d.pushToPartial p).2.holds.toNat := by
  unfold pushToPartial holds
  cases d.partialFrame with
  | none => rfl
  | some partialFrame =>
    dsimp only
    split_ifs with hnumber hfull hfinal
    · rfl
    · rfl
    · exact (finalize_accounts (partialFrame.insert p) p.header.sequence).symm
    · rfl

/-- Every exit accounts for the frame that was there and for the one that begins. -/
theorem push_accounts (d : Depacketizer) (p : Packet) :
    p.begins.toNat + d.holds.toNat =
      (d.push p).1.delivers.toNat + (d.push p).1.loses.toNat + (d.push p).2.holds.toNat := by
  have hinterrupted := d.interruptedError_accounts
  unfold push Packet.begins
  cases hmarker : p.header.marker with
  | single =>
    show 1 + d.holds.toNat = 1 + Bool.toNat (d.interruptedError.any _) + 0
    rw [hinterrupted]
    omega
  | start =>
    show 1 + d.holds.toNat = 0 + Bool.toNat (d.interruptedError.any _) + 1
    rw [hinterrupted]
    omega
  | inter | final =>
    show 0 + d.holds.toNat = _
    rw [Nat.zero_add]
    exact d.pushToPartial_accounts p

/-- The frame of a drop error is the one that was being assembled, unless it is unknown. -/
theorem dropError_frameNumber {d : Depacketizer} {p : Packet} {e : DepacketizerDropError}
    (h : (d.push p).1.dropError = some e) (hknown : e.reason ≠ .unknownFrame) :
    ∃ partialFrame, d.partialFrame = some partialFrame ∧
      e.frameNumber = partialFrame.frameNumber := by
  have hinterrupted : d.interruptedError = some e →
      ∃ partialFrame, d.partialFrame = some partialFrame ∧
        e.frameNumber = partialFrame.frameNumber := by
    intro he
    obtain ⟨partialFrame, hpartial, rfl⟩ := Option.map_eq_some_iff.mp he
    exact ⟨partialFrame, hpartial, rfl⟩
  have hpushed : (d.pushToPartial p).1.dropError = some e →
      ∃ partialFrame, d.partialFrame = some partialFrame ∧
        e.frameNumber = partialFrame.frameNumber := by
    unfold pushToPartial
    cases d.partialFrame with
    | none =>
      intro he
      cases he
      exact absurd rfl hknown
    | some partialFrame =>
      dsimp only
      split_ifs with hnumber hfull hfinal
      · intro he
        cases he
        exact ⟨partialFrame, rfl, rfl⟩
      · intro he
        cases he
        exact ⟨partialFrame, rfl, rfl⟩
      · unfold finalize
        dsimp only
        split
        · intro he
          cases he
        · intro he
          cases he
          exact ⟨partialFrame, rfl, rfl⟩
      · intro he
        cases he
  unfold push at h
  cases hmarker : p.header.marker with
  | single | start =>
    rw [hmarker] at h
    exact hinterrupted h
  | inter | final =>
    rw [hmarker] at h
    exact hpushed h

/-- The payloads of a partial frame are no more than the buffer has place for. -/
def Bounded (d : Depacketizer) : Prop :=
  ∀ p, d.partialFrame = some p → AssocMap.size p.payloads ≤ MAX_BUFFER_PACKETS

theorem size_insert_le (m : AssocMap UInt16 Bytes) (k : UInt16) (payload : Bytes) :
    AssocMap.size (AList.insert k payload m) ≤ AssocMap.size m + 1 := by
  have hle := AssocMap.size_le_of_subset (AList.insert k payload m) (k :: m.keys) (by
    intro k' hin
    rw [AList.mem_insert] at hin
    exact List.mem_cons.mpr hin)
  rw [List.length_cons] at hle
  exact hle

theorem bounded_push (d : Depacketizer) (p : Packet) : (d.push p).2.Bounded := by
  have hpushed : (d.pushToPartial p).2.Bounded := by
    intro partialFrame hpartial
    cases pushToPartial_cases d p with
    | inl hdropped =>
      obtain ⟨e, he⟩ := hdropped
      rw [he] at hpartial
      cases hpartial
    | inr hadded =>
      obtain ⟨before, -, -, hroom, he⟩ := hadded
      rw [he] at hpartial
      -- a final packet leaves no partial frame
      split_ifs at hpartial with hfinal
      cases hpartial
      have hsize := size_insert_le before.payloads p.header.sequence p.payload
      show AssocMap.size (AList.insert _ _ before.payloads) ≤ _
      omega
  unfold push
  cases p.header.marker with
  | single =>
    intro partialFrame hpartial
    cases hpartial
  | start =>
    intro partialFrame hpartial
    cases hpartial
    exact Nat.le_trans (size_insert_le ∅ p.header.sequence p.payload) (by decide)
  | inter | final => exact hpushed

/-! ## All pushes -/

theorem countP_cons_toNat {α : Type} (p : α → Bool) (a : α) (l : List α) :
    (a :: l).countP p = (p a).toNat + l.countP p := by
  rw [List.countP_cons, Nat.add_comm]
  cases p a with
  | false => rfl
  | true => rfl

theorem pushAll_accounts (d : Depacketizer) (ps : List Packet) :
    ps.countP Packet.begins + d.holds.toNat =
      (d.pushAll ps).1.countP delivers + (d.pushAll ps).1.countP loses +
        (d.pushAll ps).2.holds.toNat := by
  induction ps generalizing d with
  | nil =>
    show 0 + d.holds.toNat = 0 + 0 + d.holds.toNat
    rfl
  | cons p ps ih =>
    have hone := d.push_accounts p
    have hrest := ih (d.push p).2
    rw [pushAll_cons, countP_cons_toNat, countP_cons_toNat, countP_cons_toNat]
    dsimp only
    omega

theorem bounded_pushAll (ps : List Packet) : (new.pushAll ps).2.Bounded := by
  induction ps using List.reverseRecOn with
  | nil =>
    intro p hp
    cases hp
  | append_singleton ps q _ =>
    rw [pushAll_append]
    exact bounded_push _ q

/-- The accounts after these packets. -/
structure Accounts (pushed : List Packet) : Prop where
  /-- Every frame that has begun is delivered, dropped with an error, or still held. -/
  balance : pushed.countP Packet.begins =
    (new.pushAll pushed).1.countP delivers + (new.pushAll pushed).1.countP loses +
      (new.pushAll pushed).2.holds.toNat
  /-- The error of a push is about the frame of the start packet that was being assembled. -/
  reported : ∀ before q after, pushed = before ++ q :: after →
    ∀ e, ((new.pushAll before).2.push q).1.dropError = some e → e.reason ≠ .unknownFrame →
      ∃ pre start inters, before = pre ++ start :: inters ∧ start.header.marker = .start ∧
        (∀ r ∈ inters, start.InterOf r) ∧ e.frameNumber = start.header.frameNumber
  /-- What is held is no more than the buffer has place for, from the start packet and packets with
  its frame number. -/
  held : ∀ p, (new.pushAll pushed).2.partialFrame = some p →
    AssocMap.size p.payloads ≤ 128 ∧
    ∃ pre start inters, pushed = pre ++ start :: inters ∧ start.header.marker = .start ∧
      (∀ r ∈ inters, r.header.frameNumber = start.header.frameNumber) ∧
      p.frameNumber = start.header.frameNumber ∧
      p.payloads = PartialFrame.insertAll ∅ (start :: inters)

theorem accounts_for_every_frame (pushed : List Packet) : Accounts pushed where
  balance := by
    have hall := pushAll_accounts new pushed
    exact hall
  reported := by
    intro before q after _ e he hknown
    obtain ⟨p, hp, hnumber⟩ := dropError_frameNumber he hknown
    obtain ⟨pre, start, inters, hpushed, hstart, hinters, rfl⟩ := segmented_pushAll before p hp
    exact ⟨pre, start, inters, hpushed, hstart, hinters, hnumber⟩
  held := by
    intro p hp
    obtain ⟨pre, start, inters, hpushed, hstart, hinters, rfl⟩ := segmented_pushAll pushed p hp
    refine ⟨bounded_pushAll pushed _ hp, pre, start, inters, hpushed, hstart, ?_, rfl, rfl⟩
    exact fun r hr => (hinters r hr).2

end Depacketizer

end LiveKit.DataTrack
