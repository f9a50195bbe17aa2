import LiveKit.Lib.TextSearch
import LiveKit.PacketTrailer.Format

/-!
# Start codes in a trailer

The mask moves the bytes that are dangerous: a timestamp or a frame id with the bytes `FF FF FE` in
a row is masked to the start code of a NAL unit. The tags, the lengths and the envelope are never
part of one, and neither is a place between the payload and the trailer.
-/

namespace LiveKit.PacketTrailer

open List BigEndian TextSearch

/-- The start code of a NAL unit; the longer one ends in it. -/
def startCode : List UInt8 := [0, 0, 1]

/-- The bytes that are masked to a start code. -/
def maskedStartCode : List UInt8 := [0xFF, 0xFF, 0xFE]

/-- No start code is in the trailer, and none reaches from the payload into it. -/
structure StartCodeFree (payload trailer : List UInt8) : Prop where
  inside : ¬ startCode <:+: trailer
  across : ∀ i < payload.length, payload.length < i + startCode.length →
    ¬ startCode <+: (payload ++ trailer).drop i

/-- The big-endian bytes of neither number are masked to a start code. -/
def Harmless (userTimestamp : UInt64) (frameId : UInt32) : Prop :=
  ¬ maskedStartCode <:+: toBe 8 userTimestamp.toNat ∧
    ¬ maskedStartCode <:+: toBe 4 frameId.toNat

/-- A pattern is in masked bytes where the masked pattern is in the bytes. -/
theorem infix_mask_iff (pat bytes : List UInt8) :
    pat <:+: bytes.map (· ^^^ 0xFF) ↔ pat.map (· ^^^ 0xFF) <:+: bytes := by
  have htwice : ∀ l : List UInt8, (l.map (· ^^^ 0xFF)).map (· ^^^ 0xFF) = l := by
    intro l
    rw [map_map]
    conv_rhs => rw [← map_id l]
    apply map_congr_left
    intro b _
    exact unmask b
  constructor
  · intro h
    rw [← htwice bytes]
    exact h.map _
  · intro h
    rw [← htwice pat]
    exact h.map _

/-- What is appended: two elements at most, and the envelope. -/
theorem drop_appendTrailer (payload : List UInt8) (userTimestamp : UInt64) (frameId : UInt32) :
    (appendTrailer payload userTimestamp frameId).drop payload.length =
      [0xFE, 0xF7] ++ timestampBytes userTimestamp ++
        (if frameId ≠ 0 then [0xFD, 0xFB] ++ frameIdBytes frameId else []) ++
        ([UInt8.ofNat (trailerLen frameId ^^^ 0xFF)] ++ kPacketTrailerMagic) := by
  unfold appendTrailer
  dsimp only
  rw [append_assoc, append_assoc, drop_left, ← append_assoc]
  rfl

theorem envelope_harmless (frameId : UInt32) :
    UInt8.ofNat (trailerLen frameId ^^^ 0xFF) ∉ startCode := by
  unfold trailerLen
  split_ifs with hset
  · decide
  · decide

theorem timestamp_startCode (userTimestamp : UInt64) :
    startCode <:+: timestampBytes userTimestamp ↔
      maskedStartCode <:+: toBe 8 userTimestamp.toNat := by
  rw [timestampBytes_eq, infix_mask_iff]
  exact Iff.rfl

theorem frameId_startCode (frameId : UInt32) :
    startCode <:+: frameIdBytes frameId ↔ maskedStartCode <:+: toBe 4 frameId.toNat := by
  rw [frameIdBytes_eq, infix_mask_iff]
  exact Iff.rfl

/-- The bytes around the two numbers have no part in a start code. -/
theorem startCode_trailer_iff (payload : List UInt8) (userTimestamp : UInt64) (frameId : UInt32) :
    startCode <:+: (appendTrailer payload userTimestamp frameId).drop payload.length ↔
      ¬ Harmless userTimestamp frameId := by
  have hne : startCode ≠ [] := cons_ne_nil _ _
  have hmagic : ¬ startCode <:+: kPacketTrailerMagic := by decide
  have henvelope := envelope_harmless frameId
  rw [drop_appendTrailer, singleton_append, infix_append_cons_iff hne henvelope,
    or_iff_left hmagic]
  unfold Harmless
  rw [not_and_or, not_not, not_not, ← timestamp_startCode, ← frameId_startCode]
  have htags : ∀ rest : List UInt8, startCode <:+: [0xFE, 0xF7] ++ rest ↔ startCode <:+: rest := by
    intro rest
    show startCode <:+: [] ++ 0xFE :: ([] ++ 0xF7 :: rest) ↔ _
    rw [infix_append_cons_iff hne (by decide), infix_append_cons_iff hne (by decide),
      infix_nil, or_iff_right hne, or_iff_right hne]
  rw [append_assoc, htags]
  by_cases hset : frameId ≠ 0
  · rw [if_pos hset]
    show startCode <:+: timestampBytes userTimestamp ++ 0xFD :: ([] ++ 0xFB ::
      frameIdBytes frameId) ↔ _
    rw [infix_append_cons_iff hne (by decide), infix_append_cons_iff hne (by decide),
      infix_nil, or_iff_right hne]
  · rw [if_neg hset, append_nil]
    -- an unset frame id is all zero
    have hzero : ¬ startCode <:+: frameIdBytes frameId := by
      rw [not_not.mp hset]
      decide
    rw [or_iff_left hzero]

/-- The first byte of the trailer is in no start code. -/
theorem across_harmless (payload rest : List UInt8) :
    ∀ i < payload.length, payload.length < i + startCode.length →
      ¬ startCode <+: (payload ++ 0xFE :: rest).drop i := by
  intro i hi hreach hpre
  rw [drop_append_of_le_length hi.le] at hpre
  have hfits := (prefix_of_append_cons (by decide) hpre).length_le
  rw [length_drop] at hfits
  omega

/-- The trailer brings no start code if and only if neither number has the bytes of a masked one. -/
theorem startCodeFree_iff (payload : List UInt8) (userTimestamp : UInt64) (frameId : UInt32) :
    StartCodeFree payload ((appendTrailer payload userTimestamp frameId).drop payload.length) ↔
      Harmless userTimestamp frameId := by
  have hinside := startCode_trailer_iff payload userTimestamp frameId
  constructor
  · intro h
    exact not_not.mp fun hbad => h.inside (hinside.mpr hbad)
  · intro h
    refine ⟨fun hbad => hinside.mp hbad h, ?_⟩
    rw [drop_appendTrailer]
    exact across_harmless payload _

/-- The timestamp of 16.777214 seconds. -/
theorem masked_to_startCode :
    ¬ ∀ (payload : List UInt8) (userTimestamp : UInt64) (frameId : UInt32),
      StartCodeFree payload
        ((appendTrailer payload userTimestamp frameId).drop payload.length) := by
  intro h
  exact (h [] 0xFFFFFE 0).inside (by decide)

end LiveKit.PacketTrailer
