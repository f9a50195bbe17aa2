import LiveKit.DataTrack.Packet.Basic
import Mathlib.Data.List.Chain

/-!
# The media clock

A timestamp is compared with the previous one in half of the ring of 32 bits. One that comes more
than half a turn after the previous one is taken to be before it, and then the clock stands still.
-/

namespace LiveKit.DataTrack

namespace Clock

variable {rate : ℕ}

/-- The timestamps of a sequence of calls. -/
def timestampsAt (c : Clock rate) : List Instant → List (Timestamp rate) × Clock rate
  | [] => ([], c)
  | instant :: rest =>
    let (ts, c) := c.timestampAt instant
    let (results, c) := c.timestampsAt rest
    (ts :: results, c)

/-- The ticks of a duration, without a bound. -/
def ticksOf (rate nanos : ℕ) : ℕ := (nanos * rate + 500000000) / 1000000000

/-- The timestamp of the time since the epoch. -/
def expected (epoch : Instant) (base : Timestamp rate) (instant : Instant) : Timestamp rate :=
  ⟨base.ticks + UInt32.ofNat (ticksOf rate (instant - epoch))⟩

/-- The timestamps of a sequence of instants are those of the time since the epoch, and one more
call with an instant earlier than the last gets the last timestamp again. -/
structure TracksTime (epoch : Instant) (base : Timestamp rate) (instants : List Instant)
    (earlier : Instant) : Prop where
  tracks : ((withEpoch epoch base).timestampsAt instants).1 = instants.map (expected epoch base)
  holds : ∀ last ∈ instants.getLast?, earlier < last →
    ((withEpoch epoch base).timestampsAt instants).1.getLast? =
      some ((((withEpoch epoch base).timestampsAt instants).2).timestampAt earlier).1

/-- The ticks from one instant to a later one are less than half a turn, full turns aside. -/
def WithinHalf (rate : ℕ) (epoch instant later : Instant) : Prop :=
  (ticksOf rate (later - epoch) - ticksOf rate (instant - epoch)) % 2 ^ 32 < 2 ^ 31

instance (epoch instant later : Instant) : Decidable (WithinHalf rate epoch instant later) :=
  inferInstanceAs (Decidable (_ < _))

/-- The ticks back to an earlier instant are half a turn at most, full turns aside. -/
def BackWithinHalf (rate : ℕ) (epoch instant earlier : Instant) : Prop :=
  (ticksOf rate (instant - epoch) - ticksOf rate (earlier - epoch)) % 2 ^ 32 ≤ 2 ^ 31

/-! ## Half of the ring -/

theorem toInt32_neg_iff (d : UInt32) : d.toInt32 < 0 ↔ 2 ^ 31 ≤ d.toNat := by
  rw [Int32.lt_iff_toInt_lt]
  show d.toBitVec.toInt < 0 ↔ _
  rw [BitVec.toInt_neg_iff]
  show 2 ^ 32 ≤ 2 * d.toNat ↔ _
  omega

theorem toNat_sub_ofNat (base : UInt32) {x y : ℕ} (h : x ≤ y) :
    (base + UInt32.ofNat y - (base + UInt32.ofNat x)).toNat = (y - x) % 2 ^ 32 := by
  rw [UInt32.toNat_sub, UInt32.toNat_add, UInt32.toNat_add, UInt32.toNat_ofNat',
    UInt32.toNat_ofNat']
  have hlt := base.toNat_lt
  omega

theorem toNat_sub_ofNat_back (base : UInt32) {x y : ℕ} (h : x ≤ y) :
    (base + UInt32.ofNat x - (base + UInt32.ofNat y)).toNat =
      (2 ^ 32 - (y - x) % 2 ^ 32) % 2 ^ 32 := by
  rw [UInt32.toNat_sub, UInt32.toNat_add, UInt32.toNat_add, UInt32.toNat_ofNat',
    UInt32.toNat_ofNat']
  have hlt := base.toNat_lt
  omega

theorem ticksOf_mono (rate : ℕ) {a b : ℕ} (h : a ≤ b) : ticksOf rate a ≤ ticksOf rate b := by
  unfold ticksOf
  have hmul : a * rate ≤ b * rate := Nat.mul_le_mul_right rate h
  exact Nat.div_le_div_right (by omega)

/-! ## One call -/

/-- The clock has given the timestamp of this instant last. -/
structure At (epoch : Instant) (base : Timestamp rate) (c : Clock rate) (instant : Instant) :
    Prop where
  fromEpoch : c.epoch = epoch
  fromBase : c.base = base
  prev : c.prev = expected epoch base instant

theorem At.new (epoch : Instant) (base : Timestamp rate) :
    At epoch base (withEpoch epoch base) epoch where
  fromEpoch := rfl
  fromBase := rfl
  prev := by
    have hzero : ticksOf rate (epoch - epoch) = 0 := by
      rw [Nat.sub_self, ticksOf, Nat.zero_mul]
    show base = ⟨base.ticks + UInt32.ofNat (ticksOf rate (epoch - epoch))⟩
    rw [hzero]
    show base = ⟨base.ticks + 0⟩
    rw [UInt32.add_zero]

variable {base : Timestamp rate} {c : Clock rate} {epoch previous : Instant}

/-- The timestamp of the instant, unless it is taken to be before the previous one. -/
theorem At.timestampAt (h : At epoch base c previous) (instant : Instant) :
    (c.timestampAt instant).1 =
      if (expected epoch base instant).isBefore (expected epoch base previous) then
        expected epoch base previous
      else expected epoch base instant := by
  show (if Timestamp.isBefore ⟨c.base.ticks + durationToTicks rate (instant - c.epoch)⟩ c.prev
    then c.prev else _) = _
  rw [h.fromEpoch, h.fromBase, h.prev]
  rfl

variable {instant : Instant}

theorem isBefore_expected (epoch : Instant) (base : Timestamp rate) (hle : previous ≤ instant) :
    (expected epoch base instant).isBefore (expected epoch base previous) = true ↔
      ¬ WithinHalf rate epoch previous instant := by
  have hticks := ticksOf_mono rate (Nat.sub_le_sub_right hle epoch)
  show decide (_ < _) = true ↔ _
  rw [decide_eq_true_iff, toInt32_neg_iff]
  show _ ≤ (base.ticks + _ - (base.ticks + _)).toNat ↔ _
  rw [toNat_sub_ofNat base.ticks hticks, WithinHalf, Nat.not_lt]

/-- A timestamp that is taken to be before the previous one is not the same. -/
theorem expected_ne_of_isBefore {a b : Timestamp rate} (h : a.isBefore b = true) : b ≠ a := by
  intro heq
  rw [heq] at h
  have hneg : (a.ticks - a.ticks).toInt32 < 0 := of_decide_eq_true h
  rw [UInt32.sub_self, toInt32_neg_iff, UInt32.toNat_zero] at hneg
  omega

/-- A call is right if and only if it is within half a turn. -/
theorem At.exact_iff_withinHalf (h : At epoch base c previous) (hle : previous ≤ instant) :
    (c.timestampAt instant).1 = expected epoch base instant ↔
      WithinHalf rate epoch previous instant := by
  have hbefore := isBefore_expected epoch base hle
  rw [h.timestampAt]
  by_cases hhalf : WithinHalf rate epoch previous instant
  · rw [if_neg fun hbad => hbefore.mp hbad hhalf]
    exact iff_of_true rfl hhalf
  · have hback := hbefore.mpr hhalf
    rw [if_pos hback]
    exact iff_of_false (expected_ne_of_isBefore hback) hhalf

/-- A call leaves the epoch and the base, and its timestamp as the previous one. -/
theorem timestampAt_clock (c : Clock rate) (instant : Instant) :
    (c.timestampAt instant).2 = { c with prev := (c.timestampAt instant).1 } := by
  unfold Clock.timestampAt
  dsimp only

theorem At.next (h : At epoch base c previous)
    (hright : (c.timestampAt instant).1 = expected epoch base instant) :
    At epoch base (c.timestampAt instant).2 instant := by
  rw [timestampAt_clock, hright]
  exact ⟨h.fromEpoch, h.fromBase, rfl⟩

/-- When the clock stands still. -/
theorem clamp_eq_iff (a b : Timestamp rate) :
    (if a.isBefore b then b else a) = b ↔
      (a.ticks - b.ticks).toNat = 0 ∨ 2 ^ 31 ≤ (a.ticks - b.ticks).toNat := by
  by_cases hbefore : a.isBefore b = true
  · rw [if_pos hbefore]
    exact iff_of_true rfl (.inr ((toInt32_neg_iff _).mp (of_decide_eq_true hbefore)))
  · rw [if_neg hbefore]
    constructor
    · intro heq
      rw [heq, UInt32.sub_self]
      exact .inl rfl
    · intro hor
      cases hor with
      | inl hzero =>
        have hsub : a.ticks - b.ticks = 0 := UInt32.toNat_inj.mp hzero
        have hticks : a.ticks = b.ticks := by
          rw [← UInt32.sub_add_cancel a.ticks b.ticks, hsub, UInt32.zero_add]
        exact congrArg Timestamp.mk hticks
      | inr hhalf => exact absurd (decide_eq_true ((toInt32_neg_iff _).mpr hhalf)) hbefore

/-- An instant that is earlier than the last gets the last timestamp if and only if it is within
half a turn. -/
theorem At.holds_iff {earlier : Instant} (h : At epoch base c previous) (hle : earlier ≤ previous) :
    (c.timestampAt earlier).1 = expected epoch base previous ↔
      BackWithinHalf rate epoch previous earlier := by
  have hticks := ticksOf_mono rate (Nat.sub_le_sub_right hle epoch)
  have hback := toNat_sub_ofNat_back base.ticks hticks
  rw [h.timestampAt, clamp_eq_iff, BackWithinHalf]
  unfold expected
  dsimp only
  rw [hback]
  generalize ticksOf rate (previous - epoch) - ticksOf rate (earlier - epoch) = gap
  omega

/-! ## Sequences of calls -/

theorem At.tracks_all_iff (instants : List Instant) (h : At epoch base c previous)
    (hsorted : (previous :: instants).IsChain (· ≤ ·)) :
    (c.timestampsAt instants).1 = instants.map (expected epoch base) ↔
      (previous :: instants).IsChain (WithinHalf rate epoch) := by
  induction instants generalizing c previous with
  | nil => exact iff_of_true rfl (List.isChain_singleton _)
  | cons instant rest ih =>
    rw [List.isChain_cons_cons] at hsorted ⊢
    have hfirst := h.exact_iff_withinHalf hsorted.1
    show (c.timestampAt instant).1 :: ((c.timestampAt instant).2.timestampsAt rest).1 =
      expected epoch base instant :: rest.map (expected epoch base) ↔ _
    rw [List.cons.injEq, hfirst]
    -- the rest of the calls starts from a clock that is right
    exact and_congr_right fun hhalf => ih (h.next (hfirst.mpr hhalf)) hsorted.2

theorem At.last (instants : List Instant) (h : At epoch base c previous)
    (htracks : (c.timestampsAt instants).1 = instants.map (expected epoch base)) :
    At epoch base (c.timestampsAt instants).2 (instants.getLastD previous) := by
  induction instants generalizing c previous with
  | nil => exact h
  | cons instant rest ih =>
    obtain ⟨hfirst, hrest⟩ := List.cons.inj htracks
    rw [List.getLastD_cons]
    exact ih (h.next hfirst) hrest

/-- The clock tracks the time as long as it is asked again within half a turn, full turns aside. -/
theorem tracks_time_iff (epoch : Instant) (base : Timestamp rate) (instants : List Instant)
    (earlier : Instant) (hsorted : (epoch :: instants).IsChain (· ≤ ·)) :
    TracksTime epoch base instants earlier ↔
      (epoch :: instants).IsChain (WithinHalf rate epoch) ∧
        ∀ last ∈ instants.getLast?, earlier < last → BackWithinHalf rate epoch last earlier := by
  have hall := (At.new epoch base).tracks_all_iff instants hsorted
  have hholds : ((withEpoch epoch base).timestampsAt instants).1 =
      instants.map (expected epoch base) → ∀ last ∈ instants.getLast?, earlier < last →
        (((withEpoch epoch base).timestampsAt instants).1.getLast? =
            some ((((withEpoch epoch base).timestampsAt instants).2).timestampAt earlier).1 ↔
          BackWithinHalf rate epoch last earlier) := by
    intro htracks last hlast hlt
    have hat := (At.new epoch base).last instants htracks
    rw [List.getLastD_eq_getLast?, hlast, Option.getD_some] at hat
    rw [htracks, List.getLast?_map, hlast, Option.map_some, Option.some.injEq,
      ← hat.holds_iff hlt.le]
    exact eq_comm
  constructor
  · intro h
    exact ⟨hall.mp h.tracks, fun last hlast hlt =>
      (hholds h.tracks last hlast hlt).mp (h.holds last hlast hlt)⟩
  · intro h
    have htracks := hall.mpr h.1
    exact ⟨htracks, fun last hlast hlt =>
      (hholds htracks last hlast hlt).mpr (h.2 last hlast hlt)⟩

/-- At 90 kHz, after a tenth of a second, and after a second; then back to the epoch. -/
theorem tracks_time_second :
    TracksTime 0 (⟨7⟩ : Timestamp 90000) [100000000, 1000000000] 0 ↔
      [0, 100000000, 1000000000].IsChain (WithinHalf 90000 0) ∧
        ∀ last ∈ [100000000, 1000000000].getLast?, 0 < last → BackWithinHalf 90000 0 last 0 :=
  tracks_time_iff 0 ⟨7⟩ [100000000, 1000000000] 0 (by decide)

/-- A first frame eight hours after the track was made has the timestamp of the epoch. -/
theorem stands_still :
    ¬ ∀ (rate : ℕ), 0 < rate → ∀ (epoch : Instant) (base : Timestamp rate)
      (instants : List Instant) (earlier : Instant), (epoch :: instants).IsChain (· ≤ ·) →
      TracksTime epoch base instants earlier := by
  intro h
  have htracks := (h 90000 (by decide) 0 ⟨0⟩ [28800000000000] 0 (by decide)).tracks
  have hat := (At.new 0 (⟨0⟩ : Timestamp 90000)).exact_iff_withinHalf (Nat.zero_le 28800000000000)
  have hhalf := hat.mp (List.cons.inj htracks).1
  revert hhalf
  decide

end Clock

end LiveKit.DataTrack
