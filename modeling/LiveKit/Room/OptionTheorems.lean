import LiveKit.Lib.Traverse
import LiveKit.Room.Options

/-!
# When the encodings are computed

The computation has three places where it can go wrong: the divisor of the screen share preset, the
preset that an empty list of layers does not have, and the shift for the lowest of many spatial
layers.
-/

namespace LiveKit.Options

open List Option BinaryFloat
open BinaryFloat.Value (AtLeast Is)

/-! ## Small numbers are exact -/

theorem representable_of_lt {n : ℕ} (h : n < 2 ^ 53) : binary64.Representable (n : ℚ) := by
  have hcast : (n : ℚ) < (2 : ℚ) ^ 53 := by exact_mod_cast h
  refine ⟨⟨n, 0, ?_, by decide, ?_⟩, ?_⟩
  · show |(n : ℤ)| < 2 ^ 53
    rw [Nat.abs_cast]
    exact_mod_cast h
  · rw [zpow_zero, mul_one, Int.cast_natCast]
  · show |(n : ℚ)| < (2 : ℚ) ^ (1024 : ℤ)
    rw [Nat.abs_cast]
    calc (n : ℚ) < (2 : ℚ) ^ 53 := hcast
      _ ≤ (2 : ℚ) ^ (1024 : ℤ) := by
        rw [← zpow_natCast]
        exact zpow_le_zpow_right₀ (by norm_num) (by norm_num)

theorem f64_of_lt {n : ℕ} (h : n < 2 ^ 53) : f64 n = .finite n (representable_of_lt h) :=
  Value.ofRat_of_representable _

/-! ## The screen share preset -/

/-- The frame rate is at least three, and does not fill the divisor with a power of two. -/
def FramerateFits (overflowChecks : Bool) (framerate : F64) : Prop :=
  AtLeast 3 framerate ∧
    if overflowChecks then ¬AtLeast (3 * 2 ^ 62) framerate
    else ∀ j : ℕ, j ∈ [1, 2, 3] → ¬Is (3 * (j * 2 ^ 62)) framerate

namespace screenshare

/-- `(max_framerate / FPS) as u64` -/
def wholeThird (framerate : F64) : ℕ := (framerate.div FPS).toNat (2 ^ 64 - 1)

theorem FPS_eq : FPS = .finite 3 (representable_of_lt (by decide : 3 < 2 ^ 53)) :=
  f64_of_lt (by norm_num)

theorem two_pow_le_wholeThird {k : ℕ} (hk : k < 64) (framerate : F64) :
    2 ^ k ≤ wholeThird framerate ↔ AtLeast (3 * 2 ^ k) framerate := by
  unfold wholeThird
  rw [FPS_eq]
  apply Value.two_pow_le_toNat_third
  · have hpow : 2 ^ k < 2 ^ 64 := Nat.pow_lt_pow_right (by norm_num) hk
    omega
  · show (k : ℤ) ≤ 1024
    omega
  · decide
  · decide

theorem wholeThird_eq {j : ℕ} (hj : 0 < j) (hle : j ≤ 3) (framerate : F64) :
    wholeThird framerate = j * 2 ^ 62 ↔ Is (3 * (j * 2 ^ 62)) framerate := by
  unfold wholeThird
  rw [FPS_eq]
  apply Value.toNat_third_eq hj
  · show j < 2 ^ 52
    omega
  · decide
  · omega
  · decide
  · decide

theorem wholeThird_lt (framerate : F64) : wholeThird framerate < 2 ^ 64 := by
  have hle : wholeThird framerate ≤ 2 ^ 64 - 1 := Value.toNat_le _ _
  omega

theorem toUInt64_toNat (framerate : F64) :
    (F64.toUInt64 (framerate.div FPS)).toNat = wholeThird framerate :=
  UInt64.toNat_ofNat_of_lt' (wholeThird_lt framerate)

/-- The divisor is there, and is not zero, in exactly these cases. -/
theorem divisor_iff (overflowChecks : Bool) (framerate : F64) :
    (∃ divisor, checkedMul overflowChecks (SCALE_DOWN_FACTOR ^ 2).toUInt64
      (F64.toUInt64 (framerate.div FPS)) = some divisor ∧ divisor ≠ 0) ↔
      FramerateFits overflowChecks framerate := by
  have hfour : (SCALE_DOWN_FACTOR ^ 2).toUInt64.toNat = 4 := by decide
  have hone : 1 ≤ wholeThird framerate ↔ AtLeast 3 framerate := by
    have hpow := two_pow_le_wholeThird (k := 0) (by omega) framerate
    rw [pow_zero, pow_zero, mul_one] at hpow
    exact hpow
  have hmax := two_pow_le_wholeThird (k := 62) (by omega) framerate
  have hlt := wholeThird_lt framerate
  have hzero : (SCALE_DOWN_FACTOR ^ 2).toUInt64 * F64.toUInt64 (framerate.div FPS) ≠ 0 ↔
      4 * wholeThird framerate % 2 ^ 64 ≠ 0 := by
    rw [Ne, ← UInt64.toNat_inj, UInt64.toNat_mul, hfour, toUInt64_toNat]
    rfl
  unfold checkedMul FramerateFits
  rw [hfour, toUInt64_toNat, ← hone, ← hmax]
  have hexists (product : UInt64) :
      (∃ divisor, some product = some divisor ∧ divisor ≠ 0) ↔ product ≠ 0 := by
    constructor
    · intro ⟨divisor, hsame, hne⟩
      rw [some.inj hsame]
      exact hne
    · intro hne
      exact ⟨product, rfl, hne⟩
  cases overflowChecks with
  | true =>
    rw [if_pos rfl]
    by_cases hover : 2 ^ 64 ≤ 4 * wholeThird framerate
    · rw [if_pos ⟨rfl, hover⟩]
      apply iff_of_false
      · intro ⟨divisor, hnone, _⟩
        cases hnone
      · omega
    · rw [if_neg fun hbad => hover hbad.2, hexists, hzero]
      omega
  | false =>
    have hmul (j : ℕ) (hj : 0 < j) (hle : j ≤ 3) := wholeThird_eq hj hle framerate
    rw [if_neg fun hbad => Bool.noConfusion hbad.1, if_neg Bool.false_ne_true, hexists, hzero]
    -- the product wraps around to zero at the multiples of a quarter of the range
    constructor
    · intro hne
      refine ⟨by omega, ?_⟩
      intro j hj his
      have hbounds : 0 < j ∧ j ≤ 3 := by
        simp only [mem_cons, not_mem_nil, or_false] at hj
        omega
      have heq := (hmul j hbounds.1 hbounds.2).mpr his
      omega
    · intro ⟨hpos, hne⟩ hmod
      obtain ⟨j, hj⟩ : 2 ^ 62 ∣ wholeThird framerate := by omega
      have hbounds : 0 < j ∧ j ≤ 3 := by omega
      refine hne j ?_ ((hmul j hbounds.1 hbounds.2).mp (by rw [hj, Nat.mul_comm]))
      simp only [mem_cons, not_mem_nil, or_false]
      omega

theorem computeDefaultSimulcastPreset_iff (overflowChecks : Bool) (initial : VideoPreset) :
    (∃ preset, computeDefaultSimulcastPreset overflowChecks initial = some preset) ↔
      FramerateFits overflowChecks initial.encoding.maxFramerate := by
  rw [← divisor_iff]
  unfold computeDefaultSimulcastPreset
  cases hmul : checkedMul overflowChecks (SCALE_DOWN_FACTOR ^ 2).toUInt64
      (F64.toUInt64 (initial.encoding.maxFramerate.div FPS)) with
  | none =>
    rw [bind_eq_bind, bind_none]
    apply iff_of_false
    · intro ⟨preset, hnone⟩
      cases hnone
    · intro ⟨divisor, hnone, _⟩
      cases hnone
  | some divisor =>
    rw [bind_eq_bind, bind_some]
    unfold checkedDiv
    by_cases hzero : divisor = 0
    · rw [if_pos hzero, bind_none]
      apply iff_of_false
      · intro ⟨preset, hnone⟩
        cases hnone
      · intro ⟨other, hsame, hne⟩
        exact hne ((some.inj hsame).symm.trans hzero)
    · rw [if_neg hzero]
      exact iff_of_true ⟨_, rfl⟩ ⟨divisor, rfl, hzero⟩

theorem framerateFits_of_lt (overflowChecks : Bool) {n : ℕ} (hlow : 3 ≤ n) (hhigh : n < 2 ^ 53) :
    FramerateFits overflowChecks (f64 n) := by
  have hthree : (3 : ℚ) ≤ n := by exact_mod_cast hlow
  have hlt : (n : ℚ) < 2 ^ 53 := by exact_mod_cast hhigh
  rw [f64_of_lt hhigh]
  refine ⟨hthree, ?_⟩
  cases overflowChecks with
  | true =>
    rw [if_pos rfl]
    intro hle
    have hbad : (3 * 2 ^ 62 : ℚ) ≤ n := hle
    linarith
  | false =>
    rw [if_neg Bool.false_ne_true]
    intro j hj his
    have hsame : (n : ℚ) = 3 * (j * 2 ^ 62) := his
    have hnat : n = 3 * (j * 2 ^ 62) := by exact_mod_cast hsame
    have hpos : 0 < j := by
      simp only [mem_cons, not_mem_nil, or_false] at hj
      omega
    omega

/-- The frame rate of every preset fits. -/
theorem presets_fit (overflowChecks : Bool) {preset : VideoPreset} (h : preset ∈ PRESETS) :
    FramerateFits overflowChecks preset.encoding.maxFramerate := by
  have hall : ∀ preset ∈ PRESETS, ∃ n : ℕ, 3 ≤ n ∧ n < 2 ^ 53 ∧
      preset.encoding.maxFramerate = f64 n := by
    unfold PRESETS
    rw [forall_mem_cons, forall_mem_cons, forall_mem_cons, forall_mem_cons,
      forall_mem_singleton]
    exact ⟨⟨3, by decide, by decide, rfl⟩, ⟨5, by decide, by decide, rfl⟩,
      ⟨15, by decide, by decide, rfl⟩, ⟨15, by decide, by decide, rfl⟩,
      ⟨30, by decide, by decide, rfl⟩⟩
  obtain ⟨n, hlow, hhigh, hrate⟩ := hall preset h
  rw [hrate]
  exact framerateFits_of_lt overflowChecks hlow hhigh

end screenshare

/-! ## The initial encoding -/

theorem encodingFor_mem (size : UInt32) (presets : List VideoPreset) {all : List VideoPreset}
    {encoding : VideoEncoding} (hsub : ∀ preset ∈ presets, preset ∈ all)
    (hmem : ∃ preset ∈ all, encoding = preset.encoding) :
    ∃ preset ∈ all, encodingFor size encoding presets = preset.encoding := by
  induction presets generalizing encoding with
  | nil => exact hmem
  | cons preset presets ih =>
    have hpreset : ∃ other ∈ all, preset.encoding = other.encoding :=
      ⟨preset, hsub preset mem_cons_self, rfl⟩
    unfold encodingFor
    split
    · exact hpreset
    · exact ih (fun other hother => hsub other (mem_cons_of_mem _ hother)) hpreset

theorem presets_ne_nil (isScreenshare : Bool) (width height : UInt32) :
    ∃ first rest, computePresetsForResolution isScreenshare width height = first :: rest := by
  unfold computePresetsForResolution
  split
  · exact ⟨_, _, rfl⟩
  · split
    · exact ⟨_, _, rfl⟩
    · exact ⟨_, _, rfl⟩

/-- The encoding is that of a preset, but for the bitrate. -/
theorem computeAppropriateEncoding_some (isScreenshare : Bool) (width height : UInt32)
    (codec : VideoCodec) :
    ∃ encoding, computeAppropriateEncoding isScreenshare width height codec = some encoding ∧
      ∃ preset ∈ computePresetsForResolution isScreenshare width height,
        encoding.maxFramerate = preset.encoding.maxFramerate := by
  obtain ⟨first, rest, hpresets⟩ := presets_ne_nil isScreenshare width height
  have hfirst : ∃ preset ∈ first :: rest, first.encoding = preset.encoding :=
    ⟨first, mem_cons_self, rfl⟩
  obtain ⟨preset, hmem, hpreset⟩ := encodingFor_mem (max width height) (first :: rest)
    (fun _ h => h) hfirst
  unfold computeAppropriateEncoding
  rw [hpresets]
  refine ⟨_, rfl, preset, hmem, ?_⟩
  rw [← hpreset]
  cases codec with
  | vp8 | h264 | vp9 | av1 | h265 => rfl

/-- There is an encoding, and the one that is computed for a screen share has a frame rate that
fits. -/
theorem initialEncoding_some (overflowChecks : Bool) (width height : UInt32)
    (options : TrackPublishOptions) :
    ∃ encoding, initialEncoding width height options = some encoding ∧
      (options.source = .screenshare →
        (FramerateFits overflowChecks encoding.maxFramerate ↔
          ∀ given, options.videoEncoding = some given →
            FramerateFits overflowChecks given.maxFramerate)) := by
  unfold initialEncoding
  cases hgiven : options.videoEncoding with
  | some given =>
    refine ⟨given, rfl, ?_⟩
    intro _
    constructor
    · intro hfits other hsame
      rw [← some.inj hsame]
      exact hfits
    · intro hfits
      exact hfits given rfl
  | none =>
    obtain ⟨encoding, hsome, preset, hmem, hrate⟩ := computeAppropriateEncoding_some
      (options.source = .screenshare) width height options.videoCodec
    refine ⟨encoding, hsome, ?_⟩
    intro hsource
    have hpreset : preset ∈ screenshare.PRESETS := by
      rw [hsource] at hmem
      exact hmem
    rw [hrate]
    apply iff_of_true
    · exact screenshare.presets_fit overflowChecks hpreset
    · intro given hnone
      cases hnone

/-! ## Encodings of presets -/

/-- There are encodings, and none of them has a scalability mode. -/
def Plain (encodings : Option (List RtpEncodingParameters)) : Prop :=
  ∃ first rest, encodings = some (first :: rest) ∧
    ∀ encoding ∈ first :: rest, encoding.scalabilityMode = none

theorem encodingsFrom_some (size : UInt32) (i : ℕ) (presets : List VideoPreset)
    (h : i + presets.length ≤ 3) :
    ∃ encodings, encodingsFrom size i presets = some encodings ∧
      encodings.length = presets.length ∧
      ∀ encoding ∈ encodings, encoding.scalabilityMode = none := by
  induction presets generalizing i with
  | nil => exact ⟨[], rfl, rfl, forall_mem_nil _⟩
  | cons preset presets ih =>
    rw [length_cons] at h
    obtain ⟨rest, hrest, hlength, hmode⟩ := ih (i + 1) (by omega)
    obtain ⟨rid, hrid⟩ : ∃ rid, VIDEO_RIDS[i]? = some rid :=
      ⟨_, getElem?_eq_getElem (show i < 3 by omega)⟩
    unfold encodingsFrom
    rw [hrid, hrest]
    refine ⟨_, rfl, ?_, ?_⟩
    · rw [length_cons, length_cons, hlength]
    · exact forall_mem_cons.mpr ⟨rfl, hmode⟩

variable {presets : List VideoPreset} {width height : UInt32}
  {encodings : List RtpEncodingParameters} {mode : String} {options : TrackPublishOptions}

/-- There is a rid for each of three presets. -/
theorem intoRtpEncodings_plain (width height : UInt32) (hne : presets ≠ [])
    (hlength : presets.length ≤ 3) :
    Plain (intoRtpEncodings width height presets) := by
  obtain ⟨encodings, hsome, hsame, hmode⟩ := encodingsFrom_some (min width height) 0 presets
    (by omega)
  have hreverse : encodings.reverse ≠ [] := by
    intro hnil
    rw [reverse_eq_nil_iff] at hnil
    rw [hnil] at hsame
    exact hne (length_eq_zero_iff.mp hsame.symm)
  obtain ⟨first, rest, hcons⟩ := exists_cons_of_ne_nil hreverse
  refine ⟨first, rest, ?_, ?_⟩
  · unfold intoRtpEncodings
    rw [hsome, map_some, hcons]
  · intro encoding hmem
    rw [← hcons] at hmem
    exact hmode encoding (mem_reverse.mp hmem)

theorem intoRtpEncodings_single (width height : UInt32) (preset : VideoPreset) :
    ∃ encoding, intoRtpEncodings width height [preset] = some [encoding] := ⟨_, rfl⟩

/-- An empty list of layers is no use where the size asks for one. -/
theorem simulcastEncodings_none (initialPreset : VideoPreset) (hsize : ¬max width height < 480) :
    simulcastEncodings width height initialPreset [] = none := by
  unfold simulcastEncodings
  dsimp only
  rw [if_neg fun hbad => Bool.noConfusion hbad.2, if_pos (UInt32.not_lt.mp hsize)]
  rfl

theorem simulcastEncodings_plain (initialPreset : VideoPreset) {simulcastPresets : List VideoPreset}
    (h : simulcastPresets = [] → max width height < 480) :
    Plain (simulcastEncodings width height initialPreset simulcastPresets) := by
  have hone : Plain (intoRtpEncodings width height [initialPreset]) :=
    intoRtpEncodings_plain width height (cons_ne_nil _ _) (by simp)
  unfold simulcastEncodings
  dsimp only
  rcases eq_nil_or_concat' simulcastPresets with hnil | ⟨presets, mid, hconcat⟩
  · rw [hnil, if_neg fun hbad => Bool.noConfusion hbad.2,
      if_neg (UInt32.not_le.mpr (h hnil))]
    exact hone
  · rw [hconcat, dropLast_concat, getLast?_concat]
    split
    · rename_i hlarge
      obtain ⟨low, hlow⟩ := isSome_iff_exists.mp hlarge.2
      rw [hlow]
      show Plain (intoRtpEncodings width height [low, mid, initialPreset])
      exact intoRtpEncodings_plain width height (cons_ne_nil _ _) (by simp)
    · split
      · show Plain (intoRtpEncodings width height [mid, initialPreset])
        exact intoRtpEncodings_plain width height (cons_ne_nil _ _) (by simp)
      · exact hone

/-! ## Layers -/

/-- The encodings of presets have no spatial layers. -/
theorem spatialOf_plain (hmode : ∀ encoding ∈ encodings, encoding.scalabilityMode = none) :
    spatialOf encodings = none := by
  unfold spatialOf
  split
  · rename_i encoding
    rw [hmode encoding mem_cons_self]
    rfl
  · rfl

/-- Encodings of presets always have layers. -/
theorem layers_of_plain (overflowChecks : Bool) (width height : UInt32) (hne : encodings ≠ [])
    (hmode : ∀ encoding ∈ encodings, encoding.scalabilityMode = none) :
    ∃ layers, videoLayersFromEncodings overflowChecks width height encodings = some layers ∧
      layers ≠ [] := by
  unfold videoLayersFromEncodings
  rw [if_neg (by simpa using hne), spatialOf_plain hmode]
  exact ⟨_, rfl, by simpa using hne⟩

/-- The lowest of the spatial layers is shifted by one less than their number. -/
theorem spatialLayers_iff (overflowChecks : Bool) (width height : UInt32) (totalBitrate : UInt64)
    {spatial : ℕ} (hpos : 0 < spatial) :
    (∃ layers, (List.range spatial).mapM
      (spatialLayer overflowChecks width height totalBitrate spatial) = some layers) ↔
      (overflowChecks = true → spatial ≤ 32) := by
  rw [Traverse.exists_mapM_iff]
  have hlayer (i : ℕ) :
      (∃ layer, spatialLayer overflowChecks width height totalBitrate spatial i = some layer) ↔
        (overflowChecks = true → spatial - 1 - i < 32) := by
    unfold spatialLayer shiftOne
    by_cases hover : overflowChecks ∧ 32 ≤ spatial - 1 - i
    · rw [if_pos hover]
      apply iff_of_false
      · intro ⟨layer, hnone⟩
        cases hnone
      · intro hlt
        have hbad := hlt hover.1
        omega
    · rw [if_neg hover]
      apply iff_of_true ⟨_, rfl⟩
      intro hchecks
      by_contra hge
      exact hover ⟨hchecks, by omega⟩
  constructor
  · intro hall hchecks
    have hlowest := (hlayer 0).mp (hall 0 (mem_range.mpr hpos)) hchecks
    omega
  · intro hle i _
    refine (hlayer i).mpr ?_
    intro hchecks
    have hbound := hle hchecks
    omega

/-- Every shift is by less than the width of the scale. -/
def ShiftsFit (encodings : List RtpEncodingParameters) : Prop :=
  ∀ spatial totalBitrate, spatialOf encodings = some (spatial, totalBitrate) →
    ∀ i < spatial, spatial - 1 - i < 32

theorem shiftsFit_of_plain (hmode : ∀ encoding ∈ encodings, encoding.scalabilityMode = none) :
    ShiftsFit encodings := by
  intro spatial totalBitrate hspatial
  rw [spatialOf_plain hmode] at hspatial
  cases hspatial

theorem spatialOf_mode (encoding : RtpEncodingParameters)
    (hmode : encoding.scalabilityMode = some mode) :
    spatialOf [encoding] =
      if spatialLayersFromScalabilityMode mode > 1 then
        some (spatialLayersFromScalabilityMode mode, encoding.maxBitrate.getD 0)
      else none := by
  unfold spatialOf
  dsimp only
  rw [hmode, bind_eq_bind, bind_some]

theorem shiftsFit_mode (encoding : RtpEncodingParameters)
    (hmode : encoding.scalabilityMode = some mode) :
    ShiftsFit [encoding] ↔ spatialLayersFromScalabilityMode mode ≤ 32 := by
  unfold ShiftsFit
  rw [spatialOf_mode encoding hmode]
  constructor
  · intro hall
    by_contra hlarge
    have hlowest := hall (spatialLayersFromScalabilityMode mode) (encoding.maxBitrate.getD 0)
      (if_pos (by omega)) 0 (by omega)
    omega
  · intro hle spatial totalBitrate hspatial i _
    split at hspatial
    · obtain ⟨hsame, -⟩ := Prod.mk.inj (some.inj hspatial)
      omega
    · cases hspatial

/-- With a scalability mode, the layers are there unless a shift panics. -/
theorem layers_of_mode (overflowChecks : Bool) (width height : UInt32)
    (encoding : RtpEncodingParameters) (hmode : encoding.scalabilityMode = some mode) :
    (∃ layers, videoLayersFromEncodings overflowChecks width height [encoding] = some layers ∧
      layers ≠ []) ↔
      (overflowChecks = true → spatialLayersFromScalabilityMode mode ≤ 32) := by
  unfold videoLayersFromEncodings
  rw [if_neg (by simp), spatialOf_mode encoding hmode]
  by_cases hone : spatialLayersFromScalabilityMode mode > 1
  · rw [if_pos hone]
    dsimp only
    rw [← spatialLayers_iff overflowChecks width height (encoding.maxBitrate.getD 0) (by omega)]
    constructor
    · intro ⟨layers, hlayers, _⟩
      exact ⟨layers, hlayers⟩
    · intro ⟨layers, hlayers⟩
      refine ⟨layers, hlayers, ?_⟩
      have hlength := Traverse.mapM_length hlayers
      rw [length_range] at hlength
      exact ne_nil_of_length_pos (by omega)
  · rw [if_neg hone]
    exact iff_of_true ⟨_, rfl, cons_ne_nil _ _⟩ fun _ => by omega

/-! ## The whole computation -/

/-- There are encodings, and layers for them. -/
def Returns (overflowChecks : Bool) (width height : UInt32) (options : TrackPublishOptions)
    (encodings : List RtpEncodingParameters) (layers : List VideoLayer) : Prop :=
  computeVideoEncodings overflowChecks width height options = some encodings ∧ encodings ≠ [] ∧
    videoLayersFromEncodings overflowChecks width height encodings = some layers ∧ layers ≠ []

/-- Encodings and layers are returned, and no shift overflows on the way. -/
def Computes (overflowChecks : Bool) (width height : UInt32) (options : TrackPublishOptions) :
    Prop :=
  ∃ encodings layers, Returns overflowChecks width height options encodings layers ∧
    ShiftsFit encodings

/-- What the presets must not ask for: the last of no layers, or a screen share with too low a
frame rate or far too high a one. -/
def PresetsFit (overflowChecks : Bool) (width height : UInt32) (options : TrackPublishOptions) :
    Prop :=
  options.simulcast = true →
    match options.simulcastLayers with
    | some layers => layers = [] → max width height < 480
    | none =>
      options.source = .screenshare →
        ∀ given, options.videoEncoding = some given →
          FramerateFits overflowChecks given.maxFramerate

/-- A scalability mode has no more layers than there are digits in the scale. Without one it is the
presets that have to fit. -/
def Fits (overflowChecks : Bool) (width height : UInt32) (options : TrackPublishOptions) : Prop :=
  match options.scalabilityMode with
  | some mode => spatialLayersFromScalabilityMode mode ≤ 32
  | none => PresetsFit overflowChecks width height options

theorem defaultPresets_ne_nil {overflowChecks isScreenshare : Bool} {initial : VideoPreset}
    (h : computeDefaultSimulcastPresets overflowChecks isScreenshare initial = some presets) :
    presets ≠ [] := by
  unfold computeDefaultSimulcastPresets at h
  split at h
  · obtain ⟨preset, -, hsingle⟩ := map_eq_some_iff.mp h
    rw [← hsingle]
    exact cons_ne_nil _ _
  · split at h
    · rw [← some.inj h]
      exact cons_ne_nil _ _
    · rw [← some.inj h]
      exact cons_ne_nil _ _

/-- Only the one of a screen share may not be there. -/
theorem defaultPresets_iff (overflowChecks : Bool) (source : TrackSource)
    (initial : VideoPreset) :
    (∃ presets, computeDefaultSimulcastPresets overflowChecks (source = .screenshare) initial =
      some presets) ↔
      (source = .screenshare → FramerateFits overflowChecks initial.encoding.maxFramerate) := by
  unfold computeDefaultSimulcastPresets
  by_cases hsource : source = .screenshare
  · rw [if_pos (decide_eq_true hsource), ← screenshare.computeDefaultSimulcastPreset_iff]
    constructor
    · intro ⟨presets, hpresets⟩ _
      obtain ⟨preset, hpreset, -⟩ := map_eq_some_iff.mp hpresets
      exact ⟨preset, hpreset⟩
    · intro hpreset
      obtain ⟨preset, hsome⟩ := hpreset hsource
      exact ⟨[preset], by rw [hsome]; rfl⟩
  · rw [if_neg (by simpa using hsource)]
    apply iff_of_true
    · split
      · exact ⟨_, rfl⟩
      · exact ⟨_, rfl⟩
    · intro hbad
      exact absurd hbad hsource

/-- With a scalability mode there is one encoding. -/
theorem encodings_of_mode (overflowChecks : Bool) (width height : UInt32)
    (hmode : options.scalabilityMode = some mode) :
    ∃ encoding, encoding.scalabilityMode = some mode ∧
      computeVideoEncodings overflowChecks width height options = some [encoding] := by
  obtain ⟨encoding, hencoding, -⟩ := initialEncoding_some overflowChecks width height options
  obtain ⟨single, hsingle⟩ := intoRtpEncodings_single width height ⟨encoding, width, height⟩
  refine ⟨{ single with scalabilityMode := some mode }, rfl, ?_⟩
  unfold computeVideoEncodings
  rw [hencoding, hmode]
  dsimp only [bind_eq_bind, bind_some]
  rw [hsingle]
  rfl

/-- Without one there are the encodings of presets, or the computation panics. -/
theorem encodings_of_no_mode (overflowChecks : Bool) (width height : UInt32)
    (hmode : options.scalabilityMode = none) :
    (PresetsFit overflowChecks width height options ∧
      Plain (computeVideoEncodings overflowChecks width height options)) ∨
    (¬PresetsFit overflowChecks width height options ∧
      computeVideoEncodings overflowChecks width height options = none) := by
  obtain ⟨encoding, hencoding, hrate⟩ := initialEncoding_some overflowChecks width height options
  unfold PresetsFit computeVideoEncodings
  rw [hencoding, hmode]
  dsimp only [bind_eq_bind, bind_some]
  by_cases hsimulcast : options.simulcast = true
  · rw [if_pos hsimulcast, forall_prop_of_true hsimulcast]
    cases hlayers : options.simulcastLayers with
    | some layers =>
      dsimp only [bind_some]
      by_cases hsize : layers = [] → max width height < 480
      · exact .inl ⟨hsize, simulcastEncodings_plain _ hsize⟩
      · refine .inr ⟨hsize, ?_⟩
        rw [Classical.not_imp] at hsize
        rw [hsize.1, simulcastEncodings_none _ hsize.2]
    | none =>
      dsimp only
      have hfits : (options.source = .screenshare → ∀ given, options.videoEncoding = some given →
          FramerateFits overflowChecks given.maxFramerate) ↔
          ∃ presets, computeDefaultSimulcastPresets overflowChecks
            (options.source = .screenshare) ⟨encoding, width, height⟩ = some presets := by
        rw [defaultPresets_iff]
        exact forall_congr' fun hsource => (hrate hsource).symm
      rw [hfits]
      cases hpresets : computeDefaultSimulcastPresets overflowChecks
          (options.source = .screenshare) ⟨encoding, width, height⟩ with
      | none =>
        refine .inr ⟨?_, bind_none _⟩
        intro ⟨presets, hbad⟩
        cases hbad
      | some presets =>
        have hne := defaultPresets_ne_nil hpresets
        rw [bind_some]
        exact .inl ⟨⟨presets, rfl⟩, simulcastEncodings_plain _ fun hnil => absurd hnil hne⟩
  · rw [if_neg hsimulcast]
    exact .inl ⟨fun hbad => absurd hbad hsimulcast,
      intoRtpEncodings_plain width height (cons_ne_nil _ _) (by simp)⟩

/-- The first half is about builds of both kinds. The second says where a build returns all the
same: without overflow checks the shift for a mode of many layers is masked. -/
theorem computes_iff (overflowChecks : Bool) (width height : UInt32)
    (options : TrackPublishOptions) :
    (Computes overflowChecks width height options ↔ Fits overflowChecks width height options) ∧
      ((∃ encodings layers, Returns overflowChecks width height options encodings layers) ↔
        Fits overflowChecks width height options ∨
          overflowChecks = false ∧ options.scalabilityMode ≠ none) := by
  unfold Computes Fits Returns
  cases hmode : options.scalabilityMode with
  | some mode =>
    obtain ⟨encoding, hencoding, hsingle⟩ := encodings_of_mode overflowChecks width height hmode
    have hlayers := layers_of_mode overflowChecks width height encoding hencoding
    dsimp only
    rw [hsingle]
    constructor
    · rw [← shiftsFit_mode encoding hencoding]
      constructor
      · intro ⟨encodings, layers, ⟨hsame, _⟩, hfit⟩
        rw [some.inj hsame]
        exact hfit
      · intro hfit
        obtain ⟨layers, hsome⟩ := hlayers.mpr fun _ => (shiftsFit_mode encoding hencoding).mp hfit
        exact ⟨_, layers, ⟨rfl, cons_ne_nil _ _, hsome⟩, hfit⟩
    · constructor
      · intro ⟨encodings, layers, hsame, _, hreturned⟩
        rw [← some.inj hsame] at hreturned
        have hle := hlayers.mp ⟨layers, hreturned⟩
        cases overflowChecks with
        | true => exact .inl (hle rfl)
        | false => exact .inr ⟨rfl, some_ne_none mode⟩
      · intro hfit
        obtain ⟨layers, hsome⟩ := hlayers.mpr fun hchecks =>
          hfit.resolve_right fun hbad => Bool.noConfusion (hchecks.symm.trans hbad.1)
        exact ⟨_, layers, rfl, cons_ne_nil _ _, hsome⟩
  | none =>
    dsimp only
    rw [or_iff_left fun hbad => hbad.2 rfl]
    rcases encodings_of_no_mode overflowChecks width height hmode with
      ⟨hfits, hplain⟩ | ⟨hfits, hnone⟩
    · obtain ⟨first, rest, hsome, hnomode⟩ := hplain
      obtain ⟨layers, hlayers⟩ := layers_of_plain overflowChecks width height
        (cons_ne_nil _ _) hnomode
      exact ⟨iff_of_true ⟨_, layers, ⟨hsome, cons_ne_nil _ _, hlayers⟩,
        shiftsFit_of_plain hnomode⟩ hfits, iff_of_true ⟨_, layers, hsome, cons_ne_nil _ _,
        hlayers⟩ hfits⟩
    · rw [hnone]
      refine ⟨iff_of_false ?_ hfits, iff_of_false ?_ hfits⟩
      · intro ⟨encodings, layers, ⟨hbad, _⟩, _⟩
        cases hbad
      · intro ⟨encodings, layers, hbad, _⟩
        cases hbad

/-- The default options, but with layers of which there are none. -/
def emptyLayers : TrackPublishOptions where
  videoEncoding := none
  videoCodec := .vp8
  simulcast := true
  simulcastLayers := some []
  source := .unknown
  scalabilityMode := none

theorem emptyLayers_panic :
    computeVideoEncodings true 1280 720 emptyLayers = none ∧
      ¬∀ overflowChecks width height options,
        Computes overflowChecks width height options := by
  have hnone : computeVideoEncodings true 1280 720 emptyLayers = none := by
    obtain ⟨encoding, hencoding, -⟩ := initialEncoding_some true 1280 720 emptyLayers
    have hsize : ¬max (1280 : UInt32) 720 < 480 := by decide
    unfold computeVideoEncodings
    rw [hencoding]
    exact simulcastEncodings_none ⟨encoding, 1280, 720⟩ hsize
  refine ⟨hnone, ?_⟩
  intro hall
  obtain ⟨encodings, layers, ⟨hsome, _⟩, _⟩ := hall true 1280 720 emptyLayers
  rw [hnone] at hsome
  cases hsome

end LiveKit.Options
