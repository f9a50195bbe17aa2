import LiveKit.Video.ImgProc

/-!
# The size checks of the pixel conversions

`imgproc::colorcvt` and the `yuv_helper` of libwebrtc check the sizes of the slices before they call
libyuv, in `u32` arithmetic that wraps. libyuv accesses the first samples of every row.
`sizeChecks_sufficient_iff` says for which sizes and strides the checks keep that in the slices.
-/

namespace LiveKit.Video

open List

/-! ## Checks of planes -/

/-- The assertions about one plane: its stride, and the rows that its slice must have room for. -/
structure Check where
  minStride : UInt32
  rows : UInt32
  /-- The product is divided by this. -/
  divisor : ℕ

namespace Check

def minLen (check : Check) (stride : UInt32) : ℕ := (stride * check.rows).toNat / check.divisor

/-- The assertions pass for a slice of `len` samples. -/
def Passes (check : Check) (stride : UInt32) (len : ℕ) : Prop :=
  check.minStride ≤ stride ∧ check.minLen stride ≤ len

instance (check : Check) (stride : UInt32) (len : ℕ) : Decidable (check.Passes stride len) :=
  inferInstanceAs (Decidable (_ ∧ _))

end Check

/-- Every sample that libyuv accesses lies in a slice of `len` samples. -/
def Shape.Inside (shape : Shape) (stride len : ℕ) : Prop :=
  ∀ row < shape.rows, ∀ column < shape.rowLen, row * stride + column < len

/-- Whatever slices pass the assertions, every sample that is accessed lies in its slice. The planes
come with their number, by which the strides and the lengths are given. -/
def Sufficient (planes : List (Check × Shape)) (stride : ℕ → UInt32) : Prop :=
  ∀ len : ℕ → ℕ, (∀ p ∈ planes.zipIdx, p.1.1.Passes (stride p.2) (len p.2)) →
    ∀ p ∈ planes.zipIdx, p.1.2.Inside (stride p.2).toNat (len p.2)

theorem Shape.Inside.mono {shape : Shape} {stride len len' : ℕ} (h : shape.Inside stride len)
    (hle : len ≤ len') : shape.Inside stride len' :=
  fun row hrow column hcolumn => Nat.lt_of_lt_of_le (h row hrow column hcolumn) hle

/-- The last sample of the last row decides. -/
theorem Shape.inside_iff {shape : Shape} {stride len : ℕ} (hlen : 0 < shape.rowLen)
    (hrows : 0 < shape.rows) :
    shape.Inside stride len ↔ (shape.rows - 1) * stride + shape.rowLen ≤ len := by
  constructor
  · intro h
    have hlast := h (shape.rows - 1) (by omega) (shape.rowLen - 1) (by omega)
    omega
  · intro h row hrow column hcolumn
    have hle : row * stride ≤ (shape.rows - 1) * stride := Nat.mul_le_mul_right _ (by omega)
    omega

/-- The shortest slices that pass decide. -/
theorem sufficient_iff (planes : List (Check × Shape)) (stride : ℕ → UInt32) :
    Sufficient planes stride ↔ ((∀ p ∈ planes.zipIdx, p.1.1.minStride ≤ stride p.2) →
      ∀ p ∈ planes.zipIdx, p.1.2.Inside (stride p.2).toNat (p.1.1.minLen (stride p.2))) := by
  constructor
  · intro h hstride p hp
    have hget := mem_zipIdx_iff_getElem?.mp hp
    have hinside := h (fun i => (planes[i]?).elim 0 fun q => q.1.minLen (stride i)) ?_ p hp
    · simpa only [hget, Option.elim_some] using hinside
    · intro q hq
      refine ⟨hstride q hq, ?_⟩
      simp only [mem_zipIdx_iff_getElem?.mp hq, Option.elim_some, Nat.le_refl]
  · intro h len hpass p hp
    exact (h (fun q hq => (hpass q hq).1) p hp).mono (hpass p hp).2

/-- A product that wraps is smaller than what is accessed, and so is a row that is longer than the
stride. -/
theorem le_mod_iff {stride : UInt32} {shape : Shape} (hrows : 0 < shape.rows) :
    (shape.rows - 1) * stride.toNat + shape.rowLen ≤ stride.toNat * shape.rows % 2 ^ 32 ↔
      shape.rowLen ≤ stride.toNat ∧ stride.toNat * shape.rows < 2 ^ 32 := by
  have hlt := stride.toNat_lt
  have hprod : stride.toNat * shape.rows = (shape.rows - 1) * stride.toNat + stride.toNat := by
    obtain ⟨n, hn⟩ := Nat.exists_eq_add_of_lt hrows
    rw [hn, Nat.mul_comm]
    simp only [Nat.zero_add, Nat.add_sub_cancel, Nat.add_mul, Nat.one_mul]
  by_cases hfits : stride.toNat * shape.rows < 2 ^ 32
  · rw [Nat.mod_eq_of_lt hfits]
    omega
  · have hmod := Nat.mod_lt (stride.toNat * shape.rows) (show 0 < 2 ^ 32 by decide)
    have hdiv := Nat.div_add_mod (stride.toNat * shape.rows) (2 ^ 32)
    have hpos : 0 < stride.toNat * shape.rows / 2 ^ 32 := Nat.div_pos (by omega) (by decide)
    omega

/-! ## `imgproc::colorcvt` -/

/-- The assertions of `valid_420` and the others about the planes, in `u32`. -/
def PixelFormat.checks (width height : UInt32) : PixelFormat → List Check
  | rgba => [⟨width * 4, height, 1⟩]
  | rgb => [⟨width * 3, height, 1⟩]
  | i420 | i010 =>
    [⟨width, height, 1⟩, ⟨(width + 1) / 2, (height + 1) / 2, 1⟩,
      ⟨(width + 1) / 2, (height + 1) / 2, 1⟩]
  | i420a =>
    [⟨width, height, 1⟩, ⟨(width + 1) / 2, (height + 1) / 2, 1⟩,
      ⟨(width + 1) / 2, (height + 1) / 2, 1⟩, ⟨width, height, 1⟩]
  | i422 => [⟨width, height, 1⟩, ⟨(width + 1) / 2, height, 1⟩, ⟨(width + 1) / 2, height, 1⟩]
  | i444 => [⟨width, height, 1⟩, ⟨width, height, 1⟩, ⟨width, height, 1⟩]
  | nv12 => [⟨width, height, 1⟩, ⟨width + width % 2, (height + 1) / 2, 1⟩]

namespace Colorcvt

/-- The planes of a conversion, of the source and then of the destination. -/
def planes (src dst : PixelFormat) (width height : UInt32) : List (Check × Shape) :=
  (src.checks width height).zip (src.shapes width.toNat height.toNat) ++
    (dst.checks width height).zip (dst.shapes width.toNat height.toNat)

/-- The checks of a conversion are sufficient. -/
def Safe (src dst : PixelFormat) (width height : UInt32) (stride : ℕ → UInt32) : Prop :=
  0 < width ∧ 0 < height → Sufficient (planes src dst width height) stride

/-- A plane in which something is accessed. The rows of the checks are those of libyuv, unless the
height is the largest. -/
def Agrees (height : UInt32) (p : Check × Shape) : Prop :=
  p.1.divisor = 1 ∧ 0 < p.2.rowLen ∧ 0 < p.2.rows ∧ p.1.rows.toNat
    = if p.2.rows = height.toNat ∨ height.toNat + 1 < 2 ^ 32 then p.2.rows else 0

theorem planes_agree (format : PixelFormat) {width height : UInt32} (hwidth : 0 < width)
    (hheight : 0 < height) :
    ∀ p ∈ (format.checks width height).zip (format.shapes width.toNat height.toNat),
      Agrees height p := by
  have hw : 0 < width.toNat := UInt32.lt_iff_toNat_lt.mp hwidth
  have hh : 0 < height.toNat := UInt32.lt_iff_toNat_lt.mp hheight
  have hlt := height.toNat_lt
  have hfull : ∀ (minStride : UInt32) (rowLen : ℕ), 0 < rowLen →
      Agrees height (⟨minStride, height, 1⟩, ⟨rowLen, height.toNat⟩) :=
    fun _ _ h => ⟨rfl, h, hh, by simp⟩
  have hhalf : ∀ (minStride : UInt32) (rowLen : ℕ), 0 < rowLen →
      Agrees height (⟨minStride, (height + 1) / 2, 1⟩, ⟨rowLen, (height.toNat + 1) / 2⟩) := by
    intro minStride rowLen h
    have hrows : ((height + 1) / 2).toNat = (height.toNat + 1) % 2 ^ 32 / 2 := by
      rw [UInt32.toNat_div, UInt32.toNat_add]
      rfl
    refine ⟨rfl, h, by simp only; omega, ?_⟩
    simp only [hrows]
    split
    all_goals omega
  cases format
  all_goals
    simp (disch := omega) [PixelFormat.checks, PixelFormat.shapes, hfull, hhalf]

theorem safe_iff (src dst : PixelFormat) (width height : UInt32) (stride : ℕ → UInt32) :
    Safe src dst width height stride ↔ (0 < width ∧ 0 < height →
      (∀ p ∈ (planes src dst width height).zipIdx, p.1.1.minStride ≤ stride p.2) →
      ∀ p ∈ (planes src dst width height).zipIdx,
        p.1.2.rowLen ≤ (stride p.2).toNat ∧ (stride p.2).toNat * p.1.2.rows < 2 ^ 32 ∧
          (p.1.2.rows = height.toNat ∨ height.toNat + 1 < 2 ^ 32)) := by
  unfold Safe
  refine forall_congr' fun hsize => ?_
  rw [sufficient_iff]
  refine forall_congr' fun _ => forall₂_congr fun p hp => ?_
  have hmem : p.1 ∈ planes src dst width height :=
    mem_of_getElem? (mem_zipIdx_iff_getElem?.mp hp)
  have hagrees : Agrees height p.1 := by
    rcases mem_append.mp hmem with hmem | hmem
    · exact planes_agree src hsize.1 hsize.2 _ hmem
    · exact planes_agree dst hsize.1 hsize.2 _ hmem
  obtain ⟨hdivisor, hlen, hpos, hrows⟩ := hagrees
  rw [Shape.inside_iff hlen hpos, Check.minLen, hdivisor, Nat.div_one, UInt32.toNat_mul, hrows]
  split
  · next hheight => rw [le_mod_iff hpos, iff_true_intro hheight, and_true]
  · next hheight =>
    -- the check asks for no samples at all
    rw [iff_false_intro hheight, and_false, and_false, Nat.mul_zero, Nat.zero_mod]
    exact iff_of_false (by omega) not_false

end Colorcvt

/-! ## `yuv_helper` -/

/-- The conversions. -/
inductive YuvHelper where
  | argbToRgb24
  | argbToI420
  | abgrToI420
  | i420ToArgb
  | i420ToBgra
  | i420ToAbgr
  | i420ToRgba
  | i420ToNv12
  | nv12ToI420
  | i444ToI420
  | i422ToI420
  | i010ToI420
  | nv12ToArgb
  | nv12ToAbgr
  | i444ToArgb
  | i444ToAbgr
  | i422ToArgb
  | i422ToAbgr
  | i010ToArgb
  | i010ToAbgr
  | abgrToNv12
  | argbToNv12

namespace YuvHelper

def src : YuvHelper → PixelFormat
  | argbToRgb24 | argbToI420 | abgrToI420 | abgrToNv12 | argbToNv12 => .rgba
  | i420ToArgb | i420ToBgra | i420ToAbgr | i420ToRgba | i420ToNv12 => .i420
  | nv12ToI420 | nv12ToArgb | nv12ToAbgr => .nv12
  | i444ToI420 | i444ToArgb | i444ToAbgr => .i444
  | i422ToI420 | i422ToArgb | i422ToAbgr => .i422
  | i010ToI420 | i010ToArgb | i010ToAbgr => .i010

def dst : YuvHelper → PixelFormat
  | argbToRgb24 => .rgb
  | argbToI420 | abgrToI420 | nv12ToI420 | i444ToI420 | i422ToI420 | i010ToI420 => .i420
  | i420ToNv12 | abgrToNv12 | argbToNv12 => .nv12
  | _ => .rgba

/-- `argb_assert_safety`, which is used for RGB24 as well, and the others: the width is ignored. For
10 bits the strides are taken for bytes, and the odd row of the chroma is forgotten. -/
def assertSafety (height : UInt32) : PixelFormat → List Check
  | .rgba | .rgb => [⟨0, height, 1⟩]
  | .i420 | .i420a => [⟨0, height, 1⟩, ⟨0, (height + 1) / 2, 1⟩, ⟨0, (height + 1) / 2, 1⟩]
  | .nv12 => [⟨0, height, 1⟩, ⟨0, (height + 1) / 2, 1⟩]
  | .i444 | .i422 => [⟨0, height, 1⟩, ⟨0, height, 1⟩, ⟨0, height, 1⟩]
  | .i010 => [⟨0, height, 2⟩, ⟨0, height / 2, 2⟩, ⟨0, height / 2, 2⟩]

/-- `height.unsigned_abs()` -/
def heightAbs (height : Int32) : UInt32 := UInt32.ofNat height.toInt.natAbs

/-- The planes of one picture. Nothing is accessed of a picture without a width. -/
def formatPlanes (format : PixelFormat) (width height : Int32) : List (Check × Shape) :=
  (assertSafety (heightAbs height) format).zip
    (format.shapes width.toInt.toNat height.toInt.natAbs)

def planes (fn : YuvHelper) (width height : Int32) : List (Check × Shape) :=
  formatPlanes fn.src width height ++ formatPlanes fn.dst width height

theorem heightAbs_toNat (height : Int32) : (heightAbs height).toNat = height.toInt.natAbs := by
  have hlt := height.toInt_lt
  have hge := height.le_toInt
  exact UInt32.toNat_ofNat_of_lt' (by simp only [UInt32.size]; omega)

theorem minStride_eq (format : PixelFormat) (width height : Int32) :
    ∀ p ∈ formatPlanes format width height, p.1.minStride = 0 := by
  cases format
  all_goals simp [formatPlanes, assertSafety, PixelFormat.shapes]

/-- No stride is refused. -/
theorem minStride_le (fn : YuvHelper) (width height : Int32) (stride : ℕ → UInt32) :
    ∀ p ∈ (fn.planes width height).zipIdx, p.1.1.minStride ≤ stride p.2 := by
  intro p hp
  have hzero : p.1.1.minStride = 0 := by
    rcases mem_append.mp (mem_of_getElem? (mem_zipIdx_iff_getElem?.mp hp)) with
      hmem | hmem
    · exact minStride_eq _ _ _ _ hmem
    · exact minStride_eq _ _ _ _ hmem
  rw [hzero]
  exact UInt32.zero_le

/-- A plane whose check asks for its rows. -/
def Agrees (p : Check × Shape) : Prop := p.1.divisor = 1 ∧ p.1.rows.toNat = p.2.rows

theorem planes_agree {format : PixelFormat} (hformat : format ≠ .i010) (width height : Int32) :
    ∀ p ∈ formatPlanes format width height, Agrees p := by
  have hlt := height.toInt_lt
  have hge := height.le_toInt
  have hheight := heightAbs_toNat height
  have hhalf : ((heightAbs height + 1) / 2).toNat = (height.toInt.natAbs + 1) / 2 := by
    rw [UInt32.toNat_div, UInt32.toNat_add, hheight]
    simp only [UInt32.reduceToNat]
    omega
  cases format
  all_goals simp_all [formatPlanes, assertSafety, PixelFormat.shapes, Agrees]

theorem shapes_empty (format : PixelFormat) {width height : ℕ} (h : width = 0 ∨ height = 0) :
    ∀ shape ∈ format.shapes width height, shape.rowLen = 0 ∨ shape.rows = 0 := by
  cases format
  all_goals
    simp only [PixelFormat.shapes, forall_mem_cons, not_mem_nil, false_imp_iff,
      implies_true, and_true]
    omega

theorem shapes_pos (format : PixelFormat) {width height : ℕ} (hwidth : 0 < width)
    (hheight : 0 < height) : ∀ shape ∈ format.shapes width height,
      0 < shape.rowLen ∧ 0 < shape.rows := by
  cases format
  all_goals
    simp only [PixelFormat.shapes, forall_mem_cons, not_mem_nil, false_imp_iff,
      implies_true, and_true]
    omega

/-- The planes of a source with 10 bits are never safe: with more than one row the first plane is
asked for half of its samples, and with one row the second is asked for none. -/
theorem not_sufficient_of_i010 {fn : YuvHelper} (hsrc : fn.src = .i010) {width height : Int32}
    (hwidth : 0 < width.toInt) (hheight : height.toInt ≠ 0) (stride : ℕ → UInt32) :
    ¬ Sufficient (fn.planes width height) stride := by
  rw [sufficient_iff]
  intro h
  have habs := heightAbs_toNat height
  have hfirst := h (minStride_le fn _ _ stride) ((⟨0, heightAbs height, 2⟩,
    ⟨width.toInt.toNat, height.toInt.natAbs⟩), 0) (by
      simp [planes, formatPlanes, hsrc, assertSafety, PixelFormat.shapes])
  have hsecond := h (minStride_le fn _ _ stride) ((⟨0, heightAbs height / 2, 2⟩,
    ⟨(width.toInt.toNat + 1) / 2, (height.toInt.natAbs + 1) / 2⟩), 1) (by
      simp [planes, formatPlanes, hsrc, assertSafety, PixelFormat.shapes])
  rw [Shape.inside_iff (by simp only; omega) (by simp only; omega)] at hfirst hsecond
  simp only [Check.minLen, UInt32.toNat_mul, habs, UInt32.toNat_div, UInt32.reduceToNat]
    at hfirst hsecond
  by_cases hone : height.toInt.natAbs = 1
  · rw [hone] at hsecond
    simp only [Nat.reduceDiv, Nat.mul_zero, Nat.zero_mod, Nat.zero_div] at hsecond
    omega
  · obtain ⟨n, hn⟩ : ∃ n, height.toInt.natAbs = n + 2 := ⟨height.toInt.natAbs - 2, by omega⟩
    have hmod := Nat.mod_le ((stride 0).toNat * (n + 2)) (2 ^ 32)
    rw [hn, show n + 2 - 1 = n + 1 by omega, Nat.add_mul, Nat.one_mul] at hfirst
    rw [Nat.mul_add, Nat.mul_comm _ n] at hmod hfirst
    omega

/-- The checks of a helper are sufficient where nothing is accessed, or the source does not have 10
bits and the rows fit into the strides and the planes into `u32`. -/
theorem sufficient_planes_iff (fn : YuvHelper) (width height : Int32) (stride : ℕ → UInt32) :
    Sufficient (fn.planes width height) stride ↔ width.toInt ≤ 0 ∨ height.toInt = 0 ∨
      fn.src ≠ .i010 ∧ ∀ p ∈ (fn.planes width height).zipIdx,
        p.1.2.rowLen ≤ (stride p.2).toNat ∧ (stride p.2).toNat * p.1.2.rows < 2 ^ 32 := by
  have hshape : ∀ p ∈ (fn.planes width height).zipIdx, ∃ format,
      p.1 ∈ formatPlanes format width height ∧ (format = fn.src ∨ format = fn.dst) := by
    intro p hp
    rcases mem_append.mp (mem_of_getElem? (mem_zipIdx_iff_getElem?.mp hp)) with
      hmem | hmem
    · exact ⟨_, hmem, .inl rfl⟩
    · exact ⟨_, hmem, .inr rfl⟩
  by_cases hempty : width.toInt ≤ 0 ∨ height.toInt = 0
  · refine iff_of_true ?_ (hempty.imp_right .inl)
    intro len _ p hp row hrow column hcolumn
    obtain ⟨format, hmem, -⟩ := hshape p hp
    have hsize : width.toInt.toNat = 0 ∨ height.toInt.natAbs = 0 := by omega
    rcases shapes_empty format hsize p.1.2 (of_mem_zip hmem).2 with hnone | hnone
    · exact absurd hcolumn (by omega)
    · exact absurd hrow (by omega)
  · obtain ⟨hwidth, hheight⟩ := not_or.mp hempty
    rw [or_iff_right hwidth, or_iff_right hheight]
    by_cases hsrc : fn.src = .i010
    · exact iff_of_false (not_sufficient_of_i010 hsrc (by omega) hheight stride)
        fun h => h.1 hsrc
    · rw [and_iff_right hsrc, sufficient_iff, forall_prop_of_true (minStride_le fn _ _ stride)]
      refine forall₂_congr fun p hp => ?_
      obtain ⟨format, hmem, hformat⟩ := hshape p hp
      have hne : format ≠ .i010 := by
        rcases hformat with rfl | rfl
        · exact hsrc
        · cases fn
          all_goals simp [dst]
      obtain ⟨hdivisor, hrows⟩ := planes_agree hne width height _ hmem
      obtain ⟨hlen, hpos⟩ := shapes_pos format (show 0 < width.toInt.toNat by omega)
        (show 0 < height.toInt.natAbs by omega) _ (of_mem_zip hmem).2
      rw [Shape.inside_iff hlen hpos, Check.minLen, hdivisor, Nat.div_one, UInt32.toNat_mul, hrows,
        le_mod_iff hpos]

end YuvHelper

/-! ## Both -/

/-- **Sufficient size checks.** The checks of `colorcvt` are sufficient where they refuse the size
or a stride, or every row fits into its stride, every plane into `u32`, and so does the height for
halving; those of the helpers where nothing is accessed, or the source does not have 10 bits and
every row fits into its stride and every plane into `u32`. -/
theorem sizeChecks_sufficient_iff (src dst : PixelFormat) (width height : UInt32) (fn : YuvHelper)
    (signedWidth signedHeight : Int32) (stride : ℕ → UInt32) :
    (Colorcvt.Safe src dst width height stride ↔ (0 < width ∧ 0 < height →
      (∀ p ∈ (Colorcvt.planes src dst width height).zipIdx, p.1.1.minStride ≤ stride p.2) →
      ∀ p ∈ (Colorcvt.planes src dst width height).zipIdx,
        p.1.2.rowLen ≤ (stride p.2).toNat ∧ (stride p.2).toNat * p.1.2.rows < 2 ^ 32 ∧
          (p.1.2.rows = height.toNat ∨ height.toNat + 1 < 2 ^ 32))) ∧
    (Sufficient (fn.planes signedWidth signedHeight) stride ↔
      signedWidth.toInt ≤ 0 ∨ signedHeight.toInt = 0 ∨
        fn.src ≠ .i010 ∧ ∀ p ∈ (fn.planes signedWidth signedHeight).zipIdx,
          p.1.2.rowLen ≤ (stride p.2).toNat ∧ (stride p.2).toNat * p.1.2.rows < 2 ^ 32) :=
  ⟨Colorcvt.safe_iff src dst width height stride,
    YuvHelper.sufficient_planes_iff fn signedWidth signedHeight stride⟩

/-- A row of two samples is accessed through a helper, but the slices have room for one. -/
theorem sizeChecks_insufficient :
    ¬ ((∀ (src dst : PixelFormat) (width height : UInt32) (stride : ℕ → UInt32),
        Colorcvt.Safe src dst width height stride) ∧
      ∀ (fn : YuvHelper) (width height : Int32) (stride : ℕ → UInt32),
        Sufficient (fn.planes width height) stride) := by
  intro h
  have hbad := h.2 .i444ToArgb 2 1 (fun _ => 1) (fun _ => 1) (by decide) ((⟨0, 1, 1⟩, ⟨2, 1⟩), 0)
    mem_cons_self 0 Nat.one_pos 1 Nat.one_lt_two
  exact absurd hbad (by decide)

end LiveKit.Video
