import LiveKit.Video.Buffers
import Mathlib.Data.List.Forall2

/-!
# What the descriptions of buffers cover

The sizes in a description are those of the planes, except for samples of two bytes, where they are
half as large, and for the colors of NV12, where they are twice as large.
-/

namespace LiveKit.Video

open List Option

/-! ## Legal buffers -/

/-- A plane has what its stride and its shape say. -/
def Plane.Legal (sampleBytes : ℕ) (plane : Plane) (shape : Shape) : Prop :=
  shape.rowLen ≤ plane.stride ∧ plane.stride < 2 ^ 31 ∧
    plane.slice.bytes.length = plane.stride * shape.rows * sampleBytes

structure VideoBuffer.Legal (env : Env) (b : VideoBuffer) : Prop where
  width : 0 < b.width ∧ b.width < 2 ^ 31
  height : 0 < b.height ∧ b.height < 2 ^ 31
  planes : List.Forall₂ (Plane.Legal b.type.format.sampleBytes) b.planes
    (b.type.format.shapes b.width b.height)
  /-- The planes are in memory. -/
  memory : ∀ plane ∈ b.planes,
    env.fromRawParts plane.slice.addr plane.slice.bytes.length = plane.slice

instance (sampleBytes : ℕ) : DecidableRel (Plane.Legal sampleBytes) := fun _ _ =>
  inferInstanceAs (Decidable (_ ∧ _ ∧ _))

instance (env : Env) (b : VideoBuffer) : Decidable (b.Legal env) :=
  decidable_of_iff (_ ∧ _ ∧ _ ∧ _)
    ⟨fun ⟨hwidth, hheight, hplanes, hmemory⟩ => ⟨hwidth, hheight, hplanes, hmemory⟩,
      fun h => ⟨h.width, h.height, h.planes, h.memory⟩⟩

/-! ## What is promised -/

/-- The sizes of the planes. -/
def VideoBuffer.sizes (b : VideoBuffer) : List ℕ :=
  b.planes.map fun plane => plane.slice.bytes.length

/-- The same, but for where its planes are. -/
structure SameBuffer (b b' : VideoBuffer) : Prop where
  type : b'.type = b.type
  width : b'.width = b.width
  height : b'.height = b.height
  strides : b'.planes.map Plane.stride = b.planes.map Plane.stride
  bytes : b'.planes.map (fun plane => plane.slice.bytes) =
    b.planes.map fun plane => plane.slice.bytes

structure Covers (env : Env) (b : VideoBuffer) : Prop where
  description : ∃ info, env.describe b = some info ∧
    info.components.map ComponentInfo.size = b.sizes
  data : ∃ slices, b.data env = some slices ∧
    slices.map (fun slice => slice.bytes.length) = b.sizes
  roundTrip : b.type ≠ .i420a → ∃ info b', env.describe b = some info ∧
    env.toLibwebrtcBuffer info = some b' ∧ SameBuffer b b'

/-! ## Sizes -/

variable {overflowChecks : Bool} {n dataPtr stride size : ℕ}

theorem u32_of_lt (h : n < 2 ^ 32) :
    u32 overflowChecks n = some n := if_pos h

theorem u32_some {m : ℕ} (h : u32 overflowChecks n = some m) :
    m < 2 ^ 32 ∧ m = n % 2 ^ 32 := by
  unfold u32 at h
  split at h
  · next hlt =>
    obtain rfl := some.inj h
    exact ⟨hlt, (Nat.mod_eq_of_lt hlt).symm⟩
  · split at h
    · cases h
    · obtain rfl := some.inj h
      exact ⟨Nat.mod_lt _ (by decide), rfl⟩

theorem component_some {env : Env} {c : ComponentInfo}
    (h : env.component dataPtr stride size = some c) :
    c.dataPtr = dataPtr ∧ c.stride = stride ∧ c.size < 2 ^ 32 ∧ c.size = size % 2 ^ 32 := by
  obtain ⟨m, hm, heq⟩ := bind_eq_some_iff.mp h
  obtain rfl := some.inj heq
  obtain ⟨hlt, hmod⟩ := u32_some hm
  exact ⟨rfl, rfl, hlt, hmod⟩

theorem component_of_lt (env : Env) (h : size < 2 ^ 32) :
    env.component dataPtr stride size = some ⟨dataPtr, stride, size⟩ := by
  unfold Env.component
  rw [u32_of_lt h]
  rfl

/-! ## Three planes of bytes -/

section

variable {env : Env} {b : VideoBuffer} {y u v : Plane} {s₁ s₂ s₃ : Shape}

theorem legal_three (h : b.Legal env)
    (hshapes : b.type.format.shapes b.width b.height = [s₁, s₂, s₃]) :
    ∃ y u v, b.planes = [y, u, v] ∧ y.Legal b.type.format.sampleBytes s₁ ∧
      u.Legal b.type.format.sampleBytes s₂ ∧ v.Legal b.type.format.sampleBytes s₃ := by
  have hplanes := h.planes
  rw [hshapes] at hplanes
  obtain ⟨y, _, hy, h₂, heq⟩ := forall₂_cons_right_iff.mp hplanes
  obtain ⟨u, _, hu, h₃, rfl⟩ := forall₂_cons_right_iff.mp h₂
  obtain ⟨v, _, hv, hnil, rfl⟩ := forall₂_cons_right_iff.mp h₃
  obtain rfl := forall₂_nil_right_iff.mp hnil
  exact ⟨y, u, v, heq, hy, hu, hv⟩

variable {width height : ℕ} {planes : List Plane}

theorem legal_i420a (h : (VideoBuffer.mk .i420a width height planes).Legal env) :
    ∃ y u v a, planes = [y, u, v, a] ∧ y.Legal 1 ⟨width, height⟩ ∧
      u.Legal 1 ⟨(width + 1) / 2, (height + 1) / 2⟩ ∧
      v.Legal 1 ⟨(width + 1) / 2, (height + 1) / 2⟩ ∧ a.Legal 1 ⟨width, height⟩ := by
  obtain ⟨y, _, hy, h₂, heq⟩ := forall₂_cons_right_iff.mp h.planes
  obtain ⟨u, _, hu, h₃, rfl⟩ := forall₂_cons_right_iff.mp h₂
  obtain ⟨v, _, hv, h₄, rfl⟩ := forall₂_cons_right_iff.mp h₃
  obtain ⟨a, _, ha, hnil, rfl⟩ := forall₂_cons_right_iff.mp h₄
  obtain rfl := forall₂_nil_right_iff.mp hnil
  exact ⟨y, u, v, a, heq, hy, hu, hv, ha⟩

theorem legal_nv12 (h : (VideoBuffer.mk .nv12 width height planes).Legal env) :
    ∃ y uv, planes = [y, uv] ∧ y.Legal 1 ⟨width, height⟩ ∧
      uv.Legal 1 ⟨width + width % 2, (height + 1) / 2⟩ := by
  obtain ⟨y, _, hy, h₂, heq⟩ := forall₂_cons_right_iff.mp h.planes
  obtain ⟨uv, _, huv, hnil, rfl⟩ := forall₂_cons_right_iff.mp h₂
  obtain rfl := forall₂_nil_right_iff.mp hnil
  exact ⟨y, uv, heq, hy, huv⟩

/-- A buffer made of slices that have what the planes have. -/
theorem copyBuffer_three (info : VideoBufferInfo) (type : BufferType) (htype : type ≠ .i010)
    (hwidth : info.width < 2 ^ 31) (hheight : info.height < 2 ^ 31)
    (hshapes : type.format.shapes info.width info.height = [s₁, s₂, s₃])
    (hy : y.Legal 1 s₁) (hu : u.Legal 1 s₂) (hv : v.Legal 1 s₃)
    (hmemory : ∀ plane ∈ [y, u, v],
      env.fromRawParts plane.slice.addr plane.slice.bytes.length = plane.slice)
    (hfits : ∀ plane ∈ [y, u, v], plane.slice.bytes.length < 2 ^ 32) :
    ∃ b', env.copyBuffer info type ([y, u, v].map fun plane =>
        ⟨plane.slice.addr, plane.stride, plane.slice.bytes.length⟩) = some b' ∧
      SameBuffer ⟨type, info.width, info.height, [y, u, v]⟩ b' := by
  have hsample : type.format.sampleBytes = 1 := by
    cases type with
    | i010 => exact absurd rfl htype
    | _ => rfl
  obtain ⟨-, hyInt, hyLen⟩ := hy
  obtain ⟨-, huInt, huLen⟩ := hu
  obtain ⟨-, hvInt, hvLen⟩ := hv
  rw [Nat.mul_one] at hyLen huLen hvLen
  have hyMem := hmemory y (by simp)
  have huMem := hmemory u (by simp)
  have hvMem := hmemory v (by simp)
  have hyFits := hfits y (by simp)
  have huFits := hfits u (by simp)
  have hvFits := hfits v (by simp)
  -- the copy fills each plane of the new buffer
  have hdrop : ∀ (f : ℕ → UInt8) (n : ℕ), ((List.range n).map f).drop n = [] := by
    intro f n
    apply drop_eq_nil_of_le
    exact Nat.le_of_eq (by rw [length_map, length_range])
  have hints : info.width < 2 ^ 31 ∧ info.height < 2 ^ 31 ∧
      ∀ stride ∈ [y.stride, u.stride, v.stride], stride < 2 ^ 31 := by
    refine ⟨hwidth, hheight, fun stride hstride => ?_⟩
    simp only [mem_cons, not_mem_nil, or_false] at hstride
    obtain rfl | rfl | rfl := hstride
    · exact hyInt
    · exact huInt
    · exact hvInt
  have hnew : env.withStrides type info.width info.height [y.stride, u.stride, v.stride] = some _ :=
    if_pos hints
  simp only [Env.copyBuffer, map_cons, map_nil, hnew]
  simp [hshapes, hsample, htype, VideoBuffer.data, VideoBuffer.shaped, hyMem, huMem, hvMem,
    VideoBuffer.write, ← hyLen, ← huLen, ← hvLen, u32_of_lt hyFits, u32_of_lt huFits,
    u32_of_lt hvFits]
  constructor
  · rfl
  · rfl
  · rfl
  · rfl
  · simp only [map_cons, map_nil, hdrop, append_nil]

end

/-! ## Which buffers are described -/

/-- The size of each plane is a `u32`. -/
def VideoBuffer.Fits (b : VideoBuffer) : Prop :=
  ∀ plane ∈ b.planes, plane.slice.bytes.length < 2 ^ 32

variable {env : Env} {b : VideoBuffer}

/-- The description of a buffer with three planes of bytes. -/
def described (type : BufferType) (width height : ℕ) (dataPtr : ℕ) (planes : List Plane) :
    VideoBufferInfo where
  type := type.proto
  width := width
  height := height
  dataPtr := dataPtr
  stride := none
  components := planes.map fun plane =>
    ⟨plane.slice.addr, plane.stride, plane.slice.bytes.length⟩

theorem Covers.of_three {y u v : Plane} {s₁ s₂ s₃ : Shape} (h : b.Legal env) (hfits : b.Fits)
    (htype : b.type ≠ .i010)
    (hshapes : b.type.format.shapes b.width b.height = [s₁, s₂, s₃])
    (hplanes : b.planes = [y, u, v]) (hy : y.Legal 1 s₁) (hu : u.Legal 1 s₂) (hv : v.Legal 1 s₃)
    (hdescribe : env.describe b =
      some (described b.type b.width b.height y.slice.addr [y, u, v]))
    (hcopy : env.toLibwebrtcBuffer (described b.type b.width b.height y.slice.addr [y, u, v]) =
      env.copyBuffer (described b.type b.width b.height y.slice.addr [y, u, v]) b.type
        ([y, u, v].map fun plane =>
          ⟨plane.slice.addr, plane.stride, plane.slice.bytes.length⟩)) :
    Covers env b := by
  have hsample : b.type.format.sampleBytes = 1 := by
    cases htype' : b.type with
    | i010 => exact absurd htype' htype
    | _ => rfl
  unfold VideoBuffer.Fits at hfits
  rw [hplanes] at hfits
  have hmemory := h.memory
  rw [hplanes] at hmemory
  refine ⟨⟨_, hdescribe, ?_⟩, ?_, fun _ => ?_⟩
  · unfold described VideoBuffer.sizes
    rw [hplanes]
    rfl
  · have hyFits := hfits y (by simp)
    have huFits := hfits u (by simp)
    have hvFits := hfits v (by simp)
    have hyLen := hy.2.2
    have huLen := hu.2.2
    have hvLen := hv.2.2
    rw [Nat.mul_one] at hyLen huLen hvLen
    simp [VideoBuffer.data, VideoBuffer.shaped, VideoBuffer.sizes, hshapes, hplanes, hsample, htype,
      ← hyLen, ← huLen, ← hvLen, u32_of_lt hyFits, u32_of_lt huFits, u32_of_lt hvFits]
  · obtain ⟨b', hb', hsame⟩ := copyBuffer_three
      (described b.type b.width b.height y.slice.addr [y, u, v]) b.type htype h.width.2 h.height.2
      hshapes hy hu hv hmemory hfits
    refine ⟨_, b', hdescribe, hcopy.trans hb', ?_⟩
    have heq : VideoBuffer.mk b.type b.width b.height [y, u, v] = b := by rw [← hplanes]
    rw [← heq]
    exact hsame

/-- Three components, of sizes that are products. -/
theorem three_components (env : Env) (type : BufferType) (width height : ℕ) {y u v : Plane}
    {s₁ s₂ s₃ : Shape} (hy : y.Legal 1 s₁) (hu : u.Legal 1 s₂) (hv : v.Legal 1 s₃)
    (hfits : ∀ plane ∈ [y, u, v], plane.slice.bytes.length < 2 ^ 32) :
    (do
      let c1 ← env.component y.slice.addr y.stride (y.stride * s₁.rows)
      let c2 ← env.component u.slice.addr u.stride (u.stride * s₂.rows)
      let c3 ← env.component v.slice.addr v.stride (v.stride * s₃.rows)
      return VideoBufferInfo.mk type.proto width height y.slice.addr none [c1, c2, c3]) =
    some (described type width height y.slice.addr [y, u, v]) := by
  have hyLen := hy.2.2
  have huLen := hu.2.2
  have hvLen := hv.2.2
  rw [Nat.mul_one] at hyLen huLen hvLen
  rw [← hyLen, ← huLen, ← hvLen, component_of_lt env (hfits y (by simp)),
    component_of_lt env (hfits u (by simp)), component_of_lt env (hfits v (by simp))]
  rfl

theorem covers_of_fits (h : b.Legal env) (hi010 : b.type ≠ .i010) (hnv12 : b.type ≠ .nv12)
    (hfits : b.Fits) : Covers env b := by
  have hplanes := hfits
  unfold VideoBuffer.Fits at hplanes
  obtain ⟨type, width, height, planes⟩ := b
  cases type with
  | i420 =>
    obtain ⟨y, u, v, rfl, hy, hu, hv⟩ := legal_three h rfl
    have hdescribe := three_components env .i420 width height hy hu hv hplanes
    exact .of_three h hfits hi010 rfl rfl hy hu hv hdescribe rfl
  | i422 =>
    obtain ⟨y, u, v, rfl, hy, hu, hv⟩ := legal_three h rfl
    have hdescribe := three_components env .i422 width height hy hu hv hplanes
    exact .of_three h hfits hi010 rfl rfl hy hu hv hdescribe rfl
  | i444 =>
    obtain ⟨y, u, v, rfl, hy, hu, hv⟩ := legal_three h rfl
    have hdescribe := three_components env .i444 width height hy hu hv hplanes
    exact .of_three h hfits hi010 rfl rfl hy hu hv hdescribe rfl
  | i420a =>
    obtain ⟨y, u, v, a, rfl, hy, hu, hv, ha⟩ := legal_i420a h
    have hyLen := hy.2.2
    have huLen := hu.2.2
    have hvLen := hv.2.2
    have haLen := ha.2.2
    rw [Nat.mul_one] at hyLen huLen hvLen haLen
    have hyFits := hplanes y (by simp)
    have huFits := hplanes u (by simp)
    have hvFits := hplanes v (by simp)
    have haFits := hplanes a (by simp)
    refine ⟨?_, ?_, fun hbad => absurd rfl hbad⟩
    · simp only at hyLen huLen hvLen haLen
      simp [Env.describe, Env.i420aInfo, VideoBuffer.sizes, ← hyLen, ← huLen, ← hvLen, ← haLen,
        component_of_lt env hyFits, component_of_lt env huFits, component_of_lt env hvFits,
        component_of_lt env haFits]
    · simp only at hyLen huLen hvLen haLen
      simp [VideoBuffer.data, VideoBuffer.shaped, VideoBuffer.sizes, BufferType.format,
        PixelFormat.shapes, PixelFormat.sampleBytes, ← hyLen, ← huLen, ← hvLen, ← haLen,
        u32_of_lt hyFits, u32_of_lt huFits, u32_of_lt hvFits, u32_of_lt haFits]
  | i010 => exact absurd rfl hi010
  | nv12 => exact absurd rfl hnv12

/-! ## Which buffers are not -/

variable {d₁ d₂ d₃ t₁ t₂ t₃ z₁ z₂ z₃ width height : ℕ} {info : VideoBufferInfo}
  {planes : List Plane}

/-- The sizes of three components, whatever they are made of. -/
theorem three_sizes {d₁ d₂ d₃ t₁ t₂ t₃ z₁ z₂ z₃ : ℕ} {info : VideoBufferInfo}
    (make : ComponentInfo → ComponentInfo → ComponentInfo → VideoBufferInfo)
    (h : (do
      let c1 ← env.component d₁ t₁ z₁
      let c2 ← env.component d₂ t₂ z₂
      let c3 ← env.component d₃ t₃ z₃
      return make c1 c2 c3) = some info) :
    ∃ c1 c2 c3, info = make c1 c2 c3 ∧ (c1.size < 2 ^ 32 ∧ c1.size = z₁ % 2 ^ 32) ∧
      c2.size < 2 ^ 32 ∧ c3.size < 2 ^ 32 := by
  obtain ⟨c1, h1, h⟩ := bind_eq_some_iff.mp h
  obtain ⟨c2, h2, h⟩ := bind_eq_some_iff.mp h
  obtain ⟨c3, h3, h⟩ := bind_eq_some_iff.mp h
  obtain rfl := some.inj h
  exact ⟨c1, c2, c3, rfl, (component_some h1).2.2, (component_some h2).2.2.1,
    (component_some h3).2.2.1⟩

/-- What a description of three planes covers is at most as large as `u32` allows. -/
theorem fits_three {d₁ d₂ d₃ t₁ t₂ t₃ z₁ z₂ z₃ : ℕ} {info : VideoBufferInfo} {sizes : List ℕ}
    {make : ComponentInfo → ComponentInfo → ComponentInfo → VideoBufferInfo}
    (hmake : ∀ c1 c2 c3, (make c1 c2 c3).components = [c1, c2, c3])
    (h : (do
      let c1 ← env.component d₁ t₁ z₁
      let c2 ← env.component d₂ t₂ z₂
      let c3 ← env.component d₃ t₃ z₃
      return make c1 c2 c3) = some info)
    (hsizes : info.components.map ComponentInfo.size = sizes) : ∀ size ∈ sizes, size < 2 ^ 32 := by
  obtain ⟨c1, c2, c3, rfl, ⟨h1, -⟩, h2, h3⟩ := three_sizes make h
  rw [hmake] at hsizes
  subst hsizes
  intro size hmem
  simp only [map_cons, map_nil, mem_cons, not_mem_nil, or_false] at hmem
  rcases hmem with rfl | rfl | rfl
  · exact h1
  · exact h2
  · exact h3

theorem fits_of_sizes (h : ∀ size ∈ b.sizes, size < 2 ^ 32) : b.Fits := by
  intro plane hmem
  exact h _ (mem_map_of_mem hmem)

theorem i010_not_covered (h : (VideoBuffer.mk .i010 width height planes).Legal env) :
    ¬ Covers env ⟨.i010, width, height, planes⟩ := by
  intro hcovers
  obtain ⟨y, u, v, rfl, ⟨hrow, -, hlen⟩, -, -⟩ := legal_three h rfl
  obtain ⟨info, hinfo, hsizes⟩ := hcovers.description
  obtain ⟨c1, c2, c3, rfl, ⟨-, hsize⟩, -, -⟩ := three_sizes _ hinfo
  -- the first plane has samples of two bytes
  have hfirst : c1.size = y.slice.bytes.length := (List.cons.inj hsizes).1
  have hpos : 0 < y.stride * height :=
    Nat.mul_pos (Nat.lt_of_lt_of_le h.width.1 hrow) h.height.1
  have hle : c1.size ≤ y.stride * height := hsize ▸ Nat.mod_le _ _
  have hdouble : y.slice.bytes.length = y.stride * height * 2 := hlen
  omega

theorem nv12_not_covered (h : (VideoBuffer.mk .nv12 width height planes).Legal env) :
    ¬ Covers env ⟨.nv12, width, height, planes⟩ := by
  intro hcovers
  obtain ⟨y, uv, rfl, -, hrow, -, hlen⟩ := legal_nv12 h
  obtain ⟨info, hinfo, hsizes⟩ := hcovers.description
  obtain ⟨c1, -, hinfo⟩ := bind_eq_some_iff.mp hinfo
  obtain ⟨c2, h2, hinfo⟩ := bind_eq_some_iff.mp hinfo
  obtain rfl := some.inj hinfo
  obtain ⟨-, -, hlt, hsize⟩ := component_some h2
  have hsecond : c2.size = uv.slice.bytes.length := (List.cons.inj (List.cons.inj hsizes).2).1
  have hwidth : 0 < width := h.width.1
  have hheight : 0 < height := h.height.1
  have hstride : width + width % 2 ≤ uv.stride := hrow
  have hpos : 0 < uv.stride * ((height + 1) / 2) := Nat.mul_pos (by omega) (by omega)
  have hplane : uv.slice.bytes.length = uv.stride * ((height + 1) / 2) := hlen.trans (Nat.mul_one _)
  have hdouble : c2.size = uv.stride * ((height + 1) / 2) * 2 % 2 ^ 32 := hsize
  -- twice the size of the plane is the same, modulo `2 ^ 32`, only if both are nothing
  omega

theorem fits_of_covers (h : b.Legal env) (hcovers : Covers env b) : b.Fits := by
  obtain ⟨info, hinfo, hsizes⟩ := hcovers.description
  obtain ⟨type, width, height, planes⟩ := b
  cases type with
  | i420 | i422 | i444 =>
    obtain ⟨y, u, v, rfl, -⟩ := legal_three h rfl
    exact fits_of_sizes (fits_three (fun _ _ _ => rfl) hinfo hsizes)
  | i420a =>
    obtain ⟨y, u, v, a, rfl, -⟩ := legal_i420a h
    obtain ⟨c1, h1, hinfo⟩ := bind_eq_some_iff.mp hinfo
    obtain ⟨c2, h2, hinfo⟩ := bind_eq_some_iff.mp hinfo
    obtain ⟨c3, h3, hinfo⟩ := bind_eq_some_iff.mp hinfo
    obtain ⟨c4, h4, hinfo⟩ := bind_eq_some_iff.mp hinfo
    obtain rfl := some.inj hinfo
    apply fits_of_sizes
    rw [← hsizes]
    intro size hmem
    simp only [map_cons, map_nil, mem_cons, not_mem_nil, or_false] at hmem
    rcases hmem with rfl | rfl | rfl | rfl
    · exact (component_some h1).2.2.1
    · exact (component_some h2).2.2.1
    · exact (component_some h3).2.2.1
    · exact (component_some h4).2.2.1
  | i010 => exact absurd hcovers (i010_not_covered h)
  | nv12 => exact absurd hcovers (nv12_not_covered h)

/-- The descriptions of the buffers of one byte a sample and with three or four planes cover them,
as long as the sizes fit; those of I010 and NV12 never do. -/
theorem covers_iff (env : Env) (b : VideoBuffer) (h : b.Legal env) :
    Covers env b ↔ b.type ≠ .i010 ∧ b.type ≠ .nv12 ∧ b.Fits := by
  constructor
  · intro hcovers
    refine ⟨fun hi010 => ?_, fun hnv12 => ?_, fits_of_covers h hcovers⟩
    · obtain ⟨type, width, height, planes⟩ := b
      obtain rfl : type = .i010 := hi010
      exact i010_not_covered h hcovers
    · obtain ⟨type, width, height, planes⟩ := b
      obtain rfl : type = .nv12 := hnv12
      exact nv12_not_covered h hcovers
  · rintro ⟨hi010, hnv12, hfits⟩
    exact covers_of_fits h hi010 hnv12 hfits

/-- A black picture of 2x2 pixels. -/
theorem covers_iff_black :
    let env : Env := ⟨true, fun _ => 0, fun _ => 64, fun _ _ => 1, fun _ _ _ _ _ _ => 0⟩
    let b : VideoBuffer := ⟨.i420, 2, 2, [⟨⟨0, [0, 0, 0, 0]⟩, 2⟩, ⟨⟨4, [0]⟩, 1⟩, ⟨⟨5, [0]⟩, 1⟩]⟩
    Covers env b ↔ b.type ≠ .i010 ∧ b.type ≠ .nv12 ∧ b.Fits := by
  intro env b
  exact covers_iff env b (by decide)

/-- The same picture with ten bits a sample: the sizes are in samples. -/
theorem i010_sizes_are_halved :
    let env : Env := ⟨true, fun _ => 0, fun _ => 64, fun _ _ => 1, fun _ _ _ _ _ _ => 0⟩
    let b : VideoBuffer := ⟨.i010, 2, 2,
      [⟨⟨0, [0, 0, 0, 0, 0, 0, 0, 0]⟩, 2⟩, ⟨⟨8, [0, 0]⟩, 1⟩, ⟨⟨10, [0, 0]⟩, 1⟩]⟩
    b.Legal env ∧ (env.describe b).map (fun info => info.components.map ComponentInfo.size) =
      some [4, 1, 1] ∧ b.sizes = [8, 2, 2] ∧ ¬ Covers env b := by
  intro env b
  have hlegal : b.Legal env := by decide
  exact ⟨hlegal, by decide, by decide, i010_not_covered hlegal⟩

end LiveKit.Video
