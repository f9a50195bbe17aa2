import LiveKit.Video.Destinations

/-!
# What conversions give

A conversion that is supported gives an allocation that has all that its description describes, if
the picture fits, but for I444 to itself; and it panics for ABGR, for samples of two bytes that come
from a buffer, and for NV12 to itself.
-/

namespace LiveKit.Video

open List

/-! ## What is promised -/

/-- The type has one plane, at `dataPtr`. -/
def VideoBufferType.Packed : VideoBufferType → Prop
  | .rgba | .abgr | .argb | .bgra | .rgb24 => True
  | _ => False

instance : DecidablePred VideoBufferType.Packed
  | .rgba | .abgr | .argb | .bgra | .rgb24 => isTrue trivial
  | .i420 | .i420a | .i422 | .i444 | .i010 | .nv12 => isFalse id

/-- Where the planes are that are described, and their sizes. -/
def VideoBufferInfo.extents (info : VideoBufferInfo) : List (ℕ × ℕ) :=
  if info.type.Packed then [(info.dataPtr, info.stride.getD 0 * info.height)]
  else info.components.map fun c => (c.dataPtr, c.size)

/-- An allocation has what its description describes. -/
structure SelfContained (dstType : VideoBufferType) (dst : Slice) (info : VideoBufferInfo) :
    Prop where
  type : info.type = dstType
  inside : ∀ extent ∈ info.extents, dst.addr ≤ extent.1 ∧ extent.1 + extent.2 ≤ dst.stop
  disjoint : info.extents.Pairwise fun extent extent' =>
    extent.1 + extent.2 ≤ extent'.1 ∨ extent'.1 + extent'.2 ≤ extent.1

/-- There is a plane for each shape, and the rows that are seen are those of planes at the addresses
and with the strides. -/
def SameRows (env : Env) (src : List (ℕ × ℕ)) (shapes : List Shape) (flipY : Bool) (dst : Slice)
    (info : VideoBufferInfo) : Prop :=
  info.components.length = shapes.length ∧
    ∀ (i : ℕ) plane shape c, src[i]? = some plane → shapes[i]? = some shape →
      info.components[i]? = some c → ∀ row < shape.rows, ∀ column < shape.rowLen,
        dst.bytes[c.dataPtr - dst.addr + (row * c.stride + column)]? =
          some (env.memory (plane.1 +
            ((if flipY then shape.rows - 1 - row else row) * plane.2 + column)))

/-- What is converted, and how. -/
inductive Input where
  /-- For `cvt`. -/
  | described (info : VideoBufferInfo) (dstType : VideoBufferType) (flipY : Bool)
  /-- For `to_video_buffer_info`. -/
  | buffer (b : VideoBuffer) (dstType : Option VideoBufferType)

namespace Input

def convert (env : Env) : Input → Converted
  | described info dstType flipY => env.cvt info dstType flipY
  | buffer b dstType => env.toVideoBufferInfo b dstType

def srcType : Input → VideoBufferType
  | described info _ _ => info.type
  | buffer b _ => b.type.proto

/-- What is asked for. -/
def dstType : Input → VideoBufferType
  | described _ dstType _ => dstType
  | buffer b dstType => dstType.getD b.type.proto

def width : Input → ℕ
  | described info _ _ => info.width
  | buffer b _ => b.width

def height : Input → ℕ
  | described info _ _ => info.height
  | buffer b _ => b.height

def flipY : Input → Bool
  | described _ _ flipY => flipY
  | buffer _ _ => false

/-- The planes of the source, where they are and with which strides. -/
def planes : Input → List (ℕ × ℕ)
  | described info _ _ => info.components.map fun c => (c.dataPtr, c.stride)
  | buffer b _ => b.planes.map fun plane => (plane.slice.addr, plane.stride)

end Input

/-- What is promised of a result. -/
def Promised (env : Env) (input : Input) (dst : Slice) (info : VideoBufferInfo) : Prop :=
  SelfContained input.dstType dst info ∧
    (input.srcType = input.dstType →
      SameRows env input.planes (input.dstType.format.shapes input.width input.height)
        input.flipY dst info)

/-- An error is fine, a panic is not. -/
def Meets (env : Env) (input : Input) : Prop :=
  (input.convert env).Holds (Promised env input)

/-! ## What can be converted -/

/-- A component has at least what its stride and its shape say. -/
def ComponentInfo.Legal (sampleBytes : ℕ) (c : ComponentInfo) (shape : Shape) : Prop :=
  shape.rowLen ≤ c.stride ∧ c.stride * shape.rows * sampleBytes ≤ c.size ∧ c.size < 2 ^ 32

/-- New allocations are not where something is. -/
def Env.Fresh (env : Env) (addr size : ℕ) : Prop :=
  ∀ len, addr + size ≤ env.alloc len ∨ env.alloc len + len ≤ addr

structure VideoBufferInfo.Legal (env : Env) (info : VideoBufferInfo) : Prop where
  width : 0 < info.width ∧ info.width < 2 ^ 31
  height : 0 < info.height ∧ info.height < 2 ^ 31
  /-- A packed picture has a stride that is at least that of its rows, and fits. -/
  packed : info.type.Packed → ∀ shape ∈ info.type.format.shapes info.width info.height,
    shape.rowLen ≤ info.stride.getD shape.rowLen ∧
      info.stride.getD shape.rowLen * info.height < 2 ^ 32
  planar : ¬ info.type.Packed → List.Forall₂ (ComponentInfo.Legal info.type.format.sampleBytes)
    info.components (info.type.format.shapes info.width info.height)
  fresh : ∀ c ∈ info.components.zip (info.type.format.shapes info.width info.height),
    env.Fresh c.1.dataPtr (c.1.stride * c.2.rows)

/-- The size of a buffer is a C integer. -/
def Input.Legal (env : Env) : Input → Prop
  | described info _ _ => info.Legal env
  | buffer b _ => b.Legal env ∧ b.sizes.sum < 2 ^ 31 ∧
      ∀ plane ∈ b.planes, env.Fresh plane.slice.addr plane.slice.bytes.length

/-! ## The condition -/

/-- There is a conversion. -/
def supported : VideoBufferType → VideoBufferType → Bool
  | .rgba, dst => dst = .i420 ∨ dst = .bgra
  | .abgr, dst | .argb, dst | .rgb24, dst => dst = .i420
  | .bgra, dst => dst = .i420 ∨ dst = .rgba
  | .i420, dst =>
    dst = .rgba ∨ dst = .abgr ∨ dst = .argb ∨ dst = .bgra ∨ dst = .rgb24 ∨ dst = .i420
  | .i420a, dst => dst = .i420 ∨ dst = .i420a
  | .i422, dst => dst = .rgba ∨ dst = .abgr ∨ dst = .argb ∨ dst = .i420 ∨ dst = .i422
  | .i444, dst => dst = .rgba ∨ dst = .bgra ∨ dst = .i420 ∨ dst = .i444
  | .i010, dst => dst = .rgba ∨ dst = .bgra ∨ dst = .i420
  | .nv12, dst => dst = .rgba ∨ dst = .bgra ∨ dst = .i420 ∨ dst = .nv12

/-- The size of a picture without padding. -/
def dstSize (dstType : VideoBufferType) (width height : ℕ) : ℕ :=
  ((dstType.format.shapes width height).map fun shape => shape.rowLen * shape.rows).sum

variable {dstType : VideoBufferType}

/-- The source is not ABGR; and if there is a conversion, it is not one of I444 or NV12 to itself,
nor of a buffer with samples of two bytes, and the size of the result is a `u32`. -/
def Input.Good (input : Input) : Prop :=
  input.srcType ≠ .abgr ∧ (supported input.srcType input.dstType →
    ¬ (input.srcType = .i444 ∧ input.dstType = .i444) ∧
    ¬ (input.srcType = .nv12 ∧ input.dstType = .nv12) ∧
    (∀ b dstType, input = .buffer b dstType → b.type ≠ .i010) ∧
    dstSize input.dstType input.width input.height < 2 ^ 32)

/-! ## Descriptions of new planes -/

theorem SelfContained.of_tiles {dst : Slice} {info : VideoBufferInfo} {parts : List Slice}
    (htype : info.type = dstType) (htiles : Slice.Tiles dst.addr dst.bytes parts)
    (hextents : info.extents = parts.map fun part => (part.addr, part.bytes.length)) :
    SelfContained dstType dst info := by
  refine ⟨htype, ?_, ?_⟩
  · intro extent hmem
    rw [hextents] at hmem
    obtain ⟨part, hpart, rfl⟩ := mem_map.mp hmem
    exact htiles.inside hpart
  · rw [hextents, pairwise_map]
    exact htiles.disjoint.imp .inl

/-- Each part is described with the stride of its shape. -/
def describedParts (parts : List Slice) (shapes : List Shape) : List ComponentInfo :=
  parts.zipWith (fun part shape => ⟨part.addr, shape.rowLen, part.bytes.length⟩) shapes

section

variable {env : Env} {fn : YuvFn} {src : List Plane} {sizes : List ℕ} {width height : ℕ}
  {flipY : Bool} {dst : Slice} {written : List Slice} {info : VideoBufferInfo} {shapes : List Shape}

theorem Filled.selfContained (h : Filled env fn src sizes width height flipY dst written)
    (info : VideoBufferInfo) (hpacked : ¬ info.type.Packed)
    (hlength : written.length = shapes.length)
    (hcomponents : info.components = describedParts written shapes) :
    SelfContained info.type dst info := by
  apply SelfContained.of_tiles rfl h.tiles
  unfold VideoBufferInfo.extents
  rw [if_neg hpacked, hcomponents]
  unfold describedParts
  rw [map_zipWith]
  apply ext_getElem
  · rw [length_zipWith, length_map, hlength, Nat.min_self]
  · intro i h₁ h₂
    rw [getElem_zipWith, getElem_map]

/-- The planes are in memory, at the addresses and with the strides. -/
def InMemory (env : Env) (planes : List (ℕ × ℕ)) (src : List Plane) : Prop :=
  List.Forall₂ (fun place plane => plane.stride = place.2 ∧
    ∃ len, plane.slice = env.fromRawParts place.1 len) planes src

theorem fromRawParts_getD {addr len i : ℕ} (hi : i < (env.fromRawParts addr len).bytes.length) :
    (env.fromRawParts addr len).bytes.getD i 0 = env.memory (addr + i) := by
  unfold Env.fromRawParts at hi ⊢
  rw [length_map, length_range] at hi
  rw [getD_eq_getElem?_getD, getElem?_map, getElem?_range hi]
  rfl

theorem Filled.sameRows (h : Filled env fn src sizes width height flipY dst written)
    (hcopy : fn.isCopy = true) (hsame : fn.src = fn.dst) (hsample : fn.src.sampleBytes = 1)
    (hbounds : InBounds fn.src src width height) {planes : List (ℕ × ℕ)}
    (hmemory : InMemory env planes src) (hlength : written.length = shapes.length)
    (hshapes : fn.dst.shapes width height = shapes)
    (hcomponents : info.components = describedParts written shapes) :
    SameRows env planes shapes flipY dst info := by
  constructor
  · rw [hcomponents]
    unfold describedParts
    rw [length_zipWith, hlength, Nat.min_self]
  intro i place shape c hplace hshape hc row hrow column hcolumn
  rw [hcomponents] at hc
  unfold describedParts at hc
  rw [getElem?_zipWith_eq_some] at hc
  obtain ⟨part, shape', hpart, hshape', rfl⟩ := hc
  obtain rfl : shape = shape' := Option.some.inj (hshape.symm.trans hshape')
  obtain ⟨hi, rfl⟩ := List.getElem?_eq_some_iff.mp hplace
  have hlt : i < src.length := List.Forall₂.length_eq hmemory ▸ hi
  obtain ⟨hstride, len, hslice⟩ := hmemory.get hi hlt
  rw [get_eq_getElem, get_eq_getElem] at hstride hslice
  have hsource : src[i]? = some src[i] := getElem?_eq_getElem hlt
  -- the byte of the part is that of the source, by the copy
  have hbyte := h.copied hcopy i _ shape part hsource (hshapes ▸ hshape) hpart row hrow column
    hcolumn
  have hpartLt := (List.getElem?_eq_some_iff.mp hbyte).1
  show dst.bytes[part.addr - dst.addr + (row * shape.rowLen + column)]? = _
  rw [h.tiles.getElem? (mem_of_getElem? hpart) hpartLt, hbyte]
  -- the row of the source is in its plane
  have hzip : (src[i], shape) ∈ src.zip (fn.src.shapes width height) := by
    rw [hsame, hshapes]
    exact mem_of_getElem? (getElem?_zip_eq_some.mpr ⟨hsource, hshape⟩)
  have hsize : ((shape.rows - 1) * src[i].stride + shape.rowLen) * fn.src.sampleBytes ≤
      src[i].slice.bytes.length := hbounds _ hzip
  rw [hsample, Nat.mul_one] at hsize
  have hle : (if flipY then shape.rows - 1 - row else row) * src[i].stride ≤
      (shape.rows - 1) * src[i].stride := by
    apply Nat.mul_le_mul_right
    split <;> omega
  have hindex : (if flipY then shape.rows - 1 - row else row) * src[i].stride + column <
      src[i].slice.bytes.length := by omega
  rw [hslice] at hindex ⊢
  rw [fromRawParts_getD hindex, hstride]

end

/-! ## The destinations -/

section

variable {env : Env} {fn : YuvFn} {src : List Plane} {width height : ℕ} {flipY : Bool}
  {P : Slice → VideoBufferInfo → Prop}

/-- A row of a packed picture is at most as long as what was allocated. -/
theorem packed_row_lt {size stride rowLen : ℕ} {result : Slice × List Slice}
    (hshapes : fn.dst.shapes width height = [⟨rowLen, height⟩]) (hsample : fn.dst.sampleBytes = 1)
    (h : env.convertNew fn src [(size, stride)] width height flipY = some result) :
    rowLen < 2 ^ 32 := by
  obtain ⟨len, hlen, h⟩ := Option.bind_eq_some_iff.mp h
  obtain ⟨sizes, hsizes, h⟩ := Option.bind_eq_some_iff.mp h
  obtain rfl := Option.some.inj hsizes
  obtain ⟨parts, hparts, h⟩ := Option.bind_eq_some_iff.mp h
  obtain rfl := Option.some.inj hparts
  obtain ⟨written, hwritten, -⟩ := Option.bind_eq_some_iff.mp h
  have hbounds := (convert_some hwritten).1
  unfold InBounds at hbounds
  rw [hshapes, hsample] at hbounds
  have hrow : ((height - 1) * stride + rowLen) * 1 ≤ (List.replicate len (0 : UInt8)).length :=
    hbounds _ (mem_singleton_self _)
  rw [length_replicate] at hrow
  have hlt := (u32_some hlen).1
  omega

/-- A conversion to a packed picture is done if and only if the picture fits. -/
theorem packedNew_holds {pixelBytes : ℕ} {next : ℕ → Slice × List Slice → Converted}
    (hwidth : 0 < width) (hheight : 0 < height)
    (hsrc : env.valid fn.src src width height = true ∧ InBounds fn.src src width height)
    (hshapes : fn.dst.shapes width height = [⟨width * pixelBytes, height⟩])
    (hsample : fn.dst.sampleBytes = 1)
    (hnext : ∀ dst written, width * pixelBytes < 2 ^ 32 →
      Filled env fn src [width * height * pixelBytes] width height flipY dst written →
      (next (width * pixelBytes) (dst, written)).Holds P) :
    Converted.Holds P ((u32 env.overflowChecks (width * pixelBytes)).bind fun stride =>
      (env.convertNew fn src [(width * height * pixelBytes, stride)] width height flipY).bind
        (next stride)) ↔ width * height * pixelBytes < 2 ^ 32 := by
  have hle : width * pixelBytes ≤ width * height * pixelBytes :=
    Nat.mul_le_mul_right _ (Nat.le_mul_of_pos_right _ hheight)
  by_cases hlt : width * pixelBytes < 2 ^ 32
  · rw [u32_of_lt hlt, Option.bind_some]
    have hcompact : Compact [(width * height * pixelBytes, width * pixelBytes)]
        (fn.dst.shapes width height) := by
      rw [hshapes]
      exact .cons ⟨Nat.mul_right_comm _ _ _, rfl⟩ .nil
    exact convertNew_holds hwidth hheight hsrc hcompact (cons_ne_nil _ _) hsample
      fun dst written _ hfilled => hnext dst written hlt hfilled
  · -- the stride alone is too large, with or without a panic
    refine iff_of_false (fun hholds => ?_) (by omega)
    cases hstride : u32 env.overflowChecks (width * pixelBytes) with
    | none =>
      rw [hstride] at hholds
      exact hholds.elim
    | some stride =>
      rw [hstride, Option.bind_some] at hholds
      cases hconvert : env.convertNew fn src [(width * height * pixelBytes, stride)] width height
          flipY with
      | none =>
        rw [hconvert] at hholds
        exact hholds.elim
      | some result => exact hlt (packed_row_lt hshapes hsample hconvert)

/-- One new plane, described as a packed picture. -/
theorem Filled.packed {pixelBytes : ℕ} {dst : Slice} {written : List Slice}
    (h : Filled env fn src [width * height * pixelBytes] width height flipY dst written)
    (hpacked : dstType.Packed) :
    SelfContained dstType dst
      ⟨dstType, width, height, dst.addr, some (width * pixelBytes), []⟩ := by
  have hsizes := h.sizes
  obtain ⟨part, rest, rfl, hpart, hrest⟩ := map_eq_cons_iff.mp hsizes
  obtain rfl := map_eq_nil_iff.mp hrest
  refine SelfContained.of_tiles rfl h.tiles ?_
  unfold VideoBufferInfo.extents
  rw [if_pos hpacked, map_singleton, h.tiles.1, hpart, Option.getD_some, Nat.mul_right_comm]

theorem toRgba_holds (hP : ∀ dst info, SelfContained dstType dst info → P dst info)
    (hwidth : 0 < width) (hheight : 0 < height)
    (hsrc : env.valid fn.src src width height = true ∧ InBounds fn.src src width height)
    (hdst : fn.dst = .rgba) (hformat : dstType.format = .rgba) :
    (env.toRgba fn src dstType width height flipY).Holds P ↔
      dstSize dstType width height < 2 ^ 32 := by
  have hpacked : dstType.Packed := by
    cases dstType <;> trivial
  have hsize : dstSize dstType width height = width * height * 4 := by
    unfold dstSize
    rw [hformat]
    exact Nat.mul_right_comm width 4 height
  rw [hsize]
  refine packedNew_holds hwidth hheight hsrc (by rw [hdst]; rfl) (by rw [hdst]; rfl) ?_
  intro dst written hstride hfilled
  show Converted.Holds P ((env.rgbaInfo dst.addr dstType width height).bind _)
  unfold Env.rgbaInfo
  rw [u32_of_lt hstride]
  exact hP _ _ (hfilled.packed hpacked)

theorem toRgb24_holds (hP : ∀ dst info, SelfContained .rgb24 dst info → P dst info)
    (hwidth : 0 < width) (hheight : 0 < height)
    (hsrc : env.valid fn.src src width height = true ∧ InBounds fn.src src width height)
    (hdst : fn.dst = .rgb) :
    (env.toRgb24 fn src .rgb24 width height flipY).Holds P ↔
      dstSize .rgb24 width height < 2 ^ 32 := by
  have hsize : dstSize .rgb24 width height = width * height * 3 := Nat.mul_right_comm width 3 height
  rw [hsize]
  refine packedNew_holds hwidth hheight hsrc (by rw [hdst]; rfl) (by rw [hdst]; rfl) ?_
  intro dst written hstride hfilled
  show Converted.Holds P ((env.rgbInfo dst.addr .rgb24 width height).bind _)
  unfold Env.rgbInfo
  rw [u32_of_lt hstride]
  exact hP _ _ (hfilled.packed (show VideoBufferType.Packed .rgb24 from trivial))

/-- Three new planes are described if and only if they fit. -/
theorem toPlanes_holds {chromaW chromaH : ℕ} {info : Slice → Slice → Slice → Option VideoBufferInfo}
    (hwidth : 0 < width) (hheight : 0 < height)
    (hsrc : env.valid fn.src src width height = true ∧ InBounds fn.src src width height)
    (hshapes : fn.dst.shapes width height =
      [⟨width, height⟩, ⟨chromaW, chromaH⟩, ⟨chromaW, chromaH⟩])
    (hsample : fn.dst.sampleBytes = 1)
    (hinfo : ∀ dst y u v, width * height < 2 ^ 32 → chromaW * chromaH < 2 ^ 32 →
      Filled env fn src [width * height, chromaW * chromaH, chromaW * chromaH] width height flipY
        dst [y, u, v] → ∃ described, info y u v = some described ∧ P dst described) :
    (env.toPlanes fn src width height chromaW chromaH flipY info).Holds P ↔
      [width * height, chromaW * chromaH, chromaW * chromaH].sum < 2 ^ 32 := by
  have hcompact : Compact
      [(width * height, width), (chromaW * chromaH, chromaW), (chromaW * chromaH, chromaW)]
      (fn.dst.shapes width height) := by
    rw [hshapes]
    exact .cons ⟨rfl, rfl⟩ <| .cons ⟨rfl, rfl⟩ <| .cons ⟨rfl, rfl⟩ .nil
  refine convertNew_holds hwidth hheight hsrc hcompact (cons_ne_nil _ _) hsample ?_
  intro dst written hlt hfilled
  obtain ⟨y, _, rfl, hy, hsizes⟩ := map_eq_cons_iff.mp hfilled.sizes
  obtain ⟨u, _, rfl, hu, hsizes⟩ := map_eq_cons_iff.mp hsizes
  obtain ⟨v, rest, rfl, hv, hsizes⟩ := map_eq_cons_iff.mp hsizes
  obtain rfl := map_eq_nil_iff.mp hsizes
  simp only [map_cons, map_nil, sum_cons, sum_nil] at hlt
  obtain ⟨described, hdescribed, hholds⟩ := hinfo dst y u v (by omega) (by omega) hfilled
  show Converted.Holds P ((info y u v).bind _)
  rw [hdescribed]
  exact hholds

/-- Three new planes, described with the strides that they have. -/
theorem Filled.three {chromaW chromaH : ℕ} {dst y u v : Slice} {shapes : List Shape}
    (h : Filled env fn src [width * height, chromaW * chromaH, chromaW * chromaH] width height flipY
      dst [y, u, v])
    (type : VideoBufferType) (planes : List (ℕ × ℕ)) (hpacked : ¬ type.Packed)
    (hdst : fn.dst.shapes width height = shapes)
    (hshapes : shapes = [⟨width, height⟩, ⟨chromaW, chromaH⟩, ⟨chromaW, chromaH⟩])
    (hcopy : fn.isCopy = true → fn.src = fn.dst ∧ fn.src.sampleBytes = 1 ∧
      InBounds fn.src src width height ∧ InMemory env planes src) :
    let info : VideoBufferInfo := ⟨type, width, height, y.addr, none,
      [⟨y.addr, width, width * height⟩, ⟨u.addr, chromaW, chromaW * chromaH⟩,
        ⟨v.addr, chromaW, chromaW * chromaH⟩]⟩
    SelfContained type dst info ∧
      (fn.isCopy = true → SameRows env planes shapes flipY dst info) := by
  intro info
  obtain ⟨hyEq, hsizes⟩ := List.cons.inj h.sizes
  obtain ⟨huEq, hsizes⟩ := List.cons.inj hsizes
  have hy : y.bytes.length = width * height := hyEq
  have hu : u.bytes.length = chromaW * chromaH := huEq
  have hv : v.bytes.length = chromaW * chromaH := (List.cons.inj hsizes).1
  have hcomponents : info.components = describedParts [y, u, v] shapes := by
    rw [hshapes]
    show _ = [ComponentInfo.mk y.addr width y.bytes.length,
      ComponentInfo.mk u.addr chromaW u.bytes.length,
      ComponentInfo.mk v.addr chromaW v.bytes.length]
    rw [hy, hu, hv]
  have hlength : [y, u, v].length = shapes.length := by
    rw [hshapes]
    rfl
  refine ⟨h.selfContained info hpacked hlength hcomponents, fun hcopied => ?_⟩
  obtain ⟨hsame, hsample, hbounds, hmemory⟩ := hcopy hcopied
  exact h.sameRows hcopied hsame hsample hbounds hmemory hlength hdst hcomponents

theorem toI420_holds {planes : List (ℕ × ℕ)}
    (hP : ∀ dst info, SelfContained .i420 dst info →
      (fn.isCopy = true →
        SameRows env planes (PixelFormat.i420.shapes width height) flipY dst info) →
      P dst info)
    (hwidth : 0 < width) (hheight : 0 < height)
    (hsrc : env.valid fn.src src width height = true ∧ InBounds fn.src src width height)
    (hdst : fn.dst = .i420)
    (hcopy : fn.isCopy = true → fn.src = fn.dst ∧ InMemory env planes src) :
    (env.toI420 fn src width height flipY).Holds P ↔ dstSize .i420 width height < 2 ^ 32 := by
  refine toPlanes_holds hwidth hheight hsrc (by rw [hdst]; rfl) (by rw [hdst]; rfl) ?_
  intro dst y u v hluma hchroma hfilled
  have hinfo := hfilled.three .i420 planes id
    (congrArg (PixelFormat.shapes width height) hdst) rfl
    fun hcopied => ⟨(hcopy hcopied).1, by rw [(hcopy hcopied).1, hdst]; rfl, hsrc.2,
      (hcopy hcopied).2⟩
  refine ⟨_, ?_, hP _ _ hinfo.1 hinfo.2⟩
  show (do
      let c1 ← env.component y.addr width (width * height)
      let c2 ← env.component u.addr ((width + 1) / 2) ((width + 1) / 2 * ((height + 1) / 2))
      let c3 ← env.component v.addr ((width + 1) / 2) ((width + 1) / 2 * ((height + 1) / 2))
      return VideoBufferInfo.mk .i420 width height y.addr none [c1, c2, c3]) = _
  rw [component_of_lt env hluma, component_of_lt env hchroma, component_of_lt env hchroma]
  rfl

/-- I422 to itself. -/
theorem toI422_holds (planes : List (ℕ × ℕ))
    (hP : ∀ dst info, SelfContained .i422 dst info →
      SameRows env planes (PixelFormat.i422.shapes width height) flipY dst info → P dst info)
    (hwidth : 0 < width) (hheight : 0 < height)
    (hsrc : env.valid .i422 src width height = true ∧ InBounds .i422 src width height)
    (hmemory : InMemory env planes src) :
    (env.toPlanes .i422Copy src width height ((width + 1) / 2) height flipY fun y u v =>
      env.i422Info y.addr y.addr u.addr v.addr width height width ((width + 1) / 2)
        ((width + 1) / 2)).Holds P ↔ dstSize .i422 width height < 2 ^ 32 := by
  refine toPlanes_holds hwidth hheight hsrc rfl rfl ?_
  intro dst y u v hluma hchroma hfilled
  have hinfo := hfilled.three .i422 planes id rfl rfl
    fun _ => ⟨rfl, rfl, hsrc.2, hmemory⟩
  refine ⟨_, ?_, hP _ _ hinfo.1 (hinfo.2 rfl)⟩
  unfold Env.i422Info
  rw [component_of_lt env hluma, component_of_lt env hchroma, component_of_lt env hchroma]
  rfl

end

end LiveKit.Video
