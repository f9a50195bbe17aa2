import LiveKit.Lib.Traverse
import LiveKit.Video.BufferTheorems
import LiveKit.Video.ColorConversion
import Mathlib.Algebra.Order.BigOperators.Group.List

/-!
# New allocations

What `convertNew` gives for planes without padding: if they fit, an allocation that the planes tile,
and otherwise nothing.
-/

namespace LiveKit.Video

open List

variable {env : Env}

/-! ## Planes without padding -/

/-- The size and the stride of a plane are those of its shape. -/
def Compact (dst : List (ℕ × ℕ)) (shapes : List Shape) : Prop :=
  List.Forall₂ (fun plane shape => plane.1 = shape.rowLen * shape.rows ∧ plane.2 = shape.rowLen)
    dst shapes

/-- The plane has what its shape says, and its rows have no padding. -/
def Plane.Compact (plane : Plane) (shape : Shape) : Prop :=
  plane.slice.bytes.length = shape.rowLen * shape.rows ∧ plane.stride = shape.rowLen

theorem rows_pos (width : ℕ) {height : ℕ} (hheight : 0 < height) (format : PixelFormat) :
    ∀ shape ∈ format.shapes width height, 0 < shape.rows := by
  intro shape hmem
  cases format <;>
    simp only [PixelFormat.shapes, mem_cons, not_mem_nil, or_false] at hmem
  all_goals
    rcases hmem with rfl | rfl | rfl | rfl <;> simp only <;> omega

variable {parts : List Slice}

theorem Compact.planes {dst : List (ℕ × ℕ)} {shapes : List Shape} (h : Compact dst shapes)
    (hparts : parts.map (fun part => part.bytes.length) = dst.map Prod.fst) :
    List.Forall₂ Plane.Compact (parts.zipWith Plane.mk (dst.map Prod.snd)) shapes := by
  unfold Compact at h
  induction h generalizing parts with
  | nil =>
    obtain rfl := map_eq_nil_iff.mp hparts
    exact .nil
  | cons hfirst _ ih =>
    obtain ⟨part, rest, rfl, hpart, hrest⟩ := map_eq_cons_iff.mp hparts
    exact .cons ⟨hpart.trans hfirst.1, hfirst.2⟩ (ih hrest)

/-- The plane has room for its shape, and its size is a `u32`. -/
structure Plane.Fits (sampleBytes : ℕ) (plane : Plane) (shape : Shape) : Prop where
  row : shape.rowLen ≤ plane.stride
  size : plane.stride * shape.rows ≤ plane.slice.bytes.length / sampleBytes
  lt : plane.stride * shape.rows < 2 ^ 32

theorem valid_of_fits (env : Env) (format : PixelFormat) {planes : List Plane} {width height : ℕ}
    (hwidth : 0 < width) (hheight : 0 < height)
    (h : List.Forall₂ (Plane.Fits format.sampleBytes) planes (format.shapes width height)) :
    env.valid format planes width height = true ∧ InBounds format planes width height := by
  have hzip : ∀ plane shape, (plane, shape) ∈ planes.zip (format.shapes width height) →
      plane.Fits format.sampleBytes shape := fun _ _ hmem => (forall₂_iff_zip.mp h).2 hmem
  constructor
  · unfold Env.valid
    rw [decide_eq_true_iff]
    refine ⟨hwidth, hheight, all_eq_true.mpr ?_⟩
    rintro ⟨plane, shape⟩ hmem
    have hfits := hzip plane shape hmem
    unfold Env.validPlane
    rw [decide_eq_true_iff, u32_of_lt hfits.lt]
    exact ⟨hfits.row, decide_eq_true hfits.size⟩
  · rintro ⟨plane, shape⟩ hmem
    have hfits := hzip plane shape hmem
    have hrows := rows_pos width hheight format shape (of_mem_zip hmem).2
    show ((shape.rows - 1) * plane.stride + shape.rowLen) * format.sampleBytes ≤ _
    have hle : (shape.rows - 1) * plane.stride + shape.rowLen ≤ plane.stride * shape.rows :=
      calc (shape.rows - 1) * plane.stride + shape.rowLen
        _ ≤ (shape.rows - 1) * plane.stride + plane.stride := Nat.add_le_add_left hfits.row _
        _ = plane.stride * shape.rows := by
          rw [← Nat.succ_mul, Nat.succ_eq_add_one, Nat.sub_add_cancel hrows, Nat.mul_comm]
    exact Nat.le_trans (Nat.mul_le_mul_right _ (Nat.le_trans hle hfits.size))
      (Nat.div_mul_le_self _ _)

variable {shape : Shape}

theorem Plane.Compact.fits {plane : Plane} (h : plane.Compact shape)
    (hlt : plane.slice.bytes.length < 2 ^ 32) : plane.Fits 1 shape := by
  obtain ⟨hlen, hstride⟩ := h
  have hsize : plane.stride * shape.rows = plane.slice.bytes.length := by rw [hstride, hlen]
  refine ⟨Nat.le_of_eq hstride.symm, ?_, hsize ▸ hlt⟩
  rw [Nat.div_one, hsize]

/-! ## The sizes of the parts -/

theorem dropLast_concat_rest {l : List ℕ} (h : l ≠ []) :
    l.dropLast ++ [l.sum - l.dropLast.sum] = l := by
  have hlast := dropLast_concat_getLast h
  have hsum : l.sum = l.dropLast.sum + l.getLast h := by
    conv_lhs => rw [← hlast]
    rw [sum_append, sum_singleton]
  rw [hsum, Nat.add_sub_cancel_left, hlast]

theorem map_slice_zipWith {strides : List ℕ} (h : parts.length = strides.length) :
    (parts.zipWith Plane.mk strides).map Plane.slice = parts := by
  induction parts generalizing strides with
  | nil => rfl
  | cons part parts ih =>
    cases strides with
    | nil => cases h
    | cons stride strides =>
      rw [zipWith_cons_cons, map_cons, ih (Nat.succ.inj h)]

/-! ## The allocation -/

/-- What a conversion has written is as large as what there was. -/
theorem convert_some {fn : YuvFn} {src dst : List Plane} {width height : ℕ} {flipY : Bool}
    {written : List Slice} (h : env.convert fn src dst width height flipY = some written) :
    InBounds fn.dst dst width height ∧
      List.Forall₂ (fun target new => new.addr = target.addr ∧
        new.bytes.length = target.bytes.length) (dst.map Plane.slice) written := by
  unfold Env.convert at h
  rw [Option.ite_none_right_eq_some, Option.some.injEq] at h
  obtain ⟨⟨-, -, -, hbounds⟩, rfl⟩ := h
  refine ⟨hbounds, ?_⟩
  rw [forall₂_iff_get]
  refine ⟨by rw [length_map, length_mapIdx], ?_⟩
  intro i h₁ h₂
  rw [get_eq_getElem, get_eq_getElem, getElem_mapIdx, getElem_map]
  exact ⟨rfl, by rw [length_map, length_range]⟩

theorem map_length_of_same {written : List Slice}
    (h : List.Forall₂ (fun part new => new.addr = part.addr ∧
      new.bytes.length = part.bytes.length) parts written) :
    written.map (fun part => part.bytes.length) = parts.map fun part => part.bytes.length := by
  induction h with
  | nil => rfl
  | cons hfirst _ ih => rw [map_cons, map_cons, ih, hfirst.2]

variable {fn : YuvFn} {src : List Plane} {dst : List (ℕ × ℕ)} {width height : ℕ} {flipY : Bool}

/-- What the parts of an allocation have together. -/
theorem sum_le_of_inBounds {format : PixelFormat} (hheight : 0 < height)
    (hcompact : Compact dst (format.shapes width height)) (hlength : parts.length = dst.length)
    (hbounds : InBounds format (parts.zipWith Plane.mk (dst.map Prod.snd)) width height)
    (hsample : format.sampleBytes = 1) :
    (dst.map Prod.fst).sum ≤ (parts.map fun part => part.bytes.length).sum := by
  unfold Compact at hcompact
  have hrows := rows_pos width hheight format
  unfold InBounds at hbounds
  rw [hsample] at hbounds
  generalize format.shapes width height = shapes at hcompact hrows hbounds
  induction hcompact generalizing parts with
  | nil => exact Nat.zero_le _
  | @cons plane shape dst shapes hfirst _ ih =>
    cases parts with
    | nil => cases hlength
    | cons part parts =>
      simp only [map_cons, zipWith_cons_cons, zip_cons_cons, mem_cons,
        forall_eq_or_imp] at hbounds hrows
      have hrest := ih (Nat.succ.inj hlength) hrows.2 hbounds.2
      have hpart : ((shape.rows - 1) * plane.2 + shape.rowLen) * 1 ≤ part.bytes.length := hbounds.1
      rw [Nat.mul_one, hfirst.2, ← Nat.succ_mul, Nat.succ_eq_add_one,
        Nat.sub_add_cancel hrows.1, Nat.mul_comm, ← hfirst.1] at hpart
      rw [map_cons, sum_cons, map_cons, sum_cons]
      omega

/-- A conversion has room for all planes. -/
theorem convertNew_lt {result : Slice × List Slice} (hheight : 0 < height)
    (hcompact : Compact dst (fn.dst.shapes width height)) (hne : dst ≠ [])
    (hsample : fn.dst.sampleBytes = 1)
    (h : env.convertNew fn src dst width height flipY = some result) :
    (dst.map Prod.fst).sum < 2 ^ 32 := by
  obtain ⟨len, hlen, h⟩ := Option.bind_eq_some_iff.mp h
  obtain ⟨sizes, hsizes, h⟩ := Option.bind_eq_some_iff.mp h
  obtain ⟨parts, hparts, h⟩ := Option.bind_eq_some_iff.mp h
  obtain ⟨written, hwritten, -⟩ := Option.bind_eq_some_iff.mp h
  have hlength : parts.length = dst.length := by
    have hpos := length_pos_of_ne_nil hne
    rw [Slice.splits_length hparts, Traverse.mapM_length hsizes, length_dropLast]
    omega
  have hle := sum_le_of_inBounds hheight hcompact hlength (convert_some hwritten).1 hsample
  have htotal := (Slice.splits_tiles hparts).length
  rw [length_replicate] at htotal
  have hlt := (u32_some hlen).1
  omega

/-- A conversion to planes without padding that fit: they are one after the other, and have what the
function writes. -/
theorem convertNew_of_lt (flipY : Bool) (hwidth : 0 < width) (hheight : 0 < height)
    (hsrc : env.valid fn.src src width height = true ∧ InBounds fn.src src width height)
    (hcompact : Compact dst (fn.dst.shapes width height)) (hne : dst ≠ [])
    (hsample : fn.dst.sampleBytes = 1) (hlt : (dst.map Prod.fst).sum < 2 ^ 32) :
    ∃ targets written, List.Forall₂ Plane.Compact targets (fn.dst.shapes width height) ∧
      written = targets.mapIdx (fun i target =>
        ⟨target.slice.addr, (List.range target.slice.bytes.length).map
          (env.newByte fn src targets width height flipY i)⟩) ∧
      env.convertNew fn src dst width height flipY =
        some (⟨env.alloc (dst.map Prod.fst).sum, (written.map Slice.bytes).flatten⟩, written) ∧
      Slice.Tiles (env.alloc (dst.map Prod.fst).sum) (written.map Slice.bytes).flatten written ∧
      written.map (fun part => part.bytes.length) = dst.map Prod.fst := by
  set total := (dst.map Prod.fst).sum with htotal
  have hsizes : dst.dropLast.mapM (fun plane => u32 env.overflowChecks plane.1) =
      some (dst.dropLast.map Prod.fst) := by
    apply Traverse.mapM_eq_map
    intro plane hmem
    refine u32_of_lt (Nat.lt_of_le_of_lt ?_ hlt)
    exact le_sum_of_mem (mem_map_of_mem (dropLast_subset _ hmem))
  have hdrop : dst.dropLast.map Prod.fst = (dst.map Prod.fst).dropLast := map_dropLast
  have hrest := dropLast_concat_rest (l := dst.map Prod.fst) (by simpa using hne)
  have hle : (dst.dropLast.map Prod.fst).sum ≤ (List.replicate total (0 : UInt8)).length := by
    have hsum := congrArg List.sum hrest
    rw [sum_append, ← hdrop] at hsum
    rw [length_replicate, htotal]
    omega
  obtain ⟨parts, hparts, hlens⟩ := Slice.splits_of_le
    (s := ⟨env.alloc total, List.replicate total 0⟩) hle
  rw [length_replicate, hdrop, htotal, hrest] at hlens
  have htargets := hcompact.planes hlens
  set targets := parts.zipWith Plane.mk (dst.map Prod.snd) with hdef
  have hlength : parts.length = (dst.map Prod.snd).length := by
    rw [length_map, ← length_map (f := Prod.fst), ← hlens, length_map]
  have hslices : targets.map Plane.slice = parts := map_slice_zipWith hlength
  have hfits : ∀ plane ∈ targets, plane.slice.bytes.length < 2 ^ 32 := by
    intro plane hmem
    have hpart : plane.slice ∈ parts := hslices ▸ mem_map_of_mem hmem
    have hsize : plane.slice.bytes.length ∈ dst.map Prod.fst := by
      rw [← hlens]
      exact mem_map.mpr ⟨plane.slice, hpart, rfl⟩
    exact Nat.lt_of_le_of_lt (le_sum_of_mem hsize) hlt
  have htargetsFit : List.Forall₂ (Plane.Fits fn.dst.sampleBytes) targets
      (fn.dst.shapes width height) := by
    rw [hsample]
    refine forall₂_iff_zip.mpr ⟨htargets.length_eq, fun {plane shape} hmem => ?_⟩
    exact ((forall₂_iff_zip.mp htargets).2 hmem).fits (hfits plane (of_mem_zip hmem).1)
  obtain ⟨hvalid, hbounds⟩ : env.valid fn.dst targets width height = true ∧
      InBounds fn.dst targets width height := valid_of_fits env fn.dst hwidth hheight htargetsFit
  have hconvert : env.convert fn src targets width height flipY =
      some (targets.mapIdx fun i target =>
        ⟨target.slice.addr, (List.range target.slice.bytes.length).map
          (env.newByte fn src targets width height flipY i)⟩) :=
    if_pos ⟨hsrc.1, hvalid, hsrc.2, hbounds⟩
  have hsame := (convert_some hconvert).2
  rw [hslices] at hsame
  refine ⟨targets, _, htargets, rfl, ?_, (Slice.splits_tiles hparts).write hsame, ?_⟩
  · unfold Env.convertNew
    rw [← htotal, u32_of_lt hlt]
    show ((dst.dropLast.mapM fun plane => u32 env.overflowChecks plane.1).bind _) = _
    rw [hsizes]
    show ((Slice.splits _ _).bind _) = _
    rw [hparts]
    show ((env.convert fn src targets width height flipY).bind _) = _
    rw [hconvert]
    rfl
  · rw [← hlens]
    exact map_length_of_same hsame

/-! ## What a conversion gives -/

/-- There is no panic, and what is returned is as `P` says. -/
def Converted.Holds (P : Slice → VideoBufferInfo → Prop) : Converted → Prop
  | none => False
  | some (.error _) => True
  | some (.ok (dst, info)) => P dst info

/-- New planes of the sizes are one after the other in what was allocated for them, and what was
copied to them is in their rows. -/
structure Filled (env : Env) (fn : YuvFn) (src : List Plane) (sizes : List ℕ) (width height : ℕ)
    (flipY : Bool) (dst : Slice) (written : List Slice) : Prop where
  allocated : dst.addr = env.alloc sizes.sum ∧ dst.bytes.length = sizes.sum
  tiles : Slice.Tiles dst.addr dst.bytes written
  sizes : written.map (fun part => part.bytes.length) = sizes
  copied : fn.isCopy = true → ∀ (i : ℕ) source shape part, src[i]? = some source →
    (fn.dst.shapes width height)[i]? = some shape → written[i]? = some part →
    ∀ row < shape.rows, ∀ column < shape.rowLen, part.bytes[row * shape.rowLen + column]? =
      some (source.slice.bytes.getD
        ((if flipY then shape.rows - 1 - row else row) * source.stride + column) 0)

/-- The index of a byte that is seen is in its plane. -/
theorem index_lt {row column : ℕ} (hrow : row < shape.rows) (hcolumn : column < shape.rowLen) :
    row * shape.rowLen + column < shape.rowLen * shape.rows :=
  calc row * shape.rowLen + column
    _ < row * shape.rowLen + shape.rowLen := Nat.add_lt_add_left hcolumn _
    _ = (row + 1) * shape.rowLen := (Nat.succ_mul row shape.rowLen).symm
    _ ≤ shape.rows * shape.rowLen := Nat.mul_le_mul_right _ hrow
    _ = shape.rowLen * shape.rows := Nat.mul_comm _ _

theorem copyByte_compact {source target : Plane} {row column : ℕ} (htarget : target.Compact shape)
    (hrow : row < shape.rows) (hcolumn : column < shape.rowLen) :
    copyByte source target shape flipY (row * shape.rowLen + column) =
      source.slice.bytes.getD
        ((if flipY then shape.rows - 1 - row else row) * source.stride + column) 0 := by
  have hpos : 0 < shape.rowLen := Nat.lt_of_le_of_lt (Nat.zero_le _) hcolumn
  have hdiv : (row * shape.rowLen + column) / shape.rowLen = row := by
    rw [Nat.add_comm, Nat.add_mul_div_right _ _ hpos, Nat.div_eq_of_lt hcolumn, Nat.zero_add]
  have hmod : (row * shape.rowLen + column) % shape.rowLen = column := by
    rw [Nat.add_comm, Nat.add_mul_mod_self_right, Nat.mod_eq_of_lt hcolumn]
  unfold copyByte
  rw [htarget.2, hdiv, hmod]
  exact if_pos ⟨hcolumn, hrow⟩

theorem filled_of_lt (flipY : Bool) (hwidth : 0 < width) (hheight : 0 < height)
    (hsrc : env.valid fn.src src width height = true ∧ InBounds fn.src src width height)
    (hcompact : Compact dst (fn.dst.shapes width height)) (hne : dst ≠ [])
    (hsample : fn.dst.sampleBytes = 1) (hlt : (dst.map Prod.fst).sum < 2 ^ 32) :
    ∃ allocated written, env.convertNew fn src dst width height flipY = some (allocated, written) ∧
      Filled env fn src (dst.map Prod.fst) width height flipY allocated written := by
  obtain ⟨targets, written, htargets, hwritten, hconvert, htiles, hsizes⟩ :=
    convertNew_of_lt flipY hwidth hheight hsrc hcompact hne hsample hlt
  refine ⟨_, _, hconvert, ⟨rfl, ?_⟩, htiles, hsizes, ?_⟩
  · rw [← htiles.length, hsizes]
  · intro hcopy i source shape part hsource hshape hpart row hrow column hcolumn
    rw [hwritten, getElem?_mapIdx, Option.map_eq_some_iff] at hpart
    obtain ⟨target, htarget, rfl⟩ := hpart
    have hzip : (target, shape) ∈ targets.zip (fn.dst.shapes width height) :=
      mem_of_getElem? (getElem?_zip_eq_some.mpr ⟨htarget, hshape⟩)
    have hcompactTarget := (forall₂_iff_zip.mp htargets).2 hzip
    have hindex := index_lt hrow hcolumn
    rw [← hcompactTarget.1] at hindex
    rw [getElem?_map, getElem?_range hindex, Option.map_some]
    unfold Env.newByte
    rw [if_pos hcopy, hsource, htarget, hshape]
    exact congrArg some (copyByte_compact hcompactTarget hrow hcolumn)

/-- What follows a conversion is reached if and only if there is room for all planes. -/
theorem convertNew_holds {P : Slice → VideoBufferInfo → Prop}
    {next : Slice × List Slice → Converted}
    (hwidth : 0 < width) (hheight : 0 < height)
    (hsrc : env.valid fn.src src width height = true ∧ InBounds fn.src src width height)
    (hcompact : Compact dst (fn.dst.shapes width height)) (hne : dst ≠ [])
    (hsample : fn.dst.sampleBytes = 1)
    (hnext : ∀ allocated written, (dst.map Prod.fst).sum < 2 ^ 32 →
      Filled env fn src (dst.map Prod.fst) width height flipY allocated written →
      (next (allocated, written)).Holds P) :
    Converted.Holds P ((env.convertNew fn src dst width height flipY).bind next) ↔
      (dst.map Prod.fst).sum < 2 ^ 32 := by
  constructor
  · intro hholds
    cases hconvert : env.convertNew fn src dst width height flipY with
    | none =>
      rw [hconvert] at hholds
      exact hholds.elim
    | some result => exact convertNew_lt hheight hcompact hne hsample hconvert
  · intro hlt
    obtain ⟨allocated, written, hconvert, hfilled⟩ :=
      filled_of_lt flipY hwidth hheight hsrc hcompact hne hsample hlt
    rw [hconvert]
    exact hnext allocated written hlt hfilled

end LiveKit.Video
