import LiveKit.Video.ColorConversionTheorems

/-!
# Which conversions keep what is promised

Each of `cvt_rgba` to `cvt_nv12` for a legal source, and `to_video_buffer_info` for a legal buffer,
by reduction to the source that describes it.
-/

namespace LiveKit.Video

open List Option

variable {env : Env} {info : VideoBufferInfo} {dstType : VideoBufferType} {flipY : Bool}

/-! ## The sources -/

variable {components : List ComponentInfo}

/-- Legal components read as planes large enough for their shapes. -/
theorem planes_fits {shapes : List Shape}
    (h : List.Forall₂ (ComponentInfo.Legal 1) components shapes) :
    List.Forall₂ (Plane.Fits 1) (env.planes components) shapes := by
  unfold Env.planes
  rw [forall₂_map_left_iff]
  refine h.imp fun c shape ⟨hrow, hsize, hlt⟩ => ?_
  rw [Nat.mul_one] at hsize
  refine ⟨hrow, ?_, Nat.lt_of_le_of_lt hsize hlt⟩
  show c.stride * shape.rows ≤ (env.fromRawParts c.dataPtr c.size).bytes.length / 1
  rw [Nat.div_one, Env.fromRawParts, length_map, length_range]
  exact hsize

/-- The same of components with two bytes a sample. -/
theorem planes16_fits {shapes : List Shape}
    (h : List.Forall₂ (ComponentInfo.Legal 2) components shapes) :
    List.Forall₂ (Plane.Fits 2) (env.planes16 components) shapes := by
  unfold Env.planes16
  rw [forall₂_map_left_iff]
  refine h.imp fun c shape ⟨hrow, hsize, hlt⟩ => ?_
  refine ⟨hrow, ?_, ?_⟩
  · show c.stride * shape.rows ≤ (env.fromRawParts c.dataPtr (c.size / 2 * 2)).bytes.length / 2
    rw [Env.fromRawParts, length_map, length_range]
    omega
  · show c.stride * shape.rows < 2 ^ 32
    omega

/-- The planes lie where the components point. -/
theorem planes_inMemory (components : List ComponentInfo) :
    InMemory env (components.map fun c => (c.dataPtr, c.stride)) (env.planes components) := by
  unfold InMemory Env.planes
  rw [forall₂_map_left_iff, forall₂_map_right_iff, forall₂_same]
  intro c _
  exact ⟨rfl, c.size, rfl⟩

/-- The source of a packed picture has room for the picture, also with the stride of a picture
without padding. -/
theorem packed_fits (pixelBytes : ℕ) (h : info.Legal env) (hpacked : info.type.Packed)
    (hshapes : info.type.format.shapes info.width info.height =
      [⟨info.width * pixelBytes, info.height⟩]) :
    info.width * pixelBytes < 2 ^ 32 ∧ ∃ plane, env.packed info pixelBytes = some plane ∧
      plane.Fits 1 ⟨info.width * pixelBytes, info.height⟩ ∧
      Plane.Fits 1 ⟨plane.slice, info.width * pixelBytes⟩
        ⟨info.width * pixelBytes, info.height⟩ := by
  obtain ⟨hrow, hsize⟩ := h.packed hpacked ⟨info.width * pixelBytes, info.height⟩
    (by rw [hshapes]; exact mem_singleton_self _)
  set stride := info.stride.getD (info.width * pixelBytes) with hstride
  -- `to_i420` reads rows of the stride, the swaps rows without padding
  have hcompact : info.width * pixelBytes * info.height ≤ stride * info.height :=
    Nat.mul_le_mul_right _ hrow
  have hlt : info.width * pixelBytes < 2 ^ 32 := by
    have hle := Nat.le_mul_of_pos_right (info.width * pixelBytes) h.height.1
    omega
  refine ⟨hlt, ⟨env.fromRawParts info.dataPtr (stride * info.height), stride⟩, ?_, ?_, ?_⟩
  · unfold Env.packed
    rw [u32_of_lt hlt]
    show ((u32 env.overflowChecks (stride * info.height)).bind _) = _
    rw [u32_of_lt hsize]
    rfl
  · refine ⟨hrow, ?_, hsize⟩
    show stride * info.height ≤ (env.fromRawParts _ _).bytes.length / 1
    rw [Nat.div_one, Env.fromRawParts, length_map, length_range]
  · refine ⟨Nat.le_refl _, ?_, Nat.lt_of_le_of_lt hcompact hsize⟩
    show info.width * pixelBytes * info.height ≤ (env.fromRawParts _ _).bytes.length / 1
    rw [Nat.div_one, Env.fromRawParts, length_map, length_range]
    exact hcompact

variable {type : VideoBufferType}

/-- The source of a packed picture is a picture of its format. -/
theorem packed_source {pixelBytes : ℕ} (h : info.Legal env) (htype : info.type = type)
    (hpacked : type.Packed) (hsample : type.format.sampleBytes = 1)
    (hshapes : type.format.shapes info.width info.height =
      [⟨info.width * pixelBytes, info.height⟩]) :
    info.width * pixelBytes < 2 ^ 32 ∧ ∃ plane, env.packed info pixelBytes = some plane ∧
      (env.valid type.format [plane] info.width info.height = true ∧
        InBounds type.format [plane] info.width info.height) ∧
      env.valid type.format [⟨plane.slice, info.width * pixelBytes⟩] info.width info.height =
          true ∧
        InBounds type.format [⟨plane.slice, info.width * pixelBytes⟩] info.width info.height := by
  subst htype
  obtain ⟨hlt, plane, hplane, hfits, hcompact⟩ := packed_fits pixelBytes h hpacked hshapes
  have hvalid : ∀ plane, plane.Fits 1 ⟨info.width * pixelBytes, info.height⟩ →
      env.valid info.type.format [plane] info.width info.height = true ∧
        InBounds info.type.format [plane] info.width info.height := by
    intro plane hplane
    apply valid_of_fits env _ h.width.1 h.height.1
    rw [hsample, hshapes]
    exact .cons hplane .nil
  exact ⟨hlt, plane, hplane, hvalid _ hfits, hvalid _ hcompact⟩

/-! ## The conversions of a source -/

/-- What a conversion is promised to do if it is supported, for a picture that fits. -/
def Converts (env : Env) (info : VideoBufferInfo) (dstType : VideoBufferType) (flipY : Bool)
    (converted : Converted) : Prop :=
  converted.Holds (Promised env (.described info dstType flipY)) ↔
    (supported info.type dstType = true → dstSize dstType info.width info.height < 2 ^ 32)

/-- A conversion that is not supported is an error. -/
theorem converts_invalidRequest {src : String} (htype : info.type = type)
    (h : supported type dstType = false) :
    Converts env info dstType flipY (invalidRequest src dstType) := by
  refine iff_of_true trivial fun hsupported => ?_
  rw [htype, h] at hsupported
  cases hsupported

section

variable {fn : YuvFn} {src : List Plane} (h : info.Legal env)
  (hsrc : env.valid fn.src src info.width info.height = true ∧
    InBounds fn.src src info.width info.height)

include h hsrc

/-- A function to I420, on planes that fit, is a right conversion. -/
theorem converts_toI420 (htype : info.type = type) (hsupported : supported type .i420 = true)
    (hne : type ≠ .i420) (hdst : fn.dst = .i420) (hcopy : fn.isCopy = true → fn.src = fn.dst ∧
      ∃ components, src = env.planes components) :
    Converts env info .i420 flipY (env.toI420 fn src info.width info.height flipY) := by
  subst htype
  refine Iff.trans ?_ (imp_iff_right hsupported).symm
  obtain ⟨planes, hplanes⟩ : ∃ planes, fn.isCopy = true →
      fn.src = fn.dst ∧ InMemory env planes src := by
    by_cases hcopied : fn.isCopy = true
    · obtain ⟨hsame, components, rfl⟩ := hcopy hcopied
      exact ⟨_, fun _ => ⟨hsame, planes_inMemory components⟩⟩
    · exact ⟨[], fun hbad => absurd hbad hcopied⟩
  exact toI420_holds (fun dst info' hself _ => ⟨hself, fun heq => absurd heq hne⟩) h.width.1
    h.height.1 hsrc hdst hplanes

/-- A function to a packed format, on planes that fit, is a right conversion. -/
theorem converts_toRgba (htype : info.type = type) (hsupported : supported type dstType = true)
    (hne : type ≠ dstType) (hdst : fn.dst = .rgba) (hformat : dstType.format = .rgba) :
    Converts env info dstType flipY
      (env.toRgba fn src dstType info.width info.height flipY) := by
  subst htype
  refine Iff.trans ?_ (imp_iff_right hsupported).symm
  exact toRgba_holds (fun dst info' hself => ⟨hself, fun heq => absurd heq hne⟩) h.width.1
    h.height.1 hsrc hdst hformat

end

/-! ## Packed sources -/

theorem cvtRgba_converts (h : info.Legal env) (htype : info.type = .rgba) :
    Converts env info dstType flipY (env.cvtRgba info dstType flipY) := by
  obtain ⟨hstride, plane, hplane, hsrc, hcompact⟩ := packed_source h htype trivial rfl rfl
  unfold Env.cvtRgba
  rw [htype, hplane, u32_of_lt hstride]
  cases dstType with
  | i420 =>
    exact converts_toI420 h hsrc htype rfl (by decide) rfl nofun
  | bgra =>
    exact converts_toRgba h hcompact htype rfl (by decide) rfl rfl
  | _ => exact converts_invalidRequest htype rfl

theorem cvtArgb_converts (h : info.Legal env) (htype : info.type = .argb) :
    Converts env info dstType flipY (env.cvtArgb info dstType flipY) := by
  obtain ⟨-, plane, hplane, hsrc, -⟩ := packed_source h htype trivial rfl rfl
  unfold Env.cvtArgb
  rw [htype, hplane]
  cases dstType with
  | i420 =>
    exact converts_toI420 h hsrc htype rfl (by decide) rfl nofun
  | _ => exact converts_invalidRequest htype rfl

theorem cvtBgra_converts (h : info.Legal env) (htype : info.type = .bgra) :
    Converts env info dstType flipY (env.cvtBgra info dstType flipY) := by
  obtain ⟨hstride, plane, hplane, hsrc, hcompact⟩ := packed_source h htype trivial rfl rfl
  unfold Env.cvtBgra
  rw [htype, hplane, u32_of_lt hstride]
  cases dstType with
  | i420 =>
    exact converts_toI420 h hsrc htype rfl (by decide) rfl nofun
  | rgba =>
    exact converts_toRgba h hcompact htype rfl (by decide) rfl rfl
  | _ => exact converts_invalidRequest htype rfl

theorem cvtRgb24_converts (h : info.Legal env) (htype : info.type = .rgb24) :
    Converts env info dstType flipY (env.cvtRgb24 info dstType flipY) := by
  obtain ⟨-, plane, hplane, hsrc, -⟩ := packed_source h htype trivial rfl rfl
  unfold Env.cvtRgb24
  rw [htype, hplane]
  cases dstType with
  | i420 =>
    exact converts_toI420 h hsrc htype rfl (by decide) rfl nofun
  | _ => exact converts_invalidRequest htype rfl

/-- The assertion is about another type. -/
theorem cvtAbgr_panics (htype : info.type = .abgr) : env.cvtAbgr info dstType flipY = none := by
  unfold Env.cvtAbgr
  rw [htype]
  rfl

/-! ## Planar sources -/

/-- A legal planar buffer has a legal component for every plane of its format. -/
theorem legal_planar (h : info.Legal env) (htype : info.type = type) (hpacked : ¬ type.Packed) :
    List.Forall₂ (ComponentInfo.Legal type.format.sampleBytes) info.components
      (type.format.shapes info.width info.height) := by
  subst htype
  exact h.planar hpacked

/-- The planes of a description with one byte a sample are a picture of its format. -/
theorem legal_source (h : info.Legal env) (htype : info.type = type) (hpacked : ¬ type.Packed)
    (hsample : type.format.sampleBytes = 1) (hcomponents : info.components = components) :
    env.valid type.format (env.planes components) info.width info.height = true ∧
      InBounds type.format (env.planes components) info.width info.height := by
  have hplanar := legal_planar h htype hpacked
  rw [hsample, hcomponents] at hplanar
  apply valid_of_fits env _ h.width.1 h.height.1
  rw [hsample]
  exact planes_fits hplanar

theorem cvtI420_converts (h : info.Legal env) (htype : info.type = .i420) :
    Converts env info dstType flipY (env.cvtI420 info dstType flipY) := by
  obtain ⟨c0, c1, c2, hcomponents⟩ :=
    length_eq_three.mp (legal_planar h htype id).length_eq
  have hsrc := legal_source h htype id rfl hcomponents
  unfold Env.cvtI420
  rw [htype, hcomponents]
  cases dstType with
  | rgba | abgr | argb | bgra =>
    exact converts_toRgba h hsrc htype rfl (by decide) rfl rfl
  | rgb24 =>
    refine Iff.trans ?_ (imp_iff_right (by rw [htype]; rfl)).symm
    exact toRgb24_holds (fun dst info' hself => ⟨hself, fun heq => by cases htype.symm.trans heq⟩)
      h.width.1 h.height.1 hsrc rfl
  | i420 =>
    refine Iff.trans ?_ (imp_iff_right (by rw [htype]; rfl)).symm
    refine toI420_holds (fun dst info' hself hrows => ⟨hself, fun _ => hrows rfl⟩) h.width.1
      h.height.1 hsrc rfl fun _ => ⟨rfl, ?_⟩
    show InMemory env (info.components.map _) _
    rw [hcomponents]
    exact planes_inMemory _
  | _ => exact converts_invalidRequest htype rfl

theorem cvtI422_converts (h : info.Legal env) (htype : info.type = .i422) :
    Converts env info dstType flipY (env.cvtI422 info dstType flipY) := by
  obtain ⟨c0, c1, c2, hcomponents⟩ :=
    length_eq_three.mp (legal_planar h htype id).length_eq
  have hsrc := legal_source h htype id rfl hcomponents
  unfold Env.cvtI422
  rw [htype, hcomponents]
  cases dstType with
  | rgba | abgr | argb =>
    exact converts_toRgba h hsrc htype rfl (by decide) rfl rfl
  | i420 =>
    exact converts_toI420 h hsrc htype rfl (by decide) rfl nofun
  | i422 =>
    refine Iff.trans ?_ (imp_iff_right (by rw [htype]; rfl)).symm
    refine toI422_holds (Input.described info .i422 flipY).planes
      (fun dst info' hself hrows => ⟨hself, fun _ => hrows⟩) h.width.1 h.height.1 hsrc ?_
    show InMemory env (info.components.map _) _
    rw [hcomponents]
    exact planes_inMemory _
  | _ => exact converts_invalidRequest htype rfl

theorem cvtI420a_converts (h : info.Legal env) (htype : info.type = .i420a) :
    Converts env info dstType flipY (env.cvtI420a info dstType flipY) := by
  have hplanar := legal_planar h htype id
  obtain ⟨c0, c1, c2, c3, hcomponents⟩ : ∃ c0 c1 c2 c3, info.components = [c0, c1, c2, c3] := by
    obtain ⟨c0, _, -, h₁, heq⟩ := forall₂_cons_right_iff.mp hplanar
    obtain ⟨c1, _, -, h₂, rfl⟩ := forall₂_cons_right_iff.mp h₁
    obtain ⟨c2, _, -, h₃, rfl⟩ := forall₂_cons_right_iff.mp h₂
    obtain ⟨c3, _, -, h₄, rfl⟩ := forall₂_cons_right_iff.mp h₃
    obtain rfl := forall₂_nil_right_iff.mp h₄
    exact ⟨c0, c1, c2, c3, heq⟩
  have hsrc := legal_source h htype id rfl hcomponents
  rw [hcomponents] at hplanar
  unfold Env.cvtI420a
  rw [htype, hcomponents]
  cases dstType with
  | i420 =>
    -- the first three planes are a picture of their own
    have hfirst : List.Forall₂ (ComponentInfo.Legal 1) [c0, c1, c2]
        (PixelFormat.i420.shapes info.width info.height) := by
      obtain ⟨hc0, hrest⟩ := forall₂_cons.mp hplanar
      obtain ⟨hc1, hrest⟩ := forall₂_cons.mp hrest
      obtain ⟨hc2, -⟩ := forall₂_cons.mp hrest
      exact .cons hc0 <| .cons hc1 <| .cons hc2 .nil
    exact converts_toI420 h (valid_of_fits env .i420 h.width.1 h.height.1 (planes_fits hfirst))
      htype rfl (by decide) rfl (fun _ => ⟨rfl, _, rfl⟩)
  | i420a =>
    refine Iff.trans ?_ (imp_iff_right (by rw [htype]; rfl)).symm
    set luma := info.width * info.height
    set chromaW := (info.width + 1) / 2
    set chroma := chromaW * ((info.height + 1) / 2)
    have hcompact : Compact [(luma, info.width), (chroma, chromaW), (chroma, chromaW),
        (luma, info.width)] (PixelFormat.i420a.shapes info.width info.height) :=
      .cons ⟨rfl, rfl⟩ <| .cons ⟨rfl, rfl⟩ <| .cons ⟨rfl, rfl⟩ <| .cons ⟨rfl, rfl⟩ .nil
    refine convertNew_holds h.width.1 h.height.1 hsrc hcompact
      (cons_ne_nil _ _) rfl ?_
    intro dst written hlt hfilled
    obtain ⟨y, _, rfl, hy, hsizes⟩ := map_eq_cons_iff.mp hfilled.sizes
    obtain ⟨u, _, rfl, hu, hsizes⟩ := map_eq_cons_iff.mp hsizes
    obtain ⟨v, _, rfl, hv, hsizes⟩ := map_eq_cons_iff.mp hsizes
    obtain ⟨a, _, rfl, ha, hsizes⟩ := map_eq_cons_iff.mp hsizes
    obtain rfl := map_eq_nil_iff.mp hsizes
    have htotal : luma + (chroma + (chroma + (luma + 0))) < 2 ^ 32 := hlt
    have hlumaLt : luma < 2 ^ 32 := by omega
    have hchromaLt : chroma < 2 ^ 32 := by omega
    show Converted.Holds _ ((env.i420aInfo y.addr y.addr u.addr v.addr a.addr info.width info.height
      info.width chromaW chromaW info.width).bind _)
    have hinfo : env.i420aInfo y.addr y.addr u.addr v.addr a.addr info.width info.height
        info.width chromaW chromaW info.width = some ⟨.i420a, info.width, info.height, y.addr, none,
          describedParts [y, u, v, a] (PixelFormat.i420a.shapes info.width info.height)⟩ := by
      show (do
        let c1 ← env.component y.addr info.width luma
        let c2 ← env.component u.addr chromaW chroma
        let c3 ← env.component v.addr chromaW chroma
        let c4 ← env.component a.addr info.width luma
        return VideoBufferInfo.mk .i420a info.width info.height y.addr none [c1, c2, c3, c4]) =
          some ⟨.i420a, info.width, info.height, y.addr, none,
            [⟨y.addr, info.width, y.bytes.length⟩, ⟨u.addr, chromaW, u.bytes.length⟩,
              ⟨v.addr, chromaW, v.bytes.length⟩, ⟨a.addr, info.width, a.bytes.length⟩]⟩
      rw [component_of_lt env hlumaLt, component_of_lt env hchromaLt,
        component_of_lt env hchromaLt, component_of_lt env hlumaLt, hy, hu, hv, ha]
      rfl
    rw [hinfo]
    refine ⟨hfilled.selfContained ⟨.i420a, info.width, info.height, y.addr, none, _⟩ id rfl rfl,
      fun _ => ?_⟩
    refine hfilled.sameRows rfl rfl rfl hsrc.2 ?_ rfl rfl rfl
    show InMemory env (info.components.map _) _
    rw [hcomponents]
    exact planes_inMemory _
  | _ => exact converts_invalidRequest htype rfl

theorem cvtI444_converts (h : info.Legal env) (htype : info.type = .i444) (hne : dstType ≠ .i444) :
    Converts env info dstType flipY (env.cvtI444 info dstType flipY) := by
  obtain ⟨c0, c1, c2, hcomponents⟩ :=
    length_eq_three.mp (legal_planar h htype id).length_eq
  have hsrc := legal_source h htype id rfl hcomponents
  unfold Env.cvtI444
  rw [htype, hcomponents]
  cases dstType with
  | rgba | bgra =>
    exact converts_toRgba h hsrc htype rfl (by decide) rfl rfl
  | i420 =>
    exact converts_toI420 h hsrc htype rfl (by decide) rfl nofun
  | i444 => exact absurd rfl hne
  | _ => exact converts_invalidRequest htype rfl

theorem cvtI010_converts (h : info.Legal env) (htype : info.type = .i010) :
    Converts env info dstType flipY (env.cvtI010 info dstType flipY) := by
  have hplanar := legal_planar h htype id
  obtain ⟨c0, c1, c2, hcomponents⟩ := length_eq_three.mp hplanar.length_eq
  rw [hcomponents] at hplanar
  have hplanes : List.Forall₂ (Plane.Fits 2) (env.planes16 [c0, c1, c2])
      (PixelFormat.i010.shapes info.width info.height) := planes16_fits hplanar
  have hsrc := valid_of_fits env .i010 h.width.1 h.height.1 hplanes
  unfold Env.cvtI010
  rw [htype, hcomponents]
  cases dstType with
  | rgba | bgra =>
    exact converts_toRgba h hsrc htype rfl (by decide) rfl rfl
  | i420 =>
    exact converts_toI420 h hsrc htype rfl (by decide) rfl nofun
  | _ => exact converts_invalidRequest htype rfl

theorem cvtNv12_converts (h : info.Legal env) (htype : info.type = .nv12) (hne : dstType ≠ .nv12) :
    Converts env info dstType flipY (env.cvtNv12 info dstType flipY) := by
  obtain ⟨c0, c1, hcomponents⟩ := length_eq_two.mp (legal_planar h htype id).length_eq
  have hsrc := legal_source h htype id rfl hcomponents
  unfold Env.cvtNv12
  rw [htype, hcomponents]
  cases dstType with
  | rgba | bgra =>
    exact converts_toRgba h hsrc htype rfl (by decide) rfl rfl
  | i420 =>
    exact converts_toI420 h hsrc htype rfl (by decide) rfl nofun
  | nv12 => exact absurd rfl hne
  | _ => exact converts_invalidRequest htype rfl

/-! ## The conversions that fail -/

/-- The description of an I444 picture has a plane of the source, which is not in the allocation. -/
theorem cvtI444_self (h : info.Legal env) (htype : info.type = .i444) :
    ¬ (env.cvtI444 info .i444 flipY).Holds (Promised env (.described info .i444 flipY)) := by
  have hplanar := legal_planar h htype id
  obtain ⟨c0, c1, c2, hcomponents⟩ := length_eq_three.mp hplanar.length_eq
  have hsrc := legal_source h htype id rfl hcomponents
  rw [hcomponents] at hplanar
  -- the third plane of the source is not where anything is allocated
  have hfresh : env.Fresh c2.dataPtr (c2.stride * info.height) := by
    refine h.fresh (c2, ⟨info.width, info.height⟩) ?_
    rw [htype, hcomponents]
    exact mem_cons_of_mem _ (mem_cons_of_mem _ (mem_singleton_self _))
  have hstride : info.width ≤ c2.stride := by
    obtain ⟨-, hrest⟩ := forall₂_cons.mp hplanar
    obtain ⟨-, hrest⟩ := forall₂_cons.mp hrest
    exact (forall₂_cons.mp hrest).1.1
  have hcompact : Compact [(info.width * info.height, info.width),
      (info.width * info.height, info.width), (info.width * info.height, info.width)]
      (YuvFn.i444Copy.dst.shapes info.width info.height) :=
    .cons ⟨rfl, rfl⟩ <| .cons ⟨rfl, rfl⟩ <| .cons ⟨rfl, rfl⟩ .nil
  unfold Env.cvtI444
  rw [htype, hcomponents]
  intro hholds
  change Converted.Holds _ ((env.convertNew .i444Copy _ _ _ _ flipY).bind _) at hholds
  cases hconvert : env.convertNew .i444Copy (env.planes [c0, c1, c2])
      [(info.width * info.height, info.width), (info.width * info.height, info.width),
        (info.width * info.height, info.width)] info.width info.height flipY with
  | none =>
    rw [hconvert] at hholds
    exact hholds
  | some result =>
    have hlt := convertNew_lt h.height.1 hcompact (cons_ne_nil _ _) rfl hconvert
    obtain ⟨dst, written, heq, hfilled⟩ :=
      filled_of_lt flipY h.width.1 h.height.1 hsrc hcompact (cons_ne_nil _ _) rfl hlt
    obtain rfl := some.inj (hconvert.symm.trans heq)
    obtain ⟨y, _, rfl, hy, hsizes⟩ := map_eq_cons_iff.mp hfilled.sizes
    obtain ⟨u, _, rfl, hu, hsizes⟩ := map_eq_cons_iff.mp hsizes
    obtain ⟨v, _, rfl, hv, hsizes⟩ := map_eq_cons_iff.mp hsizes
    obtain rfl := map_eq_nil_iff.mp hsizes
    have htotal : info.width * info.height + (info.width * info.height +
      (info.width * info.height + 0)) < 2 ^ 32 := hlt
    have hfits : info.width * info.height < 2 ^ 32 := by omega
    have hinfo : env.i444Info y.addr y.addr u.addr c2.dataPtr info.width info.height info.width
        info.width info.width = some ⟨.i444, info.width, info.height, y.addr, none,
          [⟨y.addr, info.width, info.width * info.height⟩,
            ⟨u.addr, info.width, info.width * info.height⟩,
            ⟨c2.dataPtr, info.width, info.width * info.height⟩]⟩ := by
      unfold Env.i444Info
      rw [component_of_lt env hfits, component_of_lt env hfits, component_of_lt env hfits]
      rfl
    rw [hconvert] at hholds
    change Converted.Holds _ ((env.i444Info y.addr y.addr u.addr c2.dataPtr _ _ _ _ _).bind _)
      at hholds
    rw [hinfo] at hholds
    have hinside := hholds.1.inside (c2.dataPtr, info.width * info.height)
      (mem_cons_of_mem _ (mem_cons_of_mem _ (mem_singleton_self _)))
    unfold Slice.stop at hinside
    rw [hfilled.allocated.1, hfilled.allocated.2] at hinside
    have hpos : 0 < info.width * info.height := Nat.mul_pos h.width.1 h.height.1
    have hle : info.width * info.height ≤ c2.stride * info.height :=
      Nat.mul_le_mul_right _ hstride
    rcases hfresh [info.width * info.height, info.width * info.height,
      info.width * info.height].sum with hbefore | hafter
    · have h₁ := hinside.1
      change env.alloc [info.width * info.height, info.width * info.height,
        info.width * info.height].sum ≤ c2.dataPtr at h₁
      omega
    · have h₂ := hinside.2
      change c2.dataPtr + info.width * info.height ≤ env.alloc [info.width * info.height,
        info.width * info.height, info.width * info.height].sum + [info.width * info.height,
        info.width * info.height, info.width * info.height].sum at h₂
      omega

variable {height width : ℕ}

/-- The rows of a plane are at most as long as its stride. -/
theorem convert_stride {fn : YuvFn} {src dst : List Plane} {written : List Slice}
    (h : env.convert fn src dst width height flipY = some written) (plane : Plane) (shape : Shape)
    (hmem : (plane, shape) ∈ dst.zip (fn.dst.shapes width height)) :
    shape.rowLen ≤ plane.stride := by
  unfold Env.convert at h
  rw [ite_none_right_eq_some] at h
  obtain ⟨⟨-, hvalid, -⟩, -⟩ := h
  unfold Env.valid at hvalid
  rw [decide_eq_true_iff] at hvalid
  have hplane := all_eq_true.mp hvalid.2.2 _ hmem
  unfold Env.validPlane at hplane
  rw [decide_eq_true_iff] at hplane
  exact hplane.1

/-- The stride of both colors is that of one. -/
theorem cvtNv12_self (h : info.Legal env) (htype : info.type = .nv12) :
    env.cvtNv12 info .nv12 flipY = none := by
  obtain ⟨c0, c1, hcomponents⟩ := length_eq_two.mp (legal_planar h htype id).length_eq
  unfold Env.cvtNv12
  rw [htype, hcomponents]
  show (env.convertNew .nv12Copy _ _ _ _ flipY).bind _ = none
  rw [bind_eq_none_iff]
  intro result hconvert
  obtain ⟨len, hlen, hconvert⟩ := bind_eq_some_iff.mp hconvert
  obtain ⟨sizes, hsizes, hconvert⟩ := bind_eq_some_iff.mp hconvert
  obtain ⟨parts, hparts, hconvert⟩ := bind_eq_some_iff.mp hconvert
  obtain ⟨written, hwritten, -⟩ := bind_eq_some_iff.mp hconvert
  have hlength : parts.length = 2 := by
    rw [Slice.splits_length hparts, Traverse.mapM_length hsizes]
    rfl
  obtain ⟨first, second, rfl⟩ := length_eq_two.mp hlength
  -- `(width + 1) / 2` bytes are too few for a row of both colors
  have hstride := convert_stride hwritten ⟨second, (info.width + 1) / 2⟩
    ⟨info.width + info.width % 2, (info.height + 1) / 2⟩
    (mem_cons_of_mem _ (mem_singleton_self _))
  have hpos := h.width.1
  simp only at hstride
  omega

/-- Nothing is converted from planes that are too small. -/
theorem convertNew_none {fn : YuvFn} {src : List Plane} {dst : List (ℕ × ℕ)}
    (h : env.valid fn.src src width height = false) :
    env.convertNew fn src dst width height flipY = none := by
  refine bind_eq_none_iff.mpr fun len _ => ?_
  refine bind_eq_none_iff.mpr fun sizes _ => ?_
  refine bind_eq_none_iff.mpr fun parts _ => ?_
  refine bind_eq_none_iff.mpr fun written hwritten => ?_
  unfold Env.convert at hwritten
  rw [ite_none_right_eq_some, h] at hwritten
  cases hwritten.1.1

/-- Of samples of two bytes that are too small nothing is converted, and what is not supported is
still an error. -/
theorem cvtI010_holds_iff {P : Slice → VideoBufferInfo → Prop} {c0 c1 c2 : ComponentInfo}
    (htype : info.type = .i010) (hcomponents : info.components = [c0, c1, c2])
    (h : env.valid .i010 (env.planes16 [c0, c1, c2]) info.width info.height = false) :
    (env.cvtI010 info dstType flipY).Holds P ↔ supported .i010 dstType = false := by
  unfold Env.cvtI010
  rw [htype, hcomponents]
  -- the checks of the conversion fail for the planes of the source
  have hrgba : ∀ fn type, fn.src = .i010 →
      env.toRgba fn (env.planes16 [c0, c1, c2]) type info.width info.height flipY = none := by
    intro fn type hsrc
    refine bind_eq_none_iff.mpr fun stride _ => ?_
    rw [convertNew_none (by rw [hsrc]; exact h)]
    rfl
  cases dstType with
  | rgba =>
    show (env.toRgba .i010ToAbgr _ _ _ _ _).Holds P ↔ _
    rw [hrgba _ _ rfl]
    exact iff_of_false id (by decide)
  | bgra =>
    show (env.toRgba .i010ToArgb _ _ _ _ _).Holds P ↔ _
    rw [hrgba _ _ rfl]
    exact iff_of_false id (by decide)
  | i420 =>
    show Converted.Holds P ((env.convertNew .i010ToI420 _ _ _ _ _).bind _) ↔ _
    rw [convertNew_none h]
    exact iff_of_false id (by decide)
  | _ => exact iff_of_true trivial rfl

/-! ## What is described -/

/-- Away from the three special pairs only the size of the result decides. -/
theorem good_described_iff (habgr : info.type ≠ .abgr)
    (hi444 : ¬ (info.type = .i444 ∧ dstType = .i444))
    (hnv12 : ¬ (info.type = .nv12 ∧ dstType = .nv12)) :
    (Input.described info dstType flipY).Good ↔
      (supported info.type dstType = true → dstSize dstType info.width info.height < 2 ^ 32) := by
  constructor
  · rintro ⟨-, hgood⟩ hsupported
    exact (hgood hsupported).2.2.2
  · intro hfits
    refine ⟨habgr, fun hsupported => ⟨hi444, hnv12, ?_, hfits hsupported⟩⟩
    intro b bufferType hbuffer
    cases hbuffer

/-- Away from the three special pairs every conversion is right. -/
theorem cvt_converts (h : info.Legal env) (habgr : info.type ≠ .abgr)
    (hi444 : ¬ (info.type = .i444 ∧ dstType = .i444))
    (hnv12 : ¬ (info.type = .nv12 ∧ dstType = .nv12)) :
    Converts env info dstType flipY (env.cvt info dstType flipY) := by
  unfold Env.cvt
  cases htype : info.type with
  | rgba => exact cvtRgba_converts h htype
  | abgr => exact absurd htype habgr
  | argb => exact cvtArgb_converts h htype
  | bgra => exact cvtBgra_converts h htype
  | rgb24 => exact cvtRgb24_converts h htype
  | i420 => exact cvtI420_converts h htype
  | i420a => exact cvtI420a_converts h htype
  | i422 => exact cvtI422_converts h htype
  | i444 => exact cvtI444_converts h htype fun hdst => hi444 ⟨htype, hdst⟩
  | i010 => exact cvtI010_converts h htype
  | nv12 => exact cvtNv12_converts h htype fun hdst => hnv12 ⟨htype, hdst⟩

/-- A described buffer is converted as promised exactly for a good input. -/
theorem described_meets_iff (h : info.Legal env) :
    Meets env (.described info dstType flipY) ↔ (Input.described info dstType flipY).Good := by
  show (env.cvt info dstType flipY).Holds _ ↔ _
  by_cases habgr : info.type = .abgr
  · refine iff_of_false ?_ fun hgood => hgood.1 habgr
    unfold Env.cvt
    rw [habgr]
    show ¬ Converted.Holds _ (env.cvtAbgr info dstType flipY)
    rw [cvtAbgr_panics habgr]
    exact id
  by_cases hi444 : info.type = .i444 ∧ dstType = .i444
  · obtain ⟨htype, rfl⟩ := hi444
    refine iff_of_false ?_ fun hgood => (hgood.2 ?_).1 ⟨htype, rfl⟩
    · unfold Env.cvt
      rw [htype]
      exact cvtI444_self h htype
    · show supported info.type .i444 = true
      rw [htype]
      rfl
  by_cases hnv12 : info.type = .nv12 ∧ dstType = .nv12
  · obtain ⟨htype, rfl⟩ := hnv12
    refine iff_of_false ?_ fun hgood => (hgood.2 ?_).2.1 ⟨htype, rfl⟩
    · unfold Env.cvt
      rw [htype]
      show ¬ Converted.Holds _ (env.cvtNv12 info .nv12 flipY)
      rw [cvtNv12_self h htype]
      exact id
    · show supported info.type .nv12 = true
      rw [htype]
      rfl
  rw [good_described_iff habgr hi444 hnv12]
  exact cvt_converts h habgr hi444 hnv12

/-! ## Buffers -/

/-- The component of a plane has its size. -/
theorem component_of_plane {plane : Plane} {shape : Shape} (h : plane.Legal 1 shape)
    (hfits : plane.slice.bytes.length < 2 ^ 32) :
    env.component plane.slice.addr plane.stride (plane.stride * shape.rows) =
      some ⟨plane.slice.addr, plane.stride, plane.slice.bytes.length⟩ := by
  have hlen := h.2.2
  rw [Nat.mul_one] at hlen
  rw [← hlen]
  exact component_of_lt env hfits

variable {b : VideoBuffer}

/-- The description of a legal buffer is legal itself. -/
theorem described_legal (h : b.Legal env) (htype : b.type ≠ .i010) (hfits : b.Fits)
    (hfresh : ∀ plane ∈ b.planes, env.Fresh plane.slice.addr plane.slice.bytes.length)
    (dataPtr : ℕ) : (described b.type b.width b.height dataPtr b.planes).Legal env := by
  have hformat : b.type.proto.format = b.type.format := by cases b.type <;> rfl
  have hsample : b.type.format.sampleBytes = 1 := by
    cases htype' : b.type with
    | i010 => exact absurd htype' htype
    | _ => rfl
  have hplanes := h.planes
  rw [hsample] at hplanes
  refine ⟨h.width, h.height, ?_, fun _ => ?_, ?_⟩
  · intro hpacked
    change b.type.proto.Packed at hpacked
    cases htype' : b.type <;> rw [htype'] at hpacked <;> exact hpacked.elim
  · show List.Forall₂ (ComponentInfo.Legal b.type.proto.format.sampleBytes) (b.planes.map _)
      (b.type.proto.format.shapes b.width b.height)
    rw [hformat, hsample, forall₂_map_left_iff]
    refine forall₂_iff_zip.mpr ⟨hplanes.length_eq, fun {plane shape} hmem => ?_⟩
    obtain ⟨hrow, -, hlen⟩ := (forall₂_iff_zip.mp hplanes).2 hmem
    exact ⟨hrow, Nat.le_of_eq hlen.symm, hfits plane (of_mem_zip hmem).1⟩
  · show ∀ c ∈ (b.planes.map _).zip (b.type.proto.format.shapes b.width b.height), _
    rw [hformat, zip_map_left]
    intro c hmem
    obtain ⟨⟨plane, shape⟩, hzip, rfl⟩ := mem_map.mp hmem
    obtain ⟨-, -, hlen⟩ := (forall₂_iff_zip.mp hplanes).2 hzip
    rw [Nat.mul_one] at hlen
    show env.Fresh plane.slice.addr (plane.stride * shape.rows)
    rw [← hlen]
    exact hfresh plane (of_mem_zip hzip).1

/-- A buffer that fits is described by its own planes. -/
theorem describe_eq (h : b.Legal env) (hi010 : b.type ≠ .i010) (hnv12 : b.type ≠ .nv12)
    (hfits : b.Fits) :
    ∃ dataPtr, env.describe b = some (described b.type b.width b.height dataPtr b.planes) := by
  have hplanes := hfits
  unfold VideoBuffer.Fits at hplanes
  obtain ⟨type, width, height, planes⟩ := b
  cases type with
  | i420 =>
    obtain ⟨y, u, v, rfl, hy, hu, hv⟩ := legal_three h rfl
    have hdescribe := three_components env .i420 width height hy hu hv hplanes
    exact ⟨y.slice.addr, hdescribe⟩
  | i422 =>
    obtain ⟨y, u, v, rfl, hy, hu, hv⟩ := legal_three h rfl
    have hdescribe := three_components env .i422 width height hy hu hv hplanes
    exact ⟨y.slice.addr, hdescribe⟩
  | i444 =>
    obtain ⟨y, u, v, rfl, hy, hu, hv⟩ := legal_three h rfl
    have hdescribe := three_components env .i444 width height hy hu hv hplanes
    exact ⟨y.slice.addr, hdescribe⟩
  | i420a =>
    obtain ⟨y, u, v, a, rfl, hy, hu, hv, ha⟩ := legal_i420a h
    refine ⟨y.slice.addr, ?_⟩
    show (do
      let c1 ← env.component y.slice.addr y.stride (y.stride * height)
      let c2 ← env.component u.slice.addr u.stride (u.stride * ((height + 1) / 2))
      let c3 ← env.component v.slice.addr v.stride (v.stride * ((height + 1) / 2))
      let c4 ← env.component a.slice.addr a.stride (a.stride * height)
      return VideoBufferInfo.mk .i420a width height y.slice.addr none [c1, c2, c3, c4]) = _
    rw [component_of_plane hy (hplanes y (by simp)), component_of_plane hu (hplanes u (by simp)),
      component_of_plane hv (hplanes v (by simp)), component_of_plane ha (hplanes a (by simp))]
    rfl
  | i010 => exact absurd rfl hi010
  | nv12 => exact absurd rfl hnv12

/-- A legal buffer, but for one with samples of two bytes, has a legal description. -/
theorem describe_legal (h : b.Legal env) (hsize : b.sizes.sum < 2 ^ 31)
    (hfresh : ∀ plane ∈ b.planes, env.Fresh plane.slice.addr plane.slice.bytes.length)
    (hi010 : b.type ≠ .i010) :
    ∃ info, env.describe b = some info ∧ info.Legal env ∧ info.type = b.type.proto ∧
      info.width = b.width ∧ info.height = b.height ∧
      info.components.map (fun c => (c.dataPtr, c.stride)) =
        b.planes.map fun plane => (plane.slice.addr, plane.stride) := by
  have hlt : ∀ plane ∈ b.planes, plane.slice.bytes.length < 2 ^ 31 := by
    intro plane hmem
    have hmemSize : plane.slice.bytes.length ∈ b.sizes := mem_map.mpr ⟨plane, hmem, rfl⟩
    exact Nat.lt_of_le_of_lt (le_sum_of_mem hmemSize) hsize
  have hfits : b.Fits := fun plane hmem => Nat.lt_trans (hlt plane hmem) (by decide)
  by_cases hnv12 : b.type = .nv12
  · obtain ⟨type, width, height, planes⟩ := b
    obtain rfl : type = .nv12 := hnv12
    obtain ⟨y, uv, rfl, hy, huv⟩ := legal_nv12 h
    have hyLt := hlt y (by simp)
    have huvLt := hlt uv (by simp)
    obtain ⟨hyRow, -, hyLen⟩ := hy
    obtain ⟨huvRow, -, huvLen⟩ := huv
    rw [Nat.mul_one] at hyLen huvLen
    refine ⟨⟨.nv12, width, height, y.slice.addr, none,
      [⟨y.slice.addr, y.stride, y.slice.bytes.length⟩,
        ⟨uv.slice.addr, uv.stride, uv.slice.bytes.length * 2⟩]⟩, ?_, ?_, rfl, rfl, rfl, rfl⟩
    · show (do
        let c1 ← env.component y.slice.addr y.stride (y.stride * height)
        let c2 ← env.component uv.slice.addr uv.stride (uv.stride * ((height + 1) / 2) * 2)
        return VideoBufferInfo.mk .nv12 width height y.slice.addr none [c1, c2]) = _
      simp only at hyLen huvLen
      rw [← hyLen, ← huvLen, component_of_lt env (by omega), component_of_lt env (by omega)]
      rfl
    · refine ⟨h.width, h.height, fun hbad => hbad.elim, fun _ => ?_, ?_⟩
      · refine .cons ⟨hyRow, ?_, ?_⟩ <| .cons ⟨huvRow, ?_, ?_⟩ .nil
        · show y.stride * height * 1 ≤ y.slice.bytes.length
          rw [Nat.mul_one]
          exact Nat.le_of_eq hyLen.symm
        · show y.slice.bytes.length < 2 ^ 32
          omega
        · show uv.stride * ((height + 1) / 2) * 1 ≤ uv.slice.bytes.length * 2
          have hle : uv.slice.bytes.length = uv.stride * ((height + 1) / 2) := huvLen
          omega
        · show uv.slice.bytes.length * 2 < 2 ^ 32
          omega
      · intro c hmem
        simp only [VideoBufferType.format, PixelFormat.shapes, zip_cons_cons,
          zip_nil_right, mem_cons, not_mem_nil, or_false] at hmem
        rcases hmem with rfl | rfl
        · show env.Fresh y.slice.addr (y.stride * height)
          have hlen : y.slice.bytes.length = y.stride * height := hyLen
          exact hlen ▸ hfresh y (by simp)
        · show env.Fresh uv.slice.addr (uv.stride * ((height + 1) / 2))
          have hlen : uv.slice.bytes.length = uv.stride * ((height + 1) / 2) := huvLen
          exact hlen ▸ hfresh uv (by simp)
  · obtain ⟨dataPtr, hdescribe⟩ := describe_eq h hi010 hnv12 hfits
    refine ⟨_, hdescribe, described_legal h hi010 hfits hfresh dataPtr, rfl, rfl, rfl, ?_⟩
    unfold described
    rw [List.map_map]
    rfl

variable {planes : List Plane} {bufferType : Option VideoBufferType}

section

variable (h : (VideoBuffer.mk .i010 width height planes).Legal env)
  (hsize : (VideoBuffer.mk .i010 width height planes).sizes.sum < 2 ^ 31)

include h hsize

/-- The planes of a buffer with samples of two bytes are described with half of their sizes. -/
theorem describe_i010 :
    ∃ info c0 c1 c2, env.describe ⟨.i010, width, height, planes⟩ = some info ∧
      info.type = .i010 ∧ info.components = [c0, c1, c2] ∧
      env.valid .i010 (env.planes16 [c0, c1, c2]) info.width info.height = false := by
  obtain ⟨y, u, v, rfl, ⟨hrow, -, hyLen⟩, ⟨-, -, huLen⟩, ⟨-, -, hvLen⟩⟩ := legal_three h rfl
  have hyEq : y.slice.bytes.length = y.stride * height * 2 := hyLen
  have huEq : u.slice.bytes.length = u.stride * ((height + 1) / 2) * 2 := huLen
  have hvEq : v.slice.bytes.length = v.stride * ((height + 1) / 2) * 2 := hvLen
  have htotal : y.slice.bytes.length + (u.slice.bytes.length + (v.slice.bytes.length + 0)) <
      2 ^ 31 := hsize
  refine ⟨⟨.i010, width, height, y.slice.addr, none,
      [⟨y.slice.addr, y.stride, y.stride * height⟩,
        ⟨u.slice.addr, u.stride, u.stride * ((height + 1) / 2)⟩,
        ⟨v.slice.addr, v.stride, v.stride * ((height + 1) / 2)⟩]⟩, _, _, _, ?_, rfl, rfl, ?_⟩
  · show (do
      let c1 ← env.component y.slice.addr y.stride (y.stride * height)
      let c2 ← env.component u.slice.addr u.stride (u.stride * ((height + 1) / 2))
      let c3 ← env.component v.slice.addr v.stride (v.stride * ((height + 1) / 2))
      return VideoBufferInfo.mk .i010 width height y.slice.addr none [c1, c2, c3]) = _
    rw [component_of_lt env (by omega), component_of_lt env (by omega),
      component_of_lt env (by omega)]
    rfl
  · -- the first plane would need twice as many samples
    rw [← Bool.not_eq_true]
    intro hvalid
    unfold Env.valid at hvalid
    rw [decide_eq_true_iff] at hvalid
    have hplane := all_eq_true.mp hvalid.2.2 (⟨env.fromRawParts y.slice.addr
      (y.stride * height / 2 * 2), y.stride⟩, ⟨width, height⟩) mem_cons_self
    unfold Env.validPlane at hplane
    rw [decide_eq_true_iff] at hplane
    have hsamples := hplane.2
    rw [u32_of_lt (by show y.stride * height < 2 ^ 32; omega)] at hsamples
    have hle : y.stride * height ≤
        (env.fromRawParts y.slice.addr (y.stride * height / 2 * 2)).bytes.length / 2 :=
      of_decide_eq_true hsamples
    rw [Env.fromRawParts, length_map, length_range] at hle
    have hpos : 0 < y.stride * height :=
      Nat.mul_pos (Nat.lt_of_lt_of_le h.width.1 hrow) h.height.1
    omega

/-! ## Every input -/

/-- An I010 buffer is converted as promised exactly for a good input. -/
theorem i010_meets_iff :
    Meets env (.buffer ⟨.i010, width, height, planes⟩ bufferType) ↔
      (Input.buffer ⟨.i010, width, height, planes⟩ bufferType).Good := by
  obtain ⟨info, c0, c1, c2, hdescribe, htype, hcomponents, hvalid⟩ := describe_i010 h hsize
  have hconvert : env.toVideoBufferInfo ⟨.i010, width, height, planes⟩ bufferType =
      env.cvtI010 info (bufferType.getD .i010) false := by
    unfold Env.toVideoBufferInfo
    rw [hdescribe]
    show env.cvt info _ _ = _
    unfold Env.cvt
    rw [htype]
    rfl
  show Converted.Holds _ (env.toVideoBufferInfo _ _) ↔ _
  rw [hconvert, cvtI010_holds_iff htype hcomponents hvalid]
  constructor
  · intro hunsupported
    refine ⟨fun hbad => (by cases hbad), fun hsupported => ?_⟩
    cases hunsupported.symm.trans hsupported
  · intro hgood
    rw [← Bool.not_eq_true]
    intro hsupported
    exact (hgood.2 hsupported).2.2.1 _ _ rfl rfl

end

/-- A buffer is converted as its description is. -/
theorem buffer_meets_iff (h : (Input.buffer b bufferType).Legal env) (hi010 : b.type ≠ .i010) :
    Meets env (.buffer b bufferType) ↔ (Input.buffer b bufferType).Good := by
  obtain ⟨hlegal, hsize, hfresh⟩ := h
  obtain ⟨info, hdescribe, hinfo, htype, hwidth, hheight, hplanes⟩ :=
    describe_legal hlegal hsize hfresh hi010
  have hmeets : Meets env (.buffer b bufferType) ↔
      Meets env (.described info (bufferType.getD b.type.proto) false) := by
    have hconvert : env.toVideoBufferInfo b bufferType =
        env.cvt info (bufferType.getD b.type.proto) false := by
      unfold Env.toVideoBufferInfo
      rw [hdescribe]
      rfl
    -- the description has the type, the size and the planes of the buffer
    have hpromised : Promised env (.buffer b bufferType) =
        Promised env (.described info (bufferType.getD b.type.proto) false) := by
      unfold Promised Input.srcType Input.planes Input.width Input.height
      simp only [htype, hwidth, hheight, hplanes]
      rfl
    show Converted.Holds _ (env.toVideoBufferInfo b bufferType) ↔ _
    rw [hconvert, hpromised]
    rfl
  rw [hmeets, described_meets_iff hinfo]
  unfold Input.Good Input.srcType Input.dstType Input.width Input.height
  simp only [htype, hwidth, hheight]
  constructor
  · rintro ⟨habgr, hgood⟩
    refine ⟨habgr, fun hsupported => ?_⟩
    obtain ⟨hi444, hnv12, -, hfits⟩ := hgood hsupported
    refine ⟨hi444, hnv12, ?_, hfits⟩
    intro b' type' hb'
    cases hb'
    exact hi010
  · rintro ⟨habgr, hgood⟩
    refine ⟨habgr, fun hsupported => ?_⟩
    obtain ⟨hi444, hnv12, -, hfits⟩ := hgood hsupported
    refine ⟨hi444, hnv12, ?_, hfits⟩
    intro b' type' hb'
    cases hb'

/-- A conversion is an error, or gives an allocation that has what its description describes (and
for the same type the rows of the source), except from ABGR, from I444 and from NV12 to itself, from
buffers with samples of two bytes and to pictures of `2 ^ 32` bytes or more. -/
theorem meets_iff (env : Env) (input : Input) (h : input.Legal env) :
    Meets env input ↔ input.Good := by
  cases input with
  | described info dstType flipY => exact described_meets_iff h
  | buffer b bufferType =>
    by_cases hi010 : b.type = .i010
    · obtain ⟨type, width, height, planes⟩ := b
      obtain rfl : type = .i010 := hi010
      exact i010_meets_iff h.1 h.2.1
    · exact buffer_meets_iff h hi010

/-- A black picture of 2x2 pixels, converted to RGBA. -/
theorem meets_iff_black :
    let env : Env := ⟨true, fun _ => 0, fun _ => 64, fun _ _ => 1, fun _ _ _ _ _ _ => 0⟩
    let input : Input := .buffer
      ⟨.i420, 2, 2, [⟨⟨0, [0, 0, 0, 0]⟩, 2⟩, ⟨⟨4, [0]⟩, 1⟩, ⟨⟨5, [0]⟩, 1⟩]⟩ (some .rgba)
    Meets env input ↔ input.Good := by
  apply meets_iff
  refine ⟨by decide, by decide, ?_⟩
  intro plane hmem len
  simp only [mem_cons, not_mem_nil, or_false] at hmem
  rcases hmem with rfl | rfl | rfl <;> exact .inl (Nat.le_of_ble_eq_true rfl)

/-- One pixel of I444, converted to itself: the third plane that is described is that of the
source. -/
theorem i444_describes_the_source :
    let env : Env := ⟨true, fun _ => 0, fun _ => 64, fun _ _ => 1, fun _ _ _ _ _ _ => 0⟩
    let input : Input := .buffer
      ⟨.i444, 1, 1, [⟨⟨0, [0]⟩, 1⟩, ⟨⟨1, [0]⟩, 1⟩, ⟨⟨2, [0]⟩, 1⟩]⟩ none
    input.Legal env ∧ ((input.convert env).map fun result => result.toOption.map fun (dst, info) =>
        (dst.addr, dst.bytes, info.components.map ComponentInfo.dataPtr)) =
      some (some (64, [0, 0, 0], [64, 65, 2])) ∧ ¬ Meets env input := by
  intro env input
  have hlegal : input.Legal env := by
    refine ⟨by decide, by decide, ?_⟩
    intro plane hmem len
    simp only [mem_cons, not_mem_nil, or_false] at hmem
    rcases hmem with rfl | rfl | rfl <;> exact .inl (Nat.le_of_ble_eq_true rfl)
  refine ⟨hlegal, by decide, ?_⟩
  rw [buffer_meets_iff hlegal (by decide)]
  intro hgood
  exact (hgood.2 rfl).1 ⟨rfl, rfl⟩

end LiveKit.Video
