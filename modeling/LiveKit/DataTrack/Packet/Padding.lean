import LiveKit.DataTrack.Packet.Deserialize

/-!
# Padding in the extension block

The format allows zero bytes before or after any extension. The loop of the reader takes a tag
and a length byte before it looks at the tag, so it takes padding bytes in pairs: behind a run of
odd length the tag of an extension is taken as the second byte of a pair.

`Block` is an extension block as the format specifies it. `Block.transparent_iff` says which of
them are read as if the padding were all at the end.
-/

namespace LiveKit.DataTrack

open Extensions List Consts Buf BigEndian

/-! ## The extension block of the format -/

/-- An extension: a tag that is not padding, and a body whose length fits the length byte. -/
structure Element where
  tag : UInt8
  body : Bytes
  tag_ne : tag ≠ EXT_TAG_PADDING
  body_lt : body.length < 256

def Element.bytes (e : Element) : Bytes := e.tag :: UInt8.ofNat e.body.length :: e.body

/-- What an extension adds: the last one counts, and one that is unknown or too short to be
known adds nothing. -/
def Extensions.extend (ext : Extensions) (tag : UInt8) (body : Bytes) : Extensions :=
  if h : tag = E2eeExt.TAG ∧ E2eeExt.LEN ≤ body.length then
    let e2ee := E2eeExt.deserialize ⟨body.take E2eeExt.LEN, by simp; omega⟩
    { ext with e2ee := some e2ee }
  else if h : tag = UserTimestampExt.TAG ∧ UserTimestampExt.LEN ≤ body.length then
    let ts := UserTimestampExt.deserialize ⟨body.take UserTimestampExt.LEN, by simp; omega⟩
    { ext with userTimestamp := some ts }
  else ext

/-- Extensions, each with the number of padding bytes in front of it. -/
abbrev Items := List (ℕ × Element)

namespace Items

def bytes (items : Items) : Bytes :=
  items.flatMap fun (pad, e) => List.replicate pad 0 ++ e.bytes

def extensions (items : Items) (ext : Extensions) : Extensions :=
  items.foldl (fun ext (_, e) => ext.extend e.tag e.body) ext

/-- The number of padding bytes in front of each extension and the length of its body. -/
def layout (items : Items) : List (ℕ × ℕ) := items.map fun (pad, e) => (pad, e.body.length)

/-- The same extensions without padding. -/
def strip (items : Items) : Items := items.map fun (_, e) => (0, e)

def padding (items : Items) : ℕ := (items.map Prod.fst).sum

end Items

/-- An extension block of the announced number of words. -/
structure Block where
  items : Items
  /-- The padding after the last extension. -/
  tail : ℕ
  words : UInt16
  fits : (items.bytes ++ List.replicate tail 0).length
    = 4 * (words.toNat + 1) - EXT_WORDS_INDICATOR_SIZE

/-- The base header of a packet with extensions, as it is on the wire. -/
structure BaseHeader where
  initial : UInt8
  reserved : UInt8
  trackHandle : Handle
  sequence : UInt16
  frameNumber : UInt16
  ticks : UInt32
  supported : ¬ initial >>> VERSION_SHIFT &&& VERSION_MASK > SUPPORTED_VERSION
  extFlag : (initial >>> EXT_FLAG_SHIFT &&& EXT_FLAG_MASK) > 0

namespace BaseHeader

def bytes (base : BaseHeader) : Bytes :=
  base.initial :: base.reserved :: (toBe 2 base.trackHandle.value.toNat
    ++ (toBe 2 base.sequence.toNat ++ (toBe 2 base.frameNumber.toNat ++ toBe 4 base.ticks.toNat)))

def header (base : BaseHeader) (ext : Extensions) : Header :=
  ⟨FrameMarker.ofInitial base.initial, base.trackHandle, base.sequence, base.frameNumber,
    ⟨base.ticks⟩, ext⟩

end BaseHeader

namespace Block

def bytes (b : Block) : Bytes := b.items.bytes ++ List.replicate b.tail 0

def packet (b : Block) (base : BaseHeader) (payload : Bytes) : Bytes :=
  base.bytes ++ (toBe 2 b.words.toNat ++ (b.bytes ++ payload))

end Block

/-! ## One extension -/

/-- What the macro does with a body of at least the known length. -/
theorem deserializeExt_of_le {α : Type} (tag : UInt8) {known len : ℕ}
    (deserialize : List.Vector UInt8 known → α) (raw : Bytes) (hknown : known ≤ len)
    (hlen : len ≤ raw.length) :
    deserializeExt tag known deserialize len raw
      = .ok (deserialize ⟨raw.take known, length_take_of_le (hknown.trans hlen)⟩,
        raw.drop len) := by
  have hshort : ¬ raw.length < len := by omega
  have hle : known ≤ raw.length := by omega
  have hsum : known + (len - known) = len := by omega
  unfold deserializeExt copyToSlice
  rw [if_neg hshort, dif_pos hle]
  show (if len - known > 0 then _ else _) = _
  by_cases hextra : len - known > 0
  · have hroom : ¬ (raw.drop known).length < len - known := by
      rw [length_drop]
      omega
    rw [if_pos hextra, advance, if_neg hroom, drop_drop, hsum]
    rfl
  · have heq : known = len := by omega
    rw [if_neg hextra]
    subst heq
    rfl

/-- An extension that is cut short is malformed. -/
theorem deserializeExt_of_lt {α : Type} (tag : UInt8) {known len : ℕ}
    (deserialize : List.Vector UInt8 known → α) (raw : Bytes) (hlen : raw.length < len) :
    deserializeExt tag known deserialize len raw = .error (.error (.malformedExt tag)) := by
  unfold deserializeExt
  rw [if_pos hlen]
  rfl

namespace Extensions

theorem extend_take (ext : Extensions) (tag : UInt8) {len : ℕ} (raw : Bytes)
    (hlen : len ≤ raw.length) :
    ext.extend tag (raw.take len)
      = if h : tag = E2eeExt.TAG ∧ E2eeExt.LEN ≤ len then
          let e2ee := E2eeExt.deserialize
            ⟨raw.take E2eeExt.LEN, length_take_of_le (h.2.trans hlen)⟩
          { ext with e2ee := some e2ee }
        else if h : tag = UserTimestampExt.TAG ∧ UserTimestampExt.LEN ≤ len then
          let ts := UserTimestampExt.deserialize
            ⟨raw.take UserTimestampExt.LEN, length_take_of_le (h.2.trans hlen)⟩
          { ext with userTimestamp := some ts }
        else ext := by
  have htake : (raw.take len).length = len := length_take_of_le hlen
  unfold extend
  simp only [htake]
  by_cases he2ee : tag = E2eeExt.TAG ∧ E2eeExt.LEN ≤ len
  · have hmin : (raw.take len).take E2eeExt.LEN = raw.take E2eeExt.LEN := by
      rw [take_take, Nat.min_eq_left he2ee.2]
    simp only [dif_pos he2ee, hmin]
  · rw [dif_neg he2ee, dif_neg he2ee]
    by_cases hts : tag = UserTimestampExt.TAG ∧ UserTimestampExt.LEN ≤ len
    · have hmin : (raw.take len).take UserTimestampExt.LEN = raw.take UserTimestampExt.LEN := by
        rw [take_take, Nat.min_eq_left hts.2]
      simp only [dif_pos hts, hmin]
    · rw [dif_neg hts, dif_neg hts]

/-- One iteration of the loop: a pair that starts with zero is padding, anything else is an
extension that must be all there. -/
theorem deserializeElement_cons (ext : Extensions) (tag len : UInt8) (raw : Bytes) :
    ext.deserializeElement (tag :: len :: raw)
      = if tag = EXT_TAG_PADDING then .ok (ext, raw)
        else if raw.length < len.toNat then .error (.error (.malformedExt tag))
        else .ok (ext.extend tag (raw.take len.toNat), raw.drop len.toNat) := by
  unfold deserializeElement
  simp only [getU8_cons, Fallible.ok_bind]
  by_cases hpad : tag = EXT_TAG_PADDING
  · rw [if_pos hpad, if_pos hpad]
    rfl
  · rw [if_neg hpad, if_neg hpad]
    by_cases hshort : raw.length < len.toNat
    · rw [if_pos hshort]
      split_ifs with he2ee hts
      · rw [deserializeExt_of_lt _ _ raw hshort, he2ee.1]
        rfl
      · rw [deserializeExt_of_lt _ _ raw hshort, hts.1]
        rfl
      · rfl
    · have hlen : len.toNat ≤ raw.length := by omega
      rw [if_neg hshort, extend_take ext tag raw hlen]
      split_ifs with he2ee hts
      · rw [deserializeExt_of_le _ _ raw he2ee.2 hlen]
        rfl
      · rw [deserializeExt_of_le _ _ raw hts.2 hlen]
        rfl
      · rw [advance, if_neg hshort]
        rfl

/-! ## Reading a block -/

/-- The loop consumes at least two bytes in an iteration, so more iterations than bytes do not
matter. -/
theorem deserializeLoop_fuel {n m : ℕ} (ext : Extensions) (raw : Bytes) (hn : raw.length ≤ n)
    (hm : raw.length ≤ m) : deserializeLoop n ext raw = deserializeLoop m ext raw := by
  induction n generalizing m ext raw with
  | zero =>
    have hnil : raw = [] := length_eq_zero_iff.mp (by omega)
    rw [hnil]
    cases m <;> rfl
  | succ n ih =>
    rcases m with _ | m
    · have hnil : raw = [] := length_eq_zero_iff.mp (by omega)
      rw [hnil]
      rfl
    · unfold deserializeLoop
      by_cases htwo : raw.length ≥ 2
      · obtain ⟨tag, len, raw, rfl⟩ : ∃ a b l, raw = a :: b :: l := by
          rcases raw with _ | ⟨a, _ | ⟨b, l⟩⟩
          · cases htwo
          · cases htwo with
            | step hbad => cases hbad
          · exact ⟨a, b, l, rfl⟩
        rw [length_cons, length_cons] at hn hm
        rw [if_pos htwo, if_pos htwo, deserializeElement_cons]
        split_ifs with hpad hshort
        · exact ih ext raw (by omega) (by omega)
        · rfl
        · have hdrop : (raw.drop len.toNat).length ≤ raw.length := by
            rw [length_drop]
            omega
          exact ih _ _ (by omega) (by omega)
      · rw [if_neg htwo, if_neg htwo]

/-- The extensions after the rest of a block has been read. -/
def read (ext : Extensions) (raw : Bytes) : Fallible DeserializeError Extensions :=
  deserializeLoop raw.length ext raw

theorem read_short (ext : Extensions) {raw : Bytes} (h : raw.length < 2) :
    ext.read raw = .ok ext := by
  unfold read
  cases raw.length with
  | zero => rfl
  | succ n =>
    unfold deserializeLoop
    rw [if_neg (by omega)]

/-- What is read first: padding, an extension that is cut short, or a whole one. -/
theorem read_cons (ext : Extensions) (tag len : UInt8) (raw : Bytes) :
    ext.read (tag :: len :: raw)
      = if tag = EXT_TAG_PADDING then ext.read raw
        else if raw.length < len.toNat then .error (.error (.malformedExt tag))
        else (ext.extend tag (raw.take len.toNat)).read (raw.drop len.toNat) := by
  have htwo : (tag :: len :: raw).length ≥ 2 := by simp
  show deserializeLoop (raw.length + 1 + 1) ext (tag :: len :: raw) = _
  unfold deserializeLoop read
  rw [if_pos htwo, deserializeElement_cons]
  split_ifs with hpad hshort
  · exact deserializeLoop_fuel ext raw (by omega) (by omega)
  · rfl
  · have hdrop : (raw.drop len.toNat).length ≤ raw.length := by
      rw [length_drop]
      omega
    exact deserializeLoop_fuel _ _ (by omega) (by omega)

/-- A padding byte takes the byte after it along. -/
theorem read_pair (ext : Extensions) (b : UInt8) (raw : Bytes) :
    ext.read (0 :: b :: raw) = ext.read raw := by
  rw [read_cons]
  exact if_pos rfl

/-- Padding is consumed in pairs. -/
theorem read_padding (ext : Extensions) (pad : ℕ) (raw : Bytes) :
    ext.read (List.replicate pad 0 ++ raw)
      = ext.read (if pad % 2 = 0 then raw else 0 :: raw) := by
  induction pad using Nat.strongRecOn with
  | ind pad ih =>
    rcases pad with _ | _ | pad
    · rfl
    · rfl
    · have hmod : (pad + 1 + 1) % 2 = pad % 2 := by omega
      rw [hmod, ← ih pad (by omega)]
      exact read_pair ext 0 _

/-- An extension without padding before it is read as written. -/
theorem read_element (ext : Extensions) (e : Element) (raw : Bytes) :
    ext.read (e.bytes ++ raw) = (ext.extend e.tag e.body).read raw := by
  have hlen : (UInt8.ofNat e.body.length).toNat = e.body.length := by
    rw [UInt8.toNat_ofNat']
    exact Nat.mod_eq_of_lt e.body_lt
  have henough : ¬ (e.body ++ raw).length < e.body.length := by
    rw [length_append]
    omega
  show ext.read (e.tag :: UInt8.ofNat e.body.length :: (e.body ++ raw)) = _
  rw [read_cons, if_neg e.tag_ne, hlen, if_neg henough, take_left, drop_left]

/-- Whatever else is read, an extension that has been read does not go away. -/
theorem read_ne_default {ext : Extensions} (h : ext ≠ default) (raw : Bytes) :
    ext.read raw ≠ .ok default := by
  generalize hn : raw.length = n
  induction n using Nat.strongRecOn generalizing ext raw with
  | ind n ih =>
    rcases raw with _ | ⟨tag, _ | ⟨len, raw⟩⟩
    · rw [read_short ext (by simp)]
      simpa using h
    · rw [read_short ext (by simp)]
      simpa using h
    · rw [length_cons, length_cons] at hn
      rw [read_cons]
      split_ifs with hpad hshort
      · exact ih _ (by omega) h raw rfl
      · simp
      · have hdrop : (raw.drop len.toNat).length ≤ raw.length := by
          rw [length_drop]
          omega
        refine ih _ (by omega) ?_ _ rfl
        unfold extend default
        split_ifs
        · simp
        · simp
        · exact h

/-- A tag of a known extension with a length that covers all of it: either it runs past the end,
or the extension is read. -/
theorem read_ne_default_of_known {tag len : UInt8} (raw : Bytes)
    (htag : tag = E2eeExt.TAG ∨ tag = UserTimestampExt.TAG) (hlen : 13 ≤ len.toNat) :
    default.read (tag :: len :: raw) ≠ .ok default := by
  have hpad : tag ≠ EXT_TAG_PADDING := by
    rcases htag with rfl | rfl <;> decide
  rw [read_cons, if_neg hpad]
  by_cases hshort : raw.length < len.toNat
  · rw [if_pos hshort]
    simp
  · rw [if_neg hshort]
    apply read_ne_default
    have hle : len.toNat ≤ raw.length := by omega
    rw [extend_take default tag raw hle]
    unfold E2eeExt.LEN UserTimestampExt.LEN default
    rcases htag with rfl | rfl
    · rw [dif_pos ⟨rfl, hlen⟩]
      simp
    · rw [dif_neg (fun hc => absurd hc.1 (by decide)), dif_pos ⟨rfl, by omega⟩]
      simp

theorem extend_nil (ext : Extensions) (tag : UInt8) : ext.extend tag [] = ext := by
  unfold extend
  rw [dif_neg (by simp [E2eeExt.LEN]), dif_neg (by simp [UserTimestampExt.LEN])]

end Extensions

/-! ## Layouts that are read as they were written -/

namespace Items

/-- The padding in front of every extension with a body has even length. The tag of an empty
extension behind an odd run is the second byte of a pair, and its length byte is one more byte
of padding; `carry` counts that byte. -/
def Aligned (carry : ℕ) : List (ℕ × ℕ) → Prop
  | [] => True
  | (pad, len) :: rest =>
    if (pad + carry) % 2 = 0 then Aligned 0 rest else len = 0 ∧ Aligned 1 rest

theorem bytes_cons (pad : ℕ) (e : Element) (items : Items) (rest : Bytes) :
    bytes ((pad, e) :: items) ++ rest
      = List.replicate pad 0 ++ (e.bytes ++ (items.bytes ++ rest)) := by
  unfold bytes
  rw [flatMap_cons]
  simp only [append_assoc]

/-- An aligned layout is read element by element. -/
theorem read_of_aligned {carry : ℕ} (items : Items) (tail : ℕ) (ext : Extensions)
    (h : Aligned carry items.layout) :
    ext.read (List.replicate carry 0 ++ (items.bytes ++ List.replicate tail 0))
      = .ok (items.extensions ext) := by
  induction items generalizing carry ext with
  | nil =>
    show ext.read (List.replicate carry 0 ++ List.replicate tail 0) = .ok ext
    rw [← replicate_add, ← append_nil (List.replicate _ _), read_padding]
    split_ifs
    · exact read_short ext (by simp)
    · exact read_short ext (by simp)
  | cons item items ih =>
    obtain ⟨pad, e⟩ := item
    have hcarry : List.replicate carry 0 ++ (bytes ((pad, e) :: items) ++ List.replicate tail 0)
        = List.replicate (pad + carry) 0
          ++ (e.bytes ++ (bytes items ++ List.replicate tail 0)) := by
      rw [bytes_cons, ← append_assoc, ← replicate_add, Nat.add_comm]
    rw [hcarry, read_padding]
    show _ = Except.ok (extensions items (ext.extend e.tag e.body))
    by_cases heven : (pad + carry) % 2 = 0
    · have hrest : Aligned 0 (layout items) := by
        have h' : if (pad + carry) % 2 = 0 then Aligned 0 (layout items)
          else e.body.length = 0 ∧ Aligned 1 (layout items) := h
        rwa [if_pos heven] at h'
      rw [if_pos heven, read_element]
      exact ih _ hrest
    · have h' : if (pad + carry) % 2 = 0 then Aligned 0 (layout items)
        else e.body.length = 0 ∧ Aligned 1 (layout items) := h
      rw [if_neg heven] at h'
      obtain ⟨hempty, hrest⟩ := h'
      have hnil : e.body = [] := length_eq_zero_iff.mp hempty
      rw [if_neg heven, Element.bytes, hnil, extend_nil]
      -- the tag goes with the last byte of padding, the length byte becomes padding
      show ext.read (0 :: e.tag :: 0 :: (bytes items ++ List.replicate tail 0)) = _
      rw [read_pair]
      exact ih ext hrest

/-! ## Layouts that are not -/

/-- An extension that no reader knows. -/
def unknown (body : Bytes) (h : body.length < 256) : Element := ⟨3, body, by decide, h⟩

/-- An unknown extension is passed over. -/
theorem extend_unknown (ext : Extensions) (body : Bytes) : ext.extend 3 body = ext := by
  unfold extend
  rw [dif_neg (fun hc => absurd hc.1 (by decide)), dif_neg (fun hc => absurd hc.1 (by decide))]

/-- A body that is read as a known extension when its length byte is taken as a tag. -/
def misread : ℕ → Bytes
  | 0 => []
  | 1 => [255]
  | 2 => [255, 0]
  | len + 3 => 0 :: 1 :: 255 :: List.replicate len 0

theorem length_misread : ∀ len, (misread len).length = len
  | 0 => rfl
  | 1 => rfl
  | 2 => rfl
  | len + 3 => by simp [misread]

/-- Behind an odd run of padding, the length byte and the body are read as a known extension. -/
theorem read_misread {len : ℕ} (hpos : 0 < len) (hlt : len < 256) (raw : Bytes) :
    Extensions.default.read (UInt8.ofNat len :: (misread len ++ raw)) ≠ .ok Extensions.default := by
  match len, hpos with
  | 1, _ => exact read_ne_default_of_known raw (.inl rfl) (by decide)
  | 2, _ => exact read_ne_default_of_known (0 :: raw) (.inr rfl) (by decide)
  | n + 3, _ =>
    have htoNat : (UInt8.ofNat (n + 3)).toNat = n + 3 := by
      rw [UInt8.toNat_ofNat']
      exact Nat.mod_eq_of_lt hlt
    have hne : UInt8.ofNat (n + 3) ≠ EXT_TAG_PADDING := by
      intro hc
      rw [hc] at htoNat
      have hzero : EXT_TAG_PADDING.toNat = 0 := rfl
      omega
    have hextend : Extensions.default.extend (UInt8.ofNat (n + 3)) [] = Extensions.default :=
      extend_nil _ _
    have hbytes : misread (n + 3) ++ raw = 0 :: 1 :: 255 :: (List.replicate n 0 ++ raw) := rfl
    -- the first pair is an unknown extension without a body
    rw [hbytes, read_cons, if_neg hne, if_neg (by simp), UInt8.toNat_zero,
      take_zero, drop_zero, hextend]
    exact read_ne_default_of_known _ (.inl rfl) (by decide)

/-- A layout that is not aligned has extensions that are misread. -/
theorem exists_misread {carry : ℕ} {runs : List (ℕ × ℕ)} (hlt : ∀ r ∈ runs, r.2 < 256)
    (h : ¬ Aligned carry runs) :
    ∃ items : Items, layout items = runs ∧ (∀ item ∈ items, item.2.tag = 3) ∧
      ∀ tail, Extensions.default.read
        (List.replicate carry 0 ++ (bytes items ++ List.replicate tail 0))
          ≠ .ok Extensions.default := by
  induction runs generalizing carry with
  | nil => exact absurd trivial h
  | cons run runs ih =>
    obtain ⟨pad, len⟩ := run
    have hlen : len < 256 := hlt _ (mem_cons_self ..)
    have hrest : ∀ r ∈ runs, r.2 < 256 := fun r hr => hlt r (mem_cons_of_mem _ hr)
    have hcarry : ∀ (e : Element) (items : Items) (tail : ℕ), List.replicate carry 0
        ++ (bytes ((pad, e) :: items) ++ List.replicate tail 0) = List.replicate (pad + carry) 0
          ++ (e.bytes ++ (bytes items ++ List.replicate tail 0)) := by
      intro e items tail
      rw [bytes_cons, ← append_assoc, ← replicate_add, Nat.add_comm]
    have h' : ¬ if (pad + carry) % 2 = 0 then Aligned 0 runs else len = 0 ∧ Aligned 1 runs := h
    by_cases heven : (pad + carry) % 2 = 0
    · rw [if_pos heven] at h'
      obtain ⟨items, hlayout, htag, hread⟩ := ih hrest h'
      let e := unknown (List.replicate len 0) (by simpa using hlen)
      refine ⟨(pad, e) :: items, ?_, ?_, ?_⟩
      · show (pad, (List.replicate len (0 : UInt8)).length) :: layout items = _
        rw [length_replicate, hlayout]
      · intro item hitem
        rcases mem_cons.mp hitem with rfl | hitem
        · rfl
        · exact htag item hitem
      · intro tail
        have hextend : Extensions.default.extend e.tag e.body = Extensions.default :=
          extend_unknown _ _
        rw [hcarry, read_padding, if_pos heven, read_element, hextend]
        exact hread tail
    · rw [if_neg heven] at h'
      by_cases hempty : len = 0
      · subst hempty
        obtain ⟨items, hlayout, htag, hread⟩ := ih hrest (fun hc => h' ⟨rfl, hc⟩)
        refine ⟨(pad, unknown [] (by decide)) :: items, ?_, ?_, ?_⟩
        · show (pad, 0) :: layout items = _
          rw [hlayout]
        · intro item hitem
          rcases mem_cons.mp hitem with rfl | hitem
          · rfl
          · exact htag item hitem
        · intro tail
          rw [hcarry, read_padding, if_neg heven]
          show Extensions.default.read (0 :: 3 :: 0 :: (bytes items ++ List.replicate tail 0)) ≠ _
          rw [read_pair]
          exact hread tail
      · let e := unknown (misread len) (by rwa [length_misread])
        let rest : Items := runs.attach.map fun r =>
          (r.1.1, unknown (List.replicate r.1.2 0) (by simpa using hrest r.1 r.2))
        refine ⟨(pad, e) :: rest, ?_, ?_, ?_⟩
        · show (pad, (misread len).length) :: layout rest = _
          have hlayout : layout rest = runs := by
            show (runs.attach.map _).map _ = runs
            rw [map_map]
            exact (map_congr_left (fun r _ => by simp [unknown])).trans
              (attach_map_subtype_val runs)
          rw [length_misread, hlayout]
        · intro item hitem
          rcases mem_cons.mp hitem with rfl | hitem
          · rfl
          · obtain ⟨r, -, rfl⟩ := mem_map.mp hitem
            rfl
        · intro tail
          rw [hcarry, read_padding, if_neg heven]
          show Extensions.default.read (0 :: 3 :: UInt8.ofNat (misread len).length ::
            (misread len ++ (bytes rest ++ List.replicate tail 0))) ≠ _
          rw [read_pair, length_misread]
          exact read_misread (Nat.pos_of_ne_zero hempty) hlen _

/-- Unknown extensions alone leave the known ones as they were. -/
theorem extensions_of_unknown (items : Items) (h : ∀ item ∈ items, item.2.tag = 3)
    (ext : Extensions) : extensions items ext = ext := by
  induction items with
  | nil => rfl
  | cons item items ih =>
    show extensions items (ext.extend item.2.tag item.2.body) = ext
    rw [h item (mem_cons_self ..), extend_unknown]
    exact ih fun item hitem => h item (mem_cons_of_mem _ hitem)

/-! ## Without the padding -/

theorem length_bytes (items : Items) :
    (bytes items).length = ((layout items).map fun r => r.1 + (2 + r.2)).sum := by
  induction items with
  | nil => rfl
  | cons item items ih =>
    obtain ⟨pad, e⟩ := item
    rw [← append_nil (bytes _), bytes_cons]
    simp only [append_nil, length_append, length_replicate, ih, layout,
      map_cons, sum_cons, Element.bytes, length_cons]
    omega

/-- Stripping the padding takes away just the padding. -/
theorem length_strip (items : Items) :
    (bytes (strip items)).length + padding items = (bytes items).length := by
  rw [length_bytes, length_bytes]
  induction items with
  | nil => rfl
  | cons item items ih =>
    simp only [strip, padding, layout, map_cons, map_map, sum_cons] at ih ⊢
    omega

/-- Stripping the padding keeps the extensions. -/
theorem extensions_strip (items : Items) (ext : Extensions) :
    extensions (strip items) ext = extensions items ext := by
  unfold extensions strip
  rw [foldl_map]

/-- Without padding everything is aligned. -/
theorem aligned_strip (items : Items) : Aligned 0 (layout (strip items)) := by
  induction items with
  | nil => exact trivial
  | cons item items ih =>
    show if (0 + 0) % 2 = 0 then Aligned 0 (layout (strip items)) else _
    rw [if_pos rfl]
    exact ih

end Items

/-! ## Packets -/

namespace Block

theorem length_bytes (b : Block) :
    b.bytes.length = 4 * (b.words.toNat + 1) - EXT_WORDS_INDICATOR_SIZE := b.fits

/-- What is read of a packet, apart from the extensions, does not depend on the block. -/
theorem deserialize_packet (b : Block) (base : BaseHeader) (payload : Bytes) :
    Packet.deserialize (b.packet base payload)
      = Extensions.default.read b.bytes >>= fun ext => .ok ⟨base.header ext, payload⟩ := by
  have hlen : ¬ (b.packet base payload).length < BASE_HEADER_LEN := by
    simp only [packet, BaseHeader.bytes, cons_append, length_cons, length_append,
      length_toBe, BASE_HEADER_LEN]
    omega
  have hflag : decide ((base.initial >>> EXT_FLAG_SHIFT &&& EXT_FLAG_MASK) > 0) = true :=
    decide_eq_true base.extFlag
  unfold Packet.deserialize Header.deserialize
  simp only [if_neg hlen, Fallible.pure_eq_ok]
  rw [packet, BaseHeader.bytes]
  simp only [cons_append, append_assoc, getU8_cons, Fallible.ok_bind,
    if_neg base.supported, advance_one_cons, getU16_toBe_append, getU32_toBe_append,
    Handle.tryFromU16_value]
  show ((Header.deserializeExt _ _ >>= _) >>= _) = _
  rw [hflag, Header.deserializeExt_block b.words payload b.length_bytes]
  show _ = deserialize b.bytes >>= _
  cases deserialize b.bytes with
  | error e => rfl
  | ok ext =>
    simp only [Fallible.ok_bind, copyToBytes_length]
    rfl

/-- The same extensions with all the padding behind them. -/
def strip (b : Block) : Block where
  items := b.items.strip
  tail := b.items.padding + b.tail
  words := b.words
  fits := by
    have hfits := b.fits
    have hstrip := b.items.length_strip
    rw [length_append, length_replicate] at hfits ⊢
    omega

/-- A packet with the block is read, with the extensions of the block, and as if the padding
were all at the end. -/
def Transparent (b : Block) : Prop :=
  ∀ (base : BaseHeader) (payload : Bytes),
    Packet.deserialize (b.packet base payload)
        = .ok ⟨base.header (b.items.extensions Extensions.default), payload⟩ ∧
      Packet.deserialize (b.packet base payload)
        = Packet.deserialize (b.strip.packet base payload)

/-- Blocks that differ in the tags and the bodies of their extensions only. -/
def SameLayout (b b' : Block) : Prop :=
  b'.items.layout = b.items.layout ∧ b'.tail = b.tail ∧ b'.words = b.words

/-- Padding that keeps the alignment does no harm. -/
theorem transparent_of_aligned {b : Block} (h : Items.Aligned 0 b.items.layout) :
    b.Transparent := by
  intro base payload
  have hread : Extensions.default.read b.bytes
      = .ok (b.items.extensions Extensions.default) :=
    Items.read_of_aligned b.items b.tail Extensions.default h
  have hstrip : Extensions.default.read b.strip.bytes
      = .ok (b.items.extensions Extensions.default) := by
    rw [← Items.extensions_strip]
    exact Items.read_of_aligned b.strip.items b.strip.tail Extensions.default
      b.items.aligned_strip
  rw [deserialize_packet, deserialize_packet, hread, hstrip]
  exact ⟨rfl, rfl⟩

/-- The first packet of a frame, with extensions. -/
def startHeader : BaseHeader :=
  ⟨0x14, 0, ⟨1, Handle.one_ne_zero⟩, 0, 0, 0, by decide, by decide⟩

/-- **Padding is transparent behind runs of even length only.** Whatever the tags and the bodies
of the extensions are, a packet is read as if the padding were all at the end, exactly when the
layout of the block is aligned. -/
theorem transparent_iff (b : Block) :
    (∀ b', b.SameLayout b' → b'.Transparent) ↔ Items.Aligned 0 b.items.layout := by
  constructor
  · intro h
    by_contra hodd
    have hlt : ∀ r ∈ b.items.layout, r.2 < 256 := by
      intro r hr
      obtain ⟨item, -, rfl⟩ := mem_map.mp hr
      exact item.2.body_lt
    obtain ⟨items, hlayout, htag, hread⟩ := Items.exists_misread hlt hodd
    have hfits : (items.bytes ++ List.replicate b.tail 0).length
        = 4 * (b.words.toNat + 1) - EXT_WORDS_INDICATOR_SIZE := by
      rw [← b.fits, length_append, length_append, Items.length_bytes,
        Items.length_bytes, hlayout]
    let b' : Block := ⟨items, b.tail, b.words, hfits⟩
    obtain ⟨hok, -⟩ := h b' ⟨hlayout, rfl, rfl⟩ startHeader []
    have hextensions : b'.items.extensions Extensions.default = Extensions.default :=
      Items.extensions_of_unknown items htag _
    rw [deserialize_packet, hextensions] at hok
    have hne : Extensions.default.read b'.bytes ≠ .ok Extensions.default := hread b.tail
    cases hres : Extensions.default.read b'.bytes with
    | error e =>
      rw [hres] at hok
      cases hok
    | ok ext =>
      rw [hres] at hok
      have hext : ext = Extensions.default := by
        injection hok with hpacket
        exact congrArg (fun p => p.header.extensions) hpacket
      rw [hres, hext] at hne
      exact hne rfl
  · intro h b' hsame
    apply transparent_of_aligned
    rw [hsame.1]
    exact h

/-- A user timestamp behind a single byte of padding. -/
def timestampBlock : Block where
  items := [(1, ⟨2, [0, 0, 0, 0, 0, 0, 0, 7], by decide, by decide⟩)]
  tail := 3
  words := 3
  fits := rfl

/-- The timestamp is lost. -/
theorem timestamp_skipped : ¬ ∀ b : Block, b.Transparent := by
  intro hall
  obtain ⟨-, heq⟩ := hall timestampBlock startHeader []
  exact absurd heq (by decide)

end Block

end LiveKit.DataTrack
