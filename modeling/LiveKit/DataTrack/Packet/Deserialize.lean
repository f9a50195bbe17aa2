import LiveKit.DataTrack.Packet.Serialize

/-!
# Deserializing packets

`packet/deserialize.rs`. Every read goes through a `Buf` operation that panics when it runs
past the end, so the checks of the source are what keeps the result from being a panic.

`Packet.deserialize_serialize` is the round trip: a serialized packet is read back exactly,
header, extensions and payload.
-/

namespace LiveKit.DataTrack

open Header Extensions List Consts Buf BigEndian

inductive DeserializeError where
  | tooShort
  | headerOverrun
  | missingExtWords
  | unsupportedVersion (version : UInt8)
  | invalidHandle (e : HandleError)
  | malformedExt (tag : UInt8)
deriving DecidableEq

/-! ## Extensions -/

def UserTimestampExt.deserialize (raw : List.Vector UInt8 UserTimestampExt.LEN) :
    UserTimestampExt :=
  ⟨UInt64.ofNat (ofBe raw.toList)⟩

def E2eeExt.deserialize (raw : List.Vector UInt8 E2eeExt.LEN) : E2eeExt :=
  let keyIndex := raw.head
  let iv := raw.tail
  ⟨keyIndex, iv⟩

/-- The `deserialize_ext!` macro: the first `known` of the `len` bytes are the extension as
this version knows it, the others are skipped. -/
def deserializeExt {α : Type} (tag : UInt8) (known : ℕ) (deserialize : List.Vector UInt8 known → α)
    (len : ℕ) (raw : Bytes) : Fallible DeserializeError (α × Bytes) := do
  if raw.length < len then throw (.error (.malformedExt tag))
  let (buf, raw) ← copyToSlice known raw
  let extraBytes := len - known
  let raw ← if extraBytes > 0 then advance extraBytes raw else pure raw
  return (deserialize buf, raw)

/-- One iteration of the extension loop: the tag and the length byte are read before the
element is known to be padding. -/
def Extensions.deserializeElement (ext : Extensions) (raw : Bytes) :
    Fallible DeserializeError (Extensions × Bytes) := do
  let (tag, raw) ← getU8 raw
  let (len, raw) ← getU8 raw
  let len := len.toNat
  if tag = EXT_TAG_PADDING then
    return (ext, raw)
  else if tag = E2eeExt.TAG ∧ len ≥ E2eeExt.LEN then
    let (e2ee, raw) ← deserializeExt E2eeExt.TAG E2eeExt.LEN E2eeExt.deserialize len raw
    return ({ ext with e2ee := some e2ee }, raw)
  else if tag = UserTimestampExt.TAG ∧ len ≥ UserTimestampExt.LEN then
    let (userTimestamp, raw) ←
      deserializeExt UserTimestampExt.TAG UserTimestampExt.LEN UserTimestampExt.deserialize len raw
    return ({ ext with userTimestamp := some userTimestamp }, raw)
  else
    -- unknown or length-mismatched extension: skipped (forward compatible)
    if raw.length < len then throw (.error (.malformedExt tag))
    let raw ← advance len raw
    return (ext, raw)

/-- The loop over the extension block, which ends when fewer than two bytes remain. Every
iteration consumes at least two bytes, so `raw.length` iterations are more than enough. -/
def Extensions.deserializeLoop : ℕ → Extensions → Bytes → Fallible DeserializeError Extensions
  | 0, ext, _ => .ok ext
  | fuel + 1, ext, raw =>
    if raw.length ≥ 2 then do
      let (ext, raw) ← ext.deserializeElement raw
      Extensions.deserializeLoop fuel ext raw
    else .ok ext

def Extensions.deserialize (raw : Bytes) : Fallible DeserializeError Extensions :=
  Extensions.deserializeLoop raw.length Extensions.default raw

/-! ## Header and packet -/

/-- The frame marker in the first byte. -/
def FrameMarker.ofInitial (initial : UInt8) : FrameMarker :=
  let bits := initial >>> FRAME_MARKER_SHIFT &&& FRAME_MARKER_MASK
  if bits = FRAME_MARKER_START then .start
  else if bits = FRAME_MARKER_FINAL then .final
  else if bits = FRAME_MARKER_SINGLE then .single
  else .inter

/-- The extension block, when the flag announces one. -/
def Header.deserializeExt (extFlag : Bool) (raw : Bytes) :
    Fallible DeserializeError (Extensions × Bytes) :=
  if extFlag then do
    if raw.length < 2 then throw (.error .missingExtWords)
    let (extWords, raw) ← getU16 raw
    let extLen := 4 * (extWords.toNat + 1) - EXT_WORDS_INDICATOR_SIZE
    if extLen > raw.length then throw (.error .headerOverrun)
    let (extBlock, raw) ← copyToBytes extLen raw
    let extensions ← Extensions.deserialize extBlock
    return (extensions, raw)
  else return (Extensions.default, raw)

def Header.deserialize (raw : Bytes) : Fallible DeserializeError (Header × Bytes) := do
  if raw.length < BASE_HEADER_LEN then throw (.error .tooShort)
  let (initial, raw) ← getU8 raw
  let version := initial >>> VERSION_SHIFT &&& VERSION_MASK
  if version > SUPPORTED_VERSION then throw (.error (.unsupportedVersion version))
  let marker := FrameMarker.ofInitial initial
  let extFlag := decide ((initial >>> EXT_FLAG_SHIFT &&& EXT_FLAG_MASK) > 0)
  let raw ← advance 1 raw -- Reserved
  let (rawHandle, raw) ← getU16 raw
  let trackHandle ← (Handle.tryFromU16 rawHandle).mapError fun e => .error (.invalidHandle e)
  let (sequence, raw) ← getU16 raw
  let (frameNumber, raw) ← getU16 raw
  let (ticks, raw) ← getU32 raw
  let (extensions, raw) ← Header.deserializeExt extFlag raw
  return (⟨marker, trackHandle, sequence, frameNumber, ⟨ticks⟩, extensions⟩, raw)

def Packet.deserialize (raw : Bytes) : Fallible DeserializeError Packet := do
  let (header, raw) ← Header.deserialize raw
  let payloadLen := raw.length
  let (payload, _) ← copyToBytes payloadLen raw
  return ⟨header, payload⟩

/-! ## Reading back what the writer wrote -/

/-- Zero bytes are skipped to the end of the block. -/
theorem Extensions.deserializeLoop_padding (fuel : ℕ) (ext : Extensions) (k : ℕ) :
    deserializeLoop fuel ext (List.replicate k 0) = .ok ext := by
  induction fuel generalizing k with
  | zero => rfl
  | succ fuel ih =>
    unfold deserializeLoop
    rw [length_replicate]
    split
    · next hk =>
      obtain ⟨j, rfl⟩ : ∃ j, k = j + 2 := ⟨k - 2, by omega⟩
      -- the second zero is read as the length byte of the first
      have helem : ext.deserializeElement (List.replicate (j + 2) 0)
          = .ok (ext, List.replicate j 0) := rfl
      rw [helem, Fallible.ok_bind]
      exact ih j
    · rfl

/-- An extension of exactly the known length is read whole. -/
theorem deserializeExt_exact {α : Type} (tag : UInt8) {known : ℕ}
    (deserialize : List.Vector UInt8 known → α) (v : List.Vector UInt8 known) (rest : Bytes) :
    deserializeExt tag known deserialize known (v.toList ++ rest) = .ok (deserialize v, rest) := by
  have hlen : ¬ (v.toList ++ rest).length < known := by
    rw [length_append, List.Vector.toList_length]
    omega
  have hextra : ¬ known - known > 0 := by omega
  unfold deserializeExt
  simp only [if_neg hlen, Fallible.pure_eq_ok, copyToSlice_append, Fallible.ok_bind,
    if_neg hextra]

theorem E2eeExt.deserialize_body (e2ee : E2eeExt) : E2eeExt.deserialize e2ee.body = e2ee := rfl

theorem UserTimestampExt.deserialize_body (ts : UserTimestampExt) :
    UserTimestampExt.deserialize ts.body = ts := by
  show UserTimestampExt.mk (UInt64.ofNat (ofBe (toBe 8 ts.value.toNat))) = ts
  rw [ofBe_toBe_uint64]

theorem Extensions.deserializeElement_e2ee (ext : Extensions) (e2ee : E2eeExt) (rest : Bytes) :
    ext.deserializeElement (e2ee.bytes ++ rest) = .ok ({ ext with e2ee := some e2ee }, rest) := by
  have hlen : (UInt8.ofNat E2eeExt.LEN).toNat = E2eeExt.LEN := rfl
  unfold deserializeElement E2eeExt.bytes
  simp only [cons_append, getU8_cons, Fallible.ok_bind, hlen]
  rw [if_neg (by decide), if_pos (by decide), deserializeExt_exact, Fallible.ok_bind,
    E2eeExt.deserialize_body]
  rfl

theorem Extensions.deserializeElement_userTimestamp (ext : Extensions) (ts : UserTimestampExt)
    (rest : Bytes) :
    ext.deserializeElement (ts.bytes ++ rest)
      = .ok ({ ext with userTimestamp := some ts }, rest) := by
  have hlen : (UInt8.ofNat UserTimestampExt.LEN).toNat = UserTimestampExt.LEN := rfl
  unfold deserializeElement UserTimestampExt.bytes
  simp only [cons_append, getU8_cons, Fallible.ok_bind, hlen]
  rw [if_neg (by decide), if_neg (by decide), if_pos (by decide), deserializeExt_exact,
    Fallible.ok_bind, UserTimestampExt.deserialize_body]
  rfl

/-- One element at the front of the block costs one iteration. -/
theorem Extensions.deserializeLoop_of_element {fuel : ℕ} {ext ext' : Extensions}
    {raw rest : Bytes} (hlen : 2 ≤ raw.length) (h : ext.deserializeElement raw = .ok (ext', rest)) :
    deserializeLoop (fuel + 1) ext raw = deserializeLoop fuel ext' rest := by
  rw [deserializeLoop, if_pos hlen, h]
  rfl

theorem Extensions.deserializeLoop_e2ee (fuel : ℕ) (ext : Extensions) (e2ee : E2eeExt)
    (rest : Bytes) :
    deserializeLoop (fuel + 1) ext (e2ee.bytes ++ rest)
      = deserializeLoop fuel { ext with e2ee := some e2ee } rest :=
  deserializeLoop_of_element (by simp; omega)
    (deserializeElement_e2ee ext e2ee rest)

theorem Extensions.deserializeLoop_userTimestamp (fuel : ℕ) (ext : Extensions)
    (ts : UserTimestampExt) (rest : Bytes) :
    deserializeLoop (fuel + 1) ext (ts.bytes ++ rest)
      = deserializeLoop fuel { ext with userTimestamp := some ts } rest :=
  deserializeLoop_of_element (by simp; omega)
    (deserializeElement_userTimestamp ext ts rest)

/-- The elements followed by zero padding read back as the same extensions. -/
theorem Extensions.deserialize_bytes (ext : Extensions) (k : ℕ) :
    deserialize (ext.bytes ++ List.replicate k 0) = .ok ext := by
  obtain ⟨ts, e2ee⟩ := ext
  unfold deserialize
  -- at least two iterations are available as soon as there is an element
  have hfuel : ∀ raw : Bytes, 2 ≤ raw.length → ∃ fuel, raw.length = fuel + 1 + 1 :=
    fun raw h => ⟨raw.length - 2, by omega⟩
  rcases e2ee with _ | e2ee <;> rcases ts with _ | ts
  · exact deserializeLoop_padding _ _ k
  · obtain ⟨fuel, hfuel⟩ := hfuel (bytes ⟨some ts, none⟩ ++ List.replicate k 0)
      (by simp [bytes]; omega)
    rw [hfuel]
    exact (deserializeLoop_userTimestamp _ _ ts _).trans
      (deserializeLoop_padding _ _ k)
  · obtain ⟨fuel, hfuel⟩ := hfuel (bytes ⟨none, some e2ee⟩ ++ List.replicate k 0)
      (by simp [bytes]; omega)
    have happ : bytes ⟨none, some e2ee⟩ = e2ee.bytes := append_nil _
    rw [hfuel, happ, deserializeLoop_e2ee]
    exact deserializeLoop_padding _ _ k
  · obtain ⟨fuel, hfuel⟩ := hfuel (bytes ⟨some ts, some e2ee⟩ ++ List.replicate k 0)
      (by simp [bytes]; omega)
    have happ : bytes ⟨some ts, some e2ee⟩ = e2ee.bytes ++ ts.bytes := rfl
    rw [hfuel, happ, append_assoc, deserializeLoop_e2ee,
      deserializeLoop_userTimestamp]
    exact deserializeLoop_padding _ _ k

/-- The block that is announced is what is read as extensions. -/
theorem Header.deserializeExt_block (words : UInt16) {block : Bytes} (payload : Bytes)
    (hlen : block.length = 4 * (words.toNat + 1) - EXT_WORDS_INDICATOR_SIZE) :
    deserializeExt true (toBe 2 words.toNat ++ (block ++ payload))
      = Extensions.deserialize block >>= fun ext => .ok (ext, payload) := by
  have hshort : ¬ (toBe 2 words.toNat ++ (block ++ payload)).length < 2 := by
    rw [length_append, length_toBe]
    omega
  have hoverrun : ¬ 4 * (words.toNat + 1) - EXT_WORDS_INDICATOR_SIZE
      > (block ++ payload).length := by
    rw [← hlen, length_append]
    omega
  unfold deserializeExt
  rw [if_pos rfl]
  simp only [if_neg hshort, Fallible.pure_eq_ok]
  rw [getU16_toBe_append, Fallible.ok_bind]
  simp only [if_neg hoverrun]
  rw [copyToBytes_append hlen]
  rfl

/-- The extension block of a header reads back as its extensions. -/
theorem Header.deserializeExt_extBlock (h : Header) (rest : Bytes) :
    deserializeExt (h.metrics.extLen > 0) (h.extBlock ++ rest)
      = .ok (h.extensions, rest) := by
  by_cases hext : h.metrics.extLen > 0
  · obtain ⟨hwords, hpos, hle⟩ := h.metrics_words
    have hblock : h.extBlock = toBe 2 (UInt16.ofNat (h.metrics.extWords - 1)).toNat ++
        (h.extensions.bytes ++ List.replicate h.metrics.paddingLen 0) := if_pos hext
    have htoNat : (UInt16.ofNat (h.metrics.extWords - 1)).toNat = h.metrics.extWords - 1 := by
      rw [UInt16.toNat_ofNat']
      exact Nat.mod_eq_of_lt (by omega)
    -- the announced length is that of the elements with their padding
    have hlen : (h.extensions.bytes ++ List.replicate h.metrics.paddingLen 0).length
        = 4 * ((UInt16.ofNat (h.metrics.extWords - 1)).toNat + 1) - EXT_WORDS_INDICATOR_SIZE := by
      rw [length_append, Extensions.length_bytes, length_replicate, htoNat]
      show h.metrics.extLen + h.metrics.paddingLen = _
      omega
    rw [decide_eq_true hext, hblock, append_assoc, deserializeExt_block _ rest hlen,
      deserialize_bytes, Fallible.ok_bind]
  · have hzero : h.extensions.serializedLen = 0 := Nat.eq_zero_of_not_pos hext
    have hblock : h.extBlock = [] := if_neg hext
    rw [hblock, eq_default_of_serializedLen hzero]
    unfold deserializeExt
    rw [if_neg (by simpa using hext)]
    rfl

/-! ## The round trip -/

/-- The three fields packed into the first byte are recovered from it. -/
theorem FrameMarker.ofInitial_initial (marker : FrameMarker) (extFlag : Bool) :
    FrameMarker.ofInitial (marker.initial extFlag) = marker ∧
      decide ((marker.initial extFlag >>> EXT_FLAG_SHIFT &&& EXT_FLAG_MASK) > 0) = extFlag ∧
      ¬ (marker.initial extFlag >>> VERSION_SHIFT &&& VERSION_MASK) > SUPPORTED_VERSION := by
  cases marker <;> cases extFlag <;> decide

theorem Header.deserialize_bytes (h : Header) (rest : Bytes) :
    deserialize (h.bytes ++ rest) = .ok (h, rest) := by
  obtain ⟨hmarker, hflag, hversion⟩ :=
    h.marker.ofInitial_initial (decide (h.metrics.extLen > 0))
  have hlen : ¬ (h.bytes ++ rest).length < BASE_HEADER_LEN := by
    rw [bytes]
    simp only [cons_append, length_cons, length_append, length_toBe, BASE_HEADER_LEN]
    omega
  unfold deserialize
  simp only [if_neg hlen, Fallible.pure_eq_ok]
  rw [bytes]
  simp only [cons_append, append_assoc, getU8_cons, Fallible.ok_bind, if_neg hversion,
    advance_one_cons, getU16_toBe_append, getU32_toBe_append, Handle.tryFromU16_value]
  show (deserializeExt _ _ >>= _) = _
  rw [hflag, deserializeExt_extBlock, Fallible.ok_bind, hmarker]

/-- A serialized packet reads back as itself. -/
theorem Packet.deserialize_serialize (p : Packet) :
    ∃ raw, p.serialize = .ok raw ∧ Packet.deserialize raw = .ok p := by
  refine ⟨_, p.serialize_eq, ?_⟩
  unfold Packet.deserialize
  rw [Header.deserialize_bytes, Fallible.ok_bind]
  simp only [copyToBytes_length, Fallible.ok_bind, Fallible.pure_eq_ok]

end LiveKit.DataTrack
