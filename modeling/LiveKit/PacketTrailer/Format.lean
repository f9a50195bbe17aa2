import LiveKit.Lib.BigEndian
import LiveKit.Lib.ByteView

/-!
# The packet trailer

`AppendTrailer` and `ExtractTrailer` of `packet_trailer.cpp`. A trailer is a run of
tag-length-value elements, all of their bytes XORed with `0xFF`, followed by the envelope:
the length of the whole trailer (XORed too) and four magic bytes.

Every read of `extractTrailer` goes through `data[i]?`, so a result that is not `none` says
that all of them are inside the buffer.
-/

namespace LiveKit.PacketTrailer

open List BigEndian ByteView

/-- Magic bytes to identify packet trailers: "LKTS" (LiveKit TimeStamp). -/
def kPacketTrailerMagic : List UInt8 := [0x4C, 0x4B, 0x54, 0x53]

/-- Trailer envelope: `[trailer_len: 1B] [magic: 4B]`. -/
def kTrailerEnvelopeSize : ℕ := 5

def kTagTimestampUs : UInt8 := 0x01

def kTagFrameId : UInt8 := 0x02

def kTimestampTlvSize : ℕ := 10

def kFrameIdTlvSize : ℕ := 6

structure PacketTrailerMetadata where
  userTimestamp : UInt64
  frameId : UInt32
  ssrc : UInt32

/-! ## Appending -/

/-- The eight masked bytes of the timestamp, the highest first. -/
def timestampBytes (userTimestamp : UInt64) : List UInt8 :=
  (List.range 8).reverse.map fun i =>
    ((userTimestamp >>> UInt64.ofNat (i * 8) &&& 0xFF) ^^^ 0xFF).toUInt8

/-- The four masked bytes of the frame id, the highest first. -/
def frameIdBytes (frameId : UInt32) : List UInt8 :=
  (List.range 4).reverse.map fun i =>
    ((frameId >>> UInt32.ofNat (i * 8) &&& 0xFF) ^^^ 0xFF).toUInt8

/-- The length of the trailer, which omits an unset frame id. -/
def trailerLen (frameId : UInt32) : ℕ :=
  kTimestampTlvSize + (if frameId ≠ 0 then kFrameIdTlvSize else 0) + kTrailerEnvelopeSize

def appendTrailer (data : List UInt8) (userTimestamp : UInt64) (frameId : UInt32) : List UInt8 :=
  let timestampTlv := [kTagTimestampUs ^^^ 0xFF, 8 ^^^ 0xFF] ++ timestampBytes userTimestamp
  let frameIdTlv :=
    if frameId ≠ 0 then [kTagFrameId ^^^ 0xFF, 4 ^^^ 0xFF] ++ frameIdBytes frameId else []
  let envelope := [UInt8.ofNat (trailerLen frameId ^^^ 0xFF)] ++ kPacketTrailerMagic
  data ++ timestampTlv ++ frameIdTlv ++ envelope

/-! ## Extracting -/

/-- What the walk over the elements has found. -/
structure Walk where
  metadata : PacketTrailerMetadata
  foundAny : Bool

/-- One element: a known tag with its length is read, anything else is skipped. -/
def readElement (data : List UInt8) (val : ℕ) (tag len : UInt8) (walk : Walk) : Option Walk := do
  if tag = kTagTimestampUs ∧ len = 8 then
    let bytes ← readBytes data val 8
    let ts := bytes.foldl (fun (ts : UInt64) b => ts <<< 8 ||| (b ^^^ 0xFF).toUInt64) 0
    return { metadata := { walk.metadata with userTimestamp := ts }, foundAny := true }
  else if tag = kTagFrameId ∧ len = 4 then
    let bytes ← readBytes data val 4
    let fid := bytes.foldl (fun (fid : UInt32) b => fid <<< 8 ||| (b ^^^ 0xFF).toUInt32) 0
    return { metadata := { walk.metadata with frameId := fid }, foundAny := true }
  else
    return walk

/-- The walk over the region of `tlvRegionLen` bytes from `trailerStart`, at position `pos`. -/
def walkElements (data : List UInt8) (trailerStart tlvRegionLen pos : ℕ) (walk : Walk) :
    Option Walk :=
  if pos + 2 ≤ tlvRegionLen then do
    let tag := (← data[trailerStart + pos]?) ^^^ 0xFF
    let len := (← data[trailerStart + pos + 1]?) ^^^ 0xFF
    if pos + 2 + len.toNat > tlvRegionLen then
      return walk
    else do
      let walk ← readElement data (trailerStart + (pos + 2)) tag len walk
      walkElements data trailerStart tlvRegionLen (pos + 2 + len.toNat) walk
  else
    return walk
termination_by tlvRegionLen - pos

/-- The metadata of the trailer, if there is one, and the data without the trailer. The outer
`none` is a read outside of the buffer. -/
def extractTrailer (data : List UInt8) :
    Option (Option PacketTrailerMetadata × List UInt8) := do
  if data.length < kTrailerEnvelopeSize then
    return (none, data)
  let magic ← readBytes data (data.length - 4) 4
  if magic ≠ kPacketTrailerMagic then
    return (none, data)
  let trailerLen := ((← data[data.length - 5]?) ^^^ 0xFF).toNat
  if trailerLen < kTrailerEnvelopeSize ∨ trailerLen > data.length then
    return (none, data)
  let trailerStart := data.length - trailerLen
  let tlvRegionLen := trailerLen - kTrailerEnvelopeSize
  let walk ← walkElements data trailerStart tlvRegionLen 0 ⟨⟨0, 0, 0⟩, false⟩
  let outData := data.take (data.length - trailerLen)
  if ¬ walk.foundAny then
    return (none, outData)
  return (some walk.metadata, outData)

/-! ## The masked bytes -/

@[simp] theorem unmask (b : UInt8) : b ^^^ 0xFF ^^^ 0xFF = b := by
  rw [UInt8.xor_assoc, UInt8.xor_self, UInt8.xor_zero]

theorem timestampBytes_eq (userTimestamp : UInt64) :
    timestampBytes userTimestamp = (toBe 8 userTimestamp.toNat).map (· ^^^ 0xFF) := by
  rw [timestampBytes, toBe_eq_map, map_map]
  apply map_congr_left
  intro i hi
  have hlt : i < 8 := mem_range.mp (mem_reverse.mp hi)
  have hlow : (0xFF : UInt64).toUInt8 = -1 := rfl
  rw [UInt64.toUInt8_xor, UInt64.toUInt8_and, hlow, UInt8.and_neg_one,
    toUInt8_shiftRight_uint64 _ (by omega)]
  rfl

theorem frameIdBytes_eq (frameId : UInt32) :
    frameIdBytes frameId = (toBe 4 frameId.toNat).map (· ^^^ 0xFF) := by
  rw [frameIdBytes, toBe_eq_map, map_map]
  apply map_congr_left
  intro i hi
  have hlt : i < 4 := mem_range.mp (mem_reverse.mp hi)
  have hlow : (0xFF : UInt32).toUInt8 = -1 := rfl
  rw [UInt32.toUInt8_xor, UInt32.toUInt8_and, hlow, UInt8.and_neg_one,
    toUInt8_shiftRight_uint32 _ (by omega)]
  rfl

theorem length_timestampBytes (userTimestamp : UInt64) :
    (timestampBytes userTimestamp).length = 8 := by
  rw [timestampBytes_eq, length_map, length_toBe]

theorem length_frameIdBytes (frameId : UInt32) : (frameIdBytes frameId).length = 4 := by
  rw [frameIdBytes_eq, length_map, length_toBe]

/-- The timestamp is read back from its masked bytes. -/
theorem foldl_timestampBytes (userTimestamp : UInt64) :
    (timestampBytes userTimestamp).foldl
      (fun (ts : UInt64) b => ts <<< 8 ||| (b ^^^ 0xFF).toUInt64) 0 = userTimestamp := by
  rw [timestampBytes_eq, foldl_map]
  simp only [unmask]
  rw [foldl_uint64, ofBe_toBe_uint64]

/-- The frame id is read back from its masked bytes. -/
theorem foldl_frameIdBytes (frameId : UInt32) :
    (frameIdBytes frameId).foldl
      (fun (fid : UInt32) b => fid <<< 8 ||| (b ^^^ 0xFF).toUInt32) 0 = frameId := by
  rw [frameIdBytes_eq, foldl_map]
  simp only [unmask]
  rw [foldl_uint32, ofBe_toBe_uint32]

/-! ## The walk -/

variable {data post pre : List UInt8} {pos tlvRegionLen trailerStart : ℕ}

/-- An element that lies in the region is read, and the walk goes on behind it. -/
theorem walkElements_cons {val : List UInt8} {tag len : UInt8} (walk : Walk)
    (hdata : data = pre ++ ([tag ^^^ 0xFF, len ^^^ 0xFF] ++ val) ++ post)
    (hpre : pre.length = trailerStart + pos) (hval : val.length = len.toNat)
    (hfits : pos + (2 + val.length) ≤ tlvRegionLen) :
    walkElements data trailerStart tlvRegionLen pos walk =
      (readElement data (trailerStart + (pos + 2)) tag len walk).bind
        (walkElements data trailerStart tlvRegionLen (pos + (2 + val.length))) := by
  have htag : data[trailerStart + pos]? = some (tag ^^^ 0xFF) := by
    apply getElem?_segment pre ((len ^^^ 0xFF) :: val ++ post) _ hpre.symm
    rw [hdata, append_assoc]
    rfl
  have hlen : data[trailerStart + pos + 1]? = some (len ^^^ 0xFF) := by
    apply getElem?_segment (pre ++ [tag ^^^ 0xFF]) (val ++ post)
    · simp only [hdata, append_assoc, cons_append, nil_append]
    · rw [length_append, hpre]
      rfl
  have hend : pos + 2 + len.toNat = pos + (2 + val.length) := by omega
  rw [walkElements, if_pos (by omega), htag, hlen]
  show (if pos + 2 + (len ^^^ 0xFF ^^^ 0xFF).toNat > tlvRegionLen then _ else _) = _
  rw [unmask, unmask, if_neg (by omega), hend]
  rfl

/-- The walk ends where fewer than two bytes of the region are left. -/
theorem walkElements_end (data : List UInt8) (walk : Walk) (h : tlvRegionLen < pos + 2) :
    walkElements data trailerStart tlvRegionLen pos walk = some walk := by
  rw [walkElements, if_neg (by omega)]
  rfl

theorem readElement_timestamp {i : ℕ} (userTimestamp : UInt64) (walk : Walk)
    (hdata : data = pre ++ timestampBytes userTimestamp ++ post) (hi : i = pre.length) :
    readElement data i kTagTimestampUs 8 walk =
      some ⟨{ walk.metadata with userTimestamp }, true⟩ := by
  have hread : readBytes data i 8 = some (timestampBytes userTimestamp) :=
    readBytes_segment pre post hdata hi (length_timestampBytes userTimestamp).symm
  rw [readElement, if_pos ⟨rfl, rfl⟩, hread]
  show some _ = _
  rw [foldl_timestampBytes]

theorem readElement_frameId {i : ℕ} (frameId : UInt32) (walk : Walk)
    (hdata : data = pre ++ frameIdBytes frameId ++ post) (hi : i = pre.length) :
    readElement data i kTagFrameId 4 walk = some ⟨{ walk.metadata with frameId }, true⟩ := by
  have hread : readBytes data i 4 = some (frameIdBytes frameId) :=
    readBytes_segment pre post hdata hi (length_frameIdBytes frameId).symm
  rw [readElement, if_neg (by decide), if_pos ⟨rfl, rfl⟩, hread]
  show some _ = _
  rw [foldl_frameIdBytes]

/-! ## Round trip -/

/-- A buffer that ends in an envelope is walked up to the envelope. -/
theorem extractTrailer_envelope {payload region : List UInt8} {len : ℕ}
    (hdata : data = payload ++ region ++ ([UInt8.ofNat (len ^^^ 0xFF)] ++ kPacketTrailerMagic))
    (hlen : len = region.length + kTrailerEnvelopeSize) (hbyte : len < 256) :
    extractTrailer data =
      (walkElements data payload.length region.length 0 ⟨⟨0, 0, 0⟩, false⟩).bind fun walk =>
        some (if walk.foundAny then some walk.metadata else none, payload) := by
  have hsize : data.length = payload.length + region.length + 5 := by
    rw [hdata, length_append, length_append]
    rfl
  have hmagic : readBytes data (data.length - 4) 4 = some kPacketTrailerMagic := by
    apply readBytes_segment (payload ++ region ++ [UInt8.ofNat (len ^^^ 0xFF)]) []
    · rw [hdata, append_nil, append_assoc _ [_]]
    · rw [hsize, length_append, length_append]
      rfl
    · rfl
  have hread : data[data.length - 5]? = some (UInt8.ofNat (len ^^^ 0xFF)) := by
    apply getElem?_segment (payload ++ region) kPacketTrailerMagic
    · rw [hdata]
      rfl
    · rw [hsize, length_append, Nat.add_sub_cancel]
  have hvalue : (UInt8.ofNat (len ^^^ 0xFF) ^^^ 0xFF).toNat = len := by
    rw [UInt8.ofNat_xor]
    show (UInt8.ofNat len ^^^ 0xFF ^^^ 0xFF).toNat = len
    rw [unmask, UInt8.toNat_ofNat', Nat.mod_eq_of_lt hbyte]
  have hstart : data.length - len = payload.length := by
    rw [hsize, hlen]
    show payload.length + region.length + 5 - (region.length + 5) = _
    omega
  have hout : data.take payload.length = payload := by
    rw [hdata, append_assoc, take_left]
  unfold extractTrailer
  rw [if_neg (by rw [hsize, kTrailerEnvelopeSize]; omega), hmagic, hread]
  simp only [bind, pure, Option.bind_some, ne_eq, not_true_eq_false, if_false, hvalue, hstart]
  rw [if_neg (by rw [hlen, hsize, kTrailerEnvelopeSize]; omega), hlen, Nat.add_sub_cancel, hout]
  congr 1
  funext walk
  cases walk.foundAny <;> rfl

/-- The walk over the timestamp element. -/
theorem walkElements_timestamp (userTimestamp : UInt64) (walk : Walk)
    (hdata : data = pre ++ ([kTagTimestampUs ^^^ 0xFF, 8 ^^^ 0xFF] ++
      timestampBytes userTimestamp) ++ post) (hpre : pre.length = trailerStart + pos)
    (hfits : pos + 10 ≤ tlvRegionLen) :
    walkElements data trailerStart tlvRegionLen pos walk =
      walkElements data trailerStart tlvRegionLen (pos + 10)
        ⟨{ walk.metadata with userTimestamp }, true⟩ := by
  have hlen := length_timestampBytes userTimestamp
  have hvalue : data = (pre ++ [kTagTimestampUs ^^^ 0xFF, 8 ^^^ 0xFF]) ++
      timestampBytes userTimestamp ++ post := by
    rw [hdata, ← append_assoc pre]
  have hat : trailerStart + (pos + 2) = (pre ++ [kTagTimestampUs ^^^ 0xFF, 8 ^^^ 0xFF]).length := by
    rw [length_append, hpre]
    rfl
  rw [walkElements_cons walk hdata hpre hlen (by omega),
    readElement_timestamp userTimestamp walk hvalue hat, hlen]
  rfl

/-- The walk over the frame id element. -/
theorem walkElements_frameId (frameId : UInt32) (walk : Walk)
    (hdata : data = pre ++ ([kTagFrameId ^^^ 0xFF, 4 ^^^ 0xFF] ++ frameIdBytes frameId) ++ post)
    (hpre : pre.length = trailerStart + pos) (hfits : pos + 6 ≤ tlvRegionLen) :
    walkElements data trailerStart tlvRegionLen pos walk =
      walkElements data trailerStart tlvRegionLen (pos + 6)
        ⟨{ walk.metadata with frameId }, true⟩ := by
  have hlen := length_frameIdBytes frameId
  have hvalue : data = (pre ++ [kTagFrameId ^^^ 0xFF, 4 ^^^ 0xFF]) ++
      frameIdBytes frameId ++ post := by
    rw [hdata, ← append_assoc pre]
  have hat : trailerStart + (pos + 2) = (pre ++ [kTagFrameId ^^^ 0xFF, 4 ^^^ 0xFF]).length := by
    rw [length_append, hpre]
    rfl
  rw [walkElements_cons walk hdata hpre hlen (by omega),
    readElement_frameId frameId walk hvalue hat, hlen]
  rfl

/-- What was appended is extracted again, whatever the payload ends in. -/
theorem extractTrailer_appendTrailer (payload : List UInt8) (userTimestamp : UInt64)
    (frameId : UInt32) :
    extractTrailer (appendTrailer payload userTimestamp frameId) =
      some (some ⟨userTimestamp, frameId, 0⟩, payload) := by
  have hlen := length_timestampBytes userTimestamp
  by_cases hid : frameId = 0
  · -- the region holds the timestamp alone
    subst hid
    have hdata : appendTrailer payload userTimestamp 0 =
        payload ++ ([kTagTimestampUs ^^^ 0xFF, 8 ^^^ 0xFF] ++ timestampBytes userTimestamp) ++
          ([UInt8.ofNat (15 ^^^ 0xFF)] ++ kPacketTrailerMagic) := by
      rw [appendTrailer]
      simp only [ne_eq, not_true_eq_false, if_false, append_nil]
      rfl
    have hregion : ([kTagTimestampUs ^^^ 0xFF, 8 ^^^ 0xFF] ++
        timestampBytes userTimestamp).length = 10 := by
      rw [length_append, hlen]
      rfl
    rw [extractTrailer_envelope hdata (by rw [hregion]; rfl) (by omega), hregion,
      walkElements_timestamp userTimestamp _ hdata rfl (by omega),
      walkElements_end _ _ (by omega)]
    rfl
  · have hdata : appendTrailer payload userTimestamp frameId =
        payload ++ (([kTagTimestampUs ^^^ 0xFF, 8 ^^^ 0xFF] ++ timestampBytes userTimestamp) ++
          ([kTagFrameId ^^^ 0xFF, 4 ^^^ 0xFF] ++ frameIdBytes frameId)) ++
          ([UInt8.ofNat (21 ^^^ 0xFF)] ++ kPacketTrailerMagic) := by
      rw [appendTrailer, trailerLen]
      simp only [ne_eq, hid, not_false_eq_true, if_true, append_assoc]
      rfl
    have hfirst : ([kTagTimestampUs ^^^ 0xFF, 8 ^^^ 0xFF] ++
        timestampBytes userTimestamp).length = 10 := by
      rw [length_append, hlen]
      rfl
    have hregion : (([kTagTimestampUs ^^^ 0xFF, 8 ^^^ 0xFF] ++ timestampBytes userTimestamp) ++
        ([kTagFrameId ^^^ 0xFF, 4 ^^^ 0xFF] ++ frameIdBytes frameId)).length = 16 := by
      rw [length_append, hfirst, length_append, length_frameIdBytes]
      rfl
    rw [extractTrailer_envelope hdata (by rw [hregion]; rfl) (by omega), hregion]
    -- the first element is followed by the second, the second by the envelope
    rw [← append_assoc payload, append_assoc (payload ++ _)] at hdata
    rw [walkElements_timestamp userTimestamp _ hdata rfl (by omega)]
    rw [← append_assoc] at hdata
    rw [walkElements_frameId frameId _ hdata (by rw [length_append, hfirst]) (by omega),
      walkElements_end _ _ (by omega)]
    rfl

/-! ## Safety -/

/-- An element inside the buffer is read. -/
theorem readElement_isSome (data : List UInt8) (val : ℕ) (tag len : UInt8) (walk : Walk)
    (h : val + len.toNat ≤ data.length) :
    ∃ walk', readElement data val tag len walk = some walk' := by
  unfold readElement
  by_cases hts : tag = kTagTimestampUs ∧ len = 8
  · have hlen : len.toNat = 8 := by rw [hts.2]; rfl
    rw [if_pos hts, readBytes_of_le _ (by omega)]
    exact ⟨_, rfl⟩
  · by_cases hfid : tag = kTagFrameId ∧ len = 4
    · have hlen : len.toNat = 4 := by rw [hfid.2]; rfl
      rw [if_neg hts, if_pos hfid, readBytes_of_le _ (by omega)]
      exact ⟨_, rfl⟩
    · rw [if_neg hts, if_neg hfid]
      exact ⟨_, rfl⟩

/-- The walk stays in its region, and so in the buffer. -/
theorem walkElements_isSome (data : List UInt8) (trailerStart tlvRegionLen pos : ℕ)
    (walk : Walk) (h : trailerStart + tlvRegionLen ≤ data.length) :
    ∃ walk', walkElements data trailerStart tlvRegionLen pos walk = some walk' := by
  -- the length byte moves the position on, by at least the two bytes that were read
  induction hn : tlvRegionLen - pos using Nat.strong_induction_on generalizing pos walk with
  | _ n ih =>
    subst hn
    by_cases hpos : pos + 2 ≤ tlvRegionLen
    · rw [walkElements, if_pos hpos, getElem?_eq_getElem (by omega),
        getElem?_eq_getElem (by omega)]
      simp only [bind, Option.bind_some]
      split
      · exact ⟨_, rfl⟩
      · rename_i hfits
        obtain ⟨walk', hwalk'⟩ := readElement_isSome data (trailerStart + (pos + 2))
          (data[trailerStart + pos] ^^^ 0xFF) (data[trailerStart + pos + 1] ^^^ 0xFF) walk
          (by omega)
        rw [hwalk', Option.bind_some]
        exact ih _ (by omega) _ walk' rfl
    · rw [walkElements_end _ _ (by omega)]
      exact ⟨_, rfl⟩

/-- The length of the trailer that the last bytes of a buffer announce. -/
def announcedLen (data : List UInt8) : Option ℕ :=
  data[data.length - 5]?.map fun b => (b ^^^ 0xFF).toNat

/-- Whatever the bytes are, all reads are inside the buffer, and the output is the input or the
input without the announced trailer. -/
theorem extractTrailer_safe (data : List UInt8) :
    ∃ metadata out, extractTrailer data = some (metadata, out) ∧
      (out = data ∨ ∃ tail, data = out ++ tail ∧ announcedLen data = some tail.length) := by
  unfold extractTrailer
  by_cases hsmall : data.length < kTrailerEnvelopeSize
  · rw [if_pos hsmall]
    exact ⟨_, _, rfl, .inl rfl⟩
  · have hsize : 5 ≤ data.length := Nat.le_of_not_lt hsmall
    rw [if_neg hsmall, readBytes_of_le _ (by omega)]
    simp only [bind, pure, Option.bind_some]
    split
    · exact ⟨_, _, rfl, .inl rfl⟩
    · have hlast : data.length - 5 < data.length := by omega
      rw [getElem?_eq_getElem hlast]
      simp only [Option.bind_some]
      split
      · exact ⟨_, _, rfl, .inl rfl⟩
      · rename_i hlen
        obtain ⟨hlow, hhigh⟩ := not_or.mp hlen
        rw [kTrailerEnvelopeSize] at hlow
        obtain ⟨walk, hwalk⟩ := walkElements_isSome data
          (data.length - (data[data.length - 5] ^^^ 0xFF).toNat)
          ((data[data.length - 5] ^^^ 0xFF).toNat - kTrailerEnvelopeSize) 0
          ⟨⟨0, 0, 0⟩, false⟩ (by rw [kTrailerEnvelopeSize]; omega)
        rw [hwalk, Option.bind_some]
        -- with or without metadata, the announced bytes are cut off
        have hcut : ∃ tail, data = data.take (data.length -
            (data[data.length - 5] ^^^ 0xFF).toNat) ++ tail ∧
            announcedLen data = some tail.length := by
          refine ⟨data.drop (data.length - (data[data.length - 5] ^^^ 0xFF).toNat),
            (take_append_drop _ _).symm, ?_⟩
          rw [announcedLen, getElem?_eq_getElem hlast, length_drop,
            Nat.sub_sub_self (Nat.le_of_not_gt hhigh)]
          rfl
        split
        · exact ⟨_, _, rfl, .inr hcut⟩
        · exact ⟨_, _, rfl, .inr hcut⟩

end LiveKit.PacketTrailer
