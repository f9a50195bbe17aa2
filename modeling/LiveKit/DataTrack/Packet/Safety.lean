import LiveKit.DataTrack.Packet.Padding

/-!
# Parsing bytes from the network

Whatever the bytes are, every read of the parser is within those that remain, so it never panics;
the loop over the extension block takes at least two bytes in each iteration; and the payload is
what follows the header, and the block if there is one.
-/

namespace LiveKit.DataTrack

open Header List Consts Buf BigEndian

/-! ## The extension block -/

namespace Extensions

theorem read_ne_panic (ext : Extensions) (raw : Bytes) : ext.read raw ≠ .error .panic := by
  generalize hn : raw.length = n
  induction n using Nat.strongRecOn generalizing ext raw with
  | _ n ih =>
    match raw with
    | [] =>
      rw [read_short ext (by decide)]
      exact nofun
    | [b] =>
      have hshort : [b].length < 2 := Nat.one_lt_two
      rw [read_short ext hshort]
      exact nofun
    | tag :: len :: raw =>
      rw [length_cons, length_cons] at hn
      have hdrop : (raw.drop len.toNat).length ≤ raw.length := by
        rw [length_drop]
        omega
      rw [read_cons]
      split_ifs with hpad hshort
      · exact ih raw.length (by omega) ext raw rfl
      · exact nofun
      · exact ih _ (by omega) _ _ rfl

/-- An iteration takes the tag and the length byte at least. -/
theorem deserializeElement_shorter {ext ext' : Extensions} {raw rest : Bytes}
    (h : ext.deserializeElement raw = .ok (ext', rest)) : rest.length + 2 ≤ raw.length := by
  match raw with
  | [] => cases h
  | [_] => cases h
  | tag :: len :: raw =>
    rw [deserializeElement_cons] at h
    rw [length_cons, length_cons]
    split_ifs at h with hpad hshort
    · cases h
      omega
    · cases h
      rw [length_drop]
      omega

/-- The loop of the source. -/
theorem read_loop (ext : Extensions) (raw : Bytes) :
    ext.read raw =
      if raw.length ≥ 2 then ext.deserializeElement raw >>= fun (ext, raw) => ext.read raw
      else .ok ext := by
  by_cases htwo : raw.length ≥ 2
  · match raw, htwo with
    | tag :: len :: raw, htwo =>
      rw [if_pos htwo, deserializeElement_cons, read_cons]
      split_ifs with hpad hshort
      · rfl
      · rfl
      · rfl
  · rw [if_neg htwo]
    exact read_short ext (Nat.lt_of_not_le htwo)

end Extensions

/-! ## The header -/

/-- The reads of an extension block that is announced. -/
theorem Header.deserializeExt_true (raw : Bytes) :
    deserializeExt true raw =
      if raw.length < 2 then .error (.error .missingExtWords)
      else
        let words := (UInt16.ofNat (ofBe (raw.take 2))).toNat
        let extLen := 4 * (words + 1) - EXT_WORDS_INDICATOR_SIZE
        if extLen > (raw.drop 2).length then .error (.error .headerOverrun)
        else Extensions.deserialize ((raw.drop 2).take extLen) >>= fun extensions =>
          .ok (extensions, (raw.drop 2).drop extLen) := by
  unfold deserializeExt
  rw [if_pos rfl]
  by_cases hshort : raw.length < 2
  · rw [if_pos hshort, if_pos hshort]
    rfl
  · rw [if_neg hshort, if_neg hshort]
    simp only [Fallible.pure_eq_ok]
    rw [getU16_of_le (Nat.not_lt.mp hshort), Fallible.ok_bind]
    dsimp only
    by_cases hoverrun : 4 * ((UInt16.ofNat (ofBe (raw.take 2))).toNat + 1)
        - EXT_WORDS_INDICATOR_SIZE > (raw.drop 2).length
    · rw [if_pos hoverrun, if_pos hoverrun]
      rfl
    · rw [if_neg hoverrun, if_neg hoverrun, copyToBytes_of_le (Nat.not_lt.mp hoverrun)]
      rfl

/-- The reads of a base header that is there. -/
theorem Header.deserialize_of_le (initial : UInt8) {raw : Bytes} (h : 11 ≤ raw.length) :
    deserialize (initial :: raw) =
      let version := initial >>> VERSION_SHIFT &&& VERSION_MASK
      let extFlag := decide ((initial >>> EXT_FLAG_SHIFT &&& EXT_FLAG_MASK) > 0)
      let word (i : ℕ) := UInt16.ofNat (ofBe ((raw.drop i).take 2))
      if version > SUPPORTED_VERSION then .error (.error (.unsupportedVersion version))
      else
        (Handle.tryFromU16 (word 1)).mapError (fun e => Fault.error (.invalidHandle e)) >>=
          fun trackHandle =>
            deserializeExt extFlag (raw.drop 11) >>= fun (extensions, rest) =>
              .ok (⟨FrameMarker.ofInitial initial, trackHandle, word 3, word 5,
                ⟨UInt32.ofNat (ofBe ((raw.drop 7).take 4))⟩, extensions⟩, rest) := by
  have hlen : ¬ (initial :: raw).length < BASE_HEADER_LEN := by
    rw [length_cons, BASE_HEADER_LEN]
    omega
  have hdrop : ∀ i, (raw.drop i).length = raw.length - i := fun i => length_drop
  unfold deserialize
  simp only [if_neg hlen, Fallible.pure_eq_ok, getU8_cons, Fallible.ok_bind]
  by_cases hversion : (initial >>> VERSION_SHIFT &&& VERSION_MASK) > SUPPORTED_VERSION
  · simp only [if_pos hversion, Fallible.throw_eq_error, Fallible.error_bind]
  · simp only [if_neg hversion]
    rw [advance_of_le (by omega), Fallible.ok_bind,
      getU16_of_le (by rw [hdrop]; omega), Fallible.ok_bind]
    dsimp only
    congr 1
    funext trackHandle
    rw [drop_drop, getU16_of_le (by rw [hdrop]; omega), Fallible.ok_bind]
    dsimp only
    rw [drop_drop, getU16_of_le (by rw [hdrop]; omega), Fallible.ok_bind]
    dsimp only
    rw [drop_drop, getU32_of_le (by rw [hdrop]; omega), Fallible.ok_bind]
    dsimp only
    rw [drop_drop]

/-! ## The packet -/

/-- The extension flag of the first byte. -/
def extensionFlag (b : Bytes) : Bool :=
  b.head?.any fun initial => (initial >>> EXT_FLAG_SHIFT &&& EXT_FLAG_MASK) > 0

/-- The word count, at offset 12. -/
def extensionWords (b : Bytes) : ℕ := (UInt16.ofNat (ofBe ((b.drop 12).take 2))).toNat

/-- The extension block, after the word count. -/
def extensionBlock (b : Bytes) : Bytes :=
  (b.drop 14).take (4 * (extensionWords b + 1) - EXT_WORDS_INDICATOR_SIZE)

/-- What a packet that is accepted has of the bytes. -/
def ReadFrom (b : Bytes) (p : Packet) : Prop :=
  if extensionFlag b then
    12 + 4 * (extensionWords b + 1) ≤ b.length ∧
      p.payload = b.drop (12 + 4 * (extensionWords b + 1)) ∧
      Extensions.deserialize (extensionBlock b) = .ok p.header.extensions
  else p.payload = b.drop 12 ∧ p.header.extensions = .default

theorem Extensions.deserialize_ne_panic (raw : Bytes) :
    Extensions.deserialize raw ≠ .error .panic :=
  Extensions.read_ne_panic Extensions.default raw

theorem Header.deserializeExt_ne_panic (extFlag : Bool) (raw : Bytes) :
    deserializeExt extFlag raw ≠ .error .panic := by
  cases extFlag with
  | false => exact nofun
  | true =>
    rw [deserializeExt_true]
    dsimp only
    split_ifs with hshort hoverrun
    · exact nofun
    · exact nofun
    · have hblock := Extensions.deserialize_ne_panic ((raw.drop 2).take
        (4 * ((UInt16.ofNat (ofBe (raw.take 2))).toNat + 1) - EXT_WORDS_INDICATOR_SIZE))
      generalize Extensions.deserialize _ = result at hblock ⊢
      cases result with
      | error e =>
        intro hpanic
        cases hpanic
        exact hblock rfl
      | ok extensions => exact nofun

/-- The extensions, and what is left for the payload. -/
theorem Header.deserializeExt_readFrom (initial : UInt8) (raw : Bytes) (p : Packet)
    (hext : deserializeExt
      (decide ((initial >>> EXT_FLAG_SHIFT &&& EXT_FLAG_MASK) > 0)) (raw.drop 11)
        = .ok (p.header.extensions, p.payload)) :
    ReadFrom (initial :: raw) p := by
  unfold ReadFrom extensionFlag
  rw [head?_cons, Option.any_some]
  by_cases hflag : (initial >>> EXT_FLAG_SHIFT &&& EXT_FLAG_MASK) > 0
  · rw [if_pos (decide_eq_true hflag)]
    rw [decide_eq_true hflag, deserializeExt_true] at hext
    have hwords : (UInt16.ofNat (ofBe ((raw.drop 11).take 2))).toNat =
        extensionWords (initial :: raw) := rfl
    dsimp only at hext
    rw [hwords, drop_drop] at hext
    split_ifs at hext with hshort hoverrun
    have hindicator : EXT_WORDS_INDICATOR_SIZE = 2 := rfl
    rw [hindicator, length_drop] at hoverrun
    have hblock : (raw.drop (11 + 2)).take
        (4 * (extensionWords (initial :: raw) + 1) - EXT_WORDS_INDICATOR_SIZE) =
        extensionBlock (initial :: raw) := rfl
    rw [hblock, drop_drop] at hext
    cases hread : Extensions.deserialize (extensionBlock (initial :: raw)) with
    | error e =>
      rw [hread] at hext
      cases hext
    | ok extensions =>
      rw [hread, Fallible.ok_bind] at hext
      have hpair := Prod.mk.inj (Except.ok.inj hext)
      refine ⟨?_, ?_, ?_⟩
      · rw [length_cons]
        rw [length_drop] at hshort
        omega
      · rw [← hpair.2, hindicator]
        have hsum : 12 + 4 * (extensionWords (initial :: raw) + 1) =
            11 + 2 + (4 * (extensionWords (initial :: raw) + 1) - 2) + 1 := by omega
        rw [hsum, drop_succ_cons]
      · rw [hpair.1]
  · rw [if_neg (by simpa using hflag)]
    rw [decide_eq_false hflag] at hext
    have hpair := Prod.mk.inj (Except.ok.inj hext)
    exact ⟨hpair.2.symm, hpair.1.symm⟩

theorem Packet.deserialize_of_le (initial : UInt8) {raw : Bytes} (h : 11 ≤ raw.length) :
    Packet.deserialize (initial :: raw) ≠ .error .panic ∧
      ∀ p, Packet.deserialize (initial :: raw) = .ok p → ReadFrom (initial :: raw) p := by
  have hread := deserializeExt_readFrom initial raw
  have hpanic := deserializeExt_ne_panic
    (decide ((initial >>> EXT_FLAG_SHIFT &&& EXT_FLAG_MASK) > 0)) (raw.drop 11)
  unfold Packet.deserialize
  rw [Header.deserialize_of_le initial h]
  dsimp only
  split_ifs with hversion
  · exact ⟨nofun, nofun⟩
  · cases Handle.tryFromU16 (UInt16.ofNat (ofBe ((raw.drop 1).take 2))) with
    | error e => exact ⟨nofun, nofun⟩
    | ok trackHandle =>
      cases hext : Header.deserializeExt
          (decide ((initial >>> EXT_FLAG_SHIFT &&& EXT_FLAG_MASK) > 0)) (raw.drop 11) with
      | error e =>
        rw [hext] at hpanic
        refine ⟨fun heq => hpanic ?_, fun p heq => ?_⟩
        · cases heq
          rfl
        · cases heq
      | ok result =>
        obtain ⟨extensions, rest⟩ := result
        simp only [Except.mapError, Fallible.ok_bind, copyToBytes_length, Fallible.pure_eq_ok]
        refine ⟨nofun, fun p heq => hread p ?_⟩
        rw [hext, ← Except.ok.inj heq]

/-- The parser is safe for all bytes, its loop ends, and an accepted packet is read from the right
places. -/
theorem deserialize_safe_and_exact :
    (∀ b, Packet.deserialize b ≠ .error .panic) ∧
    (∀ (ext : Extensions) (raw : Bytes), ext.read raw =
      if raw.length ≥ 2 then ext.deserializeElement raw >>= fun (ext, raw) => ext.read raw
      else .ok ext) ∧
    (∀ (ext ext' : Extensions) (raw rest : Bytes),
      ext.deserializeElement raw = .ok (ext', rest) → rest.length + 2 ≤ raw.length) ∧
    ∀ b p, Packet.deserialize b = .ok p → ReadFrom b p := by
  have hpacket : ∀ b, Packet.deserialize b ≠ .error .panic ∧
      ∀ p, Packet.deserialize b = .ok p → ReadFrom b p := by
    intro b
    by_cases hshort : b.length < BASE_HEADER_LEN
    · have herror : Packet.deserialize b = .error (.error .tooShort) := by
        unfold Packet.deserialize deserialize
        rw [if_pos hshort]
        rfl
      rw [herror]
      refine ⟨?_, ?_⟩
      · intro heq
        cases heq
      · intro p heq
        cases heq
    · rw [BASE_HEADER_LEN] at hshort
      cases b with
      | nil => exact absurd (by decide) hshort
      | cons initial raw =>
        rw [length_cons] at hshort
        exact Packet.deserialize_of_le initial (by omega)
  refine ⟨fun b => (hpacket b).1, Extensions.read_loop, ?_, fun b => (hpacket b).2⟩
  exact fun ext ext' raw rest h => Extensions.deserializeElement_shorter h

end LiveKit.DataTrack
