import Mathlib.Data.List.Basic

/-!
# UTF-8 as bytes

The bytes of a string, and the string of bytes that are valid. A byte of a string that is not a
continuation byte begins a character, so that the bytes can be cut there, and there is one among
any four bytes in a row.
-/

namespace Utf8

open List

/-- The bytes of a string. -/
def encode (s : String) : List UInt8 := s.toList.flatMap String.utf8EncodeChar

/-- The string of the bytes, if they are valid. -/
def decode (bytes : List UInt8) : Option String := String.fromUTF8? bytes.toByteArray

variable {bytes rest : List UInt8} {k : ℕ}

theorem toByteArray_inj {bytes' : List UInt8} (h : bytes.toByteArray = bytes'.toByteArray) :
    bytes = bytes' := by
  have hdata := congrArg (fun array => array.data.toList) h
  simpa using hdata

theorem encode_toByteArray (s : String) : (encode s).toByteArray = s.toByteArray := by
  have hlist : s = String.ofList s.toList := by simp
  conv_rhs => rw [hlist]
  rfl

@[simp] theorem decode_encode (s : String) : decode (encode s) = some s := by
  unfold decode String.fromUTF8?
  rw [encode_toByteArray, dif_pos s.isValidUTF8]
  rfl

variable {s : String}

theorem encode_of_decode (h : decode bytes = some s) : encode s = bytes := by
  unfold decode String.fromUTF8? at h
  split at h
  · rw [Option.some.injEq] at h
    apply toByteArray_inj
    rw [encode_toByteArray, ← h]
    rfl
  · cases h

theorem encode_injective {s' : String} (h : encode s = encode s') : s = s' := by
  rw [← Option.some.injEq, ← decode_encode, h, decode_encode]

@[simp] theorem encode_append (s s' : String) : encode (s ++ s') = encode s ++ encode s' := by
  unfold encode
  rw [String.toList_append, flatMap_append]

theorem encode_join (texts : List String) :
    encode (String.join texts) = (texts.map encode).flatten := by
  induction texts with
  | nil =>
    rw [String.join_nil]
    rfl
  | cons text texts ih =>
    rw [String.join_cons, encode_append, ih, map_cons, flatten_cons]

/-! ## Characters -/

/-- Not the first byte of a character. -/
def isContinuation (byte : UInt8) : Bool := byte &&& 0xc0 = 0x80

/-- A character is one first byte and at most three continuation bytes. -/
theorem encodeChar_eq (c : Char) :
    ∃ first rest, String.utf8EncodeChar c = first :: rest ∧ isContinuation first = false ∧
      (∀ byte ∈ rest, isContinuation byte = true) ∧ rest.length ≤ 3 := by
  have hone : ∀ n, n ≤ 0x7f → isContinuation (UInt8.ofNat n) = false := by decide
  have htwo : ∀ n, n < 0x20 → isContinuation (UInt8.ofNat (n + 0xc0)) = false := by decide
  have hthree : ∀ n, n < 0x10 → isContinuation (UInt8.ofNat (n + 0xe0)) = false := by decide
  have hfour : ∀ n, n < 0x08 → isContinuation (UInt8.ofNat (n + 0xf0)) = false := by decide
  have hrest : ∀ n, n < 0x40 → isContinuation (UInt8.ofNat (n + 0x80)) = true := by decide
  have hmod : ∀ v, isContinuation (UInt8.ofNat (v % 0x40 + 0x80)) = true :=
    fun v => hrest _ (Nat.mod_lt _ (by decide))
  have hnone : ∀ byte ∈ ([] : List UInt8), isContinuation byte = true := by simp
  have hlast : ∀ v, ∀ byte ∈ [UInt8.ofNat (v % 0x40 + 0x80)], isContinuation byte = true :=
    fun v => forall_mem_cons.mpr ⟨hmod v, hnone⟩
  have hmiddle : ∀ v w, ∀ byte ∈ [UInt8.ofNat (v % 0x40 + 0x80), UInt8.ofNat (w % 0x40 + 0x80)],
      isContinuation byte = true := fun v w => forall_mem_cons.mpr ⟨hmod v, hlast w⟩
  unfold String.utf8EncodeChar
  simp only
  split
  · next h => exact ⟨_, _, rfl, hone _ h, hnone, by simp⟩
  · split
    · exact ⟨_, _, rfl, htwo _ (Nat.mod_lt _ (by decide)), hlast _, by simp⟩
    · split
      · exact ⟨_, _, rfl, hthree _ (Nat.mod_lt _ (by decide)), hmiddle _ _, by simp⟩
      · exact ⟨_, _, rfl, hfour _ (Nat.mod_lt _ (by decide)),
          forall_mem_cons.mpr ⟨hmod _, hmiddle _ _⟩, by simp⟩

/-! ## Where the bytes can be cut -/

variable {byte : UInt8} {chars : List Char}

/-- Bytes up to one that begins a character are those of characters. -/
theorem take_of_first (hbyte : (chars.flatMap String.utf8EncodeChar)[k]? = some byte)
    (hfirst : isContinuation byte = false) :
    ∃ chars₁ chars₂, chars = chars₁ ++ chars₂ ∧
      (chars.flatMap String.utf8EncodeChar).take k = chars₁.flatMap String.utf8EncodeChar ∧
      (chars.flatMap String.utf8EncodeChar).drop k = chars₂.flatMap String.utf8EncodeChar := by
  induction chars generalizing k with
  | nil => simp at hbyte
  | cons c chars ih =>
    obtain ⟨first, rest, hc, -, hrest, -⟩ := encodeChar_eq c
    by_cases hk : k = 0
    · subst hk
      exact ⟨[], c :: chars, rfl, rfl, rfl⟩
    · rw [flatMap_cons] at hbyte ⊢
      by_cases hlt : k < (String.utf8EncodeChar c).length
      · -- inside of the character there are continuation bytes only
        rw [getElem?_append_left hlt, hc] at hbyte
        obtain ⟨j, rfl⟩ := Nat.exists_eq_succ_of_ne_zero hk
        rw [getElem?_cons_succ] at hbyte
        have hcontinuation := hrest byte (mem_of_getElem? hbyte)
        rw [hfirst] at hcontinuation
        cases hcontinuation
      · have hle : (String.utf8EncodeChar c).length ≤ k := Nat.le_of_not_lt hlt
        rw [getElem?_append_right hle] at hbyte
        obtain ⟨chars₁, chars₂, hchars, htake, hdrop⟩ := ih hbyte
        refine ⟨c :: chars₁, chars₂, by rw [hchars, cons_append], ?_, ?_⟩
        · rw [take_append, take_of_length_le hle, htake, flatMap_cons]
        · rw [drop_append, drop_of_length_le hle, hdrop, nil_append]

/-- The bytes of a string can be cut before a byte that is no continuation byte. -/
theorem split_encode (hbyte : (encode s)[k]? = some byte) (hfirst : isContinuation byte = false) :
    ∃ s₁ s₂, s = s₁ ++ s₂ ∧ encode s₁ = (encode s).take k ∧ encode s₂ = (encode s).drop k := by
  obtain ⟨chars₁, chars₂, hchars, htake, hdrop⟩ := take_of_first hbyte hfirst
  refine ⟨String.ofList chars₁, String.ofList chars₂, ?_, ?_, ?_⟩
  · rw [← String.ofList_append, ← hchars, String.ofList_toList]
  · unfold encode
    rw [htake, String.toList_ofList]
  · unfold encode
    rw [hdrop, String.toList_ofList]

/-- Of four bytes of a string in a row one begins a character. -/
theorem exists_first (hk : 3 ≤ k) (hlt : k < (chars.flatMap String.utf8EncodeChar).length) :
    ∃ j byte, k - 3 ≤ j ∧ j ≤ k ∧ (chars.flatMap String.utf8EncodeChar)[j]? = some byte ∧
      isContinuation byte = false := by
  induction chars generalizing k with
  | nil => simp at hlt
  | cons c chars ih =>
    obtain ⟨first, rest, hc, hfirst, -, hlength⟩ := encodeChar_eq c
    have hsize : (String.utf8EncodeChar c).length = rest.length + 1 := by rw [hc]; rfl
    rw [flatMap_cons] at hlt ⊢
    rw [length_append] at hlt
    by_cases hthree : k ≤ 3
    · exact ⟨0, first, by omega, by omega, by rw [hc]; rfl, hfirst⟩
    · by_cases hlater : (String.utf8EncodeChar c).length + 3 ≤ k
      · obtain ⟨j, byte, hge, hle, hbyte, hj⟩ :=
          ih (k := k - (String.utf8EncodeChar c).length) (by omega) (by omega)
        refine ⟨j + (String.utf8EncodeChar c).length, byte, by omega, by omega, ?_, hj⟩
        rw [getElem?_append_right (by omega), Nat.add_sub_cancel]
        exact hbyte
      · -- the next character begins at the end of this one
        cases chars with
        | nil =>
          rw [flatMap_nil, length_nil] at hlt
          omega
        | cons c' chars =>
          obtain ⟨first', rest', hc', hfirst', -, -⟩ := encodeChar_eq c'
          refine ⟨(String.utf8EncodeChar c).length, first', by omega, by omega, ?_, hfirst'⟩
          rw [getElem?_append_right (Nat.le_refl _), Nat.sub_self, flatMap_cons, hc']
          rfl

/-! ## Texts that begin a text -/

/-- What a character's bytes are followed by plays no part in reading it. -/
theorem encodeChar_append_inj {c d : Char} {x y : List UInt8}
    (h : String.utf8EncodeChar c ++ x = String.utf8EncodeChar d ++ y) : c = d ∧ x = y := by
  have hdecode : ∀ (c : Char) (x : List UInt8),
      ((String.utf8EncodeChar c ++ x).toByteArray).utf8DecodeChar? 0 = some c := by
    intro c x
    rw [toByteArray_append]
    exact ByteArray.utf8DecodeChar?_utf8EncodeChar_append
  have hcd : c = d := by
    rw [← Option.some.injEq, ← hdecode c x, ← hdecode d y, h]
  subst hcd
  exact ⟨rfl, append_cancel_left h⟩

/-- After characters that begin a text, the rest of it are characters. -/
theorem rest_of_flatMap {chars' : List Char}
    (h : chars.flatMap String.utf8EncodeChar ++ rest = chars'.flatMap String.utf8EncodeChar) :
    ∃ others : List Char, rest = others.flatMap String.utf8EncodeChar := by
  induction chars generalizing chars' with
  | nil => exact ⟨chars', h⟩
  | cons c chars ih =>
    cases chars' with
    | nil =>
      rw [flatMap_nil, append_eq_nil_iff, flatMap_cons, append_eq_nil_iff] at h
      obtain ⟨first, more, hc, -⟩ := encodeChar_eq c
      rw [hc] at h
      cases h.1.1
    | cons d chars' =>
      rw [flatMap_cons, flatMap_cons, append_assoc] at h
      exact ih (encodeChar_append_inj h).2

/-- The byte after a text that begins a text begins a character. -/
theorem first_of_encode_append {t : String} (h : encode t ++ byte :: rest = encode s) :
    isContinuation byte = false := by
  obtain ⟨others, hothers⟩ := rest_of_flatMap h
  cases others with
  | nil => cases hothers
  | cons c others =>
    obtain ⟨first, more, hc, hfirst, -⟩ := encodeChar_eq c
    rw [flatMap_cons, hc, cons_append] at hothers
    rw [(List.cons.inj hothers).1]
    exact hfirst

end Utf8
