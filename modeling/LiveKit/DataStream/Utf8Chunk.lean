import LiveKit.Lib.Utf8

/-!
# Chunks of a text

`utils/utf8_chunk.rs`: the bytes of a text are cut into chunks of a bounded size, each of which
ends where a character ends. The iterator is for any bytes; in those of a text it always finds
such a place, so that it makes progress and comes to an end.
-/

namespace LiveKit.DataStream

abbrev Bytes := List UInt8

/-- Split byte slices at character boundaries; a chunk has place for any character. -/
structure Utf8AwareChunks where
  bytes : Bytes
  chunkSize : ℕ
  four_le : 4 ≤ chunkSize

namespace Utf8AwareChunks

/-- `chunk_size must be at least 4 due to utf8 encoding rules` -/
def new (bytes : Bytes) (chunkSize : ℕ) : Option Utf8AwareChunks :=
  if h : 4 ≤ chunkSize then some ⟨bytes, chunkSize, h⟩ else none

/-- Where the loop that looks back from `k` for the first byte of a character ends. -/
def boundary (bytes : Bytes) : ℕ → ℕ
  | 0 => 0
  | k + 1 =>
    match bytes[k + 1]? with
    | some byte => if Utf8.isContinuation byte then boundary bytes k else k + 1
    -- the index is in range where this is called
    | none => k + 1

def next (self : Utf8AwareChunks) : Option (Bytes × Utf8AwareChunks) :=
  if self.bytes.isEmpty then none
  else if self.bytes.length ≤ self.chunkSize then some (self.bytes, { self with bytes := [] })
  else
    let k := boundary self.bytes self.chunkSize
    some (self.bytes.take k, { self with bytes := self.bytes.drop k })

/-- All chunks, if there are not more than `fuel`. -/
def collect (self : Utf8AwareChunks) : ℕ → Option (List Bytes)
  | 0 => if self.next.isNone then some [] else none
  | fuel + 1 =>
    match self.next with
    | none => some []
    | some (chunk, rest) => (rest.collect fuel).map (chunk :: ·)

/-- The loop ends at the last byte up to `k` that begins a character. -/
theorem boundary_spec {bytes : Bytes} {j k : ℕ} {byte : UInt8} (hpos : 0 < j) (hjk : j ≤ k)
    (hlt : k < bytes.length) (hbyte : bytes[j]? = some byte)
    (hfirst : Utf8.isContinuation byte = false) :
    j ≤ boundary bytes k ∧ boundary bytes k ≤ k ∧
      ∃ byte', bytes[boundary bytes k]? = some byte' ∧ Utf8.isContinuation byte' = false := by
  induction k with
  | zero => omega
  | succ k ih =>
    unfold boundary
    rw [List.getElem?_eq_getElem hlt]
    simp only
    cases hcontinuation : Utf8.isContinuation bytes[k + 1] with
    | false =>
      rw [if_neg Bool.false_ne_true]
      exact ⟨hjk, Nat.le_refl _, bytes[k + 1], List.getElem?_eq_getElem hlt, hcontinuation⟩
    | true =>
      rw [if_pos rfl]
      have hne : j ≠ k + 1 := by
        rintro rfl
        rw [List.getElem?_eq_getElem hlt, Option.some.injEq] at hbyte
        rw [hbyte, hfirst] at hcontinuation
        cases hcontinuation
      obtain ⟨hge, hle, hspec⟩ := ih (by omega) (by omega)
      exact ⟨hge, by omega, hspec⟩

/-- A text is empty, or its first chunk is a text that is not empty and not too long. -/
theorem next_encode (s : String) (chunkSize : ℕ) (h : 4 ≤ chunkSize) :
    (s = "" ∧ next ⟨Utf8.encode s, chunkSize, h⟩ = none) ∨
    ∃ s₁ s₂, s = s₁ ++ s₂ ∧ 0 < (Utf8.encode s₁).length ∧
      (Utf8.encode s₁).length ≤ chunkSize ∧
      next ⟨Utf8.encode s, chunkSize, h⟩
        = some (Utf8.encode s₁, ⟨Utf8.encode s₂, chunkSize, h⟩) := by
  unfold next
  simp only
  by_cases hempty : Utf8.encode s = []
  · rw [if_pos (by rw [hempty]; rfl)]
    exact .inl ⟨Utf8.encode_injective hempty, rfl⟩
  · rw [if_neg (by simpa using hempty)]
    right
    by_cases hle : (Utf8.encode s).length ≤ chunkSize
    · rw [if_pos hle]
      exact ⟨s, "", String.append_empty.symm, List.length_pos_of_ne_nil hempty, hle, rfl⟩
    · rw [if_neg hle]
      have hlt : chunkSize < (Utf8.encode s).length := Nat.lt_of_not_le hle
      have hchunk : 3 ≤ chunkSize := by omega
      obtain ⟨j, byte, hge, hjk, hbyte, hfirst⟩ :
          ∃ j byte, chunkSize - 3 ≤ j ∧ j ≤ chunkSize ∧ (Utf8.encode s)[j]? = some byte ∧
            Utf8.isContinuation byte = false := Utf8.exists_first hchunk hlt
      obtain ⟨hk, hk', byte', hbyte', hfirst'⟩ :=
        boundary_spec (by omega) hjk hlt hbyte hfirst
      obtain ⟨s₁, s₂, hs, htake, hdrop⟩ := Utf8.split_encode hbyte' hfirst'
      have hlength : (Utf8.encode s₁).length = boundary (Utf8.encode s) chunkSize := by
        rw [htake, List.length_take]
        omega
      refine ⟨s₁, s₂, hs, by omega, by omega, ?_⟩
      rw [htake, hdrop]

/-- The chunks of a text are texts. -/
theorem collect_encode (s : String) (chunkSize : ℕ) (h : 4 ≤ chunkSize) {fuel : ℕ}
    (hfuel : (Utf8.encode s).length ≤ fuel) :
    ∃ texts : List String,
      collect ⟨Utf8.encode s, chunkSize, h⟩ fuel = some (texts.map Utf8.encode) ∧
      (texts.map Utf8.encode).flatten = Utf8.encode s ∧
      ∀ text ∈ texts, (Utf8.encode text).length ≤ chunkSize := by
  induction fuel generalizing s with
  | zero =>
    have hnil : Utf8.encode s = [] := List.eq_nil_of_length_eq_zero (by omega)
    refine ⟨[], ?_, by rw [hnil]; rfl, by simp⟩
    rcases next_encode s chunkSize h with ⟨-, hnext⟩ | ⟨s₁, s₂, hs, hpos, -⟩
    · unfold collect
      rw [hnext]
      rfl
    · rw [hs, Utf8.encode_append, List.append_eq_nil_iff] at hnil
      rw [hnil.1] at hpos
      cases hpos
  | succ fuel ih =>
    rcases next_encode s chunkSize h with ⟨rfl, hnext⟩ | ⟨s₁, s₂, hs, hpos, hle, hnext⟩
    · refine ⟨[], ?_, rfl, by simp⟩
      unfold collect
      rw [hnext]
      rfl
    · have hlength : (Utf8.encode s).length
          = (Utf8.encode s₁).length + (Utf8.encode s₂).length := by
        rw [hs, Utf8.encode_append, List.length_append]
      obtain ⟨texts, hcollect, hflatten, hsize⟩ := ih s₂ (by omega)
      refine ⟨s₁ :: texts, ?_, ?_, ?_⟩
      · unfold collect
        rw [hnext]
        simp only
        rw [hcollect]
        rfl
      · rw [List.map_cons, List.flatten_cons, hflatten, hs, Utf8.encode_append]
      · rw [List.forall_mem_cons]
        exact ⟨hle, hsize⟩

end Utf8AwareChunks

end LiveKit.DataStream
