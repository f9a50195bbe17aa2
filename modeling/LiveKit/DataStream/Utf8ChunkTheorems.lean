import LiveKit.DataStream.Utf8Chunk

/-!
# The chunks partition the text

The loop looks back at most three bytes, so it ends above zero; and no later byte that begins a
character is in reach, so the chunk is the longest that is possible.
-/

namespace LiveKit.DataStream

namespace Utf8AwareChunks

/-- What a chunk may be: a text that is not empty and not too long. -/
def Fits (chunkSize : ℕ) (chunk : Bytes) : Prop :=
  chunk ≠ [] ∧ chunk.length ≤ chunkSize ∧ Utf8.decode chunk ≠ none

theorem exists_text {bytes : Bytes} (h : Utf8.decode bytes ≠ none) :
    ∃ s, Utf8.encode s = bytes := by
  obtain ⟨s, hs⟩ := Option.ne_none_iff_exists'.mp h
  exact ⟨s, Utf8.encode_of_decode hs⟩

variable {chunkSize : ℕ} {s : String} {p : Bytes}

theorem fits_encode (hpos : 0 < (Utf8.encode s).length) (hle : (Utf8.encode s).length ≤ chunkSize) :
    Fits chunkSize (Utf8.encode s) := by
  refine ⟨List.ne_nil_of_length_pos hpos, hle, ?_⟩
  rw [Utf8.decode_encode]
  exact Option.some_ne_none s

/-- The loop does not stop before a place where a chunk can end. -/
theorem length_le_boundary {k : ℕ} (hlt : k < (Utf8.encode s).length)
    (hbegins : p <+: Utf8.encode s) (hp : Fits k p) : p.length ≤ boundary (Utf8.encode s) k := by
  obtain ⟨hne, hle, hvalid⟩ := hp
  obtain ⟨t, ht⟩ := exists_text hvalid
  obtain ⟨rest, hrest⟩ := hbegins
  have hpos : 0 < p.length := List.length_pos_of_ne_nil hne
  cases rest with
  | nil =>
    rw [List.append_nil] at hrest
    rw [← hrest] at hlt
    omega
  | cons byte rest =>
    have hbyte : (Utf8.encode s)[p.length]? = some byte := by
      rw [← hrest, List.getElem?_append_right (Nat.le_refl _), Nat.sub_self]
      rfl
    have hfirst : Utf8.isContinuation byte = false := by
      rw [← ht] at hrest
      exact Utf8.first_of_encode_append hrest
    exact (boundary_spec hpos hle hlt hbyte hfirst).1

/-- The first chunk of a text is the longest possible. -/
theorem next_longest (h : 4 ≤ chunkSize) {chunk : Bytes} {rest : Utf8AwareChunks}
    (hnext : next ⟨Utf8.encode s, chunkSize, h⟩ = some (chunk, rest))
    (hbegins : p <+: Utf8.encode s) (hp : Fits chunkSize p) :
    p.length ≤ chunk.length := by
  unfold next at hnext
  dsimp only at hnext
  split_ifs at hnext with hempty hle
  · cases hnext
    exact hbegins.length_le
  · cases hnext
    have hlt : chunkSize < (Utf8.encode s).length := Nat.lt_of_not_le hle
    have hlongest := length_le_boundary hlt hbegins hp
    have hlength := hbegins.length_le
    rw [List.length_take]
    omega

/-- The chunks are what the text is cut into from the front, each as long as possible. -/
structure Partition (chunkSize : ℕ) (bytes : Bytes) (chunks : List Bytes) : Prop where
  flatten : chunks.flatten = bytes
  fits : ∀ chunk ∈ chunks, Fits chunkSize chunk
  longest : ∀ before chunk after, chunks = before ++ chunk :: after →
    ∀ p, p <+: chunk ++ after.flatten → Fits chunkSize p → p.length ≤ chunk.length

theorem Partition.nil (chunkSize : ℕ) : Partition chunkSize [] [] where
  flatten := rfl
  fits _ hin := absurd hin List.not_mem_nil
  longest before chunk after heq := by
    have hlength := congrArg List.length heq
    rw [List.length_append, List.length_cons, List.length_nil] at hlength
    omega

theorem Partition.cons {chunkSize : ℕ} {bytes chunk : Bytes} {chunks : List Bytes}
    (h : Partition chunkSize bytes chunks) (hfits : Fits chunkSize chunk)
    (hlongest : ∀ p, p <+: chunk ++ bytes → Fits chunkSize p → p.length ≤ chunk.length) :
    Partition chunkSize (chunk ++ bytes) (chunk :: chunks) where
  flatten := by rw [List.flatten_cons, h.flatten]
  fits := List.forall_mem_cons.mpr ⟨hfits, h.fits⟩
  longest before chunk' after heq p hbegins hp := by
    cases before with
    | nil =>
      obtain ⟨hchunk, hafter⟩ := List.cons.inj heq
      rw [← hchunk, ← hafter, h.flatten] at hbegins
      rw [← hchunk]
      exact hlongest p hbegins hp
    | cons first before => exact h.longest before chunk' after (List.cons.inj heq).2 p hbegins hp

theorem collect_partition (s : String) (chunkSize : ℕ) (h : 4 ≤ chunkSize) :
    ∃ chunks, Partition chunkSize (Utf8.encode s) chunks ∧
      ∀ fuel, (Utf8.encode s).length ≤ fuel →
        collect ⟨Utf8.encode s, chunkSize, h⟩ fuel = some chunks := by
  generalize hn : (Utf8.encode s).length = n
  induction n using Nat.strongRecOn generalizing s with
  | _ n ih =>
    cases next_encode s chunkSize h with
    | inl hdone =>
      obtain ⟨rfl, hnext⟩ := hdone
      refine ⟨[], Partition.nil chunkSize, fun fuel _ => ?_⟩
      cases fuel with
      | zero =>
        unfold collect
        rw [hnext]
        rfl
      | succ fuel =>
        unfold collect
        rw [hnext]
    | inr hchunk =>
      obtain ⟨s₁, s₂, hs, hpos, hle, hnext⟩ := hchunk
      have hbytes : Utf8.encode s = Utf8.encode s₁ ++ Utf8.encode s₂ := by
        rw [hs, Utf8.encode_append]
      have hlength : n = (Utf8.encode s₁).length + (Utf8.encode s₂).length := by
        rw [← hn, hbytes, List.length_append]
      obtain ⟨chunks, hchunks, hcollect⟩ := ih _ (by omega) s₂ rfl
      refine ⟨Utf8.encode s₁ :: chunks, ?_, fun fuel hfuel => ?_⟩
      · rw [hbytes]
        apply hchunks.cons (fits_encode hpos hle)
        intro p hbegins hp
        rw [← hbytes] at hbegins
        exact next_longest h hnext hbegins hp
      · cases fuel with
        | zero => omega
        | succ fuel =>
          unfold collect
          rw [hnext]
          dsimp only
          rw [hcollect fuel (by omega)]
          rfl

/-- From the bytes of a text, and no less than four to a chunk, the iterator comes to an end, with
a partition of the text into longest chunks. -/
theorem chunks_partition_text (bytes : Bytes) (chunkSize : ℕ) (hvalid : Utf8.decode bytes ≠ none)
    (hsize : 4 ≤ chunkSize) :
    ∃ self, new bytes chunkSize = some self ∧ ∃ chunks, Partition chunkSize bytes chunks ∧
      ∀ fuel, bytes.length ≤ fuel → self.collect fuel = some chunks := by
  refine ⟨⟨bytes, chunkSize, hsize⟩, dif_pos hsize, ?_⟩
  obtain ⟨s, rfl⟩ := exists_text hvalid
  exact collect_partition s chunkSize hsize

theorem chunks_partition_text_word :
    ∃ self, new (Utf8.encode "señor") 4 = some self ∧
      ∃ chunks, Partition 4 (Utf8.encode "señor") chunks ∧
        ∀ fuel, (Utf8.encode "señor").length ≤ fuel → self.collect fuel = some chunks :=
  chunks_partition_text (Utf8.encode "señor") 4 (by rw [Utf8.decode_encode]; exact nofun)
    (by decide)

end Utf8AwareChunks

end LiveKit.DataStream
