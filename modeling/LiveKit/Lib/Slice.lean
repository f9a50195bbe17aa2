import Mathlib.Algebra.Order.Ring.Nat
import Mathlib.Data.List.Basic

/-!
# Slices of memory

A slice is a piece of memory with its address. Slices tile a piece of memory when they lie in it one
after the other, without a gap. `Tiles.inside`, `Tiles.disjoint` and `Tiles.getElem?` say what
follows for each of them.
-/

/-- Bytes, and where they are. -/
structure Slice where
  addr : ℕ
  bytes : List UInt8
deriving DecidableEq

namespace Slice

open List Option

/-- The address after the last byte. -/
def stop (s : Slice) : ℕ := s.addr + s.bytes.length

/-- The slice from an index on, and the one before it; there is none past the end. -/
def splitAt (s : Slice) (n : ℕ) : Option (Slice × Slice) :=
  if n ≤ s.bytes.length then some (⟨s.addr, s.bytes.take n⟩, ⟨s.addr + n, s.bytes.drop n⟩) else none

/-- Splits a slice into parts of the given sizes and the rest. -/
def splits (s : Slice) : List ℕ → Option (List Slice)
  | [] => some [s]
  | n :: ns => do
    let (first, rest) ← s.splitAt n
    let parts ← rest.splits ns
    return first :: parts

/-- The slices lie one after the other, from the address on, and have the bytes. -/
def Tiles (addr : ℕ) (bytes : List UInt8) : List Slice → Prop
  | [] => bytes = []
  | s :: ss =>
    s.addr = addr ∧ ∃ rest, bytes = s.bytes ++ rest ∧ Tiles (addr + s.bytes.length) rest ss

variable {s part : Slice} {ns : List ℕ}

theorem splits_tiles {parts : List Slice} (h : s.splits ns = some parts) :
    Tiles s.addr s.bytes parts := by
  induction ns generalizing s parts with
  | nil =>
    obtain rfl := some.inj h
    exact ⟨rfl, [], (append_nil _).symm, rfl⟩
  | cons n ns ih =>
    rw [splits, bind_eq_bind, bind_eq_some_iff] at h
    obtain ⟨⟨first, rest⟩, hsplit, h⟩ := h
    obtain ⟨parts', hparts, h⟩ := bind_eq_some_iff.mp h
    obtain rfl := some.inj h
    unfold splitAt at hsplit
    rw [ite_none_right_eq_some, some.injEq] at hsplit
    obtain ⟨hle, hsplit⟩ := hsplit
    cases hsplit
    refine ⟨rfl, s.bytes.drop n, (take_append_drop n s.bytes).symm, ?_⟩
    rw [length_take_of_le hle]
    exact ih hparts

theorem splits_length {parts : List Slice} (h : s.splits ns = some parts) :
    parts.length = ns.length + 1 := by
  induction ns generalizing s parts with
  | nil =>
    obtain rfl := some.inj h
    rfl
  | cons n ns ih =>
    rw [splits, bind_eq_bind, bind_eq_some_iff] at h
    obtain ⟨⟨first, rest⟩, -, h⟩ := h
    obtain ⟨parts', hparts, h⟩ := bind_eq_some_iff.mp h
    obtain rfl := some.inj h
    rw [length_cons, ih hparts, length_cons]

/-- The sizes of the parts, where there is enough for all of them. -/
theorem splits_of_le (h : ns.sum ≤ s.bytes.length) :
    ∃ parts, s.splits ns = some parts ∧
      parts.map (fun part => part.bytes.length) = ns ++ [s.bytes.length - ns.sum] := by
  induction ns generalizing s with
  | nil => exact ⟨[s], rfl, rfl⟩
  | cons n ns ih =>
    rw [sum_cons] at h
    have hle : n ≤ s.bytes.length := by omega
    have hrest : ns.sum ≤ (Slice.mk (s.addr + n) (s.bytes.drop n)).bytes.length := by
      rw [length_drop]
      omega
    obtain ⟨parts, hparts, hsizes⟩ := ih hrest
    refine ⟨⟨s.addr, s.bytes.take n⟩ :: parts, ?_, ?_⟩
    · rw [splits, splitAt, if_pos hle]
      show ((splits _ ns).bind fun parts => some (_ :: parts)) = _
      rw [hparts]
      rfl
    · rw [map_cons, hsizes, length_take_of_le hle, length_drop, sum_cons,
        cons_append, Nat.sub_sub]

variable {addr : ℕ} {bytes : List UInt8} {parts : List Slice}

section

variable (h : Tiles addr bytes parts)

include h

theorem Tiles.length :
    (parts.map fun part => part.bytes.length).sum = bytes.length := by
  induction parts generalizing addr bytes with
  | nil =>
    obtain rfl : bytes = [] := h
    rfl
  | cons part parts ih =>
    obtain ⟨-, rest, rfl, hrest⟩ := h
    rw [map_cons, sum_cons, ih hrest, length_append]

theorem Tiles.inside (hmem : part ∈ parts) :
    addr ≤ part.addr ∧ part.stop ≤ addr + bytes.length := by
  induction parts generalizing addr bytes with
  | nil => cases hmem
  | cons first parts ih =>
    obtain ⟨haddr, rest, rfl, hrest⟩ := h
    rw [length_append]
    rcases mem_cons.mp hmem with rfl | hmem
    · unfold stop
      omega
    · have hpart := ih hrest hmem
      omega

theorem Tiles.disjoint :
    parts.Pairwise fun part part' => part.stop ≤ part'.addr := by
  induction parts generalizing addr bytes with
  | nil => exact .nil
  | cons first parts ih =>
    obtain ⟨haddr, rest, -, hrest⟩ := h
    refine .cons ?_ (ih hrest)
    intro part hmem
    have hpart := (hrest.inside hmem).1
    unfold stop
    omega

theorem Tiles.getElem? (hmem : part ∈ parts) {i : ℕ} (hi : i < part.bytes.length) :
    bytes[part.addr - addr + i]? = part.bytes[i]? := by
  induction parts generalizing addr bytes with
  | nil => cases hmem
  | cons first parts ih =>
    obtain ⟨haddr, rest, rfl, hrest⟩ := h
    rcases mem_cons.mp hmem with rfl | hmem
    · rw [haddr, Nat.sub_self, Nat.zero_add, getElem?_append_left hi]
    · have hle := (hrest.inside hmem).1
      rw [getElem?_append_right (by omega), ← ih hrest hmem]
      congr 1
      omega

/-- Overwriting each part keeps the tiling. -/
theorem Tiles.write {written : List Slice}
    (hsame : List.Forall₂ (fun part new => new.addr = part.addr ∧
      new.bytes.length = part.bytes.length) parts written) :
    Tiles addr (written.map Slice.bytes).flatten written := by
  induction hsame generalizing addr bytes with
  | nil => rfl
  | cons hfirst _ ih =>
    obtain ⟨haddr, rest, -, hrest⟩ := h
    refine ⟨hfirst.1.trans haddr, _, flatten_cons, ?_⟩
    rw [hfirst.2]
    exact ih hrest

end

end Slice
