import LiveKit.Lib.BigEndian
import Mathlib.Data.Vector.Basic

/-!
# Byte cursors that can panic

Reading past the end of a buffer, or writing past the capacity of one, is a panic and not
an error the caller can handle. `Fault` keeps the two apart: code that may fail returns
`Except (Fault ε)`, so "never panics" is a statement about a result.

* `Buf` operations consume a byte string from the front.
* `BufMut` operations append to a buffer with room for a fixed number of further bytes.

The simp lemmas run a reader over `bytes ++ rest`, which is the shape a buffer produced by
the writers has.
-/

/-- Why a computation ended without a value: an error it returns, or a panic. -/
inductive Fault (ε : Type) where
  | error (e : ε)
  | panic
deriving DecidableEq

/-- The result of code that may return an error of type `ε` and may panic. -/
abbrev Fallible (ε α : Type) := Except (Fault ε) α

namespace Fallible

variable {ε α β : Type}

@[simp] theorem pure_eq_ok (a : α) : (pure a : Fallible ε α) = .ok a := rfl

@[simp] theorem throw_eq_error (e : Fault ε) : (throw e : Fallible ε α) = .error e := rfl

@[simp] theorem ok_bind (a : α) (f : α → Fallible ε β) :
    ((Except.ok a : Fallible ε α) >>= f) = f a := rfl

@[simp] theorem error_bind (e : Fault ε) (f : α → Fallible ε β) :
    ((Except.error e : Fallible ε α) >>= f) = .error e := rfl

end Fallible

namespace Buf

open BigEndian

variable {ε : Type}

/-! ## Reading -/

/-- Split off the first `n` bytes; panics when fewer remain. -/
def copyToBytes (n : ℕ) (raw : List UInt8) : Fallible ε (List UInt8 × List UInt8) :=
  if raw.length < n then .error .panic else .ok (raw.take n, raw.drop n)

/-- Fill an array of `n` bytes; panics when fewer remain. -/
def copyToSlice (n : ℕ) (raw : List UInt8) : Fallible ε (List.Vector UInt8 n × List UInt8) :=
  if h : n ≤ raw.length then
    .ok (⟨raw.take n, by rw [List.length_take]; omega⟩, raw.drop n)
  else .error .panic

/-- Skip `n` bytes; panics when fewer remain. -/
def advance (n : ℕ) (raw : List UInt8) : Fallible ε (List UInt8) :=
  if raw.length < n then .error .panic else .ok (raw.drop n)

/-- The next byte. -/
def getU8 (raw : List UInt8) : Fallible ε (UInt8 × List UInt8) :=
  match raw with
  | [] => .error .panic
  | b :: rest => .ok (b, rest)

/-- The next two bytes as a big-endian integer. -/
def getU16 (raw : List UInt8) : Fallible ε (UInt16 × List UInt8) := do
  let (bs, rest) ← copyToBytes 2 raw
  return (UInt16.ofNat (ofBe bs), rest)

/-- The next four bytes as a big-endian integer. -/
def getU32 (raw : List UInt8) : Fallible ε (UInt32 × List UInt8) := do
  let (bs, rest) ← copyToBytes 4 raw
  return (UInt32.ofNat (ofBe bs), rest)

variable {n : ℕ} {raw : List UInt8}

/-- `copy_to_bytes` takes what was put in front. -/
theorem copyToBytes_append {bs : List UInt8} (h : bs.length = n) (rest : List UInt8) :
    (copyToBytes n (bs ++ rest) : Fallible ε _) = .ok (bs, rest) := by
  subst h
  have hlen : ¬ (bs ++ rest).length < bs.length := by
    rw [List.length_append]
    omega
  rw [copyToBytes, if_neg hlen, List.take_left, List.drop_left]

/-- `copy_to_slice` takes the vector that was put in front. -/
theorem copyToSlice_append (v : List.Vector UInt8 n) (rest : List UInt8) :
    (copyToSlice n (v.toList ++ rest) : Fallible ε _) = .ok (v, rest) := by
  obtain ⟨bs, rfl⟩ := v
  have hle : bs.length ≤ (bs ++ rest).length := by
    rw [List.length_append]
    omega
  show copyToSlice bs.length (bs ++ rest) = _
  rw [copyToSlice, dif_pos hle]
  congr 2
  · exact Subtype.ext List.take_left
  · exact List.drop_left

/-! A read within the bytes that remain. -/

/-- Where there are enough bytes, `copy_to_bytes` takes the first of them. -/
theorem copyToBytes_of_le (h : n ≤ raw.length) :
    (copyToBytes n raw : Fallible ε _) = .ok (raw.take n, raw.drop n) :=
  if_neg (Nat.not_lt.mpr h)

/-- Where there are enough bytes, `advance` drops the first of them. -/
theorem advance_of_le (h : n ≤ raw.length) :
    (advance n raw : Fallible ε _) = .ok (raw.drop n) :=
  if_neg (Nat.not_lt.mpr h)

/-- Where there are two bytes, `get_u16` reads them in network order. -/
theorem getU16_of_le (h : 2 ≤ raw.length) :
    (getU16 raw : Fallible ε _) = .ok (UInt16.ofNat (ofBe (raw.take 2)), raw.drop 2) := by
  rw [getU16, copyToBytes_of_le h]
  rfl

/-- Where there are four bytes, `get_u32` reads them in network order. -/
theorem getU32_of_le (h : 4 ≤ raw.length) :
    (getU32 raw : Fallible ε _) = .ok (UInt32.ofNat (ofBe (raw.take 4)), raw.drop 4) := by
  rw [getU32, copyToBytes_of_le h]
  rfl

/-- Taking everything that remains never panics. -/
@[simp] theorem copyToBytes_length (raw : List UInt8) :
    (copyToBytes raw.length raw : Fallible ε _) = .ok (raw, []) := by
  rw [copyToBytes, if_neg (by omega), List.take_length, List.drop_length]

@[simp] theorem advance_zero (raw : List UInt8) : (advance 0 raw : Fallible ε _) = .ok raw := by
  rw [advance, if_neg (by omega), List.drop_zero]

@[simp] theorem advance_one_cons (b : UInt8) (raw : List UInt8) :
    (advance 1 (b :: raw) : Fallible ε _) = .ok raw := by
  rw [advance, if_neg (by rw [List.length_cons]; omega), List.drop_succ_cons, List.drop_zero]

@[simp] theorem getU8_cons (b : UInt8) (raw : List UInt8) :
    (getU8 (b :: raw) : Fallible ε _) = .ok (b, raw) := rfl

/-- What `put_u16` writes is what `get_u16` reads. -/
@[simp] theorem getU16_toBe_append (v : UInt16) (rest : List UInt8) :
    (getU16 (toBe 2 v.toNat ++ rest) : Fallible ε _) = .ok (v, rest) := by
  rw [getU16, copyToBytes_append (length_toBe 2 v.toNat)]
  show Except.ok (UInt16.ofNat (ofBe (toBe 2 v.toNat)), rest) = _
  rw [ofBe_toBe_uint16]

/-- What `put_u32` writes is what `get_u32` reads. -/
@[simp] theorem getU32_toBe_append (v : UInt32) (rest : List UInt8) :
    (getU32 (toBe 4 v.toNat ++ rest) : Fallible ε _) = .ok (v, rest) := by
  rw [getU32, copyToBytes_append (length_toBe 4 v.toNat)]
  show Except.ok (UInt32.ofNat (ofBe (toBe 4 v.toNat)), rest) = _
  rw [ofBe_toBe_uint32]

end Buf

/-! ## Writing -/

/-- A buffer being written: the bytes so far and the room that is left. -/
structure BufMut where
  written : List UInt8
  remainingMut : ℕ

namespace BufMut

open BigEndian

variable {ε : Type}

/-- An empty buffer with room for `capacity` bytes. -/
def withCapacity (capacity : ℕ) : BufMut := ⟨[], capacity⟩

/-- Append a byte string; panics when it does not fit. -/
def putSlice (bs : List UInt8) (buf : BufMut) : Fallible ε BufMut :=
  if buf.remainingMut < bs.length then .error .panic
  else .ok ⟨buf.written ++ bs, buf.remainingMut - bs.length⟩

def putU8 (b : UInt8) (buf : BufMut) : Fallible ε BufMut := putSlice [b] buf

def putU16 (v : UInt16) (buf : BufMut) : Fallible ε BufMut := putSlice (toBe 2 v.toNat) buf

def putU32 (v : UInt32) (buf : BufMut) : Fallible ε BufMut := putSlice (toBe 4 v.toNat) buf

def putU64 (v : UInt64) (buf : BufMut) : Fallible ε BufMut := putSlice (toBe 8 v.toNat) buf

/-- Append `n` copies of a byte. -/
def putBytes (b : UInt8) (n : ℕ) (buf : BufMut) : Fallible ε BufMut :=
  putSlice (List.replicate n b) buf

/-- The buffer after `bs` has been appended, when it fits. -/
def append (buf : BufMut) (bs : List UInt8) : BufMut :=
  ⟨buf.written ++ bs, buf.remainingMut - bs.length⟩

@[simp] theorem written_append (buf : BufMut) (bs : List UInt8) :
    (buf.append bs).written = buf.written ++ bs := rfl

/-- Every byte that is written takes one of the places that are left. -/
@[simp] theorem remainingMut_append (buf : BufMut) (bs : List UInt8) :
    (buf.append bs).remainingMut = buf.remainingMut - bs.length := rfl

@[simp] theorem append_append (buf : BufMut) (bs cs : List UInt8) :
    (buf.append bs).append cs = buf.append (bs ++ cs) := by
  simp only [append, List.append_assoc, List.length_append, Nat.sub_sub]

@[simp] theorem append_nil (buf : BufMut) : buf.append [] = buf := by
  rw [append, List.append_nil, List.length_nil, Nat.sub_zero]

/-- Within the capacity a write is an append. -/
theorem putSlice_of_le {bs : List UInt8} {buf : BufMut} (h : bs.length ≤ buf.remainingMut) :
    (putSlice bs buf : Fallible ε _) = .ok (buf.append bs) := by
  rw [putSlice, if_neg (by omega)]
  rfl

/-- A write followed by more code: the code continues on the longer buffer. -/
theorem putSlice_bind {β : Type} {bs : List UInt8} {buf : BufMut} (f : BufMut → Fallible ε β)
    (h : bs.length ≤ buf.remainingMut) :
    (putSlice bs buf >>= f) = f (buf.append bs) := by
  rw [putSlice_of_le h]
  rfl

end BufMut
