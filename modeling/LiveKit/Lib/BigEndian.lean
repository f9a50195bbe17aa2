import Mathlib.Data.List.Induction
import Mathlib.Tactic.Ring

/-!
# Big-endian byte strings

`toBe w n` is the `w`-byte big-endian encoding of `n` (the low `8 * w` bits of it), and
`ofBe` reads a byte string back as a number. `ofBe_toBe` is the round trip; the fixed-width
corollaries are stated for the machine integers that carry their own bound.
-/

namespace BigEndian

/-- The `w` low bytes of `n`, most significant first. -/
def toBe : ℕ → ℕ → List UInt8
  | 0, _ => []
  | w + 1, n => toBe w (n / 256) ++ [UInt8.ofNat n]

/-- The number a byte string denotes, most significant byte first. -/
def ofBe (bs : List UInt8) : ℕ := bs.foldl (fun acc b => acc * 256 + b.toNat) 0

@[simp] theorem length_toBe (w n : ℕ) : (toBe w n).length = w := by
  induction w generalizing n with
  | zero => rfl
  | succ w ih => rw [toBe, List.length_append, ih, List.length_singleton]

theorem ofBe_append_singleton (bs : List UInt8) (b : UInt8) :
    ofBe (bs ++ [b]) = ofBe bs * 256 + b.toNat := by
  rw [ofBe, List.foldl_append]
  rfl

/-- Reading an encoding back gives the number modulo the width. -/
theorem ofBe_toBe (w n : ℕ) : ofBe (toBe w n) = n % 256 ^ w := by
  induction w generalizing n with
  | zero => rw [pow_zero, Nat.mod_one]; rfl
  | succ w ih =>
    have hbyte : (UInt8.ofNat n).toNat = n % 256 := UInt8.toNat_ofNat'
    have hpow : 256 ^ (w + 1) = 256 * 256 ^ w := by ring
    rw [toBe, ofBe_append_singleton, ih, hbyte, hpow, Nat.mod_mul]
    omega

theorem ofBe_toBe_of_lt {w n : ℕ} (h : n < 256 ^ w) : ofBe (toBe w n) = n := by
  rw [ofBe_toBe, Nat.mod_eq_of_lt h]

/-- The encoding byte by byte, from the highest shift down. -/
theorem toBe_eq_map (w n : ℕ) :
    toBe w n = (List.range w).reverse.map fun i => UInt8.ofNat (n >>> (i * 8)) := by
  induction w generalizing n with
  | zero => rfl
  | succ w ih =>
    rw [toBe, ih, List.range_succ_eq_map, List.reverse_cons, ← List.map_reverse, List.map_append,
      List.map_map]
    congr 1
    apply List.map_congr_left
    intro i _
    show UInt8.ofNat ((n / 256) >>> (i * 8)) = UInt8.ofNat (n >>> ((i + 1) * 8))
    have hsum : (i + 1) * 8 = 8 + i * 8 := by ring
    rw [hsum, Nat.shiftRight_add, Nat.shiftRight_eq_div_pow n 8]

/-! ## Machine integers -/

/-- A 16-bit integer survives two bytes. -/
theorem ofBe_toBe_uint16 (v : UInt16) : UInt16.ofNat (ofBe (toBe 2 v.toNat)) = v := by
  have hlt : v.toNat < 256 ^ 2 := v.toNat_lt
  rw [ofBe_toBe_of_lt hlt, UInt16.ofNat_toNat]

/-- A 32-bit integer survives four bytes. -/
theorem ofBe_toBe_uint32 (v : UInt32) : UInt32.ofNat (ofBe (toBe 4 v.toNat)) = v := by
  have hlt : v.toNat < 256 ^ 4 := v.toNat_lt
  rw [ofBe_toBe_of_lt hlt, UInt32.ofNat_toNat]

/-- A 64-bit integer survives eight bytes. -/
theorem ofBe_toBe_uint64 (v : UInt64) : UInt64.ofNat (ofBe (toBe 8 v.toNat)) = v := by
  have hlt : v.toNat < 256 ^ 8 := v.toNat_lt
  rw [ofBe_toBe_of_lt hlt, UInt64.ofNat_toNat]

/-! ## Machine integers by shifts -/

theorem shiftLeft_or_byte (a : ℕ) {b : ℕ} (h : b < 256) : a <<< 8 ||| b = a * 256 + b := by
  have hor : 2 ^ 8 * a + b = 2 ^ 8 * a ||| b := Nat.two_pow_add_eq_or_of_lt h a
  rw [Nat.shiftLeft_eq, Nat.mul_comm a, ← hor]

/-- One byte shifted into a number of `w` bits. -/
theorem shiftLeft_or_mod (n w : ℕ) (b : UInt8) (h : 8 ≤ w) :
    ((n % 2 ^ w) <<< 8 % 2 ^ w ||| b.toNat) = (n * 256 + b.toNat) % 2 ^ w := by
  have hb : b.toNat < 256 := b.toNat_lt
  have hpow : 2 ^ w = 256 * 2 ^ (w - 8) := by
    rw [show 256 = 2 ^ 8 from rfl, ← pow_add, Nat.add_sub_cancel' h]
  -- the top byte is shifted out
  have hshift : (n % 2 ^ w) <<< 8 % 2 ^ w = (n % 2 ^ (w - 8)) <<< 8 := by
    rw [Nat.shiftLeft_eq, Nat.shiftLeft_eq, hpow, Nat.mul_comm _ (2 ^ 8), Nat.mul_mod_mul_left,
      Nat.mod_mod_of_dvd _ (Nat.dvd_mul_left _ _), Nat.mul_comm]
  have hlow : (n * 256 + b.toNat) % 256 = b.toNat := by omega
  have hhigh : (n * 256 + b.toNat) / 256 = n := by omega
  rw [hshift, shiftLeft_or_byte _ hb, hpow, Nat.mod_mul, hlow, hhigh]
  omega

/-- The number read by shifting the bytes into a 32-bit integer one by one. -/
theorem foldl_uint32 (bs : List UInt8) :
    bs.foldl (fun (acc : UInt32) b => acc <<< 8 ||| b.toUInt32) 0 = UInt32.ofNat (ofBe bs) := by
  have hstep : ∀ (n : ℕ) (b : UInt8),
      UInt32.ofNat n <<< 8 ||| b.toUInt32 = UInt32.ofNat (n * 256 + b.toNat) := by
    intro n b
    apply UInt32.toNat_inj.mp
    rw [UInt32.toNat_or, UInt32.toNat_shiftLeft, UInt8.toNat_toUInt32, UInt32.toNat_ofNat',
      UInt32.toNat_ofNat']
    exact shiftLeft_or_mod n 32 b (by omega)
  induction bs using List.reverseRecOn with
  | nil => rfl
  | append_singleton bs b ih =>
    rw [List.foldl_append, ih, ofBe_append_singleton, ← hstep]
    rfl

/-- The number read by shifting the bytes into a 64-bit integer one by one. -/
theorem foldl_uint64 (bs : List UInt8) :
    bs.foldl (fun (acc : UInt64) b => acc <<< 8 ||| b.toUInt64) 0 = UInt64.ofNat (ofBe bs) := by
  have hstep : ∀ (n : ℕ) (b : UInt8),
      UInt64.ofNat n <<< 8 ||| b.toUInt64 = UInt64.ofNat (n * 256 + b.toNat) := by
    intro n b
    apply UInt64.toNat_inj.mp
    rw [UInt64.toNat_or, UInt64.toNat_shiftLeft, UInt8.toNat_toUInt64, UInt64.toNat_ofNat',
      UInt64.toNat_ofNat']
    exact shiftLeft_or_mod n 64 b (by omega)
  induction bs using List.reverseRecOn with
  | nil => rfl
  | append_singleton bs b ih =>
    rw [List.foldl_append, ih, ofBe_append_singleton, ← hstep]
    rfl

/-- The byte of a 32-bit integer at a shift. -/
theorem toUInt8_shiftRight_uint32 (v : UInt32) {k : ℕ} (h : k < 32) :
    (v >>> UInt32.ofNat k).toUInt8 = UInt8.ofNat (v.toNat >>> k) := by
  have hk : (UInt32.ofNat k).toNat % 32 = k := by
    rw [UInt32.toNat_ofNat']
    omega
  apply UInt8.toNat_inj.mp
  rw [UInt32.toNat_toUInt8, UInt32.toNat_shiftRight, hk, UInt8.toNat_ofNat']

/-- The byte of a 64-bit integer at a shift. -/
theorem toUInt8_shiftRight_uint64 (v : UInt64) {k : ℕ} (h : k < 64) :
    (v >>> UInt64.ofNat k).toUInt8 = UInt8.ofNat (v.toNat >>> k) := by
  have hk : (UInt64.ofNat k).toNat % 64 = k := by
    rw [UInt64.toNat_ofNat']
    omega
  apply UInt8.toNat_inj.mp
  rw [UInt64.toNat_toUInt8, UInt64.toNat_shiftRight, hk, UInt8.toNat_ofNat']

end BigEndian
