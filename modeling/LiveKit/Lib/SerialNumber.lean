import Mathlib.Data.Nat.Basic

/-!
# Wrapping 16-bit serial numbers

A serial number is a `UInt16` that wraps from 65535 to 0. `s + i` is the number `i` places
after `s`, and `dist s t` is how many places `t` is after `s`. Within one turn of the circle
(fewer than `2 ^ 16` places) the two are inverse to each other.
-/

namespace SerialNumber

/-- The number `i` places after `s`. -/
def after (s : UInt16) (i : ℕ) : UInt16 := s + UInt16.ofNat i

/-- How many places `t` is after `s`. -/
def dist (s t : UInt16) : ℕ := (t - s).toNat

@[simp] theorem after_zero (s : UInt16) : after s 0 = s := UInt16.add_zero s

theorem toNat_after (s : UInt16) (i : ℕ) : (after s i).toNat = (s.toNat + i) % 65536 := by
  rw [after, UInt16.toNat_add, UInt16.toNat_ofNat']
  omega

theorem after_after (s : UInt16) (i j : ℕ) : after (after s i) j = after s (i + j) := by
  apply UInt16.toNat_inj.mp
  rw [toNat_after, toNat_after, toNat_after]
  omega

theorem after_succ (s : UInt16) (i : ℕ) : after (s + 1) i = after s (i + 1) := by
  rw [show s + 1 = after s 1 from rfl, after_after, Nat.add_comm]

/-- Numbers less than a full turn apart are distinct. -/
theorem after_injective {s : UInt16} {i j : ℕ} (hi : i < 65536) (hj : j < 65536)
    (h : after s i = after s j) : i = j := by
  have hnat := congrArg UInt16.toNat h
  have hs := s.toNat_lt
  rw [toNat_after, toNat_after] at hnat
  omega

theorem dist_lt (s t : UInt16) : dist s t < 65536 := (t - s).toNat_lt

theorem after_dist (s t : UInt16) : after s (dist s t) = t := by
  apply UInt16.toNat_inj.mp
  rw [toNat_after, dist, UInt16.toNat_sub]
  have hs := s.toNat_lt
  have ht := t.toNat_lt
  omega

theorem dist_after {s : UInt16} {i : ℕ} (hi : i < 65536) : dist s (after s i) = i :=
  after_injective (dist_lt _ _) hi (after_dist _ _)

@[simp] theorem dist_self (s : UInt16) : dist s s = 0 := by
  have h := dist_after (s := s) (i := 0) (by omega)
  rwa [after_zero] at h

/-- Walking one place towards a number that is not reached yet. -/
theorem dist_succ_left {s t : UInt16} (h : s ≠ t) : dist s t = dist (s + 1) t + 1 := by
  have hpos : dist s t ≠ 0 := by
    intro hzero
    have := after_dist s t
    rw [hzero, after_zero] at this
    exact h this
  have hsame : after (s + 1) (dist s t - 1) = after (s + 1) (dist (s + 1) t) := by
    rw [after_succ, after_dist, show dist s t - 1 + 1 = dist s t by omega, after_dist]
  have hlt := dist_lt s t
  have := after_injective (by omega) (dist_lt _ _) hsame
  omega

end SerialNumber
