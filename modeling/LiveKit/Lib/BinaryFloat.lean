import Mathlib.Data.Rat.Floor
import Mathlib.Data.Int.Log
import Mathlib.Tactic.Linarith
import Mathlib.Tactic.NormNum
import Mathlib.Tactic.FieldSimp
import Mathlib.Tactic.Ring

/-!
# Binary floating point

The values of a binary format are some rational numbers, two infinities and a NaN. The result of an
operation is the exact one, rounded to the nearest value of the format, and to the even one of two
that are equally near. Zero has no sign here: as a divisor it counts as positive.
-/

namespace BinaryFloat

/-- A format: the digits of a significand, the exponent of the last place that is smallest, and the
power of two that is too large. -/
structure Format where
  precision : ℕ
  minExp : ℤ
  maxExp : ℤ
  precision_pos : 0 < precision

def binary32 : Format := ⟨24, -149, 128, by decide⟩

def binary64 : Format := ⟨53, -1074, 1024, by decide⟩

/-- The number is a significand of the format times a power of two. -/
structure Format.Representable (f : Format) (q : ℚ) : Prop where
  digits : ∃ m e : ℤ, |m| < 2 ^ f.precision ∧ f.minExp ≤ e ∧ q = m * (2 : ℚ) ^ e
  range : |q| < (2 : ℚ) ^ f.maxExp

inductive Value (f : Format) where
  | nan
  | inf (negative : Bool)
  | finite (q : ℚ) (h : f.Representable q)

/-! ## Rounding -/

/-- The nearest integer, and of two the even one. -/
def roundEven (q : ℚ) : ℤ :=
  if q - ⌊q⌋ < 1 / 2 then ⌊q⌋
  else if 1 / 2 < q - ⌊q⌋ then ⌊q⌋ + 1
  else ⌊q⌋ + ⌊q⌋ % 2

/-- The exponent of the last place of numbers of this size. -/
def lastPlace (f : Format) (q : ℚ) : ℤ := max (Int.log 2 |q| - (f.precision - 1)) f.minExp

def roundTo (f : Format) (q : ℚ) : ℚ :=
  roundEven (q / (2 : ℚ) ^ lastPlace f q) * (2 : ℚ) ^ lastPlace f q

theorem roundEven_error (q : ℚ) : |(roundEven q : ℚ) - q| ≤ 1 / 2 := by
  have hle := Int.floor_le q
  have hlt := Int.lt_floor_add_one q
  unfold roundEven
  split_ifs with hdown hup
  · rw [abs_le]
    constructor
    · linarith
    · linarith
  · rw [abs_le]
    push_cast
    constructor
    · linarith
    · linarith
  · have hhalf : q - ⌊q⌋ = 1 / 2 := by linarith
    have hbit : ⌊q⌋ % 2 = 0 ∨ ⌊q⌋ % 2 = 1 := by omega
    rw [abs_le]
    push_cast
    rcases hbit with hbit | hbit
    · rw [hbit]
      push_cast
      constructor
      · linarith
      · linarith
    · rw [hbit]
      push_cast
      constructor
      · linarith
      · linarith

theorem roundEven_intCast (n : ℤ) : roundEven n = n := by
  unfold roundEven
  rw [Int.floor_intCast, if_pos (by norm_num)]

variable {q : ℚ}

variable {n k : ℤ}

/-- An integer bound stays one. -/
theorem le_roundEven (h : n ≤ q) : n ≤ roundEven q := by
  have herror := (abs_le.mp (roundEven_error q)).1
  have hlt : (n : ℚ) < roundEven q + 1 := by linarith
  exact Int.lt_add_one_iff.mp (by exact_mod_cast hlt)

theorem roundEven_le (h : q ≤ n) : roundEven q ≤ n := by
  have herror := (abs_le.mp (roundEven_error q)).2
  have hlt : (roundEven q : ℚ) < n + 1 := by linarith
  exact Int.lt_add_one_iff.mp (by exact_mod_cast hlt)

theorem two_zpow_pos (e : ℤ) : (0 : ℚ) < (2 : ℚ) ^ e := zpow_pos (by norm_num) e

/-- A power of two is a whole multiple of the smaller ones. -/
theorem exists_two_zpow_eq {a b : ℤ} (h : a ≤ b) :
    ∃ n : ℕ, (2 : ℚ) ^ b = 2 ^ n * (2 : ℚ) ^ a := by
  obtain ⟨n, hn⟩ := Int.eq_ofNat_of_zero_le (sub_nonneg.mpr h)
  refine ⟨n, ?_⟩
  rw [← zpow_natCast, ← hn, ← zpow_add₀ (by norm_num), sub_add_cancel]

theorem roundTo_error (f : Format) (q : ℚ) :
    |roundTo f q - q| ≤ (2 : ℚ) ^ lastPlace f q / 2 := by
  have hpos := two_zpow_pos (lastPlace f q)
  have herror := roundEven_error (q / (2 : ℚ) ^ lastPlace f q)
  have hscale : roundTo f q - q =
      (roundEven (q / (2 : ℚ) ^ lastPlace f q) - q / (2 : ℚ) ^ lastPlace f q) *
        (2 : ℚ) ^ lastPlace f q := by
    unfold roundTo
    field_simp
  rw [hscale, abs_mul, abs_of_pos hpos]
  calc |(roundEven (q / (2 : ℚ) ^ lastPlace f q) : ℚ) - q / (2 : ℚ) ^ lastPlace f q| *
        (2 : ℚ) ^ lastPlace f q ≤ 1 / 2 * (2 : ℚ) ^ lastPlace f q :=
        mul_le_mul_of_nonneg_right herror hpos.le
    _ = (2 : ℚ) ^ lastPlace f q / 2 := by ring

theorem le_lastPlace (f : Format) (q : ℚ) : Int.log 2 |q| - (f.precision - 1) ≤ lastPlace f q :=
  le_max_left _ _

theorem minExp_le_lastPlace (f : Format) (q : ℚ) : f.minExp ≤ lastPlace f q := le_max_right _ _

/-- The significand has the digits that there are, or is the next power of two. -/
theorem roundEven_digits (f : Format) (q : ℚ) :
    |roundEven (q / (2 : ℚ) ^ lastPlace f q)| ≤ 2 ^ f.precision := by
  have hpos := two_zpow_pos (lastPlace f q)
  have hle := le_lastPlace f q
  have hq : |q| < (2 : ℚ) ^ (Int.log 2 |q| + 1) := Int.lt_zpow_succ_log_self (by norm_num) |q|
  have hsize : |q / (2 : ℚ) ^ lastPlace f q| ≤ (2 : ℚ) ^ f.precision := by
    rw [abs_div, abs_of_pos hpos, div_le_iff₀ hpos, ← zpow_natCast, ← zpow_add₀ (by norm_num)]
    refine hq.le.trans (zpow_le_zpow_right₀ (by norm_num) ?_)
    omega
  obtain ⟨hlow, hhigh⟩ := abs_le.mp hsize
  rw [abs_le]
  constructor
  · apply le_roundEven
    push_cast
    exact hlow
  · apply roundEven_le
    push_cast
    exact hhigh

theorem representable_roundTo (f : Format) (q : ℚ) (h : |roundTo f q| < (2 : ℚ) ^ f.maxExp) :
    f.Representable (roundTo f q) := by
  refine ⟨?_, h⟩
  have hdigits := roundEven_digits f q
  have hmin := minExp_le_lastPlace f q
  have hpow : (2 : ℤ) ^ f.precision = 2 ^ (f.precision - 1) * 2 := by
    rw [← pow_succ, Nat.sub_add_cancel f.precision_pos]
  have hhalf : (0 : ℤ) < 2 ^ (f.precision - 1) := by positivity
  have hup : (2 : ℚ) ^ (lastPlace f q + 1) = 2 * (2 : ℚ) ^ lastPlace f q := by
    rw [zpow_add_one₀ (by norm_num), mul_comm]
  unfold roundTo
  by_cases hfit : |roundEven (q / (2 : ℚ) ^ lastPlace f q)| < 2 ^ f.precision
  · exact ⟨_, _, hfit, hmin, rfl⟩
  · -- the significand is a power of two, of which one digit is enough
    rcases abs_eq (by positivity) |>.mp (le_antisymm hdigits (not_lt.mp hfit)) with heq | heq
    · refine ⟨2 ^ (f.precision - 1), lastPlace f q + 1, ?_, by omega, ?_⟩
      · rw [abs_of_pos hhalf, hpow]
        omega
      · rw [heq, hpow, hup]
        push_cast
        ring
    · refine ⟨-2 ^ (f.precision - 1), lastPlace f q + 1, ?_, by omega, ?_⟩
      · rw [abs_neg, abs_of_pos hhalf, hpow]
        omega
      · rw [heq, hpow, hup]
        push_cast
        ring

variable {f : Format}

/-- The values of the format are exact. -/
theorem roundTo_of_representable (h : f.Representable q) : roundTo f q = q := by
  obtain ⟨m, e, hm, he, hq⟩ := h.digits
  by_cases hzero : q = 0
  · have hround : roundEven 0 = 0 := roundEven_intCast 0
    rw [hzero, roundTo, zero_div, hround, Int.cast_zero, zero_mul]
  · have hlast : lastPlace f q ≤ e := by
      apply max_le _ he
      have habs : |q| < (2 : ℚ) ^ ((f.precision : ℤ) + e) := by
        rw [hq, abs_mul, abs_of_pos (two_zpow_pos e), zpow_add₀ (by norm_num), zpow_natCast]
        apply mul_lt_mul_of_pos_right _ (two_zpow_pos e)
        exact_mod_cast hm
      have hlog := (Int.lt_zpow_iff_log_lt (b := 2) (by norm_num) (abs_pos.mpr hzero)).mp habs
      omega
    obtain ⟨k, hk⟩ := exists_two_zpow_eq hlast
    have hint : q / (2 : ℚ) ^ lastPlace f q = ((m * 2 ^ k : ℤ) : ℚ) := by
      rw [div_eq_iff (two_zpow_pos _).ne']
      push_cast
      rw [mul_assoc, ← hk]
      exact hq
    unfold roundTo
    rw [hint, roundEven_intCast, ← hint, div_mul_cancel₀ _ (two_zpow_pos _).ne']

/-- A power of two is a bound that stays one. -/
theorem le_roundTo (hk : f.minExp ≤ k) (h : (2 : ℚ) ^ k ≤ q) :
    (2 : ℚ) ^ k ≤ roundTo f q := by
  have hq : 0 < q := (two_zpow_pos k).trans_le h
  have hlog : k ≤ Int.log 2 q := (Int.zpow_le_iff_le_log (b := 2) (by norm_num) hq).mp h
  have hlast : lastPlace f q ≤ Int.log 2 q := by
    unfold lastPlace
    have hpos := f.precision_pos
    rw [abs_of_pos hq]
    apply max_le
    · omega
    · omega
  obtain ⟨n, hsplit⟩ := exists_two_zpow_eq hlast
  have hpos := two_zpow_pos (lastPlace f q)
  have hsignificand : ((2 ^ n : ℤ) : ℚ) ≤ q / (2 : ℚ) ^ lastPlace f q := by
    rw [le_div_iff₀ hpos]
    push_cast
    rw [← hsplit]
    exact Int.zpow_log_le_self (by norm_num) hq
  have hround : ((2 ^ n : ℤ) : ℚ) ≤ roundEven (q / (2 : ℚ) ^ lastPlace f q) :=
    Int.cast_le.mpr (le_roundEven hsignificand)
  calc (2 : ℚ) ^ k ≤ (2 : ℚ) ^ Int.log 2 q := zpow_le_zpow_right₀ (by norm_num) hlog
    _ = ((2 ^ n : ℤ) : ℚ) * (2 : ℚ) ^ lastPlace f q := by
      rw [hsplit]
      push_cast
      ring
    _ ≤ roundTo f q := mul_le_mul_of_nonneg_right hround hpos.le

/-- A number below a power of two, by more than half of the last place there, stays below it. -/
theorem roundTo_lt (hk : f.minExp + f.precision ≤ k) (hq : 0 < q)
    (h : q + (2 : ℚ) ^ (k - f.precision - 1) < (2 : ℚ) ^ k) : roundTo f q < (2 : ℚ) ^ k := by
  have hlt : q < (2 : ℚ) ^ k := by
    have hpos := two_zpow_pos (k - f.precision - 1)
    linarith
  have hlog := (Int.lt_zpow_iff_log_lt (b := 2) (by norm_num) hq).mp hlt
  have hlast : lastPlace f q ≤ k - f.precision := by
    unfold lastPlace
    rw [abs_of_pos hq]
    apply max_le
    · omega
    · omega
  have hplace : (2 : ℚ) ^ lastPlace f q / 2 ≤ (2 : ℚ) ^ (k - f.precision - 1) := by
    rw [zpow_sub_one₀ (by norm_num), ← div_eq_mul_inv]
    apply div_le_div_of_nonneg_right _ (by norm_num)
    exact zpow_le_zpow_right₀ (by norm_num) hlast
  have herror := (abs_le.mp (roundTo_error f q)).2
  linarith

/-- Between a value of the format and three times a power of two there is a whole last place. -/
theorem representable_gap (h : f.Representable q) {k : ℤ} (hp : 2 ≤ f.precision)
    (hq : q < 3 * (2 : ℚ) ^ k) : q + (2 : ℚ) ^ (k + 2 - f.precision) ≤ 3 * (2 : ℚ) ^ k := by
  have hone : (2 : ℚ) ^ (k + 1) = 2 * (2 : ℚ) ^ k := by
    rw [zpow_add_one₀ (by norm_num), mul_comm]
  by_cases hsmall : q ≤ (2 : ℚ) ^ (k + 1)
  · have hplace : (2 : ℚ) ^ (k + 2 - f.precision) ≤ (2 : ℚ) ^ k :=
      zpow_le_zpow_right₀ (by norm_num) (by omega)
    linarith
  · obtain ⟨m, e, hm, -, heq⟩ := h.digits
    have hpos := two_zpow_pos e
    have hdigits : (m : ℚ) < 2 ^ f.precision := by
      exact_mod_cast (le_abs_self m).trans_lt hm
    -- the last place of the value is not below the one here
    have he : k + 2 - f.precision ≤ e := by
      have hlt : (2 : ℚ) ^ (k + 1) < (2 : ℚ) ^ ((f.precision : ℤ) + e) := by
        refine (not_le.mp hsmall).trans ?_
        rw [heq, zpow_add₀ (by norm_num) (f.precision : ℤ), zpow_natCast]
        exact mul_lt_mul_of_pos_right hdigits hpos
      have hexp := (zpow_lt_zpow_iff_right₀ (by norm_num)).mp hlt
      omega
    obtain ⟨n, hn⟩ := exists_two_zpow_eq he
    obtain ⟨j, hj⟩ := exists_two_zpow_eq (show k + 2 - (f.precision : ℤ) ≤ k by omega)
    have hunit := two_zpow_pos (k + 2 - f.precision)
    have hvalue : q = ((m * 2 ^ n : ℤ) : ℚ) * (2 : ℚ) ^ (k + 2 - f.precision) := by
      rw [heq, hn]
      push_cast
      ring
    have hbound : 3 * (2 : ℚ) ^ k = ((3 * 2 ^ j : ℤ) : ℚ) * (2 : ℚ) ^ (k + 2 - f.precision) := by
      push_cast
      rw [mul_assoc, ← hj]
    rw [hvalue, hbound] at hq ⊢
    have hint := lt_of_mul_lt_mul_right hq hunit.le
    have hnext : m * 2 ^ n + 1 ≤ 3 * 2 ^ j := Int.cast_lt.mp hint
    have hcast : ((m * 2 ^ n : ℤ) : ℚ) + 1 ≤ ((3 * 2 ^ j : ℤ) : ℚ) := by exact_mod_cast hnext
    calc ((m * 2 ^ n : ℤ) : ℚ) * (2 : ℚ) ^ (k + 2 - f.precision) +
          (2 : ℚ) ^ (k + 2 - f.precision)
        = (((m * 2 ^ n : ℤ) : ℚ) + 1) * (2 : ℚ) ^ (k + 2 - f.precision) := by ring
      _ ≤ ((3 * 2 ^ j : ℤ) : ℚ) * (2 : ℚ) ^ (k + 2 - f.precision) :=
        mul_le_mul_of_nonneg_right hcast hunit.le

/-- A third that is rounded to an even significand was exact. -/
theorem eq_three_mul_roundTo (h : f.Representable q) (hq : 0 < q)
    (hmin : f.minExp < lastPlace f (q / 3))
    (heven : 2 ∣ roundEven (q / 3 / (2 : ℚ) ^ lastPlace f (q / 3))) :
    q = 3 * roundTo f (q / 3) := by
  obtain ⟨m, e, hm, -, heq⟩ := h.digits
  have hthird : 0 < q / 3 := by linarith
  have hlast : lastPlace f (q / 3) = Int.log 2 (q / 3) - (f.precision - 1) := by
    unfold lastPlace at hmin ⊢
    rw [abs_of_pos hthird] at hmin ⊢
    omega
  -- the last place of the value is above the one of its third
  have he : lastPlace f (q / 3) + 1 ≤ e := by
    have hlow : (2 : ℚ) ^ Int.log 2 (q / 3) ≤ q / 3 := Int.zpow_log_le_self (by norm_num) hthird
    have hhigh : q < (2 : ℚ) ^ ((f.precision : ℤ) + e) := by
      rw [heq, zpow_add₀ (by norm_num), zpow_natCast]
      apply mul_lt_mul_of_pos_right _ (two_zpow_pos e)
      exact_mod_cast (le_abs_self m).trans_lt hm
    have hdouble : (2 : ℚ) ^ (Int.log 2 (q / 3) + 1) = 2 * (2 : ℚ) ^ Int.log 2 (q / 3) := by
      rw [zpow_add_one₀ (by norm_num), mul_comm]
    have hlt : (2 : ℚ) ^ (Int.log 2 (q / 3) + 1) < (2 : ℚ) ^ ((f.precision : ℤ) + e) := by
      linarith
    have hexp := (zpow_lt_zpow_iff_right₀ (by norm_num)).mp hlt
    omega
  obtain ⟨n, hn⟩ := exists_two_zpow_eq he
  obtain ⟨c, hc⟩ := heven
  have hpos := two_zpow_pos (lastPlace f (q / 3))
  have hdouble : (2 : ℚ) ^ (lastPlace f (q / 3) + 1) = 2 * (2 : ℚ) ^ lastPlace f (q / 3) := by
    rw [zpow_add_one₀ (by norm_num), mul_comm]
  have hvalue : q = ((m * 2 ^ n : ℤ) : ℚ) * (2 * (2 : ℚ) ^ lastPlace f (q / 3)) := by
    calc q = m * (2 ^ n * (2 : ℚ) ^ (lastPlace f (q / 3) + 1)) := by rw [← hn]; exact heq
      _ = ((m * 2 ^ n : ℤ) : ℚ) * (2 * (2 : ℚ) ^ lastPlace f (q / 3)) := by
        rw [hdouble]
        push_cast
        ring
  have hround : roundTo f (q / 3) = (c : ℚ) * (2 * (2 : ℚ) ^ lastPlace f (q / 3)) := by
    unfold roundTo
    rw [hc]
    push_cast
    ring
  have hclose : |((3 * c - m * 2 ^ n : ℤ) : ℚ)| < 1 := by
    have herror := roundTo_error f (q / 3)
    have hdiff : roundTo f (q / 3) - q / 3 = ((3 * c - m * 2 ^ n : ℤ) : ℚ) *
        (2 / 3 * (2 : ℚ) ^ lastPlace f (q / 3)) := by
      rw [hround, sub_eq_iff_eq_add]
      nth_rewrite 3 [hvalue]
      push_cast
      ring
    have hunit : 0 < 2 / 3 * (2 : ℚ) ^ lastPlace f (q / 3) := by positivity
    rw [hdiff, abs_mul, abs_of_pos hunit] at herror
    by_contra hge
    have hmul := mul_le_mul_of_nonneg_right (not_lt.mp hge) hunit.le
    linarith
  have hsame : m * 2 ^ n = 3 * c := by
    have hint : |3 * c - m * 2 ^ n| < 1 := by exact_mod_cast hclose
    have hzero := Int.abs_lt_one_iff.mp hint
    omega
  calc q = ((m * 2 ^ n : ℤ) : ℚ) * (2 * (2 : ℚ) ^ lastPlace f (q / 3)) := hvalue
    _ = 3 * ((c : ℚ) * (2 * (2 : ℚ) ^ lastPlace f (q / 3))) := by
      rw [hsame]
      push_cast
      ring
    _ = 3 * roundTo f (q / 3) := by rw [hround]

theorem roundTo_nonneg (h : 0 ≤ q) : 0 ≤ roundTo f q := by
  have hpos := two_zpow_pos (lastPlace f q)
  have hround : 0 ≤ roundEven (q / (2 : ℚ) ^ lastPlace f q) := by
    apply le_roundEven
    push_cast
    exact div_nonneg h hpos.le
  exact mul_nonneg (Int.cast_nonneg hround) hpos.le

theorem roundTo_nonpos (h : q ≤ 0) : roundTo f q ≤ 0 := by
  have hpos := two_zpow_pos (lastPlace f q)
  have hround : roundEven (q / (2 : ℚ) ^ lastPlace f q) ≤ 0 := by
    apply roundEven_le
    push_cast
    exact div_nonpos_of_nonpos_of_nonneg h hpos.le
  exact mul_nonpos_of_nonpos_of_nonneg (Int.cast_nonpos.mpr hround) hpos.le

/-! ## Operations -/

theorem Format.Representable.abs (h : f.Representable q) : f.Representable |q| := by
  rcases abs_choice q with hq | hq
  · rw [hq]
    exact h
  · obtain ⟨m, e, hm, he, heq⟩ := h.digits
    rw [hq]
    refine ⟨⟨-m, e, by rwa [abs_neg], he, ?_⟩, by rw [abs_neg]; exact h.range⟩
    rw [heq]
    push_cast
    ring

namespace Value

variable {f : Format}

/-- The exact result rounded; what is too large is infinite. -/
def ofRat (f : Format) (q : ℚ) : Value f :=
  if h : |roundTo f q| < (2 : ℚ) ^ f.maxExp then .finite (roundTo f q) (representable_roundTo f q h)
  else .inf (q < 0)

def sub : Value f → Value f → Value f
  | .nan, _ => .nan
  | _, .nan => .nan
  | .inf a, .inf b => if a = b then .nan else .inf a
  | .inf a, .finite _ _ => .inf a
  | .finite _ _, .inf b => .inf (!b)
  | .finite a _, .finite b _ => ofRat f (a - b)

def mul : Value f → Value f → Value f
  | .nan, _ => .nan
  | _, .nan => .nan
  | .inf a, .inf b => .inf (a ^^ b)
  | .inf a, .finite b _ => if b = 0 then .nan else .inf (a ^^ decide (b < 0))
  | .finite a _, .inf b => if a = 0 then .nan else .inf (decide (a < 0) ^^ b)
  | .finite a _, .finite b _ => ofRat f (a * b)

def div : Value f → Value f → Value f
  | .nan, _ => .nan
  | _, .nan => .nan
  | .inf _, .inf _ => .nan
  | .inf a, .finite b _ => .inf (a ^^ decide (b < 0))
  | .finite _ _, .inf _ => ofRat f 0
  | .finite a _, .finite b _ =>
    if b = 0 then if a = 0 then .nan else .inf (a < 0) else ofRat f (a / b)

def abs : Value f → Value f
  | .nan => .nan
  | .inf _ => .inf false
  | .finite q h => .finite |q| h.abs

/-- Nothing is less than a NaN, or greater. -/
def lt : Value f → Value f → Bool
  | .nan, _ => false
  | _, .nan => false
  | .inf a, .inf b => a && !b
  | .inf a, .finite _ _ => a
  | .finite _ _, .inf b => !b
  | .finite a _, .finite b _ => a < b

/-- The greater of the two, of which one may be a NaN. -/
def max : Value f → Value f → Value f
  | .nan, b => b
  | a, .nan => a
  | a, b => if a.lt b then b else a

/-- What an unsigned type with this largest number makes of it: the whole part within the type. -/
def toNat (largest : ℕ) : Value f → ℕ
  | .nan => 0
  | .inf negative => if negative then 0 else largest
  | .finite q _ => min ⌊q⌋₊ largest

/-- As `toNat`, of the number rounded up. -/
def ceilToNat (largest : ℕ) : Value f → ℕ
  | .nan => 0
  | .inf negative => if negative then 0 else largest
  | .finite q _ => min ⌈q⌉₊ largest

/-- The number is this one. -/
def Is (number : ℚ) : Value f → Prop
  | .nan => False
  | .inf _ => False
  | .finite q _ => q = number

/-- A number that is not below this one. -/
def AtLeast (bound : ℚ) : Value f → Prop
  | .nan => False
  | .inf negative => negative = false
  | .finite q _ => bound ≤ q

instance (number : ℚ) (v : Value f) : Decidable (Is number v) :=
  match v with
  | .nan => inferInstanceAs (Decidable False)
  | .inf _ => inferInstanceAs (Decidable False)
  | .finite q _ => inferInstanceAs (Decidable (q = number))

instance (bound : ℚ) (v : Value f) : Decidable (AtLeast bound v) :=
  match v with
  | .nan => inferInstanceAs (Decidable False)
  | .inf negative => inferInstanceAs (Decidable (negative = false))
  | .finite q _ => inferInstanceAs (Decidable (bound ≤ q))

theorem toNat_le (largest : ℕ) (v : Value f) : toNat largest v ≤ largest := by
  cases v with
  | nan => exact Nat.zero_le _
  | inf negative =>
    show (if negative then 0 else largest) ≤ largest
    split
    · exact Nat.zero_le _
    · exact Nat.le_refl _
  | finite q h => exact Nat.min_le_right _ _

variable {q : ℚ}

theorem ofRat_of_representable (h : f.Representable q) : ofRat f q = .finite q h := by
  have hsame := roundTo_of_representable h
  unfold ofRat
  simp only [hsame]
  rw [dif_pos h.range]

variable {largest : ℕ}

variable {k n j : ℕ}

theorem two_pow_le_toNat_ofRat (hlargest : 2 ^ k ≤ largest) (hmax : (k : ℤ) ≤ f.maxExp) (q : ℚ) :
    2 ^ k ≤ toNat largest (ofRat f q) ↔ (2 : ℚ) ^ (k : ℤ) ≤ roundTo f q := by
  have hpos := two_zpow_pos k
  unfold ofRat
  split_ifs with hrange
  · show 2 ^ k ≤ min ⌊roundTo f q⌋₊ largest ↔ _
    rw [le_min_iff, and_iff_left hlargest, zpow_natCast]
    by_cases hneg : roundTo f q < 0
    · rw [Nat.floor_of_nonpos hneg.le]
      refine iff_of_false (Nat.not_le.mpr (by positivity)) (not_le.mpr ?_)
      exact hneg.trans (by positivity)
    · rw [Nat.le_floor_iff (not_lt.mp hneg)]
      push_cast
      rfl
  · have hlarge := not_lt.mp hrange
    by_cases hneg : q < 0
    · have hround : roundTo f q ≤ 0 := roundTo_nonpos hneg.le
      show 2 ^ k ≤ (if decide (q < 0) = true then 0 else largest) ↔ _
      rw [if_pos (decide_eq_true hneg)]
      refine iff_of_false (Nat.not_le.mpr (by positivity)) (not_le.mpr ?_)
      linarith
    · have hround : 0 ≤ roundTo f q := roundTo_nonneg (not_lt.mp hneg)
      show 2 ^ k ≤ (if decide (q < 0) = true then 0 else largest) ↔ _
      rw [if_neg (by simpa using hneg)]
      refine iff_of_true hlargest ?_
      rw [abs_of_nonneg hround] at hlarge
      exact (zpow_le_zpow_right₀ (by norm_num) hmax).trans hlarge

/-- A third of a value of the format is rounded below a power of two exactly where it is. -/
theorem two_pow_le_roundTo_third (h : f.Representable q) {k : ℤ} (hp : 2 ≤ f.precision)
    (hmin : f.minExp + f.precision ≤ k) :
    (2 : ℚ) ^ k ≤ roundTo f (q / 3) ↔ 3 * (2 : ℚ) ^ k ≤ q := by
  constructor
  · intro hround
    by_contra hlt
    by_cases hpos : 0 < q
    · have hgap := representable_gap h (k := k) hp (not_le.mp hlt)
      have hplaces : (2 : ℚ) ^ (k + 2 - f.precision) = 8 * (2 : ℚ) ^ (k - f.precision - 1) := by
        rw [show k + 2 - (f.precision : ℤ) = 3 + (k - f.precision - 1) by ring,
          zpow_add₀ (by norm_num)]
        norm_num
      have hplace := two_zpow_pos (k - f.precision - 1)
      have hbelow := roundTo_lt (f := f) (q := q / 3) hmin (by linarith) (by linarith)
      linarith
    · have hnonpos : roundTo f (q / 3) ≤ 0 := roundTo_nonpos (by linarith [not_lt.mp hpos])
      have hpower := two_zpow_pos k
      linarith
  · intro hle
    apply le_roundTo
    · omega
    · linarith

theorem div_three (h : f.Representable q) (h3 : f.Representable 3) :
    (Value.finite q h).div (.finite 3 h3) = ofRat f (q / 3) := by
  unfold div
  dsimp only
  rw [if_neg (by norm_num)]

/-- The whole part of a third is at least a power of two exactly where the value is at least three
times as much. -/
theorem two_pow_le_toNat_third (hlargest : 2 ^ k ≤ largest) (hmax : (k : ℤ) ≤ f.maxExp)
    (hp : 2 ≤ f.precision) (hmin : f.minExp + f.precision ≤ 0) (h3 : f.Representable 3)
    (v : Value f) : 2 ^ k ≤ toNat largest (v.div (.finite 3 h3)) ↔ AtLeast (3 * 2 ^ k) v := by
  cases v with
  | nan => exact iff_of_false (Nat.not_le.mpr (by positivity)) id
  | inf negative =>
    show 2 ^ k ≤ (if (negative ^^ decide ((3 : ℚ) < 0)) = true then 0 else largest) ↔ _
    have hthree : decide ((3 : ℚ) < 0) = false := by norm_num
    rw [hthree, Bool.xor_false]
    cases negative with
    | true => exact iff_of_false (Nat.not_le.mpr (by positivity)) Bool.noConfusion
    | false => exact iff_of_true hlargest rfl
  | finite q h =>
    rw [div_three, two_pow_le_toNat_ofRat hlargest hmax,
      two_pow_le_roundTo_third h hp (by omega), zpow_natCast]
    rfl

/-- What is rounded to a number with a whole last place has no part beside it. -/
theorem eq_of_floor_roundTo (hplace : 0 ≤ lastPlace f q) (hround : 0 ≤ roundTo f q)
    (hfloor : ⌊roundTo f q⌋₊ = n) : roundTo f q = n := by
  obtain ⟨u, hu⟩ := Int.eq_ofNat_of_zero_le hplace
  have hwhole : roundTo f q = ((roundEven (q / (2 : ℚ) ^ lastPlace f q) * 2 ^ u : ℤ) : ℚ) := by
    nth_rewrite 1 [roundTo]
    push_cast
    rw [← zpow_natCast, ← hu]
  obtain ⟨hle, hlt⟩ := (Nat.floor_eq_iff hround).mp hfloor
  rw [hwhole] at hle hlt ⊢
  have hlow : (n : ℤ) ≤ roundEven (q / (2 : ℚ) ^ lastPlace f q) * 2 ^ u := by exact_mod_cast hle
  have hhigh : roundEven (q / (2 : ℚ) ^ lastPlace f q) * 2 ^ u < (n : ℤ) + 1 := by
    exact_mod_cast hlt
  have hsame : roundEven (q / (2 : ℚ) ^ lastPlace f q) * 2 ^ u = (n : ℤ) := by omega
  exact_mod_cast congrArg (Int.cast : ℤ → ℚ) hsame

/-- The third of a value is rounded to a number that ends in enough zeros only if it is that. -/
theorem eq_of_roundTo_third (h : f.Representable q) (hj : 0 < j)
    (hdigits : j < 2 ^ (f.precision - 1)) (hk : f.precision ≤ k + 1) (hp : 2 ≤ f.precision)
    (hmin : f.minExp + f.precision ≤ 0) (hfloor : ⌊roundTo f (q / 3)⌋₊ = j * 2 ^ k) :
    q = 3 * (j * 2 ^ k) := by
  have hnat : 2 ^ k ≤ j * 2 ^ k := Nat.le_mul_of_pos_left _ hj
  have hround : 0 < roundTo f (q / 3) := by
    by_contra hle
    rw [Nat.floor_of_nonpos (not_lt.mp hle)] at hfloor
    have hpower : 0 < j * 2 ^ k := by positivity
    omega
  have hq : 0 < q / 3 := by
    by_contra hle
    have hnonpos := roundTo_nonpos (f := f) (not_lt.mp hle)
    linarith
  obtain ⟨hle, hlt⟩ := (Nat.floor_eq_iff hround.le).mp hfloor
  -- the sizes of the value and of its last place
  have hlow : (k : ℤ) ≤ Int.log 2 (q / 3) := by
    have hcast : ((2 ^ k : ℕ) : ℚ) ≤ ((j * 2 ^ k : ℕ) : ℚ) := Nat.cast_le.mpr hnat
    have hpower : (2 : ℚ) ^ (k : ℤ) ≤ roundTo f (q / 3) := by
      rw [zpow_natCast]
      push_cast at hcast hle
      linarith
    have hthird := (two_pow_le_roundTo_third h hp (by omega)).mp hpower
    exact (Int.zpow_le_iff_le_log (b := 2) (by norm_num) hq).mp
      (show (2 : ℚ) ^ (k : ℤ) ≤ q / 3 by linarith)
  have hhigh : Int.log 2 (q / 3) < (k : ℤ) + (f.precision - 1) := by
    have hnat : (j + 1) * 2 ^ k ≤ 2 ^ (f.precision - 1) * 2 ^ k :=
      Nat.mul_le_mul_right _ hdigits
    have hcast : ((j * 2 ^ k + 1 : ℕ) : ℚ) ≤ ((2 ^ (f.precision - 1) * 2 ^ k : ℕ) : ℚ) := by
      have hone : 1 ≤ 2 ^ k := Nat.one_le_two_pow
      apply Nat.cast_le.mpr
      linarith
    have hexp : (k : ℤ) + (f.precision - 1) = ((f.precision - 1 + k : ℕ) : ℤ) := by omega
    have hpower : ¬(2 : ℚ) ^ ((k : ℤ) + (f.precision - 1)) ≤ roundTo f (q / 3) := by
      rw [hexp, zpow_natCast, pow_add]
      push_cast at hcast hlt
      linarith
    rw [two_pow_le_roundTo_third h hp (by omega)] at hpower
    apply (Int.lt_zpow_iff_log_lt (b := 2) (by norm_num) hq).mp
    push_cast
    linarith [not_le.mp hpower]
  have hplace : lastPlace f (q / 3) = Int.log 2 (q / 3) - (f.precision - 1) := by
    unfold lastPlace
    rw [abs_of_pos hq]
    omega
  have hwhole := eq_of_floor_roundTo (by omega) hround.le hfloor
  have hexact := eq_three_mul_roundTo h (by linarith) (by omega) ?_
  · rw [hexact, hwhole]
    push_cast
    ring
  · -- the significand is that of the number, with a zero at the end
    obtain ⟨u, hu⟩ := Int.eq_ofNat_of_zero_le (show 0 ≤ lastPlace f (q / 3) by omega)
    obtain ⟨d, hd⟩ := Nat.exists_eq_add_of_lt (show u < k by omega)
    have hsignificand : roundEven (q / 3 / (2 : ℚ) ^ lastPlace f (q / 3)) * 2 ^ u =
        2 * (j * 2 ^ d) * 2 ^ u := by
      have hcast : ((roundEven (q / 3 / (2 : ℚ) ^ lastPlace f (q / 3)) * 2 ^ u : ℤ) : ℚ) =
          ((2 * (j * 2 ^ d) * 2 ^ u : ℤ) : ℚ) := by
        calc ((roundEven (q / 3 / (2 : ℚ) ^ lastPlace f (q / 3)) * 2 ^ u : ℤ) : ℚ) =
              roundTo f (q / 3) := by
              rw [roundTo, hu, zpow_natCast]
              push_cast
              rfl
          _ = ((j * 2 ^ k : ℕ) : ℚ) := hwhole
          _ = ((2 * (j * 2 ^ d) * 2 ^ u : ℤ) : ℚ) := by
              rw [hd]
              push_cast
              ring
      exact_mod_cast hcast
    rw [Int.eq_of_mul_eq_mul_right (by positivity) hsignificand]
    exact Int.dvd_mul_right _ _

theorem toNat_ofRat_eq (hn : 0 < n) (hlargest : n < largest) (q : ℚ)
    (h : toNat largest (ofRat f q) = n) : ⌊roundTo f q⌋₊ = n := by
  unfold ofRat at h
  split_ifs at h with hrange
  · have hmin : min ⌊roundTo f q⌋₊ largest = n := h
    omega
  · have hlarge : (if decide (q < 0) = true then 0 else largest) = n := h
    split_ifs at hlarge
    · omega
    · omega

/-- The whole part of a third is a number that ends in enough zeros exactly where the value is
three times as much. -/
theorem toNat_third_eq (hj : 0 < j) (hdigits : j < 2 ^ (f.precision - 1)) (hk : f.precision ≤ k + 1)
    (hlargest : j * 2 ^ k < largest) (hp : 2 ≤ f.precision) (hmin : f.minExp + f.precision ≤ 0)
    (h3 : f.Representable 3) (v : Value f) :
    toNat largest (v.div (.finite 3 h3)) = j * 2 ^ k ↔ Is (3 * (j * 2 ^ k)) v := by
  have hpos : 0 < j * 2 ^ k := by positivity
  cases v with
  | nan => exact iff_of_false hpos.ne id
  | inf negative =>
    refine iff_of_false ?_ id
    show (if (negative ^^ decide ((3 : ℚ) < 0)) = true then 0 else largest) ≠ _
    split_ifs
    · exact hpos.ne
    · exact hlargest.ne'
  | finite q h =>
    rw [div_three]
    constructor
    · intro hsame
      exact eq_of_roundTo_third h hj hdigits hk hp hmin (toNat_ofRat_eq hpos hlargest _ hsame)
    · intro hsame
      have hthird : q / 3 = ((j * 2 ^ k : ℕ) : ℚ) := by
        have hvalue : q = 3 * (j * 2 ^ k) := hsame
        push_cast
        linarith
      have hrep : f.Representable ((j * 2 ^ k : ℕ) : ℚ) := by
        refine ⟨⟨j, k, ?_, by omega, ?_⟩, ?_⟩
        · have hlt : 2 ^ (f.precision - 1) ≤ 2 ^ f.precision :=
            Nat.pow_le_pow_right (by norm_num) (Nat.sub_le _ _)
          rw [Nat.abs_cast]
          exact_mod_cast hdigits.trans_le hlt
        · push_cast
          rw [zpow_natCast]
        · have hrange := h.range
          rw [← hthird, abs_div, abs_of_pos (show (0 : ℚ) < 3 by norm_num)]
          have hnonneg := abs_nonneg q
          linarith
      rw [hthird, ofRat_of_representable hrep]
      show min ⌊((j * 2 ^ k : ℕ) : ℚ)⌋₊ largest = _
      rw [Nat.floor_natCast]
      omega

end Value

end BinaryFloat
