import Mathlib.Algebra.Order.Field.Power
import Mathlib.Data.Int.Log
import Mathlib.Data.Rat.Floor
import Mathlib.Tactic.Positivity

/-!
# Rounding to binary64

The number of the binary64 format that is nearest to a rational number, of two that are as near
the one with the even significand.  Infinities are left out: the numbers are assumed to be in the
range of the format.

## Main definitions

* `Binary64.halfEven` — the nearest integer.
* `Binary64.round` — the nearest number of the format.

## Main results

* `Binary64.round_mono` — rounding keeps the order.
* `Binary64.round_dyadic` — the numbers of the format stay as they are.
-/

namespace Binary64

/-! ## The nearest integer -/

/-- The nearest integer, of two that are as near the even one. -/
def halfEven (x : ℚ) : ℤ :=
  if x - ⌊x⌋ < 1 / 2 then ⌊x⌋
  else if 1 / 2 < x - ⌊x⌋ then ⌊x⌋ + 1
  else if Even ⌊x⌋ then ⌊x⌋
  else ⌊x⌋ + 1

variable {x y : ℚ}

@[simp] theorem halfEven_intCast (n : ℤ) : halfEven n = n := by simp [halfEven]

theorem floor_le_halfEven : ⌊x⌋ ≤ halfEven x := by
  rw [halfEven]
  split_ifs <;> omega

theorem halfEven_le_floor : halfEven x ≤ ⌊x⌋ + 1 := by
  rw [halfEven]
  split_ifs <;> omega

theorem halfEven_mono (h : x ≤ y) : halfEven x ≤ halfEven y := by
  rcases (Int.floor_mono h).eq_or_lt with heq | hlt
  · rw [halfEven, halfEven, heq]
    split_ifs <;> first | omega | linarith
  · have hx := @halfEven_le_floor x
    have hy := @floor_le_halfEven y
    omega

/-! ## The nearest number of the format -/

/-- The exponent of the last place of a positive number. -/
def exponent (x : ℚ) : ℤ := max (Int.log 2 x - 52) (-1074)

/-- The nearest number of the format, of a number that is not negative. -/
def roundAbs (x : ℚ) : ℚ := halfEven (x / 2 ^ exponent x) * 2 ^ exponent x

/-- The nearest number of the format. -/
def round (x : ℚ) : ℚ := if x < 0 then -roundAbs (-x) else roundAbs x

theorem two_zpow_pos (k : ℤ) : (0 : ℚ) < 2 ^ k := by positivity

theorem exponent_mono (hx : 0 < x) (h : x ≤ y) : exponent x ≤ exponent y := by
  have hlog := Int.log_mono_right (b := 2) hx h
  rw [exponent, exponent]
  omega

@[simp] theorem roundAbs_zero : roundAbs 0 = 0 := by
  have h := halfEven_intCast 0
  simp only [Int.cast_zero] at h
  simp [roundAbs, h]

/-- A multiple of the last place stays as it is. -/
theorem roundAbs_of_multiple {n : ℤ} (h : x = n * 2 ^ exponent x) : roundAbs x = x := by
  have hplace := (two_zpow_pos (exponent x)).ne'
  have hquotient : x / 2 ^ exponent x = n := by
    rw [div_eq_iff hplace]
    exact h
  rw [roundAbs, hquotient, halfEven_intCast]
  exact h.symm

/-- Within the numbers of one last place rounding keeps the order. -/
theorem roundAbs_le_of_exponent (h : x ≤ y) (hexp : exponent x = exponent y) :
    roundAbs x ≤ roundAbs y := by
  rw [roundAbs, roundAbs, hexp]
  have hplace := two_zpow_pos (exponent y)
  have hquotient : x / 2 ^ exponent y ≤ y / 2 ^ exponent y := by gcongr
  have hhalf : (halfEven (x / 2 ^ exponent y) : ℚ) ≤ halfEven (y / 2 ^ exponent y) := by
    exact_mod_cast halfEven_mono hquotient
  gcongr

/-- A number is rounded to a power of two above it at most. -/
theorem roundAbs_le_zpow {k : ℤ} (hexp : exponent x ≤ k) (h : x ≤ 2 ^ k) :
    roundAbs x ≤ 2 ^ k := by
  obtain ⟨m, hm⟩ := Int.le.dest hexp
  have hplace := two_zpow_pos (exponent x)
  have hpower : (2 : ℚ) ^ k = ((2 ^ m : ℤ) : ℚ) * 2 ^ exponent x := by
    push_cast
    rw [← zpow_natCast, ← zpow_add₀ two_ne_zero]
    congr 1
    omega
  have hquotient : x / 2 ^ exponent x ≤ ((2 ^ m : ℤ) : ℚ) := by
    rw [div_le_iff₀ hplace, ← hpower]
    exact h
  have hhalf := halfEven_mono hquotient
  rw [halfEven_intCast] at hhalf
  rw [roundAbs, hpower]
  gcongr

/-- A number is rounded to a power of two below it at least. -/
theorem zpow_le_roundAbs {k : ℤ} (hexp : exponent x ≤ k) (h : 2 ^ k ≤ x) :
    2 ^ k ≤ roundAbs x := by
  obtain ⟨m, hm⟩ := Int.le.dest hexp
  have hplace := two_zpow_pos (exponent x)
  have hpower : (2 : ℚ) ^ k = ((2 ^ m : ℤ) : ℚ) * 2 ^ exponent x := by
    push_cast
    rw [← zpow_natCast, ← zpow_add₀ two_ne_zero]
    congr 1
    omega
  have hquotient : ((2 ^ m : ℤ) : ℚ) ≤ x / 2 ^ exponent x := by
    rw [le_div_iff₀ hplace, ← hpower]
    exact h
  have hhalf := halfEven_mono hquotient
  rw [halfEven_intCast] at hhalf
  rw [roundAbs, hpower]
  gcongr

/-- Rounding keeps the order of positive numbers. -/
theorem roundAbs_mono (hx : 0 < x) (h : x ≤ y) : roundAbs x ≤ roundAbs y := by
  rcases (exponent_mono hx h).eq_or_lt with heq | hlt
  · exact roundAbs_le_of_exponent h heq
  · -- A power of two lies between the numbers.
    have hy : exponent y = Int.log 2 y - 52 := by
      have hx' : -1074 ≤ exponent x := le_max_right _ _
      have hdef : exponent y = max (Int.log 2 y - 52) (-1074) := rfl
      omega
    have hlog : Int.log 2 x + 1 ≤ Int.log 2 y := by
      have hx' : Int.log 2 x - 52 ≤ exponent x := le_max_left _ _
      omega
    have hlow : x ≤ 2 ^ (Int.log 2 y) :=
      (Int.lt_zpow_succ_log_self (b := 2) one_lt_two x).le.trans
        (zpow_le_zpow_right₀ (by norm_num) hlog)
    have hhigh : (2 : ℚ) ^ (Int.log 2 y) ≤ y :=
      Int.zpow_log_le_self (b := 2) one_lt_two (hx.trans_le h)
    exact (roundAbs_le_zpow (by omega) hlow).trans (zpow_le_roundAbs (by omega) hhigh)

theorem roundAbs_nonneg (hx : 0 ≤ x) : 0 ≤ roundAbs x := by
  have hquotient : ((0 : ℤ) : ℚ) ≤ x / 2 ^ exponent x := by
    push_cast
    positivity
  have hhalf := halfEven_mono hquotient
  rw [halfEven_intCast] at hhalf
  rw [roundAbs]
  have hcast : (0 : ℚ) ≤ halfEven (x / 2 ^ exponent x) := by exact_mod_cast hhalf
  positivity

/-- **Rounding keeps the order.** -/
theorem round_mono (h : x ≤ y) : round x ≤ round y := by
  rcases lt_trichotomy x 0 with hx | rfl | hx
  · rw [round, if_pos hx, round]
    split
    · exact neg_le_neg (roundAbs_mono (by linarith) (by linarith))
    · next hy =>
      have h₁ := @roundAbs_nonneg (-x) (by linarith)
      have h₂ := @roundAbs_nonneg y (by linarith)
      linarith
  · have hy := roundAbs_nonneg h
    simpa [round, h.not_gt] using hy
  · have hy := hx.trans_le h
    rw [round, if_neg hx.not_gt, round, if_neg hy.not_gt]
    exact roundAbs_mono hx h

/-- **The numbers of the format stay as they are.** -/
theorem round_dyadic {n : ℕ} {k : ℤ} (hn : n < 2 ^ 53) (hk : -1074 ≤ k) :
    round (n * 2 ^ k) = n * 2 ^ k := by
  have hpos := two_zpow_pos k
  have hx : (0 : ℚ) ≤ n * 2 ^ k := by positivity
  rw [round, if_neg hx.not_gt]
  rcases Nat.eq_zero_or_pos n with rfl | hpositive
  · simp
  have hlog : Int.log 2 ((n : ℚ) * 2 ^ k) < k + 53 := by
    rw [← Int.lt_zpow_iff_log_lt one_lt_two (by positivity)]
    have hcast : (n : ℚ) < 2 ^ 53 := by exact_mod_cast hn
    rw [add_comm, zpow_add₀ (by norm_num)]
    push_cast
    gcongr
    exact_mod_cast hcast
  have hle : exponent ((n : ℚ) * 2 ^ k) ≤ k := by
    rw [exponent]
    omega
  obtain ⟨m, hm⟩ := Int.le.dest hle
  apply roundAbs_of_multiple (n := n * 2 ^ m)
  push_cast
  rw [mul_assoc, ← zpow_natCast (2 : ℚ) m, ← zpow_add₀ two_ne_zero]
  congr 2
  omega

end Binary64
