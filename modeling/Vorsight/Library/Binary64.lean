/-
  DOUBLES, as far as the rounding of exact results goes: a non-negative result becomes the nearest
  multiple of its last bit, of two equally near ones the even one.  The range of the exponent is not
  limited here.

  Rounding keeps the order (`nearest_mono`), across the powers of two as well, where the last bit
  doubles: what lies below a power of two is not rounded beyond it (`nearest_le_pow`), nor what lies
  above it (`pow_le_nearest`).
-/
import Mathlib.Algebra.Order.Floor.Ring
import Mathlib.Data.Int.Log
import Mathlib.Data.Rat.Floor
import Mathlib.Tactic.Linarith

namespace Binary64

/-- The nearest integer, the even one of two. -/
def roundEven (x : Rat) : Int :=
  if x - ⌊x⌋ < 1 / 2 then ⌊x⌋
  else if 1 / 2 < x - ⌊x⌋ then ⌊x⌋ + 1
  else if ⌊x⌋ % 2 = 0 then ⌊x⌋ else ⌊x⌋ + 1

theorem floor_le_roundEven (x : Rat) : ⌊x⌋ ≤ roundEven x ∧ roundEven x ≤ ⌊x⌋ + 1 := by
  unfold roundEven
  split
  · omega
  · split
    · omega
    · split
      · omega
      · omega

theorem roundEven_of_lt {x : Rat} (h : x - ⌊x⌋ < 1 / 2) : roundEven x = ⌊x⌋ := if_pos h

theorem roundEven_of_gt {x : Rat} (h : 1 / 2 < x - ⌊x⌋) : roundEven x = ⌊x⌋ + 1 := by
  rw [roundEven, if_neg (not_lt.mpr h.le), if_pos h]

theorem roundEven_of_eq {x : Rat} (h : x - ⌊x⌋ = 1 / 2) :
    roundEven x = if ⌊x⌋ % 2 = 0 then ⌊x⌋ else ⌊x⌋ + 1 := by
  rw [roundEven, if_neg h.ge.not_gt, if_neg h.le.not_gt]

theorem roundEven_mono {x y : Rat} (h : x ≤ y) : roundEven x ≤ roundEven y := by
  have hx := floor_le_roundEven x
  have hy := floor_le_roundEven y
  have hfloor : ⌊x⌋ ≤ ⌊y⌋ := Int.floor_le_floor h
  rcases hfloor.eq_or_lt with hsame | hlt
  · have hcast : (⌊x⌋ : Rat) = ⌊y⌋ := by rw [hsame]
    rcases lt_trichotomy (x - ⌊x⌋) (1 / 2) with hdown | hhalf | hup
    · rw [roundEven_of_lt hdown]
      omega
    · rcases (show 1 / 2 ≤ y - ⌊y⌋ by linarith).eq_or_lt with hhalf' | hup'
      · rw [roundEven_of_eq hhalf, roundEven_of_eq hhalf'.symm, hsame]
      · rw [roundEven_of_gt hup']
        omega
    · rw [roundEven_of_gt (show 1 / 2 < y - ⌊y⌋ by linarith)]
      omega
  · omega

@[simp] theorem roundEven_intCast (n : Int) : roundEven n = n := by
  simp [roundEven]

/-- The weight of the last bit of 53. -/
def lastBit (x : Rat) : Rat := 2 ^ (Int.log 2 x - 52)

theorem lastBit_pos (x : Rat) : 0 < lastBit x := zpow_pos (by norm_num) _

/-- The double nearest to a non-negative number. -/
def nearest (x : Rat) : Rat := roundEven (x / lastBit x) * lastBit x

theorem pow_eq (e : Int) : (2 : Rat) ^ e = (2 ^ 52 : Int) * 2 ^ (e - 52) := by
  have hbits : ((2 ^ 52 : Int) : Rat) = 2 ^ (52 : Int) := by norm_num
  rw [hbits, ← zpow_add₀ (by norm_num)]
  congr 1
  omega

/-- A number is not rounded below the power of two under it. -/
theorem pow_le_nearest {x : Rat} (hx : 0 < x) : (2 : Rat) ^ Int.log 2 x ≤ nearest x := by
  have hlog : (2 : Rat) ^ Int.log 2 x ≤ x := Int.zpow_log_le_self (by norm_num) hx
  have hbits : ((2 ^ 52 : Int) : Rat) ≤ x / lastBit x := by
    rw [le_div_iff₀ (lastBit_pos x), lastBit, ← pow_eq]
    exact hlog
  have hround : (2 ^ 52 : Int) ≤ roundEven (x / lastBit x) := by
    rw [← roundEven_intCast (2 ^ 52)]
    exact roundEven_mono hbits
  calc (2 : Rat) ^ Int.log 2 x = (2 ^ 52 : Int) * lastBit x := pow_eq _
    _ ≤ roundEven (x / lastBit x) * lastBit x :=
        mul_le_mul_of_nonneg_right (by exact_mod_cast hround) (lastBit_pos x).le

/-- Nor beyond the power of two above it. -/
theorem nearest_le_pow (x : Rat) : nearest x ≤ (2 : Rat) ^ (Int.log 2 x + 1) := by
  have hlog : x < (2 : Rat) ^ (Int.log 2 x + 1) := Int.lt_zpow_succ_log_self (by norm_num) x
  have hpow : (2 : Rat) ^ (Int.log 2 x + 1) = (2 ^ 53 : Int) * lastBit x := by
    rw [zpow_add_one₀ (by norm_num), pow_eq, lastBit]
    push_cast
    ring
  have hbits : x / lastBit x ≤ ((2 ^ 53 : Int) : Rat) := by
    rw [div_le_iff₀ (lastBit_pos x), ← hpow]
    exact hlog.le
  have hround : roundEven (x / lastBit x) ≤ 2 ^ 53 := by
    rw [← roundEven_intCast (2 ^ 53)]
    exact roundEven_mono hbits
  rw [hpow]
  exact mul_le_mul_of_nonneg_right (by exact_mod_cast hround) (lastBit_pos x).le

@[simp] theorem nearest_zero : nearest 0 = 0 := by
  have hzero : roundEven 0 = 0 := by exact_mod_cast roundEven_intCast 0
  rw [nearest, zero_div, hzero, Int.cast_zero, zero_mul]

theorem nearest_nonneg {x : Rat} (h : 0 ≤ x) : 0 ≤ nearest x := by
  rcases h.eq_or_lt with rfl | hpos
  · exact nearest_zero.ge
  · exact le_trans (zpow_pos (by norm_num) _).le (pow_le_nearest hpos)

/-- **Rounding keeps the order.** -/
theorem nearest_mono {x y : Rat} (h0 : 0 ≤ x) (h : x ≤ y) : nearest x ≤ nearest y := by
  rcases h0.eq_or_lt with rfl | hpos
  · rw [nearest_zero]
    exact nearest_nonneg h
  · rcases (Int.log_mono_right (b := 2) hpos h).eq_or_lt with hsame | hlt
    · have hbit : lastBit x = lastBit y := by rw [lastBit, lastBit, hsame]
      unfold nearest
      rw [hbit]
      refine mul_le_mul_of_nonneg_right ?_ (lastBit_pos y).le
      exact_mod_cast roundEven_mono (div_le_div_of_nonneg_right h (lastBit_pos y).le)
    · calc nearest x ≤ (2 : Rat) ^ (Int.log 2 x + 1) := nearest_le_pow x
        _ ≤ (2 : Rat) ^ Int.log 2 y := zpow_le_zpow_right₀ (by norm_num) hlt
        _ ≤ nearest y := pow_le_nearest (lt_of_lt_of_le hpos h)

/-- The quotient of two whole numbers, as a percentage: 28.5 comes out below itself. -/
example : nearest (nearest (57 / 200) * 100) < 57 / 2 := by decide +kernel

/-! ## Values -/

/-- A value: not a number, one of the infinities, or a number. -/
inductive Value
  | nan
  | infinite (negative : Bool)
  | finite (x : Rat)
deriving DecidableEq, Repr

/-- `value * factor`, for a positive factor. -/
def Value.times (factor : Rat) : Value → Value
  | .finite x => .finite (if x < 0 then -nearest (-x * factor) else nearest (x * factor))
  | value => value

/-- `value >= bound`, which is false of what is no number. -/
def Value.ge (bound : Rat) : Value → Bool
  | .nan => false
  | .infinite negative => !negative
  | .finite x => bound ≤ x

end Binary64
