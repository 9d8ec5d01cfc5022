/-!
# Double-precision arithmetic on positive quotients

Scale factors are quotients of pixel counts and are multiplied with pixel counts, in double
precision. Such numbers are far from both ends of the exponent range, so every operation
gives the exact result rounded to 53 significant bits, ties to the even significand. This
module is that rounding, on exact rationals, and the step back to whole pixels.
-/

namespace Quicklook.Binary

/-! ## §1 Rounding to whole numbers -/

/-- The nearest whole number; of two equally near ones the even one. -/
def roundEven (x : Rat) : Int :=
  let below := x.floor
  let rest := x - below
  if rest < 1 / 2 then below
  else if 1 / 2 < rest then below + 1
  else if below % 2 = 0 then below
  else below + 1

/-- The nearest whole number to a positive number; of two equally near ones the larger. -/
def roundHalfUp (x : Rat) : Nat :=
  (x + 1 / 2).floor.toNat

/-! ## §2 Rounding to 53 significant bits -/

/-- The exponent `p` with `2^p ≤ x < 2^(p+1)`, for a positive `x`. -/
def binade (x : Rat) : Int :=
  -- The quotient of the leading powers is right, or one too large.
  let guess : Int := (Nat.log2 x.num.toNat : Int) - Nat.log2 x.den
  if (2 : Rat) ^ guess ≤ x then guess else guess - 1

/-- The distance of neighbouring numbers with 53 significant bits around a positive `x`. -/
def ulp (x : Rat) : Rat :=
  2 ^ (binade x - 52)

/-- The number with 53 significant bits that is nearest to a positive `x`, the even
    significand on a tie. -/
def nearest (x : Rat) : Rat :=
  if x ≤ 0 then 0 else roundEven (x / ulp x) * ulp x

/-! ## §3 Scaling of pixel counts -/

/-- The quotient of two pixel counts in double precision. -/
def ratio (a b : Nat) : Rat :=
  nearest (a / b)

/-- A pixel count times a factor in double precision, in whole pixels. -/
def scale (n : Nat) (factor : Rat) : Nat :=
  roundHalfUp (nearest (n * factor))

/-- Scaling nothing gives nothing. -/
@[simp] theorem scale_zero (factor : Rat) : scale 0 factor = 0 := by
  have h : ((0 : Nat) : Rat) * factor = 0 := by simp
  rw [scale, h, nearest, if_pos Rat.le_refl]
  decide +kernel

end Quicklook.Binary
