import Mathlib

/-!
# 64-bit signed arithmetic on integers

A Go `int64` is an integer here, and an operation that can leave the range says what becomes of its
result: `+` and `*` wrap around (`Go.wrap64`), the difference of two clock readings stops at the
ends of the range (`Go.saturate64`).  A result in the range is left alone (`Go.wrap64_eq`).
-/

namespace RudpScheduler.Go

/-- The integer in `[-2 ^ 63, 2 ^ 63)` that differs from `x` by a multiple of `2 ^ 64`. -/
def wrap64 (x : ℤ) : ℤ := x.bmod (2 ^ 64)

/-- The integer in `[-2 ^ 63, 2 ^ 63)` nearest to `x`. -/
def saturate64 (x : ℤ) : ℤ := max (-2 ^ 63) (min x (2 ^ 63 - 1))

lemma wrap64_eq {x : ℤ} (hlow : -2 ^ 63 ≤ x) (hhigh : x < 2 ^ 63) : wrap64 x = x :=
  Int.bmod_eq_of_le (by omega) (by omega)

lemma wrap64_eq_of_nonneg {x : ℤ} (h0 : 0 ≤ x) (hhigh : x < 2 ^ 63) : wrap64 x = x :=
  wrap64_eq (by omega) hhigh

end RudpScheduler.Go
