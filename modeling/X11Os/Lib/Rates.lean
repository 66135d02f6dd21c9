import Mathlib.Data.Nat.Basic

/-!
# Rounding between two rates

A quantity that is counted `f` times a second in one unit and `n` times in another is converted by `x * n / f` one way
and by `t * f / n` the other way, rounded down each time.  There and back the result is at most `t`, and one count
later it is at least `t`; a head start of `e` counts shows as soon as it exceeds what the rounding has lost.
-/

namespace Rate

variable {n f t e : Nat}

/-- Whole periods and the rest may be converted apart. -/
theorem split (x n : Nat) (hf : 0 < f) : x / f * n + x % f * n / f = x * n / f := by
  have hx : x * n = x % f * n + f * (x / f * n) := by
    conv => lhs; rw [← Nat.mod_add_div x f]
    rw [Nat.add_mul, Nat.mul_assoc]
  rw [hx, Nat.add_mul_div_left _ _ hf, Nat.add_comm]

/-- There and back with a head start of `e` counts. -/
theorem back_le_iff (hf : 0 < f) : (e + t * f / n) * n / f ≤ t ↔ e * n < f + t * f % n := by
  have hdiv := Nat.div_add_mod (t * f) n
  have hback : (e + t * f / n) * n = e * n + n * (t * f / n) := by rw [Nat.add_mul, Nat.mul_comm (t * f / n) n]
  rw [← Nat.lt_succ_iff, Nat.div_lt_iff_lt_mul hf, hback, Nat.succ_mul]
  omega

/-- One count later the time has come. -/
theorem le_back_succ (hn : 0 < n) (hf : 0 < f) : t ≤ (e + t * f / n + 1) * n / f := by
  have hdiv := Nat.div_add_mod (t * f) n
  have hmod := Nat.mod_lt (t * f) hn
  have hback : (e + t * f / n + 1) * n = e * n + n * (t * f / n) + n := by
    rw [Nat.add_mul, Nat.add_mul, Nat.mul_comm (t * f / n) n, Nat.one_mul]
  rw [Nat.le_div_iff_mul_le hf, hback]
  omega

end Rate
