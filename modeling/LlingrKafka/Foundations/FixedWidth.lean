import Mathlib.Algebra.Order.Ring.Int
import Mathlib.Tactic.Common

/-!
# Fixed-width integers

Signed machine integers as integers: `wrap n` is what an `n`-bit register makes of
an integer, and `Fits n` says that the integer survives it.
-/

namespace FixedWidth

/-- The integer an `n`-bit two's complement register holds after storing `x`. -/
def wrap (n : ℕ) (x : ℤ) : ℤ := x.bmod (2 ^ n)

/-- `x` is in the range of a signed `n`-bit register. -/
def Fits (n : ℕ) (x : ℤ) : Prop := -2 ^ n ≤ 2 * x ∧ 2 * x < 2 ^ n

instance (n : ℕ) (x : ℤ) : Decidable (Fits n x) := inferInstanceAs (Decidable (_ ∧ _))

theorem wrap_of_fits {n : ℕ} {x : ℤ} (h : Fits n x) : wrap n x = x := by
  obtain ⟨hlower, hupper⟩ := h
  apply Int.bmod_eq_of_le_mul_two
  · push_cast
    omega
  · push_cast
    omega

theorem fits_wrap {n : ℕ} (hn : 0 < n) (x : ℤ) : Fits n (wrap n x) := by
  obtain ⟨m, rfl⟩ : ∃ m, n = m + 1 := ⟨n - 1, by omega⟩
  have hlower := Int.le_bmod (x := x) (Nat.two_pow_pos (m + 1))
  have hupper := Int.bmod_lt (x := x) (Nat.two_pow_pos (m + 1))
  unfold Fits wrap
  push_cast at hlower hupper
  rw [Int.pow_succ] at hlower hupper ⊢
  omega

/-- What a register holds is the integer itself exactly when that is in range. -/
theorem wrap_eq_self_iff {n : ℕ} (hn : 0 < n) {x : ℤ} : wrap n x = x ↔ Fits n x := by
  constructor
  · intro h
    rw [← h]
    exact fits_wrap hn x
  · exact wrap_of_fits

/-- Storing an intermediate sum does not change what the register holds in the end. -/
theorem wrap_wrap_add (n : ℕ) (x y : ℤ) : wrap n (wrap n x + y) = wrap n (x + y) :=
  Int.bmod_add_bmod

/-- A natural number never grows when it is stored. -/
theorem wrap_natCast_le (n x : ℕ) : wrap n x ≤ x := by
  by_cases hx : 2 * (x : ℤ) < 2 ^ n
  · have hfits : Fits n x := ⟨by have := Nat.two_pow_pos n; omega, hx⟩
    exact Int.le_of_eq (wrap_of_fits hfits)
  · have hpos := Nat.two_pow_pos n
    have hupper := Int.bmod_lt (x := (x : ℤ)) hpos
    push_cast at hupper
    unfold wrap
    omega

/-- A register holds its integer up to a multiple of the modulus. -/
theorem wrap_dvd_sub (n : ℕ) (x : ℤ) : (2 ^ n : ℤ) ∣ x - wrap n x := by
  have h := Int.dvd_self_sub_bmod (x := x) (m := 2 ^ n)
  simpa [wrap] using h

end FixedWidth
