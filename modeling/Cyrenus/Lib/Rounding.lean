import Mathlib.Algebra.Order.Ring.Int

/-!
# Rounding to binary digits

A number format that keeps so many binary digits holds the integer nearest to a given one that has
no more of them, and of two the one with the even last digit. Integers with few digits are kept as
they are (`ofInt_of_lt`), and no integer is moved by more than half a unit of its last digit
(`natAbs_ofInt_sub_le`).
-/

namespace Rounding

/-- The unit of the last digit that is kept. -/
def unit (digits n : ℕ) : ℕ := 2 ^ (n.log2 + 1 - digits)

/-- A natural number, rounded. -/
def ofNat (digits n : ℕ) : ℕ :=
  let kept := n / unit digits n
  let rest := n % unit digits n
  if 2 * rest < unit digits n ∨ 2 * rest = unit digits n ∧ kept % 2 = 0 then
    unit digits n * kept
  else
    unit digits n * (kept + 1)

/-- An integer, rounded. -/
def ofInt (digits : ℕ) (i : ℤ) : ℤ := i.sign * ofNat digits i.natAbs

variable {digits : ℕ}

/-- Of few digits all are kept. -/
theorem ofNat_of_lt {n : ℕ} (h : n < 2 ^ digits) : ofNat digits n = n := by
  rcases eq_or_ne n 0 with rfl | hne
  · simp [ofNat, unit]
  · have hlog : n.log2 + 1 ≤ digits := (Nat.log2_lt hne).2 h
    have hunit : unit digits n = 1 := by rw [unit, Nat.sub_eq_zero_of_le hlog, pow_zero]
    simp [ofNat, hunit, Nat.mod_one]

/-- The rounded number is half a unit away at most. -/
theorem ofNat_le (digits n : ℕ) :
    2 * ofNat digits n ≤ 2 * n + unit digits n ∧ 2 * n ≤ 2 * ofNat digits n + unit digits n := by
  have hpos : 0 < unit digits n := Nat.two_pow_pos _
  have hrest := Nat.mod_lt n hpos
  have hdiv := Nat.div_add_mod n (unit digits n)
  rw [ofNat]
  split
  · rename_i hdown
    omega
  · rename_i hup
    rw [not_or, not_lt] at hup
    rw [Nat.mul_succ]
    omega

/-- Below a power of two the unit is small. -/
theorem unit_le {n k : ℕ} (hne : n ≠ 0) (h : n < 2 ^ (digits + k)) : unit digits n ≤ 2 ^ k := by
  have hlog := (Nat.log2_lt hne).2 h
  exact Nat.pow_le_pow_right (by decide) (by omega)

/-- **Integers with few digits** are kept as they are. -/
theorem ofInt_of_lt {i : ℤ} (h : i.natAbs < 2 ^ digits) : ofInt digits i = i := by
  rw [ofInt, ofNat_of_lt h, Int.sign_mul_natAbs]

/-- **No integer is moved far.** -/
theorem natAbs_ofInt_sub_le {i : ℤ} {k : ℕ} (h : i.natAbs < 2 ^ (digits + k)) :
    2 * (ofInt digits i - i).natAbs ≤ 2 ^ k := by
  obtain ⟨habove, hbelow⟩ := ofNat_le digits i.natAbs
  rcases lt_trichotomy i 0 with hneg | rfl | hpos
  · have hunit := unit_le (by omega) h
    rw [ofInt, Int.sign_eq_neg_one_of_neg hneg]
    omega
  · simp [ofInt]
  · have hunit := unit_le (by omega) h
    rw [ofInt, Int.sign_eq_one_of_pos hpos]
    omega

/-- The odd number that the 53 digits of a double cannot hold goes to the even neighbour. -/
example : ofInt 53 (2 ^ 53 + 1) = 2 ^ 53 ∧ ofInt 53 (-(2 ^ 53 + 3)) = -(2 ^ 53 + 4) := by decide

end Rounding
