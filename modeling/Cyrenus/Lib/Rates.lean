import Mathlib.Algebra.Order.Sub.Basic
import Mathlib.Data.List.Chain

/-!
# Rates of a counter

A rate meter reads a counter again and again and reports by how much it has grown since the reading
before. One that keeps a zero for the reading it does not have (`rates`) reports nothing after a
reading of zero, so what it reports adds up to the last reading less the first one that is not zero
(`sum_rates_add_firstNonzero`).
-/

namespace Rates

variable {M : Type*} [AddCommMonoid M] [LinearOrder M]

/-- What is reported of these readings, after a reading of `prev`. -/
def rates [Sub M] : M → List M → List M
  | _, [] => []
  | prev, x :: xs => (if 0 < prev then x - prev else 0) :: rates x xs

/-- The first reading that is not zero. -/
def firstNonzero : List M → M
  | [] => 0
  | x :: xs => if 0 < x then x else firstNonzero xs

variable [CanonicallyOrderedAdd M]

theorem firstNonzero_eq_zero_iff {xs : List M} : firstNonzero xs = 0 ↔ ∀ x ∈ xs, x = 0 := by
  induction xs with
  | nil => simp [firstNonzero]
  | cons x xs ih =>
    rw [firstNonzero, List.forall_mem_cons, ← ih]
    split_ifs with hpos
    · simp [hpos.ne']
    · simp [nonpos_iff_eq_zero.1 (not_lt.1 hpos)]

variable [Sub M] [OrderedSub M]

/-- **The rates telescope**: readings that do not decrease are reported from the first one that is
not zero on. -/
theorem sum_rates_add_firstNonzero {prev : M} {xs : List M} (h : (prev :: xs).IsChain (· ≤ ·)) :
    (rates prev xs).sum + firstNonzero (prev :: xs) = xs.getLastD prev := by
  induction xs generalizing prev with
  | nil =>
    rw [rates, List.sum_nil, zero_add, firstNonzero]
    split_ifs with hpos
    · rfl
    · exact (nonpos_iff_eq_zero.1 (not_lt.1 hpos)).symm
  | cons x xs ih =>
    obtain ⟨hle, hchain⟩ := List.isChain_cons_cons.1 h
    have hrest := ih hchain
    rw [rates, List.sum_cons, firstNonzero, List.getLastD_cons]
    split_ifs with hpos
    · rw [firstNonzero, if_pos (lt_of_lt_of_le hpos hle)] at hrest
      rw [← hrest, add_right_comm, tsub_add_cancel_of_le hle, add_comm]
    · rw [zero_add, hrest]

end Rates
