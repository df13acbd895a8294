import Mathlib.Data.List.Induction
import Mathlib.Order.Bounds.Basic
import Mathlib.Order.BoundedOrder.Basic

/-!
# Running extremes with a marker

A running maximum and a running minimum of a sequence, both kept in cells that start at the least
value. For the maximum that is right. For the minimum it makes the least value a marker for a cell
that has not been set, so a sequence that contains the least value loses what it has found whenever
another one follows: the cell ends as the minimum exactly when the least value does not occur or
comes last (`isLeast_runMin_iff`).
-/

namespace Extremes

variable {α : Type*} [LinearOrder α] [OrderBot α]

/-- A cell that keeps a maximum, after one more value. -/
def runMax (m x : α) : α := if m < x then x else m

/-- A cell that keeps a minimum, after one more value. The least value means that it is unset. -/
def runMin (m x : α) : α := if x < m ∨ m = ⊥ then x else m

omit [OrderBot α] in
theorem runMax_eq_max (m x : α) : runMax m x = max m x := by
  unfold runMax
  split
  · next h => exact (max_eq_right h.le).symm
  · next h => exact (max_eq_left (not_lt.1 h)).symm

theorem runMin_bot (x : α) : runMin ⊥ x = x := if_pos (.inr rfl)

theorem runMin_eq_min {m : α} (h : m ≠ ⊥) (x : α) : runMin m x = min m x := by
  unfold runMin
  split
  · next hx => exact (min_eq_right (hx.resolve_right h).le).symm
  · next hx => exact (min_eq_left (not_lt.1 fun hlt => hx (.inl hlt))).symm

/-- The cell is unset after a value exactly when the value looks so. -/
theorem runMin_eq_bot_iff {m x : α} : runMin m x = ⊥ ↔ x = ⊥ := by
  by_cases hm : m = ⊥
  · rw [hm, runMin_bot]
  · rw [runMin_eq_min hm, min_eq_bot, or_iff_right hm]

omit [LinearOrder α] [OrderBot α] in
/-- The values of a sequence with one more. -/
theorem setOf_mem_concat (l : List α) (x : α) : {y | y ∈ l ++ [x]} = insert x {y | y ∈ l} := by
  ext y
  simp [or_comm]

variable {l : List α}

/-- **The running maximum is the maximum.** -/
theorem isGreatest_runMax (h : l ≠ []) : IsGreatest {x | x ∈ l} (l.foldl runMax ⊥) := by
  induction l using List.reverseRecOn with
  | nil => exact absurd rfl h
  | append_singleton l x ih =>
    rw [List.foldl_append, List.foldl_cons, List.foldl_nil, runMax_eq_max, max_comm,
      setOf_mem_concat]
    cases l with
    | nil => simp [isGreatest_singleton]
    | cons y l => exact (ih (List.cons_ne_nil y l)).insert x

/-- Without the least value the running minimum is the minimum. -/
theorem isLeast_runMin (h : l ≠ []) (hbot : ⊥ ∉ l) : IsLeast {x | x ∈ l} (l.foldl runMin ⊥) := by
  induction l using List.reverseRecOn with
  | nil => exact absurd rfl h
  | append_singleton l x ih =>
    rw [List.foldl_append, List.foldl_cons, List.foldl_nil, setOf_mem_concat]
    cases l with
    | nil => simp [runMin_bot, isLeast_singleton]
    | cons y l =>
      have hleast := ih (List.cons_ne_nil y l) fun hb => hbot (List.mem_append_left _ hb)
      have hset : (y :: l).foldl runMin ⊥ ≠ ⊥ := fun hb =>
        hbot (List.mem_append_left _ (hb ▸ hleast.1))
      rw [runMin_eq_min hset, min_comm]
      exact hleast.insert x

/-- **The running minimum with a marker.** It is the minimum exactly when the least value does not
occur or comes last. -/
theorem isLeast_runMin_iff (h : l ≠ []) :
    IsLeast {x | x ∈ l} (l.foldl runMin ⊥) ↔ ⊥ ∉ l ∨ l.getLast? = some ⊥ := by
  have hlast : l.foldl runMin ⊥ = ⊥ ↔ l.getLast? = some ⊥ := by
    cases l using List.reverseRecOn with
    | nil => exact absurd rfl h
    | append_singleton l x =>
      rw [List.foldl_append, List.foldl_cons, List.foldl_nil, runMin_eq_bot_iff,
        List.getLast?_concat, Option.some.injEq]
  constructor
  · intro hleast
    by_cases hbot : ⊥ ∈ l
    · exact .inr (hlast.1 (le_bot_iff.1 (hleast.2 hbot)))
    · exact .inl hbot
  · rintro (hbot | hb)
    · exact isLeast_runMin h hbot
    · rw [hlast.2 hb]
      exact ⟨List.mem_of_getLast? hb, fun _ _ => bot_le⟩

end Extremes
