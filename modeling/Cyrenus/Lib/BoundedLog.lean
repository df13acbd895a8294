import Mathlib.Data.List.Induction
import Mathlib.Data.List.Nodup

/-!
# Logs that stop at their last slot

A log of `N` slots is filled from the first slot on. One that keeps its newest entries drops the
oldest one for each entry beyond the last slot (`newest`); one that stops at the last slot writes
every such entry over the one before it, so its first `N - 1` entries stay for ever (`kept`). The
rule `kept_getElem?_concat` says what one more entry does to the slots, and `kept_perm_newest_iff`
when the two disciplines hold the same entries.
-/

namespace BoundedLog

variable {α : Type*} {N : ℕ} {as : List α} {a : α}

/-- The newest `N` entries of a history. -/
def newest (N : ℕ) (as : List α) : List α := as.drop (as.length - N)

/-- What a log holds that writes every entry beyond its last slot into that slot. -/
def kept (N : ℕ) (as : List α) : List α := as.take (N - 1) ++ (as.drop (N - 1)).getLast?.toList

@[simp] theorem length_newest (N : ℕ) (as : List α) :
    (newest N as).length = min as.length N := by
  rw [newest, List.length_drop]
  omega

/-- All entries of a history that fits are among the newest. -/
theorem newest_of_le (h : as.length ≤ N) : newest N as = as := by
  rw [newest, Nat.sub_eq_zero_of_le h, List.drop_zero]

/-- One more entry goes behind the newest ones, and the oldest of them is dropped if there are too
many then. -/
theorem newest_concat (as : List α) (a : α) :
    newest N (as ++ [a]) =
      if N < (newest N as ++ [a]).length then (newest N as ++ [a]).tail else newest N as ++ [a] := by
  rw [List.length_append, length_newest, List.length_singleton]
  rcases Nat.lt_or_ge as.length N with hlt | hge
  · rw [if_neg (by omega), newest_of_le (Nat.le_of_lt hlt), newest_of_le]
    rwa [List.length_append, List.length_singleton]
  · have hdrop : as.length + 1 - N = as.length - N + 1 := by omega
    rw [if_pos (by omega), newest, newest, List.length_append, List.length_singleton, hdrop,
      ← List.drop_append_of_le_length (Nat.sub_le ..), List.tail_drop]

/-- Before the last slot is reached, entries are put behind each other. -/
theorem kept_of_lt (h : as.length < N) : kept N as = as := by
  rw [kept, List.take_of_length_le (by omega), List.drop_of_length_le (by omega)]
  exact List.append_nil _

/-- From then on the last slot holds the newest entry. -/
theorem kept_concat (h : N ≤ as.length + 1) :
    kept N (as ++ [a]) = as.take (N - 1) ++ [a] := by
  rw [kept, List.take_append_of_le_length (by omega), List.drop_append_of_le_length (by omega)]
  simp

/-- A history that fits is kept whole. -/
theorem kept_of_le (h : as.length ≤ N) : kept N as = as := by
  induction as using List.reverseRecOn with
  | nil => simp [kept]
  | append_singleton as a =>
    rw [List.length_append, List.length_singleton] at h
    rcases Nat.lt_or_ge (as.length + 1) N with hlt | hge
    · exact kept_of_lt (by rwa [List.length_append, List.length_singleton])
    · rw [kept_concat hge, List.take_of_length_le (by omega)]

@[simp] theorem length_kept (hN : 0 < N) (as : List α) : (kept N as).length = min as.length N := by
  induction as using List.reverseRecOn with
  | nil => simp [kept]
  | append_singleton as a =>
    rcases Nat.lt_or_ge (as.length + 1) N with hlt | hge
    · rw [kept_of_lt (by rwa [List.length_append, List.length_singleton]), List.length_append,
        List.length_singleton, Nat.min_eq_left (Nat.le_of_lt hlt)]
    · rw [kept_concat hge]
      simp only [List.length_append, List.length_take, List.length_singleton]
      omega

/-- What a log keeps are entries of its history. -/
theorem mem_of_mem_kept (h : a ∈ kept N as) : a ∈ as := by
  rcases List.mem_append.1 h with htake | hlast
  · exact List.mem_of_mem_take htake
  · exact List.mem_of_mem_drop (List.mem_of_getLast? (Option.mem_toList.1 hlast))

/-- **One more entry** goes into the first free slot, or into the last one; the other slots stay. -/
theorem kept_getElem?_concat (hN : 0 < N) (as : List α) (a : α) (i : ℕ) :
    (kept N (as ++ [a]))[i]? =
      if i = min as.length (N - 1) then some a else (kept N as)[i]? := by
  rcases Nat.lt_or_ge (as.length + 1) N with hlt | hge
  · rw [kept_of_lt (by rwa [List.length_append, List.length_singleton]), kept_of_lt (by omega),
      Nat.min_eq_left (by omega), List.getElem?_append]
    rcases Nat.lt_trichotomy i as.length with h | h | h
    · rw [if_pos h, if_neg (by omega)]
    · rw [if_neg (by omega), if_pos h, h, Nat.sub_self]
      rfl
    · rw [if_neg (by omega), if_neg (by omega), List.getElem?_eq_none (l := as) (by omega)]
      exact List.getElem?_eq_none (by rw [List.length_singleton]; omega)
  · have hlen : (as.take (N - 1)).length = N - 1 := by
      rw [List.length_take]
      omega
    rw [kept_concat hge, Nat.min_eq_right (by omega), List.getElem?_append, hlen]
    rcases Nat.lt_trichotomy i (N - 1) with h | h | h
    · rw [if_pos h, if_neg (by omega), kept, List.getElem?_append, if_pos (by rwa [hlen])]
    · rw [if_neg (by omega), if_pos h, h, Nat.sub_self]
      rfl
    · rw [if_neg (by omega), if_neg (by omega), List.getElem?_eq_none (l := kept N as)]
      · exact List.getElem?_eq_none (by rw [List.length_singleton]; omega)
      · rw [length_kept hN]
        omega

/-- **When the log holds its newest entries**: when they all fit, or when the first `N - 1` are the
same entries, in some order, as the `N - 1` before the last. -/
theorem kept_perm_newest_iff (hN : 0 < N) (as : List α) :
    (kept N as).Perm (newest N as) ↔
      as.length ≤ N ∨ (as.take (N - 1)).Perm (as.dropLast.drop (as.length - N)) := by
  rcases Nat.lt_or_ge N as.length with hlt | hle
  · have hor : ¬ as.length ≤ N := Nat.not_le.2 hlt
    simp only [hor, false_or]
    induction as using List.reverseRecOn with
    | nil => simp at hlt
    | append_singleton as a =>
      rw [List.length_append, List.length_singleton] at hlt hor ⊢
      rw [kept_concat (by omega), newest, List.length_append, List.length_singleton,
        List.drop_append_of_le_length (by omega), List.perm_append_right_iff,
        List.dropLast_concat, List.take_append_of_le_length (by omega)]
  · rw [kept_of_le hle, newest_of_le hle]
    simp only [hle, true_or, List.Perm.refl]

/-- Of a history without repetitions the log holds the newest entries only as long as all fit. -/
theorem kept_perm_newest_iff_of_nodup (hN : 1 < N) (hnd : as.Nodup) :
    (kept N as).Perm (newest N as) ↔ as.length ≤ N := by
  rw [kept_perm_newest_iff (by omega), or_iff_left_iff_imp]
  intro hperm
  by_contra hlt
  cases as with
  | nil => simp at hlt
  | cons b as =>
    rw [List.length_cons] at hlt hperm
    have hfirst : b ∈ (b :: as).take (N - 1) := by
      rw [show N - 1 = (N - 2) + 1 by omega, List.take_succ_cons]
      exact List.mem_cons_self
    have hne : as ≠ [] := fun h => by simp [h] at hlt; omega
    have hlast : b ∈ as := by
      have hmem := hperm.subset hfirst
      rw [List.dropLast_cons_of_ne_nil hne,
        show as.length + 1 - N = (as.length - N) + 1 by omega, List.drop_succ_cons] at hmem
      exact List.dropLast_subset _ (List.mem_of_mem_drop hmem)
    exact (List.nodup_cons.1 hnd).1 hlast

end BoundedLog
