import Mathlib.Algebra.BigOperators.Ring.Finset

/-!
# Records filed under keys

The records of a list are filed under the keys that they have. As long as there is a file for each
key, what is added up file by file is what is added up over the list (`sum_filed`), so no record is
lost or counted twice.
-/

namespace List

variable {α κ M : Type*} [DecidableEq κ] [AddCommMonoid M]

/-- The records under a key. -/
def filed (key : α → κ) (k : κ) (l : List α) : List α := l.filter (key · = k)

variable {key : α → κ} {k : κ}

@[simp] theorem filed_nil : filed key k ([] : List α) = [] := rfl

theorem filed_cons (a : α) (l : List α) :
    filed key k (a :: l) = if key a = k then a :: filed key k l else filed key k l := by
  rw [filed, filter_cons]
  simp only [decide_eq_true_eq]
  rfl

theorem filed_append (l m : List α) : filed key k (l ++ m) = filed key k l ++ filed key k m :=
  filter_append ..

theorem mem_filed {a : α} {l : List α} : a ∈ filed key k l ↔ a ∈ l ∧ key a = k := by
  rw [filed, mem_filter, decide_eq_true_eq]

/-- **What is added up** file by file. -/
theorem sum_filed {keys : List κ} (hkeys : keys.Nodup) {l : List α} (h : ∀ a ∈ l, key a ∈ keys)
    (w : α → M) : (keys.map fun k => ((filed key k l).map w).sum).sum = (l.map w).sum := by
  induction l with
  | nil => simp
  | cons a l ih =>
    obtain ⟨ha, hl⟩ := forall_mem_cons.1 h
    have hcons (k : κ) : ((filed key k (a :: l)).map w).sum =
        (if key a = k then w a else 0) + ((filed key k l).map w).sum := by
      rw [filed_cons]
      split <;> simp
    have hfile : (keys.map fun k => if key a = k then w a else 0).sum = w a := by
      rw [← sum_toFinset _ hkeys, Finset.sum_ite_eq, if_pos (mem_toFinset.2 ha)]
    simp only [hcons, sum_map_add, hfile, ih hl, map_cons, sum_cons]

/-- The number of records, file by file. -/
theorem length_filed {keys : List κ} (hkeys : keys.Nodup) {l : List α} (h : ∀ a ∈ l, key a ∈ keys) :
    (keys.map fun k => (filed key k l).length).sum = l.length := by
  have hsum := sum_filed hkeys h fun _ => 1
  simpa only [map_const', sum_replicate_nat, Nat.mul_one] using hsum

end List
