import Mathlib.Data.Int.Notation
import Mathlib.Data.List.Induction

/-!
# Numbered rows

A table gives each row that is inserted the next number, and a row is deleted by its number. No
number is given twice, also when the row that had it is gone. So after any operations the table
holds a row under a number if and only if that insertion was the one to get the number and no
deletion of the number has followed (`mem_after_iff`).
-/

namespace Numbered

variable {α : Type*}

/-- An operation on a table. -/
inductive Op (α : Type*) where
  | insert (a : α)
  | delete (n : ℤ)
  deriving DecidableEq

/-- A table: its rows, and the last number given. -/
structure Rows (α : Type*) where
  rows : List (ℤ × α)
  last : ℤ

/-- The table without rows. -/
def Rows.empty : Rows α := ⟨[], 0⟩

/-- Carry out an operation. -/
def Rows.apply (t : Rows α) : Op α → Rows α
  | .insert a => ⟨t.rows ++ [(t.last + 1, a)], t.last + 1⟩
  | .delete n => ⟨t.rows.filter fun row => row.1 ≠ n, t.last⟩

/-- The table after some operations. -/
def after (ops : List (Op α)) : Rows α := ops.foldl Rows.apply .empty

/-- The operation inserts a row. -/
def Op.isInsert : Op α → Bool
  | .insert _ => true
  | .delete _ => false

/-- The number of rows that operations have inserted. -/
def inserted (ops : List (Op α)) : ℕ := ops.countP Op.isInsert

theorem after_concat (ops : List (Op α)) (op : Op α) :
    after (ops ++ [op]) = (after ops).apply op := by
  simp [after, List.foldl_append]

theorem inserted_concat (ops : List (Op α)) (op : Op α) :
    inserted (ops ++ [op]) = inserted ops + if op.isInsert then 1 else 0 := by
  rw [inserted, List.countP_append, List.countP_singleton, ← inserted]

/-- The last number given counts the insertions. -/
theorem last_after (ops : List (Op α)) : (after ops).last = inserted ops := by
  induction ops using List.reverseRecOn with
  | nil => rfl
  | append_singleton ops op ih =>
    rw [after_concat, inserted_concat]
    cases op with
    | insert a => simp [Rows.apply, Op.isInsert, ih]
    | delete n => simp [Rows.apply, Op.isInsert, ih]

/-- An insertion got this number, and the row has not been deleted since. -/
def Present (ops : List (Op α)) (n : ℤ) (a : α) : Prop :=
  ∃ pre post, ops = pre ++ .insert a :: post ∧ n = inserted pre + 1 ∧ .delete n ∉ post

/-- One operation more: it is the insertion, or the row was present and is not deleted by it. -/
theorem present_concat {ops : List (Op α)} {op : Op α} {n : ℤ} {a : α} :
    Present (ops ++ [op]) n a ↔
      (op = .insert a ∧ n = inserted ops + 1) ∨ (Present ops n a ∧ op ≠ .delete n) := by
  constructor
  · rintro ⟨pre, post, heq, hn, hpost⟩
    rcases List.eq_nil_or_concat post with rfl | ⟨post, last, rfl⟩
    · obtain ⟨rfl, rfl⟩ := List.append_singleton_inj.1 heq
      exact .inl ⟨rfl, hn⟩
    · rw [List.concat_eq_append] at heq hpost
      rw [← List.cons_append, ← List.append_assoc, List.append_singleton_inj] at heq
      obtain ⟨rfl, rfl⟩ := heq
      rw [List.mem_append, not_or, List.mem_singleton] at hpost
      exact .inr ⟨⟨pre, post, rfl, hn, hpost.1⟩, Ne.symm hpost.2⟩
  · rintro (⟨rfl, hn⟩ | ⟨⟨pre, post, rfl, hn, hpost⟩, hne⟩)
    · exact ⟨ops, [], rfl, hn, List.not_mem_nil⟩
    · refine ⟨pre, post ++ [op], by simp, hn, ?_⟩
      rw [List.mem_append, not_or, List.mem_singleton]
      exact ⟨hpost, Ne.symm hne⟩

/-- **The rows of a table** are those present. -/
theorem mem_after_iff {ops : List (Op α)} {n : ℤ} {a : α} :
    (n, a) ∈ (after ops).rows ↔ Present ops n a := by
  induction ops using List.reverseRecOn with
  | nil =>
    refine iff_of_false List.not_mem_nil ?_
    rintro ⟨pre, post, heq, -⟩
    cases pre <;> cases heq
  | append_singleton ops op ih =>
    rw [after_concat, present_concat, ← ih]
    cases op with
    | insert b =>
      rw [Rows.apply, List.mem_append, List.mem_singleton, last_after]
      constructor
      · rintro (h | h)
        · exact .inr ⟨h, nofun⟩
        · cases h
          exact .inl ⟨rfl, rfl⟩
      · rintro (⟨h, rfl⟩ | ⟨h, -⟩)
        · cases h
          exact .inr rfl
        · exact .inl h
    | delete m =>
      rw [Rows.apply, List.mem_filter, decide_eq_true_eq]
      constructor
      · rintro ⟨h, hne⟩
        refine .inr ⟨h, fun heq => hne ?_⟩
        cases heq
        rfl
      · rintro (⟨h, -⟩ | ⟨h, hne⟩)
        · cases h
        · refine ⟨h, ?_⟩
          rintro rfl
          exact hne rfl

end Numbered
