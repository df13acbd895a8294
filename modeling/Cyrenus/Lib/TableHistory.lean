import Cyrenus.Lib.Table
import Mathlib.Data.List.Induction

/-!
# Tables with a history

A table that starts empty is changed by storing values under keys and removing keys. What it answers
under a key is settled by the last change of that key: the value, if that stores one, and nothing if
it removes the key or there is none (`changed_eq_some_iff`).
-/

namespace Table

/-- A change of a table. -/
inductive Change (K V : Type*) where
  | set (k : K) (v : V)
  | erase (k : K)
  deriving DecidableEq

variable {K V : Type*} [DecidableEq K]

namespace Change

omit [DecidableEq K] in
/-- The key that is changed. -/
def key : Change K V → K
  | set k _ => k
  | erase k => k

/-- Carry out a change. -/
def apply (t : Table K V) : Change K V → Table K V
  | set k v => t.set k v
  | erase k => t.erase k

/-- A change leaves the other keys alone. -/
theorem apply_other {t : Table K V} {change : Change K V} {k : K} (h : change.key ≠ k) :
    change.apply t k = t k := by
  cases change with
  | set => exact set_other (Ne.symm h)
  | erase => exact erase_other (Ne.symm h)

end Change

/-- The table after some changes. -/
def changed (changes : List (Change K V)) : Table K V := changes.foldl Change.apply empty

omit [DecidableEq K] in
/-- The last change of a key stores this value under it. -/
def LastSet (changes : List (Change K V)) (k : K) (v : V) : Prop :=
  ∃ pre post, changes = pre ++ .set k v :: post ∧ ∀ change ∈ post, change.key ≠ k

@[simp] theorem changed_nil : changed ([] : List (Change K V)) = empty := rfl

theorem changed_concat (changes : List (Change K V)) (change : Change K V) :
    changed (changes ++ [change]) = change.apply (changed changes) := by
  simp [changed, List.foldl_append]

/-- The table after one change more, if there is one. -/
theorem changed_append_toList (changes : List (Change K V)) (change : Option (Change K V)) :
    changed (changes ++ change.toList) =
      change.elim (changed changes) (Change.apply (changed changes)) := by
  cases change with
  | none => rw [Option.toList_none, List.append_nil, Option.elim_none]
  | some change => exact changed_concat changes change

omit [DecidableEq K] in
/-- One more change: it is the last one of its key, and the last changes of the others stay so. -/
theorem lastSet_concat {changes : List (Change K V)} {change : Change K V} {k : K} {v : V} :
    LastSet (changes ++ [change]) k v ↔
      change = .set k v ∨ (change.key ≠ k ∧ LastSet changes k v) := by
  constructor
  · rintro ⟨pre, post, heq, hpost⟩
    rcases List.eq_nil_or_concat post with rfl | ⟨post, last, rfl⟩
    · exact .inl (List.append_singleton_inj.1 heq).2
    · rw [List.concat_eq_append] at heq hpost
      rw [← List.cons_append, ← List.append_assoc, List.append_singleton_inj] at heq
      obtain ⟨rfl, rfl⟩ := heq
      exact .inr ⟨hpost change (by simp), pre, post, rfl,
        fun c hc => hpost c (List.mem_append_left _ hc)⟩
  · rintro (rfl | ⟨hne, pre, post, rfl, hpost⟩)
    · exact ⟨changes, [], rfl, nofun⟩
    · refine ⟨pre, post ++ [change], by simp, fun c hc => ?_⟩
      rcases List.mem_append.1 hc with hc | hc
      · exact hpost c hc
      · rw [List.mem_singleton.1 hc]
        exact hne

/-- **What a table answers** after some changes is the value that the last change of the key has
stored, or the one from before if there is none. -/
theorem foldl_apply_eq_some_iff {t : Table K V} {changes : List (Change K V)} {k : K} {v : V} :
    changes.foldl Change.apply t k = some v ↔
      LastSet changes k v ∨ (∀ change ∈ changes, change.key ≠ k) ∧ t k = some v := by
  induction changes using List.reverseRecOn with
  | nil =>
    have hnone : ¬ LastSet ([] : List (Change K V)) k v := by
      rintro ⟨pre, post, heq, -⟩
      cases pre <;> cases heq
    simp [hnone]
  | append_singleton changes change ih =>
    rw [List.foldl_append, List.foldl_cons, List.foldl_nil, lastSet_concat]
    simp only [List.forall_mem_append, List.forall_mem_singleton]
    by_cases hkey : change.key = k
    · rw [or_iff_left (fun h => h.1.2 hkey), or_iff_left (fun h => h.1 hkey)]
      cases change with
      | set k' w =>
        obtain rfl : k' = k := hkey
        simp [Change.apply]
      | erase k' =>
        obtain rfl : k' = k := hkey
        simp [Change.apply]
    · rw [Change.apply_other hkey, ih]
      simp only [hkey, ne_eq, not_false_eq_true, and_true, true_and]
      refine or_congr_left (or_iff_right ?_).symm
      rintro rfl
      exact hkey rfl

/-- A table that starts empty has the values of the last changes only. -/
theorem changed_eq_some_iff {changes : List (Change K V)} {k : K} {v : V} :
    changed changes k = some v ↔ LastSet changes k v := by
  rw [changed, foldl_apply_eq_some_iff]
  exact or_iff_left fun h => Option.some_ne_none v h.2.symm

/-- It answers nothing if no value stands. -/
theorem changed_eq_none_iff {changes : List (Change K V)} {k : K} :
    changed changes k = none ↔ ∀ v, ¬ LastSet changes k v := by
  simp only [← changed_eq_some_iff, Option.eq_none_iff_forall_ne_some, ne_eq]

end Table
