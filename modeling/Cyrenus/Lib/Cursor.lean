import Cyrenus.Lib.Table
import Mathlib.Data.List.Nodup
import Mathlib.Data.Nat.Notation

/-!
# Walking a store by its keys

A store that enumerates the keys it holds in some order (`KeyOrder`), and answers for any key with
the next one: the first key for one that it does not hold. A reader that starts from a key and asks
for the next one again and again (`walk`) comes to the keys after it (`after`): to every key if the
store does not hold the one it starts from (`walkAll_of_absent`), and never to the one it starts
from (`not_mem_walkAll`).
-/

/-- An order in which a store enumerates the keys it holds. -/
structure KeyOrder {K V : Type*} (t : Table K V) where
  keys : List K
  nodup : keys.Nodup
  mem_iff : ∀ k, k ∈ keys ↔ t k ≠ none

namespace KeyOrder

variable {K V : Type*} [DecidableEq K] {t : Table K V} (o : KeyOrder t)

/-! ## The keys after a key -/

/-- The keys after a key, and all keys if the store does not hold it. -/
def after (k : K) : List K := if k ∈ o.keys then (o.keys.dropWhile (· ≠ k)).tail else o.keys

/-- The key after a key. -/
def next (k : K) : Option K := (o.after k).head?

theorem after_of_absent {k : K} (h : t k = none) : o.after k = o.keys :=
  if_neg fun hk => (o.mem_iff k).1 hk h

theorem after_of_split {k : K} {pre post : List K} (h : o.keys = pre ++ k :: post) :
    o.after k = post := by
  have hk : k ∈ o.keys := by simp [h]
  have hnot : ∀ j ∈ pre, decide (j ≠ k) = true := by
    intro j hj
    rw [decide_eq_true_eq]
    rintro rfl
    have hnodup := o.nodup
    rw [h, List.nodup_append] at hnodup
    exact hnodup.2.2 j hj j (List.mem_cons_self ..) rfl
  rw [after, if_pos hk, h, List.dropWhile_append_of_pos hnot]
  simp

/-- The keys after a key are those that follow some part of the order. -/
theorem exists_split (k : K) : ∃ pre, o.keys = pre ++ o.after k := by
  by_cases hk : k ∈ o.keys
  · obtain ⟨pre, post, h⟩ := List.append_of_mem hk
    exact ⟨pre ++ [k], by rw [o.after_of_split h, h]; simp⟩
  · exact ⟨[], by rw [after, if_neg hk]; rfl⟩

/-- What comes after the next key is the rest of what comes after the key. -/
theorem after_next {k k' : K} {rest : List K} (h : o.after k = k' :: rest) :
    o.after k' = rest := by
  obtain ⟨pre, hpre⟩ := o.exists_split k
  exact o.after_of_split (hpre.trans (by rw [h]))

theorem after_length_le (k : K) : (o.after k).length ≤ o.keys.length := by
  obtain ⟨pre, hpre⟩ := o.exists_split k
  rw [hpre, List.length_append]
  exact Nat.le_add_left ..

/-- A key is not after itself. -/
theorem not_mem_after (k : K) : k ∉ o.after k := by
  by_cases hk : k ∈ o.keys
  · obtain ⟨pre, post, h⟩ := List.append_of_mem hk
    have hnodup := o.nodup
    rw [h, List.nodup_append, List.nodup_cons] at hnodup
    rw [o.after_of_split h]
    exact hnodup.2.1.1
  · rwa [after, if_neg hk]

/-! ## Walking -/

/-- The keys that a reader comes to in some steps from a key, until there is no next one. -/
def walk : ℕ → K → List K
  | 0, _ => []
  | n + 1, k =>
    match o.next k with
    | none => []
    | some k' => k' :: walk n k'

/-- With steps enough the reader comes to every key after the one it starts from. -/
theorem walk_eq_after {n : ℕ} {k : K} (h : (o.after k).length ≤ n) : o.walk n k = o.after k := by
  induction n generalizing k with
  | zero => exact (List.eq_nil_of_length_eq_zero (Nat.le_zero.1 h)).symm
  | succ n ih =>
    cases hafter : o.after k with
    | nil =>
      have hnext : o.next k = none := by rw [next, hafter]; rfl
      simp only [walk, hnext]
    | cons k' rest =>
      have hnext : o.next k = some k' := by rw [next, hafter]; rfl
      have hrest := o.after_next hafter
      have hlen : (o.after k').length ≤ n := by
        rw [hafter, List.length_cons] at h
        rw [hrest]
        omega
      simp only [walk, hnext, ih hlen, hrest]

/-- The keys that a reader comes to from a key, until there is no next one. No walk takes more steps
than there are keys. -/
def walkAll (k : K) : List K := o.walk o.keys.length k

theorem walkAll_eq_after (k : K) : o.walkAll k = o.after k := o.walk_eq_after (o.after_length_le k)

/-- **A walk from a key that is not held comes to every key.** -/
theorem walkAll_of_absent {k : K} (h : t k = none) : o.walkAll k = o.keys := by
  rw [o.walkAll_eq_after, o.after_of_absent h]

/-- **No walk comes to the key it starts from.** -/
theorem not_mem_walkAll (k : K) : k ∉ o.walkAll k := by
  rw [o.walkAll_eq_after]
  exact o.not_mem_after k

/-- A walk from a key that is held misses some. -/
theorem walkAll_length_lt {k : K} (h : t k ≠ none) : (o.walkAll k).length < o.keys.length := by
  obtain ⟨pre, post, hsplit⟩ := List.append_of_mem ((o.mem_iff k).2 h)
  rw [o.walkAll_eq_after, o.after_of_split hsplit, hsplit, List.length_append, List.length_cons]
  omega

theorem mem_of_mem_walkAll {j k : K} (h : j ∈ o.walkAll k) : t j ≠ none := by
  obtain ⟨pre, hpre⟩ := o.exists_split k
  rw [o.walkAll_eq_after] at h
  exact (o.mem_iff j).1 (by rw [hpre]; exact List.mem_append_right _ h)

omit [DecidableEq K] in
/-- As many values are looked up as there are keys that are held. -/
theorem length_lookups {W : Type*} (f : K → V → W) {keys : List K}
    (h : ∀ k ∈ keys, t k ≠ none) :
    (keys.filterMap fun k => (t k).map (f k)).length = keys.length := by
  induction keys with
  | nil => rfl
  | cons k keys ih =>
    obtain ⟨hk, hkeys⟩ := List.forall_mem_cons.1 h
    obtain ⟨v, hv⟩ := Option.ne_none_iff_exists'.1 hk
    rw [List.filterMap_cons_some (by rw [hv]; rfl), List.length_cons, List.length_cons, ih hkeys]

/-! ## Orders -/

/-- The keys in the order, with one of them moved to its start. -/
def moveFirst (k : K) (hk : t k ≠ none) : KeyOrder t where
  keys := k :: o.keys.erase k
  nodup := List.nodup_cons.2 ⟨o.nodup.not_mem_erase, o.nodup.erase k⟩
  mem_iff j := by
    rw [List.mem_cons, o.nodup.mem_erase_iff, o.mem_iff]
    by_cases hj : j = k
    · simp [hj, hk]
    · simp [hj]

/-- The keys in the order, with one of them moved to its end. -/
def moveLast (k : K) (hk : t k ≠ none) : KeyOrder t where
  keys := o.keys.erase k ++ [k]
  nodup := by
    rw [List.nodup_append]
    refine ⟨o.nodup.erase k, List.nodup_singleton k, ?_⟩
    rintro j hj _ hmem rfl
    rw [List.mem_singleton.1 hmem] at hj
    exact o.nodup.not_mem_erase hj
  mem_iff j := by
    rw [List.mem_append, List.mem_singleton, o.nodup.mem_erase_iff, o.mem_iff]
    by_cases hj : j = k
    · simp [hj, hk]
    · simp [hj]

/-- The walk comes to the last key from every other one. -/
theorem mem_walkAll_moveLast {j k : K} (hk : t k ≠ none) (hne : j ≠ k) :
    k ∈ (o.moveLast k hk).walkAll j := by
  rw [walkAll_eq_after]
  by_cases hj : j ∈ o.keys
  · obtain ⟨pre, post, hsplit⟩ := List.append_of_mem ((List.mem_erase_of_ne hne).2 hj)
    have hlast : (o.moveLast k hk).keys = pre ++ j :: (post ++ [k]) := by
      change o.keys.erase k ++ [k] = _
      rw [hsplit]
      simp
    rw [(o.moveLast k hk).after_of_split hlast]
    exact List.mem_append_right _ (List.mem_singleton_self k)
  · have hnone : t j = none := not_not.1 (mt (o.mem_iff j).2 hj)
    rw [after_of_absent _ hnone]
    exact List.mem_append_right _ (List.mem_singleton_self k)

/-- An order for the empty store. -/
def ofEmpty : KeyOrder (Table.empty : Table K V) :=
  ⟨[], List.nodup_nil, fun _ => iff_of_false List.not_mem_nil fun h => h rfl⟩

/-- An order after a value has been stored: a new key comes first. -/
def set (k : K) (v : V) : KeyOrder (t.set k v) where
  keys := k :: o.keys.erase k
  nodup := List.nodup_cons.2 ⟨o.nodup.not_mem_erase, o.nodup.erase k⟩
  mem_iff j := by
    rw [List.mem_cons, o.nodup.mem_erase_iff, o.mem_iff]
    by_cases hj : j = k
    · simp [hj]
    · simp [hj, Table.set_other hj]

omit [DecidableEq K] in
/-- An order after some keys have been removed. -/
def prune (gone : K → Bool) : KeyOrder (t.prune gone) where
  keys := o.keys.filter fun k => !gone k
  nodup := o.nodup.filter _
  mem_iff k := by
    rw [List.mem_filter, o.mem_iff, Table.prune_apply]
    cases gone k <;> simp

/-- An order after a key has been removed. -/
def erase (k : K) : KeyOrder (t.erase k) where
  keys := o.keys.erase k
  nodup := o.nodup.erase k
  mem_iff j := by
    rw [o.nodup.mem_erase_iff, o.mem_iff]
    by_cases hj : j = k
    · simp [hj]
    · simp [hj, Table.erase_other hj]

end KeyOrder
