import Mathlib.Logic.Function.Basic

/-!
# Tables

A table is a function from keys to optional values: what a key-value store answers, with no regard
to how it stores it. `alter` reads the value under one key, computes a result and a new value from
it, and writes the value back; it changes nothing under any other key. A table `Encodes` another one
if it answers the encoded values under the encoded keys; storing and removing on both sides keep
that, as long as no two keys have the same code.
-/

/-- What a key-value store answers under each key. -/
abbrev Table (K V : Type*) := K → Option V

namespace Table

variable {K V ω : Type*} [DecidableEq K]

/-- The table that answers nothing. -/
def empty : Table K V := fun _ => none

/-- Store a value under a key. -/
def set (t : Table K V) (k : K) (v : V) : Table K V := Function.update t k (some v)

/-- Remove a key. -/
def erase (t : Table K V) (k : K) : Table K V := Function.update t k none

/-- Remove every key that `gone` selects. -/
def prune {K V : Type*} (t : Table K V) (gone : K → Bool) : Table K V := fun k =>
  if gone k then none else t k

/-- Read what stands under `k`, and write back what `f` makes of it. -/
def alter (t : Table K V) (k : K) (f : Option V → ω × Option V) : ω × Table K V :=
  ((f (t k)).1, Function.update t k (f (t k)).2)

@[simp] theorem set_same (t : Table K V) (k : K) (v : V) : t.set k v k = some v :=
  Function.update_self ..

theorem set_other {t : Table K V} {k j : K} {v : V} (h : j ≠ k) : t.set k v j = t j :=
  Function.update_of_ne h ..

@[simp] theorem erase_same (t : Table K V) (k : K) : t.erase k k = none := Function.update_self ..

theorem erase_other {t : Table K V} {k j : K} (h : j ≠ k) : t.erase k j = t j :=
  Function.update_of_ne h ..

/-- Removing a key that has just been added gives the table from before. -/
theorem erase_set {t : Table K V} {k : K} (h : t k = none) (v : V) : (t.set k v).erase k = t := by
  funext j
  by_cases hj : j = k
  · rw [hj, erase_same, h]
  · rw [erase_other hj, set_other hj]

omit [DecidableEq K] in
@[simp] theorem prune_apply (t : Table K V) (gone : K → Bool) (k : K) :
    t.prune gone k = if gone k then none else t k := rfl

@[simp] theorem alter_fst (t : Table K V) (k : K) (f : Option V → ω × Option V) :
    (t.alter k f).1 = (f (t k)).1 := rfl

@[simp] theorem alter_same (t : Table K V) (k : K) (f : Option V → ω × Option V) :
    (t.alter k f).2 k = (f (t k)).2 := Function.update_self ..

/-- Change the value under a key, if there is one. -/
def modify (t : Table K V) (k : K) (g : V → V) : Table K V := Function.update t k ((t k).map g)

@[simp] theorem modify_same (t : Table K V) (k : K) (g : V → V) :
    t.modify k g k = (t k).map g := Function.update_self ..

theorem modify_other {t : Table K V} {k j : K} {g : V → V} (h : j ≠ k) : t.modify k g j = t j :=
  Function.update_of_ne h ..

/-- Change all values. -/
def map {K V W : Type*} (f : V → W) (t : Table K V) : Table K W := fun k => (t k).map f

omit [DecidableEq K] in
@[simp] theorem map_apply {W : Type*} (f : V → W) (t : Table K V) (k : K) :
    t.map f k = (t k).map f := rfl

variable {W : Type*} {f : V → W}

theorem map_set (t : Table K V) (k : K) (v : V) : (t.set k v).map f = (t.map f).set k (f v) := by
  funext j
  by_cases h : j = k
  · rw [h, map_apply, set_same, set_same, Option.map_some]
  · rw [map_apply, set_other h, set_other h, map_apply]

theorem map_erase (t : Table K V) (k : K) : (t.erase k).map f = (t.map f).erase k := by
  funext j
  by_cases h : j = k
  · rw [h, map_apply, erase_same, erase_same, Option.map_none]
  · rw [map_apply, erase_other h, erase_other h, map_apply]

/-- Changing a value and what it is mapped to is the same. -/
theorem map_modify {t : Table K V} {k : K} {g : V → V} {g' : W → W}
    (h : ∀ v, t k = some v → f (g v) = g' (f v)) :
    (t.modify k g).map f = (t.map f).modify k g' := by
  funext j
  by_cases hj : j = k
  · rw [hj, map_apply, modify_same, modify_same, map_apply]
    cases hv : t k with
    | none => rfl
    | some v => exact congrArg some (h v hv)
  · rw [map_apply, modify_other hj, modify_other hj, map_apply]

/-- All values of a table have a property. -/
def All {K V : Type*} (P : V → Prop) (t : Table K V) : Prop := ∀ k v, t k = some v → P v

namespace All

variable {P Q : V → Prop} {t : Table K V}

omit [DecidableEq K] in
theorem mono (h : t.All P) (hPQ : ∀ v, P v → Q v) : t.All Q := fun k v hv => hPQ v (h k v hv)

omit [DecidableEq K] in
theorem map {g : V → W} {R : W → Prop} (h : t.All P) (hg : ∀ v, P v → R (g v)) :
    (t.map g).All R := by
  intro k w hw
  obtain ⟨v, hv, rfl⟩ := Option.map_eq_some_iff.1 hw
  exact hg v (h k v hv)

omit [DecidableEq K] in
theorem and (hP : t.All P) (hQ : t.All Q) : t.All fun v => P v ∧ Q v := fun k v hv =>
  ⟨hP k v hv, hQ k v hv⟩

theorem set (h : t.All P) (k : K) {v : V} (hv : P v) : (t.set k v).All P := by
  intro j w hw
  by_cases hj : j = k
  · rw [hj, set_same] at hw
    cases hw
    exact hv
  · rw [set_other hj] at hw
    exact h j w hw

theorem erase (h : t.All P) (k : K) : (t.erase k).All P := by
  intro j w hw
  by_cases hj : j = k
  · rw [hj, erase_same] at hw
    cases hw
  · rw [erase_other hj] at hw
    exact h j w hw

theorem modify (h : t.All P) (k : K) {g : V → V} (hg : ∀ v, P v → P (g v)) :
    (t.modify k g).All P := by
  intro j w hw
  by_cases hj : j = k
  · rw [hj, modify_same] at hw
    obtain ⟨v, hv, rfl⟩ := Option.map_eq_some_iff.1 hw
    exact hg v (h k v hv)
  · rw [modify_other hj] at hw
    exact h j w hw

end All

/-! ## Encoded tables -/

variable {K' V' : Type*} [DecidableEq K'] {key : K → K'} {val : K → V → V'} {t : Table K V}
  {t' : Table K' V'}

omit [DecidableEq K] [DecidableEq K'] in
/-- The table `t'` holds what `t` holds, with keys and values encoded. -/
def Encodes (key : K → K') (val : K → V → V') (t : Table K V) (t' : Table K' V') : Prop :=
  ∀ k, t' (key k) = (t k).map (val k)

omit [DecidableEq K] [DecidableEq K'] in
theorem Encodes.empty : Encodes key val empty empty := fun _ => rfl

theorem Encodes.set (hkey : Function.Injective key) (h : Encodes key val t t') (k : K) (v : V) :
    Encodes key val (t.set k v) (t'.set (key k) (val k v)) := by
  intro j
  by_cases hj : j = k
  · rw [hj, set_same, set_same, Option.map_some]
  · rw [set_other hj, set_other (hkey.ne hj), h j]

theorem Encodes.erase (hkey : Function.Injective key) (h : Encodes key val t t') (k : K) :
    Encodes key val (t.erase k) (t'.erase (key k)) := by
  intro j
  by_cases hj : j = k
  · rw [hj, erase_same, erase_same, Option.map_none]
  · rw [erase_other hj, erase_other (hkey.ne hj), h j]

end Table
