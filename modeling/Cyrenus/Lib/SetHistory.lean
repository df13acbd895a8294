import Cyrenus.Lib.Trace
import Mathlib.Data.Set.Insert

/-!
# Sets with a history

A set that starts empty is changed by adding and removing elements, and after a list of changes an
element is in it if some addition of it is not followed by a removal (`standing`). Where the set is
kept under names, so that a change of `a` is carried out as the change of `f a`, what is kept is
`standing` of the renamed changes. The rule for such sets is `standing_map_eq_iff`: if only what is
kept is removed, the set that is kept is the set that is meant, at all times, exactly if each
element of the history is its own name.
-/

/-- A change of a set. -/
inductive SetChange (α : Type*) where
  | add (a : α)
  | remove (a : α)
  deriving DecidableEq

namespace SetChange

variable {α β : Type*}

/-- The element that is added or removed. -/
def elem : SetChange α → α
  | add a => a
  | remove a => a

/-- The same change of another element. -/
def map (f : α → β) : SetChange α → SetChange β
  | add a => add (f a)
  | remove a => remove (f a)

/-- A change of an element that is its own name is not renamed. -/
theorem map_eq_self {f : α → α} {change : SetChange α} (h : f change.elem = change.elem) :
    change.map f = change := by
  cases change with
  | add a => exact congrArg add h
  | remove a => exact congrArg remove h

/-- The elements that have been added and not removed afterwards. -/
def standing (changes : List (SetChange α)) : Set α :=
  {a | ∃ pre post, changes = pre ++ add a :: post ∧ remove a ∉ post}

@[simp] theorem standing_nil : standing ([] : List (SetChange α)) = ∅ := by
  ext a
  simp [standing]

/-- What stands has been added. -/
theorem add_mem_of_standing {changes : List (SetChange α)} {a : α} (h : a ∈ standing changes) :
    add a ∈ changes := by
  obtain ⟨pre, post, rfl, -⟩ := h
  simp

/-- An element stands after one more change if that adds it, or it stood and is not removed. -/
theorem mem_standing_concat {changes : List (SetChange α)} {change : SetChange α} {a : α} :
    a ∈ standing (changes ++ [change]) ↔
      change = add a ∨ (a ∈ standing changes ∧ change ≠ remove a) := by
  constructor
  · rintro ⟨pre, post, heq, hpost⟩
    rcases List.eq_nil_or_concat post with rfl | ⟨post, last, rfl⟩
    · exact .inl (List.append_singleton_inj.1 heq).2
    · rw [List.concat_eq_append] at heq hpost
      rw [← List.cons_append, ← List.append_assoc, List.append_singleton_inj] at heq
      obtain ⟨rfl, rfl⟩ := heq
      rw [List.mem_append, not_or, List.mem_singleton] at hpost
      exact .inr ⟨⟨pre, post, rfl, hpost.1⟩, Ne.symm hpost.2⟩
  · rintro (rfl | ⟨⟨pre, post, rfl, hpost⟩, hne⟩)
    · exact ⟨changes, [], rfl, List.not_mem_nil⟩
    · refine ⟨pre, post ++ [change], by simp, ?_⟩
      rw [List.mem_append, not_or, List.mem_singleton]
      exact ⟨hpost, Ne.symm hne⟩

theorem standing_concat_add (changes : List (SetChange α)) (a : α) :
    standing (changes ++ [add a]) = insert a (standing changes) := by
  ext b
  rw [mem_standing_concat, Set.mem_insert_iff, add.injEq, @eq_comm _ b]
  simp

theorem standing_concat_remove (changes : List (SetChange α)) (a : α) :
    standing (changes ++ [remove a]) = standing changes \ {a} := by
  ext b
  rw [mem_standing_concat, Set.mem_sdiff, Set.mem_singleton_iff, ne_eq, remove.injEq,
    @eq_comm _ b]
  simp

/-! ## Sets that are kept under names -/

variable {f : α → α} {changes : List (SetChange α)}

/-- All elements of a history are their own names. -/
def OwnNames (f : α → α) (changes : List (SetChange α)) : Prop :=
  ∀ change ∈ changes, f change.elem = change.elem

/-- Only what is kept is removed. -/
def RemovesKept (f : α → α) (changes : List (SetChange α)) : Prop :=
  ∀ pre a, pre ++ [remove a] <+: changes → f a ∈ standing (pre.map (map f))

theorem OwnNames.map_eq (h : OwnNames f changes) : changes.map (map f) = changes := by
  rw [List.map_congr_left fun change hmem => map_eq_self (h change hmem), List.map_id']

/-- If the elements so far are their own names, one more change is carried out as it is meant
exactly if its element is its own name too. -/
theorem OwnNames.standing_concat_iff (h : OwnNames f changes) {change : SetChange α}
    (hkept : ∀ a, change = remove a → f a ∈ standing changes) :
    standing (changes ++ [change.map f]) = standing (changes ++ [change]) ↔
      f change.elem = change.elem := by
  constructor
  · intro heq
    cases change with
    | add a =>
      -- An element that is not its own name has not been added before.
      have hmem : a ∈ standing (changes ++ [(add a).map f]) := by
        rw [heq, standing_concat_add]
        exact Set.mem_insert a _
      rw [map, standing_concat_add] at hmem
      rcases Set.mem_insert_iff.1 hmem with hname | hstands
      · exact hname.symm
      · exact h _ (add_mem_of_standing hstands)
    | remove a =>
      -- Else the element with its name would go in its place.
      have hmem : f a ∉ standing (changes ++ [remove a]) := by
        rw [← heq, map, standing_concat_remove]
        exact fun hmem => hmem.2 rfl
      rw [standing_concat_remove] at hmem
      by_contra hne
      exact hmem ⟨hkept a rfl, hne⟩
  · intro hname
    rw [map_eq_self hname]

/-- **Sets under names.** Where only what is kept is removed, the set that is kept is the set that
is meant after all stages of a history exactly if its elements are their own names. -/
theorem standing_map_eq_iff (hkept : RemovesKept f changes) :
    (∀ pre, pre <+: changes → standing (pre.map (map f)) = standing pre) ↔
      OwnNames f changes := by
  induction changes using List.reverseRecOn with
  | nil =>
    refine ⟨fun _ => nofun, fun _ pre hpre => ?_⟩
    rw [List.prefix_nil.1 hpre, List.map_nil]
  | append_singleton changes change ih =>
    have ih := ih fun pre a hpre => hkept pre a (hpre.trans (List.prefix_append ..))
    have hlast (h : OwnNames f changes) :
        standing ((changes ++ [change]).map (map f)) = standing (changes ++ [change]) ↔
          f change.elem = change.elem := by
      rw [List.map_append, List.map_singleton, h.map_eq]
      refine h.standing_concat_iff fun a ha => ?_
      rw [← h.map_eq]
      exact hkept changes a (ha ▸ List.prefix_rfl)
    constructor
    · intro h
      have hinit := ih.1 fun pre hpre => h pre (hpre.trans (List.prefix_append ..))
      intro c hc
      rcases List.mem_append.1 hc with hc | hc
      · exact hinit c hc
      · rw [List.mem_singleton.1 hc]
        exact (hlast hinit).1 (h _ List.prefix_rfl)
    · intro h pre hpre
      have hinit : OwnNames f changes := fun c hc => h c (List.mem_append_left _ hc)
      rcases List.prefix_concat_iff.1 hpre with rfl | hpre
      · exact (hlast hinit).2 (h change (by simp))
      · exact ih.2 hinit pre hpre

end SetChange
