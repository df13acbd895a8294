import Mathlib.Data.List.Basic

/-!
# Stages of a filter

A stage of a packet filter, or of any chain of checks, reads and writes a state and returns a
verdict; one verdict lets the input go on to the next stage and every other one ends the chain.
`Stage.andThen` is that sequencing. A property of a chain is proved from the same property of its
stages by the rules `Respects.andThen` (two runs from related states), `Undisturbed.andThen` (one
run, the other state stays put), `Lenient.andThen` (two chains, the second of which lets pass what
the first does), `Within.andThen` (the verdicts that can come out) and `andThen_frame` (a part of
the state that no stage writes).
-/

namespace Stage

variable {σ ν π : Type*} [DecidableEq ν] {pass : ν} {s k : σ → ν × σ}

/-- Run `s`; if it lets the input pass, run `k` on the state it leaves. -/
def andThen (pass : ν) (s k : σ → ν × σ) (x : σ) : ν × σ :=
  if (s x).1 = pass then k (s x).2 else s x

theorem andThen_of_pass {x : σ} (h : (s x).1 = pass) : andThen pass s k x = k (s x).2 := if_pos h

theorem andThen_of_stop {x : σ} (h : (s x).1 ≠ pass) : andThen pass s k x = s x := if_neg h

/-- A chain stops the input if one of its stages does. -/
theorem andThen_ne_pass_iff {x : σ} :
    (andThen pass s k x).1 ≠ pass ↔ (s x).1 ≠ pass ∨ (k (s x).2).1 ≠ pass := by
  by_cases h : (s x).1 = pass
  · rw [andThen_of_pass h]
    exact (or_iff_right (not_not_intro h)).symm
  · rw [andThen_of_stop h]
    exact iff_of_true h (.inl h)

/-- Sequencing is associative. -/
theorem andThen_assoc (r : σ → ν × σ) (x : σ) :
    andThen pass (andThen pass s k) r x = andThen pass s (andThen pass k r) x := by
  by_cases h : (s x).1 = pass
  · simp only [andThen, h, if_true]
  · simp only [andThen, h, if_false]

/-- A part of the state that the second stage does not write is as the first one leaves it. -/
theorem andThen_frame_snd {f : σ → π} (hk : ∀ x, f (k x).2 = f x) (x : σ) :
    f (andThen pass s k x).2 = f (s x).2 := by
  by_cases h : (s x).1 = pass
  · rw [andThen_of_pass h, hk]
  · rw [andThen_of_stop h]

/-- A part of the state that neither stage writes is not written by the chain. -/
theorem andThen_frame {f : σ → π} (hs : ∀ x, f (s x).2 = f x) (hk : ∀ x, f (k x).2 = f x)
    (x : σ) : f (andThen pass s k x).2 = f x := (andThen_frame_snd hk x).trans (hs x)

/-- A last stage that always lets the input pass does not change the verdict. -/
theorem andThen_fst_of_pass (hk : ∀ x, (k x).1 = pass) (x : σ) :
    (andThen pass s k x).1 = (s x).1 := by
  by_cases h : (s x).1 = pass
  · rw [andThen_of_pass h, hk, h]
  · rw [andThen_of_stop h]

/-- Every verdict of the stage is one of those that `P` allows. -/
def Within (P : ν → Prop) (s : σ → ν × σ) : Prop := ∀ x, P (s x).1

theorem Within.andThen {P : ν → Prop} (hs : Within P s) (hk : Within P k) :
    Within P (andThen pass s k) := by
  intro x
  by_cases h : (s x).1 = pass
  · rw [andThen_of_pass h]
    exact hk _
  · rw [andThen_of_stop h]
    exact hs x

/-- From related states the stage gives equal verdicts and related states. -/
def Respects (R : σ → σ → Prop) (s : σ → ν × σ) : Prop :=
  ∀ x y, R x y → (s x).1 = (s y).1 ∧ R (s x).2 (s y).2

theorem Respects.andThen {R : σ → σ → Prop} (hs : Respects R s) (hk : Respects R k) :
    Respects R (andThen pass s k) := by
  intro x y h
  obtain ⟨hv, hR⟩ := hs x y h
  by_cases hx : (s x).1 = pass
  · rw [andThen_of_pass hx, andThen_of_pass (hv ▸ hx)]
    exact hk _ _ hR
  · rw [andThen_of_stop hx, andThen_of_stop (hv ▸ hx)]
    exact ⟨hv, hR⟩

/-- The stage keeps its state related to a state that does not move. -/
def Undisturbed (R : σ → σ → Prop) (s : σ → ν × σ) : Prop :=
  ∀ x y, R x y → R (s x).2 y

theorem Undisturbed.andThen {R : σ → σ → Prop} (hs : Undisturbed R s) (hk : Undisturbed R k) :
    Undisturbed R (andThen pass s k) := by
  intro x y h
  by_cases hx : (s x).1 = pass
  · rw [andThen_of_pass hx]; exact hk _ _ (hs x y h)
  · rw [andThen_of_stop hx]; exact hs x y h

/-- From states related by `R`, `s'` lets pass what `s` lets pass, and leaves states related by
`R'`. -/
def Lenient (pass : ν) (R R' : σ → σ → Prop) (s s' : σ → ν × σ) : Prop :=
  ∀ x y, R x y → (s x).1 = pass → (s' y).1 = pass ∧ R' (s x).2 (s' y).2

omit [DecidableEq ν] in
/-- A stage that cannot tell related states apart is as lenient from the one as from the other. -/
theorem Respects.lenient {R : σ → σ → Prop} (hs : Respects R s) : Lenient pass R R s s := by
  intro x y h hpass
  obtain ⟨hv, hR⟩ := hs x y h
  exact ⟨hv ▸ hpass, hR⟩

theorem Lenient.andThen {R R' R'' : σ → σ → Prop} {s' k' : σ → ν × σ}
    (hs : Lenient pass R R' s s') (hk : Lenient pass R' R'' k k') :
    Lenient pass R R'' (andThen pass s k) (andThen pass s' k') := by
  intro x y h hpass
  by_cases hx : (s x).1 = pass
  · obtain ⟨hy, hR⟩ := hs x y h hx
    rw [andThen_of_pass hx] at hpass ⊢
    rw [andThen_of_pass hy]
    exact hk _ _ hR hpass
  · rw [andThen_of_stop hx] at hpass
    exact absurd hpass hx

end Stage
