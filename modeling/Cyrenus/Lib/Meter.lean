import Cyrenus.Lib.Trace
import Mathlib.Algebra.BigOperators.Ring.Finset
import Mathlib.Algebra.Order.Ring.Defs
import Mathlib.Data.List.Infix
import Mathlib.Data.Nat.Cast.Order.Basic
import Mathlib.Tactic.Linarith

/-!
# Meters

A meter holds tokens, at most `cap` of them. Before each arrival it gains a credit, and what would
exceed the capacity is lost; the arrival is served if a whole token is there, and takes it. The
credits are numbers of any ordered ring: real ones make the exact token bucket (`Exact`), whole ones
the bucket of a program that rounds its refills.

What is left after some arrivals is the least of what each stretch of them would leave of a full
meter (`le_left_iff`). So from a full meter all are served if and only if no stretch of arrivals
takes more than a full meter and the credits inside the stretch (`serves_full_iff`).
-/

namespace Meter

variable {M : Type*}

/-! ## Credits for the time between arrivals -/

/-- The credits of arrivals at these times, after one at `last`. -/
def credits (credit : ℕ → M) (last : ℕ) : List ℕ → List M
  | [] => []
  | t :: ts => credit (t - last) :: credits credit t ts

/-- The credits between arrivals at these times. -/
def between (credit : ℕ → M) : List ℕ → List M
  | [] => []
  | t :: ts => credits credit t ts

/-- Before the first arrival there may be another credit. -/
theorem between_suffix (credit : ℕ → M) (last : ℕ) (ts : List ℕ) :
    between credit ts <:+ credits credit last ts := by
  cases ts with
  | nil => exact List.suffix_rfl
  | cons t ts => exact List.suffix_cons ..

variable [CommRing M] [LinearOrder M]

theorem credits_nonneg {credit : ℕ → M} (h : ∀ d, 0 ≤ credit d) (last : ℕ) (ts : List ℕ) :
    ∀ g ∈ credits credit last ts, 0 ≤ g := by
  induction ts generalizing last with
  | nil => nofun
  | cons t ts ih => exact List.forall_mem_cons.2 ⟨h _, ih t⟩

theorem between_nonneg {credit : ℕ → M} (h : ∀ d, 0 ≤ credit d) (ts : List ℕ) :
    ∀ g ∈ between credit ts, 0 ≤ g := by
  cases ts with
  | nil => nofun
  | cons t ts => exact credits_nonneg h t ts

/-! ## Meters -/

/-- All arrivals with these credits are served, from `x` tokens. -/
def Serves (cap : M) : M → List M → Prop
  | _, [] => True
  | x, g :: gs => 1 ≤ min cap (x + g) ∧ Serves cap (min cap (x + g) - 1) gs

/-- No sum of tokens and credit reaches the bound. -/
def Fits (cap bound : M) : M → List M → Prop
  | _, [] => True
  | x, g :: gs => x + g < bound ∧ Fits cap bound (min cap (x + g) - 1) gs

/-- What is left of `x` tokens after arrivals with these credits; less than zero, if one of them
was not served. -/
def left (cap : M) : M → List M → M
  | x, [] => x
  | x, g :: gs => left cap (min cap (x + g) - 1) gs

/-- The sums stay below the bound if none that follows some of the arrivals reaches it. -/
theorem fits_iff {cap bound x : M} {gs : List M} :
    Fits cap bound x gs ↔ ∀ p g, p ++ [g] <+: gs → left cap x p + g < bound := by
  induction gs generalizing x with
  | nil => simp [Fits]
  | cons g gs ih =>
    rw [Fits, ih]
    constructor
    · rintro ⟨hg, hgs⟩ p g' hpre
      cases p with
      | nil =>
        obtain ⟨rfl, -⟩ := List.cons_prefix_cons.1 hpre
        exact hg
      | cons h p =>
        obtain ⟨rfl, hrest⟩ := List.cons_prefix_cons.1 hpre
        exact hgs p g' hrest
    · intro h
      exact ⟨h [] g (by simp), fun p g' hpre => h (g :: p) g' ((List.prefix_cons_inj g).2 hpre)⟩

/-! ## The exact bucket -/

/-- A continuous bucket: its level after the last arrival, and when that came. -/
structure Exact (M : Type*) where
  last : ℕ
  level : M

/-- The level at some time, with `rate` tokens added in a unit of time. -/
def Exact.levelAt (cap rate : M) (b : Exact M) (now : ℕ) : M :=
  min cap (b.level + rate * (now - b.last : ℕ))

/-- One arrival: it is admitted if a whole token is there, and takes it. -/
def Exact.arrive (cap rate : M) (now : ℕ) (b : Exact M) : Bool × Exact M :=
  if 1 ≤ b.levelAt cap rate now then (true, ⟨now, b.levelAt cap rate now - 1⟩)
  else (false, ⟨now, b.levelAt cap rate now⟩)

/-- The exact bucket, full at first, admits all arrivals at these times. -/
def AdmitsAll (cap rate : M) (ts : List ℕ) : Prop :=
  ∀ tv ∈ Trace.trace (Exact.arrive cap rate) ⟨0, cap⟩ ts, tv.2 = true

instance (cap rate : M) (ts : List ℕ) : Decidable (AdmitsAll cap rate ts) :=
  inferInstanceAs (Decidable (∀ tv ∈ Trace.trace _ _ _, tv.2 = true))

/-- It is a meter whose credits are the rate times the time that passed. -/
theorem Exact.admits_iff {cap rate : M} (b : Exact M) (ts : List ℕ) :
    (∀ tv ∈ Trace.trace (Exact.arrive cap rate) b ts, tv.2 = true) ↔
      Serves cap b.level (credits (fun d => rate * d) b.last ts) := by
  induction ts generalizing b with
  | nil => simp [credits, Serves]
  | cons t ts ih =>
    rw [Trace.trace_cons, List.forall_mem_cons, ih, credits, Serves, Exact.arrive, Exact.levelAt]
    split_ifs with h
    · simp [h]
    · simp [h]

/-! ## What a full meter serves -/

/-- A full meter and the credits inside a stretch pay for the arrivals of the stretch, whichever it
is. -/
def Covers (cap : M) (gs : List M) : Prop :=
  ∀ g s, g :: s <:+: gs → (s.length : M) + 1 ≤ cap + s.sum

/-- Every credit has room below the bound on top of what some of the arrivals before it leave of a
full meter: all of them, or a stretch that ends before it. -/
def HasRoom (cap bound : M) (gs : List M) : Prop :=
  ∀ p g, p ++ [g] <+: gs → cap + p.sum + g < bound + p.length ∨
    ∃ h s, h :: s <:+ p ∧ cap + s.sum + g < bound + s.length + 1

/-- What is covered is so from any arrival on. -/
theorem Covers.mono {cap : M} {gs gs' : List M} (h : Covers cap gs) (hsub : gs' <:+: gs) :
    Covers cap gs' :=
  fun g s hin => h g s (hin.trans hsub)

variable [IsStrictOrderedRing M]

/-- **What is left** is the least of what the arrivals leave of the tokens at first, and what every
stretch of them that ends with the last one leaves of a full meter. The credit before the first
arrival of a stretch is not one of the stretch. -/
theorem le_left_iff {cap x m : M} {gs : List M} :
    m ≤ left cap x gs ↔ m + gs.length ≤ x + gs.sum ∧
      ∀ g s, g :: s <:+ gs → m + s.length + 1 ≤ cap + s.sum := by
  induction gs generalizing x with
  | nil => simp [left]
  | cons g gs ih =>
    rw [left, ih]
    have hsplit : m + gs.length ≤ min cap (x + g) - 1 + gs.sum ↔
        m + gs.length + 1 ≤ cap + gs.sum ∧ m + gs.length + 1 ≤ x + g + gs.sum := by
      rw [← le_min_iff, min_add_add_right]
      constructor <;> intro h <;> linarith
    simp only [hsplit, List.suffix_cons_iff, List.length_cons, List.sum_cons, Nat.cast_succ]
    constructor
    · rintro ⟨⟨hcap, hx⟩, hs⟩
      refine ⟨by linarith, ?_⟩
      rintro g' s (heq | hsuf)
      · cases heq
        exact hcap
      · exact hs g' s hsuf
    · rintro ⟨hx, hs⟩
      exact ⟨⟨hs g gs (.inl rfl), by linarith⟩, fun g' s hsuf => hs g' s (.inr hsuf)⟩

/-- The arrivals are served if no first part of them leaves less than zero. -/
theorem serves_iff {cap x : M} {gs : List M} :
    Serves cap x gs ↔ ∀ p, p ≠ [] → p <+: gs → 0 ≤ left cap x p := by
  induction gs generalizing x with
  | nil => simp +contextual [Serves]
  | cons g gs ih =>
    rw [Serves, ih]
    constructor
    · rintro ⟨hg, hgs⟩ p hp hpre
      obtain rfl | ⟨q, rfl, hq⟩ := List.prefix_cons_iff.1 hpre
      · exact absurd rfl hp
      · by_cases hnil : q = []
        · subst hnil
          simpa [left] using hg
        · exact hgs q hnil hq
    · intro h
      refine ⟨?_, fun p _ hpre => h (g :: p) nofun ?_⟩
      · simpa [left] using h [g] nofun (by simp)
      · exact (List.prefix_cons_inj g).2 hpre

/-- **What a full meter serves.** -/
theorem serves_full_iff {cap : M} {gs : List M} (hgs : ∀ g ∈ gs, 0 ≤ g) :
    Serves cap cap gs ↔ Covers cap gs := by
  rw [serves_iff]
  constructor
  · rintro h g s ⟨a, b, rfl⟩
    have hleft := h (a ++ g :: s) (by simp) ⟨b, rfl⟩
    have hs := (le_left_iff.1 hleft).2 g s (List.suffix_append ..)
    linarith
  · intro h p hp hpre
    refine le_left_iff.2 ⟨?_, fun g s hsuf => ?_⟩
    · obtain ⟨g, s, rfl⟩ := List.exists_cons_of_ne_nil hp
      have hs := h g s hpre.isInfix
      have hg := hgs g (hpre.subset List.mem_cons_self)
      simp only [List.length_cons, Nat.cast_succ, List.sum_cons]
      linarith
    · have hs := h g s (hsuf.isInfix.trans hpre.isInfix)
      linarith

/-- The sums that a full meter comes to. -/
theorem fits_full_iff {cap bound : M} {gs : List M} :
    Fits cap bound cap gs ↔ HasRoom cap bound gs := by
  rw [fits_iff]
  refine forall₃_congr fun p g _ => ?_
  have hleft : left cap cap p + g < bound ↔ ¬ bound - g ≤ left cap cap p := by
    rw [not_le, lt_sub_iff_add_lt]
  rw [hleft, le_left_iff, not_and_or]
  refine or_congr ?_ ?_
  · rw [not_le]
    constructor <;> intro h <;> linarith
  · constructor
    · intro h
      by_contra hnone
      refine h fun h' s hsuf => ?_
      by_contra hlt
      exact hnone ⟨h', s, hsuf, by linarith⟩
    · rintro ⟨h', s, hsuf, hlt⟩ hall
      have := hall h' s hsuf
      linarith

/-- What a full meter covers does not depend on the ring that whole credits are taken from. -/
theorem covers_intCast {cap : ℤ} {gs : List ℤ} :
    Covers (cap : M) (gs.map Int.cast) ↔ Covers cap gs := by
  have hsum : ∀ s : List ℤ, (s.length : M) + 1 ≤ (cap : M) + (s.map Int.cast).sum ↔
      (s.length : ℤ) + 1 ≤ cap + s.sum := fun s => by
    rw [← Int.cast_list_sum]
    exact_mod_cast Iff.rfl
  constructor
  · intro h g s hin
    have hs := h g (s.map Int.cast) (hin.map Int.cast)
    rwa [List.length_map, hsum] at hs
  · intro h g s hin
    obtain ⟨l, hl, heq⟩ := List.infix_map_iff.1 hin
    obtain ⟨g', s', rfl, rfl, rfl⟩ := List.map_eq_cons_iff.1 heq.symm
    rw [List.length_map, hsum]
    exact h g' s' hl

/-- **What the exact bucket admits.** -/
theorem admitsAll_iff {cap rate : M} (hrate : 0 ≤ rate) (ts : List ℕ) :
    AdmitsAll cap rate ts ↔ Covers cap (credits (fun d => rate * d) 0 ts) := by
  rw [AdmitsAll, Exact.admits_iff,
    serves_full_iff (credits_nonneg (fun d => mul_nonneg hrate (Nat.cast_nonneg d)) 0 ts)]

end Meter
