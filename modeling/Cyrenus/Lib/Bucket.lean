import Mathlib.Data.List.Induction
import Mathlib.Data.List.Count

/-!
# Token buckets

A token bucket of capacity at most `cap`, refilled at a rate of at most `cap` tokens in `unit`
units of time. `Bucket.Step` says what a limiter may do with one arrival: create the bucket and
admit the arrival without charge, admit it against a token that the old tokens and the refill
since the last update pay for, or refuse it and leave the bucket alone. Whatever else the limiter
does (round the refill down, change its rate, let a product wrap), each step it takes is one of
these, and `Run.admitted_le` bounds what it admits over any interval.
-/

/-- A bucket: when it was last updated, and the tokens it held then. -/
structure Bucket where
  last : ℕ
  tokens : ℕ

namespace Bucket

/-- One arrival at time `t`, admitted or not. -/
inductive Step (cap unit t : ℕ) : Option Bucket → Bool → Option Bucket → Prop
  | create {k : ℕ} : k ≤ cap → Step cap unit t none true (some ⟨t, k⟩)
  | charged {b : Bucket} {k : ℕ} : b.last ≤ t → k ≤ cap →
      unit * (k + 1) ≤ unit * b.tokens + cap * (t - b.last) →
      Step cap unit t (some b) true (some ⟨t, k⟩)
  | refuse {b : Bucket} : Step cap unit t (some b) false (some b)

/-- A history of arrivals, each with its time and whether it was admitted, from no bucket. -/
inductive Run (cap unit : ℕ) : List (ℕ × Bool) → Option Bucket → Prop
  | nil : Run cap unit [] none
  | snoc {es : List (ℕ × Bool)} {b b' : Option Bucket} {t : ℕ} {ok : Bool} :
      Run cap unit es b → Step cap unit t b ok b' → Run cap unit (es ++ [(t, ok)]) b'

/-- The number of arrivals admitted in the closed interval from `a` to `z`. -/
def admitted (a z : ℕ) (es : List (ℕ × Bool)) : ℕ :=
  es.countP fun e => e.2 && decide (a ≤ e.1 ∧ e.1 ≤ z)

theorem admitted_concat (a z t : ℕ) (ok : Bool) (es : List (ℕ × Bool)) :
    admitted a z (es ++ [(t, ok)]) =
      admitted a z es + if ok = true ∧ a ≤ t ∧ t ≤ z then 1 else 0 := by
  simp [admitted, List.countP_append, List.countP_singleton]

/-- The potential of a bucket at the end of a history: while it was last updated inside the
interval, what it has admitted there and the tokens it holds are paid for by the first admission,
a full bucket and the refill up to that update. -/
structure Paid (cap unit a z n : ℕ) (b : Option Bucket) : Prop where
  bound : unit * n ≤ unit * (1 + cap) + cap * (z - a)
  before : (∀ c, b = some c → c.last < a) → n = 0
  inside : ∀ c, b = some c → a ≤ c.last → c.last ≤ z →
    unit * n + unit * c.tokens ≤ unit * (1 + cap) + cap * (c.last - a)

/-- An admission inside the interval keeps the potential when the tokens it leaves are paid for. -/
theorem Paid.spend {cap unit a z n t k : ℕ} {b : Option Bucket}
    (hpay : unit * (n + 1) + unit * k ≤ unit * (1 + cap) + cap * (t - a))
    (hold : unit * n ≤ unit * (1 + cap) + cap * (z - a)) (hzero : t < a → n = 0)
    (hb : b = some ⟨t, k⟩) :
    Paid cap unit a z (n + if true = true ∧ a ≤ t ∧ t ≤ z then 1 else 0) b := by
  subst hb
  by_cases hin : a ≤ t ∧ t ≤ z
  · have hmono : cap * (t - a) ≤ cap * (z - a) := Nat.mul_le_mul_left _ (by omega)
    simp only [hin, and_self, if_true]
    refine ⟨by omega, fun h => ?_, fun c hc _ _ => ?_⟩
    · have := h _ rfl
      simp only at this
      omega
    · cases hc
      exact hpay
  · have hif : ¬ (true = true ∧ a ≤ t ∧ t ≤ z) := fun h => hin h.2
    rw [if_neg hif, Nat.add_zero]
    refine ⟨hold, fun h => hzero (h _ rfl), fun c hc ha hz => ?_⟩
    cases hc
    exact absurd ⟨ha, hz⟩ hin

/-- One arrival keeps the potential. -/
theorem Paid.step {cap unit a z n t : ℕ} {b b' : Option Bucket} {ok : Bool}
    (h : Paid cap unit a z n b) (hs : Step cap unit t b ok b') :
    Paid cap unit a z (n + if ok = true ∧ a ≤ t ∧ t ≤ z then 1 else 0) b' := by
  cases hs with
  | @create k hk =>
    have hn : n = 0 := h.before nofun
    subst hn
    have hk' : unit * k ≤ unit * cap := Nat.mul_le_mul_left _ hk
    refine Paid.spend ?_ h.bound (fun _ => rfl) rfl
    rw [Nat.mul_add unit 1 cap]
    omega
  | @charged c k hle hk hpay =>
    have hk' : unit * k ≤ unit * cap := Nat.mul_le_mul_left _ hk
    have hzero : c.last < a → n = 0 := fun hlt =>
      h.before fun d hd => by cases hd; exact hlt
    by_cases hin : a ≤ t ∧ t ≤ z
    · refine Paid.spend ?_ h.bound (fun hta => hzero (by omega)) rfl
      by_cases hca : a ≤ c.last
      · have hold := h.inside c rfl hca (by omega)
        have hsplit : cap * (t - a) = cap * (c.last - a) + cap * (t - c.last) := by
          rw [← Nat.mul_add]
          congr 1
          omega
        rw [Nat.mul_add] at hpay ⊢
        omega
      · rw [hzero (by omega), Nat.mul_add unit 1 cap]
        omega
    · have hif : ¬ (true = true ∧ a ≤ t ∧ t ≤ z) := fun hc => hin hc.2
      rw [if_neg hif, Nat.add_zero]
      refine ⟨h.bound, fun hall => ?_, fun d hd ha hz => ?_⟩
      · have := hall _ rfl
        simp only at this
        exact hzero (by omega)
      · cases hd
        exact absurd ⟨ha, hz⟩ hin
  | refuse => simpa using h

/-- A run keeps the potential. -/
theorem Run.paid {cap unit : ℕ} {es : List (ℕ × Bool)} {b : Option Bucket}
    (h : Run cap unit es b) (a z : ℕ) : Paid cap unit a z (admitted a z es) b := by
  induction h with
  | nil => exact ⟨by simp [admitted], fun _ => rfl, nofun⟩
  | snoc _ hs ih =>
    rw [admitted_concat]
    exact ih.step hs

/-- **The admission bound.** Over any interval a bucket admits the first arrival, a full bucket,
and what the refill over the length of the interval pays for. -/
theorem Run.admitted_le {cap unit : ℕ} (hu : 0 < unit) {es : List (ℕ × Bool)} {b : Option Bucket}
    (h : Run cap unit es b) (a z : ℕ) :
    admitted a z es ≤ 1 + cap + cap * (z - a) / unit := by
  have hb := (h.paid a z).bound
  calc admitted a z es
      ≤ (unit * (1 + cap) + cap * (z - a)) / unit := by
        rw [Nat.le_div_iff_mul_le hu, Nat.mul_comm]; exact hb
    _ = 1 + cap + cap * (z - a) / unit := Nat.mul_add_div hu _ _

end Bucket
