import Mathlib.Data.List.Induction
import Mathlib.Data.List.Count
import Mathlib.Data.List.Infix

/-!
# Tumbling windows over a timed history

Events arrive at times that never decrease. A window of width `T` opens at the first event and
re-opens at the first event that arrives `T` or more after the current one opened, so windows are
stretches of the history and their openings are at least `T` apart. `Tumbling.after T time as` is
the window that is current after the history `as`, with the events it holds.

Two rules connect windows with half-open intervals of the same width. `after_within` says that the
events of a window lie within `T` of its opening, so what holds of every interval holds of every
window. `inInterval_le` goes the other way: an interval meets at most two windows, so a bound
`B` on what each window holds bounds what an interval holds by `2 * B`.
-/

/-- A window: when it opened, and its events, oldest first. -/
structure Tumbling (α : Type*) where
  opened : ℕ
  events : List α

namespace Tumbling

variable {α : Type*} (T : ℕ) (time : α → ℕ)

/-- An event opens a window when there is none or the current one is `T` old. -/
def Opens (w : Option (Tumbling α)) (a : α) : Prop :=
  ∀ v, w = some v → v.opened + T ≤ time a

instance (w : Option (Tumbling α)) (a : α) : Decidable (Opens T time w a) :=
  match w with
  | none => isTrue nofun
  | some v => decidable_of_iff (v.opened + T ≤ time a) ⟨fun h _ hv => by cases hv; exact h,
      fun h => h v rfl⟩

/-- The window after one more event. -/
def step : Option (Tumbling α) → α → Tumbling α
  | none, a => ⟨time a, [a]⟩
  | some w, a => if w.opened + T ≤ time a then ⟨time a, [a]⟩ else ⟨w.opened, w.events ++ [a]⟩

/-- The window that is current after a history. -/
def after (as : List α) : Option (Tumbling α) :=
  as.foldl (fun w a => some (step T time w a)) none

@[simp] theorem after_nil : after T time [] = none := rfl

@[simp] theorem after_concat (as : List α) (a : α) :
    after T time (as ++ [a]) = some (step T time (after T time as) a) := by
  simp [after, List.foldl_append]

variable {T time}

theorem step_of_opens {w : Option (Tumbling α)} {a : α} (h : Opens T time w a) :
    step T time w a = ⟨time a, [a]⟩ := by
  cases w with
  | none => rfl
  | some v => exact if_pos (h v rfl)

/-- An event that opens no window joins the current one. -/
theorem step_of_not_opens {w : Option (Tumbling α)} {a : α} (h : ¬ Opens T time w a) :
    ∃ v, w = some v ∧ time a < v.opened + T ∧
      step T time w a = ⟨v.opened, v.events ++ [a]⟩ := by
  cases w with
  | none => exact absurd nofun h
  | some v =>
    have hlt : ¬ v.opened + T ≤ time a := fun hle => h fun _ hv => by cases hv; exact hle
    exact ⟨v, rfl, Nat.lt_of_not_le hlt, if_neg hlt⟩

/-- An event that does not open a window after the current one joins it. -/
theorem step_some_of_not_opens {w : Tumbling α} {a : α} (h : ¬ Opens T time (some w) a) :
    time a < w.opened + T ∧ step T time (some w) a = ⟨w.opened, w.events ++ [a]⟩ := by
  obtain ⟨v, hv, hlt, hstep⟩ := step_of_not_opens h
  obtain rfl := Option.some.inj hv
  exact ⟨hlt, hstep⟩

/-- The window after one more event is one that the event opens, or the current one with the
event. -/
theorem after_concat_cases {as : List α} {a : α} {w : Tumbling α}
    (hw : after T time (as ++ [a]) = some w) :
    (Opens T time (after T time as) a ∧ w = ⟨time a, [a]⟩) ∨
      (¬ Opens T time (after T time as) a ∧ ∃ v, after T time as = some v ∧
        time a < v.opened + T ∧ w = ⟨v.opened, v.events ++ [a]⟩) := by
  rw [after_concat, Option.some.injEq] at hw
  rcases Classical.em (Opens T time (after T time as) a) with ho | ho
  · exact .inl ⟨ho, by rw [← hw, step_of_opens ho]⟩
  · obtain ⟨v, hv, hlt, hstep⟩ := step_of_not_opens ho
    exact .inr ⟨ho, v, hv, hlt, by rw [← hw, hstep]⟩

/-- The events of a window end the history. -/
theorem after_suffix {as : List α} {w : Tumbling α} (hw : after T time as = some w) :
    w.events <:+ as := by
  induction as using List.reverseRecOn generalizing w with
  | nil => cases hw
  | append_singleton as a ih =>
    rcases after_concat_cases hw with ⟨-, rfl⟩ | ⟨-, v, hv, -, rfl⟩
    · exact List.suffix_append ..
    · obtain ⟨pre, hpre⟩ := ih hv
      exact ⟨pre, by rw [← hpre, List.append_assoc]⟩

/-- A window holds the event that opened it, and later ones. -/
theorem after_head {as : List α} {w : Tumbling α} (hw : after T time as = some w) :
    ∃ a es, w.events = a :: es ∧ time a = w.opened := by
  induction as using List.reverseRecOn generalizing w with
  | nil => cases hw
  | append_singleton as a ih =>
    rcases after_concat_cases hw with ⟨-, rfl⟩ | ⟨-, v, hv, -, rfl⟩
    · exact ⟨a, [], rfl, rfl⟩
    · obtain ⟨b, es, hes, hb⟩ := ih hv
      exact ⟨b, es ++ [a], by simp [hes], hb⟩

/-- No event of the history is later than the next one. -/
theorem le_last {as : List α} {a : α} (hs : ((as ++ [a]).map time).Pairwise (· ≤ ·)) :
    ∀ b ∈ as, time b ≤ time a := by
  rw [List.map_append, List.pairwise_append] at hs
  exact fun b hb => hs.2.2 _ (List.mem_map_of_mem hb) _ (by simp)

/-- No event of a history is later than its last one. -/
theorem le_last_mem {as : List α} {a : α} (hs : ((as ++ [a]).map time).Pairwise (· ≤ ·)) :
    ∀ b ∈ as ++ [a], time b ≤ time a := by
  intro b hb
  rcases List.mem_append.1 hb with hb | hb
  · exact le_last hs b hb
  · rw [List.mem_singleton.1 hb]

/-- A history stays sorted without its last event. -/
theorem sorted_init {as : List α} {a : α} (hs : ((as ++ [a]).map time).Pairwise (· ≤ ·)) :
    (as.map time).Pairwise (· ≤ ·) := by
  rw [List.map_append, List.pairwise_append] at hs
  exact hs.1

/-- The current window opened no later than the next event arrives. -/
theorem opened_le {as : List α} {a : α} (hs : ((as ++ [a]).map time).Pairwise (· ≤ ·))
    {w : Tumbling α} (hw : after T time as = some w) : w.opened ≤ time a := by
  obtain ⟨b, es, hes, hb⟩ := after_head hw
  exact hb ▸ le_last hs b ((after_suffix hw).mem (hes ▸ List.mem_cons_self ..))

/-- **The events of a window lie within `T` of its opening.** -/
theorem after_within (hT : 0 < T) {as : List α} (hs : (as.map time).Pairwise (· ≤ ·))
    {w : Tumbling α} (hw : after T time as = some w) :
    ∀ a ∈ w.events, w.opened ≤ time a ∧ time a < w.opened + T := by
  induction as using List.reverseRecOn generalizing w with
  | nil => cases hw
  | append_singleton as a ih =>
    rcases after_concat_cases hw with ⟨-, rfl⟩ | ⟨-, v, hv, hlt, rfl⟩
    · simpa using hT
    · have hold := ih (sorted_init hs) hv
      have hopened : v.opened ≤ time a := opened_le hs hv
      intro c hc
      rcases List.mem_append.1 hc with hc | hc
      · exact hold c hc
      · rw [List.mem_singleton.1 hc]
        exact ⟨hopened, hlt⟩

/-- A window with its events renamed. -/
def map {β : Type*} (f : β → α) (w : Tumbling β) : Tumbling α := ⟨w.opened, w.events.map f⟩

/-- Windows are made by the times alone, whatever else the events carry. -/
theorem after_map {β : Type*} (f : β → α) (bs : List β) :
    after T time (bs.map f) = (after T (fun b => time (f b)) bs).map (Tumbling.map f) := by
  induction bs using List.reverseRecOn with
  | nil => rfl
  | append_singleton bs b ih =>
    rw [List.map_append, List.map_singleton, after_concat, after_concat, ih, Option.map_some,
      Option.some.injEq]
    cases after T (fun b => time (f b)) bs with
    | none => rfl
    | some w =>
      simp only [Option.map_some, step, Tumbling.map]
      split
      · rfl
      · simp

/-- The number of events of a history that satisfy `p` and lie in the half-open interval of width
`T` that starts at `x`. -/
def inInterval (T : ℕ) (time : α → ℕ) (p : α → Bool) (x : ℕ) (as : List α) : ℕ :=
  as.countP fun a => p a && decide (x ≤ time a ∧ time a < x + T)

theorem inInterval_concat (p : α → Bool) (x : ℕ) (as : List α) (a : α) :
    inInterval T time p x (as ++ [a]) = inInterval T time p x as +
      if p a = true ∧ x ≤ time a ∧ time a < x + T then 1 else 0 := by
  simp [inInterval, List.countP_append, List.countP_singleton]

/-- A history that ends before an interval starts has no event in it. -/
theorem inInterval_eq_zero {p : α → Bool} {x : ℕ} {as : List α} (h : ∀ a ∈ as, time a < x) :
    inInterval T time p x as = 0 := by
  refine List.countP_eq_zero.2 fun a ha => ?_
  have := h a ha
  simp only [Bool.and_eq_true, decide_eq_true_eq, not_and]
  omega

/-- The events of a window that satisfy `p` are at most those of the half-open interval of width
`T` that starts at its opening. -/
theorem countP_window_le (hT : 0 < T) {as : List α} (hs : (as.map time).Pairwise (· ≤ ·))
    {w : Tumbling α} (hw : after T time as = some w) (p : α → Bool) :
    w.events.countP p ≤ inInterval T time p w.opened as := by
  refine Nat.le_trans (Nat.le_of_eq ?_) ((after_suffix hw).sublist.countP_le)
  refine List.countP_congr fun a ha => ?_
  simp [after_within hT hs hw a ha]

/-- What an interval holds in terms of the window that is current: while that window opened before
the interval, the interval has met it alone, and while it opened inside, it and the one before. -/
theorem inInterval_le_window {p : α → Bool} {B : ℕ} {as : List α}
    (hs : (as.map time).Pairwise (· ≤ ·))
    (hB : ∀ pre, pre <+: as → ∀ w, after T time pre = some w → w.events.countP p ≤ B) (x : ℕ) :
    (∀ w, after T time as = some w →
      (w.opened < x → inInterval T time p x as ≤ w.events.countP p) ∧
      (w.opened < x + T → inInterval T time p x as ≤ B + w.events.countP p)) ∧
    inInterval T time p x as ≤ 2 * B := by
  induction as using List.reverseRecOn with
  | nil => exact ⟨nofun, by simp [inInterval]⟩
  | append_singleton as a ih =>
    obtain ⟨ihw, ihc⟩ := ih (sorted_init hs) fun pre h => hB pre (h.trans (List.prefix_append ..))
    have hlast := hB (as ++ [a]) List.prefix_rfl _ (after_concat T time as a)
    have hle := le_last hs
    have hzero : time a < x → inInterval T time p x as = 0 := fun hax =>
      inInterval_eq_zero fun b hb => Nat.lt_of_le_of_lt (hle b hb) hax
    rw [inInterval_concat]
    simp only [after_concat, Option.some.injEq, forall_eq']
    by_cases ho : Opens T time (after T time as) a
    · rw [step_of_opens ho] at hlast ⊢
      simp only [List.countP_singleton] at hlast ⊢
      -- The window before opened `T` earlier: if this one opens inside the interval, that one
      -- opened before it, and if that one opened inside, the interval is over.
      have hprev : x ≤ time a → time a < x + T → inInterval T time p x as ≤ B := by
        intro hxa hax
        cases hw : after T time as with
        | none =>
          have has : as = [] := by
            cases as using List.reverseRecOn with
            | nil => rfl
            | append_singleton => simp at hw
          simp [has, inInterval]
        | some w =>
          have hopen := ho w hw
          have hwB := hB as (List.prefix_append ..) w hw
          exact Nat.le_trans ((ihw w hw).1 (by omega)) hwB
      split at hlast <;> split <;> grind
    · obtain ⟨v, hv, hlt, he⟩ := step_of_not_opens ho
      rw [he] at hlast ⊢
      have hvB := hB as (List.prefix_append ..) v hv
      have hopened := opened_le hs hv
      obtain ⟨h1, h2⟩ := ihw v hv
      simp only [List.countP_append, List.countP_singleton] at hlast ⊢
      split at hlast <;> split <;> grind

/-- **An interval meets at most two windows.** If no window of the history ever holds more than `B`
events that satisfy `p`, then no half-open interval of width `T` holds more than `2 * B`. -/
theorem inInterval_le {p : α → Bool} {B : ℕ} {as : List α} (hs : (as.map time).Pairwise (· ≤ ·))
    (hB : ∀ pre, pre <+: as → ∀ w, after T time pre = some w → w.events.countP p ≤ B) (x : ℕ) :
    inInterval T time p x as ≤ 2 * B :=
  (inInterval_le_window hs hB x).2

end Tumbling
