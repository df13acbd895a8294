import Mathlib.Data.List.Chain
import Mathlib.Data.List.Induction

/-!
# Trains of events

Let `R a b` say that the event `b` follows the event `a` closely. A history falls into trains:
stretches in which every event follows the one before it closely. `Train.after R as` is the train
that the last event of `as` belongs to.

`after_maximal` says that it is the longest closely spaced stretch at the end of the history, so
bounding all trains is bounding all closely spaced stretches (`length_le_iff`). A train grows by one
event at a time, so one that gets longer than a bound has passed just above it (`exists_length_eq`).
-/

namespace Train

variable {α : Type*} (R : α → α → Prop) [DecidableRel R]

/-- The train of one more event: it joins the current one if it follows its last event closely, and
starts another one if it does not. -/
def step (cur : List α) (a : α) : List α :=
  if ∀ b ∈ cur.getLast?, R b a then cur ++ [a] else [a]

/-- The train at the end of a history. -/
def after (as : List α) : List α := as.foldl (step R) []

@[simp] theorem after_nil : after R [] = [] := rfl

@[simp] theorem after_concat (as : List α) (a : α) :
    after R (as ++ [a]) = step R (after R as) a := by
  simp [after, List.foldl_append]

variable {R}

/-- An event ends its train. -/
theorem getLast?_step (cur : List α) (a : α) : (step R cur a).getLast? = some a := by
  unfold step
  split
  · simp
  · rfl

/-- A train starts anew after its last event is not followed closely. -/
theorem length_step {cur : List α} {b a : α} (h : cur.getLast? = some b) :
    (step R cur a).length = if R b a then cur.length + 1 else 1 := by
  simp only [step, h, Option.mem_def, Option.some.injEq, forall_eq']
  split <;> simp

/-- A train grows by at most one event. -/
theorem length_step_le (cur : List α) (a : α) : (step R cur a).length ≤ cur.length + 1 := by
  unfold step
  split <;> simp

/-- The train at the end of a history is the end of the history. -/
theorem after_suffix (as : List α) : after R as <:+ as := by
  induction as using List.reverseRecOn with
  | nil => exact List.suffix_rfl
  | append_singleton as a ih =>
    rw [after_concat, step]
    split
    · obtain ⟨pre, hpre⟩ := ih
      exact ⟨pre, by rw [← List.append_assoc, hpre]⟩
    · exact List.suffix_append ..

/-- The events of a train follow each other closely. -/
theorem after_isChain (as : List α) : (after R as).IsChain R := by
  induction as using List.reverseRecOn with
  | nil => exact .nil
  | append_singleton as a ih =>
    rw [after_concat, step]
    split
    · next h =>
      refine ih.append (.singleton a) fun b hb c hc => ?_
      cases hc
      exact h b hb
    · exact .singleton a

/-- **A train is maximal**: every closely spaced end of the history is an end of the train. -/
theorem after_maximal {as w : List α} (hw : w <:+ as) (hc : w.IsChain R) : w <:+ after R as := by
  induction as using List.reverseRecOn generalizing w with
  | nil => exact hw
  | append_singleton as a ih =>
    rw [after_concat]
    obtain rfl | ⟨w, rfl, hinit⟩ := List.suffix_concat_iff.1 hw
    · exact List.nil_suffix
    obtain ⟨hc, -, hjoin⟩ := List.isChain_append.1 hc
    obtain ⟨pre, hpre⟩ := ih hinit hc
    cases w using List.reverseRecOn with
    | nil =>
      unfold step
      split
      · exact List.suffix_append ..
      · exact List.suffix_rfl
    | append_singleton w b =>
      have hclose : R b a := hjoin b (by simp) a (by simp)
      have hlast : (after R as).getLast? = some b := by
        rw [← hpre, ← List.append_assoc, List.getLast?_concat]
      rw [step, if_pos (by simpa [hlast] using hclose)]
      exact ⟨pre, by rw [← hpre]; simp⟩

/-- **Bounding trains.** The trains of a history hold at most `n` events exactly when no `n + 1`
events in a row follow each other closely. -/
theorem length_le_iff {as : List α} {n : ℕ} :
    (∀ pre, pre <+: as → (after R pre).length ≤ n) ↔
      ∀ w, w <:+: as → w.length = n + 1 → ¬ w.IsChain R := by
  constructor
  · intro h w hw hlen hc
    obtain ⟨pre, hsuf, hpre⟩ := List.infix_iff_suffix_prefix.1 hw
    have hle := (after_maximal hsuf hc).length_le
    have hbound := h pre hpre
    omega
  · intro h pre hpre
    by_contra hlong
    -- The last `n + 1` events of a train that is too long are such a stretch.
    have hdrop := List.drop_suffix ((after R pre).length - (n + 1)) (after R pre)
    refine h _ (List.infix_iff_suffix_prefix.2 ⟨pre, hdrop.trans (after_suffix pre), hpre⟩) ?_
      ((after_isChain pre).suffix hdrop)
    rw [List.length_drop]
    omega

/-- A train that is longer than `n` has had `n + 1` events. -/
theorem exists_length_eq {as : List α} {n : ℕ} (h : n < (after R as).length) :
    ∃ pre, pre <+: as ∧ (after R pre).length = n + 1 := by
  induction as using List.reverseRecOn with
  | nil => cases h
  | append_singleton as a ih =>
    have hle : (step R (after R as) a).length ≤ (after R as).length + 1 := length_step_le _ _
    rcases Nat.eq_or_lt_of_le h with hn | hn
    · exact ⟨_, List.prefix_rfl, hn.symm⟩
    · rw [after_concat] at hn
      obtain ⟨pre, hpre, hlen⟩ := ih (by omega)
      exact ⟨pre, hpre.trans (List.prefix_append ..), hlen⟩

end Train
