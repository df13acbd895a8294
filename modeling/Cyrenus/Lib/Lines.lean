import Mathlib.Data.List.Basic
import Mathlib.Data.List.Count
import Mathlib.Data.List.Flatten

/-!
# Lines of a byte stream, read with a bounded buffer

The complete lines of a sequence are the runs between its separators that a separator ends
(`Lines.complete`); what follows the last separator belongs to no line yet. Facts about them go by
`line_induction`, one line at a time. A bounded line read takes elements up to and with the next
separator, but at most `n` of them (`Lines.takeLine`), and `Lines.pieces` repeats it until nothing
is left. The main rule, `map_content_pieces_iff`, is for a sequence that arrives in parts, each of
which is read to its end: the pieces, without their separators, are the lines of the whole sequence
exactly when every part ends with a separator and every line fits a read.
-/

namespace Lines

variable {α : Type*} (sep : α)

/-- The sequence that consists of the given lines, each ended by a separator. -/
def unlines (ls : List (List α)) : List α := ls.flatMap (· ++ [sep])

/-- A piece is terminated if it is a line with its separator. -/
def Terminated (p : List α) : Prop := ∃ l, sep ∉ l ∧ p = l ++ [sep]

/-- A sequence is framed if it is empty or ends with a separator. -/
def Framed (s : List α) : Prop := s = [] ∨ s.getLast? = some sep

@[simp] theorem unlines_nil : unlines sep [] = [] := rfl

@[simp] theorem unlines_cons (l : List α) (ls : List (List α)) :
    unlines sep (l :: ls) = l ++ sep :: unlines sep ls := by simp [unlines]

variable {sep}

/-- A sequence that holds a separator starts with a line and its separator. -/
theorem exists_first_line {s : List α} (hs : sep ∈ s) :
    ∃ l t, sep ∉ l ∧ s = l ++ sep :: t := by
  obtain ⟨l, t, rfl, hl⟩ := List.eq_append_cons_of_mem hs
  exact ⟨l, t, hl, rfl⟩

variable (sep) in
/-- **Induction along the lines.** What holds of every sequence without a separator, and of a line
with its separator before a sequence it holds of, holds of every sequence. -/
theorem line_induction {P : List α → Prop} (rest : ∀ s, sep ∉ s → P s)
    (line : ∀ l t, sep ∉ l → P t → P (l ++ sep :: t)) (s : List α) : P s := by
  by_cases hs : sep ∈ s
  · obtain ⟨l, t, hl, rfl⟩ := exists_first_line hs
    have hlt : t.length < (l ++ sep :: t).length := by simp; omega
    exact line l t hl (line_induction rest line t)
  · exact rest s hs
termination_by s.length

/-- What lines write is framed. -/
theorem framed_unlines (ls : List (List α)) : Framed sep (unlines sep ls) := by
  rcases ls.eq_nil_or_concat with rfl | ⟨ls, l, rfl⟩
  · exact .inl rfl
  · exact .inr (by simp [unlines])

/-- What follows the first line of a framed sequence is framed. -/
theorem Framed.of_append_sep {l t : List α} (h : Framed sep (l ++ sep :: t)) : Framed sep t := by
  rcases t.eq_nil_or_concat with rfl | ⟨t, c, rfl⟩
  · exact .inl rfl
  · have hs : l ++ sep :: (t.concat c) = (l ++ sep :: t) ++ [c] := by simp
    refine .inr ?_
    rcases h with h | h
    · simp at h
    · rw [hs, List.getLast?_concat] at h
      simpa using h

variable [DecidableEq α] (sep)

/-- The complete lines of a sequence, without their separators. -/
def complete : List α → List (List α)
  | [] => []
  | c :: s =>
    if c = sep then [] :: complete s
    else match complete s with
      | [] => []
      | l :: ls => (c :: l) :: ls

/-- A line read of at most `n` elements: what it takes and what it leaves. -/
def takeLine : ℕ → List α → List α × List α
  | 0, s => ([], s)
  | _ + 1, [] => ([], [])
  | n + 1, c :: s =>
    if c = sep then ([c], s) else (c :: (takeLine n s).1, (takeLine n s).2)

/-- A piece without its separator. -/
def content (p : List α) : List α := p.takeWhile (· ≠ sep)

/-! ## The complete lines -/

variable {sep}

/-- A line and its separator at the start of a sequence are its first complete line. -/
theorem complete_append_sep {l : List α} (hl : sep ∉ l) (s : List α) :
    complete sep (l ++ sep :: s) = l :: complete sep s := by
  induction l with
  | nil => simp [complete]
  | cons c l ih =>
    obtain ⟨hc, hl⟩ := not_or.1 (mt List.mem_cons.2 hl)
    simp [complete, Ne.symm hc, ih hl]

/-- A sequence without separators has no complete line. -/
theorem complete_of_not_mem {s : List α} (hs : sep ∉ s) : complete sep s = [] := by
  induction s with
  | nil => rfl
  | cons c s ih =>
    obtain ⟨hc, hs⟩ := not_or.1 (mt List.mem_cons.2 hs)
    simp [complete, Ne.symm hc, ih hs]

/-- Lines that are written and then followed by more are complete. -/
theorem complete_unlines_append {ls : List (List α)} (hls : ∀ l ∈ ls, sep ∉ l) (s : List α) :
    complete sep (unlines sep ls ++ s) = ls ++ complete sep s := by
  induction ls with
  | nil => rfl
  | cons l ls ih =>
    obtain ⟨hl, hls⟩ := List.forall_mem_cons.1 hls
    rw [unlines_cons, List.append_assoc, List.cons_append, complete_append_sep hl, ih hls,
      List.cons_append]

/-- There is one complete line for each separator. -/
theorem length_complete (s : List α) : (complete sep s).length = s.count sep := by
  induction s using line_induction sep with
  | rest s hs => rw [complete_of_not_mem hs, List.count_eq_zero_of_not_mem hs, List.length_nil]
  | line l t hl ih =>
    rw [complete_append_sep hl, List.length_cons, ih, List.count_append,
      List.count_eq_zero_of_not_mem hl, List.count_cons_self, Nat.zero_add]

/-- A complete line holds no separator. -/
theorem not_mem_of_mem_complete (s : List α) : ∀ l ∈ complete sep s, sep ∉ l := by
  induction s using line_induction sep with
  | rest s hs => simp [complete_of_not_mem hs]
  | line l t hl ih =>
    rw [complete_append_sep hl]
    exact List.forall_mem_cons.2 ⟨hl, ih⟩

/-- **Round trip.** A framed sequence is the one its complete lines write. -/
theorem unlines_complete {s : List α} (hs : Framed sep s) : unlines sep (complete sep s) = s := by
  induction s using line_induction sep with
  | rest s hsep =>
    rcases hs with rfl | hs
    · rfl
    · exact absurd (List.mem_of_getLast? hs) hsep
  | line l t hl ih => rw [complete_append_sep hl, unlines_cons, ih hs.of_append_sep]

/-- The complete lines of a framed sequence come before those of what follows it. -/
theorem Framed.complete_append {s : List α} (hs : Framed sep s) (t : List α) :
    complete sep (s ++ t) = complete sep s ++ complete sep t := by
  conv_lhs => rw [← unlines_complete hs]
  exact complete_unlines_append (not_mem_of_mem_complete s) t

/-- The complete lines of framed parts are the complete lines of the whole. -/
theorem complete_flatten {ss : List (List α)} (hss : ∀ s ∈ ss, Framed sep s) :
    complete sep ss.flatten = ss.flatMap (complete sep) := by
  induction ss with
  | nil => rfl
  | cons s ss ih =>
    obtain ⟨hs, hss⟩ := List.forall_mem_cons.1 hss
    rw [List.flatten_cons, hs.complete_append, ih hss, List.flatMap_cons]

/-! ## Bounded reads -/

variable (sep)

/-- A read takes the start of the sequence and leaves the rest. -/
theorem takeLine_append (n : ℕ) (s : List α) :
    (takeLine sep n s).1 ++ (takeLine sep n s).2 = s := by
  induction n, s using takeLine.induct sep with
  | case1 | case2 => rfl
  | case3 n s => simp [takeLine]
  | case4 n c s hc ih => simp [takeLine, hc, ih]

/-- A read takes no more than its bound. -/
theorem length_takeLine_le (n : ℕ) (s : List α) : (takeLine sep n s).1.length ≤ n := by
  induction n, s using takeLine.induct sep with
  | case1 | case2 => simp [takeLine]
  | case3 n s => simp [takeLine]
  | case4 n c s hc ih => simp [takeLine, hc, ih]

variable {sep}

/-- A read that may take something from a sequence makes it shorter. -/
theorem length_takeLine_rest_le (n : ℕ) (c : α) (s : List α) :
    (takeLine sep (n + 1) (c :: s)).2.length ≤ s.length := by
  have h := congrArg List.length (takeLine_append sep n s)
  rw [List.length_append] at h
  rw [takeLine]
  split
  · exact Nat.le_refl _
  · exact h ▸ Nat.le_add_left _ _

/-- What a read takes is a line with its separator, or holds no separator. -/
theorem terminated_takeLine (n : ℕ) (s : List α) :
    Terminated sep (takeLine sep n s).1 ∨ sep ∉ (takeLine sep n s).1 := by
  induction n, s using takeLine.induct sep with
  | case1 | case2 => exact .inr (by simp [takeLine])
  | case3 n s => exact .inl ⟨[], by simp [takeLine]⟩
  | case4 n c s hc ih =>
    rw [takeLine, if_neg hc]
    refine ih.imp ?_ fun h => by simp [Ne.symm hc, h]
    rintro ⟨l, hl, heq⟩
    exact ⟨c :: l, by simp [Ne.symm hc, hl], by simp [heq]⟩

/-- A line that fits the read is taken with its separator. -/
theorem takeLine_line {n : ℕ} {l : List α} (hl : sep ∉ l) (hn : l.length ≤ n) (t : List α) :
    takeLine sep (n + 1) (l ++ sep :: t) = (l ++ [sep], t) := by
  induction l generalizing n with
  | nil => simp [takeLine]
  | cons c l ih =>
    obtain ⟨hc, hl⟩ := not_or.1 (mt List.mem_cons.2 hl)
    obtain ⟨n, rfl⟩ : ∃ m, n = m + 1 := ⟨n - 1, by simp at hn; omega⟩
    simp [takeLine, Ne.symm hc, ih hl (by simpa using hn)]

variable (sep) in
/-- The pieces that reads of at most `n + 1` elements, one after another, cut a sequence into. -/
def pieces (n : ℕ) : List α → List (List α)
  | [] => []
  | c :: s =>
    (takeLine sep (n + 1) (c :: s)).1 :: pieces n (takeLine sep (n + 1) (c :: s)).2
termination_by s => s.length
decreasing_by exact Nat.lt_succ_of_le (length_takeLine_rest_le n c s)

@[simp] theorem pieces_nil (n : ℕ) : pieces sep n [] = [] := by rw [pieces]

/-- The first piece is what the first read takes. -/
theorem pieces_of_ne_nil (n : ℕ) {s : List α} (hs : s ≠ []) :
    pieces sep n s = (takeLine sep (n + 1) s).1 :: pieces sep n (takeLine sep (n + 1) s).2 := by
  cases s with
  | nil => exact absurd rfl hs
  | cons c s => rw [pieces]

variable (sep) in
/-- The pieces in a row are the sequence. -/
theorem flatten_pieces (n : ℕ) (s : List α) : (pieces sep n s).flatten = s := by
  induction s using pieces.induct sep n with
  | case1 => simp
  | case2 c s ih => rw [pieces, List.flatten_cons, ih, takeLine_append]

/-- Every piece is what some read takes. -/
theorem exists_of_mem_pieces {n : ℕ} {s p : List α} (hp : p ∈ pieces sep n s) :
    ∃ t, p = (takeLine sep (n + 1) t).1 := by
  induction s using pieces.induct sep n with
  | case1 => simp at hp
  | case2 c s ih =>
    rw [pieces] at hp
    rcases List.mem_cons.1 hp with rfl | hp
    · exact ⟨_, rfl⟩
    · exact ih hp

/-- The pieces of lines that fit a read are these lines with their separators. -/
theorem pieces_unlines {n : ℕ} {ls : List (List α)}
    (hls : ∀ l ∈ ls, sep ∉ l ∧ l.length ≤ n) :
    pieces sep n (unlines sep ls) = ls.map (· ++ [sep]) := by
  induction ls with
  | nil => simp
  | cons l ls ih =>
    obtain ⟨⟨hl, hn⟩, hls⟩ := List.forall_mem_cons.1 hls
    rw [unlines_cons, pieces_of_ne_nil n (by simp), takeLine_line hl hn, ih hls, List.map_cons]

@[simp] theorem content_append_sep {l : List α} (hl : sep ∉ l) : content sep (l ++ [sep]) = l := by
  have h : ∀ c ∈ l, decide (c ≠ sep) = true := fun c hc => by
    simpa using fun h : c = sep => hl (h ▸ hc)
  rw [content, List.takeWhile_append_of_pos h]
  simp

/-- Pieces that are all terminated are the lines of their contents. -/
theorem unlines_map_content {ps : List (List α)} (hps : ∀ p ∈ ps, Terminated sep p) :
    unlines sep (ps.map (content sep)) = ps.flatten := by
  induction ps with
  | nil => rfl
  | cons p ps ih =>
    obtain ⟨⟨l, hl, rfl⟩, htail⟩ := List.forall_mem_cons.1 hps
    rw [List.map_cons, content_append_sep hl, unlines_cons, ih htail, List.flatten_cons,
      List.append_assoc, List.singleton_append]

/-- A terminated piece holds one separator. -/
theorem Terminated.count_eq {p : List α} (hp : Terminated sep p) : p.count sep = 1 := by
  obtain ⟨l, hl, rfl⟩ := hp
  rw [List.count_append, List.count_eq_zero_of_not_mem hl, List.count_singleton_self]

/-- Pieces that are terminated or hold no separator are at least as many as the separators. -/
theorem count_flatten_le_length {ps : List (List α)}
    (hps : ∀ p ∈ ps, Terminated sep p ∨ sep ∉ p) : ps.flatten.count sep ≤ ps.length := by
  induction ps with
  | nil => simp
  | cons p ps ih =>
    obtain ⟨hp, htail⟩ := List.forall_mem_cons.1 hps
    have hp : p.count sep ≤ 1 :=
      hp.elim (fun h => Nat.le_of_eq h.count_eq) fun h => by simp [List.count_eq_zero_of_not_mem h]
    have := ih htail
    rw [List.flatten_cons, List.count_append, List.length_cons]
    omega

/-- They are as many as the separators only if all of them are terminated. -/
theorem forall_terminated_of_length_le_count {ps : List (List α)}
    (hps : ∀ p ∈ ps, Terminated sep p ∨ sep ∉ p) (hlen : ps.length ≤ ps.flatten.count sep) :
    ∀ p ∈ ps, Terminated sep p := by
  induction ps with
  | nil => simp
  | cons p ps ih =>
    obtain ⟨hp, htail⟩ := List.forall_mem_cons.1 hps
    have := count_flatten_le_length htail
    rw [List.flatten_cons, List.count_append, List.length_cons] at hlen
    rcases hp with hp | hp
    · exact List.forall_mem_cons.2 ⟨hp, ih htail (by rw [hp.count_eq] at hlen; omega)⟩
    · rw [List.count_eq_zero_of_not_mem hp] at hlen
      omega

/-- The pieces of the parts in a row are the whole sequence. -/
theorem flatten_flatMap_pieces (n : ℕ) (ss : List (List α)) :
    (ss.flatMap (pieces sep n)).flatten = ss.flatten := by
  induction ss with
  | nil => rfl
  | cons s ss ih =>
    rw [List.flatMap_cons, List.flatten_append, flatten_pieces, ih, List.flatten_cons]

/-- **Framing.** Parts are read one after another, each to its end. The contents of the pieces are
the complete lines of the whole sequence if and only if every part is framed and every line fits a
read. -/
theorem map_content_pieces_iff (n : ℕ) (ss : List (List α)) :
    (ss.flatMap (pieces sep n)).map (content sep) = complete sep ss.flatten ↔
      (∀ s ∈ ss, Framed sep s) ∧ ∀ l ∈ complete sep ss.flatten, l.length ≤ n := by
  constructor
  · intro h
    have hread : ∀ p ∈ ss.flatMap (pieces sep n), ∃ t, p = (takeLine sep (n + 1) t).1 := by
      intro p hp
      obtain ⟨s, -, hp⟩ := List.mem_flatMap.1 hp
      exact exists_of_mem_pieces hp
    have hterm : ∀ p ∈ ss.flatMap (pieces sep n), Terminated sep p := by
      refine forall_terminated_of_length_le_count (fun p hp => ?_) ?_
      · obtain ⟨t, rfl⟩ := hread p hp
        exact terminated_takeLine _ t
      · refine Nat.le_of_eq ?_
        rw [flatten_flatMap_pieces, ← length_complete, ← h, List.length_map]
    refine ⟨fun s hs => ?_, fun l hl => ?_⟩
    · rw [← flatten_pieces sep n s, ← unlines_map_content fun p hp =>
        hterm p (List.mem_flatMap.2 ⟨s, hs, hp⟩)]
      exact framed_unlines _
    · rw [← h] at hl
      obtain ⟨p, hp, rfl⟩ := List.mem_map.1 hl
      obtain ⟨k, hk, heq⟩ := hterm p hp
      obtain ⟨t, ht⟩ := hread p hp
      have hlen := length_takeLine_le sep (n + 1) t
      rw [← ht, heq, List.length_append, List.length_singleton] at hlen
      rw [heq, content_append_sep hk]
      omega
  · rintro ⟨hss, hn⟩
    rw [complete_flatten hss] at hn ⊢
    rw [List.map_flatMap]
    refine List.flatMap_congr fun s hs => ?_
    have hls : ∀ l ∈ complete sep s, sep ∉ l ∧ l.length ≤ n := fun l hl =>
      ⟨not_mem_of_mem_complete s l hl, hn l (List.mem_flatMap.2 ⟨s, hs, hl⟩)⟩
    conv_lhs => rw [← unlines_complete (hss s hs), pieces_unlines hls, List.map_map]
    exact (List.map_congr_left fun l hl => content_append_sep (hls l hl).1).trans (List.map_id _)

end Lines
