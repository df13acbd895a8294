import Cyrenus.Lib.CString

/-!
# The words of a shell command

The shell reads a command from left to right. Between single quotes every character stands for
itself; elsewhere blanks end a word and `&&` is an operator. `tokens` knows no other quotes and no
other operators: a command has no tokens here when a quote is not closed, or when another character
that may have a meaning for the shell stands outside of quotes.
-/

namespace Shell

/-- A word of a command, or the operator between two commands. -/
inductive Token where
  | word (s : CStr)
  | andIf
  deriving DecidableEq, Repr

/-- Where the shell is: between quotes, in the word read so far or, outside of them, in a word or in
none, or behind the first character of `&&`. -/
inductive Mode where
  | quoted (word : CStr)
  | plain (word : Option CStr)
  | ampersand
  deriving DecidableEq, Repr

/-- Characters that may have another meaning. -/
def isSpecial (c : Char) : Bool := c ∈ "\n\"\\$|;<>()*?[]#~=%{}!".toList || c.toNat = 96

/-- Characters that end a word. -/
def isBlank (c : Char) : Bool := c = ' ' || c = '\t'

/-- The token of a word, if there is one. -/
def close (word : Option CStr) : List Token := (word.map Token.word).toList

/-- Read a character: the tokens so far, and where the shell is then. -/
def step : List Token × Mode → Char → Option (List Token × Mode)
  | (done, .quoted w), c =>
    if c = '\'' then some (done, .plain (some w)) else some (done, .quoted (w ++ [c]))
  | (done, .plain w), c =>
    if c = '\'' then some (done, .quoted (w.getD []))
    else if isBlank c then some (done ++ close w, .plain none)
    else if c = '&' then some (done ++ close w, .ampersand)
    else if isSpecial c then none
    else some (done, .plain (some (w.getD [] ++ [c])))
  | (done, .ampersand), c => if c = '&' then some (done ++ [.andIf], .plain none) else none

/-- The end of a command. -/
def finish : List Token × Mode → Option (List Token)
  | (done, .plain w) => some (done ++ close w)
  | (_, .quoted _) | (_, .ampersand) => none

/-- Read some characters. -/
def run (st : List Token × Mode) (s : CStr) : Option (List Token × Mode) := s.foldlM step st

/-- The tokens of a command. -/
def tokens (s : CStr) : Option (List Token) := (run ([], .plain none) s).bind finish

example : tokens "cp 'a b'c && ls".toList =
    some [.word "cp".toList, .word "a bc".toList, .andIf, .word "ls".toList] := by decide

theorem run_append (st : List Token × Mode) (s s' : CStr) :
    run st (s ++ s') = (run st s).bind fun st' => run st' s' := by
  simp only [run, List.foldlM_append]
  rfl

theorem run_cons (st : List Token × Mode) (c : Char) (s : CStr) :
    run st (c :: s) = (step st c).bind fun st' => run st' s := by
  simp only [run, List.foldlM_cons]
  rfl

/-- **Between quotes** every text that has no quote is part of the word. -/
theorem run_quoted {s : CStr} (hs : '\'' ∉ s) (done : List Token) (w : CStr) :
    run (done, .quoted w) s = some (done, .quoted (w ++ s)) := by
  induction s generalizing w with
  | nil => rw [List.append_nil]; rfl
  | cons c s ih =>
    have hc : c ≠ '\'' := fun heq => hs (heq ▸ List.mem_cons_self ..)
    rw [run_cons, step, if_neg hc, Option.bind_some, ih (fun h => hs (List.mem_cons_of_mem _ h)),
      List.append_assoc, List.singleton_append]

/-! ## Quotes are not part of a word -/

/-- A token without a quote. -/
def Token.Unquoted : Token → Prop
  | .word s => '\'' ∉ s
  | .andIf => True

/-- Nothing that has been read so far has a quote in it. -/
def Unquoted : List Token × Mode → Prop
  | (done, .quoted w) => (∀ t ∈ done, t.Unquoted) ∧ '\'' ∉ w
  | (done, .plain w) => (∀ t ∈ done, t.Unquoted) ∧ ∀ s, w = some s → '\'' ∉ s
  | (done, .ampersand) => ∀ t ∈ done, t.Unquoted

variable {done : List Token} {w : Option CStr}

theorem unquoted_close (hdone : ∀ t ∈ done, t.Unquoted) (hw : ∀ s, w = some s → '\'' ∉ s) :
    ∀ t ∈ done ++ close w, t.Unquoted := by
  intro t ht
  rcases List.mem_append.1 ht with ht | ht
  · exact hdone t ht
  · cases w with
    | none => cases ht
    | some s =>
      rw [close, Option.map_some, Option.toList_some, List.mem_singleton] at ht
      rw [ht]
      exact hw s rfl

theorem notMem_getD (hw : ∀ s, w = some s → '\'' ∉ s) : '\'' ∉ w.getD [] := by
  cases w with
  | none => exact List.not_mem_nil
  | some s => exact hw s rfl

/-- **What one character does**: a quote ends or starts a part of a word and is not added to it. -/
theorem Unquoted.step {st st' : List Token × Mode} {c : Char} (h : Unquoted st)
    (hst : step st c = some st') : Unquoted st' := by
  obtain ⟨done, mode⟩ := st
  have hadd : ∀ {s : CStr}, c ≠ '\'' → '\'' ∉ s → '\'' ∉ s ++ [c] := by
    intro s hc hs hmem
    rcases List.mem_append.1 hmem with hmem | hmem
    · exact hs hmem
    · exact hc (List.mem_singleton.1 hmem).symm
  cases mode with
  | quoted w =>
    rw [Shell.step] at hst
    split at hst
    · cases hst
      exact ⟨h.1, fun s hs => Option.some.inj hs ▸ h.2⟩
    · cases hst
      exact ⟨h.1, hadd ‹_› h.2⟩
  | plain w =>
    rw [Shell.step] at hst
    split at hst
    · cases hst
      exact ⟨h.1, notMem_getD h.2⟩
    · split at hst
      · cases hst
        exact ⟨unquoted_close h.1 h.2, nofun⟩
      · split at hst
        · cases hst
          exact unquoted_close h.1 h.2
        · split at hst
          · cases hst
          · cases hst
            exact ⟨h.1, fun s hs => Option.some.inj hs ▸ hadd ‹_› (notMem_getD h.2)⟩
  | ampersand =>
    rw [Shell.step] at hst
    split at hst
    · cases hst
      refine ⟨fun t ht => ?_, nofun⟩
      rcases List.mem_append.1 ht with ht | ht
      · exact h t ht
      · rw [List.mem_singleton.1 ht]
        trivial
    · cases hst

/-- What some characters do. -/
theorem Unquoted.run {st st' : List Token × Mode} (h : Unquoted st) {s : CStr}
    (hst : run st s = some st') : Unquoted st' := by
  induction s generalizing st with
  | nil =>
    cases hst
    exact h
  | cons c s ih =>
    rw [run_cons, Option.bind_eq_some_iff] at hst
    obtain ⟨st₁, hstep, hrun⟩ := hst
    exact ih (h.step hstep) hrun

/-- **No word of a command has a quote in it.** -/
theorem unquoted_of_tokens {s : CStr} {ts : List Token} (hts : tokens s = some ts) :
    ∀ t ∈ ts, t.Unquoted := by
  rw [tokens, Option.bind_eq_some_iff] at hts
  obtain ⟨⟨done, mode⟩, hrun, hfinish⟩ := hts
  have h : Unquoted ([], .plain none) := ⟨fun t ht => absurd ht List.not_mem_nil, nofun⟩
  have hend := h.run hrun
  cases mode with
  | plain w =>
    cases hfinish
    exact unquoted_close hend.1 hend.2
  | quoted w => cases hfinish
  | ampersand => cases hfinish

end Shell
