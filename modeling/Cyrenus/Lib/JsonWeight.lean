import Cyrenus.Lib.JsonText

/-!
# How long a text must be for its value

A value has a weight: the bytes that its strings and numbers and the signs between them take at
least. A byte adds one to the weight of what is read at the most (`Step.weight_le`), and what has
been read of the outermost object stays as it is (`Step.rooted`). So a text that is put into a
string of an object can add no more members to it than its length allows
(`exists_members_of_run`).
-/

namespace JsonText

/-! ## Weights -/

mutual

/-- The bytes that a value takes at least. -/
def Value.weight : Value → ℕ
  | .null => 1
  | .bool _ => 1
  | .number num => max 1 num.length
  | .string s => s.length + 2
  | .array elements => 1 + elementsWeight elements
  | .object members => 1 + membersWeight members

/-- An element stands before a comma or a bracket. -/
def elementsWeight : List Value → ℕ
  | [] => 0
  | v :: elements => v.weight + 1 + elementsWeight elements

/-- A member has a name between quotes, and a colon, and stands before a comma or a brace. -/
def membersWeight : List (CStr × Value) → ℕ
  | [] => 0
  | (name, v) :: members => name.length + v.weight + 4 + membersWeight members

end

theorem elementsWeight_append (l m : List Value) :
    elementsWeight (l ++ m) = elementsWeight l + elementsWeight m := by
  induction l with
  | nil => simp [elementsWeight]
  | cons v l ih =>
    rw [List.cons_append, elementsWeight, elementsWeight, ih]
    omega

theorem membersWeight_append (l m : List (CStr × Value)) :
    membersWeight (l ++ m) = membersWeight l + membersWeight m := by
  induction l with
  | nil => simp [membersWeight]
  | cons member l ih =>
    obtain ⟨name, v⟩ := member
    rw [List.cons_append, membersWeight, membersWeight, ih]
    omega

theorem Value.weight_pos (v : Value) : 0 < v.weight := by
  cases v with
  | null | bool => exact Nat.one_pos
  | number num => exact Nat.lt_of_lt_of_le Nat.one_pos (Nat.le_max_left ..)
  | string s => exact Nat.succ_pos _
  | array | object =>
    rw [weight, Nat.add_comm]
    exact Nat.succ_pos _

/-- Some members weigh as much as one of them. -/
theorem le_membersWeight {name : CStr} {v : Value} {l : List (CStr × Value)} (h : (name, v) ∈ l) :
    name.length + v.weight + 4 ≤ membersWeight l := by
  obtain ⟨pre, post, rfl⟩ := List.append_of_mem h
  rw [membersWeight_append, membersWeight]
  omega

/-- Two members with different names weigh as much as both. -/
theorem add_le_membersWeight {name name' : CStr} {v v' : Value} {l : List (CStr × Value)}
    (hne : name ≠ name') (h : (name, v) ∈ l) (h' : (name', v') ∈ l) :
    (name.length + v.weight + 4) + (name'.length + v'.weight + 4) ≤ membersWeight l := by
  obtain ⟨pre, post, rfl⟩ := List.append_of_mem h
  have hmem : (name', v') ∈ pre ++ post := by
    rw [List.mem_append, List.mem_cons, Prod.mk.injEq] at h'
    rw [List.mem_append]
    rcases h' with h' | ⟨rfl, -⟩ | h'
    · exact .inl h'
    · exact absurd rfl hne
    · exact .inr h'
  have hle := le_membersWeight hmem
  rw [membersWeight_append] at hle
  rw [membersWeight_append, membersWeight]
  omega

/-- What an array or object that is open weighs so far. -/
def Frame.weight : Frame → ℕ
  | .array done => 1 + elementsWeight done
  | .object done none => 1 + membersWeight done
  | .object done (some name) => 1 + membersWeight done + (name.length + 3)

/-- What is open. -/
def stackWeight : List Frame → ℕ
  | [] => 0
  | f :: stack => f.weight + stackWeight stack

/-- What is being read, and the sign that is missing behind what is complete. -/
def Mode.weight : Mode → ℕ
  | .value _ | .name _ => 1
  | .colon | .after => 0
  | .text p => p.length + 2
  | .escape p => p.length + 3
  | .unicode p digits => p.length + digits.length + 4
  | .number num _ => max 1 num.length + 1
  | .literal _ _ => 2
  | .done v => v.weight + 1

/-- What has been read. -/
def State.weight (st : State) : ℕ := stackWeight st.stack + st.mode.weight

variable {st st' : State} {stack : List Frame} {v : Value} {c : Char}

/-- A value that is complete counts in full. -/
theorem weight_put (hput : put v stack = some st') :
    st'.weight = stackWeight stack + v.weight + 1 := by
  rw [put.eq_def] at hput
  split at hput
  · cases hput
    exact (Nat.add_assoc ..).symm
  · cases hput
    simp only [State.weight, Mode.weight, stackWeight, Frame.weight, elementsWeight_append,
      elementsWeight]
    omega
  · cases hput
    simp only [State.weight, Mode.weight, stackWeight, Frame.weight, membersWeight_append,
      membersWeight]
    omega
  · cases hput

/-- So does a string. -/
theorem weight_putString {s : CStr} (hput : putString s stack = some st') :
    st'.weight = stackWeight stack + s.length + 3 := by
  rw [putString.eq_def] at hput
  split at hput
  · cases hput
    simp only [State.weight, Mode.weight, stackWeight, Frame.weight]
    omega
  · rw [weight_put hput, Value.weight]
    omega

/-- Within a value a byte adds one to it at the most. -/
theorem Shift.weight_le {mode mode' : Mode} (h : Shift mode mode') :
    mode'.weight ≤ mode.weight + 1 := by
  cases h with
  | quote | nameQuote | figure | letter | colon | escape | unicode => exact Nat.le_refl _
  | nextLetter => exact Nat.le_succ _
  | push p c | unescape p c =>
    simp only [Mode.weight, p.length_push]
    omega
  | hexDigit p digits d =>
    rw [Mode.weight, Mode.weight, List.length_append, List.length_singleton]
    omega
  | @unit p digits hdigits u =>
    have hunit := p.length_pushUnit_le u
    simp only [Mode.weight]
    omega
  | nextFigure text c part part' =>
    rw [Mode.weight, Mode.weight, List.length_append, List.length_singleton]
    omega

theorem weight_literalValue (v : Option Bool) : (literalValue v).weight = 1 := by cases v <;> rfl

/-- **What a byte does**: it adds one to the weight at the most. -/
theorem Step.weight_le (h : Step c st st') : st'.weight ≤ st.weight + 1 := by
  induction h with
  | blank st => exact Nat.le_succ _
  | shift stack hshift => exact Nat.add_le_add_left hshift.weight_le _
  | openArray stack | openObject stack =>
    simp only [State.weight, Mode.weight, stackWeight, Frame.weight, elementsWeight, membersWeight]
    omega
  | @string stack p st' hquote hput =>
    rw [weight_putString hput, p.length_flush]
    exact Nat.le_refl _
  | literal rest hput =>
    rw [weight_put hput, weight_literalValue]
    exact Nat.le_succ _
  | @number stack text st st' part hput hstep ih =>
    have hnumber : st.weight = State.weight ⟨stack, .number text part⟩ := weight_put hput
    rwa [hnumber] at ih
  | nextElement f stack mode | nextMember f stack mode =>
    exact Nat.succ_le_succ (Nat.le_add_right ..)
  | closeArray mode hput | closeObject mode hput =>
    rw [weight_put hput, Value.weight]
    simp only [State.weight, stackWeight, Frame.weight]
    omega

/-- **What some bytes do.** -/
theorem weight_run {text : CStr} (hrun : run st text = some st') :
    st'.weight ≤ st.weight + text.length := by
  induction text generalizing st with
  | nil =>
    cases hrun
    exact Nat.le_refl _
  | cons c text ih =>
    rw [run_cons, Option.bind_eq_some_iff] at hrun
    obtain ⟨st₁, hstep, hrun⟩ := hrun
    have hfirst := (Step.of_step hstep).weight_le
    have hrest := ih hrun
    rw [List.length_cons]
    omega

theorem weight_finish (hfinish : finish st = some v) : v.weight + 1 = st.weight := by
  obtain ⟨stack, mode⟩ := st
  rw [finish.eq_def] at hfinish
  split at hfinish
  · rename_i hstack hmode
    cases hfinish
    subst hstack hmode
    exact (Nat.zero_add _).symm
  · rename_i hstack hmode
    split at hfinish
    · cases hfinish
      subst hstack hmode
      exact (Nat.zero_add _).symm
    · cases hfinish
  · cases hfinish

/-! ## The outermost object -/

/-- The outermost of what is open is an object, and its members so far and the name that waits for
a value have a property. -/
def StackRooted (Q : List (CStr × Value) → Option CStr → Prop) (stack : List Frame) : Prop :=
  ∃ members name, stack.getLast? = some (.object members name) ∧ Q members name

/-- The outermost object has the property, be it open or complete. -/
def State.Rooted (Q : List (CStr × Value) → Option CStr → Prop) (st : State) : Prop :=
  StackRooted Q st.stack ∨ st.stack = [] ∧ ∃ members, st.mode = .done (.object members) ∧
    Q members none

/-- The property goes on when a name is read, and when it gets a value. -/
structure Grows (Q : List (CStr × Value) → Option CStr → Prop) : Prop where
  name : ∀ {members}, Q members none → ∀ name, Q members (some name)
  member : ∀ {members name}, Q members (some name) → ∀ v, Q (members ++ [(name, v)]) none

variable {Q : List (CStr × Value) → Option CStr → Prop}

/-- What is open within the outermost object is of no account. -/
theorem StackRooted.cons (h : StackRooted Q stack) (f : Frame) : StackRooted Q (f :: stack) := by
  obtain ⟨members, name, hlast, hQ⟩ := h
  exact ⟨members, name, by rw [List.getLast?_cons, hlast]; rfl, hQ⟩

/-- The innermost of what is open is within the outermost object, or it is that object. -/
theorem StackRooted.tail {f : Frame} (h : StackRooted Q (f :: stack)) :
    StackRooted Q stack ∨ stack = [] ∧ ∃ members name, f = .object members name ∧
      Q members name := by
  obtain ⟨members, name, hlast, hQ⟩ := h
  cases stack with
  | nil => exact .inr ⟨rfl, members, name, Option.some.inj hlast, hQ⟩
  | cons g stack =>
    rw [List.getLast?_cons_cons] at hlast
    exact .inl ⟨members, name, hlast, hQ⟩

theorem StackRooted.singleton {members : List (CStr × Value)} {name : Option CStr}
    (h : Q members name) : StackRooted Q [.object members name] := ⟨members, name, rfl, h⟩

theorem StackRooted.put (hQ : Grows Q) (h : StackRooted Q stack) (hput : put v stack = some st') :
    st'.Rooted Q := by
  rw [put.eq_def] at hput
  split at hput
  · obtain ⟨_, _, hlast, -⟩ := h
    cases hlast
  · cases hput
    rcases h.tail with h | ⟨-, _, _, hf, -⟩
    · exact .inl (h.cons _)
    · cases hf
  · cases hput
    rcases h.tail with h | ⟨rfl, members, name, hf, hmembers⟩
    · exact .inl (h.cons _)
    · cases hf
      exact .inl (.singleton (hQ.member hmembers v))
  · cases hput

theorem StackRooted.putString (hQ : Grows Q) {s : CStr} (h : StackRooted Q stack)
    (hput : putString s stack = some st') : st'.Rooted Q := by
  rw [putString.eq_def] at hput
  split at hput
  · cases hput
    rcases h.tail with h | ⟨rfl, members, name, hf, hmembers⟩
    · exact .inl (h.cons _)
    · cases hf
      exact .inl (.singleton (hQ.name hmembers s))
  · exact h.put hQ hput

/-- The outermost object is open while something of it is read. -/
theorem State.Rooted.isOpen {mode : Mode} (h : State.Rooted Q ⟨stack, mode⟩)
    (hmode : ∀ v, mode ≠ .done v) : StackRooted Q stack := by
  rcases h with h | ⟨-, _, hdone, -⟩
  · exact h
  · exact absurd hdone (hmode _)

theorem State.Rooted.isOpen_cons {f : Frame} {mode : Mode} (h : State.Rooted Q ⟨f :: stack, mode⟩) :
    StackRooted Q (f :: stack) := by
  rcases h with h | ⟨hnil, -⟩
  · exact h
  · cases hnil

/-- **What a byte does** to the outermost object. -/
theorem Step.rooted (hQ : Grows Q) (hstep : Step c st st') (h : st.Rooted Q) : st'.Rooted Q := by
  induction hstep with
  | blank => exact h
  | shift stack hshift => exact .inl (h.isOpen (by rintro v rfl; cases hshift))
  | openArray | openObject => exact .inl ((h.isOpen (by rintro v ⟨⟩)).cons _)
  | string hquote hput => exact (h.isOpen (by rintro v ⟨⟩)).putString hQ hput
  | literal rest hput => exact (h.isOpen (by rintro v ⟨⟩)).put hQ hput
  | number part hput hstep ih => exact ih ((h.isOpen (by rintro v ⟨⟩)).put hQ hput)
  | nextElement | nextMember => exact .inl h.isOpen_cons
  | closeArray mode hput =>
    rcases h.isOpen_cons.tail with h | ⟨-, _, _, hf, -⟩
    · exact h.put hQ hput
    · cases hf
  | closeObject mode hput =>
    rcases h.isOpen_cons.tail with h | ⟨rfl, members, name, hf, hmembers⟩
    · exact h.put hQ hput
    · -- the outermost object is complete
      cases hf
      cases hput
      exact .inr ⟨rfl, _, rfl, hmembers⟩

/-- What some bytes do. -/
theorem State.Rooted.run {text : CStr} (hQ : Grows Q) (h : st.Rooted Q)
    (hrun : run st text = some st') : st'.Rooted Q := by
  induction text generalizing st with
  | nil =>
    cases hrun
    exact h
  | cons c text ih =>
    rw [run_cons, Option.bind_eq_some_iff] at hrun
    obtain ⟨st₁, hstep, hrun⟩ := hrun
    exact ih ((Step.of_step hstep).rooted hQ h) hrun

/-- At the end of the text the outermost object is the value. -/
theorem State.Rooted.finish (h : st.Rooted Q) (hfinish : finish st = some v) :
    ∃ members, v = .object members ∧ Q members none := by
  obtain ⟨stack, mode⟩ := st
  rcases h with ⟨members, name, hlast, -⟩ | ⟨hstack, members, hmode, hmembers⟩
  · cases stack with
    | nil => cases hlast
    | cons f stack => cases hfinish
  · cases hstack
    cases hmode
    cases hfinish
    exact ⟨members, rfl, hmembers⟩

/-! ## A text behind a quote -/

/-- A member of a value that is looked up. -/
theorem mem_of_get? {members : List (CStr × Value)} {name : CStr}
    (h : (Value.object members).get? name = some v) : (name, v) ∈ members := by
  rw [Value.get?, Option.map_eq_some_iff] at h
  obtain ⟨⟨name', v'⟩, hfind, rfl⟩ := h
  have hname := List.find?_some hfind
  rw [decide_eq_true_eq] at hname
  subst hname
  exact List.mem_reverse.1 (List.mem_of_find?_eq_some hfind)

/-- **What a text can add to an object** in which it is read from within a string on: the member
that the string is the value of, and further members, which weigh no more than the text. -/
theorem exists_members_of_run {done : List (CStr × Value)} {name text : CStr}
    (h : (run ⟨[.object done (some name)], .text .empty⟩ text).bind finish = some v) :
    ∃ u more, v = .object (done ++ (name, u) :: more) ∧
      u.weight + membersWeight more ≤ text.length := by
  rw [Option.bind_eq_some_iff] at h
  obtain ⟨st, hrun, hfinish⟩ := h
  have hgrows : Grows fun members name' => members = done ∧ name' = some name ∨
      ∃ u more, members = done ++ (name, u) :: more := by
    constructor
    · rintro members (⟨-, hnone⟩ | hmore) name'
      · cases hnone
      · exact .inr hmore
    · rintro members name' (⟨rfl, hname⟩ | ⟨u, more, rfl⟩) v
      · cases hname
        exact .inr ⟨v, [], rfl⟩
      · exact .inr ⟨u, more ++ [(name', v)], by rw [List.append_assoc, List.cons_append]⟩
  have hrooted := State.Rooted.run hgrows (.inl (.singleton (.inl ⟨rfl, rfl⟩))) hrun
  obtain ⟨members, rfl, ⟨-, hnone⟩ | ⟨u, more, rfl⟩⟩ := hrooted.finish hfinish
  · cases hnone
  · have hle := weight_run hrun
    have hv := weight_finish hfinish
    have hinitial : State.weight ⟨[.object done (some name)], .text .empty⟩ =
        membersWeight done + name.length + 6 := by
      simp only [State.weight, stackWeight, Frame.weight, Mode.weight]
      rw [show Partial.empty.length = 0 from rfl]
      omega
    rw [Value.weight, membersWeight_append, membersWeight] at hv
    exact ⟨u, more, rfl, by omega⟩

end JsonText
