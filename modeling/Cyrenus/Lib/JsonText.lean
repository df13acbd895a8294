import Cyrenus.Lib.Utf8

/-!
# JSON texts

A JSON text is in UTF-8 and is read byte by byte: `step` is what a byte does to the arrays and
objects that are open and to the part of a value that is being read, and `parse` is the value at the
end. An invariant of the reader has a case for each kind of `Step` (`Step.of_step`).

The strings of a value are in UTF-8 too. An escape for the first half of a surrogate pair waits for
the second one, and half a pair stands for U+FFFD. A number is kept as it is written, and of several
members with one name the last one counts.
-/

namespace JsonText

/-- A value. -/
inductive Value where
  | null
  | bool (b : Bool)
  | number (text : CStr)
  | string (s : CStr)
  | array (elements : List Value)
  | object (members : List (CStr × Value))

namespace Value

/-- The member of an object with a name. -/
def get? (name : CStr) : Value → Option Value
  | .object members => (members.reverse.find? (·.1 = name)).map (·.2)
  | _ => none

/-- The number that some digits are. -/
def nat? : Value → Option ℕ
  | .number text => if text.all Char.isDigit then some (CStr.digits text) else none
  | _ => none

end Value

/-! ## Strings -/

/-- What a character after a backslash stands for. -/
def unescape (c : Char) : Option Char :=
  if c = '"' ∨ c = '\\' ∨ c = '/' then some c
  else if c = 'b' then some '\x08'
  else if c = 'f' then some '\x0c'
  else if c = 'n' then some '\n'
  else if c = 'r' then some '\r'
  else if c = 't' then some '\t'
  else none

/-- A digit in base sixteen. -/
def hexDigit (c : Char) : Option ℕ :=
  if c.isDigit then some (c.toNat - '0'.toNat)
  else if 'a' ≤ c ∧ c ≤ 'f' then some (c.toNat - 'a'.toNat + 10)
  else if 'A' ≤ c ∧ c ≤ 'F' then some (c.toNat - 'A'.toNat + 10)
  else none

/-- A string that is being read: its bytes so far, and half a surrogate pair after them. -/
structure Partial where
  text : CStr
  high : Option ℕ
  deriving DecidableEq, Repr

namespace Partial

/-- No character so far. -/
def empty : Partial := ⟨[], none⟩

/-- The string, if it ends here. -/
def flush (p : Partial) : CStr := if p.high = none then p.text else p.text ++ Utf8.encode '\ufffd'

/-- A byte of the text follows. -/
def push (p : Partial) (c : Char) : Partial := ⟨p.flush ++ [c], none⟩

/-- An escape in base sixteen follows. -/
def pushUnit (p : Partial) (u : ℕ) : Partial :=
  if 0xd800 ≤ u ∧ u < 0xdc00 then ⟨p.flush, some u⟩
  else if 0xdc00 ≤ u ∧ u < 0xe000 then
    match p.high with
    | some h =>
      ⟨p.text ++ Utf8.encode (Char.ofNat (0x10000 + (h - 0xd800) * 0x400 + (u - 0xdc00))), none⟩
    | none => ⟨p.text ++ Utf8.encode '\ufffd', none⟩
  else ⟨p.flush ++ Utf8.encode (Char.ofNat u), none⟩

end Partial

/-! ## Numbers -/

/-- The part of a number that its last character belongs to. -/
inductive NumberPart where
  | sign
  | zero
  | whole
  | point
  | fraction
  | exponent
  | exponentSign
  | exponentDigits
  deriving DecidableEq, Repr

namespace NumberPart

/-- A number goes on with a character. -/
def next (part : NumberPart) (c : Char) : Option NumberPart :=
  match part with
  | .sign => if c = '0' then some .zero else if c.isDigit then some .whole else none
  | .zero =>
    if c = '.' then some .point else if c = 'e' ∨ c = 'E' then some .exponent else none
  | .whole =>
    if c.isDigit then some .whole
    else if c = '.' then some .point else if c = 'e' ∨ c = 'E' then some .exponent else none
  | .point => if c.isDigit then some .fraction else none
  | .fraction =>
    if c.isDigit then some .fraction else if c = 'e' ∨ c = 'E' then some .exponent else none
  | .exponent =>
    if c.isDigit then some .exponentDigits
    else if c = '+' ∨ c = '-' then some .exponentSign else none
  | .exponentSign | .exponentDigits => if c.isDigit then some .exponentDigits else none

/-- A number may end. -/
def mayEnd : NumberPart → Bool
  | .zero | .whole | .fraction | .exponentDigits => true
  | .sign | .point | .exponent | .exponentSign => false

end NumberPart

/-! ## Texts -/

/-- An array or an object that is open, with what it holds so far. An object has the name of the
member that is being read once its name is complete. -/
inductive Frame where
  | array (done : List Value)
  | object (done : List (CStr × Value)) (name : Option CStr)

/-- What is being read. A value or a name that comes first may be missing. -/
inductive Mode where
  | value (isFirst : Bool)
  | name (isFirst : Bool)
  | colon
  | text (p : Partial)
  | escape (p : Partial)
  | unicode (p : Partial) (digits : List ℕ)
  | number (text : CStr) (part : NumberPart)
  | literal (rest : CStr) (v : Option Bool)
  | after
  | done (v : Value)

/-- What is open, the innermost first, and what is being read. -/
structure State where
  stack : List Frame
  mode : Mode

/-- Nothing has been read. -/
def State.initial : State := ⟨[], .value false⟩

/-- White space. -/
def isBlank (c : Char) : Bool := c = ' ' || c = '\t' || c = '\n' || c = '\r'

/-- A value is complete. -/
def put (v : Value) : List Frame → Option State
  | [] => some ⟨[], .done v⟩
  | .array done :: stack => some ⟨.array (done ++ [v]) :: stack, .after⟩
  | .object done (some name) :: stack => some ⟨.object (done ++ [(name, v)]) none :: stack, .after⟩
  | .object _ none :: _ => none

/-- A string is complete: the name of a member or a value. -/
def putString (s : CStr) : List Frame → Option State
  | .object done none :: stack => some ⟨.object done (some s) :: stack, .colon⟩
  | stack => put (.string s) stack

/-- `true`, `false` or `null`. -/
def literalValue : Option Bool → Value
  | some b => .bool b
  | none => .null

/-- The first character of a value. -/
def stepValue (stack : List Frame) (c : Char) : Option State :=
  if c = '\x7b' then some ⟨.object [] none :: stack, .name true⟩
  else if c = '[' then some ⟨.array [] :: stack, .value true⟩
  else if c = '"' then some ⟨stack, .text .empty⟩
  else if c = '-' then some ⟨stack, .number [c] .sign⟩
  else if c = '0' then some ⟨stack, .number [c] .zero⟩
  else if c.isDigit then some ⟨stack, .number [c] .whole⟩
  else if c = 't' then some ⟨stack, .literal "rue".toList (some true)⟩
  else if c = 'f' then some ⟨stack, .literal "alse".toList (some false)⟩
  else if c = 'n' then some ⟨stack, .literal "ull".toList none⟩
  else none

/-- A character after a value. -/
def stepAfter (c : Char) : List Frame → Option State
  | .array done :: stack =>
    if c = ',' then some ⟨.array done :: stack, .value false⟩
    else if c = ']' then put (.array done) stack
    else none
  | .object done none :: stack =>
    if c = ',' then some ⟨.object done none :: stack, .name false⟩
    else if c = '\x7d' then put (.object done) stack
    else none
  | _ => none

/-- A character that is not part of a number any more. -/
def stepEnd (c : Char) (st : State) : Option State :=
  if isBlank c then some st else stepAfter c st.stack

/-- What a byte does. -/
def step (st : State) (c : Char) : Option State :=
  match st.mode with
  | .value isFirst =>
    if isBlank c then some st
    else if isFirst && c = ']' then stepAfter c st.stack
    else stepValue st.stack c
  | .name isFirst =>
    if isBlank c then some st
    else if isFirst && c = '\x7d' then stepAfter c st.stack
    else if c = '"' then some ⟨st.stack, .text .empty⟩
    else none
  | .colon =>
    if isBlank c then some st else if c = ':' then some ⟨st.stack, .value false⟩ else none
  | .text p =>
    if c = '"' then putString p.flush st.stack
    else if c = '\\' then some ⟨st.stack, .escape p⟩
    else if c.toNat < 0x20 then none
    else some ⟨st.stack, .text (p.push c)⟩
  | .escape p =>
    if c = 'u' then some ⟨st.stack, .unicode p []⟩
    else (unescape c).map fun e => ⟨st.stack, .text (p.push e)⟩
  | .unicode p digits =>
    (hexDigit c).map fun d =>
      if digits.length < 3 then ⟨st.stack, .unicode p (digits ++ [d])⟩
      else ⟨st.stack, .text (p.pushUnit ((digits ++ [d]).foldl (fun n d => 16 * n + d) 0))⟩
  | .number text part =>
    match part.next c with
    | some part => some ⟨st.stack, .number (text ++ [c]) part⟩
    | none => if part.mayEnd then (put (.number text) st.stack).bind (stepEnd c) else none
  | .literal rest v =>
    if rest.head? = some c then
      if rest.tail = [] then put (literalValue v) st.stack
      else some ⟨st.stack, .literal rest.tail v⟩
    else none
  | .after | .done _ => stepEnd c st

/-- Read some bytes. -/
def run (st : State) (text : CStr) : Option State := text.foldlM step st

/-- The value, if the text ends here. -/
def finish (st : State) : Option Value :=
  match st.stack, st.mode with
  | [], .done v => some v
  | [], .number text part => if part.mayEnd then some (.number text) else none
  | _, _ => none

/-- The value of a text whose characters are not looked at. -/
def scan (text : CStr) : Option Value := (run .initial text).bind finish

/-- **The value of a text.** -/
def parse (text : CStr) : Option Value := if Utf8.isUtf8 text then scan text else none

example : scan "\x7b\"a\":[1, true],\"b\":\"\\u00e9\\\"\"\x7d".toList = some (.object [
    ("a".toList, .array [.number "1".toList, .bool true]),
    ("b".toList, .string "\xc3\xa9\"".toList)]) := rfl

theorem run_append (st : State) (s t : CStr) :
    run st (s ++ t) = (run st s).bind fun st' => run st' t := by
  simp only [run, List.foldlM_append]
  rfl

theorem run_cons (st : State) (c : Char) (s : CStr) :
    run st (c :: s) = (step st c).bind fun st' => run st' s := by
  simp only [run, List.foldlM_cons]
  rfl

theorem run_singleton (st : State) (c : Char) : run st [c] = step st c := by
  rw [run_cons]
  exact Option.bind_fun_some _

/-! ## What a byte can do -/

/-- A byte within a value goes on with it, and what is open stays as it is. -/
inductive Shift : Mode → Mode → Prop
  | quote (isFirst : Bool) : Shift (.value isFirst) (.text .empty)
  | nameQuote (isFirst : Bool) : Shift (.name isFirst) (.text .empty)
  | figure (isFirst : Bool) (c : Char) (part : NumberPart) :
      Shift (.value isFirst) (.number [c] part)
  | letter (isFirst : Bool) (rest : CStr) (v : Option Bool) :
      Shift (.value isFirst) (.literal rest v)
  | colon : Shift .colon (.value false)
  | push (p : Partial) (c : Char) : Shift (.text p) (.text (p.push c))
  | escape (p : Partial) : Shift (.text p) (.escape p)
  | unescape (p : Partial) (c : Char) : Shift (.escape p) (.text (p.push c))
  | unicode (p : Partial) : Shift (.escape p) (.unicode p [])
  | hexDigit (p : Partial) (digits : List ℕ) (d : ℕ) :
      Shift (.unicode p digits) (.unicode p (digits ++ [d]))
  | unit (p : Partial) {digits : List ℕ} (hdigits : 3 ≤ digits.length) (u : ℕ) :
      Shift (.unicode p digits) (.text (p.pushUnit u))
  | nextFigure (text : CStr) (c : Char) (part part' : NumberPart) :
      Shift (.number text part) (.number (text ++ [c]) part')
  | nextLetter (rest : CStr) (v : Option Bool) : Shift (.literal rest v) (.literal rest.tail v)

/-- A byte opens or closes an array or an object, or completes a value. A number is complete only at
the byte behind it, which then does what it does behind a value. -/
inductive Step (c : Char) : State → State → Prop
  | blank (st : State) : Step c st st
  | shift (stack : List Frame) {mode mode' : Mode} (h : Shift mode mode') :
      Step c ⟨stack, mode⟩ ⟨stack, mode'⟩
  | openArray (stack : List Frame) (isFirst : Bool) :
      Step c ⟨stack, .value isFirst⟩ ⟨.array [] :: stack, .value true⟩
  | openObject (stack : List Frame) (isFirst : Bool) :
      Step c ⟨stack, .value isFirst⟩ ⟨.object [] none :: stack, .name true⟩
  | string {stack : List Frame} {p : Partial} {st' : State} (hquote : c = '"')
      (hput : putString p.flush stack = some st') : Step c ⟨stack, .text p⟩ st'
  | literal {stack : List Frame} {v : Option Bool} {st' : State} (rest : CStr)
      (hput : put (literalValue v) stack = some st') : Step c ⟨stack, .literal rest v⟩ st'
  | number {stack : List Frame} {text : CStr} {st st' : State} (part : NumberPart)
      (hput : put (.number text) stack = some st) (hstep : Step c st st') :
      Step c ⟨stack, .number text part⟩ st'
  | nextElement (f : Frame) (stack : List Frame) (mode : Mode) :
      Step c ⟨f :: stack, mode⟩ ⟨f :: stack, .value false⟩
  | nextMember (f : Frame) (stack : List Frame) (mode : Mode) :
      Step c ⟨f :: stack, mode⟩ ⟨f :: stack, .name false⟩
  | closeArray {done : List Value} {stack : List Frame} {st' : State} (mode : Mode)
      (hput : put (.array done) stack = some st') : Step c ⟨.array done :: stack, mode⟩ st'
  | closeObject {done : List (CStr × Value)} {stack : List Frame} {st' : State} (mode : Mode)
      (hput : put (.object done) stack = some st') : Step c ⟨.object done none :: stack, mode⟩ st'

section
variable {st st' : State} {stack : List Frame} {c : Char}

theorem Step.of_stepAfter (mode : Mode) (h : stepAfter c stack = some st') :
    Step c ⟨stack, mode⟩ st' := by
  rw [stepAfter.eq_def] at h
  split at h
  · split at h
    · cases h
      exact .nextElement ..
    · split at h
      · exact .closeArray mode h
      · cases h
  · split at h
    · cases h
      exact .nextMember ..
    · split at h
      · exact .closeObject mode h
      · cases h
  · cases h

theorem Step.of_stepEnd (h : stepEnd c st = some st') : Step c st st' := by
  rw [stepEnd] at h
  split at h
  · cases h
    exact .blank st
  · exact .of_stepAfter st.mode h

theorem Step.of_stepValue (isFirst : Bool) (h : stepValue stack c = some st') :
    Step c ⟨stack, .value isFirst⟩ st' := by
  rw [stepValue] at h
  repeat' split at h
  all_goals cases h
  · exact .openObject ..
  · exact .openArray ..
  · exact .shift _ (.quote ..)
  · exact .shift _ (.figure ..)
  · exact .shift _ (.figure ..)
  · exact .shift _ (.figure ..)
  all_goals exact .shift _ (.letter ..)

/-- **What a byte does** is one of these. -/
theorem Step.of_step (h : step st c = some st') : Step c st st' := by
  obtain ⟨stack, mode⟩ := st
  cases mode with
  | value isFirst =>
    simp only [step] at h
    split at h
    · cases h
      exact .blank _
    · split at h
      · exact .of_stepAfter _ h
      · exact .of_stepValue isFirst h
  | name isFirst =>
    simp only [step] at h
    split at h
    · cases h
      exact .blank _
    · split at h
      · exact .of_stepAfter _ h
      · split at h
        · cases h
          exact .shift stack (.nameQuote isFirst)
        · cases h
  | colon =>
    simp only [step] at h
    split at h
    · cases h
      exact .blank _
    · split at h
      · cases h
        exact .shift stack .colon
      · cases h
  | text p =>
    simp only [step] at h
    split at h
    · rename_i hquote
      exact .string hquote h
    · split at h
      · cases h
        exact .shift stack (.escape p)
      · split at h
        · cases h
        · cases h
          exact .shift stack (.push p c)
  | escape p =>
    simp only [step] at h
    split at h
    · cases h
      exact .shift stack (.unicode p)
    · rw [Option.map_eq_some_iff] at h
      obtain ⟨e, -, rfl⟩ := h
      exact .shift stack (.unescape p e)
  | unicode p digits =>
    simp only [step, Option.map_eq_some_iff] at h
    obtain ⟨d, -, h⟩ := h
    split at h
    · cases h
      exact .shift stack (.hexDigit p digits d)
    · rename_i hlen
      cases h
      exact .shift stack (.unit p (Nat.le_of_not_lt hlen) _)
  | number text part =>
    simp only [step] at h
    split at h
    · cases h
      exact .shift stack (.nextFigure ..)
    · split at h
      · rw [Option.bind_eq_some_iff] at h
        obtain ⟨st, hput, hend⟩ := h
        exact .number part hput (.of_stepEnd hend)
      · cases h
  | literal rest v =>
    simp only [step] at h
    split at h
    · split at h
      · exact .literal rest h
      · cases h
        exact .shift stack (.nextLetter rest v)
    · cases h
  | after | done => exact .of_stepEnd h

end

/-! ## What stands for itself -/

/-- A byte of a string that stands for itself. -/
def IsPlain (c : Char) : Prop := c ≠ '"' ∧ c ≠ '\\' ∧ 0x20 ≤ c.toNat

instance (c : Char) : Decidable (IsPlain c) := inferInstanceAs (Decidable (_ ∧ _))

/-- Bytes that are looked at one by one. -/
theorem isPlain_of_all {s : CStr} (h : s.all (fun c => decide (IsPlain c)) = true) :
    ∀ c ∈ s, IsPlain c :=
  fun c hc => of_decide_eq_true (List.all_eq_true.1 h c hc)

/-- **In a string** every text whose bytes stand for themselves is part of it. -/
theorem run_plain {s : CStr} (hs : ∀ c ∈ s, IsPlain c) (stack : List Frame) (text : CStr) :
    run ⟨stack, .text ⟨text, none⟩⟩ s = some ⟨stack, .text ⟨text ++ s, none⟩⟩ := by
  induction s generalizing text with
  | nil => rw [List.append_nil]; rfl
  | cons c s ih =>
    obtain ⟨hquote, hslash, hcontrol⟩ := hs c (List.mem_cons_self ..)
    have hstep : step ⟨stack, .text ⟨text, none⟩⟩ c = some ⟨stack, .text ⟨text ++ [c], none⟩⟩ := by
      simp only [step, if_neg hquote, if_neg hslash, if_neg (Nat.not_lt.2 hcontrol)]
      rfl
    rw [run_cons, hstep, Option.bind_some, ih (fun c' hc' => hs c' (List.mem_cons_of_mem _ hc')),
      List.append_assoc, List.singleton_append]

/-- In a number every digit is part of it. -/
theorem run_digits {num : CStr} (hnum : ∀ c ∈ num, c.isDigit = true) (stack : List Frame)
    (text : CStr) :
    run ⟨stack, .number text .whole⟩ num = some ⟨stack, .number (text ++ num) .whole⟩ := by
  induction num generalizing text with
  | nil => rw [List.append_nil]; rfl
  | cons c num ih =>
    have hstep : step ⟨stack, .number text .whole⟩ c =
        some ⟨stack, .number (text ++ [c]) .whole⟩ := by
      simp only [step, NumberPart.next, if_pos (hnum c (List.mem_cons_self ..))]
    rw [run_cons, hstep, Option.bind_some,
      ih (fun c' hc' => hnum c' (List.mem_cons_of_mem _ hc')), List.append_assoc,
      List.singleton_append]

/-- A number in decimal, without zeros before it. -/
def IsDecimal (num : CStr) : Prop :=
  num = ['0'] ∨ ∃ c rest, num = c :: rest ∧ c ≠ '0' ∧ ∀ d ∈ num, d.isDigit = true

theorem ne_of_isDigit {c x : Char} (hc : c.isDigit = true) (hx : x.isDigit = false) : c ≠ x := by
  rintro rfl
  rw [hc] at hx
  cases hx

theorem stepValue_digit {c : Char} (hdigit : c.isDigit = true) (hc : c ≠ '0')
    (stack : List Frame) : stepValue stack c = some ⟨stack, .number [c] .whole⟩ := by
  rw [stepValue, if_neg (ne_of_isDigit hdigit rfl), if_neg (ne_of_isDigit hdigit rfl),
    if_neg (ne_of_isDigit hdigit rfl), if_neg (ne_of_isDigit hdigit rfl), if_neg hc, if_pos hdigit]

theorem isBlank_of_isDigit {c : Char} (hdigit : c.isDigit = true) : isBlank c = false := by
  simp only [isBlank, Bool.or_eq_false_iff, decide_eq_false_iff_not]
  exact ⟨⟨⟨ne_of_isDigit hdigit rfl, ne_of_isDigit hdigit rfl⟩, ne_of_isDigit hdigit rfl⟩,
    ne_of_isDigit hdigit rfl⟩

/-- **A number** before a comma is the value. -/
theorem run_decimal {num : CStr} (hnum : IsDecimal num) (stack : List Frame) :
    run ⟨stack, .value false⟩ (num ++ [',']) = (put (.number num) stack).bind (stepEnd ',') := by
  rcases hnum with rfl | ⟨c, rest, rfl, hc, hdigit⟩
  · have hstep : step ⟨stack, .value false⟩ '0' = some ⟨stack, .number ['0'] .zero⟩ := rfl
    rw [List.singleton_append, run_cons, hstep, Option.bind_some, run_singleton]
    rfl
  · have hhead : c.isDigit = true := hdigit c (List.mem_cons_self ..)
    have hstep : step ⟨stack, .value false⟩ c = some ⟨stack, .number [c] .whole⟩ := by
      rw [← stepValue_digit hhead hc stack]
      simp only [step, isBlank_of_isDigit hhead, Bool.false_and, Bool.false_eq_true, if_false]
    rw [List.cons_append, run_cons, hstep, Option.bind_some, run_append,
      run_digits fun d hd => hdigit d (List.mem_cons_of_mem _ hd), Option.bind_some, run_singleton]
    rfl

/-- An integer in decimal. -/
def IsInteger (num : CStr) : Prop := IsDecimal num ∨ ∃ d, IsDecimal d ∧ num = '-' :: d

/-- A number may end here, and goes on neither with a comma nor with a brace. -/
structure NumberPart.Ends (part : NumberPart) : Prop where
  mayEnd : part.mayEnd = true
  comma : part.next ',' = none
  brace : part.next '\x7d' = none

theorem NumberPart.ends_zero : Ends zero := ⟨rfl, rfl, rfl⟩

theorem NumberPart.ends_whole : Ends whole := ⟨rfl, rfl, rfl⟩

/-- An integer is read as it is. -/
theorem exists_run_integer {num : CStr} (hnum : IsInteger num) (stack : List Frame) :
    ∃ part : NumberPart, part.Ends ∧
      run ⟨stack, .value false⟩ num = some ⟨stack, .number num part⟩ := by
  rcases hnum with (rfl | ⟨c, rest, rfl, hc, hdigit⟩) | ⟨d, rfl | ⟨c, rest, rfl, hc, hdigit⟩, rfl⟩
  · exact ⟨.zero, NumberPart.ends_zero, rfl⟩
  · have hhead : c.isDigit = true := hdigit c (List.mem_cons_self ..)
    have hstep : step ⟨stack, .value false⟩ c = some ⟨stack, .number [c] .whole⟩ := by
      rw [← stepValue_digit hhead hc stack]
      simp only [step, isBlank_of_isDigit hhead, Bool.false_and, Bool.false_eq_true, if_false]
    refine ⟨.whole, NumberPart.ends_whole, ?_⟩
    rw [run_cons, hstep, Option.bind_some,
      run_digits fun d hd => hdigit d (List.mem_cons_of_mem _ hd), List.singleton_append]
  · exact ⟨.zero, NumberPart.ends_zero, rfl⟩
  · have hhead : c.isDigit = true := hdigit c (List.mem_cons_self ..)
    have hsign : step ⟨stack, .value false⟩ '-' = some ⟨stack, .number ['-'] .sign⟩ := rfl
    have hstep : step ⟨stack, .number ['-'] .sign⟩ c = some ⟨stack, .number ['-', c] .whole⟩ := by
      simp only [step, NumberPart.next, if_neg hc, if_pos hhead]
      rfl
    refine ⟨.whole, NumberPart.ends_whole, ?_⟩
    rw [run_cons, hsign, Option.bind_some, run_cons, hstep, Option.bind_some,
      run_digits fun d hd => hdigit d (List.mem_cons_of_mem _ hd)]
    rfl

/-- **An integer** before a comma or a brace is the value. -/
theorem run_integer {num : CStr} (hnum : IsInteger num) (stack : List Frame) {c : Char}
    (hc : c = ',' ∨ c = '\x7d') (text : CStr) :
    run ⟨stack, .value false⟩ (num ++ c :: text) =
      ((put (.number num) stack).bind (stepEnd c)).bind fun st => run st text := by
  obtain ⟨part, hends, hrun⟩ := exists_run_integer hnum stack
  have hnext : part.next c = none := by
    rcases hc with rfl | rfl
    · exact hends.comma
    · exact hends.brace
  rw [run_append, hrun, Option.bind_some, run_cons]
  simp only [step, hnext, hends.mayEnd, if_true]

/-! ## How long a string is -/

namespace Partial

/-- The length of a string, if it ends here. -/
def length (p : Partial) : ℕ := p.text.length + if p.high = none then 0 else 3

theorem length_none (text : CStr) : length ⟨text, none⟩ = text.length := rfl

theorem length_some (text : CStr) (u : ℕ) : length ⟨text, some u⟩ = text.length + 3 := rfl

theorem text_length_le (p : Partial) : p.text.length ≤ p.length := Nat.le_add_right ..

theorem length_flush (p : Partial) : p.flush.length = p.length := by
  rw [flush, length]
  split
  · rfl
  · rw [List.length_append]
    rfl

theorem length_push (p : Partial) (c : Char) : (p.push c).length = p.length + 1 := by
  rw [push, length_none, List.length_append, length_flush]
  rfl

/-- An escape of six characters is four bytes at the most. -/
theorem length_pushUnit_le (p : Partial) (u : ℕ) : (p.pushUnit u).length ≤ p.length + 4 := by
  have hflush := p.length_flush
  have htext := p.text_length_le
  rw [pushUnit]
  split
  · rw [length_some]
    omega
  · split
    · split <;> rw [length_none, List.length_append] <;>
        exact Nat.add_le_add htext (Utf8.length_encode_le _)
    · rw [length_none, List.length_append, hflush]
      exact Nat.add_le_add_left (Utf8.length_encode_le _) _

end Partial

/-- The members of an object that is open. -/
def Frame.members : Frame → List (CStr × Value)
  | .array _ => []
  | .object done _ => done

section
variable {P : CStr → Prop} {n : ℕ} {st st' : State} {stack : List Frame} {v : Value} {c : Char}

/-- Every string that is a member so far has a property. -/
def MembersHold (P : CStr → Prop) (stack : List Frame) : Prop :=
  ∀ f ∈ stack, ∀ m ∈ f.members, ∀ s, m.2 = .string s → P s

/-- So has every string that is a member of a value. -/
def Value.MembersHold (P : CStr → Prop) (v : Value) : Prop :=
  ∀ name s, v.get? name = some (.string s) → P s

/-- A string that is being read has no more than `n` bytes so far, and the members of a value that
is complete have the property. -/
def Mode.Holds (P : CStr → Prop) (n : ℕ) : Mode → Prop
  | .text p | .escape p => p.length ≤ n
  | .unicode p digits => p.length + digits.length + 1 ≤ n
  | .done v => v.MembersHold P
  | _ => True

/-- The invariant of the bytes that are read. -/
structure State.Holds (P : CStr → Prop) (n : ℕ) (st : State) : Prop where
  stack : MembersHold P st.stack
  mode : st.mode.Holds P n

theorem membersHold_cons {f : Frame} (hf : ∀ m ∈ f.members, ∀ s, m.2 = .string s → P s)
    (h : MembersHold P stack) : MembersHold P (f :: stack) := by
  intro f' hf'
  rcases List.mem_cons.1 hf' with rfl | hf'
  · exact hf
  · exact h f' hf'

theorem MembersHold.tail {f : Frame} (h : MembersHold P (f :: stack)) : MembersHold P stack :=
  fun f' hf' => h f' (List.mem_cons_of_mem _ hf')

/-- The members of an object that is complete. -/
theorem membersHold_object {done : List (CStr × Value)}
    (h : ∀ m ∈ done, ∀ s, m.2 = .string s → P s) : (Value.object done).MembersHold P := by
  intro name s hget
  rw [Value.get?, Option.map_eq_some_iff] at hget
  obtain ⟨m, hm, heq⟩ := hget
  exact h m (List.mem_reverse.1 (List.mem_of_find?_eq_some hm)) s heq

theorem MembersHold.put (h : MembersHold P stack) (hv : v.MembersHold P)
    (hstring : ∀ s, v = .string s → P s) (hput : put v stack = some st') : st'.Holds P n := by
  rw [put.eq_def] at hput
  split at hput
  · cases hput
    exact ⟨h, hv⟩
  · cases hput
    exact ⟨membersHold_cons nofun h.tail, trivial⟩
  · rename_i done name stack
    cases hput
    refine ⟨membersHold_cons ?_ h.tail, trivial⟩
    intro m hm
    rcases List.mem_append.1 hm with hm | hm
    · exact h _ (List.mem_cons_self ..) m hm
    · rw [List.mem_singleton.1 hm]
      exact hstring
  · cases hput

theorem MembersHold.putString (h : MembersHold P stack) {s : CStr} (hs : P s)
    (hput : putString s stack = some st') : st'.Holds P n := by
  rw [putString.eq_def] at hput
  split at hput
  · cases hput
    refine ⟨membersHold_cons ?_ h.tail, trivial⟩
    exact h (.object _ none) (List.mem_cons_self ..)
  · refine h.put ?_ ?_ hput
    · intro name t hget
      cases hget
    · rintro t ht
      cases ht
      exact hs

theorem State.Holds.mono {n' : ℕ} (h : st.Holds P n) (hle : n ≤ n') : st.Holds P n' := by
  refine ⟨h.stack, ?_⟩
  have hmode := h.mode
  revert hmode
  cases st.mode with
  | text p => exact fun hp => Nat.le_trans hp hle
  | escape p => exact fun hp => Nat.le_trans hp hle
  | unicode p digits => exact fun hp => Nat.le_trans hp hle
  | done v => exact id
  | value | name | colon | number | literal | after => exact id

/-- Within a value a string grows by one byte at the most. -/
theorem Mode.Holds.shift {mode mode' : Mode} (h : mode.Holds P n) (hshift : Shift mode mode') :
    mode'.Holds P (n + 1) := by
  cases hshift with
  | quote | nameQuote => exact Nat.zero_le _
  | figure | letter | colon | nextFigure | nextLetter => trivial
  | push p c | unescape p c =>
    exact Nat.le_trans (Nat.le_of_eq (p.length_push c)) (Nat.succ_le_succ h)
  | escape p => exact Nat.le_succ_of_le h
  | unicode p => exact Nat.succ_le_succ h
  | hexDigit p digits d =>
    change p.length + (digits ++ [d]).length + 1 ≤ n + 1
    rw [List.length_append]
    exact Nat.succ_le_succ h
  | @unit p digits hdigits u =>
    have hunit := p.length_pushUnit_le u
    have hlength : p.length + digits.length + 1 ≤ n := h
    exact Nat.le_trans hunit (by omega)

/-- An array or an object without members is open. -/
theorem MembersHold.opened {f : Frame} (h : MembersHold P stack) (hf : f.members = []) :
    MembersHold P (f :: stack) :=
  membersHold_cons (by rw [hf]; nofun) h

/-- A value that is neither a string nor an object has no members and is none. -/
theorem MembersHold.put_plain (h : MembersHold P stack) (hget : ∀ name, v.get? name = none)
    (hv : ∀ s, v ≠ .string s) (hput : JsonText.put v stack = some st') : st'.Holds P n := by
  refine h.put ?_ (fun s heq => absurd heq (hv s)) hput
  intro name s heq
  rw [hget name] at heq
  cases heq

/-- **What a byte does**: a string that is being read grows by one byte at the most, and a quote
completes it. -/
theorem Step.holds (hstep : Step c st st') (h : st.Holds P n)
    (hP : c = '"' → ∀ s : CStr, s.length ≤ n → P s) : st'.Holds P (n + 1) := by
  induction hstep with
  | blank st => exact h.mono (Nat.le_succ n)
  | shift stack hshift => exact ⟨h.stack, h.mode.shift hshift⟩
  | openArray | openObject => exact ⟨h.stack.opened rfl, trivial⟩
  | @string stack p st' hquote hput =>
    exact h.stack.putString (hP hquote _ (p.length_flush ▸ h.mode)) hput
  | @literal stack v st' rest hput =>
    cases v <;> exact h.stack.put_plain (fun _ => rfl) (by rintro s ⟨⟩) hput
  | number part hput hstep ih => exact ih (h.stack.put_plain (fun _ => rfl) (by rintro s ⟨⟩) hput)
  | nextElement | nextMember => exact ⟨h.stack, trivial⟩
  | closeArray mode hput => exact h.stack.tail.put_plain (fun _ => rfl) (by rintro s ⟨⟩) hput
  | closeObject mode hput =>
    have hdone := h.stack (.object _ none) (List.mem_cons_self ..)
    exact h.stack.tail.put (membersHold_object hdone) (by rintro s ⟨⟩) hput

/-- What some bytes do. -/
theorem State.Holds.run {text : CStr} (h : st.Holds P n)
    (hP : ∀ s : CStr, s.length < n + text.length → P s) (hrun : run st text = some st') :
    st'.Holds P (n + text.length) := by
  induction text generalizing st n with
  | nil =>
    cases hrun
    exact h
  | cons c text ih =>
    rw [run_cons, Option.bind_eq_some_iff] at hrun
    obtain ⟨st₁, hstep, hrun⟩ := hrun
    have hlen : n + (c :: text).length = n + 1 + text.length := by
      rw [List.length_cons]
      omega
    rw [hlen] at hP ⊢
    have hfirst : ∀ s : CStr, s.length ≤ n → P s := fun s hs => hP s (by omega)
    exact ih ((Step.of_step hstep).holds h fun _ => hfirst) hP hrun

/-- The end of a text. -/
theorem State.Holds.finish (h : st.Holds P n) (hfinish : finish st = some v) : v.MembersHold P := by
  obtain ⟨stack, mode⟩ := st
  simp only [JsonText.finish] at hfinish
  split at hfinish
  · cases hfinish
    exact h.mode
  · split at hfinish
    · cases hfinish
      intro name s hget
      cases hget
    · cases hfinish
  · cases hfinish

/-- A string that is longer than all that is read is not among the members of the value. -/
theorem State.Holds.get?_ne {s text : CStr} (h : st.Holds (· ≠ s) n)
    (hlen : n + text.length ≤ s.length) (hc : c ≠ '"')
    (hv : (JsonText.run st (text ++ [c])).bind JsonText.finish = some v) (name : CStr) :
    v.get? name ≠ some (.string s) := by
  intro hget
  rw [run_append, Option.bind_assoc, Option.bind_eq_some_iff] at hv
  obtain ⟨st₁, hrun, hv⟩ := hv
  rw [run_singleton, Option.bind_eq_some_iff] at hv
  obtain ⟨st₂, hstep, hfinish⟩ := hv
  have hrest := h.run (fun t ht heq => by rw [heq] at ht; omega) hrun
  have hlast := (Step.of_step hstep).holds hrest fun hquote => absurd hquote hc
  exact hlast.finish hfinish name s hget rfl

end

/-! ## A text that is put between quotes -/

section
variable {done : List (CStr × Value)} {name s : CStr} {v : Value}

/-- A text whose bytes stand for themselves is the last member of an object that ends behind it. -/
theorem run_spliced (hs : ∀ c ∈ s, IsPlain c) :
    (run ⟨[.object done (some name)], .text .empty⟩ (s ++ ['"', '\x7d'])).bind finish =
      some (.object (done ++ [(name, .string s)])) := by
  rw [run_append, Partial.empty, run_plain hs, List.nil_append]
  rfl

/-- A byte that does not stand for itself ends a string, or it is left out. -/
theorem holds_of_not_isPlain {st : State} {c : Char} {plain rest : CStr} (hc : ¬IsPlain c)
    (hs : s = plain ++ c :: rest) (hdone : ∀ m ∈ done, m.2 ≠ .string s)
    (hstep : step ⟨[.object done (some name)], .text ⟨plain, none⟩⟩ c = some st) :
    st.Holds (· ≠ s) plain.length := by
  have hmembers : MembersHold (· ≠ s) [.object done (some name)] :=
    membersHold_cons (fun m hm t ht heq => hdone m hm (heq ▸ ht)) nofun
  simp only [step] at hstep
  split at hstep
  · refine hmembers.putString ?_ hstep
    change plain ≠ s
    intro heq
    have hlen := congrArg List.length (heq.trans hs)
    rw [List.length_append, List.length_cons] at hlen
    omega
  · split at hstep
    · cases hstep
      exact ⟨hmembers, Nat.le_refl _⟩
    · split at hstep
      · cases hstep
      · rename_i hquote hslash hcontrol
        exact absurd ⟨hquote, hslash, Nat.le_of_not_lt hcontrol⟩ hc

/-- **The bytes of a text stand for themselves** when a member of the object that it is put into is
the text itself. -/
theorem isPlain_of_run_spliced (hdone : ∀ m ∈ done, ∀ t, m.2 = .string t → ∀ c ∈ t, IsPlain c)
    (hv : (run ⟨[.object done (some name)], .text .empty⟩ (s ++ ['"', '\x7d'])).bind finish =
      some v) {name' : CStr} (hget : v.get? name' = some (.string s)) : ∀ c ∈ s, IsPlain c := by
  cases hfind : s.find? fun c => !decide (IsPlain c) with
  | none =>
    intro c hc
    simpa using List.find?_eq_none.1 hfind c hc
  | some c =>
    exfalso
    obtain ⟨hc, plain, rest, hs, hplain⟩ := List.find?_eq_some_iff_append.1 hfind
    simp only [Bool.not_eq_true', decide_eq_false_iff_not] at hc
    simp only [Bool.not_not, decide_eq_true_eq] at hplain
    have hmem : c ∈ s := hs ▸ List.mem_append_right _ (List.mem_cons_self ..)
    have hne : ∀ m ∈ done, m.2 ≠ .string s := fun m hm heq => hc (hdone m hm s heq c hmem)
    -- The first byte that does not stand for itself, and what is read behind it.
    have hsplit : s ++ ['"', '\x7d'] = plain ++ c :: (rest ++ ['"'] ++ ['\x7d']) := by
      rw [hs]
      simp only [List.append_assoc, List.cons_append, List.nil_append]
    rw [hsplit, run_append, Partial.empty, run_plain hplain, Option.bind_some, run_cons,
      Option.bind_assoc, Option.bind_eq_some_iff] at hv
    obtain ⟨st, hstep, hrun⟩ := hv
    refine (holds_of_not_isPlain hc hs hne hstep).get?_ne ?_ (by decide) hrun name' hget
    rw [hs, List.length_append, List.length_append]
    exact Nat.le_refl _

end

end JsonText
