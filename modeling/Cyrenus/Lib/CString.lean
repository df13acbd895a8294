import Mathlib.Data.Nat.Notation
import Mathlib.Algebra.Group.Int.Defs
import Mathlib.Algebra.Group.Nat.Defs
import Mathlib.Data.Int.Notation

/-!
# C strings

A C string is the list of its bytes up to the terminating zero, each written as a character.
`strncpy n src` is what a buffer of `n + 1` bytes, whose last byte is zero and is never written,
holds as a string after `n` bytes of `src` have been copied into it. `atoi` is that of a 64-bit
machine: `strtol` in base ten, which saturates at 64 bits, cut to the 32 bits of an `int`.
-/

/-- The bytes of a C string. -/
abbrev CStr := List Char

namespace CStr

/-- The C string that starts at the first of some bytes. -/
def ofBytes (bytes : List Char) : CStr := bytes.takeWhile (· ≠ '\x00')

/-- `%ld`: an integer in decimal. -/
def ofInt (n : ℤ) : CStr := (toString n).toList

/-- What a buffer of `n + 1` bytes holds after `strncpy (buffer, src, n)`. -/
def strncpy (n : ℕ) (src : CStr) : CStr := src.take n

/-- `isspace` in the C locale. -/
def isSpace (c : Char) : Bool := c = ' ' || (9 ≤ c.toNat && c.toNat ≤ 13)

/-- The value of the decimal digits at the start of a string. -/
def digits (s : CStr) : ℕ :=
  (s.takeWhile Char.isDigit).foldl (fun n c => 10 * n + (c.toNat - '0'.toNat)) 0

/-- `strtol` in base ten: white space, a sign, digits; the result saturates. -/
def strtol (s : CStr) : ℤ :=
  let value : ℤ := match s.dropWhile isSpace with
    | '-' :: s => -(digits s : ℤ)
    | '+' :: s => digits s
    | s => digits s
  max (-2 ^ 63) (min (2 ^ 63 - 1) value)

/-- `atoi`. -/
def atoi (s : CStr) : BitVec 32 := BitVec.ofInt 32 (strtol s)

example : atoi " -12x".toList = -12 := by decide

/-- The integer at the start of a string, of any size. -/
def leadingInt (s : CStr) : ℤ :=
  match s.dropWhile isSpace with
  | '-' :: s => -(digits s : ℤ)
  | '+' :: s => digits s
  | s => digits s

/-- The `int` that `atoi` makes of an integer: the nearest one of 64 bits, cut to 32. -/
def intOfText (n : ℤ) : BitVec 32 := BitVec.ofInt 32 (max (-2 ^ 63) (min (2 ^ 63 - 1) n))

theorem atoi_eq (s : CStr) : atoi s = intOfText (leadingInt s) := rfl

/-- `%d` of `sscanf`: an integer after white space, and what follows it. -/
def scanInt (s : CStr) : Option (BitVec 32 × CStr) :=
  let unsigned := match s.dropWhile isSpace with
    | '-' :: s => s
    | '+' :: s => s
    | s => s
  if unsigned.takeWhile Char.isDigit = [] then none
  else some (atoi s, unsigned.dropWhile Char.isDigit)

/-- `strcasecmp` finds no difference. -/
def strcasecmp (s t : CStr) : Bool := s.map Char.toLower = t.map Char.toLower

/-! ## Numbers in decimal -/

/-- A string that is a number in decimal: digits, at least one. -/
structure IsNumeral (s : CStr) : Prop where
  ne_nil : s ≠ []
  isDigit : ∀ c ∈ s, c.isDigit = true

/-- No digit follows. -/
def EndsNumeral (rest : CStr) : Prop := ∀ c, rest.head? = some c → c.isDigit = false

theorem endsNumeral_nil : EndsNumeral [] := nofun

theorem endsNumeral_cons {c : Char} (h : c.isDigit = false) (rest : CStr) :
    EndsNumeral (c :: rest) := by
  intro c' hc'
  cases hc'
  exact h

variable {num rest : CStr}

theorem EndsNumeral.takeWhile (h : EndsNumeral rest) : rest.takeWhile Char.isDigit = [] := by
  cases rest with
  | nil => rfl
  | cons c rest => exact List.takeWhile_cons_of_neg (by simp [h c rfl])

theorem EndsNumeral.dropWhile (h : EndsNumeral rest) : rest.dropWhile Char.isDigit = rest := by
  cases rest with
  | nil => rfl
  | cons c rest => exact List.dropWhile_cons_of_neg (by simp [h c rfl])

theorem IsNumeral.takeWhile (h : IsNumeral num) (hrest : EndsNumeral rest) :
    (num ++ rest).takeWhile Char.isDigit = num := by
  rw [List.takeWhile_append_of_pos h.isDigit, hrest.takeWhile, List.append_nil]

theorem IsNumeral.dropWhile (h : IsNumeral num) (hrest : EndsNumeral rest) :
    (num ++ rest).dropWhile Char.isDigit = rest := by
  rw [List.dropWhile_append_of_pos h.isDigit, hrest.dropWhile]

theorem IsNumeral.takeWhile_self (h : IsNumeral num) : num.takeWhile Char.isDigit = num := by
  simpa using h.takeWhile endsNumeral_nil

/-- The digits of a number are its value, whatever follows it. -/
theorem IsNumeral.digits_append (h : IsNumeral num) (hrest : EndsNumeral rest) :
    digits (num ++ rest) = digits num := by
  rw [digits, digits, h.takeWhile hrest, h.takeWhile_self]

theorem le_toNat_of_isDigit {c : Char} (h : c.isDigit = true) : '0'.toNat ≤ c.toNat := by
  simp only [Char.isDigit, Bool.and_eq_true, decide_eq_true_eq, ge_iff_le,
    UInt32.le_iff_toNat_le] at h
  exact h.1

/-- A number that does not start with a zero is as large as it is long. -/
theorem IsNumeral.le_digits {c : Char} (h : IsNumeral (c :: num)) (hc : c ≠ '0') :
    10 ^ num.length ≤ digits (c :: num) := by
  have hle := le_toNat_of_isDigit (h.isDigit c (List.mem_cons_self ..))
  have hne : c.toNat ≠ '0'.toNat := fun heq => hc (Char.toNat_inj.1 heq)
  have hfirst : 1 ≤ c.toNat - '0'.toNat := by omega
  have hvalue : digits (c :: num) = Nat.ofDigitChars 10 (c :: num) 0 := by
    rw [digits, h.takeWhile_self]
    exact Nat.ofDigitChars_eq_foldl.symm
  rw [hvalue, Nat.ofDigitChars_cons, Nat.ofDigitChars_eq_ofDigitChars_zero]
  calc 10 ^ num.length ≤ 10 ^ num.length * (10 * 0 + (c.toNat - '0'.toNat)) :=
        Nat.le_mul_of_pos_right _ (by omega)
    _ ≤ _ := Nat.le_add_right ..

/-- A digit is neither white space nor a sign. -/
theorem isDigit_cases {c : Char} (h : c.isDigit = true) :
    isSpace c = false ∧ c ≠ '-' ∧ c ≠ '+' := by
  have h48 : 48 ≤ c.toNat := le_toNat_of_isDigit h
  refine ⟨?_, ?_, ?_⟩
  · simp only [isSpace, Bool.or_eq_false_iff, decide_eq_false_iff_not, Bool.and_eq_false_imp]
    refine ⟨?_, fun _ => by simp; omega⟩
    rintro rfl
    cases h
  · rintro rfl
    cases h
  · rintro rfl
    cases h

/-- A number starts with neither white space nor a sign. -/
theorem IsNumeral.append_eq_cons (h : IsNumeral num) (rest : CStr) :
    ∃ c s, num ++ rest = c :: s ∧ (c :: s).dropWhile isSpace = c :: s ∧ c ≠ '-' ∧ c ≠ '+' := by
  obtain ⟨c, s, rfl⟩ := List.exists_cons_of_ne_nil h.ne_nil
  obtain ⟨hspace, hminus, hplus⟩ := isDigit_cases (h.isDigit c (List.mem_cons_self ..))
  exact ⟨c, s ++ rest, rfl, List.dropWhile_cons_of_neg (by simp [hspace]), hminus, hplus⟩

/-- A number is the integer at its start, whatever follows it. -/
theorem IsNumeral.leadingInt_append (h : IsNumeral num) (hrest : EndsNumeral rest) :
    leadingInt (num ++ rest) = digits num := by
  have hvalue := h.digits_append hrest
  obtain ⟨c, s, hcons, hskip, hminus, hplus⟩ := h.append_eq_cons rest
  rw [hcons] at hvalue
  rw [leadingInt, hcons, hskip]
  split
  · next heq => exact absurd (List.cons.inj heq).1 hminus
  · next heq => exact absurd (List.cons.inj heq).1 hplus
  · rw [hvalue]

/-- An integer of 32 bits is kept. -/
theorem toInt_intOfText {n : ℤ} (hlo : -2 ^ 31 ≤ n) (hhi : n < 2 ^ 31) :
    (intOfText n).toInt = n := by
  rw [intOfText, BitVec.toInt_ofInt]
  have hclamp : max (-2 ^ 63) (min (2 ^ 63 - 1) n) = n := by omega
  rw [hclamp]
  exact Int.bmod_eq_of_le (by omega) (by omega)

/-- `sscanf` reads a number of 31 bits as it is written. -/
theorem scanInt_numeral (h : IsNumeral num) (hrest : EndsNumeral rest)
    (hlt : digits num < 2 ^ 31) :
    scanInt (num ++ rest) = some (BitVec.ofNat 32 (digits num), rest) := by
  have hatoi : atoi (num ++ rest) = BitVec.ofNat 32 (digits num) := by
    rw [atoi_eq, h.leadingInt_append hrest, intOfText, ← BitVec.ofInt_natCast]
    congr 1
    omega
  have htake := h.takeWhile hrest
  have hdrop := h.dropWhile hrest
  obtain ⟨c, s, hcons, hskip, hminus, hplus⟩ := h.append_eq_cons rest
  rw [hcons] at hatoi htake hdrop ⊢
  rw [scanInt, hskip]
  split
  · next heq => exact absurd (List.cons.inj heq).1 hminus
  · next heq => exact absurd (List.cons.inj heq).1 hplus
  · rw [htake, hdrop, hatoi]
    exact if_neg h.ne_nil

end CStr
