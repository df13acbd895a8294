import Cyrenus.Lib.CString

/-!
# Command lines

`getopt_long` of the GNU C library, as one scan over a list of arguments. `Getopt.scan` gives the
options in the order in which successive calls return them, and the arguments that are left at
`optind` when a call returns -1: the non-options in their order, and everything after `--`. The
library keeps its position in `optind`, so a program that goes on calling it after that scans the
arguments that are left.
-/

namespace Getopt

/-- An entry of the table of long options. -/
structure LongOption where
  name : CStr
  hasArg : Bool
  val : Char

/-- What a program passes to `getopt_long`, and whether the scan stops at the first non-option, as
it does when `POSIXLY_CORRECT` is set. -/
structure Spec where
  short : CStr
  long : List LongOption
  requireOrder : Bool

/-- What a call returns: an option with its argument, or `'?'`. -/
inductive Item where
  | opt (c : Char) (arg : Option CStr)
  | bad
  deriving DecidableEq, Repr

/-- Whether a short option takes an argument; none if the character is not an option. -/
def shortHasArg (short : CStr) (c : Char) : Option Bool :=
  if c = ':' ∨ c = ';' then none
  else match short.dropWhile (· ≠ c) with
    | [] => none
    | _ :: rest => some (rest.head? = some ':')

/-- The long option a name stands for: the one it equals, or else the ones it begins, if they do
not differ. -/
def findLong (long : List LongOption) (name : CStr) : Option LongOption :=
  match long.find? (·.name = name) with
  | some o => some o
  | none =>
    match long.filter fun o => name.isPrefixOf o.name with
    | [] => none
    | o :: os => if os.all fun p => p.hasArg = o.hasArg ∧ p.val = o.val then some o else none

/-- What one argument gives: items, and the option whose argument is the next one, if any. -/
abbrev Element := List Item × Option Char

/-- An argument of short options. -/
def cluster (short : CStr) : CStr → Element
  | [] => ([], none)
  | c :: cs =>
    match shortHasArg short c with
    | some true => if cs = [] then ([], some c) else ([.opt c (some cs)], none)
    | some false => (.opt c none :: (cluster short cs).1, (cluster short cs).2)
    | none => (.bad :: (cluster short cs).1, (cluster short cs).2)

/-- A long option, given without its dashes. -/
def longElement (long : List LongOption) (body : CStr) : Element :=
  match findLong long (body.takeWhile (· ≠ '=')), body.dropWhile (· ≠ '=') with
  | none, _ => ([.bad], none)
  | some o, _ :: v => if o.hasArg then ([.opt o.val (some v)], none) else ([.bad], none)
  | some o, [] => if o.hasArg then ([], some o.val) else ([.opt o.val none], none)

/-- What an argument that is an option gives. -/
def element (spec : Spec) : CStr → Element
  | '-' :: '-' :: body => longElement spec.long body
  | '-' :: cs => cluster spec.short cs
  | _ => ([], none)

/-- An argument is an option when it begins with a dash and is more than that. -/
def isOption : CStr → Bool
  | '-' :: _ :: _ => true
  | _ => false

/-- The items of a scan, and the arguments left at `optind` at its end. -/
structure Scan where
  items : List Item
  rest : List CStr
  deriving DecidableEq, Repr

/-- Scan a list of arguments. -/
def scan (spec : Spec) : List CStr → Scan
  | [] => ⟨[], []⟩
  | a :: as =>
    if !isOption a then
      if spec.requireOrder then ⟨[], a :: as⟩ else ⟨(scan spec as).items, a :: (scan spec as).rest⟩
    else if a = ['-', '-'] then ⟨[], as⟩
    else
      match element spec a, as with
      | (items, none), as => ⟨items ++ (scan spec as).items, (scan spec as).rest⟩
      | (items, some _), [] => ⟨items ++ [.bad], []⟩
      | (items, some c), b :: bs =>
        ⟨items ++ .opt c (some b) :: (scan spec bs).items, (scan spec bs).rest⟩

/-- Arguments none of which is an option are left as they are. -/
theorem scan_of_no_options {spec : Spec} {as : List CStr} (h : ∀ a ∈ as, isOption a = false) :
    scan spec as = ⟨[], as⟩ := by
  induction as with
  | nil => rfl
  | cons a as ih =>
    have ha : isOption a = false := h a (by simp)
    have htail := ih fun b hb => h b (by simp [hb])
    unfold scan
    simp [ha, htail]

/-- **A second scan finds nothing**, unless the first one met `--`: what the first one leaves has no
options, or it stopped at a non-option, where the second stops too. -/
theorem scan_rest (spec : Spec) (as : List CStr) (h : ['-', '-'] ∉ as) :
    (scan spec (scan spec as).rest).items = [] := by
  have hrest : (∀ a ∈ (scan spec as).rest, isOption a = false) ∨
      spec.requireOrder = true ∧ ∃ a as', (scan spec as).rest = a :: as' ∧ isOption a = false := by
    fun_induction scan spec as with
    | case1 => simp
    | case2 a as ho hr => exact .inr ⟨hr, a, as, rfl, by simpa using ho⟩
    | case3 a as ho hr ih =>
      rcases ih (fun hm => h (by simp [hm])) with ih | ⟨hr', -⟩
      · left
        simpa [show isOption a = false by simpa using ho] using ih
      · exact absurd hr' hr
    | case4 as => exact absurd (by simp) h
    | case5 a as ho hd items he ih => exact ih fun hm => h (by simp [hm])
    | case6 => simp
    | case7 a ho hd items c he b bs ih => exact ih fun hm => h (by simp [hm])
  rcases hrest with hrest | ⟨hr, a, as', he, ha⟩
  · rw [scan_of_no_options hrest]
  · rw [he]
    unfold scan
    simp [ha, hr]

end Getopt
