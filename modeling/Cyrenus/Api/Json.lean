import Cyrenus.Common
import Cyrenus.Lib.CString

/-!
# Requests and responses

What the handlers see of a request body is the value json-c parsed it to, and they read that with
three functions of json-c: `json_object_object_get_ex`, `json_object_get_int` and
`json_object_get_string`. The value `null` is a null pointer there, so a body whose text is `null`
is one that could not be parsed. How json-c writes a value that is not a string as text is a
parameter of the handlers that ask for it.
-/

namespace Cyrenus

/-- A JSON value. A number with a fraction is kept as what is left of it when the fraction is cut
off, which is all an integer is made of. -/
inductive Json where
  | null
  | bool (b : Bool)
  | int (n : ℤ)
  | double (truncated : ℤ)
  | string (s : CStr)
  | array (elements : List Json)
  | object (members : List (CStr × Json))

namespace Json

/-- `json_object_object_get_ex`: the member of an object with a name. -/
def get? (name : String) : Json → Option Json
  | .object members => (members.find? (·.1 = name.toList)).map (·.2)
  | _ => none

/-- The integer `json_object_get_int` makes of a value, before it is cut to the range of an
`int`. -/
def toInt : Json → ℤ
  | .bool b => if b then 1 else 0
  | .int n => n
  | .double n => n
  | .string s => CStr.strtol s
  | _ => 0

/-- `json_object_get_int`: integers outside the range of an `int` become its bounds. -/
def getInt (j : Json) : U32 := BitVec.ofInt 32 (max (-2 ^ 31) (min (2 ^ 31 - 1) j.toInt))

/-- `json_object_get_string`: a null pointer for `null`, the text of any other value. -/
def getString (toText : Json → CStr) : Json → Option CStr
  | .null => none
  | .string s => some s
  | j => some (toText j)

/-- Only `null` has no text. -/
@[simp] theorem getString_eq_none {toText : Json → CStr} {j : Json} :
    j.getString toText = none ↔ j = .null := by
  cases j <;> simp [getString]

end Json

/-- What `json_tokener_parse` returns for a body: no value when it cannot be parsed. -/
abbrev Body := Option Json

/-- What a handler queues: the status and the text. -/
structure Response where
  status : ℕ
  content : String
  deriving DecidableEq, Repr

end Cyrenus
