import Cyrenus.Api.Security
import Cyrenus.Api.SecurityEvents

/-!
# The requests that read policies, logs and the configuration

The handlers that only read, with what their surroundings answer: the database, the directory of the
policies, the files and the log. Each of them answers with an object when it could read what it
needs, and with an error otherwise; the list of the policies is empty when there is none. Those that
read a file crash when it has no size or there is no memory for it.
-/

namespace Cyrenus

open CStr (strncpy ofBytes)

/-- What a file that could be opened gives the handler that reads it: the size that `ftell` returns,
whether `malloc` finds room for as many bytes and one more, and what stands in them after
`fread`. -/
structure FileRead where
  size : ℤ
  mallocOk : Bool
  bytes : List Char

/-- The text that the handler makes of it, which ends at the first zero byte, and at the latest at
the one that the handler adds. Without a size (`ftell` returns -1) that one is written in front of
the buffer, and without a buffer to memory that is not there. -/
def FileRead.text (f : FileRead) : Option CStr :=
  if 0 ≤ f.size ∧ f.mallocOk then some (ofBytes (f.bytes.take f.size.toNat)) else none

/-- What a handler answers that reads a file: an error when the file cannot be opened, and else what
it makes of the text, unless it crashes. -/
def answerFile (file : Option FileRead) (err : Response) (ok : CStr → Response) : Option Response :=
  match file with
  | none => some err
  | some f => f.text.map ok

/-- A file that is read whole. -/
def FileRead.whole (content : List Char) : FileRead := ⟨content.length, true, content⟩

@[simp] theorem FileRead.text_whole (content : List Char) :
    (whole content).text = some (ofBytes content) := by
  simp [whole, text]

/-- What the surroundings of the handlers that read answer: what the database lists and counts, the
counters of the daemon and whether it runs, the time, the parameters of the query, the names in the
directory of the policies, whether a file is there, its size and time, what the variable `name` of
`api_security_policies_list` holds when it comes to a file and what is in memory behind it, what
comes of reading a file that can be opened, and the texts that are read from a command. -/
structure SecurityReads where
  list : EventQuery → Option (List SecurityEventRecord)
  count : ℤ × ℤ → Option SecurityStats
  stats : TetragonStats
  running : Bool
  now : ℤ
  params : EventParams
  lines : Option CStr
  policies : Option (List CStr)
  access : CStr → Bool
  stat : CStr → Option (ℤ × ℤ)
  name : CStr → Buffer 256
  beyond : CStr → List Char
  fopen : CStr → Option FileRead
  popen : CStr → Option (List CStr)

/-- The text before the last dot, or all of it: what is left when `strrchr` finds a dot and it is
overwritten. -/
def beforeLastDot (s : CStr) : CStr :=
  if '.' ∈ s then (s.reverse.dropWhile (· ≠ '.')).tail.reverse else s

example : beforeLastDot "a.b.yaml".toList = "a.b".toList := by decide

/-- A policy of the list, from the name of its file. -/
def policyJson (r : SecurityReads) (filename : CStr) : Json :=
  let name := ofBytes
    (((r.name filename).strncpy 255 (by decide) filename).bytes ++ r.beyond filename)
  .object ([("name".toList, .string (beforeLastDot name)), ("filename".toList, .string filename),
    ("deployed".toList, .bool (r.access (strncpy 511 (deployedDir ++ filename))))] ++
    match r.stat (strncpy 511 (policyDir ++ filename)) with
    | none => []
    | some (size, modified) =>
      [("size".toList, .int size), ("modified".toList, .int modified)])

/-- `api_security_policies_list`. -/
def apiSecurityPoliciesList (libs : Libs) (r : SecurityReads) : Response :=
  let names := (r.policies.getD []).filter fun name => strstr name ".yaml"
  jsonResponse libs [("policies".toList, .array (names.map (policyJson r)))]

/-- `api_security_policy_get`. -/
def apiSecurityPolicyGet (libs : Libs) (r : SecurityReads) (policyName : CStr) :
    Option Response :=
  answerFile (r.fopen (policyPath policyDir policyName))
    ⟨404, "\x7b\"error\":\"Policy not found\"\x7d"⟩ fun content =>
      jsonResponse libs [("name".toList, .string policyName), ("content".toList, .string content)]

/-- The command of `api_security_logs`. -/
def logsCommand (lines : Option CStr) : CStr :=
  strncpy 255 ("tail -n ".toList ++ CStr.ofInt (intParam lines 100) ++
    " /var/log/tetragon/tetragon.log 2>/dev/null".toList)

/-- `api_security_logs`. -/
def apiSecurityLogs (libs : Libs) (r : SecurityReads) : Response :=
  match r.popen (logsCommand r.lines) with
  | none => ⟨500, "\x7b\"error\":\"Failed to read logs\"\x7d"⟩
  | some lines =>
    let logs := lines.filterMap libs.parse
    jsonResponse libs [("logs".toList, .array logs), ("count".toList, .int logs.length)]

/-- The configuration of Tetragon. -/
def tetragonConfig : CStr := "/etc/tetragon/tetragon.yaml".toList

/-- `api_security_config_get`. -/
def apiSecurityConfigGet (libs : Libs) (r : SecurityReads) : Option Response :=
  answerFile (r.fopen tetragonConfig) ⟨404, "\x7b\"error\":\"Config file not found\"\x7d"⟩
    fun content => jsonResponse libs [("content".toList, .string content)]

end Cyrenus
