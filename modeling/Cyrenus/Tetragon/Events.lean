import Cyrenus.Address
import Cyrenus.Api.Context
import Mathlib.Data.List.Infix

/-!
# The events of the Tetragon log

`tetragon_process_json_line` parses a line of the log into a security event, classifies it by its
message, stores it in the table `security_events`, tells the WebSocket clients of it and counts it.
A member that is `null` has no text, so a copy of it reads a null pointer and there is no result.
-/

namespace Cyrenus

open CStr (strncpy)

/-- `strstr` finds a text in a string. -/
abbrev strstr (s : CStr) (part : String) : Prop := part.toList <:+: s

/-! ## Events -/

def EVENT_TYPE_PROCESS_EXEC : CStr := "PROCESS_EXEC".toList
def EVENT_TYPE_PROCESS_KPROBE : CStr := "PROCESS_KPROBE".toList

def SEVERITY_INFO : U8 := 1
def SEVERITY_WARNING : U8 := 2
def SEVERITY_CRITICAL : U8 := 4

def MAX_COMMAND_LINE : ℕ := 2048
def MAX_FILE_PATH : ℕ := 4096
def MAX_MESSAGE : ℕ := 1024
def MAX_POLICY_NAME : ℕ := 128

/-- `struct security_event`. -/
structure SecurityEvent where
  timestamp : U64
  eventType : CStr
  severity : U8
  alertType : U32
  pid : U32
  ppid : U32
  uid : U32
  processName : CStr
  command : CStr
  binaryPath : CStr
  parentBinary : CStr
  action : CStr
  policyName : CStr
  message : CStr
  srcIp : U32
  dstIp : U32
  dstPort : U16
  filePath : CStr
  fileOperation : CStr
  metadataJson : Option CStr
  deriving DecidableEq, Repr

/-- An event after `memset`. -/
def SecurityEvent.zero : SecurityEvent :=
  ⟨0, [], 0, 0, 0, 0, 0, [], [], [], [], [], [], [], 0, 0, 0, [], [], none⟩

/-! ## Classification -/

/-- `tetragon_classify_severity` of a message. -/
def tetragonClassifySeverity (message : CStr) : U8 :=
  if strstr message "CRITICAL" ∨ strstr message "RCE detected" ∨ strstr message "blocked" ∨
    strstr message "Sigkill" then SEVERITY_CRITICAL
  else if strstr message "WARNING" ∨ strstr message "detected" ∨ strstr message "suspicious" ∨
    strstr message "unauthorized" then SEVERITY_WARNING
  else SEVERITY_INFO

/-- The kinds of alerts, each with the texts that point to it. -/
def alertIndicators : List (U32 × List String) :=
  [(0x0001, ["RCE", "shell spawn"]), (0x0002, ["privilege", "setuid"]), (0x0010, ["reverse shell"]),
    (0x0020, ["webshell", "web directory"]), (0x0004, ["file", "integrity"]),
    (0x0008, ["inject", "ptrace"]), (0x0040, ["cron", "systemd", "persistence"]),
    (0x0080, ["namespace", "container"])]

/-- `tetragon_classify_alert_type` of a message. -/
def tetragonClassifyAlertType (message : CStr) : U32 :=
  alertIndicators.foldl (fun alertType kind =>
    if ∃ part ∈ kind.2, strstr message part then alertType ||| kind.1 else alertType) 0

/-! ## Parsing -/

/-- A field of the event into which the text of a member is copied, if there is one. -/
def copyMember (toText : Json → CStr) (n : ℕ) (name : String) (j : Json) (field : CStr) :
    Option CStr :=
  match j.get? name with
  | none => some field
  | some tmp => (tmp.getString toText).map (strncpy n)

/-- A field of the event that is set to the integer of a member, if there is one. -/
def readMember (name : String) (j : Json) (field : U32) : U32 :=
  ((j.get? name).map Json.getInt).getD field

/-- The part of `tetragon_parse_event` that reads the member "process_exec". -/
def parseProcessExec (toText : Json → CStr) (processExec : Json) (event : SecurityEvent) :
    Option SecurityEvent :=
  let event := { event with eventType := strncpy 63 EVENT_TYPE_PROCESS_EXEC }
  match processExec.get? "process" with
  | none => some event
  | some process => do
    let binaryPath ← copyMember toText (MAX_FILE_PATH - 1) "binary" process event.binaryPath
    let command ← copyMember toText (MAX_COMMAND_LINE - 1) "arguments" process event.command
    let event := { event with
      pid := readMember "pid" process event.pid, binaryPath := binaryPath, command := command }
    match processExec.get? "parent" with
    | none => some event
    | some parent => do
      let parentBinary ← copyMember toText (MAX_FILE_PATH - 1) "binary" parent event.parentBinary
      return { event with
        ppid := readMember "pid" parent event.ppid, parentBinary := parentBinary }

/-- The file that the arguments of a function name, the last one if there are several. -/
def parseFileArgs (toText : Json → CStr) (args : List Json) (filePath : CStr) : Option CStr :=
  args.foldlM (fun filePath arg =>
    match arg.get? "file_arg" with
    | none => some filePath
    | some fileArg => copyMember toText (MAX_FILE_PATH - 1) "path" fileArg filePath) filePath

/-- The file that a function works on, when its name speaks of files. -/
def parseFunction (toText : Json → CStr) (processKprobe : Json) (filePath : CStr) : Option CStr :=
  match processKprobe.get? "function_name" with
  | none => some filePath
  | some tmp => do
    let func ← tmp.getString toText
    if strstr func "file" then
      match processKprobe.get? "args" with
      | some (.array args) => parseFileArgs toText args filePath
      | _ => some filePath
    else some filePath

/-- The part of `tetragon_parse_event` that reads the member "process_kprobe". -/
def parseProcessKprobe (toText : Json → CStr) (processKprobe : Json) (event : SecurityEvent) :
    Option SecurityEvent := do
  let filePath ← parseFunction toText processKprobe event.filePath
  let policyName ←
    copyMember toText (MAX_POLICY_NAME - 1) "policy_name" processKprobe event.policyName
  let message ← copyMember toText (MAX_MESSAGE - 1) "message" processKprobe event.message
  let action ← copyMember toText 31 "action" processKprobe event.action
  let event := { event with
    eventType := strncpy 63 EVENT_TYPE_PROCESS_KPROBE, filePath := filePath,
    policyName := policyName, message := message, action := action }
  match processKprobe.get? "process" with
  | none => some event
  | some process => do
    let binaryPath ← copyMember toText (MAX_FILE_PATH - 1) "binary" process event.binaryPath
    return { event with pid := readMember "pid" process event.pid, binaryPath := binaryPath }

/-- `tetragon_parse_event` at a time; none when a null pointer is read. -/
def tetragonParseEvent (toText : Json → CStr) (now : ℤ) (jsonEvent : Json) :
    Option SecurityEvent := do
  let event := if (jsonEvent.get? "time").isSome then
      { SecurityEvent.zero with timestamp := BitVec.ofInt 64 now * 1000000000 }
    else SecurityEvent.zero
  let event ← match jsonEvent.get? "process_exec" with
    | none => some event
    | some processExec => parseProcessExec toText processExec event
  let event ← match jsonEvent.get? "process_kprobe" with
    | none => some event
    | some processKprobe => parseProcessKprobe toText processKprobe event
  return { event with
    severity := tetragonClassifySeverity event.message
    alertType := tetragonClassifyAlertType event.message }

/-! ## Storing -/

/-- The arguments of `db_insert_security_event`; a text may be a null pointer. -/
structure SecurityEventArgs where
  timestamp : U64
  eventType : CStr
  severity : U32
  processName : Option CStr
  pid : U32
  ppid : U32
  uid : U32
  command : Option CStr
  binaryPath : Option CStr
  parentBinary : Option CStr
  action : Option CStr
  policyName : Option CStr
  srcIp : Option CStr
  dstIp : Option CStr
  dstPort : U32
  filePath : Option CStr
  fileOperation : Option CStr
  metadata : Option CStr

/-- A row of `security_events`. -/
structure SecurityEventRow where
  id : ℤ
  timestamp : ℤ
  eventType : CStr
  severity : ℤ
  processName : Option CStr
  pid : ℤ
  ppid : ℤ
  uid : ℤ
  command : Option CStr
  binaryPath : Option CStr
  parentBinary : Option CStr
  action : Option CStr
  policyName : Option CStr
  srcIp : Option CStr
  dstIp : Option CStr
  dstPort : Option ℤ
  filePath : Option CStr
  fileOperation : Option CStr
  metadata : Option CStr
  createdAt : ℤ
  deriving DecidableEq, Repr

/-- The row that the arguments are inserted as: integers are signed, and a port that is not positive
is no port. -/
def SecurityEventArgs.row (args : SecurityEventArgs) (id createdAt : ℤ) : SecurityEventRow where
  id := id
  timestamp := args.timestamp.toInt
  eventType := args.eventType
  severity := args.severity.toInt
  processName := args.processName
  pid := args.pid.toInt
  ppid := args.ppid.toInt
  uid := args.uid.toInt
  command := args.command
  binaryPath := args.binaryPath
  parentBinary := args.parentBinary
  action := args.action
  policyName := args.policyName
  srcIp := args.srcIp
  dstIp := args.dstIp
  dstPort := if args.dstPort.toInt > 0 then some args.dstPort.toInt else none
  filePath := args.filePath
  fileOperation := args.fileOperation
  metadata := args.metadata
  createdAt := createdAt

/-- The table `security_events`: its rows, and the greatest number given so far. -/
structure SecurityEventTable where
  rows : List SecurityEventRow
  lastId : ℤ

/-- What the surroundings of `tetragon_process_json_line` answer: the time, whether the database
inserts a row and when, and which of the two calls of `inet_ntoa` is made last. -/
structure LineAnswers where
  now : ℤ
  insertOk : Bool
  createdAt : ℤ
  srcLast : Bool

/-- `db_insert_security_event`. -/
def dbInsertSecurityEvent (a : LineAnswers) (args : SecurityEventArgs) (t : SecurityEventTable) :
    SecurityEventTable :=
  if a.insertOk then ⟨t.rows ++ [args.row (t.lastId + 1) a.createdAt], t.lastId + 1⟩ else t

/-- The dotted forms of two addresses, none for an address that is zero. Both are written into one
buffer of `inet_ntoa`, so both are the one written last. -/
def storedAddresses (srcLast : Bool) (srcIp dstIp : U32) : Option CStr × Option CStr :=
  let last := if dstIp = 0 ∨ (srcLast ∧ srcIp ≠ 0) then srcIp else dstIp
  (if srcIp = 0 then none else some (inetNtop last),
    if dstIp = 0 then none else some (inetNtop last))

/-- A text that is not stored when it is empty. -/
def nonempty (s : CStr) : Option CStr := if s = [] then none else some s

/-- What `tetragon_store_event` inserts. -/
def storedArgs (srcLast : Bool) (event : SecurityEvent) : SecurityEventArgs where
  timestamp := event.timestamp
  eventType := event.eventType
  severity := event.severity.setWidth 32
  processName := some (if event.processName = [] then "unknown".toList else event.processName)
  pid := event.pid
  ppid := event.ppid
  uid := event.uid
  command := some event.command
  binaryPath := some event.binaryPath
  parentBinary := some event.parentBinary
  action := some event.action
  policyName := some event.policyName
  srcIp := (storedAddresses srcLast event.srcIp event.dstIp).1
  dstIp := (storedAddresses srcLast event.srcIp event.dstIp).2
  dstPort := event.dstPort.setWidth 32
  filePath := nonempty event.filePath
  fileOperation := nonempty event.fileOperation
  metadata := event.metadataJson

/-- `tetragon_store_event`. -/
def tetragonStoreEvent (a : LineAnswers) (event : SecurityEvent) (t : SecurityEventTable) :
    SecurityEventTable :=
  dbInsertSecurityEvent a (storedArgs a.srcLast event) t

/-! ## Telling and counting -/

/-- The counters of `struct tetragon_stats` that a line changes. -/
structure TetragonStats where
  totalEvents : U64
  processExecEvents : U64
  alertsGenerated : U64
  eventsBlocked : U64
  deriving DecidableEq, Repr

/-- An action that keeps a process from going on. -/
def IsBlocking (action : CStr) : Prop := action = "Sigkill".toList ∨ action = "block".toList

instance (action : CStr) : Decidable (IsBlocking action) :=
  inferInstanceAs (Decidable (_ ∨ _))

/-- The text of an alert, as a buffer of 1024 bytes holds it. -/
def alertJson (event : SecurityEvent) : CStr :=
  strncpy 1023 ("\x7b\"type\":\"security_alert\",\"severity\":\"".toList ++
    (if event.severity = SEVERITY_CRITICAL then "CRITICAL".toList else "WARNING".toList) ++
    "\",\"pid\":".toList ++ decimal event.pid.toNat ++ ",\"action\":\"".toList ++ event.action ++
    "\"\x7d".toList)

/-- `tetragon_generate_alert`: the text that is broadcast, if there is one, and the counters. -/
def tetragonGenerateAlert (event : SecurityEvent) (stats : TetragonStats) :
    Option CStr × TetragonStats :=
  if event.severity < SEVERITY_WARNING then (none, stats)
  else
    (some (alertJson event), { stats with
      alertsGenerated := stats.alertsGenerated + 1
      eventsBlocked :=
        if IsBlocking event.action then stats.eventsBlocked + 1 else stats.eventsBlocked })

/-- `tetragon_state` and the table that the events are stored in. -/
structure Tetragon where
  stats : TetragonStats
  events : SecurityEventTable

/-- The state before the first line. -/
def Tetragon.initial : Tetragon := ⟨⟨0, 0, 0, 0⟩, ⟨[], 0⟩⟩

/-- What `tetragon_process_json_line` does with an event: the text that is broadcast and the
state after it. -/
def processEvent (a : LineAnswers) (event : SecurityEvent) (st : Tetragon) :
    Option CStr × Tetragon :=
  let alert :=
    if event.severity ≥ SEVERITY_WARNING then tetragonGenerateAlert event st.stats
    else (some "\x7b\"type\":\"security_update\"\x7d".toList, st.stats)
  (alert.1,
    { stats := { alert.2 with
        totalEvents := alert.2.totalEvents + 1
        processExecEvents :=
          if event.eventType = EVENT_TYPE_PROCESS_EXEC then alert.2.processExecEvents + 1
          else alert.2.processExecEvents }
      events := tetragonStoreEvent a event st.events })

/-- The event of a line, when `tetragon_process_json_line` gets that far: there is none for a line
that is empty or cannot be parsed, and no result when a null pointer is read. -/
def lineEvent (libs : Libs) (now : ℤ) (jsonLine : CStr) : Option (Option SecurityEvent) :=
  if jsonLine = [] then some none
  else
    match libs.parse jsonLine with
    | none => some none
    | some jsonEvent => (tetragonParseEvent libs.toText now jsonEvent).map some

/-- `tetragon_process_json_line`: the text that is broadcast, if there is one, and the state after
the line; none when a null pointer is read. -/
def tetragonProcessJsonLine (libs : Libs) (a : LineAnswers) (jsonLine : CStr) (st : Tetragon) :
    Option (Option CStr × Tetragon) :=
  match lineEvent libs a.now jsonLine with
  | none => none
  | some none => some (none, st)
  | some (some event) => some (processEvent a event st)

end Cyrenus
