import Cyrenus.Tetragon.Stats

/-!
# Which lines can be parsed

`tetragon_parse_event` copies the texts of about ten members of a line, each only if it is there.
A member that is `null` is there but has no text, and the copy reads a null pointer.
`parsesFaithfully_iff` says which values are free of that, and what the fields of the event are
then.
-/

namespace Cyrenus

open CStr (strncpy)

/-! ## Members -/

/-- The value that a chain of names leads to. -/
def Json.at? (names : List String) (j : Json) : Option Json :=
  names.foldlM (fun j name => j.get? name) j

/-- The text of that value; none when there is none, or when it is null. -/
def Json.textAt (toText : Json → CStr) (names : List String) (j : Json) : Option CStr :=
  (j.at? names).bind (Json.getString toText)

/-- The value is not null, if there is one. -/
def Json.NotNull (names : List String) (j : Json) : Prop := j.at? names ≠ some .null

/-- What a field of `n + 1` bytes holds after the copy of a text, if there was one. -/
def fieldOf (n : ℕ) (text : Option CStr) (field : CStr) : CStr := (text.map (strncpy n)).getD field

variable {toText : Json → CStr} {j : Json}

theorem Json.at?_cons (name : String) (names : List String) (j : Json) :
    j.at? (name :: names) = (j.get? name).bind (Json.at? names) := by
  rw [Json.at?, List.foldlM_cons]
  rfl

theorem Json.at?_singleton (name : String) (j : Json) : j.at? [name] = j.get? name := by
  rw [Json.at?_cons]
  cases j.get? name <;> rfl

/-- A chain of names below a member. -/
theorem Json.at?_of_get? {name : String} {v : Json} (h : j.get? name = some v)
    (names : List String) : j.at? (name :: names) = v.at? names := by
  rw [Json.at?_cons, h, Option.bind_some]

theorem Json.at?_of_none {name : String} (h : j.get? name = none) (names : List String) :
    j.at? (name :: names) = none := by
  rw [Json.at?_cons, h, Option.bind_none]

theorem Json.textAt_of_get? {name : String} {v : Json} (h : j.get? name = some v)
    (names : List String) : j.textAt toText (name :: names) = v.textAt toText names := by
  rw [Json.textAt, Json.at?_of_get? h, Json.textAt]

theorem Json.textAt_of_none {name : String} (h : j.get? name = none) (names : List String) :
    j.textAt toText (name :: names) = none := by
  rw [Json.textAt, Json.at?_of_none h, Option.bind_none]

theorem Json.notNull_of_get? {name : String} {v : Json} (h : j.get? name = some v)
    (names : List String) : j.NotNull (name :: names) ↔ v.NotNull names := by
  rw [Json.NotNull, Json.at?_of_get? h, Json.NotNull]

theorem Json.notNull_of_none {name : String} (h : j.get? name = none) (names : List String) :
    j.NotNull (name :: names) := by
  rw [Json.NotNull, Json.at?_of_none h]
  nofun

theorem Json.get?_null (name : String) : Json.null.get? name = none := rfl

/-- **A member is copied** unless it is null. -/
theorem copyMember_eq_some {n : ℕ} {name : String} {field s : CStr} :
    copyMember toText n name j field = some s ↔
      j.NotNull [name] ∧ s = fieldOf n (j.textAt toText [name]) field := by
  rw [copyMember, Json.NotNull, Json.textAt, Json.at?_singleton, fieldOf]
  cases hmember : j.get? name with
  | none => simp [eq_comm]
  | some tmp =>
    cases htext : tmp.getString toText with
    | none =>
      rw [Json.getString_eq_none.1 htext]
      simp [Json.getString]
    | some s' =>
      have hne : tmp ≠ .null := by
        rintro rfl
        cases htext
      simp [hne, htext, eq_comm]

/-- Two copies into one field leave the last one that was made. -/
theorem fieldOf_fieldOf (n : ℕ) (text text' : Option CStr) (field : CStr) :
    fieldOf n text' (fieldOf n text field) = fieldOf n (text'.or text) field := by
  cases text' <;> rfl

/-! ## The parts of a line -/

/-- The paths in some arguments of a function. -/
def argPaths (toText : Json → CStr) (args : List Json) : List CStr :=
  args.filterMap (Json.textAt toText ["file_arg", "path"])

/-- One argument is looked through after the other. -/
theorem parseFileArgs_cons (arg : Json) (args : List Json) (field : CStr) :
    parseFileArgs toText (arg :: args) field =
      (parseFileArgs toText [arg] field).bind (parseFileArgs toText args) := by
  rw [← List.singleton_append, parseFileArgs, List.foldlM_append]
  rfl

/-- The path of one argument is copied if there is one, unless it is null. -/
theorem parseFileArgs_singleton {arg : Json} {field s : CStr} :
    parseFileArgs toText [arg] field = some s ↔ arg.NotNull ["file_arg", "path"] ∧
      s = fieldOf (MAX_FILE_PATH - 1) (arg.textAt toText ["file_arg", "path"]) field := by
  rw [Json.NotNull, Json.textAt, Json.at?_cons, parseFileArgs, List.foldlM_cons]
  cases arg.get? "file_arg" with
  | none => simp [fieldOf, eq_comm]
  | some fileArg =>
    simp only [List.foldlM_nil, bind_pure]
    exact copyMember_eq_some

/-- The path of the last argument that has one is copied, unless one is null. -/
theorem parseFileArgs_eq_some {args : List Json} {field s : CStr} :
    parseFileArgs toText args field = some s ↔
      (∀ arg ∈ args, arg.NotNull ["file_arg", "path"]) ∧
        s = fieldOf (MAX_FILE_PATH - 1) (argPaths toText args).getLast? field := by
  induction args generalizing field with
  | nil => simp [parseFileArgs, argPaths, fieldOf, eq_comm]
  | cons arg args ih =>
    have hlast : (argPaths toText (arg :: args)).getLast? =
        (argPaths toText args).getLast?.or (arg.textAt toText ["file_arg", "path"]) := by
      rw [argPaths, List.filterMap_cons]
      cases arg.textAt toText ["file_arg", "path"] with
      | none => rw [Option.or_none]; rfl
      | some path =>
        rw [List.getLast?_cons, ← argPaths]
        cases (argPaths toText args).getLast? <;> rfl
    rw [parseFileArgs_cons, Option.bind_eq_some_iff, List.forall_mem_cons, hlast, ← fieldOf_fieldOf]
    constructor
    · rintro ⟨s', harg, hargs⟩
      obtain ⟨hnull, rfl⟩ := parseFileArgs_singleton.1 harg
      obtain ⟨hnulls, hs⟩ := ih.1 hargs
      exact ⟨⟨hnull, hnulls⟩, hs⟩
    · rintro ⟨⟨hnull, hnulls⟩, hs⟩
      exact ⟨_, parseFileArgs_singleton.2 ⟨hnull, rfl⟩, ih.2 ⟨hnulls, hs⟩⟩

/-- The arguments that are looked through: those of a function whose name speaks of files. -/
def fileArgs (toText : Json → CStr) (processKprobe : Json) : List Json :=
  match processKprobe.textAt toText ["function_name"] with
  | none => []
  | some func =>
    if strstr func "file" then
      match processKprobe.get? "args" with
      | some (.array args) => args
      | _ => []
    else []

/-- No text that the member "process_kprobe" is read for is null. -/
structure KprobeTexts (toText : Json → CStr) (processKprobe : Json) : Prop where
  functionName : processKprobe.NotNull ["function_name"]
  paths : ∀ arg ∈ fileArgs toText processKprobe, arg.NotNull ["file_arg", "path"]
  policyName : processKprobe.NotNull ["policy_name"]
  message : processKprobe.NotNull ["message"]
  action : processKprobe.NotNull ["action"]
  binary : processKprobe.NotNull ["process", "binary"]

/-- No text that the member "process_exec" is read for is null. -/
structure ExecTexts (processExec : Json) : Prop where
  binary : processExec.NotNull ["process", "binary"]
  arguments : processExec.NotNull ["process", "arguments"]
  parent : (processExec.get? "process").isSome → processExec.NotNull ["parent", "binary"]

/-- The file that a function works on is copied, unless its name or a path is null. -/
theorem parseFunction_eq_some {processKprobe : Json} {field s : CStr} :
    parseFunction toText processKprobe field = some s ↔
      processKprobe.NotNull ["function_name"] ∧
        (∀ arg ∈ fileArgs toText processKprobe, arg.NotNull ["file_arg", "path"]) ∧
        s = fieldOf (MAX_FILE_PATH - 1)
          (argPaths toText (fileArgs toText processKprobe)).getLast? field := by
  rw [parseFunction, fileArgs, Json.NotNull, Json.textAt, Json.at?_singleton]
  cases hname : processKprobe.get? "function_name" with
  | none => simp [argPaths, fieldOf, eq_comm]
  | some tmp =>
    cases htext : tmp.getString toText with
    | none =>
      rw [Json.getString_eq_none.1 htext]
      simp [Json.getString]
    | some func =>
      have hne : some tmp ≠ some .null := by
        rintro ⟨⟩
        cases htext
      simp only [Option.bind_eq_bind, Option.bind_some, htext, hne, ne_eq, not_false_eq_true,
        true_and]
      have hnone : some field = some s ↔
          (∀ arg ∈ ([] : List Json), arg.NotNull ["file_arg", "path"]) ∧
            s = fieldOf (MAX_FILE_PATH - 1) (argPaths toText []).getLast? field := by
        simp [argPaths, fieldOf, eq_comm]
      by_cases hfile : strstr func "file"
      · simp only [hfile, if_true]
        cases processKprobe.get? "args" with
        | none => exact hnone
        | some value =>
          cases value with
          | array args => exact parseFileArgs_eq_some
          | _ => exact hnone
      · simp only [hfile, if_false]
        exact hnone

/-- The integer at the end of a chain of names, or what stands for it. -/
def Json.intAt (names : List String) (j : Json) (field : U32) : U32 :=
  ((j.at? names).map Json.getInt).getD field

theorem readMember_eq (name : String) (j : Json) (field : U32) :
    readMember name j field = j.intAt [name] field := by
  rw [readMember, Json.intAt, Json.at?_singleton]

/-- An event after what the member "process_exec" says of it. The parent is looked at only when
there is a process. -/
def readProcessExec (toText : Json → CStr) (processExec : Json) (event : SecurityEvent) :
    SecurityEvent :=
  let parent := if (processExec.get? "process").isSome then processExec else .null
  { event with
    eventType := strncpy 63 EVENT_TYPE_PROCESS_EXEC
    pid := processExec.intAt ["process", "pid"] event.pid
    binaryPath := fieldOf (MAX_FILE_PATH - 1) (processExec.textAt toText ["process", "binary"])
      event.binaryPath
    command := fieldOf (MAX_COMMAND_LINE - 1)
      (processExec.textAt toText ["process", "arguments"]) event.command
    ppid := parent.intAt ["parent", "pid"] event.ppid
    parentBinary := fieldOf (MAX_FILE_PATH - 1) (parent.textAt toText ["parent", "binary"])
      event.parentBinary }

theorem parseProcessExec_eq_some {processExec : Json} {event event' : SecurityEvent} :
    parseProcessExec toText processExec event = some event' ↔
      ExecTexts processExec ∧ event' = readProcessExec toText processExec event := by
  rw [parseProcessExec]
  cases hprocess : processExec.get? "process" with
  | none =>
    have htexts : ExecTexts processExec :=
      ⟨Json.notNull_of_none hprocess _, Json.notNull_of_none hprocess _, fun h => by
        rw [hprocess] at h
        cases h⟩
    simp only [Option.some.injEq, htexts, true_and, readProcessExec, Json.textAt, Json.intAt,
      hprocess, Json.at?_of_none hprocess, Option.isSome_none, Bool.false_eq_true, if_false,
      Json.at?_of_none (Json.get?_null "parent"), Option.map_none, Option.getD_none,
      Option.bind_none, fieldOf]
    exact eq_comm
  | some process =>
    have htexts : ExecTexts processExec ↔ process.NotNull ["binary"] ∧
        process.NotNull ["arguments"] ∧ processExec.NotNull ["parent", "binary"] := by
      rw [← Json.notNull_of_get? hprocess, ← Json.notNull_of_get? hprocess]
      exact ⟨fun h => ⟨h.binary, h.arguments, h.parent (by rw [hprocess]; rfl)⟩,
        fun h => ⟨h.1, h.2.1, fun _ => h.2.2⟩⟩
    simp only [htexts, readProcessExec, hprocess, Option.isSome_some, if_true, Json.textAt,
      Json.intAt, Json.at?_of_get? hprocess, readMember_eq, Option.bind_eq_bind,
      Option.bind_eq_some_iff, copyMember_eq_some]
    cases hparent : processExec.get? "parent" with
    | none =>
      simp only [Json.at?_of_none hparent, Option.map_none, Option.getD_none, Option.bind_none,
        Option.some.injEq]
      constructor
      · rintro ⟨_, ⟨hbinary, rfl⟩, _, ⟨harguments, rfl⟩, rfl⟩
        exact ⟨⟨hbinary, harguments, Json.notNull_of_none hparent _⟩, rfl⟩
      · rintro ⟨⟨hbinary, harguments, -⟩, rfl⟩
        exact ⟨_, ⟨hbinary, rfl⟩, _, ⟨harguments, rfl⟩, rfl⟩
    | some parent =>
      simp only [Json.at?_of_get? hparent, Json.notNull_of_get? hparent,
        Option.bind_eq_some_iff, copyMember_eq_some]
      constructor
      · rintro ⟨_, ⟨hbinary, rfl⟩, _, ⟨harguments, rfl⟩, _, ⟨hparentBinary, rfl⟩, h⟩
        cases h
        exact ⟨⟨hbinary, harguments, hparentBinary⟩, rfl⟩
      · rintro ⟨⟨hbinary, harguments, hparentBinary⟩, rfl⟩
        exact ⟨_, ⟨hbinary, rfl⟩, _, ⟨harguments, rfl⟩, _, ⟨hparentBinary, rfl⟩, rfl⟩

/-- An event after what the member "process_kprobe" says of it. -/
def readProcessKprobe (toText : Json → CStr) (processKprobe : Json) (event : SecurityEvent) :
    SecurityEvent :=
  { event with
    eventType := strncpy 63 EVENT_TYPE_PROCESS_KPROBE
    filePath := fieldOf (MAX_FILE_PATH - 1)
      (argPaths toText (fileArgs toText processKprobe)).getLast? event.filePath
    policyName := fieldOf (MAX_POLICY_NAME - 1) (processKprobe.textAt toText ["policy_name"])
      event.policyName
    message := fieldOf (MAX_MESSAGE - 1) (processKprobe.textAt toText ["message"]) event.message
    action := fieldOf 31 (processKprobe.textAt toText ["action"]) event.action
    pid := processKprobe.intAt ["process", "pid"] event.pid
    binaryPath := fieldOf (MAX_FILE_PATH - 1) (processKprobe.textAt toText ["process", "binary"])
      event.binaryPath }

theorem parseProcessKprobe_eq_some {processKprobe : Json} {event event' : SecurityEvent} :
    parseProcessKprobe toText processKprobe event = some event' ↔
      KprobeTexts toText processKprobe ∧ event' = readProcessKprobe toText processKprobe event := by
  simp only [parseProcessKprobe, Option.bind_eq_bind, Option.bind_eq_some_iff, copyMember_eq_some,
    parseFunction_eq_some]
  cases hprocess : processKprobe.get? "process" with
  | none =>
    simp only [readProcessKprobe, Json.textAt, Json.intAt, Json.at?_of_none hprocess,
      Option.map_none, Option.getD_none, Option.bind_none, Option.some.injEq]
    constructor
    · rintro ⟨_, ⟨hname, hpaths, rfl⟩, _, ⟨hpolicy, rfl⟩, _, ⟨hmessage, rfl⟩, _, ⟨haction, rfl⟩,
        rfl⟩
      exact ⟨⟨hname, hpaths, hpolicy, hmessage, haction, Json.notNull_of_none hprocess _⟩, rfl⟩
    · rintro ⟨⟨hname, hpaths, hpolicy, hmessage, haction, -⟩, rfl⟩
      exact ⟨_, ⟨hname, hpaths, rfl⟩, _, ⟨hpolicy, rfl⟩, _, ⟨hmessage, rfl⟩, _, ⟨haction, rfl⟩, rfl⟩
  | some process =>
    simp only [readProcessKprobe, Json.textAt, Json.intAt, Json.at?_of_get? hprocess, readMember_eq,
      Option.bind_eq_some_iff, copyMember_eq_some]
    constructor
    · rintro ⟨_, ⟨hname, hpaths, rfl⟩, _, ⟨hpolicy, rfl⟩, _, ⟨hmessage, rfl⟩, _, ⟨haction, rfl⟩, _,
        ⟨hbinary, rfl⟩, h⟩
      cases h
      exact ⟨⟨hname, hpaths, hpolicy, hmessage, haction,
        (Json.notNull_of_get? hprocess _).2 hbinary⟩, rfl⟩
    · rintro ⟨⟨hname, hpaths, hpolicy, hmessage, haction, hbinary⟩, rfl⟩
      exact ⟨_, ⟨hname, hpaths, rfl⟩, _, ⟨hpolicy, rfl⟩, _, ⟨hmessage, rfl⟩, _, ⟨haction, rfl⟩, _,
        ⟨(Json.notNull_of_get? hprocess _).1 hbinary, rfl⟩, rfl⟩

/-! ## Lines -/

/-- No text that a line is read for is null. -/
structure NoNullText (toText : Json → CStr) (jsonEvent : Json) : Prop where
  exec : ∀ processExec, jsonEvent.get? "process_exec" = some processExec → ExecTexts processExec
  kprobe : ∀ processKprobe, jsonEvent.get? "process_kprobe" = some processKprobe →
    KprobeTexts toText processKprobe

/-- An event after `memset` and the time. -/
def timedEvent (now : ℤ) (jsonEvent : Json) : SecurityEvent :=
  { SecurityEvent.zero with
    timestamp := if (jsonEvent.get? "time").isSome then BitVec.ofInt 64 now * 1000000000 else 0 }

/-- The event of a line. -/
def readEvent (toText : Json → CStr) (now : ℤ) (jsonEvent : Json) : SecurityEvent :=
  let event := (jsonEvent.get? "process_exec").elim id (readProcessExec toText)
    (timedEvent now jsonEvent)
  let event := (jsonEvent.get? "process_kprobe").elim id (readProcessKprobe toText) event
  { event with
    severity := tetragonClassifySeverity event.message
    alertType := tetragonClassifyAlertType event.message }

/-- A part of a line that is read if the line has it. -/
theorem elim_eq_some (parse : Json → SecurityEvent → Option SecurityEvent)
    (read : Json → SecurityEvent → SecurityEvent) (P : Json → Prop)
    (hparse : ∀ (v : Json) (e e' : SecurityEvent), parse v e = some e' ↔ P v ∧ e' = read v e)
    (member : Option Json) (e e' : SecurityEvent) :
    member.elim some parse e = some e' ↔
      (∀ v, member = some v → P v) ∧ e' = member.elim id read e := by
  cases member with
  | none => simp [eq_comm]
  | some v => simpa using hparse v e e'

/-- **A line is parsed** unless a text is null. -/
theorem tetragonParseEvent_eq_some {now : ℤ} {jsonEvent : Json} {event : SecurityEvent} :
    tetragonParseEvent toText now jsonEvent = some event ↔
      NoNullText toText jsonEvent ∧ event = readEvent toText now jsonEvent := by
  have hparse : tetragonParseEvent toText now jsonEvent =
      ((jsonEvent.get? "process_exec").elim some (parseProcessExec toText)
        (timedEvent now jsonEvent)).bind fun event =>
        ((jsonEvent.get? "process_kprobe").elim some (parseProcessKprobe toText) event).bind
          fun event => some { event with
            severity := tetragonClassifySeverity event.message
            alertType := tetragonClassifyAlertType event.message } := by
    rw [tetragonParseEvent, timedEvent]
    cases jsonEvent.get? "time" <;> cases jsonEvent.get? "process_exec" <;>
      cases jsonEvent.get? "process_kprobe" <;> rfl
  have hexec := elim_eq_some (parseProcessExec toText) (readProcessExec toText) ExecTexts
    (fun _ _ _ => parseProcessExec_eq_some) (jsonEvent.get? "process_exec")
  have hkprobe := elim_eq_some (parseProcessKprobe toText) (readProcessKprobe toText)
    (KprobeTexts toText) (fun _ _ _ => parseProcessKprobe_eq_some)
    (jsonEvent.get? "process_kprobe")
  rw [hparse]
  constructor
  · intro h
    obtain ⟨e, he, h⟩ := Option.bind_eq_some_iff.1 h
    obtain ⟨e', he', h⟩ := Option.bind_eq_some_iff.1 h
    obtain ⟨hexecs, rfl⟩ := (hexec _ _).1 he
    obtain ⟨hkprobes, rfl⟩ := (hkprobe _ _).1 he'
    cases h
    exact ⟨⟨hexecs, hkprobes⟩, rfl⟩
  · rintro ⟨hnull, rfl⟩
    rw [(hexec _ _).2 ⟨hnull.exec, rfl⟩, Option.bind_some, (hkprobe _ _).2 ⟨hnull.kprobe, rfl⟩]
    rfl

/-! ## The fields -/

/-- The string fields of an event, each with its size. -/
def SecurityEvent.fields (event : SecurityEvent) : List (ℕ × CStr) :=
  [(64, event.eventType), (256, event.processName), (MAX_COMMAND_LINE, event.command),
    (MAX_FILE_PATH, event.binaryPath), (MAX_FILE_PATH, event.parentBinary), (32, event.action),
    (MAX_POLICY_NAME, event.policyName), (MAX_MESSAGE, event.message),
    (MAX_FILE_PATH, event.filePath), (32, event.fileOperation)]

/-- Every string field has an end. -/
def SecurityEvent.Terminated (event : SecurityEvent) : Prop :=
  ∀ field ∈ event.fields, field.2.length < field.1

/-- The string fields of an event hold the texts of a line, cut to their sizes minus one. -/
structure FieldsOf (toText : Json → CStr) (jsonEvent : Json) (event : SecurityEvent) : Prop where
  eventType : event.eventType =
    if (jsonEvent.get? "process_kprobe").isSome then EVENT_TYPE_PROCESS_KPROBE
    else if (jsonEvent.get? "process_exec").isSome then EVENT_TYPE_PROCESS_EXEC
    else []
  processName : event.processName = []
  command : event.command = fieldOf (MAX_COMMAND_LINE - 1)
    (jsonEvent.textAt toText ["process_exec", "process", "arguments"]) []
  binaryPath : event.binaryPath = fieldOf (MAX_FILE_PATH - 1)
    ((jsonEvent.textAt toText ["process_kprobe", "process", "binary"]).or
      (jsonEvent.textAt toText ["process_exec", "process", "binary"])) []
  parentBinary : event.parentBinary = fieldOf (MAX_FILE_PATH - 1)
    (if (jsonEvent.at? ["process_exec", "process"]).isSome then
      jsonEvent.textAt toText ["process_exec", "parent", "binary"] else none) []
  action : event.action = fieldOf 31 (jsonEvent.textAt toText ["process_kprobe", "action"]) []
  policyName : event.policyName = fieldOf (MAX_POLICY_NAME - 1)
    (jsonEvent.textAt toText ["process_kprobe", "policy_name"]) []
  message : event.message = fieldOf (MAX_MESSAGE - 1)
    (jsonEvent.textAt toText ["process_kprobe", "message"]) []
  filePath : event.filePath = fieldOf (MAX_FILE_PATH - 1)
    (argPaths toText
      (((jsonEvent.get? "process_kprobe").map (fileArgs toText)).getD [])).getLast? []
  fileOperation : event.fileOperation = []

/-- A text that is cut leaves room for its end. -/
theorem length_fieldOf_le (n : ℕ) (text : Option CStr) : (fieldOf n text []).length ≤ n := by
  cases text with
  | none => exact Nat.zero_le _
  | some s => exact List.length_take_le ..

/-- Fields that hold such texts have an end. -/
theorem FieldsOf.terminated {jsonEvent : Json} {event : SecurityEvent}
    (h : FieldsOf toText jsonEvent event) : event.Terminated := by
  have hlt : ∀ {n : ℕ} {text : Option CStr} {field : CStr}, field = fieldOf n text [] →
      field.length < n + 1 := by
    rintro n text _ rfl
    exact Nat.lt_succ_of_le (length_fieldOf_le n text)
  have htype : event.eventType.length < 64 := by
    rw [h.eventType]
    split
    · decide
    · split <;> decide
  simp only [SecurityEvent.Terminated, SecurityEvent.fields, List.forall_mem_cons, h.processName,
    h.fileOperation]
  exact ⟨htype, by decide, hlt h.command, hlt h.binaryPath, hlt h.parentBinary, hlt h.action,
    hlt h.policyName, hlt h.message, hlt h.filePath, by decide, nofun⟩

/-- The text of a value that is looked at only when there is another. -/
theorem textAt_ite_null (c : Bool) (name : String) (names : List String) (j : Json) :
    (if c then j else .null).textAt toText (name :: names) =
      if c then j.textAt toText (name :: names) else none := by
  cases c with
  | false => rfl
  | true => rfl

/-- **What the fields of a parsed event hold.** -/
theorem fieldsOf_readEvent (toText : Json → CStr) (now : ℤ) (jsonEvent : Json) :
    FieldsOf toText jsonEvent (readEvent toText now jsonEvent) := by
  cases hexec : jsonEvent.get? "process_exec" with
  | none =>
    cases hkprobe : jsonEvent.get? "process_kprobe" with
    | none =>
      constructor <;> simp only [readEvent, hexec, hkprobe, Option.elim_none, id,
        Json.textAt_of_none hexec, Json.textAt_of_none hkprobe, Json.at?_of_none hexec] <;> rfl
    | some processKprobe =>
      constructor <;> simp only [readEvent, hexec, hkprobe, Option.elim_none, Option.elim_some, id,
        readProcessKprobe, Json.textAt_of_none hexec, Json.textAt_of_get? hkprobe,
        Json.at?_of_none hexec, Option.or_none] <;> rfl
  | some processExec =>
    cases hkprobe : jsonEvent.get? "process_kprobe" with
    | none =>
      constructor <;> simp only [readEvent, hexec, hkprobe, Option.elim_none, Option.elim_some, id,
        readProcessExec, textAt_ite_null, Json.textAt_of_none hkprobe, Json.textAt_of_get? hexec,
        Json.at?_of_get? hexec, Json.at?_singleton, Option.none_or] <;> rfl
    | some processKprobe =>
      constructor <;> simp only [readEvent, hexec, hkprobe, Option.elim_some, readProcessExec,
        readProcessKprobe, fieldOf_fieldOf, textAt_ite_null, Json.textAt_of_get? hkprobe,
        Json.textAt_of_get? hexec, Json.at?_of_get? hexec, Json.at?_singleton] <;> rfl

/-- **When a line is parsed faithfully**: when no text that it is read for is null. -/
theorem parsesFaithfully_iff (toText : Json → CStr) (now : ℤ) (jsonEvent : Json) :
    (∃ event, tetragonParseEvent toText now jsonEvent = some event ∧
      FieldsOf toText jsonEvent event ∧ event.Terminated) ↔ NoNullText toText jsonEvent := by
  constructor
  · rintro ⟨event, hparse, -⟩
    exact (tetragonParseEvent_eq_some.1 hparse).1
  · intro hnull
    have hfields := fieldsOf_readEvent toText now jsonEvent
    exact ⟨_, tetragonParseEvent_eq_some.2 ⟨hnull, rfl⟩, hfields, hfields.terminated⟩

/-- The line `{"process_exec":{"process":{"binary":null}}}`. -/
def nullBinary : Json :=
  .object [("process_exec".toList, .object [("process".toList,
    .object [("binary".toList, .null)])])]

/-- The object has a member `binary`, whose value null has no text: `strncpy` is given a null
pointer and no event is made. -/
theorem not_parsesFaithfully_nullBinary :
    ¬ ∃ event, tetragonParseEvent (fun _ => []) 1700000000 nullBinary = some event ∧
      FieldsOf (fun _ => []) nullBinary event ∧ event.Terminated := by
  rintro ⟨event, hparse, -⟩
  cases hparse

/-! ## The log -/

/-- A line of the log makes no null pointer be read. -/
def ReadableLine (libs : Libs) (text : CStr) : Prop :=
  text ≠ [] → ∀ jsonEvent, libs.parse text = some jsonEvent → NoNullText libs.toText jsonEvent

theorem lineEvent_isSome_iff {libs : Libs} (now : ℤ) {text : CStr} :
    (lineEvent libs now text).isSome = true ↔ ReadableLine libs text := by
  rw [lineEvent, ReadableLine]
  split
  · rename_i hempty
    exact iff_of_true rfl fun h => absurd hempty h
  · rename_i hempty
    cases hparse : libs.parse text with
    | none => exact iff_of_true rfl fun _ => nofun
    | some jsonEvent =>
      rw [Option.isSome_map, Option.isSome_iff_exists]
      constructor
      · rintro ⟨event, hevent⟩ - _ ⟨⟩
        exact (tetragonParseEvent_eq_some.1 hevent).1
      · intro h
        exact ⟨_, tetragonParseEvent_eq_some.2 ⟨h hempty _ rfl, rfl⟩⟩

/-- **When the monitor gets to the end of a log**: when every line is readable. -/
theorem processLines_isSome_iff {libs : Libs} {lines : List LogLine} {st : Tetragon} :
    (processLines libs lines st).isSome = true ↔ ∀ l ∈ lines, ReadableLine libs l.text := by
  induction lines generalizing st with
  | nil => exact iff_of_true rfl nofun
  | cons l lines ih =>
    rw [processLines, List.foldlM_cons, List.forall_mem_cons,
      ← lineEvent_isSome_iff l.answers.now, tetragonProcessJsonLine]
    cases lineEvent libs l.answers.now l.text with
    | none => exact iff_of_false Bool.false_ne_true fun h => Bool.false_ne_true h.1
    | some event =>
      rw [Option.isSome_some, eq_self, true_and]
      cases event with
      | none => exact ih
      | some event => exact ih

end Cyrenus
