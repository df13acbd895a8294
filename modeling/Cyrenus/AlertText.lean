import Cyrenus.Lib.JsonText
import Cyrenus.WebSocket

/-!
# The text of an alert

`tetragon_generate_alert` writes an alert with `snprintf`, so the action of the event stands between
quotes as it is, and it knows the names of two severities. What is broadcast is never cut off, since
an action has 31 bytes at the most. `tellsAlert_iff` says which events a client can read from it:
the ones whose severity has one of the two names and whose action a JSON text may hold as it is.
-/

namespace Cyrenus

open CStr (strncpy)
open JsonText (IsPlain IsDecimal Value)

/-! ## What an alert should say -/

def SEVERITY_ERROR : U8 := 3

/-- The name of a severity. -/
def severityName (severity : U8) : Option CStr :=
  if severity = SEVERITY_INFO then some "INFO".toList
  else if severity = SEVERITY_WARNING then some "WARNING".toList
  else if severity = SEVERITY_ERROR then some "ERROR".toList
  else if severity = SEVERITY_CRITICAL then some "CRITICAL".toList
  else none

/-- A text is an alert that tells of an event. -/
def TellsAlert (event : SecurityEvent) (text : CStr) : Prop :=
  ∃ alert, JsonText.parse text = some alert ∧
    alert.get? "type".toList = some (.string "security_alert".toList) ∧
    (∃ name, severityName event.severity = some name ∧
      alert.get? "severity".toList = some (.string name)) ∧
    (alert.get? "pid".toList).bind Value.nat? = some event.pid.toNat ∧
    alert.get? "action".toList = some (.string event.action)

/-- What `ws_broadcast_message` puts into its buffer for the alert of an event. -/
def broadcastAlert (event : SecurityEvent) (stats : TetragonStats) (srv : WsServer) : Option CStr :=
  (tetragonGenerateAlert event stats).1.map fun json => (wsBroadcastMessage json srv).broadcastMsg

/-- A text that a JSON string may hold as it is. -/
def IsVerbatim (s : CStr) : Prop := Utf8.isUtf8 s = true ∧ ∀ c ∈ s, IsPlain c

/-! ## The whole text -/

/-- A number is written in decimal without zeros before it. -/
theorem decimal_eq_cons {n : ℕ} (hn : 0 < n) : ∃ c rest, decimal n = c :: rest ∧ c ≠ '0' := by
  induction n using Nat.strongRecOn with
  | ind n ih =>
    rcases Nat.lt_or_ge n 10 with hlt | hle
    · have hdigit : ∀ n < 10, 0 < n → Nat.digitChar n ≠ '0' := by decide
      exact ⟨_, _, Nat.toDigits_of_lt_base hlt, hdigit n hlt hn⟩
    · obtain ⟨c, rest, heq, hc⟩ := ih (n / 10) (by omega) (by omega)
      refine ⟨c, rest ++ [Nat.digitChar (n % 10)], ?_, hc⟩
      rw [decimal, Nat.toDigits_of_base_le (by decide) hle, ← List.cons_append, ← heq, decimal]

theorem isDecimal_decimal (n : ℕ) : IsDecimal (decimal n) := by
  rcases Nat.eq_zero_or_pos n with rfl | hn
  · exact .inl rfl
  · obtain ⟨c, rest, heq, hc⟩ := decimal_eq_cons hn
    exact .inr ⟨c, rest, heq, hc, (isNumeral_decimal n).isDigit⟩

/-- What is written in decimal is read as the number it is. -/
theorem nat?_decimal (n : ℕ) : (Value.number (decimal n)).nat? = some n := by
  have hall : (decimal n).all Char.isDigit = true :=
    List.all_eq_true.2 (isNumeral_decimal n).isDigit
  rw [Value.nat?, if_pos hall, digits_decimal]

/-- The name that is written. -/
def printedSeverity (severity : U8) : CStr :=
  if severity = SEVERITY_CRITICAL then "CRITICAL".toList else "WARNING".toList

/-- What stands before the action. -/
def alertHead (severity : U8) (pid : U32) : CStr :=
  "\x7b\"type\":\"security_alert\",\"severity\":\"".toList ++ printedSeverity severity ++
    "\",\"pid\":".toList ++ decimal pid.toNat ++ ",\"action\":\"".toList

/-- What stands before the action has 74 bytes at the most. -/
theorem length_alertHead_le (severity : U8) (pid : U32) : (alertHead severity pid).length ≤ 74 := by
  have hname : (printedSeverity severity).length ≤ 8 := by
    rw [printedSeverity]
    split <;> decide
  have hpid : (decimal pid.toNat).length ≤ 10 := by
    have hlt : pid.toNat < 10 ^ 10 := by omega
    exact (Nat.length_toDigits_le_iff (by decide) (by decide)).2 hlt
  have hstart : "\x7b\"type\":\"security_alert\",\"severity\":\"".toList.length ≤ 37 := by decide
  have hmiddle : "\",\"pid\":".toList.length ≤ 8 := by decide
  have hend : ",\"action\":\"".toList.length ≤ 11 := by decide
  have hsum := Nat.add_le_add (Nat.add_le_add (Nat.add_le_add (Nat.add_le_add hstart hname) hmiddle)
    hpid) hend
  simp only [← List.length_append] at hsum
  exact hsum

/-- **Nothing is cut off.** -/
theorem broadcastAlert_eq {event : SecurityEvent} (hsev : SEVERITY_WARNING ≤ event.severity)
    (hlen : event.action.length ≤ 31) (stats : TetragonStats) (srv : WsServer) :
    broadcastAlert event stats srv =
      some (alertHead event.severity event.pid ++ (event.action ++ ['"', '\x7d'])) := by
  have hhead := length_alertHead_le event.severity event.pid
  have hall :
      (alertHead event.severity event.pid ++ (event.action ++ ['"', '\x7d'])).length ≤ 107 := by
    rw [List.length_append, List.length_append]
    exact Nat.add_le_add hhead (Nat.add_le_add_right hlen 2)
  have hjson : alertJson event =
      alertHead event.severity event.pid ++ (event.action ++ ['"', '\x7d']) := by
    have hsuffix : "\"\x7d".toList = ['"', '\x7d'] := rfl
    rw [alertJson, strncpy, hsuffix, List.append_assoc _ event.action]
    exact List.take_of_length_le (Nat.le_trans hall (by decide))
  rw [broadcastAlert, tetragonGenerateAlert, if_neg (BitVec.not_lt.2 hsev), Option.map_some, hjson,
    wsBroadcastMessage]
  exact congrArg some (List.take_of_length_le (Nat.le_trans hall (by decide)))

/-! ## What is read from it -/

/-- The members before the action. -/
def headMembers (severity : U8) (pid : U32) : List (CStr × Value) :=
  [("type".toList, .string "security_alert".toList),
    ("severity".toList, .string (printedSeverity severity)),
    ("pid".toList, .number (decimal pid.toNat))]

/-- What stands before the number. -/
theorem run_alertStart (severity : U8) :
    JsonText.run .initial
        ("\x7b\"type\":\"security_alert\",\"severity\":\"".toList ++ printedSeverity severity ++
          "\",\"pid\":".toList) =
      some ⟨[.object [("type".toList, .string "security_alert".toList),
        ("severity".toList, .string (printedSeverity severity))] (some "pid".toList)],
        .value false⟩ := by
  unfold printedSeverity
  split <;> rfl

/-- What stands behind the number. -/
theorem run_alertEnd (done : List (CStr × Value)) (pid : CStr) :
    ((JsonText.put (.number pid) [.object done (some "pid".toList)]).bind
        (JsonText.stepEnd ',')).bind (fun st => JsonText.run st "\"action\":\"".toList) =
      some ⟨[.object (done ++ [("pid".toList, .number pid)]) (some "action".toList)],
        .text .empty⟩ :=
  rfl

/-- What stands before the action opens the string that it is put into. -/
theorem run_alertHead (severity : U8) (pid : U32) :
    JsonText.run .initial (alertHead severity pid) =
      some ⟨[.object (headMembers severity pid) (some "action".toList)], .text .empty⟩ := by
  have hcomma : ",\"action\":\"".toList = [','] ++ "\"action\":\"".toList := rfl
  unfold alertHead
  rw [hcomma, List.append_assoc, ← List.append_assoc (decimal _), JsonText.run_append,
    run_alertStart, Option.bind_some, JsonText.run_append,
    JsonText.run_decimal (isDecimal_decimal _), run_alertEnd]
  rfl

/-- The strings before the action stand for themselves. -/
theorem isPlain_headMembers (severity : U8) (pid : U32) :
    ∀ m ∈ headMembers severity pid, ∀ t, m.2 = .string t → ∀ c ∈ t, IsPlain c := by
  intro m hm t ht
  simp only [headMembers, List.mem_cons, List.not_mem_nil, or_false] at hm
  rcases hm with rfl | rfl | rfl
  · cases ht
    exact JsonText.isPlain_of_all (by decide)
  · cases ht
    unfold printedSeverity
    split <;> exact JsonText.isPlain_of_all (by decide)
  · cases ht

/-- What stands before the action is bytes that are characters. -/
theorem isAscii_alertHead (severity : U8) (pid : U32) :
    ∀ c ∈ alertHead severity pid, Utf8.IsAscii c := by
  have happend : ∀ {s t : CStr}, (∀ c ∈ s, Utf8.IsAscii c) → (∀ c ∈ t, Utf8.IsAscii c) →
      ∀ c ∈ s ++ t, Utf8.IsAscii c := by
    intro s t hs ht c hc
    rcases List.mem_append.1 hc with hc | hc
    · exact hs c hc
    · exact ht c hc
  have hname : ∀ c ∈ printedSeverity severity, Utf8.IsAscii c := by
    unfold printedSeverity
    split <;> exact Utf8.isAscii_of_all (by decide)
  have hpid : ∀ c ∈ decimal pid.toNat, Utf8.IsAscii c := by
    intro c hc
    have hdigit := (isNumeral_decimal pid.toNat).isDigit c hc
    simp only [Char.isDigit, Bool.and_eq_true, decide_eq_true_eq, UInt32.le_iff_toNat_le] at hdigit
    exact Nat.lt_of_le_of_lt hdigit.2 (by decide)
  exact happend (happend (happend (happend (Utf8.isAscii_of_all (by decide)) hname)
    (Utf8.isAscii_of_all (by decide))) hpid) (Utf8.isAscii_of_all (by decide))

/-- What a client reads from an alert whose action is plain. -/
theorem scan_alert {event : SecurityEvent} (hplain : ∀ c ∈ event.action, IsPlain c) :
    JsonText.scan (alertHead event.severity event.pid ++ (event.action ++ ['"', '\x7d'])) =
      some (.object (headMembers event.severity event.pid ++
        [("action".toList, .string event.action)])) := by
  rw [JsonText.scan, JsonText.run_append, run_alertHead, Option.bind_some,
    JsonText.run_spliced hplain]

/-- **What is broadcast is in UTF-8** exactly when the action is. -/
theorem parse_alert (event : SecurityEvent) :
    JsonText.parse (alertHead event.severity event.pid ++ (event.action ++ ['"', '\x7d'])) =
      if Utf8.isUtf8 event.action then
        JsonText.scan (alertHead event.severity event.pid ++ (event.action ++ ['"', '\x7d']))
      else none := by
  rw [JsonText.parse, Utf8.isUtf8_append_left (isAscii_alertHead _ _),
    Utf8.isUtf8_append_right (Utf8.isAscii_of_all (by decide))]

/-- The name that is written is that of the severity for two severities. -/
theorem severityName_eq_printed (severity : U8) :
    severityName severity = some (printedSeverity severity) ↔
      severity = SEVERITY_WARNING ∨ severity = SEVERITY_CRITICAL := by
  constructor
  · intro h
    by_contra hnot
    rw [not_or] at hnot
    rw [severityName, printedSeverity, if_neg hnot.1, if_neg hnot.2, if_neg hnot.2] at h
    split at h
    · exact absurd (Option.some.inj h) (by decide)
    · split at h
      · exact absurd (Option.some.inj h) (by decide)
      · cases h
  · rintro (rfl | rfl) <;> rfl

/-- What can be read from an alert says that its action stands for itself. -/
theorem isVerbatim_of_tellsAlert {event : SecurityEvent}
    (h : TellsAlert event
      (alertHead event.severity event.pid ++ (event.action ++ ['"', '\x7d']))) :
    (event.severity = SEVERITY_WARNING ∨ event.severity = SEVERITY_CRITICAL) ∧
      IsVerbatim event.action := by
  obtain ⟨alert, hparse, -, ⟨name, hname, hseverity⟩, -, haction⟩ := h
  rw [parse_alert] at hparse
  split at hparse
  · rename_i hutf8
    have hrun := hparse
    rw [JsonText.scan, JsonText.run_append, run_alertHead, Option.bind_some] at hrun
    have hplain : ∀ c ∈ event.action, IsPlain c :=
      JsonText.isPlain_of_run_spliced (isPlain_headMembers event.severity event.pid) hrun haction
    -- Now the members are known, and one of them is the name that is written.
    rw [scan_alert hplain] at hparse
    cases hparse
    cases hseverity
    exact ⟨(severityName_eq_printed event.severity).1 hname, hutf8, hplain⟩
  · cases hparse

/-- What can be read from an alert whose action stands for itself. -/
theorem tellsAlert_of_isVerbatim {event : SecurityEvent}
    (hnamed : event.severity = SEVERITY_WARNING ∨ event.severity = SEVERITY_CRITICAL)
    (haction : IsVerbatim event.action) :
    TellsAlert event (alertHead event.severity event.pid ++ (event.action ++ ['"', '\x7d'])) := by
  have hparse := (parse_alert event).trans ((if_pos haction.1).trans (scan_alert haction.2))
  exact ⟨_, hparse, rfl, ⟨_, (severityName_eq_printed event.severity).2 hnamed, rfl⟩,
    nat?_decimal _, rfl⟩

/-- **A client can read an alert** exactly when the severity of the event is one whose name is
written and its action stands for itself in a JSON text. -/
theorem tellsAlert_iff {event : SecurityEvent} (hsev : SEVERITY_WARNING ≤ event.severity)
    (hlen : event.action.length ≤ 31) (stats : TetragonStats) (srv : WsServer) :
    (∃ text, broadcastAlert event stats srv = some text ∧ TellsAlert event text) ↔
      (event.severity = SEVERITY_WARNING ∨ event.severity = SEVERITY_CRITICAL) ∧
        IsVerbatim event.action := by
  rw [broadcastAlert_eq hsev hlen]
  constructor
  · rintro ⟨text, htext, h⟩
    cases htext
    exact isVerbatim_of_tellsAlert h
  · rintro ⟨hnamed, haction⟩
    exact ⟨_, rfl, tellsAlert_of_isVerbatim hnamed haction⟩

/-- An event of a process. -/
def actionEvent (severity : U8) (action : CStr) : SecurityEvent :=
  { SecurityEvent.zero with severity := severity, pid := 4711, action := action }

/-- The alert of a process that is killed can be read. -/
theorem tellsAlert_sigkill :
    ∃ text, broadcastAlert (actionEvent SEVERITY_CRITICAL "Sigkill".toList) ⟨0, 0, 0, 0⟩ .initial =
      some text ∧ TellsAlert (actionEvent SEVERITY_CRITICAL "Sigkill".toList) text :=
  (tellsAlert_iff (by decide) (by decide) ⟨0, 0, 0, 0⟩ .initial).2
    ⟨.inr rfl, Utf8.isUtf8_of_ascii (Utf8.isAscii_of_all (by decide)),
      JsonText.isPlain_of_all (by decide)⟩

/-- The alert of an action that ends with a backslash cannot be read. -/
theorem not_tellsAlert_backslash :
    ¬∀ event : SecurityEvent, SEVERITY_WARNING ≤ event.severity → event.action.length ≤ 31 →
      ∃ text, broadcastAlert event ⟨0, 0, 0, 0⟩ .initial = some text ∧ TellsAlert event text := by
  intro h
  obtain ⟨text, htext, htells⟩ :=
    h (actionEvent SEVERITY_WARNING "block\\".toList) (by decide) (by decide)
  rw [broadcastAlert_eq (by decide) (by decide)] at htext
  cases htext
  exact ((isVerbatim_of_tellsAlert htells).2.2 '\\' (by decide)).2.1 rfl

end Cyrenus
