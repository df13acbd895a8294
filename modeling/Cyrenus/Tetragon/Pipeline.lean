import Cyrenus.Tetragon.Monitor
import Cyrenus.Tetragon.ParseSafety
import Cyrenus.Tetragon.Stats

/-!
# From the log to the table and the clients

The monitor thread hands every line that it reads to `tetragon_process_json_line` at once
(`processNewLines`). What it reads does not depend on what comes of it, so a run is the processing
of the strings passed (`monitorRun_eq`). `logPipeline` says what a log that is written in whole
lines comes to: the rows of the table, the messages to the clients and the counters are those of its
lines, in their order, wherever one write ends and the next one begins.
-/

namespace Cyrenus

open Lines (pieces content complete)

/-! ## The thread -/

/-- What becomes of the lines: the state, the number of lines so far, and the messages broadcast. -/
structure LineProgress where
  tetragon : Tetragon
  lines : ℕ
  sent : List CStr

/-- Nothing has been read yet. -/
def LineProgress.initial : LineProgress := ⟨.initial, 0, []⟩

/-- The thread: the log as it is open, and what became of its lines. -/
structure MonitorThread where
  fp : LogFile
  progress : LineProgress

section

variable (libs : Libs) (answers : ℕ → LineAnswers)

/-- Process a line, under the answers that are given for its number. -/
def LineProgress.handle (p : LineProgress) (line : CStr) : Option LineProgress :=
  (tetragonProcessJsonLine libs (answers p.lines) line p.tetragon).map fun r =>
    ⟨r.2, p.lines + 1, p.sent ++ r.1.toList⟩

/-- The inner loop of `tetragon_event_monitor_thread`; none when a null pointer is read. -/
def processNewLines (m : MonitorThread) : Option MonitorThread :=
  match h : m.fp.fgets LINE_SIZE with
  | none => some m
  | some (line, fp') =>
    have := LogFile.unread_lt_of_fgets h
    match m.progress.handle libs answers (cutNewline line) with
    | none => none
    | some progress => processNewLines ⟨fp', progress⟩
termination_by m.fp.unread.length

/-- The thread, while another program appends to the log. -/
def monitorRun (appends : List CStr) (m : MonitorThread) : Option MonitorThread :=
  appends.foldlM (fun m s => processNewLines libs answers { m with fp := m.fp.append s }) m

variable {libs answers}

/-- The loop processes what it reads, and reads to the end. -/
theorem processNewLines_eq (fp : LogFile) (p : LineProgress) :
    processNewLines libs answers ⟨fp, p⟩ =
      ((readNewLines fp).1.foldlM (LineProgress.handle libs answers) p).map
        (⟨(readNewLines fp).2, ·⟩) := by
  rw [processNewLines]
  by_cases hnil : fp.unread = []
  · rw [readNewLines_of_unread_nil hnil]
    split
    · rfl
    · next heq => rw [LogFile.fgets_of_unread_nil hnil] at heq; cases heq
  · have hfgets := LogFile.fgets_of_unread_ne_nil hnil LINE_SIZE
    have hlt := LogFile.unread_lt_of_fgets hfgets
    rw [readNewLines_of_unread_ne_nil hnil, List.foldlM_cons]
    split
    · next heq => rw [hfgets] at heq; cases heq
    · next heq =>
      rw [hfgets] at heq
      cases heq
      cases hhandle : p.handle libs answers (cutNewline (fp.nextLine LINE_SIZE)) with
      | none => rfl
      | some p' =>
        rw [Option.bind_eq_bind, Option.bind_some]
        exact processNewLines_eq (fp.advance LINE_SIZE) p'
termination_by fp.unread.length
decreasing_by exact hlt

/-- **A run of the thread** is the processing of the strings passed. -/
theorem monitorRun_eq (appends : List CStr) (fp : LogFile) (p : LineProgress) :
    monitorRun libs answers appends ⟨fp, p⟩ =
      (((Trace.trace monitorStep fp appends).flatMap Prod.snd).foldlM
        (LineProgress.handle libs answers) p).map (⟨Trace.final monitorStep fp appends, ·⟩) := by
  induction appends generalizing fp p with
  | nil => rfl
  | cons s appends ih =>
    rw [monitorRun, List.foldlM_cons, processNewLines_eq, Trace.trace_cons, List.flatMap_cons,
      List.foldlM_append]
    dsimp only [monitorStep]
    cases (readNewLines (fp.append s)).1.foldlM (LineProgress.handle libs answers) p with
    | none => rfl
    | some p' => exact ih _ p'

end

/-! ## What becomes of the lines -/

/-- An event that was found in a line, with the answers that it is processed under. -/
abbrev LogEntry := LineAnswers × SecurityEvent

/-- The entry of a line. -/
def logEntry (libs : Libs) (answers : ℕ → LineAnswers) (i : ℕ) (line : CStr) : Option LogEntry :=
  ((lineEvent libs (answers i).now line).join).map (answers i, ·)

/-- The entries of some lines, in their order. -/
def logEntries (libs : Libs) (answers : ℕ → LineAnswers) (lines : List CStr) : List LogEntry :=
  lines.zipIdx.filterMap fun line => logEntry libs answers line.2 line.1

/-- What the clients are told of an event. -/
def SecurityEvent.announcement (event : SecurityEvent) : CStr :=
  if SEVERITY_WARNING ≤ event.severity then alertJson event
  else "\x7b\"type\":\"security_update\"\x7d".toList

/-- The row of an entry under a number. -/
def LogEntry.row (entry : LogEntry) (id : ℤ) : SecurityEventRow :=
  (storedArgs entry.1.srcLast entry.2).row id entry.1.createdAt

/-- The rows of some entries: those that the database inserts, numbered from one on. -/
def logRows (entries : List LogEntry) : List SecurityEventRow :=
  (entries.filter (·.1.insertOk)).mapIdx fun i entry => entry.row (i + 1)

/-- The counters of some entries. -/
def logStats (entries : List LogEntry) : TetragonStats where
  totalEvents := BitVec.ofNat 64 entries.length
  processExecEvents :=
    BitVec.ofNat 64 (entries.countP fun entry => entry.2.eventType = EVENT_TYPE_PROCESS_EXEC)
  alertsGenerated :=
    BitVec.ofNat 64 (entries.countP fun entry => SEVERITY_WARNING ≤ entry.2.severity)
  eventsBlocked := BitVec.ofNat 64 (entries.countP fun entry => entry.2.isCounted)

/-- Every entry has been announced, stored and counted, once and in its turn. -/
structure Logged (entries : List LogEntry) (p : LineProgress) : Prop where
  sent : p.sent = entries.map fun entry => entry.2.announcement
  rows : p.tetragon.events.rows = logRows entries
  lastId : p.tetragon.events.lastId = (entries.filter (·.1.insertOk)).length
  stats : p.tetragon.stats = logStats entries

/-- One more of what is counted. -/
theorem ofNat_countP_concat {α : Type} (f : α → Bool) (l : List α) (a : α) :
    BitVec.ofNat 64 ((l ++ [a]).countP f) =
      BitVec.ofNat 64 (l.countP f) + if f a then 1 else 0 := by
  rw [List.countP_append, List.countP_singleton, BitVec.ofNat_add]
  split <;> rfl

/-- What an event does to the counters. -/
theorem processEvent_logStats {entries : List LogEntry} {st : Tetragon}
    (h : st.stats = logStats entries) (entry : LogEntry) :
    (processEvent entry.1 entry.2 st).2.stats = logStats (entries ++ [entry]) := by
  have hlength : BitVec.ofNat 64 (entries ++ [entry]).length =
      BitVec.ofNat 64 entries.length + 1 := by
    rw [List.length_append, BitVec.ofNat_add]
    rfl
  simp only [logStats, hlength, ofNat_countP_concat, processEvent, tetragonGenerateAlert, h,
    SecurityEvent.isCounted]
  by_cases halert : SEVERITY_WARNING ≤ entry.2.severity
  · have hnot : ¬ entry.2.severity < SEVERITY_WARNING := BitVec.not_lt.2 halert
    by_cases hblock : IsBlocking entry.2.action
    · by_cases hexec : entry.2.eventType = EVENT_TYPE_PROCESS_EXEC <;>
        simp [halert, hnot, hblock, hexec]
    · by_cases hexec : entry.2.eventType = EVENT_TYPE_PROCESS_EXEC <;>
        simp [halert, hnot, hblock, hexec]
  · by_cases hexec : entry.2.eventType = EVENT_TYPE_PROCESS_EXEC <;> simp [halert, hexec]

/-- **One more entry** is announced, stored and counted. -/
theorem Logged.concat {entries : List LogEntry} {p : LineProgress} (h : Logged entries p)
    (entry : LogEntry) :
    let r := processEvent entry.1 entry.2 p.tetragon
    Logged (entries ++ [entry]) ⟨r.2, p.lines + 1, p.sent ++ r.1.toList⟩ := by
  intro r
  constructor
  case stats => exact processEvent_logStats h.stats entry
  case sent =>
    have hannounced : r.1.toList = [entry.2.announcement] := by
      simp only [r, processEvent, tetragonGenerateAlert, SecurityEvent.announcement]
      by_cases halert : SEVERITY_WARNING ≤ entry.2.severity
      · simp [halert, BitVec.not_lt.2 halert]
      · simp [halert]
    rw [List.map_append, ← h.sent, hannounced, List.map_singleton]
  all_goals
    have hstored : r.2.events = tetragonStoreEvent entry.1 entry.2 p.tetragon.events := rfl
    rw [hstored, tetragonStoreEvent, dbInsertSecurityEvent]
    cases hinsert : entry.1.insertOk with
    | false => simp [logRows, hinsert, h.rows, h.lastId]
    | true => simp [logRows, LogEntry.row, hinsert, h.rows, h.lastId]

section

variable {libs : Libs} {answers : ℕ → LineAnswers}

/-- The entries of one more line. -/
theorem logEntries_concat (lines : List CStr) (line : CStr) :
    logEntries libs answers (lines ++ [line]) =
      logEntries libs answers lines ++ (logEntry libs answers lines.length line).toList := by
  rw [logEntries, List.zipIdx_append, List.filterMap_append, ← logEntries, Nat.zero_add,
    List.zipIdx_singleton, List.filterMap_cons]
  cases logEntry libs answers lines.length line <;> rfl

/-- **What becomes of readable lines.** -/
theorem handle_lines {lines : List CStr} (hread : ∀ line ∈ lines, ReadableLine libs line) :
    ∃ p, lines.foldlM (LineProgress.handle libs answers) .initial = some p ∧
      p.lines = lines.length ∧ Logged (logEntries libs answers lines) p := by
  induction lines using List.reverseRecOn with
  | nil => exact ⟨.initial, rfl, rfl, ⟨rfl, rfl, rfl, rfl⟩⟩
  | append_singleton lines line ih =>
    obtain ⟨p, hp, hlines, hlogged⟩ := ih fun l hl => hread l (List.mem_append_left _ hl)
    have hline := hread line (List.mem_append_right _ (List.mem_singleton.2 rfl))
    obtain ⟨event?, hevent⟩ := Option.isSome_iff_exists.1
      ((lineEvent_isSome_iff (answers p.lines).now).2 hline)
    rw [List.foldlM_append, hp, logEntries_concat, ← hlines]
    have hhandle : [line].foldlM (LineProgress.handle libs answers) p =
        p.handle libs answers line := by simp
    rw [Option.bind_eq_bind, Option.bind_some, hhandle, LineProgress.handle,
      tetragonProcessJsonLine, logEntry, hevent, List.length_append, ← hlines]
    cases event? with
    | none =>
      refine ⟨_, rfl, rfl, ?_⟩
      obtain ⟨hsent, hrows, hlastId, hstats⟩ := hlogged
      constructor
      · simpa using hsent
      all_goals simpa
    | some event => exact ⟨_, rfl, rfl, hlogged.concat (answers p.lines, event)⟩

end

/-- **From the log to the table and the clients.** Let a log be appended to in any number of writes,
each of whole lines that fit the buffer, and let no line hold a zero byte or make a null pointer be
read. Then whatever the writes are, every line whose event is found is announced to the clients,
stored in the table unless the database refuses it, and counted, once and in the order of the
lines. -/
theorem logPipeline (libs : Libs) (answers : ℕ → LineAnswers) (old : CStr) (appends : List CStr)
    (hnul : ∀ s ∈ appends, NUL ∉ s) (hwhole : ∀ s ∈ appends, s = [] ∨ s.getLast? = some '\n')
    (hfits : ∀ line ∈ complete '\n' appends.flatten, line.length + 2 ≤ LINE_SIZE)
    (hread : ∀ line ∈ complete '\n' appends.flatten, ReadableLine libs line) :
    ∃ m, monitorRun libs answers appends ⟨.openAtEnd old, .initial⟩ = some m ∧
      m.progress.lines = appends.flatten.count '\n' ∧
      Logged (logEntries libs answers (complete '\n' appends.flatten)) m.progress := by
  have hlines : passed old appends = complete '\n' appends.flatten := by
    rw [passed_eq_map_content old hnul, Lines.map_content_pieces_iff 8190 appends]
    exact ⟨hwhole, fun line hline => Nat.add_le_add_iff_right.1 (hfits line hline)⟩
  obtain ⟨p, hp, hcount, hlogged⟩ := @handle_lines libs answers _ hread
  rw [Lines.length_complete] at hcount
  refine ⟨⟨Trace.final monitorStep (.openAtEnd old) appends, p⟩, ?_, hcount, hlogged⟩
  rw [monitorRun_eq, show (Trace.trace monitorStep _ appends).flatMap Prod.snd = _ from hlines, hp,
    Option.map_some]

theorem logPipeline_kill :
    let appends := [killLine.text ++ ['\n'], [], killLine.text ++ ['\n']]
    ∃ m, monitorRun killLibs (fun _ => killLine.answers) appends ⟨.openAtEnd [], .initial⟩ =
        some m ∧
      m.progress.lines = appends.flatten.count '\n' ∧
      Logged (logEntries killLibs (fun _ => killLine.answers) (complete '\n' appends.flatten))
        m.progress := by
  intro appends
  have hcomplete : complete '\n' appends.flatten = [killLine.text, killLine.text] := by
    decide +kernel
  have hread : ReadableLine killLibs killLine.text := (lineEvent_isSome_iff 0).1 rfl
  refine logPipeline killLibs (fun _ => killLine.answers) [] appends (by decide +kernel)
    (by decide +kernel) ?_ ?_
  · rw [hcomplete]
    decide +kernel
  · rw [hcomplete]
    simp [hread]

end Cyrenus
