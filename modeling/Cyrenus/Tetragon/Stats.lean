import Cyrenus.Database
import Cyrenus.Tetragon.Events
import Mathlib.Data.List.Induction
import Mathlib.Data.List.Infix

/-!
# Two counts of the events

The daemon counts events and blocked events while it processes the lines of the log, and
`database_get_security_stats` counts them again in the table. `processLines_counts` says what both
come to after any run, and `statsAgree_iff` when they are the same: the daemon counts a blocked
event only when its message makes it an alert, and the query answers with an `int`.
-/

namespace Cyrenus

/-! ## The query -/

/-- What `database_get_security_stats` returns. -/
structure SecurityStats where
  totalEvents : ℤ
  criticalAlerts : ℤ
  eventsBlocked : ℤ
  deriving DecidableEq, Repr

/-- The action of a row is one of those that the query counts. -/
def SecurityEventRow.isBlocked (row : SecurityEventRow) : Bool :=
  row.action = some "Sigkill".toList || row.action = some "block".toList

/-- `database_get_security_stats` for a range of times. -/
def databaseGetSecurityStats (fromTime toTime : ℤ) (t : SecurityEventTable) : SecurityStats :=
  let rows := t.rows.filter fun row => row.timestamp ≥ fromTime && row.timestamp ≤ toTime
  { totalEvents := columnInt rows.length
    criticalAlerts := columnInt (rows.countP fun row => row.severity = 4)
    eventsBlocked := columnInt (rows.countP SecurityEventRow.isBlocked) }

/-! ## Runs -/

/-- A line of the log, with the answers of the surroundings. -/
structure LogLine where
  text : CStr
  answers : LineAnswers

/-- The state after some lines; none when one of them makes a null pointer be read. -/
def processLines (libs : Libs) (lines : List LogLine) (st : Tetragon) : Option Tetragon :=
  lines.foldlM (fun st l => (tetragonProcessJsonLine libs l.answers l.text st).map Prod.snd) st

/-- The events of some lines. -/
def parsedEvents (libs : Libs) (lines : List LogLine) : List SecurityEvent :=
  lines.filterMap fun l => (lineEvent libs l.answers.now l.text).join

/-- An event that the daemon counts as blocked. -/
def SecurityEvent.isCounted (event : SecurityEvent) : Bool :=
  SEVERITY_WARNING ≤ event.severity && IsBlocking event.action

/-- An event that the query counts as blocked. -/
def SecurityEvent.isBlocked (event : SecurityEvent) : Bool := IsBlocking event.action

/-- The counters and the table are those of some events. -/
structure Counts (events : List SecurityEvent) (st : Tetragon) : Prop where
  total : st.stats.totalEvents = BitVec.ofNat 64 events.length
  blocked : st.stats.eventsBlocked = BitVec.ofNat 64 (events.countP SecurityEvent.isCounted)
  actions : st.events.rows.map SecurityEventRow.action = events.map fun e => some e.action
  times : ∀ row ∈ st.events.rows, -2 ^ 63 ≤ row.timestamp ∧ row.timestamp ≤ 2 ^ 63 - 1

/-- What an event adds to the counters. -/
theorem processEvent_stats (a : LineAnswers) (event : SecurityEvent) (st : Tetragon) :
    (processEvent a event st).2.stats.totalEvents = st.stats.totalEvents + 1 ∧
      (processEvent a event st).2.stats.eventsBlocked =
        st.stats.eventsBlocked + BitVec.ofNat 64 (if event.isCounted then 1 else 0) := by
  simp only [processEvent, tetragonGenerateAlert, SecurityEvent.isCounted]
  by_cases halert : event.severity ≥ SEVERITY_WARNING
  · by_cases hblock : IsBlocking event.action
    · simp [halert, hblock, BitVec.not_lt.2 halert]
    · simp [halert, hblock, BitVec.not_lt.2 halert]
  · simp [halert]

/-- **What an event does to the counts**: it is added to them. -/
theorem Counts.concat {events : List SecurityEvent} {st : Tetragon} (h : Counts events st)
    {a : LineAnswers} (hinsert : a.insertOk = true) (event : SecurityEvent) :
    Counts (events ++ [event]) (processEvent a event st).2 := by
  obtain ⟨htotal, hblocked⟩ := processEvent_stats a event st
  have hrows : (processEvent a event st).2.events.rows = st.events.rows ++
      [(storedArgs a.srcLast event).row (st.events.lastId + 1) a.createdAt] := by
    simp only [processEvent, tetragonStoreEvent, dbInsertSecurityEvent, hinsert, if_true]
  constructor
  · rw [htotal, h.total, List.length_append, List.length_singleton, BitVec.ofNat_add]
    rfl
  · rw [hblocked, h.blocked, List.countP_append, List.countP_singleton, BitVec.ofNat_add]
  · rw [hrows, List.map_append, List.map_append, h.actions]
    rfl
  · rw [hrows]
    intro row hrow
    rcases List.mem_append.1 hrow with hrow | hrow
    · exact h.times row hrow
    · rw [List.mem_singleton.1 hrow]
      have hlo := BitVec.le_toInt event.timestamp
      have hhi := BitVec.toInt_lt (x := event.timestamp)
      exact ⟨hlo, Int.le_sub_one_of_lt hhi⟩

/-- A run with one more line. -/
theorem processLines_concat (libs : Libs) (lines : List LogLine) (l : LogLine) (st : Tetragon) :
    processLines libs (lines ++ [l]) st = (processLines libs lines st).bind fun st' =>
      (tetragonProcessJsonLine libs l.answers l.text st').map Prod.snd := by
  simp [processLines, List.foldlM_append]

/-- A run that nothing stops is not stopped before its end. -/
theorem processLines_isSome_before {libs : Libs} {pre lines : List LogLine} {st : Tetragon}
    (hpre : pre <+: lines) (hrun : (processLines libs lines st).isSome = true) :
    (processLines libs pre st).isSome = true := by
  obtain ⟨post, rfl⟩ := hpre
  rw [processLines, List.foldlM_append] at hrun
  cases h : processLines libs pre st with
  | none =>
    rw [processLines] at h
    rw [h] at hrun
    cases hrun
  | some st' => rfl

/-- The events with one more line. -/
theorem parsedEvents_concat (libs : Libs) (lines : List LogLine) (l : LogLine) :
    parsedEvents libs (lines ++ [l]) = parsedEvents libs lines ++
      (lineEvent libs l.answers.now l.text).join.toList := by
  simp only [parsedEvents, List.filterMap_append, List.filterMap_cons, List.filterMap_nil]
  cases (lineEvent libs l.answers.now l.text).join <;> rfl

/-- **The counts after a run** in which every row is inserted are those of its events. -/
theorem processLines_counts {libs : Libs} {lines : List LogLine}
    (hinsert : ∀ l ∈ lines, l.answers.insertOk = true) {st : Tetragon}
    (hrun : processLines libs lines .initial = some st) :
    Counts (parsedEvents libs lines) st := by
  induction lines using List.reverseRecOn generalizing st with
  | nil =>
    rw [processLines, List.foldlM_nil, Option.pure_def, Option.some.injEq] at hrun
    subst hrun
    exact ⟨rfl, rfl, rfl, fun _ hrow => absurd hrow List.not_mem_nil⟩
  | append_singleton lines l ih =>
    rw [processLines_concat, Option.bind_eq_some_iff] at hrun
    obtain ⟨st', hst', hlast⟩ := hrun
    have hcounts := ih (fun l hl => hinsert l (List.mem_append_left _ hl)) hst'
    have hl := hinsert l (List.mem_append_right _ (List.mem_singleton.2 rfl))
    rw [tetragonProcessJsonLine] at hlast
    rw [parsedEvents_concat]
    split at hlast
    · cases hlast
    · rename_i hevent
      rw [hevent]
      cases hlast
      simpa using hcounts
    · rename_i event hevent
      rw [hevent]
      cases hlast
      exact hcounts.concat hl event

/-! ## Agreement -/

/-- The counters agree with the table: the number of events with its rows, and the number of
blocked events with what the query over all times answers. -/
structure StatsAgree (st : Tetragon) : Prop where
  total : st.stats.totalEvents.toNat = st.events.rows.length
  blocked : (st.stats.eventsBlocked.toNat : ℤ) =
    (databaseGetSecurityStats (-2 ^ 63) (2 ^ 63 - 1) st.events).eventsBlocked

/-- The counts of some events agree. -/
structure CountsAgree (events : List SecurityEvent) : Prop where
  total : events.length % 2 ^ 64 = events.length
  blocked : ((events.countP SecurityEvent.isCounted % 2 ^ 64 : ℕ) : ℤ) =
    columnInt (events.countP SecurityEvent.isBlocked)

/-- The query over all times counts the blocked events. -/
theorem Counts.eventsBlocked {events : List SecurityEvent} {st : Tetragon}
    (h : Counts events st) :
    (databaseGetSecurityStats (-2 ^ 63) (2 ^ 63 - 1) st.events).eventsBlocked =
      columnInt (events.countP SecurityEvent.isBlocked) := by
  have hall : st.events.rows.filter (fun row =>
      row.timestamp ≥ -2 ^ 63 && row.timestamp ≤ 2 ^ 63 - 1) = st.events.rows := by
    rw [List.filter_eq_self]
    intro row hrow
    obtain ⟨hlo, hhi⟩ := h.times row hrow
    rw [Bool.and_eq_true, decide_eq_true_eq, decide_eq_true_eq]
    exact ⟨hlo, hhi⟩
  have hcount : st.events.rows.countP SecurityEventRow.isBlocked =
      events.countP SecurityEvent.isBlocked := by
    have hmap := congrArg (List.countP fun action : Option CStr =>
      action = some "Sigkill".toList || action = some "block".toList) h.actions
    rw [List.countP_map, List.countP_map] at hmap
    refine hmap.trans (List.countP_congr fun event _ => ?_)
    simp only [Function.comp_apply, Option.some.injEq, Bool.or_eq_true, decide_eq_true_eq,
      SecurityEvent.isBlocked]
    exact Iff.rfl
  rw [databaseGetSecurityStats, hall, hcount]

theorem Counts.agree_iff {events : List SecurityEvent} {st : Tetragon}
    (h : Counts events st) : StatsAgree st ↔ CountsAgree events := by
  have hlen : st.events.rows.length = events.length := by
    rw [← List.length_map, h.actions, List.length_map]
  have htotal : st.stats.totalEvents.toNat = events.length % 2 ^ 64 := by
    rw [h.total, BitVec.toNat_ofNat]
  have hblocked : st.stats.eventsBlocked.toNat =
      events.countP SecurityEvent.isCounted % 2 ^ 64 := by
    rw [h.blocked, BitVec.toNat_ofNat]
  constructor
  · rintro ⟨ht, hb⟩
    rw [htotal, hlen] at ht
    rw [hblocked, h.eventsBlocked] at hb
    exact ⟨ht, hb⟩
  · rintro ⟨ht, hb⟩
    exact ⟨by rw [htotal, hlen, ht], by rw [hblocked, h.eventsBlocked, hb]⟩

/-- The condition for agreement: every event with a blocking action is classified as a warning or
worse, and there are not too many events. -/
structure EventsFit (events : List SecurityEvent) : Prop where
  warned : ∀ event ∈ events, IsBlocking event.action → SEVERITY_WARNING ≤ event.severity
  blocked : events.countP SecurityEvent.isBlocked < 2 ^ 31
  total : events.length < 2 ^ 64

/-- Events that fit are counted alike. -/
theorem EventsFit.countP_eq {events : List SecurityEvent} (h : EventsFit events) :
    events.countP SecurityEvent.isCounted = events.countP SecurityEvent.isBlocked := by
  refine List.countP_congr fun event hevent => ?_
  simp only [SecurityEvent.isCounted, SecurityEvent.isBlocked, Bool.and_eq_true, decide_eq_true_eq]
  exact and_iff_right_of_imp (h.warned event hevent)

/-- A number of rows that fits into an `int` is answered as it is. -/
theorem columnInt_of_lt {n : ℕ} (h : n < 2 ^ 31) : columnInt n = n := by
  rw [columnInt, BitVec.toInt_ofInt, Int.bmod_eq_of_le_mul_two (by omega) (by omega)]

/-- The first number that does not fit is answered as a negative one. -/
theorem columnInt_of_eq {n : ℕ} (h : n = 2 ^ 31) : columnInt n = -2 ^ 31 := by
  subst h
  rfl

/-- The counts of events that fit agree. -/
theorem EventsFit.countsAgree {events : List SecurityEvent} (h : EventsFit events) :
    CountsAgree events where
  total := Nat.mod_eq_of_lt h.total
  blocked := by
    have hblocked := h.blocked
    rw [h.countP_eq, columnInt_of_lt hblocked, Nat.mod_eq_of_lt (by omega)]

/-- **One more event** after events that fit: when the counts agree it fits too. -/
theorem EventsFit.concat {events : List SecurityEvent} (h : EventsFit events)
    {event : SecurityEvent} (hagree : CountsAgree (events ++ [event])) :
    EventsFit (events ++ [event]) := by
  obtain ⟨htotal, hblocked⟩ := hagree
  have hfew := h.blocked
  rw [List.countP_append, List.countP_append, h.countP_eq, List.countP_singleton,
    List.countP_singleton] at hblocked
  have hwarn : IsBlocking event.action → SEVERITY_WARNING ≤ event.severity ∧
      events.countP SecurityEvent.isBlocked + 1 < 2 ^ 31 := by
    intro hblock
    have hb : event.isBlocked = true := decide_eq_true hblock
    rw [if_pos hb] at hblocked
    -- the number after this event is one that the query can answer with
    have hlt : events.countP SecurityEvent.isBlocked + 1 < 2 ^ 31 := by
      by_contra hge
      rw [columnInt_of_eq (by omega)] at hblocked
      omega
    refine ⟨?_, hlt⟩
    by_contra hnot
    have hc : event.isCounted = false := by
      rw [SecurityEvent.isCounted, decide_eq_false hnot, Bool.false_and]
    rw [columnInt_of_lt hlt, hc] at hblocked
    simp only [Bool.false_eq_true, if_false] at hblocked
    omega
  refine ⟨fun e he => ?_, ?_, ?_⟩
  · rcases List.mem_append.1 he with he | he
    · exact h.warned e he
    · rw [List.mem_singleton.1 he]
      exact fun hblock => (hwarn hblock).1
  · rw [List.countP_append, List.countP_singleton]
    split
    · rename_i hb
      exact (hwarn (of_decide_eq_true hb)).2
    · exact hfew
  · rw [← htotal]
    exact Nat.mod_lt _ (by decide)

/-- Events that fit do so without the last one. -/
theorem EventsFit.of_concat {events : List SecurityEvent} {event : SecurityEvent}
    (h : EventsFit (events ++ [event])) : EventsFit events where
  warned := fun e he => h.warned e (List.mem_append_left _ he)
  blocked := by
    have := h.blocked
    rw [List.countP_append] at this
    omega
  total := by
    have := h.total
    rw [List.length_append] at this
    omega

/-- **Agreement along a run**: the counts agree after every part of it if and only if its events
fit. -/
theorem countsAgree_prefixes_iff (libs : Libs) (lines : List LogLine) :
    (∀ pre, pre <+: lines → CountsAgree (parsedEvents libs pre)) ↔
      EventsFit (parsedEvents libs lines) := by
  induction lines using List.reverseRecOn with
  | nil =>
    refine ⟨fun _ => ⟨nofun, Nat.two_pow_pos 31, Nat.two_pow_pos 64⟩, fun h pre hpre => ?_⟩
    rw [List.prefix_nil.1 hpre]
    exact h.countsAgree
  | append_singleton lines l ih =>
    simp only [List.prefix_concat_iff, forall_eq_or_imp, ih, parsedEvents_concat]
    cases (lineEvent libs l.answers.now l.text).join with
    | none =>
      simp only [Option.toList_none, List.append_nil]
      exact ⟨fun h => h.2, fun h => ⟨h.countsAgree, h⟩⟩
    | some event =>
      exact ⟨fun h => h.2.concat h.1, fun h => ⟨h.countsAgree, h.of_concat⟩⟩

/-- **When the two counts agree**: in every state of a run from the start in which every row is
inserted, if and only if each event with a blocking action is classified as a warning or worse, and
there are fewer than 2 ^ 31 of these events and 2 ^ 64 of all. -/
theorem statsAgree_iff (libs : Libs) (lines : List LogLine)
    (hinsert : ∀ l ∈ lines, l.answers.insertOk = true)
    (hrun : (processLines libs lines .initial).isSome = true) :
    (∀ pre, pre <+: lines → ∀ st, processLines libs pre .initial = some st → StatsAgree st) ↔
      EventsFit (parsedEvents libs lines) := by
  rw [← countsAgree_prefixes_iff]
  refine forall₂_congr fun pre hpre => ?_
  have hpreInsert : ∀ l ∈ pre, l.answers.insertOk = true := fun l hl =>
    hinsert l (hpre.subset hl)
  obtain ⟨st, hst⟩ := Option.isSome_iff_exists.1 (processLines_isSome_before hpre hrun)
  have hcounts := processLines_counts hpreInsert hst
  constructor
  · exact fun h => hcounts.agree_iff.1 (h st hst)
  · rintro h st' hst'
    cases hst.symm.trans hst'
    exact hcounts.agree_iff.2 h

/-- A line of the log: a process was killed, for which the policy has a message of its own. -/
def killLine : LogLine where
  text := "\x7b\"process_kprobe\":\x7b\"message\":\"exec denied\",".toList ++
    "\"action\":\"Sigkill\"\x7d\x7d".toList
  answers := ⟨1700000000, true, 1700000000, true⟩

/-- What json-c parses it to. -/
def killLibs : Libs where
  parse := fun text =>
    if text = killLine.text then
      some (.object [("process_kprobe".toList, .object
        [("message".toList, .string "exec denied".toList),
          ("action".toList, .string "Sigkill".toList)])])
    else none
  toText := fun _ => []
  sha256 := fun _ => []

/-- An event that was blocked without an alert is counted in the table only. -/
theorem statsAgree_fails :
    ¬ ∀ (libs : Libs) (lines : List LogLine), (∀ l ∈ lines, l.answers.insertOk = true) →
      ∀ st, processLines libs lines .initial = some st → StatsAgree st := by
  intro h
  have hagree := h killLibs [killLine] (fun _ hl => by rw [List.mem_singleton.1 hl]; rfl) _ rfl
  exact absurd hagree.blocked (by decide +kernel)

theorem statsAgree_iff_kill :
    (∀ pre, pre <+: [killLine] → ∀ st, processLines killLibs pre .initial = some st →
        StatsAgree st) ↔
      EventsFit (parsedEvents killLibs [killLine]) :=
  statsAgree_iff killLibs [killLine] (fun _ hl => by rw [List.mem_singleton.1 hl]; rfl) rfl

end Cyrenus
