import Cyrenus.Tetragon.EventList
import Cyrenus.Tetragon.Stats

/-!
# The requests for events

`api_security_events_list` and `api_security_stats` take a range of times from the query. The
database keeps nanoseconds; a bound that is small is taken for seconds or milliseconds.
`normaliseTime_units` says that an instant of this time may be given in any of the three units.
-/

namespace Cyrenus

/-! ## Times -/

/-- `atoll`. -/
def atoll (s : CStr) : U64 := BitVec.ofInt 64 (CStr.strtol s)

/-- The heuristic for a `time_t`: one that is positive and small is in seconds, one that is not so
small in milliseconds. -/
def normaliseTime (t : U64) : U64 :=
  if 0 < t.toInt ∧ t.toInt < 3000000000 then t * 1000000000
  else if 0 < t.toInt ∧ t.toInt < 3000000000000 then t * 1000000
  else t

/-- The unit that a time is taken to be in, in nanoseconds. -/
def guessedUnit (t : ℤ) : ℤ :=
  if 0 < t ∧ t < 3000000000 then 1000000000
  else if 0 < t ∧ t < 3000000000000 then 1000000
  else 1

/-- A product that fits into 64 bits is that of the integers. -/
theorem toInt_mul_of_lt {t u : U64} (hpos : 0 < t.toInt) (hunit : 0 ≤ u.toInt)
    (hlt : t.toInt * u.toInt < 2 ^ 63) : (t * u).toInt = t.toInt * u.toInt := by
  have hnonneg := Int.mul_nonneg (Int.le_of_lt hpos) hunit
  rw [BitVec.toInt_mul]
  exact Int.bmod_eq_of_le (by omega) (by omega)

/-- **Normalising does not overflow.** -/
theorem toInt_normaliseTime (t : U64) :
    (normaliseTime t).toInt = t.toInt * guessedUnit t.toInt := by
  have hsec : (1000000000 : U64).toInt = 1000000000 := by decide
  have hmilli : (1000000 : U64).toInt = 1000000 := by decide
  rw [normaliseTime, guessedUnit]
  split
  · rw [toInt_mul_of_lt (by omega) (by omega) (by rw [hsec]; omega), hsec]
  · split
    · rw [toInt_mul_of_lt (by omega) (by omega) (by rw [hmilli]; omega), hmilli]
    · rw [Int.mul_one]

theorem guessedUnit_pos (t : ℤ) : 0 < guessedUnit t := by
  rw [guessedUnit]
  split
  · decide
  · split <;> decide

/-- It does not change the sign. -/
theorem sign_normaliseTime (t : U64) : (normaliseTime t).toInt.sign = t.toInt.sign := by
  rw [toInt_normaliseTime, Int.sign_mul, Int.sign_eq_one_of_pos (guessedUnit_pos _), Int.mul_one]

/-- The units of a time in a query. -/
inductive TimeUnit where
  | seconds
  | milliseconds
  | nanoseconds

/-- How many there are in a second. -/
def TimeUnit.perSecond : TimeUnit → ℤ
  | .seconds => 1
  | .milliseconds => 1000
  | .nanoseconds => 10 ^ 9

/-- `atoll` reads what `strtol` does. -/
theorem toInt_atoll (s : CStr) : (atoll s).toInt = CStr.strtol s := by
  have hlo : -2 ^ 63 ≤ CStr.strtol s := Int.le_max_left ..
  have hhi : CStr.strtol s ≤ 2 ^ 63 - 1 := Int.max_le.2 ⟨by decide, Int.min_le_left ..⟩
  rw [atoll, BitVec.toInt_ofInt]
  exact Int.bmod_eq_of_le (by omega) (by omega)

/-- **A text that gives an instant in one of the units** is normalised to its nanoseconds. -/
theorem normaliseTime_units {s : ℤ} (hlo : 3000000 ≤ s) (hhi : s < 3000000000) {u : TimeUnit}
    {text : CStr} (htext : CStr.strtol text = u.perSecond * s) :
    (normaliseTime (atoll text)).toInt = 10 ^ 9 * s := by
  rw [toInt_normaliseTime, toInt_atoll, htext, guessedUnit]
  cases u with
  | seconds =>
    rw [TimeUnit.perSecond, Int.one_mul, if_pos (by omega), Int.mul_comm]
    rfl
  | milliseconds =>
    rw [TimeUnit.perSecond, if_neg (by omega), if_pos (by omega)]
    omega
  | nanoseconds =>
    rw [TimeUnit.perSecond, if_neg (by omega), if_neg (by omega), Int.mul_one]

/-! ## The requests -/

/-- The parameters of a query, each with its text if it is there. -/
structure EventParams where
  severity : Option CStr
  eventType : Option CStr
  fromTime : Option CStr
  toTime : Option CStr
  limit : Option CStr
  offset : Option CStr

/-- An `int` among the parameters, or what stands for it. -/
def intParam (text : Option CStr) (default : U32) : ℤ := ((text.map CStr.atoi).getD default).toInt

/-- A bound among the parameters, or what stands for it. -/
def timeParam (text : Option CStr) (default : ℤ) : ℤ :=
  (normaliseTime ((text.map atoll).getD (BitVec.ofInt 64 default))).toInt

/-- The parameters with another text for one of the bounds. -/
def EventParams.setFrom (p : EventParams) (text : CStr) : EventParams :=
  { p with fromTime := some text }

def EventParams.setTo (p : EventParams) (text : CStr) : EventParams :=
  { p with toTime := some text }

/-- The query of `api_security_events_list` at a time. -/
def EventParams.query (now : ℤ) (p : EventParams) : EventQuery where
  severityMin := intParam p.severity 0
  eventType := p.eventType
  fromTime := timeParam p.fromTime 0
  toTime := timeParam p.toTime now
  limit := intParam p.limit 100
  offset := intParam p.offset 0

/-- A member that is left out when its text is empty. -/
def optionalMember (name : String) (text : CStr) : List (CStr × Json) :=
  if text = [] then [] else [(name.toList, .string text)]

/-- An event of the list. -/
def SecurityEventRecord.json (event : SecurityEventRecord) : Json :=
  .object ([("id".toList, .int event.id), ("timestamp".toList, .int event.timestamp),
    ("event_type".toList, .string event.eventType), ("severity".toList, .int event.severity),
    ("process_name".toList, .string event.processName), ("pid".toList, .int event.pid),
    ("ppid".toList, .int event.ppid), ("command".toList, .string event.command),
    ("binary_path".toList, .string event.binaryPath),
    ("parent_binary".toList, .string event.parentBinary),
    ("action".toList, .string event.action), ("policy_name".toList, .string event.policyName)] ++
    optionalMember "src_ip" event.srcIp ++ optionalMember "file_path" event.filePath)

/-- A response with a value as its text. -/
def jsonResponse (libs : Libs) (members : List (CStr × Json)) : Response :=
  ⟨200, String.ofList (libs.toText (.object members))⟩

/-- `api_security_events_list`, with what the database lists for a query, if it does. -/
def apiSecurityEventsList (libs : Libs) (list : EventQuery → Option (List SecurityEventRecord))
    (now : ℤ) (p : EventParams) : Response :=
  let q := p.query now
  match list q with
  | none => ⟨500, "\x7b\"error\":\"Failed to fetch security events\"\x7d"⟩
  | some events =>
    jsonResponse libs [("events".toList, .array (events.map SecurityEventRecord.json)),
      ("total".toList, .int events.length), ("limit".toList, .int q.limit),
      ("offset".toList, .int q.offset)]

/-- The range of times of `api_security_stats`: the last day, unless the query says otherwise. -/
def EventParams.range (now : ℤ) (p : EventParams) : ℤ × ℤ :=
  (timeParam p.fromTime (now - 86400), timeParam p.toTime now)

/-- `api_security_stats`, with what the database counts for a range, if it does, the counters of the
daemon and whether it reads the log. -/
def apiSecurityStats (libs : Libs) (count : ℤ × ℤ → Option SecurityStats)
    (stats : TetragonStats) (running : Bool) (now : ℤ) (p : EventParams) : Response :=
  match count (p.range now) with
  | none => ⟨500, "\x7b\"error\":\"Failed to fetch stats\"\x7d"⟩
  | some counts =>
    jsonResponse libs [("total_events".toList, .int counts.totalEvents),
      ("critical_alerts".toList, .int counts.criticalAlerts),
      ("events_blocked".toList, .int counts.eventsBlocked),
      ("process_exec_events".toList, .int stats.processExecEvents.toInt),
      ("alerts_generated".toList, .int stats.alertsGenerated.toInt),
      ("tetragon_running".toList, .bool running)]

/-- A text selects an instant, wherever it is given for a bound. -/
structure Selects (text : CStr) (instant : ℤ) : Prop where
  listFrom : ∀ now p, ((EventParams.setFrom p text).query now).fromTime = instant
  listTo : ∀ now p, ((EventParams.setTo p text).query now).toTime = instant
  statsFrom : ∀ now p, ((EventParams.setFrom p text).range now).1 = instant
  statsTo : ∀ now p, ((EventParams.setTo p text).range now).2 = instant

/-- Two texts may be given for each other. -/
structure SameEvents (text text' : CStr) : Prop where
  listFrom : ∀ libs list now p,
    apiSecurityEventsList libs list now (.setFrom p text) =
      apiSecurityEventsList libs list now (.setFrom p text')
  listTo : ∀ libs list now p,
    apiSecurityEventsList libs list now (.setTo p text) =
      apiSecurityEventsList libs list now (.setTo p text')
  statsFrom : ∀ libs count stats running now p,
    apiSecurityStats libs count stats running now (.setFrom p text) =
      apiSecurityStats libs count stats running now (.setFrom p text')
  statsTo : ∀ libs count stats running now p,
    apiSecurityStats libs count stats running now (.setTo p text) =
      apiSecurityStats libs count stats running now (.setTo p text')

/-- Texts for the same bound may be given for each other. -/
theorem sameEvents_of_timeParam {text text' : CStr}
    (h : ∀ default, timeParam (some text) default = timeParam (some text') default) :
    SameEvents text text' := by
  constructor
  all_goals
    intros
    simp only [apiSecurityEventsList, apiSecurityStats, EventParams.query, EventParams.range,
      EventParams.setFrom, EventParams.setTo, h]

/-- **The units of a bound agree**: an instant from 3000000 to 3000000000 seconds may be given in
any of them, and normalising never overflows. -/
theorem timeUnits_agree {s : ℤ} (hlo : 3000000 ≤ s) (hhi : s < 3000000000) {u u' : TimeUnit}
    {text text' : CStr} (htext : CStr.strtol text = u.perSecond * s)
    (htext' : CStr.strtol text' = u'.perSecond * s) :
    Selects text (10 ^ 9 * s) ∧ SameEvents text text' ∧
      ∀ t : U64, (normaliseTime t).toInt = t.toInt * guessedUnit t.toInt ∧
        (normaliseTime t).toInt.sign = t.toInt.sign := by
  have hparam : ∀ default, timeParam (some text) default = 10 ^ 9 * s := fun _ =>
    normaliseTime_units hlo hhi htext
  have hparam' : ∀ default, timeParam (some text') default = 10 ^ 9 * s := fun _ =>
    normaliseTime_units hlo hhi htext'
  refine ⟨⟨fun _ _ => hparam _, fun _ _ => hparam _, fun _ _ => hparam _, fun _ _ => hparam _⟩,
    ?_, fun t => ⟨toInt_normaliseTime t, sign_normaliseTime t⟩⟩
  exact sameEvents_of_timeParam fun default => (hparam default).trans (hparam' default).symm

/-- An instant in seconds and in milliseconds. -/
theorem timeUnits_agree_instant :
    Selects "1700000000".toList 1700000000000000000 ∧
      SameEvents "1700000000".toList "1700000000000".toList := by
  have h := @timeUnits_agree 1700000000 (by decide) (by decide) .seconds .milliseconds
    "1700000000".toList "1700000000000".toList (by decide) (by decide)
  exact ⟨h.1, h.2.1⟩

end Cyrenus
