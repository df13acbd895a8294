import Cyrenus.AlertText
import Cyrenus.Alerts
import Cyrenus.Lib.JsonWeight
import Cyrenus.Lib.Rounding
import Cyrenus.Tetragon.ParseSafety
import Cyrenus.TrafficMonitor

/-!
# The text of a traffic update

`monitor_thread` writes its numbers with `snprintf`, and nothing of them is cut off: they stand in
the text as they are (`readReport_text`), and the page that parses it has each as the double that is
nearest to it (`payloadNumbers_text`). It cannot take another message for an update: the action that
an alert is made with is not long enough (`updateData_alert`). So a client reads from all that the
program broadcasts what the monitor thread has reported (`readReports`).
-/

namespace Cyrenus

open CStr (strncpy)
open JsonText (IsInteger IsPlain Value)

/-! ## The whole text -/

/-- A value of the type `long`. -/
def IsLong (t : ℤ) : Prop := -2 ^ 63 ≤ t ∧ t ≤ 2 ^ 63 - 1

instance (t : ℤ) : Decidable (IsLong t) := inferInstanceAs (Decidable (_ ∧ _))

/-- The message with the numbers of a report. -/
def TrafficReport.text (r : TrafficReport) : CStr :=
  trafficUpdate r.timestamp r.pps r.bps r.totalPackets r.totalBytes

/-- The whole of it. -/
def TrafficReport.wholeText (r : TrafficReport) : CStr :=
  "\x7b\"type\":\"traffic_update\",\"data\":\x7b\"timestamp\":".toList ++
    CStr.ofInt r.timestamp ++ ",\"pps\":".toList ++ decimal r.pps.toNat ++ ",\"bps\":".toList ++
    decimal r.bps.toNat ++ ",\"total_packets\":".toList ++ decimal r.totalPackets.toNat ++
    ",\"total_bytes\":".toList ++ decimal r.totalBytes.toNat ++ "\x7d\x7d".toList

theorem ofInt_natCast (n : ℕ) : CStr.ofInt n = decimal n := by
  simp [CStr.ofInt, toString, Int.repr, Nat.repr, decimal]

theorem ofInt_negSucc (n : ℕ) : CStr.ofInt (Int.negSucc n) = '-' :: decimal (n + 1) := by
  simp [CStr.ofInt, toString, Int.repr, Nat.repr, decimal]

/-- An integer is written in decimal. -/
theorem isInteger_ofInt (i : ℤ) : IsInteger (CStr.ofInt i) := by
  cases i with
  | ofNat n =>
    rw [Int.ofNat_eq_natCast, ofInt_natCast]
    exact .inl (isDecimal_decimal n)
  | negSucc n =>
    rw [ofInt_negSucc]
    exact .inr ⟨_, isDecimal_decimal _, rfl⟩

theorem length_decimal_le {n k : ℕ} (hk : 0 < k) (h : n < 10 ^ k) : (decimal n).length ≤ k :=
  (Nat.length_toDigits_le_iff (by decide) hk).2 h

theorem length_ofInt_le {i : ℤ} (h : IsLong i) : (CStr.ofInt i).length ≤ 20 := by
  obtain ⟨hlo, hhi⟩ := h
  cases i with
  | ofNat n =>
    have hlt : n < 10 ^ 20 := by
      rw [Int.ofNat_eq_natCast] at hhi
      omega
    rw [Int.ofNat_eq_natCast, ofInt_natCast]
    exact length_decimal_le (by decide) hlt
  | negSucc n =>
    have hlt : n + 1 < 10 ^ 19 := by omega
    have hle := @length_decimal_le (n + 1) 19 (by decide) hlt
    rw [ofInt_negSucc, List.length_cons]
    omega

/-- **Nothing is cut off.** -/
theorem TrafficReport.text_eq {r : TrafficReport} (h : IsLong r.timestamp) :
    r.text = r.wholeText := by
  have htimestamp := length_ofInt_le h
  have hpps : (decimal r.pps.toNat).length ≤ 10 := by
    have hlt : r.pps.toNat < 10 ^ 10 := by omega
    exact length_decimal_le (by decide) hlt
  have hlong (x : U64) : (decimal x.toNat).length ≤ 20 := by
    have hlt : x.toNat < 10 ^ 20 := by omega
    exact length_decimal_le (by decide) hlt
  have hbps := hlong r.bps
  have hpackets := hlong r.totalPackets
  have hbytes := hlong r.totalBytes
  have hstart :
      "\x7b\"type\":\"traffic_update\",\"data\":\x7b\"timestamp\":".toList.length ≤ 60 := by
    decide
  have hnames : ",\"pps\":".toList.length + ",\"bps\":".toList.length +
      ",\"total_packets\":".toList.length + ",\"total_bytes\":".toList.length +
        "\x7d\x7d".toList.length ≤ 80 := by decide
  refine List.take_of_length_le ?_
  simp only [List.length_append]
  omega

/-! ## What is read from it -/

/-- The members of `data`. -/
def TrafficReport.members (r : TrafficReport) : List (CStr × Value) :=
  [("timestamp".toList, .number (CStr.ofInt r.timestamp)),
    ("pps".toList, .number (decimal r.pps.toNat)), ("bps".toList, .number (decimal r.bps.toNat)),
    ("total_packets".toList, .number (decimal r.totalPackets.toNat)),
    ("total_bytes".toList, .number (decimal r.totalBytes.toNat))]

/-- The value of the text. -/
def TrafficReport.value (r : TrafficReport) : Value :=
  .object [("type".toList, .string "traffic_update".toList), ("data".toList, .object r.members)]

/-- A number and the name of the next member. -/
theorem run_nextMember {num sep next : CStr} (hnum : IsInteger num)
    (hsep : sep = ',' :: '"' :: (next ++ ['"', ':'])) (hnext : ∀ c ∈ next, IsPlain c)
    (done : List (CStr × Value)) (name : CStr) (stack : List JsonText.Frame) (text : CStr) :
    JsonText.run ⟨.object done (some name) :: stack, .value false⟩ (num ++ (sep ++ text)) =
      JsonText.run ⟨.object (done ++ [(name, .number num)]) (some next) :: stack, .value false⟩
        text := by
  have hquote : JsonText.run ⟨.object (done ++ [(name, .number num)]) none :: stack, .name false⟩
      ('"' :: (next ++ '"' :: ':' :: text)) =
        JsonText.run ⟨.object (done ++ [(name, .number num)]) none :: stack, .text .empty⟩
          (next ++ '"' :: ':' :: text) := rfl
  have hsplit : sep ++ text = ',' :: '"' :: (next ++ '"' :: ':' :: text) := by
    rw [hsep, List.cons_append, List.cons_append, List.append_assoc]
    rfl
  rw [hsplit, JsonText.run_integer hnum _ (.inl rfl)]
  refine hquote.trans ?_
  rw [JsonText.run_append, JsonText.Partial.empty, JsonText.run_plain hnext, List.nil_append]
  rfl

/-- What stands before the first number. -/
theorem run_updateStart :
    JsonText.run .initial
        "\x7b\"type\":\"traffic_update\",\"data\":\x7b\"timestamp\":".toList =
      some ⟨[.object [] (some "timestamp".toList),
        .object [("type".toList, .string "traffic_update".toList)] (some "data".toList)],
        .value false⟩ := by
  rfl

/-- What stands behind the last number. -/
theorem run_updateEnd (outer done : List (CStr × Value)) (data name : CStr) (v : Value) :
    (((JsonText.put v [.object done (some name), .object outer (some data)]).bind
        (JsonText.stepEnd '\x7d')).bind fun st => JsonText.run st ['\x7d']).bind JsonText.finish =
      some (.object (outer ++ [(data, .object (done ++ [(name, v)]))])) :=
  rfl

/-- **The whole text** is read as its numbers. -/
theorem scan_wholeText (r : TrafficReport) : JsonText.scan r.wholeText = some r.value := by
  have hpps : ",\"pps\":".toList = ',' :: '"' :: ("pps".toList ++ ['"', ':']) := by rfl
  have hbps : ",\"bps\":".toList = ',' :: '"' :: ("bps".toList ++ ['"', ':']) := by rfl
  have hpackets : ",\"total_packets\":".toList =
      ',' :: '"' :: ("total_packets".toList ++ ['"', ':']) := by rfl
  have hbytes : ",\"total_bytes\":".toList =
      ',' :: '"' :: ("total_bytes".toList ++ ['"', ':']) := by rfl
  have hend : "\x7d\x7d".toList = '\x7d' :: ['\x7d'] := rfl
  have hplain : (∀ c ∈ "pps".toList, IsPlain c) ∧ (∀ c ∈ "bps".toList, IsPlain c) ∧
      (∀ c ∈ "total_packets".toList, IsPlain c) ∧ ∀ c ∈ "total_bytes".toList, IsPlain c :=
    ⟨JsonText.isPlain_of_all (by decide), JsonText.isPlain_of_all (by decide),
      JsonText.isPlain_of_all (by decide), JsonText.isPlain_of_all (by decide)⟩
  have hnat (n : ℕ) : IsInteger (decimal n) := .inl (isDecimal_decimal n)
  have hassoc (a b c d e f g h i j k : CStr) :
      a ++ b ++ c ++ d ++ e ++ f ++ g ++ h ++ i ++ j ++ k =
        a ++ (b ++ (c ++ (d ++ (e ++ (f ++ (g ++ (h ++ (i ++ (j ++ k))))))))) := by
    simp only [List.append_assoc]
  refine (congrArg JsonText.scan (hassoc ..)).trans ?_
  rw [JsonText.scan, JsonText.run_append, run_updateStart, Option.bind_some,
    run_nextMember (isInteger_ofInt _) hpps hplain.1, run_nextMember (hnat _) hbps hplain.2.1,
    run_nextMember (hnat _) hpackets hplain.2.2.1, run_nextMember (hnat _) hbytes hplain.2.2.2,
    hend, JsonText.run_integer (hnat _) _ (.inr rfl), run_updateEnd]
  simp only [List.nil_append, List.cons_append, TrafficReport.value, TrafficReport.members]

/-- A number is written with characters that are bytes. -/
theorem isAscii_decimal (n : ℕ) : ∀ c ∈ decimal n, Utf8.IsAscii c := by
  intro c hc
  have hdigit := (isNumeral_decimal n).isDigit c hc
  simp only [Char.isDigit, Bool.and_eq_true, decide_eq_true_eq, UInt32.le_iff_toNat_le] at hdigit
  exact Nat.lt_of_le_of_lt hdigit.2 (by decide)

theorem isAscii_ofInt (i : ℤ) : ∀ c ∈ CStr.ofInt i, Utf8.IsAscii c := by
  cases i with
  | ofNat n =>
    rw [Int.ofNat_eq_natCast, ofInt_natCast]
    exact isAscii_decimal n
  | negSucc n =>
    rw [ofInt_negSucc]
    exact List.forall_mem_cons.2 ⟨by decide, isAscii_decimal _⟩

theorem isAscii_wholeText (r : TrafficReport) : ∀ c ∈ r.wholeText, Utf8.IsAscii c := by
  have happend : ∀ {s t : CStr}, (∀ c ∈ s, Utf8.IsAscii c) → (∀ c ∈ t, Utf8.IsAscii c) →
      ∀ c ∈ s ++ t, Utf8.IsAscii c := fun hs ht c hc => (List.mem_append.1 hc).elim (hs c) (ht c)
  have hnat (n : ℕ) := isAscii_decimal n
  refine happend (happend (happend (happend (happend (happend (happend (happend (happend (happend
    ?_ (isAscii_ofInt _)) ?_) (hnat _)) ?_) (hnat _)) ?_) (hnat _)) ?_) (hnat _)) ?_ <;>
    exact Utf8.isAscii_of_all (by decide)

/-- **A client reads the numbers.** -/
theorem TrafficReport.parse_text {r : TrafficReport} (h : IsLong r.timestamp) :
    JsonText.parse r.text = some r.value := by
  rw [text_eq h, JsonText.parse, if_pos (Utf8.isUtf8_of_ascii (isAscii_wholeText r)),
    scan_wholeText]

/-! ## Updates -/

/-- A message has a type. -/
def hasType (type : CStr) (msg : Value) : Bool :=
  match msg.get? "type".toList with
  | some (.string s) => s = type
  | _ => false

theorem hasType_iff {type : CStr} {msg : Value} :
    hasType type msg = true ↔ msg.get? "type".toList = some (.string type) := by
  rw [hasType]
  constructor
  · intro h
    split at h
    · rename_i s hs
      rw [hs, of_decide_eq_true h]
    · cases h
  · intro h
    rw [h]
    exact decide_eq_true rfl

/-- The data of a message, if its type is that of an update. -/
def updateData (msg : Value) : Option Value :=
  if hasType "traffic_update".toList msg then msg.get? "data".toList else none

/-- The integer that a number is written as. -/
def int? : Value → Option ℤ
  | .number ('-' :: num) => (Value.nat? (.number num)).map fun n : ℕ => -(n : ℤ)
  | v => v.nat?.map Nat.cast

/-- The report whose numbers a `data` has, as they are written. -/
def readData (data : Value) : Option TrafficReport := do
  let timestamp ← (data.get? "timestamp".toList).bind int?
  let pps ← (data.get? "pps".toList).bind Value.nat?
  let bps ← (data.get? "bps".toList).bind Value.nat?
  let totalPackets ← (data.get? "total_packets".toList).bind Value.nat?
  let totalBytes ← (data.get? "total_bytes".toList).bind Value.nat?
  return ⟨timestamp, .ofNat 32 pps, .ofNat 64 bps, .ofNat 64 totalPackets, .ofNat 64 totalBytes⟩

/-- What is read from the data of a message that is an update. -/
def readUpdate {β : Type*} (read : Value → Option β) (text : CStr) : Option β :=
  ((JsonText.parse text).bind updateData).bind read

/-- The report whose numbers are written in a message. -/
def readReport (text : CStr) : Option TrafficReport := readUpdate readData text

/-- The number that JavaScript makes of an integer: a double keeps 53 binary digits. -/
def jsNumber (v : Value) : Option ℤ := (int? v).map (Rounding.ofInt 53)

/-- The numbers of a report, in the order of the text. -/
def TrafficReport.numbers (r : TrafficReport) : List ℤ :=
  [r.timestamp, r.pps.toNat, r.bps.toNat, r.totalPackets.toNat, r.totalBytes.toNat]

/-- The numbers of a `data` in JavaScript. -/
def dataNumbers (data : Value) : Option (List ℤ) := do
  let timestamp ← (data.get? "timestamp".toList).bind jsNumber
  let pps ← (data.get? "pps".toList).bind jsNumber
  let bps ← (data.get? "bps".toList).bind jsNumber
  let totalPackets ← (data.get? "total_packets".toList).bind jsNumber
  let totalBytes ← (data.get? "total_bytes".toList).bind jsNumber
  return [timestamp, pps, bps, totalPackets, totalBytes]

/-- The numbers that the `payload` of a message has, if it is an update. -/
def payloadNumbers (text : CStr) : Option (List ℤ) := readUpdate dataNumbers text

theorem int?_ofInt (i : ℤ) : int? (.number (CStr.ofInt i)) = some i := by
  cases i with
  | ofNat n =>
    have hsign : ∀ num, decimal n ≠ '-' :: num := by
      intro num heq
      have hdigit := (isNumeral_decimal n).isDigit '-' (heq ▸ List.mem_cons_self ..)
      exact absurd hdigit (by decide)
    rw [Int.ofNat_eq_natCast, ofInt_natCast, int?, nat?_decimal, Option.map_some]
    intro num heq
    exact hsign num (Value.number.inj heq)
  | negSucc n =>
    rw [ofInt_negSucc, int?, nat?_decimal, Option.map_some]
    rfl

theorem updateData_value (r : TrafficReport) : updateData r.value = some (.object r.members) := by
  rfl

/-- The members of the data. -/
theorem TrafficReport.get?_members (r : TrafficReport) :
    (Value.object r.members).get? "timestamp".toList = some (.number (CStr.ofInt r.timestamp)) ∧
    (Value.object r.members).get? "pps".toList = some (.number (decimal r.pps.toNat)) ∧
    (Value.object r.members).get? "bps".toList = some (.number (decimal r.bps.toNat)) ∧
    (Value.object r.members).get? "total_packets".toList =
      some (.number (decimal r.totalPackets.toNat)) ∧
    (Value.object r.members).get? "total_bytes".toList =
      some (.number (decimal r.totalBytes.toNat)) :=
  ⟨rfl, rfl, rfl, rfl, rfl⟩

/-- What is read from an update is read from its members. -/
theorem readUpdate_text {β : Type*} {read : Value → Option β} {r : TrafficReport}
    (h : IsLong r.timestamp) : readUpdate read r.text = read (.object r.members) := by
  rw [readUpdate, TrafficReport.parse_text h, Option.bind_some, updateData_value, Option.bind_some]

/-- **The round trip** of an update. -/
theorem readReport_text {r : TrafficReport} (h : IsLong r.timestamp) :
    readReport r.text = some r := by
  obtain ⟨htimestamp, hpps, hbps, hpackets, hbytes⟩ := r.get?_members
  rw [readReport, readUpdate_text h, readData, htimestamp, hpps, hbps, hpackets, hbytes]
  simp only [Option.bind_some, int?_ofInt, nat?_decimal, Option.bind_eq_bind, BitVec.ofNat_toNat,
    BitVec.setWidth_eq]
  rfl

theorem jsNumber_ofInt (i : ℤ) :
    jsNumber (.number (CStr.ofInt i)) = some (Rounding.ofInt 53 i) := by
  rw [jsNumber, int?_ofInt, Option.map_some]

theorem jsNumber_decimal (n : ℕ) :
    jsNumber (.number (decimal n)) = some (Rounding.ofInt 53 n) := by
  rw [← ofInt_natCast, jsNumber_ofInt]

/-- **An update in JavaScript**: its numbers are those of the report, as doubles. -/
theorem payloadNumbers_text {r : TrafficReport} (h : IsLong r.timestamp) :
    payloadNumbers r.text = some (r.numbers.map (Rounding.ofInt 53)) := by
  obtain ⟨htimestamp, hpps, hbps, hpackets, hbytes⟩ := r.get?_members
  rw [payloadNumbers, readUpdate_text h, dataNumbers, htimestamp, hpps, hbps, hpackets, hbytes]
  simp only [Option.bind_some, jsNumber_ofInt, jsNumber_decimal, Option.bind_eq_bind]
  rfl

/-- The numbers have 64 bits. -/
theorem TrafficReport.natAbs_lt {r : TrafficReport} (h : IsLong r.timestamp) :
    ∀ i ∈ r.numbers, i.natAbs < 2 ^ 64 := by
  obtain ⟨hlo, hhi⟩ := h
  intro i hi
  simp only [numbers, List.mem_cons, List.not_mem_nil, or_false] at hi
  rcases hi with rfl | rfl | rfl | rfl | rfl <;> omega

/-! ## Alerts -/

/-- The alert of an event, with nothing cut off. -/
theorem alertJson_eq {event : SecurityEvent} (hsev : SEVERITY_WARNING ≤ event.severity)
    (hlen : event.action.length ≤ 31) : alertJson event =
      alertHead event.severity event.pid ++ (event.action ++ ['"', '\x7d']) := by
  have hbroadcast := broadcastAlert_eq hsev hlen ⟨0, 0, 0, 0⟩ .initial
  rw [broadcastAlert, tetragonGenerateAlert, if_neg (BitVec.not_lt.2 hsev), Option.map_some,
    Option.some.injEq, wsBroadcastMessage] at hbroadcast
  have hfits : (alertJson event).length ≤ MAX_MSG_LEN - 1 :=
    Nat.le_trans (List.length_take_le ..) (by decide)
  rw [← hbroadcast]
  exact (List.take_of_length_le hfits).symm

/-- The type of an alert. -/
theorem type_headMembers {severity : U8} {pid : U32} {v : Value}
    (h : ("type".toList, v) ∈ headMembers severity pid) : v = .string "security_alert".toList := by
  have hnames : "type".toList ≠ "severity".toList ∧ "type".toList ≠ "pid".toList := by decide
  simp only [headMembers, List.mem_cons, List.not_mem_nil, or_false, Prod.mk.injEq] at h
  rcases h with ⟨-, hv⟩ | ⟨hname, -⟩ | ⟨hname, -⟩
  · exact hv
  · exact absurd hname hnames.1
  · exact absurd hname hnames.2

/-- An alert has no data before its action. -/
theorem data_notMem_headMembers {severity : U8} {pid : U32} {v : Value} :
    ("data".toList, v) ∉ headMembers severity pid := by
  have hnames : "data".toList ≠ "type".toList ∧ "data".toList ≠ "severity".toList ∧
      "data".toList ≠ "pid".toList := by decide
  intro h
  simp only [headMembers, List.mem_cons, List.not_mem_nil, or_false, Prod.mk.injEq] at h
  rcases h with ⟨hname, -⟩ | ⟨hname, -⟩ | ⟨hname, -⟩
  · exact hnames.1 hname
  · exact hnames.2.1 hname
  · exact hnames.2.2 hname

/-- A member that is neither before the action nor the action was read behind it. -/
theorem mem_more {event : SecurityEvent} {action : Value} {more : List (CStr × Value)} {name : CStr}
    {v : Value} (h : (Value.object (headMembers event.severity event.pid ++
      ("action".toList, action) :: more)).get? name = some v)
    (hhead : (name, v) ∉ headMembers event.severity event.pid) (haction : name ≠ "action".toList) :
    (name, v) ∈ more := by
  rcases List.mem_append.1 (JsonText.mem_of_get? h) with hmem | hmem
  · exact absurd hmem hhead
  · rcases List.mem_cons.1 hmem with heq | hmem
    · exact absurd (congrArg Prod.fst heq) haction
    · exact hmem

/-- **An alert is no update.** What would have to be added to it is longer than an action. -/
theorem updateData_alert {event : SecurityEvent} (hlen : event.action.length ≤ 31) {msg : Value}
    (hmsg : JsonText.scan (alertHead event.severity event.pid ++ (event.action ++ ['"', '\x7d'])) =
      some msg) : updateData msg = none := by
  rw [JsonText.scan, JsonText.run_append, run_alertHead, Option.bind_some] at hmsg
  obtain ⟨action, more, rfl, hweight⟩ := JsonText.exists_members_of_run hmsg
  refine Option.eq_none_iff_forall_ne_some.2 fun data hdata => ?_
  rw [updateData] at hdata
  split at hdata
  · rename_i htype
    have htypeMore := mem_more (hasType_iff.1 htype)
      (fun hmem => absurd (Value.string.inj (type_headMembers hmem)) (by decide)) (by decide)
    have hdataMore := mem_more hdata data_notMem_headMembers (by decide)
    -- 24 bytes for the type, 9 for the data and one for the action
    have hboth := JsonText.add_le_membersWeight (by decide) htypeMore hdataMore
    have hlengths : "type".toList.length = 4 ∧ "data".toList.length = 4 ∧
        "traffic_update".toList.length = 14 ∧ ['"', '\x7d'].length = 2 := by decide
    have haction := action.weight_pos
    have hdataPos := data.weight_pos
    rw [Value.weight] at hboth
    rw [List.length_append] at hweight
    omega
  · cases hdata

/-- An action can be long enough to change the type that is read. -/
example : (JsonText.scan (alertHead SEVERITY_CRITICAL 7 ++
    ("\",\"type\":\"traffic_update".toList ++ ['"', '\x7d']))).map
      (fun msg => (hasType "traffic_update".toList msg, (updateData msg).isSome)) =
    some (true, false) := rfl

/-! ## What the program broadcasts -/

/-- A message begins like an update. -/
def isTrafficUpdate (msg : CStr) : Bool := "\x7b\"type\":\"traffic_update\"".toList.isPrefixOf msg

theorem isTrafficUpdate_text (timestamp : ℤ) (pps : U32) (bps totalPackets totalBytes : U64) :
    isTrafficUpdate (trafficUpdate timestamp pps bps totalPackets totalBytes) = true := by
  rfl

/-- The event of a line that makes something be broadcast. -/
theorem exists_event_of_line {libs : Libs} {l : LogLine} {st st' : Tetragon} {msg : CStr}
    (h : tetragonProcessJsonLine libs l.answers l.text st = some (some msg, st')) :
    ∃ event, (processEvent l.answers event st).1 = some msg ∧ event.action.length ≤ 31 := by
  rw [tetragonProcessJsonLine] at h
  cases hline : lineEvent libs l.answers.now l.text with
  | none =>
    rw [hline] at h
    cases h
  | some event? =>
    cases event? with
    | none =>
      rw [hline] at h
      cases h
    | some event =>
      rw [hline] at h
      refine ⟨event, congrArg Prod.fst (Option.some.inj h), ?_⟩
      rw [lineEvent] at hline
      split at hline
      · cases hline
      · split at hline
        · cases hline
        · rw [Option.map_eq_some_iff] at hline
          obtain ⟨_, hparse, heq⟩ := hline
          cases heq
          obtain ⟨-, rfl⟩ := tetragonParseEvent_eq_some.1 hparse
          rw [(fieldsOf_readEvent ..).action]
          exact length_fieldOf_le ..

/-- **What a line makes be broadcast is no update**, for the one who looks at its beginning and for
the one who parses it. -/
theorem updateData_of_line {libs : Libs} {l : LogLine} {st st' : Tetragon} {msg : CStr}
    (h : tetragonProcessJsonLine libs l.answers l.text st = some (some msg, st')) :
    isTrafficUpdate msg = false ∧ (JsonText.parse msg).bind updateData = none := by
  obtain ⟨event, hmsg, hlen⟩ := exists_event_of_line h
  rw [processEvent, tetragonGenerateAlert] at hmsg
  rcases Decidable.em (SEVERITY_WARNING ≤ event.severity) with hsev | hsev
  · rw [if_pos hsev, if_neg (BitVec.not_lt.2 hsev)] at hmsg
    obtain rfl := Option.some.inj hmsg
    refine ⟨rfl, ?_⟩
    rw [alertJson_eq hsev hlen, parse_alert]
    split
    · cases hscan : JsonText.scan (alertHead event.severity event.pid ++
          (event.action ++ ['"', '\x7d'])) with
      | none => rfl
      | some v => exact updateData_alert hlen hscan
    · rfl
  · rw [if_neg hsev] at hmsg
    obtain rfl := Option.some.inj hmsg
    exact ⟨rfl, rfl⟩

/-- A report has the time of its turn. -/
theorem isLong_timestamp {globalStatsFd : ℤ} {samples : List Sample}
    (hlong : ∀ s ∈ samples, IsLong s.time) :
    ∀ r ∈ reports globalStatsFd samples, IsLong r.timestamp := by
  have htrace : ∀ io ∈ Trace.trace (monitorTurn globalStatsFd) {} samples,
      io.2.timestamp = io.1.time := Trace.forall_mem_trace_iff.2 fun _ _ _ => rfl
  intro r hr
  obtain ⟨io, hio, rfl⟩ := List.mem_map.1 hr
  rw [htrace io hio]
  refine hlong io.1 ?_
  have hmem := List.mem_map_of_mem (f := Prod.fst) hio
  rwa [Trace.map_fst_trace] at hmem

/-- A client finds something in the updates only. -/
theorem filterMap_readUpdate {β : Type*} {read : Value → Option β} {libs : Libs} {msgs : List CStr}
    (hsent : ∀ msg ∈ msgs, Sent libs msg) :
    msgs.filterMap (readUpdate read) =
      (msgs.filter isTrafficUpdate).filterMap (readUpdate read) := by
  rw [List.filterMap_filter]
  refine List.filterMap_congr fun msg hmsg => ?_
  cases hsent msg hmsg with
  | line l h =>
    have hnone : readUpdate read msg = none := by
      rw [readUpdate, (updateData_of_line h).2]
      rfl
    rw [hnone, ite_self]
  | traffic => exact (if_pos (isTrafficUpdate_text ..)).symm

/-- In the updates it finds something of each report. -/
theorem filterMap_monitorThread {β : Type*} {read : CStr → Option β} {f : TrafficReport → β}
    (hread : ∀ {r : TrafficReport}, IsLong r.timestamp → read r.text = some (f r))
    {globalStatsFd : ℤ} {samples : List Sample} (hlong : ∀ s ∈ samples, IsLong s.time) :
    (monitorThread globalStatsFd samples).filterMap read =
      (reports globalStatsFd samples).map f := by
  have hmap : monitorThread globalStatsFd samples =
      (reports globalStatsFd samples).map TrafficReport.text := rfl
  have hsome : ∀ r ∈ reports globalStatsFd samples,
      (read ∘ TrafficReport.text) r = (some ∘ f) r := fun r hr =>
    hread (isLong_timestamp hlong r hr)
  rw [hmap, List.filterMap_map, List.filterMap_congr hsome, List.filterMap_eq_map]

/-- The reports are written as they are. -/
theorem filterMap_readReport {libs : Libs} {globalStatsFd : ℤ} {samples : List Sample}
    {msgs : List CStr} (hlong : ∀ s ∈ samples, IsLong s.time) (hsent : ∀ msg ∈ msgs, Sent libs msg)
    (hmonitor : msgs.filter isTrafficUpdate = monitorThread globalStatsFd samples) :
    msgs.filterMap readReport = reports globalStatsFd samples := by
  refine (filterMap_readUpdate hsent).trans ?_
  rw [hmonitor]
  exact (filterMap_monitorThread readReport_text hlong).trans (List.map_id' _)

/-- **A client reads what the monitor thread has reported.** Whatever the lines of the log make be
broadcast between the updates, the reports stand in the texts, all of them, in their order and no
others. The page parses each number as the double nearest to it: that is the number itself below
2 ^ 53, and is 1024 away from it at most. -/
theorem readReports {libs : Libs} {globalStatsFd : ℤ} {samples : List Sample} {msgs : List CStr}
    (hlong : ∀ s ∈ samples, IsLong s.time) (hsent : ∀ msg ∈ msgs, Sent libs msg)
    (hmonitor : msgs.filter isTrafficUpdate = monitorThread globalStatsFd samples) :
    msgs.filterMap readReport = reports globalStatsFd samples ∧
    msgs.filterMap payloadNumbers =
      (reports globalStatsFd samples).map (fun r => r.numbers.map (Rounding.ofInt 53)) ∧
    ∀ r ∈ reports globalStatsFd samples, ∀ i ∈ r.numbers,
      (Rounding.ofInt 53 i - i).natAbs ≤ 1024 ∧ (i.natAbs < 2 ^ 53 → Rounding.ofInt 53 i = i) := by
  refine ⟨filterMap_readReport hlong hsent hmonitor, ?_, fun r hr i hi => ⟨?_, fun hsafe => ?_⟩⟩
  · refine (filterMap_readUpdate hsent).trans ?_
    rw [hmonitor]
    exact filterMap_monitorThread payloadNumbers_text hlong
  · have hbits : i.natAbs < 2 ^ (53 + 11) :=
      TrafficReport.natAbs_lt (isLong_timestamp hlong r hr) i hi
    have hhalf := Rounding.natAbs_ofInt_sub_le hbits
    omega
  · exact Rounding.ofInt_of_lt hsafe

/-- Two turns of the monitor thread, with five packets and then nine. -/
def twoSamples : List Sample := [⟨[⟨5, 500⟩], 0, 1700000000⟩, ⟨[⟨9, 900⟩], 0, 1700000001⟩]

/-- What it reports in the second one. -/
def secondReport : TrafficReport := ⟨1700000001, 4, 3200, 9, 900⟩

/-- The two updates, and an alert between them. -/
def watchedTexts : List CStr :=
  [trafficUpdate 1700000000 0 0 5 500, killedAlert 7, secondReport.text]

theorem sent_watchedTexts : ∀ msg ∈ watchedTexts, Sent killedLibs msg := by
  intro msg hmsg
  have hthree : msg = trafficUpdate 1700000000 0 0 5 500 ∨ msg = killedAlert 7 ∨
      msg = secondReport.text := by
    simpa [watchedTexts] using hmsg
  rcases hthree with rfl | rfl | rfl
  · exact .traffic ..
  · exact @Sent.line killedLibs (killedLine 7) Tetragon.initial _ _ rfl
  · exact .traffic ..

theorem filter_watchedTexts :
    watchedTexts.filter isTrafficUpdate = monitorThread 3 twoSamples := by
  decide +kernel

/-- The page finds the numbers of the two turns in the three messages. -/
theorem readReports_two : watchedTexts.filterMap payloadNumbers =
    [[1700000000, 0, 0, 5, 500], [1700000001, 4, 3200, 9, 900]] :=
  (readReports (by decide) sent_watchedTexts filter_watchedTexts).2.1.trans (by decide)

/-- The message of a line is one of the program. -/
theorem Sent.programMessage {libs : Libs} {msg : CStr} (h : Sent libs msg) :
    ProgramMessage msg := by
  cases h with
  | line l h =>
    obtain ⟨event, hmsg, -⟩ := exists_event_of_line h
    exact .security hmsg
  | traffic => exact .traffic ..

end Cyrenus
