import Cyrenus.Tetragon.Stats
import Cyrenus.WebSocket

/-!
# Alerts that reach no client

`tetragon_generate_alert` broadcasts an alert, and the server keeps one message only: the next one,
of whatever kind, replaces it in the buffer. A client that has not been written the alert by then
goes on with the newer message and counts as caught up. `alertsKept_iff` says when that does not
happen in a run: when nothing is broadcast over an alert that a client has not had.
-/

namespace Cyrenus

open Broadcast (Action Channel CaughtUp Loses Missed Spares)
open CStr (strncpy)

/-! ## Alerts -/

/-- A message tells of an alert. -/
def isAlert (msg : CStr) : Bool := "\x7b\"type\":\"security_alert\"".toList.isPrefixOf msg

/-- What the program broadcasts: what a line of the Tetragon log makes it tell, and the totals of
`monitor_thread`. -/
inductive Sent (libs : Libs) : CStr → Prop
  | line (l : LogLine) {st st' : Tetragon} {msg : CStr}
    (h : tetragonProcessJsonLine libs l.answers l.text st = some (some msg, st')) : Sent libs msg
  | traffic (timestamp : ℤ) (pps : U32) (bps totalPackets totalBytes : U64) :
    Sent libs (trafficUpdate timestamp pps bps totalPackets totalBytes)

/-- The alerts are what `tetragon_generate_alert` broadcasts. -/
theorem isAlert_processEvent {a : LineAnswers} {event : SecurityEvent} {st : Tetragon} {msg : CStr}
    (h : (processEvent a event st).1 = some msg) :
    isAlert msg = true ↔ SEVERITY_WARNING ≤ event.severity := by
  simp only [processEvent, tetragonGenerateAlert] at h
  by_cases hsev : event.severity ≥ SEVERITY_WARNING
  · rw [if_pos hsev, if_neg (BitVec.not_lt.2 hsev)] at h
    cases h
    exact ⟨fun _ => hsev, fun _ => rfl⟩
  · rw [if_neg hsev] at h
    cases h
    exact ⟨fun halert => absurd halert (by decide), fun hle => absurd hle hsev⟩

/-- A buffer that holds the whole of a message's beginning holds the message's kind. -/
theorem isAlert_strncpy (msg : CStr) :
    isAlert (strncpy (MAX_MSG_LEN - 1) msg) = isAlert msg := by
  rw [Bool.eq_iff_iff, isAlert, isAlert, List.isPrefixOf_iff_prefix, List.isPrefixOf_iff_prefix,
    strncpy, List.prefix_take_iff]
  exact and_iff_left (by decide)

/-! ## Alerts that are lost -/

/-- An alert is lost: every client is caught up, and to one of them an alert has been written less
often than it has been broadcast since the client connected. -/
structure AlertLost (es : List WsEvent) : Prop where
  caughtUp : ∀ c pss, (wsRun es).clients c = some pss →
    pss.lastMsgId = (wsRun es).currentMsgId
  lost : ∃ c pss since alert, (wsRun es).clients c = some pss ∧ ConnectedSince es c since ∧
    isAlert alert = true ∧
    (pss.written).count alert < ((broadcasts since).map (strncpy (MAX_MSG_LEN - 1))).count alert

/-- Nothing is broadcast while the buffer holds an alert that a client has not had. -/
def AlertsKept (es : List WsEvent) : Prop :=
  ∀ pre msg, pre ++ [.broadcast msg] <+: es → isAlert (wsRun pre).broadcastMsg = true →
    ∀ c pss, (wsRun pre).clients c = some pss → pss.lastMsgId = (wsRun pre).currentMsgId

variable {es : List WsEvent}

/-- The clients are caught up when the readers of the channel are. -/
theorem caughtUp_actions_iff (hfew : (broadcasts es).length < 2 ^ 31 - 1) :
    CaughtUp (es.filterMap WsEvent.action) ↔
      ∀ c pss, (wsRun es).clients c = some pss → pss.lastMsgId = (wsRun es).currentMsgId := by
  obtain ⟨hrefines, -⟩ := wsRun_refines es hfew
  have hcount : (wsRun es).currentMsgId.toNat = (Channel.run (es.filterMap _)).log.length :=
    hrefines.count
  have hreaders : ∀ c, (Channel.run (es.filterMap WsEvent.action)).readers c =
      ((wsRun es).clients c).map WsClient.reader := fun c => (congrFun hrefines.clients c).symm
  constructor
  · intro h c pss hc
    refine BitVec.eq_of_toNat_eq ?_
    rw [hcount]
    exact h c pss.reader (by rw [hreaders, hc, Option.map_some])
  · intro h c p hp
    rw [hreaders] at hp
    obtain ⟨pss, hc, rfl⟩ := Option.map_eq_some_iff.1 hp
    rw [← hcount, ← h c pss hc]
    rfl

/-- An alert is lost when one is lost on the channel. -/
theorem alertLost_iff (hfew : (broadcasts es).length < 2 ^ 31 - 1) :
    AlertLost es ↔ Loses isAlert (es.filterMap WsEvent.action) := by
  have hclients := (wsRun_refines es hfew).1.clients
  constructor
  · rintro ⟨hupto, c, pss, since, alert, hc, hsince, halert, hless⟩
    obtain ⟨pre, hsplit, hnone, hopen⟩ := hsince.actions hfew
    refine ⟨(caughtUp_actions_iff hfew).2 hupto, c, alert, halert, pre, _, pss.reader, hsplit,
      hnone, hopen, ?_, ?_⟩
    · rw [← channel, ← hclients, Table.map_apply, hc, Option.map_some]
    · rw [published_actions]
      exact hless
  · rintro ⟨hupto, c, alert, halert, pre, post, p, hsplit, hnone, hopen, hp, hless⟩
    obtain ⟨since, hsince, rfl⟩ := connectedSince_of_actions hfew hsplit hnone hopen
    rw [← channel, ← hclients, Table.map_apply] at hp
    obtain ⟨pss, hc, rfl⟩ := Option.map_eq_some_iff.1 hp
    rw [published_actions] at hless
    exact ⟨(caughtUp_actions_iff hfew).1 hupto, c, pss, since, alert, hc, hsince, halert, hless⟩

/-- Alerts are kept when they are spared on the channel. -/
theorem alertsKept_iff_spares (hfew : (broadcasts es).length < 2 ^ 31 - 1) :
    AlertsKept es ↔ Spares isAlert (es.filterMap WsEvent.action) := by
  constructor
  · rintro h pre m ⟨rest, hsplit⟩ newest hlast hnewest
    rw [List.append_assoc] at hsplit
    obtain ⟨before, after, rfl, rfl, hafter⟩ := List.filterMap_eq_append_iff.1 hsplit.symm
    obtain ⟨loops, e, since, rfl, hloops, he, -⟩ := List.filterMap_eq_cons_iff.1 hafter
    obtain ⟨msg, rfl⟩ : ∃ msg, e = .broadcast msg := by
      cases e <;> cases he
      exact ⟨_, rfl⟩
    have hbefore : (before ++ loops).filterMap WsEvent.action =
        before.filterMap WsEvent.action := by
      rw [List.filterMap_append, List.filterMap_eq_nil_iff.2 hloops, List.append_nil]
    have hprefix : before ++ loops ++ [.broadcast msg] <+:
        before ++ (loops ++ .broadcast msg :: since) := ⟨since, by simp⟩
    have hprefew := broadcasts_few ((List.prefix_append ..).trans hprefix) hfew
    rw [← hbefore] at hlast ⊢
    refine (caughtUp_actions_iff hprefew).2 (h _ msg hprefix ?_)
    rw [← isAlert_strncpy, (wsRun_refines _ hprefew).1.newest newest hlast]
    exact hnewest
  · rintro h pre msg hpre halert
    have hprefew := broadcasts_few ((List.prefix_append ..).trans hpre) hfew
    obtain ⟨hrefines, -⟩ := wsRun_refines pre hprefew
    cases hlast : (channel pre).log.getLast? with
    | none =>
      -- before the first broadcast no client is behind
      intro c pss hc
      have hcount := hrefines.count
      rw [List.getLast?_eq_none_iff.1 hlast, List.length_nil] at hcount
      have hle := hrefines.last_le c pss hc
      exact BitVec.eq_of_toNat_eq (by omega)
    | some newest =>
      have hact : pre.filterMap WsEvent.action ++ [.publish (strncpy (MAX_MSG_LEN - 1) msg)] <+:
          es.filterMap WsEvent.action := by
        have hmap := hpre.filterMap WsEvent.action
        rwa [List.filterMap_append] at hmap
      refine (caughtUp_actions_iff hprefew).1 (h _ _ hact newest hlast ?_)
      rw [← hrefines.newest newest hlast, isAlert_strncpy]
      exact halert

/-- Writable callbacks for some clients. -/
def callbacks (cs : List ℕ) : List WsEvent := cs.map WsEvent.writeable

theorem filterMap_action_callbacks (pre : List WsEvent) (cs : List ℕ) :
    (pre ++ callbacks cs).filterMap WsEvent.action =
      pre.filterMap WsEvent.action ++ cs.map Action.take := by
  rw [List.filterMap_append, callbacks, List.filterMap_map, ← List.filterMap_eq_map]
  rfl

theorem broadcasts_callbacks (pre : List WsEvent) (cs : List ℕ) :
    broadcasts (pre ++ callbacks cs) = broadcasts pre := by
  rw [broadcasts, List.filterMap_append, callbacks, List.filterMap_map]
  exact (congrArg _ (List.filterMap_eq_nil_iff.2 fun _ _ => rfl)).trans (List.append_nil _)

/-- **When no alert is lost.** In a run with fewer than 2 ^ 31 - 1 broadcasts, no state that it
reaches, nor one that writable callbacks lead to from there, has lost an alert if and only if
nothing is broadcast while the buffer holds an alert that a client has not had. -/
theorem alertsKept_iff (es : List WsEvent) (hfew : (broadcasts es).length < 2 ^ 31 - 1) :
    (∀ pre, pre <+: es → ∀ cs, ¬ AlertLost (pre ++ callbacks cs)) ↔ AlertsKept es := by
  have hlost : ∀ pre, pre <+: es → ∀ cs, (AlertLost (pre ++ callbacks cs) ↔
      Loses isAlert (pre.filterMap WsEvent.action ++ cs.map Action.take)) := by
    intro pre hpre cs
    rw [← filterMap_action_callbacks]
    refine alertLost_iff ?_
    rw [broadcasts_callbacks]
    exact broadcasts_few hpre hfew
  rw [alertsKept_iff_spares hfew, ← Broadcast.spares_iff]
  constructor
  · rintro h _ ⟨rest, hsplit⟩ cs
    obtain ⟨pre, post, rfl, rfl, -⟩ := List.filterMap_eq_append_iff.1 hsplit.symm
    exact mt (hlost pre (List.prefix_append ..) cs).2 (h pre (List.prefix_append ..) cs)
  · intro h pre hpre cs
    exact mt (hlost pre hpre cs).1 (h _ (hpre.filterMap _) cs)

/-- A line of the log: a process was killed. -/
def killedLine (pid : ℕ) : LogLine where
  text := "\x7b\"process_kprobe\":\x7b\"message\":\"blocked\",\"action\":\"Sigkill\",".toList ++
    "\"process\":\x7b\"pid\":".toList ++ decimal pid ++ "\x7d\x7d\x7d".toList
  answers := ⟨1700000000, true, 1700000000, true⟩

/-- What json-c parses such a line to. -/
def killedEvent (pid : ℕ) : Json :=
  .object [("process_kprobe".toList, .object
    [("message".toList, .string "blocked".toList), ("action".toList, .string "Sigkill".toList),
      ("process".toList, .object [("pid".toList, .int pid)])])]

/-- json-c, where it is asked for the lines of two processes. -/
def killedLibs : Libs where
  parse := fun text =>
    if text = (killedLine 7).text then some (killedEvent 7)
    else if text = (killedLine 8).text then some (killedEvent 8) else none
  toText := fun _ => []
  sha256 := fun _ => []

/-- The alert of such a line. -/
def killedAlert (pid : ℕ) : CStr :=
  "\x7b\"type\":\"security_alert\",\"severity\":\"CRITICAL\",\"pid\":".toList ++ decimal pid ++
    ",\"action\":\"Sigkill\"\x7d".toList

/-- A client connects, two processes are killed, and the loop sends what it finds. -/
def killedTwice : List WsEvent :=
  [.established 0, .broadcast (killedAlert 7), .broadcast (killedAlert 8), .loop, .loop, .loop,
    .loop, .writeable 0]

theorem sent_killedAlert {msg : CStr} (h : msg ∈ broadcasts killedTwice) : Sent killedLibs msg := by
  have hboth : msg = killedAlert 7 ∨ msg = killedAlert 8 := by
    simpa [broadcasts, killedTwice] using h
  obtain rfl | rfl := hboth
  · exact @Sent.line killedLibs (killedLine 7) Tetragon.initial _ _ rfl
  · exact @Sent.line killedLibs (killedLine 8) Tetragon.initial _ _ rfl

/-- Of two alerts in a row the first reaches no client. -/
theorem alertsKept_fails :
    ¬ ∀ (libs : Libs) (es : List WsEvent), (∀ msg ∈ broadcasts es, Sent libs msg) →
      ¬ AlertLost es := by
  intro h
  have hclient : (wsRun killedTwice).clients 0 = some ⟨2, false, [killedAlert 8]⟩ := by
    decide +kernel
  refine h killedLibs killedTwice (fun _ => sent_killedAlert) ⟨?_, 0, _, killedTwice.tail,
    killedAlert 7, hclient, ⟨[], rfl, rfl, ?_⟩, ?_, ?_⟩
  · intro c pss hc
    obtain ⟨since, ⟨pre, heq, -⟩, -⟩ := connectedSince_of_client (by decide) hc
    have hmem : WsEvent.established c ∈ killedTwice := by
      rw [heq]
      simp
    obtain rfl : c = 0 := by simpa [killedTwice] using hmem
    obtain rfl := Option.some.inj (hclient.symm.trans hc)
    rfl
  · decide +kernel
  · decide +kernel
  · decide +kernel

theorem alertsKept_iff_one :
    (∀ pre, pre <+: killedTwice.take 2 → ∀ cs, ¬ AlertLost (pre ++ callbacks cs)) ↔
      AlertsKept (killedTwice.take 2) :=
  alertsKept_iff (killedTwice.take 2) (by decide)

end Cyrenus
