import Cyrenus.Lib.BoundedLog
import Cyrenus.Lib.Part
import Cyrenus.TrafficText

/-!
# The dashboard

The page of `app.ts` parses what the WebSocket server sends and dispatches it by its type: the rate
of an update is shown and put at the end of the chart, which drops its oldest point. The chart of a
client shows rates that the monitor thread has reported since the client connected, in their order,
whatever alerts are sent in between (`dashboard_shows`).
-/

namespace Cyrenus

open BoundedLog (newest newest_concat newest_of_le)
open Broadcast (Channel Reader published published_append published_cons_join)
open CStr (strncpy)
open JsonText (Value)

/-! ## The page -/

/-- What JavaScript makes of a member, which is `undefined` if it is missing: `Number (v)`, and the
text of it in a template. Numbers are those of JavaScript. -/
structure Script (ν : Type*) where
  zero : ν
  number : Option Value → ν
  text : Option Value → CStr
  /-- A number counts as true. -/
  truthy : ν → Bool

/-- Its numbers hold those of 32 bits. -/
structure Script.Holds32 {ν : Type*} (js : Script ν) (shown : ℕ → ν) : Prop where
  zero : js.zero = shown 0
  number : ∀ n < 2 ^ 32, js.number (some (.number (decimal n))) = shown n
  truthy : ∀ n < 2 ^ 32, js.truthy (shown n) = decide (n ≠ 0)

/-- The state that the messages change: `stats.pps`, and the points of the chart, if there is one
yet. -/
structure Page (ν : Type*) where
  pps : ν
  chart : Option (List ν)

/-- What the page does besides. -/
inductive PageEffect where
  | notify (message : CStr)
  | fetchSecurityEvents
  | fetchSecurityStats

section

variable {ν : Type*} (js : Script ν)

/-- A value counts as true. -/
def Script.isTrue : Value → Bool
  | .null => false
  | .bool b => b
  | .number num => js.truthy (js.number (some (.number num)))
  | .string s => s ≠ []
  | .array _ | .object _ => true

/-- `initChart`. The chart can be made if the page has the canvas for it. -/
def initChart (made : Bool) (page : Page ν) : Page ν :=
  if made then { page with chart := some (List.replicate 30 js.zero) } else page

/-- `updateChart`. -/
def updateChart (made : Bool) (value : ν) (page : Page ν) : Page ν :=
  let page := if page.chart.isNone then initChart js made page else page
  { page with chart := page.chart.map fun data =>
      let data := data ++ [value]
      if data.length > 30 then data.tail else data }

/-- The listener for `ws-message`. -/
def wsMessage (made : Bool) (msg : Value) (page : Page ν) : Page ν × List PageEffect :=
  let page :=
    match updateData msg with
    | some data =>
      if js.isTrue data then
        let pps := js.number (data.get? "pps".toList)
        let pps := if js.truthy pps then pps else js.zero
        updateChart js made pps { page with pps }
      else page
    | none => page
  let update :=
    if hasType "security_update".toList msg then [.fetchSecurityEvents, .fetchSecurityStats]
    else []
  let alert :=
    if hasType "security_alert".toList msg then
      [.notify ("Security Alert: ".toList ++ js.text (msg.get? "message".toList)),
        .fetchSecurityStats, .fetchSecurityEvents]
    else []
  (page, update ++ alert)

/-- `onmessage`: what is no JSON text is ignored. -/
def onmessage (made : Bool) (text : CStr) (page : Page ν) : Page ν × List PageEffect :=
  match JsonText.parse text with
  | some payload => wsMessage js made payload page
  | none => (page, [])

/-- The page after some messages, each with whether the chart can be made then. -/
def Page.after (given : List (CStr × Bool)) (page : Page ν) : Page ν :=
  given.foldl (fun page g => (onmessage js g.2 g.1 page).1) page

/-! ## What a message does -/

/-- The rate that a report is shown as. -/
def TrafficReport.rate (shown : ℕ → ν) (r : TrafficReport) : ν := shown r.pps.toNat

variable {js} {shown : ℕ → ν}

/-- What the page makes of a rate. -/
theorem Script.Holds32.number_or_zero (hjs : js.Holds32 shown) (x : U32) :
    (if js.truthy (js.number (some (.number (decimal x.toNat)))) then
      js.number (some (.number (decimal x.toNat))) else js.zero) = shown x.toNat := by
  rw [hjs.number _ x.isLt, hjs.truthy _ x.isLt, hjs.zero]
  rcases eq_or_ne x.toNat 0 with heq | hne
  · rw [heq]
    exact ite_self _
  · rw [if_pos (decide_eq_true hne)]

/-- **An update** is shown. -/
theorem onmessage_text (hjs : js.Holds32 shown) {r : TrafficReport} (hlong : IsLong r.timestamp)
    (made : Bool) (page : Page ν) :
    onmessage js made r.text page =
      (updateChart js made (r.rate shown) { page with pps := r.rate shown }, []) := by
  have hpps : (Value.object r.members).get? "pps".toList = some (.number (decimal r.pps.toNat)) :=
    by rfl
  have hupdate : hasType "security_update".toList r.value = false := by rfl
  have halert : hasType "security_alert".toList r.value = false := by rfl
  rw [onmessage, TrafficReport.parse_text hlong]
  simp only [wsMessage, updateData_value, Script.isTrue, hpps, hjs.number_or_zero, hupdate, halert,
    TrafficReport.rate, if_true, Bool.false_eq_true, if_false, List.append_nil]

/-- **Any other message** changes neither the rate nor the chart. -/
theorem onmessage_other {text : CStr} (h : (JsonText.parse text).bind updateData = none)
    (made : Bool) (page : Page ν) : (onmessage js made text page).1 = page := by
  rw [onmessage]
  cases hparse : JsonText.parse text with
  | none => rfl
  | some payload =>
    rw [hparse, Option.bind_some] at h
    simp only [wsMessage, h]

/-- An alert that can be read is announced, but a page that is asked for its `message` finds none:
alerts have no such member. -/
theorem onmessage_alert {event : SecurityEvent} (hsev : SEVERITY_WARNING ≤ event.severity)
    (hlen : event.action.length ≤ 31) (haction : IsVerbatim event.action) (made : Bool)
    (page : Page ν) :
    onmessage js made (alertJson event) page =
      (page, [.notify ("Security Alert: ".toList ++ js.text none), .fetchSecurityStats,
        .fetchSecurityEvents]) := by
  have hscan := scan_alert haction.2
  have hdata := updateData_alert hlen hscan
  rw [onmessage, alertJson_eq hsev hlen, parse_alert, if_pos haction.1, hscan]
  simp only [wsMessage, hdata]
  rfl

/-- One more point on a chart that shows the newest ones. -/
theorem updateChart_newest {made : Bool} {value : ν} {page : Page ν} {points : List ν}
    (hchart : page.chart = some (newest 30 points)) :
    updateChart js made value page =
      { page with chart := some (newest 30 (points ++ [value])) } := by
  simp only [updateChart, hchart, Option.isNone_some, Bool.false_eq_true, if_false, Option.map_some,
    newest_concat, gt_iff_lt]

/-- A message of a run: an update with the numbers of a report, or no update. -/
def ShowsReport (text : CStr) : Prop :=
  (∃ r : TrafficReport, IsLong r.timestamp ∧ text = r.text) ∨
    (JsonText.parse text).bind updateData = none

/-- **The page after some messages.** -/
theorem Page.after_newest (hjs : js.Holds32 shown) {given : List (CStr × Bool)}
    (hgiven : ∀ g ∈ given, ShowsReport g.1) {page : Page ν} {chart : List ν}
    (hchart : page.chart = some chart) (hlength : chart.length ≤ 30) :
    let rs := (given.map Prod.fst).filterMap readReport
    page.after js given =
      { pps := rs.getLast?.elim page.pps (TrafficReport.rate shown)
        chart := some (newest 30 (chart ++ rs.map (TrafficReport.rate shown))) } := by
  induction given using List.reverseRecOn with
  | nil =>
    obtain ⟨pps, _⟩ := page
    obtain rfl : _ = some chart := hchart
    simp [after, newest_of_le hlength]
  | append_singleton given g ih =>
    obtain ⟨hbefore, hg⟩ := List.forall_mem_append.1 hgiven
    intro rs
    have hstep : page.after js (given ++ [g]) =
        (onmessage js g.2 g.1 (page.after js given)).1 := by
      rw [after, List.foldl_append]
      rfl
    have hrs : rs = (given.map Prod.fst).filterMap readReport ++ (readReport g.1).toList := by
      rw [← Trace.filterMap_concat, ← List.map_singleton, ← List.map_append]
    rw [hstep, ih hbefore]
    rcases hg g (List.mem_singleton_self _) with ⟨r, hlong, htext⟩ | hother
    · rw [hrs, htext, readReport_text hlong, onmessage_text hjs hlong, updateChart_newest rfl]
      simp
    · have hnone : readReport g.1 = none := by
        rw [readReport, readUpdate, hother]
        rfl
      rw [hrs, onmessage_other hother, hnone]
      simp

/-! ## The page of a client -/

/-- What is broadcast shows the reports of the monitor thread, and nothing else does. -/
theorem showsReport_of_sent {libs : Libs} {globalStatsFd : ℤ} {samples : List Sample}
    {msgs : List CStr} (hlong : ∀ s ∈ samples, IsLong s.time) (hsent : ∀ msg ∈ msgs, Sent libs msg)
    (hmonitor : msgs.filter isTrafficUpdate = monitorThread globalStatsFd samples) :
    ∀ msg ∈ msgs, ShowsReport msg := by
  intro msg hmsg
  cases hsent msg hmsg with
  | line l h => exact .inr (updateData_of_line h).2
  | traffic timestamp pps bps totalPackets totalBytes =>
    have hmem := List.mem_filter.2 ⟨hmsg, isTrafficUpdate_text ..⟩
    rw [hmonitor] at hmem
    obtain ⟨r, hr, htext⟩ := List.mem_map.1 hmem
    exact .inl ⟨r, isLong_timestamp hlong r hr, htext.symm⟩

/-- The actions of a run in which a client connects. -/
theorem filterMap_action_established (pre since : List WsEvent) (c : ℕ) :
    (pre ++ .established c :: since).filterMap WsEvent.action =
      pre.filterMap WsEvent.action ++ .join c :: since.filterMap WsEvent.action := by
  rw [List.filterMap_append]
  rfl

/-- The channel of a client, from its connection on. -/
theorem ConnectedSince.readers {es : List WsEvent} {c : ℕ} {since : List WsEvent}
    (h : ConnectedSince es c since) (hfew : (broadcasts es).length < 2 ^ 31 - 1) :
    ∃ pre, es = pre ++ .established c :: since ∧
      (Channel.run (pre.filterMap WsEvent.action)).readers c = none ∧
      .leave c ∉ since.filterMap WsEvent.action := by
  obtain ⟨before, hsplit, hnone, hopen⟩ := h.actions hfew
  obtain ⟨pre, rfl, -⟩ := h
  rw [filterMap_action_established] at hsplit
  exact ⟨pre, rfl, List.append_cancel_right hsplit ▸ hnone, hopen⟩

/-- A client that is caught up is a reader that is up to date. -/
theorem reader_seen {es : List WsEvent} (hfew : (broadcasts es).length < 2 ^ 31 - 1) {c : ℕ}
    {p : Reader CStr} (hp : (channel es).readers c = some p)
    (hupto : ∀ pss, (wsRun es).clients c = some pss → pss.lastMsgId = (wsRun es).currentMsgId) :
    p.seen = (published (es.filterMap WsEvent.action)).length := by
  obtain ⟨hrefines, -⟩ := wsRun_refines es hfew
  rw [← hrefines.clients, Table.map_apply, Option.map_eq_some_iff] at hp
  obtain ⟨pss, hc, rfl⟩ := hp
  rw [← Broadcast.log_run, ← channel, ← hrefines.count, ← hupto pss hc]
  rfl

section

variable {es : List WsEvent} {c : ℕ} {pss : WsClient} {since : List WsEvent}

/-- A client that is caught up was given the newest message last. -/
theorem getLast?_written (hfew : (broadcasts es).length < 2 ^ 31 - 1)
    (hc : (wsRun es).clients c = some pss) (hupto : pss.lastMsgId = (wsRun es).currentMsgId)
    (hsince : ConnectedSince es c since) (hne : broadcasts since ≠ []) :
    pss.written.getLast? = ((broadcasts since).map (strncpy (MAX_MSG_LEN - 1))).getLast? := by
  obtain ⟨pre, rfl, hnone, hopen⟩ := hsince.readers hfew
  obtain ⟨p, hp, hlast⟩ := Broadcast.reader_lastGiven hnone hopen
  rw [← filterMap_action_established] at hp hlast
  have hseen := reader_seen hfew hp fun pss' hc' => by
    rw [hc, Option.some.injEq] at hc'
    rw [← hc', hupto]
  have hreader := congrFun (wsRun_refines _ hfew).1.clients c
  rw [channel, hp, Table.map_apply, hc, Option.map_some, Option.some.injEq] at hreader
  have hlog : published ((pre ++ .established c :: since).filterMap WsEvent.action) =
      published (pre.filterMap WsEvent.action) ++
        (broadcasts since).map (strncpy (MAX_MSG_LEN - 1)) := by
    rw [filterMap_action_established, published_append, published_cons_join,
      published_actions since]
  have hmap : (broadcasts since).map (strncpy (MAX_MSG_LEN - 1)) ≠ [] :=
    mt List.map_eq_nil_iff.1 hne
  have hgiven := hlast.received (by
    rw [hseen, hlog, List.length_append]
    exact Nat.lt_add_of_pos_right (List.length_pos_iff.2 hmap))
  rw [hseen, List.take_length, hlog, List.getLast?_append_of_ne_nil _ hmap] at hgiven
  rw [← hgiven, ← hreader]
  rfl

/-- A client is caught up whenever a message is broadcast. -/
def KeepsPace (es : List WsEvent) (c : ℕ) : Prop :=
  ∀ pre msg, pre ++ [.broadcast msg] <+: es → ∀ pss, (wsRun pre).clients c = some pss →
    pss.lastMsgId = (wsRun pre).currentMsgId

/-- Its reader is up to date then. -/
theorem KeepsPace.reader {pre : List WsEvent}
    (h : KeepsPace (pre ++ .established c :: since) c)
    (hfew : (broadcasts (pre ++ .established c :: since)).length < 2 ^ 31 - 1) :
    Broadcast.KeepsPace (pre.filterMap WsEvent.action) (since.filterMap WsEvent.action) c := by
  rintro mid m p ⟨rest, hrest⟩ hp
  rw [List.append_assoc] at hrest
  obtain ⟨before, after, rfl, rfl, hafter⟩ := List.filterMap_eq_append_iff.1 hrest.symm
  obtain ⟨loops, e, later, rfl, hloops, he, -⟩ := List.filterMap_eq_cons_iff.1 hafter
  obtain ⟨msg, rfl⟩ : ∃ msg, e = .broadcast msg := by
    cases e <;> cases he
    exact ⟨_, rfl⟩
  have hbefore : (before ++ loops).filterMap WsEvent.action = before.filterMap WsEvent.action := by
    rw [List.filterMap_append, List.filterMap_eq_nil_iff.2 hloops, List.append_nil]
  have hprefix : pre ++ .established c :: (before ++ loops) ++ [.broadcast msg] <+:
      pre ++ .established c :: (before ++ (loops ++ .broadcast msg :: later)) := ⟨later, by simp⟩
  have hprefew := broadcasts_few ((List.prefix_append ..).trans hprefix) hfew
  rw [← hbefore, ← filterMap_action_established] at hp ⊢
  exact reader_seen hprefew hp (h _ msg hprefix)

/-- **A client that keeps pace** and is caught up was given every message. -/
theorem written_eq (hfew : (broadcasts es).length < 2 ^ 31 - 1)
    (hc : (wsRun es).clients c = some pss) (hupto : pss.lastMsgId = (wsRun es).currentMsgId)
    (hsince : ConnectedSince es c since) (hpace : KeepsPace es c) :
    pss.written = (broadcasts since).map (strncpy (MAX_MSG_LEN - 1)) := by
  obtain ⟨pre, rfl, hnone, hopen⟩ := hsince.readers hfew
  obtain ⟨p, hp, hall⟩ := Broadcast.reader_keepsPace hnone hopen (hpace.reader hfew)
  rw [← filterMap_action_established] at hp hall
  have hseen := reader_seen hfew hp fun pss' hc' => by
    rw [hc, Option.some.injEq] at hc'
    rw [← hc', hupto]
  have hreader := congrFun (wsRun_refines _ hfew).1.clients c
  rw [channel, hp, Table.map_apply, hc, Option.map_some, Option.some.injEq] at hreader
  rw [Broadcast.Reader.take_of_le (Nat.le_of_eq hseen.symm), published_actions, ← hreader] at hall
  exact hall

end

/-- **The dashboard shows what the monitor thread reports.** Let any clients and any alerts come and
go while the monitor thread broadcasts its updates. The reports in the messages that were written to
a client are some of those that were broadcast since it connected, and the chart of its page has
their rates, in their order, behind the points that it had, as far as it shows them. If the client
is caught up and the newest message is an update, the page shows its rate; and if it has been caught
up at every broadcast, no report is missing.

The page is given all that was written (`hgiven`). This leaves out the browser that is sent a frame
that is not in UTF-8: it fails the connection, and `connect` makes another one. -/
theorem dashboard_shows {ν : Type*} {js : Script ν} {shown : ℕ → ν} (hjs : js.Holds32 shown)
    {libs : Libs} {globalStatsFd : ℤ} {samples : List Sample} (hlong : ∀ s ∈ samples, IsLong s.time)
    {es : List WsEvent} (hfew : (broadcasts es).length < 2 ^ 31 - 1)
    (hsent : ∀ msg ∈ broadcasts es, Sent libs msg)
    (hmonitor : (broadcasts es).filter isTrafficUpdate = monitorThread globalStatsFd samples)
    {c : ℕ} {pss : WsClient} (hc : (wsRun es).clients c = some pss) {given : List (CStr × Bool)}
    (hgiven : given.map Prod.fst = pss.written) {page : Page ν} {chart : List ν}
    (hchart : page.chart = some chart) (hlength : chart.length ≤ 30) :
    let rs := pss.written.filterMap readReport
    ∃ (since : List WsEvent) (n : ℕ), ConnectedSince es c since ∧
      (broadcasts since).filterMap readReport = (reports globalStatsFd samples).drop n ∧
      rs.Sublist ((reports globalStatsFd samples).drop n) ∧
      page.after js given =
        { pps := rs.getLast?.elim page.pps (TrafficReport.rate shown)
          chart := some (newest 30 (chart ++ rs.map (TrafficReport.rate shown))) } ∧
      (pss.lastMsgId = (wsRun es).currentMsgId →
        (∀ r ∈ reports globalStatsFd samples, (broadcasts since).getLast? = some r.text →
          (page.after js given).pps = r.rate shown) ∧
        (KeepsPace es c → rs = (reports globalStatsFd samples).drop n)) := by
  obtain ⟨since, hsince, hsub⟩ := connectedSince_of_client hfew hc
  have hsplit : ∃ pre, broadcasts es = broadcasts pre ++ broadcasts since := by
    obtain ⟨pre, rfl, -⟩ := hsince
    exact ⟨pre, List.filterMap_append ..⟩
  obtain ⟨pre, hsplit⟩ := hsplit
  have hsentSince : ∀ msg ∈ broadcasts since, Sent libs msg := by
    intro msg hmsg
    refine hsent msg ?_
    rw [hsplit]
    exact List.mem_append_right _ hmsg
  have hwhole : (broadcasts since).map (strncpy (MAX_MSG_LEN - 1)) = broadcasts since := by
    refine (List.map_congr_left fun msg hmsg => ?_).trans (List.map_id _)
    exact List.take_of_length_le
      (Nat.le_sub_one_of_lt (hsentSince msg hmsg).programMessage.length_lt)
  rw [hwhole] at hsub
  have hreports : (broadcasts pre).filterMap readReport ++ (broadcasts since).filterMap readReport =
      reports globalStatsFd samples := by
    rw [← List.filterMap_append, ← hsplit, filterMap_readReport hlong hsent hmonitor]
  have hdrop : (broadcasts since).filterMap readReport = (reports globalStatsFd samples).drop
      ((broadcasts pre).filterMap readReport).length := by
    rw [← hreports, List.drop_left]
  have hshows : ∀ g ∈ given, ShowsReport g.1 := by
    intro g hg
    refine showsReport_of_sent hlong hsent hmonitor _ ?_
    have hwritten : g.1 ∈ pss.written := hgiven ▸ List.mem_map_of_mem hg
    rw [hsplit]
    exact List.mem_append_right _ (hsub.subset hwritten)
  have hafter := Page.after_newest hjs hshows hchart hlength
  rw [hgiven] at hafter
  refine ⟨since, _, hsince, hdrop, hdrop ▸ hsub.filterMap _, hafter,
    fun hupto => ⟨fun r hr hnewest => ?_, fun hpace => ?_⟩⟩
  · have hne : broadcasts since ≠ [] := by
      intro hnil
      rw [hnil] at hnewest
      cases hnewest
    have hlast := getLast?_written hfew hc hupto hsince hne
    rw [hwhole, hnewest, List.getLast?_eq_some_iff] at hlast
    obtain ⟨earlier, hearlier⟩ := hlast
    rw [hafter, hearlier, Trace.filterMap_concat, readReport_text (isLong_timestamp hlong r hr),
      Option.toList_some, List.getLast?_concat]
    rfl
  · rw [written_eq hfew hc hupto hsince hpace, hwhole, hdrop]

end

/-- A script whose numbers are natural numbers. -/
def naturals : Script ℕ where
  zero := 0
  number := fun v => (v.bind Value.nat?).getD 0
  text := fun _ => "undefined".toList
  truthy := fun n => n ≠ 0

theorem naturals_holds32 : naturals.Holds32 id where
  zero := rfl
  number n _ := by
    change (Value.nat? (.number (decimal n))).getD 0 = n
    rw [nat?_decimal, Option.getD_some]
  truthy _ _ := rfl

/-- A client connects and is given an update, an alert and another update. -/
def watchedRun : List WsEvent :=
  .established 0 :: watchedTexts.flatMap fun msg => [.broadcast msg, .writeable 0]

/-- What the client is given. -/
def watchedMessages : List (CStr × Bool) := watchedTexts.map (·, true)

/-- The page when it is opened. -/
def openedPage : Page ℕ := initChart naturals true ⟨0, none⟩

/-- The client is given the two updates with the alert between them, and its page shows the rate of
the second one. -/
theorem dashboard_shows_two : (openedPage.after naturals watchedMessages).pps = 4 := by
  have hclient : (wsRun watchedRun).clients 0 =
      some ⟨3, false, watchedMessages.map Prod.fst⟩ := by decide +kernel
  have hsent : ∀ msg ∈ broadcasts watchedRun, Sent killedLibs msg := sent_watchedTexts
  have hmonitor : (broadcasts watchedRun).filter isTrafficUpdate = monitorThread 3 twoSamples :=
    filter_watchedTexts
  have hchart : openedPage.chart = some (List.replicate 30 0) := rfl
  obtain ⟨since, n, ⟨pre, hsplit, -⟩, -, -, -, hnewest⟩ := dashboard_shows naturals_holds32
    (by decide) (by decide) hsent hmonitor hclient rfl hchart (by decide)
  have hsince : since = watchedRun.tail := by
    cases pre with
    | nil => exact (List.tail_eq_of_cons_eq hsplit).symm
    | cons e pre =>
      have hagain : WsEvent.established 0 ∈ watchedRun.tail := by
        rw [hsplit, List.cons_append, List.tail_cons]
        exact List.mem_append_right _ (List.mem_cons_self ..)
      simp [watchedRun, watchedTexts] at hagain
  exact (hnewest rfl).1 secondReport (by decide) (by rw [hsince]; rfl)

end Cyrenus
