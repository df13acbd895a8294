import Cyrenus.Http.BodyChunks
import Cyrenus.Lib.Part

/-!
# Connections

The library calls `handle_request` for many connections in turn: for each request once when its
headers have arrived, once for each chunk of its body and once more at its end, and it calls
`request_completed` when the request is over, in whatever way. `connections_serial` says that a run
of such calls, interleaved in any way, is one of whole requests, each handled at the moment of the
call that decides it, with a body that is made of its own chunks.
-/

namespace Cyrenus

open Trace (final trace IsSerial)

/-! ## Contexts -/

/-- What is collected of a body by the calls for it. -/
structure ConnectionContext.Collects (ctx : ConnectionContext) : Prop where
  ne_nil : ctx.data ≠ some []
  size_eq : ctx.size = (ctx.data.getD []).length
  size_le : ctx.size ≤ MAX_PAYLOAD_SIZE

/-- A context as the calls build it. -/
abbrev CollectedContext := { ctx : ConnectionContext // ctx.Collects }

/-- The context of a new request: `calloc`. -/
def CollectedContext.new : CollectedContext := ⟨⟨none, 0⟩, nofun, rfl, Nat.zero_le _⟩

/-- The bytes of the body so far. -/
def CollectedContext.bytes (ctx : CollectedContext) : List Char := ctx.1.data.getD []

/-- `handle_request` on a chunk that has a byte. -/
def CollectedContext.receive (ctx : CollectedContext) (chunk : List Char) (hne : chunk ≠ []) :
    Option CollectedContext :=
  match h : ctx.1.receive chunk with
  | none => none
  | some ctx' => some ⟨ctx', by
      rw [ConnectionContext.receive] at h
      split at h
      · cases h
      · cases h
        refine ⟨fun hnil => hne ?_, ?_, Nat.not_lt.1 ‹_›⟩
        · exact (List.append_eq_nil_iff.1 (Option.some.inj hnil)).2
        · rw [Option.getD_some, List.length_append, ctx.2.size_eq]⟩

/-- The size of a context is that of its bytes. -/
theorem CollectedContext.size_eq (ctx : CollectedContext) : ctx.1.size = ctx.bytes.length :=
  ctx.2.size_eq

/-- A chunk too many. -/
theorem CollectedContext.receive_eq_none {ctx : CollectedContext} {chunk : List Char}
    {hne : chunk ≠ []} (h : MAX_PAYLOAD_SIZE < ctx.bytes.length + chunk.length) :
    ctx.receive chunk hne = none := by
  rw [← ctx.size_eq] at h
  rw [receive]
  split
  · rfl
  · rename_i hsome
    rw [ConnectionContext.receive, if_pos h] at hsome
    cases hsome

/-- Any other chunk is put behind the bytes that are there. -/
theorem CollectedContext.receive_eq_some {ctx : CollectedContext} {chunk : List Char}
    {hne : chunk ≠ []} (h : ctx.bytes.length + chunk.length ≤ MAX_PAYLOAD_SIZE) :
    ∃ ctx', ctx.receive chunk hne = some ctx' ∧ ctx'.bytes = ctx.bytes ++ chunk := by
  rw [← ctx.size_eq] at h
  rw [receive]
  split
  · rename_i hnone
    rw [ConnectionContext.receive, if_neg (Nat.not_lt.2 h)] at hnone
    cases hnone
  · rename_i ctx' hsome
    rw [ConnectionContext.receive, if_neg (Nat.not_lt.2 h)] at hsome
    cases hsome
    exact ⟨_, rfl, rfl⟩

/-! ## Requests -/

/-- What the library knows of a request when its headers have arrived. -/
structure RequestHead where
  url : CStr
  method : CStr
  authorization : Option CStr
  apiKey : Option CStr

/-- The request with a body that comes in one piece. -/
def RequestHead.request (head : RequestHead) (body : List Char) : HttpRequest where
  url := head.url
  method := head.method
  authorization := head.authorization
  apiKey := head.apiKey
  chunks := if body = [] then [] else [body]
  chunks_ne := by
    intro chunk hchunk
    split at hchunk
    · cases hchunk
    · rwa [List.mem_singleton.1 hchunk]

@[simp] theorem RequestHead.flatten_request (head : RequestHead) (body : List Char) :
    (head.request body).chunks.flatten = body := by
  rw [request]
  split <;> simp_all

/-- The part of `handle_request` that follows when the body has arrived. -/
def handleReceived (libs : Libs) (a : Answers)
    (report : Handler → Option Response) (req : HttpRequest)
    (ctx : ConnectionContext) (srv : Server) : Outcome × Server :=
  match publicRoute req.url req.method with
  | some h => runRoute libs a report req ctx.body srv (.handler h)
  | none =>
    match authenticate libs a req srv.db with
    | (false, _) => (unauthorized, srv)
    | (true, db) =>
      runRoute libs a report req ctx.body { srv with db := db }
        (protectedRoute req.url req.method)

/-- One call of `handle_request`, with what `*con_cls` points to: the outcome, if the call decides
the request, what `*con_cls` then points to, and the server. -/
def handleRequestCall (libs : Libs) (a : Answers) (report : Handler → Option Response)
    (head : RequestHead) (conCls : Option CollectedContext) (uploadData : List Char)
    (srv : Server) : Option Outcome × Option CollectedContext × Server :=
  match conCls with
  | none => (none, some .new, srv)
  | some ctx =>
    if hne : uploadData ≠ [] then
      match ctx.receive uploadData hne with
      | none => (some ⟨none, .refused⟩, some ctx, srv)
      | some ctx' => (none, some ctx', srv)
    else
      let r := handleReceived libs a report (head.request []) ctx.1 srv
      (some r.1, some ctx, r.2)

/-- A handler gets no more of a request than its headers and the context. -/
theorem handleReceived_request (libs : Libs) (a : Answers) (report : Handler → Option Response)
    (head : RequestHead) (body : List Char) (ctx : ConnectionContext) (srv : Server) :
    handleReceived libs a report (head.request body) ctx srv =
      handleReceived libs a report (head.request []) ctx srv := by
  have hrun : ∀ data srv r, runRoute libs a report (head.request body) data srv r =
      runRoute libs a report (head.request []) data srv r := by
    intro data srv r
    cases r with
    | handler h => cases h <;> rfl
    | notFound | overrun => rfl
  simp only [handleReceived, hrun]
  rfl

/-- **The last call** handles the whole request. -/
theorem handleReceived_eq (libs : Libs) (a : Answers) (report : Handler → Option Response)
    (head : RequestHead) (ctx : CollectedContext) (srv : Server) :
    handleReceived libs a report (head.request []) ctx.1 srv =
      handleRequest libs a report (head.request ctx.bytes) srv := by
  have hreceive : (head.request ctx.bytes).receive = some ctx.1 := by
    have hsize : (head.request ctx.bytes).bodySize = ctx.1.size := by
      rw [← length_body, head.flatten_request, ctx.2.size_eq]
      rfl
    have hbytes : (if (head.request ctx.bytes).chunks = [] then none else
        some (head.request ctx.bytes).chunks.flatten) = ctx.1.data := by
      simp only [← flatten_eq_nil_iff, head.flatten_request]
      obtain ⟨⟨data, size⟩, hcollects⟩ := ctx
      cases data with
      | none => rfl
      | some bytes =>
        have hne : bytes ≠ [] := fun h => hcollects.ne_nil (congrArg some h)
        exact if_neg hne
    rw [HttpRequest.receive_eq, hsize, if_pos ctx.2.size_le, hbytes]
  rw [← handleReceived_request libs a report head ctx.bytes, handleRequest, hreceive]
  rfl

/-- A request with too large a body is refused. -/
theorem handleRequest_of_lt {libs : Libs} {a : Answers} {report : Handler → Option Response}
    {head : RequestHead} {body : List Char} (h : MAX_PAYLOAD_SIZE < body.length) (srv : Server) :
    handleRequest libs a report (head.request body) srv = (⟨none, .refused⟩, srv) := by
  have hlarge : MAX_PAYLOAD_SIZE < (head.request body).chunks.flatten.length := by
    rwa [head.flatten_request]
  rw [handleRequest, receive_eq_none hlarge]

/-- A call that decides a request: there is no more of the body, or too much. -/
def Decides (bytes uploadData : List Char) : Prop :=
  uploadData = [] ∨ MAX_PAYLOAD_SIZE < bytes.length + uploadData.length

instance (bytes uploadData : List Char) : Decidable (Decides bytes uploadData) :=
  inferInstanceAs (Decidable (_ ∨ _))

/-- **The call that decides** a request handles it as a whole. -/
theorem handleRequestCall_of_decides (libs : Libs) (a : Answers)
    (report : Handler → Option Response) (head : RequestHead) {ctx : CollectedContext}
    {uploadData : List Char} (h : Decides ctx.bytes uploadData) (srv : Server) :
    handleRequestCall libs a report head (some ctx) uploadData srv =
      let r := handleRequest libs a report (head.request (ctx.bytes ++ uploadData)) srv
      (some r.1, some ctx, r.2) := by
  rw [handleRequestCall]
  by_cases hne : uploadData = []
  · subst hne
    rw [dif_neg (not_not_intro rfl), handleReceived_eq, List.append_nil]
  · have hlarge := h.resolve_left hne
    rw [dif_pos hne, CollectedContext.receive_eq_none hlarge,
      handleRequest_of_lt (by rwa [List.length_append])]

/-- **Any other call** collects its chunk. -/
theorem handleRequestCall_of_not_decides (libs : Libs) (a : Answers)
    (report : Handler → Option Response) (head : RequestHead) {ctx : CollectedContext}
    {uploadData : List Char} (h : ¬ Decides ctx.bytes uploadData) (srv : Server) :
    ∃ ctx',
      handleRequestCall libs a report head (some ctx) uploadData srv = (none, some ctx', srv) ∧
        ctx'.bytes = ctx.bytes ++ uploadData := by
  obtain ⟨hne, hle⟩ := not_or.1 h
  obtain ⟨ctx', hreceive, hbytes⟩ :=
    @CollectedContext.receive_eq_some ctx uploadData hne (Nat.not_lt.1 hle)
  refine ⟨ctx', ?_, hbytes⟩
  rw [handleRequestCall, dif_pos hne, hreceive]

/-! ## Runs -/

/-- A request that has begun: its headers, what `*con_cls` points to, and whether a call has decided
it. The library makes no more calls for one that is decided. -/
structure Connection where
  head : RequestHead
  conCls : Option CollectedContext
  answered : Bool

/-- What happens on a connection: the headers of a request arrive, the library calls
`handle_request`, or it calls `request_completed`. -/
inductive ConnectionAction where
  | headers (head : RequestHead)
  | call (uploadData : List Char) (a : Answers) (report : Handler → Option Response)
  | completed

/-- Something happens on a connection. -/
structure ConnectionEvent where
  connection : ℕ
  action : ConnectionAction

/-- The server and its connections. -/
structure ConnectionServer where
  server : Server
  connections : Table ℕ Connection

/-- What an action does to its connection and to the server, with the outcome of the request that
it decides. -/
def connectionAct (libs : Libs) : ConnectionAction → Option Connection → Server →
    Option Outcome × Option Connection × Server
  | .headers head, none, srv => (none, some ⟨head, none, false⟩, srv)
  | .call uploadData a report, some ⟨head, conCls, false⟩, srv =>
    let r := handleRequestCall libs a report head conCls uploadData srv
    (r.1, some ⟨head, r.2.1, r.1.isSome⟩, r.2.2)
  | .completed, _, srv => (none, none, srv)
  | _, conn, srv => (none, conn, srv)

/-- One event. -/
def connectionStep (libs : Libs) (event : ConnectionEvent) (s : ConnectionServer) :
    Option Outcome × ConnectionServer :=
  let r := connectionAct libs event.action (s.connections event.connection) s.server
  (r.1, ⟨r.2.2, Function.update s.connections event.connection r.2.1⟩)

@[simp] theorem connectionStep_same (libs : Libs) (event : ConnectionEvent) (s : ConnectionServer) :
    (connectionStep libs event s).2.connections event.connection =
      (connectionAct libs event.action (s.connections event.connection) s.server).2.1 :=
  Function.update_self ..

/-- An event changes its own connection only. -/
theorem connectionStep_other (libs : Libs) {event : ConnectionEvent} (s : ConnectionServer) {c : ℕ}
    (h : c ≠ event.connection) :
    (connectionStep libs event s).2.connections c = s.connections c :=
  Function.update_of_ne h ..

/-! ## Whole requests -/

/-- What has been delivered of a request on a connection. -/
inductive Delivery where
  | idle
  | headers (head : RequestHead)
  | body (head : RequestHead) (bytes : List Char)
  | decided

/-- What an action delivers. -/
def deliver : Delivery → ConnectionAction → Delivery
  | .idle, .headers head => .headers head
  | .idle, _ => .idle
  | _, .completed => .idle
  | .headers head, .call .. => .body head []
  | .body head bytes, .call uploadData _ _ =>
    if Decides bytes uploadData then .decided else .body head (bytes ++ uploadData)
  | delivery, _ => delivery

/-- What the past has delivered of the request on a connection. Other connections have no part in
it. -/
def delivery (past : List ConnectionEvent) (c : ℕ) : Delivery :=
  ((past.filter (·.connection = c)).map (·.action)).foldl deliver .idle

/-- The whole request that an action completes when so much has been delivered. -/
def Delivery.completedBy : Delivery → ConnectionAction → Option Exchange
  | .body head bytes, .call uploadData a report =>
    if Decides bytes uploadData then some ⟨head.request (bytes ++ uploadData), a, report⟩ else none
  | _, _ => none

/-- The whole request that an event completes. -/
def completes (past : List ConnectionEvent) (event : ConnectionEvent) : Option Exchange :=
  (delivery past event.connection).completedBy event.action

/-- The whole requests of a run, in the order in which they are completed. -/
def wholeRequests (events : List ConnectionEvent) : List Exchange :=
  Trace.selectedAfter completes [] events

@[simp] theorem delivery_concat_same (past : List ConnectionEvent) (event : ConnectionEvent) :
    delivery (past ++ [event]) event.connection =
      deliver (delivery past event.connection) event.action := by
  simp [delivery]

theorem delivery_concat_other {past : List ConnectionEvent} {event : ConnectionEvent} {c : ℕ}
    (h : c ≠ event.connection) : delivery (past ++ [event]) c = delivery past c := by
  simp [delivery, h.symm]

/-- What a connection is when so much has been delivered. -/
inductive Tracks : Option Connection → Delivery → Prop where
  | idle : Tracks none .idle
  | headers (head : RequestHead) : Tracks (some ⟨head, none, false⟩) (.headers head)
  | body (head : RequestHead) (ctx : CollectedContext) :
    Tracks (some ⟨head, some ctx, false⟩) (.body head ctx.bytes)
  | decided (head : RequestHead) (conCls : Option CollectedContext) :
    Tracks (some ⟨head, conCls, true⟩) .decided

/-- The connections are as the past has left them. -/
def Tracked (past : List ConnectionEvent) (s : ConnectionServer) : Prop :=
  ∀ c, Tracks (s.connections c) (delivery past c)

/-- **One action** completes a whole request, which is handled, or does nothing to the server. -/
theorem connectionAct_of_tracks (libs : Libs) {conn : Option Connection} {delivered : Delivery}
    (h : Tracks conn delivered) (action : ConnectionAction) (srv : Server) :
    Tracks (connectionAct libs action conn srv).2.1 (deliver delivered action) ∧
      (connectionAct libs action conn srv).1 =
        (delivered.completedBy action).map (fun e => (httpStep libs e srv).1) ∧
      (connectionAct libs action conn srv).2.2 =
        (delivered.completedBy action).elim srv fun e => (httpStep libs e srv).2 := by
  cases action with
  | headers head =>
    cases h with
    | idle => exact ⟨.headers head, rfl, rfl⟩
    | headers head' => exact ⟨.headers head', rfl, rfl⟩
    | body head' ctx => exact ⟨.body head' ctx, rfl, rfl⟩
    | decided head' conCls => exact ⟨.decided head' conCls, rfl, rfl⟩
  | completed => cases h <;> exact ⟨.idle, rfl, rfl⟩
  | call uploadData a report =>
    cases h with
    | idle => exact ⟨.idle, rfl, rfl⟩
    | headers head => exact ⟨.body head .new, rfl, rfl⟩
    | decided head conCls => exact ⟨.decided head conCls, rfl, rfl⟩
    | body head ctx =>
      rw [connectionAct, deliver, Delivery.completedBy]
      by_cases hdecides : Decides ctx.bytes uploadData
      · rw [handleRequestCall_of_decides libs a report head hdecides, if_pos hdecides,
          if_pos hdecides]
        exact ⟨.decided head (some ctx), rfl, rfl⟩
      · obtain ⟨ctx', hcall, hbytes⟩ :=
          handleRequestCall_of_not_decides libs a report head hdecides srv
        rw [hcall, if_neg hdecides, if_neg hdecides, ← hbytes]
        exact ⟨.body head ctx', rfl, rfl⟩

/-- An event leaves the connections as the past, with it, has left them. -/
theorem Tracked.step (libs : Libs) {past : List ConnectionEvent} {s : ConnectionServer}
    (h : Tracked past s) (event : ConnectionEvent) :
    Tracked (past ++ [event]) (connectionStep libs event s).2 := by
  intro c
  rcases eq_or_ne c event.connection with rfl | hne
  · rw [delivery_concat_same, connectionStep_same]
    exact (connectionAct_of_tracks libs (h event.connection) event.action s.server).1
  · rw [delivery_concat_other hne, connectionStep_other libs s hne]
    exact h c

/-- The calls of all connections are a serial run of whole requests. -/
theorem connectionStep_isSerial (libs : Libs) :
    IsSerial (connectionStep libs) Tracked ConnectionServer.server completes (httpStep libs) where
  keeps h event := h.step libs event
  output h event := (connectionAct_of_tracks libs (h event.connection) event.action _).2.1
  next h event := (connectionAct_of_tracks libs (h event.connection) event.action _).2.2

/-! ## Requests whose calls are interleaved with others -/

/-- The headers of a request. -/
def HttpRequest.head (req : HttpRequest) : RequestHead :=
  ⟨req.url, req.method, req.authorization, req.apiKey⟩

/-- The data that an action uploads. -/
def ConnectionAction.uploadData : ConnectionAction → List Char
  | .call uploadData _ _ => uploadData
  | _ => []

/-- All of a request has arrived on a connection, in calls that follow one another there: its
headers, a first call, and one call for each chunk. -/
def Arrived (past : List ConnectionEvent) (c : ℕ) (req : HttpRequest) : Prop :=
  ∃ before uploadData a report calls,
    (past.filter (·.connection = c)).map (·.action) =
        before ++ .headers req.head :: .call uploadData a report :: calls ∧
      before.foldl deliver .idle = .idle ∧ calls.map ConnectionAction.uploadData = req.chunks

/-- The chunks of a body that is not too large are put together. -/
theorem foldl_deliver {head : RequestHead} {bytes : List Char} {calls : List ConnectionAction}
    (hne : ∀ action ∈ calls, action.uploadData ≠ [])
    (hle : bytes.length + (calls.map ConnectionAction.uploadData).flatten.length ≤
      MAX_PAYLOAD_SIZE) :
    calls.foldl deliver (.body head bytes) =
      .body head (bytes ++ (calls.map ConnectionAction.uploadData).flatten) := by
  induction calls generalizing bytes with
  | nil => rw [List.map_nil, List.flatten_nil, List.append_nil, List.foldl_nil]
  | cons action calls ih =>
    have hupload := hne action List.mem_cons_self
    cases action with
    | headers | completed => exact absurd rfl hupload
    | call uploadData a report =>
      rw [List.map_cons, List.flatten_cons, List.length_append] at hle
      have hmore : ¬ Decides bytes uploadData := by
        rintro (hnil | hlarge)
        · exact hupload hnil
        · have : (ConnectionAction.call uploadData a report).uploadData = uploadData := rfl
          rw [this] at hle
          omega
      rw [List.foldl_cons, deliver, if_neg hmore, ih, List.map_cons, List.flatten_cons,
        ConnectionAction.uploadData, List.append_assoc]
      · exact fun action hmem => hne action (List.mem_cons_of_mem _ hmem)
      · rw [List.length_append]
        exact (Nat.add_assoc ..).trans_le hle

/-- **A request that has arrived** is handled as if it had been alone. -/
theorem completes_of_arrived (libs : Libs) {past : List ConnectionEvent} {c : ℕ} {e : Exchange}
    (harrived : Arrived past c e.request)
    (hle : e.request.chunks.flatten.length ≤ MAX_PAYLOAD_SIZE) :
    ∃ e', completes past ⟨c, .call [] e.answers e.report⟩ = some e' ∧
      ∀ srv, httpStep libs e' srv = httpStep libs e srv := by
  obtain ⟨before, uploadData, a, report, calls, hpast, hbefore, hchunks⟩ := harrived
  have hne : ∀ action ∈ calls, action.uploadData ≠ [] := fun action hmem =>
    e.request.chunks_ne _ (hchunks ▸ List.mem_map_of_mem hmem)
  have hdelivery : delivery past c = .body e.request.head e.request.chunks.flatten := by
    rw [delivery, hpast, List.foldl_append, hbefore, List.foldl_cons, List.foldl_cons]
    have hbody := @foldl_deliver e.request.head [] calls hne
      (by rwa [hchunks, List.length_nil, Nat.zero_add])
    rwa [hchunks] at hbody
  have hcompletes : completes past ⟨c, .call [] e.answers e.report⟩ =
      some ⟨e.request.head.request e.request.chunks.flatten, e.answers, e.report⟩ := by
    rw [completes, hdelivery, Delivery.completedBy, if_pos (.inl rfl), List.append_nil]
  refine ⟨_, hcompletes, fun srv => ?_⟩
  let whole := e.request.head.request e.request.chunks.flatten
  exact handleRequest_split libs e.answers e.report e.request srv whole.chunks_ne
    (e.request.head.flatten_request _)

/-- **Interleaved requests are served one after the other.** In every run of the server from the
moment it starts, whatever the order of the calls for its connections, the requests have the
outcomes that they have when each of them is handled as a whole at the call that completes it, and
the server ends in the state it would be in then. No request that arrives is lost, and the calls on
other connections have no part in what comes of it. -/
theorem connections_serial (libs : Libs) (srv : Server) (events : List ConnectionEvent) :
    (trace (connectionStep libs) ⟨srv, Table.empty⟩ events).filterMap Prod.snd =
        (trace (httpStep libs) srv (wholeRequests events)).map Prod.snd ∧
      (final (connectionStep libs) ⟨srv, Table.empty⟩ events).server =
        final (httpStep libs) srv (wholeRequests events) ∧
      ∀ pre c e, pre ++ [⟨c, .call [] e.answers e.report⟩] <+: events → Arrived pre c e.request →
        e.request.chunks.flatten.length ≤ MAX_PAYLOAD_SIZE →
        ∃ e' ∈ wholeRequests events, ∀ s, httpStep libs e' s = httpStep libs e s := by
  have hstart : Tracked [] ⟨srv, Table.empty⟩ := fun _ => .idle
  obtain ⟨houtputs, hserver⟩ := (connectionStep_isSerial libs).run hstart events
  refine ⟨houtputs, hserver, fun pre c e hpre harrived hle => ?_⟩
  obtain ⟨e', hcompletes, hsame⟩ := completes_of_arrived libs harrived hle
  exact ⟨e', Trace.mem_selectedAfter hpre hcompletes, hsame⟩

/-- The calls for a login with a body in two chunks, among those for another request that is given
up in the middle of its body. -/
def interleavedCalls : List ConnectionEvent :=
  let call uploadData : ConnectionAction := .call uploadData (.still 0) fun _ => some ⟨200, ""⟩
  [⟨0, .headers splitRequest.head⟩, ⟨1, .headers splitRequest.head⟩, ⟨1, call []⟩, ⟨0, call []⟩,
    ⟨0, call "\x7b".toList⟩, ⟨1, call "\x7b".toList⟩, ⟨1, .completed⟩, ⟨0, call "\x7d".toList⟩]

/-- The login is not lost. -/
theorem connections_serial_interleaved :
    let libs : Libs := ⟨fun _ => none, fun _ => [], fun _ => []⟩
    let e : Exchange := ⟨splitRequest, .still 0, fun _ => some ⟨200, ""⟩⟩
    ∃ e' ∈ wholeRequests (interleavedCalls ++ [⟨0, .call [] e.answers e.report⟩]),
      ∀ s, httpStep libs e' s = httpStep libs e s := by
  intro libs e
  have hserial := connections_serial libs .initial
    (interleavedCalls ++ [⟨0, .call [] e.answers e.report⟩])
  refine hserial.2.2 interleavedCalls 0 e List.prefix_rfl ?_ (by decide)
  exact ⟨[], [], .still 0, fun _ => some ⟨200, ""⟩, _, rfl, rfl, rfl⟩

end Cyrenus
