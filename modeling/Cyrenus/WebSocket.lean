import Cyrenus.Common
import Cyrenus.Lib.Broadcast
import Cyrenus.Lib.CString
import Cyrenus.Tetragon.Events

/-!
# The WebSocket server

`ws_broadcast_message` puts a message into a buffer and gives it the next number; any thread may
call it. The loop of `ws_server_thread_impl` requests a writable callback for every client when the
number has grown since it last did so, and the callback writes the message in the buffer to a
client that has not had it. Each of these locks the numbers only while it reads or writes them, so
the loop takes four steps between which anything may happen (`LoopPhase`). `wsRun_refines` shows
that the clients read from a channel that keeps the newest message only, and `WsAwake` is the
invariant by which none of them is left behind.
-/

namespace Cyrenus

open Broadcast (Action Channel Reader HasRead published)
open CStr (strncpy)

/-! ## The state -/

def MAX_MSG_LEN : ℕ := 4096

/-- A client: `last_msg_id` of its `struct pss_cyrenus`, whether a writable callback is pending for
it, and what has been written to it since it connected. -/
structure WsClient where
  lastMsgId : U32
  pending : Bool
  written : List CStr
  deriving DecidableEq, Repr

/-- Where the loop of `ws_server_thread_impl` stands, with its variable `current`. -/
inductive LoopPhase where
  /-- In `lws_service`. -/
  | service
  /-- `current_msg_id` has been read. -/
  | loaded (current : U32)
  /-- `server_last_msg_id` has been found smaller. -/
  | behind (current : U32)
  /-- `lws_callback_on_writable_all_protocol` has returned. -/
  | requested (current : U32)
  deriving DecidableEq, Repr

/-- The variables of the server, and its clients. -/
structure WsServer where
  broadcastMsg : CStr
  currentMsgId : U32
  serverLastMsgId : U32
  phase : LoopPhase
  clients : Table ℕ WsClient

/-- The server before anything happens. -/
def WsServer.initial : WsServer := ⟨[], 0, 0, .service, Table.empty⟩

/-! ## What happens -/

/-- `ws_broadcast_message`. -/
def wsBroadcastMessage (jsonMessage : CStr) (srv : WsServer) : WsServer :=
  { srv with
    broadcastMsg := strncpy (MAX_MSG_LEN - 1) jsonMessage
    currentMsgId := srv.currentMsgId + 1 }

/-- `LWS_CALLBACK_ESTABLISHED`: a client starts caught up. -/
def callbackEstablished (srv : WsServer) : WsClient := ⟨srv.currentMsgId, false, []⟩

/-- `LWS_CALLBACK_SERVER_WRITEABLE`, when the write succeeds. -/
def callbackServerWriteable (srv : WsServer) (pss : WsClient) : WsClient :=
  if pss.lastMsgId.slt srv.currentMsgId then
    { lastMsgId := srv.currentMsgId
      pending := false
      written := pss.written ++ [strncpy (MAX_MSG_LEN - 1) srv.broadcastMsg] }
  else { pss with pending := false }

/-- `lws_callback_on_writable_all_protocol`: a callback is pending for every client. -/
def callbackOnWritableAll (clients : Table ℕ WsClient) : Table ℕ WsClient :=
  clients.map fun pss => { pss with pending := true }

/-- The next step of the loop in `ws_server_thread_impl`. -/
def wsServerThread (srv : WsServer) : WsServer :=
  match srv.phase with
  | .service => { srv with phase := .loaded srv.currentMsgId }
  | .loaded current =>
    if srv.serverLastMsgId.slt current then { srv with phase := .behind current }
    else { srv with phase := .service }
  | .behind current =>
    { srv with clients := callbackOnWritableAll srv.clients, phase := .requested current }
  | .requested current => { srv with serverLastMsgId := current, phase := .service }

/-- What can happen next, at any time and in any thread. -/
inductive WsEvent where
  | broadcast (jsonMessage : CStr)
  | established (c : ℕ)
  | closed (c : ℕ)
  | writeable (c : ℕ)
  | loop
  deriving DecidableEq, Repr

/-- One event. A client that is connected does not connect again. -/
def wsStep (srv : WsServer) : WsEvent → WsServer
  | .broadcast jsonMessage => wsBroadcastMessage jsonMessage srv
  | .established c =>
    match srv.clients c with
    | none => { srv with clients := srv.clients.set c (callbackEstablished srv) }
    | some _ => srv
  | .closed c => { srv with clients := srv.clients.erase c }
  | .writeable c => { srv with clients := srv.clients.modify c (callbackServerWriteable srv) }
  | .loop => wsServerThread srv

/-- The server after some events. -/
def wsRun (es : List WsEvent) : WsServer := es.foldl wsStep .initial

theorem wsRun_concat (es : List WsEvent) (e : WsEvent) :
    wsRun (es ++ [e]) = wsStep (wsRun es) e := by
  rw [wsRun, List.foldl_append, List.foldl_cons, List.foldl_nil, wsRun]

/-- The messages that are broadcast, in order. -/
def broadcasts (es : List WsEvent) : List CStr :=
  es.filterMap fun | .broadcast jsonMessage => some jsonMessage | _ => none

/-! ## The messages of the program -/

/-- The message of `monitor_thread`, as a buffer of 512 bytes holds it. -/
def trafficUpdate (timestamp : ℤ) (pps : U32) (bps totalPackets totalBytes : U64) : CStr :=
  strncpy 511 ("\x7b\"type\":\"traffic_update\",\"data\":\x7b\"timestamp\":".toList ++
    CStr.ofInt timestamp ++ ",\"pps\":".toList ++ decimal pps.toNat ++ ",\"bps\":".toList ++
    decimal bps.toNat ++ ",\"total_packets\":".toList ++ decimal totalPackets.toNat ++
    ",\"total_bytes\":".toList ++ decimal totalBytes.toNat ++ "\x7d\x7d".toList)

/-- A message that the program broadcasts: of `monitor_thread`, or of
`tetragon_process_json_line`. -/
inductive ProgramMessage : CStr → Prop where
  | traffic (timestamp : ℤ) (pps : U32) (bps totalPackets totalBytes : U64) :
    ProgramMessage (trafficUpdate timestamp pps bps totalPackets totalBytes)
  | security {a : LineAnswers} {event : SecurityEvent} {st : Tetragon} {msg : CStr}
    (h : (processEvent a event st).1 = some msg) : ProgramMessage msg

/-- **Every message of the program fits into the buffer.** -/
theorem ProgramMessage.length_lt {msg : CStr} (h : ProgramMessage msg) :
    msg.length < MAX_MSG_LEN := by
  cases h with
  | traffic =>
    rw [trafficUpdate, strncpy]
    exact Nat.lt_of_le_of_lt (List.length_take_le ..) (by decide)
  | security h =>
    simp only [processEvent, tetragonGenerateAlert] at h
    split at h
    · split at h
      · cases h
      · cases h
        rw [alertJson, strncpy]
        exact Nat.lt_of_le_of_lt (List.length_take_le ..) (by decide)
    · cases h
      decide

/-! ## The channel that the clients read from -/

/-- What an event is on a channel. The messages of the channel are as long as the buffer allows. -/
def WsEvent.action : WsEvent → Option (Action ℕ CStr)
  | .broadcast jsonMessage => some (.publish (strncpy (MAX_MSG_LEN - 1) jsonMessage))
  | .established c => some (.join c)
  | .closed c => some (.leave c)
  | .writeable c => some (.take c)
  | .loop => none

/-- The channel after some events. -/
def channel (es : List WsEvent) : Channel ℕ CStr := Channel.run (es.filterMap WsEvent.action)

/-- A client as a reader of the channel. -/
def WsClient.reader (pss : WsClient) : Reader CStr := ⟨pss.lastMsgId.toNat, pss.written⟩

/-- The server stands for a channel: the number is that of the messages published, the buffer holds
the newest of them, and the clients are the readers. -/
structure WsRefines (srv : WsServer) (ch : Channel ℕ CStr) : Prop where
  count : srv.currentMsgId.toNat = ch.log.length
  newest : ∀ m, ch.log.getLast? = some m → strncpy (MAX_MSG_LEN - 1) srv.broadcastMsg = m
  clients : srv.clients.map WsClient.reader = ch.readers
  last_le : srv.clients.All fun pss => pss.lastMsgId.toNat ≤ srv.currentMsgId.toNat

/-- Numbers that are not negative are compared as they are. -/
theorem slt_iff {x y : U32} (hx : x.toNat < 2 ^ 31) (hy : y.toNat < 2 ^ 31) :
    x.slt y = true ↔ x.toNat < y.toNat := by
  rw [BitVec.slt_iff_toInt_lt, BitVec.toInt_eq_toNat_of_lt (by omega),
    BitVec.toInt_eq_toNat_of_lt (by omega), Int.ofNat_lt]

/-- A broadcast adds one to the number while it is small. -/
theorem currentMsgId_wsBroadcastMessage {srv : WsServer}
    (hfew : srv.currentMsgId.toNat < 2 ^ 31 - 1) (msg : CStr) :
    (wsBroadcastMessage msg srv).currentMsgId.toNat = srv.currentMsgId.toNat + 1 := by
  have hone : (1 : U32).toNat = 1 := rfl
  rw [wsBroadcastMessage, BitVec.toNat_add, hone]
  exact Nat.mod_eq_of_lt (by omega)

namespace WsRefines

variable {srv : WsServer} {ch : Channel ℕ CStr}

theorem initial : WsRefines .initial Channel.initial where
  count := rfl
  newest := nofun
  clients := rfl
  last_le := nofun

/-- A broadcast publishes a message. -/
theorem broadcast (h : WsRefines srv ch) (hfew : ch.log.length < 2 ^ 31 - 1) (msg : CStr) :
    WsRefines (wsBroadcastMessage msg srv)
      (ch.step (.publish (strncpy (MAX_MSG_LEN - 1) msg))) := by
  have hcount := currentMsgId_wsBroadcastMessage (h.count ▸ hfew) msg
  constructor
  · rw [hcount, h.count, Channel.step, List.length_append, List.length_singleton]
  · intro m hm
    rw [Channel.step, List.getLast?_concat, Option.some.injEq] at hm
    rw [← hm]
    exact List.take_of_length_le (List.length_take_le ..)
  · exact h.clients
  · refine h.last_le.mono fun pss hle => ?_
    rw [hcount]
    exact Nat.le_succ_of_le hle

/-- A client that connects joins. -/
theorem established (h : WsRefines srv ch) (c : ℕ) :
    WsRefines (wsStep srv (.established c)) (ch.step (.join c)) := by
  simp only [wsStep, Channel.step, ← h.clients, Table.map_apply]
  split
  · rename_i hnone
    rw [hnone]
    refine ⟨h.count, h.newest, ?_, h.last_le.set c (Nat.le_refl _)⟩
    rw [Table.map_set, ← h.count]
    rfl
  · rename_i hsome
    rw [hsome]
    exact h

/-- A client that disconnects leaves. -/
theorem closed (h : WsRefines srv ch) (c : ℕ) :
    WsRefines (wsStep srv (.closed c)) (ch.step (.leave c)) where
  count := h.count
  newest := h.newest
  clients := by rw [wsStep, Table.map_erase, h.clients, Channel.step]
  last_le := h.last_le.erase c

/-- **The callback gives a client the newest message** if it has not had it. -/
theorem callbackServerWriteable (h : WsRefines srv ch) (hfew : ch.log.length < 2 ^ 31 - 1)
    {pss : WsClient} (hle : pss.lastMsgId.toNat ≤ srv.currentMsgId.toNat) :
    (callbackServerWriteable srv pss).reader = Reader.take ch.log pss.reader := by
  have hcount := h.count
  have hbehind := slt_iff (x := pss.lastMsgId) (y := srv.currentMsgId) (by omega) (by omega)
  rw [Cyrenus.callbackServerWriteable, Reader.take]
  by_cases hlt : pss.lastMsgId.toNat < srv.currentMsgId.toNat
  · rw [if_pos (hbehind.2 hlt), if_pos (h.count ▸ hlt)]
    have hne : ch.log ≠ [] := by
      intro hnil
      rw [hcount, hnil] at hlt
      exact absurd hlt (Nat.not_lt_zero _)
    rw [WsClient.reader, h.newest _ (List.getLast?_eq_some_getLast hne),
      List.getLast?_eq_some_getLast hne, hcount]
    rfl
  · rw [if_neg (mt hbehind.1 hlt), if_neg (h.count ▸ hlt)]
    rfl

/-- A client whose callback runs takes. -/
theorem writeable (h : WsRefines srv ch) (hfew : ch.log.length < 2 ^ 31 - 1) (c : ℕ) :
    WsRefines (wsStep srv (.writeable c)) (ch.step (.take c)) where
  count := h.count
  newest := h.newest
  clients := by
    rw [wsStep, Channel.step, ← h.clients]
    exact Table.map_modify fun pss hc => h.callbackServerWriteable hfew (h.last_le c pss hc)
  last_le := by
    refine h.last_le.modify c fun pss hle => ?_
    rw [Cyrenus.callbackServerWriteable]
    split
    · exact Nat.le_refl _
    · exact hle

/-- A step of the loop is none on the channel. -/
theorem loop (h : WsRefines srv ch) : WsRefines (wsStep srv .loop) ch := by
  rw [wsStep, wsServerThread]
  split
  · exact ⟨h.count, h.newest, h.clients, h.last_le⟩
  · split <;> exact ⟨h.count, h.newest, h.clients, h.last_le⟩
  · refine ⟨h.count, h.newest, ?_, h.last_le.map fun _ hle => hle⟩
    rw [← h.clients]
    funext c
    simp only [callbackOnWritableAll, Table.map_apply, Option.map_map]
    rfl
  · exact ⟨h.count, h.newest, h.clients, h.last_le⟩

end WsRefines

/-! ## No client is left behind -/

/-- The number of the newest message for which callbacks have been requested. -/
def WsServer.woken (srv : WsServer) : U32 :=
  match srv.phase with
  | .requested current => current
  | _ => srv.serverLastMsgId

/-- A client has had the message with a number, or a callback is pending for it. -/
def WsClient.Awake (n : ℕ) (pss : WsClient) : Prop :=
  pss.pending = true ∨ n ≤ pss.lastMsgId.toNat

/-- What the loop has read is not greater than the number of the newest message. -/
def LoopPhase.Bounded (low high : ℕ) : LoopPhase → Prop
  | .loaded current => current.toNat ≤ high
  | .behind current => low ≤ current.toNat ∧ current.toNat ≤ high
  | _ => True

theorem LoopPhase.Bounded.succ {low high : ℕ} {phase : LoopPhase} (h : phase.Bounded low high) :
    phase.Bounded low (high + 1) := by
  cases phase with
  | loaded current => exact Nat.le_succ_of_le h
  | behind current => exact ⟨h.1, Nat.le_succ_of_le h.2⟩
  | service | requested => trivial

/-- The invariant of the loop: callbacks have been requested for every message up to the one that
the loop notes, and no client that has missed one of these is without a callback. -/
structure WsAwake (srv : WsServer) : Prop where
  server_le : srv.serverLastMsgId.toNat ≤ srv.woken.toNat
  woken_le : srv.woken.toNat ≤ srv.currentMsgId.toNat
  phase_le : srv.phase.Bounded srv.serverLastMsgId.toNat srv.currentMsgId.toNat
  clients : srv.clients.All (WsClient.Awake srv.woken.toNat)

namespace WsAwake

variable {srv : WsServer}

theorem initial : WsAwake .initial where
  server_le := Nat.le_refl _
  woken_le := Nat.le_refl _
  phase_le := trivial
  clients := nofun

/-- A greater number changes nothing. -/
theorem broadcast (h : WsAwake srv) (hfew : srv.currentMsgId.toNat < 2 ^ 31 - 1) (msg : CStr) :
    WsAwake (wsBroadcastMessage msg srv) := by
  have hcount := currentMsgId_wsBroadcastMessage hfew msg
  refine ⟨h.server_le, ?_, ?_, h.clients⟩
  · rw [hcount]
    exact Nat.le_succ_of_le h.woken_le
  · rw [hcount]
    exact h.phase_le.succ

/-- A client that connects has missed nothing. -/
theorem established (h : WsAwake srv) (c : ℕ) : WsAwake (wsStep srv (.established c)) := by
  rw [wsStep]
  split
  · exact ⟨h.server_le, h.woken_le, h.phase_le, h.clients.set c (.inr h.woken_le)⟩
  · exact h

theorem closed (h : WsAwake srv) (c : ℕ) : WsAwake (wsStep srv (.closed c)) :=
  ⟨h.server_le, h.woken_le, h.phase_le, h.clients.erase c⟩

/-- A client whose callback runs has had everything. -/
theorem writeable (h : WsAwake srv) (hfew : srv.currentMsgId.toNat < 2 ^ 31 - 1)
    (hle : srv.clients.All fun pss => pss.lastMsgId.toNat ≤ srv.currentMsgId.toNat) (c : ℕ) :
    WsAwake (wsStep srv (.writeable c)) := by
  refine ⟨h.server_le, h.woken_le, h.phase_le, ((h.clients.and hle).modify c ?_).mono
    fun _ hpss => hpss.1⟩
  rintro pss ⟨-, hlast⟩
  rw [callbackServerWriteable]
  split
  · exact ⟨.inr h.woken_le, Nat.le_refl _⟩
  · rename_i hnot
    rw [slt_iff (by omega) (by omega)] at hnot
    exact ⟨.inr (Nat.le_trans h.woken_le (Nat.not_lt.1 hnot)), hlast⟩

/-- **What a step of the loop does**: before it notes a number it requests callbacks. -/
theorem loop (h : WsAwake srv) (hfew : srv.currentMsgId.toNat < 2 ^ 31 - 1) :
    WsAwake (wsStep srv .loop) := by
  obtain ⟨hserver, hwoken, hphase, hclients⟩ := h
  rw [wsStep, wsServerThread]
  rw [WsServer.woken] at hserver hwoken hclients
  cases hp : srv.phase with
  | service =>
    rw [hp] at hserver hwoken hclients
    exact ⟨hserver, hwoken, Nat.le_refl _, hclients⟩
  | loaded current =>
    rw [hp] at hserver hwoken hclients hphase
    have hcurrent : current.toNat ≤ srv.currentMsgId.toNat := hphase
    dsimp only at hwoken ⊢
    split
    · rename_i hlt
      rw [slt_iff (by omega) (by omega)] at hlt
      exact ⟨hserver, hwoken, ⟨Nat.le_of_lt hlt, hcurrent⟩, hclients⟩
    · exact ⟨hserver, hwoken, trivial, hclients⟩
  | behind current =>
    rw [hp] at hphase
    exact ⟨hphase.1, hphase.2, trivial, hclients.map fun _ _ => .inl rfl⟩
  | requested current =>
    rw [hp] at hwoken hclients
    exact ⟨Nat.le_refl _, hwoken, trivial, hclients⟩

end WsAwake

/-! ## Runs -/

/-- The messages of the channel are those that are broadcast, as far as the buffer holds them. -/
theorem published_actions (es : List WsEvent) :
    published (es.filterMap WsEvent.action) =
      (broadcasts es).map (strncpy (MAX_MSG_LEN - 1)) := by
  rw [published, broadcasts, List.filterMap_filterMap, List.map_filterMap]
  congr 1
  funext e
  cases e <;> rfl

/-- The channel holds as many messages as are broadcast. -/
theorem length_log_channel (es : List WsEvent) :
    (channel es).log.length = (broadcasts es).length := by
  rw [channel, Broadcast.log_run, published_actions, List.length_map]

/-- The channel after one more event that is an action. -/
theorem channel_concat {es : List WsEvent} {e : WsEvent} {a : Action ℕ CStr}
    (ha : e.action = some a) : channel (es ++ [e]) = (channel es).step a := by
  rw [channel, List.filterMap_append, List.filterMap_cons_some ha, List.filterMap_nil,
    Channel.run_concat, channel]

/-- The channel after one more step of the loop. -/
theorem channel_concat_loop (es : List WsEvent) : channel (es ++ [.loop]) = channel es := by
  rw [channel, List.filterMap_append, List.filterMap_cons_none rfl, List.filterMap_nil,
    List.append_nil, channel]

/-- **The server after a run** stands for the channel, and no client of it is left behind. -/
theorem wsRun_refines (es : List WsEvent) (hfew : (broadcasts es).length < 2 ^ 31 - 1) :
    WsRefines (wsRun es) (channel es) ∧ WsAwake (wsRun es) := by
  induction es using List.reverseRecOn with
  | nil => exact ⟨.initial, .initial⟩
  | append_singleton es e ih =>
    have hle : (broadcasts es).length ≤ (broadcasts (es ++ [e])).length := by
      rw [broadcasts, broadcasts, List.filterMap_append, List.length_append]
      exact Nat.le_add_right _ _
    obtain ⟨hrefines, hawake⟩ := ih (Nat.lt_of_le_of_lt hle hfew)
    have hlog := length_log_channel es
    have hch : (channel es).log.length < 2 ^ 31 - 1 := by omega
    have hid : (wsRun es).currentMsgId.toNat < 2 ^ 31 - 1 := hrefines.count ▸ hch
    rw [wsRun_concat]
    cases e with
    | broadcast msg =>
      rw [channel_concat rfl]
      exact ⟨hrefines.broadcast hch msg, hawake.broadcast hid msg⟩
    | established c =>
      rw [channel_concat rfl]
      exact ⟨hrefines.established c, hawake.established c⟩
    | closed c =>
      rw [channel_concat rfl]
      exact ⟨hrefines.closed c, hawake.closed c⟩
    | writeable c =>
      rw [channel_concat rfl]
      exact ⟨hrefines.writeable hch c, hawake.writeable hid hrefines.last_le c⟩
    | loop =>
      rw [channel_concat_loop]
      exact ⟨hrefines.loop, hawake.loop hid⟩

/-- A client connected at some point of a run and has not disconnected since; `since` are the events
from then on. -/
def ConnectedSince (es : List WsEvent) (c : ℕ) (since : List WsEvent) : Prop :=
  ∃ pre, es = pre ++ .established c :: since ∧ (wsRun pre).clients c = none ∧ .closed c ∉ since

/-- What is asked of the server after a run: what has been written to a client are messages that
were broadcast since it connected, in their order and each of them once, as far as they fit into
the buffer; and a client that has missed a message is going to be woken. -/
structure WsSafe (es : List WsEvent) : Prop where
  written : ∀ c pss, (wsRun es).clients c = some pss → ∃ since, ConnectedSince es c since ∧
    pss.written.Sublist ((broadcasts since).map (strncpy (MAX_MSG_LEN - 1))) ∧
    ((∀ msg ∈ broadcasts es, msg.length < MAX_MSG_LEN) → pss.written.Sublist (broadcasts since))
  awake : ∀ c pss, (wsRun es).clients c = some pss →
    pss.lastMsgId.slt (wsRun es).currentMsgId = true →
    (wsRun es).serverLastMsgId.slt (wsRun es).currentMsgId = true ∨ pss.pending = true

/-- Some of the events of a run broadcast no more than all. -/
theorem broadcasts_few {pre es : List WsEvent} (hpre : pre <+: es)
    (hfew : (broadcasts es).length < 2 ^ 31 - 1) : (broadcasts pre).length < 2 ^ 31 - 1 :=
  Nat.lt_of_le_of_lt (hpre.sublist.filterMap _).length_le hfew

/-- A reader that has not left the channel is a client that has not disconnected. -/
theorem connectedSince_of_actions {es : List WsEvent} (hfew : (broadcasts es).length < 2 ^ 31 - 1)
    {c : ℕ} {pre post : List (Action ℕ CStr)} (hsplit : es.filterMap WsEvent.action =
      pre ++ .join c :: post) (hnone : (Channel.run pre).readers c = none)
    (hpost : .leave c ∉ post) :
    ∃ since, ConnectedSince es c since ∧ since.filterMap WsEvent.action = post := by
  obtain ⟨before, rest, rfl, hbefore, hrest⟩ := List.filterMap_eq_append_iff.1 hsplit
  obtain ⟨loops, e, since, rfl, hloops, he, hsince⟩ := List.filterMap_eq_cons_iff.1 hrest
  have hevent : e = .established c := by
    cases e <;> cases he
    rfl
  subst hevent
  have hbefore' : (before ++ loops).filterMap WsEvent.action = pre := by
    rw [List.filterMap_append, hbefore, List.filterMap_eq_nil_iff.2 hloops, List.append_nil]
  refine ⟨since, ⟨before ++ loops, by rw [List.append_assoc], ?_, ?_⟩, hsince⟩
  · have hprefix : before ++ loops <+: before ++ (loops ++ .established c :: since) :=
      ⟨_, List.append_assoc ..⟩
    have hclients := (wsRun_refines _ (broadcasts_few hprefix hfew)).1.clients
    rw [channel, hbefore'] at hclients
    have hc := congrFun hclients c
    rw [hnone, Table.map_apply, Option.map_eq_none_iff] at hc
    exact hc
  · intro hclosed
    refine hpost ?_
    rw [← hsince]
    exact List.mem_filterMap.2 ⟨_, hclosed, rfl⟩

/-- A reader of the channel is a client that has been connected since it joined. -/
theorem connectedSince_of_hasRead {es : List WsEvent}
    (hfew : (broadcasts es).length < 2 ^ 31 - 1) {c : ℕ} {p : Reader CStr}
    (h : HasRead (es.filterMap WsEvent.action) c p) :
    ∃ since, ConnectedSince es c since ∧
      p.received.Sublist ((broadcasts since).map (strncpy (MAX_MSG_LEN - 1))) := by
  obtain ⟨pre, post, hsplit, hnone, hpost, -, -, hsub⟩ := h
  obtain ⟨since, hsince, rfl⟩ := connectedSince_of_actions hfew hsplit hnone hpost
  refine ⟨since, hsince, ?_⟩
  rw [← published_actions]
  exact hsub.trans (List.take_sublist _ _)

/-- A client has been connected since it connected, and what has been written to it are messages
broadcast since then. -/
theorem connectedSince_of_client {es : List WsEvent} (hfew : (broadcasts es).length < 2 ^ 31 - 1)
    {c : ℕ} {pss : WsClient} (hc : (wsRun es).clients c = some pss) :
    ∃ since, ConnectedSince es c since ∧
      pss.written.Sublist ((broadcasts since).map (strncpy (MAX_MSG_LEN - 1))) := by
  have hreader : (channel es).readers c = some pss.reader := by
    rw [← (wsRun_refines es hfew).1.clients, Table.map_apply, hc, Option.map_some]
  exact connectedSince_of_hasRead hfew (Broadcast.reader_run _ hreader)

/-- A client that has not disconnected is a reader that has not left the channel. -/
theorem ConnectedSince.actions {es : List WsEvent} {c : ℕ} {since : List WsEvent}
    (h : ConnectedSince es c since) (hfew : (broadcasts es).length < 2 ^ 31 - 1) :
    ∃ pre, es.filterMap WsEvent.action = pre ++ .join c :: since.filterMap WsEvent.action ∧
      (Channel.run pre).readers c = none ∧ .leave c ∉ since.filterMap WsEvent.action := by
  obtain ⟨pre, rfl, hnone, hopen⟩ := h
  have hclients := (wsRun_refines pre (broadcasts_few (List.prefix_append ..) hfew)).1.clients
  refine ⟨pre.filterMap WsEvent.action, ?_, ?_, ?_⟩
  · rw [List.filterMap_append]
    rfl
  · rw [← channel, ← hclients, Table.map_apply, hnone, Option.map_none]
  · intro hleave
    obtain ⟨e, he, haction⟩ := List.mem_filterMap.1 hleave
    cases e <;> cases haction
    exact hopen he

/-- **Broadcasts are safe.** In every run with fewer than 2 ^ 31 - 1 broadcasts, whatever the order
of its events, each client is written a part of the messages broadcast since it connected, in
order, and none is left behind. -/
theorem wsSafe (es : List WsEvent) (hfew : (broadcasts es).length < 2 ^ 31 - 1) : WsSafe es := by
  obtain ⟨hrefines, hawake⟩ := wsRun_refines es hfew
  have hlog := length_log_channel es
  constructor
  · intro c pss hc
    obtain ⟨since, hsince, hsub⟩ := connectedSince_of_client hfew hc
    refine ⟨since, hsince, hsub, fun hfits => ?_⟩
    have hwhole : (broadcasts since).map (strncpy (MAX_MSG_LEN - 1)) = broadcasts since := by
      obtain ⟨pre, rfl, -⟩ := hsince
      have hsuffix : since.Sublist (pre ++ .established c :: since) :=
        ((List.Sublist.refl _).cons _).trans (List.sublist_append_right _ _)
      refine (List.map_congr_left fun msg hmsg => ?_).trans (List.map_id _)
      have hlt := hfits msg ((hsuffix.filterMap _).subset hmsg)
      exact List.take_of_length_le (Nat.le_sub_one_of_lt hlt)
    rwa [hwhole] at hsub
  · intro c pss hc hbehind
    have hle := hrefines.last_le c pss hc
    have hcount := hrefines.count
    have hserver := Nat.le_trans hawake.server_le hawake.woken_le
    rw [slt_iff (by omega) (by omega)] at hbehind ⊢
    obtain hpending | hhad := hawake.clients c pss hc
    · exact .inr hpending
    · exact .inl (Nat.lt_of_le_of_lt (Nat.le_trans hawake.server_le hhad) hbehind)

/-- Of two clients, one connects before the first message and one behind it. Neither can be written
to before the second message is there, and both are given that one only. -/
theorem wsSafe_two :
    let es := [.established 0, .broadcast "first".toList, .loop, .established 1, .loop,
      .broadcast "second".toList, .loop, .writeable 0, .loop, .writeable 1]
    (((wsRun es).clients 0).map WsClient.written, ((wsRun es).clients 1).map WsClient.written) =
        (some ["second".toList], some ["second".toList]) ∧ WsSafe es := by
  intro es
  exact ⟨by decide +kernel, wsSafe es (by decide)⟩

end Cyrenus
