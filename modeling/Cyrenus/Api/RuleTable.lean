import Cyrenus.Api.Rules
import Cyrenus.Lib.Trace
import Cyrenus.Xdp.Prog

/-!
# The rules in force

What the rule requests are for: a table from endpoints (an address, a port and a protocol) to
actions, which a request to create a rule writes and a request to delete one removes from
(`inForce`). The map that the handlers build holds that table, with endpoints and actions encoded
as the kernel program reads them (`ruleMap_encodes`), and `apply_rule` finds in it the action of the
most specific rule (`applyRule_refines`).
-/

namespace Cyrenus

open CStr (strcasecmp)

/-! ## Endpoints and actions -/

/-- One end of a connection: its address, its port in host byte order, and the protocol. -/
structure Endpoint where
  addr : Quad
  port : U16
  proto : U8
  deriving DecidableEq, Repr

/-- The key under which the rule for an endpoint is stored. -/
def Endpoint.key (e : Endpoint) : RuleKey := ⟨e.addr.word, bpfHtons e.port, e.proto⟩

theorem Endpoint.key_injective : Function.Injective Endpoint.key := by
  rintro ⟨addr, port, proto⟩ ⟨addr', port', proto'⟩ h
  obtain ⟨haddr, hport, hproto⟩ := RuleKey.mk.inj h
  obtain rfl : addr = addr' := Quad.word_injective haddr
  obtain rfl : port = port' := bpfHtons_injective hport
  obtain rfl : proto = proto' := hproto
  rfl

/-- What a rule says. -/
inductive RuleAction where
  | drop
  | pass
  deriving DecidableEq, Repr

/-- The number of an action in a rule. -/
def RuleAction.code : RuleAction → U8
  | .drop => 1
  | .pass => 2

/-- The rule that is stored for an endpoint. -/
def Endpoint.rule (e : Endpoint) (a : RuleAction) : Rule :=
  ⟨bpfHtons e.port, bpfHtons e.port, e.proto, a.code⟩

/-! ## Requests -/

/-- A request body says to take the action `a` on the endpoint `e`: its address in dotted form, its
port as a number, and protocol and action by their names. -/
structure ValidRule (body : Json) (e : Endpoint) (a : RuleAction) : Prop where
  ip : ∃ text, body.get? "ip" = some (.string text) ∧ inetPton text = some e.addr
  port : ∃ p : ℤ, body.get? "port" = some (.int p) ∧ 0 ≤ p ∧ p ≤ 65535 ∧
    e.port = BitVec.ofInt 16 p
  proto : ∃ text name, body.get? "proto" = some (.string text) ∧
    strcasecmp text name.toList = true ∧
    (name, e.proto) ∈ [("tcp", IPPROTO_TCP), ("udp", IPPROTO_UDP), ("icmp", IPPROTO_ICMP)]
  action : ∃ text name, body.get? "action" = some (.string text) ∧
    strcasecmp text name.toList = true ∧
    (name, a) ∈ [("drop", RuleAction.drop), ("pass", RuleAction.pass)]

/-- A request to create a rule. -/
structure RulePost where
  body : Json
  endpoint : Endpoint
  action : RuleAction
  valid : ValidRule body endpoint action

/-- A request that changes the rules, and whether the change of the map succeeds. -/
inductive RuleEvent where
  | post (p : RulePost) (updateOk : Bool)
  | delete (idStr : CStr) (stack : RuleId) (deleteOk : Bool)

/-- One request of a run. -/
def ruleStep (toText : Json → CStr) :
    RuleEvent → Table RuleKey Rule → Option Response × Table RuleKey Rule
  | .post p updateOk, rules => apiRulesCreate toText (some p.body) updateOk rules
  | .delete idStr stack deleteOk, rules =>
    (some (apiRulesDelete idStr stack deleteOk rules).1,
      (apiRulesDelete idStr stack deleteOk rules).2)

/-- The rule map after a run of requests. -/
def ruleMap (toText : Json → CStr) (events : List RuleEvent) : Table RuleKey Rule :=
  Trace.final (ruleStep toText) Table.empty events

/-! ## The abstract table -/

/-- The endpoint that the variables of a deletion name. -/
def RuleId.endpoint (vars : RuleId) : Endpoint :=
  ⟨(inetPton vars.ipStr).getD ⟨0, 0, 0, 0⟩, vars.port.setWidth 16, vars.proto.setWidth 8⟩

/-- The endpoint whose rule a request changes. -/
def RuleEvent.endpoint : RuleEvent → Endpoint
  | .post p _ => p.endpoint
  | .delete idStr stack _ => (scanRuleId idStr stack).endpoint

/-- What a request does to the rules in force. -/
def RuleEvent.apply (rules : Table Endpoint RuleAction) : RuleEvent → Table Endpoint RuleAction
  | .post p true => rules.set p.endpoint p.action
  | .delete idStr stack true => rules.erase (scanRuleId idStr stack).endpoint
  | _ => rules

/-- The rules in force after a run of requests. -/
def inForce (events : List RuleEvent) : Table Endpoint RuleAction :=
  events.foldl RuleEvent.apply Table.empty

/-- The action of the most specific rule for an endpoint: of the rule for its port if there is one,
else of the rule for port 0. -/
def mostSpecific (rules : Table Endpoint RuleAction) (e : Endpoint) : Option RuleAction :=
  (rules e).or (rules { e with port := 0 })

/-- A request leaves the rules of other endpoints in force. -/
theorem RuleEvent.apply_other {event : RuleEvent} {e : Endpoint} (h : e ≠ event.endpoint)
    (rules : Table Endpoint RuleAction) : event.apply rules e = rules e := by
  cases event with
  | post p updateOk =>
    cases updateOk with
    | true => exact Table.set_other h
    | false => rfl
  | delete idStr stack deleteOk =>
    cases deleteOk with
    | true => exact Table.erase_other h
    | false => rfl

/-- So do several requests. -/
theorem foldl_apply_other {events : List RuleEvent} {e : Endpoint}
    (h : ∀ event ∈ events, event.endpoint ≠ e) (rules : Table Endpoint RuleAction) :
    events.foldl RuleEvent.apply rules e = rules e := by
  induction events generalizing rules with
  | nil => rfl
  | cons event events ih =>
    obtain ⟨hevent, hevents⟩ := List.forall_mem_cons.1 h
    rw [List.foldl_cons, ih hevents, RuleEvent.apply_other hevent.symm]

/-! ## The map holds the table -/

/-- A port number is read as it is written. -/
theorem getInt_port {p : ℤ} (h0 : 0 ≤ p) (h1 : p ≤ 65535) :
    (Json.int p).getInt.setWidth 16 = BitVec.ofInt 16 p := by
  have hrange : max (-2 ^ 31) (min (2 ^ 31 - 1) p) = p := by omega
  rw [Json.getInt, Json.toInt, hrange]
  apply BitVec.eq_of_toNat_eq
  rw [BitVec.toNat_setWidth, BitVec.toNat_ofInt, BitVec.toNat_ofInt]
  omega

/-- A protocol's name is read as its number. -/
theorem protoNumber_eq {text : CStr} {name : String} {proto : U8}
    (htext : strcasecmp text name.toList = true)
    (hname : (name, proto) ∈ [("tcp", IPPROTO_TCP), ("udp", IPPROTO_UDP), ("icmp", IPPROTO_ICMP)]) :
    protoNumber text = proto := by
  simp only [strcasecmp, decide_eq_true_eq] at htext
  simp only [protoNumber, strcasecmp, htext]
  simp only [List.mem_cons, Prod.mk.injEq, List.not_mem_nil, or_false] at hname
  rcases hname with ⟨rfl, rfl⟩ | ⟨rfl, rfl⟩ | ⟨rfl, rfl⟩ <;> decide

/-- An action's name is read as its number. -/
theorem actionNumber_eq {text : CStr} {name : String} {a : RuleAction}
    (htext : strcasecmp text name.toList = true)
    (hname : (name, a) ∈ [("drop", RuleAction.drop), ("pass", RuleAction.pass)]) :
    (if strcasecmp text "pass".toList then 2 else 1) = a.code := by
  simp only [strcasecmp, decide_eq_true_eq] at htext
  simp only [strcasecmp, htext]
  simp only [List.mem_cons, Prod.mk.injEq, List.not_mem_nil, or_false] at hname
  rcases hname with ⟨rfl, rfl⟩ | ⟨rfl, rfl⟩ <;> decide

/-- A valid body is read as the rule it asks for. -/
theorem ValidRule.parseRule {body : Json} {e : Endpoint} {a : RuleAction}
    (h : ValidRule body e a) (toText : Json → CStr) :
    parseRule toText body = some (e.key, e.rule a) := by
  obtain ⟨addr, hip, haddr⟩ := h.ip
  obtain ⟨p, hport, h0, h1, hp⟩ := h.port
  obtain ⟨proto, protoName, hproto, hprotoText, hprotoName⟩ := h.proto
  obtain ⟨action, actionName, haction, hactionText, hactionName⟩ := h.action
  have hruleIp : ruleIp toText body = some e.addr.word := by
    simp [ruleIp, hip, Json.getString, haddr]
  have hrulePort : rulePort body = bpfHtons e.port := by
    simp [rulePort, hport, getInt_port h0 h1, hp]
  have hruleProto : ruleProto toText body = some e.proto := by
    simp [ruleProto, hproto, Json.getString, protoNumber_eq hprotoText hprotoName]
  have hruleAction : ruleAction toText body = some a.code := by
    simp only [ruleAction, haction, Json.getString, Option.map_some,
      actionNumber_eq hactionText hactionName]
  simp [Cyrenus.parseRule, hruleIp, hrulePort, hruleProto, hruleAction, Endpoint.key,
    Endpoint.rule]

/-- The key that the variables of a deletion name is that of the endpoint they name. -/
theorem RuleId.key_eq (vars : RuleId) : vars.key = vars.endpoint.key := by
  cases h : inetPton vars.ipStr with
  | none => simp [RuleId.key, RuleId.endpoint, Endpoint.key, h]; decide
  | some q => simp [RuleId.key, RuleId.endpoint, Endpoint.key, h]

/-- **One request.** It does to the map what it does to the table. -/
theorem ruleStep_encodes (toText : Json → CStr) (event : RuleEvent)
    {rules : Table Endpoint RuleAction} {map : Table RuleKey Rule}
    (h : Table.Encodes Endpoint.key Endpoint.rule rules map) :
    Table.Encodes Endpoint.key Endpoint.rule (event.apply rules)
      (ruleStep toText event map).2 := by
  cases event with
  | post p updateOk =>
    simp only [ruleStep, apiRulesCreate, p.valid.parseRule toText]
    cases updateOk with
    | true => exact h.set Endpoint.key_injective p.endpoint p.action
    | false => exact h
  | delete idStr stack deleteOk =>
    simp only [ruleStep, apiRulesDelete, RuleId.key_eq]
    cases deleteOk with
    | true => exact h.erase Endpoint.key_injective _
    | false => exact h

/-- **A run of requests.** The map they build holds the rules in force. -/
theorem ruleMap_encodes (toText : Json → CStr) (events : List RuleEvent) :
    Table.Encodes Endpoint.key Endpoint.rule (inForce events) (ruleMap toText events) := by
  have hrun : ∀ rules map, Table.Encodes Endpoint.key Endpoint.rule rules map →
      Table.Encodes Endpoint.key Endpoint.rule (events.foldl RuleEvent.apply rules)
        (Trace.final (ruleStep toText) map events) := by
    induction events with
    | nil => exact fun _ _ h => h
    | cons event events ih => exact fun _ _ h => ih _ _ (ruleStep_encodes toText event h)
  exact hrun _ _ Table.Encodes.empty

/-! ## Looking a rule up -/

/-- The verdict on an endpoint whose most specific rule is given. -/
def ruleVerdict : Option RuleAction → XdpAction
  | some .drop => .drop
  | _ => .pass

/-- **The lookup.** In a map that holds a table, `apply_rule` finds the verdict of the most specific
rule, if its key is padded with zero. Else it finds no rule. -/
theorem applyRule_refines {rules : Table Endpoint RuleAction} {map : Table RuleKey Rule}
    (h : Table.Encodes Endpoint.key Endpoint.rule rules map) (padding : U8) (e : Endpoint) :
    applyRule map padding e.addr.word e.port e.proto =
      ruleVerdict (if padding = 0 then mostSpecific rules e else none) := by
  have hverdict : ∀ (e : Endpoint) (a : RuleAction), (e.rule a).verdict = ruleVerdict (some a) := by
    intro e a
    cases a <;> rfl
  have hexact : map ⟨e.addr.word, bpfHtons e.port, e.proto⟩ = (rules e).map e.rule := h e
  have hwild : map ⟨e.addr.word, 0, e.proto⟩ =
      (rules { e with port := 0 }).map (Endpoint.rule { e with port := 0 }) := by
    have hzero : bpfHtons 0 = 0 := by decide
    simpa only [Endpoint.key, hzero] using h { e with port := 0 }
  by_cases hpad : padding = 0
  · simp only [applyRule, lookupRule, if_pos hpad, hexact, hwild, mostSpecific]
    cases hrule : rules e with
    | some a => simp [hverdict]
    | none =>
      cases rules { e with port := 0 } with
      | some a => simp [hverdict]
      | none => rfl
  · simp only [applyRule, lookupRule, if_neg hpad]
    rfl

end Cyrenus
