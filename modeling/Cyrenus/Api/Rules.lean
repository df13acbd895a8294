import Cyrenus.Address
import Cyrenus.Api.Json

/-!
# The rule requests

`api_rules_create` reads a rule from the body of a request and stores it in the rule map, and
`api_rules_delete` removes the rule that its path names. Both leave a field that they cannot read as
it was: zero in the structures, whatever the stack held in the variables of `sscanf`.
-/

namespace Cyrenus

open CStr (strcasecmp scanInt)

/-! ## Creating a rule -/

/-- The address of a rule; a null pointer is handed to `inet_pton` when the member is `null`. -/
def ruleIp (toText : Json → CStr) (jsonRule : Json) : Option U32 :=
  match jsonRule.get? "ip" with
  | none => some 0
  | some ip => (ip.getString toText).map fun text => ((inetPton text).map Quad.word).getD 0

/-- The port of a rule, in network order. -/
def rulePort (jsonRule : Json) : U16 :=
  ((jsonRule.get? "port").map fun port => bpfHtons (port.getInt.setWidth 16)).getD 0

/-- The number of a protocol that a rule names; zero for a name that is not known. -/
def protoNumber (proto : CStr) : U8 :=
  if strcasecmp proto "tcp".toList then IPPROTO_TCP
  else if strcasecmp proto "udp".toList then IPPROTO_UDP
  else if strcasecmp proto "icmp".toList then IPPROTO_ICMP
  else 0

/-- There are three protocols with a name. -/
theorem protoNumber_mem (proto : CStr) :
    protoNumber proto ∈ [IPPROTO_TCP, IPPROTO_UDP, IPPROTO_ICMP, 0] := by
  unfold protoNumber
  repeat' split
  all_goals decide

/-- The protocol of a rule. -/
def ruleProto (toText : Json → CStr) (jsonRule : Json) : Option U8 :=
  match jsonRule.get? "proto" with
  | none => some 0
  | some proto => (proto.getString toText).map protoNumber

/-- The action of a rule: to drop, unless it says to pass. -/
def ruleAction (toText : Json → CStr) (jsonRule : Json) : Option U8 :=
  match jsonRule.get? "action" with
  | none => some 1
  | some action =>
    (action.getString toText).map fun text => if strcasecmp text "pass".toList then 2 else 1

/-- The key and the rule that a request asks to store; none when a null pointer is read. -/
def parseRule (toText : Json → CStr) (jsonRule : Json) : Option (RuleKey × Rule) := do
  let ip ← ruleIp toText jsonRule
  let port := rulePort jsonRule
  let proto ← ruleProto toText jsonRule
  let action ← ruleAction toText jsonRule
  return (⟨ip, port, proto⟩, ⟨port, port, proto, action⟩)

/-- No rule is read from a body exactly when one of three members is `null`. -/
theorem parseRule_eq_none {toText : Json → CStr} {jsonRule : Json} :
    parseRule toText jsonRule = none ↔
      ∃ name ∈ ["ip", "proto", "action"], jsonRule.get? name = some .null := by
  have hip : ruleIp toText jsonRule = none ↔ jsonRule.get? "ip" = some .null := by
    rw [ruleIp]
    cases jsonRule.get? "ip" <;> simp
  have hproto : ruleProto toText jsonRule = none ↔ jsonRule.get? "proto" = some .null := by
    rw [ruleProto]
    cases jsonRule.get? "proto" <;> simp
  have haction : ruleAction toText jsonRule = none ↔ jsonRule.get? "action" = some .null := by
    rw [ruleAction]
    cases jsonRule.get? "action" <;> simp
  simp only [List.mem_cons, List.not_mem_nil, or_false, exists_eq_or_imp, exists_eq_left, ← hip,
    ← hproto, ← haction, parseRule]
  cases ruleIp toText jsonRule <;> cases ruleProto toText jsonRule <;>
    cases ruleAction toText jsonRule <;> simp

/-- The parts of the key that is read from a body. -/
theorem parseRule_key {toText : Json → CStr} {jsonRule : Json} {key : RuleKey} {rule : Rule}
    (h : parseRule toText jsonRule = some (key, rule)) :
    ruleIp toText jsonRule = some key.ip ∧ rulePort jsonRule = key.port ∧
      ruleProto toText jsonRule = some key.proto := by
  simp only [parseRule, Option.bind_eq_bind, Option.bind_eq_some_iff] at h
  obtain ⟨ip, hip, proto, hproto, action, -, hkey⟩ := h
  cases hkey
  exact ⟨hip, rfl, hproto⟩

/-- `api_rules_create`, given whether `bpf_map_update_elem` succeeds. There is no response when the
handler reads a null pointer. -/
def apiRulesCreate (toText : Json → CStr) (body : Body) (updateOk : Bool)
    (rules : Table RuleKey Rule) : Option Response × Table RuleKey Rule :=
  match body with
  | none => (some ⟨400, "\x7b\"error\":\"Invalid JSON\"\x7d"⟩, rules)
  | some jsonRule =>
    match parseRule toText jsonRule with
    | none => (none, rules)
    | some (key, rule) =>
      if updateOk then (some ⟨200, "\x7b\"status\":\"Rule added\"\x7d"⟩, rules.set key rule)
      else (some ⟨500, "\x7b\"error\":\"Failed to update BPF map\"\x7d"⟩, rules)

/-! ## Deleting a rule -/

/-- The variables that `api_rules_delete` reads the parts of its path into. -/
structure RuleId where
  ipStr : CStr
  port : U32
  proto : U32

/-- `sscanf (id_str, "%15[^_]_%d_%d", ip_str, &port, &proto)`: the variables after it. Those that it
does not come to keep what they held. -/
def scanRuleId (idStr : CStr) (vars : RuleId) : RuleId :=
  match (idStr.take 15).takeWhile (· ≠ '_') with
  | [] => vars
  | ipStr =>
    let vars := { vars with ipStr := ipStr }
    match idStr.drop ipStr.length with
    | '_' :: rest =>
      match scanInt rest with
      | none => vars
      | some (port, '_' :: rest) =>
        let vars := { vars with port := port }
        match scanInt rest with
        | none => vars
        | some (proto, _) => { vars with proto := proto }
      | some (port, _) => { vars with port := port }
    | _ => vars

/-- The key that the variables name. -/
def RuleId.key (vars : RuleId) : RuleKey :=
  ⟨((inetPton vars.ipStr).map Quad.word).getD 0, bpfHtons (vars.port.setWidth 16),
    vars.proto.setWidth 8⟩

/-- `api_rules_delete`, given what its variables hold when it is called and whether
`bpf_map_delete_elem` finds the map. Neither result it gets is looked at. -/
def apiRulesDelete (idStr : CStr) (stack : RuleId) (deleteOk : Bool)
    (rules : Table RuleKey Rule) : Response × Table RuleKey Rule :=
  (⟨200, "\x7b\"status\":\"Rule deleted\"\x7d"⟩,
    if deleteOk then rules.erase (scanRuleId idStr stack).key else rules)

example : (scanRuleId "10.0.0.1_80_6".toList ⟨[], 0, 0⟩).key =
    ⟨Quad.word ⟨10, 0, 0, 1⟩, bpfHtons 80, IPPROTO_TCP⟩ := by decide +kernel

end Cyrenus
