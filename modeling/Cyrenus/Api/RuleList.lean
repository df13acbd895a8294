import Cyrenus.Api.RuleIds
import Cyrenus.Http.Server
import Cyrenus.Lib.Cursor

/-!
# The listing of the rules

`api_rules_list` walks the rule map from the all-zero key, and the dashboard makes the name of a
rule from what the listing shows of it. Both go wrong on keys that `api_rules_create` makes up for
what a body leaves out: the walk when the all-zero key itself is stored (`rulesListed_iff`), the
name when the protocol is zero (`rulesDeletable_iff`).
-/

namespace Cyrenus

open CStr (digits)

/-! ## The listing -/

/-- `get_proto_name` of `rules.c`. -/
def ruleProtoName (proto : U8) : String :=
  if proto = IPPROTO_TCP then "TCP" else if proto = IPPROTO_UDP then "UDP"
  else if proto = IPPROTO_ICMP then "ICMP" else "UNKNOWN"

/-- What the listing shows of a rule. -/
structure RuleEntry where
  ip : CStr
  port : U16
  proto : String
  portStart : U16
  portEnd : U16
  action : U8
  deriving DecidableEq, Repr

/-- The entry of a rule. -/
def ruleEntry (key : RuleKey) (rule : Rule) : RuleEntry where
  ip := inetNtop key.ip
  port := bpfNtohs key.port
  proto := ruleProtoName key.proto
  portStart := bpfNtohs rule.portStart
  portEnd := bpfNtohs rule.portEnd
  action := rule.action

/-- The all-zero key, from which the listing starts. -/
def zeroKey : RuleKey := ⟨0, 0, 0⟩

/-- `api_rules_list`, given the order in which the kernel enumerates the keys: the keys after the
all-zero one are looked up, and what is found is listed. -/
def apiRulesList {rules : Table RuleKey Rule} (order : KeyOrder rules) : List RuleEntry :=
  (order.walkAll zeroKey).filterMap fun key => (rules key).map (ruleEntry key)

/-- The entries of all rules of a map, in the order of the keys. -/
def ruleEntries {rules : Table RuleKey Rule} (order : KeyOrder rules) : List RuleEntry :=
  order.keys.filterMap fun key => (rules key).map (ruleEntry key)

/-- The listing shows each rule once and nothing else, whatever the order of the keys. -/
def ListsEachOnce (rules : Table RuleKey Rule) : Prop :=
  ∀ order : KeyOrder rules, (apiRulesList order).Perm (ruleEntries order)

/-- The listing of a map is complete unless the key it starts from is stored. -/
theorem listsEachOnce_iff {rules : Table RuleKey Rule} (order : KeyOrder rules) :
    ListsEachOnce rules ↔ rules zeroKey = none := by
  constructor
  · intro hlists
    by_contra hzero
    have hlen := (hlists order).length_eq
    rw [apiRulesList, ruleEntries,
      KeyOrder.length_lookups ruleEntry fun _ => order.mem_of_mem_walkAll,
      KeyOrder.length_lookups ruleEntry fun key => (order.mem_iff key).1] at hlen
    exact Nat.ne_of_lt (order.walkAll_length_lt hzero) hlen
  · intro hzero order
    rw [apiRulesList, order.walkAll_of_absent hzero, ruleEntries]

/-! ## The keys that requests store -/

/-- The rule map after a run of requests. -/
def rulesAfter (toText : Json → CStr) (reqs : List RuleRequest) : Table RuleKey Rule :=
  Trace.final (RuleRequest.run toText) Table.empty reqs

/-- A request stores a rule under a key: that is what its body is read as, and the map takes the
update. -/
def RuleRequest.Stores (toText : Json → CStr) (key : RuleKey) : RuleRequest → Prop
  | .create members updateOk =>
    updateOk = true ∧ ∃ rule, parseRule toText (.object members) = some (key, rule)
  | .delete .. => False

/-- **What a request does to the map**: it stores a rule, removes a key, or leaves the map. -/
theorem RuleRequest.run_cases (toText : Json → CStr) (req : RuleRequest)
    (rules : Table RuleKey Rule) :
    (∃ key rule, req.Stores toText key ∧ (req.run toText rules).2 = rules.set key rule) ∨
      (∃ key, (req.run toText rules).2 = rules.erase key) ∨ (req.run toText rules).2 = rules := by
  cases req with
  | create members updateOk =>
    simp only [run, apiRulesCreate]
    cases hparse : parseRule toText (.object members) with
    | none => exact .inr (.inr rfl)
    | some kr =>
      cases updateOk with
      | true => exact .inl ⟨kr.1, kr.2, ⟨rfl, kr.2, hparse⟩, rfl⟩
      | false => exact .inr (.inr rfl)
  | delete idStr stack deleteOk =>
    cases deleteOk with
    | true => exact .inr (.inl ⟨_, rfl⟩)
    | false => exact .inr (.inr rfl)

/-- What a request stores is in the map after it. -/
theorem RuleRequest.Stores.run_ne_none {toText : Json → CStr} {key : RuleKey} {req : RuleRequest}
    (h : req.Stores toText key) (rules : Table RuleKey Rule) :
    (req.run toText rules).2 key ≠ none := by
  cases req with
  | create members updateOk =>
    obtain ⟨rfl, rule, hparse⟩ := h
    simp [run, apiRulesCreate, hparse]
  | delete => cases h

theorem rulesAfter_concat (toText : Json → CStr) (reqs : List RuleRequest) (req : RuleRequest) :
    rulesAfter toText (reqs ++ [req]) = (req.run toText (rulesAfter toText reqs)).2 :=
  Trace.final_concat ..

/-- The keys of every map that requests build have an order. -/
theorem rulesAfter_keyOrder (toText : Json → CStr) (reqs : List RuleRequest) :
    Nonempty (KeyOrder (rulesAfter toText reqs)) := by
  induction reqs using List.reverseRecOn with
  | nil => exact ⟨.ofEmpty⟩
  | append_singleton reqs req ih =>
    obtain ⟨order⟩ := ih
    rw [rulesAfter_concat]
    obtain ⟨key, rule, -, hrun⟩ | ⟨key, hrun⟩ | hrun :=
      req.run_cases toText (rulesAfter toText reqs)
    · rw [hrun]
      exact ⟨order.set key rule⟩
    · rw [hrun]
      exact ⟨order.erase key⟩
    · rw [hrun]
      exact ⟨order⟩

/-- A key in the map was stored by a request. -/
theorem exists_stores {toText : Json → CStr} {reqs : List RuleRequest} {key : RuleKey}
    (h : rulesAfter toText reqs key ≠ none) : ∃ req ∈ reqs, req.Stores toText key := by
  induction reqs using List.reverseRecOn with
  | nil => exact absurd rfl h
  | append_singleton reqs req ih =>
    rw [rulesAfter_concat] at h
    have hearlier (hold : rulesAfter toText reqs key ≠ none) :
        ∃ req' ∈ reqs ++ [req], req'.Stores toText key := by
      obtain ⟨req', hmem, hstores⟩ := ih hold
      exact ⟨req', List.mem_append_left _ hmem, hstores⟩
    obtain ⟨key', rule, hstores, hrun⟩ | ⟨key', hrun⟩ | hrun :=
      req.run_cases toText (rulesAfter toText reqs)
    · by_cases hkey : key = key'
      · subst hkey
        exact ⟨req, List.mem_append_right _ (List.mem_singleton_self req), hstores⟩
      · rw [hrun, Table.set_other hkey] at h
        exact hearlier h
    · by_cases hkey : key = key'
      · rw [hrun, hkey, Table.erase_same] at h
        exact absurd rfl h
      · rw [hrun, Table.erase_other hkey] at h
        exact hearlier h
    · rw [hrun] at h
      exact hearlier h

/-- **Along a run.** The keys of all its maps have a property exactly when those have it that its
requests store. -/
theorem forall_rulesAfter_iff {toText : Json → CStr} {reqs : List RuleRequest}
    {P : RuleKey → Prop} :
    (∀ pre, pre <+: reqs → ∀ key, rulesAfter toText pre key ≠ none → P key) ↔
      ∀ req ∈ reqs, ∀ key, req.Stores toText key → P key := by
  constructor
  · intro h req hreq key hstores
    obtain ⟨pre, post, rfl⟩ := List.append_of_mem hreq
    refine h (pre ++ [req]) ⟨post, by simp⟩ key ?_
    rw [rulesAfter_concat]
    exact hstores.run_ne_none _
  · intro h pre hpre key hkey
    obtain ⟨req, hreq, hstores⟩ := exists_stores hkey
    exact h req (hpre.subset hreq) key hstores

/-- **When the listing is complete throughout a run**: when no request of it stores a rule under the
all-zero key, which is what the handler makes of an address, a port and a protocol that are left
out, unknown or zero. -/
theorem rulesListed_iff (toText : Json → CStr) (reqs : List RuleRequest) :
    (∀ pre, pre <+: reqs → ListsEachOnce (rulesAfter toText pre)) ↔
      ∀ req ∈ reqs, ¬ req.Stores toText zeroKey := by
  have hlists : ∀ pre, ListsEachOnce (rulesAfter toText pre) ↔
      ∀ key, rulesAfter toText pre key ≠ none → key ≠ zeroKey := by
    intro pre
    obtain ⟨order⟩ := rulesAfter_keyOrder toText pre
    rw [listsEachOnce_iff order]
    constructor
    · rintro hzero key hkey rfl
      exact hkey hzero
    · intro hkeys
      by_contra hzero
      exact hkeys zeroKey hzero rfl
  simp only [hlists, forall_rulesAfter_iff]
  constructor
  · intro h req hreq hstores
    exact h req hreq zeroKey hstores rfl
  · rintro h req hreq key hstores rfl
    exact h req hreq hstores

/-- A request with an empty object, and one for a rule that blocks an address. -/
def emptyThenBlock : List RuleRequest :=
  [.create [] true,
    .create [("ip".toList, .string "10.0.0.1".toList), ("port".toList, .int 80),
      ("proto".toList, .string "tcp".toList)] true]

/-- An empty object is stored under the all-zero key, and if that is the last one in the kernel's
order nothing is listed. -/
theorem rulesListed_fails :
    rulesAfter (fun _ => []) emptyThenBlock zeroKey = some ⟨0, 0, 0, 1⟩ ∧
      ¬ ListsEachOnce (rulesAfter (fun _ => []) emptyThenBlock) := by
  have hzero : rulesAfter (fun _ => []) emptyThenBlock zeroKey = some ⟨0, 0, 0, 1⟩ := by
    decide +kernel
  obtain ⟨order⟩ := rulesAfter_keyOrder (fun _ => []) emptyThenBlock
  refine ⟨hzero, fun hlists => ?_⟩
  rw [(listsEachOnce_iff order).1 hlists] at hzero
  cases hzero

/-! ## Deleting what is shown -/

/-- The number that the dashboard takes for the protocol shown; that of TCP for an unknown one. -/
def protoMap (proto : String) : ℕ :=
  if proto = "TCP" then 6 else if proto = "UDP" then 17 else if proto = "ICMP" then 1 else 6

/-- The path of the request that `deleteRule` makes for an entry, after `/api/v1/rules/`. -/
def deleteRuleId (entry : RuleEntry) : CStr :=
  entry.ip ++ '_' :: (decimal entry.port.toNat ++ '_' :: decimal (protoMap entry.proto))

/-- The server hands it to `api_rules_delete`. -/
theorem deleteRule_route (entry : RuleEntry) :
    protectedRoute ("/api/v1/rules/".toList ++ deleteRuleId entry) "DELETE".toList =
      .handler (.rulesDelete (deleteRuleId entry)) := by rfl

/-- The protocol that the dashboard takes a rule to have. -/
def shownProto (proto : U8) : U8 := BitVec.ofNat 8 (protoMap (ruleProtoName proto))

theorem toNat_shownProto (proto : U8) :
    (shownProto proto).toNat = protoMap (ruleProtoName proto) := by
  rw [shownProto, BitVec.toNat_ofNat]
  refine Nat.mod_eq_of_lt ?_
  unfold protoMap
  split_ifs <;> decide

/-- What the dashboard makes is the name of the key with that protocol. -/
theorem deleteRuleId_eq (key : RuleKey) (rule : Rule) :
    deleteRuleId (ruleEntry key rule) = { key with proto := shownProto key.proto }.name.text := by
  simp only [deleteRuleId, ruleEntry, RuleName.text, RuleKey.name, toNat_shownProto]

/-- Deleting a rule that is shown removes its key and nothing else, whatever the order of the
keys. -/
def DeletesShown (rules : Table RuleKey Rule) : Prop :=
  ∀ (order : KeyOrder rules) (key : RuleKey) (rule : Rule) (stack : RuleId),
    key ∈ order.walkAll zeroKey → rules key = some rule →
    (apiRulesDelete (deleteRuleId (ruleEntry key rule)) stack true rules).2 = rules.erase key

/-- It does if the dashboard takes every rule for what it is, except for the one that is never
shown. -/
theorem deletesShown_iff {rules : Table RuleKey Rule} (order : KeyOrder rules) :
    DeletesShown rules ↔
      ∀ key, rules key ≠ none → key = zeroKey ∨ shownProto key.proto = key.proto := by
  have hdelete : ∀ key rule stack,
      (apiRulesDelete (deleteRuleId (ruleEntry key rule)) stack true rules).2 =
        rules.erase { key with proto := shownProto key.proto } := fun key rule stack => by
    rw [deleteRuleId_eq, apiRulesDelete_name, RuleKey.key_name]
  constructor
  · intro h key hkey
    refine or_iff_not_imp_left.2 fun hzero => ?_
    obtain ⟨rule, hrule⟩ := Option.ne_none_iff_exists'.1 hkey
    have herase := h (order.moveLast key hkey) key rule ⟨[], 0, 0⟩
      (order.mem_walkAll_moveLast hkey (Ne.symm hzero)) hrule
    rw [hdelete] at herase
    by_contra hproto
    have hother : key ≠ { key with proto := shownProto key.proto } := fun heq =>
      hproto (congrArg RuleKey.proto heq).symm
    have hnone := (congrFun herase key).trans (Table.erase_same ..)
    rw [Table.erase_other hother] at hnone
    exact hkey hnone
  · intro h order' key rule stack hshown hrule
    obtain rfl | hproto := h key (by rw [hrule]; nofun)
    · exact absurd hshown (order'.not_mem_walkAll zeroKey)
    · rw [hdelete, hproto]

/-- The protocols that requests store. -/
theorem RuleRequest.Stores.proto {toText : Json → CStr} {key : RuleKey} {req : RuleRequest}
    (h : req.Stores toText key) : shownProto key.proto = key.proto ↔ key.proto ≠ 0 := by
  have hnumbers : ∀ proto ∈ [IPPROTO_TCP, IPPROTO_UDP, IPPROTO_ICMP, 0],
      (shownProto proto = proto ↔ proto ≠ 0) := by decide
  refine hnumbers _ ?_
  cases req with
  | create members updateOk =>
    obtain ⟨-, rule, hparse⟩ := h
    have hproto := (parseRule_key hparse).2.2
    unfold ruleProto at hproto
    split at hproto
    · exact Option.some.inj hproto ▸ by decide
    · obtain ⟨text, -, htext⟩ := Option.map_eq_some_iff.1 hproto
      exact htext ▸ protoNumber_mem text
  | delete => cases h

/-- **When the dashboard deletes what it shows throughout a run**: when every rule that a request of
it stores names its protocol, but for the one under the all-zero key, which is never shown. -/
theorem rulesDeletable_iff (toText : Json → CStr) (reqs : List RuleRequest) :
    (∀ pre, pre <+: reqs → DeletesShown (rulesAfter toText pre)) ↔
      ∀ req ∈ reqs, ∀ key, req.Stores toText key → key = zeroKey ∨ key.proto ≠ 0 := by
  have hshown : ∀ pre, DeletesShown (rulesAfter toText pre) ↔
      ∀ key, rulesAfter toText pre key ≠ none → key = zeroKey ∨ shownProto key.proto = key.proto :=
    fun pre => (rulesAfter_keyOrder toText pre).elim deletesShown_iff
  simp only [hshown, forall_rulesAfter_iff]
  refine forall₄_congr fun req _ key hstores => ?_
  rw [hstores.proto]

/-- A rule for an address and a port that leaves its protocol out. -/
def blockWithoutProto : RuleRequest :=
  .create [("ip".toList, .string "10.0.0.1".toList), ("port".toList, .int 80)] true

/-- Its key and what is stored under it. -/
def blockedKey : RuleKey := ⟨Quad.word ⟨10, 0, 0, 1⟩, bpfHtons 80, 0⟩

def blockedRule : Rule := ⟨bpfHtons 80, bpfHtons 80, 0, 1⟩

/-- Its protocol is shown as unknown, and the dashboard asks for a rule for TCP to be deleted. -/
theorem rulesDeletable_fails :
    deleteRuleId (ruleEntry blockedKey blockedRule) = "10.0.0.1_80_6".toList ∧
      ¬ DeletesShown (rulesAfter (fun _ => []) [blockWithoutProto]) := by
  have hstored : rulesAfter (fun _ => []) [blockWithoutProto] blockedKey = some blockedRule := by
    decide +kernel
  obtain ⟨order⟩ := rulesAfter_keyOrder (fun _ => []) [blockWithoutProto]
  refine ⟨by decide +kernel, fun hshown => ?_⟩
  obtain hzero | hproto := (deletesShown_iff order).1 hshown blockedKey (by rw [hstored]; nofun)
  · exact absurd hzero (by decide)
  · exact absurd hproto (by decide)

end Cyrenus
