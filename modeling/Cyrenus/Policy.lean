import Cyrenus.Lib.TableHistory
import Cyrenus.System

/-!
# The policy in force

What the operations on the daemon are for: rules, thresholds and blocked countries, as the requests
that were let through have asked for them. Whatever the bodies were, the rules are those of the last
operation on each endpoint, the thresholds those of the last request whose copy arrived, and the
countries those of the country requests (`inForce_run`). `frame_drop_iff` says what that means for a
frame, after any run of the system.
-/

namespace Cyrenus

open Trace (final trace selected IsPart filterMap_concat)
open Table (Change LastSet changed)

/-! ## Rules from any body -/

/-- The endpoint that a key is for. -/
def RuleKey.endpoint (key : RuleKey) : Endpoint :=
  ⟨Quad.ofWord key.ip, bpfNtohs key.port, key.proto⟩

@[simp] theorem bpfHtons_bpfNtohs (x : U16) : bpfHtons (bpfNtohs x) = x := swap16_swap16 x

@[simp] theorem RuleKey.key_endpoint (key : RuleKey) : key.endpoint.key = key := by
  obtain ⟨ip, port, proto⟩ := key
  simp [RuleKey.endpoint, Endpoint.key]

/-- The action that a request has asked for when it has stored a rule. -/
def Rule.verdictAsked (rule : Rule) : RuleAction := if rule.action = 2 then .pass else .drop

/-- **What is read from a body**, valid or not, is the rule for an endpoint. -/
theorem parseRule_endpoint {toText : Json → CStr} {jsonRule : Json} {key : RuleKey} {rule : Rule}
    (h : parseRule toText jsonRule = some (key, rule)) :
    key.endpoint.rule rule.verdictAsked = rule := by
  simp only [parseRule, Option.bind_eq_bind, Option.bind_eq_some_iff] at h
  obtain ⟨ip, -, proto, -, action, haction, heq⟩ := h
  cases heq
  have hcode : action = 1 ∨ action = 2 := by
    unfold ruleAction at haction
    split at haction
    · exact .inl (Option.some.inj haction).symm
    · obtain ⟨text, -, rfl⟩ := Option.map_eq_some_iff.1 haction
      split
      · exact .inr rfl
      · exact .inl rfl
  rcases hcode with rfl | rfl <;>
    simp [RuleKey.endpoint, Endpoint.rule, Rule.verdictAsked, RuleAction.code]

/-! ## What the operations ask for -/

/-- The change of the rules that an operation makes. -/
def DaemonOp.ruleChange (libs : Libs) : DaemonOp → Option (Change Endpoint RuleAction)
  | .createRule body updateOk =>
    if updateOk then
      (body.bind (parseRule libs.toText)).map fun kr => .set kr.1.endpoint kr.2.verdictAsked
    else none
  | .deleteRule idStr stack deleteOk =>
    if deleteOk then some (.erase (scanRuleId idStr stack).endpoint) else none
  | .settings _ | .country _ => none

/-- The settings request of an operation. -/
def DaemonOp.settings? : DaemonOp → Option SettingsRequest
  | .settings r => some r
  | _ => none

/-- The country request of an operation. -/
def DaemonOp.country? : DaemonOp → Option CountryRequest
  | .country r => some r
  | _ => none

/-- The changes of the rules that operations make, in their order. -/
def ruleChanges (libs : Libs) (ops : List DaemonOp) : List (Change Endpoint RuleAction) :=
  ops.filterMap (DaemonOp.ruleChange libs)

/-- **What the operations have brought into force.** -/
structure InForce (libs : Libs) (start : Daemon) (ops : List DaemonOp) (d : Daemon) : Prop where
  rules : Table.Encodes Endpoint.key Endpoint.rule (changed (ruleChanges libs ops)) d.user.rules
  configured : ∀ t : Threshold,
    t.value d.config.attacksConfig = lastPosted (ops.filterMap DaemonOp.settings?) t
  enforced : ∀ t : Threshold,
    t.value d.user.config = lastArrived start.configMapFd (ops.filterMap DaemonOp.settings?) t
  countries : d.user.blockedCountries = countryMap libs (ops.filterMap DaemonOp.country?)
  fd : d.configMapFd = start.configMapFd
  hostIp : d.user.hostIp = start.user.hostIp
  geoipMap : d.user.geoipMap = start.user.geoipMap

/-! ## One operation -/

namespace DaemonOp

variable {libs : Libs} {d : Daemon}

/-- An operation changes the rules as it says. -/
theorem run_encodes {rules : Table Endpoint RuleAction}
    (h : Table.Encodes Endpoint.key Endpoint.rule rules d.user.rules) (op : DaemonOp) :
    Table.Encodes Endpoint.key Endpoint.rule ((op.ruleChange libs).elim rules (Change.apply rules))
      (op.run libs d).user.rules := by
  cases op with
  | settings r =>
    have hrules : ((DaemonOp.settings r).run libs d).user.rules = d.user.rules := by
      obtain ⟨_ | root, updateOk⟩ := r
      · rfl
      · simp only [run, settingsStep, apiSystemUpdateSettings]
        split <;> rfl
    rw [hrules]
    exact h
  | createRule body updateOk =>
    cases body with
    | none => cases updateOk <;> exact h
    | some root =>
      simp only [run, Daemon.withRules, ruleChange, Option.bind_some, apiRulesCreate]
      cases hparse : parseRule libs.toText root with
      | none => cases updateOk <;> exact h
      | some kr =>
        cases updateOk with
        | false => exact h
        | true =>
          have hset := h.set Endpoint.key_injective kr.1.endpoint kr.2.verdictAsked
          rwa [RuleKey.key_endpoint, parseRule_endpoint hparse] at hset
  | deleteRule idStr stack deleteOk =>
    simp only [run, Daemon.withRules, apiRulesDelete, RuleId.key_eq]
    cases deleteOk with
    | true => exact h.erase Endpoint.key_injective _
    | false => exact h
  | country r => exact h

/-- It configures the thresholds that it posts. -/
theorem run_config (op : DaemonOp) (t : Threshold) :
    t.value (op.run libs d).config.attacksConfig =
      (op.settings?.bind (·.posted t)).getD (t.value d.config.attacksConfig) := by
  cases op with
  | settings r => exact settingsStep_config r d t
  | createRule | deleteRule | country => rfl

/-- It enforces the thresholds that it has configured, if its copy arrives. -/
theorem run_configMap (op : DaemonOp) (t : Threshold) :
    t.value (op.run libs d).user.config =
      if op.settings?.any (·.arrives d.configMapFd) then
        t.value (op.run libs d).config.attacksConfig
      else t.value d.user.config := by
  cases op with
  | settings r => exact settingsStep_configMap r d t
  | createRule | deleteRule | country => rfl

/-- It changes the countries as its request does. -/
theorem run_blocked (op : DaemonOp) :
    (op.run libs d).user.blockedCountries =
      op.country?.elim d.user.blockedCountries
        fun r => (countryStep libs r d.user.blockedCountries).2 := by
  cases op with
  | settings r =>
    obtain ⟨_ | root, updateOk⟩ := r
    · rfl
    · simp only [run, settingsStep, apiSystemUpdateSettings]
      split <;> rfl
  | createRule | deleteRule | country => rfl

/-- It leaves the rest alone. -/
theorem run_rest (op : DaemonOp) :
    (op.run libs d).configMapFd = d.configMapFd ∧ (op.run libs d).user.hostIp = d.user.hostIp ∧
      (op.run libs d).user.geoipMap = d.user.geoipMap := by
  cases op with
  | settings r =>
    obtain ⟨_ | root, updateOk⟩ := r
    · exact ⟨rfl, rfl, rfl⟩
    · simp only [run, settingsStep, apiSystemUpdateSettings]
      split <;> exact ⟨rfl, rfl, rfl⟩
  | createRule | deleteRule | country => exact ⟨rfl, rfl, rfl⟩

end DaemonOp

/-- **One operation** brings into force what it asks for. -/
theorem InForce.step {libs : Libs} {start d : Daemon} {ops : List DaemonOp}
    (h : InForce libs start ops d) (op : DaemonOp) :
    InForce libs start (ops ++ [op]) (op.run libs d) := by
  obtain ⟨hfd, hhost, hgeo⟩ := @DaemonOp.run_rest libs d op
  have hconfigured (t : Threshold) : t.value (op.run libs d).config.attacksConfig =
      lastPosted ((ops ++ [op]).filterMap DaemonOp.settings?) t := by
    rw [op.run_config, h.configured, filterMap_concat]
    cases op.settings? with
    | none => simp
    | some r => exact (lastPosted_concat _ r t).symm
  constructor
  case rules =>
    rw [ruleChanges, filterMap_concat, Table.changed_append_toList]
    exact DaemonOp.run_encodes h.rules op
  case configured => exact hconfigured
  case enforced =>
    intro t
    rw [op.run_configMap, hconfigured, h.enforced, h.fd, filterMap_concat]
    cases op.settings? with
    | none => simp
    | some r => exact (lastArrived_concat _ _ r t).symm
  case countries =>
    rw [op.run_blocked, h.countries, filterMap_concat]
    cases op.country? with
    | none => simp
    | some r => exact (countryMap_concat libs _ r).symm
  case fd => exact hfd.trans h.fd
  case hostIp => exact hhost.trans h.hostIp
  case geoipMap => exact hgeo.trans h.geoipMap

/-- What is in force when the daemon has started. -/
theorem inForce_started {args : List CStr} {sys : Surroundings} {rc : RuntimeConfig}
    {ans : LoaderAnswers} {hostIp : U32} (hstart : Started args sys rc ans hostIp) (libs : Libs) :
    InForce libs (startedDaemon rc ans hostIp) [] (startedDaemon rc ans hostIp) := by
  have hloaded := loadBpfProgram_of_ok hstart.loaded
  obtain ⟨-, hvals⟩ := settings_run hstart []
  constructor
  case rules =>
    rw [startedDaemon, hloaded]
    exact Table.Encodes.empty
  case configured => exact fun t => (hvals t).1
  case enforced => exact fun t => (hvals t).2
  case countries =>
    rw [startedDaemon, hloaded]
    rfl
  case fd => rfl
  case hostIp => rfl
  case geoipMap => rfl

/-- **What any operations bring into force.** -/
theorem inForce_run {args : List CStr} {sys : Surroundings} {rc : RuntimeConfig}
    {ans : LoaderAnswers} {hostIp : U32} (hstart : Started args sys rc ans hostIp) (libs : Libs)
    (ops : List DaemonOp) :
    InForce libs (startedDaemon rc ans hostIp) ops
      (ops.foldl (fun d op => op.run libs d) (startedDaemon rc ans hostIp)) := by
  induction ops using List.reverseRecOn with
  | nil => exact inForce_started hstart libs
  | append_singleton ops op ih =>
    rw [List.foldl_append]
    exact ih.step op

/-! ## Runs of the system -/

/-- The operation of an event. -/
def FirewallEvent.op? : FirewallEvent → Option DaemonOp
  | .op o => some o
  | .frame _ => none

/-- The operations that the requests of a run have carried out. -/
def systemOps (libs : Libs) (sys : System) (events : List SystemEvent) : List DaemonOp :=
  (firewallEvents libs sys events).filterMap FirewallEvent.op?

/-- The daemon goes through them. -/
theorem daemon_final (libs : Libs) (sys : System) (events : List SystemEvent) :
    (final (systemStep libs) sys events).server.daemon =
      (systemOps libs sys events).foldl (fun d op => op.run libs d) sys.server.daemon := by
  have hpart : IsPart (systemStep libs) (fun sys => sys.firewall.daemon)
      (fun event sys => (firewallSel libs event sys).bind FirewallEvent.op?)
      fun op d => op.run libs d := by
    refine (firewall_isPart libs).comp ?_
    rintro (op | f) fw <;> rfl
  have hrun := hpart.view_final sys events
  rwa [Trace.selected_bind] at hrun

/-- The rules of a history refuse an endpoint: the last change of the rule for it stores one to
drop, or no such rule stands and the last change of the rule for port 0 stores one to drop. -/
def Refuses (changes : List (Change Endpoint RuleAction)) (e : Endpoint) : Prop :=
  LastSet changes e .drop ∨
    (∀ a, ¬ LastSet changes e a) ∧ LastSet changes { e with port := 0 } .drop

/-- That is when the most specific rule says to drop. -/
theorem mostSpecific_changed_iff {changes : List (Change Endpoint RuleAction)} {e : Endpoint} :
    mostSpecific (changed changes) e = some .drop ↔ Refuses changes e := by
  rw [mostSpecific, Option.or_eq_some_iff, Table.changed_eq_some_iff, Table.changed_eq_some_iff,
    Table.changed_eq_none_iff, Refuses]

/-- **What the system does to a frame.** After start-up and any run of requests and frames, the
kernel enforces the rules, thresholds and countries of the requests that were let through, and a
frame with a transport header is dropped exactly when an earlier check drops it or the last of those
requests on its source, or on its destination, have asked for that, and the key that `apply_rule`
builds for it is padded with zero. -/
theorem frame_drop_iff (libs : Libs) (args : List CStr) (env : Surroundings) (rc : RuntimeConfig)
    (ans : LoaderAnswers) (hostIp : U32) (hstart : Started args env rc ans hostIp) (db : Database)
    (files : Files) (events : List SystemEvent) (f : TimedFrame) (l4 : Transport)
    (hip : f.ctx.isIpv4 = true) (hl4 : f.ctx.transport f.ctx.iphdr = some l4) :
    let sys₀ : System := ⟨⟨startedDaemon rc ans hostIp, db, files⟩, Maps.initial⟩
    let sys := final (systemStep libs) sys₀ events
    let ops := systemOps libs sys₀ events
    InForce libs (startedDaemon rc ans hostIp) ops sys.server.daemon ∧
      ((systemStep libs (.frame f) sys).1 = .verdict .drop ↔
        (earlierChecks sys.server.daemon.user f.clk f.ctx.iphdr l4 (countFrame f.ctx sys.maps)).1 =
            .drop ∨
          (f.clk.padding.source = 0 ∧ Refuses (ruleChanges libs ops) f.ctx.sourceEnd) ∨
          (f.clk.padding.dest = 0 ∧ Refuses (ruleChanges libs ops) f.ctx.destEnd)) := by
  intro sys₀ sys ops
  have hforce : InForce libs (startedDaemon rc ans hostIp) ops sys.server.daemon := by
    have hdaemon : sys.server.daemon = _ := daemon_final libs sys₀ events
    rw [hdaemon]
    exact inForce_run hstart libs ops
  refine ⟨hforce, ?_⟩
  rw [← mostSpecific_changed_iff, ← mostSpecific_changed_iff,
    ← xdpProg_drop_iff hforce.rules f.clk hip hl4 sys.maps]
  simp only [systemStep, xdpStep, SystemOutput.verdict.injEq]

/-- The body of a request to drop the UDP packets from 10.0.0.1. -/
def operatorBody : CStr :=
  "\x7b\"ip\":\"10.0.0.1\",\"port\":0,\"proto\":\"udp\",\"action\":\"drop\"\x7d".toList

/-- The libraries, where they are asked for that body. -/
def operatorLibs : Libs where
  parse := fun text =>
    if text = operatorBody then some (blockBody "10.0.0.1".toList "udp") else none
  toText := fun _ => []
  sha256 := fun _ => []

/-- The request, with the token of a session. -/
def operatorRequest : HttpRequest where
  url := "/api/v1/rules".toList
  method := "POST".toList
  authorization := some "Bearer t".toList
  apiKey := none
  chunks := [operatorBody]
  chunks_ne := by
    intro chunk hchunk
    rw [List.mem_singleton.1 hchunk]
    exact List.cons_ne_nil _ _

/-- The session. -/
def operatorDb : Database :=
  { Database.empty with sessions := [⟨[], [], "t".toList, 1700003600⟩] }

theorem frame_drop_iff_operator :
    let sys₀ : System :=
      ⟨⟨startedDaemon runtimeConfigInit loaderSucceeds 0x0100000a, operatorDb, Table.empty⟩,
        Maps.initial⟩
    let events : List SystemEvent :=
      [.request ⟨operatorRequest, .still 1700000000, fun _ => some ⟨200, ""⟩⟩]
    (systemStep operatorLibs (.frame ⟨.still 0, blockedPacket⟩)
      (final (systemStep operatorLibs) sys₀ events)).1 = .verdict .drop := by
  intro sys₀ events
  have hl4 : blockedPacket.transport blockedPacket.iphdr = some (.udp ⟨0x8813, 0x5000⟩) := by
    decide +kernel
  have hchanges : ruleChanges operatorLibs (systemOps operatorLibs sys₀ events) =
      [.set ⟨⟨10, 0, 0, 1⟩, 0, IPPROTO_UDP⟩ .drop] := by decide +kernel
  have hdrop := (frame_drop_iff operatorLibs [] bareSurroundings runtimeConfigInit loaderSucceeds
    0x0100000a started_bare operatorDb Table.empty events ⟨.still 0, blockedPacket⟩ _
    (by decide +kernel) hl4).2
  refine hdrop.2 (.inr (.inl ⟨rfl, .inr ⟨fun a => ?_, ?_⟩⟩))
  · rw [hchanges, ← Table.changed_eq_some_iff]
    cases a <;> decide +kernel
  · rw [hchanges, ← Table.changed_eq_some_iff]
    decide +kernel

end Cyrenus
