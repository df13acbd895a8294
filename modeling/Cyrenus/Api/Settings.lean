import Cyrenus.Api.Json
import Cyrenus.Config.Precedence
import Cyrenus.Lib.Trace
import Cyrenus.Loader
import Mathlib.Data.List.DropRight

/-!
# The thresholds

The thresholds are held twice: in the runtime configuration, which is what the daemon reports, and
in the configuration map, which is what the kernel program enforces. `api_system_update_settings`
writes the first and then tries to copy it to the second; nothing else writes either of them. So the
first holds the values last posted, or the defaults, and the second those of the last request whose
copy arrived, or the zeros the map was created with (`settings_run`). `thresholds_agree_iff` says
when these are the same.
-/

namespace Cyrenus

/-! ## The handler -/

/-- The part of the daemon that the settings are kept in. -/
structure Daemon where
  config : RuntimeConfig
  user : UserMaps
  configMapFd : ℤ

/-- Store the thresholds that a settings object has. -/
def storeThresholds (root : Json) (rc : RuntimeConfig) : RuntimeConfig :=
  { rc with
    synFloodRate := ((root.get? "syn_flood_rate").map Json.getInt).getD rc.synFloodRate
    udpFloodRate := ((root.get? "udp_flood_rate").map Json.getInt).getD rc.udpFloodRate
    icmpFloodRate := ((root.get? "icmp_flood_rate").map Json.getInt).getD rc.icmpFloodRate
    dnsAmpRate := ((root.get? "dns_amp_rate").map Json.getInt).getD rc.dnsAmpRate
    maxFrags := ((root.get? "max_frags").map Json.getInt).getD rc.maxFrags }

/-- The thresholds of a configuration, as the record the map holds. -/
def RuntimeConfig.attacksConfig (rc : RuntimeConfig) : AttacksConfig :=
  ⟨rc.synFloodRate, rc.udpFloodRate, rc.icmpFloodRate, rc.dnsAmpRate, rc.maxFrags⟩

/-- `api_system_update_settings`, given whether `bpf_map_update_elem` succeeds. Its result is not
looked at. -/
def apiSystemUpdateSettings (body : Body) (updateOk : Bool) (d : Daemon) : Response × Daemon :=
  match body with
  | none => (⟨400, "\x7b\"error\":\"Invalid JSON\"\x7d"⟩, d)
  | some root =>
    let d := { d with config := storeThresholds root d.config }
    let d := if d.configMapFd > 0 ∧ updateOk then
        { d with user := { d.user with
          configMap := d.user.configMap.update 0 d.config.attacksConfig } }
      else d
    (⟨200, "\x7b\"status\":\"settings updated\"\x7d"⟩, d)

/-! ## Thresholds by name -/

/-- The thresholds. -/
inductive Threshold where
  | synFloodRate
  | udpFloodRate
  | icmpFloodRate
  | dnsAmpRate
  | maxFrags
  deriving DecidableEq, Repr

namespace Threshold

/-- The member of a settings object that sets a threshold. -/
def member : Threshold → String
  | .synFloodRate => "syn_flood_rate"
  | .udpFloodRate => "udp_flood_rate"
  | .icmpFloodRate => "icmp_flood_rate"
  | .dnsAmpRate => "dns_amp_rate"
  | .maxFrags => "max_frags"

/-- The value of a threshold in a record. -/
def value : Threshold → AttacksConfig → U32
  | .synFloodRate, cfg => cfg.synFloodRate
  | .udpFloodRate, cfg => cfg.udpFloodRate
  | .icmpFloodRate, cfg => cfg.icmpFloodRate
  | .dnsAmpRate, cfg => cfg.dnsAmpRate
  | .maxFrags, cfg => cfg.maxFrags

end Threshold

/-- A settings request, and whether the update of the map succeeds. -/
structure SettingsRequest where
  body : Body
  updateOk : Bool

/-- One request of a run. -/
def settingsStep (r : SettingsRequest) : Daemon → Response × Daemon :=
  apiSystemUpdateSettings r.body r.updateOk

/-- The value a request posts for a threshold. -/
def SettingsRequest.posted (r : SettingsRequest) (t : Threshold) : Option U32 :=
  r.body.bind fun root => (root.get? t.member).map Json.getInt

/-- The copy of a request arrives in the map whose descriptor is `fd`. -/
def SettingsRequest.arrives (fd : ℤ) (r : SettingsRequest) : Bool :=
  r.body.isSome && decide (fd > 0) && r.updateOk

/-- The value last posted for a threshold, or its default. -/
def lastPosted (rs : List SettingsRequest) (t : Threshold) : U32 :=
  rs.foldl (fun v r => (r.posted t).getD v) (t.value runtimeConfigInit.attacksConfig)

/-- The value last posted for a threshold when the last copy arrived in the map; zero when none has
arrived. -/
def lastArrived (fd : ℤ) (rs : List SettingsRequest) (t : Threshold) : U32 :=
  match rs.rdropWhile fun r => !r.arrives fd with
  | [] => 0
  | pre => lastPosted pre t

theorem lastPosted_concat (rs : List SettingsRequest) (r : SettingsRequest) (t : Threshold) :
    lastPosted (rs ++ [r]) t = (r.posted t).getD (lastPosted rs t) := by
  simp [lastPosted, List.foldl_append]

theorem lastArrived_concat (fd : ℤ) (rs : List SettingsRequest) (r : SettingsRequest)
    (t : Threshold) :
    lastArrived fd (rs ++ [r]) t =
      if r.arrives fd then lastPosted (rs ++ [r]) t else lastArrived fd rs t := by
  unfold lastArrived
  rw [List.rdropWhile_concat]
  cases r.arrives fd with
  | true => cases rs <;> rfl
  | false => rfl

/-! ## Runs -/

/-- What a request does to a threshold of the configuration. -/
theorem settingsStep_config (r : SettingsRequest) (d : Daemon) (t : Threshold) :
    t.value (settingsStep r d).2.config.attacksConfig =
      (r.posted t).getD (t.value d.config.attacksConfig) := by
  obtain ⟨body, updateOk⟩ := r
  cases body with
  | none => rfl
  | some root =>
    simp only [settingsStep, apiSystemUpdateSettings]
    split <;> cases t <;> rfl

/-- What a request does to a threshold of the map. -/
theorem settingsStep_configMap (r : SettingsRequest) (d : Daemon) (t : Threshold) :
    t.value ((settingsStep r d).2.user.configMap 0) =
      if r.arrives d.configMapFd then t.value (settingsStep r d).2.config.attacksConfig
      else t.value (d.user.configMap 0) := by
  obtain ⟨body, updateOk⟩ := r
  cases body with
  | none => rfl
  | some root =>
    have harrives : (⟨some root, updateOk⟩ : SettingsRequest).arrives d.configMapFd = true ↔
        d.configMapFd > 0 ∧ updateOk = true := by simp [SettingsRequest.arrives]
    by_cases ha : d.configMapFd > 0 ∧ updateOk = true
    · rw [if_pos (harrives.2 ha)]
      simp only [settingsStep, apiSystemUpdateSettings, if_pos ha]
      rfl
    · rw [if_neg (mt harrives.1 ha)]
      simp only [settingsStep, apiSystemUpdateSettings, if_neg ha]

/-- No request changes the descriptor. -/
theorem settingsStep_fd (r : SettingsRequest) (d : Daemon) :
    (settingsStep r d).2.configMapFd = d.configMapFd := by
  obtain ⟨body, updateOk⟩ := r
  cases body with
  | none => rfl
  | some root =>
    simp only [settingsStep, apiSystemUpdateSettings]
    split <;> rfl

/-! ## Start-up -/

/-- No option gives the thresholds a value. -/
theorem applyOption_attacksConfig {opt : Char} {optarg : CStr} {rc rc' : RuntimeConfig}
    (h : (applyOption opt optarg rc).config = some rc') : rc'.attacksConfig = rc.attacksConfig := by
  unfold applyOption at h
  dsimp only at h
  split at h <;> try split at h
  all_goals first
    | cases h; rfl
    | cases h

/-- Nor does any other source. -/
theorem attacksConfig_writtenBy :
    WrittenBy RuntimeConfig.attacksConfig (.none runtimeConfigInit.attacksConfig) where
  init := rfl
  loadEnv getenv rc := rfl
  applyOption := applyOption_attacksConfig
  positional rc path := rfl
  loadFile {file rc rc'} h := by
    simp only [runtimeConfigLoadFile] at h
    split at h
    · cases h
    · cases h
      rfl

/-- **The configuration that `main` computes has the default thresholds.** -/
theorem mainConfig_attacksConfig {args : List CStr} {sys : Surroundings} {rc : RuntimeConfig}
    (h : mainConfig args sys = some rc) :
    rc.attacksConfig = runtimeConfigInit.attacksConfig :=
  (attacksConfig_writtenBy.mainConfig h).trans (Sources.last_none ..)

/-- The daemon after start-up: the configuration `main` computed, and what `load_bpf_program`
left. -/
def startedDaemon (rc : RuntimeConfig) (ans : LoaderAnswers) (hostIp : U32) : Daemon where
  config := rc
  user := (loadBpfProgram ans "/usr/local/lib/cyrenus_xdp_prog.o" (String.ofList rc.interface)
    hostIp).user
  configMapFd := ans.mapFd "config_map"

/-- Start-up has succeeded: `main` has computed this configuration and `load_bpf_program` has
returned 0. -/
structure Started (args : List CStr) (sys : Surroundings) (rc : RuntimeConfig)
    (ans : LoaderAnswers) (hostIp : U32) : Prop where
  config : mainConfig args sys = some rc
  loaded : (loadBpfProgram ans "/usr/local/lib/cyrenus_xdp_prog.o" (String.ofList rc.interface)
    hostIp).result = .ok ()

/-- **What a run of requests leaves**: in the configuration the values last posted, in the map those
last posted when the last copy arrived. -/
theorem settings_run {args : List CStr} {sys : Surroundings} {rc : RuntimeConfig}
    {ans : LoaderAnswers} {hostIp : U32} (hstart : Started args sys rc ans hostIp)
    (rs : List SettingsRequest) :
    let d := Trace.final settingsStep (startedDaemon rc ans hostIp) rs
    d.configMapFd = ans.mapFd "config_map" ∧
      ∀ t : Threshold, t.value d.config.attacksConfig = lastPosted rs t ∧
        t.value (d.user.configMap 0) = lastArrived (ans.mapFd "config_map") rs t := by
  induction rs using List.reverseRecOn with
  | nil =>
    refine ⟨rfl, fun t => ⟨?_, ?_⟩⟩
    · rw [Trace.final_nil, startedDaemon, mainConfig_attacksConfig hstart.config]
      rfl
    · rw [Trace.final_nil, startedDaemon, loadBpfProgram_of_ok hstart.loaded]
      cases t <;> rfl
  | append_singleton rs r ih =>
    obtain ⟨hfd, hvals⟩ := ih
    dsimp only
    rw [Trace.final_concat]
    refine ⟨(settingsStep_fd ..).trans hfd, fun t => ?_⟩
    have hconfig := settingsStep_config r
      (Trace.final settingsStep (startedDaemon rc ans hostIp) rs) t
    rw [(hvals t).1, ← lastPosted_concat] at hconfig
    refine ⟨hconfig, ?_⟩
    rw [settingsStep_configMap, hconfig, hfd, (hvals t).2, lastArrived_concat]

/-- **When the enforced thresholds are the configured ones.** After start-up and a run of requests,
they agree exactly when each value last posted (or else its default) is the one last posted when
the last copy arrived (or else zero). -/
theorem thresholds_agree_iff (args : List CStr) (sys : Surroundings) (rc : RuntimeConfig)
    (ans : LoaderAnswers) (hostIp : U32) (hstart : Started args sys rc ans hostIp)
    (rs : List SettingsRequest) :
    let d := Trace.final settingsStep (startedDaemon rc ans hostIp) rs
    getConfig d.user.configMap = d.config.attacksConfig ↔
      ∀ t, lastPosted rs t = lastArrived (ans.mapFd "config_map") rs t := by
  intro d
  obtain ⟨-, hvals⟩ := settings_run hstart rs
  rw [getConfig_eq]
  constructor
  · intro he t
    rw [← (hvals t).1, ← (hvals t).2, ← he]
  · intro hall
    have hval : ∀ t : Threshold, t.value (d.user.configMap 0) = t.value d.config.attacksConfig :=
      fun t => (hvals t).2.trans ((hall t).symm.trans (hvals t).1.symm)
    have hsyn := hval .synFloodRate
    have hudp := hval .udpFloodRate
    have hicmp := hval .icmpFloodRate
    have hdns := hval .dnsAmpRate
    have hfrags := hval .maxFrags
    generalize d.user.configMap 0 = cfg at hsyn hudp hicmp hdns hfrags ⊢
    cases cfg
    simp only [Threshold.value] at hsyn hudp hicmp hdns hfrags
    rw [hsyn, hudp, hicmp, hdns, hfrags]

/-- Surroundings without variables and files. -/
def bareSurroundings : Surroundings := ⟨fun _ => none, fun _ => false, fun _ => none⟩

/-- A load in which every call succeeds. -/
def loaderSucceeds : LoaderAnswers where
  open_failed := false
  load_failed := false
  progFd := 3
  ifindex := 2
  attach := 0
  mapFd := fun _ => 4
  updateHostIp := 0

theorem started_bare : Started [] bareSurroundings runtimeConfigInit loaderSucceeds 0x0100000a :=
  ⟨rfl, rfl⟩

/-- Until the first settings request the kernel program enforces thresholds of zero. -/
theorem thresholds_agree_fails :
    ¬ ∀ (args : List CStr) (sys : Surroundings) (rc : RuntimeConfig) (ans : LoaderAnswers)
      (hostIp : U32), Started args sys rc ans hostIp → ∀ rs : List SettingsRequest,
      let d := Trace.final settingsStep (startedDaemon rc ans hostIp) rs
      getConfig d.user.configMap = d.config.attacksConfig := by
  intro h
  have hbare := h [] bareSurroundings runtimeConfigInit loaderSucceeds 0x0100000a started_bare []
  exact absurd hbare (by decide +kernel)

theorem thresholds_agree_iff_posted :
    let rs : List SettingsRequest :=
      [⟨some (.object [("syn_flood_rate".toList, .int 500)]), true⟩]
    let d := Trace.final settingsStep (startedDaemon runtimeConfigInit loaderSucceeds 0x0100000a) rs
    d.user.configMap 0 = ⟨500, 100000, 100, 200, 15⟩ ∧
      (getConfig d.user.configMap = d.config.attacksConfig ↔
        ∀ t, lastPosted rs t = lastArrived (loaderSucceeds.mapFd "config_map") rs t) :=
  ⟨by decide +kernel, thresholds_agree_iff [] bareSurroundings runtimeConfigInit loaderSucceeds
    0x0100000a started_bare _⟩

end Cyrenus
